import Mathlib.Data.Finset.Card
import Signet.Proofs.ConfiguredStores

/-!
# Runs of two stores

A run takes two stores through operations on the first of them, through copies of the first into the
place of the second, and through exchanges. Each store has a history: the operations that have been
performed on it, and for a copy before them those on what it was copied from. What a store is
depends on its own history alone (`Pair.run_twice`), and it is the finite map that binds each
identifier to the key that was first inserted under it (`KeyStore.Records`): one operation leaves it
so (`KeyStore.Records.after`), and so does any number of them (`KeyStore.records_foldl`). Its
answers are those of that map (`KeyStore.Records.answer`).
-/

namespace Signet

/-! ## Pairs -/

/-- Two things of a kind, of which the first is at hand. -/
structure Pair (σ : Type) where
  first : σ
  second : σ

namespace Pair

/-- A step with a pair: an operation on the first of the two, a copy of it in the place of the
second, or an exchange. -/
inductive Step (ω : Type)
  | perform (operation : ω)
  | fork
  | swap

variable {σ τ ω : Type}

/-- What a step makes of a pair, if it is known what an operation makes of one thing. -/
def step (after : σ → ω → σ) (pair : Pair σ) : Step ω → Pair σ
  | .perform operation => ⟨after pair.first operation, pair.second⟩
  | .fork => ⟨pair.first, pair.first⟩
  | .swap => ⟨pair.second, pair.first⟩

def run (after : σ → ω → σ) (pair : Pair σ) (steps : List (Step ω)) : Pair σ :=
  steps.foldl (step after) pair

def map (convert : σ → τ) (pair : Pair σ) : Pair τ :=
  ⟨convert pair.first, convert pair.second⟩

/-- The histories of both of a pair: which operations have been performed on each, and on what it is
a copy of. -/
def histories (steps : List (Step ω)) : Pair (List ω) :=
  run (fun history operation => history ++ [operation]) ⟨[], []⟩ steps

/-- A conversion that goes along with every operation goes along with runs. -/
theorem run_map {after : σ → ω → σ} {later : τ → ω → τ} {convert : τ → σ}
    (converted : ∀ thing operation,
      convert (later thing operation) = after (convert thing) operation)
    (pair : Pair τ) (steps : List (Step ω)) :
    run after (pair.map convert) steps = (run later pair steps).map convert := by
  induction steps generalizing pair with
  | nil => rfl
  | cons taken steps ih =>
    have oneStep : step after (pair.map convert) taken = (step later pair taken).map convert := by
      cases taken with
      | perform operation => exact congrArg (Pair.mk · _) (converted _ _).symm
      | fork => rfl
      | swap => rfl
    unfold run at ih ⊢
    rw [List.foldl_cons, List.foldl_cons, oneStep, ih]

/-- Of two things that are the same at the beginning, a run makes what their own histories make of
them. -/
theorem run_twice (after : σ → ω → σ) (thing : σ) (steps : List (Step ω)) :
    run after ⟨thing, thing⟩ steps = (histories steps).map (List.foldl after thing) :=
  run_map (fun _ _ => List.foldl_concat ..) ⟨[], []⟩ steps

end Pair

namespace KeyStore

/-! ## Operations -/

/-- What can be done with a key store: a key is inserted, or the store is asked whether it holds a
key, how many it holds, or, as a signer, to sign a digest or for a public key. -/
inductive Operation
  | insert (identifier : String) (key : DigestSigner)
  | contains (identifier : String)
  | size
  | ask (call : SignerCall)

inductive Answer
  | inserted
  | refused (failure : Failure)
  | contained (isHeld : Bool)
  | counted (size : Nat)
  | begun (task : Task Failure Octets)

/-- What an operation makes of a store, and what it answers. -/
def perform (store : KeyStore) : Operation → KeyStore × Answer
  | .insert identifier key =>
    match store.insert identifier key with
    | .ok after => (after, .inserted)
    | .error failure => (store, .refused failure)
  | .contains identifier => (store, .contained (store.contains identifier))
  | .size => (store, .counted store.size)
  | .ask call => (store, .begun (store.signer [] call))

def after (store : KeyStore) (operation : Operation) : KeyStore :=
  (store.perform operation).1

def answer (store : KeyStore) (operation : Operation) : Answer :=
  (store.perform operation).2

variable {store : KeyStore} {identifier : String} {key : DigestSigner}

theorem perform_insert_of_bound (bound : store.contains identifier = true) :
    store.perform (.insert identifier key) = (store, .refused (duplicate identifier)) := by
  unfold perform
  dsimp only
  rw [insert_eq_error_iff.mpr ⟨bound, rfl⟩]

theorem perform_insert_of_free (free : store.contains identifier = false) :
    store.perform (.insert identifier key) =
      (⟨(identifier, key) :: store.keys⟩, .inserted) := by
  unfold perform
  dsimp only
  rw [insert_eq_ok_iff.mpr ⟨contains_eq_false_iff.mp free, rfl⟩]

/-- Only the insertion of a key under a free identifier changes a store. -/
theorem after_eq_or (store : KeyStore) (operation : Operation) :
    store.after operation = store ∨
      ∃ identifier key, operation = .insert identifier key ∧
        store.contains identifier = false := by
  cases operation with
  | insert identifier key =>
    cases held : store.contains identifier with
    | true => exact Or.inl (congrArg Prod.fst (perform_insert_of_bound held))
    | false => exact Or.inr ⟨identifier, key, rfl, held⟩
  | contains identifier => exact Or.inl rfl
  | size => exact Or.inl rfl
  | ask call => exact Or.inl rfl

/-- Asked for a key that it does not hold, a store answers like an empty one. -/
theorem signer_of_free {call : SignerCall} (free : store.get? call.identifier = none)
    (earlier : List SignerCall) : store.signer earlier call = empty.signer [] call := by
  unfold signer sign publicKey find
  rw [free]
  rfl

/-! ## Histories -/

/-- The insertion that an operation attempts. -/
def Operation.insertion? : Operation → Option (String × DigestSigner)
  | .insert identifier key => some (identifier, key)
  | _ => none

/-- The insertions that have been attempted, the earliest first. -/
def insertions (history : List Operation) : List (String × DigestSigner) :=
  history.filterMap Operation.insertion?

/-- The key that was first inserted under an identifier. -/
def firstUnder? (history : List Operation) (identifier : String) : Option DigestSigner :=
  (insertions history).lookup identifier

/-- The identifiers under which keys have been inserted. -/
def boundBy (history : List Operation) : Finset String :=
  ((insertions history).map Prod.fst).toFinset

/-- What the finite map answers that binds each identifier to the key that was first inserted under
it. Asked for a key that is not bound, it answers like an empty store. -/
def expected (history : List Operation) : Operation → Answer
  | .insert identifier _ =>
    if identifier ∈ boundBy history then .refused (duplicate identifier) else .inserted
  | .contains identifier => .contained (identifier ∈ boundBy history)
  | .size => .counted (boundBy history).card
  | .ask call =>
    match firstUnder? history call.identifier with
    | some key => .begun (key.answer call)
    | none => .begun (empty.signer [] call)

/-- That a store is the finite map that binds each identifier to the key that was first inserted
under it in some history. -/
structure Records (store : KeyStore) (history : List Operation) : Prop where
  key : ∀ identifier, store.get? identifier = firstUnder? history identifier
  size : store.size = (boundBy history).card

variable {history : List Operation}

theorem firstUnder?_eq_none_iff :
    firstUnder? history identifier = none ↔ identifier ∉ boundBy history := by
  unfold firstUnder? boundBy
  rw [List.lookup_eq_none_iff, List.mem_toFinset, List.mem_map]
  refine ⟨fun missed found => ?_, fun unbound inserted member => ?_⟩
  · obtain ⟨inserted, member, named⟩ := found
    exact bne_iff_ne.mp (missed inserted member) named.symm
  · exact bne_iff_ne.mpr fun named => unbound ⟨inserted, member, named.symm⟩

namespace Records

theorem contains_eq_false_iff (records : store.Records history) :
    store.contains identifier = false ↔ identifier ∉ boundBy history := by
  rw [KeyStore.contains_eq_false_iff, records.key, firstUnder?_eq_none_iff]

theorem contains_iff (records : store.Records history) :
    store.contains identifier = true ↔ identifier ∈ boundBy history := by
  rw [← Bool.not_eq_false, records.contains_eq_false_iff, not_not]

end Records

/-! ## The store as a map -/

theorem firstUnder?_insert (history : List Operation) (identifier other : String)
    (key : DigestSigner) :
    firstUnder? (history ++ [.insert identifier key]) other =
      (firstUnder? history other).or (if other = identifier then some key else none) := by
  unfold firstUnder? insertions
  rw [List.filterMap_append, List.lookup_append]
  congr 1
  show List.lookup other [(identifier, key)] = _
  by_cases same : other = identifier
  · rw [if_pos same, List.lookup_cons, beq_iff_eq.mpr same]
  · rw [if_neg same, List.lookup_cons, beq_eq_false_iff_ne.mpr same]
    rfl

theorem boundBy_insert (history : List Operation) (identifier : String) (key : DigestSigner) :
    boundBy (history ++ [.insert identifier key]) = Insert.insert identifier (boundBy history) := by
  ext other
  unfold boundBy insertions
  rw [List.filterMap_append, List.map_append, List.toFinset_append, Finset.mem_union,
    Finset.mem_insert, or_comm]
  exact or_congr_left (List.mem_toFinset.trans List.mem_singleton)

namespace Records

/-- A refused insertion leaves a store that records its history with the attempt, too: an earlier
one counts. -/
theorem of_bound (records : store.Records history) (bound : identifier ∈ boundBy history)
    (key : DigestSigner) : store.Records (history ++ [.insert identifier key]) where
  key other := by
    rw [firstUnder?_insert, records.key]
    by_cases same : other = identifier
    · have found := mt firstUnder?_eq_none_iff.mp (not_not.mpr bound)
      obtain ⟨first, isFirst⟩ := Option.ne_none_iff_exists'.mp found
      rw [same, isFirst, Option.some_or]
    · rw [if_neg same, Option.or_none]
  size := by
    rw [boundBy_insert, Finset.insert_eq_of_mem bound, records.size]

theorem of_free (records : store.Records history) (free : identifier ∉ boundBy history)
    (key : DigestSigner) :
    (⟨(identifier, key) :: store.keys⟩ : KeyStore).Records
      (history ++ [.insert identifier key]) := by
  have unbound : store.get? identifier = none := by
    rw [records.key, firstUnder?_eq_none_iff]
    exact free
  have inserted : store.insert identifier key = .ok ⟨(identifier, key) :: store.keys⟩ :=
    insert_eq_ok_iff.mpr ⟨unbound, rfl⟩
  refine ⟨fun other => ?_, ?_⟩
  · rw [get?_of_insert inserted, firstUnder?_insert, ← records.key]
    by_cases same : other = identifier
    · rw [if_pos same, if_pos same, same, unbound, Option.none_or]
    · rw [if_neg same, if_neg same, Option.or_none]
  · rw [size_of_insert inserted, boundBy_insert, Finset.card_insert_of_notMem free, records.size]

/-- What attempts no insertion adds nothing to what there is to record. -/
theorem of_question (records : store.Records history) {operation : Operation}
    (noInsertion : operation.insertion? = none) : store.Records (history ++ [operation]) := by
  have same : insertions (history ++ [operation]) = insertions history := by
    unfold insertions
    rw [List.filterMap_append, List.filterMap_cons_none noInsertion, List.filterMap_nil,
      List.append_nil]
  obtain ⟨key, size⟩ := records
  unfold firstUnder? at key
  unfold boundBy at size
  rw [← same] at key size
  exact ⟨key, size⟩

/-- An operation leaves a store that records its history with this operation. -/
theorem after (records : store.Records history) (operation : Operation) :
    (store.after operation).Records (history ++ [operation]) := by
  cases operation with
  | insert identifier key =>
    unfold KeyStore.after
    by_cases bound : identifier ∈ boundBy history
    · rw [perform_insert_of_bound (records.contains_iff.mpr bound)]
      exact records.of_bound bound key
    · rw [perform_insert_of_free (records.contains_eq_false_iff.mpr bound)]
      exact records.of_free bound key
  | contains identifier => exact records.of_question rfl
  | size => exact records.of_question rfl
  | ask call => exact records.of_question rfl

/-- A store that records its history answers as the map does. -/
theorem answer (records : store.Records history) (operation : Operation) :
    store.answer operation = expected history operation := by
  unfold KeyStore.answer expected
  cases operation with
  | insert identifier key =>
    by_cases bound : identifier ∈ boundBy history
    · rw [perform_insert_of_bound (records.contains_iff.mpr bound)]
      exact (if_pos bound).symm
    · rw [perform_insert_of_free (records.contains_eq_false_iff.mpr bound)]
      exact (if_neg bound).symm
  | contains identifier =>
    refine congrArg Answer.contained ?_
    rw [Bool.eq_iff_iff, records.contains_iff, decide_eq_true_iff]
  | size => exact congrArg Answer.counted records.size
  | ask call =>
    dsimp only [perform]
    split
    next key isFirst => rw [signer_of_bound ((records.key _).trans isFirst)]
    next isMissing => rw [signer_of_free ((records.key _).trans isMissing)]

end Records

/-- However many operations have been performed on an empty store, it records all of them. -/
theorem records_foldl (history : List Operation) : (history.foldl after empty).Records history := by
  induction history using List.reverseRecOn with
  | nil => exact ⟨fun _ => rfl, rfl⟩
  | append_singleton history operation ih =>
    rw [List.foldl_concat]
    exact ih.after operation

end KeyStore

/-! ## Two stores -/

/-- **Stores bind first insertions.** In every run from two empty stores, each store is the finite
map that binds each identifier to the key that was first inserted under it in the history of this
store, and answers every operation as this map does. An insertion fails if its identifier is bound,
and only then. Neither store is changed by an operation, unless a key is inserted under a free
identifier. When the first has been copied, the two go on each by its own operations, and none of
those on the other matter. -/
theorem stores_bind_first_insertions (steps : List (Pair.Step KeyStore.Operation)) :
    let stores := Pair.run KeyStore.after ⟨.empty, .empty⟩ steps
    let histories := Pair.histories steps
    (stores.first.Records histories.first ∧ stores.second.Records histories.second) ∧
      (∀ operation, stores.first.answer operation =
        KeyStore.expected histories.first operation) ∧
      (∀ identifier key, (∃ failure, stores.first.insert identifier key = .error failure) ↔
        stores.first.contains identifier = true) ∧
      (∀ operation, stores.step KeyStore.after (.perform operation) = stores ∨
        ∃ identifier key, operation = .insert identifier key ∧
          stores.first.contains identifier = false) ∧
      ∀ later, (stores.step KeyStore.after .fork).run KeyStore.after later =
        (Pair.histories later).map (List.foldl KeyStore.after stores.first) := by
  intro stores histories
  have isMade : stores = histories.map (List.foldl KeyStore.after .empty) :=
    Pair.run_twice KeyStore.after .empty steps
  have first : stores.first.Records histories.first := by
    rw [isMade]
    exact KeyStore.records_foldl histories.first
  have second : stores.second.Records histories.second := by
    rw [isMade]
    exact KeyStore.records_foldl histories.second
  refine ⟨⟨first, second⟩, first.answer, fun identifier key => ?_, fun operation => ?_,
    fun later => ?_⟩
  · refine ⟨fun fails => ?_, fun bound => ?_⟩
    · obtain ⟨failure, failed⟩ := fails
      exact (KeyStore.insert_eq_error_iff.mp failed).1
    · exact ⟨_, KeyStore.insert_eq_error_iff.mpr ⟨bound, rfl⟩⟩
  · exact (stores.first.after_eq_or operation).imp_left (congrArg (Pair.mk · stores.second))
  · exact Pair.run_twice KeyStore.after stores.first later

end Signet
