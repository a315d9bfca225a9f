import Signet.Configuration.Loading

/-!
# Key stores

A key store never lets go of a key: an insertion binds an identifier that is free and leaves all
others as they are (`KeyStore.get?_of_insert`). So what has been bound stays bound to the end of
loading, and a store that has been loaded holds the key of each of its entries
(`KeyStore.get?_of_load`). As a signer it hands a question about a key that it holds to this key.
-/

namespace Signet.KeyStore

variable {store after : KeyStore} {identifier : String} {key : DigestSigner}

/-! ## Insertions -/

/-- An insertion succeeds if the identifier is free. -/
theorem insert_eq_ok_iff :
    store.insert identifier key = .ok after ↔
      store.get? identifier = none ∧ after = ⟨(identifier, key) :: store.keys⟩ := by
  unfold insert contains
  cases found : store.get? identifier with
  | none =>
    refine ⟨fun inserted => ?_, fun free => ?_⟩
    · cases inserted
      exact ⟨rfl, rfl⟩
    · obtain ⟨-, rfl⟩ := free
      rfl
  | some bound =>
    exact ⟨nofun, fun inserted => nomatch inserted.1⟩

/-- An insertion fails if its identifier is bound. -/
theorem insert_eq_error_iff {failure : Failure} :
    store.insert identifier key = .error failure ↔
      store.contains identifier = true ∧ failure = duplicate identifier := by
  unfold insert
  split
  next bound => simp [bound, eq_comm]
  next free => simp [free]

/-- An insertion binds its identifier and nothing else. -/
theorem get?_of_insert (inserted : store.insert identifier key = .ok after) (other : String) :
    after.get? other = if other = identifier then some key else store.get? other := by
  obtain ⟨-, rfl⟩ := insert_eq_ok_iff.mp inserted
  unfold get?
  rw [List.lookup_cons]
  by_cases same : other = identifier
  · rw [if_pos same, beq_iff_eq.mpr same]
  · rw [if_neg same, beq_eq_false_iff_ne.mpr same]

/-- An insertion lets go of no key. -/
theorem get?_of_insert_of_bound {other : String} {bound : DigestSigner}
    (inserted : store.insert identifier key = .ok after)
    (found : store.get? other = some bound) : after.get? other = some bound := by
  rw [get?_of_insert inserted, found]
  refine if_neg fun same => ?_
  rw [same, (insert_eq_ok_iff.mp inserted).1] at found
  cases found

/-! ## Loading -/

/-- Loading takes one entry after the other. -/
theorem load_cons_eq_ok_iff {entry : KeyEntry} {entries : List KeyEntry} :
    (store.load (entry :: entries)).store = .ok after ↔
      ∃ key next, entry.algorithm.deriveKey entry.seed = .ok key ∧
        store.insert entry.identifier key = .ok next ∧ (next.load entries).store = .ok after := by
  rw [load]
  cases derived : entry.algorithm.deriveKey entry.seed with
  | error failure =>
    refine ⟨nofun, fun steps => ?_⟩
    obtain ⟨_, _, ⟨⟩, -⟩ := steps
  | ok key =>
    cases inserted : store.insert entry.identifier key with
    | error failure =>
      dsimp only [Loading.after]
      rw [inserted]
      refine ⟨nofun, fun steps => ?_⟩
      obtain ⟨_, _, ⟨⟩, inserted', -⟩ := steps
      exact nomatch inserted.symm.trans inserted'
    | ok next =>
      dsimp only [Loading.after]
      rw [inserted]
      refine ⟨fun loaded => ⟨key, next, rfl, inserted, loaded⟩, fun steps => ?_⟩
      obtain ⟨_, _, ⟨⟩, inserted', loaded⟩ := steps
      cases inserted.symm.trans inserted'
      exact loaded

/-- What is bound before stays bound while entries are loaded. -/
theorem get?_of_load_of_bound {entries : List KeyEntry}
    (loaded : (store.load entries).store = .ok after)
    (found : store.get? identifier = some key) : after.get? identifier = some key := by
  induction entries generalizing store with
  | nil =>
    cases loaded
    exact found
  | cons entry entries ih =>
    obtain ⟨_, next, -, inserted, rest⟩ := load_cons_eq_ok_iff.mp loaded
    exact ih rest (get?_of_insert_of_bound inserted found)

/-- A store that entries have been loaded into holds the key of each of them. -/
theorem get?_of_load {entries : List KeyEntry} {entry : KeyEntry}
    (loaded : (store.load entries).store = .ok after) (member : entry ∈ entries) :
    ∃ key, entry.algorithm.deriveKey entry.seed = .ok key ∧
      after.get? entry.identifier = some key := by
  induction entries generalizing store with
  | nil => exact absurd member List.not_mem_nil
  | cons first entries ih =>
    obtain ⟨key, next, derived, inserted, rest⟩ := load_cons_eq_ok_iff.mp loaded
    rcases List.mem_cons.mp member with rfl | member
    · refine ⟨key, derived, get?_of_load_of_bound rest ?_⟩
      rw [get?_of_insert inserted]
      exact if_pos rfl
    · exact ih rest member

/-! ## Answers -/

/-- Asked to sign with a key that it holds, for a caller that still wants it, a store lets the key
sign. -/
theorem signer_sign (found : store.get? identifier = some key) (history : List SignerCall)
    (digest : Octets) (hash : HashAlgorithm) (token : Token) :
    store.signer history ⟨.sign digest hash, identifier, token, false⟩ =
      ⟨[.signingDigest identifier key.algorithm hash], some 1,
        signEnding identifier (key.sign digest hash)⟩ := by
  unfold signer sign find
  dsimp only
  rw [found]
  rfl

/-- Asked for the public key of a key that it holds, a store answers at once. -/
theorem signer_publicKey (found : store.get? identifier = some key) (history : List SignerCall)
    (token : Token) :
    store.signer history ⟨.publicKey, identifier, token, false⟩ =
      .done (key.publicKeyPem.map Octets.ofText) := by
  unfold signer publicKey find
  dsimp only
  rw [found]
  rfl

end Signet.KeyStore
