import Signet.Proofs.ConfiguredService
import Signet.Proofs.Steps

/-!
# Policies and stores of one configuration

The keys of an accepted configuration, if they can be derived at all, are all loaded, each under its
own identifier and each with a line in the log (`KeyStore.load_of_distinct`), and the policy allows
no other keys. So the service of a configuration never looks for a key in vain. What it does is what
it would do if each question to the signer were answered by deriving the key from the entry that the
question names there and then (`Configuration.signer`, `Configuration.trace_signer`), and no access
record tells of a missing key (`Configuration.step_not_tellsOfMissing`).
-/

namespace Signet

/-! ## Loading -/

/-- The name under which the keys of a kind are logged. -/
def KeyAlgorithm.loggedName : KeyAlgorithm → String
  | secp256k1 => "secp256k1"
  | rsa => "rsa-pkcs1v15"

theorem KeyAlgorithm.Derives.algorithm {algorithm : KeyAlgorithm} {seed : String}
    {key : DigestSigner} (derives : Derives seed algorithm key) :
    key.algorithm = algorithm.loggedName := by
  cases derives with
  | secp256k1 _ => rfl
  | rsa _ => rfl

namespace KeyEntry

/-- That the key of an entry can be derived. -/
def IsDerivable (entry : KeyEntry) : Prop :=
  ∃ key, entry.algorithm.deriveKey entry.seed = .ok key

/-- What is logged when the key of an entry has been loaded. -/
def loaded (entry : KeyEntry) : Event :=
  .keyLoaded entry.identifier entry.algorithm.loggedName

end KeyEntry

namespace KeyStore

variable {store after : KeyStore} {identifier : String} {key : DigestSigner}

theorem contains_eq_false_iff :
    store.contains identifier = false ↔ store.get? identifier = none := by
  unfold contains
  rw [Option.isSome_eq_false_iff, Option.isNone_iff_eq_none]

theorem contains_of_insert (inserted : store.insert identifier key = .ok after) (other : String) :
    after.contains other = true ↔ other = identifier ∨ store.contains other = true := by
  unfold contains
  rw [get?_of_insert inserted]
  by_cases same : other = identifier
  · rw [if_pos same]
    exact ⟨fun _ => Or.inl same, fun _ => rfl⟩
  · rw [if_neg same]
    exact ⟨Or.inr, fun held => held.resolve_left same⟩

theorem size_of_insert (inserted : store.insert identifier key = .ok after) :
    after.size = store.size + 1 := by
  obtain ⟨-, rfl⟩ := insert_eq_ok_iff.mp inserted
  rfl

/-- Entries with new and different identifiers are all loaded if their keys can be derived, each
with its line in the log. -/
theorem load_of_distinct {entries : List KeyEntry}
    (derivable : ∀ entry ∈ entries, entry.IsDerivable)
    (free : ∀ entry ∈ entries, store.contains entry.identifier = false)
    (distinct : (entries.map KeyEntry.identifier).Nodup) :
    ∃ after, store.load entries = ⟨entries.map KeyEntry.loaded, .ok after⟩ ∧
      after.size = store.size + entries.length ∧
      ∀ identifier, after.contains identifier = true ↔
        identifier ∈ entries.map KeyEntry.identifier ∨ store.contains identifier = true := by
  induction entries generalizing store with
  | nil =>
    exact ⟨store, rfl, rfl,
      fun _ => ⟨Or.inr, fun held => held.resolve_left List.not_mem_nil⟩⟩
  | cons entry entries ih =>
    rw [List.forall_mem_cons] at derivable free
    rw [List.map_cons, List.nodup_cons] at distinct
    obtain ⟨key, derived⟩ := derivable.1
    have inserted : store.insert entry.identifier key =
        .ok ⟨(entry.identifier, key) :: store.keys⟩ :=
      insert_eq_ok_iff.mpr ⟨contains_eq_false_iff.mp free.1, rfl⟩
    -- The identifiers behind the first entry are still free, since they differ from its own.
    have stillFree : ∀ other ∈ entries,
        (⟨(entry.identifier, key) :: store.keys⟩ : KeyStore).contains other.identifier =
          false := by
      intro other member
      rw [← Bool.not_eq_true, contains_of_insert inserted]
      rintro (same | held)
      · apply distinct.1
        rw [← same]
        exact List.mem_map_of_mem member
      · exact nomatch held.symm.trans (free.2 other member)
    obtain ⟨after, isLoaded, size, holds⟩ := ih derivable.2 stillFree distinct.2
    refine ⟨after, ?_, ?_, fun identifier => ?_⟩
    · rw [load, derived]
      dsimp only
      rw [inserted]
      dsimp only
      rw [isLoaded, (KeyAlgorithm.deriveKey_eq_ok_iff.mp derived).algorithm]
      rfl
    · rw [size, size_of_insert inserted, List.length_cons, Nat.add_assoc, Nat.add_comm 1]
    · rw [holds, contains_of_insert inserted, List.map_cons, List.mem_cons, or_left_comm, or_assoc]

/-- That a store holds the keys of some entries and no others, each under the identifier of its
entry. -/
structure Holds (store : KeyStore) (entries : List KeyEntry) : Prop where
  size : store.size = entries.length
  contains : ∀ identifier, store.contains identifier = true ↔
    identifier ∈ entries.map KeyEntry.identifier
  keys : ∀ entry ∈ entries, ∃ key, entry.algorithm.deriveKey entry.seed = .ok key ∧
    store.get? entry.identifier = some key

end KeyStore

namespace Configuration

variable {configuration : Configuration}

/-- All keys of a configuration are loaded if they can be derived and their identifiers are
distinct. -/
theorem exists_load_of_distinct (distinct : configuration.identifiers.Nodup)
    (derivable : ∀ entry ∈ configuration.keys, entry.IsDerivable) :
    ∃ store, configuration.load = ⟨configuration.keys.map KeyEntry.loaded, .ok store⟩ ∧
      store.Holds configuration.keys := by
  have free : ∀ entry ∈ configuration.keys, KeyStore.empty.contains entry.identifier = false :=
    fun _ _ => rfl
  obtain ⟨store, isLoaded, size, holds⟩ := KeyStore.load_of_distinct derivable free distinct
  refine ⟨store, isLoaded, size.trans (Nat.zero_add _), fun identifier => ?_,
    fun entry member => ?_⟩
  · rw [holds]
    exact ⟨fun held => held.resolve_right nofun, Or.inl⟩
  · exact KeyStore.get?_of_load (congrArg Loading.store isLoaded) member

theorem IsValid.exists_load (isValid : configuration.IsValid)
    (derivable : ∀ entry ∈ configuration.keys, entry.IsDerivable) :
    ∃ store, configuration.load = ⟨configuration.keys.map KeyEntry.loaded, .ok store⟩ ∧
      store.Holds configuration.keys :=
  exists_load_of_distinct isValid.distinct derivable

end Configuration

/-! ## Keys that are derived for each call -/

/-- What a key answers to a call that names it. A call that is cancelled does not reach the key. -/
def DigestSigner.answer (key : DigestSigner) (call : SignerCall) : Task Failure Octets :=
  match call.question, call.isCancelled with
  | .sign _ _, true =>
    .done (.failed
      { outermost := s!"signing with {Text.quote call.identifier} cancelled by caller" })
  | .publicKey, true =>
    .done (.failed
      { outermost := s!"public key lookup for {Text.quote call.identifier} cancelled by caller" })
  | .sign digest hash, false =>
    { log := [.signingDigest call.identifier key.algorithm hash]
      waits := some 1
      ending := KeyStore.signEnding call.identifier (key.sign digest hash) }
  | .publicKey, false => .done (key.publicKeyPem.map Octets.ofText)

/-- A store lets the key that a call names answer it. -/
theorem KeyStore.signer_of_bound {store : KeyStore} {key : DigestSigner} {call : SignerCall}
    (found : store.get? call.identifier = some key) (history : List SignerCall) :
    store.signer history call = key.answer call := by
  rcases call with ⟨_ | _, identifier, token, _ | _⟩
  · exact signer_sign found history _ _ token
  · rfl
  · exact signer_publicKey found history token
  · rfl

/-- The signer that derives the key for each call anew, from the entry that the call names. It is at
a loss with other calls. -/
def Configuration.signer (configuration : Configuration) : Signer := fun _ call =>
  match configuration.keys.find? fun entry => entry.identifier == call.identifier with
  | none => .done (.crashed ⟨none⟩)
  | some entry =>
    match entry.algorithm.deriveKey entry.seed with
    | .error _ => .done (.crashed ⟨none⟩)
    | .ok key => key.answer call

/-- A policy only lets inquiries ask for keys that it lists. -/
theorem Policy.Lets.exists_listed {policy : Policy} {inquiry : Inquiry} {question : Question}
    {identifier : String} (lets : policy.Lets inquiry question identifier) :
    ∃ endpoint, identifier ∈ policy.listKeys endpoint := by
  cases lets with
  | publicKey _ listed => exact ⟨_, listed⟩
  | sign _ listed _ => exact ⟨_, listed⟩

namespace Configuration

variable {configuration : Configuration} {store : KeyStore}

theorem IsKeyOf.find? {entry : KeyEntry} {identifier : String}
    (isKey : configuration.IsKeyOf entry identifier) :
    configuration.keys.find? (fun entry => entry.identifier == identifier) = some entry := by
  cases found : configuration.keys.find? fun entry => entry.identifier == identifier with
  | none =>
    have missed := List.find?_eq_none.mp found entry isKey.listed
    exact absurd (beq_iff_eq.mpr isKey.named) missed
  | some other =>
    have named := List.find?_some found
    rw [isKey.only other (List.mem_of_find?_eq_some found) (beq_iff_eq.mp named)]

theorem IsKeyOf.signer {entry : KeyEntry} {key : DigestSigner} {call : SignerCall}
    (isKey : configuration.IsKeyOf entry call.identifier)
    (derived : entry.algorithm.deriveKey entry.seed = .ok key) (history : List SignerCall) :
    configuration.signer history call = key.answer call := by
  unfold Configuration.signer
  rw [isKey.find?]
  dsimp only
  rw [derived]

/-- Every call of the signer in a session names a key that the configuration allows. -/
theorem allows_of_mem_callsOf {signer : Signer} {session : Session}
    {steps : List (Step × Patience)} {call : SignerCall}
    (called : call ∈ Session.callsOf (session.trace ⟨configuration.policy, signer⟩ steps)) :
    ∃ endpoint, configuration.Allows endpoint call.identifier := by
  obtain ⟨answered, isAnswered, isCall⟩ := List.mem_filterMap.mp called
  obtain ⟨next, isTaken⟩ := Session.exists_mem_zip_trace isAnswered
  have gates := session.trace_gates configuration.policy signer steps _ isTaken
  obtain ⟨-, inquiry, -, lets⟩ :=
    (gates call.question call.identifier).mp ⟨call, isCall, rfl, rfl⟩
  obtain ⟨endpoint, listed⟩ := lets.exists_listed
  exact ⟨endpoint, mem_listKeys_policy.mp listed⟩

/-- In every session the service of a configuration does what it would do if the keys were derived
for each call. -/
theorem trace_signer (isValid : configuration.IsValid)
    (isLoaded : configuration.load.store = .ok store) (session : Session)
    (steps : List (Step × Patience)) :
    session.trace ⟨configuration.policy, configuration.signer⟩ steps =
      session.trace (configuration.service store) steps := by
  apply Session.trace_congr
  intro earlier call later calls
  have called : call ∈
      Session.callsOf (session.trace ⟨configuration.policy, store.signer⟩ steps) := by
    rw [calls]
    exact List.mem_append_right _ (.head _)
  obtain ⟨endpoint, allowed⟩ := allows_of_mem_callsOf called
  obtain ⟨entry, key, isKey, derived, found⟩ := isValid.key_of_allowed isLoaded allowed
  rw [isKey.signer derived, KeyStore.signer_of_bound found]

end Configuration

/-! ## Missing keys -/

/-- That a text begins with a character. -/
def Text.Begins (c : Char) (text : String) : Prop :=
  text.toList.head? = some c

theorem Text.Begins.append {c : Char} {text : String} (begins : Begins c text) (rest : String) :
    Begins c (text ++ rest) := by
  unfold Begins at begins ⊢
  rw [String.toList_append, List.head?_append, begins]
  rfl

/-- The text of a failure begins with its outermost text. -/
theorem Failure.begins_text {c : Char} {failure : Failure}
    (begins : Text.Begins c failure.outermost) : Text.Begins c failure.text := by
  rcases failure with ⟨outermost, _ | ⟨cause, causes⟩⟩
  · unfold text chain
    rw [String.intercalate_singleton]
    exact begins
  · unfold text chain
    rw [String.intercalate_cons_cons, String.append_assoc]
    exact begins.append _

/-- No error of a caller reads like an error of the signer. -/
theorem SigningError.begins_of_callers {error : SigningError} (callers : error.isCallers = true) :
    ∃ c, Text.Begins c error.message ∧ c ≠ 's' := by
  cases error with
  | malformed fault endpoint =>
    cases fault with
    | missingKey =>
      refine ⟨'k', ?_, by decide⟩
      show Text.Begins 'k' ("keyMeta is empty for " ++ endpoint.name)
      have begins : Text.Begins 'k' "keyMeta is empty for " := rfl
      exact begins.append _
    | missingRequestKey =>
      refine ⟨'r', ?_, by decide⟩
      show Text.Begins 'r' ("request.keyMeta is empty for " ++ endpoint.name)
      have begins : Text.Begins 'r' "request.keyMeta is empty for " := rfl
      exact begins.append _
    | emptyIdentifier =>
      refine ⟨'k', ?_, by decide⟩
      show Text.Begins 'k' ("keyMeta.identifier is empty for " ++ endpoint.name)
      have begins : Text.Begins 'k' "keyMeta.identifier is empty for " := rfl
      exact begins.append _
    | malformedBody reason =>
      refine ⟨'m', ?_, by decide⟩
      show Text.Begins 'm' ("malformed request body for " ++ endpoint.name ++ ": " ++ reason)
      have begins : Text.Begins 'm' "malformed request body for " := rfl
      exact ((begins.append _).append _).append _
  | unauthorized identifier endpoint =>
    refine ⟨'c', ?_, by decide⟩
    show Text.Begins 'c' ("cannot use key " ++ identifier ++ " for " ++ endpoint.name)
    have begins : Text.Begins 'c' "cannot use key " := rfl
    exact ((begins.append _).append _).append _
  | undecodable fault =>
    cases fault with
    | invalidByte offset octet =>
      refine ⟨'I', ?_, by decide⟩
      show Text.Begins 'I'
          ("Invalid byte " ++ toString octet.toNat ++ ", offset " ++ toString offset ++ ".")
      have begins : Text.Begins 'I' "Invalid byte " := rfl
      exact (((begins.append _).append _).append _).append _
    | invalidLength => exact ⟨'E', rfl, by decide⟩
    | invalidPadding => exact ⟨'I', rfl, by decide⟩
  | signer failure => cases callers
  | crash lastWords => cases callers

/-- The failure of who looks for a key in vain. -/
def KeyStore.missing (identifier : String) : Failure :=
  { outermost := s!"no key loaded for identifier {Text.quote identifier}" }

theorem KeyStore.eq_missing_of_find {store : KeyStore} {identifier : String} {failure : Failure}
    (failed : store.find identifier = .error failure) : failure = missing identifier := by
  unfold find at failed
  split at failed
  · cases failed
  · cases failed
    rfl

/-- That the text of an error tells that a key was looked for in some store and not found. -/
def TellsOfMissing (text : String) : Prop :=
  ∃ (store : KeyStore) (identifier : String) (failure : Failure),
    store.find identifier = .error failure ∧ text = (SigningError.signer failure).message

theorem TellsOfMissing.exists_missing {text : String} (tells : TellsOfMissing text) :
    ∃ identifier, text = "signer failure: " ++ (KeyStore.missing identifier).text := by
  obtain ⟨_, identifier, _, failed, rfl⟩ := tells
  rw [KeyStore.eq_missing_of_find failed]
  exact ⟨identifier, rfl⟩

theorem TellsOfMissing.begins {text : String} (tells : TellsOfMissing text) :
    Text.Begins 's' text := by
  obtain ⟨identifier, rfl⟩ := tells.exists_missing
  have lead : Text.Begins 's' "signer failure: " := rfl
  exact lead.append _

theorem Text.Begins.not_tellsOfMissing {c : Char} {text : String} (begins : Begins c text)
    (other : c ≠ 's') : ¬ TellsOfMissing text := fun tells =>
  other (Option.some.inj (begins.symm.trans tells.begins))

/-- What a signer reports does not tell of a missing key if it begins with another letter. -/
theorem Text.Begins.not_tellsOfMissing_of_signer {c : Char} {text : String} (begins : Begins c text)
    (other : c ≠ 'n') : ¬ TellsOfMissing ("signer failure: " ++ text) := by
  intro tells
  obtain ⟨identifier, same⟩ := tells.exists_missing
  have isMissing : text = (KeyStore.missing identifier).text := (String.append_right_inj _).mp same
  have lead : Begins 'n' "no key loaded for identifier " := rfl
  have isN : Text.Begins 'n' (KeyStore.missing identifier).text :=
    Failure.begins_text (lead.append _)
  rw [isMissing] at begins
  exact other (Option.some.inj (begins.symm.trans isN))

/-- What a key that tells its public key reports when it fails does not tell of a missing key. -/
theorem DigestSigner.not_tellsOfMissing_of_failed {key : DigestSigner}
    (tells : ∃ pem, key.publicKeyPem = .value pem) {call : SignerCall} {failure : Failure}
    (failed : (key.answer call).ending = .failed failure) :
    ¬ TellsOfMissing ("signer failure: " ++ failure.text) := by
  -- Everything that is reported about signing begins with one letter, about public keys with
  -- another.
  have ofSigning (begins : Text.Begins 's' failure.outermost) :=
    (Failure.begins_text begins).not_tellsOfMissing_of_signer (by decide)
  have ofTelling (begins : Text.Begins 'p' failure.outermost) :=
    (Failure.begins_text begins).not_tellsOfMissing_of_signer (by decide)
  rcases call with ⟨⟨digest, hash⟩ | _, identifier, token, _ | _⟩
  · dsimp only [answer] at failed
    revert failed
    cases key.sign digest hash with
    | value signature => exact nofun
    | failed cause =>
      rintro ⟨⟩
      have lead : Text.Begins 's' "signing with key " := rfl
      exact ofSigning (lead.append _)
    | crashed crash =>
      rintro ⟨⟩
      have lead : Text.Begins 's' "signing task for key " := rfl
      exact ofSigning ((lead.append _).append _)
  · cases failed
    have lead : Text.Begins 's' "signing with " := rfl
    exact ofSigning ((lead.append _).append _)
  · obtain ⟨pem, isPem⟩ := tells
    dsimp only [answer, Task.done] at failed
    rw [isPem] at failed
    cases failed
  · cases failed
    have lead : Text.Begins 'p' "public key lookup for " := rfl
    exact ofTelling ((lead.append _).append _)

/-- No failure of a signer that derives its keys for each call tells of a missing key. -/
theorem Configuration.not_tellsOfMissing_of_fails (configuration : Configuration)
    (history : List SignerCall) {call : SignerCall} {told : String}
    (fails : call.question.Fails (configuration.signer history call).ending told) :
    ¬ TellsOfMissing told := by
  have ofCrash (crash : Crash) : ¬ TellsOfMissing ("unexpected fault: " ++ crash.message) := by
    have lead : Text.Begins 'u' "unexpected fault: " := rfl
    exact (lead.append _).not_tellsOfMissing (by decide)
  have ofFailed {failure : Failure}
      (failed : (configuration.signer history call).ending = .failed failure) :
      ¬ TellsOfMissing ("signer failure: " ++ failure.text) := by
    unfold Configuration.signer at failed
    split at failed
    · cases failed
    · split at failed
      · cases failed
      · rename_i derived
        exact DigestSigner.not_tellsOfMissing_of_failed
          (KeyAlgorithm.deriveKey_eq_ok_iff.mp derived).publicKeyPem failed
  generalize call.question = question at fails
  generalize (configuration.signer history call).ending = ending at fails ofFailed
  cases fails with
  | reported => exact ofFailed rfl
  | crashed => exact ofCrash _
  | noText noText isFault =>
    have isSigner : "signer failure: public key is not UTF-8: " =
        "signer failure: " ++ "public key is not UTF-8: " := rfl
    have lead : Text.Begins 'p' "public key is not UTF-8: " := rfl
    rw [isSigner, String.append_assoc]
    exact (lead.append _).not_tellsOfMissing_of_signer (by decide)

/-- That the log of a step has an access record that tells of a missing key. -/
def Served.TellsOfMissing {α : Type} (served : Served α) : Prop :=
  ∃ record, .access record ∈ served.log ∧ Signet.TellsOfMissing record.error

/-- A call whose work logs no access record has one of its own at most, and it tells of the error
that the call has come to. -/
theorem Call.error_of_mem_logOf {α : Type} {call : Call} {own : List Event}
    {progress : Progress (Except SigningError α)} {record : AccessRecord}
    (noRecord : .access record ∉ own) (member : .access record ∈ call.logOf own progress) :
    record.error = "" ∨ record.error = "call did not complete" ∨
      ∃ error : SigningError, progress = .ended (.error error) ∧
        record.error = error.message := by
  have isLast {last : Event} (member : .access record ∈ own ++ [last]) : .access record = last :=
    List.mem_singleton.mp ((List.mem_append.mp member).resolve_left noRecord)
  cases progress with
  | untouched => exact absurd member List.not_mem_nil
  | pending => exact absurd member noRecord
  | dropped =>
    cases isLast member
    exact Or.inr (Or.inl rfl)
  | ended result =>
    cases result with
    | ok value =>
      cases isLast member
      exact Or.inl rfl
    | error error =>
      cases isLast member
      exact Or.inr (Or.inr ⟨error, rfl, rfl⟩)

/-- A signer that derives its keys for each call writes no access records. -/
theorem Configuration.not_mem_logOf_signer (configuration : Configuration)
    (history : List SignerCall) (call? : Option SignerCall) (record : AccessRecord) :
    .access record ∉ configuration.signer.logOf history call? := by
  rcases call? with _ | call
  · exact List.not_mem_nil
  · show _ ∉ (configuration.signer history call).log
    unfold Configuration.signer
    split
    · exact List.not_mem_nil
    · split
      · exact List.not_mem_nil
      · rcases call with ⟨⟨digest, hash⟩ | _, identifier, token, _ | _⟩
        · exact fun member => nomatch List.mem_singleton.mp member
        · exact List.not_mem_nil
        · exact List.not_mem_nil
        · exact List.not_mem_nil

namespace Configuration

variable (configuration : Configuration)

/-- If keys are derived for each call, no step tells of a missing key. -/
theorem step_not_tellsOfMissing (session : Session) (step : Step) (patience : Patience) :
    ¬ (session.step ⟨configuration.policy, configuration.signer⟩ step
      patience).1.TellsOfMissing := by
  rintro ⟨record, member, tells⟩
  rcases session.step_performs configuration.policy step patience with
    ⟨progress, noTrace⟩ | ⟨α, call, plan, answer, carriesOut⟩
  · rw [noTrace] at member
    exact absurd member List.not_mem_nil
  · rw [carriesOut.performs] at member
    have inLog : .access record ∈ (Service.perform _ _ call plan patience).log := member
    rw [Service.perform_log] at inLog
    rcases Call.error_of_mem_logOf (configuration.not_mem_logOf_signer _ _ record) inLog with
      empty | incomplete | ⟨error, ended, isError⟩
    · rw [empty] at tells
      exact nomatch tells.begins
    · rw [incomplete] at tells
      have begins : Text.Begins 'c' "call did not complete" := rfl
      exact begins.not_tellsOfMissing (by decide) tells
    · rw [isError] at tells
      have failed := (Task.eq_contain_of_outcome ended).symm
      rcases carriesOut.plans.fails_of_error failed with callers | ⟨_, -, fails⟩
      · obtain ⟨c, begins, other⟩ := SigningError.begins_of_callers callers
        exact begins.not_tellsOfMissing other tells
      · exact configuration.not_tellsOfMissing_of_fails session.history fails tells

end Configuration

/-! ## Agreement -/

/-- **The policy and the store of an accepted configuration agree.** If its keys can be derived, all
of them are loaded, and nothing else: each under its own identifier and with its own line in the
log, in order. The policy allows no key that the store does not hold. So, over every session of its
service, the signer is called just as the policy lets the inquiry of each step, every such call is
answered as if the key were derived for it from the entry that it names, and no access record tells
of a missing key. -/
theorem policy_and_store_agree {text : String} {configuration : Configuration}
    (accepted : Configuration.ofText text = .ok configuration)
    (derivable : ∀ entry ∈ configuration.keys, entry.IsDerivable) :
    ∃ store, configuration.load = ⟨configuration.keys.map KeyEntry.loaded, .ok store⟩ ∧
      store.Holds configuration.keys ∧
      (∀ endpoint identifier, configuration.policy.isAuthorized endpoint identifier = true →
        store.contains identifier = true) ∧
      ∀ (session : Session) (steps : List (Step × Patience)),
        let trace := session.trace (configuration.service store) steps
        (∀ taken ∈ steps.zip trace,
          configuration.policy.Gates taken.1.1 taken.1.2 taken.2.1.call?) ∧
        session.trace ⟨configuration.policy, configuration.signer⟩ steps = trace ∧
        ∀ answered ∈ trace, ¬ answered.1.TellsOfMissing := by
  have isValid := Configuration.isValid_of_ofText accepted
  obtain ⟨store, isLoaded, holds⟩ := isValid.exists_load derivable
  refine ⟨store, isLoaded, holds, fun endpoint identifier authorized => ?_,
    fun session steps => ?_⟩
  · have listed := Policy.isAuthorized_iff_mem_listKeys.mp authorized
    obtain ⟨usage, isUsage, -, named⟩ := Configuration.mem_listKeys_policy.mp listed
    exact (holds.contains identifier).mpr (isValid.known usage isUsage identifier named)
  · have same := Configuration.trace_signer isValid (congrArg Loading.store isLoaded) session steps
    refine ⟨session.trace_gates configuration.policy store.signer steps, same, ?_⟩
    rw [← same]
    exact Session.forall_mem_trace (fun served => ¬ served.TellsOfMissing)
      configuration.step_not_tellsOfMissing session steps

/-- An entry with a seed that is good for a curve key can be derived. -/
theorem KeyEntry.isDerivable_of_curveKey {identifier seed : String}
    {secret : Secp256k1.PrivateKey} (ofSeed : Secp256k1.PrivateKey.ofSeed? seed = some secret) :
    (⟨identifier, .secp256k1, seed⟩ : KeyEntry).IsDerivable :=
  ⟨_, KeyAlgorithm.deriveKey_eq_ok_iff.mpr (.secp256k1 ofSeed)⟩

/-- A key that no usage names is loaded, too, and asking for it does not make the service look for a
missing key. -/
theorem policy_and_store_agree_for_two_keys :
    ∃ configuration store, Configuration.ofText
      "[[[\"key1\",\"secp256k1\",\"one\"],[\"key2\",\"secp256k1\",\"two\"]],[[\"blob\",[\"key1\"]]]]" =
        .ok configuration ∧
      configuration.load =
        ⟨[.keyLoaded "key1" "secp256k1", .keyLoaded "key2" "secp256k1"], .ok store⟩ ∧
      store.size = 2 ∧ store.contains "key2" = true ∧
      ∀ answered ∈ ({} : Session).trace (configuration.service store)
        [(.publicKey .blob (some ⟨"key2"⟩) 0, .toTheEnd),
          (.publicKey .blob (some ⟨"key1"⟩) 0, .toTheEnd)],
        ¬ answered.1.TellsOfMissing := by
  have accepted : Configuration.ofText
      "[[[\"key1\",\"secp256k1\",\"one\"],[\"key2\",\"secp256k1\",\"two\"]],[[\"blob\",[\"key1\"]]]]" =
        .ok ⟨[⟨"key1", .secp256k1, "one"⟩, ⟨"key2", .secp256k1, "two"⟩],
          [⟨.blob, ["key1"]⟩]⟩ := rfl
  have derivable : ∀ entry ∈
      ([⟨"key1", .secp256k1, "one"⟩, ⟨"key2", .secp256k1, "two"⟩] : List KeyEntry),
      entry.IsDerivable := by
    intro entry member
    rcases List.mem_pair.mp member with rfl | rfl
    · exact KeyEntry.isDerivable_of_curveKey Secp256k1.PrivateKey.ofSeed?_one
    · exact KeyEntry.isDerivable_of_curveKey Secp256k1.PrivateKey.ofSeed?_two
  obtain ⟨store, isLoaded, holds, -, serves⟩ := policy_and_store_agree accepted derivable
  exact ⟨_, store, accepted, isLoaded, holds.size,
    (holds.contains "key2").mpr (.tail _ (.head _)), (serves {} _).2.2⟩

end Signet
