import Signet.Proofs.KeyStores
import Signet.Proofs.Plans
import Signet.Proofs.Quotations

/-!
# What a store asks of its keys

The keys of a store are functions here, and a function does not tell how often it is applied. So the
work of keys is put into a monad that may be any (`KeyWork`): keys may then count their calls,
change from one call to the next, or do whatever else. `KeyStore.signBy` and `KeyStore.publicKeyBy`
are what a store does with such keys, and with keys that are functions they are what it does
(`KeyStore.signBy_direct`, `KeyStore.publicKeyBy_direct`). A store asks the key that an identifier
is bound to, once, and no key where there is nothing to ask.
-/

namespace Signet

/-! ## Keys whose work has effects -/

/-- How keys do their work, in some monad. -/
structure KeyWork (m : Type → Type) where
  sign : (key : DigestSigner) → (digest : Octets) → (hash : HashAlgorithm) →
    m (Ending Failure Octets)
  publicKeyPem : (key : DigestSigner) → m (Ending Failure String)

/-- The work of keys that have no effects but their answers. -/
def KeyWork.direct {m : Type → Type} [Pure m] : KeyWork m where
  sign key digest hash := pure (key.sign digest hash)
  publicKeyPem key := pure key.publicKeyPem

namespace KeyStore

section Work

variable {m : Type → Type} [Monad m] (work : KeyWork m) (store : KeyStore)

/-- Signs a digest with keys whose work has effects. -/
def signBy (isCancelled : Bool) (digest : Octets) (hash : HashAlgorithm) (identifier : String) :
    m (Task Failure Octets) :=
  if isCancelled then
    pure (.done (.failed
      { outermost := s!"signing with {Text.quote identifier} cancelled by caller" }))
  else
    match store.find identifier with
    | .error failure => pure (.done (.failed failure))
    | .ok key => do
      let ending ← work.sign key digest hash
      pure { log := [.signingDigest identifier key.algorithm hash]
             waits := some 1
             ending := signEnding identifier ending }

/-- Looks up a public key among keys whose work has effects. -/
def publicKeyBy (isCancelled : Bool) (identifier : String) : m (Task Failure Octets) :=
  if isCancelled then
    pure (.done (.failed
      { outermost := s!"public key lookup for {Text.quote identifier} cancelled by caller" }))
  else
    match store.find identifier with
    | .error failure => pure (.done (.failed failure))
    | .ok key => do
      let ending ← work.publicKeyPem key
      pure (.done (ending.map Octets.ofText))

variable {store} {identifier : String} {key : DigestSigner}

theorem find_of_bound (bound : store.get? identifier = some key) :
    store.find identifier = .ok key := by
  unfold find
  rw [bound]

theorem find_of_free (free : store.get? identifier = none) :
    store.find identifier =
      .error { outermost := s!"no key loaded for identifier {Text.quote identifier}" } := by
  unfold find
  rw [free]

section Free

variable (free : store.get? identifier = none)

include free

/-- Where an identifier is free, no key is asked to sign. -/
theorem signBy_of_free (digest : Octets) (hash : HashAlgorithm) :
    store.signBy work false digest hash identifier =
      pure (.done (.failed
        { outermost := s!"no key loaded for identifier {Text.quote identifier}" })) := by
  unfold signBy
  rw [find_of_free free]
  rfl

/-- Where an identifier is free, no key is asked for its public key. -/
theorem publicKeyBy_of_free :
    store.publicKeyBy work false identifier =
      pure (.done (.failed
        { outermost := s!"no key loaded for identifier {Text.quote identifier}" })) := by
  unfold publicKeyBy
  rw [find_of_free free]
  rfl

end Free

variable [LawfulMonad m]

section Bound

variable (bound : store.get? identifier = some key)

include bound

/-- The key that an identifier is bound to is asked to sign, once, and how that ends is reported. -/
theorem signBy_of_bound (digest : Octets) (hash : HashAlgorithm) :
    store.signBy work false digest hash identifier =
      (fun ending =>
        ⟨[.signingDigest identifier key.algorithm hash], some 1,
          signEnding identifier ending⟩) <$> work.sign key digest hash := by
  unfold signBy
  rw [find_of_bound bound]
  exact bind_pure_comp _ _

/-- The key that an identifier is bound to is asked for its public key, once. -/
theorem publicKeyBy_of_bound :
    store.publicKeyBy work false identifier =
      (fun ending => .done (ending.map Octets.ofText)) <$> work.publicKeyPem key := by
  unfold publicKeyBy
  rw [find_of_bound bound]
  exact bind_pure_comp _ _

end Bound

/-! ## Keys without effects -/

variable (store identifier) (isCancelled : Bool)

theorem signBy_direct (digest : Octets) (hash : HashAlgorithm) :
    store.signBy (m := m) .direct isCancelled digest hash identifier =
      pure (store.sign isCancelled digest hash identifier) := by
  unfold signBy sign
  cases isCancelled with
  | true => rfl
  | false =>
    cases store.find identifier with
    | error failure => rfl
    | ok key => exact pure_bind _ _

theorem publicKeyBy_direct :
    store.publicKeyBy (m := m) .direct isCancelled identifier =
      pure (store.publicKey isCancelled identifier) := by
  unfold publicKeyBy publicKey
  cases isCancelled with
  | true => rfl
  | false =>
    cases store.find identifier with
    | error failure => rfl
    | ok key => exact pure_bind _ _

end Work

/-! ## Reports -/

/-- The report of a crash tells its last words, or that there are none. -/
theorem crashText_inj {crash other : Crash} (same : crashText crash = crashText other) :
    crash = other := by
  have silent (words : String) : crashText ⟨none⟩ ≠ crashText ⟨some words⟩ := by
    intro same
    have lengths := congrArg String.length same
    rw [crashText, crashText, String.length_append] at lengths
    exact absurd lengths (Nat.ne_of_lt (Nat.lt_add_right _ (by decide)))
  obtain ⟨_ | words⟩ := crash <;> obtain ⟨_ | others⟩ := other
  · rfl
  · exact absurd same (silent others)
  · exact absurd same.symm (silent words)
  · have sameWords := Text.quoteBy_inj ((String.append_right_inj _).mp same)
    rw [sameWords]

end KeyStore

/-! ## Behind the service -/

/-- A call whose work ends at once is over when it has been polled. -/
theorem Call.observe_done {α : Type} (call : Call) (ending : Ending SigningError α)
    {patience : Patience} (polled : patience ≠ .polls 0) :
    call.observe (.done ending) patience =
      ⟨[call.recordOf ending.contain], .ended ending.contain⟩ := by
  have ends : (Task.done ending).waits = some 0 := rfl
  rcases patience with _ | _ | polls
  · exact call.observe_toTheEnd_of_ends _ ends
  · exact absurd rfl polled
  · dsimp only [observe]
    rw [Observation.after_of_due ends (Nat.zero_le polls)]
    rfl

section Service

variable {policy : Policy} {store : KeyStore} {asking : Asking} {endpoint : Endpoint}
  {key : KeyReference} {bound : DigestSigner} {crash : Crash}

/-- A key that crashes when it is asked for its public key is an error of the call, with one
record. -/
theorem Service.observe_publicKey_of_crashed (wanted : asking.isCancelled = false)
    (nonempty : key.identifier ≠ "") (listed : key.identifier ∈ policy.listKeys endpoint)
    (isBound : store.get? key.identifier = some bound)
    (crashes : bound.publicKeyPem = .crashed crash) (patience : Patience)
    (polled : patience ≠ .polls 0) :
    (Service.publicKey ⟨policy, store.signer⟩ asking endpoint (some key) patience).seen =
      ⟨[(Operation.publicKey.call endpoint none).record 500
          s!"unexpected fault: {crash.message}"],
        .ended (.error (.crash crash.message))⟩ := by
  have planned : Plan.publicKey policy endpoint (some key) =
      .ask key.identifier .publicKey PublicKey.ofOctets :=
    Plan.publicKey_of_listed policy endpoint nonempty listed
  have answered : (Plan.publicKey policy endpoint (some key)).task store.signer asking =
      .done (.crashed crash) := by
    rw [planned, Plan.task, wanted, KeyStore.signer_publicKey isBound, crashes]
    rfl
  show Call.observe _ ((Plan.publicKey policy endpoint (some key)).task store.signer asking)
    patience = _
  rw [answered, Call.observe_done _ _ polled]
  rfl

end Service

/-- **A store asks the key that is bound, once, and reports how that ended.** Whatever effects the
work of keys has: for a caller that has cancelled, no key is asked and nothing is logged, whether
there is a key or not; nor is any key asked where the identifier is free. The key that is bound is
asked once, with what the caller gave. A signature is handed on as it is, the chain of a failure
gets one more text in front, and a crash becomes a failure that tells of it, so that no crash of a
signing key is a crash of the store. A public key, its failure and its crash are handed on as they
are, and such a crash is an error of the call to the service, with one record. With keys that are
functions this is what stores do. -/
theorem stores_ask_bound_keys_once :
    (∀ {m : Type → Type} [Monad m] [LawfulMonad m] (work : KeyWork m) (store : KeyStore)
        (digest : Octets) (hash : HashAlgorithm) (identifier : String),
      (store.signBy work true digest hash identifier =
          pure ⟨[], some 0, .failed
            ⟨s!"signing with {Text.quote identifier} cancelled by caller", []⟩⟩ ∧
        store.publicKeyBy work true identifier =
          pure ⟨[], some 0, .failed
            ⟨s!"public key lookup for {Text.quote identifier} cancelled by caller", []⟩⟩) ∧
      (store.get? identifier = none →
        let missing := pure ⟨[], some 0,
          .failed ⟨s!"no key loaded for identifier {Text.quote identifier}", []⟩⟩
        store.signBy work false digest hash identifier = missing ∧
          store.publicKeyBy work false identifier = missing) ∧
      ∀ key, store.get? identifier = some key →
        (∃ report : Ending Failure Octets → Ending Failure Octets,
          store.signBy work false digest hash identifier =
              (fun ending =>
                ⟨[.signingDigest identifier key.algorithm hash], some 1, report ending⟩) <$>
                work.sign key digest hash ∧
            (∀ signature, report (.value signature) = .value signature) ∧
            (∀ failure, ∃ reported, report (.failed failure) = .failed reported ∧
              reported.chain = s!"signing with key {Text.quote identifier}" :: failure.chain) ∧
            (∀ crash, ∃ reported, report (.crashed crash) = .failed reported ∧
              reported.chain =
                [s!"signing task for key {Text.quote identifier} did not finish",
                  KeyStore.crashText crash]) ∧
            ∀ ending crash, report ending ≠ .crashed crash) ∧
        ∃ tell : Ending Failure String → Ending Failure Octets,
          store.publicKeyBy work false identifier =
              (fun ending => ⟨[], some 0, tell ending⟩) <$> work.publicKeyPem key ∧
            (∀ text, tell (.value text) = .value (Octets.ofText text)) ∧
            (∀ failure, tell (.failed failure) = .failed failure) ∧
            ∀ crash, tell (.crashed crash) = .crashed crash) ∧
    (∀ crash other, KeyStore.crashText crash = KeyStore.crashText other → crash = other) ∧
    (∀ (store : KeyStore) (isCancelled : Bool) (digest : Octets) (hash : HashAlgorithm)
        (identifier : String),
      Id.run (store.signBy .direct isCancelled digest hash identifier) =
          store.sign isCancelled digest hash identifier ∧
        Id.run (store.publicKeyBy .direct isCancelled identifier) =
          store.publicKey isCancelled identifier) ∧
    ∀ (policy : Policy) (store : KeyStore) (asking : Asking) (endpoint : Endpoint)
        (key : KeyReference) (bound : DigestSigner) (crash : Crash) (patience : Patience),
      asking.isCancelled = false → key.identifier ≠ "" →
      key.identifier ∈ policy.listKeys endpoint → store.get? key.identifier = some bound →
      bound.publicKeyPem = .crashed crash → patience ≠ .polls 0 →
      let answered :=
        Service.publicKey ⟨policy, store.signer⟩ asking endpoint (some key) patience
      answered.progress = .ended (.error (.crash crash.message)) ∧
        ∃ record : Event, answered.log = [record] ∧
          record.IsRecordOf (Operation.publicKey.call endpoint none) 500
            s!"unexpected fault: {crash.message}" := by
  refine ⟨fun {m} _ _ work store digest hash identifier =>
      ⟨⟨rfl, rfl⟩, fun free => ?_, fun key bound => ⟨?_, ?_⟩⟩,
    fun crash other => KeyStore.crashText_inj,
    fun store isCancelled digest hash identifier => ?_,
    fun policy store asking endpoint key bound crash patience wanted nonempty listed isBound
      crashes polled => ?_⟩
  · exact ⟨KeyStore.signBy_of_free work free digest hash,
      KeyStore.publicKeyBy_of_free work free⟩
  · refine ⟨KeyStore.signEnding identifier,
      KeyStore.signBy_of_bound work bound digest hash, fun _ => rfl,
      fun failure => ⟨_, rfl, rfl⟩, fun crash => ⟨_, rfl, rfl⟩, fun ending crash => ?_⟩
    cases ending with
    | value _ | failed _ | crashed _ => exact nofun
  · exact ⟨Ending.map Octets.ofText, KeyStore.publicKeyBy_of_bound work bound,
      fun _ => rfl, fun _ => rfl, fun _ => rfl⟩
  · exact ⟨store.signBy_direct identifier isCancelled digest hash,
      store.publicKeyBy_direct identifier isCancelled⟩
  · have observed :=
      Service.observe_publicKey_of_crashed wanted nonempty listed isBound crashes patience polled
    exact ⟨congrArg Observed.progress observed, _, congrArg Observed.log observed,
      Call.record_isRecordOf _ _ _⟩

/-- Of two keys that count their calls, one crashes whatever it is asked. -/
theorem stores_ask_bound_keys_once_for_crashing_key :
    let sound : DigestSigner := ⟨"sound", fun digest _ => .value digest, .value "sound"⟩
    let broken : DigestSigner :=
      ⟨"broken", fun _ _ => .crashed ⟨some "overheated"⟩, .crashed ⟨none⟩⟩
    let store : KeyStore := ⟨[("key1", sound), ("key2", broken)]⟩
    let counted : KeyWork (StateM (List String)) :=
      { sign := fun key digest hash asked => (key.sign digest hash, asked ++ [key.algorithm])
        publicKeyPem := fun key asked => (key.publicKeyPem, asked ++ [key.algorithm]) }
    let policy : Policy := .ofEntries [(.blob, ["key2"])]
    let asking : Asking := ⟨[], .ofCaller 0, false⟩
    store.get? "key3" = none ∧ store.get? "key2" = some broken ∧
      "key2" ∈ policy.listKeys .blob ∧
      store.signBy counted false [1, 2] .sha256 "key3" [] =
        (⟨[], some 0, .failed ⟨"no key loaded for identifier \"key3\"", []⟩⟩, []) ∧
      (∃ reported, store.signBy counted false [1, 2] .sha256 "key2" [] =
          (⟨[.signingDigest "key2" "broken" .sha256], some 1, .failed reported⟩, ["broken"]) ∧
        reported.chain = ["signing task for key \"key2\" did not finish",
          "task N panicked with message \"overheated\""]) ∧
      (Service.publicKey ⟨policy, store.signer⟩ asking .blob (some ⟨"key2"⟩)
          .toTheEnd).progress =
        .ended (.error (.crash "panic with non-string payload")) := by
  intro sound broken store counted policy asking
  have listed : "key2" ∈ policy.listKeys .blob := by decide +kernel
  obtain ⟨-, -, asks⟩ := stores_ask_bound_keys_once.1 counted store [1, 2] .sha256 "key2"
  obtain ⟨⟨report, signs, -, -, crashed, -⟩, -⟩ := asks broken rfl
  obtain ⟨reported, isReported, chain⟩ := crashed ⟨some "overheated"⟩
  refine ⟨rfl, rfl, listed, ?_, ⟨reported, ?_, ?_⟩, ?_⟩
  · have quoted : Text.quote "key3" = "\"key3\"" := by decide +kernel
    have unasked := (stores_ask_bound_keys_once.1 counted store [1, 2] .sha256 "key3").2.1 rfl
    rw [quoted] at unasked
    exact congrFun unasked.1 []
  · rw [signs, ← isReported]
    rfl
  · rw [chain]
    decide +kernel
  · exact (stores_ask_bound_keys_once.2.2.2 policy store asking .blob ⟨"key2"⟩ broken
      ⟨none⟩ .toTheEnd rfl (by decide) listed rfl rfl nofun).1

end Signet
