import Signet.Proofs.CurveSignatures
import Signet.Proofs.DigestSigners
import Signet.Proofs.KeyStores
import Signet.Proofs.Plans
import Signet.Proofs.UsagePolicy
import Signet.Proofs.Validity
import Signet.Startup

/-!
# Services of configurations

A service of a configuration has the policy of its usages and the keys that its entries derive. What
signing with it comes to is decided by the first check that fails, and behind all checks by the kind
of the key and the length of the digest (`Configuration.SigningOutcome`,
`configured_signing_outcome`). Every key that it lists can be used, unless its identifier is empty:
such a key can be configured, but no request can name it (`listed_key_usable_iff`).
-/

namespace Signet

/-! ## Signing -/

/-- That a request names a key that a configuration allows its endpoint. -/
structure Configuration.Admits (configuration : Configuration) (endpoint : Endpoint)
    (request : SigningRequest) (identifier : String) : Prop where
  named : request.key? = some ⟨identifier⟩
  nonempty : identifier ≠ ""
  allowed : configuration.Allows endpoint identifier

theorem Configuration.Admits.listed {configuration : Configuration} {endpoint : Endpoint}
    {request : SigningRequest} {identifier : String}
    (admits : configuration.Admits endpoint request identifier) (store : KeyStore) :
    identifier ∈ (configuration.service store).policy.listKeys endpoint :=
  Configuration.mem_listKeys_policy.mpr admits.allowed

/-- What signing with a service of a configuration comes to. The checks on the key and then the
digest come first; behind them the one entry of the key decides. -/
inductive Configuration.SigningOutcome (configuration : Configuration) (endpoint : Endpoint)
    (request : SigningRequest) : Except SigningError Signature → Prop
  | unnamed :
    request.key? = none →
    SigningOutcome configuration endpoint request
      (.error (.malformed .missingRequestKey endpoint))
  | empty :
    request.key? = some ⟨""⟩ →
    SigningOutcome configuration endpoint request (.error (.malformed .emptyIdentifier endpoint))
  | unlisted {identifier : String} :
    request.key? = some ⟨identifier⟩ → identifier ≠ "" →
    ¬ configuration.Allows endpoint identifier →
    SigningOutcome configuration endpoint request (.error (.unauthorized identifier endpoint))
  | undecodable {identifier : String} {fault : Base64.DecodingFault} :
    configuration.Admits endpoint request identifier →
    Base64.decode request.digest = .error fault →
    SigningOutcome configuration endpoint request (.error (.undecodable fault))
  | signed {identifier : String} {digest octets : Octets} {entry : KeyEntry} {key : DigestSigner} :
    configuration.Admits endpoint request identifier →
    Base64.decode request.digest = .ok digest →
    configuration.IsKeyOf entry identifier →
    entry.algorithm.Accepts digest (HashAlgorithm.resolve request.hash) →
    entry.algorithm.deriveKey entry.seed = .ok key →
    key.sign digest (HashAlgorithm.resolve request.hash) = .value octets →
    SigningOutcome configuration endpoint request (.ok ⟨Base64.encode octets⟩)
  | refused {identifier : String} {digest : Octets} {entry : KeyEntry} {failure : Failure} :
    configuration.Admits endpoint request identifier →
    Base64.decode request.digest = .ok digest →
    configuration.IsKeyOf entry identifier →
    ¬ entry.algorithm.Accepts digest (HashAlgorithm.resolve request.hash) →
    (SigningError.signer failure).status = 500 →
    SigningOutcome configuration endpoint request (.error (.signer failure))

/-- That ECDSA does not let down the key that a request names, if it is a curve key and the digest
is long enough. -/
def Configuration.CanSign (configuration : Configuration) (request : SigningRequest) : Prop :=
  ∀ entry ∈ configuration.keys, request.key? = some ⟨entry.identifier⟩ →
    entry.algorithm = .secp256k1 →
    ∀ secret digest, Secp256k1.PrivateKey.ofSeed? entry.seed = some secret →
      Base64.decode request.digest = .ok digest → 16 ≤ digest.length →
      secret.CanSign (Secp256k1.digestNumber digest)

/-- ECDSA does not let down the keys that can sign zero when the digest is made of zeros. -/
theorem Configuration.canSign_of_zeros {configuration : Configuration} {request : SigningRequest}
    {count : Nat} (decoded : Base64.decode request.digest = .ok (List.replicate count 0))
    (canSign : ∀ entry ∈ configuration.keys,
      ∀ secret ∈ Secp256k1.PrivateKey.ofSeed? entry.seed, secret.CanSign 0) :
    configuration.CanSign request := by
  intro entry member _ _ secret digest isSecret decoded' _
  cases decoded.symm.trans decoded'
  rw [Secp256k1.digestNumber_replicate_zero]
  exact canSign entry member secret isSecret

/-- An admitted request with a digest that decodes is signed if its key accepts the digest, and else
it is refused by the signer. -/
theorem Configuration.SigningOutcome.of_decoded {configuration : Configuration}
    {endpoint : Endpoint} {request : SigningRequest} {result : Except SigningError Signature}
    {identifier : String} {digest : Octets} {entry : KeyEntry}
    (outcome : configuration.SigningOutcome endpoint request result)
    (admits : configuration.Admits endpoint request identifier)
    (decoded : Base64.decode request.digest = .ok digest)
    (isKey : configuration.IsKeyOf entry identifier) :
    (entry.algorithm.Accepts digest (HashAlgorithm.resolve request.hash) ∧
        ∃ signature, result = .ok signature) ∨
      ¬ entry.algorithm.Accepts digest (HashAlgorithm.resolve request.hash) ∧
        ∃ failure, result = .error (.signer failure) := by
  cases outcome with
  | unnamed unnamed => exact nomatch admits.named.symm.trans unnamed
  | empty names =>
    cases admits.named.symm.trans names
    exact absurd rfl admits.nonempty
  | unlisted names _ notAllowed =>
    cases admits.named.symm.trans names
    exact absurd admits.allowed notAllowed
  | undecodable _ undecodable => exact nomatch decoded.symm.trans undecodable
  | signed admits' decoded' isKey' accepts _ _ =>
    cases admits.named.symm.trans admits'.named
    cases decoded.symm.trans decoded'
    cases isKey.only _ isKey'.listed isKey'.named
    exact Or.inl ⟨accepts, _, rfl⟩
  | refused admits' decoded' isKey' refuses _ =>
    cases admits.named.symm.trans admits'.named
    cases decoded.symm.trans decoded'
    cases isKey.only _ isKey'.listed isKey'.named
    exact Or.inr ⟨refuses, _, rfl⟩

/-- A valid configuration has the one entry, and a store that its keys have been loaded into the
key, of every identifier that is allowed to an endpoint. -/
theorem Configuration.IsValid.key_of_allowed {configuration : Configuration} {store : KeyStore}
    {endpoint : Endpoint} {identifier : String} (isValid : configuration.IsValid)
    (loaded : configuration.load.store = .ok store)
    (allowed : configuration.Allows endpoint identifier) :
    ∃ entry key, configuration.IsKeyOf entry identifier ∧
      entry.algorithm.deriveKey entry.seed = .ok key ∧ store.get? identifier = some key := by
  obtain ⟨usage, isUsage, -, named⟩ := allowed
  obtain ⟨entry, isKey⟩ := isValid.exists_isKeyOf (isValid.known usage isUsage identifier named)
  obtain ⟨key, derived, found⟩ := KeyStore.get?_of_load loaded isKey.listed
  rw [isKey.named] at found
  exact ⟨entry, key, isKey, derived, found⟩

/-- An admitted request with a digest that decodes comes to what the key makes of it. -/
theorem Configuration.Admits.signing_outcome {configuration : Configuration} {store : KeyStore}
    {asking : Asking} {endpoint : Endpoint} {request : SigningRequest} {identifier : String}
    {digest : Octets} (admits : configuration.Admits endpoint request identifier)
    (isValid : configuration.IsValid) (loaded : configuration.load.store = .ok store)
    (uncancelled : asking.isCancelled = false) (canSign : configuration.CanSign request)
    (decoded : Base64.decode request.digest = .ok digest) :
    ∃ result, ((configuration.service store).sign asking endpoint request .toTheEnd).progress =
      .ended result ∧ configuration.SigningOutcome endpoint request result := by
  obtain ⟨entry, key, isKey, derived, found⟩ := isValid.key_of_allowed loaded admits.allowed
  unfold Service.sign
  rw [Plan.sign_of_decoded _ endpoint admits.named admits.nonempty (admits.listed store) decoded]
  -- The store answers a caller who has not cancelled, and such is the one who asks.
  have answered := KeyStore.signer_sign found asking.history digest
    (HashAlgorithm.resolve request.hash) asking.token
  rw [← uncancelled] at answered
  have derives := KeyAlgorithm.deriveKey_eq_ok_iff.mp derived
  by_cases accepts : entry.algorithm.Accepts digest (HashAlgorithm.resolve request.hash)
  · have canSign' : ∀ secret, entry.algorithm = .secp256k1 →
        Secp256k1.PrivateKey.ofSeed? entry.seed = some secret →
        secret.CanSign (Secp256k1.digestNumber digest) := by
      intro secret isCurve ofSeed
      have named := admits.named
      rw [← isKey.named] at named
      rw [isCurve] at accepts
      exact canSign entry isKey.listed named isCurve secret digest ofSeed decoded accepts
    obtain ⟨octets, signs⟩ := derives.sign_of_accepts accepts canSign'
    rw [signs] at answered
    exact ⟨_, Service.perform_ask_progress_of_value _ asking _ answered,
      .signed admits decoded isKey accepts derived signs⟩
  · obtain ⟨failure, fails⟩ := derives.sign_of_not_accepts accepts
    rw [fails] at answered
    exact ⟨_, Service.perform_ask_progress_of_failed _ asking _ answered,
      .refused admits decoded isKey accepts rfl⟩

/-- A configuration with a single curve key can be loaded if its seed is good for one. -/
theorem Configuration.exists_load_of_curveKey {identifier seed : String} {usages : List UsageEntry}
    {secret : Secp256k1.PrivateKey} (ofSeed : Secp256k1.PrivateKey.ofSeed? seed = some secret) :
    ∃ store, (⟨[⟨identifier, .secp256k1, seed⟩], usages⟩ : Configuration).load.store =
      .ok store := by
  have derived : KeyAlgorithm.secp256k1.deriveKey seed = .ok (.ofSecp256k1 secret) :=
    KeyAlgorithm.deriveKey_eq_ok_iff.mpr (.secp256k1 ofSeed)
  exact ⟨_, KeyStore.load_cons_eq_ok_iff.mpr ⟨_, _, derived, rfl, rfl⟩⟩

/-- **What signing with a configured service comes to.** For a configuration that is accepted and
whose keys can be loaded, every signing request that is waited for and not cancelled is answered,
and by the first of these that applies: it names no key, or the empty identifier, or one that no
usage names, or its digest does not decode, or the one key of its identifier signs the digest. Curve
keys sign digests of sixteen octets or more, RSA keys those of the length of the hash, and all
others are failures of the signer. -/
theorem configured_signing_outcome {text : String} {configuration : Configuration}
    {store : KeyStore} (read : Configuration.ofText text = .ok configuration)
    (loaded : configuration.load.store = .ok store) (asking : Asking)
    (uncancelled : asking.isCancelled = false) (endpoint : Endpoint) (request : SigningRequest)
    (canSign : configuration.CanSign request) :
    ∃ result, ((configuration.service store).sign asking endpoint request .toTheEnd).progress =
      .ended result ∧ configuration.SigningOutcome endpoint request result := by
  have isValid := Configuration.isValid_of_ofText read
  rcases names : request.key? with _ | ⟨⟨identifier⟩⟩
  · unfold Service.sign
    rw [Plan.sign_of_unnamed _ endpoint names]
    exact ⟨_, Service.perform_settled_progress _ asking _ _, .unnamed names⟩
  · by_cases empty : identifier = ""
    · subst empty
      unfold Service.sign
      rw [Plan.sign_of_empty _ endpoint names rfl]
      exact ⟨_, Service.perform_settled_progress _ asking _ _, .empty names⟩
    · by_cases allowed : configuration.Allows endpoint identifier
      · have admits : configuration.Admits endpoint request identifier :=
          ⟨names, empty, allowed⟩
        cases decoded : Base64.decode request.digest with
        | error fault =>
          unfold Service.sign
          rw [Plan.sign_of_undecodable _ endpoint names empty (admits.listed store) decoded]
          exact ⟨_, Service.perform_settled_progress _ asking _ _, .undecodable admits decoded⟩
        | ok digest => exact admits.signing_outcome isValid loaded uncancelled canSign decoded
      · have unlisted : identifier ∉ (configuration.service store).policy.listKeys endpoint :=
          fun listed => allowed (Configuration.mem_listKeys_policy.mp listed)
        unfold Service.sign
        rw [Plan.sign_of_unlisted _ endpoint names empty unlisted]
        exact ⟨_, Service.perform_settled_progress _ asking _ _, .unlisted names empty allowed⟩

/-- A curve key refuses a digest of two octets and signs one of sixteen, also for a hash that nobody
knows. -/
theorem configured_signing_outcome_of_two_and_sixteen_octets :
    ∃ configuration store,
      Configuration.ofText "[[[\"key1\",\"secp256k1\",\"one\"]],[[\"blob\",[\"key1\"]]]]" =
        .ok configuration ∧
      configuration.load.store = .ok store ∧
      (∃ failure, ((configuration.service store).sign ⟨[], .ofCaller 0, false⟩ .blob
        ⟨some ⟨"key1"⟩, "AAA=", "MD5"⟩ .toTheEnd).progress =
          .ended (.error (.signer failure))) ∧
      ∃ signature, ((configuration.service store).sign ⟨[], .ofCaller 0, false⟩ .blob
        ⟨some ⟨"key1"⟩, "AAAAAAAAAAAAAAAAAAAAAA==", "MD5"⟩ .toTheEnd).progress =
          .ended (.ok signature) := by
  let entry : KeyEntry := ⟨"key1", .secp256k1, "one"⟩
  let configuration : Configuration := ⟨[entry], [⟨.blob, ["key1"]⟩]⟩
  have read : Configuration.ofText
      "[[[\"key1\",\"secp256k1\",\"one\"]],[[\"blob\",[\"key1\"]]]]" = .ok configuration := rfl
  obtain ⟨store, loaded⟩ :=
    Configuration.exists_load_of_curveKey Secp256k1.PrivateKey.ofSeed?_one
  have isKey : configuration.IsKeyOf entry "key1" :=
    ⟨.head _, rfl, fun _ member _ => List.mem_singleton.mp member⟩
  have admits (digest : String) :
      configuration.Admits .blob ⟨some ⟨"key1"⟩, digest, "MD5"⟩ "key1" :=
    ⟨rfl, by decide, _, .head _, rfl, .head _⟩
  have canSign : ∀ entry ∈ configuration.keys,
      ∀ secret ∈ Secp256k1.PrivateKey.ofSeed? entry.seed, secret.CanSign 0 := by
    intro entry member
    cases List.mem_singleton.mp member
    exact Secp256k1.PrivateKey.canSign_zero_of_one
  have outcome {digest : String} {count : Nat}
      (decoded : Base64.decode digest = .ok (List.replicate count 0)) :=
    configured_signing_outcome read loaded ⟨[], .ofCaller 0, false⟩ rfl .blob
      ⟨some ⟨"key1"⟩, digest, "MD5"⟩ (Configuration.canSign_of_zeros decoded canSign)
  have few : Base64.decode "AAA=" = .ok (List.replicate 2 0) := rfl
  have many : Base64.decode "AAAAAAAAAAAAAAAAAAAAAA==" = .ok (List.replicate 16 0) := rfl
  refine ⟨configuration, store, read, loaded, ?_, ?_⟩
  · obtain ⟨result, ended, outcome⟩ := outcome few
    rcases outcome.of_decoded (admits _) few isKey with ⟨accepts, -⟩ | ⟨-, failure, rfl⟩
    · exact absurd accepts (by decide)
    · exact ⟨failure, ended⟩
  · obtain ⟨result, ended, outcome⟩ := outcome many
    rcases outcome.of_decoded (admits _) many isKey with ⟨-, signature, rfl⟩ | ⟨refuses, -⟩
    · exact ⟨signature, ended⟩
    · exact absurd (show KeyAlgorithm.secp256k1.Accepts _ _ by decide) refuses

/-! ## Using the keys that are listed -/

/-- That an error refuses the key that a request names. -/
def SigningError.RefusesKey : SigningError → Prop
  | malformed .. | unauthorized .. => True
  | undecodable _ | signer _ | crash _ => False

/-- That callers can use a key at an endpoint: they are told its public key, and no signing request
is refused for naming it. -/
structure Service.LetsUse (service : Service) (endpoint : Endpoint) (identifier : String) :
    Prop where
  tells : ∀ asking : Asking, asking.isCancelled = false → ∃ key,
    (service.publicKey asking endpoint (some ⟨identifier⟩) .toTheEnd).progress =
      .ended (.ok key)
  admits : ∀ (asking : Asking) (digest hash : String) (patience : Patience)
    (error : SigningError),
    (service.sign asking endpoint ⟨some ⟨identifier⟩, digest, hash⟩ patience).progress =
      .ended (.error error) → ¬ error.RefusesKey

theorem Task.eq_contain_of_outcome {α : Type} {task : Task SigningError α} {patience : Patience}
    {result : Except SigningError α} (ended : task.outcome patience = .ended result) :
    result = task.ending.contain := by
  unfold outcome at ended
  split at ended
  · split at ended
    · cases ended
      rfl
    · cases ended
  · cases ended
  · split at ended
    · split at ended
      · cases ended
        rfl
      · cases ended
    · cases ended

theorem PublicKey.ofOctets_ofText (pem : String) :
    ofOctets (Octets.ofText pem) = .ok ⟨pem⟩ := by
  unfold ofOctets
  rw [Octets.toText?_ofText]

/-- A signing request that names a listed key by an identifier that is not empty is not refused for
the key. -/
theorem Service.not_refusesKey_of_listed {service : Service} {endpoint : Endpoint}
    {identifier digest hash : String} {asking : Asking} {patience : Patience}
    {error : SigningError} (nonempty : identifier ≠ "")
    (listed : identifier ∈ service.policy.listKeys endpoint)
    (failed :
      (service.sign asking endpoint ⟨some ⟨identifier⟩, digest, hash⟩ patience).progress =
      .ended (.error error)) : ¬ error.RefusesKey := by
  unfold sign at failed
  rw [perform_progress] at failed
  have result := Task.eq_contain_of_outcome failed
  cases decoded : Base64.decode digest with
  | error fault =>
    rw [Plan.sign_of_undecodable _ endpoint rfl nonempty listed decoded] at result
    cases result
    exact id
  | ok octets =>
    rw [Plan.sign_of_decoded _ endpoint rfl nonempty listed decoded] at result
    dsimp only [Plan.task, Task.mapEnding] at result
    revert result
    cases (service.signer asking.history ⟨.sign octets (HashAlgorithm.resolve hash), identifier,
      asking.token, asking.isCancelled⟩).ending with
    | value signature => exact nofun
    | failed failure =>
      intro result
      cases result
      exact id
    | crashed crash =>
      intro result
      cases result
      exact id

theorem Service.mem_listKeys_of_listed {service : Service} {asking : Asking} {endpoint : Endpoint}
    {listing : KeyListing} {identifier : String}
    (listed : (service.listKeys asking endpoint .toTheEnd).progress = .ended (.ok listing))
    (member : ⟨identifier⟩ ∈ listing.keys) :
    identifier ∈ service.policy.listKeys endpoint := by
  unfold listKeys at listed
  rw [perform_settled_progress] at listed
  cases listed
  obtain ⟨_, isListed, ⟨⟩⟩ := List.mem_map.mp member
  exact isListed

/-- No request can use the empty identifier. -/
theorem Service.refuses_empty (service : Service) (asking : Asking) (endpoint : Endpoint) :
    (service.publicKey asking endpoint (some ⟨""⟩) .toTheEnd).progress =
        .ended (.error (.malformed .emptyIdentifier endpoint)) ∧
      ∀ digest hash,
        (service.sign asking endpoint ⟨some ⟨""⟩, digest, hash⟩ .toTheEnd).progress =
        .ended (.error (.malformed .emptyIdentifier endpoint)) := by
  refine ⟨?_, fun digest hash => ?_⟩
  · unfold publicKey
    rw [Plan.publicKey_of_empty _ endpoint rfl]
    exact service.perform_settled_progress asking _ _
  · unfold sign
    rw [Plan.sign_of_empty _ endpoint rfl rfl]
    exact service.perform_settled_progress asking _ _

/-- **A key that is listed can be used, unless its identifier is empty.** A configuration that is
accepted and whose keys can be loaded may have a key with the empty identifier, and its service
lists this key like any other; but every request that names it is refused as if it named none. -/
theorem listed_key_usable_iff {text : String} {configuration : Configuration} {store : KeyStore}
    {asking : Asking} {endpoint : Endpoint} {listing : KeyListing} {identifier : String}
    (read : Configuration.ofText text = .ok configuration)
    (loaded : configuration.load.store = .ok store)
    (listed : ((configuration.service store).listKeys asking endpoint .toTheEnd).progress =
      .ended (.ok listing))
    (member : ⟨identifier⟩ ∈ listing.keys) :
    (configuration.service store).LetsUse endpoint identifier ↔ identifier ≠ "" := by
  have isListed := Service.mem_listKeys_of_listed listed member
  refine ⟨fun lets empty => ?_, fun nonempty => ?_⟩
  · subst empty
    obtain ⟨key, told⟩ := lets.tells ⟨[], .ofCaller 0, false⟩ rfl
    rw [((configuration.service store).refuses_empty _ endpoint).1] at told
    cases told
  · have isValid := Configuration.isValid_of_ofText read
    have allowed := Configuration.mem_listKeys_policy.mp isListed
    obtain ⟨entry, key, -, derived, found⟩ := isValid.key_of_allowed loaded allowed
    obtain ⟨pem, tellsPem⟩ := (KeyAlgorithm.deriveKey_eq_ok_iff.mp derived).publicKeyPem
    refine ⟨fun asking uncancelled => ⟨⟨pem⟩, ?_⟩,
      fun asking digest hash patience error failed =>
      Service.not_refusesKey_of_listed nonempty isListed failed⟩
    have answered := KeyStore.signer_publicKey found asking.history asking.token
    rw [← uncancelled, tellsPem] at answered
    unfold Service.publicKey
    rw [Plan.publicKey_of_listed _ endpoint nonempty isListed, ← PublicKey.ofOctets_ofText]
    exact Service.perform_ask_progress_of_value _ asking _ answered

theorem listed_key_usable_for_key1 :
    ∃ configuration store,
      Configuration.ofText "[[[\"key1\",\"secp256k1\",\"one\"]],[[\"blob\",[\"key1\"]]]]" =
        .ok configuration ∧
      configuration.load.store = .ok store ∧
      (configuration.service store).LetsUse .blob "key1" := by
  have read : Configuration.ofText
      "[[[\"key1\",\"secp256k1\",\"one\"]],[[\"blob\",[\"key1\"]]]]" =
        .ok ⟨[⟨"key1", .secp256k1, "one"⟩], [⟨.blob, ["key1"]⟩]⟩ := rfl
  obtain ⟨store, loaded⟩ :=
    Configuration.exists_load_of_curveKey Secp256k1.PrivateKey.ofSeed?_one
  refine ⟨_, store, read, loaded, ?_⟩
  have listed :
      ((Configuration.service ⟨[⟨"key1", .secp256k1, "one"⟩], [⟨.blob, ["key1"]⟩]⟩
      store).listKeys ⟨[], .ofCaller 0, false⟩ .blob .toTheEnd).progress =
        .ended (.ok ⟨[⟨"key1"⟩]⟩) := rfl
  exact (listed_key_usable_iff read loaded listed (.head _)).mpr (by decide)

/-- Without the exception for the empty identifier it is not so: this configuration is accepted and
its key is loaded and listed, but nobody is told its public key. -/
theorem empty_identifier_listed_but_refused :
    ∃ configuration store,
      Configuration.ofText "[[[\"\",\"secp256k1\",\"one\"]],[[\"blob\",[\"\"]]]]" =
        .ok configuration ∧
      configuration.load.store = .ok store ∧
      ((configuration.service store).listKeys ⟨[], .ofCaller 0, false⟩ .blob
        .toTheEnd).progress = .ended (.ok ⟨[⟨""⟩]⟩) ∧
      ((configuration.service store).publicKey ⟨[], .ofCaller 0, false⟩ .blob (some ⟨""⟩)
        .toTheEnd).progress = .ended (.error (.malformed .emptyIdentifier .blob)) ∧
      ¬ (configuration.service store).LetsUse .blob "" := by
  have read : Configuration.ofText
      "[[[\"\",\"secp256k1\",\"one\"]],[[\"blob\",[\"\"]]]]" =
        .ok ⟨[⟨"", .secp256k1, "one"⟩], [⟨.blob, [""]⟩]⟩ := rfl
  obtain ⟨store, loaded⟩ :=
    Configuration.exists_load_of_curveKey Secp256k1.PrivateKey.ofSeed?_one
  refine ⟨_, store, read, loaded, rfl, rfl, fun lets => ?_⟩
  obtain ⟨key, told⟩ := lets.tells ⟨[], .ofCaller 0, false⟩ rfl
  cases told

end Signet
