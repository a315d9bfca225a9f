import Signet.Proofs.AccessRecords

/-!
# Plans and what they come to

A plan is settled by the first check that fails: a key must be named, its identifier must not be
empty, the endpoint must be allowed to use it, and the digest of a signing request must decode. Only
a request that passes all of them becomes a question to the signer. Each theorem on `Plan.publicKey`
and `Plan.sign` gives the plan of a request in one of these cases, and together the cases are all
there are. What a plan comes to is then told for callers who wait for it.
-/

namespace Signet

/-! ## The checks on a key -/

section Checks

variable {policy : Policy} {endpoint : Endpoint} {key : KeyReference}

theorem KeyReference.validate_of_empty (empty : key.identifier = "") :
    key.validate endpoint = .error (.malformed .emptyIdentifier endpoint) := by
  unfold validate
  rw [empty]
  rfl

theorem KeyReference.validate_of_nonempty (nonempty : key.identifier ≠ "") :
    key.validate endpoint = .ok key :=
  if_neg fun isEmpty => nonempty (String.isEmpty_iff.mp isEmpty)

theorem KeyReference.validateOption_some :
    validateOption endpoint (some key) = key.validate endpoint := rfl

theorem SigningRequest.validate_of_named {request : SigningRequest}
    (names : request.key? = some key) : request.validate endpoint = key.validate endpoint := by
  unfold validate
  rw [names]

theorem Policy.authorize_of_listed (listed : key.identifier ∈ policy.listKeys endpoint) :
    policy.authorize endpoint key = .ok key.identifier :=
  if_pos (isAuthorized_iff_mem_listKeys.mpr listed)

theorem Policy.authorize_of_unlisted (unlisted : key.identifier ∉ policy.listKeys endpoint) :
    policy.authorize endpoint key = .error (.unauthorized key.identifier endpoint) :=
  if_neg fun isAuthorized => unlisted (isAuthorized_iff_mem_listKeys.mp isAuthorized)

end Checks

namespace Plan

variable (policy : Policy) (endpoint : Endpoint)

/-! ## Requests for public keys -/

section PublicKeys

variable {key : KeyReference}

theorem publicKey_of_unnamed :
    publicKey policy endpoint none = settled (.error (.malformed .missingKey endpoint)) := rfl

theorem publicKey_of_empty (empty : key.identifier = "") :
    publicKey policy endpoint (some key) =
      settled (.error (.malformed .emptyIdentifier endpoint)) := by
  rw [publicKey, KeyReference.validateOption_some, KeyReference.validate_of_empty empty]

theorem publicKey_of_unlisted (nonempty : key.identifier ≠ "")
    (unlisted : key.identifier ∉ policy.listKeys endpoint) :
    publicKey policy endpoint (some key) =
      settled (.error (.unauthorized key.identifier endpoint)) := by
  rw [publicKey, KeyReference.validateOption_some, KeyReference.validate_of_nonempty nonempty]
  dsimp only
  rw [Policy.authorize_of_unlisted unlisted]

theorem publicKey_of_listed (nonempty : key.identifier ≠ "")
    (listed : key.identifier ∈ policy.listKeys endpoint) :
    publicKey policy endpoint (some key) =
      ask key.identifier .publicKey PublicKey.ofOctets := by
  rw [publicKey, KeyReference.validateOption_some, KeyReference.validate_of_nonempty nonempty]
  dsimp only
  rw [Policy.authorize_of_listed listed]

end PublicKeys

/-! ## Signing requests -/

section Signing

variable {request : SigningRequest} {key : KeyReference}

theorem sign_of_unnamed (unnamed : request.key? = none) :
    sign policy endpoint request =
      settled (.error (.malformed .missingRequestKey endpoint)) := by
  unfold sign SigningRequest.validate
  rw [unnamed]

theorem sign_of_empty (names : request.key? = some key) (empty : key.identifier = "") :
    sign policy endpoint request =
      settled (.error (.malformed .emptyIdentifier endpoint)) := by
  rw [sign, SigningRequest.validate_of_named names, KeyReference.validate_of_empty empty]

theorem sign_of_unlisted (names : request.key? = some key) (nonempty : key.identifier ≠ "")
    (unlisted : key.identifier ∉ policy.listKeys endpoint) :
    sign policy endpoint request =
      settled (.error (.unauthorized key.identifier endpoint)) := by
  rw [sign, SigningRequest.validate_of_named names, KeyReference.validate_of_nonempty nonempty]
  dsimp only
  rw [Policy.authorize_of_unlisted unlisted]

theorem sign_of_undecodable {fault : Base64.DecodingFault} (names : request.key? = some key)
    (nonempty : key.identifier ≠ "") (listed : key.identifier ∈ policy.listKeys endpoint)
    (undecodable : Base64.decode request.digest = .error fault) :
    sign policy endpoint request = settled (.error (.undecodable fault)) := by
  rw [sign, SigningRequest.validate_of_named names, KeyReference.validate_of_nonempty nonempty]
  dsimp only
  rw [Policy.authorize_of_listed listed]
  dsimp only
  rw [undecodable]

theorem sign_of_decoded {digest : Octets} (names : request.key? = some key)
    (nonempty : key.identifier ≠ "") (listed : key.identifier ∈ policy.listKeys endpoint)
    (decoded : Base64.decode request.digest = .ok digest) :
    sign policy endpoint request =
      ask key.identifier (.sign digest (HashAlgorithm.resolve request.hash)) fun signature =>
        .ok (Signature.ofOctets signature) := by
  rw [sign, SigningRequest.validate_of_named names, KeyReference.validate_of_nonempty nonempty]
  dsimp only
  rw [Policy.authorize_of_listed listed]
  dsimp only
  rw [decoded]

end Signing

/-! ## Refusals and questions -/

/-- A request for a public key is refused with an error of its caller, or it is a question. -/
theorem publicKey_refused_or_asks (key? : Option KeyReference) :
    (∃ error : SigningError, error.isCallers = true ∧
      publicKey policy endpoint key? = settled (.error error)) ∨
    ∃ identifier, publicKey policy endpoint key? =
      ask identifier .publicKey PublicKey.ofOctets := by
  rcases key? with _ | key
  · exact Or.inl ⟨_, rfl, publicKey_of_unnamed policy endpoint⟩
  by_cases empty : key.identifier = ""
  · exact Or.inl ⟨_, rfl, publicKey_of_empty policy endpoint empty⟩
  by_cases listed : key.identifier ∈ policy.listKeys endpoint
  · exact Or.inr ⟨_, publicKey_of_listed policy endpoint empty listed⟩
  · exact Or.inl ⟨_, rfl, publicKey_of_unlisted policy endpoint empty listed⟩

/-- A signing request is refused with an error of its caller, or it is a question. -/
theorem sign_refused_or_asks (request : SigningRequest) :
    (∃ error : SigningError, error.isCallers = true ∧
      sign policy endpoint request = settled (.error error)) ∨
    ∃ identifier digest hash, sign policy endpoint request =
      ask identifier (.sign digest hash) fun signature => .ok (Signature.ofOctets signature) := by
  rcases names : request.key? with _ | key
  · exact Or.inl ⟨_, rfl, sign_of_unnamed policy endpoint names⟩
  by_cases empty : key.identifier = ""
  · exact Or.inl ⟨_, rfl, sign_of_empty policy endpoint names empty⟩
  by_cases listed : key.identifier ∈ policy.listKeys endpoint
  · cases decoded : Base64.decode request.digest with
    | error fault =>
      exact Or.inl ⟨_, rfl, sign_of_undecodable policy endpoint names empty listed decoded⟩
    | ok digest =>
      exact Or.inr ⟨_, _, _, sign_of_decoded policy endpoint names empty listed decoded⟩
  · exact Or.inl ⟨_, rfl, sign_of_unlisted policy endpoint names empty listed⟩

end Plan

/-! ## Plans that are waited for -/

theorem Ending.contain_ofExcept {α : Type} (result : Except SigningError α) :
    (ofExcept result).contain = result := by
  cases result with
  | ok value => rfl
  | error error => rfl

namespace Service

variable {α : Type} (service : Service) (asking : Asking) (call : Call)

/-- Who waits for a plan that is settled gets its result. -/
theorem perform_settled_progress (result : Except SigningError α) :
    (service.perform asking call (.settled result) .toTheEnd).progress = .ended result := by
  rw [perform_progress]
  exact congrArg Progress.ended (Ending.contain_ofExcept result)

section Ask

variable {identifier : String} {question : Question} {read : Octets → Except SigningError α}
  {log : List Event} {waits : Nat}

/-- Who waits for a question gets what is read from the signer's answer. -/
theorem perform_ask_progress_of_value {octets : Octets}
    (answered : service.signer asking.history
      ⟨question, identifier, asking.token, asking.isCancelled⟩ =
        ⟨log, some waits, .value octets⟩) :
    (service.perform asking call (.ask identifier question read) .toTheEnd).progress =
      .ended (read octets) := by
  rw [perform_progress, Plan.task, answered]
  exact congrArg Progress.ended (Ending.contain_ofExcept (read octets))

/-- Who waits for a question that the signer fails to answer gets this failure. -/
theorem perform_ask_progress_of_failed {failure : Failure}
    (answered : service.signer asking.history
      ⟨question, identifier, asking.token, asking.isCancelled⟩ =
        ⟨log, some waits, .failed failure⟩) :
    (service.perform asking call (.ask identifier question read) .toTheEnd).progress =
      .ended (.error (.signer failure)) := by
  rw [perform_progress, Plan.task, answered]
  rfl

end Ask

end Service

end Signet
