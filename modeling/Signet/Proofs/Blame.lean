import Signet.Proofs.Plans
import Signet.Proofs.Utf8

/-!
# Who is to blame

A request fails because of what its caller sent, or because of the signer. The two never mix: what
is checked before the signer is asked can only blame the caller, and what comes of asking can only
blame the service. `Plan.IsHonest` says so of a plan, and the plans of requests are honest
(`Plan.publicKey_isHonest`, `Plan.sign_isHonest`). For an honest plan the log has all of what went
wrong with the signer (`Plan.IsHonest.result_of_fails`), and an error of the caller comes from a
plan that asks nothing (`Plan.IsHonest.settled_of_isCallers`).

How a call of the signer fails, and what there is to say of it, is `Question.Fails`. An error that
is not the caller's comes from a call that fails, and tells what there is to say of it
(`Policy.Plans.fails_of_error`).
-/

namespace Signet

/-! ## Errors -/

namespace SigningError

variable {error : SigningError}

theorem status_of_callers (callers : error.isCallers = true) : error.status = 400 := by
  unfold status
  rw [callers]
  rfl

theorem status_of_not_callers (notCallers : error.isCallers = false) : error.status = 500 := by
  unfold status
  rw [notCallers]
  rfl

theorem isCallers_of_status (status : error.status = 400) : error.isCallers = true := by
  cases callers : error.isCallers with
  | true => rfl
  | false => exact nomatch status.symm.trans (status_of_not_callers callers)

theorem publicMessage_of_callers (callers : error.isCallers = true) :
    error.publicMessage = "Bad request: " ++ error.message := by
  unfold publicMessage
  rw [callers]
  rfl

theorem publicMessage_of_not_callers (notCallers : error.isCallers = false) :
    error.publicMessage = internalMessage := by
  unfold publicMessage
  rw [notCallers]
  rfl

end SigningError

/-! ## Failing signers -/

/-- How a call of the signer fails, and what there is to say about it: it reports an error, whose
texts are told from the outermost on; it crashes; or it answers octets for a public key that are no
text. -/
inductive Question.Fails : Question → Ending Failure Octets → (told : String) → Prop
  | reported {question : Question} {failure : Failure} :
    Fails question (.failed failure) ("signer failure: " ++ ": ".intercalate failure.chain)
  | crashed {question : Question} {crash : Crash} :
    Fails question (.crashed crash) ("unexpected fault: " ++ crash.message)
  | noText {octets : Octets} {fault : Octets.Utf8Fault} :
    octets.toText? = none → octets.utf8Fault? = some fault →
    Fails .publicKey (.value octets) ("signer failure: public key is not UTF-8: " ++ fault.message)

namespace Plan

variable {α : Type} {plan : Plan α} {signer : Signer} {asking : Asking}

/-- What a plan comes to for who waits for it. -/
def result (plan : Plan α) (signer : Signer) (asking : Asking) : Except SigningError α :=
  (plan.task signer asking).ending.contain

/-! ## Honest plans -/

/-- That a plan blames the caller if it asks nothing, and the service if it asks the signer; and
that it then tells in the log all there is to say. -/
inductive IsHonest {α : Type} : Plan α → Prop
  | answers (value : α) : IsHonest (settled (.ok value))
  | blames {error : SigningError} : error.isCallers = true → IsHonest (settled (.error error))
  | asks {identifier : String} {question : Question} {read : Octets → Except SigningError α} :
    (∀ octets error, read octets = .error error → error.isCallers = false) →
    (∀ octets told, question.Fails (.value octets) told →
      ∃ error, read octets = .error error ∧ error.message = told) →
    IsHonest (ask identifier question read)

/-- If the signer fails, the service is to blame, and the log has all of the failure. -/
theorem IsHonest.result_of_fails (honest : plan.IsHonest) {call : SignerCall} {told : String}
    (asked : plan.call? asking = some call)
    (fails : call.question.Fails (signer asking.history call).ending told) :
    ∃ error, plan.result signer asking = .error error ∧ error.isCallers = false ∧
      error.message = told := by
  cases honest with
  | answers value => cases asked
  | blames callers => cases asked
  | asks serviceOnly tells =>
    rename_i identifier question read
    obtain rfl : ⟨question, identifier, asking.token, asking.isCancelled⟩ = call :=
      Option.some.inj asked
    unfold result task
    dsimp only [Task.mapEnding] at fails ⊢
    generalize (signer asking.history _).ending = ending at fails
    cases ending with
    | failed failure =>
      cases fails
      exact ⟨.signer failure, rfl, rfl, rfl⟩
    | crashed crash =>
      cases fails
      exact ⟨.crash crash.message, rfl, rfl, rfl⟩
    | value octets =>
      obtain ⟨error, isRead, message⟩ := tells octets told fails
      refine ⟨error, ?_, serviceOnly octets error isRead, message⟩
      show (Ending.ofExcept (read octets)).contain = _
      rw [Ending.contain_ofExcept, isRead]

/-- If the caller is to blame, nothing was asked. -/
theorem IsHonest.settled_of_isCallers (honest : plan.IsHonest) {error : SigningError}
    (failed : plan.result signer asking = .error error) (callers : error.isCallers = true) :
    plan = settled (.error error) := by
  cases honest with
  | answers value => cases failed
  | blames _ =>
    cases failed
    rfl
  | asks serviceOnly tells =>
    rename_i identifier question read
    unfold result task at failed
    dsimp only [Task.mapEnding] at failed
    generalize (signer asking.history _).ending = ending at failed
    cases ending with
    | failed failure =>
      cases failed
      cases callers
    | crashed crash =>
      cases failed
      cases callers
    | value octets =>
      have isRead : (Ending.ofExcept (read octets)).contain = .error error := failed
      rw [Ending.contain_ofExcept] at isRead
      rw [serviceOnly octets error isRead] at callers
      cases callers

/-! ## Plans of requests -/

variable (policy : Policy) (endpoint : Endpoint)

theorem publicKey_isHonest (key? : Option KeyReference) :
    (publicKey policy endpoint key?).IsHonest := by
  rcases publicKey_refused_or_asks policy endpoint key? with
    ⟨error, callers, refused⟩ | ⟨_, asks⟩
  · rw [refused]
    exact .blames callers
  · rw [asks]
    refine .asks (fun octets error isRead => ?_) fun octets told fails => ?_
    · unfold PublicKey.ofOctets at isRead
      split at isRead
      · cases isRead
      · cases isRead
        rfl
    · cases fails with
      | noText noText isFault =>
        unfold PublicKey.ofOctets
        rw [noText, isFault]
        exact ⟨_, rfl, rfl⟩

theorem sign_isHonest (request : SigningRequest) : (sign policy endpoint request).IsHonest := by
  rcases sign_refused_or_asks policy endpoint request with
    ⟨error, callers, refused⟩ | ⟨_, _, _, asks⟩
  · rw [refused]
    exact .blames callers
  · rw [asks]
    exact .asks nofun nofun

end Plan

/-- The plans that requests have under a policy: to list keys, to refuse a body that cannot be read,
to tell a public key, and to sign. -/
inductive Policy.Plans (policy : Policy) : {α : Type} → Plan α → Prop
  | listing (endpoint : Endpoint) : Plans policy (.settled (.ok (policy.listing endpoint)))
  | refusal {α : Type} (endpoint : Endpoint) (reason : String) :
    Plans policy (.settled (.error (.malformed (.malformedBody reason) endpoint)) : Plan α)
  | publicKey (endpoint : Endpoint) (key? : Option KeyReference) :
    Plans policy (.publicKey policy endpoint key?)
  | sign (endpoint : Endpoint) (request : SigningRequest) :
    Plans policy (.sign policy endpoint request)

theorem Policy.Plans.isHonest {α : Type} {policy : Policy} {plan : Plan α}
    (plans : policy.Plans plan) : plan.IsHonest := by
  cases plans with
  | listing endpoint => exact .answers _
  | refusal endpoint reason => exact .blames rfl
  | publicKey endpoint key? => exact Plan.publicKey_isHonest policy endpoint key?
  | sign endpoint request => exact Plan.sign_isHonest policy endpoint request

/-- What a question comes to is an error only if the signer fails, and then it tells of the
failure. -/
theorem Plan.fails_of_ask {α : Type} {identifier : String} {question : Question}
    {read : Octets → Except SigningError α} {signer : Signer} {asking : Asking}
    {error : SigningError}
    (failed : (ask identifier question read).result signer asking = .error error)
    (fails : ∀ octets, read octets = .error error →
      question.Fails (.value octets) error.message) :
    question.Fails (signer asking.history
      ⟨question, identifier, asking.token, asking.isCancelled⟩).ending error.message := by
  unfold result task at failed
  dsimp only [Task.mapEnding] at failed
  generalize (signer asking.history _).ending = ending at failed
  cases ending with
  | failed failure =>
    cases failed
    exact .reported
  | crashed crash =>
    cases failed
    exact .crashed
  | value octets =>
    have isRead : (Ending.ofExcept (read octets)).contain = .error error := failed
    rw [Ending.contain_ofExcept] at isRead
    exact fails octets isRead

/-- An error of a request is its caller's, or it tells of a failure of the signer. -/
theorem Policy.Plans.fails_of_error {α : Type} {policy : Policy} {plan : Plan α}
    (plans : policy.Plans plan) {signer : Signer} {asking : Asking} {error : SigningError}
    (failed : plan.result signer asking = .error error) :
    error.isCallers = true ∨ ∃ call, plan.call? asking = some call ∧
      call.question.Fails (signer asking.history call).ending error.message := by
  cases plans with
  | listing endpoint => cases failed
  | refusal endpoint reason =>
    cases failed
    exact Or.inl rfl
  | publicKey endpoint key? =>
    rcases Plan.publicKey_refused_or_asks policy endpoint key? with
      ⟨_, callers, refused⟩ | ⟨_, asks⟩
    · rw [refused] at failed
      cases failed
      exact Or.inl callers
    · rw [asks] at failed ⊢
      refine Or.inr ⟨_, rfl, Plan.fails_of_ask failed fun octets isRead => ?_⟩
      unfold PublicKey.ofOctets at isRead
      cases text : octets.toText? with
      | some key =>
        rw [text] at isRead
        cases isRead
      | none =>
        obtain ⟨fault, isFault⟩ := Octets.exists_utf8Fault text
        rw [text, isFault] at isRead
        cases isRead
        exact .noText text isFault
  | sign endpoint request =>
    rcases Plan.sign_refused_or_asks policy endpoint request with
      ⟨_, callers, refused⟩ | ⟨_, _, _, asks⟩
    · rw [refused] at failed
      cases failed
      exact Or.inl callers
    · rw [asks] at failed ⊢
      exact Or.inr ⟨_, rfl, Plan.fails_of_ask failed nofun⟩

end Signet
