import Signet.Proofs.ConfiguredStores

/-!
# What seeds have an influence on

Two configurations that differ in their seeds only are checked and loaded in the same way, and their
services cannot be told apart but by the public keys and the signatures that they answer. The
relation that is carried from the keys to the answers is agreement: two endings of a question agree
if they are equal or both are answers (`Question.Agree`), two results if they are equal or both are
successes (`Plan.ResultsAgree`), and two answers if they have the same status and are equal, unless
they are what a key has made (`Answer.Agree`). It holds for each key (`KeyAlgorithm.Derives.agree`),
hence for the stores (`Configuration.IsReseeded.agreeOn`), for a step, since both sessions then
remember the same (`Session.step_agree`), and for whole sessions by induction on their steps.
-/

namespace Signet

/-! ## Configurations that differ in their seeds -/

/-- That two entries differ in their seeds only. -/
structure KeyEntry.IsReseeded (entry other : KeyEntry) : Prop where
  identifier : other.identifier = entry.identifier
  algorithm : other.algorithm = entry.algorithm

/-- That two configurations differ in their seeds only. -/
structure Configuration.IsReseeded (configuration other : Configuration) : Prop where
  keys : List.Forall₂ KeyEntry.IsReseeded configuration.keys other.keys
  usages : other.usages = configuration.usages

/-- That all keys have seeds that they can be derived from. -/
def Configuration.IsSeeded (configuration : Configuration) : Prop :=
  ∀ entry ∈ configuration.keys, entry.seed ≠ "" ∧ entry.IsDerivable

namespace Configuration

theorem validateKeys_of_reseeded {seen : List String} {entries others : List KeyEntry}
    (reseeded : List.Forall₂ KeyEntry.IsReseeded entries others)
    (seeded : ∀ entry ∈ entries, entry.seed ≠ "")
    (otherSeeded : ∀ entry ∈ others, entry.seed ≠ "") :
    validateKeys seen others = validateKeys seen entries := by
  induction reseeded generalizing seen with
  | nil => rfl
  | cons same _ ih =>
    rw [List.forall_mem_cons] at seeded otherSeeded
    unfold validateKeys
    rw [same.identifier, ih seeded.2 otherSeeded.2,
      if_neg fun empty => seeded.1 (String.isEmpty_iff.mp empty),
      if_neg fun empty => otherSeeded.1 (String.isEmpty_iff.mp empty)]

theorem map_identifier_of_reseeded {entries others : List KeyEntry}
    (reseeded : List.Forall₂ KeyEntry.IsReseeded entries others) :
    others.map KeyEntry.identifier = entries.map KeyEntry.identifier := by
  induction reseeded with
  | nil => rfl
  | cons same _ ih => rw [List.map_cons, List.map_cons, same.identifier, ih]

variable {configuration other : Configuration}

theorem IsReseeded.identifiers (reseeded : configuration.IsReseeded other) :
    other.identifiers = configuration.identifiers :=
  map_identifier_of_reseeded reseeded.keys

/-- Seeds have no influence on the checks, as long as there are any. -/
theorem IsReseeded.validate (reseeded : configuration.IsReseeded other)
    (seeded : configuration.IsSeeded) (otherSeeded : other.IsSeeded) :
    other.validate = configuration.validate := by
  unfold Configuration.validate
  rw [validateKeys_of_reseeded reseeded.keys (fun entry member => (seeded entry member).1)
    fun entry member => (otherSeeded entry member).1, reseeded.identifiers, reseeded.usages]

theorem IsReseeded.policy (reseeded : configuration.IsReseeded other) :
    other.policy = configuration.policy := by
  unfold Configuration.policy
  rw [reseeded.usages]

end Configuration

/-! ## Loading -/

namespace KeyStore

/-- Seeds have no influence on what is logged while keys are loaded, nor on whether and how this
fails, as long as the keys can be derived. -/
theorem load_of_reseeded {entries others : List KeyEntry}
    (reseeded : List.Forall₂ KeyEntry.IsReseeded entries others)
    (derivable : ∀ entry ∈ entries, entry.IsDerivable)
    (otherDerivable : ∀ entry ∈ others, entry.IsDerivable) (store otherStore : KeyStore)
    (same : ∀ identifier, otherStore.contains identifier = store.contains identifier) :
    (otherStore.load others).log = (store.load entries).log ∧
      ((∃ error, (store.load entries).store = .error error ∧
          (otherStore.load others).store = .error error) ∨
        ∃ after otherAfter, (store.load entries).store = .ok after ∧
          (otherStore.load others).store = .ok otherAfter) := by
  induction reseeded generalizing store otherStore with
  | nil => exact ⟨rfl, Or.inr ⟨store, otherStore, rfl, rfl⟩⟩
  | @cons entry other entries others reseeds _ ih =>
    rw [List.forall_mem_cons] at derivable otherDerivable
    obtain ⟨key, derived⟩ := derivable.1
    obtain ⟨otherKey, otherDerived⟩ := otherDerivable.1
    have logged : otherKey.algorithm = key.algorithm := by
      rw [(KeyAlgorithm.deriveKey_eq_ok_iff.mp derived).algorithm,
        (KeyAlgorithm.deriveKey_eq_ok_iff.mp otherDerived).algorithm, reseeds.algorithm]
    rw [load, load, derived, otherDerived]
    dsimp only [Loading.after]
    rw [reseeds.identifier, logged]
    unfold insert
    rw [same]
    by_cases taken : store.contains entry.identifier = true
    · rw [if_pos taken, if_pos taken]
      exact ⟨rfl, Or.inl ⟨_, rfl, rfl⟩⟩
    · rw [if_neg taken, if_neg taken]
      dsimp only
      have free := contains_eq_false_iff.mp (Bool.eq_false_iff.mpr taken)
      have otherFree := contains_eq_false_iff.mp ((same _).trans (Bool.eq_false_iff.mpr taken))
      obtain ⟨log, ends⟩ :=
        ih derivable.2 otherDerivable.2 ⟨(entry.identifier, key) :: store.keys⟩
        ⟨(entry.identifier, otherKey) :: otherStore.keys⟩ fun identifier => by
          rw [Bool.eq_iff_iff, contains_of_insert (insert_eq_ok_iff.mpr ⟨free, rfl⟩),
            contains_of_insert (insert_eq_ok_iff.mpr ⟨otherFree, rfl⟩), same]
      exact ⟨congrArg (List.cons _) log, ends⟩

/-- What is bound in a store that entries have been loaded into was bound before, or is the key of
an entry. -/
theorem exists_entry_of_get? {entries : List KeyEntry} {store after : KeyStore}
    {identifier : String} {key : DigestSigner} (loaded : (store.load entries).store = .ok after)
    (found : after.get? identifier = some key) :
    store.get? identifier = some key ∨ ∃ entry ∈ entries, entry.identifier = identifier ∧
      entry.algorithm.deriveKey entry.seed = .ok key := by
  induction entries generalizing store with
  | nil =>
    cases loaded
    exact Or.inl found
  | cons entry entries ih =>
    obtain ⟨key', next, derived, inserted, rest⟩ := load_cons_eq_ok_iff.mp loaded
    rcases ih rest with bound | ⟨other, member, isEntry⟩
    · rw [get?_of_insert inserted] at bound
      by_cases same : identifier = entry.identifier
      · rw [if_pos same] at bound
        cases bound
        exact Or.inr ⟨entry, .head _, same.symm, derived⟩
      · rw [if_neg same] at bound
        exact Or.inl bound
    · exact Or.inr ⟨other, .tail _ member, isEntry⟩

end KeyStore

/-! ## Keys -/

/-- That octets can be read as the answer to a question: those for a public key are a text. -/
def Question.IsReadable : Question → Octets → Prop
  | publicKey, octets => octets.toText? ≠ none
  | sign .., _ => True

/-- That two endings of a question agree: they are equal, or both are answers. -/
inductive Question.Agree (question : Question) :
    Ending Failure Octets → Ending Failure Octets → Prop
  | same (ending : Ending Failure Octets) : Agree question ending ending
  | answered {octets otherOctets : Octets} : question.IsReadable octets →
    question.IsReadable otherOctets → Agree question (.value octets) (.value otherOctets)

/-- That two tasks of the signer agree on a question: all that differs is what is answered. -/
structure Task.Agree (question : Question) (task other : Task Failure Octets) : Prop where
  log : other.log = task.log
  waits : other.waits = task.waits
  ending : question.Agree task.ending other.ending

theorem Task.Agree.refl (question : Question) (task : Task Failure Octets) :
    Agree question task task :=
  ⟨rfl, rfl, .same _⟩

/-- That ECDSA does not let a configuration down with a call of the signer: the curve key that the
call names can sign the number of a digest that is long enough. -/
def Configuration.CanAnswer (configuration : Configuration) (call : SignerCall) : Prop :=
  ∀ entry ∈ configuration.keys, entry.identifier = call.identifier →
    entry.algorithm = .secp256k1 →
      ∀ secret, Secp256k1.PrivateKey.ofSeed? entry.seed = some secret →
      ∀ digest hash, call.question = .sign digest hash → 16 ≤ digest.length →
        secret.CanSign (Secp256k1.digestNumber digest)

namespace KeyAlgorithm

variable {algorithm : KeyAlgorithm} {seed otherSeed : String} {key otherKey : DigestSigner}

/-- How a key refuses a digest depends on the kind of the key only. -/
theorem Derives.sign_eq_of_not_accepts {digest : Octets} {hash : HashAlgorithm}
    (derives : Derives seed algorithm key) (otherDerives : Derives otherSeed algorithm otherKey)
    (refuses : ¬ algorithm.Accepts digest hash) :
    otherKey.sign digest hash = key.sign digest hash := by
  cases derives with
  | secp256k1 _ =>
    cases otherDerives with
    | secp256k1 _ =>
      have short : digest.length < 16 := Nat.lt_of_not_le refuses
      unfold DigestSigner.ofSecp256k1 Secp256k1.PrivateKey.sign?
      dsimp only
      rw [if_pos short, if_pos short]
  | rsa _ =>
    cases otherDerives with
    | rsa _ =>
      have unfit : digest.length ≠ hash.digestLength := refuses
      unfold DigestSigner.ofRsa Rsa.PrivateKey.sign?
      dsimp only
      rw [if_neg unfit, if_neg unfit]

/-- Two keys of one kind agree on every call, if ECDSA lets neither down. -/
theorem Derives.agree {call : SignerCall} (derives : Derives seed algorithm key)
    (otherDerives : Derives otherSeed algorithm otherKey)
    (canSign : ∀ digest hash, call.question = .sign digest hash →
      algorithm.Accepts digest hash →
        (∃ octets, key.sign digest hash = .value octets) ∧
        ∃ octets, otherKey.sign digest hash = .value octets) :
    Task.Agree call.question (key.answer call) (otherKey.answer call) := by
  rcases call with ⟨⟨digest, hash⟩ | _, identifier, token, _ | _⟩
  · refine ⟨?_, rfl, ?_⟩
    · dsimp only [DigestSigner.answer]
      rw [derives.algorithm, otherDerives.algorithm]
    · dsimp only [DigestSigner.answer]
      by_cases accepts : algorithm.Accepts digest hash
      · obtain ⟨⟨octets, signs⟩, otherOctets, otherSigns⟩ :=
          canSign digest hash rfl accepts
        rw [signs, otherSigns]
        exact .answered trivial trivial
      · rw [derives.sign_eq_of_not_accepts otherDerives accepts]
        exact .same _
  · exact .refl _ _
  · obtain ⟨pem, tells⟩ := derives.publicKeyPem
    obtain ⟨otherPem, otherTells⟩ := otherDerives.publicKeyPem
    have readable (pem : String) : Question.publicKey.IsReadable (Octets.ofText pem) := by
      show (Octets.ofText pem).toText? ≠ none
      rw [Octets.toText?_ofText]
      exact nofun
    refine ⟨rfl, rfl, ?_⟩
    dsimp only [DigestSigner.answer, Task.done]
    rw [tells, otherTells]
    exact .answered (readable pem) (readable otherPem)
  · exact .refl _ _

end KeyAlgorithm

/-! ## Stores -/

namespace KeyStore

/-- A store that entries have been loaded into holds the keys of their identifiers. -/
theorem contains_of_load {entries : List KeyEntry} {after : KeyStore} {identifier : String}
    (loaded : (empty.load entries).store = .ok after) :
    after.get? identifier = none ↔ identifier ∉ entries.map KeyEntry.identifier := by
  refine ⟨fun unbound member => ?_, fun unlisted => ?_⟩
  · obtain ⟨entry, isEntry, rfl⟩ := List.mem_map.mp member
    obtain ⟨key, -, found⟩ := get?_of_load loaded isEntry
    exact nomatch unbound.symm.trans found
  · cases found : after.get? identifier with
    | none => rfl
    | some key =>
      obtain ⟨⟨⟩⟩ | ⟨entry, isEntry, rfl, -⟩ := exists_entry_of_get? loaded found
      exact absurd (List.mem_map_of_mem isEntry) unlisted

/-- Two stores that do not hold the key of a call fail in the same way. -/
theorem signer_of_unbound {store other : KeyStore} {call : SignerCall}
    (unbound : store.get? call.identifier = none) (otherUnbound : other.get? call.identifier = none)
    (history : List SignerCall) : other.signer history call = store.signer history call := by
  unfold signer sign publicKey find
  rw [unbound, otherUnbound]

end KeyStore

theorem KeyEntry.exists_reseeded_of_mem {entries others : List KeyEntry} {entry : KeyEntry}
    (reseeded : List.Forall₂ IsReseeded entries others) (member : entry ∈ entries) :
    ∃ other ∈ others, entry.IsReseeded other := by
  induction reseeded with
  | nil => exact absurd member List.not_mem_nil
  | cons same _ ih =>
    rcases List.mem_cons.mp member with rfl | later
    · exact ⟨_, .head _, same⟩
    · obtain ⟨other, isOther, same⟩ := ih later
      exact ⟨other, .tail _ isOther, same⟩

/-- Where ECDSA does not let a configuration down, its keys sign what their kind accepts. -/
theorem Configuration.CanAnswer.signs {configuration : Configuration} {call : SignerCall}
    (canAnswer : configuration.CanAnswer call) {entry : KeyEntry} {key : DigestSigner}
    (listed : entry ∈ configuration.keys) (named : entry.identifier = call.identifier)
    (derives : KeyAlgorithm.Derives entry.seed entry.algorithm key) {digest : Octets}
    {hash : HashAlgorithm} (signs : call.question = .sign digest hash)
    (accepts : entry.algorithm.Accepts digest hash) :
    ∃ octets, key.sign digest hash = .value octets := by
  refine derives.sign_of_accepts accepts fun secret isCurve ofSeed => ?_
  rw [isCurve] at accepts
  exact canAnswer entry listed named isCurve secret ofSeed digest hash signs accepts

/-- The stores of two configurations that differ in their seeds only agree on every call, if ECDSA
lets neither down. -/
theorem Configuration.IsReseeded.agreeOn {configuration other : Configuration}
    {store otherStore : KeyStore} {call : SignerCall} (reseeded : configuration.IsReseeded other)
    (loaded : configuration.load.store = .ok store)
    (otherLoaded : other.load.store = .ok otherStore) (canAnswer : configuration.CanAnswer call)
    (otherCanAnswer : other.CanAnswer call) (history : List SignerCall) :
    Task.Agree call.question (store.signer history call) (otherStore.signer history call) := by
  cases found : store.get? call.identifier with
  | none =>
    have unlisted := (KeyStore.contains_of_load loaded).mp found
    rw [← map_identifier_of_reseeded reseeded.keys] at unlisted
    rw [KeyStore.signer_of_unbound found ((KeyStore.contains_of_load otherLoaded).mpr unlisted)]
    exact .refl _ _
  | some key =>
    obtain ⟨⟨⟩⟩ | ⟨entry, listed, named, derived⟩ :=
      KeyStore.exists_entry_of_get? loaded found
    obtain ⟨otherEntry, otherListed, reseeds⟩ :=
      KeyEntry.exists_reseeded_of_mem reseeded.keys listed
    obtain ⟨otherKey, otherDerived, otherFound⟩ := KeyStore.get?_of_load otherLoaded otherListed
    have otherNamed := reseeds.identifier.trans named
    rw [otherNamed] at otherFound
    rw [KeyStore.signer_of_bound found, KeyStore.signer_of_bound otherFound]
    have derives := KeyAlgorithm.deriveKey_eq_ok_iff.mp derived
    have otherDerives := KeyAlgorithm.deriveKey_eq_ok_iff.mp otherDerived
    refine derives.agree (reseeds.algorithm ▸ otherDerives) fun digest hash signs accepts =>
      ⟨?_, ?_⟩
    · exact canAnswer.signs listed named derives signs accepts
    · rw [← reseeds.algorithm] at accepts
      exact otherCanAnswer.signs otherListed otherNamed otherDerives signs accepts

/-! ## Results -/

/-- That two results of a plan agree: they are equal, or both are made of an answer of the
signer. -/
inductive Plan.ResultsAgree {α : Type} (plan : Plan α) :
    Except SigningError α → Except SigningError α → Prop
  | same (result : Except SigningError α) : ResultsAgree plan result result
  | answered {value otherValue : α} : (∀ result, plan ≠ .settled result) →
    ResultsAgree plan (.ok value) (.ok otherValue)

/-- That signers agree on what a plan asks. -/
def Plan.SignersAgree {α : Type} (plan : Plan α) (asking : Asking) (signer other : Signer) :
    Prop :=
  ∀ call ∈ plan.call? asking,
    Task.Agree call.question (signer asking.history call) (other asking.history call)

/-- If signers agree on a question and its answers can be read, what is made of the answers
agrees. -/
theorem Plan.agree_of_ask {α : Type} {identifier : String} {question : Question}
    {read : Octets → Except SigningError α} {asking : Asking} {signer other : Signer}
    (agree : (ask identifier question read).SignersAgree asking signer other)
    (reads : ∀ octets, question.IsReadable octets → ∃ value, read octets = .ok value) :
    (ask identifier question read).ResultsAgree
      ((ask identifier question read).result signer asking)
      ((ask identifier question read).result other asking) := by
  have ending := (agree _ rfl).ending
  unfold result task
  dsimp only [Task.mapEnding] at ending ⊢
  generalize (signer asking.history _).ending = answer at ending
  generalize (other asking.history _).ending = otherAnswer at ending
  cases ending with
  | same => exact .same _
  | answered readable otherReadable =>
    obtain ⟨value, isRead⟩ := reads _ readable
    obtain ⟨otherValue, otherIsRead⟩ := reads _ otherReadable
    show ResultsAgree _ (Ending.ofExcept (read _)).contain (Ending.ofExcept (read _)).contain
    rw [isRead, otherIsRead]
    exact .answered nofun

/-- If signers agree on what the plan of a request asks, they come to results that agree. -/
theorem Policy.Plans.agree {α : Type} {policy : Policy} {plan : Plan α}
    (plans : policy.Plans plan) {asking : Asking} {signer other : Signer}
    (agree : plan.SignersAgree asking signer other) :
    plan.ResultsAgree (plan.result signer asking) (plan.result other asking) := by
  cases plans with
  | listing endpoint => exact .same _
  | refusal endpoint reason => exact .same _
  | publicKey endpoint key? =>
    rcases Plan.publicKey_refused_or_asks policy endpoint key? with
      ⟨_, -, refused⟩ | ⟨_, asks⟩
    · rw [refused]
      exact .same _
    · rw [asks] at agree ⊢
      refine Plan.agree_of_ask agree fun octets readable => ?_
      obtain ⟨key, isText⟩ := Option.ne_none_iff_exists'.mp readable
      unfold PublicKey.ofOctets
      rw [isText]
      exact ⟨_, rfl⟩
  | sign endpoint request =>
    rcases Plan.sign_refused_or_asks policy endpoint request with
      ⟨_, -, refused⟩ | ⟨_, _, _, asks⟩
    · rw [refused]
      exact .same _
    · rw [asks] at agree ⊢
      exact Plan.agree_of_ask agree fun octets _ => ⟨_, rfl⟩

/-- That what came of two things that were polled agrees, where results agree in some way. -/
inductive Progress.Agree {α : Type} (resultsAgree : α → α → Prop) :
    Progress α → Progress α → Prop
  | untouched : Agree resultsAgree .untouched .untouched
  | dropped : Agree resultsAgree .dropped .dropped
  | pending : Agree resultsAgree .pending .pending
  | ended {result other : α} : resultsAgree result other →
    Agree resultsAgree (.ended result) (.ended other)

theorem Progress.Agree.isOver {α : Type} {resultsAgree : α → α → Prop}
    {progress other : Progress α}
    (agree : Agree resultsAgree progress other) : other.isOver = progress.isOver := by
  cases agree with
  | untouched | dropped | pending | ended _ => rfl

theorem Progress.Agree.refl {α : Type} {resultsAgree : α → α → Prop}
    (isRefl : ∀ result, resultsAgree result result) (progress : Progress α) :
    Agree resultsAgree progress progress := by
  cases progress with
  | untouched => exact .untouched
  | dropped => exact .dropped
  | pending => exact .pending
  | ended result => exact .ended (isRefl result)

theorem Progress.Agree.map {α β : Type} {resultsAgree : α → α → Prop}
    {answersAgree : β → β → Prop} {convert : α → β} {progress other : Progress α}
    (agree : Agree resultsAgree progress other)
    (converts : ∀ result otherResult, progress = .ended result →
      resultsAgree result otherResult → answersAgree (convert result) (convert otherResult)) :
    Agree answersAgree (progress.map convert) (other.map convert) := by
  cases agree with
  | untouched => exact .untouched
  | dropped => exact .dropped
  | pending => exact .pending
  | ended agree => exact .ended (converts _ _ rfl agree)

/-- Tasks that wait equally long come to outcomes that agree if their results do. -/
theorem Task.outcome_agree {α : Type} {task other : Task SigningError α}
    {resultsAgree : Except SigningError α → Except SigningError α → Prop}
    (waits : other.waits = task.waits)
    (agree : resultsAgree task.ending.contain other.ending.contain) (patience : Patience) :
    Progress.Agree resultsAgree (task.outcome patience) (other.outcome patience) := by
  rcases patience with _ | _ | polls
  · unfold outcome
    rw [waits]
    cases task.waits with
    | none => exact .pending
    | some _ => exact .ended agree
  · exact .untouched
  · unfold outcome
    rw [waits]
    cases task.waits with
    | none => exact .dropped
    | some waits =>
      dsimp only
      by_cases due : waits ≤ polls
      · rw [if_pos due, if_pos due]
        exact .ended agree
      · rw [if_neg due, if_neg due]
        exact .dropped

/-- Calls with agreeing outcomes have the same log. -/
theorem Call.logOf_agree {α : Type} {call : Call} {plan : Plan α}
    {progress other : Progress (Except SigningError α)}
    (agree : Progress.Agree plan.ResultsAgree progress other) (own : List Event) :
    call.logOf own other = call.logOf own progress := by
  cases agree with
  | untouched | dropped | pending => rfl
  | ended agree =>
    cases agree with
    | same _ => rfl
    | answered _ => rfl

/-- That what came of two requests agrees: they have made the same call and logged the same, and
their results agree in some way. -/
structure Served.Agree {α : Type} (resultsAgree : α → α → Prop) (served other : Served α) :
    Prop where
  call? : other.call? = served.call?
  log : other.log = served.log
  progress : Progress.Agree resultsAgree served.progress other.progress

/-- To carry out a plan of a request with signers that agree on what it asks comes to results that
agree. -/
theorem Service.perform_agree {α : Type} {policy : Policy} {plan : Plan α} {asking : Asking}
    {signer other : Signer} {call : Call} {patience : Patience} (plans : policy.Plans plan)
    (agree : patience ≠ .polls 0 → plan.SignersAgree asking signer other) :
    Served.Agree plan.ResultsAgree (perform ⟨policy, signer⟩ asking call plan patience)
      (perform ⟨policy, other⟩ asking call plan patience) := by
  by_cases unpolled : patience = .polls 0
  · rw [unpolled, perform_unpolled, perform_unpolled]
    exact ⟨rfl, rfl, .untouched⟩
  · have agree := agree unpolled
    have waits : (plan.task other asking).waits = (plan.task signer asking).waits := by
      cases plan with
      | settled result => rfl
      | ask identifier question read => exact (agree _ rfl).waits
    have own : other.logOf asking.history (plan.call? asking) =
        signer.logOf asking.history (plan.call? asking) := by
      cases plan with
      | settled result => rfl
      | ask identifier question read => exact (agree _ rfl).log
    have outcome := Task.outcome_agree waits (plans.agree agree) patience
    refine ⟨?_, ?_, ?_⟩
    · rw [perform_call?_of_polled _ _ _ _ unpolled, perform_call?_of_polled _ _ _ _ unpolled]
    · rw [perform_log, perform_log]
      dsimp only
      rw [own, Call.logOf_agree outcome]
    · rw [perform_progress, perform_progress]
      exact outcome

/-! ## Answers -/

/-- That a step has been answered with a public key or a signature: it makes an inquiry, and it is a
success. -/
def Step.IsAnsweredByKey (step : Step) (answer : Answer) : Prop :=
  step.inquiry? ≠ none ∧ ∃ status ∈ answer.status?, status ∈ [200, 201]

/-- That two answers to a step agree: they have the same status, and unless they are public keys or
signatures, they are equal. -/
structure Answer.Agree (step : Step) (answer other : Answer) : Prop where
  status : other.status? = answer.status?
  same : ¬ step.IsAnsweredByKey answer → other = answer

theorem Answer.Agree.refl (step : Step) (answer : Answer) : Agree step answer answer :=
  ⟨rfl, fun _ => rfl⟩

/-- That signers agree on what a step may ask. -/
def Step.SignersAgree (step : Step) (policy : Policy) (signer other : Signer) : Prop :=
  ∀ (history : List SignerCall) (call : SignerCall),
    (∃ inquiry ∈ step.inquiry?, policy.Lets inquiry call.question call.identifier) →
      Task.Agree call.question (signer history call) (other history call)

namespace Session

variable {policy : Policy} {step : Step} {patience : Patience} {signer other : Signer}

/-- A question that is put to the signer in a step is one that the policy lets the inquiry of the
step put. -/
theorem Performs.lets {α : Type} {session : Session} {call : Call} {plan : Plan α}
    {answer : Except SigningError α → Answer}
    (performs : session.Performs policy step patience call plan answer)
    (polled : patience ≠ .polls 0) {signerCall : SignerCall}
    (called : signerCall ∈ plan.call? (session.asking (step.tokenIn session))) :
    ∃ inquiry ∈ step.inquiry?,
      policy.Lets inquiry signerCall.question signerCall.identifier := by
  -- What a signer is asked does not depend on what it answers.
  let signer : Signer := fun _ _ => .done (.value [])
  have asked : (session.step ⟨policy, signer⟩ step patience).1.call? = some signerCall := by
    rw [performs.performs signer]
    exact (Service.perform_call?_of_polled _ _ _ _ polled).trans called
  exact (((session.step_gated policy step patience).asks signer signerCall).mp asked).2.1

/-- A success of a plan that asks is a public key or a signature. -/
theorem Performs.isAnsweredByKey {α : Type} {session : Session} {call : Call} {plan : Plan α}
    {answer : Except SigningError α → Answer}
    (performs : session.Performs policy step patience call plan answer)
    (polled : patience ≠ .polls 0) (asks : ∀ result, plan ≠ .settled result) (value : α) :
    step.IsAnsweredByKey (answer (.ok value)) := by
  refine ⟨fun inquiresNothing => ?_, call.success, performs.success asks value,
    performs.isSuccess⟩
  cases plan with
  | settled result => exact asks result rfl
  | ask identifier question read =>
    obtain ⟨inquiry, isInquiry, -⟩ := performs.lets polled (Option.mem_some_self _)
    rw [inquiresNothing] at isInquiry
    exact nomatch isInquiry

/-- If signers agree on what a step may ask, it comes to answers that agree, and the sessions after
it are equal. -/
theorem step_agree (session : Session) (policy : Policy) (step : Step) (patience : Patience)
    (agree : step.SignersAgree policy signer other) :
    Served.Agree (Answer.Agree step) (session.step ⟨policy, signer⟩ step patience).1
        (session.step ⟨policy, other⟩ step patience).1 ∧
      (session.step ⟨policy, other⟩ step patience).2 =
        (session.step ⟨policy, signer⟩ step patience).2 := by
  have served : Served.Agree (Answer.Agree step) (session.step ⟨policy, signer⟩ step patience).1
      (session.step ⟨policy, other⟩ step patience).1 := by
    rcases session.step_performs policy step patience with
      ⟨progress, noTrace⟩ | ⟨α, call, plan, answer, performs⟩
    · rw [noTrace, noTrace]
      exact ⟨rfl, rfl, .refl (.refl step) progress⟩
    · have performed : Served.Agree plan.ResultsAgree
          (Service.perform ⟨policy, signer⟩
            (session.asking (step.tokenIn session)) call plan patience)
          (Service.perform ⟨policy, other⟩ (session.asking (step.tokenIn session)) call plan
            patience) :=
        Service.perform_agree performs.plans fun polled signerCall called =>
          agree _ signerCall (performs.lets polled called)
      rw [performs.performs, performs.performs]
      refine ⟨performed.call?, performed.log,
        performed.progress.map fun result _ ended agree => ?_⟩
      cases agree with
      | same => exact .refl step _
      | answered asks =>
        have polled : patience ≠ .polls 0 := by
          rintro rfl
          exact nomatch ended
        exact ⟨(performs.success asks _).trans (performs.success asks _).symm,
          fun unanswered => absurd (performs.isAnsweredByKey polled asks _) unanswered⟩
  refine ⟨served, ?_⟩
  rw [step_snd, step_snd]
  cases step with
  | request request =>
    unfold after
    dsimp only
    rw [served.progress.isOver]
    unfold remember
    rw [served.call?]
  | listKeys _ | publicKey _ _ _ | sign _ _ _ | reject _ _ _ =>
    unfold after remember
    dsimp only
    rw [served.call?]
  | cancel token => rfl

/-- If signers agree on what the steps may ask, the services cannot be told apart but by public keys
and signatures. -/
theorem trace_agree (session : Session) (policy : Policy) (steps : List (Step × Patience))
    (agree : ∀ taken ∈ steps, taken.1.SignersAgree policy signer other) :
    ∀ taken ∈ steps.zip ((session.trace ⟨policy, signer⟩ steps).zip
        (session.trace ⟨policy, other⟩ steps)),
      Served.Agree (Answer.Agree taken.1.1) taken.2.1.1 taken.2.2.1 := by
  induction steps generalizing session with
  | nil => exact fun _ member => absurd member List.not_mem_nil
  | cons taken steps ih =>
    rcases taken with ⟨next, patience⟩
    rw [List.forall_mem_cons] at agree
    obtain ⟨first, same⟩ := session.step_agree policy next patience agree.1
    rw [trace_cons, trace_cons, same, List.zip_cons_cons, List.zip_cons_cons, List.forall_mem_cons]
    exact ⟨first, ih _ agree.2⟩

end Session

/-! ## Services -/

namespace Configuration

/-- That ECDSA does not let a configuration down in a step. -/
def CanSignIn (configuration : Configuration) (step : Step) : Prop :=
  ∀ endpoint request, step.inquiry? = some (.sign endpoint request) →
    configuration.CanSign request

theorem CanSignIn.of_sign {configuration : Configuration} {endpoint : Endpoint}
    {request : SigningRequest} {caller : Nat} (canSign : configuration.CanSign request) :
    configuration.CanSignIn (.sign endpoint request caller) := by
  intro _ _ inquires
  cases inquires
  exact canSign

/-- Where ECDSA does not let a configuration down, it answers every question that the step may
put. -/
theorem CanSignIn.canAnswer {configuration : Configuration} {step : Step} {policy : Policy}
    {call : SignerCall} (canSign : configuration.CanSignIn step)
    (lets : ∃ inquiry ∈ step.inquiry?, policy.Lets inquiry call.question call.identifier) :
    configuration.CanAnswer call := by
  intro entry listed named isCurve secret ofSeed digest hash signs long
  obtain ⟨inquiry, inquires, lets⟩ := lets
  cases inquiry with
  | publicKey endpoint key? =>
    obtain ⟨-, -, -, isPublicKey⟩ := Policy.lets_publicKey_iff.mp lets
    exact nomatch signs.symm.trans isPublicKey
  | sign endpoint request =>
    obtain ⟨names, -, -, digest', decoded, asked⟩ := Policy.lets_sign_iff.mp lets
    rw [← named] at names
    cases signs.symm.trans asked
    exact canSign endpoint request inquires entry listed names isCurve secret digest
      ofSeed decoded long

variable {configuration other : Configuration}

/-- That services of two configurations cannot be told apart but by public keys and signatures, as
long as ECDSA lets neither down: in every session, the same steps are logged in the same way and
have answers that agree. -/
def AnswersAgree (configuration other : Configuration) (store otherStore : KeyStore) : Prop :=
  ∀ (session : Session) (steps : List (Step × Patience)),
    (∀ taken ∈ steps, configuration.CanSignIn taken.1 ∧ other.CanSignIn taken.1) →
      ∀ taken ∈ steps.zip ((session.trace (configuration.service store) steps).zip
          (session.trace (other.service otherStore) steps)),
        Served.Agree (Answer.Agree taken.1.1) taken.2.1.1 taken.2.2.1

/-- The services of two configurations that differ in their seeds only cannot be told apart but by
public keys and signatures. -/
theorem IsReseeded.answersAgree {store otherStore : KeyStore}
    (reseeded : configuration.IsReseeded other) (loaded : configuration.load.store = .ok store)
    (otherLoaded : other.load.store = .ok otherStore) :
    configuration.AnswersAgree other store otherStore := by
  intro session steps canSign
  unfold service
  rw [reseeded.policy]
  refine session.trace_agree configuration.policy steps fun taken isTaken history call lets => ?_
  obtain ⟨canSign, otherCanSign⟩ := canSign taken isTaken
  exact reseeded.agreeOn loaded otherLoaded (canSign.canAnswer lets) (otherCanSign.canAnswer lets)
    history

end Configuration

/-- **Seeds stay in keys.** Two configurations that differ in their seeds only, and whose keys can
all be derived, are checked with the same result, have the same policy, and are loaded with the same
log and, if identifiers clash, the same error. In every session of their services the same steps
call the signer with the same questions, log the same events and are answered with the same
statuses, and all answers but public keys and signatures are equal. -/
theorem seeds_stay_in_keys {configuration other : Configuration}
    (reseeded : configuration.IsReseeded other) (seeded : configuration.IsSeeded)
    (otherSeeded : other.IsSeeded) :
    other.validate = configuration.validate ∧ other.policy = configuration.policy ∧
      other.load.log = configuration.load.log ∧
      ((∃ error, configuration.load.store = .error error ∧ other.load.store = .error error) ∨
        ∃ store otherStore, configuration.load.store = .ok store ∧
          other.load.store = .ok otherStore ∧
          configuration.AnswersAgree other store otherStore) := by
  obtain ⟨log, stores⟩ := KeyStore.load_of_reseeded reseeded.keys
    (fun entry member => (seeded entry member).2) (fun entry member => (otherSeeded entry member).2)
    .empty .empty fun _ => rfl
  refine ⟨reseeded.validate seeded otherSeeded, reseeded.policy, log, ?_⟩
  rcases stores with fail | ⟨store, otherStore, loaded, otherLoaded⟩
  · exact Or.inl fail
  · exact Or.inr ⟨store, otherStore, loaded, otherLoaded,
      reseeded.answersAgree loaded otherLoaded⟩

/-- What is known of the seed of a key by asking for its public key, by having it refuse a digest
that is too short, and by having it sign one that is not, is in the public key and in the
signature. -/
theorem seeds_stay_in_keys_of_one_and_two :
    let configuration : Configuration :=
      ⟨[⟨"key1", .secp256k1, "one"⟩], [⟨.blob, ["key1"]⟩]⟩
    let other : Configuration := ⟨[⟨"key1", .secp256k1, "two"⟩], [⟨.blob, ["key1"]⟩]⟩
    let steps : List (Step × Patience) := [(.publicKey .blob (some ⟨"key1"⟩) 0, .toTheEnd),
      (.sign .blob ⟨some ⟨"key1"⟩, "AAA=", "SHA256"⟩ 0, .toTheEnd),
      (.sign .blob ⟨some ⟨"key1"⟩, "AAAAAAAAAAAAAAAAAAAAAA==", "SHA256"⟩ 0, .toTheEnd)]
    ∃ store otherStore, configuration.load.store = .ok store ∧
      other.load.store = .ok otherStore ∧
      ∀ taken ∈ steps.zip ((({} : Session).trace (configuration.service store) steps).zip
          (({} : Session).trace (other.service otherStore) steps)),
        Served.Agree (Answer.Agree taken.1.1) taken.2.1.1 taken.2.2.1 := by
  intro configuration other steps
  have reseeded : configuration.IsReseeded other :=
    ⟨.cons ⟨rfl, rfl⟩ .nil, rfl⟩
  have seeded : configuration.IsSeeded := by
    intro entry member
    cases List.mem_singleton.mp member
    exact ⟨by decide, KeyEntry.isDerivable_of_curveKey Secp256k1.PrivateKey.ofSeed?_one⟩
  have otherSeeded : other.IsSeeded := by
    intro entry member
    cases List.mem_singleton.mp member
    exact ⟨by decide, KeyEntry.isDerivable_of_curveKey Secp256k1.PrivateKey.ofSeed?_two⟩
  have few : Base64.decode "AAA=" = .ok (List.replicate 2 0) := rfl
  have many : Base64.decode "AAAAAAAAAAAAAAAAAAAAAA==" = .ok (List.replicate 16 0) := rfl
  have signs {configuration : Configuration} (canSign : ∀ entry ∈ configuration.keys,
      ∀ secret ∈ Secp256k1.PrivateKey.ofSeed? entry.seed, secret.CanSign 0) :
      ∀ taken ∈ steps, configuration.CanSignIn taken.1 := by
    simp only [steps, List.forall_mem_cons]
    exact ⟨nofun, .of_sign (Configuration.canSign_of_zeros few canSign),
      .of_sign (Configuration.canSign_of_zeros many canSign), nofun⟩
  have canSign : ∀ taken ∈ steps, configuration.CanSignIn taken.1 := by
    refine signs fun entry member => ?_
    cases List.mem_singleton.mp member
    exact Secp256k1.PrivateKey.canSign_zero_of_one
  have otherCanSign : ∀ taken ∈ steps, other.CanSignIn taken.1 := by
    refine signs fun entry member => ?_
    cases List.mem_singleton.mp member
    exact Secp256k1.PrivateKey.canSign_zero_of_two
  obtain ⟨-, -, -,
    ⟨error, fails, -⟩ | ⟨store, otherStore, loaded, otherLoaded, agree⟩⟩ :=
    seeds_stay_in_keys reseeded seeded otherSeeded
  · have loads : ∃ store, configuration.load.store = .ok store :=
      Configuration.exists_load_of_curveKey Secp256k1.PrivateKey.ofSeed?_one
    obtain ⟨store, loads⟩ := loads
    exact nomatch loads.symm.trans fails
  · exact ⟨store, otherStore, loaded, otherLoaded,
      agree {} steps fun taken isTaken => ⟨canSign taken isTaken, otherCanSign taken isTaken⟩⟩

end Signet
