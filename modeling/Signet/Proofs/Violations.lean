import Signet.Proofs.Validity

/-!
# First violations

A walk ends at the first entry with which something is wrong (`walk_blames_iff`), so a configuration
that is not valid is refused for the violation that comes first in it
(`Configuration.FirstViolation`): everything before it makes up a valid configuration.
-/

namespace Signet

/-! ## Walks -/

section Walks

variable {α β ε : Type} [BEq β] {check : Check α β ε}

/-- A walk goes on behind entries without a fault. -/
theorem walk_append {seen : List β} {before : List α} (passed : walk check seen before = .ok ())
    (entries : List α) :
    walk check seen (before ++ entries) =
      walk check ((before.map check.name).reverse ++ seen) entries := by
  induction before generalizing seen with
  | nil => rfl
  | cons entry before ih =>
    rw [walk] at passed
    rw [List.cons_append, walk, List.map_cons, List.reverse_cons, List.append_assoc]
    cases found : check.fault? seen entry with
    | some fault =>
      rw [found] at passed
      cases passed
    | none =>
      rw [found] at passed
      exact ih passed

/-- A walk ends with the first fault: what is before it, taken alone, has none. -/
theorem walk_eq_error_iff {seen : List β} {entries : List α} {fault : ε} :
    walk check seen entries = .error fault ↔
      ∃ before entry after, entries = before ++ entry :: after ∧
        walk check seen before = .ok () ∧
        check.fault? ((before.map check.name).reverse ++ seen) entry = some fault := by
  constructor
  · intro failed
    induction entries generalizing seen with
    | nil => cases failed
    | cons entry entries ih =>
      rw [walk] at failed
      cases found : check.fault? seen entry with
      | some first =>
        rw [found] at failed
        cases failed
        exact ⟨[], entry, entries, rfl, rfl, found⟩
      | none =>
        rw [found] at failed
        obtain ⟨before, faulty, after, split, passed, isFault⟩ := ih failed
        refine ⟨entry :: before, faulty, after, ?_, ?_, ?_⟩
        · rw [split, List.cons_append]
        · rw [walk, found]
          exact passed
        · rw [List.map_cons, List.reverse_cons, List.append_assoc]
          exact isFault
  · intro faulty
    obtain ⟨before, entry, after, rfl, passed, isFault⟩ := faulty
    rw [walk_append passed, walk, isFault]

/-- What is wrong with an entry behind others. A repeated name counts before a flaw. -/
inductive Check.Blames (check : Check α β ε) (before : List α) (entry : α) : ε → Prop
  | repetition (repeated : check.name entry ∈ before.map check.name) :
    Blames check before entry (check.repetition entry)
  | flaw (fresh : check.name entry ∉ before.map check.name) {fault : ε}
    (isFlaw : check.flaw? entry = some fault) : Blames check before entry fault

theorem Check.fault?_eq_some_iff [LawfulBEq β] {before : List α} {entry : α} {fault : ε} :
    check.fault? (before.map check.name).reverse entry = some fault ↔
      check.Blames before entry fault := by
  by_cases repeated : check.name entry ∈ before.map check.name
  · rw [fault?_of_mem (List.mem_reverse.mpr repeated), Option.some.injEq]
    refine ⟨fun same => same ▸ .repetition repeated, fun blames => ?_⟩
    cases blames with
    | repetition => rfl
    | flaw fresh => exact absurd repeated fresh
  · rw [fault?_of_not_mem (mt List.mem_reverse.mp repeated)]
    refine ⟨.flaw repeated, fun blames => ?_⟩
    cases blames with
    | repetition earlier => exact absurd earlier repeated
    | flaw fresh isFlaw => exact isFlaw

/-- From the beginning, a walk blames the first entry with which something is wrong. -/
theorem walk_blames_iff [LawfulBEq β] {entries : List α} {fault : ε} :
    walk check [] entries = .error fault ↔
      ∃ before entry after, entries = before ++ entry :: after ∧
        walk check [] before = .ok () ∧ check.Blames before entry fault := by
  rw [walk_eq_error_iff]
  simp only [List.append_nil, Check.fault?_eq_some_iff]

end Walks

/-! ## Keys -/

/-- What is wrong with a key behind others. That it repeats an identifier counts before its seed. -/
inductive KeyEntry.Violates (before : List KeyEntry) (key : KeyEntry) : ConfigurationError → Prop
  | duplicateKey (repeated : key.identifier ∈ before.map KeyEntry.identifier) :
    Violates before key (.duplicateKey key.identifier)
  | emptySeed (fresh : key.identifier ∉ before.map KeyEntry.identifier)
    (unseeded : key.seed = "") : Violates before key (.emptySeed key.identifier)

namespace Configuration

theorem keyCheck_blames_iff {before : List KeyEntry} {key : KeyEntry} {error : ConfigurationError} :
    keyCheck.Blames before key error ↔ key.Violates before error := by
  constructor
  · intro blames
    cases blames with
    | repetition repeated => exact .duplicateKey repeated
    | flaw fresh isFlaw =>
      obtain ⟨unseeded, same⟩ := Option.ite_none_right_eq_some.mp isFlaw
      cases same
      exact .emptySeed fresh (String.isEmpty_iff.mp unseeded)
  · intro violates
    cases violates with
    | duplicateKey repeated => exact .repetition repeated
    | emptySeed fresh unseeded => exact .flaw fresh (if_pos (String.isEmpty_iff.mpr unseeded))

/-- Keys pass if they alone make a valid configuration. -/
theorem validateKeys_eq_ok_iff_isValid {keys : List KeyEntry} :
    validateKeys [] keys = .ok () ↔ IsValid ⟨keys, []⟩ := by
  rw [← validate_eq_ok_iff]
  unfold validate
  cases validateKeys [] keys <;> rfl

end Configuration

/-! ## Usages -/

/-- What is wrong with a usage behind others, if there are keys with some identifiers. That it
repeats an endpoint counts before its identifiers, and of these the first that names no key
counts. -/
inductive UsageEntry.Violates (identifiers : List String) (before : List UsageEntry)
    (usage : UsageEntry) : ConfigurationError → Prop
  | duplicateEndpoint (repeated : usage.endpoint ∈ before.map UsageEntry.endpoint) :
    Violates identifiers before usage (.duplicateEndpoint usage.endpoint)
  | unknownKey (fresh : usage.endpoint ∉ before.map UsageEntry.endpoint)
    {known others : List String} {unknown : String}
    (names : usage.identifiers = known ++ unknown :: others)
    (areKnown : ∀ identifier ∈ known, identifier ∈ identifiers)
    (isUnknown : unknown ∉ identifiers) :
    Violates identifiers before usage (.unknownKey usage.endpoint unknown)

namespace Configuration

/-- The first of some names that is not among others. -/
theorem find?_not_contains_eq_some_iff {names identifiers : List String} {unknown : String} :
    (names.find? fun name => !identifiers.contains name) = some unknown ↔
      unknown ∉ identifiers ∧ ∃ known others, names = known ++ unknown :: others ∧
        ∀ identifier ∈ known, identifier ∈ identifiers := by
  rw [List.find?_eq_some_iff_append]
  simp

theorem usageCheck_blames_iff {identifiers : List String} {before : List UsageEntry}
    {usage : UsageEntry} {error : ConfigurationError} :
    (usageCheck identifiers).Blames before usage error ↔
      usage.Violates identifiers before error := by
  constructor
  · intro blames
    cases blames with
    | repetition repeated => exact .duplicateEndpoint repeated
    | flaw fresh isFlaw =>
      obtain ⟨unknown, isFirst, rfl⟩ := Option.map_eq_some_iff.mp isFlaw
      obtain ⟨isUnknown, known, others, names, areKnown⟩ :=
        find?_not_contains_eq_some_iff.mp isFirst
      exact .unknownKey fresh names areKnown isUnknown
  · intro violates
    cases violates with
    | duplicateEndpoint repeated => exact .repetition repeated
    | unknownKey fresh names areKnown isUnknown =>
      have isFirst := find?_not_contains_eq_some_iff.mpr ⟨isUnknown, _, _, names, areKnown⟩
      exact .flaw fresh (Option.map_eq_some_iff.mpr ⟨_, isFirst, rfl⟩)

variable {configuration : Configuration} {error : ConfigurationError}

/-- Keys that have passed and usages that pass with them make a valid configuration. -/
theorem validateUsages_eq_ok_iff_isValid {usages : List UsageEntry}
    (passed : validateKeys [] configuration.keys = .ok ()) :
    validateUsages configuration.identifiers [] usages = .ok () ↔
      IsValid ⟨configuration.keys, usages⟩ := by
  rw [← validate_eq_ok_iff]
  unfold validate
  dsimp only
  rw [passed]
  rfl

/-! ## Configurations -/

/-- That an error is the first violation in a configuration: something is wrong with a key, and the
keys before it are valid, or with a usage, and all keys and the usages before it are valid. -/
inductive FirstViolation (configuration : Configuration) (error : ConfigurationError) : Prop
  | ofKey {before after : List KeyEntry} {key : KeyEntry}
    (keys : configuration.keys = before ++ key :: after) (isValid : IsValid ⟨before, []⟩)
    (violates : key.Violates before error)
  | ofUsage {before after : List UsageEntry} {usage : UsageEntry}
    (usages : configuration.usages = before ++ usage :: after)
    (isValid : IsValid ⟨configuration.keys, before⟩)
    (violates : usage.Violates configuration.identifiers before error)

theorem validateKeys_eq_error_iff {keys : List KeyEntry} :
    validateKeys [] keys = .error error ↔
      ∃ before key after, keys = before ++ key :: after ∧ IsValid ⟨before, []⟩ ∧
        KeyEntry.Violates before key error := by
  rw [validateKeys_eq_walk, walk_blames_iff]
  simp only [← validateKeys_eq_walk, validateKeys_eq_ok_iff_isValid, keyCheck_blames_iff]

theorem validateUsages_eq_error_iff (passed : validateKeys [] configuration.keys = .ok ()) :
    validateUsages configuration.identifiers [] configuration.usages = .error error ↔
      ∃ before usage after, configuration.usages = before ++ usage :: after ∧
        IsValid ⟨configuration.keys, before⟩ ∧
        UsageEntry.Violates configuration.identifiers before usage error := by
  rw [validateUsages_eq_walk, walk_blames_iff]
  simp only [← validateUsages_eq_walk, validateUsages_eq_ok_iff_isValid passed,
    usageCheck_blames_iff]

/-- The keys of a valid configuration pass. -/
theorem IsValid.validateKeys (isValid : configuration.IsValid) :
    validateKeys [] configuration.keys = .ok () :=
  validateKeys_eq_ok_iff.mpr ⟨fun _ _ => List.not_mem_nil, isValid.seeded, isValid.distinct⟩

/-- A configuration is refused for its first violation. -/
theorem validate_eq_error_iff :
    configuration.validate = .error error ↔ configuration.FirstViolation error := by
  constructor
  · intro failed
    unfold validate at failed
    split at failed
    next first isFirst =>
      cases failed
      obtain ⟨before, key, after, keys, isValid, violates⟩ :=
        validateKeys_eq_error_iff.mp isFirst
      exact .ofKey keys isValid violates
    next passed =>
      obtain ⟨before, usage, after, usages, isValid, violates⟩ :=
        (validateUsages_eq_error_iff passed).mp failed
      exact .ofUsage usages isValid violates
  · intro first
    unfold validate
    cases first with
    | ofKey keys isValid violates =>
      rw [validateKeys_eq_error_iff.mpr ⟨_, _, _, keys, isValid, violates⟩]
    | ofUsage usages isValid violates =>
      have passed := isValid.validateKeys
      dsimp only at passed
      rw [passed]
      exact (validateUsages_eq_error_iff passed).mpr ⟨_, _, _, usages, isValid, violates⟩

/-- **The checks find the first violation.** A configuration is accepted if its identifiers are
distinct, no seed is empty, no endpoint occurs twice and only its own keys are used, and only then.
If it is refused, then for an error before which there is nothing to refuse, and there is only one
such error. Keys come before usages, and both in their order; of one key a repeated identifier comes
before an empty seed, and of one usage a repeated endpoint before the first identifier that names no
key. -/
theorem checks_find_first_violation (configuration : Configuration) :
    (configuration.validate = .ok () ↔ configuration.IsValid) ∧
      ∀ error, configuration.validate = .error error ↔ configuration.FirstViolation error :=
  ⟨validate_eq_ok_iff, fun _ => validate_eq_error_iff⟩

end Configuration

end Signet
