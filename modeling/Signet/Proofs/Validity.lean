import Mathlib.Data.List.Nodup
import Signet.Configuration.Reading

/-!
# Valid configurations

The checks on a configuration walk through its keys and then through its usages, and remember the
names that they have seen. Both walks are of one kind (`walk`): an entry must not repeat a name, and
nothing else may be wrong with it. What a walk accepts can be said without any order
(`walk_eq_ok_iff`), and so can what all checks together accept (`Configuration.IsValid`):
identifiers are distinct, seeds are not empty, no endpoint occurs twice, and only keys of the
configuration are used.
-/

namespace Signet

/-! ## Walks -/

/-- What is checked of an entry: that it does not repeat the name of an earlier one, and then all
that can be seen from the entry alone. -/
structure Check (α β ε : Type) where
  name : α → β
  repetition : α → ε
  flaw? : α → Option ε

/-- The rest of a list is unseen behind its first element if it was before and does not repeat that
element. -/
theorem unseen_cons_iff {α β : Type} {name : α → β} {first : β} {seen : List β}
    {rest : List α} : (∀ other ∈ rest, name other ∉ first :: seen) ↔
      first ∉ rest.map name ∧ ∀ other ∈ rest, name other ∉ seen := by
  refine ⟨fun unseen => ?_, fun isFresh other member earlier => ?_⟩
  · refine ⟨fun repeated => ?_,
      fun other member earlier => unseen other member (.tail _ earlier)⟩
    obtain ⟨other, member, same⟩ := List.mem_map.mp repeated
    apply unseen other member
    rw [same]
    exact .head _
  · obtain ⟨unrepeated, unseen⟩ := isFresh
    rcases List.mem_cons.mp earlier with same | earlier
    · exact unrepeated (List.mem_map.mpr ⟨other, member, same⟩)
    · exact unseen other member earlier

section Walks

variable {α β ε : Type} [BEq β]

/-- What is wrong with an entry behind entries with some names. -/
def Check.fault? (check : Check α β ε) (seen : List β) (entry : α) : Option ε :=
  if seen.contains (check.name entry) then some (check.repetition entry) else check.flaw? entry

/-- Walks through entries up to the first fault, behind entries with some names. -/
def walk (check : Check α β ε) (seen : List β) : List α → Except ε Unit
  | [] => .ok ()
  | entry :: entries =>
    match check.fault? seen entry with
    | some fault => .error fault
    | none => walk check (check.name entry :: seen) entries

variable [LawfulBEq β] {check : Check α β ε} {seen : List β}

theorem Check.fault?_of_mem {entry : α} (repeated : check.name entry ∈ seen) :
    check.fault? seen entry = some (check.repetition entry) := by
  rw [fault?, if_pos (List.contains_iff_mem.mpr repeated)]

theorem Check.fault?_of_not_mem {entry : α} (fresh : check.name entry ∉ seen) :
    check.fault? seen entry = check.flaw? entry := by
  rw [fault?, if_neg (mt List.contains_iff_mem.mp fresh)]

/-- Entries pass if they repeat no name, neither of one another nor of those before, and have no
flaws. -/
theorem walk_eq_ok_iff {entries : List α} :
    walk check seen entries = .ok () ↔
      (∀ entry ∈ entries, check.name entry ∉ seen) ∧
        (∀ entry ∈ entries, check.flaw? entry = none) ∧ (entries.map check.name).Nodup := by
  induction entries generalizing seen with
  | nil => exact ⟨fun _ => ⟨nofun, nofun, .nil⟩, fun _ => rfl⟩
  | cons entry entries ih =>
    rw [walk, List.map_cons, List.nodup_cons, List.forall_mem_cons, List.forall_mem_cons]
    by_cases repeated : check.name entry ∈ seen
    · rw [Check.fault?_of_mem repeated]
      exact ⟨nofun, fun passed => absurd repeated passed.1.1⟩
    · rw [Check.fault?_of_not_mem repeated]
      cases flaw : check.flaw? entry with
      | some fault => exact ⟨nofun, fun passed => nomatch passed.2.1.1⟩
      | none =>
        dsimp only
        rw [ih, unseen_cons_iff]
        refine ⟨fun passed => ?_, fun isFresh => ?_⟩
        · obtain ⟨⟨unrepeated, unseen⟩, flawless, distinct⟩ := passed
          exact ⟨⟨repeated, unseen⟩, ⟨rfl, flawless⟩, unrepeated, distinct⟩
        · obtain ⟨⟨-, unseen⟩, ⟨-, flawless⟩, unrepeated, distinct⟩ := isFresh
          exact ⟨⟨unrepeated, unseen⟩, flawless, distinct⟩

end Walks

namespace Configuration

/-! ## Keys -/

/-- What is checked of a key. -/
def keyCheck : Check KeyEntry String ConfigurationError where
  name := KeyEntry.identifier
  repetition key := .duplicateKey key.identifier
  flaw? key := if key.seed.isEmpty then some (.emptySeed key.identifier) else none

theorem validateKeys_eq_walk (seen : List String) (keys : List KeyEntry) :
    validateKeys seen keys = walk keyCheck seen keys := by
  induction keys generalizing seen with
  | nil => rfl
  | cons key keys ih =>
    unfold validateKeys walk Check.fault? keyCheck
    dsimp only
    split
    · rfl
    · split
      · rfl
      · exact ih _

theorem flaw?_keyCheck_eq_none_iff {key : KeyEntry} :
    keyCheck.flaw? key = none ↔ key.seed ≠ "" := by
  unfold keyCheck
  simp

/-- Keys pass if they repeat no identifier, neither of one another nor of the keys before, and have
seeds. -/
theorem validateKeys_eq_ok_iff {seen : List String} {keys : List KeyEntry} :
    validateKeys seen keys = .ok () ↔
      (∀ key ∈ keys, key.identifier ∉ seen) ∧ (∀ key ∈ keys, key.seed ≠ "") ∧
        (keys.map KeyEntry.identifier).Nodup := by
  rw [validateKeys_eq_walk, walk_eq_ok_iff]
  simp only [flaw?_keyCheck_eq_none_iff]
  rfl

/-! ## Usages -/

/-- What is checked of a usage of keys with some identifiers. -/
def usageCheck (identifiers : List String) : Check UsageEntry Endpoint ConfigurationError where
  name := UsageEntry.endpoint
  repetition usage := .duplicateEndpoint usage.endpoint
  flaw? usage :=
    (usage.identifiers.find? fun identifier => !identifiers.contains identifier).map
      (.unknownKey usage.endpoint)

theorem validateUsages_eq_walk (identifiers : List String) (seen : List Endpoint)
    (usages : List UsageEntry) :
    validateUsages identifiers seen usages = walk (usageCheck identifiers) seen usages := by
  induction usages generalizing seen with
  | nil => rfl
  | cons usage usages ih =>
    unfold validateUsages walk Check.fault? usageCheck
    dsimp only
    split
    · rfl
    · cases usage.identifiers.find? fun identifier => !identifiers.contains identifier with
      | some unknown => rfl
      | none => exact ih _

theorem flaw?_usageCheck_eq_none_iff {identifiers : List String} {usage : UsageEntry} :
    (usageCheck identifiers).flaw? usage = none ↔
      ∀ identifier ∈ usage.identifiers, identifier ∈ identifiers := by
  unfold usageCheck
  simp

/-- Usages pass if they repeat no endpoint, neither of one another nor of the usages before, and use
known keys only. -/
theorem validateUsages_eq_ok_iff {identifiers : List String} {seen : List Endpoint}
    {usages : List UsageEntry} :
    validateUsages identifiers seen usages = .ok () ↔
      (∀ usage ∈ usages, usage.endpoint ∉ seen) ∧
        (∀ usage ∈ usages, ∀ identifier ∈ usage.identifiers, identifier ∈ identifiers) ∧
        (usages.map UsageEntry.endpoint).Nodup := by
  rw [validateUsages_eq_walk, walk_eq_ok_iff]
  simp only [flaw?_usageCheck_eq_none_iff]

/-! ## Configurations -/

/-- What makes a configuration valid. -/
structure IsValid (configuration : Configuration) : Prop where
  distinct : configuration.identifiers.Nodup
  seeded : ∀ key ∈ configuration.keys, key.seed ≠ ""
  separate : (configuration.usages.map UsageEntry.endpoint).Nodup
  known : ∀ usage ∈ configuration.usages, ∀ identifier ∈ usage.identifiers,
    identifier ∈ configuration.identifiers

/-- The checks accept just the valid configurations. -/
theorem validate_eq_ok_iff {configuration : Configuration} :
    configuration.validate = .ok () ↔ configuration.IsValid := by
  unfold validate
  cases checked : validateKeys [] configuration.keys with
  | error error =>
    refine ⟨nofun, fun isValid => ?_⟩
    have passed :=
      validateKeys_eq_ok_iff.mpr ⟨fun _ _ => List.not_mem_nil, isValid.seeded, isValid.distinct⟩
    exact nomatch checked.symm.trans passed
  | ok _ =>
    obtain ⟨-, seeded, distinct⟩ := validateKeys_eq_ok_iff.mp checked
    dsimp only
    rw [validateUsages_eq_ok_iff]
    refine ⟨fun passed => ?_, fun isValid => ?_⟩
    · obtain ⟨-, known, separate⟩ := passed
      exact ⟨distinct, seeded, separate, known⟩
    · exact ⟨fun _ _ => List.not_mem_nil, isValid.known, isValid.separate⟩

/-- A text is accepted as what is read from it, if this passes the checks. -/
theorem ofText_eq_ok_iff {text : String} {configuration : Configuration} :
    ofText text = .ok configuration ↔
      Json.readWhole read (Octets.ofText text) = .ok configuration ∧
        configuration.validate = .ok () := by
  unfold ofText
  split
  next notRead => simp [notRead]
  next found isRead =>
    rw [isRead, Except.ok.injEq]
    cases checked : found.validate with
    | error error =>
      refine ⟨nofun, ?_⟩
      rintro ⟨rfl, isValid⟩
      exact nomatch checked.symm.trans isValid
    | ok _ =>
      constructor
      · rintro ⟨⟩
        exact ⟨rfl, checked⟩
      · rintro ⟨rfl, -⟩
        rfl

/-- A configuration that is read from a text is valid. -/
theorem isValid_of_ofText {text : String} {configuration : Configuration}
    (accepted : ofText text = .ok configuration) : configuration.IsValid :=
  validate_eq_ok_iff.mp (ofText_eq_ok_iff.mp accepted).2

/-- That an entry is the one key of a configuration with some identifier. -/
structure IsKeyOf (configuration : Configuration) (entry : KeyEntry) (identifier : String) :
    Prop where
  listed : entry ∈ configuration.keys
  named : entry.identifier = identifier
  only : ∀ other ∈ configuration.keys, other.identifier = identifier → other = entry

/-- A valid configuration has just one key for each of its identifiers. -/
theorem IsValid.exists_isKeyOf {configuration : Configuration} {identifier : String}
    (isValid : configuration.IsValid) (known : identifier ∈ configuration.identifiers) :
    ∃ entry, configuration.IsKeyOf entry identifier := by
  obtain ⟨entry, listed, rfl⟩ := List.mem_map.mp known
  refine ⟨entry, listed, rfl, fun other member same => ?_⟩
  exact List.inj_on_of_nodup_map isValid.distinct member listed same

end Configuration

end Signet
