import Signet.Configuration.Reading
import Signet.Proofs.JsonRecords
import Signet.Proofs.JsonReordering
import Signet.Proofs.Validity
import Signet.Proofs.WrittenValues

/-!
# Configurations are read strictly

A text is accepted as a configuration if and only if it is a value that means one
(`Configuration.Means`) and the configuration is valid. Wherever a record is expected, in the
configuration, among its keys or among its usages, its names have to be given once each, no others
may be given, and only those with defaults may be missing (`Json.Value.IsAmiss`). In which order
members stand does not matter (`Json.Reorders`).
-/

namespace Signet

namespace Json

/-! ## What is amiss with records -/

/-- What can be amiss with a value where a record with some names is expected: in an object, that a
member has none of the names, a name occurs twice, or a required one does not occur; in a list, that
there are too few items or too many. Other values are no records. -/
def Value.IsAmiss (names required : List String) : Value → Prop
  | .object members =>
    (∃ member ∈ members, ∀ name ∈ names, member.1 ≠ some name) ∨
      ¬ (members.map Prod.fst).Nodup ∨
      ∃ name ∈ required, ∀ member ∈ members, member.1 ≠ some name
  | .list items => items.length < required.length ∨ names.length < items.length
  | _ => True

section Records

variable {α : Type} {names required : List String} {Fits : List (String × Value) → α → Prop}
  {tree : Value} {members : List (String × Value)} {value : α}

theorem mem_of_lookup {name : String} (isGiven : members.lookup name = some tree) :
    (name, tree) ∈ members := by
  obtain ⟨before, behind, rfl, -⟩ := List.lookup_eq_some_iff.mp isGiven
  exact List.mem_append_right _ (.head _)

/-- Names that are all known and not given twice are different. -/
theorem IsUnambiguous.nodup (isUnambiguous : IsUnambiguous names true members) :
    (members.map Prod.fst).Nodup := by
  obtain ⟨areSingle, areKnown⟩ := isUnambiguous
  refine List.nodup_iff_count_le_one.mpr fun name => ?_
  by_cases isGiven : name ∈ members.map Prod.fst
  · obtain ⟨member, isMember, rfl⟩ := List.mem_map.mp isGiven
    exact areSingle _ (areKnown rfl member isMember)
  · rw [List.count_eq_zero_of_not_mem isGiven]
    exact Nat.zero_le 1

/-- A list that gives values to all required names is not too short. -/
theorem length_le_of_lookup_zip (nodup : names.Nodup) (starts : required <+: names)
    {items : List Value}
    (areGiven : ∀ name ∈ required, ∃ tree, (names.zip items).lookup name = some tree) :
    required.length ≤ items.length := by
  by_contra isShort
  rw [Nat.not_le] at isShort
  have isLong := Nat.lt_of_lt_of_le isShort starts.length_le
  obtain ⟨tree, isGiven⟩ := areGiven _ (List.getElem_mem isShort)
  obtain ⟨index, inZip, isHere⟩ := List.mem_iff_getElem.mp (mem_of_lookup isGiven)
  rw [List.getElem_zip, Prod.mk.injEq, starts.getElem isShort] at isHere
  have same := (List.Nodup.getElem_inj_iff nodup).mp isHere.1
  rw [List.length_zip] at inZip
  omega

/-- With what means a record nothing is amiss. -/
theorem MeansRecord.not_isAmiss (means : MeansRecord names true Fits tree value)
    (nodup : names.Nodup) (starts : required <+: names)
    (needs : ∀ members value, Fits members value →
      ∀ name ∈ required, ∃ tree, members.lookup name = some tree) :
    ¬ tree.IsAmiss names required := by
  obtain ⟨members, gives, isUnambiguous, fits⟩ := means
  have areGiven := needs members value fits
  cases tree with
  | object all =>
    obtain rfl := gives
    rintro (⟨member, isMember, isUnknown⟩ | isRepeated | ⟨name, isRequired, isMissing⟩)
    · obtain ⟨known, isKnown, rfl⟩ := List.mem_map.mp isMember
      exact isUnknown known.1 (isUnambiguous.2 rfl known isKnown) rfl
    · refine isRepeated ?_
      have areNames : (named members).map Prod.fst = (members.map Prod.fst).map some := by
        simp [named, Function.comp_def]
      rw [areNames]
      exact isUnambiguous.nodup.map (Option.some_injective _)
    · obtain ⟨tree, isGiven⟩ := areGiven name isRequired
      exact isMissing (some name, tree) (List.mem_map.mpr ⟨_, mem_of_lookup isGiven, rfl⟩) rfl
  | list items =>
    obtain ⟨isShort, rfl⟩ := gives
    have isLong := length_le_of_lookup_zip nodup starts areGiven
    rintro (isTooShort | isTooLong) <;> omega
  | word _ | number _ | text _ => cases gives

end Records

end Json

open Json (Value Understands Layout MeansRecord MeansText MeansNamed MeansList MeansOr MeansGiven
  IsOrderless FitsOrderless IsJson Reorders named understands_readText understands_named
  exists_rel_getD_iff rel_some_iff lookup_eq_some_iff isOrderless_meansText isOrderless_meansNamed
  writes_text writes_list writes_object)

/-! ## Algorithms and endpoints -/

/-- An algorithm is told by its name. -/
def KeyAlgorithm.Means : Value → KeyAlgorithm → Prop :=
  MeansNamed KeyAlgorithm.name

theorem KeyAlgorithm.understands_read : Understands read Means := by
  refine understands_named (fun first second same => ?_) (fun algorithm => ?_)
  · revert same
    cases first <;> cases second <;> decide
  · cases algorithm <;> simp

/-- An endpoint is told by its name. -/
def Endpoint.Means : Value → Endpoint → Prop :=
  MeansNamed Endpoint.name

theorem Endpoint.understands_read : Understands read Means := by
  refine understands_named (fun first second _ => ?_) (fun endpoint => ?_)
  · cases first
    cases second
    rfl
  · cases endpoint
    exact .head _

/-! ## Keys -/

namespace KeyEntry

/-- A key has everything that is given, and everything has to be given. -/
def Fits (members : List (String × Value)) (entry : KeyEntry) : Prop :=
  MeansGiven MeansText (members.lookup "identifier") entry.identifier ∧
    MeansGiven KeyAlgorithm.Means (members.lookup "algorithm") entry.algorithm ∧
      MeansGiven MeansText (members.lookup "seed") entry.seed

def Means : Value → KeyEntry → Prop :=
  MeansRecord ["identifier", "algorithm", "seed"] true Fits

def layout : Layout record where
  slots :=
    [⟨"identifier", Draft.identifier, fun draft identifier => { draft with identifier },
      Json.readText, MeansText, understands_readText⟩,
     ⟨"algorithm", Draft.algorithm, fun draft algorithm => { draft with algorithm },
      KeyAlgorithm.read, KeyAlgorithm.Means, KeyAlgorithm.understands_read⟩,
     ⟨"seed", Draft.seed, fun draft seed => { draft with seed }, Json.readText, MeansText,
      understands_readText⟩]
  fields_eq := rfl
  nodup := by simp
  get_blank := by simp [record]
  get_set := by simp
  get_set_other := by simp
  ext := by
    rintro ⟨identifier, algorithm, seed⟩ ⟨otherIdentifier, otherAlgorithm, otherSeed⟩ same
    simpa using same

theorem complete_eq_ok_iff {draft : Draft} {entry : KeyEntry} :
    record.complete draft = .ok entry ↔ draft.identifier = some entry.identifier ∧
      draft.algorithm = some entry.algorithm ∧ draft.seed = some entry.seed := by
  obtain ⟨identifier, algorithm, seed⟩ := entry
  obtain ⟨_ | identifier, _ | algorithm, _ | seed⟩ := draft <;> simp [record, Draft.complete]

theorem understands_read : Understands read Means := by
  refine layout.understands_of_fits fun members entry => ?_
  unfold Fits
  rw [← rel_some_iff, ← rel_some_iff, ← rel_some_iff]
  constructor
  · rintro ⟨last, fit, isComplete⟩
    obtain ⟨isIdentifier, isAlgorithm, isSeed⟩ := complete_eq_ok_iff.mp isComplete
    simp only [layout, List.forall_mem_cons] at fit
    rw [isIdentifier, isAlgorithm, isSeed] at fit
    exact ⟨fit.1, fit.2.1, fit.2.2.1⟩
  · rintro ⟨isIdentifier, isAlgorithm, isSeed⟩
    refine ⟨⟨some entry.identifier, some entry.algorithm, some entry.seed⟩, ?_, rfl⟩
    simp only [layout, List.forall_mem_cons]
    exact ⟨isIdentifier, isAlgorithm, isSeed, nofun⟩

end KeyEntry

theorem KeyEntry.not_isAmiss {tree : Value} {entry : KeyEntry} (means : Means tree entry) :
    ¬ tree.IsAmiss ["identifier", "algorithm", "seed"] ["identifier", "algorithm", "seed"] := by
  refine MeansRecord.not_isAmiss means (by simp) (by simp) fun members entry fits => ?_
  obtain ⟨⟨identifier, isIdentifier, -⟩, ⟨algorithm, isAlgorithm, -⟩,
    ⟨seed, isSeed, -⟩⟩ := fits
  simp [isIdentifier, isAlgorithm, isSeed]

theorem KeyEntry.isOrderless_means : IsOrderless Means := by
  refine FitsOrderless.record fun members others entry reordered fits => ?_
  obtain ⟨isIdentifier, isAlgorithm, isSeed⟩ := fits
  exact ⟨isOrderless_meansText.meansGiven (reordered "identifier" (by simp)) isIdentifier,
    isOrderless_meansNamed.meansGiven (reordered "algorithm" (by simp)) isAlgorithm,
    isOrderless_meansText.meansGiven (reordered "seed" (by simp)) isSeed⟩

/-! ## Usages -/

namespace UsageEntry

/-- A usage has its endpoint, and the identifiers that are given or none. -/
def Fits (members : List (String × Value)) (entry : UsageEntry) : Prop :=
  MeansGiven Endpoint.Means (members.lookup "endpoint") entry.endpoint ∧
    MeansOr (MeansList MeansText) [] (members.lookup "identifiers") entry.identifiers

def Means : Value → UsageEntry → Prop :=
  MeansRecord ["endpoint", "identifiers"] true Fits

def layout : Layout record where
  slots :=
    [⟨"endpoint", Draft.endpoint, fun draft endpoint => { draft with endpoint }, Endpoint.read,
      Endpoint.Means, Endpoint.understands_read⟩,
     ⟨"identifiers", Draft.identifiers, fun draft identifiers => { draft with identifiers },
      Json.readList Json.readText, MeansList MeansText, understands_readText.readList⟩]
  fields_eq := rfl
  nodup := by simp
  get_blank := by simp [record]
  get_set := by simp
  get_set_other := by simp
  ext := by
    rintro ⟨endpoint, identifiers⟩ ⟨otherEndpoint, otherIdentifiers⟩ same
    simpa using same

theorem complete_eq_ok_iff {draft : Draft} {entry : UsageEntry} :
    record.complete draft = .ok entry ↔ draft.endpoint = some entry.endpoint ∧
      draft.identifiers.getD [] = entry.identifiers := by
  obtain ⟨endpoint, identifiers⟩ := entry
  obtain ⟨_ | endpoint, identifiers⟩ := draft <;> simp [record, Draft.complete]

theorem understands_read : Understands read Means := by
  refine layout.understands_of_fits fun members entry => ?_
  unfold Fits
  rw [← rel_some_iff, ← exists_rel_getD_iff]
  constructor
  · rintro ⟨last, fit, isComplete⟩
    obtain ⟨isEndpoint, areIdentifiers⟩ := complete_eq_ok_iff.mp isComplete
    simp only [layout, List.forall_mem_cons] at fit
    rw [isEndpoint] at fit
    exact ⟨fit.1, last.identifiers, fit.2.1, areIdentifiers⟩
  · rintro ⟨isEndpoint, identifiers?, fit, areIdentifiers⟩
    refine ⟨⟨some entry.endpoint, identifiers?⟩, ?_,
      complete_eq_ok_iff.mpr ⟨rfl, areIdentifiers⟩⟩
    simp only [layout, List.forall_mem_cons]
    exact ⟨isEndpoint, fit, nofun⟩

theorem isOrderless_means : IsOrderless Means := by
  refine FitsOrderless.record fun members others entry reordered fits => ?_
  obtain ⟨isEndpoint, areIdentifiers⟩ := fits
  exact ⟨isOrderless_meansNamed.meansGiven (reordered "endpoint" (by simp)) isEndpoint,
    isOrderless_meansText.list.meansOr (reordered "identifiers" (by simp)) areIdentifiers⟩

theorem not_isAmiss {tree : Value} {entry : UsageEntry} (means : Means tree entry) :
    ¬ tree.IsAmiss ["endpoint", "identifiers"] ["endpoint"] := by
  refine MeansRecord.not_isAmiss means (by simp) (by simp) fun members entry fits => ?_
  obtain ⟨⟨endpoint, isEndpoint, -⟩, -⟩ := fits
  simp [isEndpoint]

end UsageEntry

/-! ## Configurations -/

namespace Configuration

/-- A configuration has its keys, and the usages that are given or none. -/
def Fits (members : List (String × Value)) (configuration : Configuration) : Prop :=
  MeansGiven (MeansList KeyEntry.Means) (members.lookup "keys") configuration.keys ∧
    MeansOr (MeansList UsageEntry.Means) [] (members.lookup "keyUsages") configuration.usages

def Means : Value → Configuration → Prop :=
  MeansRecord ["keys", "keyUsages"] true Fits

def layout : Layout record where
  slots :=
    [⟨"keys", Draft.keys, fun draft keys => { draft with keys }, Json.readList KeyEntry.read,
      MeansList KeyEntry.Means, KeyEntry.understands_read.readList⟩,
     ⟨"keyUsages", Draft.usages, fun draft usages => { draft with usages },
      Json.readList UsageEntry.read, MeansList UsageEntry.Means,
      UsageEntry.understands_read.readList⟩]
  fields_eq := rfl
  nodup := by simp
  get_blank := by simp [record]
  get_set := by simp
  get_set_other := by simp
  ext := by
    rintro ⟨keys, usages⟩ ⟨otherKeys, otherUsages⟩ same
    simpa using same

theorem complete_eq_ok_iff {draft : Draft} {configuration : Configuration} :
    record.complete draft = .ok configuration ↔ draft.keys = some configuration.keys ∧
      draft.usages.getD [] = configuration.usages := by
  obtain ⟨keys, usages⟩ := configuration
  obtain ⟨_ | keys, usages⟩ := draft <;> simp [record, Draft.complete]

theorem understands_read : Understands read Means := by
  refine layout.understands_of_fits fun members configuration => ?_
  unfold Fits
  rw [← rel_some_iff, ← exists_rel_getD_iff]
  constructor
  · rintro ⟨last, fit, isComplete⟩
    obtain ⟨areKeys, areUsages⟩ := complete_eq_ok_iff.mp isComplete
    simp only [layout, List.forall_mem_cons] at fit
    rw [areKeys] at fit
    exact ⟨fit.1, last.usages, fit.2.1, areUsages⟩
  · rintro ⟨areKeys, usages?, fit, areUsages⟩
    refine ⟨⟨some configuration.keys, usages?⟩, ?_,
      complete_eq_ok_iff.mpr ⟨rfl, areUsages⟩⟩
    simp only [layout, List.forall_mem_cons]
    exact ⟨areKeys, fit, nofun⟩

theorem isOrderless_means : IsOrderless Means := by
  refine FitsOrderless.record fun members others configuration reordered fits => ?_
  obtain ⟨areKeys, areUsages⟩ := fits
  exact ⟨KeyEntry.isOrderless_means.list.meansGiven (reordered "keys" (by simp)) areKeys,
    UsageEntry.isOrderless_means.list.meansOr (reordered "keyUsages" (by simp)) areUsages⟩

/-- Where a record is expected in a configuration, with which names, and which of them are
required. -/
inductive Position (tree : Value) : (names required : List String) → (place : Value) → Prop
  | configuration : Position tree ["keys", "keyUsages"] ["keys"] tree
  | key {items : List Value} {key : Value} :
    tree.Has ["keys", "keyUsages"] "keys" (.list items) → key ∈ items →
    Position tree ["identifier", "algorithm", "seed"] ["identifier", "algorithm", "seed"] key
  | usage {items : List Value} {usage : Value} :
    tree.Has ["keys", "keyUsages"] "keyUsages" (.list items) → usage ∈ items →
    Position tree ["endpoint", "identifiers"] ["endpoint"] usage

theorem exists_means_of_mem {α : Type} {MeansItem : Value → α → Prop} {items : List Value}
    {values : List α} (means : MeansList MeansItem (.list items) values) {item : Value}
    (isItem : item ∈ items) : ∃ value, MeansItem item value := by
  obtain ⟨_, ⟨⟩, mean⟩ := means
  induction mean with
  | nil => cases isItem
  | cons means _ ih =>
    rcases List.mem_cons.mp isItem with rfl | isLater
    · exact ⟨_, means⟩
    · exact ih isLater

/-- Nothing is amiss anywhere in what means a configuration. -/
theorem not_isAmiss {tree place : Value} {configuration : Configuration}
    {names required : List String} (means : Means tree configuration)
    (position : Position tree names required place) :
    ¬ place.IsAmiss names required := by
  obtain ⟨members, gives, isUnambiguous, areKeys, areUsages⟩ := id means
  cases position with
  | configuration =>
    refine MeansRecord.not_isAmiss means (by simp) (by simp) fun members configuration fits => ?_
    obtain ⟨⟨keys, areKeys, -⟩, -⟩ := fits
    simp [areKeys]
  | key has isItem =>
    have isGiven := gives.mem_of_has has
    rw [(lookup_eq_some_iff (isUnambiguous.1 _ (by simp))).mpr isGiven] at areKeys
    obtain ⟨_, ⟨⟩, areKeys⟩ := areKeys
    obtain ⟨entry, means⟩ := exists_means_of_mem areKeys isItem
    exact KeyEntry.not_isAmiss means
  | usage has isItem =>
    have isGiven := gives.mem_of_has has
    rw [(lookup_eq_some_iff (isUnambiguous.1 _ (by simp))).mpr isGiven] at areUsages
    obtain ⟨entry, means⟩ := exists_means_of_mem areUsages isItem
    exact UsageEntry.not_isAmiss means

/-- A text is accepted as what it means, if this is valid. -/
theorem ofText_eq_ok_iff_means {raw : String} {configuration : Configuration} :
    ofText raw = .ok configuration ↔ ∃ tree, IsJson tree (Octets.ofText raw) ∧
      Means tree configuration ∧ configuration.validate = .ok () := by
  rw [ofText_eq_ok_iff, understands_read.readWhole_eq_ok_iff]
  constructor
  · rintro ⟨⟨tree, isJson, means⟩, isValid⟩
    exact ⟨tree, isJson, means, isValid⟩
  · rintro ⟨tree, isJson, means, isValid⟩
    exact ⟨⟨tree, isJson, means⟩, isValid⟩

/-- **Configurations are read strictly.** A text is accepted if and only if it is a value that means
a valid configuration, and as this configuration; it is refused if anything is amiss where a record
is expected; and what it is accepted as does not depend on the order of the members in its
objects. -/
theorem texts_are_read_strictly (raw : String) :
    (∀ configuration, ofText raw = .ok configuration ↔
      ∃ tree, IsJson tree (Octets.ofText raw) ∧
      Means tree configuration ∧ configuration.validate = .ok ()) ∧
    (∀ tree names required place, IsJson tree (Octets.ofText raw) →
      Position tree names required place → place.IsAmiss names required →
      ∃ error, ofText raw = .error error) ∧
    ∀ tree other reordered configuration, IsJson tree (Octets.ofText raw) →
      IsJson other (Octets.ofText reordered) → Reorders tree other →
      ofText raw = .ok configuration → ofText reordered = .ok configuration := by
  refine ⟨fun configuration => ofText_eq_ok_iff_means, ?_, ?_⟩
  · intro tree names required place isJson position isAmiss
    cases isRead : ofText raw with
    | error error => exact ⟨error, rfl⟩
    | ok configuration =>
      obtain ⟨other, isOther, means, -⟩ := ofText_eq_ok_iff_means.mp isRead
      obtain rfl := isJson.unique isOther
      exact absurd isAmiss (not_isAmiss means position)
  · intro tree other reordered configuration isJson isOther reorders isRead
    obtain ⟨same, isSame, means, isValid⟩ := ofText_eq_ok_iff_means.mp isRead
    obtain rfl := isJson.unique isSame
    exact ofText_eq_ok_iff_means.mpr
      ⟨other, isOther, isOrderless_means tree other configuration reorders means, isValid⟩

/-- A name that is misspelt and a seed that is missing are refused, and keys may stand behind their
usages. -/
theorem texts_are_read_strictly_of_misspelt_and_missing_members :
    (∃ error, ofText "\x7b\"KeyUsages\":[],\"keys\":[]\x7d" = .error error) ∧
    (∃ error, ofText "[[\x7b\"identifier\":\"key1\",\"algorithm\":\"rsa\"\x7d]]" =
      .error error) ∧
    ∃ configuration,
      ofText "\x7b\"keys\":[[\"key1\",\"rsa\",\"seed\"]],\"keyUsages\":[]\x7d" =
        .ok configuration ∧
      ofText "\x7b\"keyUsages\":[],\"keys\":[[\"key1\",\"rsa\",\"seed\"]]\x7d" =
        .ok configuration := by
  have noItems := writes_list .nil
  have misspelt : IsJson (.object (named [("KeyUsages", .list []), ("keys", .list [])]))
      (Octets.ofText "\x7b\"KeyUsages\":[],\"keys\":[]\x7d") :=
    (writes_object (.cons (noItems.member _) (.cons (noItems.member _) .nil))).isJson
      (by decide +kernel)
  let seedless : Value :=
    .object (named [("identifier", .text (some "key1")), ("algorithm", .text (some "rsa"))])
  have incomplete : IsJson (.list [.list [seedless]])
      (Octets.ofText "[[\x7b\"identifier\":\"key1\",\"algorithm\":\"rsa\"\x7d]]") := by
    have entry := writes_object (.cons ((writes_text "key1").member "identifier")
      (.cons ((writes_text "rsa").member "algorithm") .nil))
    exact (writes_list (.cons (writes_list (.cons entry .nil)) .nil)).isJson (by decide +kernel)
  let keys : Value :=
    .list [.list [.text (some "key1"), .text (some "rsa"), .text (some "seed")]]
  have areKeys := writes_list (.cons (writes_list (.cons (writes_text "key1")
    (.cons (writes_text "rsa") (.cons (writes_text "seed") .nil)))) .nil)
  have keysFirst : IsJson (.object (named [("keys", keys), ("keyUsages", .list [])]))
      (Octets.ofText "\x7b\"keys\":[[\"key1\",\"rsa\",\"seed\"]],\"keyUsages\":[]\x7d") :=
    (writes_object (.cons (areKeys.member _) (.cons (noItems.member _) .nil))).isJson
      (by decide +kernel)
  have usagesFirst : IsJson (.object (named [("keyUsages", .list []), ("keys", keys)]))
      (Octets.ofText "\x7b\"keyUsages\":[],\"keys\":[[\"key1\",\"rsa\",\"seed\"]]\x7d") :=
    (writes_object (.cons (noItems.member _) (.cons (areKeys.member _) .nil))).isJson
      (by decide +kernel)
  have read : ofText "\x7b\"keys\":[[\"key1\",\"rsa\",\"seed\"]],\"keyUsages\":[]\x7d" =
      .ok ⟨[⟨"key1", .rsa, "seed"⟩], []⟩ := rfl
  refine ⟨?_, ?_, _, read, ?_⟩
  · exact (texts_are_read_strictly _).2.1 _ _ _ _ misspelt .configuration
      (Or.inl ⟨_, .head _, by simp⟩)
  · have position : Position (.list [.list [seedless]]) _ _ seedless := .key (.head _) (.head _)
    exact (texts_are_read_strictly _).2.1 _ _ _ _ incomplete position
      (Or.inr (Or.inr ⟨"seed", by simp, by simp [named]⟩))
  · exact (texts_are_read_strictly _).2.2 _ _ _ _ keysFirst usagesFirst
      (.object (.swap _ _ _) rfl (.cons .same (.cons .same .nil))) read

end Configuration

end Signet
