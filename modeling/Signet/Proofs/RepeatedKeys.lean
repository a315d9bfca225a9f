import Mathlib.Data.List.Induction
import Signet.Proofs.ConfiguredStores
import Signet.Proofs.Violations

/-!
# Repeated keys

That two keys have the same identifier is found in two places: when a configuration is checked, by
the names that have been seen, and when its keys are loaded, by an insertion that fails. Both blame
the first key that repeats an earlier one (`FirstRepeat`), which is there if the identifiers are not
distinct (`exists_firstRepeat`). Loading gets as far as this key, and logs it before it fails
(`Configuration.load_of_firstRepeat`). The checks report it if they have no empty seed to report
(`Configuration.validate_duplicateKey_iff`).
-/

namespace Signet

/-! ## The first repetition -/

/-- That a key is the first in a list to repeat the identifier of one of those before it. -/
structure FirstRepeat (keys before : List KeyEntry) (key : KeyEntry) : Prop where
  isPrefix : before ++ [key] <+: keys
  distinct : (before.map KeyEntry.identifier).Nodup
  repeated : key.identifier ∈ before.map KeyEntry.identifier

/-- Keys of which the first repetition is known do not have distinct identifiers. -/
theorem FirstRepeat.not_nodup {keys before : List KeyEntry} {key : KeyEntry}
    (first : FirstRepeat keys before key) : ¬ (keys.map KeyEntry.identifier).Nodup := by
  obtain ⟨isPrefix, -, repeated⟩ := first
  intro distinct
  have upToKey := distinct.sublist (isPrefix.map KeyEntry.identifier).sublist
  rw [List.map_append, List.nodup_append] at upToKey
  exact upToKey.2.2 _ repeated _ (.head _) rfl

/-- Keys whose identifiers are not distinct have a first repetition. -/
theorem exists_firstRepeat {keys : List KeyEntry}
    (repeats : ¬ (keys.map KeyEntry.identifier).Nodup) :
    ∃ before key, FirstRepeat keys before key := by
  induction keys using List.reverseRecOn with
  | nil => exact absurd .nil repeats
  | append_singleton keys last ih =>
    by_cases distinct : (keys.map KeyEntry.identifier).Nodup
    · refine ⟨keys, last, List.prefix_rfl, distinct, ?_⟩
      -- The others are distinct, so it is the last that repeats one of them.
      by_contra fresh
      apply repeats
      rw [List.map_append, List.map_singleton, ← List.concat_eq_append]
      exact distinct.concat fresh
    · obtain ⟨before, key, first⟩ := ih distinct
      have isPrefix := first.isPrefix.trans (List.prefix_append keys [last])
      exact ⟨before, key, isPrefix, first.distinct, first.repeated⟩

/-! ## Loading -/

/-- Goes on with the store that has been loaded, if there is one. -/
def Loading.andThen (loading : Loading) (next : KeyStore → Loading) : Loading :=
  match loading.store with
  | .ok store => ⟨loading.log ++ (next store).log, (next store).store⟩
  | .error _ => loading

theorem Loading.after_andThen (event : Event) (loading : Loading) (next : KeyStore → Loading) :
    (loading.after event).andThen next = (loading.andThen next).after event := by
  rcases loading with ⟨log, _ | store⟩ <;> rfl

/-- Entries are loaded behind others, if these have been loaded. -/
theorem KeyStore.load_append (store : KeyStore) (before entries : List KeyEntry) :
    store.load (before ++ entries) = (store.load before).andThen fun after =>
      after.load entries := by
  induction before generalizing store with
  | nil => rfl
  | cons entry before ih =>
    rw [List.cons_append, load, load]
    cases entry.algorithm.deriveKey entry.seed with
    | error failure => rfl
    | ok key =>
      dsimp only
      rw [Loading.after_andThen]
      cases store.insert entry.identifier key with
      | error failure => rfl
      | ok next => exact congrArg _ (ih next)

/-- A key is derived and logged before it is found that its identifier is taken. -/
theorem KeyStore.load_cons_of_contains {store : KeyStore} {entry : KeyEntry}
    (derivable : entry.IsDerivable) (taken : store.contains entry.identifier = true)
    (entries : List KeyEntry) :
    store.load (entry :: entries) =
      ⟨[entry.loaded], .error (.duplicateKey entry.identifier)⟩ := by
  obtain ⟨key, derived⟩ := derivable
  rw [load, derived]
  dsimp only
  rw [insert_eq_error_iff.mpr ⟨taken, rfl⟩,
    (KeyAlgorithm.deriveKey_eq_ok_iff.mp derived).algorithm]
  rfl

namespace Configuration

variable {configuration : Configuration} {before : List KeyEntry} {key : KeyEntry}

/-- Loading ends with the first key that repeats an earlier one, and behind its line in the log. -/
theorem load_of_firstRepeat (derivable : ∀ entry ∈ configuration.keys, entry.IsDerivable)
    (first : FirstRepeat configuration.keys before key) :
    configuration.load =
      ⟨(before ++ [key]).map KeyEntry.loaded, .error (.duplicateKey key.identifier)⟩ := by
  obtain ⟨⟨others, split⟩, distinct, repeated⟩ := first
  rw [List.append_assoc, List.singleton_append] at split
  rw [← split, List.forall_mem_append, List.forall_mem_cons] at derivable
  obtain ⟨earlier, ofKey, -⟩ := derivable
  obtain ⟨store, isLoaded, holds⟩ := @exists_load_of_distinct ⟨before, []⟩ distinct earlier
  have taken := (holds.contains key.identifier).mpr repeated
  unfold load at isLoaded ⊢
  dsimp only at isLoaded
  rw [← split, KeyStore.load_append, isLoaded]
  unfold Loading.andThen
  dsimp only
  rw [KeyStore.load_cons_of_contains ofKey taken, List.map_append]
  rfl

/-- Loading fails with the first repetition of an identifier, and with nothing else. -/
theorem load_eq_error_iff (derivable : ∀ entry ∈ configuration.keys, entry.IsDerivable)
    {error : ConfigurationError} :
    configuration.load.store = .error error ↔
      ∃ before key, FirstRepeat configuration.keys before key ∧
        error = .duplicateKey key.identifier := by
  refine ⟨fun failed => ?_, fun repetition => ?_⟩
  · by_cases distinct : configuration.identifiers.Nodup
    · obtain ⟨store, isLoaded, -⟩ := exists_load_of_distinct distinct derivable
      rw [isLoaded] at failed
      cases failed
    · obtain ⟨before, key, first⟩ := exists_firstRepeat distinct
      rw [load_of_firstRepeat derivable first] at failed
      cases failed
      exact ⟨before, key, first, rfl⟩
  · obtain ⟨before, key, first, rfl⟩ := repetition
    rw [load_of_firstRepeat derivable first]

/-! ## The checks -/

/-- Keys with seeds are checked for repetitions of identifiers only. -/
theorem validate_duplicateKey_iff (seeded : ∀ entry ∈ configuration.keys, entry.seed ≠ "")
    {identifier : String} :
    configuration.validate = .error (.duplicateKey identifier) ↔
      ∃ before key, FirstRepeat configuration.keys before key ∧
        key.identifier = identifier := by
  rw [validate_eq_error_iff]
  constructor
  · intro violation
    cases violation with
    | @ofKey before after key keys isValid violates =>
      cases violates with
      | duplicateKey repeated =>
        refine ⟨before, key, ⟨⟨after, ?_⟩, isValid.distinct, repeated⟩, rfl⟩
        rw [keys, List.append_assoc, List.singleton_append]
    | ofUsage usages isValid violates => cases violates
  · intro repetition
    obtain ⟨before, key, ⟨⟨after, split⟩, distinct, repeated⟩, rfl⟩ := repetition
    rw [List.append_assoc, List.singleton_append] at split
    refine .ofKey split.symm ⟨distinct, fun entry member => seeded entry ?_, .nil, nofun⟩
      (.duplicateKey repeated)
    rw [← split]
    exact List.mem_append_left _ member

/-- **Both checks for repeated keys agree.** If the keys of a configuration can be derived, loading
them fails just if two of them have the same identifier. Then it blames the first key that repeats
an earlier one, and has logged the keys up to this one. Otherwise all keys are in the store, and
logged. If no seed is empty, the checks on the configuration find a repetition just if loading does,
and blame the same key, whatever usages there are. -/
theorem duplicate_checks_agree (derivable : ∀ entry ∈ configuration.keys, entry.IsDerivable) :
    ((∃ error, configuration.load.store = .error error) ↔
        ¬ configuration.identifiers.Nodup) ∧
      (¬ configuration.identifiers.Nodup →
        ∃ before key, FirstRepeat configuration.keys before key ∧
          configuration.load =
            ⟨(before ++ [key]).map KeyEntry.loaded, .error (.duplicateKey key.identifier)⟩) ∧
      (configuration.identifiers.Nodup →
        ∃ store, configuration.load = ⟨configuration.keys.map KeyEntry.loaded, .ok store⟩ ∧
          store.Holds configuration.keys) ∧
      ((∀ entry ∈ configuration.keys, entry.seed ≠ "") →
        ∀ usages identifier,
          (⟨configuration.keys, usages⟩ : Configuration).validate =
              .error (.duplicateKey identifier) ↔
            configuration.load.store = .error (.duplicateKey identifier)) := by
  refine ⟨?_, fun repeats => ?_, fun distinct => exists_load_of_distinct distinct derivable,
    fun seeded usages identifier => ?_⟩
  · refine ⟨fun fails distinct => ?_, fun repeats => ?_⟩
    · obtain ⟨error, failed⟩ := fails
      obtain ⟨before, key, first, -⟩ := (load_eq_error_iff derivable).mp failed
      exact first.not_nodup distinct
    · obtain ⟨before, key, first⟩ := exists_firstRepeat repeats
      exact ⟨_, (load_eq_error_iff derivable).mpr ⟨before, key, first, rfl⟩⟩
  · obtain ⟨before, key, first⟩ := exists_firstRepeat repeats
    exact ⟨before, key, first, load_of_firstRepeat derivable first⟩
  · rw [@validate_duplicateKey_iff ⟨configuration.keys, usages⟩ seeded,
      load_eq_error_iff derivable]
    simp only [ConfigurationError.duplicateKey.injEq, eq_comm]

/-- Of two repetitions in one another the inner one is found first, in both places. -/
theorem duplicate_checks_agree_for_nested_repetitions :
    let keys : List KeyEntry := [⟨"key1", .secp256k1, "one"⟩, ⟨"key2", .secp256k1, "two"⟩,
      ⟨"key2", .secp256k1, "one"⟩, ⟨"key1", .secp256k1, "two"⟩]
    let usages : List UsageEntry := [⟨.blob, ["key3"]⟩]
    (⟨keys, usages⟩ : Configuration).validate = .error (.duplicateKey "key2") ∧
      (⟨keys, []⟩ : Configuration).load.store = .error (.duplicateKey "key2") := by
  intro keys usages
  have derivable : ∀ entry ∈ keys, entry.IsDerivable := by
    intro entry member
    have seeded : entry.algorithm = .secp256k1 ∧ (entry.seed = "one" ∨ entry.seed = "two") := by
      revert entry
      decide
    rcases entry with ⟨identifier, algorithm, seed⟩
    obtain ⟨rfl, rfl | rfl⟩ := seeded
    · exact KeyEntry.isDerivable_of_curveKey Secp256k1.PrivateKey.ofSeed?_one
    · exact KeyEntry.isDerivable_of_curveKey Secp256k1.PrivateKey.ofSeed?_two
  have refused : (⟨keys, usages⟩ : Configuration).validate = .error (.duplicateKey "key2") :=
    rfl
  have seeded : ∀ entry ∈ keys, entry.seed ≠ "" := by
    decide
  obtain ⟨-, -, -, agree⟩ := @duplicate_checks_agree ⟨keys, []⟩ derivable
  exact ⟨refused, (agree seeded usages "key2").mp refused⟩

end Configuration

end Signet
