import Mathlib.Data.List.Sort
import Signet.Proofs.Plans
import Signet.Proofs.UsagePolicy
import Signet.Proofs.Utf8

/-!
# Policies as sorted unions

Of the entries that a policy is made of, nothing is left but which keys they name for which endpoint
(`Policy.ofEntries_eq_of_names_iff`): a set of identifiers is determined by its members
(`IdentifierSet.ext_mem`), and so is the list of them, which is in the order of their octets
(`Policy.pairwise_octets_listKeys`). Entries may therefore be rearranged at will
(`Policy.Rearranges`). What is allowed is what is listed, in every policy.
-/

namespace Signet

/-- Sets with the same members are the same. -/
theorem IdentifierSet.ext_mem {set other : IdentifierSet}
    (same : ∀ identifier, identifier ∈ set.toList ↔ identifier ∈ other.toList) :
    set = other := by
  obtain ⟨members, isAscending⟩ := set
  obtain ⟨otherMembers, isAscending'⟩ := other
  rw [mk.injEq]
  exact isAscending.eq_of_mem_iff isAscending' same

namespace Policy

/-! ## Entries -/

/-- That one of some entries names a key for an endpoint. -/
def Names (entries : List (Endpoint × List String)) (endpoint : Endpoint) (identifier : String) :
    Prop :=
  ∃ entry ∈ entries, entry.1 = endpoint ∧ identifier ∈ entry.2

/-- That entries can be made of others: they are put into another order, the identifiers of an entry
are put into another order or repeated, an entry is split in two, or the other way round. -/
inductive Rearranges : (entries others : List (Endpoint × List String)) → Prop
  | reorder {entries others : List (Endpoint × List String)} :
    entries.Perm others → Rearranges entries others
  | restate {before after : List (Endpoint × List String)} {endpoint : Endpoint}
      {identifiers others : List String} :
    (∀ identifier, identifier ∈ identifiers ↔ identifier ∈ others) →
    Rearranges (before ++ (endpoint, identifiers) :: after) (before ++ (endpoint, others) :: after)
  | split {before after : List (Endpoint × List String)} {endpoint : Endpoint}
    {first second : List String} :
    Rearranges (before ++ (endpoint, first ++ second) :: after)
      (before ++ (endpoint, first) :: (endpoint, second) :: after)
  | symm {entries others : List (Endpoint × List String)} :
    Rearranges entries others → Rearranges others entries
  | trans {entries middle others : List (Endpoint × List String)} :
    Rearranges entries middle → Rearranges middle others → Rearranges entries others

section Entries

variable {entries others : List (Endpoint × List String)} {endpoint : Endpoint}
  {identifier : String}

theorem names_append :
    Names (entries ++ others) endpoint identifier ↔
      Names entries endpoint identifier ∨ Names others endpoint identifier := by
  unfold Names
  constructor
  · intro names
    obtain ⟨entry, member, named⟩ := names
    rcases List.mem_append.mp member with isFirst | isSecond
    · exact Or.inl ⟨entry, isFirst, named⟩
    · exact Or.inr ⟨entry, isSecond, named⟩
  · intro names
    rcases names with ⟨entry, member, named⟩ | ⟨entry, member, named⟩
    · exact ⟨entry, List.mem_append_left _ member, named⟩
    · exact ⟨entry, List.mem_append_right _ member, named⟩

theorem names_cons {named : Endpoint} {identifiers : List String} :
    Names ((named, identifiers) :: entries) endpoint identifier ↔
      (named = endpoint ∧ identifier ∈ identifiers) ∨ Names entries endpoint identifier := by
  unfold Names
  rw [List.exists_mem_cons_iff]

/-- Rearranged entries name the same keys. -/
theorem Rearranges.names_iff (rearranges : Rearranges entries others) :
    Names entries endpoint identifier ↔ Names others endpoint identifier := by
  induction rearranges with
  | reorder perm =>
    exact ⟨fun ⟨entry, member, named⟩ => ⟨entry, perm.mem_iff.mp member, named⟩,
      fun ⟨entry, member, named⟩ => ⟨entry, perm.mem_iff.mpr member, named⟩⟩
  | restate same => rw [names_append, names_append, names_cons, names_cons, same]
  | split =>
    rw [names_append, names_append, names_cons, names_cons, names_cons, List.mem_append,
      and_or_left, or_assoc]
  | symm _ ih => exact ih.symm
  | trans _ _ ih ih' => exact ih.trans ih'

/-- A policy of entries is determined by which keys they name. -/
theorem ofEntries_eq_of_names_iff
    (same : ∀ endpoint identifier, Names entries endpoint identifier ↔
      Names others endpoint identifier) :
    ofEntries entries = ofEntries others := by
  have sameIdentifiers : (ofEntries entries).identifiers = (ofEntries others).identifiers := by
    funext endpoint
    refine IdentifierSet.ext_mem fun identifier => ?_
    exact mem_listKeys_ofEntries.trans
      ((same endpoint identifier).trans mem_listKeys_ofEntries.symm)
  exact congrArg Policy.mk sameIdentifiers

end Entries

/-! ## Lists of keys -/

section Lists

variable (policy : Policy) (endpoint : Endpoint)

/-- The keys of an endpoint are listed in the order of their octets. -/
theorem pairwise_octets_listKeys :
    (policy.listKeys endpoint).Pairwise fun first second =>
      Octets.ofText first < Octets.ofText second :=
  (policy.identifiers endpoint).isAscending.imp Octets.ofText_lt_ofText_iff.mpr

theorem nodup_listKeys : (policy.listKeys endpoint).Nodup :=
  (policy.identifiers endpoint).isAscending.imp fun less => String.ne_of_lt less

end Lists

/-! ## Tables -/

section Tables

variable {rows : List (Endpoint × IdentifierSet)} {endpoint : Endpoint}

/-- Rows take the place of what a policy says before them. -/
theorem identifiers_foldl {policy : Policy} :
    (rows.foldl (fun policy row => policy.replace row.1 row.2) policy).identifiers endpoint =
      (rows.reverse.lookup endpoint).getD (policy.identifiers endpoint) := by
  induction rows generalizing policy with
  | nil => rfl
  | cons row rows ih =>
    rw [List.foldl_cons, ih, List.reverse_cons, List.lookup_append]
    cases found : rows.reverse.lookup endpoint with
    | some identifiers => rfl
    | none =>
      rw [Option.none_or, List.lookup_cons, List.lookup_nil]
      dsimp only [Option.getD, replace]
      by_cases same : endpoint = row.1
      · rw [if_pos same, beq_iff_eq.mpr same]
      · rw [if_neg same, beq_eq_false_iff_ne.mpr same]

/-- In a policy of a table the last row of an endpoint counts. -/
theorem identifiers_ofTable :
    (ofTable rows).identifiers endpoint = (rows.reverse.lookup endpoint).getD .empty :=
  identifiers_foldl

/-- A policy of a table allows what the last row of an endpoint holds. -/
theorem mem_listKeys_ofTable {identifier : String} :
    identifier ∈ (ofTable rows).listKeys endpoint ↔
      ∃ identifiers, rows.reverse.lookup endpoint = some identifiers ∧
        identifier ∈ identifiers.toList := by
  rw [listKeys, identifiers_ofTable]
  cases rows.reverse.lookup endpoint with
  | some identifiers =>
    exact ⟨fun member => ⟨identifiers, rfl, member⟩, fun ⟨_, rfl, member⟩ => member⟩
  | none => exact ⟨fun member => absurd member List.not_mem_nil, nofun⟩

end Tables

end Policy

/-- **A policy is the sorted union of its entries.** It allows an endpoint the keys that an entry of
this endpoint names, and lists these, each once, in the order of their octets, which is how they are
answered. Entries that are rearranged make the same policy. A policy of a table lists what the last
row of an endpoint holds, and the empty policy nothing. In every policy, what is allowed is what is
listed. -/
theorem policies_are_sorted_unions :
    (∀ (entries : List (Endpoint × List String)) (endpoint : Endpoint),
      let policy := Policy.ofEntries entries
      let keys := policy.listKeys endpoint
      (∀ identifier, policy.isAuthorized endpoint identifier ↔
        Policy.Names entries endpoint identifier) ∧
      (∀ identifier, identifier ∈ keys ↔ Policy.Names entries endpoint identifier) ∧
      keys.Nodup ∧
      (keys.Pairwise fun first second => Octets.ofText first < Octets.ofText second) ∧
      ∀ (signer : Signer) (asking : Asking),
        (Service.listKeys ⟨policy, signer⟩ asking endpoint .toTheEnd).progress =
          .ended (.ok ⟨keys.map KeyReference.mk⟩)) ∧
    (∀ entries others : List (Endpoint × List String), Policy.Rearranges entries others →
      Policy.ofEntries entries = Policy.ofEntries others) ∧
    (∀ (rows : List (Endpoint × IdentifierSet)) (endpoint : Endpoint) (identifier : String),
      (Policy.ofTable rows).isAuthorized endpoint identifier ↔
        ∃ identifiers, rows.reverse.lookup endpoint = some identifiers ∧
          identifier ∈ identifiers.toList) ∧
    (∀ endpoint : Endpoint, Policy.empty.listKeys endpoint = []) ∧
    ∀ (policy : Policy) (endpoint : Endpoint) (identifier : String),
      policy.isAuthorized endpoint identifier ↔ identifier ∈ policy.listKeys endpoint := by
  refine ⟨fun entries endpoint =>
    ⟨fun identifier => ?_, fun identifier => ?_, ?_, ?_, fun signer asking => ?_⟩,
    fun entries others rearranges => ?_, fun rows endpoint identifier => ?_, fun endpoint => rfl,
    fun policy endpoint identifier => Policy.isAuthorized_iff_mem_listKeys⟩
  · exact Policy.isAuthorized_iff_mem_listKeys.trans Policy.mem_listKeys_ofEntries
  · exact Policy.mem_listKeys_ofEntries
  · exact Policy.nodup_listKeys _ endpoint
  · exact Policy.pairwise_octets_listKeys _ endpoint
  · exact Service.perform_settled_progress _ asking _ _
  · exact Policy.ofEntries_eq_of_names_iff fun endpoint identifier => rearranges.names_iff
  · exact Policy.isAuthorized_iff_mem_listKeys.trans Policy.mem_listKeys_ofTable

/-- Two entries with repeated identifiers allow what one without any allows. -/
theorem policies_are_sorted_unions_for_merged_entries :
    let entries : List (Endpoint × List String) :=
      [(.blob, ["é", "a", "é"]), (.blob, ["a", "Z"])]
    let merged : List (Endpoint × List String) := [(.blob, ["Z", "a", "é"])]
    Policy.Rearranges entries merged ∧ Policy.ofEntries entries = Policy.ofEntries merged ∧
      (Policy.ofEntries entries).listKeys .blob = ["Z", "a", "é"] := by
  intro entries merged
  have isMerged : Policy.Rearranges entries [(.blob, ["é", "a", "é", "a", "Z"])] :=
    .symm (@Policy.Rearranges.split [] [] .blob ["é", "a", "é"] ["a", "Z"])
  have isRestated : Policy.Rearranges [(.blob, ["é", "a", "é", "a", "Z"])] merged := by
    refine @Policy.Rearranges.restate [] [] .blob _ _ fun identifier => ?_
    simp only [List.mem_cons, List.not_mem_nil, or_false]
    grind
  have rearranges := isMerged.trans isRestated
  exact ⟨rearranges,
    policies_are_sorted_unions.2.1 entries merged rearranges, by decide +kernel⟩

end Signet
