import Signet.Configuration.Basic

/-!
# What entries allow

The keys that the policy of some entries allows an endpoint are those that an entry of this endpoint
names, in whatever order and however often the entries name them.
-/

namespace Signet

namespace Policy

variable {endpoint : Endpoint} {identifier : String}

/-- More keys for one endpoint leave the keys of others as they are. -/
theorem mem_listKeys_allow {policy : Policy} {allowed : Endpoint} {identifiers : List String} :
    identifier ∈ (policy.allow allowed identifiers).listKeys endpoint ↔
      (allowed = endpoint ∧ identifier ∈ identifiers) ∨
        identifier ∈ policy.listKeys endpoint := by
  unfold allow replace listKeys
  by_cases same : endpoint = allowed
  · subst same
    dsimp only
    rw [if_pos rfl, IdentifierSet.mem_insertMany]
    refine ⟨fun listed => ?_, fun allowed => ?_⟩
    · rcases listed with named | before
      · exact Or.inl ⟨rfl, named⟩
      · exact Or.inr before
    · rcases allowed with ⟨-, named⟩ | before
      · exact Or.inl named
      · exact Or.inr before
  · dsimp only
    rw [if_neg same]
    refine ⟨Or.inr, fun allowed => ?_⟩
    rcases allowed with ⟨equal, -⟩ | before
    · exact absurd equal.symm same
    · exact before

/-- Entries add to what a policy allows before them. -/
theorem mem_listKeys_foldl {entries : List (Endpoint × List String)} {policy : Policy} :
    identifier ∈
        (entries.foldl (fun policy entry => policy.allow entry.1 entry.2) policy).listKeys
          endpoint ↔
      (∃ entry ∈ entries, entry.1 = endpoint ∧ identifier ∈ entry.2) ∨
        identifier ∈ policy.listKeys endpoint := by
  induction entries generalizing policy with
  | nil =>
    refine ⟨Or.inr, fun allowed => ?_⟩
    rcases allowed with ⟨_, member, -⟩ | before
    · exact absurd member List.not_mem_nil
    · exact before
  | cons entry entries ih =>
    rw [List.foldl_cons, ih, mem_listKeys_allow]
    refine ⟨fun listed => ?_, fun allowed => ?_⟩
    · rcases listed with ⟨other, member, named⟩ | named | before
      · exact Or.inl ⟨other, .tail _ member, named⟩
      · exact Or.inl ⟨entry, .head _, named⟩
      · exact Or.inr before
    · rcases allowed with ⟨other, member, named⟩ | before
      · rcases List.mem_cons.mp member with rfl | member
        · exact Or.inr (Or.inl named)
        · exact Or.inl ⟨other, member, named⟩
      · exact Or.inr (Or.inr before)

/-- A policy of entries allows an endpoint what an entry of this endpoint names. -/
theorem mem_listKeys_ofEntries {entries : List (Endpoint × List String)} :
    identifier ∈ (ofEntries entries).listKeys endpoint ↔
      ∃ entry ∈ entries, entry.1 = endpoint ∧ identifier ∈ entry.2 := by
  unfold ofEntries
  rw [mem_listKeys_foldl]
  refine ⟨fun listed => ?_, Or.inl⟩
  rcases listed with named | before
  · exact named
  · exact absurd before List.not_mem_nil

end Policy

/-- That a usage of a configuration names a key for an endpoint. -/
def Configuration.Allows (configuration : Configuration) (endpoint : Endpoint)
    (identifier : String) : Prop :=
  ∃ usage ∈ configuration.usages, usage.endpoint = endpoint ∧ identifier ∈ usage.identifiers

/-- The policy of a configuration allows an endpoint what a usage of this endpoint names. -/
theorem Configuration.mem_listKeys_policy {configuration : Configuration} {endpoint : Endpoint}
    {identifier : String} :
    identifier ∈ configuration.policy.listKeys endpoint ↔
      configuration.Allows endpoint identifier := by
  unfold policy
  rw [Policy.mem_listKeys_ofEntries]
  refine ⟨fun listed => ?_, fun allowed => ?_⟩
  · obtain ⟨entry, member, named⟩ := listed
    obtain ⟨usage, isUsage, rfl⟩ := List.mem_map.mp member
    exact ⟨usage, isUsage, named⟩
  · obtain ⟨usage, member, named⟩ := allowed
    exact ⟨_, List.mem_map.mpr ⟨usage, member, rfl⟩, named⟩

end Signet
