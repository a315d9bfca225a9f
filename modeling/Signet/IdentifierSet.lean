/-!
# Sets of identifiers

A set of identifiers is the list of its members in ascending order, each once. Identifiers are
ordered by their characters, which is also the order of their octets.
-/

namespace Signet

/-- A list in which every identifier is less than all that follow it. -/
abbrev IsAscending (identifiers : List String) : Prop :=
  identifiers.Pairwise (· < ·)

/-- Puts an identifier into its place in an ascending list, unless it is there. -/
def insertAscending (identifier : String) : List String → List String
  | [] => [identifier]
  | first :: rest =>
    if identifier < first then identifier :: first :: rest
    else if identifier = first then first :: rest
    else first :: insertAscending identifier rest

theorem mem_insertAscending {identifier other : String} {identifiers : List String} :
    other ∈ insertAscending identifier identifiers ↔
      other = identifier ∨ other ∈ identifiers := by
  induction identifiers with
  | nil => simp [insertAscending]
  | cons first rest ih =>
    simp only [insertAscending]
    split
    · simp
    · split
      · rename_i h
        subst h
        simp
      · simp only [List.mem_cons, ih]
        grind

theorem isAscending_insertAscending {identifier : String} {identifiers : List String}
    (isAscending : IsAscending identifiers) :
    IsAscending (insertAscending identifier identifiers) := by
  induction identifiers with
  | nil => simp [insertAscending]
  | cons first rest ih =>
    obtain ⟨first_lt, rest_isAscending⟩ := List.pairwise_cons.mp isAscending
    simp only [insertAscending]
    split
    · rename_i lt_first
      refine List.pairwise_cons.mpr ⟨fun other mem => ?_, isAscending⟩
      rcases List.mem_cons.mp mem with rfl | mem
      · exact lt_first
      · exact String.lt_trans lt_first (first_lt other mem)
    · split
      · exact isAscending
      · rename_i not_lt ne
        refine List.pairwise_cons.mpr ⟨fun other mem => ?_, ih rest_isAscending⟩
        rcases mem_insertAscending.mp mem with rfl | mem
        · exact Decidable.byContradiction fun not_gt =>
            ne (String.le_antisymm (String.not_lt.mp not_gt) (String.not_lt.mp not_lt))
        · exact first_lt other mem

/-- A set of identifiers, as the ascending list of its members. -/
structure IdentifierSet where
  toList : List String
  isAscending : IsAscending toList

namespace IdentifierSet

def empty : IdentifierSet :=
  ⟨[], .nil⟩

def insert (set : IdentifierSet) (identifier : String) : IdentifierSet :=
  ⟨insertAscending identifier set.toList, isAscending_insertAscending set.isAscending⟩

def insertMany (set : IdentifierSet) (identifiers : List String) : IdentifierSet :=
  identifiers.foldl insert set

def ofList (identifiers : List String) : IdentifierSet :=
  empty.insertMany identifiers

def contains (set : IdentifierSet) (identifier : String) : Bool :=
  set.toList.contains identifier

theorem contains_iff_mem {set : IdentifierSet} {identifier : String} :
    set.contains identifier ↔ identifier ∈ set.toList := by
  simp [contains]

theorem mem_insert {set : IdentifierSet} {identifier other : String} :
    other ∈ (set.insert identifier).toList ↔ other = identifier ∨ other ∈ set.toList :=
  mem_insertAscending

theorem mem_insertMany {identifiers : List String} {set : IdentifierSet} {other : String} :
    other ∈ (set.insertMany identifiers).toList ↔
      other ∈ identifiers ∨ other ∈ set.toList := by
  induction identifiers generalizing set with
  | nil => simp [insertMany]
  | cons identifier identifiers ih =>
    have step := @ih (set.insert identifier)
    simp only [insertMany, List.foldl_cons, mem_insert, List.mem_cons] at step ⊢
    grind

end IdentifierSet

end Signet
