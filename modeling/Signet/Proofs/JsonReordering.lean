import Mathlib.Data.List.Perm.Basic
import Signet.Proofs.JsonLayouts

/-!
# Values whose members are reordered

`Json.Reorders` says that a value differs from another in nothing but the order in which members
stand in the objects inside it. What is told by the values of names is not changed by this
(`Json.IsOrderless`), and so are lists of it, and records of it as long as none of their names is
given twice.
-/

namespace Signet.Json

/-- That a value differs from another only in the order of members. -/
inductive Reorders : Value → Value → Prop
  | same {tree : Value} : Reorders tree tree
  | list {items others : List Value} :
    List.Forall₂ Reorders items others → Reorders (.list items) (.list others)
  | object {members ordered others : List Member} :
    members.Perm ordered → ordered.map Prod.fst = others.map Prod.fst →
    List.Forall₂ Reorders (ordered.map Prod.snd) (others.map Prod.snd) →
    Reorders (.object members) (.object others)

/-- That it does not matter to what values mean in which order their members stand. -/
def IsOrderless {α : Type} (Means : Value → α → Prop) : Prop :=
  ∀ tree other value, Reorders tree other → Means tree value → Means other value

theorem isOrderless_meansText : IsOrderless MeansText := by
  rintro _ other text reorders rfl
  cases reorders with
  | same => rfl

theorem IsOrderless.list {α : Type} {Means : Value → α → Prop}
    (isOrderless : IsOrderless Means) : IsOrderless (MeansList Means) := by
  rintro _ other values reorders ⟨items, rfl, mean⟩
  cases reorders with
  | same => exact ⟨items, rfl, mean⟩
  | @list _ others reordered =>
    refine ⟨others, rfl, ?_⟩
    induction mean generalizing others with
    | nil =>
      cases reordered
      exact .nil
    | cons means _ ih =>
      cases reordered with
      | cons first more => exact .cons (isOrderless _ _ _ first means) (ih more)

theorem isOrderless_meansNamed {α : Type} {nameOf : α → String} :
    IsOrderless (MeansNamed nameOf) := by
  rintro _ other value reorders (rfl | rfl)
  · cases reorders with
    | same => exact .inl rfl
  · cases reorders with
    | same => exact .inr rfl
    | @object _ _ others perm names reordered =>
      obtain rfl := List.singleton_perm.mp perm
      rcases others with _ | ⟨⟨name?, tree⟩, _ | ⟨other, others⟩⟩
      · cases names
      · cases names
        obtain ⟨isNull, -⟩ := List.forall₂_cons.mp reordered
        cases isNull with
        | same => exact .inr rfl
      · cases names

/-! ## Records -/

theorem exists_named_of_perm {members : List (String × Value)} {ordered : List Member}
    (perm : (named members).Perm ordered) :
    ∃ others, ordered = named others ∧ members.Perm others := by
  have isNamed : List.Forall₂ (fun (member : Member) (named : String × Value) =>
      member = (some named.1, named.2)) (named members) members :=
    List.forall₂_map_left_iff.mpr (List.forall₂_same.mpr fun _ _ => rfl)
  obtain ⟨others, areNamed, permOthers⟩ := List.perm_comp_forall₂ perm.symm isNamed
  refine ⟨others, ?_, permOthers.symm⟩
  rw [← List.forall₂_map_right_iff, List.forall₂_eq_eq_eq] at areNamed
  exact areNamed

theorem exists_named_of_names {names : List String} {all : List Member}
    (areNames : names.map some = all.map Prod.fst) :
    ∃ members, all = named members ∧ members.map Prod.fst = names := by
  induction names generalizing all with
  | nil =>
    obtain rfl : all = [] := List.map_eq_nil_iff.mp areNames.symm
    exact ⟨[], rfl, rfl⟩
  | cons name names ih =>
    rcases all with _ | ⟨⟨name?, tree⟩, all⟩
    · cases areNames
    · rw [List.map_cons, List.map_cons, List.cons.injEq] at areNames
      obtain ⟨rfl, areNames⟩ := areNames
      obtain ⟨members, rfl, rfl⟩ := ih areNames
      exact ⟨(name, tree) :: members, rfl, rfl⟩

/-- Names that are given reordered values have reordered values. -/
theorem rel_lookup {members others : List (String × Value)}
    (names : members.map Prod.fst = others.map Prod.fst)
    (reordered : List.Forall₂ Reorders (members.map Prod.snd) (others.map Prod.snd))
    (name : String) : Option.Rel Reorders (members.lookup name) (others.lookup name) := by
  induction members generalizing others with
  | nil =>
    obtain rfl : others = [] := List.map_eq_nil_iff.mp names.symm
    exact .none
  | cons member members ih =>
    rcases others with _ | ⟨other, others⟩
    · cases names
    obtain ⟨first, tree⟩ := member
    obtain ⟨otherFirst, otherTree⟩ := other
    rw [List.map_cons, List.map_cons, List.cons.injEq] at names
    obtain ⟨rfl : first = otherFirst, names⟩ := names
    cases reordered with
    | cons isReordered reordered =>
    rw [List.lookup_cons, List.lookup_cons]
    cases name == first with
    | true => exact .some isReordered
    | false => exact ih names reordered

theorem lookup_of_perm {members others : List (String × Value)} (perm : members.Perm others)
    {name : String} (isSingle : (members.map Prod.fst).count name ≤ 1) :
    members.lookup name = others.lookup name := by
  refine Option.ext fun tree => ?_
  have isSingleOther : (others.map Prod.fst).count name ≤ 1 := by
    rwa [← (perm.map Prod.fst).count_eq]
  show members.lookup name = some tree ↔ others.lookup name = some tree
  rw [lookup_eq_some_iff isSingle, lookup_eq_some_iff isSingleOther, perm.mem_iff]

theorem map_fst_zip (names : List String) {items others : List Value}
    (sameLength : items.length = others.length) :
    (names.zip items).map Prod.fst = (names.zip others).map Prod.fst := by
  induction names generalizing items others with
  | nil => rfl
  | cons name names ih =>
    rcases items with _ | ⟨item, items⟩ <;> rcases others with _ | ⟨other, others⟩
    · rfl
    · cases sameLength
    · cases sameLength
    · simp only [List.zip_cons_cons, List.map_cons]
      rw [ih (Nat.succ.inj sameLength)]

/-- That members come to the same if the names of the fields have reordered values. -/
def FitsOrderless {α : Type} (names : List String)
    (Fits : List (String × Value) → α → Prop) : Prop :=
  ∀ members others value,
    (∀ name ∈ names, Option.Rel Reorders (members.lookup name) (others.lookup name)) →
    Fits members value → Fits others value

theorem IsUnambiguous.of_perm {names : List String} {isClosed : Bool}
    {members others : List (String × Value)} (isUnambiguous : IsUnambiguous names isClosed members)
    (perm : (members.map Prod.fst).Perm (others.map Prod.fst)) :
    IsUnambiguous names isClosed others := by
  obtain ⟨areSingle, areKnown⟩ := isUnambiguous
  refine ⟨fun name isName => ?_, fun isClosed member isMember => ?_⟩
  · rw [← perm.count_eq]
    exact areSingle name isName
  · have isName := perm.mem_iff.mpr (List.mem_map_of_mem isMember)
    obtain ⟨same, isSame, sameName⟩ := List.mem_map.mp isName
    rw [← sameName]
    exact areKnown isClosed same isSame

/-- A record does not depend on the order of its members, if what they come to does not. -/
theorem FitsOrderless.record {α : Type} {names : List String} {isClosed : Bool}
    {Fits : List (String × Value) → α → Prop} (isOrderless : FitsOrderless names Fits) :
    IsOrderless (MeansRecord names isClosed Fits) := by
  rintro tree other value reorders ⟨members, gives, isUnambiguous, fits⟩
  cases reorders with
  | same => exact ⟨members, gives, isUnambiguous, fits⟩
  | @list items others reordered =>
    obtain ⟨isShort, rfl⟩ := gives
    have sameNames := map_fst_zip names reordered.length_eq
    have isShortOther : others.length ≤ names.length := reordered.length_eq ▸ isShort
    refine ⟨names.zip others, ⟨isShortOther, rfl⟩, isUnambiguous.of_perm (.of_eq sameNames),
      isOrderless _ _ value (fun name _ => rel_lookup sameNames ?_ name) fits⟩
    rwa [List.map_snd_zip isShort, List.map_snd_zip isShortOther]
  | @object _ ordered all perm sameNames reordered =>
    obtain rfl := gives
    obtain ⟨ordered, rfl, permOrdered⟩ := exists_named_of_perm perm
    have areNames : (ordered.map Prod.fst).map some = all.map Prod.fst := by
      rw [← sameNames]
      simp [named, Function.comp_def]
    obtain ⟨others, rfl, names⟩ := exists_named_of_names areNames
    have values (members : List (String × Value)) :
        (named members).map Prod.snd = members.map Prod.snd := by
      simp [named, Function.comp_def]
    rw [values, values] at reordered
    have permNames : (members.map Prod.fst).Perm (others.map Prod.fst) := by
      rw [names]
      exact permOrdered.map Prod.fst
    refine ⟨others, rfl, isUnambiguous.of_perm permNames,
      isOrderless members others value (fun name isName => ?_) fits⟩
    rw [lookup_of_perm permOrdered (isUnambiguous.1 name isName)]
    exact rel_lookup names.symm reordered name

section Fields

variable {α : Type} {Means : Value → α → Prop} {tree? other? : Option Value}
  {default value : α}

theorem IsOrderless.meansOr (isOrderless : IsOrderless Means)
    (reordered : Option.Rel Reorders tree? other?) (means : MeansOr Means default tree? value) :
    MeansOr Means default other? value := by
  cases reordered with
  | none => exact means
  | some reorders => exact isOrderless _ _ _ reorders means

theorem IsOrderless.meansGiven (isOrderless : IsOrderless Means)
    (reordered : Option.Rel Reorders tree? other?) (means : MeansGiven Means tree? value) :
    MeansGiven Means other? value := by
  obtain ⟨tree, rfl, means⟩ := means
  cases reordered with
  | some reorders => exact ⟨_, rfl, isOrderless _ _ _ reorders means⟩

end Fields

end Signet.Json
