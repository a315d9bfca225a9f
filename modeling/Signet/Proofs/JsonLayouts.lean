import Mathlib.Data.List.Count
import Mathlib.Data.List.Nodup
import Mathlib.Data.Option.Basic
import Signet.Proofs.JsonReaders

/-!
# What records mean

A record is understood by its fields. `Json.Slot` is a field together with what values mean in its
place, and `Json.Layout` says that the fields of a record are such slots, which can be filled in any
order and without regard to each other. Members are taken into a draft one after the other
(`Json.Layout.Fills`); what comes of it does not depend on their order, but only on which values the
names of the fields have (`Json.Layout.fills_blank_iff`). A list gives its items to the names of the
fields in their order, and means what the object with these members does.
-/

namespace Signet.Json

/-! ## Named values -/

/-- Members whose names are texts. -/
def named (members : List (String × Value)) : List Member :=
  members.map fun (name, tree) => (some name, tree)

theorem named_injective {members others : List (String × Value)}
    (same : named members = named others) : members = others := by
  refine List.map_injective_iff.mpr ?_ same
  rintro ⟨name, tree⟩ ⟨other, otherTree⟩ same
  cases same
  rfl

theorem count_named {members : List (String × Value)} {name : String} :
    ((named members).map Prod.fst).count (some name) = (members.map Prod.fst).count name := by
  have names : (named members).map Prod.fst = (members.map Prod.fst).map some := by
    simp [named, Function.comp_def]
  rw [names]
  exact List.count_map_of_injective _ some (Option.some_injective _) name

/-- A name that is given once has the value that it is given. -/
theorem lookup_eq_some_iff {members : List (String × Value)} {name : String} {tree : Value}
    (isSingle : (members.map Prod.fst).count name ≤ 1) :
    members.lookup name = some tree ↔ (name, tree) ∈ members := by
  induction members with
  | nil => simp
  | cons member members ih =>
    obtain ⟨first, other⟩ := member
    rw [List.map_cons] at isSingle
    by_cases same : name = first
    · subst same
      rw [List.count_cons_self] at isSingle
      have isLast : (name, tree) ∉ members := by
        intro isLater
        have isName : name ∈ members.map Prod.fst := List.mem_map.mpr ⟨_, isLater, rfl⟩
        have isCounted := List.count_pos_iff.mpr isName
        omega
      simp [isLast, eq_comm]
    · rw [List.count_cons_of_ne (Ne.symm same)] at isSingle
      rw [List.lookup_cons, beq_false_of_ne same]
      simp [ih isSingle, same]

/-- That a value gives values to names: a list in the order of the names, an object by its
members. -/
def Value.Gives (names : List String) : Value → List (String × Value) → Prop
  | .list items, members => items.length ≤ names.length ∧ members = names.zip items
  | .object all, members => all = named members
  | _, _ => False

/-- That a value has a part under a name: a list has its items under the names in their order. -/
def Value.Has (names : List String) (name : String) : Value → (part : Value) → Prop
  | .object members, part => (some name, part) ∈ members
  | .list items, part => (name, part) ∈ names.zip items
  | _, _ => False

theorem Value.Gives.mem_of_has {names : List String} {members : List (String × Value)}
    {name : String} {tree part : Value} (gives : tree.Gives names members)
    (has : tree.Has names name part) :
    (name, part) ∈ members := by
  cases tree with
  | object all =>
    obtain rfl := gives
    simpa [Value.Has, named] using has
  | list items =>
    obtain ⟨-, rfl⟩ := gives
    exact has
  | word _ | number _ | text _ => cases gives

/-! ## Slots -/

/-- A field of a record, and what values mean in its place. -/
structure Slot (δ : Type) where
  {β : Type}
  name : String
  get : δ → Option β
  set : δ → β → δ
  reader : Reader β
  Means : Value → β → Prop
  understands : Understands reader Means

def Slot.field {δ : Type} (slot : Slot δ) : Field δ :=
  .of slot.name slot.get slot.set slot.reader

/-- How a record is laid out: its fields are slots with different names, which are empty in the
blank draft. A slot that is set has its value and leaves the others as they are, and a draft is
nothing but what its slots have. -/
structure Layout {δ α : Type} (record : Record δ α) where
  slots : List (Slot δ)
  fields_eq : record.fields = slots.map Slot.field
  nodup : (slots.map Slot.name).Nodup
  get_blank : ∀ slot ∈ slots, slot.get record.blank = none
  get_set : ∀ slot ∈ slots, ∀ draft value, slot.get (slot.set draft value) = some value
  get_set_other : ∀ slot ∈ slots, ∀ other ∈ slots, other.name ≠ slot.name →
    ∀ draft value, other.get (slot.set draft value) = other.get draft
  ext : ∀ draft other, (∀ slot ∈ slots, slot.get draft = slot.get other) → draft = other

namespace Layout

variable {δ α : Type} {record : Record δ α} (layout : Layout record)

def names : List String :=
  layout.slots.map Slot.name

/-- That members are taken into a draft one after the other. A field is taken once, and other
members only if the record is open. -/
inductive Fills : δ → List (String × Value) → δ → Prop
  | nil {draft : δ} : Fills draft [] draft
  | known {draft last : δ} {slot : Slot δ} {tree : Value} {value : slot.β}
    {members : List (String × Value)} :
    slot ∈ layout.slots → slot.get draft = none → slot.Means tree value →
    Fills (slot.set draft value) members last → Fills draft ((slot.name, tree) :: members) last
  | unknown {draft last : δ} {name : String} {tree : Value} {members : List (String × Value)} :
    name ∉ layout.names → record.isClosed = false → Fills draft members last →
    Fills draft ((name, tree) :: members) last

variable {layout}

theorem eq_of_name_eq {slot other : Slot δ} (isSlot : slot ∈ layout.slots)
    (isOther : other ∈ layout.slots) (same : slot.name = other.name) : slot = other :=
  List.inj_on_of_nodup_map layout.nodup isSlot isOther same

theorem exists_slot_of_find? {name : String} {field : Field δ}
    (isFound : record.fields.find? (·.name == name) = some field) :
    ∃ slot ∈ layout.slots, slot.name = name ∧ slot.field = field := by
  rw [layout.fields_eq] at isFound
  obtain ⟨slot, isSlot, rfl⟩ := List.mem_map.mp (List.mem_of_find?_eq_some isFound)
  have isName := List.find?_some isFound
  exact ⟨slot, isSlot, eq_of_beq isName, rfl⟩

theorem find?_eq_none_iff {name : String} :
    record.fields.find? (·.name == name) = none ↔ name ∉ layout.names := by
  simp [layout.fields_eq, names, Slot.field, Field.of]

theorem find?_slot {slot : Slot δ} (isSlot : slot ∈ layout.slots) :
    record.fields.find? (·.name == slot.name) = some slot.field := by
  cases isFound : record.fields.find? (·.name == slot.name) with
  | none => exact absurd (List.mem_map_of_mem isSlot) (layout.find?_eq_none_iff.mp isFound)
  | some field =>
    obtain ⟨other, isOther, same, rfl⟩ := layout.exists_slot_of_find? isFound
    rw [eq_of_name_eq isOther isSlot same]

/-- What a known name has is taken into its slot, which was empty. -/
theorem Fills.exists_of_slot {draft last : δ} {slot : Slot δ} {tree : Value}
    {members : List (String × Value)} (isSlot : slot ∈ layout.slots)
    (fills : layout.Fills draft ((slot.name, tree) :: members) last) :
    slot.get draft = none ∧ ∃ value, slot.Means tree value ∧
      layout.Fills (slot.set draft value) members last := by
  generalize isName : slot.name = name at fills
  cases fills with
  | known isOther isEmpty means fills =>
    obtain rfl := eq_of_name_eq isSlot isOther isName
    exact ⟨isEmpty, _, means, fills⟩
  | unknown isUnknown => exact absurd (isName ▸ List.mem_map_of_mem isSlot) isUnknown

end Layout

/-! ## What comes of members -/

/-- What comes of members in a slot: if it is empty it has at most one of them, and then its
value. -/
def Slot.Takes {δ : Type} (slot : Slot δ) (draft : δ) (members : List (String × Value))
    (last : δ) : Prop :=
  match slot.get draft with
  | none => (members.map Prod.fst).count slot.name ≤ 1 ∧
      Option.Rel slot.Means (members.lookup slot.name) (slot.get last)
  | some value => slot.name ∉ members.map Prod.fst ∧ slot.get last = some value

section Takes

variable {δ : Type} {slot : Slot δ} {draft last : δ} {tree : Value}
  {members : List (String × Value)}

theorem Slot.takes_of_isEmpty (isEmpty : slot.get draft = none) :
    slot.Takes draft members last ↔ (members.map Prod.fst).count slot.name ≤ 1 ∧
      Option.Rel slot.Means (members.lookup slot.name) (slot.get last) := by
  unfold Takes
  rw [isEmpty]

theorem Slot.takes_of_isSet {value : slot.β} (isSet : slot.get draft = some value) :
    slot.Takes draft members last ↔
      slot.name ∉ members.map Prod.fst ∧ slot.get last = some value := by
  unfold Takes
  rw [isSet]

theorem Slot.takes_nil : slot.Takes draft [] last ↔ slot.get draft = slot.get last := by
  cases isSet : slot.get draft with
  | none =>
    rw [takes_of_isEmpty isSet]
    cases slot.get last <;> simp
  | some value =>
    rw [takes_of_isSet isSet]
    simp [eq_comm]

theorem Slot.takes_cons_same : slot.Takes draft ((slot.name, tree) :: members) last ↔
    slot.get draft = none ∧ ∃ value, slot.Means tree value ∧
      slot.name ∉ members.map Prod.fst ∧ slot.get last = some value := by
  cases isSet : slot.get draft with
  | none =>
    rw [takes_of_isEmpty isSet]
    cases slot.get last <;> simp [List.count_eq_zero, and_comm]
  | some value =>
    rw [takes_of_isSet isSet]
    simp

theorem Slot.takes_cons_other {name : String} (differs : name ≠ slot.name) :
    slot.Takes draft ((name, tree) :: members) last ↔ slot.Takes draft members last := by
  cases isSet : slot.get draft with
  | none =>
    have sameCount : (((name, tree) :: members).map Prod.fst).count slot.name =
        (members.map Prod.fst).count slot.name := by
      rw [List.map_cons, List.count_cons_of_ne differs]
    have sameLookup : ((name, tree) :: members).lookup slot.name = members.lookup slot.name := by
      rw [List.lookup_cons, beq_false_of_ne differs.symm]
    rw [takes_of_isEmpty isSet, takes_of_isEmpty isSet, sameCount, sameLookup]
  | some value =>
    rw [takes_of_isSet isSet, takes_of_isSet isSet]
    simp [differs.symm]

theorem Slot.takes_congr {other : δ} (same : slot.get draft = slot.get other) :
    slot.Takes draft members last ↔ slot.Takes other members last := by
  unfold Takes
  rw [same]

end Takes

namespace Layout

variable {δ α : Type} {record : Record δ α} {layout : Layout record} {draft last : δ}
  {members : List (String × Value)}

theorem Fills.takes (fills : layout.Fills draft members last) :
    (∀ slot ∈ layout.slots, slot.Takes draft members last) ∧
      (record.isClosed = true → ∀ member ∈ members, member.1 ∈ layout.names) := by
  induction fills with
  | nil => exact ⟨fun slot _ => Slot.takes_nil.mpr rfl, fun _ => nofun⟩
  | @known draft last slot tree value members isSlot isEmpty means _ ih =>
    obtain ⟨takes, areKnown⟩ := ih
    refine ⟨fun other isOther => ?_, fun isClosed => ?_⟩
    · by_cases same : slot.name = other.name
      · obtain rfl := eq_of_name_eq isSlot isOther same
        have later := (Slot.takes_of_isSet (layout.get_set slot isSlot draft value)).mp
          (takes slot isSlot)
        exact Slot.takes_cons_same.mpr ⟨isEmpty, value, means, later⟩
      · have kept := layout.get_set_other slot isSlot other isOther (Ne.symm same) draft value
        exact (Slot.takes_cons_other same).mpr ((Slot.takes_congr kept).mp (takes other isOther))
    · exact List.forall_mem_cons.mpr ⟨List.mem_map_of_mem isSlot, areKnown isClosed⟩
  | @unknown draft last name tree members isUnknown isOpen _ ih =>
    obtain ⟨takes, -⟩ := ih
    refine ⟨fun slot isSlot => ?_, fun isClosed => ?_⟩
    · have differs : name ≠ slot.name := by
        rintro rfl
        exact isUnknown (List.mem_map_of_mem isSlot)
      exact (Slot.takes_cons_other differs).mpr (takes slot isSlot)
    · rw [isOpen] at isClosed
      cases isClosed

theorem fills_of_takes (takes : ∀ slot ∈ layout.slots, slot.Takes draft members last)
    (areKnown : record.isClosed = true → ∀ member ∈ members, member.1 ∈ layout.names) :
    layout.Fills draft members last := by
  induction members generalizing draft with
  | nil =>
    obtain rfl : draft = last :=
      layout.ext draft last fun slot isSlot => Slot.takes_nil.mp (takes slot isSlot)
    exact .nil
  | cons member members ih =>
    obtain ⟨name, tree⟩ := member
    have areKnownMore : record.isClosed = true →
        ∀ member ∈ members, member.1 ∈ layout.names :=
      fun isClosed member isMember => areKnown isClosed member (.tail _ isMember)
    by_cases isKnown : name ∈ layout.names
    · obtain ⟨slot, isSlot, rfl⟩ := List.mem_map.mp isKnown
      obtain ⟨isEmpty, value, means, isLast, isSet⟩ :=
        Slot.takes_cons_same.mp (takes slot isSlot)
      refine .known isSlot isEmpty means (ih (fun other isOther => ?_) areKnownMore)
      by_cases same : slot.name = other.name
      · obtain rfl := eq_of_name_eq isSlot isOther same
        exact (Slot.takes_of_isSet (layout.get_set slot isSlot draft value)).mpr ⟨isLast, isSet⟩
      · have kept := layout.get_set_other slot isSlot other isOther (Ne.symm same) draft value
        exact (Slot.takes_congr kept).mpr ((Slot.takes_cons_other same).mp (takes other isOther))
    · have isOpen : record.isClosed = false := by
        cases isClosed : record.isClosed with
        | false => rfl
        | true => exact absurd (areKnown isClosed _ (.head _)) isKnown
      refine .unknown isKnown isOpen (ih (fun slot isSlot => ?_) areKnownMore)
      have differs : name ≠ slot.name := by
        rintro rfl
        exact isKnown (List.mem_map_of_mem isSlot)
      exact (Slot.takes_cons_other differs).mp (takes slot isSlot)

end Layout

/-- That names are given values at most once, and no other names if no others may be. -/
def IsUnambiguous (names : List String) (isClosed : Bool) (members : List (String × Value)) :
    Prop :=
  (∀ name ∈ names, (members.map Prod.fst).count name ≤ 1) ∧
    (isClosed = true → ∀ member ∈ members, member.1 ∈ names)

/-- What members come to does not depend on their order: every slot has the value of its name, if
there is one. -/
theorem Layout.fills_blank_iff {δ α : Type} {record : Record δ α} {layout : Layout record}
    {last : δ} {members : List (String × Value)} :
    layout.Fills record.blank members last ↔
      IsUnambiguous layout.names record.isClosed members ∧
        ∀ slot ∈ layout.slots,
          Option.Rel slot.Means (members.lookup slot.name) (slot.get last) := by
  constructor
  · intro fills
    obtain ⟨takes, areKnown⟩ := fills.takes
    have each slot (isSlot : slot ∈ layout.slots) :=
      (Slot.takes_of_isEmpty (layout.get_blank slot isSlot)).mp (takes slot isSlot)
    refine ⟨⟨fun name isName => ?_, areKnown⟩, fun slot isSlot => (each slot isSlot).2⟩
    obtain ⟨slot, isSlot, rfl⟩ := List.mem_map.mp isName
    exact (each slot isSlot).1
  · rintro ⟨⟨areSingle, areKnown⟩, fit⟩
    refine fills_of_takes (fun slot isSlot => ?_) areKnown
    exact (Slot.takes_of_isEmpty (layout.get_blank slot isSlot)).mpr
      ⟨areSingle slot.name (List.mem_map_of_mem isSlot), fit slot isSlot⟩

/-- What a value means as a record of some names: a value that gives them no two values, and gives
no others if the record is closed, means what its members do. -/
def MeansRecord {α : Type} (names : List String) (isClosed : Bool)
    (Fits : List (String × Value) → α → Prop) (tree : Value) (value : α) : Prop :=
  ∃ members, tree.Gives names members ∧ IsUnambiguous names isClosed members ∧
    Fits members value

/-- What members mean as a record: every slot has the value of its name, and the record is
complete. -/
def Layout.Fits {δ α : Type} {record : Record δ α} (layout : Layout record)
    (members : List (String × Value)) (value : α) : Prop :=
  ∃ last, (∀ slot ∈ layout.slots,
    Option.Rel slot.Means (members.lookup slot.name) (slot.get last)) ∧
      record.complete last = .ok value

/-- A record of one field, which is its draft. -/
def Layout.single {α β : Type} (record : Record (Option β) α) (name : String)
    {reader : Reader β} {Means : Value → β → Prop} (understands : Understands reader Means)
    (fields_eq : record.fields = [.of name id (fun _ value => some value) reader])
    (blank_eq : record.blank = none) : Layout record where
  slots := [⟨name, id, fun _ value => some value, reader, Means, understands⟩]
  fields_eq := fields_eq
  nodup := List.nodup_singleton name
  get_blank := List.forall_mem_singleton.mpr blank_eq
  get_set := List.forall_mem_singleton.mpr fun _ _ => rfl
  get_set_other := List.forall_mem_singleton.mpr <| List.forall_mem_singleton.mpr fun differs =>
    absurd rfl differs
  ext _ _ same := same _ (.head _)

/-! ## Fields -/

/-- What is meant by what a field has, if it may be missing. -/
def MeansOr {α : Type} (Means : Value → α → Prop) (default : α) (tree? : Option Value)
    (value : α) : Prop :=
  match tree? with
  | none => value = default
  | some tree => Means tree value

/-- What is meant by what a field has, if it has to be there. -/
def MeansGiven {α : Type} (Means : Value → α → Prop) (tree? : Option Value) (value : α) :
    Prop :=
  ∃ tree, tree? = some tree ∧ Means tree value

section Fields

variable {α : Type} {Means : Value → α → Prop} {tree? : Option Value} {default value : α}

theorem rel_some_iff : Option.Rel Means tree? (some value) ↔ MeansGiven Means tree? value := by
  constructor
  · rintro (means | _)
    exact ⟨_, rfl, means⟩
  · rintro ⟨tree, rfl, means⟩
    exact .some means

theorem exists_rel_getD_iff :
    (∃ value?, Option.Rel Means tree? value? ∧ value?.getD default = value) ↔
    MeansOr Means default tree? value := by
  cases tree? with
  | none =>
    constructor
    · rintro ⟨_, _ | _, rfl⟩
      rfl
    · rintro rfl
      exact ⟨none, .none, rfl⟩
  | some tree =>
    constructor
    · rintro ⟨_, means | _, rfl⟩
      exact means
    · exact fun means => ⟨some value, .some means, rfl⟩

theorem exists_meansOr_iff :
    (∃ value, MeansOr Means default tree? value) ↔
      ∀ tree, tree? = some tree → ∃ value, Means tree value := by
  cases tree? with
  | none => exact ⟨fun _ => nofun, fun _ => ⟨default, rfl⟩⟩
  | some tree =>
    constructor
    · rintro ⟨value, means⟩ _ ⟨⟩
      exact ⟨value, means⟩
    · exact fun mean => mean tree rfl

end Fields

end Signet.Json
