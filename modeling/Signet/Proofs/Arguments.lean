import Signet.CommandLine
import Signet.Proofs.Successes

/-!
# Arguments of the command line

Arguments are taken apart by the way they are written (`Argument.isWritten_ofText`). What is
accepted of them is a list of options with their values (`Spells`), and the reader gives the options
these values, one after the other (`readArguments_eq_ok_iff`). One step of the reader is inverted
once (`readArguments_cons`), and the rest is induction on the arguments. They are read as asking for
help only if one of them does (`exists_of_readArguments`).
-/

namespace Signet.CommandLine

/-! ## Arguments -/

/-- That an argument cannot be taken for an option: it does not begin with a dash, or it is nothing
but one. -/
def IsLoose (argument : String) : Prop :=
  argument = "-" ∨ argument.toList.head? ≠ some '-'

/-- How arguments are written. -/
def Argument.IsWritten (text : String) : Argument → Prop
  | separator => text = "--"
  | long name none => text = "--" ++ name
  | long name (some value) => text = "--" ++ name ++ "=" ++ value
  | short letter => ∃ rest, text.toList = '-' :: letter :: rest
  | other argument => argument = text ∧ IsLoose text

/-- A list of characters that is cut at the first equals sign, if there is one. -/
theorem cut_at_equals (characters : List Char) :
    (characters.dropWhile (· != '=') = [] ∧ characters.takeWhile (· != '=') = characters) ∨
      ∃ value, characters.dropWhile (· != '=') = '=' :: value ∧
        characters = characters.takeWhile (· != '=') ++ '=' :: value := by
  have whole := List.takeWhile_append_dropWhile (p := (· != '=')) (l := characters)
  cases found : characters.dropWhile (· != '=') with
  | nil =>
    rw [found, List.append_nil] at whole
    exact Or.inl ⟨rfl, whole⟩
  | cons mark value =>
    have isMark : mark = '=' := by
      have first := List.head?_dropWhile_not (· != '=') characters
      rw [found] at first
      simpa using first
    rw [found, isMark] at whole
    exact Or.inr ⟨value, by rw [isMark], whole.symm⟩

theorem Argument.isWritten_ofText (text : String) : (ofText text).IsWritten text := by
  unfold ofText
  split
  next characters => exact String.toList_inj.mp characters
  next rest _ characters =>
    have dashed : text = "--" ++ String.ofList rest := by
      rw [← String.ofList_toList (s := text), characters]
      exact @String.ofList_append ['-', '-'] rest
    dsimp only
    rcases cut_at_equals rest with ⟨noValue, whole⟩ | ⟨value, found, whole⟩
    · rw [noValue, whole]
      exact dashed
    · rw [found]
      refine dashed.trans ?_
      have equals : String.ofList ('=' :: value) = "=" ++ String.ofList value :=
        @String.ofList_append ['='] value
      have cut := congrArg String.ofList whole
      rw [String.ofList_append, equals] at cut
      rw [String.append_assoc, String.append_assoc, cut]
  next characters => exact ⟨_, characters⟩
  next notSeparator _ notShort =>
    refine ⟨rfl, ?_⟩
    rcases characters : text.toList with _ | ⟨c, _ | ⟨letter, rest⟩⟩
    · exact Or.inr (by rw [characters]; exact nofun)
    · by_cases isDash : c = '-'
      · exact Or.inl (String.toList_inj.mp (by rw [characters, isDash]; rfl))
      · exact Or.inr (by rw [characters]; exact fun same => isDash (Option.some.inj same))
    · refine Or.inr ?_
      rw [characters]
      intro same
      rw [Option.some.inj same] at characters
      exact notShort _ _ characters

/-- An option whose value is in the same argument is taken apart at the first equals sign. -/
theorem Argument.ofText_joined (setting : Setting) (value : String) :
    ofText ("--" ++ setting.name ++ "=" ++ value) = .long setting.name (some value) := by
  have characters : ("--" ++ setting.name ++ "=" ++ value).toList =
      '-' :: '-' :: (setting.name.toList ++ '=' :: value.toList) := by
    rw [String.toList_append, String.toList_append, String.toList_append, List.append_assoc,
      List.append_assoc]
    rfl
  have parsed : ofText ("--" ++ setting.name ++ "=" ++ value) =
      .long (String.ofList setting.name.toList) (some (String.ofList value.toList)) := by
    unfold ofText
    rw [characters]
    cases setting <;> rfl
  rw [parsed, String.ofList_toList, String.ofList_toList]

theorem Argument.ofText_alone (setting : Setting) :
    ofText ("--" ++ setting.name) = .long setting.name none := by
  cases setting <;> rfl

theorem Argument.ofText_of_isLoose {argument : String} (isLoose : IsLoose argument) :
    ofText argument = .other argument := by
  rcases isLoose with rfl | noDash
  · rfl
  · unfold ofText
    split
    next characters => exact absurd (by rw [characters]; rfl) noDash
    next characters => exact absurd (by rw [characters]; rfl) noDash
    next characters => exact absurd (by rw [characters]; rfl) noDash
    next => rfl

theorem Setting.ofName?_eq_some_iff {name : String} {setting : Setting} :
    ofName? name = some setting ↔ name = setting.name := by
  constructor
  · intro found
    have same := List.find?_some found
    exact (beq_iff_eq.mp same).symm
  · rintro rfl
    cases setting <;> rfl

/-! ## Options -/

/-- The options that arguments give, with their values: each is one argument with an equals sign, or
two. Two dashes alone may end them. -/
inductive Spells : (arguments : List String) → (uses : List (Setting × String)) → Prop
  | nil : Spells [] []
  | separator : Spells ["--"] []
  | joined (setting : Setting) (value : String) {rest : List String}
    {uses : List (Setting × String)} :
    Spells rest uses →
      Spells (("--" ++ setting.name ++ "=" ++ value) :: rest) ((setting, value) :: uses)
  | apart (setting : Setting) {value : String} {rest : List String}
    {uses : List (Setting × String)} :
    IsLoose value → Spells rest uses →
      Spells (("--" ++ setting.name) :: value :: rest) ((setting, value) :: uses)

/-- What an argument and those behind it give, by what the argument is. -/
def Argument.Gives (rest : List String) (uses : List (Setting × String)) : Argument → Prop
  | separator => rest = [] ∧ uses = []
  | long name (some value) =>
    ∃ setting others, Setting.ofName? name = some setting ∧
      uses = (setting, value) :: others ∧ Spells rest others
  | long name none =>
    ∃ setting value behind others, Setting.ofName? name = some setting ∧
      rest = value :: behind ∧ uses = (setting, value) :: others ∧ Spells behind others
  | short _ | other _ => False

theorem Spells.gives {text : String} {rest : List String} {uses : List (Setting × String)}
    (spells : Spells (text :: rest) uses) : (Argument.ofText text).Gives rest uses := by
  cases spells with
  | separator => exact ⟨rfl, rfl⟩
  | joined setting value spells =>
    rw [Argument.ofText_joined]
    exact ⟨setting, _, Setting.ofName?_eq_some_iff.mpr rfl, rfl, spells⟩
  | apart setting _ spells =>
    rw [Argument.ofText_alone]
    exact ⟨setting, _, _, _, Setting.ofName?_eq_some_iff.mpr rfl, rfl, rfl, spells⟩

/-- Arguments give options in one way only. -/
theorem Spells.unique {arguments : List String} {uses others : List (Setting × String)}
    (spells : Spells arguments uses) (spells' : Spells arguments others) : uses = others := by
  have known (setting : Setting) : Setting.ofName? setting.name = some setting :=
    Setting.ofName?_eq_some_iff.mpr rfl
  induction spells generalizing others with
  | nil =>
    cases spells'
    rfl
  | separator =>
    obtain ⟨-, rfl⟩ := spells'.gives
    rfl
  | joined setting value _ ih =>
    have gives := spells'.gives
    rw [Argument.ofText_joined] at gives
    obtain ⟨other, uses, known', rfl, behind⟩ := gives
    rw [Option.some.inj ((known setting).symm.trans known'), ih behind]
  | apart setting _ _ ih =>
    have gives := spells'.gives
    rw [Argument.ofText_alone] at gives
    obtain ⟨other, value, rest, uses, known', sameRest, rfl, behind⟩ := gives
    obtain ⟨rfl, rfl⟩ := List.cons.inj sameRest
    rw [Option.some.inj ((known setting).symm.trans known'), ih behind]

/-- Gives options their values one after the other. -/
def Given.takeAll (given : Given) (uses : List (Setting × String)) : Except Stop Given :=
  uses.foldlM (fun given use => given.take use.1 (some use.2)) given

section Reader

variable {given final : Given} {setting : Setting} {value text : String}
  {rest arguments : List String}

theorem Given.takeAll_cons_eq_ok_iff {uses : List (Setting × String)} :
    given.takeAll ((setting, value) :: uses) = .ok final ↔
      ∃ next, given.take setting (some value) = .ok next ∧ next.takeAll uses = .ok final := by
  unfold takeAll
  rw [List.foldlM_cons]
  exact bind_eq_ok_iff

/-- What is pending with a value that can be taken is taken before anything else is read. -/
theorem readArguments_of_taken {next : Given} (taken : given.take setting (some value) = .ok next)
    (arguments : List String) :
    readArguments given (some (setting, some value)) arguments =
      readArguments next none arguments := by
  have settled : given.settle (some (setting, some value)) = next.settle none := taken
  cases arguments with
  | nil => exact settled
  | cons text rest =>
    unfold readArguments
    rw [settled]

/-- What is pending with a value that cannot be taken is an end, whatever follows. -/
theorem readArguments_of_not_taken {stop : Stop}
    (refused : given.take setting (some value) = .error stop) :
    readArguments given (some (setting, some value)) arguments ≠ .ok final := by
  have settled : given.settle (some (setting, some value)) = .error stop := refused
  intro read
  cases arguments with
  | nil => exact nomatch refused.symm.trans read
  | cons text rest =>
    unfold readArguments at read
    rw [settled] at read
    split at read
    · split at read <;> cases read
    · split at read
      · cases read
      · cases read
      · split at read <;> cases read
    · cases read
    · cases read
    · split at read
      next pending => cases pending
      next => cases read

/-- The value of an option that has none yet is the next argument. -/
theorem readArguments_open
    (read : readArguments given (some (setting, none)) arguments = .ok final) :
    ∃ value behind, arguments = value :: behind ∧ IsLoose value ∧
      readArguments given (some (setting, some value)) behind = .ok final := by
  cases arguments with
  | nil => cases read
  | cons text rest =>
    have isWritten := Argument.isWritten_ofText text
    unfold readArguments at read
    split at read
    next => split at read <;> cases read
    next =>
      split at read
      next => cases read
      next => cases read
      next => split at read <;> cases read
    next => cases read
    next => cases read
    next argument parsed =>
      rw [parsed] at isWritten
      obtain ⟨rfl, isLoose⟩ := isWritten
      exact ⟨_, rest, rfl, isLoose, read⟩

/-- One step of the reader: the end, an option with its value, or an option whose value comes
next. -/
theorem readArguments_cons (read : readArguments given none (text :: rest) = .ok final) :
    (text = "--" ∧ rest = [] ∧ given = final) ∨
      (∃ setting value next, text = "--" ++ setting.name ++ "=" ++ value ∧
        given.take setting (some value) = .ok next ∧ readArguments next none rest = .ok final) ∨
      ∃ setting value behind, text = "--" ++ setting.name ∧ rest = value :: behind ∧
        IsLoose value ∧ readArguments given (some (setting, some value)) behind = .ok final := by
  have isWritten := Argument.isWritten_ofText text
  unfold readArguments at read
  split at read
  next parsed =>
    rw [parsed] at isWritten
    split at read
    next => exact Or.inl ⟨isWritten, rfl, Except.ok.inj read⟩
    next => cases read
  next name value? parsed =>
    rw [parsed] at isWritten
    split at read
    next setting known =>
      rw [Setting.ofName?_eq_some_iff.mp known] at isWritten
      have opened : readArguments given (some (setting, none)) rest = .ok final := read
      obtain ⟨value, behind, isRest, isLoose, read⟩ := readArguments_open opened
      exact Or.inr (Or.inr ⟨setting, value, behind, isWritten, isRest, isLoose, read⟩)
    next setting value known =>
      rw [Setting.ofName?_eq_some_iff.mp known] at isWritten
      split at read
      next next taken => exact Or.inr (Or.inl ⟨setting, value, next, isWritten, taken, read⟩)
      next => cases read
    next => split at read <;> cases read
  next => cases read
  next => cases read
  next =>
    split at read
    next pending => cases pending
    next => cases read

/-- Whatever is accepted is a list of options with their values. An option takes one argument or
two, so what is left is not always the rest. -/
theorem exists_spells : ∀ {arguments : List String} {given : Given},
    readArguments given none arguments = .ok final →
      ∃ uses, Spells arguments uses ∧ given.takeAll uses = .ok final
  | [], given, read => ⟨[], .nil, read⟩
  | text :: rest, given, read => by
    rcases readArguments_cons read with
      ⟨rfl, rfl, rfl⟩ | ⟨setting, value, next, rfl, taken, read⟩ |
      ⟨setting, value, behind, rfl, rfl, isLoose, read⟩
    · exact ⟨[], .separator, rfl⟩
    · obtain ⟨uses, spells, takesAll⟩ := exists_spells read
      exact ⟨_, .joined setting value spells,
        Given.takeAll_cons_eq_ok_iff.mpr ⟨next, taken, takesAll⟩⟩
    · cases taken : given.take setting (some value) with
      | error stop => exact absurd read (readArguments_of_not_taken taken)
      | ok next =>
        rw [readArguments_of_taken taken] at read
        obtain ⟨uses, spells, takesAll⟩ := exists_spells read
        exact ⟨_, .apart setting isLoose spells,
          Given.takeAll_cons_eq_ok_iff.mpr ⟨next, taken, takesAll⟩⟩

theorem readArguments_joined {next : Given} (taken : given.take setting (some value) = .ok next) :
    readArguments given none (("--" ++ setting.name ++ "=" ++ value) :: rest) =
      readArguments next none rest := by
  have settled : ((given.settle none).bind fun given => given.take setting (some value)) =
      .ok next := taken
  rw [readArguments.eq_def]
  dsimp only
  rw [Argument.ofText_joined]
  dsimp only
  rw [Setting.ofName?_eq_some_iff.mpr rfl]
  dsimp only
  rw [settled]

theorem readArguments_apart (isLoose : IsLoose value) :
    readArguments given none (("--" ++ setting.name) :: value :: rest) =
      readArguments given (some (setting, some value)) rest := by
  have opened : readArguments given none (("--" ++ setting.name) :: value :: rest) =
      readArguments given (some (setting, none)) (value :: rest) := by
    rw [readArguments.eq_def]
    dsimp only
    rw [Argument.ofText_alone]
    dsimp only
    rw [Setting.ofName?_eq_some_iff.mpr rfl]
    rfl
  rw [opened, readArguments.eq_def]
  dsimp only
  rw [Argument.ofText_of_isLoose isLoose]

/-- Every list of options with values that can be taken is accepted. -/
theorem Spells.readArguments {uses : List (Setting × String)} (spells : Spells arguments uses)
    (takesAll : given.takeAll uses = .ok final) :
    readArguments given none arguments = .ok final := by
  induction spells generalizing given with
  | nil => exact takesAll
  | separator => exact takesAll
  | joined setting value spells ih =>
    obtain ⟨next, taken, takesAll⟩ := Given.takeAll_cons_eq_ok_iff.mp takesAll
    rw [readArguments_joined taken]
    exact ih takesAll
  | apart setting isLoose spells ih =>
    obtain ⟨next, taken, takesAll⟩ := Given.takeAll_cons_eq_ok_iff.mp takesAll
    rw [readArguments_apart isLoose, readArguments_of_taken taken]
    exact ih takesAll

theorem readArguments_eq_ok_iff :
    readArguments given none arguments = .ok final ↔
      ∃ uses, Spells arguments uses ∧ given.takeAll uses = .ok final :=
  ⟨exists_spells, fun ⟨_, spells, takesAll⟩ => spells.readArguments takesAll⟩

end Reader

/-! ## Help -/

/-- That an argument asks for help, by name or by letter. -/
def AsksForHelp (argument : String) : Prop :=
  argument = "--help" ∨ ∃ rest, argument.toList = '-' :: 'h' :: rest

section Help

variable {given : Given}

theorem Given.set_ne_help {setting : Setting} {value : String} :
    given.set setting value ≠ .error .help := by
  unfold set
  cases setting with
  | host => exact nofun
  | port =>
    dsimp only
    cases readPort value <;> exact nofun
  | config =>
    dsimp only
    split <;> exact nofun
  | logLevel =>
    dsimp only
    cases readLevel value <;> exact nofun

theorem Given.take_ne_help {setting : Setting} {value? : Option String} :
    given.take setting value? ≠ .error .help := by
  unfold take
  split
  next => exact nofun
  next =>
    split
    next => exact nofun
    next => exact set_ne_help

theorem Given.settle_ne_help {pending : Pending} : given.settle pending ≠ .error .help := by
  cases pending with
  | none => exact nofun
  | some use => exact take_ne_help

/-- Where arguments are read as asking for help, one of them does. -/
theorem exists_of_readArguments {pending : Pending} {arguments : List String}
    (read : readArguments given pending arguments = .error .help) :
    ∃ argument ∈ arguments, AsksForHelp argument := by
  induction arguments generalizing given pending with
  | nil => exact absurd read Given.settle_ne_help
  | cons text rest ih =>
    have isWritten := Argument.isWritten_ofText text
    have later {given : Given} {pending : Pending}
        (read : readArguments given pending rest = .error .help) :
        ∃ argument ∈ text :: rest, AsksForHelp argument := by
      obtain ⟨argument, isLater, asks⟩ := ih read
      exact ⟨argument, .tail _ isLater, asks⟩
    unfold readArguments at read
    split at read
    next =>
      split at read
      next => exact absurd read Given.settle_ne_help
      next => cases read
    next name value? parsed =>
      rw [parsed] at isWritten
      split at read
      next =>
        split at read
        next => exact later read
        next settled =>
          cases read
          exact absurd settled Given.settle_ne_help
      next =>
        split at read
        next => exact later read
        next taken =>
          cases read
          exact absurd taken (bind_ne_error Given.settle_ne_help fun _ => Given.take_ne_help)
      next =>
        split at read
        next => exact ⟨text, .head _, Or.inl isWritten⟩
        next => cases read
        next => cases read
    next parsed =>
      rw [parsed] at isWritten
      exact ⟨text, .head _, Or.inr isWritten⟩
    next => cases read
    next =>
      split at read
      next => exact later read
      next => cases read

end Help

end Signet.CommandLine
