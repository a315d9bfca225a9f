import Mathlib.Logic.Function.Basic
import Signet.Proofs.Arguments

/-!
# Command lines that are accepted

Settings come from texts (`Settings.AreFrom`): from the values that the arguments give to options,
from the environment only where they give none (`valueFrom`), and from defaults. On the way what is
given comes from more and more of these texts (`Given.IsFrom`): each option that is given a value
adds one (`Given.set_eq_ok_iff`), and so do the arguments (`Given.takeAll_eq_ok_iff`) and the
environment (`Given.takeVariables_eq_ok_iff`). The command lines that are accepted are then told
without the reader (`Accepts`, `read_eq_ok_iff`).
-/

namespace Signet.CommandLine

/-! ## Texts and what is read from them -/

/-- That what is read from a text, if there is one, is some value, if there is one. -/
abbrev Reads {α : Type} (read : String → Except String α) :
    Option String → Option α → Prop :=
  Option.Rel fun text value => read text = .ok value

section Reads

variable {α : Type} {read : String → Except String α} {text? : Option String}
  {value? other? : Option α}

theorem Reads.unique (reads : Reads read text? value?) (reads' : Reads read text? other?) :
    value? = other? := by
  cases reads with
  | none =>
    cases reads'
    rfl
  | some isRead =>
    cases reads' with
    | some isRead' => rw [Except.ok.inj (isRead.symm.trans isRead')]

theorem exists_reads_iff :
    (∃ value?, Reads read text? value?) ↔
      ∀ text, text? = some text → ∃ value, read text = .ok value := by
  cases text? with
  | none => exact ⟨fun _ => nofun, fun _ => ⟨none, .none⟩⟩
  | some text =>
    constructor
    · intro related other same
      obtain ⟨_, ⟨isRead⟩⟩ := related
      cases same
      exact ⟨_, isRead⟩
    · intro isRead
      obtain ⟨value, isRead⟩ := isRead text rfl
      exact ⟨some value, .some isRead⟩

theorem Reads.isSome_eq (reads : Reads read text? value?) : value?.isSome = text?.isSome := by
  cases reads <;> rfl

/-- What is read from a text or, if there is none, a default. -/
theorem Reads.getD_eq_iff {default value : α} (reads : Reads read text? value?) :
    value?.getD default = value ↔
      text?.elim (value = default) fun text => read text = .ok value := by
  cases reads with
  | none => exact eq_comm
  | some isRead =>
    exact ⟨fun same => same ▸ isRead,
      fun isRead' => Except.ok.inj (isRead.symm.trans isRead')⟩

end Reads

/-! ## Values -/

/-- That an option can have a value. -/
def Setting.Takes (value : String) : Setting → Prop
  | host => True
  | port => ∃ number, readPort value = .ok number
  | config => value ≠ ""
  | logLevel => ∃ level, readLevel value = .ok level

/-- That what is given comes from the texts that options have as their values. -/
structure Given.IsFrom (given : Given) (value? : Setting → Option String) : Prop where
  host : given.host? = value? .host
  port : Reads readPort (value? .port) given.port?
  config : given.config? = value? .config
  named : value? .config ≠ some ""
  logLevel : Reads readLevel (value? .logLevel) given.logLevel?

namespace Given

variable {given other final : Given} {value? : Setting → Option String} {setting : Setting}
  {value : String}

theorem IsFrom.unique (isFrom : given.IsFrom value?) (isFrom' : other.IsFrom value?) :
    given = other := by
  obtain ⟨host, port, config, -, logLevel⟩ := isFrom
  obtain ⟨host', port', config', -, logLevel'⟩ := isFrom'
  cases given
  cases other
  rw [mk.injEq]
  exact ⟨host.trans host'.symm, port.unique port', config.trans config'.symm,
    logLevel.unique logLevel'⟩

theorem IsFrom.ok_eq_iff (isFrom : given.IsFrom value?) :
    (.ok given : Except Stop Given) = .ok final ↔ final.IsFrom value? :=
  ⟨fun same => Except.ok.inj same ▸ isFrom,
    fun isFrom' => congrArg Except.ok (isFrom.unique isFrom')⟩

/-- Texts are given if each of them can be the value of its option. -/
theorem exists_isFrom_iff :
    (∃ given : Given, given.IsFrom value?) ↔
      ∀ setting value, value? setting = some value → setting.Takes value := by
  constructor
  · intro given setting value isValue
    obtain ⟨given, isFrom⟩ := given
    cases setting with
    | host => trivial
    | port => exact exists_reads_iff.mp ⟨_, isFrom.port⟩ value isValue
    | config => exact fun isEmpty => isFrom.named (isValue.trans (congrArg some isEmpty))
    | logLevel => exact exists_reads_iff.mp ⟨_, isFrom.logLevel⟩ value isValue
  · intro takes
    obtain ⟨port?, port⟩ := exists_reads_iff.mpr (takes .port)
    obtain ⟨logLevel?, logLevel⟩ := exists_reads_iff.mpr (takes .logLevel)
    exact ⟨⟨value? .host, port?, value? .config, logLevel?⟩, rfl, port, rfl,
      fun isEmpty => takes .config "" isEmpty rfl, logLevel⟩

theorem IsFrom.has_eq (isFrom : given.IsFrom value?) (setting : Setting) :
    given.has setting = (value? setting).isSome := by
  cases setting with
  | host => exact congrArg Option.isSome isFrom.host
  | port => exact isFrom.port.isSome_eq
  | config => exact congrArg Option.isSome isFrom.config
  | logLevel => exact isFrom.logLevel.isSome_eq

theorem isFrom_of_set (isFrom : given.IsFrom value?) (isSet : given.set setting value = .ok final) :
    final.IsFrom (Function.update value? setting (some value)) := by
  unfold set at isSet
  cases setting with
  | host =>
    cases isSet
    exact ⟨rfl, isFrom.port, isFrom.config, isFrom.named, isFrom.logLevel⟩
  | port =>
    obtain ⟨number, isRead, rfl⟩ := map_eq_ok_iff.mp isSet
    have isNumber := mapError_eq_ok_iff.mp isRead
    exact ⟨isFrom.host, .some isNumber, isFrom.config, isFrom.named, isFrom.logLevel⟩
  | config =>
    dsimp only at isSet
    split at isSet
    next => cases isSet
    next nonempty =>
      cases isSet
      refine ⟨isFrom.host, isFrom.port, rfl, fun isEmpty => nonempty ?_, isFrom.logLevel⟩
      exact String.isEmpty_iff.mpr (Option.some.inj isEmpty)
  | logLevel =>
    obtain ⟨level, isRead, rfl⟩ := map_eq_ok_iff.mp isSet
    have isLevel := mapError_eq_ok_iff.mp isRead
    exact ⟨isFrom.host, isFrom.port, isFrom.config, isFrom.named, .some isLevel⟩

theorem exists_of_takes (takes : setting.Takes value) :
    ∃ final, given.set setting value = .ok final := by
  unfold set
  cases setting with
  | host => exact ⟨_, rfl⟩
  | port =>
    obtain ⟨number, isRead⟩ := takes
    exact ⟨_, map_eq_ok_iff.mpr ⟨number, mapError_eq_ok_iff.mpr isRead, rfl⟩⟩
  | config => exact ⟨_, if_neg fun isEmpty => takes (String.isEmpty_iff.mp isEmpty)⟩
  | logLevel =>
    obtain ⟨level, isRead⟩ := takes
    exact ⟨_, map_eq_ok_iff.mpr ⟨level, mapError_eq_ok_iff.mpr isRead, rfl⟩⟩

/-- To give an option a value is to have it come from one more text. -/
theorem set_eq_ok_iff (isFrom : given.IsFrom value?) :
    given.set setting value = .ok final ↔
      final.IsFrom (Function.update value? setting (some value)) := by
  refine ⟨isFrom_of_set isFrom, fun isFrom' => ?_⟩
  have takes := exists_isFrom_iff.mp ⟨final, isFrom'⟩ setting value (Function.update_self _ _ _)
  obtain ⟨next, isSet⟩ := exists_of_takes takes
  rw [isSet, (isFrom_of_set isFrom isSet).unique isFrom']

theorem take_eq_ok_iff (isFrom : given.IsFrom value?) :
    given.take setting (some value) = .ok final ↔
      value? setting = none ∧ final.IsFrom (Function.update value? setting (some value)) := by
  unfold take
  dsimp only
  rw [isFrom.has_eq, ← set_eq_ok_iff isFrom]
  cases value? setting with
  | none => exact ⟨fun isSet => ⟨rfl, isSet⟩, And.right⟩
  | some earlier => exact ⟨nofun, fun isSet => nomatch isSet.1⟩

section Uses

variable {uses : List (Setting × String)}

theorem lookup_of_unused (unused : setting ∉ uses.map Prod.fst) : uses.lookup setting = none := by
  refine List.lookup_eq_none_iff.mpr fun use isUse => bne_iff_ne.mpr fun same => unused ?_
  rw [same]
  exact List.mem_map_of_mem isUse

/-- What options are used for, if none is used twice. -/
theorem lookup_eq_some_iff_mem (nodup : (uses.map Prod.fst).Nodup) :
    uses.lookup setting = some value ↔ (setting, value) ∈ uses := by
  constructor
  · intro found
    obtain ⟨before, after, split, -⟩ := List.lookup_eq_some_iff.mp found
    rw [split]
    exact List.mem_append_right _ (.head _)
  · intro isUsed
    obtain ⟨before, after, rfl⟩ := List.append_of_mem isUsed
    rw [List.map_append, List.map_cons] at nodup
    have differ := (List.nodup_append.mp nodup).2.2
    refine List.lookup_eq_some_iff.mpr
      ⟨before, after, rfl, fun use isBefore => bne_iff_ne.mpr fun same => ?_⟩
    exact differ use.1 (List.mem_map_of_mem isBefore) setting (.head _) same.symm

/-- Where an option is not used again, its value counts. -/
theorem lookup_or_update (notAgain : setting ∉ uses.map Prod.fst) :
    (fun other => (uses.lookup other).or (Function.update value? setting (some value) other)) =
      fun other => (((setting, value) :: uses).lookup other).or (value? other) := by
  funext other
  rw [List.lookup_cons]
  by_cases same : other = setting
  · rw [same, lookup_of_unused notAgain, Function.update_self, beq_self_eq_true]
    rfl
  · rw [Function.update_of_ne same, beq_eq_false_iff_ne.mpr same]

theorem update_of_used {other : Setting} (notAgain : setting ∉ uses.map Prod.fst)
    (isUsed : other ∈ uses.map Prod.fst) :
    Function.update value? setting (some value) other = value? other := by
  refine Function.update_of_ne (fun same => notAgain ?_) _ _
  rw [← same]
  exact isUsed

end Uses

/-- To give options their values is to have no option twice, and to have what is given come from the
values. -/
theorem takeAll_eq_ok_iff {uses : List (Setting × String)} (isFrom : given.IsFrom value?) :
    given.takeAll uses = .ok final ↔
      (uses.map Prod.fst).Nodup ∧ (∀ setting ∈ uses.map Prod.fst, value? setting = none) ∧
        final.IsFrom fun setting => (uses.lookup setting).or (value? setting) := by
  induction uses generalizing given value? with
  | nil =>
    exact isFrom.ok_eq_iff.trans
      ⟨fun isFrom' => ⟨.nil, nofun, isFrom'⟩, fun given => given.2.2⟩
  | cons use uses ih =>
    obtain ⟨setting, value⟩ := use
    rw [takeAll_cons_eq_ok_iff, List.map_cons, List.nodup_cons, List.forall_mem_cons]
    constructor
    · intro taken
      obtain ⟨next, taken, takesAll⟩ := taken
      obtain ⟨unset, isFrom'⟩ := (take_eq_ok_iff isFrom).mp taken
      obtain ⟨nodup, free, isFrom''⟩ := (ih isFrom').mp takesAll
      have notAgain : setting ∉ uses.map Prod.fst := by
        intro again
        have none := free setting again
        rw [Function.update_self] at none
        cases none
      refine ⟨⟨notAgain, nodup⟩, ⟨unset, fun other isUsed => ?_⟩, ?_⟩
      · have none := free other isUsed
        rwa [update_of_used notAgain isUsed] at none
      · rwa [lookup_or_update notAgain] at isFrom''
    · intro given
      obtain ⟨⟨notAgain, nodup⟩, ⟨unset, free⟩, isFrom'⟩ := given
      have counts : (((setting, value) :: uses).lookup setting).or (value? setting) =
          some value := by
        rw [List.lookup_cons_self]
        rfl
      obtain ⟨next, isSet⟩ :=
        exists_of_takes (exists_isFrom_iff.mp ⟨final, isFrom'⟩ setting value counts)
      have isFrom'' := isFrom_of_set isFrom isSet
      have taken := (take_eq_ok_iff isFrom).mpr ⟨unset, isFrom''⟩
      refine ⟨next, taken, (ih isFrom'').mpr ⟨nodup, fun other isUsed => ?_, ?_⟩⟩
      · rw [update_of_used notAgain isUsed]
        exact free other isUsed
      · rwa [lookup_or_update notAgain]

/-! ## The environment -/

variable {environment : String → Option String}

/-- The values of options when some that have none take the environment's. -/
def filled (environment : String → Option String) (settings : List Setting)
    (value? : Setting → Option String) : Setting → Option String := fun setting =>
  if setting ∈ settings then (value? setting).or (setting.environmentName?.bind environment)
  else value? setting

theorem filled_cons (settings : List Setting) :
    filled environment (setting :: settings) value? =
      filled environment settings (Function.update value? setting
        ((value? setting).or (setting.environmentName?.bind environment))) := by
  funext other
  unfold filled
  by_cases same : other = setting
  · rw [same, Function.update_self, if_pos List.mem_cons_self, Option.or_assoc,
      Option.or_self, ite_self]
  · rw [Function.update_of_ne same]
    simp only [List.mem_cons, same, false_or]

/-- What an option that has no value takes from the environment. -/
theorem takeVariable_eq_ok_iff (isFrom : given.IsFrom value?) :
    takeVariable environment given setting = .ok final ↔
      final.IsFrom (Function.update value? setting
        ((value? setting).or (setting.environmentName?.bind environment))) := by
  have unchanged {before : Option String} (same : value? setting = before) :
      Function.update value? setting before = value? := by
    rw [← same, Function.update_eq_self]
  unfold takeVariable
  rw [isFrom.has_eq]
  cases before : value? setting with
  | some value =>
    rw [Option.some_or, unchanged before]
    exact isFrom.ok_eq_iff
  | none =>
    rw [Option.none_or]
    cases setting.environmentName?.bind environment with
    | none =>
      rw [unchanged before]
      exact isFrom.ok_eq_iff
    | some value => exact set_eq_ok_iff isFrom

/-- Options that have no values take what they can from the environment. -/
theorem takeVariables_eq_ok_iff {settings : List Setting} (isFrom : given.IsFrom value?) :
    settings.foldlM (takeVariable environment) given = .ok final ↔
      final.IsFrom (filled environment settings value?) := by
  induction settings generalizing given value? with
  | nil => exact isFrom.ok_eq_iff
  | cons setting settings ih =>
    rw [List.foldlM_cons, bind_eq_ok_iff, filled_cons]
    constructor
    · intro taken
      obtain ⟨next, taken, rest⟩ := taken
      exact (ih ((takeVariable_eq_ok_iff isFrom).mp taken)).mp rest
    · intro isFrom'
      -- What the first option takes is what it has in the end, and so it can be taken.
      have takes : ∀ other value, Function.update value? setting
          ((value? setting).or (setting.environmentName?.bind environment)) other = some value →
          other.Takes value := by
        intro other value isValue
        refine exists_isFrom_iff.mp ⟨final, isFrom'⟩ other value ?_
        unfold filled
        rw [isValue]
        exact ite_self _
      obtain ⟨next, isFrom''⟩ := exists_isFrom_iff.mpr takes
      exact ⟨next, (takeVariable_eq_ok_iff isFrom).mpr isFrom'', (ih isFrom'').mpr isFrom'⟩

end Given

/-! ## Settings -/

/-- That settings come from the texts that options have as their values, and from the defaults where
they have none. -/
structure Settings.AreFrom (settings : Settings) (value? : Setting → Option String) : Prop where
  host : settings.host = (value? .host).getD defaultHost
  port : (value? .port).elim (settings.port = defaultPort) fun text =>
    readPort text = .ok settings.port
  config : value? .config = some settings.config
  named : settings.config ≠ ""
  logLevel : (value? .logLevel).elim (settings.logLevel = defaultLevel) fun text =>
    readLevel text = .ok settings.logLevel

section Settings

variable {given : Given} {value? : Setting → Option String} {settings : Settings}

theorem Given.complete_eq_ok_iff (isFrom : given.IsFrom value?) :
    given.complete = .ok settings ↔ settings.AreFrom value? := by
  unfold complete
  constructor
  · intro completed
    split at completed
    next => cases completed
    next config isGiven =>
      cases completed
      have isValue := isFrom.config.symm.trans isGiven
      exact ⟨congrArg (Option.getD · defaultHost) isFrom.host,
        isFrom.port.getD_eq_iff.mp rfl, isValue,
        fun isEmpty => isFrom.named (isValue.trans (congrArg some isEmpty)),
        isFrom.logLevel.getD_eq_iff.mp rfl⟩
  · intro areFrom
    rw [isFrom.config, areFrom.config]
    refine congrArg Except.ok ?_
    rw [isFrom.host, isFrom.port.getD_eq_iff.mpr areFrom.port,
      isFrom.logLevel.getD_eq_iff.mpr areFrom.logLevel, ← areFrom.host]

theorem Settings.AreFrom.exists_isFrom (areFrom : settings.AreFrom value?) :
    ∃ given : Given, given.IsFrom value? := by
  have reads {α : Type} {read : String → Except String α} {text : String}
      {text? : Option String} {default value : α} (isText : text? = some text)
      (elim : text?.elim (value = default) fun text => read text = .ok value) :
      ∃ value, read text = .ok value := by
    rw [isText] at elim
    exact ⟨value, elim⟩
  refine Given.exists_isFrom_iff.mpr fun setting value isValue => ?_
  cases setting with
  | host => trivial
  | port => exact reads isValue areFrom.port
  | config =>
    rw [Option.some.inj (isValue.symm.trans areFrom.config)]
    exact areFrom.named
  | logLevel => exact reads isValue areFrom.logLevel

end Settings

/-- Where the value of an option comes from: the arguments or, only where they do not give it, the
environment. -/
def valueFrom (uses : List (Setting × String)) (environment : String → Option String)
    (setting : Setting) : Option String :=
  (uses.lookup setting).or (setting.environmentName?.bind environment)

/-- That settings are those of a command line that can be accepted: it gives no option twice, and
all values can be read. -/
def Accepts (arguments : List String) (environment : String → Option String)
    (settings : Settings) : Prop :=
  ∃ uses, Spells arguments uses ∧ (uses.map Prod.fst).Nodup ∧
    settings.AreFrom (valueFrom uses environment)

/-- The command lines that are accepted are those that can be. -/
theorem read_eq_ok_iff {arguments : List String} {environment : String → Option String}
    {settings : Settings} :
    read arguments environment = .ok settings ↔ Accepts arguments environment settings := by
  have blank : Given.IsFrom {} fun _ => none := ⟨rfl, .none, rfl, nofun, .none⟩
  have all (uses : List (Setting × String)) :
      Given.filled environment Setting.all (fun setting => (uses.lookup setting).or none) =
        valueFrom uses environment := by
    funext setting
    unfold Given.filled valueFrom
    dsimp only
    rw [Option.or_none]
    exact if_pos (by cases setting <;> decide)
  unfold read
  rw [bind_eq_ok_iff]
  constructor
  · intro accepted
    obtain ⟨given, taken, rest⟩ := accepted
    obtain ⟨final, filled, completed⟩ := bind_eq_ok_iff.mp rest
    obtain ⟨uses, spells, takesAll⟩ := readArguments_eq_ok_iff.mp taken
    obtain ⟨nodup, -, isFrom⟩ := (Given.takeAll_eq_ok_iff blank).mp takesAll
    have isFrom' := (Given.takeVariables_eq_ok_iff isFrom).mp filled
    rw [all] at isFrom'
    exact ⟨uses, spells, nodup, (Given.complete_eq_ok_iff isFrom').mp completed⟩
  · intro accepts
    obtain ⟨uses, spells, nodup, areFrom⟩ := accepts
    obtain ⟨final, isFrom'⟩ := areFrom.exists_isFrom
    -- What the arguments give can be read, since it is among what is given in the end.
    have takes : ∀ setting value, (uses.lookup setting).or none = some value →
        setting.Takes value := by
      intro setting value isValue
      refine Given.exists_isFrom_iff.mp ⟨final, isFrom'⟩ setting value ?_
      rw [Option.or_none] at isValue
      unfold valueFrom
      rw [isValue]
      rfl
    obtain ⟨given, isFrom⟩ := Given.exists_isFrom_iff.mpr takes
    have takesAll := (Given.takeAll_eq_ok_iff blank).mpr ⟨nodup, fun _ _ => rfl, isFrom⟩
    refine ⟨given, spells.readArguments takesAll, bind_eq_ok_iff.mpr ⟨final, ?_, ?_⟩⟩
    · rw [← all] at isFrom'
      exact (Given.takeVariables_eq_ok_iff isFrom).mpr isFrom'
    · exact (Given.complete_eq_ok_iff isFrom').mpr areFrom

/-- The configuration is the one that the arguments name or, only where they name none, the
environment. -/
theorem Accepts.config {arguments : List String} {environment : String → Option String}
    {settings : Settings} {uses : List (Setting × String)}
    (accepts : Accepts arguments environment settings) (spells : Spells arguments uses) :
    (∀ value, (.config, value) ∈ uses → settings.config = value) ∧
      ((∀ value, (.config, value) ∉ uses) →
        environment "SIGNER_CONFIG" = some settings.config) := by
  obtain ⟨others, spells', nodup, areFrom⟩ := accepts
  obtain rfl := spells.unique spells'
  have isValue : (uses.lookup .config).or (environment "SIGNER_CONFIG") = some settings.config :=
    areFrom.config
  constructor
  · intro value isUsed
    rw [(Given.lookup_eq_some_iff_mem nodup).mpr isUsed] at isValue
    exact (Option.some.inj isValue).symm
  · intro unused
    cases named : uses.lookup .config with
    | none => rwa [named] at isValue
    | some value => exact absurd ((Given.lookup_eq_some_iff_mem nodup).mp named) (unused value)

/-! ## Help -/

section Help

variable {given : Given}

theorem Given.takeVariable_ne_help {environment : String → Option String} {setting : Setting} :
    takeVariable environment given setting ≠ .error .help := by
  unfold takeVariable
  split
  next => exact nofun
  next =>
    split
    next => exact set_ne_help
    next => exact nofun

theorem Given.takeVariables_ne_help {environment : String → Option String}
    {settings : List Setting} :
    settings.foldlM (takeVariable environment) given ≠ .error .help := by
  induction settings generalizing given with
  | nil => exact nofun
  | cons setting settings ih =>
    rw [List.foldlM_cons]
    exact bind_ne_error takeVariable_ne_help fun _ => ih

theorem Given.complete_ne_help : given.complete ≠ .error .help := by
  unfold complete
  split <;> exact nofun

/-- Help is shown only if an argument asks for it. -/
theorem asks_of_read {arguments : List String} {environment : String → Option String}
    (asks : read arguments environment = .error .help) :
    ∃ argument ∈ arguments, AsksForHelp argument := by
  by_cases inArguments : readArguments {} none arguments = .error .help
  · exact exists_of_readArguments inArguments
  · have behind (given : Given) : (Setting.all.foldlM (Given.takeVariable environment) given >>=
        Given.complete) ≠ .error .help :=
      bind_ne_error Given.takeVariables_ne_help fun _ => Given.complete_ne_help
    exact absurd asks (bind_ne_error inArguments behind)

end Help

end Signet.CommandLine
