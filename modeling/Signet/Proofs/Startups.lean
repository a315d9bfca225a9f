import Signet.Proofs.CommandLines
import Signet.Proofs.ConfiguredStores
import Signet.Proofs.Utf8
import Signet.Proofs.Violations
import Signet.Startup

/-!
# How the program starts

Starting up goes from one thing that can fail to the next, and what is ready to serve has passed
them all (`Startup.start_eq_ready_iff`): the command line is accepted, the file that it names is a
text, the text is a configuration, and every key of it has been loaded
(`Configuration.load_of_loaded`). Whatever else comes of a start ends with an exit code that tells
of a failure, help alone excepted (`Startup.exits_of_not_ready`).
-/

namespace Signet

/-! ## Files -/

namespace Configuration

variable {path text : String}

theorem ofFile_of_text : ofFile path (.ok (Octets.ofText text)) = ofText text := by
  unfold ofFile
  dsimp only
  rw [Octets.toText?_ofText]

/-- A file that is read is a text. -/
theorem ofFile_eq_ok_iff {file : Except FileFault Octets} {configuration : Configuration} :
    ofFile path file = .ok configuration ↔
      ∃ text, file = .ok (Octets.ofText text) ∧ ofText text = .ok configuration := by
  constructor
  · intro isRead
    unfold ofFile at isRead
    split at isRead
    next => cases isRead
    next octets =>
      split at isRead
      next => cases isRead
      next text isText =>
        rw [Octets.toText?_eq_some_iff.mp isText]
        exact ⟨text, rfl, isRead⟩
  · intro isRead
    obtain ⟨text, rfl, isRead⟩ := isRead
    exact ofFile_of_text.trans isRead

/-- No text is unreadable. -/
theorem ofText_ne_unreadable {fault : FileFault} :
    ofText text ≠ .error (.unreadable path fault) := by
  intro failed
  unfold ofText at failed
  split at failed
  next => cases failed
  next configuration _ =>
    cases validated : configuration.validate with
    | ok _ =>
      rw [validated] at failed
      cases failed
    | error error =>
      rw [validated] at failed
      cases failed
      cases validate_eq_error_iff.mp validated with
      | ofKey _ _ violates => cases violates
      | ofUsage _ _ violates => cases violates

/-- A file is unreadable if reading it fails, or if it is no text. The error has its path. -/
theorem ofFile_eq_unreadable_iff {file : Except FileFault Octets} {named : String}
    {fault : FileFault} :
    ofFile path file = .error (.unreadable named fault) ↔
      named = path ∧ (file = .error fault ∨
        fault = .notUtf8 ∧
          ∃ octets, file = .ok octets ∧ ∀ text, octets ≠ Octets.ofText text) := by
  constructor
  · intro failed
    unfold ofFile at failed
    split at failed
    next =>
      cases failed
      exact ⟨rfl, Or.inl rfl⟩
    next octets =>
      split at failed
      next noText =>
        cases failed
        refine ⟨rfl, Or.inr ⟨rfl, octets, rfl, fun text isText => ?_⟩⟩
        exact nomatch noText.symm.trans (Octets.toText?_eq_some_iff.mpr isText)
      next => exact absurd failed ofText_ne_unreadable
  · intro isUnreadable
    obtain ⟨rfl, rfl | ⟨rfl, octets, rfl, noText⟩⟩ := isUnreadable
    · rfl
    · unfold ofFile
      dsimp only
      cases isText : octets.toText? with
      | none => rfl
      | some text => exact absurd (Octets.toText?_eq_some_iff.mp isText) (noText text)

/-! ## Keys -/

/-- If a store comes of loading a valid configuration, it holds the keys of the configuration, and
each has its line in the log. -/
theorem IsValid.load_of_loaded {configuration : Configuration} {store : KeyStore}
    (isValid : configuration.IsValid) (loaded : configuration.load.store = .ok store) :
    configuration.load = ⟨configuration.keys.map KeyEntry.loaded, .ok store⟩ ∧
      store.Holds configuration.keys := by
  have derivable : ∀ entry ∈ configuration.keys, entry.IsDerivable := by
    intro entry listed
    obtain ⟨key, derived, -⟩ := KeyStore.get?_of_load loaded listed
    exact ⟨key, derived⟩
  obtain ⟨other, isLoaded, holds⟩ := isValid.exists_load derivable
  rw [isLoaded, Except.ok.injEq] at loaded
  rw [loaded] at isLoaded holds
  exact ⟨isLoaded, holds⟩

end Configuration

/-! ## Starts -/

namespace Startup

variable {arguments : List String} {environment : String → Option String}
  {readFile : String → Except FileFault Octets} {settings : CommandLine.Settings}
  {log : List Event} {service : Service}

/-- What is logged before the service of a configuration is ready. -/
def logOf (configuration : Configuration) : List Event :=
  configuration.keys.map KeyEntry.loaded ++ [.keyStoreReady configuration.keys.length]

/-- A start is ready if nothing fails, and then with the configuration of the file that is named. -/
theorem start_eq_ready_iff :
    start arguments environment readFile = ready settings log service ↔
      ∃ text configuration store, CommandLine.Accepts arguments environment settings ∧
        readFile settings.config = .ok (Octets.ofText text) ∧
          Configuration.ofText text = .ok configuration ∧
        configuration.load.store = .ok store ∧ log = logOf configuration ∧
        service = configuration.service store := by
  have logged {configuration : Configuration} {store : KeyStore} {text : String}
      (isRead : Configuration.ofText text = .ok configuration)
      (loaded : configuration.load.store = .ok store) :
      configuration.load.log ++ [.keyStoreReady store.size] = logOf configuration := by
    obtain ⟨isLoaded, holds⟩ := (Configuration.isValid_of_ofText isRead).load_of_loaded loaded
    rw [isLoaded, holds.size]
    rfl
  constructor
  · intro started
    unfold start at started
    split at started
    next => cases started
    next => cases started
    next settings accepted =>
      split at started
      next => cases started
      next configuration isFile =>
        obtain ⟨text, isText, isRead⟩ := Configuration.ofFile_eq_ok_iff.mp isFile
        dsimp only at started
        split at started
        next => cases started
        next store loaded =>
          cases started
          exact ⟨text, configuration, store, CommandLine.read_eq_ok_iff.mp accepted, isText,
            isRead, loaded, logged isRead loaded, rfl⟩
  · intro isReady
    obtain ⟨text, configuration, store, accepts, isText, isRead, loaded, rfl, rfl⟩ := isReady
    unfold start
    rw [CommandLine.read_eq_ok_iff.mpr accepts]
    dsimp only
    rw [isText, Configuration.ofFile_of_text, isRead]
    dsimp only
    rw [loaded]
    dsimp only
    rw [logged isRead loaded]

/-- A start shows help only if an argument asks for it. -/
theorem asks_of_start {lines : List String}
    (started : start arguments environment readFile = help lines) :
    ∃ argument ∈ arguments, CommandLine.AsksForHelp argument := by
  unfold start at started
  split at started
  next asks => exact CommandLine.asks_of_read asks
  next => cases started
  next =>
    split at started
    next => cases started
    next =>
      dsimp only at started
      split at started <;> cases started

/-- A start that is not ready ends with an exit code that tells of a failure, unless it shows help,
and this only if an argument asks for it. -/
theorem exits_of_not_ready
    (notReady : ∀ settings log service,
      start arguments environment readFile ≠ ready settings log service)
    (isInterrupted : Bool) :
    ∃ code, ((start arguments environment readFile).transcript isInterrupted).1 = some code ∧
      (code = 0 → ∃ argument ∈ arguments, CommandLine.AsksForHelp argument) := by
  cases started : start arguments environment readFile with
  | help lines => exact ⟨0, rfl, fun _ => asks_of_start started⟩
  | misuse fault => exact ⟨2, rfl, nofun⟩
  | failed settings log error => exact ⟨1, rfl, nofun⟩
  | ready settings log service => exact absurd started (notReady settings log service)

/-- All that is logged before a service is ready is for information, and shown if that is. -/
theorem shown_logOf (settings : CommandLine.Settings) (configuration : Configuration) :
    shown settings (logOf configuration) =
      if Level.info.verbosity ≤ settings.logLevel.verbosity then
        configuration.keys.map (fun entry => entry.loaded.line) ++
          [s!"INFO signer: key store ready keys={configuration.keys.length}"]
      else [] := by
  have isInfo : ∀ event ∈ logOf configuration, event.level = .info := by
    intro event isLogged
    rcases List.mem_append.mp isLogged with isLoaded | isReady
    · obtain ⟨entry, -, rfl⟩ := List.mem_map.mp isLoaded
      rfl
    · rw [List.mem_singleton.mp isReady]
      rfl
  unfold shown
  split
  next isShown =>
    have all : (logOf configuration).filter
        (fun event => event.level.verbosity ≤ settings.logLevel.verbosity) =
        logOf configuration := by
      refine List.filter_eq_self.mpr fun event isLogged => ?_
      rw [isInfo event isLogged]
      exact decide_eq_true isShown
    rw [all, logOf, List.map_append, List.map_map]
    rfl
  next isHidden =>
    have none : (logOf configuration).filter
        (fun event => event.level.verbosity ≤ settings.logLevel.verbosity) = [] := by
      refine List.filter_eq_nil_iff.mpr fun event isLogged => ?_
      rw [isInfo event isLogged, decide_eq_true_eq]
      exact isHidden
    rw [none]
    rfl

end Startup

/-- **A start fails closed.** The program is ready to serve if and only if its command line is
accepted, the file of its configuration is a text, the text is accepted as a configuration, and all
its keys are loaded; the configuration is the one that the arguments name or, only where they name
none, the environment. Its policy and its store are then those of this configuration, and its log
ends with the number of keys in it. Only such a start goes on running: every other ends with an exit
code, and with that of a success only if an argument asks for help. A file is read as the text in
it, and is unreadable, with its path, if it cannot be read or is no text. -/
theorem starts_fail_closed (arguments : List String) (environment : String → Option String)
    (readFile : String → Except FileFault Octets) :
    let startup := Startup.start arguments environment readFile
    (∀ settings log service, startup = .ready settings log service ↔
      ∃ text configuration store, CommandLine.Accepts arguments environment settings ∧
        readFile settings.config = .ok (Octets.ofText text) ∧
          Configuration.ofText text = .ok configuration ∧
        configuration.load.store = .ok store ∧
        log =
          configuration.keys.map KeyEntry.loaded ++ [.keyStoreReady configuration.keys.length] ∧
        service = configuration.service store) ∧
    (∀ settings uses, CommandLine.Accepts arguments environment settings →
      CommandLine.Spells arguments uses →
      (∀ value, (.config, value) ∈ uses → settings.config = value) ∧
        ((∀ value, (.config, value) ∉ uses) →
          environment "SIGNER_CONFIG" = some settings.config)) ∧
    (∀ text configuration store, Configuration.ofText text = .ok configuration →
      configuration.load.store = .ok store →
      store.Holds configuration.keys ∧ (configuration.service store).signer = store.signer ∧
        ∀ endpoint identifier, identifier ∈
          (configuration.service store).policy.listKeys endpoint ↔
          configuration.Allows endpoint identifier) ∧
    (∀ (settings : CommandLine.Settings) (configuration : Configuration),
      Startup.shown settings
          (configuration.keys.map KeyEntry.loaded ++ [.keyStoreReady configuration.keys.length]) =
        if Level.info.verbosity ≤ settings.logLevel.verbosity then
          configuration.keys.map (fun entry => entry.loaded.line) ++
            [s!"INFO signer: key store ready keys={configuration.keys.length}"]
        else []) ∧
    ((startup.transcript false).1 = none ↔
      ∃ settings log service, startup = .ready settings log service) ∧
    ((∀ settings log service, startup ≠ .ready settings log service) → ∀ isInterrupted,
      ∃ code, (startup.transcript isInterrupted).1 = some code ∧
        (code = 0 → ∃ argument ∈ arguments, CommandLine.AsksForHelp argument)) ∧
    (∀ path text, Configuration.ofFile path (.ok (Octets.ofText text)) =
      Configuration.ofText text) ∧
    ∀ path file named fault, Configuration.ofFile path file = .error (.unreadable named fault) ↔
      named = path ∧ (file = .error fault ∨
        fault = .notUtf8 ∧
          ∃ octets, file = .ok octets ∧ ∀ text, octets ≠ Octets.ofText text) := by
  intro startup
  refine ⟨fun settings log service => Startup.start_eq_ready_iff,
    fun settings uses => CommandLine.Accepts.config,
    fun text configuration store isRead loaded => ?_, Startup.shown_logOf, ?_,
    Startup.exits_of_not_ready,
    fun path text => Configuration.ofFile_of_text,
    fun path file named fault => Configuration.ofFile_eq_unreadable_iff⟩
  · have isValid := Configuration.isValid_of_ofText isRead
    exact ⟨(isValid.load_of_loaded loaded).2, rfl, fun _ _ => Configuration.mem_listKeys_policy⟩
  · constructor
    · intro goesOn
      by_contra notReady
      have never : ∀ settings log service, startup ≠ .ready settings log service :=
        fun settings log service isReady => notReady ⟨settings, log, service, isReady⟩
      obtain ⟨code, exits, -⟩ := Startup.exits_of_not_ready never false
      exact nomatch goesOn.symm.trans exits
    · intro isReady
      obtain ⟨settings, log, service, isReady⟩ := isReady
      rw [isReady]
      rfl

/-- A file that the arguments name counts before one that the environment names, and with no
arguments there has to be a file that can be read. -/
theorem starts_fail_closed_for_named_file :
    let environment : String → Option String :=
      fun name => if name = "SIGNER_CONFIG" then some "other.json" else none
    let readFile : String → Except FileFault Octets := fun path =>
      if path = "signer.json" then
        .ok (Octets.ofText "[[[\"key1\",\"secp256k1\",\"one\"]],[[\"blob\",[\"key1\"]]]]")
      else .error .missing
    (∃ service, Startup.start ["--port", "80", "--config=signer.json"] environment readFile =
      .ready ⟨"127.0.0.1", 80, "signer.json", .info⟩
        [.keyLoaded "key1" "secp256k1", .keyStoreReady 1] service) ∧
    (∀ settings log service, Startup.start [] environment readFile ≠
      .ready settings log service) ∧
      ∃ code, ((Startup.start [] environment readFile).transcript false).1 = some code ∧
        code ≠ 0 := by
  intro environment readFile
  have unread : ∀ settings log service,
      Startup.start [] environment readFile ≠ .ready settings log service := by
    intro settings log service isReady
    cases isReady
  refine ⟨?_, unread, ?_⟩
  · have isRead : Configuration.ofText
        "[[[\"key1\",\"secp256k1\",\"one\"]],[[\"blob\",[\"key1\"]]]]" =
        .ok ⟨[⟨"key1", .secp256k1, "one"⟩], [⟨.blob, ["key1"]⟩]⟩ := rfl
    obtain ⟨store, loaded⟩ :=
      Configuration.exists_load_of_curveKey Secp256k1.PrivateKey.ofSeed?_one
    have spells : CommandLine.Spells ["--port", "80", "--config=signer.json"]
        [(.port, "80"), (.config, "signer.json")] :=
      .apart .port (Or.inr (by decide)) (.joined .config "signer.json" .nil)
    have areFrom : CommandLine.Settings.AreFrom ⟨"127.0.0.1", 80, "signer.json", .info⟩
        (CommandLine.valueFrom [(.port, "80"), (.config, "signer.json")] environment) :=
      ⟨rfl, rfl, rfl, by decide, rfl⟩
    exact ⟨_, ((starts_fail_closed _ environment readFile).1 _ _ _).mpr
      ⟨_, _, store, ⟨_, spells, by decide, areFrom⟩, rfl, isRead, loaded, rfl, rfl⟩⟩
  · obtain ⟨code, exits, asks⟩ :=
      (starts_fail_closed [] environment readFile).2.2.2.2.2.1 unread false
    refine ⟨code, exits, fun isSuccess => ?_⟩
    obtain ⟨argument, isArgument, -⟩ := asks isSuccess
    exact absurd isArgument List.not_mem_nil

end Signet
