import BlazeBee.Agent.Config

/-!
The global log subscriber (`logger.rs`).

`init` picks the filter, builds the layers that are enabled and can be had, and installs
them for the whole process. The parser of directives, the environment and the journal are
the host's.

* `init_cases`: what each call comes to, from its inputs and from what is installed.
* `init_eq_ok_iff`: which first calls succeed.
* `filter_of_validate`: an accepted level is never what fails.
-/

namespace BlazeBee.Agent

open BlazeBee.Lib BlazeBee.Rumqttc

/-- How console lines are written. -/
inductive LogFormat where
  | compact
  | pretty
  | json
deriving DecidableEq, Repr

/-- How console lines are stamped. -/
inductive TimestampFormat where
  | rfc3339
  | unix
deriving DecidableEq, Repr

/-- The console section. -/
structure ConsoleConfig where
  enabled : Bool := true
  format : LogFormat := .compact
  showTarget : Bool := false
  showThreadIds : Bool := false
  showSpans : Bool := false
  ansiColors : Bool := true
deriving DecidableEq, Repr

/-- The part of the logger section that validation does not look at. -/
structure LogSections where
  timestampFormat : TimestampFormat := .rfc3339
  console : ConsoleConfig := {}
deriving DecidableEq, Repr

/-- The errors of setting up the logger. -/
inductive LoggerError where
  | level (level source : String)
  | journald (source : IoError)
  | noOutput
  | alreadySet
deriving DecidableEq, Repr

/-- What `init` asks of the host. -/
structure LogHost where
  /-- `std::env::var("RUST_LOG").ok()` -/
  rustLog : Option String
  /-- `EnvFilter::try_new` -/
  tryNew : String → Except String Unit
  /-- `tracing_journald::layer` -/
  journald : Except IoError Unit

/-- `console_layer`. -/
structure ConsoleLayer where
  format : LogFormat
  target : Bool
  threadIds : Bool
  /-- `FmtSpan::CLOSE` rather than `FmtSpan::NONE`. -/
  spanClose : Bool
  ansi : Bool
  timer : TimestampFormat
deriving DecidableEq, Repr

/-- The console layer that a configuration asks for. -/
def consoleLayer (config : ConsoleConfig) (timestamps : TimestampFormat) : ConsoleLayer where
  format := config.format
  target := config.showTarget
  threadIds := config.showThreadIds
  spanClose := config.showSpans
  ansi := config.ansiColors
  timer := timestamps

/-- The global subscriber. -/
structure Subscriber where
  filter : String
  console : Option ConsoleLayer
  /-- The `SYSLOG_IDENTIFIER` of the journal layer. -/
  journald : Option String
deriving DecidableEq, Repr

/-- What a call returns, the subscriber of the process after it, and whether it said on
`stderr` that there is no journal. -/
structure Initialized where
  result : Except LoggerError Unit
  installed : Option Subscriber
  warned : Bool

/-- `RUST_LOG` takes precedence over the configured level. -/
def directives (host : LogHost) (config : LoggerConfig) : String :=
  match host.rustLog with
  | some directives => if directives.isEmpty then config.level else directives
  | none => config.level

/-- Installs the global subscriber. -/
def init (host : LogHost) (installed : Option Subscriber) (config : LoggerConfig)
    (sections : LogSections) : Initialized :=
  let filter := directives host config
  match host.tryNew filter with
  | .error source => ⟨.error (.level filter source), installed, false⟩
  | .ok () =>
      let console := if sections.console.enabled then
          some (consoleLayer sections.console sections.timestampFormat)
        else none
      let finish (journald : Option String) (warned : Bool) : Initialized :=
        if console.isNone && journald.isNone then ⟨.error .noOutput, installed, warned⟩
        else if installed.isSome then ⟨.error .alreadySet, installed, warned⟩
        else ⟨.ok (), some ⟨filter, console, journald⟩, warned⟩
      if config.journald.enabled then
        match host.journald with
        | .ok () => finish (some config.journald.identifier) false
        | .error source =>
            if console.isSome then finish none true
            else ⟨.error (.journald source), installed, false⟩
      else finish none false

/-! ### What a call comes to -/

section Spec

variable {host : LogHost} {installed : Option Subscriber} {config : LoggerConfig}
  {sections : LogSections}

/-- The journal is asked for, and there. -/
def Journaled (host : LogHost) (config : LoggerConfig) : Prop :=
  config.journald.enabled = true ∧ host.journald = .ok ()

/-- The subscriber that a call builds. -/
def subscriber (host : LogHost) (config : LoggerConfig) (sections : LogSections) : Subscriber where
  filter := directives host config
  console := if sections.console.enabled then
      some (consoleLayer sections.console sections.timestampFormat)
    else none
  journald := match config.journald.enabled, host.journald with
    | true, .ok () => some config.journald.identifier
    | _, _ => none

/-- Everything a call can come to. -/
inductive InitCase (host : LogHost) (installed : Option Subscriber) (config : LoggerConfig)
    (sections : LogSections) : Initialized → Prop where
  | level {source : String} {warned : Bool} : host.tryNew (directives host config) = .error source →
      InitCase host installed config sections
        ⟨.error (.level (directives host config) source), installed, warned⟩
  | journald {source : IoError} {warned : Bool} :
      host.tryNew (directives host config) = .ok () → sections.console.enabled = false →
      config.journald.enabled = true → host.journald = .error source →
      InitCase host installed config sections ⟨.error (.journald source), installed, warned⟩
  | noOutput {warned : Bool} : host.tryNew (directives host config) = .ok () →
      sections.console.enabled = false → config.journald.enabled = false →
      InitCase host installed config sections ⟨.error .noOutput, installed, warned⟩
  | alreadySet {warned : Bool} : host.tryNew (directives host config) = .ok () →
      sections.console.enabled = true ∨ Journaled host config → installed.isSome = true →
      InitCase host installed config sections ⟨.error .alreadySet, installed, warned⟩
  | done {warned : Bool} : host.tryNew (directives host config) = .ok () →
      sections.console.enabled = true ∨ Journaled host config → installed = none →
      InitCase host installed config sections
        ⟨.ok (), some (subscriber host config sections), warned⟩

/-- Every outcome of setting up the logger is of one of these kinds. -/
theorem init_cases (host : LogHost) (installed : Option Subscriber) (config : LoggerConfig)
    (sections : LogSections) :
    InitCase host installed config sections (init host installed config sections) := by
  cases parsed : host.tryNew (directives host config) with
  | error source =>
      simp only [init, parsed]
      exact .level parsed
  | ok u =>
      -- What is left once the outputs are known.
      have rest : sections.console.enabled = true ∨ Journaled host config →
          ∀ warned : Bool, InitCase host installed config sections
            (if installed.isSome then ⟨.error .alreadySet, installed, warned⟩
              else ⟨.ok (), some (subscriber host config sections), warned⟩) := by
        intro output warned
        split_ifs with set
        · exact .alreadySet parsed output set
        · exact .done parsed output (by simpa using set)
      cases console : sections.console.enabled with
      | true =>
          cases journald : config.journald.enabled with
          | false =>
              simpa [init, parsed, console, journald, subscriber] using
                rest (Or.inl console) false
          | true =>
              cases available : host.journald with
              | ok u =>
                  simpa [init, parsed, console, journald, available, subscriber] using
                    rest (Or.inl console) false
              | error source =>
                  simpa [init, parsed, console, journald, available, subscriber] using
                    rest (Or.inl console) true
      | false =>
          cases journald : config.journald.enabled with
          | false =>
              simp only [init, parsed, console, journald]
              exact .noOutput parsed console journald
          | true =>
              cases available : host.journald with
              | ok u =>
                  simpa [init, parsed, console, journald, available, subscriber] using
                    rest (Or.inr ⟨journald, available⟩) false
              | error source =>
                  simp only [init, parsed, console, journald, available]
                  exact .journald parsed console journald available

/-- In a process without a subscriber, a call succeeds exactly when the directives parse
and there is some output, and then the subscriber is the one that was asked for, less a
journal that is not there. -/
theorem init_eq_ok_iff :
    (init host none config sections).result = .ok () ↔
      host.tryNew (directives host config) = .ok () ∧
        (sections.console.enabled = true ∨ Journaled host config) := by
  generalize called : init host none config sections = next
  cases called ▸ init_cases host none config sections with
  | level fails => simp [fails]
  | journald parsed console journald missing => simp [parsed, console, Journaled, missing]
  | noOutput parsed console journald => simp [parsed, console, Journaled, journald]
  | alreadySet parsed output set => cases set
  | done parsed output => simp [parsed, output]

/-- A level that validation accepts is one that `init` accepts, where `RUST_LOG` does not
replace it and a level word is a directive. -/
theorem filter_of_validate {env : Environment} (valid : config.validate env = .ok ())
    (same : env.envFilter = host.tryNew)
    (words : ∀ level, env.isLevel level = true → host.tryNew level = .ok ())
    (unset : host.rustLog = none ∨ host.rustLog = some "") :
    host.tryNew (directives host config) = .ok () := by
  have level : directives host config = config.level := by
    rcases unset with none_set | empty
    · simp [directives, none_set]
    · simp [directives, empty]
  rw [level]
  unfold LoggerConfig.validate at valid
  split_ifs at valid with listed
  · obtain ⟨checked, -⟩ := bind_unit_eq_ok_iff.mp valid
    rw [← same]
    exact mapError_eq_ok_iff.mp checked
  · obtain ⟨checked, -⟩ := bind_unit_eq_ok_iff.mp valid
    refine words _ ?_
    simpa using checked

end Spec

end BlazeBee.Agent
