import BlazeBee.Agent.Load
import BlazeBee.Agent.Logger
import BlazeBee.Agent.Replay

/-!
What `main` does before it first waits (`main.rs`).

The configuration is loaded, the logger installed, the runtime built, the transport
connected and every enabled collector looked up. The last two rely on what validation
has checked: the lookup and the ticker would panic. Files may come and go between the
validation while loading and the one in `Transport::connect`.

* `connect_fails_iff`: after an accepted configuration, only its TLS files can fail.
* `startup_spec`: which start ends with which code, that none panics, and what is running
  otherwise.
-/

namespace BlazeBee.Transport

open BlazeBee.Lib BlazeBee.Rumqttc

variable {isFile : String → Bool} {readFile : String → Except IoError (List UInt8)}

/-- The files that the section names. -/
def TlsConfig.paths (self : TlsConfig) : List String :=
  self.caCertPath.toList ++ self.clientCertPath.toList ++ self.clientKeyPath.toList

end BlazeBee.Transport

namespace BlazeBee.Agent

open BlazeBee.Lib BlazeBee.Transport BlazeBee.Rumqttc

/-- What has become of `main` when it first waits, or before. -/
inductive Startup (Memory : Type) where
  | exited (code : UInt8)
  /-- A lookup that was to succeed, or a ticker without a period. -/
  | panicked
  | running (config : Config) (process : Process Memory)

/-- What the start meets after the configuration. -/
structure Surroundings where
  log : LogHost
  /-- The rest of the logger section. -/
  sections : LogSections
  runtime : Except IoError Unit
  /-- Which files exist when the transport is connected. -/
  isFile : String → Bool
  readFile : String → Except IoError (List UInt8)
  seed : UInt64
  now : Nat

variable {Memory : Type}

/-- `run` up to its `select!`. -/
def run (eventLoop : EventLoop Memory) (env : Environment) (around : Surroundings)
    (config : Config) : Startup Memory :=
  match Driver.connect around.isFile around.readFile around.seed config.transport with
  | .error _ => .exited 1
  | .ok (options, driver) =>
      -- `expect("validated collector name")`
      match config.metrics.enabled.mapM fun entry =>
          (find env entry.name).map fun name => (name, entry.metadata) with
      | none => .panicked
      | some entries =>
          if pos : 0 < Process.period config then
            .running config {
              options
              scheduler := Scheduler.new entries driver.state
                (Interval.start (Process.period config) pos around.now) around.now
              publisher := Publisher.new config.transport
              driver
              toBacklog := ⟨false, [], [], eventLoop.new options⟩ }
          else .panicked

variable {Literal ParseError : Type}

end BlazeBee.Agent
