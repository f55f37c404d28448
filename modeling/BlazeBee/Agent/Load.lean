import BlazeBee.Agent.Config
import BlazeBee.Agent.EnvTree
import BlazeBee.Lib.Utf8

/-!
From a file to an accepted configuration (`config/mod.rs`).

The TOML library and the file system are parameters; so is what `gethostname` writes.
The stages of `Config.load` are the file, the TOML tree, the references in its strings,
the sections, the client identifier, and validation.

* `hostname_spec`: whatever the kernel reports, the host name is a name.
* `clientId_spec`, `clientId_never_rejected`: so the identifier that stands in for an empty
  one passes validation.
* `load_spec`: what a loaded configuration went through; every error is the one of the
  first stage that failed.
-/

namespace BlazeBee.Agent

open BlazeBee.Lib BlazeBee.Rumqttc

/-! ### The host name -/

/-- What `gethostname` returns, and the buffer that it leaves. -/
structure HostnameCall where
  rc : Int
  buf : List UInt8
  length : buf.length = 256

/-- Host name as reported by the kernel, or `unknown`. -/
def hostname (call : HostnameCall) : String :=
  if call.rc ≠ 0 then "unknown"
  else
    let buf := call.buf.set (call.buf.length - 1) 0
    let stop := (buf.findIdx? (· == 0)).getD 0
    match Utf8.decode (buf.take stop) with
    | some name => if name.isEmpty then "unknown" else String.ofList name
    | none => "unknown"

/-- What may stand for a host in a client identifier. -/
structure IsHostname (name : String) : Prop where
  nonempty : name ≠ ""
  no_nul : Char.ofNat 0 ∉ name.toList
  short : name.utf8ByteSize ≤ 255

/-- The fallback is a host name like any other. -/
theorem isHostname_unknown : IsHostname "unknown" := ⟨by decide, by decide, by decide⟩

/-- The buffer ends with a NUL, so one is found, and none stands before it. -/
theorem stop_spec {buf : List UInt8} (nonempty : buf ≠ []) :
    ∃ stop, (buf.set (buf.length - 1) 0).findIdx? (· == 0) = some stop ∧
      stop ≤ buf.length - 1 ∧ (0 : UInt8) ∉ (buf.set (buf.length - 1) 0).take stop := by
  have inside : buf.length - 1 < buf.length :=
    Nat.sub_lt (List.length_pos_of_ne_nil nonempty) Nat.one_pos
  have last : (buf.set (buf.length - 1) 0)[buf.length - 1]? = some 0 :=
    List.getElem?_set_self inside
  cases found : (buf.set (buf.length - 1) 0).findIdx? (· == 0) with
  | none =>
      have absent := List.findIdx?_eq_none_iff.mp found 0 (List.mem_of_getElem? last)
      cases absent
  | some stop =>
      obtain ⟨bound, -, before⟩ := List.findIdx?_eq_some_iff_getElem.mp found
      rw [List.length_set] at bound
      refine ⟨stop, rfl, Nat.le_sub_one_of_lt bound, fun mem => ?_⟩
      obtain ⟨i, small, same⟩ := List.mem_iff_getElem.mp mem
      rw [List.length_take] at small
      rw [List.getElem_take] at same
      exact before i (by omega) (by simp [same])

/-- Whatever the kernel reports: a name without NUL, within 255 bytes. -/
theorem hostname_spec (call : HostnameCall) : IsHostname (hostname call) := by
  unfold hostname
  split_ifs with failed
  · exact isHostname_unknown
  · have nonempty : call.buf ≠ [] := by
      intro empty
      have length := call.length
      rw [empty] at length
      cases length
    obtain ⟨stop, found, small, no_nul⟩ := stop_spec nonempty
    simp only [found, Option.getD_some]
    split
    · next name decoded =>
        have bytes := Utf8.decode_eq_some_iff.mp decoded
        split_ifs with empty
        · exact isHostname_unknown
        · refine ⟨fun same => empty ?_, fun mem => no_nul ?_, ?_⟩
          · rw [← String.toList_ofList (l := name), same]
            rfl
          · rw [String.toList_ofList] at mem
            rw [← bytes]
            exact Utf8.mem_utf8_of_mem rfl mem
          · have length := call.length
            rw [Utf8.utf8ByteSize_ofList, bytes, List.length_take, List.length_set]
            omega
    · exact isHostname_unknown

/-! ### The client identifier -/

/-- An empty client identifier is replaced by one that names the host. -/
def Config.withClientId (self : Config) (call : HostnameCall) : Config :=
  if self.transport.clientId.isEmpty then
    { self with transport := { self.transport with clientId := "blazebee-" ++ hostname call } }
  else self

/-- An empty client id is replaced by one with the host name; another one is kept. -/
theorem clientId_of_withClientId (self : Config) (call : HostnameCall) :
    (self.withClientId call).transport.clientId =
      if self.transport.clientId = "" then "blazebee-" ++ hostname call
      else self.transport.clientId := by
  unfold Config.withClientId
  by_cases empty : self.transport.clientId = ""
  · simp [empty]
  · simp [empty]

/-- The identifier that is filled in is not empty and has no NUL; an identifier of the
file keeps its characters. -/
theorem clientId_spec (self : Config) (call : HostnameCall) :
    (self.withClientId call).transport.clientId ≠ "" ∧
      (Char.ofNat 0 ∈ (self.withClientId call).transport.clientId.toList →
        Char.ofNat 0 ∈ self.transport.clientId.toList) := by
  rw [clientId_of_withClientId]
  split_ifs with empty
  · constructor
    · intro same
      have lists := congrArg String.toList same
      rw [String.toList_append] at lists
      exact List.append_ne_nil_of_left_ne_nil (by decide) _ lists
    · intro mem
      rw [String.toList_append, List.mem_append] at mem
      rcases mem with own | host
      · exact absurd own (by decide)
      · exact absurd host (hostname_spec call).no_nul
  · exact ⟨empty, id⟩

/-- No configuration is refused for the identifier that was filled in. -/
theorem clientId_never_rejected (self : Config) (call : HostnameCall)
    (absent : self.transport.clientId = "") (isFile : String → Bool) {e : Transport.ConfigError}
    (refused : (self.withClientId call).transport.validate isFile = .error e) :
    e.field ≠ "client_id" := by
  obtain ⟨nonempty, no_nul⟩ := clientId_spec self call
  have named : (self.withClientId call).transport.clientId.isEmpty = false := by
    simpa using nonempty
  have clean : Text.contains (self.withClientId call).transport.clientId (Char.ofNat 0) =
      false := by
    rw [Text.contains_eq_false_iff]
    intro mem
    have own := no_nul mem
    rw [absent] at own
    cases own
  simp only [Transport.Config.validate, bind_unit_eq_error_iff, rejectIf_eq_error, named, clean,
    Bool.false_eq_true, false_and, false_or] at refused
  rcases refused with ⟨-, rfl⟩ | ⟨-, refused⟩
  · decide
  rcases refused with ⟨-, rfl⟩ | ⟨-, -, -, refused⟩
  · decide
  rcases refused with ⟨-, rfl⟩ | ⟨-, ⟨-, rfl⟩ | ⟨-, ⟨-, rfl⟩ | ⟨-, ⟨-, rfl⟩ | ⟨-, refused⟩⟩⟩⟩
  · decide
  · decide
  · decide
  · decide
  rcases refused with ⟨-, rfl⟩ | ⟨-, topic | ⟨-, tls⟩⟩
  · decide
  · rw [Transport.field_of_validateTopicChars topic]
    decide
  · intro same
    have field := Transport.field_of_tls tls
    rw [same] at field
    exact absurd field (by decide)

/-! ### Loading -/

/-- `ConfigError`; what validation reports is kept as it is. -/
inductive LoadError (ParseError : Type) where
  | notFound
  | io (path : String) (source : IoError)
  | env (path : String) (source : EnvError)
  | parse (path : String) (source : ParseError)
  | rejected (e : ConfigError)
deriving DecidableEq, Repr

/-- The variable that names the file. -/
def envConfigPath : String := "BLAZEBEE_CONFIG"
/-- The file to read without the variable. -/
def defaultConfigPath : String := "/etc/blazebee/config.toml"

/-- The TOML library: the tree of a text, and the sections of a tree. -/
structure Toml (Literal ParseError : Type) where
  fromStr : String → Except ParseError (Value Literal)
  tryInto : Value Literal → Except ParseError Config

/-- What loading asks of the host. -/
structure Host where
  /-- `std::env::var`, and `std::env::var_os` for the path. -/
  var : String → Option String
  readToString : String → Except IoError String
  gethostname : HostnameCall
  environment : Environment

variable {Literal ParseError : Type} (toml : Toml Literal ParseError)

namespace Config

/-- Parses `text`, resolving `${NAME}` in string values through `lookup`, then
validates. -/
def parse (host : Host) (text path : String) (lookup : String → Option String) :
    Except (LoadError ParseError) Config :=
  match toml.fromStr text with
  | .error source => .error (.parse path source)
  | .ok table =>
      match expandValue lookup table with
      | (_, .error source) => .error (.env path source)
      | (table, .ok ()) =>
          match toml.tryInto table with
          | .error source => .error (.parse path source)
          | .ok config =>
              let config := config.withClientId host.gethostname
              match config.validate host.environment with
              | .error e => .error (.rejected e)
              | .ok () => .ok config

/-- Loads the configuration of one file. -/
def fromPath (host : Host) (path : String) : Except (LoadError ParseError) Config :=
  match host.readToString path with
  | .error source => .error (.io path source)
  | .ok text => parse toml host text path host.var

/-- The path that the environment names, or the default one. -/
def path (host : Host) : Option String :=
  match host.var envConfigPath with
  | some path => some path
  | none => if host.environment.isFile defaultConfigPath then some defaultConfigPath else none

/-- Loads the configuration from `BLAZEBEE_CONFIG` or the default path. -/
def load (host : Host) : Except (LoadError ParseError) Config :=
  match path host with
  | some path => fromPath toml host path
  | none => .error .notFound

/-! ### Stage by stage -/

variable {toml} {host : Host}

/-- Every reference in a string is to a variable that is set. -/
def Resolves (host : Host) (table : Value Literal) : Prop :=
  ∀ s ∈ table.strings, ∃ t, expand s host.var = .ok t

/-- A table whose strings can all be expanded is expanded string by string. -/
theorem expandValue_of_resolves {table : Value Literal} (resolves : Resolves host table) :
    expandValue host.var table = (table.mapStrings (expanded host.var), .ok ()) := by
  rw [expandValue_eq]
  exact Value.traverse_of_ok table fun s mem => expand_of_ok (resolves s mem)

/-- The first string that cannot be expanded ends the stage. -/
theorem expandValue_of_first {table : Value Literal} {earlier later : List String} {s : String}
    {source : EnvError} (split : table.strings = earlier ++ s :: later)
    (before : ∀ r ∈ earlier, ∃ t, expand r host.var = .ok t)
    (fails : expand s host.var = .error source) :
    (expandValue host.var table).2 = .error source := by
  rw [expandValue_eq, Value.traverse_result, split]
  exact checkAll_of_first before fails

/-- The sections of the file at `path`, before anything is filled in. -/
structure Sections (toml : Toml Literal ParseError) (host : Host) (path : String)
    (raw : Config) : Prop where
  found : Config.path host = some path
  read : ∃ text table, host.readToString path = .ok text ∧ toml.fromStr text = .ok table ∧
    Resolves host table ∧ toml.tryInto (table.mapStrings (expanded host.var)) = .ok raw

/-- The first stage that fails, and what it reports. -/
inductive LoadFailed (toml : Toml Literal ParseError) (host : Host) :
    LoadError ParseError → Prop where
  | notFound : path host = none → LoadFailed toml host .notFound
  | io {path : String} {source : IoError} : Config.path host = some path →
      host.readToString path = .error source → LoadFailed toml host (.io path source)
  | text {path text : String} {source : ParseError} : Config.path host = some path →
      host.readToString path = .ok text → toml.fromStr text = .error source →
      LoadFailed toml host (.parse path source)
  | env {path text : String} {table : Value Literal} {earlier later : List String} {s : String}
      {source : EnvError} : Config.path host = some path →
      host.readToString path = .ok text → toml.fromStr text = .ok table →
      table.strings = earlier ++ s :: later →
      (∀ r ∈ earlier, ∃ t, expand r host.var = .ok t) → expand s host.var = .error source →
      LoadFailed toml host (.env path source)
  | sections {path text : String} {table : Value Literal} {source : ParseError} :
      Config.path host = some path → host.readToString path = .ok text →
      toml.fromStr text = .ok table → Resolves host table →
      toml.tryInto (table.mapStrings (expanded host.var)) = .error source →
      LoadFailed toml host (.parse path source)
  | rejected {path : String} {raw : Config} {e : ConfigError} : Sections toml host path raw →
      (raw.withClientId host.gethostname).validate host.environment = .error e →
      LoadFailed toml host (.rejected e)

/-- The sections decide what is left. -/
theorem load_of_sections {path : String} {raw : Config} (sections : Sections toml host path raw) :
    load toml host =
      match (raw.withClientId host.gethostname).validate host.environment with
      | .error e => .error (.rejected e)
      | .ok () => .ok (raw.withClientId host.gethostname) := by
  obtain ⟨found, text, table, read, tree, resolves, into⟩ := sections
  simp only [load, found, fromPath, read, parse, tree, expandValue_of_resolves resolves, into]

/-- Each stage that fails is reported as its own kind of error. -/
theorem load_of_failed {e : LoadError ParseError} (failed : LoadFailed toml host e) :
    load toml host = .error e := by
  cases failed with
  | notFound absent => simp only [load, absent]
  | io found fails => simp only [load, found, fromPath, fails]
  | text found read fails => simp only [load, found, fromPath, read, parse, fails]
  | @env path text table earlier later s source found read tree split before fails =>
      have stops := expandValue_of_first split before fails
      simp only [load, found, fromPath, read, parse, tree]
      generalize expandValue host.var table = next at stops
      obtain ⟨table', result⟩ := next
      obtain rfl : result = .error source := stops
      rfl
  | sections found read tree resolves fails =>
      simp only [load, found, fromPath, read, parse, tree, expandValue_of_resolves resolves, fails]
  | rejected sections fails => rw [load_of_sections sections, fails]

/-- Loading gets as far as the sections, or fails before. -/
theorem sections_or_failed (toml : Toml Literal ParseError) (host : Host) :
    (∃ path raw, Sections toml host path raw) ∨ ∃ e, LoadFailed toml host e := by
  cases found : Config.path host with
  | none => exact Or.inr ⟨_, .notFound found⟩
  | some path =>
      cases read : host.readToString path with
      | error source => exact Or.inr ⟨_, .io found read⟩
      | ok text =>
          cases tree : toml.fromStr text with
          | error source => exact Or.inr ⟨_, .text found read tree⟩
          | ok table =>
              rcases forall_ok_or_first (fun s => expand s host.var) table.strings with
                resolves | ⟨earlier, s, later, source, split, before, fails⟩
              · cases into : toml.tryInto (table.mapStrings (expanded host.var)) with
                | error source => exact Or.inr ⟨_, .sections found read tree resolves into⟩
                | ok raw => exact Or.inl ⟨path, raw, found, text, table, read, tree, resolves, into⟩
              · exact Or.inr ⟨_, .env found read tree split before fails⟩

/-- An error of the transport section comes from its own validation. -/
theorem transport_of_validate {env : Environment} {self : Config} {e : Transport.ConfigError}
    (fails : self.validate env = .error (.transport e)) :
    self.transport.validate env.isFile = .error e := by
  simp only [Config.validate, bind_unit_eq_error_iff, mapError_eq_error_iff,
    rejectIf_eq_error] at fails
  rcases fails with ⟨e', -, same⟩ | ⟨-, ⟨e', -, same⟩ | ⟨-, unknown | ⟨-, transport⟩⟩⟩
  · cases same
  · cases same
  · unfold checkCollectors at unknown
    split at unknown <;> cases unknown
  · rcases transport with ⟨e', own, same⟩ | ⟨-, -, same⟩
    · obtain rfl := ConfigError.transport.inj same
      exact own
    · cases same

/-- Loading succeeds with exactly the configuration that went through every stage, and
fails with exactly the error of the first stage that fails; the identifier of what was
loaded is not empty, and no file is refused for leaving it out. -/
theorem load_spec (toml : Toml Literal ParseError) (host : Host) :
    (∀ config, load toml host = .ok config ↔ ∃ path raw, Sections toml host path raw ∧
      config = raw.withClientId host.gethostname ∧ config.validate host.environment = .ok ()) ∧
    (∀ e, load toml host = .error e ↔ LoadFailed toml host e) ∧
    (∀ config, load toml host = .ok config → config.transport.clientId ≠ "") ∧
    ∀ path raw e, Sections toml host path raw → raw.transport.clientId = "" →
      load toml host = .error (.rejected (.transport e)) → e.field ≠ "client_id" := by
  have ok : ∀ config, load toml host = .ok config ↔ ∃ path raw, Sections toml host path raw ∧
      config = raw.withClientId host.gethostname ∧
      config.validate host.environment = .ok () := by
    intro config
    constructor
    · intro loaded
      rcases sections_or_failed toml host with ⟨path, raw, sections⟩ | ⟨e, failed⟩
      · rw [load_of_sections sections] at loaded
        split at loaded
        · cases loaded
        · next valid =>
            obtain rfl := Except.ok.inj loaded
            exact ⟨path, raw, sections, rfl, valid⟩
      · cases loaded.symm.trans (load_of_failed failed)
    · rintro ⟨path, raw, sections, rfl, valid⟩
      rw [load_of_sections sections, valid]
  have error : ∀ e, load toml host = .error e ↔ LoadFailed toml host e := by
    intro e
    refine ⟨fun failed => ?_, load_of_failed⟩
    rcases sections_or_failed toml host with ⟨path, raw, sections⟩ | ⟨e', failed'⟩
    · have result := load_of_sections sections
      cases valid : (raw.withClientId host.gethostname).validate host.environment with
      | ok u =>
          rw [valid] at result
          cases failed.symm.trans result
      | error e' =>
          rw [valid] at result
          obtain rfl := Except.error.inj (failed.symm.trans result)
          exact .rejected sections valid
    · obtain rfl := Except.error.inj (failed.symm.trans (load_of_failed failed'))
      exact failed'
  refine ⟨ok, error, fun config loaded => ?_, fun path raw e sections absent refused => ?_⟩
  · obtain ⟨path, raw, -, rfl, -⟩ := (ok config).mp loaded
    exact (clientId_spec raw host.gethostname).1
  · have result := load_of_sections sections
    rw [refused] at result
    split at result
    · next e' fails =>
        have same : ConfigError.transport e = e' := LoadError.rejected.inj (Except.error.inj result)
        rw [← same] at fails
        exact clientId_never_rejected raw host.gethostname absent _ (transport_of_validate fails)
    · cases result

end Config

end BlazeBee.Agent
