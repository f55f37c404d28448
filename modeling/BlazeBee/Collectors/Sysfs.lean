import BlazeBee.Collectors.ProcFile
import BlazeBee.Lib.Sorted
import Mathlib.Data.Prod.Lex
import Mathlib.Data.String.Basic

/-!
The collectors that go through the directories of a class under `/sys`: temperature sensors,
thermal zones, memory controllers and power supplies.

Each of them lists a directory, passes over what it cannot read, and sorts what it has found
by name, so that `scan` is one definition for all four.

* `scan_eq_ok_iff`: a scan gives the one list that has everything found, in strictly
  increasing order.
* `readings_exact`: what the four collectors find.
* `readings_any_order`: the order in which the kernel lists a directory does not show.
-/

namespace BlazeBee.Collectors

open BlazeBee.Lib BlazeBee.Lib.Decimal BlazeBee.Rumqttc
open BlazeBee.Agent (CollectorError)

/-! ### Directories -/

/-- `Path::join`. -/
def join (dir name : String) : String := dir ++ "/" ++ name

/-- The names of the entries of a directory, less those that cannot be read (`flatten`) and
those that are not UTF-8 (`to_str`). -/
def names (entries : List (Except IoError (List UInt8))) : List String :=
  entries.filterMap fun
    | .error _ => none
    | .ok name => (Utf8.decode name).map String.ofList

/-- A directory tree, as the system calls of one scan show it, which look at every path at
most once. A directory has one entry of a name. -/
structure Tree where
  readDir : String → Except IoError (List (Except IoError (List UInt8)))
  file : String → FileReads 64
  once : ∀ dir entries, readDir dir = .ok entries → (names entries).Nodup

namespace Tree

variable (tree : Tree)

/-- `read_trimmed`. -/
def read (path : String) : Except IoError String := readTrimmed (tree.file path)

/-- `read_trimmed(path).unwrap_or_default()`. -/
def text (path : String) : String := (tree.read path).toOption.getD ""

/-- `read_trimmed(path).ok().and_then(|s| s.parse().ok())`. -/
def number {α : Type} (parse : List Char → Option α) (path : String) : Option α :=
  (tree.read path).toOption.bind fun s => parse s.toList

/-- What `if let Ok(entries) = fs::read_dir(dir)` goes through. -/
def listed (dir : String) : List String :=
  match tree.readDir dir with
  | .error _ => []
  | .ok entries => names entries

/-- Where the directory can be read, its names are those of the entries that could be
read. -/
theorem listed_of_ok {dir : String} {entries : List (Except IoError (List UInt8))}
    (listing : tree.readDir dir = .ok entries) : tree.listed dir = names entries := by
  rw [listed, listing]

/-- A directory lists no name twice, and one that cannot be read lists none. -/
theorem nodup_listed (dir : String) : (tree.listed dir).Nodup := by
  cases listing : tree.readDir dir with
  | error e =>
      rw [listed, listing]
      exact List.nodup_nil
  | ok entries =>
      rw [tree.listed_of_ok listing]
      exact tree.once dir entries listing

/-- The same tree, whose directories may be listed in another order, and with other entries
that cannot be read. -/
structure Same (tree tree' : Tree) : Prop where
  failing : ∀ dir e, tree.readDir dir = .error e ↔ tree'.readDir dir = .error e
  listing : ∀ dir, (tree.listed dir).Perm (tree'.listed dir)
  contents : ∀ path, (tree.file path).text = (tree'.file path).text

end Tree

/-! ### Scans -/

section Scan

variable {σ κ : Type} [LinearOrder κ] (tree : Tree) (root : String) (key : σ → κ)
  (push : String → List σ)

/-- The loop over the entries of a directory, with what it pushes for a name, and the sort
behind it. -/
def scan : Except CollectorError (List σ) :=
  match tree.readDir root with
  | .error e => .error (.read root e)
  | .ok entries => .ok (sortBy key ((names entries).flatMap push))

variable {tree root key push}

/-- A scan fails exactly if the root cannot be listed, with the path and the reason; nothing
below the root makes it fail. -/
theorem scan_eq_error_iff {e : CollectorError} :
    scan tree root key push = .error e ↔
      ∃ source, tree.readDir root = .error source ∧ e = .read root source := by
  rw [scan]
  cases tree.readDir root with
  | error source => simp [eq_comm]
  | ok entries => simp

/-- What a scan pushes for a name has keys of its own. -/
structure Owned (key : σ → κ) (push : String → List σ) (ownerOf : κ → String) : Prop where
  distinct : ∀ name, ((push name).map key).Nodup
  own : ∀ name, ∀ s ∈ push name, ownerOf (key s) = name

/-- A scan gives the one list that has everything found, in strictly increasing order. -/
theorem scan_eq_ok_iff {ownerOf : κ → String} (owned : Owned key push ownerOf) {found : List σ} :
    scan tree root key push = .ok found ↔
      (∃ entries, tree.readDir root = .ok entries) ∧
        (found.Pairwise fun a b => key a < key b) ∧
        ∀ s, s ∈ found ↔ ∃ name ∈ tree.listed root, s ∈ push name := by
  rw [scan]
  cases listing : tree.readDir root with
  | error e => simp
  | ok entries =>
      have once := tree.once root entries listing
      have distinct : (((names entries).flatMap push).map key).Nodup :=
        nodup_flatMap_key once (fun name _ => owned.distinct name) fun name _ => owned.own name
      have strict := sortBy_strict distinct
      have all : ∀ s, s ∈ sortBy key ((names entries).flatMap push) ↔
          ∃ name ∈ tree.listed root, s ∈ push name := fun s => by
        rw [mem_sortBy, List.mem_flatMap, tree.listed_of_ok listing]
      refine ⟨fun same => ?_, fun ⟨_, increasing, exactly⟩ => congrArg Except.ok ?_⟩
      · obtain rfl := Except.ok.inj same
        exact ⟨⟨entries, rfl⟩, strict, all⟩
      · exact eq_of_strict strict increasing fun s => (all s).trans (exactly s).symm

/-- Scans of the same tree that push the same. -/
theorem scan_congr {tree' : Tree} {push' : String → List σ} (same : tree.Same tree')
    {ownerOf : κ → String} (owned : Owned key push ownerOf) (owned' : Owned key push' ownerOf)
    (pushes : ∀ name s, s ∈ push name ↔ s ∈ push' name) :
    scan tree root key push = scan tree' root key push' := by
  cases scanned : scan tree root key push with
  | error e =>
      obtain ⟨source, failed, rfl⟩ := scan_eq_error_iff.mp scanned
      exact (scan_eq_error_iff.mpr ⟨source, (same.failing root source).mp failed, rfl⟩).symm
  | ok found =>
      obtain ⟨⟨entries, listing⟩, strict, all⟩ := (scan_eq_ok_iff owned).mp scanned
      refine ((scan_eq_ok_iff owned').mpr ⟨?_, strict, fun s => ?_⟩).symm
      · cases listing' : tree'.readDir root with
        | ok entries' => exact ⟨entries', rfl⟩
        | error e => cases listing.symm.trans ((same.failing root e).mpr listing')
      · simp only [all, pushes, (same.listing root).mem_iff]

/-- Where an entry pushes one item at most, keyed by its own name, every key has its
entry. -/
theorem owned_toList {item : String → Option σ} {key : σ → String}
    (own : ∀ name, ∀ s ∈ item name, key s = name) :
    Owned key (fun name => (item name).toList) id where
  distinct name := by cases item name <;> simp
  own name s mem := own name s (Option.mem_toList.mp mem)

end Scan

namespace Tree.Same

variable {tree tree' : Tree} (same : tree.Same tree')
include same

/-- Two trees with the same contents are read alike. -/
theorem read (path : String) : tree.read path = tree'.read path := by
  rw [Tree.read, readTrimmed_eq, same.contents, Tree.read, readTrimmed_eq]

/-- So are the attributes that default to an empty text. -/
theorem text (path : String) : tree.text path = tree'.text path := by
  rw [Tree.text, same.read, Tree.text]

/-- And so are those that are numbers. -/
theorem number {α : Type} (parse : List Char → Option α) (path : String) :
    tree.number parse path = tree'.number parse path := by
  rw [Tree.number, same.read, Tree.number]

end Tree.Same

/-! ### The collectors -/

variable {F : Type}

namespace Hwmon

/-- One temperature sensor of a monitoring chip. -/
structure HwmonSensor (F : Type) where
  /-- Device directory, e.g. `hwmon2`. -/
  name : String
  /-- Chip name from the `name` attribute. -/
  chip : String
  /-- Sensor prefix, e.g. `temp1`. -/
  sensor : String
  label : String
  value : F
  unit : String

/-- `file_name.strip_suffix("_input").filter(|s| s.starts_with("temp"))`. -/
def sensorOf (fileName : String) : Option String :=
  (Text.stripSuffix "_input" fileName).filter (Text.startsWith "temp")

/-- What is pushed for a file of a device; `degrees` divides by a thousand. -/
def sensor (tree : Tree) (degrees : Int64 → F) (name dir chip fileName : String) :
    Option (HwmonSensor F) := do
  let sensor ← sensorOf fileName
  let raw ← (tree.read (join dir fileName)).toOption
  let millidegrees ← parseI64 raw.toList
  return {
    name := name
    chip := chip
    sensor := sensor
    label := tree.text (join dir (sensor ++ "_label"))
    value := degrees millidegrees
    unit := "C" }

/-- What is pushed for a device. -/
def device (tree : Tree) (degrees : Int64 → F) (root name : String) : List (HwmonSensor F) :=
  let dir := join root name
  match tree.readDir dir with
  | .error _ => []
  | .ok files =>
      let chip := tree.text (join dir "name")
      (names files).filterMap (sensor tree degrees name dir chip)

/-- Sensors are sorted by their device and then by their own name, as tuples of the source
are. -/
def key (s : HwmonSensor F) : String ×ₗ String := toLex (s.name, s.sensor)

/-- `hwmon::read_sensors`, over the tree below `root`. -/
def readSensors (tree : Tree) (degrees : Int64 → F) (root : String) :
    Except CollectorError (List (HwmonSensor F)) :=
  scan tree root key (device tree degrees root)

end Hwmon

namespace Thermal

/-- A thermal zone, with its temperature in degrees. -/
structure ThermalZoneInfo (F : Type) where
  zoneId : String
  zoneType : String
  temperature : F

/-- What is pushed for an entry; `degrees` divides by a thousand. -/
def zone (tree : Tree) (degrees : Int64 → F) (root name : String) : Option (ThermalZoneInfo F) :=
  if !Text.startsWith "thermal_zone" name then none
  else do
    let dir := join root name
    let raw ← (tree.read (join dir "temp")).toOption
    let millidegrees ← parseI64 raw.toList
    return {
      zoneId := name
      zoneType := tree.text (join dir "type")
      temperature := degrees millidegrees }

/-- `thermal::read_zones`, over the tree below `root`. -/
def readZones (tree : Tree) (degrees : Int64 → F) (root : String) :
    Except CollectorError (List (ThermalZoneInfo F)) :=
  scan tree root ThermalZoneInfo.zoneId fun name => (zone tree degrees root name).toList

end Thermal

namespace Edac

/-- The memory errors that a controller has counted, and the labels of its modules. -/
structure EdacStats where
  controller : String
  correctableErrors : UInt64
  uncorrectableErrors : UInt64
  dimmLabel : String

/-- `name.starts_with("mc")`, and digits behind that. -/
def isController (name : String) : Bool :=
  Text.startsWith "mc" name &&
    (Utf8.utf8 (name.toList.drop 2)).all fun b => 0x30 ≤ b && b ≤ 0x39

/-- The label of a memory module, if it has one. -/
def label (tree : Tree) (dir name : String) : Option String :=
  if Text.startsWith "dimm" name || Text.startsWith "rank" name then
    match tree.read (join (join dir name) "dimm_label") with
    | .ok label => if label.isEmpty then none else some label
    | .error _ => none
  else none

/-- `labels.sort(); labels.join(",")`. -/
def dimmLabel (tree : Tree) (dir : String) : String :=
  ",".intercalate (sortBy id ((tree.listed dir).filterMap (label tree dir)))

/-- What is pushed for an entry. -/
def controller (tree : Tree) (root name : String) : Option EdacStats :=
  if !isController name then none
  else
    let dir := join root name
    some {
      controller := name
      correctableErrors := (tree.number parseU64 (join dir "ce_count")).getD 0
      uncorrectableErrors := (tree.number parseU64 (join dir "ue_count")).getD 0
      dimmLabel := dimmLabel tree dir }

/-- `edac::read_controllers`, over the tree below `root`. -/
def readControllers (tree : Tree) (root : String) : Except CollectorError (List EdacStats) :=
  scan tree root EdacStats.controller fun name => (controller tree root name).toList

end Edac

namespace Power

/-- A power supply. An attribute that the driver does not have, or that is no number, is
absent. -/
structure PowerStats where
  name : String
  supplyType : String
  status : String
  online : Option UInt8
  capacityPercent : Option UInt8
  energyNow : Option UInt64
  energyFull : Option UInt64
  powerNow : Option UInt64
  chargeNow : Option UInt64
  chargeFull : Option UInt64
  currentNow : Option UInt64
  voltageNow : Option UInt64

/-- What is pushed for an entry. -/
def supply (tree : Tree) (root name : String) : PowerStats :=
  let dir := join root name
  { name := name
    supplyType := tree.text (join dir "type")
    status := tree.text (join dir "status")
    online := tree.number parseU8 (join dir "online")
    capacityPercent := tree.number parseU8 (join dir "capacity")
    energyNow := tree.number parseU64 (join dir "energy_now")
    energyFull := tree.number parseU64 (join dir "energy_full")
    powerNow := tree.number parseU64 (join dir "power_now")
    chargeNow := tree.number parseU64 (join dir "charge_now")
    chargeFull := tree.number parseU64 (join dir "charge_full")
    currentNow := tree.number parseU64 (join dir "current_now")
    voltageNow := tree.number parseU64 (join dir "voltage_now") }

/-- `powerstat::read_supplies`, over the tree below `root`. -/
def readSupplies (tree : Tree) (root : String) : Except CollectorError (List PowerStats) :=
  scan tree root PowerStats.name fun name => [supply tree root name]

end Power

/-! ### What they find -/

/-- A reading of a temperature sensor: the device lists a file `temp…_input` with a number. -/
structure Hwmon.Reading (tree : Tree) (degrees : Int64 → F) (root : String)
    (s : HwmonSensor F) : Prop where
  device : s.name ∈ tree.listed root
  listed : s.sensor ++ "_input" ∈ tree.listed (join root s.name)
  temperature : Text.startsWith "temp" s.sensor = true
  value : (tree.number parseI64 (join (join root s.name) (s.sensor ++ "_input"))).map degrees =
    some s.value
  chip : s.chip = tree.text (join (join root s.name) "name")
  label : s.label = tree.text (join (join root s.name) (s.sensor ++ "_label"))
  unit : s.unit = "C"

/-- What a device pushes, from the names in its directory; one that cannot be listed pushes
nothing. -/
theorem Hwmon.device_eq (tree : Tree) (degrees : Int64 → F) (root name : String) :
    device tree degrees root name = (tree.listed (join root name)).filterMap
      (sensor tree degrees name (join root name) (tree.text (join (join root name) "name"))) := by
  rw [device, Tree.listed]
  cases tree.readDir (join root name) with
  | error e => rfl
  | ok files => rfl

/-- A file belongs to a sensor exactly if its name is the sensor's, which begins with `temp`,
and `_input` behind it. -/
theorem Hwmon.sensorOf_eq_some_iff {fileName sensor : String} :
    sensorOf fileName = some sensor ↔
      fileName = sensor ++ "_input" ∧ Text.startsWith "temp" sensor = true := by
  rw [sensorOf, Option.filter_eq_some_iff, Text.stripSuffix_eq_some_iff]

/-- What is pushed for a file, field by field: the file is the input of the sensor, it reads
as a number of millidegrees, and the texts come from the attributes beside it. -/
theorem Hwmon.sensor_eq_some_iff {tree : Tree} {degrees : Int64 → F}
    {name dir chip fileName : String} {s : HwmonSensor F} :
    sensor tree degrees name dir chip fileName = some s ↔
      (fileName = s.sensor ++ "_input" ∧ Text.startsWith "temp" s.sensor = true) ∧
        (tree.number parseI64 (join dir fileName)).map degrees = some s.value ∧
        s.name = name ∧ s.chip = chip ∧ s.label = tree.text (join dir (s.sensor ++ "_label")) ∧
        s.unit = "C" := by
  rw [← sensorOf_eq_some_iff, Tree.number, sensor]
  obtain ⟨name', chip', sensor', label', value', unit'⟩ := s
  cases sensorOf fileName with
  | none => simp
  | some sensor =>
      cases (tree.read (join dir fileName)).toOption with
      | none => simp
      | some raw =>
          cases found : parseI64 raw.toList with
          | none => simp [found]
          | some n =>
              simp only [Option.pure_def, Option.bind_eq_bind, Option.bind_some, found,
                Option.some.injEq, HwmonSensor.mk.injEq, Option.map_some]
              constructor
              · rintro ⟨rfl, rfl, rfl, rfl, rfl, rfl⟩
                exact ⟨rfl, rfl, rfl, rfl, rfl, rfl⟩
              · rintro ⟨rfl, rfl, rfl, rfl, rfl, rfl⟩
                exact ⟨rfl, rfl, rfl, rfl, rfl, rfl⟩

/-- A sensor is pushed by some device exactly if the tree has it as a reading. -/
theorem Hwmon.exists_device_iff {tree : Tree} {degrees : Int64 → F} {root : String}
    {s : HwmonSensor F} :
    (∃ name ∈ tree.listed root, s ∈ device tree degrees root name) ↔
      Reading tree degrees root s := by
  simp only [device_eq, List.mem_filterMap, sensor_eq_some_iff]
  constructor
  · rintro ⟨name, device, fileName, listed, ⟨rfl, temperature⟩, value, rfl, chip, label, unit⟩
    exact ⟨device, listed, temperature, value, chip, label, unit⟩
  · rintro ⟨device, listed, temperature, value, chip, label, unit⟩
    exact ⟨s.name, device, _, listed, ⟨rfl, temperature⟩, value, rfl, chip, label, unit⟩

/-- A reading of a thermal zone. -/
structure Thermal.Reading (tree : Tree) (degrees : Int64 → F) (root : String)
    (s : ThermalZoneInfo F) : Prop where
  listed : s.zoneId ∈ tree.listed root
  zone : Text.startsWith "thermal_zone" s.zoneId = true
  temperature : (tree.number parseI64 (join (join root s.zoneId) "temp")).map degrees =
    some s.temperature
  zoneType : s.zoneType = tree.text (join (join root s.zoneId) "type")

/-- What is pushed for an entry, field by field: it is named as a zone, and its temperature
reads as a number. -/
theorem Thermal.zone_eq_some_iff {tree : Tree} {degrees : Int64 → F} {root name : String}
    {s : ThermalZoneInfo F} :
    zone tree degrees root name = some s ↔
      s.zoneId = name ∧ Text.startsWith "thermal_zone" name = true ∧
        (tree.number parseI64 (join (join root name) "temp")).map degrees = some s.temperature ∧
        s.zoneType = tree.text (join (join root name) "type") := by
  obtain ⟨zoneId, zoneType, temperature⟩ := s
  simp only [zone, Tree.number]
  cases Text.startsWith "thermal_zone" name with
  | false => simp
  | true =>
      cases (tree.read (join (join root name) "temp")).toOption with
      | none => simp
      | some raw =>
          cases found : parseI64 raw.toList with
          | none => simp [found]
          | some n =>
              simp only [Bool.not_true, Bool.false_eq_true, if_false, Option.pure_def,
                Option.bind_eq_bind, Option.bind_some, found, Option.some.injEq,
                ThermalZoneInfo.mk.injEq, Option.map_some, true_and]
              constructor
              · rintro ⟨rfl, rfl, rfl⟩
                exact ⟨rfl, rfl, rfl⟩
              · rintro ⟨rfl, rfl, rfl⟩
                exact ⟨rfl, rfl, rfl⟩

/-- A reading of a memory controller: `mc` and digits. -/
structure Edac.Reading (tree : Tree) (root : String) (s : EdacStats) : Prop where
  listed : s.controller ∈ tree.listed root
  numbered : ∃ digits, s.controller.toList = 'm' :: 'c' :: digits ∧ ∀ c ∈ digits, c.isDigit = true
  correctable : s.correctableErrors =
    (tree.number parseU64 (join (join root s.controller) "ce_count")).getD 0
  uncorrectable : s.uncorrectableErrors =
    (tree.number parseU64 (join (join root s.controller) "ue_count")).getD 0
  dimmLabel : s.dimmLabel = dimmLabel tree (join root s.controller)

/-- A controller's directory is `mc` and decimal digits, of which there may be none: the test
on the rest is true of an empty one. -/
theorem Edac.isController_iff {name : String} :
    isController name = true ↔
      ∃ digits, name.toList = 'm' :: 'c' :: digits ∧ ∀ c ∈ digits, c.isDigit = true := by
  have mc : "mc".toList = ['m', 'c'] := rfl
  rw [isController, Bool.and_eq_true, Text.startsWith, mc, List.isPrefixOf_iff_prefix,
    Utf8.all_isDigit_utf8_iff]
  constructor
  · rintro ⟨⟨digits, split⟩, all⟩
    rw [← split] at all
    exact ⟨digits, split.symm, all⟩
  · rintro ⟨digits, split, all⟩
    rw [split]
    exact ⟨List.prefix_append ['m', 'c'] digits, all⟩

/-- A controller is pushed for some entry exactly if the tree has it as a reading. -/
theorem Edac.exists_controller_iff {tree : Tree} {root : String} {s : EdacStats} :
    (∃ name ∈ tree.listed root, s ∈ (controller tree root name).toList) ↔
      Reading tree root s := by
  obtain ⟨name, correctable, uncorrectable, label⟩ := s
  simp only [Option.mem_toList, controller]
  constructor
  · rintro ⟨name', listed, found⟩
    cases numbered : isController name' with
    | false => simp [numbered] at found
    | true =>
        simp only [numbered, Bool.not_true, Bool.false_eq_true, if_false, Option.some.injEq,
          EdacStats.mk.injEq] at found
        obtain ⟨rfl, rfl, rfl, rfl⟩ := found
        exact ⟨listed, isController_iff.mp numbered, rfl, rfl, rfl⟩
  · rintro ⟨listed, numbered, correctable, uncorrectable, dimmLabel⟩
    dsimp only at listed numbered correctable uncorrectable dimmLabel
    refine ⟨name, listed, ?_⟩
    rw [isController_iff.mpr numbered, correctable, uncorrectable, dimmLabel]
    rfl

/-- A reading of a power supply: whatever is there of one, for every entry. -/
structure Power.Reading (tree : Tree) (root : String) (s : PowerStats) : Prop where
  listed : s.name ∈ tree.listed root
  record : s = supply tree root s.name

/-- The result has exactly the readings, in strictly increasing order; it is an error exactly
when the directory cannot be listed. -/
structure Exactly {σ κ : Type} [LinearOrder κ] (tree : Tree) (root : String) (key : σ → κ)
    (Reading : σ → Prop) (result : Except CollectorError (List σ)) : Prop where
  error : ∀ e, result = .error e ↔
    ∃ source, tree.readDir root = .error source ∧ e = .read root source
  ok : ∀ found, result = .ok found ↔ (∃ entries, tree.readDir root = .ok entries) ∧
    (found.Pairwise fun a b => key a < key b) ∧ ∀ s, s ∈ found ↔ Reading s

section Exactly

variable {σ κ : Type} [LinearOrder κ] {tree : Tree} {root : String} {key : σ → κ}
  {push : String → List σ} {Reading : σ → Prop}

/-- A scan is exact for any description of what is pushed, so that each collector has to give
no more than its description and its owners. -/
theorem exactly_scan {ownerOf : κ → String} (owned : Owned key push ownerOf)
    (pushed : ∀ s, (∃ name ∈ tree.listed root, s ∈ push name) ↔ Reading s) :
    Exactly tree root key Reading (scan tree root key push) where
  error _ := scan_eq_error_iff
  ok found := by simp only [scan_eq_ok_iff owned, pushed]

end Exactly

/-- A sensor's key names the device that pushed it, and a device pushes no two sensors of one
name, as its files have different names. -/
theorem Hwmon.owned (tree : Tree) (degrees : Int64 → F) (root : String) :
    Owned key (device tree degrees root) fun k => (ofLex k).1 where
  distinct name := by
    rw [device_eq, List.map_filterMap]
    refine (tree.nodup_listed _).filterMap fun fileName fileName' k found found' => ?_
    obtain ⟨s, pushed, rfl⟩ := Option.map_eq_some_iff.mp found
    obtain ⟨s', pushed', same⟩ := Option.map_eq_some_iff.mp found'
    -- The file name is the sensor's, which is in the key.
    have sensor : s'.sensor = s.sensor := congrArg (fun k => (ofLex k).2) same
    rw [(sensor_eq_some_iff.mp pushed).1.1, (sensor_eq_some_iff.mp pushed').1.1, sensor]
  own name s mem := by
    rw [device_eq, List.mem_filterMap] at mem
    obtain ⟨fileName, -, found⟩ := mem
    exact (sensor_eq_some_iff.mp found).2.2.1

/-- A zone's key is the entry it was pushed for. -/
theorem Thermal.owned (tree : Tree) (degrees : Int64 → F) (root : String) :
    Owned ThermalZoneInfo.zoneId (fun name => (zone tree degrees root name).toList) id :=
  owned_toList fun _ _ mem => (zone_eq_some_iff.mp mem).1

/-- A controller's key is the entry it was pushed for. -/
theorem Edac.owned (tree : Tree) (root : String) :
    Owned EdacStats.controller (fun name => (controller tree root name).toList) id := by
  refine owned_toList fun name s mem => ?_
  rw [Option.mem_def, controller] at mem
  split_ifs at mem
  rw [← Option.some.inj mem]

/-- A supply's key is the entry it was pushed for. -/
theorem Power.owned (tree : Tree) (root : String) :
    Owned PowerStats.name (fun name => [supply tree root name]) id :=
  @owned_toList _ (fun name => some (supply tree root name)) _ (by rintro name s ⟨⟩; rfl)

section Readings

variable (tree : Tree) (degrees : Int64 → F) (root : String)

/-- Each collector reports exactly what the tree has for it, sorted by name, and nothing
twice. -/
theorem readings_exact :
    Exactly tree root Hwmon.key (Hwmon.Reading tree degrees root)
        (Hwmon.readSensors tree degrees root) ∧
      Exactly tree root Thermal.ThermalZoneInfo.zoneId (Thermal.Reading tree degrees root)
        (Thermal.readZones tree degrees root) ∧
      Exactly tree root Edac.EdacStats.controller (Edac.Reading tree root)
        (Edac.readControllers tree root) ∧
      Exactly tree root Power.PowerStats.name (Power.Reading tree root)
        (Power.readSupplies tree root) := by
  refine ⟨exactly_scan (Hwmon.owned tree degrees root) fun s => Hwmon.exists_device_iff,
    exactly_scan (Thermal.owned tree degrees root) fun s => ?_,
    exactly_scan (Edac.owned tree root) fun s => Edac.exists_controller_iff,
    exactly_scan (Power.owned tree root) fun s => ?_⟩
  · simp only [Option.mem_toList, Thermal.zone_eq_some_iff]
    constructor
    · rintro ⟨name, listed, rfl, zone, temperature, zoneType⟩
      exact ⟨listed, zone, temperature, zoneType⟩
    · rintro ⟨listed, zone, temperature, zoneType⟩
      exact ⟨s.zoneId, listed, rfl, zone, temperature, zoneType⟩
  · simp only [List.mem_singleton]
    constructor
    · rintro ⟨name, listed, rfl⟩
      exact ⟨listed, rfl⟩
    · rintro ⟨listed, record⟩
      exact ⟨s.name, listed, record⟩

variable {tree} {tree' : Tree}

/-- The order in which a device lists its files does not show in which sensors it pushes. -/
theorem Hwmon.mem_device_congr (same : tree.Same tree') (name : String) (s : HwmonSensor F) :
    s ∈ device tree degrees root name ↔ s ∈ device tree' degrees root name := by
  simp only [device_eq, List.mem_filterMap, sensor_eq_some_iff, (same.listing _).mem_iff,
    same.number, same.text]

/-- A zone is read through its contents alone. -/
theorem Thermal.mem_zone_congr (same : tree.Same tree') (name : String)
    (s : ThermalZoneInfo F) :
    s ∈ (zone tree degrees root name).toList ↔ s ∈ (zone tree' degrees root name).toList := by
  simp only [Option.mem_toList, zone_eq_some_iff, same.number, same.text]

/-- The labels are sorted, so that their order does not show either. -/
theorem Edac.dimmLabel_congr (same : tree.Same tree') (dir : String) :
    dimmLabel tree dir = dimmLabel tree' dir := by
  have labels : label tree dir = label tree' dir := by
    funext name
    rw [label, same.read, label]
  have sorted : sortBy id ((tree.listed dir).filterMap (label tree' dir)) =
      sortBy id ((tree'.listed dir).filterMap (label tree' dir)) :=
    sortBy_eq_of_perm ((same.listing dir).filterMap _) fun _ _ _ _ eq => eq
  rw [dimmLabel, labels, sorted, dimmLabel]

/-- A controller is pushed alike from both trees, its joined labels included, since these are
sorted first. -/
theorem Edac.controller_congr (same : tree.Same tree') (name : String) :
    controller tree root name = controller tree' root name := by
  simp only [controller, same.number, dimmLabel_congr same]

/-- A supply is read through its contents alone. -/
theorem Power.supply_congr (same : tree.Same tree') (name : String) :
    supply tree root name = supply tree' root name := by
  simp only [supply, same.number, same.text]

/-- The order in which the directories are listed does not show in what is reported, nor do
the entries that cannot be read. -/
theorem readings_any_order (same : tree.Same tree') :
    Hwmon.readSensors tree degrees root = Hwmon.readSensors tree' degrees root ∧
      Thermal.readZones tree degrees root = Thermal.readZones tree' degrees root ∧
      Edac.readControllers tree root = Edac.readControllers tree' root ∧
      Power.readSupplies tree root = Power.readSupplies tree' root := by
  refine ⟨?_, ?_, ?_, ?_⟩
  · exact scan_congr same (Hwmon.owned tree degrees root) (Hwmon.owned tree' degrees root)
      (Hwmon.mem_device_congr degrees root same)
  · exact scan_congr same (Thermal.owned tree degrees root) (Thermal.owned tree' degrees root)
      (Thermal.mem_zone_congr degrees root same)
  · refine scan_congr same (Edac.owned tree root) (Edac.owned tree' root) fun name s => ?_
    rw [Edac.controller_congr root same]
  · refine scan_congr same (Power.owned tree root) (Power.owned tree' root) fun name s => ?_
    rw [Power.supply_congr root same]

end Readings

/-- A text that is read at once. -/
def textFile (text : String) (runs : (readInto (fun _ n => n) (.ok ())
    [.ok (Utf8.utf8 text.toList), .ok []] "" 64).isSome = true) : FileReads 64 :=
  ⟨.ok (), [.ok (Utf8.utf8 text.toList), .ok []], fun _ n => n, runs⟩

/-- A class with two thermal zones, the temperatures of which are all that can be read. -/
def twoZones (entries : List (Except IoError (List UInt8))) (once : (names entries).Nodup) :
    Tree where
  readDir dir :=
    if dir = "/sys/class/thermal" then .ok entries else .error ⟨.other, "not a directory"⟩
  file path :=
    if path = "/sys/class/thermal/thermal_zone0/temp" then
      textFile "42000\n" (by decide +kernel)
    else if path = "/sys/class/thermal/thermal_zone1/temp" then
      textFile "-500\n" (by decide +kernel)
    else ⟨.error ⟨.other, "no such file"⟩, [], fun _ n => n, rfl⟩
  once dir listed found := by
    split_ifs at found
    exact Except.ok.inj found ▸ once

/-- An entry with that name. -/
def dirEntry (name : String) : Except IoError (List UInt8) := .ok (Utf8.utf8 name.toList)

/-- The root's two zones, in the order of their names. -/
def listedInOrder : List (Except IoError (List UInt8)) :=
  [dirEntry "thermal_zone0", dirEntry "thermal_zone1"]

/-- The same two zones in the other order, with an entry between them that cannot be read. -/
def listedSwapped : List (Except IoError (List UInt8)) :=
  [dirEntry "thermal_zone1", .error ⟨.other, "input/output error"⟩, dirEntry "thermal_zone0"]

/-- The names are those of the two zones. -/
theorem names_listedInOrder : names listedInOrder = ["thermal_zone0", "thermal_zone1"] := by
  decide +kernel

/-- The entry between the two zones has no name. -/
theorem names_listedSwapped : names listedSwapped = ["thermal_zone1", "thermal_zone0"] := by
  decide +kernel

/-- Two zones whose temperatures can be read. -/
def zonesInOrder : Tree := twoZones listedInOrder (by simp [names_listedInOrder])

/-- The same zones, listed the other way round. -/
def zonesSwapped : Tree := twoZones listedSwapped (by simp [names_listedSwapped])

/-- The two trees differ only in how the root is listed. -/
theorem zonesInOrder_same : zonesInOrder.Same zonesSwapped where
  failing dir e := by
    simp only [zonesInOrder, zonesSwapped, twoZones]
    split_ifs <;> simp
  listing dir := by
    simp only [Tree.listed, zonesInOrder, zonesSwapped, twoZones]
    split_ifs
    · simp only [names_listedInOrder, names_listedSwapped]
      exact List.Perm.swap _ _ _
    · exact List.Perm.nil
  contents _ := rfl

/-- Both zones are read, the second one below zero, and neither has a type. -/
theorem readZones_inOrder : Thermal.readZones zonesInOrder Int64.toInt "/sys/class/thermal" =
    .ok [⟨"thermal_zone0", "", 42000⟩, ⟨"thermal_zone1", "", -500⟩] := by
  have first : Thermal.zone zonesInOrder Int64.toInt "/sys/class/thermal" "thermal_zone0" =
      some ⟨"thermal_zone0", "", 42000⟩ :=
    Thermal.zone_eq_some_iff.mpr (by decide +kernel)
  have second : Thermal.zone zonesInOrder Int64.toInt "/sys/class/thermal" "thermal_zone1" =
      some ⟨"thermal_zone1", "", -500⟩ :=
    Thermal.zone_eq_some_iff.mpr (by decide +kernel)
  have listing : zonesInOrder.readDir "/sys/class/thermal" = .ok listedInOrder := rfl
  rw [Thermal.readZones, scan, listing]
  simp only [names_listedInOrder, List.flatMap_cons, List.flatMap_nil, first, second,
    Option.toList_some, List.singleton_append]
  exact congrArg _ (List.mergeSort_of_pairwise (by simp))

/-- Both orders give the two zones, sorted by name. -/
theorem readings_any_order_swapped :
    (Hwmon.readSensors zonesInOrder Int64.toInt "/sys/class/thermal" =
        Hwmon.readSensors zonesSwapped Int64.toInt "/sys/class/thermal" ∧
      Thermal.readZones zonesInOrder Int64.toInt "/sys/class/thermal" =
        Thermal.readZones zonesSwapped Int64.toInt "/sys/class/thermal" ∧
      Edac.readControllers zonesInOrder "/sys/class/thermal" =
        Edac.readControllers zonesSwapped "/sys/class/thermal" ∧
      Power.readSupplies zonesInOrder "/sys/class/thermal" =
        Power.readSupplies zonesSwapped "/sys/class/thermal") ∧
    Thermal.readZones zonesInOrder Int64.toInt "/sys/class/thermal" =
      .ok [⟨"thermal_zone0", "", 42000⟩, ⟨"thermal_zone1", "", -500⟩] :=
  ⟨readings_any_order Int64.toInt "/sys/class/thermal" zonesInOrder_same, readZones_inOrder⟩

end BlazeBee.Collectors
