import HeteroAccel.Lib.ByteStream
import HeteroAccel.Lib.KeyedMap
import HeteroAccel.Lib.TextLines

/-!
# The file of the profiler

`saveProfile` prints the history of the profiler as JSON by hand, with one field on each line, and
`loadProfile` reads it line by line: a line with a brace begins or ends an object, and in an object
the line is searched for the quoted names of the fields.

Doubles are of any type `δ`, with what the standard library documents of their texts
(`DoubleText`). Directories are not modelled, and neither are errors of the file system behind the
opening of the file.
-/

namespace HeteroAccel.Profiler

open Bytes (ofString ofDecimal ofInt)
open TextLines (quoted after)

/-! ## Characters -/

/-- The bytes that structure a history file. -/
def newline : UInt8 := 10

def quote : UInt8 := 34

def colon : UInt8 := 58

def openBrace : UInt8 := 123

def closeBrace : UInt8 := 125

/-! ## The history -/

/-- What statistics are kept for. -/
structure ProfileKey where
  hardwareId : Bytes := []
  /-- The number of the backend: 0 is the CPU, 1 Vulkan, 2 CUDA. -/
  backend : Int32 := 0
  workloadType : Bytes := []
  modelName : Bytes := []
deriving DecidableEq

/-- The statistics of one key. -/
structure HistoricalStats (δ : Type) where
  sampleCount : UInt64
  emaDurationMs : δ
  variance : δ
  minDurationMs : δ
  maxDurationMs : δ
  failureCount : UInt64
  regressionDetected : Bool

/-- Doubles and their texts. -/
structure DoubleText (δ : Type) where
  /-- `0.0`. -/
  zero : δ
  /-- `-1.0`. -/
  minusOne : δ
  /-- `operator<<`. -/
  print : δ → Bytes
  /-- `std::stod`, which throws when there is no number or it is out of range. -/
  stod : Bytes → Option δ
  /-- `static_cast<uint64_t>`. -/
  toUInt64 : δ → UInt64
  /-- `static_cast<ComputeBackend>`. -/
  toInt32 : δ → Int32
  /-- A printed double consists of digits, signs, points and letters. -/
  print_plain : ∀ d, ∀ c ∈ print d,
    c ≠ newline ∧ c ≠ quote ∧ c ≠ openBrace ∧ c ≠ closeBrace
  /-- A decimal number that a double can be is read up to the character behind it. -/
  stod_ofDecimal : ∀ n : UInt64, n.toNat < 2 ^ 53 → ∃ d,
    stod (ofString " " ++ ofDecimal n.toNat ++ ofString ",") = some d ∧ toUInt64 d = n
  stod_ofInt : ∀ n : Int32, ∃ d,
    stod (ofString " " ++ ofInt n.toInt ++ ofString ",") = some d ∧ toInt32 d = n

variable {δ : Type}

/-- `HistoricalStats` as it is constructed. -/
def HistoricalStats.initial (fmt : DoubleText δ) : HistoricalStats δ where
  sampleCount := 0
  emaDurationMs := fmt.zero
  variance := fmt.zero
  minDurationMs := fmt.minusOne
  maxDurationMs := fmt.minusOne
  failureCount := 0
  regressionDetected := false

/-- The statistics by their keys. -/
abbrev History (δ : Type) := KeyedMap ProfileKey (HistoricalStats δ)

variable (fmt : DoubleText δ)

/-! ## Saving -/

/-- A field whose value is quoted. -/
def stringField (name : String) (value : Bytes) : Bytes :=
  ofString "      \"" ++ ofString name ++ ofString "\": \"" ++ value ++ ofString "\",\n"

/-- A field whose value is a number. -/
def numberField (name : String) (value : Bytes) : Bytes :=
  ofString "      \"" ++ ofString name ++ ofString "\": " ++ value ++ ofString ",\n"

/-- One object, without the end of its last line. -/
def objectText (key : ProfileKey) (stats : HistoricalStats δ) : Bytes :=
  ofString "    \x7b\n" ++
    stringField "hardware_id" key.hardwareId ++
    numberField "backend" (ofInt key.backend.toInt) ++
    stringField "workload_type" key.workloadType ++
    stringField "model_name" key.modelName ++
    numberField "sample_count" (ofDecimal stats.sampleCount.toNat) ++
    numberField "ema_duration_ms" (fmt.print stats.emaDurationMs) ++
    numberField "variance" (fmt.print stats.variance) ++
    numberField "min_duration_ms" (fmt.print stats.minDurationMs) ++
    numberField "max_duration_ms" (fmt.print stats.maxDurationMs) ++
    numberField "failure_count" (ofDecimal stats.failureCount.toNat) ++
    ofString "      \"regression_detected\": " ++
    ofString (if stats.regressionDetected then "true" else "false") ++ ofString "\n" ++
    ofString "    \x7d"

/-- The objects of the loop of `saveProfile`. -/
def objectsText : (first : Bool) → List (ProfileKey × HistoricalStats δ) → Bytes
  | _, [] => []
  | first, (key, stats) :: rest =>
    (if first then [] else ofString ",\n") ++ objectText fmt key stats ++ objectsText false rest

/-- What `saveProfile` writes, when the hash map is visited in the order of `t`. -/
def saveProfile (t : Traversal (Σ _ : ProfileKey, HistoricalStats δ)) (history : History δ) :
    Bytes :=
  ofString "\x7b\n  \"version\": 1,\n  \"profiles\": [\n" ++
    objectsText fmt true ((t.visit history.entries).map fun e => (e.1, e.2)) ++
    ofString "\n  ]\n\x7d\n"

/-! ## Loading -/

/-- `extractStr`: what stands between the third and the fourth quote. -/
def extractStr (line : Bytes) : Bytes :=
  match ((after quote line).bind (after quote)).bind (after quote) with
  | none => []
  | some rest => rest.takeWhile (· ≠ quote)

/-- `extractNum`. -/
def extractNum (line : Bytes) : Option δ :=
  match after colon line with
  | none => some fmt.zero
  | some rest => fmt.stod rest

/-- The line has the quoted name of a field. -/
def HasField (line : Bytes) (name : String) : Prop := quoted quote (ofString name) <:+: line

instance (line : Bytes) (name : String) : Decidable (HasField line name) :=
  inferInstanceAs (Decidable (quoted quote (ofString name) <:+: line))

/-- The variables of the loop of `loadProfile`. -/
structure Reading (δ : Type) where
  loaded : History δ := ∅
  currentKey : ProfileKey := {}
  currentStats : HistoricalStats δ
  inObj : Bool := false

/-- A line in an object. -/
def readField (s : Reading δ) (line : Bytes) : Option (Reading δ) :=
  if HasField line "hardware_id" then
    some { s with currentKey.hardwareId := extractStr line }
  else if HasField line "backend" then
    (extractNum fmt line).map fun d =>
      { s with currentKey.backend := fmt.toInt32 d }
  else if HasField line "workload_type" then
    some { s with currentKey.workloadType := extractStr line }
  else if HasField line "model_name" then
    some { s with currentKey.modelName := extractStr line }
  else if HasField line "sample_count" then
    (extractNum fmt line).map fun d => { s with currentStats.sampleCount := fmt.toUInt64 d }
  else if HasField line "ema_duration_ms" then
    (extractNum fmt line).map fun d => { s with currentStats.emaDurationMs := d }
  else if HasField line "variance" then
    (extractNum fmt line).map fun d => { s with currentStats.variance := d }
  else if HasField line "min_duration_ms" then
    (extractNum fmt line).map fun d => { s with currentStats.minDurationMs := d }
  else if HasField line "max_duration_ms" then
    (extractNum fmt line).map fun d => { s with currentStats.maxDurationMs := d }
  else if HasField line "failure_count" then
    (extractNum fmt line).map fun d => { s with currentStats.failureCount := fmt.toUInt64 d }
  else if HasField line "regression_detected" then
    some { s with currentStats.regressionDetected := decide (ofString "true" <:+: line) }
  else some s

/-- One turn of the loop. -/
def readLine (s : Reading δ) (line : Bytes) : Option (Reading δ) :=
  if openBrace ∈ line ∧ ¬ofString "version" <:+: line then
    some { s with
      inObj := true, currentKey := {}, currentStats := .initial fmt }
  else if closeBrace ∈ line ∧ s.inObj = true then
    some { s with
      inObj := false, loaded := s.loaded.insert s.currentKey s.currentStats }
  else if s.inObj = true then readField fmt s line
  else some s

/-- `loadProfile`, with the content of the file if it can be opened; `none` when it throws. -/
def loadProfile (history : History δ) (file : Option Bytes) : Option (Bool × History δ) :=
  match file with
  | none => some (false, history)
  | some text =>
    ((TextLines.lines newline text).foldlM (readLine fmt)
      { currentStats := .initial fmt }).map fun s => (true, s.loaded)

end HeteroAccel.Profiler
