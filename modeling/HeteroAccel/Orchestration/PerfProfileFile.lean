import HeteroAccel.Lib.TextLines
import HeteroAccel.Lib.Words
import HeteroAccel.Orchestration.PerfProfile

/-!
# The file of a performance profile

`PerfProfile::load` reads the lines that `save` has written: white space separates the fields of a
record, each a name and a value with `=` between them. `save` writes `none` for an empty model hash,
and `load` takes a sample count of zero for one.

A string has a character for each byte. What `std::stof` reads is a parameter.

## Main definitions

* `PerfProfile.load`: the records of a text;
* `RoundTrips`: saving and loading keeps the records, and the keys that further records go by.

## Main results

* `roundTrips_iff`: it is so when no record has an empty model hash or a sample count of zero;
* `not_roundTrips`: a measurement of a model that was not hashed.
-/

namespace HeteroAccel.Orchestration

/-! ## Loading -/

/-- `isspace`. -/
def isSpace (c : Char) : Bool := c = ' ' || ('\t' ≤ c && c ≤ '\r')

/-- `std::stoul` and `std::stoull`: `none` when they throw. -/
def stoul (v : List Char) : Option UInt64 :=
  let v := v.dropWhile isSpace
  let negative := v.head? = some '-'
  let v := if negative || v.head? = some '+' then v.tail else v
  let digits := v.takeWhile Char.isDigit
  let n := Nat.ofDigitChars 10 digits 0
  if digits = [] || 2 ^ 64 ≤ n then none
  else some (if negative then -UInt64.ofNat n else UInt64.ofNat n)

/-- The variables of the loop over the fields of a line. -/
structure LineState (φ : Type) where
  record : PerfRecord φ
  hasBackend : Bool := false
  hasToks : Bool := false

namespace PerfProfile

variable {φ : Type} (ops : ScoreOps φ) (stof : List Char → Option φ)

/-- The field `k` with the value `v`; `none` when a conversion throws. -/
def readField (s : LineState φ) (k v : List Char) : Option (LineState φ) :=
  if k = "backend".toList then
    some { s with record.backendId := String.ofList v, hasBackend := true }
  else if k = "model_hash".toList then
    some { s with record.modelHash := String.ofList v }
  else if k = "quant".toList then
    (stoul v).map fun n => { s with record.quantType := n.toUInt32 }
  else if k = "layers".toList then
    (stoul v).map fun n => { s with record.nLayers := n.toUInt32 }
  else if k = "embd".toList then
    (stoul v).map fun n => { s with record.nEmbd := n.toUInt32 }
  else if k = "toks_per_s".toList then
    (stof v).map fun x => { s with record.tokensPerSecond := x, hasToks := true }
  else if k = "ts".toList then
    (stoul v).map fun n => { s with record.timestampUnix := n }
  else if k = "n".toList then
    (stoul v).map fun n => { s with record.sampleCount := n.toUInt32 }
  else some s

/-- One token of a line. -/
def readToken (s : LineState φ) (token : List Char) : Option (LineState φ) :=
  match TextLines.after '=' token with
  | none => some s
  | some v => readField stof s (token.takeWhile (· ≠ '=')) v

/-- The record of a line, if it has one. -/
def readLine (line : List Char) : Option (PerfRecord φ) :=
  let line := line.dropWhile (· ∈ " \t\r\n".toList)
  if line = [] || line.head? = some '#' then none
  else
    match (Words.words isSpace line).foldlM (readToken stof)
        { record := { backendId := "", modelHash := "", tokensPerSecond := ops.lit 0 } } with
    | none => none
    | some s =>
      if s.hasBackend && s.hasToks && s.record.backendId ≠ "" && s.record.modelHash ≠ "" then
        some { s.record with
          sampleCount := if s.record.sampleCount = 0 then 1 else s.record.sampleCount }
      else none

/-- `load`, with the text of the file if it can be opened. -/
def load (file : Option (List Char)) : PerfProfile φ :=
  match file with
  | none => {}
  | some text => { records := (TextLines.lines '\n' text).filterMap (readLine ops stof) }

/-- The text of the lines that `save` writes. -/
def text (profile : PerfProfile φ) : List Char :=
  (profile.save ops).flatMap fun line => line.toList ++ ['\n']

end PerfProfile

/-! ## The property -/

/-- What is documented of the texts of the speeds: two decimals are read as what they say, and they
are those nearest to the speed. -/
structure SpeedText {φ : Type} (ops : ScoreOps φ) where
  /-- `std::stof`, which throws when there is no number or it is out of range. -/
  stof : List Char → Option φ
  /-- The number that a speed is, if it is finite. -/
  value : φ → Option ℚ
  /-- The speed that has the two decimals. -/
  round : φ → φ
  stof_toFixed : ∀ x, stof (ops.toFixed x).toList = some (round x)
  toFixed_plain : ∀ x, ∀ c ∈ (ops.toFixed x).toList, isSpace c = false
  round_nearest : ∀ x q, value x = some q →
    ∃ hundredths : ℤ, |(hundredths / 100 : ℚ) - q| ≤ 1 / 200 ∧ round x = ops.lit (hundredths / 100)

section Property

variable {φ : Type} {ops : ScoreOps φ}

/-- The fields that records of one workload agree in. -/
def PerfRecord.key (r : PerfRecord φ) : String × String × UInt32 × UInt32 × UInt32 :=
  (r.backendId, r.modelHash, r.quantType, r.nLayers, r.nEmbd)

/-- A measurement with a name for the backend, no white space in it or in the hash, and a positive
speed. -/
structure Measurement.Valid (ops : ScoreOps φ) (m : Measurement φ) : Prop where
  backend : m.backendId ≠ ""
  backend_plain : ∀ c ∈ m.backendId.toList, isSpace c = false
  hash_plain : ∀ c ∈ m.modelHash.toList, isSpace c = false
  speed : ops.le m.tokensPerSecond (ops.lit 0) = false

/-- The profile after the measurements. -/
def PerfProfile.recordAll (ops : ScoreOps φ) (profile : PerfProfile φ) (ms : List (Measurement φ)) :
    PerfProfile φ := ms.foldl (PerfProfile.record ops) profile

/-- What a speed is rounded to when it is finite: the literal of a nearest number of hundredths. -/
def SpeedText.RoundsTo (t : SpeedText ops) (x y : φ) : Prop :=
  ∀ q, t.value x = some q →
    ∃ hundredths : ℤ, |(hundredths / 100 : ℚ) - q| ≤ 1 / 200 ∧ y = ops.lit (hundredths / 100)

/-- What is loaded are the records that were saved, with their speeds rounded to two decimals, and
further measurements have one record for each key. -/
structure RoundTrips (t : SpeedText ops) (profile : PerfProfile φ) : Prop where
  records : (PerfProfile.load ops t.stof (some (profile.text ops))).records =
    profile.records.map fun r => { r with tokensPerSecond := t.round r.tokensPerSecond }
  speeds : ∀ r ∈ profile.records, t.RoundsTo r.tokensPerSecond (t.round r.tokensPerSecond)
  keys : ∀ ms,
    (((PerfProfile.load ops t.stof (some (profile.text ops))).recordAll ops ms).records.map
      PerfRecord.key).Nodup

end Property

/-! ## Numbers -/

theorem isSpace_of_isDigit {c : Char} (h : c.isDigit = true) : isSpace c = false := by
  obtain ⟨hlow, -⟩ := Char.isDigit_iff_toNat.mp h
  have hspace : c ≠ ' ' := by
    rintro rfl
    exact absurd hlow (by decide)
  have hcontrol : ¬c ≤ '\r' := by
    intro hle
    exact absurd (hlow.trans (Char.le_def.mp hle)) (by decide)
  simp [isSpace, hspace, hcontrol]

/-- A number that was printed is read back. -/
theorem stoul_toDigits {n : ℕ} (h : n < 2 ^ 64) :
    stoul (Nat.toDigits 10 n) = some (UInt64.ofNat n) := by
  have hdigits : ∀ c ∈ Nat.toDigits 10 n, c.isDigit = true :=
    fun c hc => Nat.isDigit_of_mem_toDigits (by decide) (by decide) hc
  have hvalue := Nat.ofDigitChars_toDigits (b := 10) (n := n) (by decide) (by decide)
  cases htext : Nat.toDigits 10 n with
  | nil => exact absurd htext Nat.toDigits_ne_nil
  | cons c rest =>
    rw [htext] at hdigits hvalue
    have hc := hdigits c List.mem_cons_self
    have hall : (c :: rest).takeWhile Char.isDigit = c :: rest :=
      List.takeWhile_eq_self_iff.mpr hdigits
    have hminus : c ≠ '-' := by
      rintro rfl
      exact absurd hc (by decide)
    have hplus : c ≠ '+' := by
      rintro rfl
      exact absurd hc (by decide)
    unfold stoul
    simpa [isSpace_of_isDigit hc, hminus, hplus, hall, hvalue] using h

/-! ## Fields -/

/-- A field of a line. -/
def field (name : String) (value : List Char) : List Char := name.toList ++ '=' :: value

section Fields

variable {φ : Type} {ops : ScoreOps φ} {stof : List Char → Option φ} {s : LineState φ}
  {r : PerfRecord φ}

namespace PerfProfile

/-- A word with an equals sign is read as its field. -/
theorem readToken_field {name : String} (hname : '=' ∉ name.toList) (value : List Char) :
    readToken stof s (field name value) = readField stof s name.toList value := by
  unfold readToken field
  rw [TextLines.after_append hname, TextLines.takeWhile_append hname]

/-- The fields of a record in front of the last one. -/
def frontFields (ops : ScoreOps φ) (r : PerfRecord φ) : List (List Char) :=
  [field "backend" r.backendId.toList,
    field "model_hash" (if r.modelHash = "" then "none" else r.modelHash).toList,
    field "quant" (Nat.toDigits 10 r.quantType.toNat),
    field "layers" (Nat.toDigits 10 r.nLayers.toNat),
    field "embd" (Nat.toDigits 10 r.nEmbd.toNat),
    field "toks_per_s" (ops.toFixed r.tokensPerSecond).toList,
    field "ts" (Nat.toDigits 10 r.timestampUnix.toNat)]

/-- The last field of a record, which no comma follows. -/
def lastField (r : PerfRecord φ) : List Char := field "n" (Nat.toDigits 10 r.sampleCount.toNat)

/-- A line is its fields, separated by spaces. -/
theorem toList_line :
    (line ops r).toList = (frontFields ops r).flatMap (· ++ [' ']) ++ lastField r := by
  have h32 : ∀ n : UInt32, (toString n).toList = Nat.toDigits 10 n.toNat := by
    intro n
    rw [show toString n = n.toNat.repr from rfl, Nat.toList_repr]
  have h64 : ∀ n : UInt64, (toString n).toList = Nat.toDigits 10 n.toNat := by
    intro n
    rw [show toString n = n.toNat.repr from rfl, Nat.toList_repr]
  unfold line
  simp only [String.toList_append]
  rw [h32 r.quantType, h32 r.nLayers, h32 r.nEmbd, h64 r.timestampUnix, h32 r.sampleCount]
  simp [frontFields, lastField, field]

/-- A field without white space is one word. -/
theorem isWord_field {name : String} (hname : ∀ c ∈ name.toList, isSpace c = false)
    {value : List Char} (hvalue : ∀ c ∈ value, isSpace c = false) :
    Words.IsWord isSpace (field name value) := by
  refine ⟨by simp [field], fun c hc => ?_⟩
  obtain hc | hc := List.mem_append.mp hc
  · exact hname c hc
  · obtain rfl | hc := List.mem_cons.mp hc
    · rfl
    · exact hvalue c hc

theorem plain_toDigits (n : ℕ) : ∀ c ∈ Nat.toDigits 10 n, isSpace c = false :=
  fun _ hc => isSpace_of_isDigit (Nat.isDigit_of_mem_toDigits (by decide) (by decide) hc)

end PerfProfile

/-- A record that `record` makes has a name for its backend, and no white space. -/
structure PerfRecord.Plain (r : PerfRecord φ) : Prop where
  backend : r.backendId ≠ ""
  backend_plain : ∀ c ∈ r.backendId.toList, isSpace c = false
  hash_plain : ∀ c ∈ r.modelHash.toList, isSpace c = false

/-- The record that is read from the line of a record. -/
def SpeedText.restored (t : SpeedText ops) (r : PerfRecord φ) : PerfRecord φ :=
  { r with
    modelHash := if r.modelHash = "" then "none" else r.modelHash
    tokensPerSecond := t.round r.tokensPerSecond
    sampleCount := if r.sampleCount = 0 then 1 else r.sampleCount }

namespace PerfProfile

/-- All fields of a plain record are words. -/
theorem isWord_fields (t : SpeedText ops) (h : r.Plain) :
    ∀ w ∈ frontFields ops r ++ [lastField r], Words.IsWord isSpace w := by
  have hhash : ∀ c ∈ (if r.modelHash = "" then "none" else r.modelHash).toList,
      isSpace c = false := by
    split_ifs
    · simp [isSpace]
    · exact h.hash_plain
  have hnames : ∀ name ∈ ["backend", "model_hash", "quant", "layers", "embd", "toks_per_s", "ts",
      "n"], ∀ c ∈ name.toList, isSpace c = false := by
    simp [isSpace]
  have hword : ∀ name ∈ ["backend", "model_hash", "quant", "layers", "embd", "toks_per_s", "ts",
      "n"], ∀ value : List Char, (∀ c ∈ value, isSpace c = false) →
        Words.IsWord isSpace (field name value) :=
    fun name hname _ hvalue => isWord_field (hnames name hname) hvalue
  simp only [List.forall_mem_cons] at hword
  simp only [frontFields, lastField, List.cons_append, List.nil_append, List.forall_mem_cons,
    List.not_mem_nil, false_implies, implies_true, and_true]
  obtain ⟨hbackend, hmodel, hquant, hlayers, hembd, htoks, hts, hn, -⟩ := hword
  exact ⟨hbackend _ h.backend_plain, hmodel _ hhash, hquant _ (plain_toDigits _),
    hlayers _ (plain_toDigits _), hembd _ (plain_toDigits _), htoks _ (t.toFixed_plain _),
    hts _ (plain_toDigits _), hn _ (plain_toDigits _)⟩

/-- The fields of a line are read back. -/
theorem words_line (t : SpeedText ops) (h : r.Plain) :
    Words.words isSpace (line ops r).toList = frontFields ops r ++ [lastField r] := by
  have hwords := isWord_fields t h
  rw [toList_line, Words.words_flatMap rfl fun w hw => hwords w (List.mem_append_left _ hw),
    Words.words_of_isWord (hwords _ (List.mem_append_right _ List.mem_cons_self))]

/-- What the fields say. -/
theorem foldlM_readToken (t : SpeedText ops) (s : LineState φ) :
    (frontFields ops r ++ [lastField r]).foldlM (readToken t.stof) s =
      some
        { record := { r with
            modelHash := if r.modelHash = "" then "none" else r.modelHash
            tokensPerSecond := t.round r.tokensPerSecond }
          hasBackend := true
          hasToks := true } := by
  have h32 : ∀ n : UInt32, stoul (Nat.toDigits 10 n.toNat) = some n.toUInt64 := by
    intro n
    rw [stoul_toDigits (by have := n.toNat_lt; omega)]
    simp
  have h64 : ∀ n : UInt64, stoul (Nat.toDigits 10 n.toNat) = some n := by
    intro n
    rw [stoul_toDigits n.toNat_lt]
    simp
  simp [frontFields, lastField, readToken_field, readField, h32, h64, t.stof_toFixed]

/-- The line of a record is read as the record with its substitutions. -/
theorem readLine_line (t : SpeedText ops) (h : r.Plain) :
    readLine ops t.stof (line ops r).toList = some (t.restored r) := by
  have hstart : (line ops r).toList = 'b' :: (line ops r).toList.tail := by
    rw [toList_line]
    simp [frontFields, field]
  have htrim : (line ops r).toList.dropWhile (· ∈ " \t\r\n".toList) = (line ops r).toList := by
    rw [hstart]
    exact List.dropWhile_cons_of_neg (by decide)
  have hnone : (if r.modelHash = "" then "none" else r.modelHash) ≠ "" := by
    split_ifs with hhash
    · decide
    · exact hhash
  unfold readLine
  dsimp only
  rw [htrim, if_neg (by rw [hstart]; simp), words_line t h, foldlM_readToken t]
  dsimp only
  rw [if_pos (by simp [h.backend, hnone])]
  rfl

/-- The line of a plain record is one line. -/
theorem newline_notMem_line (t : SpeedText ops) (h : r.Plain) : '\n' ∉ (line ops r).toList := by
  intro hmem
  -- the characters are those of the words and the spaces behind them
  have hwords := isWord_fields t h
  rw [toList_line, List.mem_append, List.mem_flatMap] at hmem
  obtain ⟨w, hw, hc⟩ | hc := hmem
  · obtain hc | hc := List.mem_append.mp hc
    · exact absurd ((hwords w (List.mem_append_left _ hw)).plain _ hc) (by decide)
    · exact absurd (List.mem_singleton.mp hc) (by decide)
  · exact absurd ((hwords (lastField r) (List.mem_append_right _ List.mem_cons_self)).plain _ hc)
      (by decide)

/-- The header of the file has no record. -/
theorem readLine_header (stof : List Char → Option φ) :
    readLine ops stof "# HeteroAccel performance profile v1".toList = none := by
  have htrim : ("# HeteroAccel performance profile v1".toList).dropWhile
      (· ∈ " \t\r\n".toList) = "# HeteroAccel performance profile v1".toList := rfl
  unfold readLine
  dsimp only
  rw [htrim]
  exact if_pos rfl

/-- The records of the text of a profile. -/
theorem load_text (t : SpeedText ops) {profile : PerfProfile φ}
    (h : ∀ r ∈ profile.records, r.Plain) :
    (load ops t.stof (some (profile.text ops))).records = profile.records.map t.restored := by
  have htext : profile.text ops =
      ((profile.save ops).map String.toList).flatMap (· ++ ['\n']) ++ [] := by
    simp [text, List.flatMap_map]
  have hplain : ∀ l ∈ (profile.save ops).map String.toList, '\n' ∉ l := by
    simp only [save, List.map_cons, List.map_map, List.forall_mem_cons, List.forall_mem_map]
    exact ⟨by decide, fun r hr => newline_notMem_line t (h r hr)⟩
  have hlines : TextLines.lines '\n' (profile.text ops) = (profile.save ops).map String.toList := by
    rw [htext, TextLines.lines_flatMap hplain, TextLines.lines, List.append_nil]
  have hrecords : ((profile.records.map (line ops)).map String.toList).filterMap
      (readLine ops t.stof) = profile.records.map t.restored := by
    rw [List.map_map, List.filterMap_map, ← List.filterMap_eq_map]
    refine List.filterMap_congr fun r hr => ?_
    simp only [Function.comp_apply]
    exact readLine_line t (h r hr)
  calc (load ops t.stof (some (profile.text ops))).records
      = (TextLines.lines '\n' (profile.text ops)).filterMap (readLine ops t.stof) := rfl
    _ = ((profile.save ops).map String.toList).filterMap (readLine ops t.stof) := by rw [hlines]
    _ = ((profile.records.map (line ops)).map String.toList).filterMap (readLine ops t.stof) :=
      List.filterMap_cons_none (readLine_header t.stof)
    _ = profile.records.map t.restored := hrecords

end PerfProfile

end Fields

/-! ## Keys -/

section Keys

variable {φ : Type} {ops : ScoreOps φ} {m : Measurement φ} {r : PerfRecord φ}
  {rs : List (PerfRecord φ)} {profile : PerfProfile φ}

/-- The key of what is measured. -/
def Measurement.key (m : Measurement φ) : String × String × UInt32 × UInt32 × UInt32 :=
  (m.backendId, m.modelHash, m.quantType, m.nLayers, m.nEmbd)

/-- A measurement belongs to the record with its key. -/
theorem Measurement.matchesRecord_iff : m.matchesRecord r = true ↔ r.key = m.key := by
  simp [matchesRecord, PerfRecord.key, key, and_assoc]

namespace PerfProfile

/-- A measurement adds a key that is not there yet. -/
theorem keys_recordIn : (recordIn ops m rs).map PerfRecord.key =
    if m.key ∈ rs.map PerfRecord.key then rs.map PerfRecord.key
    else rs.map PerfRecord.key ++ [m.key] := by
  induction rs with
  | nil => rfl
  | cons r rs ih =>
    unfold recordIn
    by_cases hmatch : m.matchesRecord r = true
    · have hkey := Measurement.matchesRecord_iff.mp hmatch
      rw [if_pos hmatch, if_pos (by simp [hkey])]
      rfl
    · have hkey : m.key ≠ r.key := fun h => hmatch (Measurement.matchesRecord_iff.mpr h.symm)
      rw [if_neg hmatch, List.map_cons, List.map_cons, ih]
      simp only [List.mem_cons, hkey, false_or]
      split_ifs
      · rfl
      · rfl

theorem nodup_keys_record (h : (profile.records.map PerfRecord.key).Nodup)
    (m : Measurement φ) : ((profile.record ops m).records.map PerfRecord.key).Nodup := by
  unfold record
  split_ifs
  · exact h
  · rw [keys_recordIn]
    split_ifs with hmem
    · exact h
    · exact List.nodup_append.mpr ⟨h, List.nodup_singleton _, by simpa using hmem⟩

/-- There is one record for each key after any measurements. -/
theorem nodup_keys_recordAll (h : (profile.records.map PerfRecord.key).Nodup)
    (ms : List (Measurement φ)) :
    ((profile.recordAll ops ms).records.map PerfRecord.key).Nodup := by
  induction ms generalizing profile with
  | nil => exact h
  | cons m ms ih => exact ih (nodup_keys_record h m)

/-- The records after a measurement: the old ones, the first one of the workload updated, or a new
one. -/
theorem mem_recordIn (h : r ∈ recordIn ops m rs) :
    r ∈ rs ∨ r = m.toRecord ∨ ∃ r', rs.find? m.matchesRecord = some r' ∧ r = m.update ops r' := by
  induction rs with
  | nil => exact .inr (.inl (List.mem_singleton.mp h))
  | cons r₀ rs ih =>
    unfold recordIn at h
    by_cases hmatch : m.matchesRecord r₀ = true
    · rw [if_pos hmatch] at h
      rw [List.find?_cons_of_pos hmatch]
      obtain rfl | h := List.mem_cons.mp h
      · exact .inr (.inr ⟨r₀, rfl, rfl⟩)
      · exact .inl (List.mem_cons_of_mem _ h)
    · rw [if_neg hmatch] at h
      rw [List.find?_cons_of_neg hmatch]
      obtain rfl | h := List.mem_cons.mp h
      · exact .inl List.mem_cons_self
      · exact (ih h).imp_left (List.mem_cons_of_mem _)

/-- A valid measurement keeps the records plain. -/
theorem plain_record (h : ∀ r ∈ profile.records, r.Plain) (hm : m.Valid ops) :
    ∀ r ∈ (profile.record ops m).records, r.Plain := by
  unfold record
  rw [if_neg (by simp [hm.backend, hm.speed])]
  intro r hr
  obtain hr | rfl | ⟨r', hfind, rfl⟩ := mem_recordIn hr
  · exact h r hr
  · exact ⟨hm.backend, hm.backend_plain, hm.hash_plain⟩
  · obtain ⟨hbackend, hplain, hhash⟩ := h r' (List.mem_of_find?_eq_some hfind)
    exact ⟨hbackend, hplain, hhash⟩

/-- Valid measurements keep the records plain. -/
theorem plain_recordAll (h : ∀ r ∈ profile.records, r.Plain) {ms : List (Measurement φ)}
    (hms : ∀ m ∈ ms, m.Valid ops) : ∀ r ∈ (profile.recordAll ops ms).records, r.Plain := by
  induction ms generalizing profile with
  | nil => exact h
  | cons m ms ih =>
    obtain ⟨hm, hms⟩ := List.forall_mem_cons.mp hms
    exact ih (plain_record h hm) hms

end PerfProfile

end Keys

/-- **Round trip.** What is loaded after saving a profile of valid measurements are its records with
rounded speeds, and stays without two records of one key, exactly when no record has an empty model
hash or a sample count of zero. -/
theorem roundTrips_iff {φ : Type} {ops : ScoreOps φ} (t : SpeedText ops) {ms : List (Measurement φ)}
    (hms : ∀ m ∈ ms, m.Valid ops) :
    RoundTrips t (PerfProfile.recordAll ops {} ms) ↔
      ∀ r ∈ (PerfProfile.recordAll ops {} ms).records, r.modelHash ≠ "" ∧ r.sampleCount ≠ 0 := by
  have hplain : ∀ r ∈ (PerfProfile.recordAll ops {} ms).records, r.Plain :=
    PerfProfile.plain_recordAll (by simp) hms
  have hload := PerfProfile.load_text t hplain
  constructor
  · intro h r hr
    -- a record that survives has lost neither hash nor count
    have hsame : t.restored r = { r with tokensPerSecond := t.round r.tokensPerSecond } :=
      List.map_inj_left.mp (hload.symm.trans h.records) r hr
    constructor
    · intro hhash
      have hnone := congrArg PerfRecord.modelHash hsame
      simp [SpeedText.restored, hhash] at hnone
    · intro hcount
      have hone := congrArg PerfRecord.sampleCount hsame
      simp [SpeedText.restored, hcount] at hone
  · intro h
    have hrecords : (PerfProfile.load ops t.stof
        (some ((PerfProfile.recordAll ops {} ms).text ops))).records =
          (PerfProfile.recordAll ops {} ms).records.map
            fun r => { r with tokensPerSecond := t.round r.tokensPerSecond } := by
      rw [hload]
      refine List.map_congr_left fun r hr => ?_
      obtain ⟨hhash, hcount⟩ := h r hr
      simp [SpeedText.restored, hhash, hcount]
    refine ⟨hrecords, fun r _ => t.round_nearest r.tokensPerSecond,
      PerfProfile.nodup_keys_recordAll ?_⟩
    have hkeys : ((PerfProfile.recordAll ops {} ms).records.map PerfRecord.key).Nodup :=
      PerfProfile.nodup_keys_recordAll (by simp) ms
    rw [hrecords, List.map_map]
    exact hkeys

/-! ## Exact speeds -/

/-- A number with decimals and without a sign. -/
def readUnsigned (v : List Char) : Option ℚ :=
  let whole := v.takeWhile Char.isDigit
  let rest := v.dropWhile Char.isDigit
  let decimals := if rest.head? = some '.' then rest.tail.takeWhile Char.isDigit else []
  if whole = [] && decimals = [] then none
  else some (Nat.ofDigitChars 10 whole 0 + Nat.ofDigitChars 10 decimals 0 / 10 ^ decimals.length)

/-- A number with decimals, as `std::stof` reads it. -/
def readFixed (v : List Char) : Option ℚ :=
  if v.head? = some '-' then (readUnsigned v.tail).map (- ·) else readUnsigned v

/-- The hundredths that are printed. -/
def hundredths (x : ℚ) : ℕ := (|x| * 100 + 1 / 2).floor.toNat

/-- The two decimals of a number of hundredths. -/
def decimals (n : ℕ) : List Char := [(n % 100 / 10).digitChar, (n % 10).digitChar]

/-- The text of a speed: a sign, the digits, a point and two decimals. -/
theorem toList_toFixed (x : ℚ) : (exactOps.toFixed x).toList =
    (if x < 0 then ['-'] else []) ++
      (Nat.toDigits 10 (hundredths x / 100) ++ '.' :: decimals (hundredths x)) := by
  have hlt : hundredths x % 100 / 10 < 10 := by omega
  have hlt' : hundredths x % 10 < 10 := by omega
  have hsign : (if x < 0 then "-" else "").toList = if x < 0 then ['-'] else [] := by
    split_ifs <;> rfl
  have hnat : ∀ n : ℕ, (toString n).toList = Nat.toDigits 10 n := fun n => Nat.toList_repr
  unfold exactOps
  dsimp only
  rw [← hundredths]
  simp only [String.toList_append]
  rw [hsign, hnat, hnat, hnat, Nat.toDigits_of_lt_base hlt, Nat.toDigits_of_lt_base hlt', decimals]
  simp

theorem isDigit_decimals (n : ℕ) : ∀ c ∈ decimals n, c.isDigit = true := by
  have hdigit : ∀ d, d < 10 → d.digitChar.isDigit = true := by decide
  intro c hc
  simp only [decimals, List.mem_cons, List.not_mem_nil, or_false] at hc
  obtain rfl | rfl := hc
  · exact hdigit _ (by omega)
  · exact hdigit _ (by omega)

/-- A number that was printed is read back. -/
theorem readUnsigned_fixed (n : ℕ) :
    readUnsigned (Nat.toDigits 10 (n / 100) ++ '.' :: decimals n) = some (n / 100 : ℚ) := by
  have hdigits : ∀ c ∈ Nat.toDigits 10 (n / 100), c.isDigit = true :=
    fun c hc => Nat.isDigit_of_mem_toDigits (by decide) (by decide) hc
  -- the digits up to the point, then the two behind it
  have hwhole : (Nat.toDigits 10 (n / 100) ++ '.' :: decimals n).takeWhile Char.isDigit =
      Nat.toDigits 10 (n / 100) := by
    rw [List.takeWhile_append_of_pos hdigits, List.takeWhile_cons_of_neg (by decide),
      List.append_nil]
  have hrest : (Nat.toDigits 10 (n / 100) ++ '.' :: decimals n).dropWhile Char.isDigit =
      '.' :: decimals n := by
    rw [List.dropWhile_append_of_pos hdigits, List.dropWhile_cons_of_neg (by decide)]
  have hdecimals : (decimals n).takeWhile Char.isDigit = decimals n :=
    List.takeWhile_eq_self_iff.mpr (isDigit_decimals n)
  have hvalue : Nat.ofDigitChars 10 (decimals n) 0 = n % 100 := by
    rw [decimals, Nat.ofDigitChars_cons_digitChar_of_lt_ten (by omega),
      Nat.ofDigitChars_cons_digitChar_of_lt_ten (by omega), Nat.ofDigitChars_nil]
    omega
  have hwholeValue := Nat.ofDigitChars_toDigits (b := 10) (n := n / 100) (by decide) (by decide)
  have hsplit : (n : ℚ) = 100 * (n / 100 : ℕ) + (n % 100 : ℕ) := by
    exact_mod_cast (Nat.div_add_mod n 100).symm
  unfold readUnsigned
  simp only [hwhole, hrest, List.head?_cons, if_true, List.tail_cons, hdecimals, hwholeValue,
    hvalue, Nat.toDigits_ne_nil, decide_false, Bool.false_and, Bool.false_eq_true, if_false]
  rw [show (decimals n).length = 2 from rfl, hsplit]
  congr 1
  ring

/-- The nearest number with two decimals. -/
def roundFixed (x : ℚ) : ℚ := if x < 0 then -(hundredths x / 100) else hundredths x / 100

/-- The text of a speed is read back as the speed, rounded to hundredths. -/
theorem readFixed_toFixed (x : ℚ) :
    readFixed (exactOps.toFixed x).toList = some (roundFixed x) := by
  rw [toList_toFixed, roundFixed]
  by_cases hneg : x < 0
  · rw [if_pos hneg, if_pos hneg, readFixed]
    simp [readUnsigned_fixed]
  · have hhead : (Nat.toDigits 10 (hundredths x / 100) ++
        '.' :: decimals (hundredths x)).head? ≠ some '-' := by
      cases htext : Nat.toDigits 10 (hundredths x / 100) with
      | nil => exact absurd htext Nat.toDigits_ne_nil
      | cons c rest =>
        intro hminus
        have hc : c.isDigit = true := Nat.isDigit_of_mem_toDigits (by decide) (by decide)
          (htext ▸ List.mem_cons_self)
        rw [Option.some_inj.mp hminus] at hc
        exact absurd hc (by decide)
    rw [if_neg hneg, if_neg hneg, List.nil_append, readFixed, if_neg hhead, readUnsigned_fixed]

/-- The rounding changes a speed by half a hundredth at most. -/
theorem abs_roundFixed_sub_le (x : ℚ) : |roundFixed x - x| ≤ 1 / 200 := by
  have hnonneg : 0 ≤ ⌊|x| * 100 + 1 / 2⌋ := Int.floor_nonneg.mpr (by positivity)
  have hcast : (hundredths x : ℚ) = ⌊|x| * 100 + 1 / 2⌋ := by
    exact_mod_cast congrArg (Int.cast (R := ℚ)) (Int.toNat_of_nonneg hnonneg)
  have hle := Int.floor_le (|x| * 100 + 1 / 2)
  have hlt := Int.lt_floor_add_one (|x| * 100 + 1 / 2)
  rw [← hcast] at hle hlt
  rw [roundFixed, abs_le]
  -- the sign is written apart, so both sides of zero are the same computation
  by_cases hneg : x < 0
  · rw [abs_of_neg hneg] at hle hlt
    rw [if_pos hneg]
    constructor <;> linarith
  · rw [abs_of_nonneg (not_lt.mp hneg)] at hle hlt
    rw [if_neg hneg]
    constructor <;> linarith

/-- Exact speeds. -/
def exactText : SpeedText exactOps where
  stof := readFixed
  value := some
  round := roundFixed
  stof_toFixed := readFixed_toFixed
  toFixed_plain x c hc := by
    rw [toList_toFixed, List.mem_append, List.mem_append, List.mem_cons] at hc
    obtain hc | hc | rfl | hc := hc
    · split_ifs at hc
      · rw [List.mem_singleton.mp hc]
        rfl
      · cases hc
    · exact PerfProfile.plain_toDigits _ c hc
    · rfl
    · exact isSpace_of_isDigit (isDigit_decimals _ c hc)
  round_nearest x q hq := by
    obtain rfl := Option.some_inj.mp hq
    have hnear := abs_roundFixed_sub_le x
    by_cases hneg : x < 0
    · refine ⟨-hundredths x, ?_, ?_⟩
      · rwa [roundFixed, if_pos hneg, ← neg_div, ← Int.cast_natCast, ← Int.cast_neg] at hnear
      · show roundFixed x = ((-hundredths x : ℤ) / 100 : ℚ)
        rw [roundFixed, if_pos hneg]
        push_cast
        ring
    · refine ⟨hundredths x, ?_, ?_⟩
      · rwa [roundFixed, if_neg hneg, ← Int.cast_natCast] at hnear
      · show roundFixed x = ((hundredths x : ℤ) / 100 : ℚ)
        rw [roundFixed, if_neg hneg, Int.cast_natCast]

/-- A measurement of a hashed model. -/
def sampleMeasurement (modelHash : String) : Measurement ℚ where
  backendId := "cpu"
  modelHash := modelHash
  tokensPerSecond := 5

/-- The measurement is valid if its hash has no white space. -/
theorem valid_sampleMeasurement {modelHash : String}
    (h : ∀ c ∈ modelHash.toList, isSpace c = false) :
    (sampleMeasurement modelHash).Valid exactOps where
  backend := show "cpu" ≠ "" by decide
  backend_plain := show ∀ c ∈ "cpu".toList, isSpace c = false by simp [isSpace]
  hash_plain := h
  speed := show decide ((5 : ℚ) ≤ 0) = false by decide

/-- A profile with one hashed model is read back. -/
theorem roundTrips_hashed :
    RoundTrips exactText (PerfProfile.recordAll exactOps {} [sampleMeasurement "1f_2e"]) :=
  (roundTrips_iff exactText (by simpa using valid_sampleMeasurement (by simp [isSpace]))).mpr
    (by decide +kernel)

/-- The record of a model that was not hashed comes back as one of the model `none`. -/
theorem not_roundTrips : ¬∀ (t : SpeedText exactOps) (ms : List (Measurement ℚ)),
    (∀ m ∈ ms, m.Valid exactOps) → RoundTrips t (PerfProfile.recordAll exactOps {} ms) := by
  intro h
  have hrecords := (h exactText [sampleMeasurement ""]
    (by simpa using valid_sampleMeasurement (by simp))).records
  have hhash := congrArg (List.map PerfRecord.modelHash) hrecords
  exact absurd hhash (by decide +kernel)

end HeteroAccel.Orchestration
