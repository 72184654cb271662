import HeteroAccel.Profiler.HistoryRoundTrip

/-!
# Damaged profile files

What `loadProfile` does with any text. The braces divide the lines into objects, of which some are
closed, and the records of the closed ones become the history, whether they have all fields or not.

## Main definitions

* `objects`: the objects of a text, each with its lines;
* `CompleteIn`: a text has an object with all fields and counts that are not negative, which is read
  as a given record;
* `Harmless`: loading a text returns, and leaves the history alone or has it consist of such
  records;
* `Intact`: the objects of a text are not damaged.

## Main results

* `loadProfile_eq`: loading reads object by object;
* `harmless_iff`: a text is harmless when the numbers in its objects can be read and the last closed
  object of each key is complete;
* `not_harmless`: an object without fields.
-/

namespace HeteroAccel.Profiler

open Bytes (ofString)
open TextLines (after)

variable {δ : Type}

/-! ## Objects -/

/-- A line that begins an object. -/
def Opens (line : Bytes) : Prop := openBrace ∈ line ∧ ¬ofString "version" <:+: line

instance (line : Bytes) : Decidable (Opens line) := inferInstanceAs (Decidable (_ ∧ _))

/-- The objects of the lines, each with the lines in it and whether it is closed, where `current`
are the lines so far of an object that has begun. -/
def objects (current : Option (List Bytes)) : List Bytes → List (List Bytes × Bool)
  | [] => (current.map fun body => (body, false)).toList
  | line :: rest =>
    if Opens line then (current.map fun body => (body, false)).toList ++ objects (some []) rest
    else
      match current with
      | none => objects none rest
      | some body =>
        if closeBrace ∈ line then (body, true) :: objects none rest
        else objects (some (body ++ [line])) rest

variable (fmt : DoubleText δ)

/-- The record that the lines of an object are read as. -/
def readBody (body : List Bytes) : Option (ProfileKey × HistoricalStats δ) :=
  (body.foldlM (readField fmt) { currentStats := .initial fmt }).map
    fun s => (s.currentKey, s.currentStats)

/-- The records of the closed objects. -/
def closedRecords (objs : List (List Bytes × Bool)) : List (ProfileKey × HistoricalStats δ) :=
  (objs.filter (·.2)).filterMap fun o => readBody fmt o.1

/-! ## The property -/

/-- The fields of a record, in the order in which a line is searched for them. -/
def fields : List String :=
  ["hardware_id", "backend", "workload_type", "model_name", "sample_count", "ema_duration_ms",
    "variance", "min_duration_ms", "max_duration_ms", "failure_count", "regression_detected"]

/-- The field of a line. -/
def fieldOf (line : Bytes) : Option String := fields.find? fun name => HasField line name

/-- The value of a field is there: a quoted word, a truth value, or what follows a colon. -/
def HasValue (line : Bytes) (name : String) : Prop :=
  if name ∈ ["hardware_id", "workload_type", "model_name"] then
    ((((after quote line).bind (after quote)).bind (after quote)).bind (after quote)).isSome
  else if name = "regression_detected" then
    ofString "true" <:+: line ∨ ofString "false" <:+: line
  else (after colon line).isSome

/-- An object has all fields with their values, and counts that are not negative. -/
structure Complete [LE δ] (body : List Bytes) : Prop where
  fields : ∀ name ∈ fields, ∃ line ∈ body, fieldOf line = some name
  values : ∀ line ∈ body, ∀ name, fieldOf line = some name → HasValue line name
  counts : ∀ line ∈ body, fieldOf line = some "sample_count" ∨ fieldOf line = some "failure_count" →
    ∀ d, extractNum fmt line = some d → fmt.zero ≤ d

/-- A text has a complete object that is read as a record. -/
def CompleteIn [LE δ] (text : Bytes) (e : ProfileKey × HistoricalStats δ) : Prop :=
  ∃ body, (body, true) ∈ objects none (TextLines.lines newline text) ∧ Complete fmt body ∧
    readBody fmt body = some e

/-- Loading returns, and the history is the one from before or consists of complete records. -/
def Harmless [LE δ] (text : Bytes) : Prop :=
  ∀ history, ∃ opened loaded, loadProfile fmt history (some text) = some (opened, loaded) ∧
    (loaded = history ∨
      ∀ key stats, loaded.lookup key = some stats → CompleteIn fmt text (key, stats))

/-- The fields that are numbers. -/
def numberFields : List String :=
  ["backend", "sample_count", "ema_duration_ms", "variance", "min_duration_ms", "max_duration_ms",
    "failure_count"]

/-- A line whose field is a number. -/
def IsNumber (line : Bytes) : Prop := ∃ name ∈ numberFields, fieldOf line = some name

/-- The numbers in all objects, closed or not, can be read, and of each key the record of the last
closed object is that of a complete one. -/
structure Intact [LE δ] (text : Bytes) : Prop where
  numbers : ∀ o ∈ objects none (TextLines.lines newline text), ∀ line ∈ o.1, IsNumber line →
    (extractNum fmt line).isSome
  complete : ∀ l₁ e l₂,
    closedRecords fmt (objects none (TextLines.lines newline text)) = l₁ ++ e :: l₂ →
    (∀ e' ∈ l₂, e'.1 ≠ e.1) → CompleteIn fmt text e

/-! ## Loading object by object -/

section Loading

variable {fmt}

/-- The state at the beginning of an object. -/
abbrev Reading.fresh (fmt : DoubleText δ) : Reading δ := { currentStats := .initial fmt }

/-- A line in an object is read into the record, whatever has been loaded. -/
theorem readField_with (s : Reading δ) (loaded : History δ) (inObj : Bool) (line : Bytes) :
    readField fmt { s with loaded, inObj } line =
      (readField fmt s line).map fun s => { s with loaded, inObj } := by
  unfold readField
  simp only [apply_ite (Option.map _), Option.map_some, Option.map_map, Function.comp_def]

/-- A line that opens an entry begins with fresh statistics. -/
theorem readLine_opens {line : Bytes} (h : Opens line) (s : Reading δ) :
    readLine fmt s line = some { Reading.fresh fmt with loaded := s.loaded, inObj := true } :=
  if_pos h

/-- A line that closes an entry stores what was read of it. -/
theorem readLine_closes {line : Bytes} (h : ¬Opens line) (hclose : closeBrace ∈ line)
    {s : Reading δ} (hs : s.inObj = true) :
    readLine fmt s line = some { s with
      inObj := false, loaded := s.loaded.insert s.currentKey s.currentStats } :=
  (if_neg h).trans (if_pos ⟨hclose, hs⟩)

/-- A line inside of an entry is read as a field. -/
theorem readLine_inside {line : Bytes} (h : ¬Opens line) (hclose : closeBrace ∉ line)
    {s : Reading δ} (hs : s.inObj = true) : readLine fmt s line = readField fmt s line :=
  (if_neg h).trans ((if_neg fun hc => hclose hc.1).trans (if_pos hs))

/-- A line outside of the entries is ignored. -/
theorem readLine_outside {line : Bytes} (h : ¬Opens line) {s : Reading δ}
    (hs : s.inObj = false) : readLine fmt s line = some s :=
  (if_neg h).trans ((if_neg fun hc => by simp [hs] at hc).trans (if_neg (by simp [hs])))

variable (fmt) in
/-- What an object does with the history. -/
def readObject (loaded : History δ) (o : List Bytes × Bool) : Option (History δ) :=
  (readBody fmt o.1).map fun e => if o.2 then loaded.insert e.1 e.2 else loaded

/-- An entry joins the history if it is closed. -/
theorem readObject_of_foldlM {body : List Bytes} {s : Reading δ}
    (h : body.foldlM (readField fmt) (Reading.fresh fmt) = some s) (loaded : History δ)
    (closed : Bool) : readObject fmt loaded (body, closed) =
      some (if closed then loaded.insert s.currentKey s.currentStats else loaded) := by
  unfold readObject readBody
  rw [h]
  rfl

/-- An entry that cannot be read ends the load. -/
theorem foldlM_readObject_eq_none {body : List Bytes}
    (h : body.foldlM (readField fmt) (Reading.fresh fmt) = none) (loaded : History δ)
    (closed : Bool) (rest : List (List Bytes × Bool)) :
    ((body, closed) :: rest).foldlM (readObject fmt) loaded = none := by
  have hobject : readObject fmt loaded (body, closed) = none := by
    unfold readObject readBody
    rw [h]
    rfl
  rw [List.foldlM_cons, hobject]
  rfl

/-- An object that cannot be read ends the loading. -/
theorem foldlM_objects_eq_none {body : List Bytes}
    (h : body.foldlM (readField fmt) (Reading.fresh fmt) = none) (lines : List Bytes)
    (loaded : History δ) :
    (objects (some body) lines).foldlM (readObject fmt) loaded = none := by
  induction lines generalizing body with
  | nil => exact foldlM_readObject_eq_none h loaded false []
  | cons line rest ih =>
    unfold objects
    split_ifs
    · exact foldlM_readObject_eq_none h loaded false _
    · exact foldlM_readObject_eq_none h loaded true _
    · refine ih ?_
      rw [List.foldlM_append, h]
      rfl

variable (fmt) in
/-- The lines are read object by object, outside of an object and inside of one. -/
theorem foldlM_readLine (lines : List Bytes) :
    (∀ s : Reading δ, s.inObj = false →
      (lines.foldlM (readLine fmt) s).map (·.loaded) =
        (objects none lines).foldlM (readObject fmt) s.loaded) ∧
    ∀ (s : Reading δ) (body : List Bytes) (loaded : History δ),
      body.foldlM (readField fmt) (Reading.fresh fmt) = some s →
      (lines.foldlM (readLine fmt) { s with loaded, inObj := true }).map (·.loaded) =
        (objects (some body) lines).foldlM (readObject fmt) loaded := by
  induction lines with
  | nil =>
    refine ⟨fun s _ => rfl, fun s body loaded h => ?_⟩
    simp [objects, readObject_of_foldlM h]
  | cons line rest ih =>
    obtain ⟨ihOut, ihIn⟩ := ih
    refine ⟨fun s hs => ?_, fun s body loaded h => ?_⟩
    · by_cases hopen : Opens line
      · rw [List.foldlM_cons, readLine_opens hopen, objects, if_pos hopen]
        exact ihIn _ [] s.loaded rfl
      · rw [List.foldlM_cons, readLine_outside hopen hs, objects, if_neg hopen]
        exact ihOut s hs
    · by_cases hopen : Opens line
      · rw [List.foldlM_cons, readLine_opens hopen, objects, if_pos hopen]
        -- the object that has begun is not closed
        have hobject := readObject_of_foldlM h loaded false
        simpa [hobject] using ihIn _ [] loaded rfl
      · by_cases hclose : closeBrace ∈ line
        · have hobject := readObject_of_foldlM h loaded true
          rw [List.foldlM_cons, readLine_closes hopen hclose rfl, objects, if_neg hopen]
          simpa [hclose, hobject] using
            ihOut { s with loaded := loaded.insert s.currentKey s.currentStats, inObj := false } rfl
        · rw [List.foldlM_cons, readLine_inside hopen hclose rfl, readField_with, objects,
            if_neg hopen]
          simp only [hclose, if_false]
          cases hfield : readField fmt s line with
          | none =>
            have hmore : (body ++ [line]).foldlM (readField fmt) (Reading.fresh fmt) = none := by
              rw [List.foldlM_append, h, Option.bind_eq_bind, Option.bind_some, List.foldlM_cons,
                hfield]
              rfl
            rw [foldlM_objects_eq_none hmore]
            rfl
          | some s' =>
            have hmore : (body ++ [line]).foldlM (readField fmt) (Reading.fresh fmt) = some s' := by
              rw [List.foldlM_append, h, Option.bind_eq_bind, Option.bind_some, List.foldlM_cons,
                hfield]
              rfl
            exact ihIn s' _ loaded hmore

/-- Loading reads object by object. -/
theorem loadProfile_eq (history : History δ) (text : Bytes) :
    loadProfile fmt history (some text) =
      ((objects none (TextLines.lines newline text)).foldlM (readObject fmt) ∅).map
        fun loaded => (true, loaded) := by
  have hlines := (foldlM_readLine fmt (TextLines.lines newline text)).1 (Reading.fresh fmt) rfl
  rw [← hlines, Option.map_map]
  rfl

/-- Objects that can be read leave the records of the closed ones. -/
theorem foldlM_readObject {objs : List (List Bytes × Bool)}
    (h : ∀ o ∈ objs, (readBody fmt o.1).isSome) (l : List (ProfileKey × HistoricalStats δ)) :
    objs.foldlM (readObject fmt) (KeyedMap.ofPairs l) =
      some (KeyedMap.ofPairs (l ++ closedRecords fmt objs)) := by
  induction objs generalizing l with
  | nil => simp [closedRecords]
  | cons o objs ih =>
    obtain ⟨ho, hobjs⟩ := List.forall_mem_cons.mp h
    obtain ⟨e, he⟩ := Option.isSome_iff_exists.mp ho
    obtain ⟨body, closed⟩ := o
    have hobject : ∀ loaded, readObject fmt loaded (body, closed) =
        some (if closed then loaded.insert e.1 e.2 else loaded) := by
      intro loaded
      unfold readObject
      rw [he]
      rfl
    rw [List.foldlM_cons, hobject]
    cases closed with
    | false => simpa [closedRecords] using ih hobjs l
    | true =>
      have hnext := ih hobjs (l ++ [e])
      rw [KeyedMap.ofPairs_concat] at hnext
      simpa [closedRecords, he] using hnext

/-- Loading that returns has read all objects. -/
theorem isSome_readBody {objs : List (List Bytes × Bool)} {loaded loaded' : History δ}
    (h : objs.foldlM (readObject fmt) loaded = some loaded') :
    ∀ o ∈ objs, (readBody fmt o.1).isSome := by
  induction objs generalizing loaded with
  | nil => simp
  | cons o objs ih =>
    rw [List.foldlM_cons] at h
    cases hbody : readBody fmt o.1 with
    | none =>
      simp [readObject, hbody] at h
    | some e =>
      simp only [readObject, hbody, Option.map_some, Option.bind_eq_bind, Option.bind_some] at h
      exact List.forall_mem_cons.mpr ⟨by rw [hbody]; rfl, ih h⟩

theorem find?_cons_eq_ite {α : Type} {p : α → Prop} [DecidablePred p] (a : α) (l : List α) :
    (a :: l).find? (fun x => decide (p x)) =
      if p a then some a else l.find? fun x => decide (p x) := by
  by_cases h : p a <;> simp [h]

/-- One case of a chain in which the result is there when a condition on the first hit holds. -/
theorem isSome_ite_iff {α : Type} {p : Prop} [Decidable p] {a b : Option α} {name : String}
    {hit : Option String} {P : Option String → Prop} (ha : a.isSome ↔ P (some name))
    (hb : b.isSome ↔ P hit) : (if p then a else b).isSome ↔ P (if p then some name else hit) := by
  by_cases h : p
  · simpa [h] using ha
  · simpa [h] using hb

/-- Only the number of a line can end the reading. -/
theorem isSome_readField_iff (s : Reading δ) (line : Bytes) :
    (readField fmt s line).isSome ↔ (IsNumber line → (extractNum fmt line).isSome) := by
  let P (hit : Option String) : Prop :=
    (∃ name ∈ numberFields, hit = some name) → (extractNum fmt line).isSome
  have hnames : ∀ name, P (some name) ↔ (name ∈ numberFields → (extractNum fmt line).isSome) := by
    intro name
    constructor
    · intro h hmem
      exact h ⟨name, hmem, rfl⟩
    · rintro h ⟨name', hmem, heq⟩
      exact h (Option.some.inj heq ▸ hmem)
  show _ ↔ P (fieldOf line)
  unfold readField fieldOf fields
  simp only [find?_cons_eq_ite, List.find?_nil]
  -- both search for the same names in the same order
  iterate 11 refine isSome_ite_iff (by rw [hnames]; simp [numberFields]) ?_
  simp [P]

/-- The body of an entry can be read exactly when its numbers can. -/
theorem isSome_readBody_iff (body : List Bytes) :
    (readBody fmt body).isSome ↔ ∀ line ∈ body, IsNumber line → (extractNum fmt line).isSome := by
  have hfold : ∀ s : Reading δ, (body.foldlM (readField fmt) s).isSome ↔
      ∀ line ∈ body, IsNumber line → (extractNum fmt line).isSome := by
    induction body with
    | nil => simp
    | cons line body ih =>
      intro s
      rw [List.foldlM_cons, List.forall_mem_cons, ← isSome_readField_iff s line]
      cases hfield : readField fmt s line with
      | none => simp
      | some s' => simpa using ih s'
  unfold readBody
  rw [Option.isSome_map]
  exact hfold _

end Loading

/-- **Damaged files.** A text is harmless exactly when it is intact. -/
theorem harmless_iff [LE δ] (fmt : DoubleText δ) (text : Bytes) :
    Harmless fmt text ↔ Intact fmt text := by
  constructor
  · intro h
    obtain ⟨opened, loaded, hload, hloaded⟩ := h ∅
    rw [loadProfile_eq] at hload
    obtain ⟨loaded, hobjects, heq⟩ := Option.map_eq_some_iff.mp hload
    cases heq
    have hread := isSome_readBody hobjects
    refine ⟨fun o ho => (isSome_readBody_iff o.1).mp (hread o ho), fun l₁ e l₂ hlast hkeys => ?_⟩
    have hrecords := foldlM_readObject hread []
    rw [List.nil_append] at hrecords
    obtain rfl := Option.some.inj (hobjects.symm.trans hrecords)
    -- the last object of its key is what the load leaves
    have hlookup : (KeyedMap.ofPairs (closedRecords fmt
        (objects none (TextLines.lines newline text)))).lookup e.1 = some e.2 :=
      KeyedMap.lookup_ofPairs_iff.mpr ⟨l₁, l₂, hlast, hkeys⟩
    obtain hempty | hcomplete := hloaded
    · rw [hempty] at hlookup
      cases hlookup
    · exact hcomplete e.1 e.2 hlookup
  · rintro ⟨hnumbers, hlast⟩ history
    have hrecords := foldlM_readObject
      (fun o ho => (isSome_readBody_iff o.1).mpr (hnumbers o ho)) []
    rw [List.nil_append] at hrecords
    refine ⟨true, KeyedMap.ofPairs (closedRecords fmt
      (objects none (TextLines.lines newline text))), ?_, .inr fun key stats hlookup => ?_⟩
    · rw [loadProfile_eq]
      exact congrArg (Option.map _) hrecords
    · obtain ⟨l₁, l₂, heq, hkeys⟩ := KeyedMap.lookup_ofPairs_iff.mp hlookup
      exact hlast l₁ (key, stats) l₂ heq hkeys

/-- Two braces are loaded as a record without names and values. -/
theorem not_harmless : ¬∀ text, Harmless wholeText text := by
  intro h
  have hobjects : objects none (TextLines.lines newline (ofString "\x7b\n\x7d")) =
      [([], true)] := by
    decide +kernel
  obtain ⟨opened, loaded, hload, hloaded⟩ := h (ofString "\x7b\n\x7d") ∅
  rw [loadProfile_eq, hobjects] at hload
  have hlookup : loaded.lookup {} = some (HistoricalStats.initial wholeText) := by
    obtain rfl : _ = loaded := congrArg Prod.snd (Option.some.inj hload)
    exact AList.lookup_insert _
  obtain rfl | hcomplete := hloaded
  · cases hlookup
  · obtain ⟨body, hbody, hbodyComplete, -⟩ := hcomplete _ _ hlookup
    rw [hobjects] at hbody
    obtain rfl : body = [] := congrArg Prod.fst (List.mem_singleton.mp hbody)
    obtain ⟨line, hline, -⟩ := hbodyComplete.fields "hardware_id" (by decide)
    cases hline

end HeteroAccel.Profiler
