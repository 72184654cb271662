import HeteroAccel.Profiler.Profiler

/-!
# The lines of the file of the profiler

The file that `saveProfile` writes, line by line (`lines_saveProfile`), and what the searches of
`loadProfile` find in such a line: the quoted name of a field or the value behind it
(`hasField_stringLine`, `hasField_plainLine`), and the braces and the word `version` of the value
(`braceSafe_stringLine`).
-/

namespace HeteroAccel.Profiler

open Bytes (ofString ofDecimal ofInt ofString_inj)
open TextLines (quoted after)

variable {δ : Type} {fmt : DoubleText δ}

/-! ## The lines of the file -/

/-- A text without the characters that end lines, quote and begin or end objects. -/
def Plain (text : Bytes) : Prop :=
  ∀ c ∈ text, c ≠ newline ∧ c ≠ quote ∧ c ≠ openBrace ∧ c ≠ closeBrace

namespace Plain

variable {text : Bytes}

theorem newline_notMem (h : Plain text) : newline ∉ text := fun hc => (h _ hc).1 rfl

theorem quote_notMem (h : Plain text) : quote ∉ text := fun hc => (h _ hc).2.1 rfl

theorem openBrace_notMem (h : Plain text) : openBrace ∉ text := fun hc => (h _ hc).2.2.1 rfl

theorem closeBrace_notMem (h : Plain text) : closeBrace ∉ text := fun hc => (h _ hc).2.2.2 rfl

end Plain

instance (text : Bytes) : Decidable (Plain text) :=
  inferInstanceAs (Decidable (∀ c ∈ text, c ≠ newline ∧ c ≠ quote ∧ c ≠ openBrace ∧ c ≠ closeBrace))

theorem plain_ofDecimal (n : ℕ) : Plain (ofDecimal n) := by
  intro c hc
  obtain ⟨hlow, hhigh⟩ := Bytes.mem_ofDecimal hc
  refine ⟨?_, ?_, ?_, ?_⟩ <;> rintro rfl <;> revert hlow hhigh <;> decide

theorem plain_ofInt (n : ℤ) : Plain (ofInt n) := by
  cases n with
  | ofNat n => exact plain_ofDecimal n
  | negSucc n =>
    intro c hc
    obtain rfl | hdigit := List.mem_cons.mp hc
    · decide
    · exact plain_ofDecimal _ c hdigit

theorem plain_print (d : δ) : Plain (fmt.print d) := fmt.print_plain d

/-- The names that a line is searched for. -/
def fieldNames : List String :=
  ["hardware_id", "backend", "workload_type", "model_name", "sample_count", "ema_duration_ms",
    "variance", "min_duration_ms", "max_duration_ms", "failure_count", "regression_detected"]

/-- The texts around the names and the values. -/
def layoutWords : List String := ["      ", ": ", ",", ""]

/-- The characters that a line is searched for stand in no text of the layout, and a name is no such
text. -/
theorem layout_plain :
    (∀ word ∈ layoutWords, Plain (ofString word) ∧ ¬ofString "version" <:+: ofString word) ∧
      (∀ name ∈ fieldNames, Plain (ofString name) ∧ ¬ofString "version" <:+: ofString name ∧
        ofString name ≠ ofString ": " ∧ colon ∉ ofString name) ∧
      ofString ": " = colon :: ofString " " ∧ colon ∉ ofString "      " ∧
      quote ∉ ofString "version" := by
  decide +kernel

theorem plain_layoutWord {word : String} (h : word ∈ layoutWords) : Plain (ofString word) :=
  (layout_plain.1 word h).1

theorem plain_indent : Plain (ofString "      ") := plain_layoutWord (by simp [layoutWords])

theorem plain_separator : Plain (ofString ": ") := plain_layoutWord (by simp [layoutWords])

theorem plain_comma : Plain (ofString ",") := plain_layoutWord (by simp [layoutWords])

theorem plain_fieldName {name : String} (h : name ∈ fieldNames) : Plain (ofString name) :=
  (layout_plain.2.1 name h).1

/-- The texts of the source, cut at their quotes and at the ends of their lines. -/
theorem layout_cut :
    ofString "      \"" = ofString "      " ++ [quote] ∧
      ofString "\": \"" = quote :: (ofString ": " ++ [quote]) ∧
      ofString "\",\n" = quote :: (ofString "," ++ [newline]) ∧
      ofString "\": " = quote :: ofString ": " ∧
      ofString ",\n" = ofString "," ++ [newline] ∧
      ofString "    \x7b\n" = ofString "    \x7b" ++ [newline] ∧
      ofString "    \x7d" ++ ofString ",\n" = ofString "    \x7d," ++ [newline] := by
  decide +kernel

/-- The line of a quoted value. -/
def stringLine (name : String) (value : Bytes) : Bytes :=
  ofString "      " ++ quote :: (ofString name ++ quote :: (ofString ": " ++ quote ::
    (value ++ quote :: ofString ",")))

/-- The line of a number, or of a word that is not quoted; `stop` is what follows it. -/
def plainLine (name : String) (value : Bytes) (stop : String) : Bytes :=
  ofString "      " ++
    quote :: (ofString name ++ quote :: (ofString ": " ++ value ++ ofString stop))

theorem stringField_eq (name : String) (value : Bytes) :
    stringField name value = stringLine name value ++ [newline] := by
  obtain ⟨hbegin, hmiddle, hend, -⟩ := layout_cut
  unfold stringField stringLine
  rw [hbegin, hmiddle, hend]
  simp

theorem numberField_eq (name : String) (value : Bytes) :
    numberField name value = plainLine name value "," ++ [newline] := by
  obtain ⟨hbegin, -, -, hmiddle, hend, -⟩ := layout_cut
  unfold numberField plainLine
  rw [hbegin, hmiddle, hend]
  simp

/-- The word for a flag. -/
def flagWord (b : Bool) : Bytes := ofString (if b then "true" else "false")

variable (fmt) in
/-- The lines of an object, without the last one. -/
def bodyLines (key : ProfileKey) (stats : HistoricalStats δ) : List Bytes :=
  [ofString "    \x7b",
    stringLine "hardware_id" key.hardwareId,
    plainLine "backend" (ofInt key.backend.toInt) ",",
    stringLine "workload_type" key.workloadType,
    stringLine "model_name" key.modelName,
    plainLine "sample_count" (ofDecimal stats.sampleCount.toNat) ",",
    plainLine "ema_duration_ms" (fmt.print stats.emaDurationMs) ",",
    plainLine "variance" (fmt.print stats.variance) ",",
    plainLine "min_duration_ms" (fmt.print stats.minDurationMs) ",",
    plainLine "max_duration_ms" (fmt.print stats.maxDurationMs) ",",
    plainLine "failure_count" (ofDecimal stats.failureCount.toNat) ",",
    plainLine "regression_detected" (flagWord stats.regressionDetected) ""]

variable (fmt) in
/-- The lines of the objects, and an empty line if there is none. -/
def objectsLines : List (ProfileKey × HistoricalStats δ) → List Bytes
  | [] => [[]]
  | [e] => bodyLines fmt e.1 e.2 ++ [ofString "    \x7d"]
  | e :: e' :: rest => bodyLines fmt e.1 e.2 ++ [ofString "    \x7d,"] ++ objectsLines (e' :: rest)

/-- The lines of a history file in front of its entries. -/
def headLines : List Bytes :=
  [ofString "\x7b", ofString "  \"version\": 1,", ofString "  \"profiles\": ["]

/-- The lines behind them. -/
def tailLines : List Bytes := [ofString "  ]", ofString "\x7d"]

/-- The lines that are the same in every file, and the empty one of a file without objects. -/
def frameLines : List Bytes :=
  headLines ++ tailLines ++ [ofString "    \x7b", ofString "    \x7d", ofString "    \x7d,", []]

/-- No field is found in a line that is the same in every file. -/
theorem frameLines_spec :
    ∀ line ∈ frameLines, newline ∉ line ∧ ∀ field ∈ fieldNames,
      ¬quoted quote (ofString field) <:+: line := by
  decide +kernel

/-- The names of a key. -/
def ProfileKey.names (key : ProfileKey) : List Bytes :=
  [key.hardwareId, key.workloadType, key.modelName]

/-- Lines one after the other. -/
def joined (ls : List Bytes) : Bytes := ls.flatMap (· ++ [newline])

theorem lines_joined {ls : List Bytes} (h : ∀ line ∈ ls, newline ∉ line) (rest : Bytes) :
    TextLines.lines newline (joined ls ++ rest) = ls ++ TextLines.lines newline rest :=
  TextLines.lines_flatMap h rest

/-- The text of an entry is its lines and a closing brace. -/
theorem objectText_eq (key : ProfileKey) (stats : HistoricalStats δ) :
    objectText fmt key stats = joined (bodyLines fmt key stats) ++ ofString "    \x7d" := by
  obtain ⟨-, -, -, -, -, hfirst, -⟩ := layout_cut
  have hflag : ∀ (b : Bool) (rest : Bytes), ofString "      \"regression_detected\": " ++
      (ofString (if b then "true" else "false") ++ (ofString "\n" ++ rest)) =
        plainLine "regression_detected" (flagWord b) "" ++ ([newline] ++ rest) := by
    intro b rest
    have hword : ofString "      \"regression_detected\": " ++
        ofString (if b then "true" else "false") ++ ofString "\n" =
          plainLine "regression_detected" (flagWord b) "" ++ [newline] := by
      revert b
      decide +kernel
    simpa only [List.append_assoc] using congrArg (· ++ rest) hword
  unfold objectText
  simp only [stringField_eq, numberField_eq, joined, bodyLines, List.flatMap_cons,
    List.flatMap_nil, List.append_assoc, List.append_nil, hfirst, hflag]

/-! ### What the lines consist of -/

/-- The line of a text is one line if the text is. -/
theorem newline_notMem_stringLine {name : String} {value : Bytes} (hname : name ∈ fieldNames)
    (hvalue : newline ∉ value) : newline ∉ stringLine name value := by
  have hquote : newline ≠ quote := by decide
  simp [stringLine, hquote, plain_indent.newline_notMem, (plain_fieldName hname).newline_notMem,
    plain_separator.newline_notMem, hvalue, plain_comma.newline_notMem]

theorem newline_notMem_plainLine {name stop : String} {value : Bytes} (hname : name ∈ fieldNames)
    (hvalue : Plain value) (hstop : stop ∈ layoutWords) : newline ∉ plainLine name value stop := by
  have hquote : newline ≠ quote := by decide
  simp [plainLine, hquote, plain_indent.newline_notMem, (plain_fieldName hname).newline_notMem,
    plain_separator.newline_notMem, hvalue.newline_notMem, (plain_layoutWord hstop).newline_notMem]

theorem plain_flagWord (b : Bool) : Plain (flagWord b) := by
  revert b
  decide +kernel

/-- The lines of an entry are single lines if the names of its key are. -/
theorem newline_notMem_bodyLines {key : ProfileKey} (hkey : ∀ name ∈ key.names, newline ∉ name)
    (stats : HistoricalStats δ) : ∀ line ∈ bodyLines fmt key stats, newline ∉ line := by
  have hfirst : newline ∉ ofString "    \x7b" := (frameLines_spec _ (by simp [frameLines])).1
  obtain ⟨hhardware, hworkload, hmodel⟩ : newline ∉ key.hardwareId ∧
      newline ∉ key.workloadType ∧ newline ∉ key.modelName := by
    simpa [ProfileKey.names] using hkey
  simp only [bodyLines, List.forall_mem_cons, List.not_mem_nil, false_implies, implies_true,
    and_true]
  refine ⟨hfirst, newline_notMem_stringLine (by simp [fieldNames]) hhardware, ?_,
    newline_notMem_stringLine (by simp [fieldNames]) hworkload,
    newline_notMem_stringLine (by simp [fieldNames]) hmodel, ?_, ?_, ?_, ?_, ?_, ?_, ?_⟩
  all_goals
    exact newline_notMem_plainLine (by simp [fieldNames])
      (by first
        | exact plain_ofInt _
        | exact plain_ofDecimal _
        | exact plain_print _
        | exact plain_flagWord _)
      (by simp [layoutWords])

/-- The lines of the objects, up to the end of the file. -/
theorem lines_objectsText {entries : List (ProfileKey × HistoricalStats δ)}
    (h : ∀ e ∈ entries, ∀ name ∈ e.1.names, newline ∉ name) :
    TextLines.lines newline (objectsText fmt true entries ++ newline :: joined tailLines) =
      objectsLines fmt entries ++ tailLines := by
  have htail : TextLines.lines newline (joined tailLines) = tailLines := by
    have hnewline : ∀ line ∈ tailLines, newline ∉ line := fun line hline =>
      (frameLines_spec line (by simp [frameLines, hline])).1
    simpa [TextLines.lines] using lines_joined hnewline []
  induction entries with
  | nil =>
    have hempty : TextLines.lines newline ([] ++ newline :: joined tailLines) =
        [] :: TextLines.lines newline (joined tailLines) :=
      TextLines.lines_append List.not_mem_nil _
    simpa [objectsText, objectsLines, htail] using hempty
  | cons e rest ih =>
    obtain ⟨he, hrest⟩ := List.forall_mem_cons.mp h
    have hbody : ∀ line ∈ bodyLines fmt e.1 e.2, newline ∉ line := newline_notMem_bodyLines he e.2
    cases rest with
    | nil =>
      have hend : newline ∉ ofString "    \x7d" := (frameLines_spec _ (by simp [frameLines])).1
      have htext : objectsText fmt true [e] ++ newline :: joined tailLines =
          joined (bodyLines fmt e.1 e.2) ++
            (ofString "    \x7d" ++ newline :: joined tailLines) := by
        simp [objectsText, objectText_eq]
      rw [htext, lines_joined hbody, TextLines.lines_append hend, htail, objectsLines]
      simp
    | cons e' rest =>
      have hend : newline ∉ ofString "    \x7d," := (frameLines_spec _ (by simp [frameLines])).1
      obtain ⟨-, -, -, -, -, -, hcomma⟩ := layout_cut
      -- every object but the last ends in a comma
      have htext : objectsText fmt true (e :: e' :: rest) ++ newline :: joined tailLines =
          joined (bodyLines fmt e.1 e.2) ++ (ofString "    \x7d," ++ newline ::
            (objectsText fmt true (e' :: rest) ++ newline :: joined tailLines)) := by
        have hcomma' : ∀ text, ofString "    \x7d" ++ (ofString ",\n" ++ text) =
            ofString "    \x7d," ++ newline :: text := fun text => by
          simpa only [List.append_assoc, List.singleton_append] using
            congrArg (· ++ text) hcomma
        simp [objectsText, objectText_eq, hcomma']
      rw [htext, lines_joined hbody, TextLines.lines_append hend, ih hrest, objectsLines]
      simp

/-- The lines that `loadProfile` reads. -/
theorem lines_saveProfile (t : Traversal (Σ _ : ProfileKey, HistoricalStats δ))
    {history : History δ}
    (h : ∀ key, key ∈ history → ∀ name ∈ key.names, newline ∉ name) :
    TextLines.lines newline (saveProfile fmt t history) = headLines ++
      (objectsLines fmt ((t.visit history.entries).map fun e => (e.1, e.2)) ++ tailLines) := by
  obtain ⟨hhead, hend⟩ :
    ofString "\x7b\n  \"version\": 1,\n  \"profiles\": [\n" = joined headLines ∧
      ofString "\n  ]\n\x7d\n" = newline :: joined tailLines := by
    decide +kernel
  have hheadLines : ∀ line ∈ headLines, newline ∉ line := fun line hline =>
    (frameLines_spec line (by simp [frameLines, hline])).1
  have hentries : ∀ e ∈ (t.visit history.entries).map fun e => (e.1, e.2),
      ∀ name ∈ e.1.names, newline ∉ name := by
    intro e he
    obtain ⟨entry, hentry, rfl⟩ := List.mem_map.mp he
    exact h entry.1 (List.mem_keys_of_mem ((t.mem_visit).mp hentry))
  rw [saveProfile, hhead, hend, List.append_assoc, lines_joined hheadLines,
    lines_objectsText hentries]

/-! ## Searching a line -/

/-- A quoted value may be taken for a field. -/
theorem hasField_stringLine {name field : String} {value : Bytes} (hname : name ∈ fieldNames)
    (hfield : field ∈ fieldNames) (hvalue : quote ∉ value) :
    HasField (stringLine name value) field ↔ field = name ∨ ofString field = value := by
  obtain ⟨-, -, hcolon, -⟩ := layout_plain.2.1 field hfield
  have hname := (plain_fieldName hname).quote_notMem
  have hfield := (plain_fieldName hfield).quote_notMem
  have hbegin : quote ∉ ofString "      " ∧ quote ∉ ofString ": " ∧ quote ∉ ofString "," :=
    ⟨plain_indent.quote_notMem, plain_separator.quote_notMem, plain_comma.quote_notMem⟩
  -- the words between the quotes, from left to right
  unfold HasField stringLine
  rw [TextLines.quoted_infix_iff hbegin.1, TextLines.quoted_prefix_iff hfield hname,
    TextLines.quoted_infix_iff hname, TextLines.quoted_prefix_iff hfield hbegin.2.1,
    TextLines.quoted_infix_iff hbegin.2.1, TextLines.quoted_prefix_iff hfield hvalue,
    TextLines.quoted_infix_iff hvalue, ofString_inj]
  have hend : ¬ofString field ++ [quote] <+: ofString "," := fun h =>
    hbegin.2.2 (h.subset (by simp))
  have hend' := TextLines.not_quoted_infix (a := ofString field) hbegin.2.2
  simp [hcolon, hend, hend']

/-- The line of a number has its own field, and no other one. -/
theorem hasField_plainLine {name field stop : String} {value : Bytes} (hname : name ∈ fieldNames)
    (hfield : field ∈ fieldNames) (hvalue : Plain value) (hstop : stop ∈ layoutWords) :
    HasField (plainLine name value stop) field ↔ field = name := by
  obtain ⟨-, -, hcolon, -⟩ := layout_plain.2.1 field hfield
  have hname := (plain_fieldName hname).quote_notMem
  have hfield := (plain_fieldName hfield).quote_notMem
  have hbegin : quote ∉ ofString "      " ∧ quote ∉ ofString ": " :=
    ⟨plain_indent.quote_notMem, plain_separator.quote_notMem⟩
  have hrest : quote ∉ ofString ": " ++ value ++ ofString stop := by
    simp [hbegin, hvalue.quote_notMem, (plain_layoutWord hstop).quote_notMem]
  have hend : ¬ofString field ++ [quote] <+: ofString ": " ++ value ++ ofString stop := fun h =>
    hrest (h.subset (by simp))
  have hend' := TextLines.not_quoted_infix (a := ofString field) hrest
  unfold HasField plainLine
  rw [TextLines.quoted_infix_iff hbegin.1, TextLines.quoted_prefix_iff hfield hname,
    TextLines.quoted_infix_iff hname, ofString_inj]
  exact or_iff_left (not_or.mpr ⟨hend, hend'⟩)

theorem extractStr_stringLine {name : String} {value : Bytes} (hname : name ∈ fieldNames)
    (hvalue : quote ∉ value) : extractStr (stringLine name value) = value := by
  have hname := (plain_fieldName hname).quote_notMem
  have hbegin : quote ∉ ofString "      " ∧ quote ∉ ofString ": " :=
    ⟨plain_indent.quote_notMem, plain_separator.quote_notMem⟩
  unfold extractStr stringLine
  rw [TextLines.after_append hbegin.1, Option.bind_some, TextLines.after_append hname,
    Option.bind_some, TextLines.after_append hbegin.2]
  exact TextLines.takeWhile_append hvalue _

/-- A number is read from its line as the format reads it. -/
theorem extractNum_plainLine {name stop : String} {value : Bytes} (hname : name ∈ fieldNames) :
    extractNum fmt (plainLine name value stop) =
      fmt.stod (ofString " " ++ value ++ ofString stop) := by
  obtain ⟨-, hnames, hsep, hindent, -⟩ := layout_plain
  have hcolon : colon ∉ ofString "      " ++ quote :: (ofString name ++ [quote]) := by
    have hquote : colon ≠ quote := by decide
    simp [hindent, hquote, (hnames name hname).2.2.2]
  have hline : plainLine name value stop = (ofString "      " ++ quote ::
      (ofString name ++ [quote])) ++ colon :: (ofString " " ++ value ++ ofString stop) := by
    simp [plainLine, hsep]
  rw [extractNum, hline, TextLines.after_append hcolon]

/-! ### Braces -/

/-- What `readLine` needs of a value to take its line for a field of the object. -/
structure BraceSafe (text : Bytes) : Prop where
  close : closeBrace ∉ text
  «open» : openBrace ∈ text → ofString "version" <:+: text

/-- The line of a text is as safe for the search for braces as the text. -/
theorem braceSafe_stringLine {name : String} {value : Bytes} (hname : name ∈ fieldNames) :
    BraceSafe (stringLine name value) ↔ BraceSafe value := by
  obtain ⟨hwords, hnames, -, -, hquote⟩ := layout_plain
  obtain ⟨hplain, hnameVersion, -⟩ := hnames name hname
  have hclosed : closeBrace ≠ quote ∧ openBrace ≠ quote := by decide
  have hversion : ¬ofString "version" <:+: ofString "      " ∧
      ¬ofString "version" <:+: ofString ": " ∧ ¬ofString "version" <:+: ofString "," :=
    ⟨(hwords _ (by simp [layoutWords])).2, (hwords _ (by simp [layoutWords])).2,
      (hwords _ (by simp [layoutWords])).2⟩
  have hcloseIff : closeBrace ∈ stringLine name value ↔ closeBrace ∈ value := by
    simp [stringLine, hclosed, plain_indent.closeBrace_notMem, hplain.closeBrace_notMem,
      plain_separator.closeBrace_notMem, plain_comma.closeBrace_notMem]
  have hopenIff : openBrace ∈ stringLine name value ↔ openBrace ∈ value := by
    simp [stringLine, hclosed, plain_indent.openBrace_notMem, hplain.openBrace_notMem,
      plain_separator.openBrace_notMem, plain_comma.openBrace_notMem]
  have hversionIff : ofString "version" <:+: stringLine name value ↔
      ofString "version" <:+: value := by
    unfold stringLine
    simp [TextLines.infix_append_cons_iff hquote, hversion, hnameVersion]
  constructor
  · rintro ⟨hclose, hopen⟩
    exact ⟨mt hcloseIff.mpr hclose, fun h => hversionIff.mp (hopen (hopenIff.mpr h))⟩
  · rintro ⟨hclose, hopen⟩
    exact ⟨mt hcloseIff.mp hclose, fun h => hversionIff.mpr (hopen (hopenIff.mp h))⟩

/-- The line of a number is safe for the search for braces. -/
theorem braceSafe_plainLine {name stop : String} {value : Bytes} (hname : name ∈ fieldNames)
    (hvalue : Plain value) (hstop : stop ∈ layoutWords) :
    BraceSafe (plainLine name value stop) := by
  have hplain := plain_fieldName hname
  have hstop := plain_layoutWord hstop
  have hclosed : closeBrace ≠ quote ∧ openBrace ≠ quote := by decide
  have hclose : closeBrace ∉ plainLine name value stop := by
    simp [plainLine, hclosed, plain_indent.closeBrace_notMem, hplain.closeBrace_notMem,
      plain_separator.closeBrace_notMem, hvalue.closeBrace_notMem, hstop.closeBrace_notMem]
  have hopen : openBrace ∉ plainLine name value stop := by
    simp [plainLine, hclosed, plain_indent.openBrace_notMem, hplain.openBrace_notMem,
      plain_separator.openBrace_notMem, hvalue.openBrace_notMem, hstop.openBrace_notMem]
  exact ⟨hclose, fun h => absurd h hopen⟩

/-- In an object such a line is searched for the fields. -/
theorem readLine_of_braceSafe {s : Reading δ} {line : Bytes} (hline : BraceSafe line)
    (hs : s.inObj = true) : readLine fmt s line = readField fmt s line := by
  have hopen : ¬(openBrace ∈ line ∧ ¬ofString "version" <:+: line) :=
    fun h => h.2 (hline.open h.1)
  have hclose : ¬(closeBrace ∈ line ∧ s.inObj = true) := fun h => hline.close h.1
  rw [readLine, if_neg hopen, if_neg hclose, if_pos hs]

end HeteroAccel.Profiler
