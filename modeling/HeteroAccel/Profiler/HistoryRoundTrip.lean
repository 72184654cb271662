import HeteroAccel.Profiler.HistoryLines

/-!
# Is the history read back?

What `loadProfile` makes of the file that `saveProfile` wrote. Names are written as they are, and a
line is searched for braces and for the quoted names of the fields, so that a name may end an
object, begin one or stand for a field. The file of an empty history has no object, and the brace
that begins it is taken for one.

## Main results

* `quote_notMem_of_loadProfile`, `readable_of_loadProfile`: what keys can come out of a file at all;
* `loadProfile_saveProfile`: what is read from a saved history with such keys;
* `restores_iff`: the history is read back exactly when it is not empty, its keys can be read, and
  the numbers of its statistics can.
-/

namespace HeteroAccel.Profiler

open Bytes (ofString ofDecimal ofInt)

variable {δ : Type} {fmt : DoubleText δ}

/-! ## The keys that are read -/

/-- What holds of the key that is being read, and of all that were. -/
structure Reading.Keys (p : ProfileKey → Prop) (s : Reading δ) : Prop where
  current : p s.currentKey
  loaded : ∀ key ∈ s.loaded, p key

/-- A line of an object changes one field of the key at most. -/
theorem readField_cases {s s' : Reading δ} {line : Bytes} (h : readField fmt s line = some s') :
    s'.loaded = s.loaded ∧
      (s'.currentKey = s.currentKey ∨
        (∃ b, s'.currentKey = { s.currentKey with backend := b }) ∨
        (HasField line "hardware_id" ∧
          s'.currentKey = { s.currentKey with hardwareId := extractStr line }) ∨
        (¬HasField line "hardware_id" ∧ ¬HasField line "backend" ∧
          HasField line "workload_type" ∧
          s'.currentKey = { s.currentKey with workloadType := extractStr line }) ∨
        (¬HasField line "hardware_id" ∧ ¬HasField line "backend" ∧
          ¬HasField line "workload_type" ∧ HasField line "model_name" ∧
          s'.currentKey = { s.currentKey with modelName := extractStr line })) := by
  have hnumber : ∀ {f : δ → Reading δ} {o : Option δ}, o.map f = some s' →
      (∀ d, (f d).loaded = s.loaded ∧ (f d).currentKey = s.currentKey) →
      s'.loaded = s.loaded ∧ s'.currentKey = s.currentKey := by
    intro f o h hf
    obtain ⟨d, -, rfl⟩ := Option.map_eq_some_iff.mp h
    exact hf d
  unfold readField at h
  by_cases hhardware : HasField line "hardware_id"
  · rw [if_pos hhardware] at h
    obtain rfl := Option.some.inj h
    exact ⟨rfl, .inr (.inr (.inl ⟨hhardware, rfl⟩))⟩
  rw [if_neg hhardware] at h
  by_cases hbackend : HasField line "backend"
  · rw [if_pos hbackend] at h
    obtain ⟨d, -, rfl⟩ := Option.map_eq_some_iff.mp h
    exact ⟨rfl, .inr (.inl ⟨_, rfl⟩)⟩
  rw [if_neg hbackend] at h
  by_cases hworkload : HasField line "workload_type"
  · rw [if_pos hworkload] at h
    obtain rfl := Option.some.inj h
    exact ⟨rfl, .inr (.inr (.inr (.inl ⟨hhardware, hbackend, hworkload, rfl⟩)))⟩
  rw [if_neg hworkload] at h
  by_cases hmodel : HasField line "model_name"
  · rw [if_pos hmodel] at h
    obtain rfl := Option.some.inj h
    exact ⟨rfl, .inr (.inr (.inr (.inr ⟨hhardware, hbackend, hworkload, hmodel, rfl⟩)))⟩
  rw [if_neg hmodel] at h
  -- the statistics are no part of the key
  have hkey : s'.loaded = s.loaded ∧ s'.currentKey = s.currentKey := by
    repeat
      split at h
      · first
          | exact hnumber h fun d => ⟨rfl, rfl⟩
          | (obtain rfl := Option.some.inj h
             exact ⟨rfl, rfl⟩)
    obtain rfl := Option.some.inj h
    exact ⟨rfl, rfl⟩
  exact ⟨hkey.1, .inl hkey.2⟩

/-- A line keeps what holds of the keys when it does as a field of an object. -/
theorem Reading.Keys.readLine {p : ProfileKey → Prop} (hdefault : p {}) {s s' : Reading δ}
    {line : Bytes}
    (hfield : p s.currentKey → BraceSafe line → readField fmt s line = some s' → p s'.currentKey)
    (hs : s.Keys p) (h : readLine fmt s line = some s') : s'.Keys p := by
  unfold Profiler.readLine at h
  split_ifs at h with hopen hclose hobject
  · obtain rfl := Option.some.inj h
    exact ⟨hdefault, hs.loaded⟩
  · obtain rfl := Option.some.inj h
    refine ⟨hs.current, fun key hkey => ?_⟩
    obtain rfl | hkey := AList.mem_insert _ |>.mp hkey
    · exact hs.current
    · exact hs.loaded key hkey
  · have hsafe : BraceSafe line := by
      refine ⟨fun hmem => hclose ⟨hmem, hobject⟩, fun hmem => ?_⟩
      by_contra hversion
      exact hopen ⟨hmem, hversion⟩
    refine ⟨hfield hs.current hsafe h, ?_⟩
    rw [(readField_cases h).1]
    exact hs.loaded
  · obtain rfl := Option.some.inj h
    exact hs

/-- What holds of the keys after all lines. -/
theorem Reading.Keys.run {p : ProfileKey → Prop} (hdefault : p {}) {lines : List Bytes}
    (hfield : ∀ line ∈ lines, ∀ s s' : Reading δ, p s.currentKey → BraceSafe line →
      readField fmt s line = some s' → p s'.currentKey)
    {s s' : Reading δ} (hs : s.Keys p) (h : lines.foldlM (Profiler.readLine fmt) s = some s') :
    s'.Keys p := by
  induction lines generalizing s with
  | nil => exact Option.some.inj h ▸ hs
  | cons line lines ih =>
    rw [List.foldlM_cons] at h
    obtain ⟨s₁, hline, hrest⟩ := Option.bind_eq_some_iff.mp h
    obtain ⟨hfirst, hfield⟩ := List.forall_mem_cons.mp hfield
    exact ih hfield (hs.readLine hdefault (hfirst s s₁) hline) hrest

/-- The keys that `loadProfile` reads from a file. -/
theorem keys_of_loadProfile {p : ProfileKey → Prop} (hdefault : p {}) {text : Bytes}
    (hfield : ∀ line ∈ TextLines.lines newline text, ∀ s s' : Reading δ, p s.currentKey →
      BraceSafe line → readField fmt s line = some s' → p s'.currentKey)
    {previous loaded : History δ}
    (h : loadProfile fmt previous (some text) = some (true, loaded)) :
    ∀ key ∈ loaded, p key := by
  obtain ⟨s, hrun, hs⟩ := Option.map_eq_some_iff.mp h
  have hinit : Reading.Keys p { currentStats := HistoricalStats.initial fmt } :=
    ⟨hdefault, fun key hkey => absurd hkey (AList.notMem_empty key)⟩
  obtain rfl : s.loaded = loaded := congrArg Prod.snd hs
  exact (hinit.run hdefault hfield hrun).loaded

/-- Names are read up to a quote. -/
theorem quote_notMem_extractStr (line : Bytes) : quote ∉ extractStr line := by
  unfold extractStr
  split
  next => exact List.not_mem_nil
  next rest _ =>
    intro hmem
    simpa using List.mem_takeWhile_imp hmem

/-- What is loaded has no quote in the names of its keys, for a quote ends a text. -/
theorem quote_notMem_of_loadProfile {text : Bytes} {previous loaded : History δ}
    (h : loadProfile fmt previous (some text) = some (true, loaded)) {key : ProfileKey}
    (hkey : key ∈ loaded) : ∀ name ∈ key.names, quote ∉ name := by
  refine keys_of_loadProfile (p := fun key => ∀ name ∈ key.names, quote ∉ name)
    (by decide) (fun line _ s s' hs _ hread => ?_) h key hkey
  have hextract := quote_notMem_extractStr line
  simp only [ProfileKey.names, List.forall_mem_cons] at hs ⊢
  obtain ⟨-, heq | ⟨b, heq⟩ | ⟨-, heq⟩ | ⟨-, -, -, heq⟩ | ⟨-, -, -, -, heq⟩⟩ :=
    readField_cases hread <;> rw [heq]
  · exact hs
  · exact hs
  · exact ⟨hextract, hs.2⟩
  · exact ⟨hs.1, hextract, hs.2.2⟩
  · exact ⟨hs.1, hs.2.1, hextract, hs.2.2.2⟩

theorem ofString_fieldName_ne_nil : ∀ field ∈ fieldNames, ofString field ≠ [] := by
  decide +kernel

/-- The names of a key are found again. -/
structure ProfileKey.Readable (key : ProfileKey) : Prop where
  quotes : ∀ name ∈ key.names, quote ∉ name
  braces : ∀ name ∈ key.names, BraceSafe name
  /-- The lines of the later names are not taken for those of fields that are searched for before
  them. -/
  workloadType : ∀ field ∈ ["hardware_id", "backend"], ofString field ≠ key.workloadType
  modelName : ∀ field ∈ ["hardware_id", "backend", "workload_type"],
    ofString field ≠ key.modelName

/-- The empty text is safe for the search for braces. -/
theorem braceSafe_nil : BraceSafe [] := ⟨List.not_mem_nil, fun h => absurd h List.not_mem_nil⟩

theorem ProfileKey.readable_default : ProfileKey.Readable {} where
  quotes := by decide
  braces := by simpa [ProfileKey.names] using braceSafe_nil
  workloadType field hfield := ofString_fieldName_ne_nil field (by revert field; decide)
  modelName field hfield := ofString_fieldName_ne_nil field (by revert field; decide)

/-- A line in which a name is found is the line of a name. -/
def Described (line : Bytes) : Prop :=
  ∀ field ∈ ["hardware_id", "workload_type", "model_name"], HasField line field →
    ∃ name value, name ∈ fieldNames ∧ quote ∉ value ∧ line = stringLine name value

/-- The keys read from such lines can be read again. -/
theorem readable_of_readField {s s' : Reading δ} {line : Bytes} (hline : Described line)
    (hs : s.currentKey.Readable) (hsafe : BraceSafe line)
    (h : readField fmt s line = some s') : s'.currentKey.Readable := by
  -- the value of the line, and the fields that it is not
  have hvalue : ∀ field ∈ ["hardware_id", "workload_type", "model_name"], HasField line field →
      quote ∉ extractStr line ∧ BraceSafe (extractStr line) ∧
        ∀ field ∈ fieldNames, ¬HasField line field → ofString field ≠ extractStr line := by
    intro field hfield hhas
    obtain ⟨name, value, hname, hquote, rfl⟩ := hline field hfield hhas
    rw [extractStr_stringLine hname hquote]
    refine ⟨hquote, (braceSafe_stringLine hname).mp hsafe, fun field hfield hnot heq => hnot ?_⟩
    exact (hasField_stringLine hname hfield hquote).mpr (.inr heq)
  obtain ⟨-, heq | ⟨b, heq⟩ | ⟨hhas, heq⟩ | ⟨hhardware, hbackend, hhas, heq⟩ |
    ⟨hhardware, hbackend, hworkload, hhas, heq⟩⟩ := readField_cases h <;> rw [heq]
  · exact hs
  · exact ⟨hs.quotes, hs.braces, hs.workloadType, hs.modelName⟩
  · obtain ⟨hquote, hbrace, -⟩ := hvalue _ (by simp) hhas
    have hquotes := hs.quotes
    have hbraces := hs.braces
    simp only [ProfileKey.names, List.forall_mem_cons] at hquotes hbraces
    refine ⟨?_, ?_, hs.workloadType, hs.modelName⟩ <;>
      simp only [ProfileKey.names, List.forall_mem_cons]
    · exact ⟨hquote, hquotes.2⟩
    · exact ⟨hbrace, hbraces.2⟩
  · obtain ⟨hquote, hbrace, hother⟩ := hvalue _ (by simp) hhas
    have hquotes := hs.quotes
    have hbraces := hs.braces
    simp only [ProfileKey.names, List.forall_mem_cons] at hquotes hbraces
    refine ⟨?_, ?_, ?_, hs.modelName⟩ <;>
      simp only [ProfileKey.names, List.forall_mem_cons, List.not_mem_nil, false_implies,
        implies_true, and_true]
    · exact ⟨hquotes.1, hquote, hquotes.2.2.1⟩
    · exact ⟨hbraces.1, hbrace, hbraces.2.2.1⟩
    · exact ⟨hother _ (by simp [fieldNames]) hhardware, hother _ (by simp [fieldNames]) hbackend⟩
  · obtain ⟨hquote, hbrace, hother⟩ := hvalue _ (by simp) hhas
    have hquotes := hs.quotes
    have hbraces := hs.braces
    simp only [ProfileKey.names, List.forall_mem_cons] at hquotes hbraces
    refine ⟨?_, ?_, hs.workloadType, ?_⟩ <;>
      simp only [ProfileKey.names, List.forall_mem_cons, List.not_mem_nil, false_implies,
        implies_true, and_true]
    · exact ⟨hquotes.1, hquotes.2.1, hquote⟩
    · exact ⟨hbraces.1, hbraces.2.1, hbrace⟩
    · exact ⟨hother _ (by simp [fieldNames]) hhardware, hother _ (by simp [fieldNames]) hbackend,
        hother _ (by simp [fieldNames]) hworkload⟩

/-! ### The keys of a saved history -/

/-- The line of a text without a quote is described. -/
theorem described_stringLine {name : String} {value : Bytes} (hname : name ∈ fieldNames)
    (hvalue : quote ∉ value) : Described (stringLine name value) :=
  fun _ _ _ => ⟨name, value, hname, hvalue, rfl⟩

/-- The line of a number is described, for it names no text. -/
theorem described_plainLine {name stop : String} {value : Bytes}
    (hname : name ∈ fieldNames ∧ name ∉ ["hardware_id", "workload_type", "model_name"])
    (hvalue : Plain value) (hstop : stop ∈ layoutWords) :
    Described (plainLine name value stop) := by
  intro field hfield hhas
  have hnames : ∀ field ∈ ["hardware_id", "workload_type", "model_name"], field ∈ fieldNames := by
    decide
  have hmem := hnames field hfield
  obtain rfl := (hasField_plainLine hname.1 hmem hvalue hstop).mp hhas
  exact absurd hfield hname.2

/-- The lines between the entries are described. -/
theorem described_frameLine {line : Bytes} (h : line ∈ frameLines) : Described line := by
  intro field hfield hhas
  have hnames : ∀ field ∈ ["hardware_id", "workload_type", "model_name"], field ∈ fieldNames := by
    decide
  exact absurd hhas ((frameLines_spec line h).2 field (hnames field hfield))

/-- The lines of an entry are described, if its names have no quote. -/
theorem described_bodyLines {key : ProfileKey} (hkey : ∀ name ∈ key.names, quote ∉ name)
    (stats : HistoricalStats δ) : ∀ line ∈ bodyLines fmt key stats, Described line := by
  obtain ⟨hhardware, hworkload, hmodel⟩ : quote ∉ key.hardwareId ∧ quote ∉ key.workloadType ∧
      quote ∉ key.modelName := by
    simpa [ProfileKey.names] using hkey
  have hcomma : "," ∈ layoutWords := by simp [layoutWords]
  have hempty : "" ∈ layoutWords := by simp [layoutWords]
  simp only [bodyLines, List.forall_mem_cons, List.not_mem_nil, false_implies, implies_true,
    and_true]
  refine ⟨described_frameLine (by simp [frameLines]), described_stringLine (by decide) hhardware,
    described_plainLine (by decide) (plain_ofInt _) hcomma,
    described_stringLine (by decide) hworkload, described_stringLine (by decide) hmodel,
    described_plainLine (by decide) (plain_ofDecimal _) hcomma,
    described_plainLine (by decide) (plain_print _) hcomma,
    described_plainLine (by decide) (plain_print _) hcomma,
    described_plainLine (by decide) (plain_print _) hcomma,
    described_plainLine (by decide) (plain_print _) hcomma,
    described_plainLine (by decide) (plain_ofDecimal _) hcomma,
    described_plainLine (by decide) (plain_flagWord _) hempty⟩

/-- The lines of all entries are described. -/
theorem described_objectsLines {entries : List (ProfileKey × HistoricalStats δ)}
    (h : ∀ e ∈ entries, ∀ name ∈ e.1.names, quote ∉ name) :
    ∀ line ∈ objectsLines fmt entries, Described line := by
  fun_induction objectsLines fmt entries with
  | case1 =>
    intro line hline
    obtain rfl := List.mem_singleton.mp hline
    exact described_frameLine (by simp [frameLines])
  | case2 e =>
    intro line hline
    obtain hbody | hend := List.mem_append.mp hline
    · exact described_bodyLines (h e List.mem_cons_self) e.2 line hbody
    · obtain rfl := List.mem_singleton.mp hend
      exact described_frameLine (by simp [frameLines])
  | case3 e e' rest ih =>
    obtain ⟨he, hrest⟩ := List.forall_mem_cons.mp h
    intro line hline
    obtain hbody | hrestLine := List.mem_append.mp hline
    · obtain hbody | hend := List.mem_append.mp hbody
      · exact described_bodyLines he e.2 line hbody
      · obtain rfl := List.mem_singleton.mp hend
        exact described_frameLine (by simp [frameLines])
    · exact ih hrest line hrestLine

/-- The entries in the order in which they are saved. -/
def saved (t : Traversal (Σ _ : ProfileKey, HistoricalStats δ)) (history : History δ) :
    List (ProfileKey × HistoricalStats δ) :=
  (t.visit history.entries).map fun e => (e.1, e.2)

/-- What is saved is what the history has. -/
theorem mem_saved {t : Traversal (Σ _ : ProfileKey, HistoricalStats δ)} {history : History δ}
    {key : ProfileKey} {stats : HistoricalStats δ} :
    (key, stats) ∈ saved t history ↔ history.lookup key = some stats := by
  rw [← KeyedMap.mem_entries_iff, ← t.mem_visit]
  simp [saved]

theorem mem_of_mem_saved {t : Traversal (Σ _ : ProfileKey, HistoricalStats δ)}
    {history : History δ} {e : ProfileKey × HistoricalStats δ} (h : e ∈ saved t history) :
    e.1 ∈ history :=
  AList.lookup_isSome.mp (by rw [mem_saved.mp h]; rfl)

/-- The keys read from a saved history whose names have no quotes can be read again. -/
theorem readable_of_loadProfile {t : Traversal (Σ _ : ProfileKey, HistoricalStats δ)}
    {history previous loaded : History δ}
    (hnewline : ∀ key ∈ history, ∀ name ∈ key.names, newline ∉ name)
    (hquote : ∀ key ∈ history, ∀ name ∈ key.names, quote ∉ name)
    (h : loadProfile fmt previous (some (saveProfile fmt t history)) = some (true, loaded)) :
    ∀ key ∈ loaded, key.Readable := by
  have hlines : ∀ line ∈ TextLines.lines newline (saveProfile fmt t history),
      Described line := by
    intro line hline
    rw [lines_saveProfile t hnewline] at hline
    obtain hhead | hline := List.mem_append.mp hline
    · exact described_frameLine (by simp [frameLines, hhead])
    obtain hobjects | htail := List.mem_append.mp hline
    · exact described_objectsLines (fun e he => hquote e.1 (mem_of_mem_saved he)) line hobjects
    · exact described_frameLine (by simp [frameLines, htail])
  exact keys_of_loadProfile ProfileKey.readable_default
    (fun line hline s s' hs hsafe hread => readable_of_readField (hlines line hline) hs hsafe hread)
    h

/-! ## Reading an object -/

variable (fmt) in
/-- The number that is read from a line with this value. -/
def number (value : Bytes) : Option δ := fmt.stod (ofString " " ++ value ++ ofString ",")

variable (fmt) in
/-- The statistics that are read where these were saved. -/
def reread (stats : HistoricalStats δ) : Option (HistoricalStats δ) :=
  (number fmt (ofDecimal stats.sampleCount.toNat)).bind fun sampleCount =>
  (number fmt (fmt.print stats.emaDurationMs)).bind fun emaDurationMs =>
  (number fmt (fmt.print stats.variance)).bind fun variance =>
  (number fmt (fmt.print stats.minDurationMs)).bind fun minDurationMs =>
  (number fmt (fmt.print stats.maxDurationMs)).bind fun maxDurationMs =>
  (number fmt (ofDecimal stats.failureCount.toNat)).bind fun failureCount =>
  some {
    sampleCount := fmt.toUInt64 sampleCount
    emaDurationMs := emaDurationMs
    variance := variance
    minDurationMs := minDurationMs
    maxDurationMs := maxDurationMs
    failureCount := fmt.toUInt64 failureCount
    regressionDetected := stats.regressionDetected }

/-- A line without fields is passed over. -/
theorem readLine_of_not {s : Reading δ} {line : Bytes} (hsafe : BraceSafe line)
    (h : ∀ field ∈ fieldNames, ¬HasField line field) : readLine fmt s line = some s := by
  by_cases hs : s.inObj = true
  · rw [readLine_of_braceSafe hsafe hs]
    simp only [fieldNames, List.forall_mem_cons] at h
    simp [readField, h]
  · have hopen : ¬(openBrace ∈ line ∧ ¬ofString "version" <:+: line) :=
      fun hmem => hmem.2 (hsafe.open hmem.1)
    rw [readLine, if_neg hopen, if_neg fun hmem => hs hmem.2, if_neg hs]

/-- An opening brace begins an entry, unless the line names the version. -/
theorem readLine_open {s : Reading δ} {line : Bytes} (h : openBrace ∈ line)
    (hversion : ¬ofString "version" <:+: line) :
    readLine fmt s line =
      some { s with inObj := true, currentKey := {}, currentStats := .initial fmt } := by
  rw [readLine, if_pos ⟨h, hversion⟩]

/-- Which lines of the frame begin and end an object. -/
theorem frameBraces :
    (openBrace ∈ ofString "    \x7b" ∧ ¬ofString "version" <:+: ofString "    \x7b") ∧
      (openBrace ∈ ofString "\x7b" ∧ ¬ofString "version" <:+: ofString "\x7b") ∧
      (openBrace ∉ ofString "    \x7d" ∧ closeBrace ∈ ofString "    \x7d") ∧
      (openBrace ∉ ofString "    \x7d," ∧ closeBrace ∈ ofString "    \x7d,") ∧
      (openBrace ∉ ofString "\x7d" ∧ closeBrace ∈ ofString "\x7d") ∧
      ∀ line ∈ headLines.tail ++ [ofString "  ]"], closeBrace ∉ line ∧ openBrace ∉ line := by
  decide +kernel

/-- A closing brace ends the entry that is being read. -/
theorem readLine_close {s : Reading δ} {line : Bytes} (hopen : openBrace ∉ line)
    (h : closeBrace ∈ line) :
    readLine fmt s line = some (if s.inObj then
      { s with inObj := false, loaded := s.loaded.insert s.currentKey s.currentStats } else s) := by
  unfold readLine
  rw [if_neg fun hmem => hopen hmem.1]
  by_cases hs : s.inObj = true
  · rw [if_pos ⟨h, hs⟩, if_pos hs]
  · rw [if_neg fun hmem => hs hmem.2, if_neg hs, if_neg hs]

/-- In an object the lines of the names set the key. -/
theorem readLine_stringLine {s : Reading δ} (hs : s.inObj = true) {key : ProfileKey}
    (hkey : key.Readable) :
    readLine fmt s (stringLine "hardware_id" key.hardwareId) =
        some { s with currentKey.hardwareId := key.hardwareId } ∧
      readLine fmt s (stringLine "workload_type" key.workloadType) =
        some { s with currentKey.workloadType := key.workloadType } ∧
      readLine fmt s (stringLine "model_name" key.modelName) =
        some { s with currentKey.modelName := key.modelName } := by
  have hquotes := hkey.quotes
  have hbraces := hkey.braces
  have hworkload := hkey.workloadType
  have hmodel := hkey.modelName
  simp only [ProfileKey.names, List.forall_mem_cons] at hquotes hbraces hworkload hmodel
  -- the line is searched for the fields in this order
  have hfield : ∀ name ∈ fieldNames, ∀ value, quote ∉ value → BraceSafe value →
      readLine fmt s (stringLine name value) = readField fmt s (stringLine name value) ∧
      ∀ field ∈ fieldNames, HasField (stringLine name value) field ↔
        field = name ∨ ofString field = value :=
    fun name hname value hquote hbrace =>
      ⟨readLine_of_braceSafe ((braceSafe_stringLine hname).mpr hbrace) hs,
        fun field hfield => hasField_stringLine hname hfield hquote⟩
  refine ⟨?_, ?_, ?_⟩
  · obtain ⟨hread, hhas⟩ := hfield "hardware_id" (by decide) _ hquotes.1 hbraces.1
    rw [hread, readField, if_pos ((hhas _ (by decide)).mpr (.inl rfl)),
      extractStr_stringLine (by decide) hquotes.1]
  · obtain ⟨hread, hhas⟩ := hfield "workload_type" (by decide) _ hquotes.2.1 hbraces.2.1
    rw [hread, readField, if_neg (mt (hhas _ (by decide)).mp (by simp [hworkload])),
      if_neg (mt (hhas _ (by decide)).mp (by simp [hworkload])),
      if_pos ((hhas _ (by decide)).mpr (.inl rfl)),
      extractStr_stringLine (by decide) hquotes.2.1]
  · obtain ⟨hread, hhas⟩ := hfield "model_name" (by decide) _ hquotes.2.2.1 hbraces.2.2.1
    rw [hread, readField, if_neg (mt (hhas _ (by decide)).mp (by simp [hmodel])),
      if_neg (mt (hhas _ (by decide)).mp (by simp [hmodel])),
      if_neg (mt (hhas _ (by decide)).mp (by simp [hmodel])),
      if_pos ((hhas _ (by decide)).mpr (.inl rfl)),
      extractStr_stringLine (by decide) hquotes.2.2.1]

/-- A line of another field is searched for nothing but its name. -/
theorem readLine_plainLine {s : Reading δ} (hs : s.inObj = true) {name stop : String}
    (hname : name ∈ fieldNames) {value : Bytes} (hvalue : Plain value)
    (hstop : stop ∈ layoutWords) :
    readLine fmt s (plainLine name value stop) = readField fmt s (plainLine name value stop) ∧
      ∀ field ∈ fieldNames, HasField (plainLine name value stop) field ↔ field = name := by
  exact ⟨readLine_of_braceSafe (braceSafe_plainLine hname hvalue hstop) hs,
    fun field hfield => hasField_plainLine hname hfield hvalue hstop⟩

/-- In an object the lines of numbers are read with `stod`. -/
theorem readLine_number {s : Reading δ} (hs : s.inObj = true) {value : Bytes}
    (hvalue : Plain value) :
    readLine fmt s (plainLine "backend" value ",") =
        (number fmt value).map (fun d => { s with currentKey.backend := fmt.toInt32 d }) ∧
      readLine fmt s (plainLine "sample_count" value ",") =
        (number fmt value).map (fun d => { s with currentStats.sampleCount := fmt.toUInt64 d }) ∧
      readLine fmt s (plainLine "ema_duration_ms" value ",") =
        (number fmt value).map (fun d => { s with currentStats.emaDurationMs := d }) ∧
      readLine fmt s (plainLine "variance" value ",") =
        (number fmt value).map (fun d => { s with currentStats.variance := d }) ∧
      readLine fmt s (plainLine "min_duration_ms" value ",") =
        (number fmt value).map (fun d => { s with currentStats.minDurationMs := d }) ∧
      readLine fmt s (plainLine "max_duration_ms" value ",") =
        (number fmt value).map (fun d => { s with currentStats.maxDurationMs := d }) ∧
      readLine fmt s (plainLine "failure_count" value ",") =
        (number fmt value).map
          (fun d => { s with currentStats.failureCount := fmt.toUInt64 d }) := by
  -- a line holds its own field and no other
  have hline : ∀ name ∈ fieldNames,
      readLine fmt s (plainLine name value ",") = readField fmt s (plainLine name value ",") ∧
      (∀ field ∈ fieldNames, HasField (plainLine name value ",") field ↔ field = name) ∧
      extractNum fmt (plainLine name value ",") = number fmt value := by
    intro name hname
    have hstop : "," ∈ layoutWords := by decide
    obtain ⟨hread, hhas⟩ := readLine_plainLine hs hname hvalue hstop
    exact ⟨hread, hhas, extractNum_plainLine hname⟩
  refine ⟨?_, ?_, ?_, ?_, ?_, ?_, ?_⟩
  · obtain ⟨hread, hhas, hnumber⟩ := hline "backend" (by decide)
    simp only [fieldNames, List.forall_mem_cons] at hhas
    simp [hread, readField, hhas, hnumber]
  · obtain ⟨hread, hhas, hnumber⟩ := hline "sample_count" (by decide)
    simp only [fieldNames, List.forall_mem_cons] at hhas
    simp [hread, readField, hhas, hnumber]
  · obtain ⟨hread, hhas, hnumber⟩ := hline "ema_duration_ms" (by decide)
    simp only [fieldNames, List.forall_mem_cons] at hhas
    simp [hread, readField, hhas, hnumber]
  · obtain ⟨hread, hhas, hnumber⟩ := hline "variance" (by decide)
    simp only [fieldNames, List.forall_mem_cons] at hhas
    simp [hread, readField, hhas, hnumber]
  · obtain ⟨hread, hhas, hnumber⟩ := hline "min_duration_ms" (by decide)
    simp only [fieldNames, List.forall_mem_cons] at hhas
    simp [hread, readField, hhas, hnumber]
  · obtain ⟨hread, hhas, hnumber⟩ := hline "max_duration_ms" (by decide)
    simp only [fieldNames, List.forall_mem_cons] at hhas
    simp [hread, readField, hhas, hnumber]
  · obtain ⟨hread, hhas, hnumber⟩ := hline "failure_count" (by decide)
    simp only [fieldNames, List.forall_mem_cons] at hhas
    simp [hread, readField, hhas, hnumber]

/-- In an object the line of the flag sets the flag. -/
theorem readLine_flag {s : Reading δ} (hs : s.inObj = true) (b : Bool) :
    readLine fmt s (plainLine "regression_detected" (flagWord b) "") =
      some { s with currentStats.regressionDetected := b } := by
  have hname : "regression_detected" ∈ fieldNames := by decide
  have hstop : "" ∈ layoutWords := by decide
  obtain ⟨hread, hhas⟩ := readLine_plainLine hs hname (plain_flagWord b) hstop
  have hword : ∀ b, (ofString "true" <:+: plainLine "regression_detected" (flagWord b) "") ↔
      b = true := by decide +kernel
  simp only [fieldNames, List.forall_mem_cons] at hhas
  rw [hread, readField]
  simp [hhas, hword]

/-- The lines of an object are read as its key and what its numbers are read as. -/
theorem foldlM_bodyLines {key : ProfileKey} (hkey : key.Readable) (stats : HistoricalStats δ)
    (s : Reading δ) :
    (bodyLines fmt key stats).foldlM (readLine fmt) s = (reread fmt stats).map fun stats =>
      { loaded := s.loaded, currentKey := key, currentStats := stats, inObj := true } := by
  have hfirst : readLine fmt s (ofString "    \x7b") =
      some { s with inObj := true, currentKey := {}, currentStats := .initial fmt } :=
    readLine_open frameBraces.1.1 frameBraces.1.2
  obtain ⟨backend, hbackend, hint⟩ := fmt.stod_ofInt key.backend
  have hbackend : number fmt (ofInt key.backend.toInt) = some backend := hbackend
  simp only [bodyLines, List.foldlM_cons, List.foldlM_nil, Option.bind_eq_bind, hfirst,
    Option.bind_some, readLine_stringLine, readLine_number, hkey, plain_ofInt, plain_ofDecimal,
    plain_print, hbackend, hint, readLine_flag, Option.map_some, Option.bind_map,
    Function.comp_def, Option.pure_def, reread, Option.map_bind]

variable (fmt) in
/-- The pairs that are read where these entries were saved. -/
def rereadAll (entries : List (ProfileKey × HistoricalStats δ)) :
    Option (List (ProfileKey × HistoricalStats δ)) :=
  entries.mapM fun e => (reread fmt e.2).map fun stats => (e.1, stats)

/-- Every entry has been read. -/
theorem exists_of_rereadAll {entries read : List (ProfileKey × HistoricalStats δ)}
    (h : rereadAll fmt entries = some read) {e : ProfileKey × HistoricalStats δ}
    (he : e ∈ entries) : ∃ stats, reread fmt e.2 = some stats ∧ (e.1, stats) ∈ read := by
  induction entries generalizing read with
  | nil => cases he
  | cons first rest ih =>
    rw [rereadAll, List.mapM_cons] at h
    obtain ⟨r, hr, h⟩ := Option.bind_eq_some_iff.mp h
    obtain ⟨stats, hstats, rfl⟩ := Option.map_eq_some_iff.mp hr
    obtain ⟨read, hread, h⟩ := Option.bind_eq_some_iff.mp h
    obtain rfl := Option.some.inj h
    obtain rfl | he := List.mem_cons.mp he
    · exact ⟨stats, hstats, List.mem_cons_self⟩
    · obtain ⟨stats, hstats, hmem⟩ := ih hread he
      exact ⟨stats, hstats, List.mem_cons_of_mem _ hmem⟩

/-- Whatever has been read was an entry. -/
theorem of_mem_rereadAll {entries read : List (ProfileKey × HistoricalStats δ)}
    (h : rereadAll fmt entries = some read) {r : ProfileKey × HistoricalStats δ} (hr : r ∈ read) :
    ∃ stats, (r.1, stats) ∈ entries ∧ reread fmt stats = some r.2 := by
  induction entries generalizing read with
  | nil =>
    obtain rfl := Option.some.inj h
    cases hr
  | cons first rest ih =>
    rw [rereadAll, List.mapM_cons] at h
    obtain ⟨r', hr', h⟩ := Option.bind_eq_some_iff.mp h
    obtain ⟨stats, hstats, rfl⟩ := Option.map_eq_some_iff.mp hr'
    obtain ⟨read, hread, h⟩ := Option.bind_eq_some_iff.mp h
    obtain rfl := Option.some.inj h
    obtain rfl | hr := List.mem_cons.mp hr
    · exact ⟨first.2, List.mem_cons_self, hstats⟩
    · obtain ⟨stats, hmem, hstats⟩ := ih hread hr
      exact ⟨stats, List.mem_cons_of_mem _ hmem, hstats⟩

/-- Entries that are read back one by one are read back together. -/
theorem exists_rereadAll {entries : List (ProfileKey × HistoricalStats δ)}
    (h : ∀ e ∈ entries, ∃ stats, reread fmt e.2 = some stats) :
    ∃ read, rereadAll fmt entries = some read := by
  induction entries with
  | nil => exact ⟨[], rfl⟩
  | cons e rest ih =>
    obtain ⟨⟨stats, hstats⟩, hrest⟩ := List.forall_mem_cons.mp h
    obtain ⟨read, hread⟩ := ih hrest
    refine ⟨(e.1, stats) :: read, ?_⟩
    unfold rereadAll at hread ⊢
    rw [List.mapM_cons, hstats, hread]
    rfl

/-- The end of an object. -/
def Reading.finish (s : Reading δ) (e : ProfileKey × HistoricalStats δ) : Reading δ where
  loaded := s.loaded.insert e.1 e.2
  currentKey := e.1
  currentStats := e.2
  inObj := false

/-- The lines of one entry are read as its key and what its numbers become. -/
theorem foldlM_object {key : ProfileKey} (hkey : key.Readable) (stats : HistoricalStats δ)
    {line : Bytes} (hopen : openBrace ∉ line) (hclose : closeBrace ∈ line) (s : Reading δ) :
    (bodyLines fmt key stats ++ [line]).foldlM (readLine fmt) s =
      (reread fmt stats).map fun stats => s.finish (key, stats) := by
  rw [List.foldlM_append, foldlM_bodyLines hkey]
  cases reread fmt stats with
  | none => rfl
  | some stats =>
    simp only [Option.map_some, Option.bind_eq_bind, Option.bind_some, List.foldlM_cons,
      List.foldlM_nil, readLine_close hopen hclose, if_true]
    rfl

/-- The lines of all entries are read one entry after the other. -/
theorem foldlM_objectsLines {entries : List (ProfileKey × HistoricalStats δ)}
    (h : ∀ e ∈ entries, e.1.Readable) (s : Reading δ) :
    (objectsLines fmt entries).foldlM (readLine fmt) s =
      (rereadAll fmt entries).map fun read => read.foldl Reading.finish s := by
  obtain ⟨-, -, hclose, hcloseComma, -⟩ := frameBraces
  induction entries generalizing s with
  | nil =>
    have hempty : ∀ field ∈ fieldNames, ¬HasField [] field :=
      (frameLines_spec [] (by simp [frameLines])).2
    simp [objectsLines, rereadAll, readLine_of_not braceSafe_nil hempty]
  | cons e rest ih =>
    obtain ⟨he, hrest⟩ := List.forall_mem_cons.mp h
    cases rest with
    | nil =>
      rw [objectsLines, foldlM_object he e.2 hclose.1 hclose.2, rereadAll, List.mapM_cons,
        List.mapM_nil]
      cases reread fmt e.2 <;> rfl
    | cons e' rest =>
      rw [objectsLines, List.foldlM_append, foldlM_object he e.2 hcloseComma.1 hcloseComma.2,
        rereadAll, List.mapM_cons]
      cases reread fmt e.2 with
      | none => rfl
      | some stats =>
        -- the reading goes on with the next object
        simp only [Option.map_some, Option.bind_eq_bind, Option.bind_some, ih hrest]
        unfold rereadAll
        cases List.mapM (fun e => (reread fmt e.2).map fun stats => (e.1, stats)) (e' :: rest)
        <;> rfl

/-! ## The whole file -/

/-- The entries that were read join the history in their order. -/
theorem foldl_finish (read : List (ProfileKey × HistoricalStats δ)) (s : Reading δ) :
    (read.foldl Reading.finish s).loaded = read.foldl (fun m e => m.insert e.1 e.2) s.loaded ∧
      (read ≠ [] → (read.foldl Reading.finish s).inObj = false) := by
  induction read generalizing s with
  | nil => exact ⟨rfl, fun h => absurd rfl h⟩
  | cons e rest ih =>
    obtain ⟨hloaded, hobject⟩ := ih (s.finish e)
    refine ⟨hloaded, fun _ => ?_⟩
    by_cases hrest : rest = []
    · subst hrest
      rfl
    · exact hobject hrest

/-- The first lines leave an object begun. -/
theorem foldlM_headLines :
    headLines.foldlM (readLine fmt) { currentStats := .initial fmt } =
      some { currentStats := .initial fmt, inObj := true } := by
  obtain ⟨-, hfirstLine, -, -, -, hidleLines⟩ := frameBraces
  have hidle : ∀ line ∈ headLines.tail, ∀ s : Reading δ, readLine fmt s line = some s := by
    intro line hline s
    have hframe : line ∈ frameLines := by simp [frameLines, List.mem_of_mem_tail hline]
    obtain ⟨hclose, hopen⟩ := hidleLines line (List.mem_append_left _ hline)
    exact readLine_of_not ⟨hclose, fun h => absurd h hopen⟩ (frameLines_spec line hframe).2
  have hfirst : readLine fmt { currentStats := .initial fmt } (ofString "\x7b") =
      some { currentStats := .initial fmt, inObj := true } :=
    readLine_open hfirstLine.1 hfirstLine.2
  rw [headLines, List.foldlM_cons, hfirst]
  simp only [headLines, List.tail_cons, List.forall_mem_cons] at hidle
  simp [hidle]

/-- The last lines end an object that was begun. -/
theorem foldlM_tailLines (s : Reading δ) :
    tailLines.foldlM (readLine fmt) s = some (if s.inObj then
      { s with inObj := false, loaded := s.loaded.insert s.currentKey s.currentStats } else s) := by
  obtain ⟨-, -, -, -, hlastLine, hidleLines⟩ := frameBraces
  have hfirst : readLine fmt s (ofString "  ]") = some s := by
    have hframe : ofString "  ]" ∈ frameLines := by simp [frameLines, tailLines]
    obtain ⟨hclose, hopen⟩ := hidleLines (ofString "  ]") (by simp)
    exact readLine_of_not ⟨hclose, fun h => absurd h hopen⟩ (frameLines_spec _ hframe).2
  have hlast : readLine fmt s (ofString "\x7d") = some (if s.inObj then
      { s with inObj := false, loaded := s.loaded.insert s.currentKey s.currentStats } else s) :=
    readLine_close hlastLine.1 hlastLine.2
  simp only [tailLines, List.foldlM_cons, hfirst, Option.bind_eq_bind, Option.bind_some, hlast,
    List.foldlM_nil]
  rfl

/-- What is read from a saved history with such keys. -/
theorem loadProfile_saveProfile {t : Traversal (Σ _ : ProfileKey, HistoricalStats δ)}
    {history : History δ} (hnewline : ∀ key ∈ history, ∀ name ∈ key.names, newline ∉ name)
    (hkeys : ∀ key ∈ history, key.Readable) (hne : saved t history ≠ []) (previous : History δ) :
    loadProfile fmt previous (some (saveProfile fmt t history)) =
      (rereadAll fmt (saved t history)).map fun read => (true, KeyedMap.ofPairs read) := by
  unfold loadProfile
  dsimp only
  rw [lines_saveProfile t hnewline, List.foldlM_append, foldlM_headLines, Option.bind_eq_bind,
    Option.bind_some, List.foldlM_append, ← saved,
    foldlM_objectsLines fun e he => hkeys e.1 (mem_of_mem_saved he)]
  cases hread : rereadAll fmt (saved t history) with
  | none => rfl
  | some read =>
    have hread_ne : read ≠ [] := by
      obtain ⟨e, he⟩ := List.exists_mem_of_ne_nil _ hne
      obtain ⟨stats, -, hmem⟩ := exists_of_rereadAll hread he
      exact List.ne_nil_of_mem hmem
    obtain ⟨hloaded, hobject⟩ := foldl_finish read { currentStats := .initial fmt, inObj := true }
    simp only [Option.map_some, Option.bind_eq_bind, Option.bind_some, foldlM_tailLines,
      hobject hread_ne, Bool.false_eq_true, if_false, hloaded]
    rfl

/-! ## Restoring -/

/-- The counts and the flag of the statistics. -/
def HistoricalStats.counts (stats : HistoricalStats δ) : UInt64 × UInt64 × Bool :=
  (stats.sampleCount, stats.failureCount, stats.regressionDetected)

variable (fmt) in
/-- The texts of the numbers are accepted again, those of the counts with their value. -/
structure HistoricalStats.Readable (stats : HistoricalStats δ) : Prop where
  durations : ∀ d ∈ [stats.emaDurationMs, stats.variance, stats.minDurationMs,
    stats.maxDurationMs], (number fmt (fmt.print d)).isSome
  counts : ∀ n ∈ [stats.sampleCount, stats.failureCount],
    ∃ d, number fmt (ofDecimal n.toNat) = some d ∧ fmt.toUInt64 d = n

variable (fmt) in
/-- Loading the saved file restores the keys with their counts and flags. -/
def Restores (t : Traversal (Σ _ : ProfileKey, HistoricalStats δ)) (history : History δ) : Prop :=
  ∀ previous, ∃ loaded,
    loadProfile fmt previous (some (saveProfile fmt t history)) = some (true, loaded) ∧
      ∀ key, (loaded.lookup key).map HistoricalStats.counts =
        (history.lookup key).map HistoricalStats.counts

/-- Statistics are readable if they are read at all, with the counts they had. -/
theorem HistoricalStats.readable_iff {stats : HistoricalStats δ} :
    stats.Readable fmt ↔ ∃ read, reread fmt stats = some read ∧ read.counts = stats.counts := by
  constructor
  · rintro ⟨hdurations, hcounts⟩
    simp only [List.forall_mem_cons, Option.isSome_iff_exists] at hdurations hcounts
    obtain ⟨⟨ema, hema⟩, ⟨variance, hvariance⟩, ⟨min, hmin⟩, ⟨max, hmax⟩, -⟩ := hdurations
    obtain ⟨⟨sample, hsample, hsampleEq⟩, ⟨failure, hfailure, hfailureEq⟩, -⟩ := hcounts
    refine ⟨_, by
      simp only [reread, hema, hvariance, hmin, hmax, hsample, hfailure, Option.bind_some]
      rfl, ?_⟩
    simp [HistoricalStats.counts, hsampleEq, hfailureEq]
  · rintro ⟨read, hread, hcounts⟩
    obtain ⟨sample, hsample, hread⟩ := Option.bind_eq_some_iff.mp hread
    obtain ⟨ema, hema, hread⟩ := Option.bind_eq_some_iff.mp hread
    obtain ⟨variance, hvariance, hread⟩ := Option.bind_eq_some_iff.mp hread
    obtain ⟨min, hmin, hread⟩ := Option.bind_eq_some_iff.mp hread
    obtain ⟨max, hmax, hread⟩ := Option.bind_eq_some_iff.mp hread
    obtain ⟨failure, hfailure, hread⟩ := Option.bind_eq_some_iff.mp hread
    obtain rfl := Option.some.inj hread
    simp only [HistoricalStats.counts, Prod.mk.injEq, and_true] at hcounts
    constructor
    · simp [hema, hvariance, hmin, hmax]
    · simp [hsample, hfailure, hcounts]

/-- Counts that a double can be are read again. -/
theorem HistoricalStats.readable_of_lt {stats : HistoricalStats δ}
    (hdurations : ∀ d ∈ [stats.emaDurationMs, stats.variance, stats.minDurationMs,
      stats.maxDurationMs], (number fmt (fmt.print d)).isSome)
    (hsample : stats.sampleCount.toNat < 2 ^ 53) (hfailure : stats.failureCount.toNat < 2 ^ 53) :
    stats.Readable fmt := by
  refine ⟨hdurations, fun n hn => ?_⟩
  obtain rfl | hn := List.mem_cons.mp hn
  · exact fmt.stod_ofDecimal _ hsample
  · obtain rfl := List.mem_singleton.mp hn
    exact fmt.stod_ofDecimal _ hfailure

/-- From the file of the empty history one key is read. -/
theorem loadProfile_empty (t : Traversal (Σ _ : ProfileKey, HistoricalStats δ))
    (previous : History δ) :
    loadProfile fmt previous (some (saveProfile fmt t ∅)) =
      some (true, AList.insert {} (.initial fmt) ∅) := by
  have hempty : (t.visit (∅ : History δ).entries).map (fun e => (e.1, e.2)) = [] := by
    have := (t.perm (∅ : History δ).entries).length_eq
    exact List.map_eq_nil_iff.mpr (List.eq_nil_of_length_eq_zero this)
  unfold loadProfile
  dsimp only
  rw [lines_saveProfile t (fun key hkey => absurd hkey (AList.notMem_empty key)), hempty,
    List.foldlM_append, foldlM_headLines, Option.bind_eq_bind, Option.bind_some,
    List.foldlM_append, foldlM_objectsLines (by simp)]
  simp only [rereadAll, List.mapM_nil, Option.pure_def, Option.map_some, List.foldl_nil,
    Option.bind_eq_bind, Option.bind_some, foldlM_tailLines, if_true]

/-- A saved key is read with what its statistics are read as, and only a saved key is. -/
theorem lookup_ofPairs_rereadAll {t : Traversal (Σ _ : ProfileKey, HistoricalStats δ)}
    {history : History δ} {read : List (ProfileKey × HistoricalStats δ)}
    (h : rereadAll fmt (saved t history) = some read) (key : ProfileKey) :
    (KeyedMap.ofPairs read).lookup key = (history.lookup key).bind (reread fmt) := by
  cases hlookup : (KeyedMap.ofPairs read).lookup key with
  | none =>
    cases hhistory : history.lookup key with
    | none => rfl
    | some stats =>
      obtain ⟨stats', -, hmem⟩ := exists_of_rereadAll h (mem_saved.mpr hhistory)
      obtain ⟨stats', hsome⟩ := KeyedMap.exists_lookup_ofPairs hmem
      rw [hlookup] at hsome
      cases hsome
  | some stats' =>
    obtain ⟨stats, hstats, hreread⟩ := of_mem_rereadAll h (KeyedMap.mem_of_lookup_ofPairs hlookup)
    rw [mem_saved.mp hstats, Option.bind_some, hreread]

/-- A history that is not empty saves some entry. -/
theorem saved_ne_nil {t : Traversal (Σ _ : ProfileKey, HistoricalStats δ)} {history : History δ}
    (h : history ≠ ∅) : saved t history ≠ [] := by
  intro hnil
  apply h
  have hentries : (t.visit history.entries).length = 0 :=
    congrArg List.length (List.map_eq_nil_iff.mp hnil)
  rw [(t.perm _).length_eq] at hentries
  ext1
  exact List.eq_nil_of_length_eq_zero hentries

/-- A history whose entries are readable is restored. -/
theorem restores_of_readable {t : Traversal (Σ _ : ProfileKey, HistoricalStats δ)}
    {history : History δ} (h : ∀ key ∈ history, ∀ name ∈ key.names, newline ∉ name)
    (hne : history ≠ ∅)
    (hreadable : ∀ key stats, history.lookup key = some stats →
      key.Readable ∧ stats.Readable fmt) : Restores fmt t history := by
  intro previous
  have hkeys : ∀ key ∈ history, key.Readable := by
    intro key hkey
    obtain ⟨stats, hlookup⟩ := Option.isSome_iff_exists.mp (AList.lookup_isSome.mpr hkey)
    exact (hreadable key stats hlookup).1
  have hstats : ∀ e ∈ saved t history, ∃ stats, reread fmt e.2 = some stats := by
    intro e he
    obtain ⟨stats, hstats, -⟩ :=
      HistoricalStats.readable_iff.mp (hreadable e.1 e.2 (mem_saved.mp he)).2
    exact ⟨stats, hstats⟩
  -- so every entry is read again
  obtain ⟨read, hread⟩ := exists_rereadAll hstats
  refine ⟨KeyedMap.ofPairs read, ?_, fun key => ?_⟩
  · rw [loadProfile_saveProfile h hkeys (saved_ne_nil hne), hread]
    rfl
  · rw [lookup_ofPairs_rereadAll hread]
    cases hlookup : history.lookup key with
    | none => rfl
    | some stats =>
      obtain ⟨stats', hreread, hcounts⟩ :=
        HistoricalStats.readable_iff.mp (hreadable key stats hlookup).2
      rw [Option.bind_some, hreread, Option.map_some, Option.map_some, hcounts]

/-- A history that is restored is not empty, and its entries are readable. -/
theorem readable_of_restores {t : Traversal (Σ _ : ProfileKey, HistoricalStats δ)}
    {history : History δ} (h : ∀ key ∈ history, ∀ name ∈ key.names, newline ∉ name)
    (hrestores : Restores fmt t history) :
    history ≠ ∅ ∧ ∀ key stats, history.lookup key = some stats →
      key.Readable ∧ stats.Readable fmt := by
  obtain ⟨loaded, hload, hloaded⟩ := hrestores ∅
  have hmem : ∀ key, key ∈ loaded ↔ key ∈ history := by
    intro key
    rw [← AList.lookup_isSome, ← AList.lookup_isSome]
    simpa using congrArg Option.isSome (hloaded key)
  have hne : history ≠ ∅ := by
    rintro rfl
    rw [loadProfile_empty] at hload
    obtain rfl : _ = loaded := congrArg Prod.snd (Option.some.inj hload)
    exact AList.notMem_empty _ ((hmem {}).mp (AList.mem_insert _ |>.mpr (.inl rfl)))
  -- all keys of the history were read, hence can be
  have hquotes : ∀ key ∈ history, ∀ name ∈ key.names, quote ∉ name := fun key hkey =>
    quote_notMem_of_loadProfile hload ((hmem key).mpr hkey)
  have hkeys : ∀ key ∈ history, key.Readable := fun key hkey =>
    readable_of_loadProfile h hquotes hload key ((hmem key).mpr hkey)
  rw [loadProfile_saveProfile h hkeys (saved_ne_nil hne)] at hload
  obtain ⟨read, hread, hread_eq⟩ := Option.map_eq_some_iff.mp hload
  obtain rfl : KeyedMap.ofPairs read = loaded := congrArg Prod.snd hread_eq
  refine ⟨hne, fun key stats hlookup => ⟨?_, ?_⟩⟩
  · exact hkeys key (AList.lookup_isSome.mp (by rw [hlookup]; rfl))
  · have hcounts := hloaded key
    rw [lookup_ofPairs_rereadAll hread, hlookup, Option.bind_some] at hcounts
    obtain ⟨stats', hreread, hcounts⟩ := Option.map_eq_some_iff.mp hcounts
    exact HistoricalStats.readable_iff.mpr ⟨stats', hreread, hcounts⟩

/-- Exactly the histories that are not empty, and whose keys and numbers can be read, are
restored. -/
theorem restores_iff (t : Traversal (Σ _ : ProfileKey, HistoricalStats δ)) {history : History δ}
    (h : ∀ key ∈ history, ∀ name ∈ key.names, newline ∉ name) :
    Restores fmt t history ↔ history ≠ ∅ ∧ ∀ key stats, history.lookup key = some stats →
      key.Readable ∧ stats.Readable fmt :=
  ⟨readable_of_restores h, fun hreadable => restores_of_readable h hreadable.1 hreadable.2⟩

/-! ### Whole numbers -/

/-- The number behind the blanks. -/
def readWhole (text : Bytes) : Option ℤ := Bytes.readInt (text.dropWhile (· = 32))

/-- An integer is read back from its line. -/
theorem readWhole_ofInt (n : ℤ) : readWhole (ofString " " ++ ofInt n ++ ofString ",") = some n := by
  have hdrop : (ofString " " ++ ofInt n ++ ofString ",").dropWhile (· = 32) =
      ofInt n ++ 44 :: [] := by
    obtain ⟨hblank, hcomma⟩ : ofString " " = [32] ∧ ofString "," = [44] := by decide +kernel
    -- neither a sign nor a digit is a blank
    have hfirst : ∀ b ∈ ofInt n, b ≠ 32 := by
      cases n with
      | ofNat n =>
        rintro b hb rfl
        exact absurd (Bytes.mem_ofDecimal hb).1 (by decide)
      | negSucc n =>
        intro b hb
        obtain rfl | hb := List.mem_cons.mp hb
        · decide
        · rintro rfl
          exact absurd (Bytes.mem_ofDecimal hb).1 (by decide)
    rw [hblank, hcomma, List.append_assoc, List.singleton_append,
      List.dropWhile_cons_of_pos (by decide)]
    cases htext : ofInt n with
    | nil => rfl
    | cons b text =>
      rw [htext] at hfirst
      exact List.dropWhile_cons_of_neg (by simpa using hfirst b List.mem_cons_self)
  rw [readWhole, hdrop, Bytes.readInt_ofInt n (by decide)]

/-- Whole doubles and their texts. -/
def wholeText : DoubleText ℤ where
  zero := 0
  minusOne := -1
  print := ofInt
  stod := readWhole
  toUInt64 n := .ofNat n.toNat
  toInt32 n := .ofInt n
  print_plain := plain_ofInt
  stod_ofDecimal n _ := ⟨n.toNat, readWhole_ofInt n.toNat, by simp⟩
  stod_ofInt n := ⟨n.toInt, readWhole_ofInt n.toInt, by simp⟩

/-- The key of a model on a GPU. -/
def sampleKey : ProfileKey where
  hardwareId := ofString "gpu0"
  backend := 2
  workloadType := ofString "inference"
  modelName := ofString "models/a.gguf"

/-- The key of another model, which ran on the CPU. -/
def sampleCpuKey : ProfileKey where
  hardwareId := ofString "cpu"
  backend := 0
  workloadType := ofString "inference"
  modelName := ofString "models/b.gguf"

/-- Statistics of two runs with a regression. -/
def sampleStats : HistoricalStats ℤ where
  sampleCount := 2
  emaDurationMs := 120
  variance := 4
  minDurationMs := 118
  maxDurationMs := 122
  failureCount := 1
  regressionDetected := true

/-- Statistics of one run. -/
def sampleCpuStats : HistoricalStats ℤ where
  sampleCount := 1
  emaDurationMs := 900
  variance := 0
  minDurationMs := 900
  maxDurationMs := 900
  failureCount := 0
  regressionDetected := false

/-- The history of two models. -/
def sampleHistory : History ℤ :=
  AList.insert sampleKey sampleStats (AList.insert sampleCpuKey sampleCpuStats ∅)

/-- Names without quotes, braces and newlines can be read again, unless one is a field's. -/
theorem ProfileKey.readable_of_plain {key : ProfileKey} (hplain : ∀ name ∈ key.names, Plain name)
    (hworkload : ∀ field ∈ ["hardware_id", "backend"], ofString field ≠ key.workloadType)
    (hmodel : ∀ field ∈ ["hardware_id", "backend", "workload_type"],
      ofString field ≠ key.modelName) : key.Readable where
  quotes name hname := (hplain name hname).quote_notMem
  braces name hname := by
    refine ⟨(hplain name hname).closeBrace_notMem, fun hopen => ?_⟩
    exact absurd hopen (hplain name hname).openBrace_notMem
  workloadType := hworkload
  modelName := hmodel

/-- Whole durations are read again. -/
theorem HistoricalStats.readable_whole {stats : HistoricalStats ℤ}
    (hsample : stats.sampleCount.toNat < 2 ^ 53) (hfailure : stats.failureCount.toNat < 2 ^ 53) :
    stats.Readable wholeText := by
  refine HistoricalStats.readable_of_lt (fun d _ => ?_) hsample hfailure
  have hread : number wholeText (wholeText.print d) = some d := readWhole_ofInt d
  rw [hread]
  rfl

theorem eq_of_mem_sampleHistory {key : ProfileKey} (h : key ∈ sampleHistory) :
    key = sampleKey ∨ key = sampleCpuKey := by
  rcases AList.mem_insert _ |>.mp h with rfl | h
  · exact .inl rfl
  · exact .inr ((AList.mem_insert _ |>.mp h).resolve_right (AList.notMem_empty _))

/-- The history of two models is restored. -/
theorem restores_sampleHistory : Restores wholeText .stored sampleHistory := by
  have hplain : ∀ key ∈ [sampleKey, sampleCpuKey], ∀ name ∈ key.names, Plain name := by
    decide +kernel
  have hkeys : ∀ key ∈ [sampleKey, sampleCpuKey], key.Readable := by
    intro key hkey
    refine ProfileKey.readable_of_plain (hplain key hkey) ?_ ?_
    · revert key
      decide +kernel
    · revert key
      decide +kernel
  have hmem : ∀ {key : ProfileKey}, key ∈ sampleHistory → key ∈ [sampleKey, sampleCpuKey] :=
    fun h => by simpa using eq_of_mem_sampleHistory h
  have hne : sampleHistory ≠ ∅ := by
    intro hempty
    have hsample : sampleKey ∈ sampleHistory := AList.mem_insert _ |>.mpr (.inl rfl)
    rw [hempty] at hsample
    exact AList.notMem_empty _ hsample
  refine (restores_iff .stored fun key hkey name hname =>
    (hplain key (hmem hkey) name hname).newline_notMem).mpr ⟨hne, fun key stats hlookup => ?_⟩
  have hkey : key ∈ sampleHistory := AList.lookup_isSome.mp (by rw [hlookup]; rfl)
  refine ⟨hkeys key (hmem hkey), ?_⟩
  -- the statistics are those that were inserted for the key
  rcases eq_of_mem_sampleHistory hkey with rfl | rfl
  · rw [sampleHistory, AList.lookup_insert] at hlookup
    obtain rfl := Option.some.inj hlookup
    exact HistoricalStats.readable_whole (by decide) (by decide)
  · rw [sampleHistory, AList.lookup_insert_ne (by decide +kernel), AList.lookup_insert] at hlookup
    obtain rfl := Option.some.inj hlookup
    exact HistoricalStats.readable_whole (by decide) (by decide)

/-- The history of a profiler that has seen nothing is not restored: a key without names comes
back. -/
theorem not_restores_empty : ¬Restores wholeText .stored ∅ := by
  intro h
  obtain ⟨loaded, hload, hloaded⟩ := h ∅
  rw [loadProfile_empty] at hload
  obtain rfl : _ = loaded := congrArg Prod.snd (Option.some.inj hload)
  have hkey := hloaded {}
  rw [AList.lookup_insert] at hkey
  cases hkey

end HeteroAccel.Profiler
