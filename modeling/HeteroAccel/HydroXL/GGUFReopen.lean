import HeteroAccel.HydroXL.GGUFRoundTrip

/-!
# Opening a loader again

`open` neither closes the stream nor empties the metadata and the tensors. As long as no call has
found its file, the loader is a fresh one but for its path, a failed stream and its error text, and
the next call is like that of a fresh loader. Once a call has found its file, parsed or not, the
stream stays open: every later call fails, and what is seen behind it is what that file has left
(`open_of_isOpen`).
-/

namespace HeteroAccel.GGUFLoader

open Parser (exec Respects)
open Bytes (ofString)

/-! ## Parsing -/

/-- Loaders with the same file that differ in their error texts; the second flag is `φ` of the
first. -/
def Alike (content : Option FileContent) (φ : Bool → Bool) (l l' : GGUFLoader) : Prop :=
  l.file.content = content ∧ ∃ lastError, l' = { l with lastError, isOpen := φ l.isOpen }

section Parsing

variable {content : Option FileContent} {φ : Bool → Bool}

/-- An error on loaders that are alike leaves them alike. -/
theorem respects_error {α : Type} (msg : Bytes) :
    Respects (Alike content φ) (error msg : Parse α) := by
  rintro l _ ⟨hcontent, e, rfl⟩
  exact ⟨rfl, hcontent, msg, rfl⟩

theorem respects_errorIf (bad : Prop) [Decidable bad] (msg : Bytes) :
    Respects (Alike content φ) (errorIf bad msg) := by
  unfold errorIf
  split
  · exact respects_error msg
  · exact .pure _

/-- A read on loaders that are alike leaves them alike. -/
theorem respects_fileRead (n : ℕ) : Respects (Alike content φ) (fileRead n) := by
  rintro l _ ⟨hcontent, e, rfl⟩
  exact ⟨rfl, (InputStream.content_read _ n).trans hcontent, e, rfl⟩

/-- A change of the other fields. -/
theorem respects_modify {g : GGUFLoader → GGUFLoader}
    (h : ∀ (l : GGUFLoader) lastError isOpen, g { l with lastError, isOpen } =
      { g l with lastError, isOpen }) (hisOpen : ∀ l, (g l).isOpen = l.isOpen)
    (hfile : ∀ l, (g l).file.content = l.file.content) :
    Respects (Alike content φ) (modify g : Parse PUnit) := by
  refine .modify ?_
  rintro l _ ⟨hcontent, e, rfl⟩
  exact ⟨(hfile l).trans hcontent, e, by rw [h, hisOpen]⟩

theorem respects_readRaw (size : ℕ) : Respects (Alike content φ) (readRaw size) := by
  refine .bind (respects_fileRead size) fun got => ?_
  cases got with
  | none => exact respects_error _
  | some raw => exact .pure raw

theorem respects_readUInt8 : Respects (Alike content φ) readUInt8 :=
  .bind (respects_readRaw 1) fun _ => .pure _

theorem respects_readUInt16 : Respects (Alike content φ) readUInt16 :=
  .bind (respects_readRaw 2) fun _ => .pure _

theorem respects_readUInt32 : Respects (Alike content φ) readUInt32 :=
  .bind (respects_readRaw 4) fun _ => .pure _

theorem respects_readUInt64 : Respects (Alike content φ) readUInt64 :=
  .bind (respects_readRaw 8) fun _ => .pure _

theorem respects_readString : Respects (Alike content φ) readString := by
  refine .bind respects_readUInt64 fun len => .bind (respects_errorIf _ _) fun _ => ?_
  split
  · exact .pure _
  · refine .bind (respects_fileRead _) fun got => ?_
    cases got with
    | none => exact respects_error _
    | some out => exact .pure out

theorem respects_readWords (count : ℕ) (kind : String) :
    Respects (Alike content φ) (readWords count kind) := by
  refine .bind (respects_fileRead _) fun got => ?_
  cases got with
  | none => exact respects_error _
  | some raw => exact .pure _

theorem respects_skipElems (elemTypeRaw : UInt32) (count elemSize : UInt64) :
    Respects (Alike content φ) (skipElems elemTypeRaw count elemSize) := by
  unfold skipElems
  split
  · refine .bind (respects_modify (fun _ _ _ => rfl) (fun _ => rfl) fun l => ?_) fun _ =>
      .get ?_ fun _ =>
      .bind (respects_errorIf _ _) fun _ => .pure _
    · exact InputStream.content_seekg _ _
    · rintro l _ ⟨-, e, rfl⟩
      rfl
  · exact .pure _

/-- Arrays are read alike, by induction on the depth. -/
theorem respects_readArray (depth : ℕ) : Respects (Alike content φ) (readArray depth) := by
  induction depth with
  | zero => exact .failure
  | succ depth ih =>
    refine .bind respects_readUInt32 fun elemTypeRaw => .bind respects_readUInt64 fun count => ?_
    split
    · split
      · exact .bind (respects_readWords _ _) fun _ => .pure _
      · exact .bind (respects_readWords _ _) fun _ => .pure _
      · exact .bind (respects_readWords _ _) fun _ => .pure _
      · exact .bind (respects_readString.readMany _) fun _ => .pure _
      · exact .bind (ih.readMany _) fun _ => .pure _
      · split
        · exact respects_skipElems _ _ _
        · exact .failure
      · exact respects_error _
    · exact respects_error _

theorem respects_readValue (vtypeRaw : UInt32) :
    Respects (Alike content φ) (readValue vtypeRaw) := by
  unfold readValue
  split
  · exact .bind respects_readUInt8 fun _ => .pure _
  · exact .bind respects_readUInt8 fun _ => .pure _
  · exact .bind respects_readUInt16 fun _ => .pure _
  · exact .bind respects_readUInt16 fun _ => .pure _
  · exact .bind respects_readUInt32 fun _ => .pure _
  · exact .bind respects_readUInt32 fun _ => .pure _
  · exact .bind respects_readUInt32 fun _ => .pure _
  · exact .bind respects_readUInt8 fun _ => .pure _
  · exact .bind respects_readString fun _ => .pure _
  · refine .get ?_ fun _ => respects_readArray _
    rintro l _ ⟨hcontent, e, rfl⟩
    rfl
  · exact .bind respects_readUInt64 fun _ => .pure _
  · exact .bind respects_readUInt64 fun _ => .pure _
  · exact .bind respects_readUInt64 fun _ => .pure _
  · exact respects_error _

theorem respects_parseHeader : Respects (Alike content φ) parseHeader :=
  .bind respects_readUInt32 fun _ => .bind (respects_errorIf _ _) fun _ =>
    .bind respects_readUInt32 fun _ =>
      .bind (respects_modify (fun _ _ _ => rfl) (fun _ => rfl) fun _ => rfl) fun _ =>
        .bind (respects_errorIf _ _) fun _ => .bind respects_readUInt64 fun _ =>
          .bind (respects_modify (fun _ _ _ => rfl) (fun _ => rfl) fun _ => rfl) fun _ =>
            .bind respects_readUInt64 fun _ =>
              .bind (respects_modify (fun _ _ _ => rfl) (fun _ => rfl) fun _ => rfl) fun _ =>
                .bind (respects_errorIf _ _) fun _ => respects_errorIf _ _

theorem respects_parseKV : Respects (Alike content φ) parseKV := by
  have hentry : Respects (Alike content φ) readEntry :=
    .bind respects_readString fun _ => .bind respects_readUInt32 fun _ =>
      .bind (respects_readValue _) fun _ => .pure _
  have hround : Respects (Alike content φ) parseEntry :=
    .bind hentry fun _ => respects_modify (fun _ _ _ => rfl) (fun _ => rfl) fun _ => rfl
  refine .get ?_ fun _ => hround.loop _
  rintro l _ ⟨hcontent, e, rfl⟩
  rfl

/-- The dimensions of a tensor are read alike. -/
theorem respects_readShape (name : Bytes) (d left : ℕ) (nElems : UInt64) :
    Respects (Alike content φ) (readShape name d left nElems) := by
  induction left generalizing d nElems with
  | zero => exact .pure _
  | succ left ih =>
    exact .bind respects_readUInt64 fun _ => .bind (respects_errorIf _ _) fun _ =>
      .bind (respects_errorIf _ _) fun _ => .bind (respects_errorIf _ _) fun _ =>
        .bind (ih _ _) fun _ => .pure _

/-- The description of a tensor is read alike. -/
theorem respects_readTensor : Respects (Alike content φ) readTensor := by
  have hsize : ∀ type nElems, Respects (Alike content φ) (byteSize type nElems) := fun _ _ =>
    .bind (respects_errorIf _ _) fun _ => .bind (respects_errorIf _ _) fun _ => .pure _
  exact .bind respects_readString fun _ => .bind respects_readUInt32 fun _ =>
    .bind (respects_errorIf _ _) fun _ => .bind (respects_errorIf _ _) fun _ =>
      .bind (respects_readShape _ _ _ _) fun _ => .bind respects_readUInt32 fun _ =>
        .bind respects_readUInt64 fun _ => .bind (hsize _ _) fun _ => .pure _

theorem respects_parseTensors : Respects (Alike content φ) parseTensors := by
  have hround : Respects (Alike content φ) parseTensor :=
    .bind respects_readTensor fun _ =>
      respects_modify (fun _ _ _ => rfl) (fun _ => rfl) fun _ => rfl
  refine .get ?_ fun _ => hround.loop _
  rintro l _ ⟨hcontent, e, rfl⟩
  rfl

/-- The data section, for loaders that differ in their error texts only. -/
theorem respects_locateData : Respects (Alike content id) locateData := by
  refine .get ?_ fun _ => .bind (respects_errorIf _ _) fun _ =>
    .bind (respects_modify (fun _ _ _ => rfl) (fun _ => rfl) fun _ => rfl) fun _ =>
      .bind (respects_errorIf _ _) fun _ => .modify ?_
  · rintro l _ ⟨hcontent, e, rfl⟩
    rfl
  · rintro l _ ⟨hcontent, e, rfl⟩
    exact ⟨hcontent, e, rfl⟩

end Parsing

/-! ## The flag -/

/-- A program that leaves the flag alone: with `φ` constant, the loader is alike to itself. -/
theorem isOpen_of_respects {α : Type} {p : Parse α} (hp : ∀ content φ, Respects (Alike content φ) p)
    (l : GGUFLoader) : (exec p l).2.isOpen = l.isOpen := by
  obtain ⟨-, -, _, hl⟩ :=
    hp l.file.content (fun _ => l.isOpen) l l ⟨rfl, l.lastError, rfl⟩
  rw [hl]

/-- Two parsers that keep the flag do so one behind the other. -/
theorem keepsIsOpen_bind {α β : Type} {p : Parse α} {q : α → Parse β}
    (hp : ∀ l, (exec p l).2.isOpen = l.isOpen) (hq : ∀ a l, (exec (q a) l).2.isOpen = l.isOpen)
    (l : GGUFLoader) : (exec (p >>= q) l).2.isOpen = l.isOpen := by
  have hfirst := hp l
  rw [Parser.exec_bind]
  generalize exec p l = r at hfirst
  obtain ⟨_ | a, l₁⟩ := r
  · exact hfirst
  · exact (hq a l₁).trans hfirst

/-- A program behind one that leaves the flag alone. -/
theorem isOpen_bind {α β : Type} {p : Parse α} {q : α → Parse β}
    (hp : ∀ l, (exec p l).2.isOpen = l.isOpen)
    (hq : ∀ a l, l.isOpen = false → (exec (q a) l).2.isOpen = (exec (q a) l).1.isSome)
    {l : GGUFLoader} (h : l.isOpen = false) :
    (exec (p >>= q) l).2.isOpen = (exec (p >>= q) l).1.isSome := by
  have hfirst := hp l
  rw [Parser.exec_bind]
  generalize exec p l = r at hfirst
  obtain ⟨_ | a, l₁⟩ := r
  · exact hfirst.trans h
  · exact hq a l₁ (hfirst.trans h)

theorem isOpen_errorIf (bad : Prop) [Decidable bad] (msg : Bytes) (l : GGUFLoader) :
    (exec (errorIf bad msg) l).2.isOpen = l.isOpen :=
  isOpen_of_respects (fun _ _ => respects_errorIf bad msg) l

/-- The last step of `open` sets the flag when it succeeds. -/
theorem isOpen_locateData {l : GGUFLoader} (h : l.isOpen = false) :
    (exec locateData l).2.isOpen = (exec locateData l).1.isSome := by
  refine isOpen_bind (fun _ => rfl) (fun l₁ l h => ?_) h
  refine isOpen_bind (isOpen_errorIf _ _) (fun _ l h => ?_) h
  refine isOpen_bind (fun _ => rfl) (fun _ l h => ?_) h
  refine isOpen_bind (isOpen_errorIf _ _) (fun _ l h => ?_) h
  rfl

/-- What `open` does first leaves the flag alone. -/
theorem isOpen_openFile (path : Bytes) (file : Option FileContent) (l : GGUFLoader) :
    (exec (openFile path file) l).2.isOpen = l.isOpen := by
  refine keepsIsOpen_bind (fun _ => rfl) (fun _ => ?_) l
  refine keepsIsOpen_bind (fun _ => rfl) fun _ => ?_
  refine keepsIsOpen_bind (isOpen_errorIf _ _) fun _ => ?_
  refine keepsIsOpen_bind (fun _ => rfl) fun _ => ?_
  refine keepsIsOpen_bind (fun _ => rfl) fun _ => ?_
  refine keepsIsOpen_bind (isOpen_errorIf _ _) fun _ => ?_
  refine keepsIsOpen_bind (fun _ => rfl) fun _ => ?_
  refine keepsIsOpen_bind (fun _ => rfl) fun _ => ?_
  exact isOpen_errorIf _ _

/-- A loader that was not open is open behind a call exactly when the call succeeds. -/
theorem isOpen_open (path : Bytes) (file : Option FileContent) {l : GGUFLoader}
    (h : l.isOpen = false) : (l.open path file).2.isOpen = (l.open path file).1 := by
  refine isOpen_bind (isOpen_openFile path file) (fun _ l h => ?_) h
  refine isOpen_bind (isOpen_of_respects fun _ _ => respects_parseHeader) (fun _ l h => ?_) h
  refine isOpen_bind (isOpen_of_respects fun _ _ => respects_parseKV) (fun _ l h => ?_) h
  exact isOpen_bind (isOpen_of_respects fun _ _ => respects_parseTensors)
    (fun _ l h => isOpen_locateData h) h

/-! ## Calls -/

/-- A call of `open`: the path and the file it names, if there is one. -/
structure OpenCall where
  path : Bytes
  file : Option FileContent

/-- What a caller sees behind a call. -/
structure OpenResult where
  result : Bool
  isOpen : Bool
  kv : KeyedMap Bytes GGUFValue
  tensors : List GGUFTensorDesc
  dataOffset : UInt64
  path : Bytes

/-- The loader behind a call. -/
def behind (l : GGUFLoader) (c : OpenCall) : GGUFLoader := (l.open c.path c.file).2

/-- What is seen behind a call. -/
def seen (l : GGUFLoader) (c : OpenCall) : OpenResult where
  result := (l.open c.path c.file).1
  isOpen := (l.behind c).isOpen
  kv := (l.behind c).kv
  tensors := (l.behind c).tensors
  dataOffset := (l.behind c).dataOffset
  path := (l.behind c).path

/-- What is seen behind each call of a sequence. -/
def seenAll (l : GGUFLoader) : List OpenCall → List OpenResult
  | [] => []
  | c :: calls => l.seen c :: (l.behind c).seenAll calls

theorem exec_errorIf_bind_eq {β : Type} {bad : Prop} [Decidable bad] {msg : Bytes}
    {k : Unit → Parse β} {l : GGUFLoader} :
    exec (errorIf bad msg >>= k) l =
      if bad then (none, { l with lastError := msg }) else exec (k ()) l := by
  unfold errorIf
  split_ifs <;> rfl

/-- A call when the stream is open: it fails, and what is seen but the path is what was seen
before. -/
theorem open_of_isOpen {l : GGUFLoader} (h : l.file.isOpen) (path : Bytes)
    (file : Option FileContent) :
    l.open path file = (false, { l with
      path, file := { l.file with eof := false, fail := true }
      lastError := ofString "Cannot seek file: " ++ path }) := by
  have hfile : l.file.open file = { l.file with fail := true } := if_pos h
  have hstart : exec (openFile path file) l = (none, { l with
      path, file := { l.file with eof := false, fail := true }
      lastError := ofString "Cannot seek file: " ++ path }) := by
    rw [openFile, exec_modify_bind, hfile, exec_get_bind, exec_errorIf_bind_eq, if_neg (by simpa),
      exec_modify_bind, exec_get_bind, exec_errorIf_bind_eq]
    exact if_pos rfl
  rw [«open», Parser.exec_bind, hstart]
  rfl

/-- What is seen behind such a call. -/
theorem seen_of_isOpen {l : GGUFLoader} (h : l.file.isOpen) (c : OpenCall) :
    l.seen c = {
      result := false, isOpen := l.isOpen, kv := l.kv, tensors := l.tensors
      dataOffset := l.dataOffset, path := c.path } := by
  rw [seen, behind, open_of_isOpen h]

/-- A loader that has found no file yet. -/
def Unfound (l : GGUFLoader) : Prop :=
  ∃ path fail lastError, l = { path, file := { fail }, lastError }

/-- A call that names no file changes nothing but the path, the error bits and the error text. -/
theorem open_none {l : GGUFLoader} (h : Unfound l) (path : Bytes) :
    l.open path none = (false, {
      path, file := { fail := true }, lastError := ofString "Cannot open file: " ++ path }) := by
  obtain ⟨_, _, _, rfl⟩ := h
  rw [«open», Parser.exec_bind, openFile, exec_modify_bind, exec_get_bind, exec_errorIf_bind_eq,
    if_pos (by rfl)]
  rfl

/-- What `open` does first when it finds its file. -/
theorem exec_openFile_of_unfound {l : GGUFLoader} (h : Unfound l) (path : Bytes)
    (file : FileContent) :
    exec (openFile path (some file)) l =
      if (opened path file).fileSize < 12 then
        (none, { opened path file with
          lastError := ofString "File too small to be GGUF: " ++ path })
      else (some (), { opened path file with lastError := l.lastError }) := by
  obtain ⟨_, _, _, rfl⟩ := h
  rw [openFile, exec_modify_bind, exec_get_bind, exec_errorIf_bind_eq,
    if_neg (fun h => Bool.noConfusion h),
    exec_modify_bind, exec_get_bind, exec_errorIf_bind_eq, if_neg (fun h => Bool.noConfusion h),
    exec_modify_bind, exec_get_bind]
  change exec (if (opened path file).fileSize < 12 then error _ else pure ()) _ = _
  split_ifs <;> rfl

/-- A call that finds its file leaves that file open and what a fresh loader has behind it, but for
the error text. -/
theorem open_some {l : GGUFLoader} (h : Unfound l) (path : Bytes) (file : FileContent) :
    («open» {} path (some file)).1 = (l.open path (some file)).1 ∧
      Alike (some file) id («open» {} path (some file)).2 (l.open path (some file)).2 := by
  have hfresh : Unfound {} := ⟨_, _, _, rfl⟩
  have hstart : (exec (openFile path (some file)) {}).1 = (exec (openFile path (some file)) l).1 ∧
      Alike (some file) id (exec (openFile path (some file)) {}).2
        (exec (openFile path (some file)) l).2 := by
    rw [exec_openFile_of_unfound hfresh, exec_openFile_of_unfound h]
    split_ifs
    · exact ⟨rfl, rfl, _, rfl⟩
    · exact ⟨rfl, rfl, _, rfl⟩
  have hparse : ∀ _ : Unit, Respects (Alike (some file) id)
      (do parseHeader; parseKV; parseTensors; locateData) := fun _ =>
    .bind respects_parseHeader fun _ => .bind respects_parseKV fun _ =>
      .bind respects_parseTensors fun _ => respects_locateData
  obtain ⟨hresult, hstate⟩ := Respects.behind hparse hstart.1 hstart.2
  exact ⟨congrArg Option.isSome hresult, hstate⟩

/-- The next call of a loader that has found no file is like that of a fresh one. -/
theorem seen_of_unfound {l : GGUFLoader} (h : Unfound l) (c : OpenCall) : l.seen c = seen {} c := by
  obtain ⟨path, file⟩ := c
  cases file with
  | none =>
    have hfresh : Unfound {} := ⟨_, _, _, rfl⟩
    rw [seen, seen, behind, behind, open_none h, open_none hfresh]
  | some file =>
    obtain ⟨hresult, -, e, hstate⟩ := open_some h path file
    rw [seen, seen, behind, behind, ← hresult, hstate]
    rfl

/-- A call that finds its file leaves the stream open. -/
theorem file_isOpen_behind {l : GGUFLoader} (h : Unfound l) {c : OpenCall} (hc : c.file ≠ none) :
    (l.behind c).file.isOpen := by
  obtain ⟨file, hfile⟩ := Option.ne_none_iff_exists'.mp hc
  obtain ⟨-, hcontent, e, hstate⟩ := open_some h c.path file
  rw [GGUFLoader.behind, hfile, hstate, InputStream.isOpen]
  show (GGUFLoader.file _).content.isSome
  rw [hcontent]
  rfl

/-- A call that finds no file leaves a loader that has found no file. -/
theorem Unfound.behind {l : GGUFLoader} (h : Unfound l) {c : OpenCall} (hc : c.file = none) :
    Unfound (l.behind c) := by
  rw [GGUFLoader.behind, hc, open_none h]
  exact ⟨_, _, _, rfl⟩

/-- A stream that is open stays open. -/
theorem file_isOpen_foldl {l : GGUFLoader} (h : l.file.isOpen) (calls : List OpenCall) :
    (calls.foldl behind l).file.isOpen := by
  induction calls generalizing l with
  | nil => exact h
  | cons c calls ih =>
    apply ih
    rw [GGUFLoader.behind, open_of_isOpen h]
    exact h

/-- Behind calls one of which has found its file, the stream is open. -/
theorem file_isOpen_of_found {l : GGUFLoader} (h : Unfound l) {calls : List OpenCall}
    (hcalls : ∃ c ∈ calls, c.file ≠ none) : (calls.foldl behind l).file.isOpen := by
  induction calls generalizing l with
  | nil => simp at hcalls
  | cons c calls ih =>
    by_cases hc : c.file = none
    · -- the call has found no file, so one of the others has
      have hothers : ∃ c ∈ calls, c.file ≠ none := by simpa [hc] using hcalls
      exact ih (h.behind hc) hothers
    · exact file_isOpen_foldl (file_isOpen_behind h hc) calls

/-! ## The law -/

/-- What is seen behind each call of a fresh loader is what is seen behind the same call of another
fresh loader; behind a call that fails, the loader is not open. -/
structure LikeFresh (calls : List OpenCall) : Prop where
  seen_eq : seenAll {} calls = calls.map (seen {})
  isOpen_eq : ∀ o ∈ seenAll {} calls, o.result = false → o.isOpen = false

/-- What is seen of calls, and of those behind them. -/
theorem seenAll_append (l : GGUFLoader) (calls calls' : List OpenCall) :
    l.seenAll (calls ++ calls') = l.seenAll calls ++ (calls.foldl behind l).seenAll calls' := by
  induction calls generalizing l with
  | nil => rfl
  | cons c calls ih => rw [List.cons_append, seenAll, seenAll, ih]; rfl

/-- Calls of a loader that has found no file, none of which but the last finds its file. -/
theorem seenAll_of_unfound {l : GGUFLoader} (h : Unfound l) {before : List OpenCall}
    (hbefore : ∀ c ∈ before, c.file = none) (c : OpenCall) :
    l.seenAll (before ++ [c]) = (before ++ [c]).map (seen {}) := by
  induction before generalizing l with
  | nil =>
    show [l.seen c] = [seen {} c]
    rw [seen_of_unfound h c]
  | cons c' before ih =>
    obtain ⟨hc', hbefore⟩ := List.forall_mem_cons.mp hbefore
    rw [List.cons_append, seenAll, List.map_cons, seen_of_unfound h c', ih (h.behind hc') hbefore]

/-- A small file: one metadata entry and no tensors. -/
def plainContent : GGUFContent where
  version := 3
  entries := [⟨ofString "k", .uint32 7⟩]
  tensors := []

theorem length_encode_plainContent : plainContent.encode.length = 41 := by
  simp only [GGUFContent.encode, plainContent, List.flatMap_cons, List.flatMap_nil,
    GGUFEntry.encode, GGUFData.encode]
  decide

/-- The file with the plain content. -/
def plainFile : FileContent where
  bytes := plainContent.encode
  length_lt := by rw [length_encode_plainContent]; decide

/-- A fresh loader opens the small file. -/
theorem seen_plainFile (path : Bytes) :
    (seen {} ⟨path, some plainFile⟩).result = true ∧
      (seen {} ⟨path, some plainFile⟩).isOpen = true := by
  have hc : plainContent.InLimits := by
    refine ⟨.inr rfl, by decide, by decide, ?_, nofun⟩
    simp only [plainContent, List.forall_mem_singleton, GGUFEntry.InLimits, GGUFData.InLimits]
    decide
  have halign : plainContent.HasAlignment 32 := .inl ⟨by decide, rfl⟩
  have hfile : plainContent.encode <+: plainFile.bytes := List.prefix_refl _
  obtain ⟨-, hopen⟩ := open_of_prefix hc halign path hfile fun h => absurd rfl h
  rw [seen, behind, hopen]
  exact ⟨rfl, rfl⟩

/-- **Opening a loader again.** The next call of a loader is like that of a fresh one, whatever it
opens, exactly when no earlier call has found its file. -/
theorem likeFresh_iff (before : List OpenCall) :
    (∀ c, LikeFresh (before ++ [c])) ↔ ∀ c ∈ before, c.file = none := by
  have hfresh : Unfound {} := ⟨_, _, _, rfl⟩
  constructor
  · intro h
    by_contra hfound
    -- the stream is open, so the small file is not opened
    have hopen : (before.foldl behind {}).file.isOpen :=
      file_isOpen_of_found hfresh (by simpa using hfound)
    have hlast := (h ⟨[], some plainFile⟩).seen_eq
    rw [seenAll_append, List.map_append, List.map_cons, List.map_nil, seenAll, seenAll] at hlast
    have hseen :=
      (List.append_inj' hlast (List.length_singleton.trans List.length_singleton.symm)).2
    rw [List.singleton_inj] at hseen
    have hresult := congrArg OpenResult.result hseen
    rw [(seen_plainFile []).1, seen_of_isOpen hopen] at hresult
    cases hresult
  · intro h c
    have heq := seenAll_of_unfound hfresh h c
    refine ⟨heq, fun o ho hresult => ?_⟩
    rw [heq] at ho
    obtain ⟨c, -, rfl⟩ := List.mem_map.mp ho
    have hisOpen : (seen {} c).isOpen = (seen {} c).result :=
      isOpen_open c.path c.file rfl
    exact hisOpen.trans hresult

/-- The small file and then a missing one: the loader is open behind the call that fails. -/
theorem not_likeFresh :
    ¬LikeFresh [⟨ofString "a", some plainFile⟩, ⟨ofString "b", none⟩] := by
  intro h
  have hfresh : Unfound {} := ⟨_, _, _, rfl⟩
  have hopen := file_isOpen_behind hfresh
    (show (OpenCall.mk (ofString "a") (some plainFile)).file ≠ none from nofun)
  have hsecond := h.isOpen_eq _ (.tail _ (.head _))
  rw [seen_of_isOpen hopen] at hsecond
  exact absurd ((seen_plainFile (ofString "a")).2.symm.trans (hsecond rfl)) (by decide)

end HeteroAccel.GGUFLoader
