import HeteroAccel.HydroXL.GGUFFormat

/-!
# The readers of the GGUF loader and the encodings they read

For every reader of `GGUFLoader` the encodings that it accepts, from both sides (`Codes`). A reader
looks at every byte of what it reads, except for the elements of the arrays that `readArray` skips.
-/

namespace HeteroAccel

/-! ## Type ids -/

theorem GGUFValueType.ofRaw_raw (t : GGUFValueType) : ofRaw t.raw = some t := by
  cases t <;> rfl

/-- A number stands for at most one type. -/
theorem GGUFValueType.ofRaw_eq_some_iff {raw : UInt32} {t : GGUFValueType} :
    ofRaw raw = some t ↔ t.raw = raw := by
  constructor
  · intro h
    apply UInt32.toNat_inj.mp
    unfold ofRaw at h
    split at h
    all_goals first
      | cases h
        rename_i heq
        exact heq.symm
      | cases h
  · rintro rfl
    exact ofRaw_raw t

namespace GGUFLoader

open Parser StreamState

/-! ## Numbers and strings -/

theorem exec_error {α : Type} (msg : Bytes) (l : GGUFLoader) :
    exec (error msg : Parse α) l = (none, { l with lastError := msg }) := rfl

theorem exec_fileRead (n : ℕ) (l : GGUFLoader) :
    exec (fileRead n) l = (some (l.file.read n).1, { l with file := (l.file.read n).2 }) := rfl

/-- Reading a number of bytes at once. -/
theorem codes_fileRead {α : Type} {n : ℕ} {k : Option Bytes → Parse α} {g : Bytes → α}
    (hsome : ∀ raw : Bytes, raw.length = n → k (some raw) = pure (g raw))
    (hnone : ∀ l, (exec (k none) l).1 = none) :
    Codes (fileRead n >>= k) (Whole fun a bytes => bytes.length = n ∧ a = g bytes) := by
  intro l hl a l'
  rw [exec_bind, exec_fileRead]
  show exec (k (l.file.read n).1) { l with file := (l.file.read n).2 } = _ ↔ _
  have hl' : l.file.good := hl.1
  by_cases hn : n ≤ l.file.rest.length
  · have htake : (l.file.rest.take n).length = n := List.length_take_of_le hn
    rw [InputStream.read_of_le hl' hn, hsome _ htake, exec_pure]
    constructor
    · intro h
      obtain ⟨ha, rfl⟩ := Prod.mk.inj h
      refine ⟨l.file.rest.take n, 0, ⟨⟨htake, (Option.some.inj ha).symm⟩, rfl⟩,
        InputStream.fits_zero.mpr (List.take_prefix _ _), ?_⟩
      rw [htake]
      rfl
    · rintro ⟨bytes, _, ⟨⟨rfl, rfl⟩, rfl⟩, hfits, rfl⟩
      have hbytes : bytes <+: l.file.rest := InputStream.fits_zero.mp hfits
      rw [← List.prefix_iff_eq_take.mp hbytes]
      rfl
  · rw [InputStream.read_of_lt hl' (Nat.lt_of_not_le hn)]
    constructor
    · intro h
      have := hnone { l with file := (l.file.read n).2 }
      rw [h] at this
      cases this
    · rintro ⟨bytes, _, ⟨⟨rfl, rfl⟩, rfl⟩, hfits, rfl⟩
      exact absurd (InputStream.fits_zero.mp hfits).length_le hn

/-- What `readRaw` reads is the next bytes, as many as it is asked for. -/
theorem codes_readRaw (size : ℕ) :
    Codes (readRaw size) (Whole fun raw bytes => bytes.length = size ∧ raw = bytes) :=
  codes_fileRead (fun _ _ => rfl) fun _ => rfl

/-- Reading a number. -/
theorem codes_number {α : Type} {size : ℕ} {toNat : α → ℕ} {ofNat : ℕ → α}
    (hofNat : ∀ n < 256 ^ size, toNat (ofNat n) = n) (htoNat : ∀ v, ofNat (toNat v) = v)
    (hlt : ∀ v, toNat v < 256 ^ size) :
    Codes (do return ofNat (Bytes.toNat (← readRaw size)) : Parse α)
      (Whole fun v bytes => bytes = Bytes.ofNat size (toNat v)) := by
  refine ((codes_readRaw size).map fun raw => ofNat (Bytes.toNat raw)).congr
    fun v bytes skipped => ?_
  constructor
  · rintro ⟨_, ⟨⟨rfl, rfl⟩, rfl⟩, rfl⟩
    refine ⟨?_, rfl⟩
    dsimp only
    rw [hofNat _ (Bytes.toNat_lt _), Bytes.ofNat_toNat]
  · rintro ⟨rfl, rfl⟩
    refine ⟨_, ⟨⟨Bytes.length_ofNat .., rfl⟩, rfl⟩, ?_⟩
    rw [Bytes.toNat_ofNat_of_lt (hlt v), htoNat]

theorem codes_readUInt8 :
    Codes readUInt8 (Whole fun v bytes => bytes = Bytes.ofNat 1 v.toNat) :=
  codes_number (fun _ hn => UInt8.toNat_ofNat_of_lt' hn) (fun _ => UInt8.ofNat_toNat)
    fun v => v.toNat_lt

theorem codes_readUInt16 :
    Codes readUInt16 (Whole fun v bytes => bytes = Bytes.ofNat 2 v.toNat) :=
  codes_number (fun _ hn => UInt16.toNat_ofNat_of_lt' hn) (fun _ => UInt16.ofNat_toNat)
    fun v => v.toNat_lt

theorem codes_readUInt32 :
    Codes readUInt32 (Whole fun v bytes => bytes = Bytes.ofNat 4 v.toNat) :=
  codes_number (fun _ hn => UInt32.toNat_ofNat_of_lt' hn) (fun _ => UInt32.ofNat_toNat)
    fun v => v.toNat_lt

theorem codes_readUInt64 :
    Codes readUInt64 (Whole fun v bytes => bytes = Bytes.ofNat 8 v.toNat) :=
  codes_number (fun _ hn => UInt64.toNat_ofNat_of_lt' hn) (fun _ => UInt64.ofNat_toNat)
    fun v => v.toNat_lt

/-- A check passes with nothing read. -/
theorem codes_errorIf (bad : Prop) [Decidable bad] (msg : Bytes) :
    Codes (errorIf bad msg) (Whole fun _ bytes => ¬bad ∧ bytes = []) := by
  unfold errorIf
  split_ifs with hbad
  · refine (Codes.of_fails fun _ => rfl).congr fun _ _ _ => ?_
    exact ⟨False.elim, fun h => h.1.1 hbad⟩
  · refine (Codes.pure _).congr fun _ _ _ => ?_
    exact ⟨fun h => ⟨⟨hbad, h.1.2⟩, h.2⟩, fun h => ⟨⟨rfl, h.1.2⟩, h.2⟩⟩

/-- A string is its length and its bytes. -/
theorem codes_readString :
    Codes readString (Whole fun s bytes => s.length ≤ 2 ^ 20 ∧ bytes = encodeString s) := by
  unfold readString
  refine (codes_readUInt64.bind (S := fun len => Whole fun s bytes =>
    len.toNat = s.length ∧ s.length ≤ 2 ^ 20 ∧ bytes = s) (fun len _ _ => ?_) ?_).congr ?_
  · refine ((codes_errorIf _ _).check
      (S := Whole fun s bytes => bytes.length = len.toNat ∧ s = bytes)
      fun _ => ?_).congr fun s bytes skipped => ?_
    · split_ifs with hzero
      · refine (Codes.pure _).congr fun s bytes skipped => ?_
        subst hzero
        constructor
        · rintro ⟨⟨rfl, rfl⟩, rfl⟩
          exact ⟨⟨rfl, rfl⟩, rfl⟩
        · rintro ⟨⟨h, rfl⟩, rfl⟩
          obtain rfl := List.eq_nil_of_length_eq_zero h
          exact ⟨⟨rfl, rfl⟩, rfl⟩
      · exact codes_fileRead (fun _ _ => rfl) fun _ => rfl
    · have hlimit : len > (1 : UInt64) <<< 20 ↔ ¬len.toNat ≤ 2 ^ 20 := by
        rw [gt_iff_lt, UInt64.lt_iff_toNat_lt, Nat.not_le]
        rfl
      rw [hlimit, Decidable.not_not]
      constructor
      · rintro ⟨hle, ⟨hlen, rfl⟩, rfl⟩
        exact ⟨⟨hlen.symm, hlen ▸ hle, rfl⟩, rfl⟩
      · rintro ⟨⟨hlen, hle, rfl⟩, rfl⟩
        exact ⟨hlen ▸ hle, ⟨hlen.symm, rfl⟩, rfl⟩
  · rintro len s bytes skipped ⟨-, rfl⟩
    exact Nat.zero_le _
  · intro s bytes skipped
    constructor
    · rintro ⟨len, _, _, rfl, ⟨⟨hlen, hle, rfl⟩, rfl⟩, rfl⟩
      exact ⟨⟨hle, by rw [encodeString, hlen]⟩, rfl⟩
    · rintro ⟨⟨hle, rfl⟩, rfl⟩
      have hlen : (UInt64.ofNat s.length).toNat = s.length :=
        UInt64.toNat_ofNat_of_lt' (Nat.lt_of_le_of_lt hle (by decide))
      exact ⟨.ofNat s.length, _, s, rfl, ⟨⟨hlen, hle, rfl⟩, rfl⟩, by rw [hlen]; rfl⟩

/-! ## Arrays -/

theorem words_succ (raw : Bytes) (count : ℕ) :
    words raw (count + 1) = .ofNat (Bytes.toNat (raw.take 4)) :: words (raw.drop 4) count := by
  simp only [words, List.range_succ_eq_map, List.map_cons, List.map_map, Nat.zero_mul,
    List.drop_zero, List.drop_drop]
  congr 2
  funext i
  simp [Nat.succ_mul, Nat.add_comm]

/-- The encoding of four-byte numbers. -/
def encodeWords (ws : List UInt32) : Bytes := ws.flatMap fun w => Bytes.ofNat 4 w.toNat

theorem length_encodeWords (ws : List UInt32) : (encodeWords ws).length = ws.length * 4 := by
  induction ws with
  | nil => rfl
  | cons w ws ih =>
    rw [encodeWords, List.flatMap_cons, List.length_append, Bytes.length_ofNat, List.length_cons]
    rw [encodeWords] at ih
    omega

theorem words_encodeWords (ws : List UInt32) : words (encodeWords ws) ws.length = ws := by
  induction ws with
  | nil => rfl
  | cons w ws ih =>
    have hhead : (Bytes.ofNat 4 w.toNat).length = 4 := Bytes.length_ofNat ..
    rw [List.length_cons, words_succ, encodeWords, List.flatMap_cons, List.take_left' hhead,
      List.drop_left' hhead, Bytes.toNat_ofNat_of_lt w.toNat_lt, UInt32.ofNat_toNat]
    rw [encodeWords] at ih
    rw [ih]

/-- Words that were read are encoded as they were. -/
theorem encodeWords_words {raw : Bytes} {count : ℕ} (h : raw.length = count * 4) :
    encodeWords (words raw count) = raw := by
  induction count generalizing raw with
  | zero => exact (List.eq_nil_of_length_eq_zero (by omega)).symm
  | succ count ih =>
    have htake : (raw.take 4).length = 4 := List.length_take_of_le (by omega)
    have hword : (UInt32.ofNat (Bytes.toNat (raw.take 4))).toNat = Bytes.toNat (raw.take 4) :=
      UInt32.toNat_ofNat_of_lt' ((Bytes.toNat_lt _).trans_eq (by rw [htake]; rfl))
    have hbytes := Bytes.ofNat_toNat (raw.take 4)
    rw [htake] at hbytes
    have hrest := @ih (raw.drop 4) (by rw [List.length_drop]; omega)
    rw [words_succ, encodeWords, List.flatMap_cons, hword, hbytes]
    rw [encodeWords] at hrest
    rw [hrest, List.take_append_drop]

theorem codes_readWords (count : ℕ) (kind : String) :
    Codes (readWords count kind) (Whole fun ws bytes => bytes = encodeWords ws.1) := by
  unfold readWords
  refine (codes_fileRead (g := fun raw => ⟨words raw count, by simp [words]⟩) (fun _ _ => rfl)
    fun _ => rfl).congr fun ws bytes skipped => ?_
  obtain ⟨ws, rfl⟩ := ws
  constructor
  · rintro ⟨⟨hlength, hws⟩, rfl⟩
    have hws' : ws = words bytes ws.length := congrArg Subtype.val hws
    exact ⟨by dsimp only; rw [hws', encodeWords_words hlength], rfl⟩
  · rintro ⟨rfl, rfl⟩
    exact ⟨⟨length_encodeWords ws, Subtype.ext (words_encodeWords ws).symm⟩, rfl⟩

/-- Of every string at least the length is read. -/
theorem looked_string :
    Looked (Whole fun s bytes => s.length ≤ 2 ^ 20 ∧ bytes = encodeString s) := by
  rintro s bytes skipped ⟨⟨-, rfl⟩, rfl⟩
  rw [encodeString, List.length_append, Bytes.length_ofNat]
  omega

/-- Seeking over elements, in the file or beyond its end. -/
theorem exec_skipElems {elemTypeRaw : UInt32} {count elemSize : UInt64} {l : GGUFLoader}
    (hl : (stream l).Ready) (hcount : 0 < count.toNat ∧ count.toNat ≤ 2 ^ 24)
    (hsize : elemSize.toNat ≤ 8) :
    exec (skipElems elemTypeRaw count elemSize) l =
      if l.file.pos + count.toNat * elemSize.toNat < 2 ^ 63 then
        (some arrayTypeSkipped, advance l (count.toNat * elemSize.toNat))
      else
        (none, { l with
          file := { l.file with fail := true }
          lastError := Bytes.ofString "EOF skipping array of type " ++
            Bytes.ofDecimal elemTypeRaw.toNat }) := by
  obtain ⟨hgood, hpos⟩ : l.file.good ∧ l.file.pos < 2 ^ 63 := hl
  have hprod : count.toNat * elemSize.toNat ≤ 2 ^ 24 * 8 := Nat.mul_le_mul hcount.2 hsize
  -- the limits on count and size keep the sum from wrapping
  have hoffset : (l.file.tellg + count * elemSize).toNat =
      l.file.pos + count.toNat * elemSize.toNat := by
    have hpos64 : (UInt64.ofNat l.file.pos).toNat = l.file.pos :=
      UInt64.toNat_ofNat_of_lt' (Nat.lt_trans hpos (by decide))
    rw [InputStream.tellg_of_good hgood, UInt64.toNat_add, UInt64.toNat_mul, hpos64]
    omega
  -- behind the seek only the failure bit is looked at
  have hrest : ∀ (msg : Bytes) (l' : GGUFLoader), exec (do
      errorIf (← get).file.fail msg
      return arrayTypeSkipped : Parse GGUFValue) l' =
        if l'.file.fail then (none, { l' with lastError := msg })
        else (some arrayTypeSkipped, l') := by
    intro msg l'
    show exec (errorIf (l'.file.fail = true) _ >>= fun _ => pure arrayTypeSkipped) l' = _
    unfold errorIf
    split_ifs <;> rfl
  have hpositive : count > 0 := UInt64.lt_iff_toNat_lt.mpr hcount.1
  have hfail : l.file.fail = false := by
    simp only [InputStream.good, Bool.and_eq_true, Bool.not_eq_true'] at hgood
    exact hgood.2
  rw [skipElems, if_pos hpositive, exec_bind, exec_modify]
  dsimp only
  rw [hrest, InputStream.seekg_of_good hgood, hoffset]
  by_cases hfit : l.file.pos + count.toNat * elemSize.toNat < 2 ^ 63
  · rw [if_pos hfit, if_pos hfit]
    exact if_neg (ne_true_of_eq_false hfail)
  · rw [if_neg hfit, if_neg hfit]
    rfl

/-- The elements of a skipped array may be any bytes, in the file or not. -/
theorem codes_skipElems {elemTypeRaw : UInt32} {count elemSize : UInt64}
    (hcount : count.toNat ≤ 2 ^ 24) (hsize : elemSize.toNat ≤ 8) :
    Codes (skipElems elemTypeRaw count elemSize) fun v bytes skipped =>
      v = arrayTypeSkipped ∧ bytes.length = count.toNat * elemSize.toNat ∧
        skipped = bytes.length := by
  intro l hl v l'
  by_cases hzero : count.toNat = 0
  · have hzero' : ¬count > 0 := by
      rw [gt_iff_lt, UInt64.lt_iff_toNat_lt, hzero]
      exact Nat.lt_irrefl 0
    rw [skipElems, if_neg hzero', exec_pure, hzero, Nat.zero_mul]
    constructor
    · intro h
      obtain ⟨hv, rfl⟩ := Prod.mk.inj h
      exact ⟨[], 0, ⟨(Option.some.inj hv).symm, rfl, rfl⟩, InputStream.fits_nil,
        (advance_zero l).symm⟩
    · rintro ⟨bytes, _, ⟨rfl, hbytes, rfl⟩, -, rfl⟩
      rw [hbytes, advance_zero]
  · rw [exec_skipElems hl ⟨Nat.pos_of_ne_zero hzero, hcount⟩ hsize]
    generalize count.toNat * elemSize.toNat = n
    split_ifs with hfit
    · constructor
      · intro h
        obtain ⟨hv, rfl⟩ := Prod.mk.inj h
        -- what the file does not have may be anything
        let bytes : Bytes := ((stream l).rest ++ List.replicate n 0).take n
        have hlength : bytes.length = n := by
          rw [List.length_take, List.length_append, List.length_replicate]
          omega
        refine ⟨bytes, bytes.length, ⟨(Option.some.inj hv).symm, hlength, rfl⟩, ?_,
          congrArg _ hlength.symm⟩
        by_cases hn : n ≤ (stream l).rest.length
        · left
          show List.take n _ <+: _
          rw [List.take_append_of_le_length hn]
          exact List.take_prefix _ _
        · right
          refine ⟨?_, Nat.le_add_left _ _, hlength ▸ hfit⟩
          refine List.prefix_of_prefix_length_le (List.prefix_append _ _) (List.take_prefix _ _) ?_
          exact hlength ▸ (Nat.le_of_not_le hn)
      · rintro ⟨bytes, _, ⟨rfl, hbytes, rfl⟩, -, rfl⟩
        rw [hbytes]
    · constructor
      · intro h
        cases (Prod.mk.inj h).1
      · rintro ⟨bytes, _, ⟨rfl, rfl, rfl⟩, hfits, rfl⟩
        rcases hfits with h | ⟨-, -, h⟩
        · exact absurd (InputStream.pos_add_length_lt hl.2 h) hfit
        · exact absurd h hfit

/-- The encodings of the elements of an array, for a given type id and number of elements. -/
def elemsCoding (depth : ℕ) (elemTypeRaw : UInt32) (count : UInt64) :
    GGUFValue → Bytes → ℕ → Prop :=
  fun v bytes skipped => ∃ a : GGUFArray, (a.InLimits ∧ a.depth ≤ depth) ∧
    (a.elemType.raw = elemTypeRaw ∧ a.length = count.toNat) ∧
    v = a.value ∧ bytes = a.elemBytes ∧ skipped = a.skippedBytes

/-- The encodings of an array. -/
def arrayCoding (depth : ℕ) : GGUFValue → Bytes → ℕ → Prop :=
  fun v bytes skipped => ∃ a : GGUFArray, (a.InLimits ∧ a.depth ≤ depth) ∧
    v = a.value ∧ bytes = a.encode ∧ skipped = a.skippedBytes

theorem raw_inj {t t' : GGUFValueType} (h : t.raw = t'.raw) : t = t' :=
  Option.some.inj ((t.ofRaw_raw).symm.trans (h ▸ t'.ofRaw_raw))

/-- Of every array at least the type and the length are read. -/
theorem looked_array (depth : ℕ) : Looked (arrayCoding depth) := by
  rintro v bytes skipped ⟨a, -, -, rfl, rfl⟩
  have := a.depth_add_skippedBytes_le
  have := a.depth_pos
  omega

section Elements

variable {depth : ℕ} {count : UInt64} (h : count.toNat ≤ 2 ^ 24)

include h

/-- The elements of an array of 32-bit numbers. -/
theorem codes_uint32s :
    Codes (do
      let elems ← readWords count.toNat "UINT32"
      return .uint32s ⟨elems.1, elems.2.trans_le h⟩ : Parse GGUFValue)
      (elemsCoding (depth + 1) GGUFValueType.uint32.raw count) := by
  refine ((codes_readWords count.toNat "UINT32").map _).congr fun v bytes skipped => ?_
  constructor
  · rintro ⟨⟨ws, hws⟩, ⟨rfl, rfl⟩, rfl⟩
    exact ⟨.uint32s ⟨ws, hws.trans_le h⟩, by simp [GGUFArray.InLimits, GGUFArray.depth],
      ⟨rfl, hws⟩, rfl, rfl, by simp [GGUFArray.skippedBytes]⟩
  · rintro ⟨a, -, ⟨htype, hlength⟩, rfl, rfl, rfl⟩
    obtain ⟨elems, rfl⟩ := a.eq_uint32s (raw_inj htype)
    exact ⟨⟨elems.1, hlength⟩, ⟨rfl, by simp [GGUFArray.skippedBytes]⟩, rfl⟩

/-- The elements of an array of floats, kept as their bits. -/
theorem codes_float32s :
    Codes (do
      let elems ← readWords count.toNat "FLOAT32"
      return .float32s ⟨elems.1, elems.2.trans_le h⟩ : Parse GGUFValue)
      (elemsCoding (depth + 1) GGUFValueType.float32.raw count) := by
  refine ((codes_readWords count.toNat "FLOAT32").map _).congr fun v bytes skipped => ?_
  constructor
  · rintro ⟨⟨ws, hws⟩, ⟨rfl, rfl⟩, rfl⟩
    exact ⟨.float32s ⟨ws, hws.trans_le h⟩, by simp [GGUFArray.InLimits, GGUFArray.depth],
      ⟨rfl, hws⟩, rfl, rfl, by simp [GGUFArray.skippedBytes]⟩
  · rintro ⟨a, -, ⟨htype, hlength⟩, rfl, rfl, rfl⟩
    obtain ⟨elems, rfl⟩ := a.eq_float32s (raw_inj htype)
    exact ⟨⟨elems.1, hlength⟩, ⟨rfl, by simp [GGUFArray.skippedBytes]⟩, rfl⟩

/-- The elements of an array of signed numbers. -/
theorem codes_int32s :
    Codes (do
      let elems ← readWords count.toNat "INT32"
      return .int32s ⟨elems.1.map (·.toInt32),
        (List.length_map _).trans_le (elems.2.trans_le h)⟩ : Parse GGUFValue)
      (elemsCoding (depth + 1) GGUFValueType.int32.raw count) := by
  refine ((codes_readWords count.toNat "INT32").map _).congr fun v bytes skipped => ?_
  constructor
  · rintro ⟨⟨ws, hws⟩, ⟨rfl, rfl⟩, rfl⟩
    refine ⟨.int32s ⟨ws.map (·.toInt32), (List.length_map _).trans_le (hws.trans_le h)⟩,
      by simp [GGUFArray.InLimits, GGUFArray.depth], ⟨rfl, (List.length_map _).trans hws⟩, rfl, ?_,
      by simp [GGUFArray.skippedBytes]⟩
    rw [GGUFArray.elemBytes, List.flatMap_map]
    exact List.flatMap_congr fun w _ => by rw [UInt32.toUInt32_toInt32]
  · rintro ⟨a, -, ⟨htype, hlength⟩, rfl, rfl, rfl⟩
    obtain ⟨elems, rfl⟩ := a.eq_int32s (raw_inj htype)
    refine ⟨⟨elems.1.map (·.toUInt32), (List.length_map _).trans hlength⟩,
      ⟨?_, by simp [GGUFArray.skippedBytes]⟩, ?_⟩
    · show _ = encodeWords (elems.1.map fun w => w.toUInt32)
      rw [GGUFArray.elemBytes, encodeWords, List.flatMap_map]
    · refine congrArg GGUFValue.int32s (Subtype.ext ?_)
      show elems.1 = List.map _ (List.map _ elems.1)
      rw [List.map_map]
      exact (List.map_id'' (fun w => Int32.toInt32_toUInt32 w) _).symm

/-- The elements of an array of strings. -/
theorem codes_strings :
    Codes (do
      let elems ← readMany readString count.toNat
      return .strings ⟨elems.1, elems.2.trans_le h⟩ : Parse GGUFValue)
      (elemsCoding (depth + 1) GGUFValueType.string.raw count) := by
  refine ((codes_readString.readMany looked_string count.toNat).map _).congr
    fun v bytes skipped => ?_
  simp only [each_whole_iff]
  constructor
  · rintro ⟨⟨elems, helems⟩, ⟨hlimit, rfl, rfl⟩, rfl⟩
    exact ⟨.strings ⟨elems, helems.trans_le h⟩, by simpa [GGUFArray.InLimits, GGUFArray.depth],
      ⟨rfl, helems⟩, rfl, rfl, by simp [GGUFArray.skippedBytes]⟩
  · rintro ⟨a, ⟨hlimit, -⟩, ⟨htype, hlength⟩, rfl, rfl, rfl⟩
    obtain ⟨elems, rfl⟩ := a.eq_strings (raw_inj htype)
    rw [GGUFArray.InLimits] at hlimit
    exact ⟨⟨elems.1, hlength⟩, ⟨hlimit, rfl, by simp [GGUFArray.skippedBytes]⟩, rfl⟩

/-- The elements of an array of arrays: they are read and dropped. -/
theorem codes_nested (ih : Codes (readArray depth) (arrayCoding depth)) :
    Codes (do
      let _ ← readMany (readArray depth) count.toNat
      return arrayTypeSkipped : Parse GGUFValue)
      (elemsCoding (depth + 1) GGUFValueType.array.raw count) := by
  refine ((ih.readMany (looked_array depth) count.toNat).map _).congr fun v bytes skipped => ?_
  -- the arrays of the next level, by what they say
  have hlists : ∀ vs : List GGUFValue, Each (arrayCoding depth) vs bytes skipped ↔
      ∃ elems : List GGUFArray, (∀ a ∈ elems, a.InLimits ∧ a.depth ≤ depth) ∧
        vs = elems.map (·.value) ∧ bytes = elems.flatMap GGUFArray.encode ∧
        skipped = elems.foldl (fun _ a => a.skippedBytes) 0 := fun vs => each_image_iff
  simp only [hlists]
  constructor
  · rintro ⟨⟨vs, hvs⟩, ⟨elems, helems, hmap, rfl, rfl⟩, rfl⟩
    have hlength : elems.length = count.toNat := by
      rw [← hvs, show vs = _ from hmap, List.length_map]
    refine ⟨.nested elems, ⟨?_, GGUFArray.depth_nested_le_iff.mpr fun a ha => (helems a ha).2⟩,
      ⟨rfl, hlength⟩, rfl, rfl, by simp [GGUFArray.skippedBytes]⟩
    rw [GGUFArray.InLimits]
    exact ⟨hlength.trans_le h, fun a ha => (helems a ha).1⟩
  · rintro ⟨a, ⟨hlimit, hdepth⟩, ⟨htype, hlength⟩, rfl, rfl, rfl⟩
    obtain ⟨elems, rfl⟩ := a.eq_nested (raw_inj htype)
    rw [GGUFArray.InLimits] at hlimit
    refine ⟨⟨elems.map (·.value), (List.length_map _).trans hlength⟩, ⟨elems, fun a ha =>
      ⟨hlimit.2 a ha, GGUFArray.depth_nested_le_iff.mp hdepth a ha⟩, rfl, rfl, ?_⟩, rfl⟩
    rw [GGUFArray.skippedBytes]

/-- The elements of the types that are skipped. -/
theorem codes_skipped (type : SkippedType) :
    Codes (skipElems type.toValueType.raw count (.ofNat type.size))
      (elemsCoding (depth + 1) type.toValueType.raw count) := by
  have hsize : (UInt64.ofNat type.size).toNat = type.size := by cases type <;> rfl
  have hle : (UInt64.ofNat type.size).toNat ≤ 8 := by cases type <;> decide
  refine (codes_skipElems h hle).congr fun v bytes skipped => ?_
  rw [hsize]
  constructor
  · rintro ⟨rfl, hbytes, rfl⟩
    refine ⟨.skipped type count.toNat ⟨bytes, hbytes⟩, ⟨?_, by simp [GGUFArray.depth]⟩, ⟨rfl, rfl⟩,
      rfl, rfl, ?_⟩
    · rw [GGUFArray.InLimits]
      exact h
    · rw [GGUFArray.skippedBytes, hbytes]
  · rintro ⟨a, -, ⟨htype, hlength⟩, rfl, rfl, rfl⟩
    obtain ⟨n, payload, rfl⟩ := GGUFArray.eq_skipped (raw_inj htype)
    obtain rfl : n = count.toNat := hlength
    refine ⟨rfl, payload.2, ?_⟩
    rw [GGUFArray.skippedBytes]
    exact payload.2.symm

end Elements

/-- An array fits in the limits that `readArray` checks. -/
theorem codes_readArray (depth : ℕ) : Codes (readArray depth) (arrayCoding depth) := by
  induction depth with
  | zero =>
    refine (Codes.of_fails fun _ => rfl).congr fun v bytes skipped => ?_
    refine ⟨False.elim, ?_⟩
    rintro ⟨a, ⟨-, hdepth⟩, -⟩
    exact absurd (a.depth_pos.trans hdepth) (by decide)
  | succ depth ih =>
    -- an array is never shorter than what is skipped of it
    have helems : ∀ (raw : UInt32) (count : UInt64) {v : GGUFValue} {bytes : Bytes} {skipped : ℕ},
        elemsCoding (depth + 1) raw count v bytes skipped → skipped ≤ bytes.length := by
      rintro raw count v bytes skipped ⟨a, -, -, -, rfl, rfl⟩
      have := a.depth_add_skippedBytes_le
      have := a.depth_pos
      rw [a.length_encode] at *
      omega
    unfold readArray
    refine (codes_readUInt32.bind (S := fun raw => Behind
      (fun (count : UInt64) bytes => bytes = Bytes.ofNat 8 count.toNat)
        (elemsCoding (depth + 1) raw))
      (fun raw _ _ => codes_readUInt64.bind (fun count _ _ => ?_)
        fun count v bytes skipped => helems raw count) ?_).congr fun v bytes skipped => ?_
    · split_ifs with h
      · -- the length is within the limit; the type decides how the elements are read
        cases hraw : GGUFValueType.ofRaw raw with
        | none =>
          refine (Codes.of_fails fun _ => rfl).congr fun v bytes skipped => ?_
          refine ⟨False.elim, ?_⟩
          rintro ⟨a, -, ⟨htype, -⟩, -⟩
          rw [← htype, GGUFValueType.ofRaw_raw] at hraw
          cases hraw
        | some t =>
          obtain rfl := GGUFValueType.ofRaw_eq_some_iff.mp hraw
          cases t with
          | uint32 => exact codes_uint32s h
          | int32 => exact codes_int32s h
          | float32 => exact codes_float32s h
          | string => exact codes_strings h
          | array => exact codes_nested h ih
          | uint8 => exact codes_skipped h .uint8
          | int8 => exact codes_skipped h .int8
          | bool => exact codes_skipped h .bool
          | uint16 => exact codes_skipped h .uint16
          | int16 => exact codes_skipped h .int16
          | uint64 => exact codes_skipped h .uint64
          | int64 => exact codes_skipped h .int64
          | float64 => exact codes_skipped h .float64
      · refine (Codes.of_fails fun _ => rfl).congr fun v bytes skipped => ?_
        refine ⟨False.elim, ?_⟩
        rintro ⟨a, ⟨hlimit, -⟩, ⟨-, hlength⟩, -⟩
        exact h (hlength ▸ hlimit.length_le)
    · rintro raw v bytes skipped ⟨count, bytes₁, bytes₂, rfl, hS, rfl⟩
      have := helems raw count hS
      rw [List.length_append]
      omega
    · constructor
      · rintro ⟨raw, _, _, rfl,
          ⟨count, _, _, rfl, ⟨a, ha, ⟨rfl, hlength⟩, rfl, rfl, rfl⟩, rfl⟩, rfl⟩
        refine ⟨a, ha, rfl, ?_, rfl⟩
        rw [a.encode_eq, GGUFArray.encodeElems, hlength]
      · rintro ⟨a, ha, rfl, rfl, rfl⟩
        have hlength : (UInt64.ofNat a.length).toNat = a.length :=
          UInt64.toNat_ofNat_of_lt' (Nat.lt_of_le_of_lt ha.1.length_le (by decide))
        refine ⟨_, _, _, rfl, ⟨.ofNat a.length, _, _, rfl,
          ⟨a, ha, ⟨rfl, hlength.symm⟩, rfl, rfl, rfl⟩, rfl⟩, ?_⟩
        rw [a.encode_eq, GGUFArray.encodeElems, hlength]

/-! ## Values and entries -/

/-- The encodings of a value with a given type id. -/
def valueCoding (vtypeRaw : UInt32) : GGUFValue → Bytes → ℕ → Prop :=
  fun v bytes skipped => ∃ d : GGUFData, d.InLimits ∧ d.type.raw = vtypeRaw ∧
    v = d.value ∧ bytes = d.encode ∧ skipped = d.skippedBytes

/-- A value that is read from a number or a string. -/
theorem codes_scalar {α : Type} {read : Parse α} {P : α → Prop} {encode : α → Bytes}
    (mk : α → GGUFData) (hread : Codes read (Whole fun a bytes => P a ∧ bytes = encode a))
    {val : α → GGUFValue}
    {t : GGUFValueType} (hlimits : ∀ a, (mk a).InLimits ↔ P a)
    (hmk : ∀ a, (mk a).type = t ∧ (mk a).value = val a ∧ (mk a).encode = encode a ∧
      (mk a).skippedBytes = 0)
    (hall : ∀ d : GGUFData, d.type = t → ∃ a, d = mk a) :
    Codes (do return val (← read) : Parse GGUFValue) (valueCoding t.raw) := by
  refine (hread.map val).congr fun v bytes skipped => ?_
  constructor
  · rintro ⟨a, ⟨⟨hP, rfl⟩, rfl⟩, rfl⟩
    obtain ⟨htype, hvalue, hencode, hskipped⟩ := hmk a
    exact ⟨mk a, (hlimits a).mpr hP, htype ▸ rfl, hvalue.symm, hencode.symm, hskipped.symm⟩
  · rintro ⟨d, hd, htype, rfl, rfl, rfl⟩
    obtain ⟨a, rfl⟩ := hall d (raw_inj htype)
    obtain ⟨-, hvalue, hencode, hskipped⟩ := hmk a
    exact ⟨a, ⟨⟨(hlimits a).mp hd, hencode⟩, hskipped⟩, hvalue⟩

/-- A value that is read from a number. -/
theorem codes_numeric {α : Type} {read : Parse α} {encode : α → Bytes} (mk : α → GGUFData)
    (hread : Codes read (Whole fun a bytes => bytes = encode a)) {val : α → GGUFValue}
    {t : GGUFValueType} (hlimits : ∀ a, (mk a).InLimits)
    (hmk : ∀ a, (mk a).type = t ∧ (mk a).value = val a ∧ (mk a).encode = encode a ∧
      (mk a).skippedBytes = 0)
    (hall : ∀ d : GGUFData, d.type = t → ∃ a, d = mk a) :
    Codes (do return val (← read) : Parse GGUFValue) (valueCoding t.raw) :=
  codes_scalar mk (hread.congr fun _ _ _ => by simp only [Whole, true_and])
    (fun a => iff_true_intro (hlimits a)) hmk hall

/-- The bound on the levels is never reached. -/
theorem codes_readArray_value :
    Codes (do readArray ((← get).file.bytes.length + 1) : Parse GGUFValue)
      (valueCoding GGUFValueType.array.raw) := by
  intro l hl v l'
  show exec (readArray (l.file.bytes.length + 1)) l = _ ↔ _
  rw [codes_readArray _ l hl v l']
  constructor
  · rintro ⟨_, _, ⟨a, ⟨ha, -⟩, rfl, rfl, rfl⟩, hfits, rfl⟩
    exact ⟨_, _, ⟨.array a, ha, rfl, rfl, rfl, rfl⟩, hfits, rfl⟩
  · rintro ⟨_, _, ⟨d, hd, htype, rfl, rfl, rfl⟩, hfits, rfl⟩
    obtain ⟨a, rfl⟩ : ∃ a, d = .array a := by
      cases d <;> first | exact ⟨_, rfl⟩ | cases raw_inj htype
    -- twelve bytes a level are in the file
    have hlength : a.encode.length ≤ l.file.rest.length + a.skippedBytes := by
      rcases hfits with h | ⟨-, h, -⟩
      · exact h.length_le.trans (Nat.le_add_right _ _)
      · exact h
    have hrest : l.file.rest.length ≤ l.file.bytes.length := by
      rw [InputStream.rest, List.length_drop]
      omega
    have := a.depth_add_skippedBytes_le
    exact ⟨_, _, ⟨a, ⟨hd, by omega⟩, rfl, rfl, rfl⟩, hfits, rfl⟩

/-- A value of a type that is given by its number. -/
theorem codes_readValue (vtypeRaw : UInt32) :
    Codes (readValue vtypeRaw) (valueCoding vtypeRaw) := by
  unfold readValue
  cases hraw : GGUFValueType.ofRaw vtypeRaw with
  | none =>
    refine (Codes.of_fails fun _ => rfl).congr fun v bytes skipped => ?_
    refine ⟨False.elim, ?_⟩
    rintro ⟨d, -, htype, -⟩
    rw [← htype, GGUFValueType.ofRaw_raw] at hraw
    cases hraw
  | some t =>
    obtain rfl := GGUFValueType.ofRaw_eq_some_iff.mp hraw
    cases t with
    | uint8 =>
      refine codes_numeric .uint8 codes_readUInt8 (fun _ => trivial)
        (fun _ => ⟨rfl, rfl, rfl, rfl⟩) fun d hd => ?_
      cases d <;> first | exact ⟨_, rfl⟩ | cases hd
    | int8 =>
      refine codes_numeric (fun v => .int8 v.toInt8) codes_readUInt8 (fun _ => trivial)
        (fun _ => ⟨rfl, rfl, rfl, rfl⟩) fun d hd => ?_
      cases d <;> first | exact ⟨Int8.toUInt8 _, rfl⟩ | cases hd
    | uint16 =>
      refine codes_numeric .uint16 codes_readUInt16 (fun _ => trivial)
        (fun _ => ⟨rfl, rfl, rfl, rfl⟩) fun d hd => ?_
      cases d <;> first | exact ⟨_, rfl⟩ | cases hd
    | int16 =>
      refine codes_numeric (fun v => .int16 v.toInt16) codes_readUInt16 (fun _ => trivial)
        (fun _ => ⟨rfl, rfl, rfl, rfl⟩) fun d hd => ?_
      cases d <;> first | exact ⟨Int16.toUInt16 _, rfl⟩ | cases hd
    | uint32 =>
      refine codes_numeric .uint32 codes_readUInt32 (fun _ => trivial)
        (fun _ => ⟨rfl, rfl, rfl, rfl⟩) fun d hd => ?_
      cases d <;> first | exact ⟨_, rfl⟩ | cases hd
    | int32 =>
      refine codes_numeric (fun v => .int32 v.toInt32) codes_readUInt32 (fun _ => trivial)
        (fun _ => ⟨rfl, rfl, rfl, rfl⟩) fun d hd => ?_
      cases d <;> first | exact ⟨Int32.toUInt32 _, rfl⟩ | cases hd
    | float32 =>
      refine codes_numeric .float32 codes_readUInt32 (fun _ => trivial)
        (fun _ => ⟨rfl, rfl, rfl, rfl⟩) fun d hd => ?_
      cases d <;> first | exact ⟨_, rfl⟩ | cases hd
    | bool =>
      refine codes_numeric .bool codes_readUInt8 (fun _ => trivial)
        (fun _ => ⟨rfl, rfl, rfl, rfl⟩) fun d hd => ?_
      cases d <;> first | exact ⟨_, rfl⟩ | cases hd
    | string =>
      refine codes_scalar .string codes_readString (fun _ => .rfl) (fun _ => ⟨rfl, rfl, rfl, rfl⟩)
        fun d hd => ?_
      cases d <;> first | exact ⟨_, rfl⟩ | cases hd
    | array => exact codes_readArray_value
    | uint64 =>
      refine codes_numeric .uint64 codes_readUInt64 (fun _ => trivial)
        (fun _ => ⟨rfl, rfl, rfl, rfl⟩) fun d hd => ?_
      cases d <;> first | exact ⟨_, rfl⟩ | cases hd
    | int64 =>
      refine codes_numeric (fun v => .int64 v.toInt64) codes_readUInt64 (fun _ => trivial)
        (fun _ => ⟨rfl, rfl, rfl, rfl⟩) fun d hd => ?_
      cases d <;> first | exact ⟨Int64.toUInt64 _, rfl⟩ | cases hd
    | float64 =>
      refine codes_numeric .float64 codes_readUInt64 (fun _ => trivial)
        (fun _ => ⟨rfl, rfl, rfl, rfl⟩) fun d hd => ?_
      cases d <;> first | exact ⟨_, rfl⟩ | cases hd

/-- The encodings of a metadata entry. -/
def entryCoding : Bytes × GGUFValue → Bytes → ℕ → Prop :=
  fun entry bytes skipped => ∃ e : GGUFEntry, e.InLimits ∧ entry = (e.key, e.data.value) ∧
    bytes = e.encode ∧ skipped = e.data.skippedBytes

/-- What is skipped is part of the encoding. -/
theorem skippedBytes_le (d : GGUFData) : d.skippedBytes ≤ d.encode.length := by
  cases d with
  | array a =>
    have := a.depth_add_skippedBytes_le
    show a.skippedBytes ≤ a.encode.length
    omega
  | _ => exact Nat.zero_le _

/-- Of every entry at least the length of its key is read. -/
theorem looked_entry : Looked entryCoding := by
  rintro entry bytes skipped ⟨e, -, -, rfl, rfl⟩
  have := skippedBytes_le e.data
  rw [GGUFEntry.encode, List.length_append, List.length_append, Bytes.length_ofNat]
  omega

theorem codes_readEntry : Codes readEntry entryCoding := by
  unfold readEntry
  refine (codes_readString.bind (S := fun key entry bytes skipped => ∃ d : GGUFData, d.InLimits ∧
    entry = (key, d.value) ∧ bytes = Bytes.ofNat 4 d.type.raw.toNat ++ d.encode ∧
    skipped = d.skippedBytes) (fun key _ _ => ?_) ?_).congr fun entry bytes skipped => ?_
  · refine (codes_readUInt32.bind (S := fun raw entry bytes skipped => ∃ v,
      valueCoding raw v bytes skipped ∧ entry = (key, v))
      (fun raw _ _ => (codes_readValue raw).map fun v => (key, v)) ?_).congr
      fun entry bytes skipped => ?_
    · rintro raw entry bytes skipped ⟨v, ⟨d, -, -, -, rfl, rfl⟩, -⟩
      exact skippedBytes_le d
    · constructor
      · rintro ⟨raw, _, _, rfl, ⟨v, ⟨d, hd, rfl, rfl, rfl, rfl⟩, rfl⟩, rfl⟩
        exact ⟨d, hd, rfl, rfl, rfl⟩
      · rintro ⟨d, hd, rfl, rfl, rfl⟩
        exact ⟨_, _, _, rfl, ⟨_, ⟨d, hd, rfl, rfl, rfl, rfl⟩, rfl⟩, rfl⟩
  · rintro key entry bytes skipped ⟨d, -, -, rfl, rfl⟩
    have := skippedBytes_le d
    rw [List.length_append]
    omega
  · constructor
    · rintro ⟨key, _, _, ⟨hkey, rfl⟩, ⟨d, hd, rfl, rfl, rfl⟩, rfl⟩
      exact ⟨⟨key, d⟩, ⟨hkey, hd⟩, rfl, rfl, rfl⟩
    · rintro ⟨⟨key, d⟩, ⟨hkey, hd⟩, rfl, rfl, rfl⟩
      exact ⟨key, _, _, ⟨hkey, rfl⟩, ⟨d, hd, rfl, rfl, rfl⟩, rfl⟩

/-! ## Tensor descriptors -/

/-- Dimensions that are not 0 have a positive product. -/
theorem volume_pos {shape : List UInt64} (h : ∀ dim ∈ shape, 1 ≤ dim.toNat) : 1 ≤ volume shape :=
  List.one_le_prod_of_one_le fun n hn => by
    obtain ⟨dim, hdim, rfl⟩ := List.mem_map.mp hn
    exact h dim hdim

/-- The overflow check of `readShape` as a bound on the product. -/
theorem mul_lt_iff {nElems dim : UInt64} (hdim : 1 ≤ dim.toNat) :
    ¬nElems > -1 / dim ↔ nElems.toNat * dim.toNat < 2 ^ 64 := by
  have hmax : (-1 / dim).toNat = (2 ^ 64 - 1) / dim.toNat := by
    rw [UInt64.toNat_div]
    rfl
  rw [gt_iff_lt, UInt64.lt_iff_toNat_lt, hmax, Nat.not_lt, Nat.le_div_iff_mul_le hdim]
  omega

/-- The encodings of dimensions: `nElems` is the product of those in front. -/
def shapeCoding (left : ℕ) (nElems : UInt64) : List UInt64 × UInt64 → Bytes → Prop :=
  fun dims bytes => dims.1.length = left ∧
    (∀ dim ∈ dims.1, 1 ≤ dim.toNat ∧ dim.toNat ≤ 2 ^ 32) ∧
    nElems.toNat * volume dims.1 < 2 ^ 64 ∧ dims.2.toNat = nElems.toNat * volume dims.1 ∧
    bytes = dims.1.flatMap fun dim => Bytes.ofNat 8 dim.toNat

/-- The dimensions of a tensor, multiplied as they are read. -/
theorem codes_readShape (name : Bytes) (d left : ℕ) (nElems : UInt64) :
    Codes (readShape name d left nElems) (Whole (shapeCoding left nElems)) := by
  induction left generalizing d nElems with
  | zero =>
    refine (Codes.pure _).congr fun dims bytes skipped => ?_
    constructor
    · rintro ⟨⟨rfl, rfl⟩, rfl⟩
      refine ⟨⟨rfl, (fun dim hdim => by cases hdim), ?_, ?_, rfl⟩, rfl⟩
      · simpa [volume] using nElems.toNat_lt
      · simp [volume]
    · rintro ⟨⟨hlength, -, -, hn, rfl⟩, rfl⟩
      obtain ⟨shape, n⟩ := dims
      obtain rfl := List.eq_nil_of_length_eq_zero hlength
      refine ⟨⟨Prod.ext rfl (UInt64.toNat_inj.mp ?_), rfl⟩, rfl⟩
      simpa [volume] using hn
  | succ left ih =>
    unfold readShape
    refine (codes_readUInt64.bind (S := fun dim dims bytes skipped => dim ≠ 0 ∧
      ¬dim > (1 : UInt64) <<< 32 ∧ ¬nElems > -1 / dim ∧ ∃ dims', Whole
        (shapeCoding left (nElems * dim)) dims' bytes skipped ∧ dims = (dim :: dims'.1, dims'.2))
      (fun dim _ _ => ?_) ?_).congr fun dims bytes skipped => ?_
    · exact (codes_errorIf _ _).check fun _ => (codes_errorIf _ _).check fun _ =>
        (codes_errorIf _ _).check fun _ => (ih (d + 1) (nElems * dim)).map _
    · rintro dim dims bytes skipped ⟨-, -, -, dims', ⟨-, rfl⟩, -⟩
      exact Nat.zero_le _
    · -- the three checks of the source, as bounds
      have hlimit : ∀ dim : UInt64, ¬dim > (1 : UInt64) <<< 32 ↔ dim.toNat ≤ 2 ^ 32 := by
        intro dim
        rw [gt_iff_lt, UInt64.lt_iff_toNat_lt, Nat.not_lt]
        rfl
      have hzero : ∀ dim : UInt64, dim ≠ 0 ↔ 1 ≤ dim.toNat := by
        intro dim
        rw [ne_eq, ← UInt64.toNat_inj, Nat.one_le_iff_ne_zero]
        rfl
      have hmul : ∀ dim : UInt64, nElems.toNat * dim.toNat < 2 ^ 64 →
          (nElems * dim).toNat = nElems.toNat * dim.toNat := fun dim h => by
        rw [UInt64.toNat_mul, Nat.mod_eq_of_lt h]
      constructor
      · rintro ⟨dim, _, _, rfl, ⟨hdim, hle, hover, ⟨shape, n⟩,
          ⟨⟨hlength, hdims, hlt, hn, rfl⟩, rfl⟩, rfl⟩, rfl⟩
        rw [hzero] at hdim
        rw [hlimit] at hle
        rw [mul_lt_iff hdim] at hover
        rw [hmul dim hover, Nat.mul_assoc] at hlt hn
        exact ⟨⟨congrArg (· + 1) hlength, List.forall_mem_cons.mpr ⟨⟨hdim, hle⟩, hdims⟩, hlt, hn,
          rfl⟩, rfl⟩
      · rintro ⟨⟨hlength, hdims, hlt, hn, rfl⟩, rfl⟩
        obtain ⟨shape, n⟩ := dims
        match shape, hlength, hdims, hlt, hn with
        | dim :: shape, hlength, hdims, hlt, hn =>
          obtain ⟨⟨hdim, hle⟩, hdims⟩ := List.forall_mem_cons.mp hdims
          have hvolume : volume (dim :: shape) = dim.toNat * volume shape := List.prod_cons
          rw [hvolume, ← Nat.mul_assoc] at hlt hn
          -- the product so far is below that of all dimensions
          have hover : nElems.toNat * dim.toNat < 2 ^ 64 :=
            Nat.lt_of_le_of_lt (Nat.le_mul_of_pos_right _
              (volume_pos fun dim hdim => (hdims dim hdim).1)) hlt
          refine ⟨dim, _, _, rfl, ⟨(hzero dim).mpr hdim, (hlimit dim).mpr hle,
            (mul_lt_iff hdim).mpr hover, (shape, n), ⟨⟨Nat.succ.inj hlength, hdims, ?_, ?_, rfl⟩,
            rfl⟩, rfl⟩, List.flatMap_cons⟩
          · rw [hmul dim hover]
            exact hlt
          · rw [hmul dim hover]
            exact hn

/-- The descriptor that a reader should get. -/
def descOf (t : GGUFTensor) : GGUFTensorDesc where
  name := t.name
  type := t.type
  shape := t.shape
  offset := t.offset
  nBytes := tensorBytes t.type (.ofNat t.count)

/-- The encodings of a tensor descriptor. -/
def tensorCoding : GGUFTensorDesc → Bytes → ℕ → Prop :=
  Whole fun desc bytes => ∃ t : GGUFTensor, t.InLimits ∧ desc = descOf t ∧ bytes = t.encode

/-- Of every tensor at least the length of its name is read. -/
theorem looked_tensor : Looked tensorCoding := by
  rintro desc bytes skipped ⟨⟨t, -, -, rfl⟩, rfl⟩
  rw [GGUFTensor.encode, encodeString, List.length_append, List.length_append, Bytes.length_ofNat]
  omega

/-- `byteSize` reads nothing, and checks the product for the two plain types. -/
theorem codes_byteSize (type : GGMLType) (nElems : UInt64) :
    Codes (byteSize type nElems) fun n bytes skipped =>
      ¬(type = GGMLType.f32 ∧ nElems > -1 / 4) ∧ ¬(type = GGMLType.f16 ∧ nElems > -1 / 2) ∧
        (n = tensorBytes type nElems ∧ bytes = []) ∧ skipped = 0 :=
  (codes_errorIf _ _).check fun _ => (codes_errorIf _ _).check fun _ => Codes.pure _

/-- The overflow checks of `byteSize` as bounds on the product. -/
theorem mul_count_lt_iff {n : UInt64} :
    (¬n > -1 / 4 ↔ 4 * n.toNat < 2 ^ 64) ∧ (¬n > -1 / 2 ↔ 2 * n.toNat < 2 ^ 64) := by
  have h4 : ¬n > -1 / 4 ↔ n.toNat * 4 < 2 ^ 64 := mul_lt_iff (by decide)
  have h2 : ¬n > -1 / 2 ↔ n.toNat * 2 < 2 ^ 64 := mul_lt_iff (by decide)
  rw [h4, h2, Nat.mul_comm 4, Nat.mul_comm 2]
  exact ⟨.rfl, .rfl⟩

theorem codes_readTensor : Codes readTensor tensorCoding := by
  unfold readTensor
  refine (codes_readString.bind (fun name _ _ => codes_readUInt32.bind (fun nDims _ _ =>
    (codes_errorIf _ _).check fun _ => (codes_errorIf _ _).check fun _ =>
      (codes_readShape name 0 nDims.toNat 1).bind (fun dims _ _ =>
        codes_readUInt32.bind (fun type _ _ => codes_readUInt64.bind (fun offset _ _ =>
          (codes_byteSize type dims.2).map _) ?_) ?_) ?_) ?_) ?_).congr fun desc bytes skipped => ?_
  -- nothing of a descriptor is skipped
  · rintro offset desc bytes skipped ⟨n, ⟨-, -, -, rfl⟩, -⟩
    exact Nat.zero_le _
  · rintro type desc bytes skipped ⟨offset, _, _, -, ⟨n, ⟨-, -, -, rfl⟩, -⟩, -⟩
    exact Nat.zero_le _
  · rintro dims desc bytes skipped ⟨type, _, _, -, ⟨offset, _, _, -, ⟨n, ⟨-, -, -, rfl⟩, -⟩, -⟩, -⟩
    exact Nat.zero_le _
  · rintro nDims desc bytes skipped ⟨-, -, dims, _, _, -, ⟨type, _, _, -, ⟨offset, _, _, -,
      ⟨n, ⟨-, -, -, rfl⟩, -⟩, -⟩, -⟩, -⟩
    exact Nat.zero_le _
  · rintro name desc bytes skipped ⟨nDims, _, _, -, ⟨-, -, dims, _, _, -, ⟨type, _, _, -,
      ⟨offset, _, _, -, ⟨n, ⟨-, -, -, rfl⟩, -⟩, -⟩, -⟩, -⟩, -⟩
    exact Nat.zero_le _
  · have hfour : ∀ nDims : UInt32, ¬nDims > 4 ↔ nDims.toNat ≤ 4 := by
      intro nDims
      rw [gt_iff_lt, UInt32.lt_iff_toNat_lt, Nat.not_lt]
      rfl
    have hzero : ∀ nDims : UInt32, ¬nDims = 0 ↔ 1 ≤ nDims.toNat := by
      intro nDims
      rw [← UInt32.toNat_inj, Nat.one_le_iff_ne_zero]
      rfl
    have hone : (1 : UInt64).toNat = 1 := rfl
    constructor
    · rintro ⟨name, _, _, ⟨hname, rfl⟩, ⟨nDims, _, _, rfl, ⟨hrank, hrank', ⟨shape, nElems⟩, _, _,
        ⟨hlength, hdims, hlt, hn, rfl⟩, ⟨type, _, _, rfl, ⟨offset, _, _, rfl,
        ⟨n, ⟨hf32, hf16, ⟨rfl, rfl⟩, rfl⟩, rfl⟩, rfl⟩, rfl⟩, rfl⟩, rfl⟩, rfl⟩
      rw [hone, Nat.one_mul] at hlt hn
      rw [not_and, mul_count_lt_iff.1, hn] at hf32
      rw [not_and, mul_count_lt_iff.2, hn] at hf16
      have hcount : UInt64.ofNat (volume shape) = nElems := by
        rw [← hn, UInt64.ofNat_toNat]
      refine ⟨⟨⟨name, shape, type, offset⟩, ⟨hname, ⟨hlength ▸ (hzero nDims).mp hrank,
        hlength ▸ (hfour nDims).mp hrank'⟩, hdims, hlt, hf32, hf16⟩, ?_, ?_⟩, rfl⟩
      · rw [descOf, GGUFTensor.count, hcount]
      · rw [GGUFTensor.encode, hlength, List.append_nil]
    · rintro ⟨⟨t, ht, rfl, rfl⟩, rfl⟩
      have hrank : (UInt32.ofNat t.shape.length).toNat = t.shape.length :=
        UInt32.toNat_ofNat_of_lt' (Nat.lt_of_le_of_lt ht.rank.2 (by decide))
      have hcount : (UInt64.ofNat t.count).toNat = t.count := UInt64.toNat_ofNat_of_lt' ht.count
      refine ⟨t.name, _, _, ⟨ht.name, rfl⟩, ⟨.ofNat t.shape.length, _, _, rfl, ⟨?_, ?_,
        (t.shape, .ofNat t.count), _, _, ⟨hrank.symm, ht.dims, ?_, ?_, rfl⟩,
        ⟨t.type, _, _, rfl, ⟨t.offset, _, _, rfl, ⟨_, ⟨?_, ?_, ⟨rfl, rfl⟩, rfl⟩, rfl⟩, rfl⟩, rfl⟩,
        rfl⟩, rfl⟩, ?_⟩
      · rw [hzero, hrank]
        exact ht.rank.1
      · rw [hfour, hrank]
        exact ht.rank.2
      · rw [hone, Nat.one_mul]
        exact ht.count
      · rw [hone, Nat.one_mul]
        exact hcount
      · rw [not_and, mul_count_lt_iff.1, hcount]
        exact ht.f32
      · rw [not_and, mul_count_lt_iff.2, hcount]
        exact ht.f16
      · rw [GGUFTensor.encode, hrank, List.append_nil]

end GGUFLoader
end HeteroAccel
