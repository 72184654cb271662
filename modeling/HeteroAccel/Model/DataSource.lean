import Mathlib.Data.List.Basic
import Mathlib.Tactic.Linarith

/-!
# Random-access model bytes

The interface `IModelDataSource` the residency manager reads through, and its file-backed
implementation `FileModelDataSource`. A read either fails with an error text or delivers exactly
the bytes `[offset, offset + nbytes)` of the file: the interface carries that promise as a field,
and `FileModelDataSource.toSource` discharges it for the chunked `fread` loop.

## Main definitions

* `fileSlice content offset nbytes`: the bytes a region names, when the file has them all;
* `FileModelDataSource.read`: bounds checks, seek, and the loop over chunks of at most 1 MiB;
* `IModelDataSource`: what the manager needs of a source.
-/

namespace HeteroAccel

/-- The bytes `[offset, offset + nbytes)` of a file, if the file is that long. -/
def fileSlice (content : List UInt8) (offset nbytes : UInt64) : Option (List UInt8) :=
  if offset.toNat + nbytes.toNat ≤ content.length then
    some ((content.drop offset.toNat).take nbytes.toNat)
  else none

/-- A delivered slice has the requested length. -/
theorem length_of_fileSlice {content bytes : List UInt8} {offset nbytes : UInt64}
    (h : fileSlice content offset nbytes = some bytes) : bytes.length = nbytes.toNat := by
  unfold fileSlice at h
  split at h
  next hle =>
    cases h
    simp
    omega
  next => cases h

/-- A readable region of a model file. `ρ` is what one read call meets in its environment. -/
structure IModelDataSource (ρ : Type) where
  /-- The bytes of the model. -/
  content : List UInt8
  /-- Read `nbytes` at `offset`: the bytes, or the text of `lastError()`. -/
  read : ρ → UInt64 → UInt64 → Except String (List UInt8)
  /-- A successful read delivers exactly the requested bytes. -/
  read_eq : ∀ env offset nbytes bytes, read env offset nbytes = .ok bytes →
    fileSlice content offset nbytes = some bytes

/-- What one call of `FileModelDataSource::read` meets: the polls of the cancel flag, whether the
seek works, and how many bytes each `fread` can deliver (`0` being an error or end of file). -/
structure FileReadEnv where
  /-- The cancel flag at its `i`-th poll (`false` throughout when no flag is passed). -/
  cancel : ℕ → Bool
  /-- Whether `seek64` succeeds. -/
  seekOk : Bool
  /-- The most bytes the `i`-th `fread` can deliver. -/
  fread : ℕ → ℕ
  /-- Whether `ferror` is set after an `fread` that delivers nothing. -/
  ferror : Bool

/-- A model file behind `FileModelDataSource`, with the size `open` measured. -/
structure FileModelDataSource where
  /-- The bytes of the file. -/
  content : List UInt8
  /-- `size_`, measured by `open`. -/
  size : UInt64
  /-- Whether `file_` is open. -/
  isOpen : Bool
  /-- The measured size is the file's. -/
  size_eq : size.toNat = content.length

namespace FileModelDataSource

/-- The largest chunk one `fread` asks for. -/
def chunkBytes : ℕ := 1024 * 1024

/-- The `fread` loop: `poll` numbers the iterations, `pos` is the stream position and `out` what
has been delivered so far. -/
def readLoop (content : List UInt8) (env : FileReadEnv) (poll pos remaining : ℕ)
    (out : List UInt8) : Except String (List UInt8) :=
  if remaining = 0 then .ok out
  else if env.cancel poll then .error "Read cancelled"
  else
    let chunk := if remaining > chunkBytes then chunkBytes else remaining
    let got := min (env.fread poll) (min chunk (content.length - pos))
    if got = 0 then
      .error (if env.ferror then "I/O error during read" else "Unexpected EOF (truncated file)")
    else
      readLoop content env (poll + 1) (pos + got) (remaining - got)
        (out ++ (content.drop pos).take got)
termination_by remaining
decreasing_by omega

/-- `FileModelDataSource::read` into a non-null destination. -/
def read (src : FileModelDataSource) (env : FileReadEnv) (offset nbytes : UInt64) :
    Except String (List UInt8) :=
  if nbytes = 0 then .error "Invalid destination or zero-length read"
  else if env.cancel 0 then .error "Read cancelled"
  else if ¬ src.isOpen then .error "File is not open"
  else if offset > src.size || nbytes > src.size - offset then .error "Read exceeds file bounds"
  else if ¬ env.seekOk then .error "Seek failed"
  else readLoop src.content env 1 offset.toNat nbytes.toNat []

/-- The loop delivers what was already out, followed by the next `remaining` bytes. -/
theorem readLoop_eq {content : List UInt8} {env : FileReadEnv} (poll pos remaining : ℕ)
    (out bytes : List UInt8) (hfit : pos + remaining ≤ content.length)
    (h : readLoop content env poll pos remaining out = .ok bytes) :
    bytes = out ++ (content.drop pos).take remaining := by
  fun_induction readLoop content env poll pos remaining out with
  | case1 poll pos out =>
    cases h
    simp
  | case2 => cases h
  | case3 => cases h
  | case4 poll pos remaining out hrem hcancel chunk got hgot ih =>
    have hle : got ≤ remaining := by
      have hchunk : chunk ≤ remaining := by simp only [chunk]; split <;> omega
      omega
    rw [ih (by omega) h, List.append_assoc]
    congr 1
    calc (content.drop pos).take got ++ (content.drop (pos + got)).take (remaining - got)
        = (content.drop pos).take got
            ++ ((content.drop pos).drop got).take (remaining - got) := by rw [List.drop_drop]
      _ = (content.drop pos).take (got + (remaining - got)) := by rw [List.take_add]
      _ = (content.drop pos).take remaining := by rw [Nat.add_sub_cancel' hle]

/-- A successful `read` delivers exactly the requested bytes of the file. -/
theorem read_eq (src : FileModelDataSource) (env : FileReadEnv) (offset nbytes : UInt64)
    (bytes : List UInt8) (h : src.read env offset nbytes = .ok bytes) :
    fileSlice src.content offset nbytes = some bytes := by
  unfold read at h
  split at h
  next => cases h
  next =>
  split at h
  next => cases h
  next =>
  split at h
  next => cases h
  next =>
  split at h
  next => cases h
  next hbound =>
  split at h
  next => cases h
  next =>
    -- the bound that the source checks, without its difference of 64 bits
    have hfit : offset.toNat + nbytes.toNat ≤ src.content.length := by
      simp only [gt_iff_lt, Bool.or_eq_true, decide_eq_true_eq, not_or, UInt64.not_lt] at hbound
      have hoff : offset.toNat ≤ src.size.toNat := UInt64.le_iff_toNat_le.mp hbound.1
      have hlen : nbytes.toNat ≤ (src.size - offset).toNat := UInt64.le_iff_toNat_le.mp hbound.2
      rw [UInt64.toNat_sub_of_le _ _ hbound.1] at hlen
      rw [← src.size_eq]
      omega
    rw [fileSlice, if_pos hfit, readLoop_eq 1 _ _ [] bytes hfit h]
    simp

/-- The loop delivers when nothing cancels it and every `fread` fills its chunk. -/
theorem readLoop_ok {content : List UInt8} {env : FileReadEnv}
    (hcancel : ∀ i, env.cancel i = false) (hfull : ∀ i, chunkBytes ≤ env.fread i)
    (poll pos remaining : ℕ) (out : List UInt8) (hfit : pos + remaining ≤ content.length) :
    ∃ bytes, readLoop content env poll pos remaining out = .ok bytes := by
  fun_induction readLoop content env poll pos remaining out with
  | case1 poll pos out => exact ⟨out, rfl⟩
  | case2 poll pos remaining out hrem hpoll =>
    rw [hcancel] at hpoll
    cases hpoll
  | case3 poll pos remaining out hrem _ chunk got hgot =>
    -- the chunk, the file and the stream all have bytes left
    have hpos : 0 < chunk := by
      simp only [chunk]
      split
      next => decide
      next => omega
    have hchunk : chunk ≤ chunkBytes ∧ chunk ≤ remaining := by
      simp only [chunk]
      split <;> omega
    have := hfull poll
    omega
  | case4 poll pos remaining out hrem hpoll chunk got hgot ih => exact ih (by omega)

/-- A read within an open file delivers when the file system does. -/
theorem read_ok {src : FileModelDataSource} {env : FileReadEnv} {offset nbytes : UInt64}
    (hcancel : ∀ i, env.cancel i = false) (hfull : ∀ i, chunkBytes ≤ env.fread i)
    (hseek : env.seekOk = true) (hopen : src.isOpen = true) (hpos : nbytes ≠ 0)
    (hfit : offset.toNat + nbytes.toNat ≤ src.content.length) :
    ∃ bytes, src.read env offset nbytes = .ok bytes := by
  have hoff : offset ≤ src.size := by
    rw [UInt64.le_iff_toNat_le, src.size_eq]
    omega
  have hlen : nbytes ≤ src.size - offset := by
    rw [UInt64.le_iff_toNat_le, UInt64.toNat_sub_of_le _ _ hoff, src.size_eq]
    omega
  have hbound : (decide (offset > src.size) || decide (nbytes > src.size - offset)) = false := by
    simp only [gt_iff_lt, Bool.or_eq_false_iff, decide_eq_false_iff_not, UInt64.not_lt]
    exact ⟨hoff, hlen⟩
  unfold read
  simp only [hpos, hcancel, hopen, hbound, hseek, ↓reduceIte, Bool.false_eq_true, not_true_eq_false]
  exact readLoop_ok hcancel hfull 1 _ _ [] hfit

/-- A file with the given bytes, opened. -/
def opened (content : List UInt8) (h : content.length < 2 ^ 64) : FileModelDataSource where
  content := content
  size := .ofNat content.length
  isOpen := true
  size_eq := by
    rw [UInt64.toNat_ofNat']
    exact Nat.mod_eq_of_lt h

/-- A file system that delivers what is asked for. -/
def calm : FileReadEnv :=
  { cancel := fun _ => false, seekOk := true, fread := fun _ => chunkBytes, ferror := false }

instance : Inhabited FileReadEnv := ⟨calm⟩

/-- The file as a source for the residency manager. -/
def toSource (src : FileModelDataSource) : IModelDataSource FileReadEnv where
  content := src.content
  read := src.read
  read_eq := src.read_eq

end FileModelDataSource

end HeteroAccel
