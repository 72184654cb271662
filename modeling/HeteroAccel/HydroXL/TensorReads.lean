import HeteroAccel.HydroXL.TensorData

/-!
# Reads of an open file

A file is opened and then read any number of times, with descriptors that need not come from the
file. The range checks of `readTensorData` are comparisons of 64-bit numbers that could wrap; a read
still succeeds exactly when its range is in the file, gets exactly these bytes, and one that fails
changes nothing.

## Main definitions

* `OpenFile`: a loader that has opened a file;
* `ReadCall`: a call of `readTensorData` with a buffer that is as large as it is said to be;
* `OpenFile.after`: the loader after some reads.

## Main results

* `OpenFile.read_spec`: what a read returns, writes and leaves after any other reads.
-/

namespace HeteroAccel

/-- A fresh loader that has opened a file. -/
structure OpenFile where
  path : Bytes
  content : FileContent
  loader : GGUFLoader
  open_eq : GGUFLoader.open {} path (some content) = (true, loader)

/-- A call of `readTensorData`. -/
structure ReadCall where
  desc : GGUFTensorDesc
  dst : Bytes
  maxBytes : UInt64
  /-- The buffer has the room that the caller says. -/
  room : maxBytes.toNat ≤ dst.length

namespace ReadCall

/-- The result, the buffer and the loader after the call. -/
def run (call : ReadCall) (l : GGUFLoader) : Bool × Bytes × GGUFLoader :=
  l.readTensorData call.desc call.dst call.maxBytes

/-- The call asks for some bytes, for no more than there is room for, and all of them are in a file
of `length` bytes whose data begin at `dataOffset`. -/
def InRange (call : ReadCall) (dataOffset length : ℕ) : Prop :=
  0 < call.desc.nBytes.toNat ∧ call.desc.nBytes.toNat ≤ call.maxBytes.toNat ∧
    dataOffset + call.desc.offset.toNat + call.desc.nBytes.toNat ≤ length

end ReadCall

namespace GGUFLoader

variable {l : GGUFLoader} {desc : GGUFTensorDesc} {dst : Bytes} {maxBytes : UInt64}

/-- More room than is needed does not matter. -/
theorem readTensorData_of_le (h : desc.nBytes ≤ maxBytes) :
    l.readTensorData desc dst maxBytes = l.readTensorData desc dst desc.nBytes := by
  unfold readTensorData
  rw [if_neg (UInt64.not_lt.mpr h), if_neg (UInt64.not_lt.mpr (UInt64.le_refl _))]

/-- With less room nothing is done. -/
theorem readTensorData_of_gt (h : desc.nBytes > maxBytes) :
    l.readTensorData desc dst maxBytes = (false, dst, l) := by
  unfold readTensorData
  rw [if_pos h]
  split_ifs <;> rfl

end GGUFLoader

variable {l : GGUFLoader} {call : ReadCall}

/-- A read that is not in range fails and leaves everything as it is. -/
theorem ReadCall.run_of_not_inRange (hl : l.Opened)
    (h : ¬call.InRange l.dataOffset.toNat l.file.bytes.length) :
    call.run l = (false, call.dst, l) := by
  unfold ReadCall.run
  by_cases hmax : call.desc.nBytes > call.maxBytes
  · exact GGUFLoader.readTensorData_of_gt hmax
  · rw [GGUFLoader.readTensorData_of_le (UInt64.not_lt.mp hmax)]
    refine GGUFLoader.readTensorData_of_not_holds hl fun hholds => h ⟨hholds.1, ?_, hholds.2⟩
    exact UInt64.le_iff_toNat_le.mp (UInt64.not_lt.mp hmax)

/-- A read in range gets the bytes of its range. -/
theorem ReadCall.run_of_inRange (hl : l.Opened)
    (h : call.InRange l.dataOffset.toNat l.file.bytes.length) : ∃ l' : GGUFLoader,
      call.run l = (true, l.tensorFile.data call.desc ++ call.dst.drop call.desc.nBytes.toNat, l') ∧
      l'.Opened ∧ l'.tensorFile = l.tensorFile := by
  obtain ⟨hpos, hmax, hend⟩ := h
  unfold ReadCall.run
  rw [GGUFLoader.readTensorData_of_le (UInt64.le_iff_toNat_le.mpr hmax)]
  exact GGUFLoader.readTensorData_of_holds hl ⟨hpos, hend⟩ (hmax.trans call.room)

/-- Any read leaves a loader that has the file open. -/
theorem ReadCall.opened_run (hl : l.Opened) :
    (call.run l).2.2.Opened ∧ (call.run l).2.2.tensorFile = l.tensorFile := by
  by_cases h : call.InRange l.dataOffset.toNat l.file.bytes.length
  · obtain ⟨l', hrun, hl'⟩ := call.run_of_inRange hl h
    rw [hrun]
    exact hl'
  · rw [call.run_of_not_inRange hl h]
    exact ⟨hl, rfl⟩

namespace OpenFile

variable (f : OpenFile)

/-- The loader after some reads, whatever they returned. -/
def after (calls : List ReadCall) : GGUFLoader :=
  calls.foldl (fun l call => (call.run l).2.2) f.loader

theorem opened_after (calls : List ReadCall) :
    (f.after calls).Opened ∧ (f.after calls).tensorFile = f.loader.tensorFile := by
  unfold after
  induction calls using List.reverseRecOn with
  | nil => exact ⟨GGUFLoader.opened_of_open f.open_eq, rfl⟩
  | append_singleton calls call ih =>
    rw [List.foldl_append]
    obtain ⟨hopened, hfile⟩ := call.opened_run ih.1
    exact ⟨hopened, hfile.trans ih.2⟩

/-- The open file is the one that the path named. -/
theorem bytes_loader : f.loader.file.bytes = f.content.bytes := by
  obtain ⟨c, dataOffset, -, -, -, hloader⟩ := GGUFLoader.open_eq_true_iff.mp f.open_eq
  rw [hloader]
  rfl

/-- **Reads are exact and bounded.** After any reads of the open file, a read returns true exactly
when it is in range. The buffer then begins with the bytes of the range and is as it was behind
them; otherwise the buffer and the loader are as they were. -/
theorem read_spec (earlier : List ReadCall) (call : ReadCall) :
    (((call.run (f.after earlier)).1 = true ↔
        call.InRange f.loader.dataOffset.toNat f.content.bytes.length) ∧
      ((call.run (f.after earlier)).1 = true → (call.run (f.after earlier)).2.1 =
        (f.content.bytes.drop (f.loader.dataOffset.toNat + call.desc.offset.toNat)).take
          call.desc.nBytes.toNat ++ call.dst.drop call.desc.nBytes.toNat)) ∧
      ((call.run (f.after earlier)).1 = false →
        (call.run (f.after earlier)).2 = (call.dst, f.after earlier)) := by
  obtain ⟨hopened, hfile⟩ := f.opened_after earlier
  have hoffset : (f.after earlier).dataOffset.toNat = f.loader.dataOffset.toNat :=
    congrArg TensorFile.dataOffset hfile
  have hbytes : (f.after earlier).file.bytes = f.content.bytes :=
    (congrArg TensorFile.bytes hfile).trans f.bytes_loader
  by_cases h : call.InRange (f.after earlier).dataOffset.toNat (f.after earlier).file.bytes.length
  · obtain ⟨l', hrun, -⟩ := call.run_of_inRange hopened h
    rw [hoffset, hbytes] at h
    rw [hrun, hfile]
    refine ⟨⟨iff_of_true rfl h, fun _ => ?_⟩, fun hfalse => by cases hfalse⟩
    rw [TensorFile.data, ← f.bytes_loader]
    rfl
  · rw [call.run_of_not_inRange hopened h]
    rw [hoffset, hbytes] at h
    exact ⟨⟨iff_of_false Bool.false_ne_true h, fun htrue => by cases htrue⟩, fun _ => rfl⟩

end OpenFile

end HeteroAccel
