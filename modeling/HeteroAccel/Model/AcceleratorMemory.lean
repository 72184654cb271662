import HeteroAccel.Lib.Buffer
import HeteroAccel.Lib.KeyedMap

/-!
# Accelerator memory

`IAcceleratorMemory` is the interface every accelerator-visible memory implements, as functions on
a state `σ`; `α` is what one call meets in its environment. `HostAcceleratorMemory` is the
host-RAM implementation of the source.

`IAcceleratorMemory.Spec` says what an accelerator memory is for, as a map from live buffers to
their bytes: allocation adds a buffer that was not there, an upload fills its destination and
touches no other buffer, a release removes one buffer, and the bytes held never exceed the
capacity. `HostAcceleratorMemory.spec` proves that the host implementation meets it.
-/

namespace HeteroAccel

/-- The operations of `IAcceleratorMemory` the residency manager uses. Pointers are opaque. -/
structure IAcceleratorMemory (σ α : Type) where
  /-- `isAvailable()`. -/
  isAvailable : σ → Bool
  /-- `available()`: the bytes the memory reports as free. -/
  available : σ → UInt64
  /-- `lastError()`. -/
  lastError : σ → String
  /-- `allocate(bytes)`: a buffer, or a null pointer. -/
  allocate : α → σ → UInt64 → Option ℕ × σ
  /-- `release(ptr)`. -/
  release : σ → ℕ → σ
  /-- `upload(source, destination, bytes)`. -/
  upload : α → σ → List UInt8 → ℕ → UInt64 → Bool × σ

/-- The bytes held by a map of buffers. -/
def bufferBytes (buffers : KeyedMap ℕ (List UInt8)) : ℕ :=
  KeyedMap.total (fun _ b => b.length) buffers

/-- What an accelerator memory of the given capacity promises, through a view of its state as a
map from live buffers to their bytes. -/
structure IAcceleratorMemory.Spec {σ α : Type} (M : IAcceleratorMemory σ α) (capacity : ℕ) where
  /-- The states the memory's own operations lead to. -/
  Valid : σ → Prop
  /-- The live buffers and their bytes. -/
  buffers : σ → KeyedMap ℕ (List UInt8)
  /-- A newly constructed memory. -/
  fresh : σ
  fresh_valid : Valid fresh
  fresh_buffers : buffers fresh = ∅
  valid_allocate : ∀ env s n, Valid s → Valid (M.allocate env s n).2
  valid_release : ∀ s p, Valid s → Valid (M.release s p)
  valid_upload : ∀ env s src p n, Valid s → Valid (M.upload env s src p n).2
  /-- A granted buffer is new and has the requested size. -/
  allocate_some : ∀ env s n p, Valid s → (M.allocate env s n).1 = some p →
    (buffers s).lookup p = none ∧
      ∃ b, b.length = n.toNat ∧ buffers (M.allocate env s n).2 = (buffers s).insert p b
  /-- A refused allocation changes no buffer. -/
  allocate_none : ∀ env s n, Valid s → (M.allocate env s n).1 = none →
    buffers (M.allocate env s n).2 = buffers s
  /-- A release removes the one buffer. -/
  release_buffers : ∀ s p, Valid s → buffers (M.release s p) = (buffers s).erase p
  /-- An upload of exactly a buffer's size fills the buffer when it succeeds. -/
  upload_true : ∀ env s src p n, Valid s → (M.upload env s src p n).1 = true →
    (∃ b, (buffers s).lookup p = some b ∧ b.length = n.toNat) → src.length = n.toNat →
    buffers (M.upload env s src p n).2 = (buffers s).insert p src
  /-- A failed upload leaves every other buffer as it was. -/
  upload_false : ∀ env s src p n, Valid s → (M.upload env s src p n).1 = false →
    ∀ q, q ≠ p → (buffers (M.upload env s src p n).2).lookup q = (buffers s).lookup q
  /-- The buffers never exceed the capacity. -/
  bufferBytes_le : ∀ s, Valid s → bufferBytes (buffers s) ≤ capacity
  /-- A fresh memory can take any one buffer up to its capacity. -/
  grants : ∀ n : UInt64, n ≠ 0 → n.toNat ≤ capacity → M.isAvailable fresh = true ∧
    n ≤ M.available fresh ∧ ∃ env p, (M.allocate env fresh n).1 = some p ∧
      ∀ src, src.length = n.toNat → (M.upload env (M.allocate env fresh n).2 src p n).1 = true

/-- The memory reports as free what its buffers leave of its capacity. -/
def IAcceleratorMemory.Spec.Reports {σ α : Type} {M : IAcceleratorMemory σ α} {capacity : ℕ}
    (spec : M.Spec capacity) : Prop :=
  ∀ s n, spec.Valid s → bufferBytes (spec.buffers s) + n.toNat ≤ capacity → n ≤ M.available s

/-- The host-RAM stand-in for a device. `allocs_` is kept with the bytes of each buffer, whose
length is the recorded size. -/
structure HostAcceleratorMemory where
  /-- `capacity_`. -/
  capacity : UInt64
  /-- `used_`. -/
  used : UInt64
  /-- `fail_next_upload_`. -/
  failNextUpload : Bool
  /-- `last_error_`. -/
  lastError : String
  /-- `allocs_`, each buffer with its bytes. -/
  allocs : KeyedMap ℕ (List UInt8)

namespace HostAcceleratorMemory

/-- The host's answer to `new (std::nothrow) uint8_t[bytes]`: a non-null pointer to memory not in
use, or nothing. A process never holds `2 ^ 63` bytes. -/
def newBuffer (answer : Option ℕ) (m : HostAcceleratorMemory) (bytes : UInt64) : Option ℕ :=
  answer.filter fun p =>
    p ≠ 0 ∧ m.allocs.lookup p = none ∧ m.used.toNat + bytes.toNat < 2 ^ 63

/-- `HostAcceleratorMemory(capacity_bytes)`. -/
def construct (capacity : UInt64) : HostAcceleratorMemory :=
  { capacity, used := 0, failNextUpload := false, lastError := "", allocs := ∅ }

/-- `available()`. -/
def available (m : HostAcceleratorMemory) : UInt64 :=
  if m.capacity > m.used then m.capacity - m.used else 0

/-- `allocate(bytes)`. -/
def allocate (answer : Option ℕ) (m : HostAcceleratorMemory) (bytes : UInt64) :
    Option ℕ × HostAcceleratorMemory :=
  if bytes = 0 then (none, { m with lastError := "Zero-size accelerator allocation" })
  else if m.used + bytes > m.capacity then
    (none, { m with lastError := "Accelerator budget exceeded" })
  else
    match newBuffer answer m bytes with
    | none => (none, { m with lastError := "Host accelerator allocation failed" })
    | some p =>
      (some p, { m with
        allocs := m.allocs.insert p (List.replicate bytes.toNat 0)
        used := m.used + bytes
        lastError := "" })

/-- `release(ptr)`. -/
def release (m : HostAcceleratorMemory) (p : ℕ) : HostAcceleratorMemory :=
  match m.allocs.lookup p with
  | none => m
  | some b =>
    { m with used := m.used - UInt64.ofNat b.length, allocs := m.allocs.erase p }

/-- `upload(source, destination, bytes)` from a non-null source. -/
def upload (m : HostAcceleratorMemory) (src : List UInt8) (dst : ℕ) (bytes : UInt64) :
    Bool × HostAcceleratorMemory :=
  if m.failNextUpload then
    (false, { m with
      failNextUpload := false
      lastError := "Simulated accelerator upload failure" })
  else
    match m.allocs.lookup dst with
    | none => (false, { m with lastError := "Invalid accelerator upload" })
    | some b =>
      if bytes.toNat > b.length then
        (false, { m with lastError := "Invalid accelerator upload" })
      else
        (true, { m with
          allocs := m.allocs.insert dst (Buffer.blit b 0 (src.take bytes.toNat))
          lastError := "" })

/-- The host implementation as an accelerator memory. -/
def toInterface : IAcceleratorMemory HostAcceleratorMemory (Option ℕ) where
  isAvailable _ := true
  available := available
  lastError m := m.lastError
  allocate := allocate
  release := release
  upload _ := upload

/-- `used_` is the size of the live buffers, and stays within the capacity and within what a
process can hold. -/
structure Valid (capacity : UInt64) (m : HostAcceleratorMemory) : Prop where
  capacity_eq : m.capacity = capacity
  used_eq : m.used.toNat = bufferBytes m.allocs
  used_le : m.used ≤ m.capacity
  used_lt : m.used.toNat < 2 ^ 63

variable {capacity : UInt64} {m : HostAcceleratorMemory}

theorem newBuffer_eq_some {answer : Option ℕ} {bytes : UInt64} {p : ℕ}
    (h : newBuffer answer m bytes = some p) :
    m.allocs.lookup p = none ∧ m.used.toNat + bytes.toNat < 2 ^ 63 := by
  simp only [newBuffer, Option.filter_eq_some_iff, decide_eq_true_eq] at h
  exact h.2.2

/-- What a granted allocation did. -/
theorem allocate_eq_some {answer : Option ℕ} {bytes : UInt64} {p : ℕ}
    (h : (allocate answer m bytes).1 = some p) :
    bytes ≠ 0 ∧ ¬ m.used + bytes > m.capacity ∧ newBuffer answer m bytes = some p ∧
      (allocate answer m bytes).2 = { m with
        allocs := m.allocs.insert p (List.replicate bytes.toNat 0)
        used := m.used + bytes
        lastError := "" } := by
  unfold allocate at h ⊢
  split at h
  next => cases h
  next hzero =>
    split at h
    next => cases h
    next hcap =>
      cases hnew : newBuffer answer m bytes with
      | none => rw [hnew] at h; cases h
      | some q =>
        rw [hnew] at h
        cases h
        simp [hzero, hcap]

/-- A refused allocation only records its error. -/
theorem allocate_eq_none {answer : Option ℕ} {bytes : UInt64}
    (h : (allocate answer m bytes).1 = none) :
    ∃ e, (allocate answer m bytes).2 = { m with lastError := e } := by
  unfold allocate at h ⊢
  split
  next => exact ⟨_, rfl⟩
  next hzero =>
    rw [if_neg hzero] at h
    split
    next => exact ⟨_, rfl⟩
    next hcap =>
      rw [if_neg hcap] at h
      cases hnew : newBuffer answer m bytes with
      | none => exact ⟨_, rfl⟩
      | some q => rw [hnew] at h; cases h

theorem Valid.allocate (hm : Valid capacity m) (answer : Option ℕ) (bytes : UInt64) :
    Valid capacity (m.allocate answer bytes).2 := by
  cases h : (m.allocate answer bytes).1 with
  | none =>
    obtain ⟨e, he⟩ := allocate_eq_none h
    rw [he]
    exact ⟨hm.capacity_eq, hm.used_eq, hm.used_le, hm.used_lt⟩
  | some p =>
    obtain ⟨-, hcap, hnew, he⟩ := allocate_eq_some h
    obtain ⟨hfresh, hlt⟩ := newBuffer_eq_some hnew
    have hsum : (m.used + bytes).toNat = m.used.toNat + bytes.toNat := by
      rw [UInt64.toNat_add]
      exact Nat.mod_eq_of_lt (by omega)
    rw [he]
    refine ⟨hm.capacity_eq, ?_, UInt64.not_lt.mp hcap, by rw [hsum]; exact hlt⟩
    simp only [bufferBytes, KeyedMap.total_insert_of_notMem hfresh, List.length_replicate, hsum]
    rw [hm.used_eq, bufferBytes]

theorem Valid.release (hm : Valid capacity m) (p : ℕ) : Valid capacity (m.release p) := by
  unfold HostAcceleratorMemory.release
  cases hp : m.allocs.lookup p with
  | none => exact hm
  | some b =>
    have htotal := KeyedMap.total_erase (f := fun _ b => b.length) hp
    have hused := hm.used_eq
    have hlt := hm.used_lt
    rw [bufferBytes] at hused
    have hlen : (UInt64.ofNat b.length).toNat = b.length := by
      rw [UInt64.toNat_ofNat']
      exact Nat.mod_eq_of_lt (by omega)
    -- a buffer is part of what is counted, so the difference does not wrap
    have hle : UInt64.ofNat b.length ≤ m.used := by
      rw [UInt64.le_iff_toNat_le, hlen]
      omega
    have hsub : (m.used - UInt64.ofNat b.length).toNat = m.used.toNat - b.length := by
      rw [UInt64.toNat_sub_of_le _ _ hle, hlen]
    refine ⟨hm.capacity_eq, ?used_eq, ?used_le, ?used_lt⟩
    case used_eq =>
      change (m.used - UInt64.ofNat b.length).toNat = bufferBytes (m.allocs.erase p)
      rw [hsub, bufferBytes]
      omega
    case used_le =>
      have hcap := UInt64.le_iff_toNat_le.mp hm.used_le
      change m.used - UInt64.ofNat b.length ≤ m.capacity
      rw [UInt64.le_iff_toNat_le]
      omega
    case used_lt =>
      change (m.used - UInt64.ofNat b.length).toNat < 2 ^ 63
      omega

/-- What an upload did: nothing but an error record, or the copy. -/
theorem upload_cases (src : List UInt8) (dst : ℕ) (bytes : UInt64) :
    ((m.upload src dst bytes).1 = false ∧ (m.upload src dst bytes).2.allocs = m.allocs ∧
        (m.upload src dst bytes).2.used = m.used ∧
        (m.upload src dst bytes).2.capacity = m.capacity) ∨
      ∃ b, m.allocs.lookup dst = some b ∧ bytes.toNat ≤ b.length ∧
        m.upload src dst bytes = (true, { m with
          allocs := m.allocs.insert dst (Buffer.blit b 0 (src.take bytes.toNat))
          lastError := "" }) := by
  unfold HostAcceleratorMemory.upload
  split
  next => exact .inl ⟨rfl, rfl, rfl, rfl⟩
  next =>
    cases hdst : m.allocs.lookup dst with
    | none => exact .inl ⟨rfl, rfl, rfl, rfl⟩
    | some b =>
      dsimp only
      split
      next => exact .inl ⟨rfl, rfl, rfl, rfl⟩
      next hle => exact .inr ⟨b, rfl, Nat.not_lt.mp hle, rfl⟩

/-- An upload into a live buffer that is large enough succeeds. -/
theorem upload_of_lookup {src b : List UInt8} {dst : ℕ} {bytes : UInt64}
    (hfail : m.failNextUpload = false) (hdst : m.allocs.lookup dst = some b)
    (hle : bytes.toNat ≤ b.length) : (m.upload src dst bytes).1 = true := by
  simp [HostAcceleratorMemory.upload, hfail, hdst, Nat.not_lt.mpr hle]

theorem Valid.upload (hm : Valid capacity m) (src : List UInt8) (dst : ℕ) (bytes : UInt64) :
    Valid capacity (m.upload src dst bytes).2 := by
  rcases upload_cases (m := m) src dst bytes with ⟨-, ha, hu, hc⟩ | ⟨b, hb, hle, he⟩
  · refine ⟨hc.trans hm.capacity_eq, ?_, ?_, ?_⟩
    · rw [hu, ha, hm.used_eq]
    · rw [hu, hc]
      exact hm.used_le
    · rw [hu]
      exact hm.used_lt
  · rw [he]
    refine ⟨hm.capacity_eq, ?_, hm.used_le, hm.used_lt⟩
    have htotal := KeyedMap.total_insert_of_lookup (f := fun _ b => b.length)
      (w := Buffer.blit b 0 (src.take bytes.toNat)) hb
    have hlen : (Buffer.blit b 0 (src.take bytes.toNat)).length = b.length := by
      refine Buffer.length_blit ?_
      rw [List.length_take]
      omega
    simp only [hlen, Nat.add_right_cancel_iff] at htotal
    change m.used.toNat = bufferBytes (m.allocs.insert dst (Buffer.blit b 0 (src.take bytes.toNat)))
    rw [hm.used_eq, bufferBytes, bufferBytes, htotal]

theorem valid_construct (capacity : UInt64) : Valid capacity (construct capacity) :=
  ⟨rfl, rfl, by simp [construct, UInt64.le_iff_toNat_le], by simp [construct]⟩

/-- The host implementation keeps the promises of an accelerator memory. No process holds
`2 ^ 63` bytes, so that bounds the capacity too. -/
def spec (capacity : UInt64) :
    toInterface.Spec (min capacity.toNat (2 ^ 63 - 1)) where
  Valid := Valid capacity
  buffers m := m.allocs
  fresh := construct capacity
  fresh_valid := valid_construct capacity
  fresh_buffers := rfl
  valid_allocate answer _ n hm := hm.allocate answer n
  valid_release _ p hm := hm.release p
  valid_upload _ _ src p n hm := hm.upload src p n
  allocate_some answer m n p _ h := by
    obtain ⟨-, -, hnew, he⟩ := allocate_eq_some (m := m) h
    refine ⟨(newBuffer_eq_some hnew).1, List.replicate n.toNat 0, by simp, ?_⟩
    change (m.allocate answer n).2.allocs = _
    rw [he]
  allocate_none answer m n _ h := by
    obtain ⟨e, he⟩ := allocate_eq_none (m := m) h
    change (m.allocate answer n).2.allocs = _
    rw [he]
  release_buffers m p _ := by
    change (m.release p).allocs = m.allocs.erase p
    unfold HostAcceleratorMemory.release
    cases hp : m.allocs.lookup p with
    | none =>
      refine AList.ext ?_
      exact (List.kerase_of_notMem_keys (AList.lookup_eq_none.mp hp)).symm
    | some b => rfl
  upload_true _ m src p n _ h hb hlen := by
    change (m.upload src p n).2.allocs = _
    rcases upload_cases (m := m) src p n with ⟨hf, -⟩ | ⟨b, hlook, -, he⟩
    · rw [show (m.upload src p n).1 = true from h] at hf
      cases hf
    · obtain ⟨b', hb', hlen'⟩ := hb
      rw [show m.allocs.lookup p = some b' from hb'] at hlook
      cases hlook
      have htake : src.take n.toNat = src := List.take_of_length_le hlen.le
      rw [he, htake, Buffer.blit_zero_of_length_eq (hlen.trans hlen'.symm)]
  upload_false _ m src p n _ h q _ := by
    change (m.upload src p n).2.allocs.lookup q = m.allocs.lookup q
    rcases upload_cases (m := m) src p n with ⟨-, ha, -⟩ | ⟨b, -, -, he⟩
    · rw [ha]
    · have hfalse : (m.upload src p n).1 = false := h
      rw [he] at hfalse
      cases hfalse
  bufferBytes_le m hm := by
    have hle := UInt64.le_iff_toNat_le.mp hm.used_le
    rw [hm.capacity_eq] at hle
    have hlt := hm.used_lt
    rw [← hm.used_eq]
    omega
  grants n hn hcap := by
    have hle : n.toNat ≤ capacity.toNat := by omega
    have hpos : n.toNat ≠ 0 := fun h => hn (UInt64.toNat_inj.mp (by simpa using h))
    have hnew : newBuffer (some 1) (construct capacity) n = some 1 := by
      have hlt : n.toNat < 9223372036854775808 := by omega
      simp [newBuffer, construct, hlt]
    have halloc : (construct capacity).allocate (some 1) n = (some 1, { construct capacity with
        allocs := (∅ : KeyedMap ℕ (List UInt8)).insert 1 (List.replicate n.toNat 0)
        used := 0 + n
        lastError := "" }) := by
      have hfit : ¬ (construct capacity).used + n > (construct capacity).capacity := by
        simp [construct, UInt64.le_iff_toNat_le, hle]
      rw [HostAcceleratorMemory.allocate, if_neg hn, if_neg hfit, hnew]
      rfl
    refine ⟨rfl, ?_, some 1, 1, congrArg Prod.fst halloc, fun src hsrc => ?_⟩
    · change n ≤ (construct capacity).available
      have hgt : (construct capacity).capacity > (construct capacity).used := by
        simp only [construct, gt_iff_lt, UInt64.lt_iff_toNat_lt, UInt64.toNat_zero]
        omega
      rw [HostAcceleratorMemory.available, if_pos hgt]
      simp [construct, UInt64.le_iff_toNat_le, hle]
    · change (((construct capacity).allocate (some 1) n).2.upload src 1 n).1 = true
      rw [halloc]
      exact upload_of_lookup rfl (AList.lookup_insert _) (by simp)

end HostAcceleratorMemory

end HeteroAccel
