import Mathlib.Data.List.Basic
import Mathlib.Tactic.Linarith

/-!
# Copies into a buffer

A buffer is a list of elements. The module gives the one write every `memcpy` is, with what it
does at every index, and the same for a sequence of writes that fill consecutive rows:

* `blit dst offset src`: `src` copied over `dst` from `offset` on;
* `memcpy dst offset src n`: the first `n` elements of `src` copied, if both ranges exist;
* `blitRows width rows n dst`: rows `0, …, n - 1` copied one after the other;
* `writeRows width rows is dst`: the rows with the numbers `is` copied, in the order of the list.
  When every row is among them the order does not matter (`writeRows_eq_flatMap`).
-/

namespace Buffer

variable {α : Type*}

/-- `src` copied over `dst` from `offset` on. -/
def blit (dst : List α) (offset : ℕ) (src : List α) : List α :=
  dst.take offset ++ src ++ dst.drop (offset + src.length)

/-- A copy of `n` elements to `dst + offset`; `none` where it would leave one of the ranges. -/
def memcpy (dst : List α) (offset : ℕ) (src : List α) (n : ℕ) : Option (List α) :=
  if n ≤ src.length ∧ offset + n ≤ dst.length then some (blit dst offset (src.take n)) else none

variable {dst src : List α} {offset i n : ℕ}

theorem length_blit (hfit : offset + src.length ≤ dst.length) :
    (blit dst offset src).length = dst.length := by
  simp only [blit, List.length_append, List.length_take, List.length_drop]
  omega

/-- Inside the copied range the buffer holds what was copied. -/
theorem getElem?_blit_of_mem (hfit : offset + src.length ≤ dst.length) (hle : offset ≤ i)
    (hlt : i < offset + src.length) : (blit dst offset src)[i]? = src[i - offset]? := by
  have htake : (dst.take offset).length = offset := by
    rw [List.length_take]
    omega
  rw [blit, List.append_assoc, List.getElem?_append_right (by omega), htake,
    List.getElem?_append_left (by omega)]

/-- Outside the copied range the buffer is as before. -/
theorem getElem?_blit_of_notMem (hfit : offset + src.length ≤ dst.length)
    (hout : i < offset ∨ offset + src.length ≤ i) : (blit dst offset src)[i]? = dst[i]? := by
  have htake : (dst.take offset).length = offset := by
    rw [List.length_take]
    omega
  rcases hout with hlt | hge
  · rw [blit, List.append_assoc, List.getElem?_append_left (by omega), List.getElem?_take_of_lt hlt]
  · rw [blit, List.getElem?_append_right (by simp only [List.length_append]; omega),
      List.getElem?_drop]
    congr 1
    simp only [List.length_append]
    omega

/-- A copy that replaces the whole buffer. -/
theorem blit_zero_of_length_eq (h : src.length = dst.length) : blit dst 0 src = src := by
  simp [blit, h]

/-- A copy within both ranges. -/
theorem memcpy_eq_blit (hsrc : src.length = n) (hfit : offset + n ≤ dst.length) :
    memcpy dst offset src n = some (blit dst offset src) := by
  rw [memcpy, if_pos ⟨hsrc.ge, hfit⟩, List.take_of_length_le hsrc.le]

/-- A copy leaves a buffer of the same length. -/
theorem length_memcpy {buf : List α} (h : memcpy dst offset src n = some buf) :
    buf.length = dst.length := by
  unfold memcpy at h
  split at h
  next hfit =>
    cases h
    refine length_blit ?_
    rw [List.length_take]
    omega
  next => cases h

/-- More of the source than is needed does not matter. -/
theorem memcpy_take (h : n ≤ src.length) :
    memcpy dst offset src n = memcpy dst offset (src.take n) n := by
  unfold memcpy
  rw [List.length_take, Nat.min_eq_left h, List.take_take, Nat.min_self]
  simp only [h, Nat.le_refl]

/-! ## Rows -/

/-- Rows `0, …, n - 1` copied to consecutive places of the given width. -/
def blitRows (width : ℕ) (rows : ℕ → List α) : ℕ → List α → List α
  | 0, dst => dst
  | n + 1, dst => blit (blitRows width rows n dst) (n * width) (rows n)

variable {width : ℕ} {rows : ℕ → List α}

theorem length_blitRows (hrows : ∀ p, (rows p).length = width) (hfit : n * width ≤ dst.length) :
    (blitRows width rows n dst).length = dst.length := by
  induction n with
  | zero => rfl
  | succ n ih =>
    rw [Nat.succ_mul] at hfit
    rw [blitRows, length_blit, ih (by omega)]
    rw [ih (by omega), hrows]
    exact hfit

/-- Each row can be read back from its place. -/
theorem getElem?_blitRows (hrows : ∀ p, (rows p).length = width) (hfit : n * width ≤ dst.length)
    {p j : ℕ} (hp : p < n) (hj : j < width) :
    (blitRows width rows n dst)[p * width + j]? = (rows p)[j]? := by
  induction n with
  | zero => omega
  | succ n ih =>
    rw [Nat.succ_mul] at hfit
    have hlen : (blitRows width rows n dst).length = dst.length :=
      length_blitRows hrows (by omega)
    have hfit' : n * width + (rows n).length ≤ (blitRows width rows n dst).length := by
      rw [hlen, hrows]
      exact hfit
    rw [blitRows]
    by_cases hpn : p = n
    · -- the row just written
      subst hpn
      rw [getElem?_blit_of_mem hfit' (by omega) (by rw [hrows]; omega)]
      congr 1
      omega
    · -- a row before it
      have hlt : (p + 1) * width ≤ n * width := Nat.mul_le_mul_right _ (by omega)
      rw [Nat.succ_mul] at hlt
      rw [getElem?_blit_of_notMem hfit' (by omega), ih (by omega) (by omega)]

/-- The rows with the given numbers, copied to their places one after the other. -/
def writeRows (width : ℕ) (rows : ℕ → List α) (is : List ℕ) (dst : List α) : List α :=
  is.foldl (fun dst i => blit dst (i * width) (rows i)) dst

variable {is : List ℕ}

/-- The place of a row. -/
theorem row_le (width : ℕ) {p n : ℕ} (hp : p < n) : p * width + width ≤ n * width := by
  rw [← Nat.succ_mul]
  exact Nat.mul_le_mul_right _ hp

theorem length_writeRows (hrows : ∀ p, (rows p).length = width) (his : ∀ i ∈ is, i < n)
    (hfit : n * width ≤ dst.length) : (writeRows width rows is dst).length = dst.length := by
  induction is generalizing dst with
  | nil => rfl
  | cons i is ih =>
    have hi := row_le width (his i List.mem_cons_self)
    have hlength : (blit dst (i * width) (rows i)).length = dst.length :=
      length_blit (by rw [hrows]; omega)
    have hfit' : n * width ≤ (blit dst (i * width) (rows i)).length := hlength ▸ hfit
    exact (ih (fun j hj => his j (List.mem_cons_of_mem _ hj)) hfit').trans hlength

/-- A row that was written can be read from its place, another place is as before. -/
theorem getElem?_writeRows (hrows : ∀ p, (rows p).length = width) (his : ∀ i ∈ is, i < n)
    (hfit : n * width ≤ dst.length) {p j : ℕ} (hj : j < width) :
    (writeRows width rows is dst)[p * width + j]? =
      if p ∈ is then (rows p)[j]? else dst[p * width + j]? := by
  induction is generalizing dst with
  | nil => rw [if_neg List.not_mem_nil]; rfl
  | cons i is ih =>
    have hi := row_le width (his i List.mem_cons_self)
    have hblit : i * width + (rows i).length ≤ dst.length := by
      rw [hrows]
      omega
    have hfit' : n * width ≤ (blit dst (i * width) (rows i)).length := length_blit hblit ▸ hfit
    have hrest := ih (fun j hj => his j (List.mem_cons_of_mem _ hj)) hfit'
    change (writeRows width rows is (blit dst (i * width) (rows i)))[p * width + j]? = _
    rw [hrest]
    by_cases hp : p ∈ is
    · rw [if_pos hp, if_pos (List.mem_cons_of_mem _ hp)]
    · rw [if_neg hp]
      by_cases hpi : p = i
      · -- the row just written, and not written again
        subst hpi
        rw [if_pos List.mem_cons_self, getElem?_blit_of_mem hblit (by omega) (by rw [hrows]; omega)]
        congr 1
        omega
      · rw [if_neg (by simp [hpi, hp])]
        refine getElem?_blit_of_notMem hblit ?_
        rw [hrows]
        -- a row before or behind the one just written
        rcases Nat.lt_or_gt_of_ne hpi with hlt | hgt
        · have := Nat.mul_le_mul_right width (show p + 1 ≤ i from hlt)
          rw [Nat.succ_mul] at this
          omega
        · have := Nat.mul_le_mul_right width (show i + 1 ≤ p from hgt)
          rw [Nat.succ_mul] at this
          omega

/-- Rows that lie in the buffer may be written in any order and any number of times. -/
theorem writeRows_congr {is' : List ℕ} (hrows : ∀ p, (rows p).length = width) (hwidth : 0 < width)
    (his : ∀ i ∈ is, i < n) (hfit : n * width ≤ dst.length) (hmem : ∀ i, i ∈ is ↔ i ∈ is') :
    writeRows width rows is dst = writeRows width rows is' dst := by
  have his' : ∀ i ∈ is', i < n := fun i hi => his i ((hmem i).mpr hi)
  apply List.ext_getElem?
  intro k
  have hj : k % width < width := Nat.mod_lt _ hwidth
  rw [← Nat.div_add_mod' k width, getElem?_writeRows hrows his hfit hj,
    getElem?_writeRows hrows his' hfit hj]
  simp only [hmem]

/-- A row of a concatenation of rows of one width. -/
theorem getElem?_flatMap_range (hrows : ∀ p, (rows p).length = width) {p j : ℕ} (hp : p < n)
    (hj : j < width) : ((List.range n).flatMap rows)[p * width + j]? = (rows p)[j]? := by
  induction n with
  | zero => omega
  | succ n ih =>
    have hlength : ((List.range n).flatMap rows).length = n * width := by
      simp [List.length_flatMap, hrows]
    rw [List.range_succ, List.flatMap_append, List.flatMap_singleton]
    by_cases hpn : p = n
    · subst hpn
      rw [List.getElem?_append_right (by omega), hlength]
      congr 1
      omega
    · have := row_le width (show p < n by omega)
      rw [List.getElem?_append_left (by omega), ih (by omega)]

/-- **Order of writes.** Writing every row of a buffer leaves the rows, whatever the order and
however often one is written. -/
theorem writeRows_eq_flatMap (hrows : ∀ p, (rows p).length = width) (his : ∀ i, i ∈ is ↔ i < n)
    (hlength : dst.length = n * width) :
    writeRows width rows is dst = (List.range n).flatMap rows := by
  have hbound : ∀ i ∈ is, i < n := fun i hi => (his i).mp hi
  have hflat : ((List.range n).flatMap rows).length = n * width := by
    simp [List.length_flatMap, hrows]
  have hwritten := length_writeRows hrows hbound hlength.ge
  apply List.ext_getElem?
  intro k
  rcases Nat.lt_or_ge k (n * width) with hk | hk
  · -- the index as a row and a place in it
    have hwidth : 0 < width := Nat.pos_of_mul_pos_left (Nat.lt_of_le_of_lt (Nat.zero_le k) hk)
    have hp : k / width < n := Nat.div_lt_of_lt_mul (Nat.mul_comm n width ▸ hk)
    have hj : k % width < width := Nat.mod_lt _ hwidth
    have hk' : k / width * width + k % width = k := Nat.div_add_mod' k width
    rw [← hk', getElem?_writeRows hrows hbound hlength.ge hj, if_pos ((his _).mpr hp),
      getElem?_flatMap_range hrows hp hj]
  · rw [List.getElem?_eq_none (by omega), List.getElem?_eq_none (by omega)]

end Buffer
