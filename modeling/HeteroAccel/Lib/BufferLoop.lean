import HeteroAccel.Lib.Buffer

/-!
# Loops over a buffer

A loop that goes once through a range of a buffer and writes every element of it, from its index and
its old content: `update`. An index outside the buffer, or an element that cannot be computed, makes
the loop `none`.

## Main results

* `update_eq`: the loop as one copy of the values that it computes;
* `update_eq_mapM`: a loop that fills a whole buffer and does not look at the old elements leaves
  its values, whatever they were.
-/

namespace Buffer

variable {α : Type*} {n : ℕ}

/-! ## Collecting the results of a range -/

section Collect

variable {β : Type*} {f : ℕ → Option β} {vs : List β}

/-- A loop over one index more has its round behind the others. -/
theorem mapM_succ : (List.range (n + 1)).mapM f = (do
    let vs ← (List.range n).mapM f
    let v ← f n
    some (vs ++ [v])) := by
  rw [List.range_succ, List.mapM_append]
  cases (List.range n).mapM f with
  | none => rfl
  | some vs => cases hv : f n <;> simp [hv]

/-- What is collected, one result for each index. -/
theorem forall_of_mapM (h : (List.range n).mapM f = some vs) :
    vs.length = n ∧ ∀ v ∈ vs, ∃ i, f i = some v := by
  induction n generalizing vs with
  | zero =>
    cases h
    exact ⟨rfl, fun v hv => by cases hv⟩
  | succ n ih =>
    rw [mapM_succ] at h
    simp only [Option.bind_eq_bind, Option.bind_eq_some_iff] at h
    obtain ⟨vs', hvs', v, hv, h⟩ := h
    cases h
    obtain ⟨hlength, hall⟩ := ih hvs'
    refine ⟨by rw [List.length_append, hlength, List.length_singleton], fun w hw => ?_⟩
    obtain hw | hw := List.mem_append.mp hw
    · exact hall w hw
    · rw [List.mem_singleton] at hw
      exact ⟨n, hw ▸ hv⟩

theorem length_of_mapM (h : (List.range n).mapM f = some vs) : vs.length = n :=
  (forall_of_mapM h).1

/-- Each index has its result. -/
theorem exists_of_mapM (h : (List.range n).mapM f = some vs) {i : ℕ} (hi : i < n) :
    ∃ v, f i = some v := by
  induction n generalizing vs with
  | zero => omega
  | succ n ih =>
    rw [mapM_succ] at h
    simp only [Option.bind_eq_bind, Option.bind_eq_some_iff] at h
    obtain ⟨vs', hvs', v, hv, -⟩ := h
    obtain hlt | rfl := Nat.lt_succ_iff_lt_or_eq.mp hi
    · exact ih hvs' hlt
    · exact ⟨v, hv⟩

/-- Results that are all there. -/
theorem mapM_eq_map {ι : Type*} {f : ι → Option β} {g : ι → β} {l : List ι}
    (h : ∀ i ∈ l, f i = some (g i)) : l.mapM f = some (l.map g) := by
  induction l with
  | nil => rfl
  | cons i l ih =>
    rw [List.mapM_cons, h i List.mem_cons_self, ih fun j hj => h j (List.mem_cons_of_mem _ hj)]
    rfl

end Collect

/-- Each round of a loop that ends has been made. -/
theorem exists_of_foldlM {β γ : Type*} {f : γ → β → Option γ} {l : List β} {b c : γ}
    (h : l.foldlM f b = some c) {i : β} (hi : i ∈ l) : ∃ b' c', f b' i = some c' := by
  induction l generalizing b with
  | nil => cases hi
  | cons j l ih =>
    rw [List.foldlM_cons] at h
    obtain ⟨b', hround, hrest⟩ := Option.bind_eq_some_iff.mp h
    cases hi with
    | head => exact ⟨b, b', hround⟩
    | tail _ hi => exact ih hrest hi

/-! ## The loop -/

/-- The loop that replaces the elements number `offset`, …, `offset + n - 1`. -/
def update (offset n : ℕ) (g : ℕ → α → Option α) (buf : List α) : Option (List α) :=
  (List.range n).foldlM
    (fun buf i => do
      let old ← buf[offset + i]?
      let new ← g i old
      some (buf.set (offset + i) new))
    buf

variable {offset : ℕ} {g : ℕ → α → Option α} {buf buf' : List α}

/-- The values that the loop computes. -/
def values (offset n : ℕ) (g : ℕ → α → Option α) (buf : List α) : Option (List α) :=
  (List.range n).mapM fun i => do g i (← buf[offset + i]?)

theorem update_succ : update offset (n + 1) g buf = (do
    let buf ← update offset n g buf
    let old ← buf[offset + n]?
    let new ← g n old
    some (buf.set (offset + n) new)) := by
  simp [update, List.range_succ]

theorem values_succ : values offset (n + 1) g buf = (do
    let vs ← values offset n g buf
    let old ← buf[offset + n]?
    let new ← g n old
    some (vs ++ [new])) := by
  simp only [values, mapM_succ, Option.bind_eq_bind, Option.bind_assoc]

theorem length_of_values {vs : List α} (h : values offset n g buf = some vs) : vs.length = n :=
  length_of_mapM h

/-- A copy, and one element behind it. -/
theorem set_blit {vs : List α} (hfit : offset + vs.length < buf.length) (v : α) :
    (blit buf offset vs).set (offset + vs.length) v = blit buf offset (vs ++ [v]) := by
  have hlength : (blit buf offset vs).length = buf.length := length_blit hfit.le
  have hfit' : offset + (vs ++ [v]).length ≤ buf.length := by
    rw [List.length_append, List.length_singleton]
    omega
  apply List.ext_getElem?
  intro i
  rw [List.getElem?_set]
  by_cases hi : offset + vs.length = i
  · subst hi
    rw [if_pos rfl, if_pos (by omega), getElem?_blit_of_mem hfit' (by omega) (by simp)]
    simp
  · rw [if_neg hi]
    by_cases hin : offset ≤ i ∧ i < offset + vs.length
    · rw [getElem?_blit_of_mem hfit.le hin.1 hin.2,
        getElem?_blit_of_mem hfit' hin.1 (by simp; omega), List.getElem?_append_left (by omega)]
    · rw [getElem?_blit_of_notMem hfit.le (by omega),
        getElem?_blit_of_notMem hfit' (by simp; omega)]

/-- **The loop as a copy.** An element is read before it is written and not written again, so that
the loop reads the old content throughout. -/
theorem update_eq (hfit : offset + n ≤ buf.length) :
    update offset n g buf = (values offset n g buf).map (blit buf offset) := by
  induction n with
  | zero => simp [update, values, blit]
  | succ n ih =>
    rw [update_succ, values_succ, ih (by omega)]
    cases hvs : values offset n g buf with
    | none => rfl
    | some vs =>
      have hn := length_of_values hvs
      have hread : (blit buf offset vs)[offset + n]? = buf[offset + n]? :=
        getElem?_blit_of_notMem (by omega) (.inr (by omega))
      simp only [Option.map_some, Option.bind_eq_bind, Option.bind_some, hread]
      cases buf[offset + n]? with
      | none => rfl
      | some old =>
        cases hnew : g n old with
        | none => simp [hnew]
        | some new =>
          subst hn
          have hfit' : offset + vs.length < buf.length := by omega
          simp [hnew, set_blit hfit' new]

theorem length_of_update (h : update offset n g buf = some buf') : buf'.length = buf.length := by
  induction n generalizing buf' with
  | zero =>
    cases h
    rfl
  | succ n ih =>
    rw [update_succ] at h
    simp only [Option.bind_eq_bind, Option.bind_eq_some_iff] at h
    obtain ⟨mid, hmid, old, -, new, -, h⟩ := h
    cases h
    rw [List.length_set, ih hmid]

/-- The values of a loop that does not look at the old elements. -/
theorem values_eq_mapM (f : ℕ → Option α) (hfit : offset + n ≤ buf.length) :
    values offset n (fun i _ => f i) buf = (List.range n).mapM f := by
  induction n with
  | zero => rfl
  | succ n ih =>
    have hread : buf[offset + n]? = some buf[offset + n] := List.getElem?_eq_getElem (by omega)
    rw [values_succ, ih (by omega), hread, mapM_succ]
    rfl

/-- **Overwritten buffers.** A loop that fills a whole buffer and does not look at the old elements
leaves its values, whatever they were. -/
theorem update_eq_mapM (f : ℕ → Option α) (hn : buf.length = n) :
    update 0 n (fun i _ => f i) buf = (List.range n).mapM f := by
  rw [update_eq (by omega), values_eq_mapM f (by omega)]
  cases hvs : (List.range n).mapM f with
  | none => rfl
  | some vs =>
    have hvalues : values 0 n (fun i _ => f i) buf = some vs :=
      (values_eq_mapM f (by omega)).trans hvs
    have hlength := length_of_values hvalues
    rw [Option.map_some, blit_zero_of_length_eq (hlength.trans hn.symm)]

/-! ## Loops that copy what another loop computes -/

section Folds

variable {β γ ι : Type*} {f : β → ι → Option β} {g : γ → ι → Option γ} {l : List ι} {P : β → Prop}

/-- An invariant of a loop. -/
theorem foldlM_induction (hstep : ∀ i ∈ l, ∀ b b', P b → f b i = some b' → P b') {b b' : β}
    (hb : P b) (h : l.foldlM f b = some b') : P b' := by
  induction l generalizing b with
  | nil =>
    cases h
    exact hb
  | cons i l ih =>
    rw [List.foldlM_cons] at h
    obtain ⟨mid, hmid, h⟩ := Option.bind_eq_some_iff.mp h
    exact ih (fun j hj => hstep j (List.mem_cons_of_mem _ hj))
      (hstep i List.mem_cons_self b mid hb hmid) h

/-- A loop whose variable is a function of that of another loop. -/
theorem foldlM_eq_map {φ : β → γ} (hstep : ∀ i ∈ l, ∀ b, P b → g (φ b) i = (f b i).map φ)
    (hkeep : ∀ i ∈ l, ∀ b b', P b → f b i = some b' → P b') {b : β} (hb : P b) :
    l.foldlM g (φ b) = (l.foldlM f b).map φ := by
  induction l generalizing b with
  | nil => rfl
  | cons i l ih =>
    rw [List.foldlM_cons, List.foldlM_cons, hstep i List.mem_cons_self b hb]
    cases hmid : f b i with
    | none => rfl
    | some mid =>
      exact ih (fun j hj => hstep j (List.mem_cons_of_mem _ hj))
        (fun j hj => hkeep j (List.mem_cons_of_mem _ hj))
        (hkeep i List.mem_cons_self b mid hb hmid)

end Folds

/-- A copy over a copy of the same length. -/
theorem blit_blit {vs ws : List α} (hfit : offset + vs.length ≤ buf.length)
    (hlength : ws.length = vs.length) :
    blit (blit buf offset vs) offset ws = blit buf offset ws := by
  have htake : (buf.take offset).length = offset := List.length_take_of_le (by omega)
  have hfront : (blit buf offset vs).take offset = buf.take offset := by
    rw [blit, List.append_assoc, List.take_left' htake]
  have hback : (blit buf offset vs).drop (offset + vs.length) = buf.drop (offset + vs.length) := by
    rw [blit, List.drop_left' (by rw [List.length_append, htake])]
  rw [blit, hlength, hfront, hback]
  simp only [blit, hlength]

/-- A copy behind a copy. -/
theorem blit_append (buf vs ws : List α) :
    blit (blit buf 0 vs) vs.length ws = blit buf 0 (vs ++ ws) := by
  have hfront : (blit buf 0 vs).take vs.length = vs := by
    simp [blit]
  have hback : (blit buf 0 vs).drop (vs.length + ws.length) =
      buf.drop (vs.length + ws.length) := by
    simp [blit, List.drop_append]
  rw [blit, hfront, hback]
  simp [blit]

/-! ## Loops that are defined -/

section Defined

variable {β ι : Type*} {l : List ι} {f : ℕ → Option β}

/-- All results can be collected. -/
theorem exists_mapM (h : ∀ i < n, ∃ v, f i = some v) :
    ∃ vs, (List.range n).mapM f = some vs := by
  induction n with
  | zero => exact ⟨[], rfl⟩
  | succ n ih =>
    obtain ⟨vs, hvs⟩ := ih fun i hi => h i (by omega)
    obtain ⟨v, hv⟩ := h n (by omega)
    refine ⟨vs ++ [v], ?_⟩
    rw [mapM_succ, hvs]
    simp [hv]

/-- A loop whose rounds are defined while the invariant holds. -/
theorem exists_foldlM {f : β → ι → Option β} (P : β → Prop)
    (h : ∀ i ∈ l, ∀ b, P b → ∃ b', f b i = some b' ∧ P b') {b : β} (hb : P b) :
    ∃ b', l.foldlM f b = some b' ∧ P b' := by
  induction l generalizing b with
  | nil => exact ⟨b, rfl, hb⟩
  | cons i l ih =>
    obtain ⟨mid, hmid, hP⟩ := h i List.mem_cons_self b hb
    obtain ⟨b', hb', hP'⟩ := ih (fun j hj => h j (List.mem_cons_of_mem _ hj)) hP
    refine ⟨b', ?_, hP'⟩
    rw [List.foldlM_cons, hmid]
    exact hb'

/-- A counting loop, with an invariant of the rounds that have been made. -/
theorem exists_foldlM_range {f : β → ℕ → Option β} (P : ℕ → β → Prop)
    (h : ∀ i < n, ∀ b, P i b → ∃ b', f b i = some b' ∧ P (i + 1) b') {b : β} (hb : P 0 b) :
    ∃ b', (List.range n).foldlM f b = some b' ∧ P n b' := by
  induction n with
  | zero => exact ⟨b, rfl, hb⟩
  | succ n ih =>
    obtain ⟨mid, hmid, hP⟩ := ih fun i hi => h i (Nat.lt_succ_of_lt hi)
    obtain ⟨b', hb', hP'⟩ := h n n.lt_succ_self mid hP
    refine ⟨b', ?_, hP'⟩
    rw [List.range_succ, List.foldlM_append, hmid]
    simp [hb']

/-- A loop inside its buffer that can compute every element. -/
theorem exists_update (hfit : offset + n ≤ buf.length)
    (h : ∀ i < n, ∀ old, ∃ new, g i old = some new) :
    ∃ buf', update offset n g buf = some buf' := by
  rw [update_eq hfit]
  obtain ⟨vs, hvs⟩ : ∃ vs, values offset n g buf = some vs := by
    refine exists_mapM fun i hi => ?_
    rw [List.getElem?_eq_getElem (by omega : offset + i < buf.length)]
    exact h i hi _
  rw [hvs]
  exact ⟨_, rfl⟩

/-- A loop that cannot compute its first element. -/
theorem update_eq_none (hn : 0 < n) (h : ∀ old, g 0 old = none) : update offset n g buf = none := by
  cases hupdate : update offset n g buf with
  | none => rfl
  | some buf' =>
    obtain ⟨n, rfl⟩ := Nat.exists_eq_succ_of_ne_zero hn.ne'
    rw [update, List.range_succ_eq_map, List.foldlM_cons] at hupdate
    obtain ⟨mid, hmid, -⟩ := Option.bind_eq_some_iff.mp hupdate
    obtain ⟨old, -, hmid⟩ := Option.bind_eq_some_iff.mp hmid
    obtain ⟨new, hnew, -⟩ := Option.bind_eq_some_iff.mp hmid
    rw [h old] at hnew
    cases hnew

end Defined

end Buffer
