import HeteroAccel.HydroXL.Sampler
import HeteroAccel.Lib.FirstGreatest
import Mathlib.Data.Rat.Init
import Mathlib.Logic.Function.Iterate
import Mathlib.Order.Defs.LinearOrder

/-!
# The greedy choice

Without a temperature the sampler penalises the past tokens and takes the first of the greatest
scores. What a score becomes depends on how often its token occurs in the past and on nothing else.
So if one past is exchanged for another one, a token keeps its lead unless another one gets ahead of
it, and that can only be a token that occurs more or less often than before
(`leadsWith_iff_undisturbed`).

## Main definitions

* `TensorOps.FloatOrder`: the comparison of floats;
* `occurrences`, `penalised`: how often a token occurs, and the score it gets by it;
* `LeadsWith`: a token has the first of the greatest scores when a past is penalised;
* `Undisturbed`: what has to be looked at when one past is exchanged for another one.

## Main results

* `penalize_eq`: the penalty loop;
* `greedyToken_eq_iff`: the greedy token;
* `leadsWith_iff_undisturbed`: when a token keeps its lead.
-/

namespace HeteroAccel

open FirstGreatest (WeakOrder Ahead Leads)

variable {α δ : Type}

namespace TensorOps

/-- Floats are compared as a weak order of those that are equal to themselves. -/
def FloatOrder (ops : TensorOps α δ) : Prop := WeakOrder ops.lt fun x => ops.eq x x

/-- The loop of `std::max_element` is the search of the first of the greatest elements. -/
theorem maxElement_eq_search (ops : TensorOps α δ) (x₀ : α) (xs : List α) :
    ops.maxElement x₀ xs = FirstGreatest.search ops.lt x₀ xs :=
  rfl

end TensorOps

/-- Rational numbers are in a linear order. -/
theorem floatOrder_rationalOps : rationalOps.FloatOrder where
  irrefl x := by simp [rationalOps]
  trans x y z hxy hyz := by
    simp only [rationalOps, decide_eq_true_eq] at hxy hyz ⊢
    exact lt_trans hxy hyz
  weak x y z _ hxy := by
    simp only [rationalOps, decide_eq_true_eq] at hxy ⊢
    rcases lt_or_ge x z with hxz | hzx
    · exact .inl hxz
    · exact .inr (lt_of_le_of_lt hzx hxy)
  left x y _ := by simp [rationalOps]
  right x y _ := by simp [rationalOps]

namespace HydroXLSampler

variable (ops : TensorOps α δ)

/-! ## The penalty -/

/-- How often the token number `i` occurs. -/
def occurrences (pastTokens : List TokenID) (i : ℕ) : ℕ :=
  pastTokens.countP fun t => 0 ≤ t ∧ t.toNatClampNeg = i

/-- One penalty: a positive score is divided, another one multiplied. -/
def penaliseOnce (penalty s : α) : α :=
  if ops.lt ops.zero s then ops.div s penalty else ops.mul s penalty

/-- The score of a token that occurs `n` times. -/
def penalised (penalty : α) (n : ℕ) (s : α) : α :=
  if ops.eq penalty ops.one then s else (penaliseOnce ops penalty)^[n] s

/-- The logits that `sample` looks at. -/
def seen (logits : List α) : List α := logits.take (UInt32.ofNat logits.length).toNat

/-- The scores when a past is penalised. -/
def scoresWith (penalty : α) (pastTokens : List TokenID) (logits : List α) : List α :=
  (seen logits).mapIdx fun i s => penalised ops penalty (occurrences pastTokens i) s

variable {ops} {penalty : α} {pastTokens : List TokenID} {logits scores : List α}

/-- A token adds one to its own number of occurrences. -/
theorem occurrences_cons (t : TokenID) (pastTokens : List TokenID) (i : ℕ) :
    occurrences (t :: pastTokens) i =
      occurrences pastTokens i + if 0 ≤ t ∧ t.toNatClampNeg = i then 1 else 0 := by
  rw [occurrences, List.countP_cons]
  simp only [decide_eq_true_eq]
  rfl

/-- The score of a token after the penalty for a past token. -/
theorem getElem?_penalizeToken (scores : List α) (t : TokenID) (i : ℕ) :
    (penalizeToken ops penalty scores t)[i]? =
      scores[i]?.map (if 0 ≤ t ∧ t.toNatClampNeg = i then penaliseOnce ops penalty else id) := by
  unfold penalizeToken
  by_cases ht : 0 ≤ t
  · rw [if_pos ht, List.getElem?_modify]
    by_cases hi : t.toNatClampNeg = i
    · rw [if_pos ⟨ht, hi⟩]
      simp only [hi, if_true]
      rfl
    · rw [if_neg (mt And.right hi)]
      simp only [hi, if_false]
      rfl
  · rw [if_neg ht, if_neg (mt And.left ht), Option.map_id_apply]

/-- The score of a token after the penalties for all past tokens. -/
theorem getElem?_foldl_penalizeToken (pastTokens : List TokenID) (scores : List α) (i : ℕ) :
    (pastTokens.foldl (penalizeToken ops penalty) scores)[i]? =
      scores[i]?.map (penaliseOnce ops penalty)^[occurrences pastTokens i] := by
  induction pastTokens generalizing scores with
  | nil => exact (Option.map_id_apply).symm
  | cons t pastTokens ih =>
    rw [List.foldl_cons, ih, getElem?_penalizeToken, occurrences_cons, Option.map_map]
    split_ifs
    · rw [Function.iterate_succ]
    · rfl

/-- The repetition penalty, token by token. -/
theorem penalize_eq (penalty : α) (pastTokens : List TokenID) (scores : List α) :
    penalize ops penalty pastTokens scores =
      scores.mapIdx fun i s => penalised ops penalty (occurrences pastTokens i) s := by
  ext i : 1
  rw [penalize, List.getElem?_mapIdx]
  by_cases hone : ops.eq penalty ops.one
  · rw [if_neg (by simp [hone])]
    simp [penalised, hone]
  · by_cases hnil : pastTokens = []
    · -- nothing occurs in an empty past
      simp [penalised, hone, hnil, occurrences]
    · rw [if_pos (by simp [hone, hnil]), getElem?_foldl_penalizeToken]
      simp [penalised, hone]

/-! ## The leader -/

variable (ops) in
/-- The token number `a` has the first of the greatest scores when the past tokens are penalised. -/
def LeadsWith (penalty : α) (pastTokens : List TokenID) (logits : List α) (a : ℕ) : Prop :=
  Leads ops.lt (fun x => ops.eq x x) (scoresWith ops penalty pastTokens logits) a

theorem length_seen_lt (logits : List α) : (seen logits).length < 2 ^ 32 := by
  rw [seen, List.length_take]
  exact lt_of_le_of_lt (Nat.min_le_left _ _) (UInt32.toNat_lt _)

variable (ops penalty pastTokens logits) in
@[simp]
theorem length_scoresWith : (scoresWith ops penalty pastTokens logits).length =
    (seen logits).length :=
  List.length_mapIdx

/-- A leader is one of the logits. -/
theorem LeadsWith.lt_length {a : ℕ} (h : LeadsWith ops penalty pastTokens logits a) :
    a < (seen logits).length := by
  obtain ⟨x, hx⟩ := h.exists_getElem
  rw [← length_scoresWith ops penalty pastTokens]
  exact (List.getElem?_eq_some_iff.mp hx).1

/-- Numbers of tokens are told apart by their ids. -/
theorem ofNat_injective {a b : ℕ} (ha : a < 2 ^ 32) (hb : b < 2 ^ 32)
    (h : Int32.ofNat a = .ofNat b) : a = b := by
  have hbits := congrArg (fun x : Int32 => x.toUInt32.toNat) h
  simp only [Int32.toUInt32_ofNat', UInt32.toNat_ofNat'] at hbits
  omega

/-- A leader is not the invalid token, which no logit has the number of. -/
theorem LeadsWith.ne_invalid {a : ℕ} (h : LeadsWith ops penalty pastTokens logits a) :
    (Int32.ofNat a : TokenID) ≠ tokenInvalid := by
  intro heq
  have hlength := h.lt_length
  have hseen := length_seen_lt logits
  have hlast := ofNat_injective (b := 2 ^ 32 - 1) (by omega) (by decide) heq
  omega

/-- Without logits there is no token. -/
theorem greedyToken_of_seen_nil (h : seen logits = []) :
    greedyToken ops penalty pastTokens logits = tokenInvalid := by
  rw [greedyToken]
  split_ifs with hsize
  · rfl
  · rw [seen, List.take_eq_nil_iff] at h
    rcases h with h | h
    · exact absurd (UInt32.toNat_inj.mp h) hsize
    · rw [h] at hsize
      exact absurd rfl hsize

variable (penalty pastTokens) in
/-- With logits there is a leader, and it is chosen. -/
theorem exists_leadsWith (hops : ops.FloatOrder) (hne : seen logits ≠ []) :
    ∃ a, LeadsWith ops penalty pastTokens logits a ∧
      greedyToken ops penalty pastTokens logits = .ofNat a := by
  have hsize : UInt32.ofNat logits.length ≠ 0 := by
    intro hsize
    rw [seen, hsize] at hne
    exact hne rfl
  have hscores : penalize ops penalty pastTokens
      (logits.take (UInt32.ofNat logits.length).toNat) =
        scoresWith ops penalty pastTokens logits := penalize_eq ..
  rw [greedyToken, if_neg hsize, hscores]
  cases hlist : scoresWith ops penalty pastTokens logits with
  | nil =>
    have hlength := length_scoresWith ops penalty pastTokens logits
    rw [hlist] at hlength
    exact absurd (List.length_eq_zero_iff.mp hlength.symm) hne
  | cons x₀ xs =>
    refine ⟨(ops.maxElement x₀ xs).2, ?_, rfl⟩
    rw [LeadsWith, hlist, TensorOps.maxElement_eq_search]
    exact FirstGreatest.leads_search hops x₀ xs

/-- The leader is chosen. -/
theorem LeadsWith.greedyToken_eq (hops : ops.FloatOrder) {a : ℕ}
    (h : LeadsWith ops penalty pastTokens logits a) :
    greedyToken ops penalty pastTokens logits = .ofNat a := by
  have hne : seen logits ≠ [] := List.ne_nil_of_length_pos (Nat.zero_lt_of_lt h.lt_length)
  obtain ⟨b, hb, hchosen⟩ := exists_leadsWith penalty pastTokens hops hne
  rw [hchosen, Leads.unique hops h hb]

/-- What is chosen is the leader. -/
theorem leadsWith_of_greedyToken_eq (hops : ops.FloatOrder) {a : ℕ} (ha : a < (seen logits).length)
    (h : greedyToken ops penalty pastTokens logits = .ofNat a) :
    LeadsWith ops penalty pastTokens logits a := by
  have hne : seen logits ≠ [] := List.ne_nil_of_length_pos (Nat.zero_lt_of_lt ha)
  obtain ⟨b, hb, hchosen⟩ := exists_leadsWith penalty pastTokens hops hne
  have hlength := length_seen_lt logits
  have hab := ofNat_injective (by omega) (hb.lt_length.trans hlength) (h.symm.trans hchosen)
  rwa [hab]

/-! ## Another past -/

variable (ops) in
/-- Of the tokens that occur more or less often in the past `new` than in the past `old`, none gets
ahead of the token number `a`; if that one itself does, no token at all gets ahead of it. -/
structure Undisturbed (penalty : α) (old new : List TokenID) (logits : List α) (a : ℕ) :
    Prop where
  ahead : ∀ s, (seen logits)[a]? = some s → ∀ i s', (seen logits)[i]? = some s' →
    (occurrences old i ≠ occurrences new i ∨ occurrences old a ≠ occurrences new a) →
      Ahead ops.lt (fun x => ops.eq x x) (penalised ops penalty (occurrences new a) s) a
        (penalised ops penalty (occurrences new i) s') i
  /-- A first score that is no number becomes the leader. -/
  first : ∀ s, (seen logits)[0]? = some s → occurrences old 0 ≠ occurrences new 0 →
    ¬ops.eq (penalised ops penalty (occurrences new 0) s)
      (penalised ops penalty (occurrences new 0) s) → a = 0

/-- The score of a token. -/
theorem getElem?_scoresWith {i : ℕ} {x : α} :
    (scoresWith ops penalty pastTokens logits)[i]? = some x ↔
      ∃ s, (seen logits)[i]? = some s ∧ penalised ops penalty (occurrences pastTokens i) s = x := by
  rw [scoresWith, List.getElem?_mapIdx, Option.map_eq_some_iff]

/-- **The lead.** A token keeps its lead under another past exactly when no token gets ahead of it
that occurs more or less often there. -/
theorem leadsWith_iff_undisturbed {old new : List TokenID} {a : ℕ}
    (h : LeadsWith ops penalty old logits a) :
    LeadsWith ops penalty new logits a ↔ Undisturbed ops penalty old new logits a := by
  constructor
  · intro hnew
    refine ⟨fun s hs i s' hs' _ => ?_, fun s hs _ => ?_⟩
    · exact hnew.ahead _ (getElem?_scoresWith.mpr ⟨s, hs, rfl⟩) i _
        (getElem?_scoresWith.mpr ⟨s', hs', rfl⟩)
    · exact hnew.first _ (getElem?_scoresWith.mpr ⟨s, hs, rfl⟩)
  · intro hund
    refine ⟨?_, fun x hx hno => ?_, fun x hx i y hy => ?_⟩
    · obtain ⟨x, hx⟩ := h.exists_getElem
      obtain ⟨s, hs, -⟩ := getElem?_scoresWith.mp hx
      exact ⟨_, getElem?_scoresWith.mpr ⟨s, hs, rfl⟩⟩
    · obtain ⟨s, hs, rfl⟩ := getElem?_scoresWith.mp hx
      by_cases hcount : occurrences old 0 = occurrences new 0
      · -- the first score is what it was
        exact h.first _ (getElem?_scoresWith.mpr ⟨s, hs, hcount ▸ rfl⟩) hno
      · exact hund.first s hs hcount hno
    · obtain ⟨s, hs, rfl⟩ := getElem?_scoresWith.mp hx
      obtain ⟨s', hs', rfl⟩ := getElem?_scoresWith.mp hy
      by_cases hcount :
          occurrences old i = occurrences new i ∧ occurrences old a = occurrences new a
      · -- both scores are what they were
        rw [← hcount.1, ← hcount.2]
        exact h.ahead _ (getElem?_scoresWith.mpr ⟨s, hs, rfl⟩) i _
          (getElem?_scoresWith.mpr ⟨s', hs', rfl⟩)
      · exact hund.ahead s hs i s' hs' (not_and_or.mp hcount)

end HydroXLSampler

end HeteroAccel
