import HeteroAccel.HydroXL.Sampler
import HeteroAccel.Lib.CumulativeWalk
import Mathlib.Algebra.Order.Field.Basic
import Mathlib.Tactic.Linarith
import Mathlib.Tactic.Positivity

/-!
# The tokens that the sampler can return

In exact arithmetic, which of the candidates that top-k and top-p keep some state of the generator
makes `sample` return. The generator is a bijection of its states (`exists_rngState`), but
`nextRandom` shifts its state by 33, not by 32, so that its numbers stop short of one half: a
candidate whose weight is at least 2^-16 of the total is returned from some state exactly when the
candidates before it have less than (2^31 - 1) / (2^32 - 1) of the total (`returns_iff`).
-/

namespace HeteroAccel.HydroXLSampler

open CumulativeWalk (walk total)

variable {α δ : Type}

/-! ## The candidates -/

section Candidates

variable (ops : TensorOps α δ)

/-- The candidates that `sample` keeps, in descending order, with their weights. -/
def kept (params : SamplerParams α) (logits : List α) (vocabSize : UInt32)
    (pastTokens : List TokenID) : List (α × UInt32) :=
  let scores := penalize ops params.repeatPenalty pastTokens (logits.take vocabSize.toNat)
  let probs := probabilities ops params.temperature scores
  let indices := partialSort ops (topKCount params.topK vocabSize) probs
  if ops.lt params.topP ops.one then nucleus ops params.topP ops.zero indices else indices

/-- The end of `sample`: the candidate that a random number chooses. -/
def choose (random : α) (indices : List (α × UInt32)) : TokenID :=
  match pick ops (ops.mul random (ops.sum (indices.map (·.1)))) ops.zero indices, indices with
  | some idx, _ => idx.toInt32
  | none, e :: _ => e.2.toInt32
  | none, [] => tokenInvalid

variable {ops}

/-- A sample at a positive temperature is a choice among the kept candidates by one random
number. -/
theorem sample_eq_choose {s : HydroXLSampler α} {logits : List α} {vocabSize : UInt32}
    {pastTokens : List TokenID} (hsize : vocabSize ≠ 0)
    (htemperature : ¬ops.le s.params.temperature ops.zero) :
    (s.sample ops logits vocabSize pastTokens).1 =
      choose ops (s.nextRandom ops).1 (kept ops s.params logits vocabSize pastTokens) := by
  unfold sample choose kept
  rw [if_neg hsize, if_neg htemperature]
  dsimp only
  generalize (if ops.lt s.params.topP ops.one then _ else _) = indices
  cases pick ops (ops.mul (nextRandom ops s).1 (ops.sum (indices.map (·.1)))) ops.zero indices with
  | some idx => rfl
  | none => cases indices <;> rfl

/-! ### The candidates are told apart -/

@[simp]
theorem length_penalizeToken (penalty : α) (scores : List α) (t : TokenID) :
    (penalizeToken ops penalty scores t).length = scores.length := by
  unfold penalizeToken
  split <;> simp

/-- Penalties keep the number of scores. -/
@[simp]
theorem length_penalize (penalty : α) (pastTokens : List TokenID) (scores : List α) :
    (penalize ops penalty pastTokens scores).length = scores.length := by
  have hfold : (pastTokens.foldl (penalizeToken ops penalty) scores).length = scores.length := by
    induction pastTokens generalizing scores with
    | nil => rfl
    | cons t pastTokens ih => rw [List.foldl_cons, ih, length_penalizeToken]
  unfold penalize
  split
  · exact hfold
  · rfl

/-- There are as many probabilities as scores. -/
@[simp]
theorem length_probabilities (temperature : α) (scores : List α) :
    (probabilities ops temperature scores).length = scores.length := by
  unfold probabilities
  cases scores <;> simp

/-- The candidates are different tokens. -/
theorem nodup_partialSort {k : Int32} {scores : List α} (hsize : scores.length ≤ 2 ^ 32) :
    ((partialSort ops k scores).map (·.2)).Nodup := by
  have hindices : ((scores.zipIdx.map fun e => (e.1, UInt32.ofNat e.2)).map (·.2)).Nodup := by
    have hids : (scores.zipIdx.map fun e => (e.1, UInt32.ofNat e.2)).map (·.2) =
        (List.range' 0 scores.length).map UInt32.ofNat := by
      rw [← List.zipIdx_map_snd, List.map_map, List.map_map]
      rfl
    rw [hids]
    refine List.Nodup.map_on (fun i hi j hj heq => ?_) List.nodup_range'
    rw [List.mem_range'_1] at hi hj
    have hnat := congrArg UInt32.toNat heq
    rwa [UInt32.toNat_ofNat', UInt32.toNat_ofNat', Nat.mod_eq_of_lt (by omega),
      Nat.mod_eq_of_lt (by omega)] at hnat
  -- sorting and cutting off move no index twice
  have hsorted := ((List.mergeSort_perm (ops.ties.visit
    (scores.zipIdx.map fun e => (e.1, UInt32.ofNat e.2))) fun a b => !ops.lt a.1 b.1).trans
      (ops.ties.perm _)).map (·.2)
  exact ((List.take_sublist _ _).map _).nodup (hsorted.nodup_iff.mpr hindices)

/-- There are at most as many candidates as scores. -/
theorem length_partialSort_le (k : Int32) (scores : List α) :
    (partialSort ops k scores).length ≤ scores.length := by
  have hvisit := (ops.ties.perm (scores.zipIdx.map fun e => (e.1, UInt32.ofNat e.2))).length_eq
  simp only [List.length_map, List.length_zipIdx] at hvisit
  simp [partialSort, hvisit]

/-- The nucleus is a part of the candidates. -/
theorem nucleus_sublist (topP cumsum : α) (candidates : List (α × UInt32)) :
    (nucleus ops topP cumsum candidates).Sublist candidates := by
  induction candidates generalizing cumsum with
  | nil => exact .slnil
  | cons e candidates ih =>
    rw [nucleus]
    refine .cons_cons e ?_
    split
    · exact List.nil_sublist _
    · exact ih _

/-- At most as many candidates are kept as there are tokens. -/
theorem length_kept_le (params : SamplerParams α) (logits : List α) (vocabSize : UInt32)
    (pastTokens : List TokenID) :
    (kept ops params logits vocabSize pastTokens).length ≤ vocabSize.toNat := by
  have hsorted : ∀ k, (partialSort ops k (probabilities ops params.temperature
      (penalize ops params.repeatPenalty pastTokens (logits.take vocabSize.toNat)))).length ≤
        vocabSize.toNat := by
    intro k
    refine (length_partialSort_le ..).trans ?_
    simp
  unfold kept
  dsimp only
  split
  · exact (nucleus_sublist _ _ _).length_le.trans (hsorted _)
  · exact hsorted _

/-- The kept candidates are different tokens. -/
theorem nodup_kept (params : SamplerParams α) (logits : List α) (vocabSize : UInt32)
    (pastTokens : List TokenID) :
    ((kept ops params logits vocabSize pastTokens).map (·.2)).Nodup := by
  have hsize : (probabilities ops params.temperature (penalize ops params.repeatPenalty pastTokens
      (logits.take vocabSize.toNat))).length ≤ 2 ^ 32 := by
    have := vocabSize.toNat_lt
    simp
    omega
  unfold kept
  dsimp only
  split
  · exact ((nucleus_sublist _ _ _).map _).nodup (nodup_partialSort hsize)
  · exact nodup_partialSort hsize

end Candidates

/-! ## The generator -/

/-- The multiplier of the generator has an inverse. -/
theorem multiplier_inverse (x : UInt64) : 13877824140714322085 * x * 6364136223846793005 = x := by
  have hinverse : (13877824140714322085 : UInt64) * 6364136223846793005 = 1 := by decide +kernel
  calc
    13877824140714322085 * x * 6364136223846793005
        = (13877824140714322085 : UInt64) * 6364136223846793005 * x := by grind
    _ = x := by rw [hinverse, UInt64.one_mul]

/-- The most that is left of a state that is shifted by 33. -/
def maxBits : ℕ := 2 ^ 31 - 1

/-- The bits that `nextRandom` takes of a state. -/
theorem toNat_bits (rngState : UInt64) :
    (rngState >>> 33).toUInt32.toNat = rngState.toNat / 2 ^ 33 := by
  have hlt := rngState.toNat_lt
  rw [UInt64.toNat_toUInt32, UInt64.toNat_shiftRight, Nat.shiftRight_eq_div_pow]
  change rngState.toNat / 2 ^ 33 % 2 ^ 32 = rngState.toNat / 2 ^ 33
  exact Nat.mod_eq_of_lt (by omega)

theorem bits_le_maxBits (rngState : UInt64) : (rngState >>> 33).toUInt32.toNat ≤ maxBits := by
  have hlt := rngState.toNat_lt
  rw [toNat_bits]
  unfold maxBits
  omega

/-- Some state gives any of the numbers up to `maxBits`. -/
theorem exists_rngState {n : ℕ} (hn : n ≤ maxBits) : ∃ rngState : UInt64,
    ((rngState * 6364136223846793005 + 1442695040888963407) >>> 33).toUInt32.toNat = n := by
  refine ⟨13877824140714322085 * (UInt64.ofNat (n * 2 ^ 33) - 1442695040888963407), ?_⟩
  rw [multiplier_inverse]
  have hstate : UInt64.ofNat (n * 2 ^ 33) - 1442695040888963407 + 1442695040888963407 =
      UInt64.ofNat (n * 2 ^ 33) := by grind
  unfold maxBits at hn
  rw [hstate, toNat_bits, UInt64.toNat_ofNat', Nat.mod_eq_of_lt (by omega)]
  exact Nat.mul_div_cancel _ (Nat.two_pow_pos 33)

/-! ## Exact arithmetic -/

section Exact

variable [Field α] [LinearOrder α] {ops : TensorOps α δ}

theorem zero_eq (hops : ops.IsExact) : ops.zero = 0 := by
  simp [TensorOps.zero, hops.lit]

theorem sum_eq (hops : ops.IsExact) (l : List α) : ops.sum l = l.sum := by
  have hfold : ∀ x, l.foldl ops.add x = x + l.sum := by
    induction l with
    | nil => simp
    | cons y l ih => intro x; rw [List.foldl_cons, ih, hops.add, List.sum_cons, add_assoc]
  rw [TensorOps.sum, hfold, zero_eq hops, zero_add]

/-- With exact arithmetic the choice is the cumulative walk of the library. -/
theorem pick_eq_walk (hops : ops.IsExact) (r running : α) (l : List (α × UInt32)) :
    pick ops r running l = walk r running l := by
  induction l generalizing running with
  | nil => rfl
  | cons e l ih => simp only [pick, walk, hops.le, hops.add, decide_eq_true_eq, ih]

/-- The random number of a state. -/
theorem nextRandom_eq (hops : ops.IsExact) (s : HydroXLSampler α) :
    (s.nextRandom ops).1 =
      ((s.rngState * 6364136223846793005 + 1442695040888963407) >>> 33).toUInt32.toNat /
        (2 ^ 32 - 1 : α) := by
  have hmax : ((-1 : UInt32).toNat : α) = 2 ^ 32 - 1 := by
    have hnat : (-1 : UInt32).toNat = 2 ^ 32 - 1 := rfl
    rw [hnat]
    norm_num
  simp only [nextRandom, hops.div, hops.ofUInt32, hmax]

variable [IsStrictOrderedRing α]

/-- The candidate that a random number chooses. -/
theorem choose_eq_iff (hops : ops.IsExact) {before behind : List (α × UInt32)} {e : α × UInt32}
    {random : α} (hnodup : ((before ++ e :: behind).map (·.2)).Nodup)
    (hpos : ∀ c ∈ before ++ e :: behind, 0 < c.1) (hrandom : random ≤ 1) :
    choose ops random (before ++ e :: behind) = e.2.toInt32 ↔
      (before = [] ∨ total before < random * total (before ++ e :: behind)) ∧
        random * total (before ++ e :: behind) ≤ total before + e.1 := by
  set candidates := before ++ e :: behind with hcandidates
  have hbefore : ∀ c ∈ before, 0 ≤ c.1 := fun c hc =>
    (hpos c (List.mem_append_left _ hc)).le
  have hne : candidates ≠ [] := by simp [hcandidates]
  have htotal : 0 ≤ total candidates := CumulativeWalk.total_nonneg fun c hc => (hpos c hc).le
  -- the threshold is not behind the whole sum, so that the walk stops
  have hstop : random * total candidates ≤ 0 + total candidates := by
    rw [zero_add]
    exact mul_le_of_le_one_left htotal hrandom
  obtain ⟨c, hc, hwalk⟩ : ∃ c ∈ candidates,
      walk (random * total candidates) 0 (candidates ++ []) = some c.2 :=
    CumulativeWalk.walk_append_of_le hne hstop
  rw [List.append_nil] at hwalk
  have hchoose : choose ops random candidates = c.2.toInt32 := by
    unfold choose
    rw [hops.mul, sum_eq hops, zero_eq hops, pick_eq_walk hops]
    change (match walk (random * total candidates) 0 candidates, candidates with
      | some idx, _ => idx.toInt32
      | none, e :: _ => e.2.toInt32
      | none, [] => tokenInvalid) = _
    rw [hwalk]
  have hiff : walk (random * total candidates) 0 candidates = some e.2 ↔
      (before = [] ∨ 0 + total before < random * total candidates) ∧
        random * total candidates ≤ 0 + total before + e.1 :=
    CumulativeWalk.walk_eq_some_iff hbefore hnodup
  have hid : c.2.toInt32 = e.2.toInt32 ↔ some c.2 = some e.2 :=
    ⟨fun h => congrArg some (congrArg Int32.toUInt32 h), fun h => by rw [Option.some.inj h]⟩
  rw [hchoose, hid, ← hwalk, hiff, zero_add]

/-- Some state makes the generator choose a candidate that is heavy enough exactly when those before
it leave it a number below one half. -/
theorem exists_choose_iff (hops : ops.IsExact) {before behind : List (α × UInt32)}
    {e : α × UInt32} (hnodup : ((before ++ e :: behind).map (·.2)).Nodup)
    (hpos : ∀ c ∈ before ++ e :: behind, 0 < c.1)
    (hweight : total (before ++ e :: behind) / 2 ^ 16 ≤ e.1) :
    (∃ n ≤ maxBits, choose ops (n / (2 ^ 32 - 1)) (before ++ e :: behind) = e.2.toInt32) ↔
      total before < (2 ^ 31 - 1) / (2 ^ 32 - 1) * total (before ++ e :: behind) := by
  set candidates := before ++ e :: behind with hcandidates
  have hmax : (maxBits : α) = 2 ^ 31 - 1 := by
    norm_num [maxBits]
  have hscale : (0 : α) < 2 ^ 32 - 1 := by norm_num
  have hbefore : 0 ≤ total before := CumulativeWalk.total_nonneg fun c hc =>
    (hpos c (List.mem_append_left _ hc)).le
  have hbehind : 0 ≤ total behind := CumulativeWalk.total_nonneg fun c hc =>
    (hpos c (List.mem_append_right _ (List.mem_cons_of_mem _ hc))).le
  have hcandidate : 0 < e.1 := hpos e (List.mem_append_right _ List.mem_cons_self)
  have htotal : 0 < total candidates := by
    rw [hcandidates, CumulativeWalk.total_append, CumulativeWalk.total_cons]
    linarith
  have hchoose : ∀ n ≤ maxBits, choose ops ((n : α) / (2 ^ 32 - 1)) candidates = e.2.toInt32 ↔
      (before = [] ∨ total before < n / (2 ^ 32 - 1) * total candidates) ∧
        n / (2 ^ 32 - 1) * total candidates ≤ total before + e.1 := by
    intro n hn
    refine choose_eq_iff hops hnodup hpos ?_
    have hle : (n : α) ≤ maxBits := Nat.cast_le.mpr hn
    rw [div_le_one hscale]
    linarith
  constructor
  · rintro ⟨n, hn, hresult⟩
    obtain ⟨hstart, -⟩ := (hchoose n hn).mp hresult
    obtain rfl | hlt := hstart
    · rw [CumulativeWalk.total_nil]
      positivity
    · refine hlt.trans_le ?_
      gcongr
      rw [← hmax]
      exact Nat.cast_le.mpr hn
  · intro hlt
    -- the least number that is behind the candidates before this one
    have hexists : ∃ n : ℕ, total before < n / (2 ^ 32 - 1) * total candidates :=
      ⟨maxBits, by rwa [hmax]⟩
    classical
    set n := Nat.find hexists with hn
    have hbehindBefore : total before < n / (2 ^ 32 - 1) * total candidates := Nat.find_spec hexists
    have hle : n ≤ maxBits := Nat.find_min' hexists (by rwa [hmax])
    refine ⟨n, hle, (hchoose n hle).mpr ⟨.inr hbehindBefore, ?_⟩⟩
    have hnpos : n ≠ 0 := by
      intro hzero
      rw [hzero] at hbehindBefore
      simp at hbehindBefore
      exact absurd hbehindBefore (not_lt.mpr hbefore)
    obtain ⟨m, hm⟩ := Nat.exists_eq_succ_of_ne_zero hnpos
    have hprevious : (m : α) / (2 ^ 32 - 1) * total candidates ≤ total before :=
      not_lt.mp (Nat.find_min hexists (by omega))
    have hstep : total candidates / (2 ^ 32 - 1) ≤ total candidates / 2 ^ 16 := by
      gcongr
      norm_num
    have hsucc : (n : α) / (2 ^ 32 - 1) * total candidates =
        m / (2 ^ 32 - 1) * total candidates + total candidates / (2 ^ 32 - 1) := by
      rw [hm, Nat.cast_succ]
      ring
    rw [hsucc]
    linarith

/-- Some state of the generator makes `sample` return the candidate. -/
def Returns (ops : TensorOps α δ) (params : SamplerParams α) (logits : List α)
    (vocabSize : UInt32) (pastTokens : List TokenID) (e : α × UInt32) : Prop :=
  ∃ rngState, ((⟨params, rngState⟩ : HydroXLSampler α).sample ops logits vocabSize pastTokens).1 =
    e.2.toInt32

/-- **Reachable candidates.** A kept candidate with 2^-16 of the total weight is returned from some
state exactly when those before it have less than (2^31 - 1) / (2^32 - 1) of the total. -/
theorem returns_iff (hops : ops.IsExact) {params : SamplerParams α} {logits : List α}
    {vocabSize : UInt32} {pastTokens : List TokenID} (htemperature : 0 < params.temperature)
    {before behind : List (α × UInt32)} {e : α × UInt32}
    (hkept : kept ops params logits vocabSize pastTokens = before ++ e :: behind)
    (hpos : ∀ c ∈ before ++ e :: behind, 0 < c.1)
    (hweight : total (before ++ e :: behind) / 2 ^ 16 ≤ e.1) :
    Returns ops params logits vocabSize pastTokens e ↔
      total before < (2 ^ 31 - 1) / (2 ^ 32 - 1) * total (before ++ e :: behind) := by
  have hnodup : ((before ++ e :: behind).map (·.2)).Nodup :=
    hkept ▸ nodup_kept params logits vocabSize pastTokens
  have hsize : vocabSize ≠ 0 := by
    rintro rfl
    -- without a vocabulary no candidate is kept
    have hnone : (kept ops params logits 0 pastTokens).length ≤ 0 := length_kept_le ..
    rw [hkept] at hnone
    simp at hnone
  have hsample : ∀ rngState : UInt64,
      ((⟨params, rngState⟩ : HydroXLSampler α).sample ops logits vocabSize pastTokens).1 =
        choose ops (((rngState * 6364136223846793005 + 1442695040888963407) >>> 33).toUInt32.toNat /
          (2 ^ 32 - 1)) (before ++ e :: behind) := by
    intro rngState
    have hnotGreedy : ¬ops.le params.temperature ops.zero := by
      rw [hops.le, zero_eq hops]
      simpa using htemperature
    rw [sample_eq_choose hsize hnotGreedy, nextRandom_eq hops, hkept]
  rw [← exists_choose_iff hops hnodup hpos hweight]
  constructor
  · rintro ⟨rngState, hreturn⟩
    exact ⟨_, bits_le_maxBits _, (hsample rngState).symm.trans hreturn⟩
  · rintro ⟨n, hn, hchoose⟩
    obtain ⟨rngState, hstate⟩ := exists_rngState hn
    exact ⟨rngState, by rw [hsample, hstate, hchoose]⟩

end Exact

/-! ### Two equal candidates -/

/-- Parameters under which no step of the sampler removes or favours a token. -/
def evenParams : SamplerParams ℚ where
  temperature := 1
  topK := 0
  topP := 1
  repeatPenalty := 1
  seed := 0

/-- Of two equal logits both are kept, with one half each. -/
theorem kept_even : kept rationalOps evenParams [0, 0] 2 [] = [(1 / 2, 0), (1 / 2, 1)] := by
  have hindices : rationalOps.ties.visit (([1 / 2, 1 / 2] : List ℚ).zipIdx.map fun e =>
      (e.1, UInt32.ofNat e.2)) = [(1 / 2, 0), (1 / 2, 1)] := rfl
  have hsorted : partialSort rationalOps 2 [1 / 2, 1 / 2] = [(1 / 2, 0), (1 / 2, 1)] := by
    unfold partialSort
    dsimp only
    rw [hindices, List.mergeSort_of_pairwise (by decide +kernel)]
    rfl
  have hprobs : probabilities rationalOps 1 (penalize rationalOps 1 [] ([0, 0].take 2)) =
      [1 / 2, 1 / 2] := by decide +kernel
  have hkept : kept rationalOps evenParams [0, 0] 2 [] = partialSort rationalOps 2
      (probabilities rationalOps 1 (penalize rationalOps 1 [] ([0, 0].take 2))) := by
    have hall : ¬rationalOps.lt evenParams.topP rationalOps.one := by decide +kernel
    unfold kept
    rw [if_neg hall]
    rfl
  rw [hkept, hprobs, hsorted]

/-- The first of two equal candidates is returned from some state. -/
theorem returns_iff_even : Returns rationalOps evenParams [0, 0] 2 [] (1 / 2, 0) := by
  have hpos : ∀ c ∈ [] ++ (1 / 2, 0) :: [((1 / 2 : ℚ), (1 : UInt32))], 0 < c.1 := by simp
  refine (returns_iff isExact_rationalOps ?_ kept_even hpos ?_).mpr ?_
  · decide +kernel
  · norm_num [total]
  · norm_num [total]

theorem not_returns : ¬∀ (ops : TensorOps ℚ ℚ), ops.IsExact → ∀ (params : SamplerParams ℚ)
    (logits : List ℚ) (vocabSize : UInt32) (pastTokens : List TokenID), 0 < params.temperature →
      (∀ c ∈ kept ops params logits vocabSize pastTokens, 0 < c.1) →
        ∀ e ∈ kept ops params logits vocabSize pastTokens,
          total (kept ops params logits vocabSize pastTokens) / 2 ^ 16 ≤ e.1 →
            Returns ops params logits vocabSize pastTokens e := by
  intro h
  -- the second of two equal candidates has one half of the weight before it
  have hreturns : Returns rationalOps evenParams [0, 0] 2 [] (1 / 2, 1) := by
    refine h rationalOps isExact_rationalOps evenParams [0, 0] 2 [] ?_ ?_ _ ?_ ?_
    · decide +kernel
    · simp [kept_even]
    · simp [kept_even]
    · norm_num [kept_even, total]
  obtain ⟨rngState, hreturns⟩ := hreturns
  have hsize : (2 : UInt32) ≠ 0 := by decide
  have hnotGreedy : ¬rationalOps.le evenParams.temperature rationalOps.zero := by decide +kernel
  rw [sample_eq_choose hsize hnotGreedy, nextRandom_eq isExact_rationalOps, kept_even] at hreturns
  have hnodup :
      (List.map (fun c : ℚ × UInt32 => c.2) ([(1 / 2, 0)] ++ (1 / 2, 1) :: [])).Nodup := by
    decide
  have hlt := (exists_choose_iff isExact_rationalOps hnodup (by simp) (by norm_num [total])).mp
    ⟨_, bits_le_maxBits _, hreturns⟩
  norm_num [total] at hlt

end HeteroAccel.HydroXLSampler
