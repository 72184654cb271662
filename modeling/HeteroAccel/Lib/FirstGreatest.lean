import Mathlib.Data.List.Basic

/-!
# The first of the greatest elements

A loop goes over a list with a strict comparison and replaces its element whenever the next one is
greater. The comparison is a weak order of the numbers among the elements; elements that are no
numbers compare with nothing, as the NaN of floating-point formats. `search_eq_iff` says where the
loop ends: at the first of the greatest numbers, or at a first element that is no number.

## Main definitions

* `WeakOrder`: the comparison;
* `search`: the loop;
* `Ahead`, `Leads`: an element that is not replaced by another one, and by any one.

## Main results

* `leads_search`, `Leads.unique`, `search_eq_iff`.
-/

namespace FirstGreatest

variable {α : Type*}

/-- A strict comparison that is a weak order of the numbers; anything else compares with nothing. -/
structure WeakOrder (lt : α → α → Bool) (isNumber : α → Bool) : Prop where
  irrefl : ∀ x, ¬lt x x
  trans : ∀ x y z, lt x y → lt y z → lt x z
  weak : ∀ x y z, isNumber z → lt x y → lt x z ∨ lt z y
  left : ∀ x y, lt x y → isNumber x
  right : ∀ x y, lt x y → isNumber y

/-- One round: an element with its index gives way to a greater one. -/
def consider (lt : α → α → Bool) (best e : α × ℕ) : α × ℕ := if lt best.1 e.1 then e else best

/-- The element that is left of `x₀ :: xs`, and its index. -/
def search (lt : α → α → Bool) (x₀ : α) (xs : List α) : α × ℕ :=
  (xs.zipIdx 1).foldl (consider lt) (x₀, 0)

/-- An element at the index `a` is greater than one before it, and not smaller than one behind
it. -/
def Ahead (lt : α → α → Bool) (isNumber : α → Bool) (x : α) (a : ℕ) (y : α) (i : ℕ) : Prop :=
  (i < a → isNumber y → lt y x) ∧ (a < i → ¬lt x y)

/-- The index of the first of the greatest numbers, or of a first element that is no number. -/
structure Leads (lt : α → α → Bool) (isNumber : α → Bool) (l : List α) (a : ℕ) : Prop where
  exists_getElem : ∃ x, l[a]? = some x
  first : ∀ x, l[0]? = some x → ¬isNumber x → a = 0
  ahead : ∀ x, l[a]? = some x → ∀ i y, l[i]? = some y → Ahead lt isNumber x a y i

variable {lt : α → α → Bool} {isNumber : α → Bool} {l : List α} {a b : ℕ}

/-- The element that leads is a number, unless it is the first one. -/
theorem Leads.number (hlt : WeakOrder lt isNumber) (h : Leads lt isNumber l a) {x : α}
    (hx : l[a]? = some x) (ha : 0 < a) : isNumber x := by
  obtain ⟨x₀, hx₀⟩ : ∃ x₀, l[0]? = some x₀ := by
    have hlength := (List.getElem?_eq_some_iff.mp hx).1
    exact ⟨_, List.getElem?_eq_getElem (Nat.lt_trans ha hlength)⟩
  have hnumber : isNumber x₀ := by
    by_contra hno
    exact absurd (h.first x₀ hx₀ hno) (Nat.ne_of_gt ha)
  exact hlt.right _ _ ((h.ahead x hx 0 x₀ hx₀).1 ha hnumber)

/-- Of two that lead, neither is before the other. -/
theorem Leads.not_lt (hlt : WeakOrder lt isNumber) (ha : Leads lt isNumber l a)
    (hb : Leads lt isNumber l b) : ¬a < b := by
  intro hab
  obtain ⟨x, hx⟩ := ha.exists_getElem
  obtain ⟨y, hy⟩ := hb.exists_getElem
  have hsmaller := (ha.ahead x hx b y hy).2 hab
  rcases Nat.eq_zero_or_pos a with rfl | hpos
  · by_cases hnumber : isNumber x
    · exact hsmaller ((hb.ahead y hy 0 x hx).1 hab hnumber)
    · exact absurd (hb.first x hx hnumber) (Nat.ne_of_gt hab)
  · exact hsmaller ((hb.ahead y hy a x hx).1 hab (ha.number hlt hx hpos))

/-- One element leads at most. -/
theorem Leads.unique (hlt : WeakOrder lt isNumber) (ha : Leads lt isNumber l a)
    (hb : Leads lt isNumber l b) : a = b :=
  Nat.le_antisymm (Nat.le_of_not_lt (hb.not_lt hlt ha)) (Nat.le_of_not_lt (ha.not_lt hlt hb))

/-- A single element leads. -/
theorem leads_singleton (x : α) : Leads lt isNumber [x] 0 where
  exists_getElem := ⟨x, rfl⟩
  first _ _ _ := rfl
  ahead y _ i z hz := by
    have hi := (List.getElem?_eq_some_iff.mp hz).1
    rw [List.length_singleton] at hi
    constructor <;> intro <;> omega

/-- A further element takes the lead if it is greater, and otherwise leaves it. -/
theorem Leads.append (hlt : WeakOrder lt isNumber) (h : Leads lt isNumber l a) {x : α}
    (hx : l[a]? = some x) (y : α) :
    Leads lt isNumber (l ++ [y]) (consider lt (x, a) (y, l.length)).2 ∧
      (l ++ [y])[(consider lt (x, a) (y, l.length)).2]? =
        some (consider lt (x, a) (y, l.length)).1 := by
  have hlength := (List.getElem?_eq_some_iff.mp hx).1
  have hlast : (l ++ [y])[l.length]? = some y := List.getElem?_concat_length
  have hbefore {i : ℕ} (hi : i < l.length) : (l ++ [y])[i]? = l[i]? :=
    List.getElem?_append_left hi
  -- an element of the longer list is an old one or the new one
  have hindex {i : ℕ} {z : α} (hz : (l ++ [y])[i]? = some z) :
      l[i]? = some z ∧ i < l.length ∨ i = l.length ∧ z = y := by
    have hi := (List.getElem?_eq_some_iff.mp hz).1
    rw [List.length_append, List.length_singleton] at hi
    rcases Nat.lt_or_eq_of_le (Nat.le_of_lt_succ hi) with hlt | rfl
    · exact .inl ⟨hbefore hlt ▸ hz, hlt⟩
    · exact .inr ⟨rfl, Option.some.inj (hz.symm.trans hlast)⟩
  rw [consider]
  by_cases hgreater : lt x y
  · -- the new element is greater than the leader, and so than all numbers before it
    rw [if_pos hgreater]
    refine ⟨⟨⟨y, hlast⟩, fun x₀ hx₀ hno => ?_, fun y' hy' i z hz => ?_⟩, hlast⟩
    · rw [hbefore (Nat.zero_lt_of_lt hlength)] at hx₀
      have hzero := h.first x₀ hx₀ hno
      rw [hzero, hx₀, Option.some.injEq] at hx
      exact absurd (hx ▸ hlt.left x y hgreater) hno
    · obtain rfl := Option.some.inj (hlast.symm.trans hy')
      rcases hindex hz with ⟨hz, hi⟩ | ⟨rfl, -⟩
      · refine ⟨fun _ hnumber => ?_, fun hi' => absurd hi' (Nat.lt_asymm hi)⟩
        rcases Nat.lt_trichotomy i a with hia | rfl | hia
        · exact hlt.trans _ _ _ ((h.ahead x hx i z hz).1 hia hnumber) hgreater
        · rwa [← Option.some.inj (hx.symm.trans hz)]
        · exact (hlt.weak x y z hnumber hgreater).resolve_left ((h.ahead x hx i z hz).2 hia)
      · exact ⟨fun hi => absurd hi (Nat.lt_irrefl _), fun hi => absurd hi (Nat.lt_irrefl _)⟩
  · rw [if_neg hgreater]
    have hx' : (l ++ [y])[a]? = some x := (hbefore hlength).trans hx
    refine ⟨⟨⟨x, hx'⟩, fun x₀ hx₀ => ?_, fun x' hx'' i z hz => ?_⟩, hx'⟩
    · rw [hbefore (Nat.zero_lt_of_lt hlength)] at hx₀
      exact h.first x₀ hx₀
    · obtain rfl := Option.some.inj (hx'.symm.trans hx'')
      rcases hindex hz with ⟨hz, -⟩ | ⟨rfl, rfl⟩
      · exact h.ahead x hx i z hz
      · exact ⟨fun hi => absurd hi (Nat.lt_asymm hlength), fun _ => hgreater⟩

/-- From an element that leads the loop goes on to one that leads the whole list. -/
theorem leads_foldl (hlt : WeakOrder lt isNumber) (xs : List α) {x : α}
    (h : Leads lt isNumber l a) (hx : l[a]? = some x) :
    Leads lt isNumber (l ++ xs) ((xs.zipIdx l.length).foldl (consider lt) (x, a)).2 := by
  induction xs generalizing l a x with
  | nil => rwa [List.append_nil]
  | cons y xs ih =>
    obtain ⟨hleads, hget⟩ := h.append hlt hx y
    have hrest := ih hleads hget
    rwa [List.append_assoc, List.length_append] at hrest

/-- The loop ends at an element that leads. -/
theorem leads_search (hlt : WeakOrder lt isNumber) (x₀ : α) (xs : List α) :
    Leads lt isNumber (x₀ :: xs) (search lt x₀ xs).2 :=
  leads_foldl hlt xs (leads_singleton x₀) rfl

/-- Where the loop ends. -/
theorem search_eq_iff (hlt : WeakOrder lt isNumber) {x₀ : α} {xs : List α} :
    (search lt x₀ xs).2 = a ↔ Leads lt isNumber (x₀ :: xs) a := by
  constructor
  · rintro rfl
    exact leads_search hlt x₀ xs
  · exact (leads_search hlt x₀ xs).unique hlt

end FirstGreatest
