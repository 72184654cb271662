import HeteroAccel.Lib.ByteStream
import Mathlib.Data.List.Infix

/-!
# Parsers on an input stream

`Parser σ α` is a fallible program on a state `σ` that holds an `InputStream`; what it did to the
state stays when it fails. `Codes p R` describes `p` from both sides: it returns `a` exactly on the
streams that continue with some bytes that `R` relates to `a`, and moves behind these bytes.

A parser may move over bytes without looking at them. `R a bytes skipped` says that `bytes` encode
`a` and that the last `skipped` of them are not looked at, so that the stream may end before them
(`InputStream.Fits`). The rules put parsers together as the encodings are put together:
`Codes.pure`, `Codes.bind`, `Codes.readMany` and `Codes.congr`.
-/

namespace InputStream

/-- A stream without errors whose position is an offset. -/
def Ready (s : InputStream) : Prop := s.good ∧ s.pos < 2 ^ 63

/-- The stream continues with `bytes`, or ends in the last `skipped` of them. -/
def Fits (s : InputStream) (bytes : Bytes) (skipped : ℕ) : Prop :=
  bytes <+: s.rest ∨
    (s.rest <+: bytes ∧ bytes.length ≤ s.rest.length + skipped ∧ s.pos + bytes.length < 2 ^ 63)

variable {s : InputStream} {bytes bytes₁ bytes₂ : Bytes} {skipped skipped₁ skipped₂ : ℕ}

/-- Bytes behind which nothing is skipped fit if they are the next ones. -/
theorem fits_zero : s.Fits bytes 0 ↔ bytes <+: s.rest := by
  constructor
  · rintro (h | ⟨hpre, hlength, -⟩)
    · exact h
    · rw [hpre.eq_of_length_le hlength]
  · exact .inl

theorem fits_nil : s.Fits [] skipped := .inl List.nil_prefix

/-- Bytes that are there end before a position of 63 bits is full. -/
theorem pos_add_length_lt (hs : s.pos < 2 ^ 63) (h : bytes <+: s.rest) :
    s.pos + bytes.length < 2 ^ 63 := by
  have hsize := s.length_bytes_lt
  have hlength := h.length_le
  rw [rest, List.length_drop] at hlength
  omega

/-- A stream is still ready behind what fits. -/
theorem Ready.advance (hs : s.Ready) (h : s.Fits bytes skipped) :
    (s.advance bytes.length).Ready := by
  refine ⟨hs.1, ?_⟩
  rcases h with h | ⟨-, -, h⟩
  · exact pos_add_length_lt hs.2 h
  · exact h

/-- One encoding behind the other: the first must be there whole when the second is looked at. -/
theorem fits_append (hle : skipped₂ ≤ bytes₂.length)
    (hlooked : skipped₁ = 0 ∨ skipped₂ < bytes₂.length) :
    s.Fits (bytes₁ ++ bytes₂) skipped₂ ↔
      s.Fits bytes₁ skipped₁ ∧ (s.advance bytes₁.length).Fits bytes₂ skipped₂ := by
  have hpos : (s.advance bytes₁.length).pos + bytes₂.length =
      s.pos + (bytes₁ ++ bytes₂).length := by
    rw [List.length_append, ← Nat.add_assoc]
    rfl
  unfold Fits
  rw [hpos, rest_advance]
  constructor
  · rintro (⟨r, hr⟩ | ⟨hpre, hlength, hbound⟩)
    · rw [List.append_assoc] at hr
      rw [← hr, List.drop_left]
      exact ⟨.inl (List.prefix_append _ _), .inl (List.prefix_append _ _)⟩
    · rw [List.length_append] at hlength
      -- the bytes end within the second part
      have hfirst : bytes₁ <+: s.rest :=
        List.prefix_of_prefix_length_le (List.prefix_append _ _) hpre (by omega)
      obtain ⟨r, hr⟩ := hfirst
      rw [← hr] at hpre hlength ⊢
      rw [List.length_append] at hlength
      rw [List.drop_left]
      exact ⟨.inl (List.prefix_append _ _),
        .inr ⟨(List.prefix_append_right_inj _).mp hpre, by omega, hbound⟩⟩
  · rintro ⟨hfirst, hsecond⟩
    have hwhole : bytes₁ <+: s.rest := by
      rcases hfirst with h | ⟨hpre, hlength, -⟩
      · exact h
      · rcases hlooked with rfl | hlooked
        · rw [hpre.eq_of_length_le hlength]
        · -- the stream has ended, so nothing of the second is left to look at
          rw [List.drop_eq_nil_of_le hpre.length_le] at hsecond
          rcases hsecond with h | ⟨-, h, -⟩
          · rw [List.prefix_nil.mp h] at hlooked
            exact absurd hlooked (Nat.not_lt_zero _)
          · rw [List.length_nil] at h
            omega
    obtain ⟨r, hr⟩ := hwhole
    rw [← hr, List.drop_left] at hsecond
    rw [← hr]
    rcases hsecond with h | ⟨hpre, hlength, hbound⟩
    · exact .inl ((List.prefix_append_right_inj _).mpr h)
    · refine .inr ⟨(List.prefix_append_right_inj _).mpr hpre, ?_, hbound⟩
      rw [List.length_append, List.length_append]
      omega

end InputStream

/-- A state with an input stream in it. -/
class StreamState (σ : Type) where
  stream : σ → InputStream
  setStream : σ → InputStream → σ
  stream_setStream : ∀ l s, stream (setStream l s) = s
  setStream_setStream : ∀ l s s', setStream (setStream l s) s' = setStream l s'
  setStream_stream : ∀ l, setStream l (stream l) = l

/-- A fallible program; what it did to the state stays when it fails. -/
abbrev Parser (σ α : Type) := OptionT (StateM σ) α

namespace Parser

variable {σ α β : Type}

/-- The result of a program and the state it leaves. -/
def exec (p : Parser σ α) (l : σ) : Option α × σ := p.run l

theorem exec_pure (a : α) (l : σ) : exec (pure a : Parser σ α) l = (some a, l) := rfl

theorem exec_modify (f : σ → σ) (l : σ) :
    exec (modify f : Parser σ PUnit) l = (some ⟨⟩, f l) := rfl

/-- One parser behind another; a failure of the first ends both. -/
theorem exec_bind (p : Parser σ α) (f : α → Parser σ β) (l : σ) :
    exec (p >>= f) l =
      match exec p l with
      | (some a, l') => exec (f a) l'
      | (none, l') => (none, l') := by
  show (match OptionT.run p l with
    | (a, l') => (match a with
      | some a => OptionT.run (f a)
      | none => pure none : StateM σ (Option β)) l') = _
  unfold exec
  generalize OptionT.run p l = r
  obtain ⟨_ | a, l'⟩ := r <;> rfl

theorem exec_bind_eq_some {p : Parser σ α} {f : α → Parser σ β} {l l' : σ} {b : β} :
    exec (p >>= f) l = (some b, l') ↔
      ∃ a l₁, exec p l = (some a, l₁) ∧ exec (f a) l₁ = (some b, l') := by
  rw [exec_bind]
  generalize exec p l = r
  obtain ⟨a, l₁⟩ := r
  cases a with
  | none => simp
  | some a =>
    constructor
    · exact fun h => ⟨a, l₁, rfl, h⟩
    · rintro ⟨a', l₂, heq, h⟩
      obtain ⟨ha, rfl⟩ := Prod.mk.inj heq
      obtain rfl := Option.some.inj ha
      exact h

/-- `n` readings, one after the other. -/
def readMany (read : Parser σ α) : (n : ℕ) → Parser σ { elems : List α // elems.length = n }
  | 0 => return ⟨[], rfl⟩
  | n + 1 => do
    let a ← read
    let elems ← readMany read n
    return ⟨a :: elems.1, congrArg (· + 1) elems.2⟩

/-- `n` rounds of a loop. -/
def loop (round : Parser σ Unit) : (n : ℕ) → Parser σ Unit
  | 0 => return
  | n + 1 => do
    round
    loop round n

/-! ### Two runs -/

/-- From states that are alike the program has the same result and leaves states that are alike. -/
def Respects (R : σ → σ → Prop) (p : Parser σ α) : Prop :=
  ∀ l l', R l l' → (exec p l).1 = (exec p l').1 ∧ R (exec p l).2 (exec p l').2

namespace Respects

variable {R : σ → σ → Prop}

theorem pure (a : α) : Respects R (Pure.pure a : Parser σ α) := fun _ _ h => ⟨rfl, h⟩

theorem failure : Respects R (failure : Parser σ α) := fun _ _ h => ⟨rfl, h⟩

theorem modify {g : σ → σ} (h : ∀ l l', R l l' → R (g l) (g l')) :
    Respects R (modify g : Parser σ PUnit) :=
  fun l l' hl => ⟨rfl, h l l' hl⟩

/-- A program behind runs that have the same result and leave states that are alike. -/
theorem behind {p : Parser σ α} {q : α → Parser σ β} (hq : ∀ a, Respects R (q a)) {l l' : σ}
    (hresult : (exec p l).1 = (exec p l').1) (hstate : R (exec p l).2 (exec p l').2) :
    (exec (p >>= q) l).1 = (exec (p >>= q) l').1 ∧
      R (exec (p >>= q) l).2 (exec (p >>= q) l').2 := by
  rw [exec_bind, exec_bind]
  generalize exec p l = r at hresult hstate
  generalize exec p l' = r' at hresult hstate
  obtain ⟨_ | a, l₁⟩ := r <;> obtain ⟨_ | a', l₁'⟩ := r' <;> cases hresult
  · exact ⟨rfl, hstate⟩
  · exact hq a l₁ l₁' hstate

/-- Two parsers that respect a relation do so one behind the other. -/
theorem bind {p : Parser σ α} {q : α → Parser σ β} (hp : Respects R p)
    (hq : ∀ a, Respects R (q a)) : Respects R (p >>= q) := by
  intro l l' hl
  obtain ⟨hresult, hstate⟩ := hp l l' hl
  exact behind hq hresult hstate

/-- What is read of the state is alike, too. -/
theorem get {q : σ → Parser σ β} (h : ∀ l l', R l l' → q l = q l') (hq : ∀ l, Respects R (q l)) :
    Respects R (get >>= q) := by
  intro l l' hl
  change (exec (q l) l).1 = (exec (q l') l').1 ∧ R (exec (q l) l).2 (exec (q l') l').2
  rw [← h l l' hl]
  exact hq l l l' hl

/-- A parser that respects a relation does so repeatedly. -/
theorem readMany {read : Parser σ α} (h : Respects R read) (n : ℕ) :
    Respects R (readMany read n) := by
  induction n with
  | zero => exact .pure _
  | succ n ih => exact .bind h fun _ => .bind ih fun _ => .pure _

/-- A round that respects a relation does so repeatedly. -/
theorem loop {round : Parser σ Unit} (h : Respects R round) (n : ℕ) :
    Respects R (loop round n) := by
  induction n with
  | zero => exact .pure _
  | succ n ih => exact .bind h fun _ => ih

end Respects

end Parser

/-! ## Parsers and encodings -/

section Codes

open Parser

variable {σ α β : Type} [StreamState σ]

/-- The state with the stream `n` bytes further on. -/
def StreamState.advance (l : σ) (n : ℕ) : σ := setStream l ((stream l).advance n)

open StreamState

@[simp]
theorem stream_advance (l : σ) (n : ℕ) : stream (advance l n) = (stream l).advance n :=
  stream_setStream ..

@[simp]
theorem advance_zero (l : σ) : advance l 0 = l := setStream_stream l

@[simp]
theorem advance_advance (l : σ) (m n : ℕ) : advance (advance l m) n = advance l (m + n) := by
  rw [advance, stream_advance, InputStream.advance_advance, advance, advance, setStream_setStream]

/-- `p` returns `a` exactly where the stream continues with an encoding of `a`, and moves behind
it. -/
def Codes (p : Parser σ α) (R : α → Bytes → ℕ → Prop) : Prop :=
  ∀ l, (stream l).Ready → ∀ a l', exec p l = (some a, l') ↔
    ∃ bytes skipped, R a bytes skipped ∧ (stream l).Fits bytes skipped ∧
      l' = advance l bytes.length

/-- An encoding that is looked at whole. -/
def Whole (E : α → Bytes → Prop) : α → Bytes → ℕ → Prop :=
  fun a bytes skipped => E a bytes ∧ skipped = 0

/-- One encoding behind the other. -/
def Behind (E : α → Bytes → Prop) (S : α → β → Bytes → ℕ → Prop) : β → Bytes → ℕ → Prop :=
  fun b bytes skipped =>
    ∃ a bytes₁ bytes₂, E a bytes₁ ∧ S a b bytes₂ skipped ∧ bytes = bytes₁ ++ bytes₂

/-- Encodings one behind the other; only of the last one may something be missing. -/
def Each (R : α → Bytes → ℕ → Prop) : List α → Bytes → ℕ → Prop
  | [], bytes, skipped => bytes = [] ∧ skipped = 0
  | a :: as, bytes, skipped => ∃ bytes₁ skipped₁ bytes₂ skipped₂, R a bytes₁ skipped₁ ∧
      Each R as bytes₂ skipped₂ ∧ bytes = bytes₁ ++ bytes₂ ∧
      skipped = if as = [] then skipped₁ else skipped₂

/-- Encodings that are images of data: so are the encodings of a list, and what may be missing is
what may be of the last one. -/
theorem each_image_iff {D : Type} {P : D → Prop} {f : D → α} {encode : D → Bytes} {skip : D → ℕ}
    {as : List α} {bytes : Bytes} {skipped : ℕ} :
    Each (fun a bytes skipped => ∃ d, P d ∧ a = f d ∧ bytes = encode d ∧ skipped = skip d)
        as bytes skipped ↔
      ∃ ds : List D, (∀ d ∈ ds, P d) ∧ as = ds.map f ∧ bytes = ds.flatMap encode ∧
        skipped = ds.foldl (fun _ d => skip d) 0 := by
  -- the fold keeps the last element, whatever it starts with
  have hlast : ∀ (ds : List D) (n : ℕ),
      (if ds.map f = [] then n else ds.foldl (fun _ d => skip d) 0) =
        ds.foldl (fun _ d => skip d) n := by
    intro ds n
    cases ds with
    | nil => rfl
    | cons d ds =>
      rw [List.map_cons, if_neg (List.cons_ne_nil _ _), List.foldl_cons, List.foldl_cons]
  induction as generalizing bytes skipped with
  | nil =>
    rw [Each]
    constructor
    · rintro ⟨rfl, rfl⟩
      exact ⟨[], by simp, rfl, rfl, rfl⟩
    · rintro ⟨ds, -, has, rfl, rfl⟩
      obtain rfl := List.map_eq_nil_iff.mp has.symm
      exact ⟨rfl, rfl⟩
  | cons a as ih =>
    rw [Each]
    constructor
    · rintro ⟨_, _, bytes₂, skipped₂, ⟨d, hd, rfl, rfl, rfl⟩, hothers, rfl, rfl⟩
      obtain ⟨ds, hds, rfl, rfl, rfl⟩ := ih.mp hothers
      exact ⟨d :: ds, List.forall_mem_cons.mpr ⟨hd, hds⟩, rfl, rfl, hlast ds _⟩
    · rintro ⟨ds, hds, has, rfl, rfl⟩
      match ds, has with
      | d :: ds, has =>
        obtain ⟨rfl, rfl⟩ := List.cons.inj has
        obtain ⟨hd, hds⟩ := List.forall_mem_cons.mp hds
        exact ⟨_, _, _, _, ⟨d, hd, rfl, rfl, rfl⟩, ih.mpr ⟨ds, hds, rfl, rfl, rfl⟩,
          List.flatMap_cons, (hlast ds _).symm⟩

/-- Encodings that are images of data and looked at whole. -/
theorem each_whole_image_iff {D : Type} {P : D → Prop} {f : D → α} {encode : D → Bytes}
    {as : List α} {bytes : Bytes} {skipped : ℕ} :
    Each (Whole fun a bytes => ∃ d, P d ∧ a = f d ∧ bytes = encode d) as bytes skipped ↔
      ∃ ds : List D, (∀ d ∈ ds, P d) ∧ as = ds.map f ∧ bytes = ds.flatMap encode ∧
        skipped = 0 := by
  have hcoding : (Whole fun a bytes => ∃ d, P d ∧ a = f d ∧ bytes = encode d) =
      fun a bytes skipped => ∃ d, P d ∧ a = f d ∧ bytes = encode d ∧ skipped = 0 := by
    ext a bytes skipped
    constructor
    · rintro ⟨⟨d, hd, ha, hbytes⟩, hskipped⟩
      exact ⟨d, hd, ha, hbytes, hskipped⟩
    · rintro ⟨d, hd, ha, hbytes, hskipped⟩
      exact ⟨⟨d, hd, ha, hbytes⟩, hskipped⟩
  have hnone : ∀ ds : List D, ds.foldl (fun _ _ => 0) 0 = 0 := fun ds => by
    induction ds with
    | nil => rfl
    | cons d ds ih => exact ih
  rw [hcoding, each_image_iff]
  simp only [hnone]

/-- Encodings that are looked at whole. -/
theorem each_whole_iff {P : α → Prop} {encode : α → Bytes} {as : List α} {bytes : Bytes}
    {skipped : ℕ} :
    Each (Whole fun a bytes => P a ∧ bytes = encode a) as bytes skipped ↔
      (∀ a ∈ as, P a) ∧ bytes = as.flatMap encode ∧ skipped = 0 := by
  have hcoding : (Whole fun a bytes => P a ∧ bytes = encode a) =
      Whole fun a bytes => ∃ d, P d ∧ a = id d ∧ bytes = encode d := by
    ext a bytes skipped
    simp [Whole]
  rw [hcoding, each_whole_image_iff]
  simp

/-- Every encoding begins with something that is looked at. -/
def Looked (R : α → Bytes → ℕ → Prop) : Prop :=
  ∀ a bytes skipped, R a bytes skipped → skipped < bytes.length

/-- Of elements of which something is read, less is skipped than there is. -/
theorem Each.skipped_lt {R : α → Bytes → ℕ → Prop} (hR : Looked R) :
    ∀ {as : List α} {bytes : Bytes} {skipped : ℕ}, Each R as bytes skipped →
      skipped < bytes.length ∨ (as = [] ∧ bytes = [] ∧ skipped = 0)
  | [], _, _, ⟨rfl, rfl⟩ => .inr ⟨rfl, rfl, rfl⟩
  | a :: as, _, _, ⟨bytes₁, skipped₁, bytes₂, skipped₂, ha, has, rfl, rfl⟩ => by
    left
    have hfirst := hR a bytes₁ skipped₁ ha
    rw [List.length_append]
    split_ifs with hnil
    · omega
    · rcases Each.skipped_lt hR has with h | ⟨h, -⟩
      · omega
      · exact absurd h hnil

/-- The stream fits a list of encodings as it fits the first and then the others. -/
theorem fits_each_cons {R : α → Bytes → ℕ → Prop} (hR : Looked R) {s : InputStream} {as : List α}
    {bytes₁ bytes₂ : Bytes} {skipped₁ skipped₂ : ℕ} (has : Each R as bytes₂ skipped₂) :
    s.Fits (bytes₁ ++ bytes₂) (if as = [] then skipped₁ else skipped₂) ↔
      s.Fits bytes₁ skipped₁ ∧ (s.advance bytes₁.length).Fits bytes₂ skipped₂ := by
  rcases Each.skipped_lt hR has with h | ⟨rfl, rfl, rfl⟩
  · have hne : as ≠ [] := by
      rintro rfl
      rw [has.1] at h
      exact absurd h (Nat.not_lt_zero _)
    rw [if_neg hne]
    exact InputStream.fits_append h.le (.inr h)
  · rw [if_pos rfl, List.append_nil]
    exact ⟨fun h => ⟨h, InputStream.fits_nil⟩, fun h => h.1⟩

namespace Codes

variable {p : Parser σ α} {R R' : α → Bytes → ℕ → Prop} {E : α → Bytes → Prop}

/-- A description may be replaced by an equivalent one. -/
theorem congr (hp : Codes p R) (h : ∀ a bytes skipped, R a bytes skipped ↔ R' a bytes skipped) :
    Codes p R' := by
  intro l hl a l'
  rw [hp l hl a l']
  simp only [h]

/-- A program that always fails has no encodings. -/
theorem of_fails (h : ∀ l, (exec p l).1 = none) : Codes p fun _ _ _ => False := by
  intro l _ a l'
  constructor
  · intro heq
    have := h l
    rw [heq] at this
    cases this
  · rintro ⟨_, _, hR, _⟩
    exact hR.elim

theorem pure (a : α) :
    Codes (Pure.pure a : Parser σ α) (Whole fun a' bytes => a' = a ∧ bytes = []) := by
  intro l _ a' l'
  rw [exec_pure]
  constructor
  · intro h
    obtain ⟨ha, rfl⟩ := Prod.mk.inj h
    exact ⟨[], 0, ⟨⟨(Option.some.inj ha).symm, rfl⟩, rfl⟩, InputStream.fits_nil,
      (advance_zero l).symm⟩
  · rintro ⟨_, _, ⟨⟨rfl, rfl⟩, rfl⟩, _, rfl⟩
    rw [List.length_nil, advance_zero]

/-- The result of a parser may be mapped. -/
theorem map (hp : Codes p R) (f : α → β) :
    Codes (p >>= fun a => Pure.pure (f a)) fun b bytes skipped =>
      ∃ a, R a bytes skipped ∧ b = f a := by
  intro l hl b l'
  rw [exec_bind_eq_some]
  constructor
  · rintro ⟨a, l₁, hread, hpure⟩
    obtain ⟨hb, rfl⟩ := Prod.mk.inj ((exec_pure _ _).symm.trans hpure)
    obtain ⟨bytes, skipped, hR, hfits, rfl⟩ := (hp l hl a l₁).mp hread
    exact ⟨bytes, skipped, ⟨a, hR, (Option.some.inj hb).symm⟩, hfits, rfl⟩
  · rintro ⟨bytes, skipped, ⟨a, hR, rfl⟩, hfits, rfl⟩
    exact ⟨a, _, (hp l hl a _).mpr ⟨bytes, skipped, hR, hfits, rfl⟩, exec_pure _ _⟩

/-- A check in front, which reads nothing. -/
theorem check {p : Parser σ Unit} {ok : Prop} (hp : Codes p (Whole fun _ bytes => ok ∧ bytes = []))
    {q : Parser σ β} {S : β → Bytes → ℕ → Prop} (hq : ok → Codes q S) :
    Codes (p >>= fun _ => q) fun b bytes skipped => ok ∧ S b bytes skipped := by
  intro l hl b l'
  rw [exec_bind_eq_some]
  constructor
  · rintro ⟨⟨⟩, l₁, hcheck, hothers⟩
    obtain ⟨_, _, ⟨⟨hok, rfl⟩, rfl⟩, -, rfl⟩ := (hp l hl () l₁).mp hcheck
    rw [List.length_nil, advance_zero] at hothers
    obtain ⟨bytes, skipped, hS, hfits, rfl⟩ := (hq hok l hl b l').mp hothers
    exact ⟨bytes, skipped, ⟨hok, hS⟩, hfits, rfl⟩
  · rintro ⟨bytes, skipped, ⟨hok, hS⟩, hfits, rfl⟩
    refine ⟨(), l, (hp l hl () l).mpr ⟨[], 0, ⟨⟨hok, rfl⟩, rfl⟩, InputStream.fits_nil, ?_⟩,
      (hq hok l hl b _).mpr ⟨bytes, skipped, hS, hfits, rfl⟩⟩
    exact (advance_zero l).symm

/-- One parser behind another, where the first skips nothing. -/
theorem bind (hp : Codes p (Whole E)) {f : α → Parser σ β} {S : α → β → Bytes → ℕ → Prop}
    (hf : ∀ a bytes, E a bytes → Codes (f a) (S a))
    (hle : ∀ a b bytes skipped, S a b bytes skipped → skipped ≤ bytes.length) :
    Codes (p >>= f) (Behind E S) := by
  intro l hl b l'
  rw [exec_bind_eq_some]
  constructor
  · -- the two parts, one behind the other
    rintro ⟨a, l₁, hfirst, hsecond⟩
    obtain ⟨bytes₁, _, ⟨hE, rfl⟩, hfits₁, rfl⟩ := (hp l hl a l₁).mp hfirst
    have hready : (stream (advance l bytes₁.length)).Ready := by
      rw [stream_advance]
      exact hl.advance hfits₁
    obtain ⟨bytes₂, skipped, hS, hfits₂, rfl⟩ := (hf a _ hE _ hready b l').mp hsecond
    rw [stream_advance] at hfits₂
    refine ⟨bytes₁ ++ bytes₂, skipped, ⟨a, bytes₁, bytes₂, hE, hS, rfl⟩, ?_, ?_⟩
    · exact (InputStream.fits_append (hle _ _ _ _ hS) (.inl rfl)).mpr ⟨hfits₁, hfits₂⟩
    · rw [advance_advance, List.length_append]
  · rintro ⟨_, skipped, ⟨a, bytes₁, bytes₂, hE, hS, rfl⟩, hfits, rfl⟩
    obtain ⟨hfits₁, hfits₂⟩ := (InputStream.fits_append (hle _ _ _ _ hS) (.inl rfl)).mp hfits
    have hready : (stream (advance l bytes₁.length)).Ready := by
      rw [stream_advance]
      exact hl.advance hfits₁
    refine ⟨a, _, (hp l hl a _).mpr ⟨bytes₁, 0, ⟨hE, rfl⟩, hfits₁, rfl⟩, ?_⟩
    refine (hf a _ hE _ hready b _).mpr ⟨bytes₂, skipped, hS, ?_, ?_⟩
    · rw [stream_advance]
      exact hfits₂
    · rw [advance_advance, List.length_append]

/-- Reading a list reads its elements one behind the other. -/
theorem readMany (hp : Codes p R) (hR : Looked R) (n : ℕ) :
    Codes (Parser.readMany p n) fun elems => Each R elems.1 := by
  induction n with
  | zero =>
    refine (pure _).congr fun elems bytes skipped => ?_
    obtain ⟨elems, hn⟩ := elems
    obtain rfl := List.eq_nil_of_length_eq_zero hn
    exact ⟨fun ⟨⟨_, h⟩, h'⟩ => ⟨h, h'⟩, fun ⟨h, h'⟩ => ⟨⟨rfl, h⟩, h'⟩⟩
  | succ n ih =>
    intro l hl elems l'
    obtain ⟨elems, hn⟩ := elems
    rw [Parser.readMany, exec_bind_eq_some]
    constructor
    · rintro ⟨a, l₁, hfirst, hothers⟩
      obtain ⟨bytes₁, skipped₁, hRa, hfits₁, rfl⟩ := (hp l hl a l₁).mp hfirst
      have hready : (stream (advance l bytes₁.length)).Ready := by
        rw [stream_advance]
        exact hl.advance hfits₁
      obtain ⟨⟨as, has⟩, l₂, hmany, hcons⟩ := exec_bind_eq_some.mp hothers
      obtain ⟨bytes₂, skipped₂, heach, hfits₂, rfl⟩ := (ih _ hready ⟨as, has⟩ l₂).mp hmany
      rw [exec_pure] at hcons
      obtain ⟨heq, rfl⟩ := Prod.mk.inj hcons
      obtain rfl : a :: as = elems := congrArg Subtype.val (Option.some.inj heq)
      rw [stream_advance] at hfits₂
      refine ⟨bytes₁ ++ bytes₂, _, ⟨bytes₁, skipped₁, bytes₂, skipped₂, hRa, heach, rfl, rfl⟩,
        (fits_each_cons hR heach).mpr ⟨hfits₁, hfits₂⟩, ?_⟩
      rw [advance_advance, List.length_append]
    · match elems, hn with
      | a :: as, hn =>
        rintro ⟨_, _, ⟨bytes₁, skipped₁, bytes₂, skipped₂, hRa, heach, rfl, rfl⟩, hfits, rfl⟩
        obtain ⟨hfits₁, hfits₂⟩ := (fits_each_cons hR heach).mp hfits
        have hready : (stream (advance l bytes₁.length)).Ready := by
          rw [stream_advance]
          exact hl.advance hfits₁
        refine ⟨a, _, (hp l hl a _).mpr ⟨bytes₁, skipped₁, hRa, hfits₁, rfl⟩, ?_⟩
        refine exec_bind_eq_some.mpr ⟨⟨as, Nat.succ.inj hn⟩, _,
          (ih _ hready _ _).mpr ⟨bytes₂, skipped₂, heach, ?_, rfl⟩, ?_⟩
        · rw [stream_advance]
          exact hfits₂
        · rw [exec_pure, advance_advance, List.length_append]

end Codes

/-! ## Loops -/

/-- A change to the rest of the state that leaves the stream alone. -/
def Records (record : α → σ → σ) : Prop :=
  ∀ a l s, setStream (record a l) s = record a (setStream l s)

namespace Records

variable {record : α → σ → σ} (h : Records record)

include h

/-- To record an element leaves the stream. -/
theorem stream_record (a : α) (l : σ) : stream (record a l) = stream l := by
  rw [← setStream_stream l, ← h, stream_setStream, setStream_stream]

/-- To record an element and to advance the stream may change places. -/
theorem advance_record (a : α) (l : σ) (n : ℕ) :
    advance (record a l) n = record a (advance l n) := by
  rw [advance, h.stream_record, h]
  rfl

theorem advance_foldl (as : List α) (l : σ) (n : ℕ) :
    advance (as.foldl (fun l a => record a l) l) n =
      as.foldl (fun l a => record a l) (advance l n) := by
  induction as generalizing l with
  | nil => rfl
  | cons a as ih => rw [List.foldl_cons, List.foldl_cons, ih, h.advance_record]

end Records

/-- A loop that reads an element a round and records it reads a list of elements. -/
theorem Codes.exec_loop {p : Parser σ α} {R : α → Bytes → ℕ → Prop} (hp : Codes p R)
    (hR : Looked R) {record : α → σ → σ} (hrecord : Records record) (n : ℕ) {l l' : σ}
    (hl : (stream l).Ready) :
    exec (loop (p >>= fun a => modify (record a)) n) l = (some (), l') ↔
      ∃ as bytes skipped, as.length = n ∧ Each R as bytes skipped ∧
        (stream l).Fits bytes skipped ∧
        l' = advance (as.foldl (fun l a => record a l) l) bytes.length := by
  induction n generalizing l with
  | zero =>
    rw [loop, exec_pure]
    constructor
    · intro h
      obtain ⟨-, rfl⟩ := Prod.mk.inj h
      exact ⟨[], [], 0, rfl, ⟨rfl, rfl⟩, InputStream.fits_nil, (advance_zero l).symm⟩
    · rintro ⟨as, _, _, hn, heach, _, rfl⟩
      obtain rfl := List.eq_nil_of_length_eq_zero hn
      rw [heach.1, List.length_nil, List.foldl_nil, advance_zero]
  | succ n ih =>
    -- one round moves behind the first encoding
    have hround : ∀ a bytes₁ skipped₁, (stream l).Fits bytes₁ skipped₁ →
        (stream (record a (advance l bytes₁.length))).Ready ∧
          stream (record a (advance l bytes₁.length)) = (stream l).advance bytes₁.length := by
      intro a bytes₁ skipped₁ hfits
      rw [hrecord.stream_record, stream_advance]
      exact ⟨hl.advance hfits, rfl⟩
    rw [loop, exec_bind_eq_some]
    constructor
    · rintro ⟨⟨⟩, l₁, hfirst, hothers⟩
      obtain ⟨a, l₀, hread, hmodify⟩ := exec_bind_eq_some.mp hfirst
      obtain ⟨bytes₁, skipped₁, hRa, hfits₁, rfl⟩ := (hp l hl a l₀).mp hread
      obtain ⟨-, rfl⟩ := Prod.mk.inj ((exec_modify _ _).symm.trans hmodify)
      obtain ⟨hready, hstream⟩ := hround a bytes₁ skipped₁ hfits₁
      obtain ⟨as, bytes₂, skipped₂, rfl, heach, hfits₂, rfl⟩ := (ih hready).mp hothers
      rw [hstream] at hfits₂
      refine ⟨a :: as, bytes₁ ++ bytes₂, _, rfl,
        ⟨bytes₁, skipped₁, bytes₂, skipped₂, hRa, heach, rfl, rfl⟩,
        (fits_each_cons hR heach).mpr ⟨hfits₁, hfits₂⟩, ?_⟩
      rw [← hrecord.advance_record, ← hrecord.advance_foldl, advance_advance, List.foldl_cons,
        List.length_append]
    · rintro ⟨as, _, _, hn, hall, hfits, rfl⟩
      match as, hn, hall with
      | a :: as, hn, ⟨bytes₁, skipped₁, bytes₂, skipped₂, hRa, heach, hbytes, hskipped⟩ =>
        subst hbytes hskipped
        obtain ⟨hfits₁, hfits₂⟩ := (fits_each_cons hR heach).mp hfits
        obtain ⟨hready, hstream⟩ := hround a bytes₁ skipped₁ hfits₁
        refine ⟨(), record a (advance l bytes₁.length), ?_, ?_⟩
        · exact exec_bind_eq_some.mpr
            ⟨a, _, (hp l hl a _).mpr ⟨bytes₁, skipped₁, hRa, hfits₁, rfl⟩, exec_modify _ _⟩
        · refine (ih hready).mpr ⟨as, bytes₂, skipped₂, Nat.succ.inj hn, heach, ?_, ?_⟩
          · rw [hstream]
            exact hfits₂
          · rw [← hrecord.advance_record, ← hrecord.advance_foldl, advance_advance, List.foldl_cons,
              List.length_append]

end Codes
