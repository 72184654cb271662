import HeteroAccel.Lib.KeyedMap

/-!
# Tables of shared open objects

An object that is opened twice under one key is open once: the second opening adds a reference, and
the object is closed when its last reference is released. The table numbers the objects in the order
in which they are opened, and a handle carries that number, so that a handle of an object that was
closed never denotes one that is opened under the same key later.

* `OpenTable.acquire`, `OpenTable.release`: opening and closing;
* `OpenTable.Live`: the handle denotes an open object;
* `OpenTable.Agrees`: the same objects are open, with the same references. Opening an object and
  releasing the handle leaves a table that agrees (`agrees_release_acquire`).
-/

/-- An object that is open. -/
structure OpenObject (C : Type*) where
  /-- Which of the objects it is, in the order in which they were opened. -/
  serial : ℕ
  /-- What was found when it was opened. -/
  content : C
  /-- The references to it besides the first one. -/
  others : ℕ := 0

/-- A reference to an open object. -/
structure OpenHandle (K : Type*) where
  /-- The key under which the object was opened. -/
  key : K
  /-- The number of the object. -/
  serial : ℕ
deriving DecidableEq

/-- The objects that are open, by key. -/
structure OpenTable (K C : Type*) where
  /-- The open objects. -/
  objects : KeyedMap K (OpenObject C) := ∅
  /-- The number of the next object to be opened. -/
  nextSerial : ℕ := 0

namespace OpenTable

variable {K C : Type*} [DecidableEq K]

/-- A reference to the object with this key, which is opened with the content unless it is open. -/
def acquire (t : OpenTable K C) (key : K) (content : C) : OpenHandle K × OpenTable K C :=
  match t.objects.lookup key with
  | some o =>
    (⟨key, o.serial⟩,
      { t with objects := t.objects.insert key { o with others := o.others + 1 } })
  | none =>
    (⟨key, t.nextSerial⟩,
      { objects := t.objects.insert key { serial := t.nextSerial, content }
        nextSerial := t.nextSerial + 1 })

/-- The table without the reference. -/
def release (t : OpenTable K C) (h : OpenHandle K) : OpenTable K C :=
  match t.objects.lookup h.key with
  | some o =>
    if o.serial = h.serial then
      match o.others with
      | 0 => { t with objects := t.objects.erase h.key }
      | n + 1 => { t with objects := t.objects.insert h.key { o with others := n } }
    else t
  | none => t

/-- The content of the object that a handle denotes. -/
def content? (t : OpenTable K C) (h : OpenHandle K) : Option C :=
  match t.objects.lookup h.key with
  | some o => if o.serial = h.serial then some o.content else none
  | none => none

/-- The handle denotes an open object. -/
def Live (t : OpenTable K C) (h : OpenHandle K) : Prop :=
  ∃ o, t.objects.lookup h.key = some o ∧ o.serial = h.serial

/-- The same objects are open with the same references, and no number is used again. -/
structure Agrees (t t' : OpenTable K C) : Prop where
  lookup : ∀ key, t'.objects.lookup key = t.objects.lookup key
  nextSerial : t.nextSerial ≤ t'.nextSerial

variable {t t' t'' : OpenTable K C} {h : OpenHandle K} {key : K} {content : C} {o : OpenObject C}

theorem Agrees.refl (t : OpenTable K C) : t.Agrees t := ⟨fun _ => rfl, le_rfl⟩

theorem Agrees.trans (h : t.Agrees t') (h' : t'.Agrees t'') : t.Agrees t'' :=
  ⟨fun key => (h'.lookup key).trans (h.lookup key), h.nextSerial.trans h'.nextSerial⟩

/-- A key that is open gets one user more. -/
theorem acquire_of_open (h : t.objects.lookup key = some o) :
    t.acquire key content = (⟨key, o.serial⟩,
      { t with objects := t.objects.insert key { o with others := o.others + 1 } }) := by
  unfold acquire
  rw [h]

/-- A key that is closed is opened under the next serial. -/
theorem acquire_of_closed (h : t.objects.lookup key = none) :
    t.acquire key content = (⟨key, t.nextSerial⟩,
      { objects := t.objects.insert key { serial := t.nextSerial, content }
        nextSerial := t.nextSerial + 1 }) := by
  unfold acquire
  rw [h]

/-- The content under an acquired handle: what was there, or the new content. -/
theorem content?_acquire : (t.acquire key content).2.content? (t.acquire key content).1 =
    some ((t.objects.lookup key).elim content OpenObject.content) := by
  cases h : t.objects.lookup key with
  | none =>
    rw [acquire_of_closed h]
    simp [OpenTable.content?]
  | some o =>
    rw [acquire_of_open h]
    simp [OpenTable.content?]

/-- Opening an object and releasing the handle changes no other handle. -/
theorem agrees_release_acquire :
    t.Agrees ((t.acquire key content).2.release (t.acquire key content).1) := by
  cases h : t.objects.lookup key with
  | none =>
    rw [acquire_of_closed h]
    refine ⟨fun key' => ?_, ?_⟩
    · simp only [release, AList.lookup_insert, if_true, KeyedMap.lookup_erase_eq_ite,
        KeyedMap.lookup_insert_eq_ite]
      split_ifs with hkey
      · rw [hkey, h]
      · rfl
    · simp [release]
  | some o =>
    rw [acquire_of_open h]
    refine ⟨fun key' => ?_, ?_⟩
    · simp only [release, AList.lookup_insert, if_true, KeyedMap.lookup_insert_eq_ite]
      split_ifs with hkey
      · rw [hkey, h]
      · rfl
    · simp [release]

/-- The release of the only reference closes the object. -/
theorem release_of_single (hlookup : t.objects.lookup h.key = some o)
    (hserial : o.serial = h.serial) (hothers : o.others = 0) :
    t.release h = { t with objects := t.objects.erase h.key } := by
  unfold release
  rw [hlookup]
  dsimp only
  rw [if_pos hserial, hothers]

end OpenTable
