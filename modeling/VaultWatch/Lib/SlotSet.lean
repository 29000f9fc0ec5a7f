import Mathlib.Data.List.Basic

/-! A hash set as its table: slots that are empty or hold one member, no member
twice. Where a new member goes is the hash function's affair, so `add` takes
the place as an argument: an empty slot, or a whole new table. An iterator is a
position: it goes on with the first filled slot at or behind it. -/
namespace VaultWatch.Lib

structure SlotSet (α : Type) where
  slots : List (Option α)
  distinct : ∀ (i j : Nat) (a : α), slots[i]? = some (some a) → slots[j]? = some (some a) → i = j

namespace SlotSet

variable {α : Type}

def Holds (t : SlotSet α) (i : Nat) (a : α) : Prop := t.slots[i]? = some (some a)

def members (t : SlotSet α) : List α := t.slots.filterMap id

def size (t : SlotSet α) : Nat := t.members.length

def empty : SlotSet α := ⟨[], by simp⟩

theorem mem_members {t : SlotSet α} {a : α} : a ∈ t.members ↔ ∃ i, t.Holds i a := by
  unfold members Holds
  rw [List.mem_filterMap]
  constructor
  · intro hslot
    obtain ⟨s, hs, rfl⟩ := hslot
    exact List.mem_iff_getElem?.mp hs
  · intro hholds
    obtain ⟨i, hi⟩ := hholds
    exact ⟨some a, List.mem_of_getElem? hi, rfl⟩

theorem Holds.mem {t : SlotSet α} {i : Nat} {a : α} (h : t.Holds i a) : a ∈ t.members :=
  mem_members.mpr ⟨i, h⟩

theorem Holds.unique {t : SlotSet α} {i j : Nat} {a : α} (hi : t.Holds i a) (hj : t.Holds j a) :
    i = j := t.distinct i j a hi hj

/-- A new member in an empty slot. -/
def put (t : SlotSet α) (i : Nat) (a : α) (ha : a ∉ t.members) : SlotSet α where
  slots := t.slots.set i (some a)
  distinct := by
    have hother : ∀ j b, (t.slots.set i (some a))[j]? = some (some b) → j ≠ i → t.Holds j b := by
      intro j b hj hne
      rwa [List.getElem?_set_ne (Ne.symm hne)] at hj
    have hself : ∀ b, (t.slots.set i (some a))[i]? = some (some b) → b = a := by
      intro b hb
      rw [List.getElem?_set_self'] at hb
      cases hs : t.slots[i]? with
      | none => rw [hs] at hb; cases hb
      | some s => rw [hs] at hb; cases hb; rfl
    intro j k b hj hk
    by_cases hji : j = i
    · by_cases hki : k = i
      · rw [hji, hki]
      · rw [hji] at hj
        rw [hself b hj] at hk
        exact absurd (hother k a hk hki).mem ha
    · by_cases hki : k = i
      · rw [hki] at hk
        rw [hself b hk] at hj
        exact absurd (hother j a hj hji).mem ha
      · exact (hother j b hj hji).unique (hother k b hk hki)

/-- A new member behind all slots. -/
def push (t : SlotSet α) (a : α) (ha : a ∉ t.members) : SlotSet α where
  slots := t.slots ++ [some a]
  distinct := by
    have hcases : ∀ j b, (t.slots ++ [some a])[j]? = some (some b) →
        t.Holds j b ∨ j = t.slots.length ∧ b = a := by
      intro j b hj
      rw [List.getElem?_append] at hj
      split at hj
      · exact .inl hj
      · right
        rw [List.getElem?_singleton] at hj
        split at hj
        · exact ⟨by omega, by simpa [eq_comm] using hj⟩
        · cases hj
    intro j k b hj hk
    rcases hcases j b hj with hj' | ⟨hj', hb⟩
    · rcases hcases k b hk with hk' | ⟨_, hb⟩
      · exact hj'.unique hk'
      · rw [hb] at hj'
        exact absurd hj'.mem ha
    · rcases hcases k b hk with hk' | ⟨hk', _⟩
      · rw [hb] at hk'
        exact absurd hk'.mem ha
      · rw [hj', hk']

/-- Where an added member goes. -/
inductive Place (α : Type)
  | slot (i : Nat)
  | rebuilt (t : SlotSet α)

variable [DecidableEq α]

/-- The set with one more member; a member already there changes nothing. A
place that does not fit (a slot in use, a table of other members) stands for a
slot behind all others. -/
def add (t : SlotSet α) (a : α) (place : Place α) : SlotSet α :=
  if ha : a ∈ t.members then t
  else
    match place with
    | .slot i => if t.slots[i]? = some none then t.put i a ha else t.push a ha
    | .rebuilt u => if u.members.Perm (a :: t.members) then u else t.push a ha

/-- The set without a member; its slot is left empty. -/
def discard (t : SlotSet α) (a : α) : SlotSet α where
  slots := t.slots.map fun s => if s = some a then none else s
  distinct := by
    have hold : ∀ j b, (t.slots.map fun s => if s = some a then none else s)[j]? =
        some (some b) → t.Holds j b := by
      intro j b hj
      rw [List.getElem?_map] at hj
      obtain ⟨s, hs, hb⟩ := Option.map_eq_some_iff.mp hj
      split at hb
      · cases hb
      · rw [hb] at hs
        exact hs
    intro j k b hj hk
    exact (hold j b hj).unique (hold k b hk)

/-- What stands in a slot. -/
def slot (t : SlotSet α) (i : Nat) : Option α := t.slots[i]?.join

/-- The next member of an iterator at `pos`, and the position behind it. -/
def nextFrom (t : SlotSet α) (pos : Nat) : Option (α × Nat) :=
  ((List.range t.slots.length).find? fun i => decide (pos ≤ i) && (t.slot i).isSome).bind
    fun i => (t.slot i).map fun a => (a, i + 1)

/-! ## What adding and discarding leave in place -/

omit [DecidableEq α] in
theorem holds_put {t : SlotSet α} {i j : Nat} {a b : α} {hb : b ∉ t.members}
    (hi : t.slots[i]? = some none) (h : t.Holds j a) : (t.put i b hb).Holds j a := by
  have hji : i ≠ j := by
    intro same
    subst same
    rw [Holds, hi] at h
    cases h
  unfold Holds put
  rw [List.getElem?_set_ne hji]
  exact h

omit [DecidableEq α] in
theorem holds_push {t : SlotSet α} {j : Nat} {a b : α} {hb : b ∉ t.members}
    (h : t.Holds j a) : (t.push b hb).Holds j a := by
  unfold Holds push
  rw [List.getElem?_append_left (List.getElem?_eq_some_iff.mp h).1]
  exact h

/-- A member keeps its slot when another is added, unless the table is rebuilt. -/
theorem holds_add {t : SlotSet α} {j : Nat} {a b : α} {place : Place α}
    (hp : ∀ u, place = .rebuilt u → b ∈ t.members) (h : t.Holds j a) :
    (t.add b place).Holds j a := by
  unfold add
  split
  · exact h
  · next hb =>
    cases place with
    | slot i =>
      simp only
      split
      · next hi => exact holds_put hi h
      · exact holds_push h
    | rebuilt u => exact absurd (hp u rfl) hb

theorem holds_discard {t : SlotSet α} {j : Nat} {a b : α} :
    (t.discard b).Holds j a ↔ t.Holds j a ∧ a ≠ b := by
  unfold Holds discard
  rw [List.getElem?_map]
  constructor
  · intro h
    obtain ⟨s, hs, ha⟩ := Option.map_eq_some_iff.mp h
    split at ha
    · cases ha
    · next hne =>
      subst ha
      exact ⟨hs, fun hab => hne (congrArg some hab)⟩
  · intro hkept
    obtain ⟨h, hne⟩ := hkept
    rw [h]
    simp [hne]

theorem mem_discard {t : SlotSet α} {a b : α} :
    a ∈ (t.discard b).members ↔ a ∈ t.members ∧ a ≠ b := by
  simp only [mem_members, holds_discard]
  exact ⟨fun ⟨i, hi, hne⟩ => ⟨⟨i, hi⟩, hne⟩, fun ⟨⟨i, hi⟩, hne⟩ => ⟨i, hi, hne⟩⟩

theorem holds_discardAll {t : SlotSet α} {j : Nat} {a : α} {bs : List α} :
    (bs.foldl discard t).Holds j a ↔ t.Holds j a ∧ a ∉ bs := by
  induction bs generalizing t with
  | nil => simp
  | cons b bs ih =>
    rw [List.foldl_cons, ih, holds_discard, List.mem_cons, not_or, and_assoc]

/-! ## Iteration -/

omit [DecidableEq α] in
theorem slot_eq_some {t : SlotSet α} {i : Nat} {a : α} : t.slot i = some a ↔ t.Holds i a := by
  unfold slot Holds
  cases h : t.slots[i]? with
  | none => simp
  | some s => simp

omit [DecidableEq α] in
/-- The iterator passes over empty slots only. -/
theorem nextFrom_eq_some {t : SlotSet α} {pos q : Nat} {a : α}
    (h : t.nextFrom pos = some (a, q)) :
    ∃ i, q = i + 1 ∧ pos ≤ i ∧ t.Holds i a ∧ ∀ j b, pos ≤ j → t.Holds j b → i ≤ j := by
  unfold nextFrom at h
  obtain ⟨i, hfind, hi⟩ := Option.bind_eq_some_iff.mp h
  obtain ⟨b, hb, heq⟩ := Option.map_eq_some_iff.mp hi
  cases heq
  rw [List.find?_range_eq_some] at hfind
  obtain ⟨hcond, _, hbefore⟩ := hfind
  simp only [Bool.and_eq_true, decide_eq_true_eq] at hcond
  refine ⟨i, rfl, hcond.1, slot_eq_some.mp hb, ?_⟩
  intro j b hj hb
  by_contra hlt
  have hskipped := hbefore j (by omega)
  rw [slot_eq_some.mpr hb] at hskipped
  simp [hj] at hskipped

omit [DecidableEq α] in
/-- At its end the iterator is behind every member. -/
theorem nextFrom_eq_none {t : SlotSet α} {pos j : Nat} {b : α} (h : t.nextFrom pos = none)
    (hb : t.Holds j b) : j < pos := by
  by_contra hlt
  have hslot := slot_eq_some.mpr hb
  have hrange : j < t.slots.length := (List.getElem?_eq_some_iff.mp hb).1
  unfold nextFrom at h
  rw [Option.bind_eq_none_iff] at h
  cases hfind : (List.range t.slots.length).find? fun i =>
      decide (pos ≤ i) && (t.slot i).isSome with
  | none =>
    rw [List.find?_range_eq_none] at hfind
    have hj := hfind j hrange
    rw [hslot] at hj
    simp only [Option.isSome_some, Bool.and_true, Bool.not_eq_true', decide_eq_false_iff_not] at hj
    omega
  | some i =>
    have hi := h i hfind
    rw [Option.map_eq_none_iff] at hi
    rw [List.find?_range_eq_some] at hfind
    simp [hi] at hfind

end SlotSet

end VaultWatch.Lib
