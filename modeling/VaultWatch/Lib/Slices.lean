import Mathlib.Data.List.Range
import Mathlib.Logic.Function.Basic

/-! Slices over shared arrays. A slice is a view of the first elements of an array that
other slices may view too: `append` writes into that array while there is room and
moves to a new one when there is none. `keep_spec` is about the loop that filters a
slice over its own array: what it has still to read is never overwritten. -/
namespace VaultWatch.Lib.Slices

variable {α : Type}

/-- The cells of every array, and the number the next array gets. -/
structure Heap (α : Type) where
  cells : ℕ → ℕ → α
  next : ℕ

structure Slice where
  array : ℕ
  len : ℕ
  cap : ℕ
  deriving DecidableEq

/-- The slice of no array. -/
def Slice.nil : Slice := ⟨0, 0, 0⟩

/-- `s[:0]`. -/
def Slice.front (s : Slice) : Slice := { s with len := 0 }

namespace Heap

def read (h : Heap α) (s : Slice) (i : ℕ) : α := h.cells s.array i

def elements (h : Heap α) (s : Slice) : List α := (List.range s.len).map (h.read s)

def write (h : Heap α) (array i : ℕ) (a : α) : Heap α :=
  { h with cells := Function.update h.cells array (Function.update (h.cells array) i a) }

/-- A new array that starts with the elements of the slice. -/
def copied [Inhabited α] (h : Heap α) (s : Slice) : Heap α where
  cells := Function.update h.cells h.next fun i => if i < s.len then h.read s i else default
  next := h.next + 1

end Heap

/-- `append(s, a)`; `grow` is the runtime's choice of a new capacity. -/
def append [Inhabited α] (grow : ℕ → ℕ) (s : Slice) (a : α) (h : Heap α) : Slice × Heap α :=
  if s.len < s.cap then ({ s with len := s.len + 1 }, h.write s.array s.len a)
  else (⟨h.next, s.len + 1, max (s.len + 1) (grow s.cap)⟩, (h.copied s).write h.next s.len a)

/-- `for _, a := range s { if p(a) { kept = append(kept, a) } }`, with `n` turns to go:
each turn reads its element when it comes to it. -/
def keep [Inhabited α] (grow : ℕ → ℕ) (p : α → Bool) (s : Slice) :
    ℕ → ℕ → Slice → Heap α → Slice × Heap α
  | 0, _, kept, h => (kept, h)
  | n + 1, i, kept, h =>
    if p (h.read s i) then
      let next := append grow kept (h.read s i) h
      keep grow p s n (i + 1) next.1 next.2
    else keep grow p s n (i + 1) kept h

/-! ## What the operations leave -/

theorem elements_congr {h h' : Heap α} {s : Slice} (same : ∀ i < s.len, h.read s i = h'.read s i) :
    h.elements s = h'.elements s :=
  List.map_congr_left fun i mem => same i (List.mem_range.mp mem)

theorem elements_succ (h : Heap α) (s : Slice) :
    h.elements { s with len := s.len + 1 } = h.elements s ++ [h.read s s.len] := by
  unfold Heap.elements
  rw [List.range_succ, List.map_append]
  rfl

theorem write_read_self (h : Heap α) (array i : ℕ) (a : α) :
    (h.write array i a).cells array i = a := by simp [Heap.write]

theorem write_read_of_ne (h : Heap α) (array : ℕ) {i j : ℕ} (ne : j ≠ i) (a : α) :
    (h.write array i a).cells array j = h.cells array j := by simp [Heap.write, ne]

theorem write_other (h : Heap α) {array other : ℕ} (ne : other ≠ array) (i : ℕ) (a : α) :
    (h.write array i a).cells other = h.cells other := by simp [Heap.write, ne]

variable [Inhabited α] (grow : ℕ → ℕ) {s : Slice} (a : α) (h : Heap α)

theorem append_room (room : s.len < s.cap) :
    append grow s a h = ({ s with len := s.len + 1 }, h.write s.array s.len a) := if_pos room

theorem append_full (full : ¬ s.len < s.cap) : append grow s a h =
    (⟨h.next, s.len + 1, max (s.len + 1) (grow s.cap)⟩, (h.copied s).write h.next s.len a) :=
  if_neg full

theorem append_elements (s : Slice) :
    (append grow s a h).2.elements (append grow s a h).1 = h.elements s ++ [a] := by
  by_cases room : s.len < s.cap
  · rw [append_room grow a h room, elements_succ]
    congr 1
    · refine elements_congr fun i within => ?_
      exact write_read_of_ne h s.array (Nat.ne_of_lt within) a
    · exact congrArg (fun b => [b]) (write_read_self h s.array s.len a)
  · rw [append_full grow a h room]
    refine (elements_succ _ ⟨h.next, s.len, max (s.len + 1) (grow s.cap)⟩).trans ?_
    congr 1
    · refine List.map_congr_left fun i mem => ?_
      have within := List.mem_range.mp mem
      refine (write_read_of_ne _ h.next (Nat.ne_of_lt within) a).trans ?_
      simp [Heap.copied, within]
    · exact congrArg (fun b => [b]) (write_read_self _ h.next s.len a)

/-- The array of the result: that of the slice, or a new one. -/
theorem append_array (s : Slice) :
    ((append grow s a h).1.array = s.array ∧ s.len < s.cap ∧ (append grow s a h).2.next = h.next) ∨
      ((append grow s a h).1.array = h.next ∧ (append grow s a h).2.next = h.next + 1) := by
  by_cases room : s.len < s.cap
  · rw [append_room grow a h room]
    exact .inl ⟨rfl, room, rfl⟩
  · rw [append_full grow a h room]
    exact .inr ⟨rfl, rfl⟩

/-- Arrays that the slice does not view stay as they are. -/
theorem append_other {other : ℕ} (made : other < h.next)
    (ne : other ≠ s.array) : (append grow s a h).2.cells other = h.cells other := by
  by_cases room : s.len < s.cap
  · rw [append_room grow a h room]
    exact write_other h ne _ a
  · rw [append_full grow a h room]
    refine (write_other _ (Nat.ne_of_lt made) _ a).trans ?_
    simp [Heap.copied, Nat.ne_of_lt made]

theorem append_within (s : Slice) :
    (append grow s a h).1.len ≤ (append grow s a h).1.cap := by
  by_cases room : s.len < s.cap
  · rw [append_room grow a h room]
    exact room
  · rw [append_full grow a h room]
    exact le_max_left _ _

/-- The filtering loop from its `i`-th turn. The slice `kept` is over the array of `s`
and no longer than what has been read, so each element it takes in is written at or
before the one just read: those still to come are read as they were. -/
theorem keep_spec (p : α → Bool) (n i : ℕ) (kept : Slice) (array : kept.array = s.array)
    (cap : kept.cap = s.cap) (read : kept.len ≤ i) (within : i + n ≤ s.cap) :
    let done := keep grow p s n i kept h
    (done.1.array = s.array ∧ done.1.cap = s.cap ∧ done.1.len ≤ i + n) ∧
      done.2.next = h.next ∧ (∀ other ≠ s.array, done.2.cells other = h.cells other) ∧
      done.2.elements done.1 =
        h.elements kept ++ ((List.range' i n).map (h.read s)).filter p := by
  induction n generalizing h i kept with
  | zero => exact ⟨⟨array, cap, read⟩, rfl, fun _ _ => rfl, by simp [keep]⟩
  | succ n ih =>
    by_cases kind : p (h.read s i) = true
    · have room : kept.len < kept.cap := by omega
      have next := append_room grow (h.read s i) h room
      have own := append_elements grow (h.read s i) h kept
      have step := ih (append grow kept (h.read s i) h).2 (i + 1)
        (append grow kept (h.read s i) h).1 (by rw [next]; exact array)
        (by rw [next]; exact cap) (by rw [next]; exact Nat.succ_le_succ read) (by omega)
      have unread : (List.range' (i + 1) n).map ((append grow kept (h.read s i) h).2.read s) =
          (List.range' (i + 1) n).map (h.read s) := by
        refine List.map_congr_left fun j mem => ?_
        have later : kept.len ≠ j := by
          have := (List.mem_range'_1.mp mem).1
          omega
        rw [next, Heap.read, array]
        exact write_read_of_ne h s.array later.symm _
      have same : keep grow p s (n + 1) i kept h =
          keep grow p s n (i + 1) (append grow kept (h.read s i) h).1
            (append grow kept (h.read s i) h).2 := by simp [keep, kind]
      obtain ⟨⟨array', cap', len'⟩, next', others, elements⟩ := step
      rw [same]
      refine ⟨⟨array', cap', by omega⟩, ?_, ?_, ?_⟩
      · rw [next', next]
        rfl
      · intro other ne
        rw [others other ne, next]
        exact write_other h (by rwa [array]) _ _
      · rw [elements, own, unread]
        simp [List.range'_succ, kind]
    · have same : keep grow p s (n + 1) i kept h = keep grow p s n (i + 1) kept h := by
        simp [keep, kind]
      obtain ⟨⟨array', cap', len'⟩, next', others, elements⟩ :=
        ih h (i + 1) kept array cap (by omega) (by omega)
      rw [same]
      refine ⟨⟨array', cap', by omega⟩, next', others, ?_⟩
      rw [elements]
      simp [List.range'_succ, kind]

/-- Filtering a slice over its own array: `kept := s[:0]` and the loop over `s`. -/
theorem keep_front (p : α → Bool) (within : s.len ≤ s.cap) :
    let done := keep grow p s s.len 0 s.front h
    (done.1.array = s.array ∧ done.1.cap = s.cap ∧ done.1.len ≤ done.1.cap) ∧
      done.2.next = h.next ∧
      (∀ other ≠ s.array, done.2.cells other = h.cells other) ∧
      done.2.elements done.1 = (h.elements s).filter p := by
  obtain ⟨⟨array, cap, len⟩, next, others, elements⟩ :=
    keep_spec grow h p s.len 0 s.front (show s.front.array = s.array from rfl)
      (show s.front.cap = s.cap from rfl) le_rfl (by omega)
  refine ⟨⟨array, cap, by omega⟩, next, others, elements.trans ?_⟩
  simp [Heap.elements, Slice.front, List.range_eq_range']

end VaultWatch.Lib.Slices
