import Mathlib.Data.List.Induction
import Mathlib.Data.List.Pairwise
import Mathlib.Data.List.Sort

/-! What is newest. `Recents` is a log that keeps its newest entries only; `Descending`
is an `ORDER BY ... DESC` of a table, which leaves the order of ties open. -/
namespace VaultWatch.Lib

/-- A log of at most `capacity` entries, the newest first. -/
structure Recents (α : Type) where
  capacity : ℕ
  items : List α
  bounded : items.length ≤ capacity

namespace Recents

variable {α : Type}

def empty (capacity : ℕ) : Recents α := ⟨capacity, [], capacity.zero_le⟩

/-- The oldest entry of a full log is dropped. -/
def push (log : Recents α) (a : α) : Recents α :=
  ⟨log.capacity, (a :: log.items).take log.capacity, List.length_take_le _ _⟩

def recent (log : Recents α) (limit : ℕ) : List α := log.items.take limit

def find (log : Recents α) (p : α → Bool) : Option α := log.items.find? p

/-- The log of a whole history, the oldest entry first. -/
def ofHistory (capacity : ℕ) (history : List α) : Recents α := history.foldl push (empty capacity)

theorem ofHistory_snoc (capacity : ℕ) (history : List α) (a : α) :
    ofHistory capacity (history ++ [a]) = (ofHistory capacity history).push a :=
  List.foldl_concat ..

@[simp] theorem capacity_ofHistory (capacity : ℕ) (history : List α) :
    (ofHistory capacity history).capacity = capacity := by
  induction history using List.reverseRecOn with
  | nil => rfl
  | append_singleton history a ih =>
    rw [ofHistory_snoc]
    exact ih

@[simp] theorem items_ofHistory (capacity : ℕ) (history : List α) :
    (ofHistory capacity history).items = history.reverse.take capacity := by
  induction history using List.reverseRecOn with
  | nil => exact List.take_nil.symm
  | append_singleton history a ih =>
    rw [ofHistory_snoc, List.reverse_concat]
    show (a :: (ofHistory capacity history).items).take (ofHistory capacity history).capacity = _
    rw [ih, capacity_ofHistory]
    cases capacity with
    | zero => rfl
    | succ n => rw [List.take_succ_cons, List.take_succ_cons, List.take_take, min_eq_left n.le_succ]

/-- The log answers for the whole history unless the only entries sought have been dropped. -/
theorem find_ofHistory_iff {β : Type} (f : α → β) (p : α → Bool) (capacity : ℕ)
    (history : List α) :
    (history.reverse.find? p).map f = ((ofHistory capacity history).find p).map f ↔
      (∀ a ∈ history, ¬ p a) ∨ ∃ a ∈ history.reverse.take capacity, p a := by
  have whole : history.reverse.find? p = ((ofHistory capacity history).find p).or
      ((history.reverse.drop capacity).find? p) := by
    rw [find, items_ofHistory, ← List.find?_append, List.take_append_drop]
  rw [whole]
  cases kept : (ofHistory capacity history).find p with
  | some a =>
    have mem := List.mem_of_find?_eq_some kept
    rw [items_ofHistory] at mem
    exact ⟨fun _ => .inr ⟨a, mem, List.find?_some kept⟩, fun _ => rfl⟩
  | none =>
    rw [find, items_ofHistory] at kept
    rw [find, items_ofHistory, kept, Option.none_or] at whole
    have missing := List.find?_eq_none.mp kept
    rw [Option.none_or, ← whole, Option.map_none, Option.map_eq_none_iff, List.find?_eq_none]
    constructor
    · intro never
      exact .inl fun a mem => never a (List.mem_reverse.mpr mem)
    · intro cases
      obtain never | ⟨a, mem, found⟩ := cases
      · exact fun a mem => never a (List.mem_reverse.mp mem)
      · exact absurd found (missing a mem)

end Recents

/-- An `ORDER BY key DESC`. -/
structure Descending {ρ κ : Type} [LE κ] (key : ρ → κ) where
  sort : List ρ → List ρ
  perm : ∀ rows, (sort rows).Perm rows
  sorted : ∀ rows, (sort rows).Pairwise fun a b => key b ≤ key a

namespace Descending

variable {ρ κ : Type} {key : ρ → κ}

section
variable [LE κ] (order : Descending key)

/-- `LIMIT n`. -/
def limit (n : ℕ) (rows : List ρ) : List ρ := (order.sort rows).take n

/-- `LIMIT 1`, the row or none. -/
def first (rows : List ρ) : Option ρ := (order.sort rows).head?

theorem mem_sort {rows : List ρ} {row : ρ} : row ∈ order.sort rows ↔ row ∈ rows :=
  (order.perm rows).mem_iff

end

section
variable [Preorder κ] (order : Descending key)

/-- Some order there is: rows of equal keys in the order of the table. -/
def stable {κ : Type} [LinearOrder κ] (key : ρ → κ) : Descending key where
  sort rows := rows.mergeSort fun a b => decide (key b ≤ key a)
  perm rows := List.mergeSort_perm rows _
  sorted rows := by
    refine (List.pairwise_mergeSort ?_ ?_ rows).imp fun {a b} le => of_decide_eq_true le
    · intro a b c ab bc
      simp only [decide_eq_true_eq] at *
      exact bc.trans ab
    · intro a b
      simp only [Bool.or_eq_true, decide_eq_true_eq]
      exact le_total (key b) (key a)

/-- Rows that stand in descending order stay where they are. -/
theorem sort_eq {rows : List ρ} (descending : rows.Pairwise fun a b => key b < key a) :
    order.sort rows = rows := by
  refine @List.Perm.eq_of_pairwise _ (fun a b => key b ≤ key a) _ _ ?_ (order.sorted rows)
    (descending.imp fun below => below.le) (order.perm rows)
  intro a b memA memB ba ab
  by_contra distinct
  have apart : rows.Pairwise fun x y => key y < key x ∨ key x < key y := descending.imp Or.inl
  have symmetric : Std.Symm fun x y : ρ => key y < key x ∨ key x < key y := ⟨fun _ _ => Or.symm⟩
  rcases apart.forall (order.mem_sort.mp memA) memB distinct with below | below
  · exact absurd below (not_lt_of_ge ab)
  · exact absurd below (not_lt_of_ge ba)

/-- Rows of different keys have one order. -/
theorem sort_unique {κ : Type} [PartialOrder κ] {key : ρ → κ} (order order' : Descending key)
    {rows : List ρ} (distinct : ∀ a ∈ rows, ∀ b ∈ rows, key a = key b → a = b) :
    order.sort rows = order'.sort rows := by
  refine List.Perm.eq_of_pairwise ?_ (order.sorted rows) (order'.sorted rows)
    ((order.perm rows).trans (order'.perm rows).symm)
  intro a b memA memB ba ab
  exact distinct a (order.mem_sort.mp memA) b (order'.mem_sort.mp memB) (le_antisymm ab ba)

/-- The first row has the greatest key. -/
theorem first_greatest {rows : List ρ} {row : ρ} (mem : row ∈ rows) :
    ∃ top, order.first rows = some top ∧ top ∈ rows ∧ key row ≤ key top := by
  have sorted := order.sorted rows
  have within := order.mem_sort.mpr mem
  unfold first
  cases found : order.sort rows with
  | nil =>
    rw [found] at within
    cases within
  | cons top rest =>
    rw [found] at sorted within
    refine ⟨top, rfl, order.mem_sort.mp (found ▸ .head _), ?_⟩
    rcases List.mem_cons.mp within with rfl | later
    · exact le_refl _
    · exact List.rel_of_pairwise_cons sorted later

/-- A row that a limit leaves out comes after that many rows with keys at least its own. -/
theorem limit_newer {rows : List ρ} {row : ρ} (mem : row ∈ rows) (n : ℕ)
    (out : row ∉ order.limit n rows) :
    (order.limit n rows).length = n ∧ ∀ other ∈ order.limit n rows, key row ≤ key other := by
  have behind : row ∈ (order.sort rows).drop n := by
    have within := order.mem_sort.mpr mem
    rw [← List.take_append_drop n (order.sort rows)] at within
    exact (List.mem_append.mp within).resolve_left out
  constructor
  · refine List.length_take_of_le (Nat.le_of_lt ?_)
    have some := List.length_pos_of_mem behind
    rw [List.length_drop] at some
    omega
  · intro other shown
    have sorted := order.sorted rows
    rw [← List.take_append_drop n (order.sort rows)] at sorted
    exact (List.pairwise_append.mp sorted).2.2 other shown row behind

end

end Descending

end VaultWatch.Lib
