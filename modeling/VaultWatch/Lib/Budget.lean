import Mathlib.Algebra.Order.Field.Basic
import Mathlib.Tactic.Linarith
import Mathlib.Tactic.Ring

/-! A budget over every window of a history. A meter says which events open a
window, when an event happened and what it cost. `Fits` looks at all the windows at
once; the lemmas say how it moves when one event is added, so that what keeps one
number and one time can be compared with it. -/
namespace VaultWatch.Lib.Budget

variable {ε K : Type}

structure Meter (ε K : Type) where
  capacity : K
  rate : K
  opens : ε → Prop
  time : ε → K
  cost : ε → K

namespace Meter

variable [Field K] (m : Meter ε K) {past : List ε} {e : ε} {t x : K}

def total (events : List ε) : K := (events.map m.cost).sum

theorem total_append (events later : List ε) :
    m.total (events ++ later) = m.total events + m.total later := by simp [total]

theorem total_drop_append {i : ℕ} {d : ε} (found : past[i]? = some d) (e : ε) :
    m.total ((past ++ [e]).drop i) = m.total (past.drop i) + m.cost e := by
  have within : i < past.length := (List.getElem?_eq_some_iff.mp found).1
  rw [List.drop_append_of_le_length within.le, total_append]
  simp [total]

variable [LinearOrder K]

/-- `x` more at `t` keeps each window up to `t` within its budget: the one that is
empty, and those opened by a past event. -/
def Fits (past : List ε) (t x : K) : Prop :=
  x ≤ m.capacity ∧ ∀ i e, past[i]? = some e → m.opens e →
    m.total (past.drop i) + x ≤ m.capacity + m.rate * (t - m.time e)

theorem fits_nil : m.Fits [] t x ↔ x ≤ m.capacity := by simp [Fits]

/-- The windows of a longer history: those of the history, and the one its last event
opens. -/
theorem fits_append : m.Fits (past ++ [e]) t x ↔ x ≤ m.capacity ∧
    (m.opens e → m.cost e + x ≤ m.capacity + m.rate * (t - m.time e)) ∧
    ∀ i d, past[i]? = some d → m.opens d →
      m.total (past.drop i) + m.cost e + x ≤ m.capacity + m.rate * (t - m.time d) := by
  refine and_congr_right fun _ => ⟨fun fits => ⟨?_, ?_⟩, ?_⟩
  · intro opened
    simpa [total] using fits past.length e (by simp) opened
  · intro i d found opened
    have within : i < past.length := (List.getElem?_eq_some_iff.mp found).1
    have := fits i d (by rw [List.getElem?_append_left within, found]) opened
    rwa [total_drop_append m found] at this
  · rintro ⟨last, older⟩ i d found opened
    rcases Nat.lt_or_ge i past.length with within | beyond
    · rw [List.getElem?_append_left within] at found
      rw [total_drop_append m found]
      exact older i d found opened
    · obtain ⟨n, rfl⟩ := Nat.exists_eq_add_of_le beyond
      rw [List.getElem?_append_right beyond, Nat.add_sub_cancel_left] at found
      cases n with
      | zero =>
        obtain rfl : e = d := by simpa using found
        simpa [total] using last opened
      | succ n => simp at found

/-- An event of another kind that costs nothing leaves everything as it was. -/
theorem fits_append_other (other : ¬ m.opens e) (free : m.cost e = 0) :
    m.Fits (past ++ [e]) t x ↔ m.Fits past t x := by
  rw [fits_append, Fits, free]
  simp [other]

variable [IsStrictOrderedRing K]

/-- What is left after an event that opens a window: the rest of what fitted then, and
what has come in since. -/
theorem fits_append_opens (opened : m.opens e) : m.Fits (past ++ [e]) t x ↔
    x ≤ m.capacity ∧ m.Fits past (m.time e) (x + m.cost e - m.rate * (t - m.time e)) := by
  have moved (d : ε) : m.capacity + m.rate * (t - m.time d) =
      m.capacity + m.rate * (m.time e - m.time d) + m.rate * (t - m.time e) := by ring
  rw [fits_append]
  refine and_congr_right fun _ => and_congr ⟨fun last => ?_, fun fits _ => ?_⟩ ?_
  · linarith [last opened]
  · linarith [fits]
  · refine forall_congr' fun i => forall_congr' fun d => imp_congr_right fun _ =>
      imp_congr_right fun _ => ?_
    rw [moved d]
    constructor <;> intro <;> linarith

end Meter

end VaultWatch.Lib.Budget
