import VaultWatch.Gateway.Store
import Mathlib.Tactic.Linarith

/-! The failed-login tracker (`internal/anomaly/bruteforce.go`): the times of the
failures of each key, pruned to the window whenever one is recorded. Each method
is one step under the mutex, with the clock reading it makes there. -/
namespace VaultWatch.Gateway

open VaultWatch.Gateway.Store (Time)

structure BruteForceTracker where
  window : Time
  threshold : Nat
  events : String → List Time := fun _ => []

namespace BruteForceTracker

/-- Whether the threshold is reached, and the failures in the window. -/
def recordFailure (key : String) (now : Time) (b : BruteForceTracker) :
    (Bool × Nat) × BruteForceTracker :=
  let cutoff := now - b.window
  let kept := ((b.events key).filter fun t => cutoff < t) ++ [now]
  ((decide (b.threshold ≤ kept.length), kept.length),
    { b with events := Function.update b.events key kept })

def reset (key : String) (b : BruteForceTracker) : BruteForceTracker :=
  { b with events := Function.update b.events key [] }

/-! ## How many failures since a time -/

/-- The failures of the key at `since` or later. -/
def failuresSince (b : BruteForceTracker) (key : String) (since : Time) : Nat :=
  ((b.events key).filter fun t => since ≤ t).length

theorem recordFailure_since_of_ne {key key' : String} (ne : key' ≠ key) (now since : Time)
    (b : BruteForceTracker) :
    (b.recordFailure key now).2.failuresSince key' since = b.failuresSince key' since := by
  simp [failuresSince, recordFailure, Function.update_of_ne ne]

theorem reset_since_of_ne {key key' : String} (ne : key' ≠ key) (since : Time)
    (b : BruteForceTracker) :
    (b.reset key).failuresSince key' since = b.failuresSince key' since := by
  simp [failuresSince, reset, Function.update_of_ne ne]

/-- A failure within the window of `since` adds one to those since then. -/
theorem recordFailure_since {key : String} {now since : Time} {b : BruteForceTracker}
    (later : since ≤ now) (within : now < since + b.window) :
    (b.recordFailure key now).2.failuresSince key since = b.failuresSince key since + 1 := by
  have kept : ∀ t, since ≤ t → now - b.window < t := by
    intro t le
    linarith
  have recent : ((b.events key).filter fun t => now - b.window < t).filter (fun t => since ≤ t) =
      (b.events key).filter fun t => since ≤ t := by
    rw [List.filter_filter]
    refine List.filter_congr fun t _ => ?_
    by_cases le : since ≤ t
    · simp [le, kept t le]
    · simp [le]
  unfold failuresSince recordFailure
  simp [List.filter_append, recent, later]

theorem recordFailure_count {key : String} {now since : Time} {b : BruteForceTracker}
    (later : since ≤ now) (within : now < since + b.window) :
    b.failuresSince key since + 1 ≤ (b.recordFailure key now).1.2 := by
  rw [← recordFailure_since later within]
  have own : (b.recordFailure key now).2.events key =
      ((b.events key).filter fun t => now - b.window < t) ++ [now] :=
    Function.update_self ..
  unfold failuresSince
  rw [own]
  exact List.length_filter_le _ _

theorem recordFailure_triggered (key : String) (now : Time) (b : BruteForceTracker) :
    (b.recordFailure key now).1.1 = true ↔ b.threshold ≤ (b.recordFailure key now).1.2 :=
  decide_eq_true_iff

end BruteForceTracker

end VaultWatch.Gateway
