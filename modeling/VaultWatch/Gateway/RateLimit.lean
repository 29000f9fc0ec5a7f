import VaultWatch.Gateway.Store
import Mathlib.Algebra.Order.Field.Rat
import Mathlib.Tactic.Linarith
import Mathlib.Tactic.Ring

/-! The token bucket limiter (`internal/ratelimit/tokenbucket.go`) in exact
arithmetic. `Allow` is one step under the mutex, with the clock reading it makes
there. What a bucket holds at a later time is its `level`; an admission costs one. -/
namespace VaultWatch.Gateway

open VaultWatch.Gateway.Store (Time)

/-- `Duration.Seconds`. -/
def seconds (d : Time) : ℚ := d / 1000000000

/-- The longest `time.Duration`. -/
def maxDuration : Time := 2 ^ 63 - 1

/-- `Time.Sub`: the nearest `time.Duration`, where the difference is not one. -/
def timeSub (t u : Time) : Time := max (-2 ^ 63) (min maxDuration (t - u))

theorem seconds_mono {d e : Time} (le : d ≤ e) : seconds d ≤ seconds e := by
  have cast : (d : ℚ) ≤ e := by exact_mod_cast le
  exact div_le_div_of_nonneg_right cast (by norm_num)

theorem seconds_nonneg {d : Time} (nonneg : 0 ≤ d) : 0 ≤ seconds d := by
  simpa [seconds] using seconds_mono nonneg

theorem seconds_pos {d : Time} (pos : 0 < d) : 0 < seconds d := by
  have cast : (0 : ℚ) < d := by exact_mod_cast pos
  exact div_pos cast (by norm_num)

theorem seconds_sub_nonneg {s t : Time} (le : s ≤ t) : 0 ≤ seconds (t - s) :=
  seconds_nonneg (Int.sub_nonneg_of_le le)

theorem timeSub_self (t : Time) : timeSub t t = 0 := by simp [timeSub, maxDuration]

theorem timeSub_pos {s t : Time} (lt : s < t) : 0 < timeSub t s :=
  lt_max_of_lt_right (lt_min (by decide) (Int.sub_pos_of_lt lt))

theorem timeSub_nonneg {s t : Time} (le : s ≤ t) : 0 ≤ timeSub t s :=
  le_max_of_le_right (le_min (by decide) (Int.sub_nonneg_of_le le))

theorem timeSub_le {s t : Time} (le : s ≤ t) : timeSub t s ≤ t - s :=
  max_le (le_trans (by decide) (Int.sub_nonneg_of_le le)) (min_le_right _ _)

/-- Two readings that are close enough are subtracted exactly. -/
theorem timeSub_eq {s t : Time} (le : s ≤ t) (near : t - s ≤ maxDuration) :
    timeSub t s = t - s := by
  rw [timeSub, min_eq_right near, max_eq_right]
  exact le_trans (by decide) (Int.sub_nonneg_of_le le)

theorem seconds_sub_add (s t u : Time) : seconds (t - s) + seconds (u - t) = seconds (u - s) := by
  unfold seconds
  push_cast
  ring

structure Bucket where
  tokens : ℚ
  last : Time
  deriving DecidableEq

structure Limiter where
  buckets : String → Option Bucket := fun _ => none
  capacity : ℚ
  refillPerSec : ℚ

namespace Limiter

def set (l : Limiter) (key : String) (b : Bucket) : Limiter :=
  { l with buckets := Function.update l.buckets key (some b) }

/-- The bucket with the tokens of the time that has passed. -/
def refill (l : Limiter) (now : Time) (b : Bucket) : Bucket :=
  let elapsed := seconds (timeSub now b.last)
  if 0 < elapsed then
    let tokens := b.tokens + elapsed * l.refillPerSec
    { tokens := if l.capacity < tokens then l.capacity else tokens, last := now }
  else b

def allow (key : String) (now : Time) (l : Limiter) : Bool × Limiter :=
  match l.buckets key with
  | none => (true, l.set key ⟨l.capacity - 1, now⟩)
  | some b =>
    let b := l.refill now b
    if b.tokens < 1 then (false, l.set key b)
    else (true, l.set key { b with tokens := b.tokens - 1 })

/-! ## What a bucket holds -/

/-- What the key can spend at `t`, if nothing is spent before. -/
def level (l : Limiter) (key : String) (t : Time) : ℚ :=
  match l.buckets key with
  | none => l.capacity
  | some b => min l.capacity (b.tokens + seconds (timeSub t b.last) * l.refillPerSec)

/-- The state between calls, the last of which was at `now` or before. -/
structure WellFormed (l : Limiter) (now : Time) : Prop where
  capacity : 1 ≤ l.capacity
  refillPerSec : 0 ≤ l.refillPerSec
  nonneg : ∀ key b, l.buckets key = some b → 0 ≤ b.tokens
  full : ∀ key b, l.buckets key = some b → b.tokens ≤ l.capacity
  last : ∀ key b, l.buckets key = some b → b.last ≤ now

variable {l : Limiter} {now : Time}

theorem WellFormed.later {t : Time} (wf : l.WellFormed now) (le : now ≤ t) : l.WellFormed t where
  capacity := wf.capacity
  refillPerSec := wf.refillPerSec
  nonneg := wf.nonneg
  full := wf.full
  last key b held := (wf.last key b held).trans le

theorem level_le_capacity (key : String) (t : Time) : l.level key t ≤ l.capacity := by
  unfold level
  split
  · exact le_rfl
  · exact min_le_left _ _

theorem level_nonneg (wf : l.WellFormed now) (key : String) {t : Time} (le : now ≤ t) :
    0 ≤ l.level key t := by
  have capacity : 0 ≤ l.capacity := zero_le_one.trans wf.capacity
  unfold level
  split
  · exact capacity
  · rename_i b held
    have elapsed := seconds_nonneg (timeSub_nonneg ((wf.last key b held).trans le))
    exact le_min capacity (add_nonneg (wf.nonneg key b held) (mul_nonneg elapsed wf.refillPerSec))

theorem set_level_self (key : String) (b : Bucket) (t : Time) :
    (l.set key b).level key t =
      min l.capacity (b.tokens + seconds (timeSub t b.last) * l.refillPerSec) := by
  simp [level, set]

theorem set_level_of_ne {key key' : String} (ne : key' ≠ key) (b : Bucket) (t : Time) :
    (l.set key b).level key' t = l.level key' t := by
  simp [level, set, Function.update_of_ne ne]

/-- After the refill the bucket holds its level, now. -/
theorem refill_eq (wf : l.WellFormed now) {key : String} {b : Bucket}
    (held : l.buckets key = some b) : l.refill now b = ⟨l.level key now, now⟩ := by
  have shown : l.level key now =
      min l.capacity (b.tokens + seconds (timeSub now b.last) * l.refillPerSec) := by
    simp only [level, held]
  have past := wf.last key b held
  unfold refill
  rw [shown]
  dsimp only
  split
  · rw [min_def]
    split_ifs <;> first | rfl | exact congrArg (Bucket.mk · now) (by linarith)
  · rename_i still
    have same : b.last = now :=
      past.eq_of_not_lt fun lt => still (seconds_pos (timeSub_pos lt))
    have stopped : seconds (timeSub now b.last) = 0 := by
      rw [same, timeSub_self]
      simp [seconds]
    rw [stopped, zero_mul, add_zero, min_eq_right (wf.full key b held), ← same]

/-- What one call does: it is admitted if the level allows, and pays. -/
theorem allow_eq (wf : l.WellFormed now) (key : String) :
    l.allow key now =
      if 1 ≤ l.level key now then (true, l.set key ⟨l.level key now - 1, now⟩)
      else (false, l.set key ⟨l.level key now, now⟩) := by
  unfold allow
  cases held : l.buckets key with
  | none =>
    have shown : l.level key now = l.capacity := by simp only [level, held]
    rw [if_pos (by rw [shown]; exact wf.capacity), shown]
  | some b =>
    simp only [refill_eq wf held]
    by_cases enough : 1 ≤ l.level key now
    · rw [if_neg (not_lt.mpr enough), if_pos enough]
    · rw [if_pos (not_le.mp enough), if_neg enough]

theorem set_cases {key key' : String} {b b' : Bucket}
    (held : (l.set key b').buckets key' = some b) :
    key = key' ∧ b' = b ∨ l.buckets key' = some b := by
  by_cases same : key' = key
  · subst same
    left
    simpa [set] using held
  · right
    simpa [set, Function.update_of_ne same] using held

theorem set_wellFormed (wf : l.WellFormed now) (key : String) {tokens : ℚ} (nonneg : 0 ≤ tokens)
    (full : tokens ≤ l.capacity) : (l.set key ⟨tokens, now⟩).WellFormed now := by
  refine ⟨wf.capacity, wf.refillPerSec, ?_, ?_, ?_⟩
  · intro key' b held
    rcases set_cases held with ⟨_, rfl⟩ | held
    · exact nonneg
    · exact wf.nonneg key' b held
  · intro key' b held
    rcases set_cases held with ⟨_, rfl⟩ | held
    · exact full
    · exact wf.full key' b held
  · intro key' b held
    rcases set_cases held with ⟨_, rfl⟩ | held
    · exact le_rfl
    · exact wf.last key' b held

/-- A bucket dates from the call, or was there before. -/
theorem allow_last (wf : l.WellFormed now) {key key' : String} {b : Bucket}
    (held : (l.allow key now).2.buckets key' = some b) :
    key = key' ∧ b.last = now ∨ l.buckets key' = some b := by
  rw [allow_eq wf] at held
  split at held
  · exact (set_cases held).imp_left fun ⟨same, b⟩ => ⟨same, b ▸ rfl⟩
  · exact (set_cases held).imp_left fun ⟨same, b⟩ => ⟨same, b ▸ rfl⟩

theorem allow_wellFormed (wf : l.WellFormed now) (key : String) :
    (l.allow key now).2.WellFormed now := by
  have full := level_le_capacity (l := l) key now
  rw [allow_eq wf]
  split
  · rename_i enough
    exact set_wellFormed wf key (by linarith) (by linarith)
  · exact set_wellFormed wf key (level_nonneg wf key le_rfl) full

theorem allow_settings (wf : l.WellFormed now) (key : String) :
    (l.allow key now).2.capacity = l.capacity ∧
      (l.allow key now).2.refillPerSec = l.refillPerSec := by
  rw [allow_eq wf]
  split <;> exact ⟨rfl, rfl⟩

/-- What a call leaves the key at a later time. -/
theorem allow_level (wf : l.WellFormed now) (key : String) (t : Time) :
    (l.allow key now).2.level key t = min l.capacity
      (l.level key now - (if (l.allow key now).1 then 1 else 0) +
        seconds (timeSub t now) * l.refillPerSec) := by
  rw [allow_eq wf]
  split
  · simp [set_level_self]
  · simp [set_level_self]

/-- It is no more than what the call left and the time since. -/
theorem allow_level_le (wf : l.WellFormed now) (key : String) {t : Time} (le : now ≤ t) :
    (l.allow key now).2.level key t + (if (l.allow key now).1 then 1 else 0) ≤
      l.level key now + seconds (t - now) * l.refillPerSec := by
  have income : seconds (timeSub t now) * l.refillPerSec ≤ seconds (t - now) * l.refillPerSec :=
    mul_le_mul_of_nonneg_right (seconds_mono (timeSub_le le)) wf.refillPerSec
  rw [allow_level wf]
  linarith [min_le_right l.capacity (l.level key now - (if (l.allow key now).1 then 1 else 0) +
    seconds (timeSub t now) * l.refillPerSec)]

theorem allow_level_of_ne (wf : l.WellFormed now) {key key' : String} (ne : key' ≠ key)
    (t : Time) : (l.allow key now).2.level key' t = l.level key' t := by
  rw [allow_eq wf]
  split <;> exact set_level_of_ne ne _ t

end Limiter

end VaultWatch.Gateway
