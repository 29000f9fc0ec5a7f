import VaultWatch.Gateway.BruteForce
import VaultWatch.Lib.Slices
import VaultWatch.Lib.Run
import Mathlib.Data.List.DropRight
import Mathlib.Data.List.Induction

/-! The failed-login tracker as it is stored: a map of slices, each filtered over its
own array when a failure is recorded. `record_view` and `reset_view` say that it is the
tracker of lists; `recordFailure_exact` says what it counts over a whole run. -/
namespace VaultWatch.Gateway

open VaultWatch.Gateway.Store (Time)
open VaultWatch.Lib.Run
open VaultWatch.Lib.Slices

structure StoredTracker where
  window : Time
  threshold : ℤ
  events : String → Option Slice
  heap : Heap Time

namespace StoredTracker

/-- `NewBruteForceTracker`. -/
def newBruteForceTracker (window : Time) (threshold : ℤ) : StoredTracker where
  window := window
  threshold := threshold
  events := fun _ => none
  heap := ⟨fun _ _ => 0, 1⟩

/-- `b.events[key]`. -/
def slice (b : StoredTracker) (key : String) : Slice := (b.events key).getD Slice.nil

/-- `RecordFailure`. -/
def recordFailure (grow : ℕ → ℕ) (key : String) (now : Time) (b : StoredTracker) :
    (Bool × ℕ) × StoredTracker :=
  let cutoff := now - b.window
  let events := b.slice key
  let kept := keep grow (fun t => cutoff < t) events events.len 0 events.front b.heap
  let kept := append grow kept.1 now kept.2
  let count := kept.1.len
  ((decide (b.threshold ≤ count), count),
    { b with events := Function.update b.events key (some kept.1), heap := kept.2 })

/-- `Reset`. -/
def reset (key : String) (b : StoredTracker) : StoredTracker :=
  { b with events := Function.update b.events key none }

/-! ## The tracker of lists -/

/-- Each key's slice has an array to itself. -/
structure WellFormed (b : StoredTracker) : Prop where
  within : ∀ key s, b.events key = some s → s.len ≤ s.cap
  made : ∀ key s, b.events key = some s → 0 < s.array ∧ s.array < b.heap.next
  apart : ∀ key key' s s', b.events key = some s → b.events key' = some s' →
    s.array = s'.array → key = key'
  next : 0 < b.heap.next

/-- What is stored for each key, with no arrays. -/
def tracker (b : StoredTracker) : BruteForceTracker where
  window := b.window
  threshold := b.threshold.toNat
  events key := b.heap.elements (b.slice key)

variable {b : StoredTracker}

theorem newBruteForceTracker_wellFormed (window : Time) (threshold : ℤ) :
    (newBruteForceTracker window threshold).WellFormed := by
  refine ⟨?_, ?_, ?_, Nat.one_pos⟩ <;> simp [newBruteForceTracker]

theorem WellFormed.slice_within (wf : b.WellFormed) (key : String) :
    (b.slice key).len ≤ (b.slice key).cap := by
  unfold slice
  cases held : b.events key with
  | none => exact le_rfl
  | some s => exact wf.within key s held

theorem WellFormed.slice_made (wf : b.WellFormed) (key : String) :
    (b.slice key).array < b.heap.next := by
  unfold slice
  cases held : b.events key with
  | none => exact wf.next
  | some s => exact (wf.made key s held).2

theorem WellFormed.slice_apart (wf : b.WellFormed) {key key' : String} {s : Slice}
    (held : b.events key' = some s) (ne : key' ≠ key) : s.array ≠ (b.slice key).array := by
  unfold slice
  cases own : b.events key with
  | none => exact Nat.ne_of_gt (wf.made key' s held).1
  | some s' => exact fun same => ne (wf.apart key' key s s' held own same)

/-- The slice of a failure's key, filtered and appended to: what it holds, whose array
it is in, and that no other slice's array was written to. -/
theorem WellFormed.kept (wf : b.WellFormed) (grow : ℕ → ℕ) (key : String) (now : Time) :
    ∃ s heap, b.recordFailure grow key now = ((decide (b.threshold ≤ s.len), s.len),
        { b with events := Function.update b.events key (some s), heap }) ∧
      heap.elements s = ((b.heap.elements (b.slice key)).filter fun t => now - b.window < t) ++
        [now] ∧
      s.len ≤ s.cap ∧ 0 < s.array ∧ s.array < heap.next ∧ b.heap.next ≤ heap.next ∧
      ∀ key' s', b.events key' = some s' → key' ≠ key →
        s'.array ≠ s.array ∧ heap.cells s'.array = b.heap.cells s'.array := by
  obtain ⟨⟨array, cap, len⟩, next, others, elements⟩ := keep_front grow b.heap
    (fun t => decide (now - b.window < t)) (wf.slice_within key)
  set kept := keep grow (fun t => decide (now - b.window < t)) (b.slice key) (b.slice key).len 0
    (b.slice key).front b.heap
  refine ⟨_, _, rfl, ?_, append_within grow now kept.2 kept.1, ?_⟩
  · rw [append_elements, elements]
  · have own : ∀ key' s', b.events key' = some s' → key' ≠ key →
        s'.array ≠ (b.slice key).array ∧ s'.array < kept.2.next := by
      intro key' s' held ne
      exact ⟨wf.slice_apart held ne, by rw [next]; exact (wf.made key' s' held).2⟩
    have same : ∀ key' s', b.events key' = some s' → key' ≠ key →
        (append grow kept.1 now kept.2).2.cells s'.array = b.heap.cells s'.array := by
      intro key' s' held ne
      have ne' : s'.array ≠ kept.1.array := by
        rw [array]
        exact (own key' s' held ne).1
      rw [append_other grow now kept.2 (own key' s' held ne).2 ne']
      exact others _ (own key' s' held ne).1
    rcases append_array grow now kept.2 kept.1 with ⟨at', room, next'⟩ | ⟨at', next'⟩
    · -- In place: there was room, so the slice is not the one of no array.
      have some_array : 0 < (b.slice key).array := by
        cases held : b.events key with
        | none =>
          have empty : (b.slice key).cap = 0 := by simp [slice, held, Slice.nil]
          omega
        | some s =>
          rw [slice, held]
          exact (wf.made key s held).1
      refine ⟨by rw [at', array]; exact some_array, ?_, by rw [next', next], ?_⟩
      · rw [at', array, next', next]
        exact wf.slice_made key
      · intro key' s' held ne
        exact ⟨by rw [at', array]; exact (own key' s' held ne).1, same key' s' held ne⟩
    · refine ⟨by rw [at', next]; exact wf.next, by rw [at', next']; exact Nat.lt_succ_self _,
        by rw [next', next]; exact Nat.le_succ _, ?_⟩
      intro key' s' held ne
      exact ⟨by rw [at']; exact Nat.ne_of_lt (own key' s' held ne).2, same key' s' held ne⟩

theorem elements_other {heap : Heap Time} {s : Slice}
    (same : heap.cells s.array = b.heap.cells s.array) : heap.elements s = b.heap.elements s :=
  elements_congr fun i _ => congrFun same i

theorem elements_length (heap : Heap Time) (s : Slice) : (heap.elements s).length = s.len := by
  simp [Heap.elements]

/-- A failure recorded on the slices is one recorded on the lists. -/
theorem WellFormed.record_view (wf : b.WellFormed) (grow : ℕ → ℕ) (key : String) (now : Time) :
    (b.recordFailure grow key now).1 = (b.tracker.recordFailure key now).1 ∧
      (b.recordFailure grow key now).2.tracker = (b.tracker.recordFailure key now).2 := by
  obtain ⟨s, heap, done, elements, -, -, -, -, others⟩ := wf.kept grow key now
  have count := congrArg List.length elements
  rw [elements_length] at count
  rw [done]
  constructor
  · have shown : (b.tracker.recordFailure key now).1 =
        (decide (b.threshold.toNat ≤ s.len), s.len) := by
      rw [count]
      rfl
    rw [shown, decide_eq_decide.mpr Int.toNat_le]
  · refine congrArg (BruteForceTracker.mk b.window b.threshold.toNat) (funext fun key' => ?_)
    by_cases same : key' = key
    · subst same
      rw [Function.update_self]
      refine Eq.trans ?_ elements
      simp [slice]
    · rw [Function.update_of_ne same]
      cases held : b.events key' with
      | none => simp [slice, same, held, Slice.nil, tracker, Heap.elements]
      | some s' =>
        simpa [slice, same, held, tracker] using elements_other (others key' s' held same).2

theorem WellFormed.record (wf : b.WellFormed) (grow : ℕ → ℕ) (key : String) (now : Time) :
    (b.recordFailure grow key now).2.WellFormed := by
  obtain ⟨s, heap, done, -, within, some_array, made, later, others⟩ := wf.kept grow key now
  rw [done]
  have cases : ∀ key' s', Function.update b.events key (some s) key' = some s' →
      key' = key ∧ s' = s ∨ key' ≠ key ∧ b.events key' = some s' := by
    intro key' s' held
    by_cases same : key' = key
    · subst same
      rw [Function.update_self] at held
      exact .inl ⟨rfl, (Option.some.inj held).symm⟩
    · rw [Function.update_of_ne same] at held
      exact .inr ⟨same, held⟩
  refine ⟨?_, ?_, ?_, Nat.zero_lt_of_lt made⟩
  · intro key' s' held
    rcases cases key' s' held with ⟨-, rfl⟩ | ⟨-, held⟩
    · exact within
    · exact wf.within key' s' held
  · intro key' s' held
    rcases cases key' s' held with ⟨-, rfl⟩ | ⟨-, held⟩
    · exact ⟨some_array, made⟩
    · exact ⟨(wf.made key' s' held).1, (wf.made key' s' held).2.trans_le later⟩
  · intro key₁ key₂ s₁ s₂ held₁ held₂ same
    rcases cases key₁ s₁ held₁ with ⟨own₁, at₁⟩ | ⟨ne₁, kept₁⟩
    · rcases cases key₂ s₂ held₂ with ⟨own₂, -⟩ | ⟨ne₂, kept₂⟩
      · exact own₁.trans own₂.symm
      · exact absurd (at₁ ▸ same.symm) (others key₂ s₂ kept₂ ne₂).1
    · rcases cases key₂ s₂ held₂ with ⟨-, at₂⟩ | ⟨ne₂, kept₂⟩
      · exact absurd (at₂ ▸ same) (others key₁ s₁ kept₁ ne₁).1
      · exact wf.apart key₁ key₂ s₁ s₂ kept₁ kept₂ same

theorem reset_view (key : String) (b : StoredTracker) :
    (b.reset key).tracker = b.tracker.reset key := by
  refine congrArg (BruteForceTracker.mk b.window b.threshold.toNat) (funext fun key' => ?_)
  by_cases same : key' = key
  · subst same
    simp [slice, reset, Slice.nil, Heap.elements]
  · simp [slice, reset, same, tracker]

theorem WellFormed.reset (wf : b.WellFormed) (key : String) : (b.reset key).WellFormed := by
  have held : ∀ key' s, (b.reset key).events key' = some s → b.events key' = some s := by
    intro key' s held
    by_cases same : key' = key
    · subst same
      simp [StoredTracker.reset] at held
    · simpa [StoredTracker.reset, same] using held
  exact ⟨fun key' s h => wf.within key' s (held key' s h),
    fun key' s h => wf.made key' s (held key' s h),
    fun key₁ key₂ s₁ s₂ h₁ h₂ => wf.apart key₁ key₂ s₁ s₂ (held key₁ s₁ h₁) (held key₂ s₂ h₂),
    wf.next⟩

end StoredTracker

/-! ## Runs -/

inductive TrackerCall where
  | recordFailure (key : String) (now : Time)
  | reset (key : String)
  deriving DecidableEq

namespace TrackerCall

def key : TrackerCall → String
  | recordFailure key _ => key
  | reset key => key

/-- The reading of the clock; `Reset` makes none. -/
def now? : TrackerCall → Option Time
  | recordFailure _ now => some now
  | reset _ => none

/-- The time of a failure recorded for the key. -/
def failure? (key : String) : TrackerCall → Option Time
  | recordFailure key' now => if key' = key then some now else none
  | reset _ => none

end TrackerCall

open TrackerCall

/-- The clock as the calls read it. -/
def ClockedCalls (calls : List TrackerCall) : Prop :=
  (calls.filterMap now?).Pairwise fun s t => s ≤ t

instance (calls : List TrackerCall) : Decidable (ClockedCalls calls) :=
  inferInstanceAs (Decidable ((calls.filterMap now?).Pairwise fun s t => s ≤ t))

/-- The failures recorded for the key since it was last reset. -/
def sinceReset (key : String) (calls : List TrackerCall) : List Time :=
  (calls.rtakeWhile fun c => c ≠ .reset key).filterMap (failure? key)

theorem sinceReset_reset (key : String) (calls : List TrackerCall) :
    sinceReset key (calls ++ [.reset key]) = [] := by
  simp [sinceReset]

theorem sinceReset_failure (key : String) (now : Time) (calls : List TrackerCall) :
    sinceReset key (calls ++ [.recordFailure key now]) = sinceReset key calls ++ [now] := by
  simp [sinceReset, failure?]

theorem sinceReset_other {key : String} {c : TrackerCall} (ne : key ≠ c.key)
    (calls : List TrackerCall) : sinceReset key (calls ++ [c]) = sinceReset key calls := by
  cases c with
  | recordFailure key' now =>
    have other : key' ≠ key := ne.symm
    simp [sinceReset, failure?, other]
  | reset key' =>
    have other : key' ≠ key := ne.symm
    simp [sinceReset, failure?, other]

namespace StoredTracker

def apply (grow : ℕ → ℕ) (b : StoredTracker) : TrackerCall → StoredTracker
  | .recordFailure key now => (b.recordFailure grow key now).2
  | .reset key => b.reset key

/-- The tracker after the calls. -/
def after (grow : ℕ → ℕ) (b : StoredTracker) (calls : List TrackerCall) : StoredTracker :=
  run (apply grow) b calls

theorem after_wellFormed (grow : ℕ → ℕ) {b : StoredTracker} (wf : b.WellFormed)
    (calls : List TrackerCall) : (b.after grow calls).WellFormed := by
  refine Lib.Run.invariant (fun b c wf => ?_) calls wf
  cases c with
  | recordFailure key now => exact wf.record grow key now
  | reset key => exact wf.reset key

theorem after_append (grow : ℕ → ℕ) (b : StoredTracker) (calls : List TrackerCall)
    (c : TrackerCall) : b.after grow (calls ++ [c]) = (b.after grow calls).apply grow c := by
  simp [after, run_append]

theorem apply_settings (grow : ℕ → ℕ) (b : StoredTracker) (c : TrackerCall) :
    (b.apply grow c).window = b.window ∧ (b.apply grow c).threshold = b.threshold := by
  cases c <;> exact ⟨rfl, rfl⟩

theorem after_settings (grow : ℕ → ℕ) (b : StoredTracker) (calls : List TrackerCall) :
    (b.after grow calls).window = b.window ∧ (b.after grow calls).threshold = b.threshold := by
  let Same (s : StoredTracker) := s.window = b.window ∧ s.threshold = b.threshold
  refine Lib.Run.invariant (I := Same) (fun s c same => ?_) calls ⟨rfl, rfl⟩
  obtain ⟨window, threshold⟩ := apply_settings grow s c
  exact ⟨window.trans same.1, threshold.trans same.2⟩

/-- A call for another key leaves what is stored for this one. -/
theorem apply_other (grow : ℕ → ℕ) {b : StoredTracker} (wf : b.WellFormed) {c : TrackerCall}
    {key : String} (ne : key ≠ c.key) :
    (b.apply grow c).tracker.events key = b.tracker.events key := by
  cases c with
  | recordFailure key' now =>
    rw [apply, (wf.record_view grow key' now).2]
    exact Function.update_of_ne ne _ _
  | reset key' =>
    rw [apply, reset_view]
    exact Function.update_of_ne ne _ _

/-- Of the failures since the reset, the window of the present holds what is stored: a
failure that was pruned had left the window by then, and the clock does not go back. -/
theorem after_recent (grow : ℕ → ℕ) {b : StoredTracker} (wf : b.WellFormed)
    (empty : ∀ key, b.tracker.events key = []) (key : String) {calls : List TrackerCall}
    (clocked : ClockedCalls calls) {now : Time} (latest : ∀ t ∈ calls.filterMap now?, t ≤ now) :
    ((b.after grow calls).tracker.events key).filter (fun t => now - b.window < t) =
      (sinceReset key calls).filter fun t => now - b.window < t := by
  induction calls using List.reverseRecOn with
  | nil => exact congrArg (List.filter _) (empty key)
  | append_singleton calls c ih =>
    have own := after_wellFormed grow wf calls
    rw [ClockedCalls, List.filterMap_append, List.pairwise_append] at clocked
    have past := ih clocked.1 fun t mem => latest t (by simp [List.filterMap_append, mem])
    rw [after_append]
    by_cases mine : key = c.key
    · subst mine
      cases c with
      | recordFailure key t =>
        rw [show (TrackerCall.recordFailure key t).key = key from rfl] at past ⊢
        have since : t - b.window ≤ now - b.window :=
          Int.sub_le_sub_right (latest t (by simp [now?])) _
        have pruned (events : List Time) :
            (events.filter fun u => t - b.window < u).filter (fun u => now - b.window < u) =
              events.filter fun u => now - b.window < u := by
          rw [List.filter_filter]
          refine List.filter_congr fun u _ => ?_
          by_cases recent : now - b.window < u
          · simp [recent, since.trans_lt recent]
          · simp [recent]
        have held : ((b.after grow calls).apply grow (.recordFailure key t)).tracker.events key =
            (((b.after grow calls).tracker.events key).filter fun u => t - b.window < u) ++
              [t] := by
          rw [apply, (own.record_view grow key t).2, ← (after_settings grow b calls).1]
          exact Function.update_self ..
        rw [held, sinceReset_failure, List.filter_append, List.filter_append, pruned, past]
      | reset key =>
        rw [show (TrackerCall.reset key).key = key from rfl, sinceReset_reset, apply, reset_view]
        exact congrArg (List.filter _) (Function.update_self ..)
    · rw [apply_other grow own mine, sinceReset_other mine, past]

/-- The tracker counts exactly: a failure at `now` is answered with the number of
failures of its key since the last reset, itself included, that are later than
`now - window`, and with whether that reaches the threshold; and a call for one key
leaves what is stored for every other. -/
theorem recordFailure_exact (grow : ℕ → ℕ) {window : Time} (positive : 0 < window) (threshold : ℤ)
    {calls : List TrackerCall} (clocked : ClockedCalls calls) :
    (∀ before key now later, calls = before ++ .recordFailure key now :: later →
      (((newBruteForceTracker window threshold).after grow before).recordFailure grow key now).1 =
        let count := ((sinceReset key (before ++ [.recordFailure key now])).filter fun t =>
          now - window < t).length
        (decide (threshold ≤ count), count)) ∧
    ∀ before c later, calls = before ++ c :: later → ∀ key ≠ c.key,
      ((newBruteForceTracker window threshold).after grow (before ++ [c])).tracker.events key =
        ((newBruteForceTracker window threshold).after grow before).tracker.events key := by
  have wf := newBruteForceTracker_wellFormed window threshold
  constructor
  · rintro before key now later rfl
    have own := after_wellFormed grow wf before
    obtain ⟨sets_window, sets_threshold⟩ :=
      after_settings grow (newBruteForceTracker window threshold) before
    rw [ClockedCalls, List.filterMap_append, List.pairwise_append] at clocked
    have past := after_recent grow wf (fun _ => rfl) key clocked.1
      (show ∀ t ∈ before.filterMap now?, t ≤ now from
        fun t mem => clocked.2.2 t mem now (by simp [now?]))
    obtain ⟨s, heap, done, elements, -⟩ := own.kept grow key now
    have count := congrArg List.length elements
    rw [elements_length, sets_window] at count
    have current : now - window < now := Int.sub_lt_self now positive
    have counted : s.len = ((sinceReset key (before ++ [.recordFailure key now])).filter fun t =>
        now - window < t).length := by
      rw [count, sinceReset_failure, List.filter_append, List.length_append, List.length_append]
      refine congrArg₂ _ (congrArg List.length past) ?_
      simp [current]
    rw [done, sets_threshold, ← counted]
    rfl
  · rintro before c later - key ne
    rw [after_append]
    exact apply_other grow (after_wellFormed grow wf before) ne

/-- Two failures of one key within the window of five, one of another key between them. -/
theorem recordFailure_exact_twice :
    ClockedCalls [.recordFailure "a" 1, .recordFailure "b" 2, .recordFailure "a" 3] ∧
      (((newBruteForceTracker 5 2).after (2 * ·)
        [.recordFailure "a" 1, .recordFailure "b" 2]).recordFailure (2 * ·) "a" 3).1 = (true, 2) :=
  ⟨by decide, (@recordFailure_exact (2 * ·) 5 (by decide) 2
    [.recordFailure "a" 1, .recordFailure "b" 2, .recordFailure "a" 3] (by decide)).1
      [.recordFailure "a" 1, .recordFailure "b" 2] "a" 3 [] rfl⟩

end StoredTracker

end VaultWatch.Gateway
