import VaultWatch.Gateway.RateLimit
import VaultWatch.Lib.Budget
import VaultWatch.Lib.Run
import Mathlib.Data.List.Induction

/-! What the limiter grants, over a whole history. A bucket keeps one level and the
time of its last refill; `after_level` ties that level to every window of the calls so
far, so that a call is admitted exactly when no window would exceed its budget, as long
as the clock readings are a `time.Duration` apart. -/
namespace VaultWatch.Gateway

open VaultWatch.Gateway.Store (Time)
open VaultWatch.Lib.Run
open VaultWatch.Lib.Budget

/-- One call of `Allow`, with the reading of the clock it makes. -/
structure AllowCall where
  key : String
  now : Time
  deriving DecidableEq

theorem seconds_sub (t s : Time) : seconds (t - s) = seconds t - seconds s := by
  unfold seconds
  push_cast
  ring

namespace Limiter

/-- `NewLimiter`. -/
def newLimiter (capacity refillPerSec : ℚ) : Limiter := { capacity, refillPerSec }

/-- The limiter after the calls. -/
def after (l : Limiter) (calls : List AllowCall) : Limiter :=
  run (fun l c => (l.allow c.key c.now).2) l calls

/-- The calls with what each returned. -/
def log (l : Limiter) : List AllowCall → List (AllowCall × Bool)
  | [] => []
  | c :: calls => (c, (l.allow c.key c.now).1) :: (l.allow c.key c.now).2.log calls

/-- How many calls for the key were admitted from the `i`-th to before the `j`-th. -/
def admitted (log : List (AllowCall × Bool)) (key : String) (i j : ℕ) : ℕ :=
  ((log.take j).drop i).countP fun e => decide (e.1.key = key) && e.2

/-- The clock as the calls read it. -/
def Clocked (calls : List AllowCall) : Prop := calls.Pairwise fun c d => c.now ≤ d.now

instance (calls : List AllowCall) : Decidable (Clocked calls) :=
  inferInstanceAs (Decidable (calls.Pairwise fun c d => c.now ≤ d.now))

/-- The readings of the key's calls are a `time.Duration` before `now`. -/
def Recent (calls : List AllowCall) (key : String) (now : Time) : Prop :=
  ∀ c ∈ calls, c.key = key → now - c.now ≤ maxDuration

/-- The readings of two calls for one key are a `time.Duration` apart. -/
def Near (calls : List AllowCall) : Prop :=
  calls.Pairwise fun c d => c.key = d.key → d.now - c.now ≤ maxDuration

instance (calls : List AllowCall) : Decidable (Near calls) :=
  inferInstanceAs (Decidable (calls.Pairwise fun c d =>
    c.key = d.key → d.now - c.now ≤ maxDuration))

/-! ## The log of a run -/

section Log

variable (l : Limiter)

theorem log_append (calls later : List AllowCall) :
    l.log (calls ++ later) = l.log calls ++ (l.after calls).log later := by
  induction calls generalizing l with
  | nil => rfl
  | cons c calls ih => exact congrArg (_ :: ·) (ih _)

theorem log_calls (calls : List AllowCall) : (l.log calls).map Prod.fst = calls := by
  induction calls generalizing l with
  | nil => rfl
  | cons c calls ih => exact congrArg (c :: ·) (ih _)

theorem log_take (calls : List AllowCall) (j : ℕ) :
    (l.log calls).take j = l.log (calls.take j) := by
  induction calls generalizing l j with
  | nil => simp [log]
  | cons c calls ih =>
    cases j with
    | zero => rfl
    | succ j => exact congrArg (_ :: ·) (ih _ _)

/-- An entry is a call with what the limiter returned after the calls before. -/
theorem log_entry (calls : List AllowCall) (j : ℕ) : (l.log calls)[j]? =
    calls[j]?.map fun c => (c, ((l.after (calls.take j)).allow c.key c.now).1) := by
  induction calls generalizing l j with
  | nil => simp [log]
  | cons c calls ih =>
    cases j with
    | zero => rfl
    | succ j => exact ih (l.allow c.key c.now).2 j

end Log

/-! ## The level is what every window leaves -/

/-- The windows of a key: each call for it opens one, and each admission costs one. -/
def meter (l : Limiter) (key : String) : Meter (AllowCall × Bool) ℚ where
  capacity := l.capacity
  rate := l.refillPerSec
  opens e := e.1.key = key
  time e := seconds e.1.now
  cost e := if e.1.key = key ∧ e.2 = true then 1 else 0

theorem meter_total (l : Limiter) (key : String) (events : List (AllowCall × Bool)) :
    (l.meter key).total events =
      (events.countP fun e => decide (e.1.key = key) && e.2 : ℕ) := by
  induction events with
  | nil => rfl
  | cons e events ih =>
    have split : (l.meter key).total (e :: events) =
        (l.meter key).cost e + (l.meter key).total events := by simp [Meter.total]
    rw [split, ih, List.countP_cons]
    by_cases counted : e.1.key = key ∧ e.2 = true
    · simp [meter, counted, add_comm]
    · simp [meter, counted]

variable {l : Limiter} {now : Time}

theorem allow_answer (wf : l.WellFormed now) (key : String) :
    (l.allow key now).1 = true ↔ 1 ≤ l.level key now := by
  rw [allow_eq wf]
  split <;> simp_all

theorem after_append (l : Limiter) (calls : List AllowCall) (c : AllowCall) :
    l.after (calls ++ [c]) = ((l.after calls).allow c.key c.now).2 := by
  simp [after, run_append]

theorem newLimiter_wellFormed {capacity refillPerSec : ℚ} (whole : 1 ≤ capacity)
    (refills : 0 ≤ refillPerSec) (now : Time) :
    (newLimiter capacity refillPerSec).WellFormed now := by
  refine ⟨whole, refills, ?_, ?_, ?_⟩ <;> simp [newLimiter]

theorem Clocked.split {earlier later : List AllowCall} {c : AllowCall}
    (clocked : Clocked (earlier ++ c :: later)) :
    Clocked earlier ∧ (∀ d ∈ earlier, d.now ≤ c.now) ∧ Clocked later ∧
      ∀ d ∈ later, c.now ≤ d.now := by
  obtain ⟨first, rest, across⟩ := List.pairwise_append.mp clocked
  obtain ⟨next, last⟩ := List.pairwise_cons.mp rest
  exact ⟨first, fun d mem => across d mem c (by simp), last, next⟩

theorem Near.split {earlier later : List AllowCall} {c : AllowCall}
    (near : Near (earlier ++ c :: later)) :
    Near earlier ∧ Recent earlier c.key c.now ∧
      ∀ d ∈ later, Recent earlier d.key d.now := by
  obtain ⟨first, _, across⟩ := List.pairwise_append.mp near
  exact ⟨first, fun d mem => across d mem c (.head _),
    fun e later d mem => across d mem e (.tail _ later)⟩

/-- The run keeps the buckets well formed, and its settings. -/
theorem after_wellFormed (wf : ∀ t, l.WellFormed t) {calls : List AllowCall}
    (clocked : Clocked calls) (latest : ∀ c ∈ calls, c.now ≤ now) :
    (l.after calls).WellFormed now ∧ (l.after calls).capacity = l.capacity ∧
      (l.after calls).refillPerSec = l.refillPerSec := by
  induction calls using List.reverseRecOn generalizing now with
  | nil => exact ⟨wf now, rfl, rfl⟩
  | append_singleton calls c ih =>
    obtain ⟨earlier, before, -, -⟩ := clocked.split
    obtain ⟨own, capacity, rate⟩ := ih earlier before
    obtain ⟨capacity', rate'⟩ := allow_settings own c.key
    rw [after_append]
    exact ⟨(allow_wellFormed own c.key).later (latest c (by simp)), capacity'.trans capacity,
      rate'.trans rate⟩

/-- A limiter that has not been called holds its capacity for every key. -/
def Fresh (l : Limiter) : Prop := ∀ key t, l.level key t = l.capacity

/-- What a key can spend fits in all its windows, and what fits it can spend as long as
the readings are near. By induction on the calls, the last one taken off: a call for the
key opens a window, any other changes nothing. -/
theorem after_level (wf : ∀ t, l.WellFormed t) (fresh : l.Fresh) {calls : List AllowCall}
    (clocked : Clocked calls) (latest : ∀ c ∈ calls, c.now ≤ now) (key : String) (x : ℚ) :
    (x ≤ (l.after calls).level key now →
      (l.meter key).Fits (l.log calls) (seconds now) x) ∧
    (Near calls → Recent calls key now →
      (l.meter key).Fits (l.log calls) (seconds now) x → x ≤ (l.after calls).level key now) := by
  induction calls using List.reverseRecOn generalizing now x with
  | nil =>
    rw [log, Meter.fits_nil, show (l.after []).level key now = l.capacity from fresh key now]
    exact ⟨id, fun _ _ => id⟩
  | append_singleton calls c ih =>
    obtain ⟨earlier, before, -, -⟩ := clocked.split
    obtain ⟨own, capacity, rate⟩ := after_wellFormed wf earlier before
    rw [after_append, log_append]
    by_cases mine : c.key = key
    · subst mine
      have cost : (l.meter c.key).cost (c, ((l.after calls).allow c.key c.now).1) =
          if ((l.after calls).allow c.key c.now).1 = true then 1 else 0 := by simp [meter]
      have past := ih earlier before
        (x + (l.meter c.key).cost (c, ((l.after calls).allow c.key c.now).1) -
          l.refillPerSec * (seconds now - seconds c.now))
      have le : c.now ≤ now := latest c (by simp)
      rw [show (l.after calls).log [c] = [(c, ((l.after calls).allow c.key c.now).1)] from rfl,
        Meter.fits_append_opens _ rfl, allow_level own, le_min_iff, capacity, rate]
      rw [cost] at past ⊢
      constructor
      · rintro ⟨full, left⟩
        have income : seconds (timeSub now c.now) * l.refillPerSec ≤
            (seconds now - seconds c.now) * l.refillPerSec := by
          rw [← seconds_sub, ← rate]
          exact mul_le_mul_of_nonneg_right (seconds_mono (timeSub_le le)) own.refillPerSec
        exact ⟨full, past.1 (by linarith)⟩
      · rintro near recent ⟨full, fits⟩
        rw [timeSub_eq le (recent c (by simp) rfl), seconds_sub]
        have left := past.2 near.split.1 near.split.2.1 fits
        exact ⟨full, by linarith⟩
    · have other : ¬ (l.meter key).opens (c, ((l.after calls).allow c.key c.now).1) := mine
      rw [show (l.after calls).log [c] = [(c, ((l.after calls).allow c.key c.now).1)] from rfl,
        Meter.fits_append_other _ other (by simp [meter, mine]),
        allow_level_of_ne own (Ne.symm mine)]
      have past := ih earlier (fun d mem => latest d (by simp [mem])) x
      exact ⟨past.1, fun near recent =>
        past.2 near.split.1 fun d mem => recent d (by simp [mem])⟩

/-- A bucket dates from a call for its key. -/
theorem after_last (wf : ∀ t, l.WellFormed t) (unused : ∀ key, l.buckets key = none)
    {calls : List AllowCall} (clocked : Clocked calls) {key : String} {b : Bucket}
    (held : (l.after calls).buckets key = some b) :
    ∃ c ∈ calls, c.key = key ∧ b.last = c.now := by
  induction calls using List.reverseRecOn with
  | nil =>
    rw [show (l.after []).buckets key = none from unused key] at held
    cases held
  | append_singleton calls c ih =>
    obtain ⟨earlier, before, -, -⟩ := clocked.split
    have own := (after_wellFormed wf earlier before).1
    rw [after_append] at held
    rcases allow_last own held with ⟨same, last⟩ | held
    · exact ⟨c, by simp, same, last⟩
    · obtain ⟨d, mem, known⟩ := ih earlier held
      exact ⟨d, by simp [mem], known⟩

/-! ## Two limiters that answer alike -/

/-- The same settings, and the same levels for the keys at the times in question. -/
structure Alike (asked : String → Time → Prop) (now : Time) (l l' : Limiter) : Prop where
  capacity : l.capacity = l'.capacity
  refillPerSec : l.refillPerSec = l'.refillPerSec
  level : ∀ key t, asked key t → now ≤ t → l.level key t = l'.level key t

variable {asked : String → Time → Prop} {l' : Limiter}

theorem Alike.answer (alike : Alike asked now l l') (wf : l.WellFormed now)
    (wf' : l'.WellFormed now) {key : String} (own : asked key now) :
    (l.allow key now).1 = (l'.allow key now).1 := by
  rw [Bool.eq_iff_iff, allow_answer wf, allow_answer wf', alike.level key now own le_rfl]

theorem Alike.allow (alike : Alike asked now l l') (wf : l.WellFormed now)
    (wf' : l'.WellFormed now) {key : String} (own : asked key now) :
    Alike asked now (l.allow key now).2 (l'.allow key now).2 := by
  refine ⟨?_, ?_, fun key' t own' le => ?_⟩
  · rw [(allow_settings wf key).1, (allow_settings wf' key).1, alike.capacity]
  · rw [(allow_settings wf key).2, (allow_settings wf' key).2, alike.refillPerSec]
  · by_cases same : key' = key
    · subst same
      rw [allow_level wf, allow_level wf', alike.answer wf wf' own, alike.capacity,
        alike.refillPerSec, alike.level key' now own le_rfl]
    · rw [allow_level_of_ne wf same, allow_level_of_ne wf' same, alike.level key' t own' le]

/-- What has come in since tops the level up, to the capacity at most. -/
theorem level_later (wf : l.WellFormed now) (key : String) {t : Time} (le : now ≤ t)
    (near : ∀ b, l.buckets key = some b → t - b.last ≤ maxDuration) :
    l.level key t =
      min l.capacity (l.level key now + seconds (timeSub t now) * l.refillPerSec) := by
  have income : 0 ≤ seconds (timeSub t now) * l.refillPerSec :=
    mul_nonneg (seconds_nonneg (timeSub_nonneg le)) wf.refillPerSec
  unfold level
  split
  · rw [min_eq_left (by linarith)]
  · rename_i b held
    have past := wf.last key b held
    have close := near b held
    have elapsed := seconds_sub_add b.last now t
    rw [min_add, ← min_assoc, min_eq_left (show l.capacity ≤ l.capacity + _ by linarith),
      timeSub_eq (past.trans le) close, timeSub_eq past ((Int.sub_le_sub_right le _).trans close),
      timeSub_eq le ((Int.sub_le_sub_left past _).trans close), ← elapsed]
    congr 1
    ring

/-- A call that is refused leaves every key what it had. -/
theorem denied_alike (wf : l.WellFormed now) {key : String}
    (denied : (l.allow key now).1 = false)
    (near : ∀ t, asked key t → ∀ b, l.buckets key = some b → t - b.last ≤ maxDuration) :
    Alike asked now (l.allow key now).2 l := by
  refine ⟨(allow_settings wf key).1, (allow_settings wf key).2, fun key' t own le => ?_⟩
  by_cases same : key' = key
  · subst same
    rw [allow_level wf, denied, level_later wf key' le (near t own)]
    simp
  · exact allow_level_of_ne wf same t

/-- A call for another key leaves these keys what they had. -/
theorem other_alike (wf : l.WellFormed now) {key : String} (other : ∀ t, ¬ asked key t) :
    Alike asked now (l.allow key now).2 l := by
  refine ⟨(allow_settings wf key).1, (allow_settings wf key).2, fun key' t own _ => ?_⟩
  have ne : key' ≠ key := by
    rintro rfl
    exact other t own
  exact allow_level_of_ne wf ne t

theorem Alike.later {t : Time} (alike : Alike asked now l l') (le : now ≤ t) :
    Alike asked t l l' :=
  ⟨alike.capacity, alike.refillPerSec,
    fun key u own later => alike.level key u own (le.trans later)⟩

theorem Alike.trans {l'' : Limiter} (alike : Alike asked now l l') (next : Alike asked now l' l'') :
    Alike asked now l l'' :=
  ⟨alike.capacity.trans next.capacity, alike.refillPerSec.trans next.refillPerSec,
    fun key t own le => (alike.level key t own le).trans (next.level key t own le)⟩

/-- Limiters that are alike for some keys answer the calls for those keys alike, whatever
calls for other keys only the first of them gets. -/
theorem Alike.log (keys : String → Prop) [DecidablePred keys] (alike : Alike asked now l l')
    (wf : l.WellFormed now) (wf' : l'.WellFormed now) (only : ∀ key t, asked key t → keys key)
    {calls : List AllowCall} (clocked : Clocked calls) (later : ∀ c ∈ calls, now ≤ c.now)
    (own : ∀ c ∈ calls, keys c.key → asked c.key c.now) :
    (l.log calls).filter (fun e => keys e.1.key) =
      l'.log (calls.filter fun c => keys c.key) := by
  induction calls generalizing l l' now with
  | nil => rfl
  | cons c calls ih =>
    obtain ⟨next, rest⟩ := List.pairwise_cons.mp clocked
    have here := alike.later (later c (by simp))
    have reached := wf.later (later c (by simp))
    have reached' := wf'.later (later c (by simp))
    have owned : ∀ d ∈ calls, keys d.key → asked d.key d.now := fun d mem => own d (.tail _ mem)
    by_cases mine : keys c.key
    · have asks := own c (.head _) mine
      have step := ih (here.allow reached reached' asks) (allow_wellFormed reached c.key)
        (allow_wellFormed reached' c.key) rest next owned
      simp [Limiter.log, mine, here.answer reached reached' asks, step]
    · have unasked : ∀ t, ¬ asked c.key t := fun t asks => mine (only c.key t asks)
      have step := ih ((other_alike reached unasked).trans here) (allow_wellFormed reached c.key)
        reached' rest next owned
      simp [Limiter.log, mine, step]

/-! ## The law -/

theorem newLimiter_fresh (capacity refillPerSec : ℚ) : (newLimiter capacity refillPerSec).Fresh :=
  fun _ _ => rfl

theorem Clocked.start {calls : List AllowCall} (clocked : Clocked calls) :
    ∃ now, ∀ c ∈ calls, now ≤ c.now := by
  cases calls with
  | nil => exact ⟨0, by simp⟩
  | cons c calls =>
    refine ⟨c.now, fun d mem => ?_⟩
    rcases List.mem_cons.mp mem with rfl | mem
    · exact le_rfl
    · exact (List.pairwise_cons.mp clocked).1 d mem

theorem meter_fits (l : Limiter) (key : String) (past : List (AllowCall × Bool)) (t x : ℚ) :
    (l.meter key).Fits past t x ↔ x ≤ l.capacity ∧ ∀ i e, past[i]? = some e → e.1.key = key →
      ((past.drop i).countP fun e => decide (e.1.key = key) && e.2 : ℕ) + x ≤
        l.capacity + l.refillPerSec * (t - seconds e.1.now) := by
  unfold Meter.Fits
  simp only [meter_total]
  exact Iff.rfl

/-- The windows of the log, by the calls that open them. -/
theorem fits_log (l : Limiter) (key : String) (calls : List AllowCall) (t : Time) (x : ℚ) :
    (l.meter key).Fits (l.log calls) (seconds t) x ↔ x ≤ l.capacity ∧
      ∀ i d, calls[i]? = some d → d.key = key →
        (admitted (l.log calls) key i calls.length : ℚ) + x ≤
          l.capacity + l.refillPerSec * seconds (t - d.now) := by
  have whole : (l.log calls).take calls.length = l.log calls := by
    rw [log_take, List.take_length]
  refine (meter_fits l key _ _ _).trans (and_congr_right fun _ => ⟨?_, ?_⟩)
  · intro fits i d found mine
    have := fits i _ (by rw [log_entry, found]; rfl) mine
    rwa [admitted, whole, seconds_sub]
  · intro windows i e found mine
    rw [log_entry] at found
    obtain ⟨d, called, rfl⟩ := Option.map_eq_some_iff.mp found
    have := windows i d called mine
    rwa [admitted, whole, seconds_sub] at this

theorem admitted_take (log : List (AllowCall × Bool)) (key : String) (i j : ℕ) :
    admitted (log.take j) key i j = admitted log key i j := by
  unfold admitted
  rw [List.take_take, min_self]

/-- A window of the calls before the `j`-th is one of all of them. -/
theorem admitted_log_take (l : Limiter) (key : String) {calls : List AllowCall} {j : ℕ}
    (within : j ≤ calls.length) (i : ℕ) :
    admitted (l.log (calls.take j)) key i (calls.take j).length =
      admitted (l.log calls) key i j := by
  rw [List.length_take, min_eq_left within, ← log_take, admitted_take]

theorem Clocked.at {calls : List AllowCall} (clocked : Clocked calls) {j : ℕ} {c : AllowCall}
    (found : calls[j]? = some c) :
    Clocked (calls.take j) ∧ ∀ d ∈ calls.take j, d.now ≤ c.now := by
  obtain ⟨within, rfl⟩ := List.getElem?_eq_some_iff.mp found
  rw [← List.take_append_drop j calls, List.drop_eq_getElem_cons within] at clocked
  exact ⟨clocked.split.1, clocked.split.2.1⟩

theorem Near.at {calls : List AllowCall} (near : Near calls) {j : ℕ} {c : AllowCall}
    (found : calls[j]? = some c) :
    Near (calls.take j) ∧ Recent (calls.take j) c.key c.now := by
  obtain ⟨within, rfl⟩ := List.getElem?_eq_some_iff.mp found
  rw [← List.take_append_drop j calls, List.drop_eq_getElem_cons within] at near
  exact ⟨near.split.1, near.split.2.1⟩

section Law

variable {capacity refillPerSec : ℚ} (whole : 1 ≤ capacity) (refills : 0 ≤ refillPerSec)
  {calls : List AllowCall} (clocked : Clocked calls)

include whole refills clocked

/-- What a key can spend after calls is what their windows leave. -/
theorem windows_level {t : Time} (latest : ∀ c ∈ calls, c.now ≤ t) (key : String) (x : ℚ) :
    let l := newLimiter capacity refillPerSec
    let windows := x ≤ capacity ∧ ∀ i d, calls[i]? = some d → d.key = key →
      (admitted (l.log calls) key i calls.length : ℚ) + x ≤
        capacity + refillPerSec * seconds (t - d.now)
    (x ≤ (l.after calls).level key t → windows) ∧
      (Near calls → Recent calls key t → windows → x ≤ (l.after calls).level key t) := by
  have levels := after_level (newLimiter_wellFormed whole refills) (newLimiter_fresh _ _) clocked
    latest key x
  rw [fits_log] at levels
  exact levels

theorem admitted_iff (near : Near calls) {j : ℕ} {c : AllowCall} {ok : Bool}
    (found : ((newLimiter capacity refillPerSec).log calls)[j]? = some (c, ok)) :
    ok = true ↔ ∀ i ≤ j, ∀ d, calls[i]? = some d → d.key = c.key →
      (admitted ((newLimiter capacity refillPerSec).log calls) c.key i j : ℚ) + 1 ≤
        capacity + refillPerSec * seconds (c.now - d.now) := by
  rw [log_entry] at found
  obtain ⟨c', called, entry⟩ := Option.map_eq_some_iff.mp found
  obtain ⟨rfl, rfl⟩ := Prod.mk.injEq _ _ _ _ ▸ entry
  obtain ⟨earlier, latest⟩ := clocked.at called
  obtain ⟨nearBefore, recent⟩ := near.at called
  have within : j < calls.length := (List.getElem?_eq_some_iff.mp called).1
  have own := (after_wellFormed (newLimiter_wellFormed whole refills) earlier latest).1
  have levels := windows_level whole refills earlier latest c'.key 1
  simp only [admitted_log_take _ _ within.le] at levels
  rw [allow_answer own]
  constructor
  · intro enough i le d opened mine
    rcases Nat.lt_or_eq_of_le le with before | rfl
    · exact (levels.1 enough).2 i d (by rw [List.getElem?_take_of_lt before, opened]) mine
    · obtain rfl : c' = d := Option.some.inj (called.symm.trans opened)
      simpa [admitted, seconds] using whole
  · refine fun windows => levels.2 nearBefore recent ⟨whole, fun i d opened mine => ?_⟩
    have before : i < j := by
      have := (List.getElem?_eq_some_iff.mp opened).1
      rw [List.length_take] at this
      omega
    exact windows i before.le d (by rw [← opened, List.getElem?_take_of_lt before]) mine

theorem window_budget {i j : ℕ} {c d : AllowCall} (le : i ≤ j) (opened : calls[i]? = some d)
    (called : calls[j]? = some c) (mine : d.key = c.key) :
    (admitted ((newLimiter capacity refillPerSec).log calls) c.key i (j + 1) : ℚ) ≤
      capacity + refillPerSec * seconds (c.now - d.now) := by
  have within : j < calls.length := (List.getElem?_eq_some_iff.mp called).1
  have taken : calls.take (j + 1) = calls.take j ++ [c] := by
    rw [List.take_add_one, called]
    rfl
  obtain ⟨earlier, latest⟩ := clocked.at called
  have next : Clocked (calls.take (j + 1)) :=
    List.Pairwise.sublist (List.take_sublist _ _) clocked
  have latest' : ∀ d ∈ calls.take (j + 1), d.now ≤ c.now := by
    intro d mem
    rw [taken, List.mem_append, List.mem_singleton] at mem
    rcases mem with mem | rfl
    · exact latest d mem
    · exact le_rfl
  have own := (after_wellFormed (newLimiter_wellFormed whole refills) next latest').1
  have left := (windows_level whole refills next latest' c.key 0).1
    (level_nonneg own c.key le_rfl)
  have := left.2 i d (by rw [List.getElem?_take_of_lt (Nat.lt_succ_of_le le), opened]) mine
  rwa [admitted_log_take _ _ within, add_zero] at this

theorem denied_free (near : Near calls) {earlier later : List (AllowCall × Bool)} {c : AllowCall}
    (log : (newLimiter capacity refillPerSec).log calls = earlier ++ (c, false) :: later) :
    (newLimiter capacity refillPerSec).log ((earlier ++ later).map Prod.fst) =
      earlier ++ later := by
  set l := newLimiter capacity refillPerSec
  have all : calls = earlier.map Prod.fst ++ c :: later.map Prod.fst := by
    rw [← log_calls l calls, log, List.map_append, List.map_cons]
  rw [all] at clocked near
  obtain ⟨first, latest, rest, next⟩ := clocked.split
  have wf := newLimiter_wellFormed whole refills
  have own := (after_wellFormed wf first latest).1
  rw [all, log_append] at log
  obtain ⟨before, after⟩ := List.append_inj log (by
    rw [← List.length_map Prod.fst, log_calls, List.length_map])
  obtain ⟨entry, after⟩ := List.cons.inj after
  have denied : ((l.after (earlier.map Prod.fst)).allow c.key c.now).1 = false :=
    congrArg Prod.snd entry
  have close : ∀ t, Recent (earlier.map Prod.fst) c.key t → ∀ b,
      (l.after (earlier.map Prod.fst)).buckets c.key = some b → t - b.last ≤ maxDuration := by
    intro t recent b held
    obtain ⟨d, mem, mine, last⟩ := after_last wf (fun _ => rfl) first held
    rw [last]
    exact recent d mem mine
  have alike := (denied_alike own denied close).log (fun _ => True)
    (allow_wellFormed own c.key) own (fun _ _ _ => trivial) rest next
    (fun d mem _ => near.split.2.2 d mem)
  rw [List.map_append, log_append, before]
  refine congrArg (earlier ++ ·) (Eq.trans ?_ after)
  simpa using alike.symm

theorem other_keys_free (key : String) :
    (newLimiter capacity refillPerSec).log (calls.filter fun c => c.key = key) =
      ((newLimiter capacity refillPerSec).log calls).filter fun e => e.1.key = key := by
  obtain ⟨now, start⟩ := clocked.start
  have wf := newLimiter_wellFormed whole refills now
  have same : Alike (fun key' _ => key' = key) now (newLimiter capacity refillPerSec)
      (newLimiter capacity refillPerSec) := ⟨rfl, rfl, fun _ _ _ _ => rfl⟩
  exact (same.log (· = key) wf wf (fun _ _ own => own) clocked start
    fun _ _ own => own).symm

end Law

/-- The bucket is exact as long as the readings of a key's calls are a `time.Duration`
apart: a call is admitted if and only if every window up to it, one opened by each call
for its key, has room for one more, and a refused call costs nothing. On every clock no
window admits more than its budget, and calls for other keys change nothing. -/
theorem allow_exact {capacity refillPerSec : ℚ} (whole : 1 ≤ capacity) (refills : 0 ≤ refillPerSec)
    {calls : List AllowCall} (clocked : Clocked calls) :
    let l := newLimiter capacity refillPerSec
    (l.log calls).map Prod.fst = calls ∧
    (Near calls → ∀ j c ok, (l.log calls)[j]? = some (c, ok) →
      (ok = true ↔ ∀ i ≤ j, ∀ d, calls[i]? = some d → d.key = c.key →
        (admitted (l.log calls) c.key i j : ℚ) + 1 ≤
          capacity + refillPerSec * seconds (c.now - d.now))) ∧
    (∀ i j c d, i ≤ j → calls[i]? = some d → calls[j]? = some c → d.key = c.key →
      (admitted (l.log calls) c.key i (j + 1) : ℚ) ≤
        capacity + refillPerSec * seconds (c.now - d.now)) ∧
    (Near calls → ∀ earlier c later, l.log calls = earlier ++ (c, false) :: later →
      l.log ((earlier ++ later).map Prod.fst) = earlier ++ later) ∧
    ∀ key, l.log (calls.filter fun c => c.key = key) =
      (l.log calls).filter fun e => e.1.key = key := by
  refine ⟨log_calls _ calls, fun near j c ok found => ?_, fun i j c d le opened called mine => ?_,
    fun near earlier c later log => ?_, ?_⟩
  · exact admitted_iff whole refills clocked near found
  · exact window_budget whole refills clocked le opened called mine
  · exact denied_free whole refills clocked near log
  · exact other_keys_free whole refills clocked

/-- Three calls a second apart, with one token and half a token a second: the second is
refused, and without it the others are answered as before. -/
theorem allow_exact_refused : Clocked [⟨"a", 0⟩, ⟨"a", 1000000000⟩, ⟨"a", 2000000000⟩] ∧
    Near [⟨"a", 0⟩, ⟨"a", 1000000000⟩, ⟨"a", 2000000000⟩] ∧
    (newLimiter 1 (1 / 2)).log [⟨"a", 0⟩, ⟨"a", 1000000000⟩, ⟨"a", 2000000000⟩] =
      [(⟨"a", 0⟩, true), (⟨"a", 1000000000⟩, false), (⟨"a", 2000000000⟩, true)] ∧
    (newLimiter 1 (1 / 2)).log [⟨"a", 0⟩, ⟨"a", 2000000000⟩] =
      [(⟨"a", 0⟩, true), (⟨"a", 2000000000⟩, true)] :=
  ⟨by decide, by decide, by decide +kernel,
    (@allow_exact 1 (1 / 2) (by decide) (by decide +kernel)
      [⟨"a", 0⟩, ⟨"a", 1000000000⟩, ⟨"a", 2000000000⟩] (by decide)).2.2.2.1 (by decide)
        [(⟨"a", 0⟩, true)] ⟨"a", 1000000000⟩ [(⟨"a", 2000000000⟩, true)] (by decide +kernel)⟩

/-- Two calls 317 years apart, with one token and one a ten thousand million seconds:
`Time.Sub` stops at 292 years, so the second is refused though its windows have room. -/
theorem refused_in_budget :
    let calls : List AllowCall := [⟨"a", 0⟩, ⟨"a", 10000000000000000000⟩]
    let l := newLimiter 1 (1 / 10000000000)
    Clocked calls ∧ l.log calls = [(⟨"a", 0⟩, true), (⟨"a", 10000000000000000000⟩, false)] ∧
    ∀ i ≤ 1, ∀ d, calls[i]? = some d → d.key = "a" →
      (admitted (l.log calls) "a" i 1 : ℚ) + 1 ≤
        1 + 1 / 10000000000 * seconds (10000000000000000000 - d.now) := by
  refine ⟨by decide, by decide +kernel, fun i le d opened _ => ?_⟩
  rcases Nat.le_one_iff_eq_zero_or_eq_one.mp le with rfl | rfl
  · cases opened
    decide +kernel
  · cases opened
    decide +kernel

end Limiter

end VaultWatch.Gateway
