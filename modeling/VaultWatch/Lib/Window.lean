import Mathlib.Data.List.Nodup
import Mathlib.Order.Monotone.Defs

/-! Windows onto a growing history. By age: a log that is pruned whenever an item
is added still shows, at any later time, what the whole history would. By count: of
the items whose key is not among the newest ones, only the newest are kept. -/
namespace VaultWatch.Lib.Window

/-! ## By age -/

section Age

variable {τ α : Type}

section
variable [LT τ] [DecidableLT τ] (cutoff : τ → τ)

/-- What is later than the cutoff at `now`. -/
def live (now : τ) (log : List (τ × α)) : List (τ × α) := log.filter fun e => e.1 > cutoff now

/-- The log after `items`, each added at its own time and the log then pruned. -/
def logged (log items : List (τ × α)) : List (τ × α) :=
  items.foldl (fun log e => live cutoff e.1 (log ++ [e])) log

end

variable [Preorder τ] [DecidableLT τ] {cutoff : τ → τ}

theorem live_append (now : τ) (log later : List (τ × α)) :
    live cutoff now (log ++ later) = live cutoff now log ++ live cutoff now later :=
  List.filter_append log later

/-- Having been pruned before makes no difference. -/
theorem live_live (mono : Monotone cutoff) {earlier now : τ} (order : earlier ≤ now)
    (log : List (τ × α)) : live cutoff now (live cutoff earlier log) = live cutoff now log := by
  unfold live
  rw [List.filter_filter]
  refine List.filter_congr fun e _ => ?_
  have weaker : cutoff now < e.1 → cutoff earlier < e.1 := (mono order).trans_lt
  simp only [gt_iff_lt, Bool.and_eq_decide, decide_eq_true_eq]
  exact decide_eq_decide.mpr (and_iff_left_of_imp weaker)

theorem live_logged (mono : Monotone cutoff) {now : τ} {items : List (τ × α)}
    (clock : ∀ e ∈ items, e.1 ≤ now) (log : List (τ × α)) :
    live cutoff now (logged cutoff log items) = live cutoff now (log ++ items) := by
  induction items generalizing log with
  | nil => simp [logged]
  | cons e items ih =>
    calc live cutoff now (logged cutoff (live cutoff e.1 (log ++ [e])) items)
      _ = live cutoff now (live cutoff e.1 (log ++ [e])) ++ live cutoff now items := by
        rw [ih fun e mem => clock e (.tail _ mem), live_append]
      _ = live cutoff now (log ++ e :: items) := by
        rw [live_live mono (clock e (.head _)), ← live_append, List.append_assoc,
          List.singleton_append]

/-- An item that is still young enough has not been pruned. -/
theorem mem_logged (mono : Monotone cutoff) {now : τ} {items : List (τ × α)} {e : τ × α}
    (clock : ∀ e ∈ items, e.1 ≤ now) (mem : e ∈ items) (young : e.1 > cutoff now) :
    e ∈ logged cutoff [] items := by
  have shown : e ∈ live cutoff now (logged cutoff [] items) := by
    rw [live_logged mono clock]
    exact List.mem_filter.mpr ⟨mem, decide_eq_true young⟩
  exact List.mem_of_mem_filter shown

end Age

/-! ## By count -/

section Count

variable {α κ : Type} (key : α → κ) (size : ℕ)

/-- A history, newest first, of items that were added while their key was not among
those of the newest `size`. -/
def Spaced : List α → Prop
  | [] => True
  | x :: log => key x ∉ (log.take size).map key ∧ Spaced log

variable {key size}

theorem mem_take_iff {later earlier : List α} {x : α} (distinct : (later ++ x :: earlier).Nodup) :
    x ∈ (later ++ x :: earlier).take size ↔ later.length < size := by
  have absent : x ∉ later := fun mem => List.disjoint_of_nodup_append distinct mem (.head _)
  rw [List.take_append]
  constructor
  · intro mem
    rcases List.mem_append.mp mem with among | among
    · exact absurd (List.mem_of_mem_take among) absent
    · have some : (x :: earlier).take (size - later.length) ≠ [] := List.ne_nil_of_mem among
      by_contra full
      exact some (by rw [Nat.sub_eq_zero_of_le (by omega), List.take_zero])
  · intro room
    obtain ⟨n, fits⟩ : ∃ n, size - later.length = n + 1 := ⟨size - later.length - 1, by omega⟩
    rw [fits, List.take_succ_cons]
    exact List.mem_append_right _ (.head _)

theorem Spaced.of_append {later log : List α} (spaced : Spaced key size (later ++ log)) :
    Spaced key size log := by
  induction later with
  | nil => exact spaced
  | cons x later ih => exact ih spaced.2

/-- One more than `size` of them have keys of their own. -/
theorem Spaced.nodup {log : List α} (spaced : Spaced key size log) :
    ((log.take (size + 1)).map key).Nodup := by
  suffices within : ∀ n ≤ size + 1, ((log.take n).map key).Nodup from within _ (Nat.le_refl _)
  induction log with
  | nil => simp
  | cons x log ih =>
    intro n bound
    cases n with
    | zero => simp
    | succ n =>
      have fewer : n ≤ size := Nat.le_of_succ_le_succ bound
      refine List.nodup_cons.mpr ⟨fun mem => spaced.1 ?_, ih spaced.2 n (Nat.le_succ_of_le fewer)⟩
      exact List.map_subset key (List.take_subset_take_left log fewer) mem

theorem Spaced.nodup_take {log : List α} (spaced : Spaced key size log) :
    ((log.take size).map key).Nodup :=
  spaced.nodup.sublist ((List.take_sublist_take_left (Nat.le_succ size)).map key)

/-- Once `size` items have been added after `x`, those that followed it have keys of
their own, and so has `x`. -/
theorem Spaced.nodup_later {later earlier : List α} {x : α}
    (spaced : Spaced key size (later ++ x :: earlier)) (gone : size ≤ later.length) :
    ((later.drop (later.length - size) ++ [x]).map key).Nodup := by
  have window : Spaced key size (later.drop (later.length - size) ++ x :: earlier) := by
    rw [← List.take_append_drop (later.length - size) later, List.append_assoc] at spaced
    exact spaced.of_append
  have length : (later.drop (later.length - size)).length = size := by
    rw [List.length_drop, Nat.sub_sub_self gone]
  have nodup := window.nodup
  rw [List.take_append, length, List.take_of_length_le (by omega), Nat.add_sub_cancel_left] at nodup
  exact nodup

end Count

end VaultWatch.Lib.Window
