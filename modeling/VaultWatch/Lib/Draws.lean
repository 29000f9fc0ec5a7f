import Mathlib.Algebra.BigOperators.Group.List.Basic
import Mathlib.Algebra.Order.BigOperators.Group.List
import Mathlib.Algebra.Order.Field.Basic
import Mathlib.Tactic.Linarith

/-! Programs that draw from a generator whose state they pass on. What a draw gives
whatever the state is (`Gives`) composes along the program. Then what a sample within
bounds says about its mean and its variance. -/
namespace VaultWatch.Lib.Draws

section
variable {σ α β : Type} {P : α → Prop} {Q : β → Prop}

/-- Every value that `m` may draw satisfies `P`. -/
def Gives (P : α → Prop) (m : StateM σ α) : Prop := ∀ s, P (m s).1

theorem Gives.pure {a : α} (holds : P a) : Gives P (Pure.pure a : StateM σ α) := fun _ => holds

theorem Gives.bind {m : StateM σ α} {f : α → StateM σ β} (first : Gives P m)
    (rest : ∀ a, P a → Gives Q (f a)) : Gives Q (m >>= f) :=
  fun s => rest _ (first s) _

theorem Gives.mono {P' : α → Prop} {m : StateM σ α} (gives : Gives P m)
    (weaker : ∀ a, P a → P' a) : Gives P' m :=
  fun s => weaker _ (gives s)

/-- `n` draws, one after the other. -/
def draws (m : StateM σ α) : ℕ → StateM σ (List α)
  | 0 => Pure.pure []
  | n + 1 => do
    let a ← m
    let as ← draws m n
    return a :: as

theorem Gives.draws {m : StateM σ α} (gives : Gives P m) (n : ℕ) :
    Gives (fun as => as.length = n ∧ ∀ a ∈ as, P a) (draws m n) := by
  induction n with
  | zero => exact .pure ⟨rfl, fun a mem => by cases mem⟩
  | succ n ih =>
    refine .bind gives fun a first => .bind ih fun as rest => .pure ?_
    exact ⟨congrArg (· + 1) rest.1, List.forall_mem_cons.mpr ⟨first, rest.2⟩⟩

end

/-! ## Samples -/

section
variable {K : Type} [Field K] [LinearOrder K] [IsStrictOrderedRing K]

def mean (values : List K) : K := values.sum / values.length

def variance (values : List K) : K :=
  (values.map fun v => (v - mean values) ^ 2).sum / values.length

theorem mean_le {values : List K} (some : values ≠ []) {b : K} (bounded : ∀ v ∈ values, v ≤ b) :
    mean values ≤ b := by
  have positive : (0 : K) < values.length := by
    exact_mod_cast List.length_pos_iff.mpr some
  unfold mean
  rw [div_le_iff₀ positive, mul_comm, ← nsmul_eq_mul]
  exact List.sum_le_card_nsmul values b bounded

theorem le_mean {values : List K} (some : values ≠ []) {a : K} (bounded : ∀ v ∈ values, a ≤ v) :
    a ≤ mean values := by
  have positive : (0 : K) < values.length := by
    exact_mod_cast List.length_pos_iff.mpr some
  unfold mean
  rw [le_div_iff₀ positive, mul_comm, ← nsmul_eq_mul]
  exact List.card_nsmul_le_sum values a bounded

/-- No value is further from the mean than the bounds are from each other. -/
theorem variance_le {values : List K} (some : values ≠ []) {a b : K}
    (bounded : ∀ v ∈ values, a ≤ v ∧ v ≤ b) : variance values ≤ (b - a) ^ 2 := by
  have low := le_mean some fun v mem => (bounded v mem).1
  have high := mean_le some fun v mem => (bounded v mem).2
  have positive : (0 : K) < values.length := by
    exact_mod_cast List.length_pos_iff.mpr some
  unfold variance
  rw [div_le_iff₀ positive, mul_comm, ← nsmul_eq_mul]
  have each : ∀ x ∈ values.map fun v => (v - mean values) ^ 2, x ≤ (b - a) ^ 2 := by
    intro x mem
    obtain ⟨v, within, rfl⟩ := List.mem_map.mp mem
    obtain ⟨above, below⟩ := bounded v within
    exact sq_le_sq' (by linarith) (by linarith)
  have summed := List.sum_le_card_nsmul _ _ each
  rwa [List.length_map] at summed

theorem variance_pos {values : List K} {v w : K} (memV : v ∈ values) (memW : w ∈ values)
    (distinct : v ≠ w) : 0 < variance values := by
  have positive : (0 : K) < values.length := by
    exact_mod_cast List.length_pos_of_mem memV
  have nonneg : ∀ x ∈ values.map fun v => (v - mean values) ^ 2, 0 ≤ x := by
    intro x mem
    obtain ⟨u, _, rfl⟩ := List.mem_map.mp mem
    exact sq_nonneg _
  obtain ⟨u, memU, off⟩ : ∃ u ∈ values, u ≠ mean values := by
    by_cases same : v = mean values
    · exact ⟨w, memW, fun other => distinct (same.trans other.symm)⟩
    · exact ⟨v, memV, same⟩
  have one : (u - mean values) ^ 2 ≤ (values.map fun v => (v - mean values) ^ 2).sum :=
    List.single_le_sum nonneg _ (List.mem_map_of_mem memU)
  have nonzero : u - mean values ≠ 0 := sub_ne_zero.mpr off
  have apart : 0 < (u - mean values) ^ 2 := by positivity
  exact div_pos (apart.trans_le one) positive

end

end VaultWatch.Lib.Draws
