import VaultWatch.Engine.Rules
import VaultWatch.Lib.Draws
import Mathlib.Data.List.Nodup
import Mathlib.Data.List.Perm.Subperm

/-! What a request must or cannot score, from some of the rules alone, and when an amount
is an outlier in any history within bounds. -/
namespace VaultWatch.Engine

open VaultWatch.Lib.Exact (Trig)
open VaultWatch.Lib

section
variable {K : Type} [Field K] [LinearOrder K] {T : Trig K} {fmt : NumberFormat K}
  {tx : Transaction K} {ctx : ScoringContext K}

def Rule.weight (r : Rule) : ℕ := r.key.2

/-- The weights that a score adds up. -/
theorem weights_fired (T : Trig K) (fmt : NumberFormat K) (tx : Transaction K)
    (ctx : ScoringContext K) : (triggered T fmt tx ctx).map (·.weight) =
      (Rule.all.filter fun r => (ruleResult T fmt tx ctx r).isSome).map Rule.weight := by
  have weights := congrArg (List.map Prod.snd) (triggered_keys T fmt tx ctx)
  rw [List.map_map, List.map_map] at weights
  exact weights

/-- Each rule that fires counts, up to the cap. -/
theorem le_score {rules : List Rule} (distinct : rules.Nodup)
    (fire : ∀ r ∈ rules, Fires T tx ctx r) :
    min (rules.map Rule.weight).sum 100 ≤ (score T fmt tx ctx).riskScore := by
  have among : rules ⊆ Rule.all.filter fun r => (ruleResult T fmt tx ctx r).isSome := by
    intro r mem
    exact List.mem_filter.mpr
      ⟨Rule.mem_all r, (ruleResult_decides tx ctx r).isSome.mpr (fire r mem)⟩
  obtain ⟨same, perm, sublist⟩ := List.subperm_of_subset distinct among
  refine min_le_min_right 100 ?_
  rw [weights_fired, ← (perm.map Rule.weight).sum_eq]
  exact (sublist.map Rule.weight).sum_le_sum fun _ _ => Nat.zero_le _

/-- No other rule than those that fire counts. -/
theorem score_le {rules : List Rule} (only : ∀ r, Fires T tx ctx r → r ∈ rules) :
    (score T fmt tx ctx).riskScore ≤ (rules.map Rule.weight).sum := by
  have fired : (Rule.all.filter fun r => (ruleResult T fmt tx ctx r).isSome) ⊆ rules := by
    intro r mem
    exact only r ((ruleResult_decides tx ctx r).isSome.mp (List.mem_filter.mp mem).2)
  have distinct : (Rule.all.filter fun r => (ruleResult T fmt tx ctx r).isSome).Nodup :=
    (show Rule.all.Nodup by decide).filter _
  obtain ⟨same, perm, sublist⟩ := List.subperm_of_subset distinct fired
  refine (min_le_left _ 100).trans ?_
  rw [weights_fired, ← (perm.map Rule.weight).sum_eq]
  exact (sublist.map Rule.weight).sum_le_sum fun _ _ => Nat.zero_le _

end

/-- What a square root is needed for here. -/
structure Rooted {K : Type} [Field K] [LinearOrder K] (T : Trig K) : Prop where
  pos : ∀ x, 0 < x → 0 < T.sqrt x
  le : ∀ x y, 0 ≤ y → x ≤ y ^ 2 → T.sqrt x ≤ y

section
variable {K : Type} [Field K] [LinearOrder K] [IsStrictOrderedRing K] {T : Trig K}
  {tx : Transaction K} {ctx : ScoringContext K}

omit [LinearOrder K] [IsStrictOrderedRing K] in
theorem meanStddev_some {values : List K} (three : 3 ≤ values.length) :
    meanStddev T values = some (Draws.mean values, T.sqrt (Draws.variance values)) := by
  have mean : values.foldl (· + ·) 0 / (values.length : K) = Draws.mean values := by
    rw [Draws.mean, List.sum_eq_foldl]
  unfold meanStddev
  rw [if_neg (not_lt.mpr three)]
  simp only [mean]
  rw [Draws.variance, List.sum_eq_foldl]

/-- An amount as far above a history's upper bound as three times its spread, when the
payments of the history are not all the same. -/
theorem amountOutlier_fires (rooted : Rooted T) {a b : K}
    (three : 3 ≤ ctx.recentAmounts.length) (bounded : ∀ v ∈ ctx.recentAmounts, a ≤ v ∧ v ≤ b)
    (varied : ∃ v ∈ ctx.recentAmounts, ∃ w ∈ ctx.recentAmounts, v ≠ w)
    (high : b + 3 * (b - a) < tx.amount) : Fires T tx ctx .amountOutlier := by
  obtain ⟨v, memV, w, memW, distinct⟩ := varied
  have some : ctx.recentAmounts ≠ [] := List.ne_nil_of_mem memV
  have ordered : a ≤ b := (bounded v memV).1.trans (bounded v memV).2
  have spread := rooted.pos _ (Draws.variance_pos memV memW distinct)
  have narrow := rooted.le _ (b - a) (sub_nonneg.mpr ordered) (Draws.variance_le some bounded)
  have centre := Draws.mean_le some fun v mem => (bounded v mem).2
  refine ⟨_, _, meanStddev_some three, spread, ?_⟩
  rw [lt_div_iff₀ spread]
  linarith

end

end VaultWatch.Engine
