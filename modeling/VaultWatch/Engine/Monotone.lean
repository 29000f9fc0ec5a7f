import VaultWatch.Engine.Rules
import Mathlib.Algebra.Order.BigOperators.Group.List
import Mathlib.Tactic.Linarith

/-! Scoring is monotone. Each rule is looked at alone, in the direction in which a
request can get worse; the sum, its cap and the bands follow. -/
namespace VaultWatch.Engine

open VaultWatch.Lib.Exact (Trig)

/-- The bands from the lowest up. -/
def RiskBand.rank : RiskBand → ℕ
  | low => 0
  | medium => 1
  | high => 2
  | critical => 3

theorem RiskBand.fromScore_mono {a b : ℕ} (le : a ≤ b) :
    (RiskBand.fromScore a).rank ≤ (RiskBand.fromScore b).rank := by
  unfold RiskBand.fromScore
  split_ifs <;> simp only [RiskBand.rank] <;> omega

section
variable {K : Type} [Field K] [LinearOrder K] [IsStrictOrderedRing K]

/-- The second request is the first with no less money and activity, and no beneficiary
that the first does not know. -/
structure Worse (tx tx' : Transaction K) (ctx ctx' : ScoringContext K) : Prop where
  sameTx : tx' = { tx with amount := tx'.amount }
  sameCtx : ctx' = { ctx with
    recentCountLastHour := ctx'.recentCountLastHour
    recentSumLastHour := ctx'.recentSumLastHour
    knownBeneficiaries := ctx'.knownBeneficiaries }
  amount : tx.amount ≤ tx'.amount
  recentCount : ctx.recentCountLastHour ≤ ctx'.recentCountLastHour
  recentSum : ctx.recentSumLastHour ≤ ctx'.recentSumLastHour
  known : ctx'.knownBeneficiaries ⊆ ctx.knownBeneficiaries

variable {T : Trig K} {fmt : NumberFormat K} {tx tx' : Transaction K}
  {ctx ctx' : ScoringContext K}

/-- A rule that fires still fires on a worse request. The distance of an amount from the
mean grows with it, and a history's mean and deviation are not the request's. -/
theorem Worse.fires (worse : Worse tx tx' ctx ctx') {r : Rule} (fires : Fires T tx ctx r) :
    Fires T tx' ctx' r := by
  obtain ⟨txSame, ctxSame, amount, count, sum, known⟩ := worse
  cases r with
  | velocityCount => exact fires.trans count
  | velocityAmount => exact fires.trans_le (add_le_add sum amount)
  | amountOutlier =>
    obtain ⟨mean, stddev, stats, spread, far⟩ := fires
    refine ⟨mean, stddev, by rw [ctxSame]; exact stats, spread, far.trans_le ?_⟩
    exact div_le_div_of_nonneg_right (sub_le_sub_right amount mean) spread.le
  | impossibleTravel =>
    obtain ⟨last, lat, lon, known, hlat, hlon, fast⟩ := fires
    refine ⟨last, lat, lon, by rw [ctxSame]; exact known, by rw [txSame]; exact hlat,
      by rw [txSame]; exact hlon, ?_⟩
    rw [txSame]
    exact fast
  | newBeneficiaryHighValue =>
    obtain ⟨ben, paid, unknown, high⟩ := fires
    exact ⟨ben, by rw [txSame]; exact paid, fun mem => unknown (known mem), high.trans_le amount⟩
  | newDevice =>
    obtain ⟨dev, used, some, unknown⟩ := fires
    refine ⟨dev, by rw [txSame]; exact used, ?_, ?_⟩
    · rw [ctxSame]
      exact some
    · rw [ctxSame]
      exact unknown

/-! ## The sum -/

/-- The rules that fire on a request are among those that fire on a worse one. -/
theorem Worse.triggered_sublist (worse : Worse tx tx' ctx ctx') :
    ((triggered T fmt tx ctx).map TriggeredRule.key).Sublist
      ((triggered T fmt tx' ctx').map TriggeredRule.key) := by
  rw [triggered_keys, triggered_keys]
  refine (List.monotone_filter_right _ fun r fired => ?_).map _
  rw [(ruleResult_decides _ _ r).isSome] at fired ⊢
  exact worse.fires fired

theorem weights_eq (rules : List TriggeredRule) :
    rules.map (·.weight) = (rules.map TriggeredRule.key).map Prod.snd := by
  rw [List.map_map]
  rfl

/-- A worse request triggers every rule the first one does, and has no lower score or band. -/
theorem score_monotone (worse : Worse tx tx' ctx ctx') :
    (∀ t ∈ (score T fmt tx ctx).triggeredRules, ∃ t' ∈ (score T fmt tx' ctx').triggeredRules,
      t'.rule = t.rule) ∧
    (score T fmt tx ctx).riskScore ≤ (score T fmt tx' ctx').riskScore ∧
    (score T fmt tx ctx).riskBand.rank ≤ (score T fmt tx' ctx').riskBand.rank := by
  have among : ((triggered T fmt tx ctx).map TriggeredRule.key).Sublist
      ((triggered T fmt tx' ctx').map TriggeredRule.key) := worse.triggered_sublist
  have sum : ((triggered T fmt tx ctx).map (·.weight)).sum ≤
      ((triggered T fmt tx' ctx').map (·.weight)).sum := by
    rw [weights_eq, weights_eq]
    exact (among.map Prod.snd).sum_le_sum fun _ _ => Nat.zero_le _
  have risk : (score T fmt tx ctx).riskScore ≤ (score T fmt tx' ctx').riskScore :=
    min_le_min_right 100 sum
  refine ⟨fun t mem => ?_, risk, RiskBand.fromScore_mono risk⟩
  obtain ⟨t', mem', same⟩ := List.mem_map.mp (among.subset (List.mem_map_of_mem mem))
  exact ⟨t', mem', congrArg Prod.fst same⟩

end

/-! A first payment of much money to a beneficiary, and a larger one by an account that
is in more of a hurry and knows nobody. -/

def firstPayment (amount : ℝ) : Transaction ℝ where
  id := "tx_first"
  amount := amount
  timestamp := 0
  lat := none
  lon := none
  beneficiaryId := some "ben_new"
  deviceId := none

def quietAccount (count : ℕ) (known : List String) : ScoringContext ℝ where
  recentAmounts := []
  recentCountLastHour := count
  recentSumLastHour := 0
  knownBeneficiaries := known
  knownDevices := []
  lastLocation := none

theorem score_monotone_firstPayment :
    Worse (firstPayment 2000) (firstPayment 6000) (quietAccount 4 ["ben_home"])
      (quietAccount 5 []) ∧
    (∃ t ∈ (score Trig.real ⟨fun _ _ => ""⟩ (firstPayment 2000)
        (quietAccount 4 ["ben_home"])).triggeredRules, t.rule = "new_beneficiary_high_value") ∧
    (∃ t ∈ (score Trig.real ⟨fun _ _ => ""⟩ (firstPayment 6000)
        (quietAccount 5 [])).triggeredRules, t.rule = "new_beneficiary_high_value") ∧
    (score Trig.real ⟨fun _ _ => ""⟩ (firstPayment 2000)
        (quietAccount 4 ["ben_home"])).riskScore ≤
      (score Trig.real ⟨fun _ _ => ""⟩ (firstPayment 6000) (quietAccount 5 [])).riskScore := by
  have worse : Worse (firstPayment 2000) (firstPayment 6000) (quietAccount 4 ["ben_home"])
      (quietAccount 5 []) :=
    ⟨rfl, rfl, by norm_num [firstPayment], by simp [quietAccount], le_rfl,
      List.nil_subset _⟩
  obtain ⟨rules, risk, _⟩ := @score_monotone _ _ _ _ Trig.real ⟨fun _ _ => ""⟩ _ _ _ _ worse
  obtain ⟨t, mem, named⟩ := (triggered_iff Trig.real ⟨fun _ _ => ""⟩ (firstPayment 2000)
    (quietAccount 4 ["ben_home"]) .newBeneficiaryHighValue).mpr
      ⟨"ben_new", rfl, by simp [quietAccount], by norm_num [firstPayment]⟩
  obtain ⟨t', mem', same⟩ := rules t mem
  exact ⟨worse, ⟨t, mem, named⟩, ⟨t', mem', same.trans named⟩, risk⟩

end VaultWatch.Engine
