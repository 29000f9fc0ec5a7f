import VaultWatch.Agents.PipelineShape
import VaultWatch.Agents.ReplayOutcome
import VaultWatch.Agents.RiskEngine

/-! What the rules engine makes of the payments that the service generates for itself: a
risky one stacks enough rules for the pipeline to look into it, and an ordinary one can
only be an outlier. -/
namespace VaultWatch.Agents

open VaultWatch.Lib.Exact (Trig)
open VaultWatch.Lib VaultWatch.Lib.Draws VaultWatch.Lib.Effects VaultWatch.Lib.Interleave
open VaultWatch.Engine (Rule Fires Rooted)

namespace Random

variable (random : Random)

/-- What `generate_demo_transaction(force_risky=True)` draws. -/
structure Risky (tx : Transaction) : Prop where
  amount : 15 * (random.accountProfile tx.accountId).typicalAmount - 1 / 100 ≤ tx.amount
  beneficiary : ∃ name, tx.beneficiaryId = some name ∧ Labelled "ben_" 100000 999999 name
  device : ∃ name, tx.deviceId = some name ∧ Labelled "dev_" 100000 999999 name

theorem demoTransaction_risky (txId : String) (now : Time) (accountId : Option String) :
    Gives random.Risky (random.generateDemoTransaction txId now true accountId) := by
  refine .bind (P := fun _ => True) (fun _ => trivial) fun accountId _ => ?_
  rw [if_pos rfl]
  refine .bind (P := fun _ => True) (fun _ => trivial) fun farCity _ => ?_
  refine .bind (random.uniform_range 15 40 (by norm_num)) fun factor range => ?_
  refine .bind (random.label_gives "ben_" (by decide)) fun beneficiary fresh => ?_
  refine .bind (random.label_gives "dev_" (by decide)) fun device unseen => .pure ?_
  have profiled := random.accountProfile_plausible accountId
  have near := (round2_near ((random.accountProfile accountId).typicalAmount * factor)).1
  have low : 15 * (random.accountProfile accountId).typicalAmount ≤
      (random.accountProfile accountId).typicalAmount * factor := by
    rw [mul_comm]
    exact mul_le_mul_of_nonneg_left range.1 (by linarith [profiled.typical.1])
  exact ⟨by dsimp only; linarith, ⟨beneficiary, rfl, fresh⟩, ⟨device, rfl, unseen⟩⟩

/-- What `generate_demo_transaction()` draws. -/
structure Ordinary (tx : Transaction) : Prop where
  amount : tx.amount ≤ 14 / 5 * (random.accountProfile tx.accountId).typicalAmount + 1 / 100
  home : tx.lat = some (random.accountProfile tx.accountId).homeCity.1 ∧
    tx.lon = some (random.accountProfile tx.accountId).homeCity.2
  beneficiary : ∃ name, tx.beneficiaryId = some name ∧
    name ∈ (random.accountProfile tx.accountId).knownBeneficiaries
  device : tx.deviceId = (random.accountProfile tx.accountId).knownDevices.head?

theorem demoTransaction_ordinary (txId : String) (now : Time) (accountId : Option String) :
    Gives random.Ordinary (random.generateDemoTransaction txId now false accountId) := by
  refine .bind (P := fun _ => True) (fun _ => trivial) fun accountId _ => ?_
  rw [if_neg (by decide)]
  have profiled := random.accountProfile_plausible accountId
  have low := profiled.typical.1
  have some : (random.accountProfile accountId).knownBeneficiaries ≠ [] :=
    List.length_pos_iff.mp profiled.beneficiaries.1
  refine .bind (random.gauss_range _ _ (by linarith)) fun amount range => ?_
  refine .bind (random.choice_mem some "") fun beneficiary known => .pure ?_
  have near := (round2_near amount).2
  refine ⟨max_le ?_ ?_, ⟨rfl, rfl⟩, ⟨beneficiary, rfl, known⟩, rfl⟩ <;> linarith

end Random

/-! ## What was scored -/

section
variable {host : Host} {o : Orchestrator} {tx : Transaction}

/-- The verdict in a result is the answer of the rules engine on the context of the run. -/
theorem openedCase_scored {ctx : ScoringContext} {s t : PipelineResult} {h : History}
    (owner : s.transaction = tx.modelDump host) (fresh : s.compliance = none)
    (returns : Returns (do
      let rules ← Orchestrator.scoreRules host o tx ctx
      let prefilter ← Orchestrator.scorePrefilter host o tx ctx
      if rules.riskScore < RULES_ESCALATION_THRESHOLD ∧ ¬ prefilter.isAnomaly then
        Orchestrator.close host o tx "Closed at stage 0 - no anomaly signal, no LLM call made"
      else
        let triage ← Orchestrator.triageCase host o tx ctx rules prefilter
        if ¬ triage.escalate then
          Orchestrator.close host o tx "Closed at triage - not escalated to investigation"
        else Orchestrator.escalate host o tx triage rules) s h () t) :
    ∃ rules, t.rules = some rules ∧ ⟨.score tx ctx, .ok rules⟩ ∈ h := by
  obtain ⟨rules, _, h₁, _, rfl, scored, rest⟩ := returns.bind
  obtain ⟨_, _, rfl, _, answered, _⟩ := Orchestrator.scoreRules_returns scored
  refine ⟨rules, ?_, List.mem_append_left _ answered⟩
  obtain ⟨prefilter, _, _, _, rfl, filtered, rest⟩ := rest.bind
  obtain ⟨_, _, rfl, _⟩ := Orchestrator.scorePrefilter_returns filtered
  split at rest
  · obtain ⟨_, _, _, _, rfl, finished, _⟩ := Orchestrator.close_returns rest
    obtain ⟨_, _, _, _, rfl⟩ := finish_appends (by exact owner) finished
    rfl
  · obtain ⟨triage, _, _, _, rfl, triaged, rest⟩ := rest.bind
    obtain ⟨_, _, rfl, _⟩ := Orchestrator.triageCase_returns triaged
    split at rest
    · obtain ⟨_, _, _, _, rfl, finished, _⟩ := Orchestrator.close_returns rest
      obtain ⟨_, _, _, _, rfl⟩ := finish_appends (by exact owner) finished
      rfl
    · obtain ⟨_, _, _, _, _, _, _, _, _, rfl, finished, _⟩ :=
        Orchestrator.escalate_told (by exact fresh) rest
      obtain ⟨_, _, _, _, rfl⟩ := finish_appends (by exact owner) finished
      rfl

/-- A run without a context builds one and scores the payment in it. -/
theorem builtCase_scored {review : Option Dict} {t : PipelineResult} {h : History}
    (returns : Returns (Orchestrator.stages host o tx none review) {} h () t) :
    ∃ ctx rules, ⟨.buildScoringContext tx.accountId tx.amount, .ok ctx⟩ ∈ h ∧
      ⟨.score tx ctx, .ok rules⟩ ∈ h ∧ t.rules = some rules := by
  unfold Orchestrator.stages at returns
  obtain ⟨ctx, _, h₁, _, rfl, opened, rest⟩ := returns.bind
  have built : ⟨.buildScoringContext tx.accountId tx.amount, .ok ctx⟩ ∈ h₁ := by
    unfold Orchestrator.openCase at opened
    obtain ⟨ctx', _, h₂, _, rfl, asked, recorded⟩ := opened.bind
    obtain ⟨answer, _, rfl, viewed⟩ := asked.askThen
    obtain ⟨rfl, rfl, rfl⟩ := viewed.raising
    obtain ⟨_, _, _, _, rfl, _, last⟩ := recorded.modifyThen.bind
    obtain ⟨_, rfl, _⟩ := last.pure
    exact List.mem_append_left _ (.head _)
  obtain ⟨_, rfl, _⟩ := Orchestrator.openCase_returns opened
  obtain ⟨rules, kept, scored⟩ := openedCase_scored rfl rfl rest
  exact ⟨ctx, rules, List.mem_append_left _ built, List.mem_append_right _ scored, kept⟩

end

/-! ## The rules -/

section
variable {K : Type} [Field K] [LinearOrder K] [IsStrictOrderedRing K] {T : Trig K}
  {fmt : Engine.NumberFormat K} {parse : String → Option ℤ} {host : Host}
  {random : Random}

/-- An amount that is an outlier in whatever history the account may have. -/
theorem history_outlier (rooted : Rooted T) {accountId : String} (varied : random.Varied accountId)
    {tx : Engine.Transaction K} {ctx : Engine.ScoringContext K} {amount : ℚ}
    (history : ctx.recentAmounts =
      ((random.generateTransactionHistory accountId 12).map (·.amount)).map Rat.cast)
    (paid : tx.amount = (amount : K))
    (large : 4 * (random.accountProfile accountId).historyBound - 3 < amount) :
    Fires T tx ctx .amountOutlier := by
  have amounts : ∀ v, v ∈ ctx.recentAmounts ↔
      ∃ row ∈ random.generateTransactionHistory accountId 12, (row.amount : K) = v := by
    simp [history]
  refine Engine.amountOutlier_fires rooted (a := 1)
    (b := ((random.accountProfile accountId).historyBound : K)) ?_ ?_ ?_ ?_
  · simp [history, Random.history_length]
  · intro v mem
    obtain ⟨row, within, rfl⟩ := (amounts v).mp mem
    obtain ⟨above, below⟩ := random.history_amounts accountId 12 row within
    exact ⟨by exact_mod_cast above, by exact_mod_cast below⟩
  · obtain ⟨row, mem, row', mem', distinct⟩ := varied
    exact ⟨_, (amounts _).mpr ⟨row, mem, rfl⟩, _, (amounts _).mpr ⟨row', mem', rfl⟩,
      by exact_mod_cast distinct⟩
  · have far : (random.accountProfile accountId).historyBound +
        3 * ((random.accountProfile accountId).historyBound - 1) < amount := by linarith
    rw [paid]
    exact_mod_cast far

namespace Random.Risky

variable {tx : Transaction} (risky : random.Risky tx) (now seen : ℤ)
include risky

omit [IsStrictOrderedRing K] in
theorem newDevice_fires :
    Fires T (tx.engine K now) (random.engineContext K tx.accountId seen) .newDevice := by
  obtain ⟨known, same, old⟩ := (random.accountProfile_plausible tx.accountId).device
  obtain ⟨name, used, fresh⟩ := risky.device
  refine ⟨name, used, ?_, ?_⟩
  · show (random.accountProfile tx.accountId).knownDevices ≠ []
    rw [same]
    exact List.cons_ne_nil _ _
  · show name ∉ (random.accountProfile tx.accountId).knownDevices
    rw [same, List.mem_singleton]
    exact (old.ne (by decide) fresh).symm

theorem newBeneficiary_fires (high : 1000 < tx.amount) :
    Fires T (tx.engine K now) (random.engineContext K tx.accountId seen)
      .newBeneficiaryHighValue := by
  obtain ⟨name, paid, fresh⟩ := risky.beneficiary
  refine ⟨name, paid, fun known => ?_, ?_⟩
  · have old := (random.accountProfile_plausible tx.accountId).beneficiaries.2.2 name known
    exact old.ne (by decide) fresh rfl
  · show (1000 : K) < (tx.amount : K)
    exact_mod_cast high

theorem amountOutlier_fires (rooted : Rooted T) (varied : random.Varied tx.accountId) :
    Fires T (tx.engine K now) (random.engineContext K tx.accountId seen) .amountOutlier := by
  have low := (random.accountProfile_plausible tx.accountId).typical.1
  have amount := risky.amount
  refine history_outlier rooted varied rfl rfl ?_
  unfold AccountProfile.historyBound
  linarith

/-- A risky payment scores for its amount and its device, and for its beneficiary when it
is high enough for that. -/
theorem score_ge (rooted : Rooted T) (varied : random.Varied tx.accountId) :
    let verdict := Engine.score T fmt (tx.engine K now) (random.engineContext K tx.accountId seen)
    40 ≤ verdict.riskScore ∧ (1000 < tx.amount → 65 ≤ verdict.riskScore) := by
  have outlier := risky.amountOutlier_fires now seen rooted varied
  have device := risky.newDevice_fires (T := T) now seen
  constructor
  · exact Engine.le_score (show [Rule.amountOutlier, .newDevice].Nodup by decide)
      (List.forall_mem_cons.mpr ⟨outlier, List.forall_mem_singleton.mpr device⟩)
  · intro high
    have beneficiary := risky.newBeneficiary_fires (T := T) now seen high
    exact Engine.le_score
      (show [Rule.amountOutlier, .newBeneficiaryHighValue, .newDevice].Nodup by decide)
      (List.forall_mem_cons.mpr ⟨outlier, List.forall_mem_cons.mpr ⟨beneficiary,
        List.forall_mem_singleton.mpr device⟩⟩)

end Random.Risky

/-- Where a distance of nothing comes out as nothing. -/
structure Grounded (T : Trig K) : Prop where
  sin : T.sin 0 = 0
  sqrt : T.sqrt 0 = 0
  asin : T.asin 0 = 0

omit [LinearOrder K] [IsStrictOrderedRing K] in
theorem haversine_same (grounded : Grounded T) (lat lon : K) :
    Engine.haversineKm T lat lon lat lon = 0 := by
  simp [Engine.haversineKm, grounded.sin, grounded.sqrt, grounded.asin]

/-- Whoever is where he was has not travelled. -/
theorem not_travelled (grounded : Grounded T) {tx : Engine.Transaction K}
    {ctx : Engine.ScoringContext K} {lat lon : K} {seen : ℤ}
    (last : ctx.lastLocation = some ⟨lat, lon, seen⟩) (atLat : tx.lat = some lat)
    (atLon : tx.lon = some lon) : ¬ Fires T tx ctx .impossibleTravel := by
  intro ⟨last', lat', lon', known, lat'', lon'', _, fast⟩
  obtain rfl : ⟨lat, lon, seen⟩ = last' := Option.some.inj (last.symm.trans known)
  obtain rfl : lat = lat' := Option.some.inj (atLat.symm.trans lat'')
  obtain rfl : lon = lon' := Option.some.inj (atLon.symm.trans lon'')
  rw [haversine_same grounded, zero_div] at fast
  have limit : (0 : K) ≤ Engine.IMPOSSIBLE_TRAVEL_KMH := by
    unfold Engine.IMPOSSIBLE_TRAVEL_KMH
    positivity
  exact absurd fast (not_lt.mpr limit)

namespace Random.Ordinary

variable {tx : Transaction} (ordinary : random.Ordinary tx) (now seen : ℤ)
include ordinary

theorem at_home (grounded : Grounded T) :
    ¬ Fires T (tx.engine K now) (random.engineContext K tx.accountId seen) .impossibleTravel := by
  refine not_travelled grounded rfl ?_ ?_
  · simp [Transaction.engine, ordinary.home.1]
  · simp [Transaction.engine, ordinary.home.2]

theorem small : ¬ Fires T (tx.engine K now) (random.engineContext K tx.accountId seen)
    .velocityAmount := by
  have high := (random.accountProfile_plausible tx.accountId).typical.2
  have amount := ordinary.amount
  have bound : ∀ row ∈ random.generateTransactionHistory tx.accountId 12, row.amount ≤ 651 := by
    intro row mem
    have below := (random.history_amounts tx.accountId 12 row mem).2
    unfold AccountProfile.historyBound at below
    linarith
  have last : ((random.generateTransactionHistory tx.accountId 12).map (·.amount)).getLastD 0 ≤
      (651 : ℚ) := by
    rw [List.getLastD_eq_getLast?]
    cases found : ((random.generateTransactionHistory tx.accountId 12).map (·.amount)).getLast? with
    | none => simp
    | some v =>
      obtain ⟨row, mem, rfl⟩ := List.mem_map.mp (List.mem_of_getLast? found)
      exact bound row mem
  have sum : ((random.generateTransactionHistory tx.accountId 12).map (·.amount)).getLastD 0 +
      tx.amount ≤ 5000 := by linarith
  show ¬ (5000 : K) < ((_ : ℚ) : K) + (tx.amount : K)
  exact not_lt.mpr (by exact_mod_cast sum)

/-- Only the amount can speak against an ordinary payment. -/
theorem only_outlier (grounded : Grounded T) (r : Rule)
    (fires : Fires T (tx.engine K now) (random.engineContext K tx.accountId seen) r) :
    r ∈ [Rule.amountOutlier] := by
  have profiled := random.accountProfile_plausible tx.accountId
  cases r with
  | velocityCount => exact absurd (show 5 ≤ 1 from fires) (by decide)
  | velocityAmount => exact absurd fires (ordinary.small now seen)
  | amountOutlier => exact List.mem_singleton_self _
  | impossibleTravel => exact absurd fires (ordinary.at_home now seen grounded)
  | newBeneficiaryHighValue =>
    obtain ⟨name, paid, unknown, _⟩ := fires
    obtain ⟨known, same, mem⟩ := ordinary.beneficiary
    obtain rfl : known = name := Option.some.inj (same.symm.trans paid)
    exact absurd mem unknown
  | newDevice =>
    obtain ⟨name, used, _, unknown⟩ := fires
    have same : tx.deviceId = some name := used
    rw [ordinary.device] at same
    exact absurd (List.mem_of_mem_head? same) unknown

theorem score_eq (grounded : Grounded T) :
    (Engine.score T fmt (tx.engine K now) (random.engineContext K tx.accountId seen)).riskScore =
        0 ∨
      (Engine.score T fmt (tx.engine K now) (random.engineContext K tx.accountId seen)).riskScore =
        30 := by
  have only := ordinary.only_outlier (T := T) now seen grounded
  by_cases outlier : Fires T (tx.engine K now) (random.engineContext K tx.accountId seen)
      .amountOutlier
  · right
    have listed : ∀ r, Fires T (tx.engine K now) (random.engineContext K tx.accountId seen) r →
        r ∈ [Rule.amountOutlier] := only
    exact le_antisymm (Engine.score_le listed)
      (Engine.le_score (List.nodup_singleton _) (List.forall_mem_singleton.mpr outlier))
  · left
    have none : ∀ r, Fires T (tx.engine K now) (random.engineContext K tx.accountId seen) r →
        r ∈ ([] : List Rule) := by
      intro r fires
      obtain rfl := List.mem_singleton.mp (only r fires)
      exact absurd fires outlier
    exact Nat.le_zero.mp (Engine.score_le none)

end Random.Ordinary

/-! ## The pipeline -/

variable {o : Orchestrator}

/-- In the run `h` the context of the payment is its account's own, and the verdict on it,
if there is one, the engine's. -/
structure Served (parse : String → Option ℤ) (T : Trig K) (fmt : Engine.NumberFormat K)
    (host : Host) (random : Random) (tx : Transaction) (h : History) : Prop where
  context : ∀ ctx, ⟨.buildScoringContext tx.accountId tx.amount, .ok ctx⟩ ∈ h →
    ∃ lastSeen, ctx = random.buildScoringContext host.isoformat tx.accountId lastSeen
  verdict : ∀ ctx rules, ⟨.buildScoringContext tx.accountId tx.amount, .ok ctx⟩ ∈ h →
    ⟨.score tx ctx, .ok rules⟩ ∈ h →
      HttpRiskEngineClient.score parse T fmt host tx ctx = .ok rules

omit [IsStrictOrderedRing K] in
/-- The verdict of a payment of the feed is the engine's in the account's context. -/
theorem demoCase_scored {tx : Transaction} {h : History} {result : PipelineResult}
    (run : (o.processTransaction host tx none none).Runs h (.ok result))
    (served : Served parse T fmt host random tx h) :
    ∃ now seen, result.rules = some (.ofResponse
      (Engine.score T fmt (tx.engine K now) (random.engineContext K tx.accountId seen))) := by
  obtain ⟨ctx, rules, built, scored, kept⟩ := builtCase_scored (onNew_returns run)
  obtain ⟨lastSeen, rfl⟩ := served.context ctx built
  obtain ⟨now, seen, _, _, rfl⟩ :=
    HttpRiskEngineClient.score_synthetic (served.verdict _ rules built scored)
  exact ⟨now, seen, kept⟩

/-- **A forced risky payment is looked into**: whatever is drawn for it, unless the past
payments of its account are all of one amount, it scores at least 40, at least 65 when it
is above 1000, and no run of the pipeline on it ends at stage 0. -/
theorem risky_reaches_triage (rooted : Rooted T) (txId : String) (now : Time)
    (accountId : Option String) (state : random.State) {tx : Transaction}
    (drawn : (random.generateDemoTransaction txId now true accountId state).1 = tx)
    (varied : random.Varied tx.accountId) {h : History} {result : PipelineResult}
    (run : (o.processTransaction host tx none none).Runs h (.ok result))
    (served : Served parse T fmt host random tx h) :
    result.triage.isSome ∧ ∃ rules, result.rules = some rules ∧ 40 ≤ rules.riskScore ∧
      (1000 < tx.amount → 65 ≤ rules.riskScore) := by
  have risky : random.Risky tx := drawn ▸ random.demoTransaction_risky txId now accountId state
  obtain ⟨now, seen, scored⟩ := demoCase_scored run served
  obtain ⟨low, high⟩ := @Random.Risky.score_ge K _ _ _ T fmt random tx risky now seen rooted varied
  obtain ⟨_, _, s, rules, prefilter, _, _, _, finished, owner, story⟩ :=
    Orchestrator.stages_told (onNew_returns run)
  obtain ⟨_, _, _, _, rfl⟩ := finish_appends owner finished
  have same : rules = .ofResponse _ := Option.some.inj (story.shaped.ruled.symm.trans scored)
  have low' : 40 ≤ rules.riskScore := by
    rw [same]
    exact Int.ofNat_le.mpr low
  refine ⟨story.shaped.triage.mpr (.inl (by omega)), rules, story.shaped.ruled, low', ?_⟩
  intro above
  rw [same]
  exact Int.ofNat_le.mpr (high above)

/-- **An ordinary payment of the feed is quiet**: it triggers no rule but the one for an
outlying amount, so its score is 0 or 30. -/
theorem ordinary_scores (grounded : Grounded T) (txId : String) (now : Time)
    (accountId : Option String) (state : random.State) {tx : Transaction}
    (drawn : (random.generateDemoTransaction txId now false accountId state).1 = tx) {h : History}
    {result : PipelineResult}
    (run : (o.processTransaction host tx none none).Runs h (.ok result))
    (served : Served parse T fmt host random tx h) :
    ∃ rules, result.rules = some rules ∧
      (rules.riskScore = 0 ∨ rules.riskScore = 30) := by
  have ordinary : random.Ordinary tx :=
    drawn ▸ random.demoTransaction_ordinary txId now accountId state
  obtain ⟨now, seen, scored⟩ := demoCase_scored run served
  refine ⟨_, scored, ?_⟩
  show ((_ : ℕ) : ℤ) = 0 ∨ ((_ : ℕ) : ℤ) = 30
  exact_mod_cast @Random.Ordinary.score_eq K _ _ _ T fmt random tx ordinary now seen grounded

end

/-! A payment of each kind, replayed: the generator takes the least of each range, and
every other amount of a history is a standard deviation higher. -/

def leastRandom : Random where
  State := ℕ
  rngFor _ := 0
  index _ s := (0, s)
  randint a _ s := (a, s)
  uniform a _ s := (a, s)
  gauss mu sigma s := (if s % 2 = 0 then mu else mu + sigma, s + 1)
  index_lt _ positive _ := positive
  randint_range _ _ le _ := ⟨le_rfl, le⟩
  uniform_range _ _ le _ := ⟨le_rfl, le⟩
  gauss_range mu sigma nonneg s := by
    show mu - 9 * sigma ≤ (if s % 2 = 0 then mu else mu + sigma) ∧
      (if s % 2 = 0 then mu else mu + sigma) ≤ mu + 9 * sigma
    split <;> constructor <;> linarith

def feedPayment (risky : Bool) : Transaction :=
  (leastRandom.generateDemoTransaction "tx_gate" 0 risky (some "acct_gate") (0 : ℕ)).1

/-- A host as the Python one on the runs below. -/
def feedHost : Host :=
  { replayHost with
    isoformat t := if t = 0 then "1970-01-01T00:00:00+00:00" else "1969-12-31T23:00:00+00:00"
    dumps
      | .dict fields =>
        match fields.lookup "query", fields.lookup "hit" with
        | some (.str query), some (.bool hit) =>
          "\x7b\"query\": \"" ++ query ++ "\", \"hit\": " ++ (if hit then "true" else "false") ++
            ", \"list\": \"vaultwatch-synthetic-watchlist-v1\"\x7d"
        | _, _ => replayHost.dumps (.dict fields)
      | v => replayHost.dumps v }

/-- The times of the runs below, as the engine reads them. -/
def feedParse (text : String) : Option ℤ :=
  if text = "1970-01-01T00:00:00Z" then some 0
  else if text = "1969-12-31T23:00:00+00:00" then some (-3600000000000)
  else none

theorem real_rooted : Rooted Trig.real where
  pos _ := Real.sqrt_pos.mpr
  le _ _ nonneg bound := (Real.sqrt_le_left nonneg).mpr bound

theorem real_grounded : Grounded Trig.real := ⟨Real.sin_zero, Real.sqrt_zero, Real.arcsin_zero⟩

noncomputable def feedWorld (risky : Bool) : ReplayWorld where
  loads text :=
    if text = historyText then .ok (.dict [("history", .list (travelHistory.map (.dict ·.asDict)))])
    else if text = graphText then .ok (.dict travelGraph.asDict)
    else if text = feedHost.dumps
        (.dict (ReplayWorld.screening (ReplayWorld.screenedName (feedPayment risky)))) then
      .ok (.dict (ReplayWorld.screening (ReplayWorld.screenedName (feedPayment risky))))
    else .error (.exception "JSONDecodeError")
  verdict := Engine.score Trig.real ⟨fun _ _ => ""⟩ ((feedPayment risky).engine ℝ 0)
    (leastRandom.engineContext ℝ "acct_gate" (-3600000000000))
  prefilter := { anomalyScore := 0, isAnomaly := false }
  history := travelHistory
  graph := travelGraph
  read := (0, [])

noncomputable def feedAnswers (risky : Bool) (past : History) : (o : Op) → o.Res
  | .buildScoringContext .. =>
    .ok (leastRandom.buildScoringContext feedHost.isoformat "acct_gate" (-HOUR))
  | .complete request => ReplayProvider.complete (feedWorld risky).loads feedHost
      ("0000000" ++ toString past.length) request
  | .score .. => .ok (feedWorld risky).rules
  | .prefilter .. => .ok (feedWorld risky).prefilter
  | .generateTransactionHistory _ => .ok (.list (travelHistory.map (.dict ·.asDict)))
  | .generateEntityGraph _ => .ok (.dict travelGraph.asDict)
  | o => clearAnswers past o

noncomputable def feedRun (risky : Bool) : History × Except Raised PipelineResult :=
  (replayOrchestrator.processTransaction feedHost (feedPayment risky) none none).play
    (feedAnswers risky) []

theorem feedPayment_account (risky : Bool) : (feedPayment risky).accountId = "acct_gate" := by
  cases risky <;> rfl

theorem feedAnswers_within (risky : Bool) (past : History) (op : Op) :
    (feedWorld risky).Answers feedHost op (feedAnswers risky past op) := by
  cases op with
  | buildScoringContext accountId amount => exact ⟨_, rfl⟩
  | append transactionId eventType payload => exact ⟨_, rfl⟩
  | verify => exact ⟨_, _, rfl, rfl, rfl⟩
  | complete request => exact ⟨_, rfl⟩
  | score tx ctx => rfl
  | prefilter tx ctx => rfl
  | send event => rfl
  | now => trivial
  | recentSecurityEvents accountId => rfl
  | generateTransactionHistory accountId => rfl
  | generateEntityGraph accountId => rfl
  | checkSanctionsList name => trivial
  | simulateExecution transaction => trivial

theorem feed_roundTrip (risky : Bool) : ∀ v ∈ (feedWorld risky).toolResults (feedPayment risky),
    (feedWorld risky).loads (feedHost.dumps v) = .ok v := by
  intro v mem
  obtain rfl | rfl | rfl : v = _ ∨ v = _ ∨ v = _ := by
    simpa [ReplayWorld.toolResults] using mem
  · cases risky <;> rfl
  · cases risky <;> rfl
  · cases risky <;> rfl

theorem feed_within (risky : Bool) :
    ∀ d ∈ (feedRun risky).1, (feedWorld risky).Answers feedHost d.1 d.2 ∧
      ∀ accountId amount ctx, d = ⟨.buildScoringContext accountId amount, .ok ctx⟩ →
        ctx = leastRandom.buildScoringContext feedHost.isoformat "acct_gate" (-HOUR) := by
  intro d mem
  obtain ⟨past, answered⟩ := Prog.play_answers (feedAnswers risky) [] _ mem
  constructor
  · rw [answered]
    exact feedAnswers_within risky past d.1
  · intro accountId amount ctx same
    subst same
    exact Except.ok.inj answered

theorem feed_returns (risky : Bool) : ∃ result, (feedRun risky).2 = .ok result := by
  have lax : feedHost.Lax := by constructor <;> intro _ <;> rfl
  obtain ⟨result, same, _⟩ := (onNew_assured (ReplayWorld.stages_assures (w := feedWorld risky)
    (o := replayOrchestrator) lax rfl rfl (feed_roundTrip risky) none none)).runs
      (Prog.play_runs (feedAnswers risky) [] _) fun d mem => (feed_within risky d mem).1
  exact ⟨result, same⟩

theorem feedRun_runs (risky : Bool) :
    (replayOrchestrator.processTransaction feedHost (feedPayment risky) none none).Runs
      (feedRun risky).1 (feedRun risky).2 :=
  Prog.play_runs (feedAnswers risky) [] _

theorem feedPayment_drawn (risky : Bool) : (leastRandom.generateDemoTransaction "tx_gate" 0 risky
    (some "acct_gate") (0 : ℕ)).1 = feedPayment risky := rfl

theorem feed_served (risky : Bool) : Served feedParse Trig.real ⟨fun _ _ => ""⟩ feedHost leastRandom
    (feedPayment risky) (feedRun risky).1 where
  context ctx mem := by
    rw [feedPayment_account]
    exact ⟨-HOUR, (feed_within risky _ mem).2 _ _ ctx rfl⟩
  verdict ctx rules mem scored := by
    obtain rfl := (feed_within risky _ mem).2 _ _ ctx rfl
    obtain rfl : rules = (feedWorld risky).rules := Except.ok.inj (feed_within risky _ scored).1
    unfold HttpRiskEngineClient.score
    rw [Random.context_request]
    cases risky <;> rfl

theorem risky_reaches_triage_least : ∃ result, (feedRun true).2 = .ok result ∧
    result.triage.isSome ∧ ∃ rules, result.rules = some rules ∧ 40 ≤ rules.riskScore := by
  obtain ⟨result, same⟩ := feed_returns true
  have varied : leastRandom.Varied (feedPayment true).accountId := by
    rw [feedPayment_account]
    refine ⟨_, List.getElem_mem (n := 0) (by decide), _, List.getElem_mem (n := 1) (by decide), ?_⟩
    decide +kernel
  have run := feedRun_runs true
  rw [same] at run
  obtain ⟨triaged, rules, ruled, low, _⟩ := risky_reaches_triage real_rooted "tx_gate" 0
    (some "acct_gate") (show leastRandom.State from (0 : ℕ)) (feedPayment_drawn true) varied run
    (feed_served true)
  exact ⟨result, same, triaged, rules, ruled, low⟩

theorem ordinary_scores_least : ∃ result rules, (feedRun false).2 = .ok result ∧
    result.rules = some rules ∧ (rules.riskScore = 0 ∨ rules.riskScore = 30) := by
  obtain ⟨result, same⟩ := feed_returns false
  have run := feedRun_runs false
  rw [same] at run
  obtain ⟨rules, ruled, score⟩ := ordinary_scores real_grounded "tx_gate" 0
    (some "acct_gate") (show leastRandom.State from (0 : ℕ)) (feedPayment_drawn false) run
    (feed_served false)
  exact ⟨result, rules, same, ruled, score⟩

end VaultWatch.Agents
