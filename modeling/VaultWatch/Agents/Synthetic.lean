import VaultWatch.Agents.Replay
import VaultWatch.Lib.Draws
import Mathlib.Algebra.Order.Floor.Ring
import Mathlib.Data.Rat.Floor

/-! The synthetic accounts and payments (`agents-python/app/synthetic.py`). Everything is
drawn from a `random.Random`, of which only what the library promises is known. -/
namespace VaultWatch.Agents

open VaultWatch.Lib.Draws

/-- `random.Random`. A `gauss` is made of 53 random bits, so it stays within nine
standard deviations; `index n` is the position that `choice` picks of `n`. -/
structure Random where
  State : Type
  /-- `_rng_for`. -/
  rngFor : String → State
  index : ℕ → StateM State ℕ
  randint : ℕ → ℕ → StateM State ℕ
  uniform : ℚ → ℚ → StateM State ℚ
  gauss : ℚ → ℚ → StateM State ℚ
  index_lt : ∀ n, 0 < n → Gives (· < n) (index n)
  randint_range : ∀ a b, a ≤ b → Gives (fun n => a ≤ n ∧ n ≤ b) (randint a b)
  uniform_range : ∀ a b, a ≤ b → Gives (fun x => a ≤ x ∧ x ≤ b) (uniform a b)
  gauss_range : ∀ mu sigma, 0 ≤ sigma →
    Gives (fun x => mu - 9 * sigma ≤ x ∧ x ≤ mu + 9 * sigma) (gauss mu sigma)

/-- `round(x, digits)`, halves to even. -/
def roundHalfEven (x : ℚ) : ℤ :=
  let rest := x - ⌊x⌋
  if rest < 1 / 2 then ⌊x⌋
  else if 1 / 2 < rest then ⌊x⌋ + 1
  else if ⌊x⌋ % 2 = 0 then ⌊x⌋ else ⌊x⌋ + 1

def round2 (x : ℚ) : ℚ := roundHalfEven (x * 100) / 100

abbrev Point := ℚ × ℚ

def DUBLIN : Point := (533498 / 10000, -62603 / 10000)

def LONDON : Point := (515072 / 10000, -1276 / 10000)

def NEW_YORK : Point := (407128 / 10000, -740060 / 10000)

def SYDNEY : Point := (-338688 / 10000, 1512093 / 10000)

def CITIES : List Point := [DUBLIN, LONDON, NEW_YORK, SYDNEY]

/-- An hour. -/
def HOUR : Time := 3600000000

structure AccountProfile where
  accountId : String
  homeCity : Point
  typicalAmount : ℚ
  knownBeneficiaries : List String
  knownDevices : List String

namespace Random

variable (random : Random)

/-- `rng.choice`, on a list that is not empty. -/
def choice {α : Type} (items : List α) (fallback : α) : StateM random.State α := do
  let i ← random.index items.length
  return items.getD i fallback

/-- `f"{label}_{rng.randint(a, b)}"`. -/
def label (text : String) (a b : ℕ) : StateM random.State String := do
  let n ← random.randint a b
  return text ++ toString n

def accountProfile (accountId : String) : AccountProfile :=
  let draw : StateM random.State AccountProfile := do
    let home ← random.choice CITIES DUBLIN
    let typical := round2 (← random.uniform 20 200)
    let beneficiaries ← draws (random.label "ben_" 1000 9999) (← random.randint 1 4)
    let device ← random.label "dev_" 1000 9999
    return ⟨accountId, home, typical, beneficiaries, [device]⟩
  (draw (random.rngFor accountId)).1

/-- One payment of the history, without its id. -/
def pastPayment (profile : AccountProfile) : StateM random.State (ℚ × String) := do
  let amount ← random.gauss profile.typicalAmount (profile.typicalAmount * (1 / 4))
  let beneficiary ← random.choice profile.knownBeneficiaries ""
  return (max 1 (round2 amount), beneficiary)

def generateTransactionHistory (accountId : String) (n : ℕ := 20) : List HistoryRow :=
  let profile := random.accountProfile accountId
  let payments := (draws (random.pastPayment profile) n (random.rngFor (accountId ++ ":history"))).1
  payments.mapIdx fun i payment => {
    id := "tx_hist_" ++ accountId ++ "_" ++ toString i
    amount := payment.1
    beneficiaryId := payment.2
    deviceId := profile.knownDevices.headD "" }

def generateEntityGraph (accountId : String) : EntityGraph :=
  let draw : StateM random.State (List String) := do
    draws (random.label "acct_" 10000 99999) (← random.randint 0 3)
  let linked := (draw (random.rngFor (accountId ++ ":graph"))).1
  ⟨accountId, linked, linked.length⟩

/-- `lastSeen` is an hour before the call when the caller gives none. -/
def buildScoringContext (isoformat : Time → String) (accountId : String) (lastSeen : Time) :
    ScoringContext :=
  let profile := random.accountProfile accountId
  let amounts := (random.generateTransactionHistory accountId 12).map (·.amount)
  { recentAmounts := amounts
    recentCountLastHour := 1
    recentSumLastHour := amounts.getLastD 0
    knownBeneficiaries := profile.knownBeneficiaries
    knownDevices := profile.knownDevices
    lastLocation := some [("lat", .float profile.homeCity.1), ("lon", .float profile.homeCity.2),
      ("timestamp", .str (isoformat lastSeen))] }

/-- `account_id or f"acct_{...}"`. -/
def accountOr (accountId : Option String) : StateM random.State String :=
  if accountId.getD "" = "" then random.label "acct_" 10000 99999 else pure (accountId.getD "")

/-- `txId` is `tx_` and twelve random hexadecimal digits. -/
def generateDemoTransaction (txId : String) (now : Time) (forceRisky : Bool)
    (accountId : Option String := none) : StateM random.State Transaction := do
  let accountId ← random.accountOr accountId
  let profile := random.accountProfile accountId
  if forceRisky then
    let farCity ← random.choice (CITIES.filter fun c => c ≠ profile.homeCity) NEW_YORK
    let factor ← random.uniform 15 40
    let beneficiary ← random.label "ben_" 100000 999999
    let device ← random.label "dev_" 100000 999999
    return {
      id := txId
      accountId
      amount := round2 (profile.typicalAmount * factor)
      currency := "EUR"
      timestamp := now
      lat := some farCity.1
      lon := some farCity.2
      beneficiaryName := some "Victor Krantz Holdings"
      beneficiaryId := some beneficiary
      deviceId := some device }
  else
    let amount ← random.gauss profile.typicalAmount (profile.typicalAmount * (1 / 5))
    let beneficiary ← random.choice profile.knownBeneficiaries ""
    return {
      id := txId
      accountId
      amount := max 1 (round2 amount)
      currency := "EUR"
      timestamp := now
      lat := some profile.homeCity.1
      lon := some profile.homeCity.2
      beneficiaryName := some "North Quay Supplies"
      beneficiaryId := some beneficiary
      deviceId := profile.knownDevices.head? }

end Random

/-! ## Rounding -/

theorem roundHalfEven_range (x : ℚ) : ⌊x⌋ ≤ roundHalfEven x ∧ roundHalfEven x ≤ ⌈x⌉ := by
  have below := Int.floor_le x
  have apart : 1 / 2 ≤ x - ⌊x⌋ → ⌊x⌋ + 1 ≤ ⌈x⌉ := by
    intro half
    have : (⌊x⌋ : ℚ) < ⌈x⌉ := by linarith [Int.le_ceil x]
    exact_mod_cast this
  have ordered := Int.floor_le_ceil x
  unfold roundHalfEven
  dsimp only
  split
  · exact ⟨le_rfl, ordered⟩
  · rename_i half
    have up := apart (not_lt.mp half)
    split
    · omega
    · split <;> omega

/-- Rounding does not leave bounds of whole hundredths. -/
theorem round2_range {x : ℚ} {a b : ℤ} (low : (a : ℚ) / 100 ≤ x) (high : x ≤ (b : ℚ) / 100) :
    (a : ℚ) / 100 ≤ round2 x ∧ round2 x ≤ (b : ℚ) / 100 := by
  obtain ⟨floor, ceil⟩ := roundHalfEven_range (x * 100)
  have above : a ≤ roundHalfEven (x * 100) := by
    refine le_trans (Int.le_floor.mpr ?_) floor
    linarith
  have below : roundHalfEven (x * 100) ≤ b := by
    refine le_trans ceil (Int.ceil_le.mpr ?_)
    linarith
  have above' : (a : ℚ) ≤ roundHalfEven (x * 100) := by exact_mod_cast above
  have below' : (roundHalfEven (x * 100) : ℚ) ≤ b := by exact_mod_cast below
  unfold round2
  constructor <;> linarith

theorem round2_near (x : ℚ) : x - 1 / 100 ≤ round2 x ∧ round2 x ≤ x + 1 / 100 := by
  obtain ⟨floor, ceil⟩ := roundHalfEven_range (x * 100)
  have below := Int.lt_floor_add_one (x * 100)
  have above := Int.ceil_lt_add_one (x * 100)
  have floor' : (⌊x * 100⌋ : ℚ) ≤ roundHalfEven (x * 100) := by exact_mod_cast floor
  have ceil' : (roundHalfEven (x * 100) : ℚ) ≤ ⌈x * 100⌉ := by exact_mod_cast ceil
  unfold round2
  constructor <;> linarith

/-! ## What is drawn -/

namespace Random

variable (random : Random)

theorem choice_mem {α : Type} {items : List α} (some : items ≠ []) (fallback : α) :
    Gives (· ∈ items) (random.choice items fallback) := by
  refine .bind (random.index_lt _ (List.length_pos_iff.mpr some)) fun i lt => .pure ?_
  rw [List.getD_eq_getElem?_getD, List.getElem?_eq_getElem lt]
  exact List.getElem_mem lt

/-- The text of a number between `a` and `b`. -/
def Labelled (text : String) (a b : ℕ) (name : String) : Prop :=
  ∃ n, a ≤ n ∧ n ≤ b ∧ name = text ++ toString n

theorem label_gives (text : String) {a b : ℕ} (le : a ≤ b) :
    Gives (Labelled text a b) (random.label text a b) :=
  .bind (random.randint_range a b le) fun n range => .pure ⟨n, range.1, range.2, rfl⟩

/-- Labels with the same text and numbers from two ranges apart. -/
theorem Labelled.ne {text name name' : String} {a b c d : ℕ} (apart : b < c)
    (labelled : Labelled text a b name) (labelled' : Labelled text c d name') : name ≠ name' := by
  obtain ⟨n, _, le, rfl⟩ := labelled
  obtain ⟨m, ge, _, rfl⟩ := labelled'
  intro same
  have digits : Nat.toDigits 10 n = Nat.toDigits 10 m := by
    simpa using congrArg String.toList same
  have number := congrArg (fun cs => Nat.ofDigitChars 10 cs 0) digits
  have : n = m := by simpa using number
  omega

end Random

/-- The most that a payment of the history can be. -/
def AccountProfile.historyBound (profile : AccountProfile) : ℚ :=
  13 / 4 * profile.typicalAmount + 1 / 100

/-- What every synthetic account looks like. -/
structure AccountProfile.Plausible (profile : AccountProfile) : Prop where
  home : profile.homeCity ∈ CITIES
  typical : 20 ≤ profile.typicalAmount ∧ profile.typicalAmount ≤ 200
  beneficiaries : 1 ≤ profile.knownBeneficiaries.length ∧ profile.knownBeneficiaries.length ≤ 4 ∧
    ∀ name ∈ profile.knownBeneficiaries, Random.Labelled "ben_" 1000 9999 name
  device : ∃ name, profile.knownDevices = [name] ∧ Random.Labelled "dev_" 1000 9999 name

namespace Random

variable (random : Random)

theorem accountProfile_plausible (accountId : String) :
    (random.accountProfile accountId).Plausible := by
  refine Gives.bind (Q := AccountProfile.Plausible)
    (random.choice_mem (show CITIES ≠ [] by decide) DUBLIN) (fun home known => ?_) _
  refine .bind (random.uniform_range 20 200 (by norm_num)) fun typical range => ?_
  refine .bind (random.randint_range 1 4 (by decide)) fun n count => ?_
  refine .bind ((random.label_gives "ben_" (by decide)).draws n) fun names drawn => ?_
  refine .bind (random.label_gives "dev_" (by decide)) fun device named => .pure ?_
  have rounded := round2_range (a := 2000) (b := 20000) (x := typical) (by linarith) (by linarith)
  exact {
    home := known
    typical := by
      constructor
      · exact le_trans (by norm_num) rounded.1
      · exact rounded.2.trans (by norm_num)
    beneficiaries := ⟨drawn.1.symm ▸ count.1, drawn.1.symm ▸ count.2, drawn.2⟩
    device := ⟨device, rfl, named⟩ }

theorem history_length (accountId : String) (n : ℕ) :
    (random.generateTransactionHistory accountId n).length = n := by
  unfold generateTransactionHistory
  rw [List.length_mapIdx]
  exact (Gives.draws (m := random.pastPayment (random.accountProfile accountId))
    (P := fun _ => True) (fun _ => trivial) n _).1

theorem history_amounts (accountId : String) (n : ℕ) :
    ∀ row ∈ random.generateTransactionHistory accountId n,
      1 ≤ row.amount ∧ row.amount ≤ (random.accountProfile accountId).historyBound := by
  have profiled := random.accountProfile_plausible accountId
  have low := profiled.typical.1
  have each : Gives (fun payment : ℚ × String => 1 ≤ payment.1 ∧
      payment.1 ≤ (random.accountProfile accountId).historyBound)
      (random.pastPayment (random.accountProfile accountId)) := by
    refine .bind (random.gauss_range _ _ (by linarith)) fun amount range => ?_
    refine .bind (P := fun _ => True) (fun _ => trivial) fun _ _ => .pure ?_
    have near := round2_near amount
    unfold AccountProfile.historyBound
    refine ⟨le_max_left _ _, max_le ?_ ?_⟩ <;> linarith
  intro row mem
  obtain ⟨i, lt, rfl⟩ := List.mem_mapIdx.mp mem
  exact (each.draws n _).2 _ (List.getElem_mem lt)

end Random

end VaultWatch.Agents
