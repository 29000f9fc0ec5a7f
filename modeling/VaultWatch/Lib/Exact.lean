import Mathlib.Algebra.Order.Field.Basic
import Mathlib.Analysis.SpecialFunctions.Trigonometric.Inverse
import Mathlib.Data.List.Basic

/-! What programs that compute with real numbers share: the trigonometric
functions as a parameter of any ordered field, the length of a time interval at
the resolutions of different libraries, speeds, and rules of which some fire.
Instants are nanoseconds. -/
namespace VaultWatch.Lib.Exact

/-- The functions of a mathematics library, exact. -/
structure Trig (K : Type) where
  pi : K
  sin : K → K
  cos : K → K
  asin : K → K
  sqrt : K → K

/-- The functions of the real numbers. -/
noncomputable def Trig.real : Trig ℝ := ⟨Real.pi, Real.sin, Real.cos, Real.arcsin, Real.sqrt⟩

/-! ## Intervals -/

/-- The whole seconds of an interval, without their fraction. -/
def wholeSeconds (interval : ℤ) : ℤ := interval.tdiv 1000000000

/-- An instant on a clock of milliseconds. -/
def millis (instant : ℤ) : ℤ := instant / 1000000

theorem millis_mono {s t : ℤ} (le : s ≤ t) : millis s ≤ millis t :=
  Int.ediv_le_ediv (by norm_num) le

theorem nonneg_of_wholeSeconds_pos {d : ℤ} (positive : 0 < wholeSeconds d) : 0 ≤ d := by
  by_contra before
  have opposite : 0 ≤ wholeSeconds (-d) := Int.tdiv_nonneg (by omega) (by norm_num)
  unfold wholeSeconds at *
  rw [Int.neg_tdiv] at opposite
  omega

/-- The clock of milliseconds is never behind the whole seconds of an interval. -/
theorem wholeSeconds_le_millis {s t : ℤ} (positive : 0 < wholeSeconds (t - s)) :
    1000 * wholeSeconds (t - s) ≤ millis t - millis s := by
  have later : 0 ≤ t - s := nonneg_of_wholeSeconds_pos positive
  unfold wholeSeconds millis
  rw [Int.tdiv_eq_ediv_of_nonneg later]
  omega

theorem wholeSeconds_nonneg {s t : ℤ} (positive : 0 < millis t - millis s) :
    0 ≤ wholeSeconds (t - s) := by
  have later : s ≤ t := by
    by_contra before
    have := millis_mono (not_le.mp before).le
    omega
  exact Int.tdiv_nonneg (Int.sub_nonneg_of_le later) (by norm_num)

/-! ## Speeds -/

section
variable {K : Type} [Field K] [LinearOrder K] [IsStrictOrderedRing K]

/-- A speed over a limit, without the division: `x` counts the time in parts of
which there are `unit` in one. -/
theorem speed_gt_iff {unit : K} (hunit : 0 < unit) (limit distance x : K) :
    0 < x / unit ∧ limit < distance / (x / unit) ↔ 0 < x ∧ limit * x < distance * unit := by
  have positive : 0 < x / unit ↔ 0 < x := div_pos_iff_of_pos_right hunit
  rw [positive]
  refine and_congr_right fun hx => ?_
  rw [div_div_eq_mul_div, lt_div_iff₀ hx]

end

/-! ## Rules -/

section
variable {ι α β κ : Type} {key : β → κ} {name : κ} {p q : Prop} {result : Option β}

/-- A rule has a result exactly under the condition `p`, and always under one name. -/
structure Decides (key : β → κ) (name : κ) (p : Prop) (result : Option β) : Prop where
  named : ∀ b, result = some b → key b = name
  isSome : result.isSome = true ↔ p

theorem Decides.ite [Decidable p] {b : β} (named : key b = name) :
    Decides key name p (if p then some b else none) where
  named _ fired := (Option.ite_some_none_eq_some.mp fired).2 ▸ named
  isSome := Option.isSome_ite

/-- A condition that is checked before the rule's own. -/
theorem Decides.guard [Decidable p] (rule : Decides key name q result) :
    Decides key name (p ∧ q) (if p then result else none) where
  named b fired := rule.named b (Option.ite_none_right_eq_some.mp fired).2
  isSome := by
    by_cases checked : p
    · simpa [checked] using rule.isSome
    · simp [checked]

/-- A rule about a value that may be missing. -/
theorem Decides.given {o : Option α} {p : α → Prop} (absent : o = none → result = none)
    (present : ∀ a, o = some a → Decides key name (p a) result) :
    Decides key name (∃ a, o = some a ∧ p a) result := by
  cases o with
  | none => exact ⟨by simp [absent rfl], by simp [absent rfl]⟩
  | some a => exact ⟨(present a rfl).named, by simpa using (present a rfl).isSome⟩

/-- The results of the rules that fired, in the order of the rules, are known by
which rules fired. -/
theorem map_key_filterMap (rules : List ι) (f : ι → Option β) (key : β → κ) (name : ι → κ)
    (named : ∀ i b, f i = some b → key b = name i) :
    (rules.filterMap f).map key = (rules.filter fun i => (f i).isSome).map name := by
  induction rules with
  | nil => rfl
  | cons i rules ih =>
    cases fired : f i with
    | none => simpa [fired] using ih
    | some b => simpa [fired, named i b fired] using ih

theorem filter_eq_filter_iff {rules : List ι} {p q : ι → Bool} :
    rules.filter p = rules.filter q ↔ ∀ i ∈ rules, (p i = true ↔ q i = true) := by
  constructor
  · intro same i mem
    have members : i ∈ rules.filter p ↔ i ∈ rules.filter q := by rw [same]
    simpa [List.mem_filter, mem] using members
  · intro agree
    exact List.filter_congr fun i mem => Bool.eq_iff_iff.mpr (agree i mem)

end

end VaultWatch.Lib.Exact
