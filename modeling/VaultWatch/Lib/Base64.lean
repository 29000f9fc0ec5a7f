import Mathlib.Data.List.Basic

/-! Standard base64 without padding. Three bytes are four characters; one or two bytes
left at the end are two or three. The reader skips line ends and does not look at the
bits left over. -/
namespace VaultWatch.Lib.Base64

/-- The character of a number below 64. -/
def digit (n : Nat) : Char :=
  if n < 26 then Char.ofNat ('A'.toNat + n)
  else if n < 52 then Char.ofNat ('a'.toNat + (n - 26))
  else if n < 62 then Char.ofNat ('0'.toNat + (n - 52))
  else if n = 62 then '+'
  else '/'

def value (c : Char) : Option Nat :=
  if c.isUpper then some (c.toNat - 'A'.toNat)
  else if c.isLower then some (c.toNat - 'a'.toNat + 26)
  else if c.isDigit then some (c.toNat - '0'.toNat + 52)
  else if c = '+' then some 62
  else if c = '/' then some 63
  else none

/-- Six bits at a time. -/
def sextets : List UInt8 → List Nat
  | a :: b :: c :: rest =>
    let n := a.toNat * 65536 + b.toNat * 256 + c.toNat
    n / 262144 :: n / 4096 % 64 :: n / 64 % 64 :: n % 64 :: sextets rest
  | [a, b] =>
    let n := a.toNat * 65536 + b.toNat * 256
    [n / 262144, n / 4096 % 64, n / 64 % 64]
  | [a] =>
    let n := a.toNat * 65536
    [n / 262144, n / 4096 % 64]
  | [] => []

def octets : List Nat → Option (List UInt8)
  | a :: b :: c :: d :: rest => do
    let n := a * 262144 + b * 4096 + c * 64 + d
    let bytes ← octets rest
    return UInt8.ofNat (n / 65536) :: UInt8.ofNat (n / 256) :: UInt8.ofNat n :: bytes
  | [a, b, c] =>
    let n := a * 262144 + b * 4096 + c * 64
    some [UInt8.ofNat (n / 65536), UInt8.ofNat (n / 256)]
  | [a, b] =>
    let n := a * 262144 + b * 4096
    some [UInt8.ofNat (n / 65536)]
  | [_] => none
  | [] => some []

def encode (bytes : List UInt8) : List Char := (sextets bytes).map digit

def decode (cs : List Char) : Option (List UInt8) := do
  let values ← (cs.filter fun c => c ≠ '\n' ∧ c ≠ '\r').mapM value
  octets values

/-! ## The alphabet -/

theorem value_digit {n : Nat} (bound : n < 64) : value (digit n) = some n := by
  have table : ∀ n, n < 64 → value (digit n) = some n := by decide
  exact table n bound

theorem digit_ne {n : Nat} (bound : n < 64) {c : Char} (outside : value c = none) :
    digit n ≠ c := by
  intro same
  rw [← same, value_digit bound] at outside
  cases outside

theorem sextets_lt (bytes : List UInt8) : ∀ n ∈ sextets bytes, n < 64 := by
  fun_induction sextets bytes with
  | case1 a b c rest n ih =>
    have high : n / 262144 < 64 := by
      have := a.toNat_lt
      have := b.toNat_lt
      have := c.toNat_lt
      omega
    simp only [List.mem_cons]
    rintro m (rfl | rfl | rfl | rfl | later)
    · exact high
    · omega
    · omega
    · omega
    · exact ih m later
  | case2 a b n =>
    have := a.toNat_lt
    have := b.toNat_lt
    simp only [List.mem_cons, List.not_mem_nil, or_false]
    rintro m (rfl | rfl | rfl) <;> omega
  | case3 a n =>
    have := a.toNat_lt
    simp only [List.mem_cons, List.not_mem_nil, or_false]
    rintro m (rfl | rfl) <;> omega
  | case4 => simp

/-- Nothing outside the alphabet is in an encoding. -/
theorem not_mem_encode {c : Char} (outside : value c = none) (bytes : List UInt8) :
    c ∉ encode bytes := by
  intro mem
  obtain ⟨n, sextet, same⟩ := List.mem_map.mp mem
  exact digit_ne (sextets_lt bytes n sextet) outside same

/-! ## The round trip -/

theorem octets_sextets (bytes : List UInt8) : octets (sextets bytes) = some bytes := by
  fun_induction sextets bytes with
  | case1 a b c rest n ih =>
    have := a.toNat_lt
    have := b.toNat_lt
    have := c.toNat_lt
    have whole : n / 262144 * 262144 + n / 4096 % 64 * 4096 + n / 64 % 64 * 64 + n % 64 = n := by
      omega
    have first : UInt8.ofNat (n / 65536) = a := UInt8.toNat_inj.mp (by simp; omega)
    have second : UInt8.ofNat (n / 256) = b := UInt8.toNat_inj.mp (by simp; omega)
    have third : UInt8.ofNat n = c := UInt8.toNat_inj.mp (by simp; omega)
    simp [octets, ih, whole, first, second, third]
  | case2 a b n =>
    have := a.toNat_lt
    have := b.toNat_lt
    have whole : n / 262144 * 262144 + n / 4096 % 64 * 4096 + n / 64 % 64 * 64 = n := by omega
    have first : UInt8.ofNat (n / 65536) = a := UInt8.toNat_inj.mp (by simp; omega)
    have second : UInt8.ofNat (n / 256) = b := UInt8.toNat_inj.mp (by simp; omega)
    simp [octets, whole, first, second]
  | case3 a n =>
    have := a.toNat_lt
    have whole : n / 262144 * 262144 + n / 4096 % 64 * 4096 = n := by omega
    have first : UInt8.ofNat (n / 65536) = a := UInt8.toNat_inj.mp (by simp; omega)
    simp [octets, whole, first]
  | case4 => rfl

theorem mapM_value_digit {values : List Nat} (bound : ∀ n ∈ values, n < 64) :
    (values.map digit).mapM value = some values := by
  induction values with
  | nil => rfl
  | cons n values ih =>
    obtain ⟨first, rest⟩ := List.forall_mem_cons.mp bound
    simp [value_digit first, ih rest]

theorem decode_encode (bytes : List UInt8) : decode (encode bytes) = some bytes := by
  have lines : (encode bytes).filter (fun c => c ≠ '\n' ∧ c ≠ '\r') = encode bytes := by
    refine List.filter_eq_self.mpr fun c mem => decide_eq_true ⟨?_, ?_⟩
    · rintro rfl
      exact not_mem_encode (by decide) bytes mem
    · rintro rfl
      exact not_mem_encode (by decide) bytes mem
  unfold decode
  rw [lines, encode, mapM_value_digit (sextets_lt bytes)]
  exact octets_sextets bytes

end VaultWatch.Lib.Base64
