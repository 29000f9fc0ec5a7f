import Mathlib.Data.List.Basic
import VaultWatch.Lib.Lines

/-! Texts of bytes, numbers and strings: lower-case hexadecimal, decimal and
JSON string literals. Each writer has a reader on the list of characters that
takes back what was written and returns the characters behind it, so readers
compose by following one another. -/
namespace VaultWatch.Lib.Text

open VaultWatch.Lib.Lines

/-! ## Hexadecimal -/

def hexDigit (n : Nat) : Char :=
  if n < 10 then Char.ofNat (48 + n) else Char.ofNat (87 + n)

def hexValue (c : Char) : Option Nat :=
  if '0' ≤ c ∧ c ≤ '9' then some (c.toNat - 48)
  else if 'a' ≤ c ∧ c ≤ 'f' then some (c.toNat - 87)
  else none

theorem hexValue_hexDigit_all : ∀ n, n < 16 → hexValue (hexDigit n) = some n := by decide

theorem hexDigit_injective {m n : Nat} (hm : m < 16) (hn : n < 16)
    (h : hexDigit m = hexDigit n) : m = n := by
  have hv := congrArg hexValue h
  rw [hexValue_hexDigit_all m hm, hexValue_hexDigit_all n hn] at hv
  exact Option.some.inj hv

/-- The two digits of a byte. -/
def hexByte (b : UInt8) : List Char := [hexDigit (b.toNat / 16), hexDigit (b.toNat % 16)]

def hexEncode (bytes : List UInt8) : String := String.ofList (bytes.flatMap hexByte)

theorem hexByte_injective {a b : UInt8} (h : hexByte a = hexByte b) : a = b := by
  have ha := UInt8.toNat_lt a
  have hb := UInt8.toNat_lt b
  simp only [hexByte, List.cons.injEq, and_true] at h
  obtain ⟨hhigh, hlow⟩ := h
  have hq := hexDigit_injective (by omega) (by omega) hhigh
  have hr := hexDigit_injective (by omega) (by omega) hlow
  exact UInt8.toNat_inj.mp (by omega)

theorem hexEncode_injective {as bs : List UInt8} (h : hexEncode as = hexEncode bs) : as = bs := by
  have hl : as.flatMap hexByte = bs.flatMap hexByte := by
    simpa [hexEncode] using congrArg String.toList h
  clear h
  induction as generalizing bs with
  | nil =>
    cases bs with
    | nil => rfl
    | cons b bs => simp [hexByte] at hl
  | cons a as ih =>
    cases bs with
    | nil => simp [hexByte] at hl
    | cons b bs =>
      simp only [List.flatMap_cons] at hl
      obtain ⟨hhead, htail⟩ := List.append_inj hl rfl
      rw [hexByte_injective hhead, ih htail]

/-! ## Readers -/

/-- What a reader of `α` makes of the next characters: the value read and the
characters behind it. -/
abbrev Reader (α : Type*) := List Char → Option (α × List Char)

/-- The reader takes back what `write` has written, whatever follows it. -/
def Reads {α : Type*} (read : Reader α) (write : α → List Char) (follow : List Char → Prop) :
    Prop := ∀ a rest, follow rest → read (write a ++ rest) = some (a, rest)

/-- Exactly the given characters. -/
def literal : List Char → List Char → Option (List Char)
  | [], cs => some cs
  | _ :: _, [] => none
  | l :: ls, c :: cs => if l = c then literal ls cs else none

@[simp] theorem literal_append (ls rest : List Char) : literal ls (ls ++ rest) = some rest := by
  induction ls with
  | nil => rfl
  | cons l ls ih => simp [literal, ih]

/-! ## Decimal -/

/-- No digit stands at the front. -/
def NoDigit (cs : List Char) : Prop := cs.head?.all (fun c => !c.isDigit) = true

def readNat : Reader Nat := fun cs =>
  match cs.takeWhile Char.isDigit with
  | [] => none
  | digits => some (Nat.ofDigitChars 10 digits 0, cs.dropWhile Char.isDigit)

theorem readNat_toDigits : Reads readNat (Nat.toDigits 10) NoDigit := by
  intro n rest hrest
  have hdigits : ∀ c ∈ Nat.toDigits 10 n, c.isDigit = true :=
    fun c hc => Nat.isDigit_of_mem_toDigits (by omega) (by omega) hc
  have hstop : rest.takeWhile Char.isDigit = [] ∧ rest.dropWhile Char.isDigit = rest := by
    cases rest with
    | nil => exact ⟨rfl, rfl⟩
    | cons c rest =>
      have hc : c.isDigit = false := by simpa [NoDigit] using hrest
      simp [hc]
  unfold readNat
  rw [List.takeWhile_append_of_pos hdigits, List.dropWhile_append_of_pos hdigits, hstop.1,
    hstop.2, List.append_nil]
  cases hd : Nat.toDigits 10 n with
  | nil => exact absurd hd Nat.toDigits_ne_nil
  | cons d ds =>
    simp only
    rw [← hd, Nat.ofDigitChars_ten_toDigits]

/-! ## JSON string literals -/

/-- How a character stands inside a string literal: quotes, backslashes and
control characters are escaped, everything else stands for itself. -/
def escapeChar (c : Char) : List Char :=
  if c = '"' then ['\\', '"']
  else if c = '\\' then ['\\', '\\']
  else if c = '\n' then ['\\', 'n']
  else if c = '\r' then ['\\', 'r']
  else if c = '\t' then ['\\', 't']
  else if c.toNat = 8 then ['\\', 'b']
  else if c.toNat = 12 then ['\\', 'f']
  else if c.toNat < 32 then
    ['\\', 'u', '0', '0', hexDigit (c.toNat / 16), hexDigit (c.toNat % 16)]
  else [c]

def quoteChars (cs : List Char) : List Char := '"' :: (cs.flatMap escapeChar ++ ['"'])

/-- The JSON literal of a string. -/
def quote (s : String) : String := String.ofList (quoteChars s.toList)

@[simp] theorem toList_quote (s : String) : (quote s).toList = quoteChars s.toList := by
  simp [quote]

/-- The character a short escape stands for. -/
def unescape (c : Char) : Option Char :=
  if c = '"' ∨ c = '\\' ∨ c = '/' then some c
  else if c = 'n' then some '\n'
  else if c = 'r' then some '\r'
  else if c = 't' then some '\t'
  else if c = 'b' then some (Char.ofNat 8)
  else if c = 'f' then some (Char.ofNat 12)
  else none

/-- The character a `\u` escape stands for, surrogates excluded. -/
def hexChar (a b c d : Char) : Option Char := do
  let a ← hexValue a
  let b ← hexValue b
  let c ← hexValue c
  let d ← hexValue d
  let n := a * 4096 + b * 256 + c * 16 + d
  if n.isValidChar then some (Char.ofNat n) else none

/-- The characters up to the closing quote. -/
def readBody : List Char → Option (List Char × List Char)
  | [] => none
  | c :: rest =>
    if c = '"' then some ([], rest)
    else if c = '\\' then
      match rest with
      | [] => none
      | e :: rest =>
        if e = 'u' then
          match rest with
          | a :: b :: c :: d :: rest =>
            (hexChar a b c d).bind fun x => (readBody rest).map fun p => (x :: p.1, p.2)
          | _ => none
        else (unescape e).bind fun x => (readBody rest).map fun p => (x :: p.1, p.2)
    else if c.toNat < 32 then none
    else (readBody rest).map fun p => (c :: p.1, p.2)

def readQuoted : Reader (List Char)
  | '"' :: rest => readBody rest
  | _ => none

/-- The string a JSON literal stands for. -/
def readString : Reader String := fun cs =>
  (readQuoted cs).map fun p => (String.ofList p.1, p.2)

theorem hexChar_control (c : Char) (h : c.toNat < 32) :
    hexChar '0' '0' (hexDigit (c.toNat / 16)) (hexDigit (c.toNat % 16)) = some c := by
  have hzero : hexValue '0' = some 0 := by decide
  unfold hexChar
  rw [hzero, hexValue_hexDigit_all _ (by omega : c.toNat / 16 < 16),
    hexValue_hexDigit_all _ (by omega : c.toNat % 16 < 16)]
  have hn : 0 * 4096 + 0 * 256 + c.toNat / 16 * 16 + c.toNat % 16 = c.toNat := by omega
  simp only [Option.bind_eq_bind, Option.bind_some, hn]
  rw [if_pos (by left; omega), Char.ofNat_toNat]

theorem readBody_quote (rest : List Char) : readBody ('"' :: rest) = some ([], rest) := by
  rw [readBody.eq_def]
  simp

/-- A backslash and a letter other than `u`. -/
theorem readBody_short {e c : Char} (he : e ≠ 'u') (hc : unescape e = some c) (rest : List Char) :
    readBody ('\\' :: e :: rest) = (readBody rest).map fun p => (c :: p.1, p.2) := by
  rw [readBody.eq_def]
  simp [he, hc]

theorem readBody_hex {a b c d x : Char} (hx : hexChar a b c d = some x) (rest : List Char) :
    readBody ('\\' :: 'u' :: a :: b :: c :: d :: rest) =
      (readBody rest).map fun p => (x :: p.1, p.2) := by
  rw [readBody.eq_def]
  simp [hx]

theorem readBody_plain {c : Char} (hquote : c ≠ '"') (hslash : c ≠ '\\') (h : 32 ≤ c.toNat)
    (rest : List Char) :
    readBody (c :: rest) = (readBody rest).map fun p => (c :: p.1, p.2) := by
  rw [readBody.eq_def]
  simp [hquote, hslash, Nat.not_lt.mpr h]

/-- The three forms of an escaped character. -/
theorem escapeChar_cases (c : Char) :
    (∃ e, escapeChar c = ['\\', e] ∧ e ≠ 'u' ∧ 32 ≤ e.toNat ∧ unescape e = some c) ∨
    (c.toNat < 32 ∧ escapeChar c =
      ['\\', 'u', '0', '0', hexDigit (c.toNat / 16), hexDigit (c.toNat % 16)]) ∨
    (c ≠ '"' ∧ c ≠ '\\' ∧ 32 ≤ c.toNat ∧ escapeChar c = [c]) := by
  unfold escapeChar
  split
  · next h => subst h; exact .inl ⟨'"', rfl, by decide⟩
  split
  · next h => subst h; exact .inl ⟨'\\', rfl, by decide⟩
  split
  · next h => subst h; exact .inl ⟨'n', rfl, by decide⟩
  split
  · next h => subst h; exact .inl ⟨'r', rfl, by decide⟩
  split
  · next h => subst h; exact .inl ⟨'t', rfl, by decide⟩
  split
  · next h =>
    have hc : Char.ofNat 8 = c := by rw [← h, Char.ofNat_toNat]
    subst hc
    exact .inl ⟨'b', rfl, by decide⟩
  split
  · next h =>
    have hc : Char.ofNat 12 = c := by rw [← h, Char.ofNat_toNat]
    subst hc
    exact .inl ⟨'f', rfl, by decide⟩
  split
  · next h => exact .inr (.inl ⟨h, rfl⟩)
  · next hquote hslash _ _ _ _ _ h => exact .inr (.inr ⟨hquote, hslash, by omega, rfl⟩)

/-- The reader undoes one escaped character. -/
theorem readBody_escapeChar (c : Char) (rest : List Char) :
    readBody (escapeChar c ++ rest) = (readBody rest).map fun p => (c :: p.1, p.2) := by
  rcases escapeChar_cases c with ⟨e, hesc, hu, _, hc⟩ | ⟨hctrl, hesc⟩ | ⟨hquote, hslash, hc, hesc⟩
  · rw [hesc]
    exact readBody_short hu hc rest
  · rw [hesc]
    exact readBody_hex (hexChar_control c hctrl) rest
  · rw [hesc]
    exact readBody_plain hquote hslash hc rest

theorem readBody_flatMap (cs rest : List Char) :
    readBody (cs.flatMap escapeChar ++ '"' :: rest) = some (cs, rest) := by
  induction cs with
  | nil => exact readBody_quote rest
  | cons c cs ih =>
    rw [List.flatMap_cons, List.append_assoc, readBody_escapeChar, ih]
    rfl

theorem readString_quote : Reads readString (fun s => (quote s).toList) (fun _ => True) := by
  intro s rest _
  show (readQuoted ((quote s).toList ++ rest)).map _ = _
  rw [toList_quote, quoteChars, List.cons_append, List.append_assoc, List.singleton_append]
  show (readBody (s.toList.flatMap escapeChar ++ '"' :: rest)).map _ = _
  rw [readBody_flatMap]
  simp

/-! ## Literals hold no raw line break -/

theorem hexDigit_printable {n : Nat} (h : n < 16) : 32 ≤ (hexDigit n).toNat := by
  have hall : ∀ n, n < 16 → 32 ≤ (hexDigit n).toNat := by decide
  exact hall n h

theorem escapeChar_printable {c d : Char} (h : d ∈ escapeChar c) : 32 ≤ d.toNat := by
  have hslash : 32 ≤ '\\'.toNat := by decide
  rcases escapeChar_cases c with ⟨e, hesc, _, he, _⟩ | ⟨hctrl, hesc⟩ | ⟨_, _, hc, hesc⟩
  · rw [hesc] at h
    simp only [List.mem_cons, List.not_mem_nil, or_false] at h
    rcases h with rfl | rfl
    · exact hslash
    · exact he
  · rw [hesc] at h
    simp only [List.mem_cons, List.not_mem_nil, or_false] at h
    rcases h with rfl | rfl | rfl | rfl | rfl | rfl
    · exact hslash
    · show 32 ≤ 117; omega
    · show 32 ≤ 48; omega
    · show 32 ≤ 48; omega
    · exact hexDigit_printable (by omega)
    · exact hexDigit_printable (by omega)
  · rw [hesc] at h
    obtain rfl := List.mem_singleton.mp h
    exact hc

/-- Printable characters only. -/
def Printable (cs : List Char) : Prop := ∀ c ∈ cs, 32 ≤ c.toNat

theorem Printable.append {cs ds : List Char} (hc : Printable cs) (hd : Printable ds) :
    Printable (cs ++ ds) := by
  intro c h
  rcases List.mem_append.mp h with h | h
  · exact hc c h
  · exact hd c h

theorem printable_quote (s : String) : Printable (quote s).toList := by
  rw [toList_quote]
  intro c h
  simp only [quoteChars, List.mem_cons, List.mem_append, List.mem_flatMap, List.not_mem_nil,
    or_false] at h
  rcases h with rfl | ⟨d, _, hd⟩ | rfl
  · decide
  · exact escapeChar_printable hd
  · decide

theorem printable_toDigits (n : Nat) : Printable (Nat.toDigits 10 n) := by
  intro c h
  have hd : c.isDigit = true := Nat.isDigit_of_mem_toDigits (by omega) (by omega) h
  simp only [Char.isDigit, Bool.and_eq_true, decide_eq_true_eq] at hd
  have h48 : (48 : UInt32).toNat ≤ c.val.toNat := hd.1
  show 32 ≤ c.val.toNat
  have : (48 : UInt32).toNat = 48 := rfl
  omega

theorem singleLine_of_printable {s : String} (h : Printable s.toList) : SingleLine s := by
  refine ⟨fun hn => ?_, fun hr => ?_⟩
  · have := h _ hn
    simp at this
  · have := h _ hr
    simp at this

end VaultWatch.Lib.Text
