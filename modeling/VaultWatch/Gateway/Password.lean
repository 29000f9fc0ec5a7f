import VaultWatch.Lib.Base64
import VaultWatch.Lib.Lines
import VaultWatch.Lib.Text

/-! Password hashes (`internal/auth/password.go`): the PHC-like string of a key, and the
key found again in it. Argon2id is any function of what `argon2.IDKey` is given;
`strings.Split`, `fmt.Sscanf` and the base64 decoder are Go's. A password is its bytes. -/
namespace VaultWatch.Gateway

open VaultWatch.Lib VaultWatch.Lib.Lines VaultWatch.Lib.Text

def argonTime : UInt32 := 1

/-- 64 MiB. -/
def argonMemory : UInt32 := 64 * 1024

def argonThreads : UInt8 := 4

def argonKeyLen : UInt32 := 32

def saltLen : Nat := 16

/-- The arguments of `argon2.IDKey`, in its order. -/
abbrev KeyDerivation := (password salt : Bytes) → (time memory : UInt32) → (threads : UInt8) →
  (keyLen : UInt32) → Bytes

/-- `argon2.IDKey`, with what it panics with. -/
def idKey (derive : KeyDerivation) (password salt : Bytes) (time memory : UInt32)
    (threads : UInt8) (keyLen : UInt32) : Except String Bytes :=
  if time < 1 then .error "argon2: number of rounds too small"
  else if threads < 1 then .error "argon2: parallelism degree too low"
  else .ok (derive password salt time memory threads keyLen)

/-! ## Hashing -/

/-- The `Sprintf` of `HashPassword`. -/
def encodeHash (memory time : UInt32) (threads : UInt8) (salt hash : Bytes) : String :=
  "$argon2id$v=19$m=" ++ toString memory.toNat ++ ",t=" ++ toString time.toNat ++ ",p=" ++
    toString threads.toNat ++ "$" ++ String.ofList (Base64.encode salt) ++ "$" ++
    String.ofList (Base64.encode hash)

/-- What ends a call without a result: an error, of which `%w` adds the rest, or a panic. -/
inductive PasswordFailure
  | error (text : String)
  | panicked (message : String)
  deriving DecidableEq

/-- `random` is what `rand.Read` filled the salt with, `none` if it fails. -/
def hashPassword (derive : KeyDerivation)
    (random : Option { salt : Bytes // salt.length = saltLen }) (password : Bytes) :
    Except PasswordFailure String :=
  match random with
  | none => .error (.error "generate salt: ")
  | some salt =>
    match idKey derive password salt argonTime argonMemory argonThreads argonKeyLen with
    | .error message => .error (.panicked message)
    | .ok hash => .ok (encodeHash argonMemory argonTime argonThreads salt hash)

/-! ## Verifying -/

/-- `isSpace` of package `fmt`. -/
def isFmtSpace (c : Char) : Bool :=
  let n := c.toNat
  (9 ≤ n && n ≤ 13) || n = 0x20 || n = 0x85 || n = 0xa0 || n = 0x1680 ||
    (0x2000 ≤ n && n ≤ 0x200a) || n = 0x2028 || n = 0x2029 || n = 0x202f || n = 0x205f ||
    n = 0x3000

/-- `SkipSpace` of `Sscanf`, for which a newline is an error. -/
def skipSpace : List Char → Option (List Char)
  | [] => some []
  | c :: cs =>
    if c = '\n' then none
    else if isFmtSpace c then skipSpace cs
    else some (c :: cs)

/-- `%d` into an unsigned integer of the given size. -/
def scanUint (size : Nat) (cs : List Char) : Option (Nat × List Char) := do
  let cs ← skipSpace cs
  let (n, rest) ← readNat cs
  if n < size then some (n, rest) else none

/-- `Sscanf` with `m=%d,t=%d,p=%d`; what follows is not read. -/
def scanParams (cs : List Char) : Option (UInt32 × UInt32 × UInt8) := do
  let cs ← literal "m=".toList cs
  let (memory, cs) ← scanUint UInt32.size cs
  let cs ← literal ",t=".toList cs
  let (time, cs) ← scanUint UInt32.size cs
  let cs ← literal ",p=".toList cs
  let (threads, _) ← scanUint UInt8.size cs
  return (UInt32.ofNat memory, UInt32.ofNat time, UInt8.ofNat threads)

/-- `subtle.ConstantTimeCompare`. -/
def constantTimeCompare (x y : Bytes) : Int :=
  if x.length ≠ y.length then 0
  else if (List.zipWith (· ^^^ ·) x y).foldr (· ||| ·) 0 = 0 then 1
  else 0

def verifyPassword (derive : KeyDerivation) (encoded : String) (password : Bytes) :
    Except PasswordFailure Bool :=
  match encoded.toList.splitOn '$' with
  | [_, name, _, params, salt, hash] =>
    if name ≠ "argon2id".toList then .error (.error "unrecognized hash format")
    else
      match scanParams params with
      | none => .error (.error "parse params: ")
      | some (memory, time, threads) =>
        match Base64.decode salt with
        | none => .error (.error "decode salt: ")
        | some salt =>
          match Base64.decode hash with
          | none => .error (.error "decode hash: ")
          | some expected =>
            match idKey derive password salt time memory threads
                (UInt32.ofNat expected.length) with
            | .error message => .error (.panicked message)
            | .ok actual => .ok (constantTimeCompare actual expected = 1)
  | _ => .error (.error "unrecognized hash format")

/-! ## What is read back -/

theorem constantTimeCompare_eq_one_iff (x y : Bytes) : constantTimeCompare x y = 1 ↔ x = y := by
  have same : ∀ x y : Bytes, x.length = y.length →
      ((List.zipWith (· ^^^ ·) x y).foldr (· ||| ·) 0 = 0 ↔ x = y) := by
    intro x y
    induction x generalizing y with
    | nil => cases y <;> simp
    | cons a x ih =>
      cases y with
      | nil => simp
      | cons b y =>
        intro length
        simp [ih y (by simpa using length)]
  unfold constantTimeCompare
  by_cases length : x.length = y.length
  · by_cases equal : x = y
    · rw [if_neg (not_not_intro length), if_pos ((same x y length).mpr equal)]
      simp [equal]
    · simp [mt (same x y length).mp equal, length, equal]
  · have different : x ≠ y := fun equal => length (congrArg List.length equal)
    simp [length, different]

theorem isFmtSpace_of_isDigit {c : Char} (digit : c.isDigit = true) :
    c ≠ '\n' ∧ isFmtSpace c = false := by
  simp only [Char.isDigit, Bool.and_eq_true, decide_eq_true_eq] at digit
  have low : 48 ≤ c.toNat := digit.1
  have high : c.toNat ≤ 57 := digit.2
  constructor
  · rintro rfl
    exact absurd low (by decide)
  · simp only [isFmtSpace, Bool.or_eq_false_iff, Bool.and_eq_false_iff, decide_eq_false_iff_not]
    omega

/-- `%d` reads back what `%d` has printed. -/
theorem scanUint_toDigits {size n : Nat} (bound : n < size) {rest : List Char}
    (stop : NoDigit rest) :
    scanUint size (Nat.toDigits 10 n ++ rest) = some (n, rest) := by
  have space : skipSpace (Nat.toDigits 10 n ++ rest) = some (Nat.toDigits 10 n ++ rest) := by
    cases front : Nat.toDigits 10 n with
    | nil => exact absurd front Nat.toDigits_ne_nil
    | cons c cs =>
      have digit : c.isDigit = true :=
        Nat.isDigit_of_mem_toDigits (by omega) (by omega) (front ▸ List.mem_cons_self)
      obtain ⟨line, blank⟩ := isFmtSpace_of_isDigit digit
      simp [skipSpace, line, blank]
  simp [scanUint, space, readNat_toDigits n rest stop, bound]

/-- The parameters as `HashPassword` prints them. -/
def paramsText (memory time : UInt32) (threads : UInt8) : List Char :=
  "m=".toList ++ (Nat.toDigits 10 memory.toNat ++ (",t=".toList ++
    (Nat.toDigits 10 time.toNat ++ (",p=".toList ++ (Nat.toDigits 10 threads.toNat ++ [])))))

theorem scanParams_paramsText (memory time : UInt32) (threads : UInt8) :
    scanParams (paramsText memory time threads) = some (memory, time, threads) := by
  have stop : ∀ rest, NoDigit (",t=".toList ++ rest) ∧ NoDigit (",p=".toList ++ rest) :=
    fun rest => ⟨rfl, rfl⟩
  have fits : memory.toNat < UInt32.size ∧ time.toNat < UInt32.size ∧
      threads.toNat < UInt8.size := ⟨memory.toNat_lt, time.toNat_lt, threads.toNat_lt⟩
  have last : NoDigit [] := rfl
  unfold scanParams paramsText
  simp only [literal_append, Option.bind_eq_bind, Option.bind_some,
    scanUint_toDigits fits.1 (stop _).1, scanUint_toDigits fits.2.1 (stop _).2,
    scanUint_toDigits fits.2.2 last]
  simp

/-- The six parts between the dollars. -/
theorem splitOn_encodeHash (memory time : UInt32) (threads : UInt8) (salt hash : Bytes) :
    (encodeHash memory time threads salt hash).toList.splitOn '$' =
      [[], "argon2id".toList, "v=19".toList, paramsText memory time threads, Base64.encode salt,
        Base64.encode hash] := by
  have joined : (encodeHash memory time threads salt hash).toList = ['$'].intercalate
      [[], "argon2id".toList, "v=19".toList, paramsText memory time threads, Base64.encode salt,
        Base64.encode hash] := by
    have front : "$argon2id$v=19$m=".toList = '$' :: ("argon2id".toList ++
        '$' :: ("v=19".toList ++ '$' :: "m=".toList)) := rfl
    have dollar : "$".toList = ['$'] := rfl
    unfold encodeHash paramsText
    simp only [String.toList_append, Nat.toString_eq_ofList_toDigits, String.toList_ofList]
    rw [front, dollar]
    simp only [List.intercalate_cons_cons, List.intercalate_singleton, List.append_assoc,
      List.cons_append, List.nil_append, List.append_nil]
  have digits : ∀ n, '$' ∉ Nat.toDigits 10 n := by
    intro n mem
    have digit := Nat.isDigit_of_mem_toDigits (by decide) (by decide) mem
    exact absurd digit (by decide)
  have text : ∀ bytes, '$' ∉ Base64.encode bytes := Base64.not_mem_encode (by decide)
  rw [joined]
  refine List.splitOn_intercalate '$' ?_ (List.cons_ne_nil _ _)
  simp [paramsText, digits, text]

/-! ## The round trip -/

theorem idKey_ok (derive : KeyDerivation) (password salt : Bytes) {time : UInt32}
    (rounds : 1 ≤ time) (memory : UInt32) {threads : UInt8} (lanes : 1 ≤ threads)
    (keyLen : UInt32) :
    idKey derive password salt time memory threads keyLen =
      .ok (derive password salt time memory threads keyLen) := by
  unfold idKey
  rw [if_neg (UInt32.not_lt.mpr rounds), if_neg (UInt8.not_lt.mpr lanes)]

theorem verifyPassword_encodeHash (derive : KeyDerivation) (memory : UInt32) {time : UInt32}
    (rounds : 1 ≤ time) {threads : UInt8} (lanes : 1 ≤ threads) (salt key password : Bytes) :
    verifyPassword derive (encodeHash memory time threads salt key) password =
      .ok (derive password salt time memory threads (UInt32.ofNat key.length) = key) := by
  unfold verifyPassword
  rw [splitOn_encodeHash]
  simp only [ne_eq, not_true_eq_false, if_false, scanParams_paramsText, Base64.decode_encode,
    idKey_ok derive password salt rounds memory lanes, constantTimeCompare_eq_one_iff]

/-- A key derived with the parameters of `HashPassword` is as long as asked for. -/
def KeyLength (derive : KeyDerivation) : Prop :=
  ∀ password salt, (derive password salt argonTime argonMemory argonThreads argonKeyLen).length =
    argonKeyLen.toNat

theorem argon_valid : 1 ≤ argonTime ∧ 1 ≤ argonThreads := by decide

theorem hashPassword_ok (derive : KeyDerivation) (salt : { salt : Bytes // salt.length = saltLen })
    (password : Bytes) :
    hashPassword derive (some salt) password = .ok (encodeHash argonMemory argonTime argonThreads
      salt (derive password salt argonTime argonMemory argonThreads argonKeyLen)) := by
  simp only [hashPassword,
    idKey_ok derive password salt argon_valid.1 argonMemory argon_valid.2]

theorem verifyPassword_hashPassword {derive : KeyDerivation} (length : KeyLength derive)
    (salt : { salt : Bytes // salt.length = saltLen }) (password : Bytes) :
    ∃ encoded, hashPassword derive (some salt) password = .ok encoded ∧
      verifyPassword derive encoded password = .ok true := by
  refine ⟨_, hashPassword_ok derive salt password, ?_⟩
  rw [verifyPassword_encodeHash derive argonMemory argon_valid.1 argon_valid.2, length,
    UInt32.ofNat_toNat]
  simp

/-- For all parameters, salts and keys, `VerifyPassword` reads the string of
`HashPassword`'s format without an error, and accepts exactly the passwords from which
the key is derived. So it accepts the password that was hashed, with any salt. -/
theorem password_roundTrip (derive : KeyDerivation) (memory : UInt32) {time : UInt32}
    (rounds : 1 ≤ time) {threads : UInt8} (lanes : 1 ≤ threads) (salt : Bytes) {key : Bytes}
    (_nonempty : key ≠ []) :
    (∀ password, ∃ accepted,
      verifyPassword derive (encodeHash memory time threads salt key) password = .ok accepted ∧
      (accepted = true ↔
        derive password salt time memory threads (UInt32.ofNat key.length) = key)) ∧
    (KeyLength derive →
      ∀ (random : { salt : Bytes // salt.length = saltLen }) (password : Bytes),
        ∃ encoded, hashPassword derive (some random) password = .ok encoded ∧
          verifyPassword derive encoded password = .ok true) := by
  refine ⟨fun password => ?_, fun length random password =>
    verifyPassword_hashPassword length random password⟩
  exact ⟨_, verifyPassword_encodeHash derive memory rounds lanes salt key password,
    decide_eq_true_iff⟩

/-- A derivation that repeats its password up to the length of the key. -/
def repeated : KeyDerivation := fun password _ _ _ _ keyLen =>
  (List.range keyLen.toNat).map fun i => password.getD (i % password.length) 0

theorem repeated_keyLength : KeyLength repeated := by
  intro password salt
  simp [repeated]

/-- The salt of a new hash, all zero. -/
def zeroSalt : { salt : Bytes // salt.length = saltLen } :=
  ⟨List.replicate saltLen 0, List.length_replicate⟩

/-- An old hash with other parameters, and a new one. -/
theorem password_roundTrip_tuned :
    (∃ accepted,
      verifyPassword repeated (encodeHash 4096 3 1 [1, 2, 255] [7, 8, 7]) [7, 8] = .ok accepted ∧
        accepted = true) ∧
    ∃ encoded, hashPassword repeated (some zeroSalt) [7, 8] = .ok encoded ∧
      verifyPassword repeated encoded [7, 8] = .ok true := by
  have three : (1 : UInt32) ≤ 3 := by decide
  have one : (1 : UInt8) ≤ 1 := by decide
  obtain ⟨verifies, accepts⟩ := password_roundTrip repeated 4096 three one [1, 2, 255]
    (List.cons_ne_nil 7 [8, 7])
  obtain ⟨accepted, verified, iff⟩ := verifies [7, 8]
  exact ⟨⟨accepted, verified, iff.mpr rfl⟩, accepts repeated_keyLength zeroSalt [7, 8]⟩

end VaultWatch.Gateway
