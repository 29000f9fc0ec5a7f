import VaultWatch.Lib.Text
import VaultWatch.Lib.HashChain

/-! The audit log of the risk engine (`engine-rust/src/audit.rs`): the entries
held in memory and the file they are persisted to, one JSON text a line. The
mutex makes each method one step, so a log is a value and a method a function
of it; what the file system does to an append is a `PersistFault`. Failures of
the directory or of a read call itself are outside the model. -/
namespace VaultWatch.Engine

open VaultWatch.Lib.Lines VaultWatch.Lib.Text VaultWatch.Lib.HashChain

/-- Generic in `V`, the payloads (`serde_json::Value`), and `T`, the instants
(`chrono::DateTime<Utc>`). -/
structure AuditEntry (V T : Type) where
  seq : UInt64
  timestamp : T
  eventType : String
  subjectId : String
  payload : V
  prevHash : String
  hash : String
  deriving DecidableEq

structure VerifyResponse where
  valid : Bool
  entriesChecked : UInt64
  firstBrokenSeq : Option UInt64
  deriving DecidableEq

/-- What the log takes from `sha2`, `chrono` and `serde_json`: the digest, the
two texts of an instant (`to_rfc3339` and its JSON literal), the text of a
payload, and `serde_json::from_str::<AuditEntry>`. -/
structure Codec (V T : Type) where
  sha256 : Bytes → Bytes
  toRfc3339 : T → String
  timestampText : T → String
  payloadText : V → String
  fromStr : String → Option (AuditEntry V T)

variable {V T : Type}

def GENESIS_HASH : String :=
  "0000000000000000000000000000000000000000000000000000000000000000"

/-- `u64::to_be_bytes`. -/
def toBeBytes (n : UInt64) : Bytes :=
  [(n >>> 56).toUInt8, (n >>> 48).toUInt8, (n >>> 40).toUInt8, (n >>> 32).toUInt8,
    (n >>> 24).toUInt8, (n >>> 16).toUInt8, (n >>> 8).toUInt8, n.toUInt8]

/-- The text between the sequence number and the end of what is hashed. -/
def bodyText (c : Codec V T) (timestamp : T) (eventType subjectId : String) (payload : V) :
    String :=
  c.toRfc3339 timestamp ++ eventType ++ subjectId ++ c.payloadText payload

/-- The bytes `compute_hash` feeds to SHA-256. -/
def hashInput (c : Codec V T) (seq : UInt64) (timestamp : T) (eventType subjectId : String)
    (payload : V) (prevHash : String) : Bytes :=
  utf8 prevHash ++ toBeBytes seq ++ utf8 (bodyText c timestamp eventType subjectId payload)

def computeHash (c : Codec V T) (seq : UInt64) (timestamp : T) (eventType subjectId : String)
    (payload : V) (prevHash : String) : String :=
  hexEncode (c.sha256 (hashInput c seq timestamp eventType subjectId payload prevHash))

namespace AuditEntry

def bodyText (c : Codec V T) (e : AuditEntry V T) : String :=
  Engine.bodyText c e.timestamp e.eventType e.subjectId e.payload

def hashInput (c : Codec V T) (e : AuditEntry V T) : Bytes :=
  Engine.hashInput c e.seq e.timestamp e.eventType e.subjectId e.payload e.prevHash

def recomputed (c : Codec V T) (e : AuditEntry V T) : String :=
  computeHash c e.seq e.timestamp e.eventType e.subjectId e.payload e.prevHash

/-- `serde_json::to_string` of the derived `Serialize`. -/
def toJson (c : Codec V T) (e : AuditEntry V T) : String :=
  "\x7b\"seq\":" ++ toString e.seq.toNat ++
  ",\"timestamp\":" ++ c.timestampText e.timestamp ++
  ",\"event_type\":" ++ quote e.eventType ++
  ",\"subject_id\":" ++ quote e.subjectId ++
  ",\"payload\":" ++ c.payloadText e.payload ++
  ",\"prev_hash\":" ++ quote e.prevHash ++
  ",\"hash\":" ++ quote e.hash ++ "\x7d"

/-- A serialized entry starts with a brace. -/
theorem toList_toJson (c : Codec V T) (e : AuditEntry V T) :
    ∃ cs, (e.toJson c).toList = '\x7b' :: cs := by
  unfold toJson
  simp only [String.toList_append]
  exact ⟨_, rfl⟩

end AuditEntry

/-- Where `persist` fails: before the file is open, inside the JSON text after
`written` of its bytes, at the line feed, or at `sync_data`. -/
inductive PersistFault
  | openFailed
  | textFailed (written : Nat)
  | newlineFailed
  | syncFailed
  deriving DecidableEq

/-- The arguments of an append and its clock reading. -/
structure AppendRequest (V T : Type) where
  now : T
  eventType : String
  subjectId : String
  payload : V
  deriving DecidableEq

/-- What an entry records of its append. -/
def AuditEntry.request (e : AuditEntry V T) : AppendRequest V T :=
  ⟨e.timestamp, e.eventType, e.subjectId, e.payload⟩

/-- `file` is the content at the log's path, `none` while nothing is there. -/
structure AuditLog (V T : Type) where
  file : Option Bytes
  entries : List (AuditEntry V T)
  deriving DecidableEq

/-- `char::is_whitespace`, the Unicode property `White_Space`. -/
def isWhitespace (c : Char) : Bool :=
  (9 ≤ c.toNat && c.toNat ≤ 13) || c.toNat = 32 || c.toNat = 0x85 || c.toNat = 0xA0 ||
  c.toNat = 0x1680 || (0x2000 ≤ c.toNat && c.toNat ≤ 0x200A) || c.toNat = 0x2028 ||
  c.toNat = 0x2029 || c.toNat = 0x202F || c.toNat = 0x205F || c.toNat = 0x3000

/-- `line.trim().is_empty()`. -/
def isBlank (line : String) : Bool := line.toList.all isWhitespace

/-- `map_while(Result::ok)`: the lines before the first that cannot be read. -/
def mapWhileOk : List (Option String) → List String
  | some line :: lines => line :: mapWhileOk lines
  | _ => []

namespace AuditLog

/-- `AuditLog::open` on the file's content. -/
def openLog (c : Codec V T) : Option Bytes → Option (AuditLog V T)
  | none => some ⟨none, []⟩
  | some bytes =>
    (((mapWhileOk (readLines bytes)).filter fun line => !isBlank line).mapM c.fromStr).map
      fun entries => ⟨some bytes, entries⟩

/-- Appending to the file, created if need be. -/
def write (log : AuditLog V T) (bytes : Bytes) : AuditLog V T :=
  { log with file := some (log.file.getD [] ++ bytes) }

def persist (c : Codec V T) (log : AuditLog V T) (entry : AuditEntry V T) :
    Option PersistFault → Except PersistFault Unit × AuditLog V T
  | some .openFailed => (.error .openFailed, log)
  | some (.textFailed n) =>
    (.error (.textFailed n), log.write ((utf8 (entry.toJson c)).take n))
  | some .newlineFailed => (.error .newlineFailed, log.write (utf8 (entry.toJson c)))
  | some .syncFailed => (.error .syncFailed, log.write (lineBytes (entry.toJson c)))
  | none => (.ok (), log.write (lineBytes (entry.toJson c)))

/-- The entry an append is about to persist. -/
def nextEntry (c : Codec V T) (log : AuditLog V T) (r : AppendRequest V T) : AuditEntry V T :=
  let seq := UInt64.ofNat log.entries.length + 1
  let prevHash := (log.entries.getLast?.map AuditEntry.hash).getD GENESIS_HASH
  { seq, timestamp := r.now, eventType := r.eventType, subjectId := r.subjectId,
    payload := r.payload, prevHash,
    hash := computeHash c seq r.now r.eventType r.subjectId r.payload prevHash }

def append (c : Codec V T) (log : AuditLog V T) (r : AppendRequest V T)
    (fault : Option PersistFault) : Except PersistFault (AuditEntry V T) × AuditLog V T :=
  let entry := log.nextEntry c r
  match log.persist c entry fault with
  | (.error e, log) => (.error e, log)
  | (.ok (), log) => (.ok entry, { log with entries := log.entries ++ [entry] })

/-- The entries `verify` reads back; `none` is any error on the way. -/
def readDisk (c : Codec V T) (log : AuditLog V T) : Option (List (AuditEntry V T)) :=
  match log.file with
  | none => if log.entries.isEmpty then some [] else none
  | some bytes => parseLines c.fromStr bytes

/-- The loop of `verify`: the sequence number of the first broken entry. -/
def firstBroken (c : Codec V T) :
    Nat → String → List (AuditEntry V T) → List (AuditEntry V T) → Option UInt64
  | index, expectedPrev, entry :: disk, held :: entries =>
    if entry.seq ≠ UInt64.ofNat index + 1 ∨ entry.prevHash ≠ expectedPrev ∨
        entry.recomputed c ≠ entry.hash ∨ entry.hash ≠ held.hash then
      some entry.seq
    else firstBroken c (index + 1) entry.hash disk entries
  | _, _, _, _ => none

def verify (c : Codec V T) (log : AuditLog V T) : VerifyResponse :=
  match log.readDisk c with
  | none => { valid := false, entriesChecked := 0, firstBrokenSeq := some 1 }
  | some disk =>
    if disk.length ≠ log.entries.length then
      { valid := false, entriesChecked := UInt64.ofNat disk.length,
        firstBrokenSeq := some (UInt64.ofNat (min disk.length log.entries.length) + 1) }
    else
      match firstBroken c 0 GENESIS_HASH disk log.entries with
      | some seq => { valid := false, entriesChecked := seq, firstBrokenSeq := some seq }
      | none =>
        { valid := true, entriesChecked := UInt64.ofNat log.entries.length,
          firstBrokenSeq := none }

/-- Successful appends, one after another. -/
def appendAll (c : Codec V T) (log : AuditLog V T) (rs : List (AppendRequest V T)) :
    AuditLog V T :=
  rs.foldl (fun log r => (log.append c r none).2) log

end AuditLog

/-- A text `serde_json` writes holds no raw line break. -/
def Codec.SingleLined (c : Codec V T) : Prop := ∀ e : AuditEntry V T, SingleLine (e.toJson c)

/-- The entry's text parses back to the entry. `serde_json` may read a float as another,
and reads no text nested deeper than 128. -/
def Codec.ReadsBack (c : Codec V T) (e : AuditEntry V T) : Prop :=
  c.fromStr (e.toJson c) = some e

/-- Every entry that records the request parses back. -/
def AppendRequest.ReadsBack (c : Codec V T) (r : AppendRequest V T) : Prop :=
  ∀ e : AuditEntry V T, e.request = r → c.ReadsBack e

/-- What is assumed of `serde_json` and `chrono`: a serialized entry holds no
raw line break and parses back to the same entry. -/
structure Codec.Lawful (c : Codec V T) : Prop where
  single_line : ∀ e : AuditEntry V T, SingleLine (e.toJson c)
  parses_back : ∀ e : AuditEntry V T, c.fromStr (e.toJson c) = some e

theorem Codec.Lawful.readable {c : Codec V T} (hc : c.Lawful) (r : AppendRequest V T) :
    r.ReadsBack c := fun e _ => hc.parses_back e

theorem Codec.Lawful.readsBack {c : Codec V T} (hc : c.Lawful) (entries : List (AuditEntry V T)) :
    ∀ e ∈ entries, c.ReadsBack e := fun e _ => hc.parses_back e

/-- `serde_json::from_str` rejects a text of white space alone. -/
def Codec.RejectsBlank (c : Codec V T) : Prop := ∀ s, isBlank s = true → c.fromStr s = none

/-- Two rejections of `serde_json::from_str`: a text of white space alone, and
characters behind a whole value. -/
structure Codec.Strict (c : Codec V T) : Prop where
  blank_rejected : c.RejectsBlank
  trailing_rejected : ∀ (s : String) (e e' : AuditEntry V T), c.fromStr s = some e →
    c.fromStr (s ++ e'.toJson c) = none

/-! ## What verify checks -/

/-- An entry in its place: at position `n` (from 1), after `prev`. -/
def Linked (c : Codec V T) (n : Nat) (prev : String) (e : AuditEntry V T) : Prop :=
  e.seq = UInt64.ofNat n ∧ e.prevHash = prev ∧ e.recomputed c = e.hash

/-- The entries form a chain from the genesis hash. -/
abbrev Sealed (c : Codec V T) (entries : List (AuditEntry V T)) : Prop :=
  Chain (Linked c) AuditEntry.hash 1 GENESIS_HASH entries

theorem ofNat_succ (n : Nat) : UInt64.ofNat n + 1 = UInt64.ofNat (n + 1) := by
  rw [UInt64.ofNat_add]
  rfl

namespace AuditLog

theorem firstBroken_eq_none {c : Codec V T} (index : Nat) (prev : String)
    {disk entries : List (AuditEntry V T)} (hlen : disk.length = entries.length) :
    firstBroken c index prev disk entries = none ↔
      Chain (Linked c) AuditEntry.hash (index + 1) prev disk ∧
        disk.map AuditEntry.hash = entries.map AuditEntry.hash := by
  induction disk generalizing index prev entries with
  | nil =>
    obtain rfl := List.length_eq_zero_iff.mp hlen.symm
    simp [firstBroken, Chain]
  | cons entry disk ih =>
    cases entries with
    | nil => simp at hlen
    | cons held entries =>
      have hl : disk.length = entries.length := by simpa using hlen
      unfold firstBroken
      rw [ofNat_succ]
      split
      · next hbad =>
        simp only [reduceCtorEq, false_iff, Chain, Linked, List.map_cons, List.cons.injEq]
        tauto
      · next hgood =>
        simp only [not_or, ne_eq, not_not] at hgood
        obtain ⟨hseq, hprev, hhash, hheld⟩ := hgood
        rw [ih (index + 1) entry.hash hl]
        simp only [Chain, Linked, List.map_cons, List.cons.injEq]
        tauto

/-- A log verifies exactly when the file reads back as a sealed list with the
hashes held in memory. -/
theorem verify_valid_iff {c : Codec V T} {log : AuditLog V T} :
    (log.verify c).valid = true ↔ ∃ disk, log.readDisk c = some disk ∧
      disk.map AuditEntry.hash = log.entries.map AuditEntry.hash ∧ Sealed c disk := by
  unfold verify
  cases hd : log.readDisk c with
  | none => simp
  | some disk =>
    simp only [Option.some.injEq, exists_eq_left']
    by_cases hlen : disk.length = log.entries.length
    · rw [if_neg (not_not.mpr hlen)]
      have hiff := firstBroken_eq_none (c := c) 0 GENESIS_HASH hlen
      cases hb : firstBroken c 0 GENESIS_HASH disk log.entries with
      | none =>
        obtain ⟨hchain, hmap⟩ := hiff.mp hb
        simpa using ⟨hmap, hchain⟩
      | some seq =>
        simp only [Bool.false_eq_true, false_iff]
        intro hvalid
        obtain ⟨hmap, hchain⟩ := hvalid
        rw [hiff.mpr ⟨hchain, hmap⟩] at hb
        cases hb
    · rw [if_pos hlen]
      simp only [Bool.false_eq_true, false_iff]
      intro hvalid
      obtain ⟨hmap, _⟩ := hvalid
      exact hlen (by simpa using congrArg List.length hmap)

theorem verify_of_valid {c : Codec V T} {log : AuditLog V T} (h : (log.verify c).valid = true) :
    log.verify c = ⟨true, UInt64.ofNat log.entries.length, none⟩ := by
  unfold verify at h ⊢
  split
  · next hd => rw [hd] at h; simp at h
  · next disk hd =>
    rw [hd] at h
    simp only at h
    split
    · next hlen => rw [if_pos hlen] at h; simp at h
    · next hlen =>
      rw [if_neg hlen] at h
      split
      · next seq hb => rw [hb] at h; simp at h
      · rfl

end AuditLog

end VaultWatch.Engine
