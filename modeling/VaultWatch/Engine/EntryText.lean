import VaultWatch.Engine.AuditLog

/-! A reader for the JSON texts the log writes. Given readers for the text of
an instant and of a payload, `readEntry` takes back exactly the serialized
entry and leaves what follows it, so a codec that accepts canonical texts only
meets what the log assumes of its JSON library. -/
namespace VaultWatch.Engine

open VaultWatch.Lib.Lines VaultWatch.Lib.Text

variable {V T : Type}

/-- The texts of a codec with readers for its instants and payloads. -/
structure Format (V T : Type) where
  sha256 : Bytes → Bytes
  toRfc3339 : T → String
  timestampText : T → String
  payloadText : V → String
  readTimestamp : Reader T
  readPayload : Reader V

namespace Format

/-- The writing half of the codec. -/
def writer (f : Format V T) : Codec V T where
  sha256 := f.sha256
  toRfc3339 := f.toRfc3339
  timestampText := f.timestampText
  payloadText := f.payloadText
  fromStr := fun _ => none

def readEntry (f : Format V T) : Reader (AuditEntry V T) := fun cs => do
  let cs ← literal "\x7b\"seq\":".toList cs
  let (seq, cs) ← readNat cs
  let cs ← literal ",\"timestamp\":".toList cs
  let (timestamp, cs) ← f.readTimestamp cs
  let cs ← literal ",\"event_type\":".toList cs
  let (eventType, cs) ← readString cs
  let cs ← literal ",\"subject_id\":".toList cs
  let (subjectId, cs) ← readString cs
  let cs ← literal ",\"payload\":".toList cs
  let (payload, cs) ← f.readPayload cs
  let cs ← literal ",\"prev_hash\":".toList cs
  let (prevHash, cs) ← readString cs
  let cs ← literal ",\"hash\":".toList cs
  let (hash, cs) ← readString cs
  let cs ← literal "\x7d".toList cs
  return ({ seq := UInt64.ofNat seq, timestamp, eventType, subjectId, payload, prevHash, hash }, cs)

/-- The codec that accepts the canonical text of an entry and nothing else. -/
def codec (f : Format V T) : Codec V T where
  sha256 := f.sha256
  toRfc3339 := f.toRfc3339
  timestampText := f.timestampText
  payloadText := f.payloadText
  fromStr := fun s =>
    match f.readEntry s.toList with
    | some (e, []) => if e.toJson f.writer = s then some e else none
    | _ => none

/-- The parts' readers take back what is written and the parts are printable. -/
structure Lawful (f : Format V T) : Prop where
  timestamp_reads : Reads f.readTimestamp (fun t => (f.timestampText t).toList) fun _ => True
  payload_reads : Reads f.readPayload (fun v => (f.payloadText v).toList) fun _ => True
  timestamp_printable : ∀ t, Printable (f.timestampText t).toList
  payload_printable : ∀ v, Printable (f.payloadText v).toList

theorem read_then {α β : Type} {x : Option α} {a : α} (read : x = some a) (k : α → Option β) :
    (x >>= k) = k a := by
  rw [read]
  rfl

theorem readEntry_toJson {f : Format V T} (hf : f.Lawful) (e : AuditEntry V T)
    (rest : List Char) :
    f.readEntry ((e.toJson f.writer).toList ++ rest) = some (e, rest) := by
  have hnum : ∀ rest, readNat (Nat.toDigits 10 e.seq.toNat ++ (",\"timestamp\":".toList ++ rest)) =
      some (e.seq.toNat, ",\"timestamp\":".toList ++ rest) := by
    intro rest
    exact readNat_toDigits _ _ (by simp [NoDigit])
  have hts : ∀ rest, f.readTimestamp ((f.timestampText e.timestamp).toList ++ rest) =
      some (e.timestamp, rest) := fun rest => hf.timestamp_reads e.timestamp rest trivial
  have hpl : ∀ rest, f.readPayload ((f.payloadText e.payload).toList ++ rest) =
      some (e.payload, rest) := fun rest => hf.payload_reads e.payload rest trivial
  have hstr : ∀ s rest, readString ((quote s).toList ++ rest) = some (s, rest) :=
    fun s rest => readString_quote s rest trivial
  have text : (e.toJson f.writer).toList ++ rest =
      "\x7b\"seq\":".toList ++ (Nat.toDigits 10 e.seq.toNat ++
      (",\"timestamp\":".toList ++ ((f.timestampText e.timestamp).toList ++
      (",\"event_type\":".toList ++ ((quote e.eventType).toList ++
      (",\"subject_id\":".toList ++ ((quote e.subjectId).toList ++
      (",\"payload\":".toList ++ ((f.payloadText e.payload).toList ++
      (",\"prev_hash\":".toList ++ ((quote e.prevHash).toList ++
      (",\"hash\":".toList ++ ((quote e.hash).toList ++ ("\x7d".toList ++ rest)))))))))))))) := by
    unfold AuditEntry.toJson
    simp only [writer, String.toList_append, Nat.toString_eq_ofList_toDigits,
      String.toList_ofList, List.append_assoc]
  rw [text]
  refine (read_then (literal_append _ _) _).trans ?_
  refine (read_then (hnum _) _).trans ?_
  refine (read_then (literal_append _ _) _).trans ?_
  refine (read_then (hts _) _).trans ?_
  refine (read_then (literal_append _ _) _).trans ?_
  refine (read_then (hstr _ _) _).trans ?_
  refine (read_then (literal_append _ _) _).trans ?_
  refine (read_then (hstr _ _) _).trans ?_
  refine (read_then (literal_append _ _) _).trans ?_
  refine (read_then (hpl _) _).trans ?_
  refine (read_then (literal_append _ _) _).trans ?_
  refine (read_then (hstr _ _) _).trans ?_
  refine (read_then (literal_append _ _) _).trans ?_
  refine (read_then (hstr _ _) _).trans ?_
  refine (read_then (literal_append _ _) _).trans ?_
  simp

theorem printable_toJson {f : Format V T} (hf : f.Lawful) (e : AuditEntry V T) :
    Printable (e.toJson f.writer).toList := by
  have hlit : ∀ s : String, (s.toList.all fun c => 32 ≤ c.toNat) = true → Printable s.toList := by
    intro s hs c hc
    simpa using List.all_eq_true.mp hs c hc
  unfold AuditEntry.toJson
  simp only [String.toList_append, Nat.toString_eq_ofList_toDigits, String.toList_ofList]
  refine .append (.append (.append (.append (.append (.append (.append (.append (.append (.append
    (.append (.append (.append (.append ?_ ?_) ?_) ?_) ?_) ?_) ?_) ?_) ?_) ?_) ?_) ?_) ?_) ?_) ?_
  · exact hlit _ (by decide)
  · exact printable_toDigits _
  · exact hlit _ (by decide)
  · exact hf.timestamp_printable _
  · exact hlit _ (by decide)
  · exact printable_quote _
  · exact hlit _ (by decide)
  · exact printable_quote _
  · exact hlit _ (by decide)
  · exact hf.payload_printable _
  · exact hlit _ (by decide)
  · exact printable_quote _
  · exact hlit _ (by decide)
  · exact printable_quote _
  · exact hlit _ (by decide)

theorem codec_fromStr (f : Format V T) (s : String) :
    f.codec.fromStr s = match f.readEntry s.toList with
      | some (e, []) => if e.toJson f.writer = s then some e else none
      | _ => none := rfl

/-- Serialization uses the writing half only. -/
theorem toJson_codec (f : Format V T) (e : AuditEntry V T) :
    e.toJson f.codec = e.toJson f.writer := rfl

theorem fromStr_eq_some {f : Format V T} {s : String} {e : AuditEntry V T}
    (h : f.codec.fromStr s = some e) : s = e.toJson f.writer := by
  rw [codec_fromStr] at h
  split at h
  · split at h
    · next heq => rw [← Option.some.inj h]; exact heq.symm
    · cases h
  · cases h

theorem codec_lawful {f : Format V T} (hf : f.Lawful) : f.codec.Lawful where
  single_line e := by
    rw [toJson_codec]
    exact singleLine_of_printable (printable_toJson hf e)
  parses_back e := by
    have hread := readEntry_toJson hf e []
    rw [List.append_nil] at hread
    rw [toJson_codec, codec_fromStr, hread]
    exact if_pos rfl

theorem codec_strict {f : Format V T} (hf : f.Lawful) : f.codec.Strict where
  blank_rejected s hs := by
    cases h : f.codec.fromStr s with
    | none => rfl
    | some e =>
      obtain ⟨cs, hcs⟩ := e.toList_toJson f.writer
      rw [fromStr_eq_some h, isBlank, hcs, List.all_cons] at hs
      simp [isWhitespace] at hs
  trailing_rejected s e e' h := by
    obtain ⟨cs, hcs⟩ := e'.toList_toJson f.codec
    have hread := readEntry_toJson hf e ('\x7b' :: cs)
    rw [fromStr_eq_some h, codec_fromStr, String.toList_append, hcs, hread]

end Format

/-! ## Payloads that are JSON strings, at one instant -/

def sampleTimestamp : String := "\"2026-03-01T12:00:00Z\""

def sampleFormat (sha256 : Bytes → Bytes) : Format String Unit where
  sha256 := sha256
  toRfc3339 := fun _ => "2026-03-01T12:00:00+00:00"
  timestampText := fun _ => sampleTimestamp
  payloadText := quote
  readTimestamp := fun cs => (literal sampleTimestamp.toList cs).map fun rest => ((), rest)
  readPayload := readString

theorem sampleFormat_lawful (sha256 : Bytes → Bytes) : (sampleFormat sha256).Lawful where
  timestamp_reads _ rest _ := by
    simp only [sampleFormat]
    rw [literal_append]
    rfl
  payload_reads := readString_quote
  timestamp_printable _ := by
    intro c hc
    have hall : (sampleTimestamp.toList.all fun c => 32 ≤ c.toNat) = true := by decide
    simpa using List.all_eq_true.mp hall c hc
  payload_printable := printable_quote

def openedRequest : AppendRequest String Unit := ⟨(), "case.opened", "tx_1", "alert"⟩

def closedRequest : AppendRequest String Unit := ⟨(), "case.closed", "tx_1", "fraud"⟩

/-- SHA-256 on the entries of the runs below: the opening entry, the closing
entry after it, and the opening entry with the payload `"clear"`. -/
def sampleSha256 (input : Bytes) : Bytes :=
  if input = utf8 (GENESIS_HASH) ++ toBeBytes 1 ++
      utf8 "2026-03-01T12:00:00+00:00case.openedtx_1\"alert\"" then
    [35, 207, 151, 74, 51, 104, 192, 16, 145, 55, 204, 219, 227, 84, 37, 137, 39, 177, 21, 172, 59,
      28, 182, 20, 118, 90, 39, 235, 150, 46, 79, 45]
  else if input = utf8 "23cf974a3368c0109137ccdbe354258927b115ac3b1cb614765a27eb962e4f2d" ++
      toBeBytes 2 ++ utf8 "2026-03-01T12:00:00+00:00case.closedtx_1\"fraud\"" then
    [176, 73, 1, 181, 13, 139, 159, 17, 75, 252, 190, 58, 40, 91, 32, 128, 7, 44, 127, 131, 145, 40,
      117, 59, 20, 234, 138, 219, 110, 92, 55, 207]
  else if input = utf8 (GENESIS_HASH) ++ toBeBytes 1 ++
      utf8 "2026-03-01T12:00:00+00:00case.openedtx_1\"clear\"" then
    [124, 212, 14, 26, 205, 33, 209, 133, 98, 89, 81, 90, 82, 192, 133, 246, 239, 54, 165, 174, 85,
      116, 135, 45, 160, 183, 145, 118, 118, 129, 79, 88]
  else List.replicate 32 0

def sampleCodec : Codec String Unit := (sampleFormat sampleSha256).codec

theorem sampleCodec_lawful : sampleCodec.Lawful := Format.codec_lawful (sampleFormat_lawful _)

theorem sampleCodec_strict : sampleCodec.Strict := Format.codec_strict (sampleFormat_lawful _)

end VaultWatch.Engine
