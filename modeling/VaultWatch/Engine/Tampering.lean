import VaultWatch.Engine.TwoReaders

/-! What verify notices of a file that was replaced behind the log's back. The
hash covers an entry's fields as one string of bytes without separators, so it
fixes the number and the link, but of the timestamp, the event type, the
subject and the payload only their texts run together. -/
namespace VaultWatch.Engine

open VaultWatch.Lib.Lines VaultWatch.Lib.Text VaultWatch.Lib.HashChain

variable {V T : Type} {c : Codec V T}

/-- SHA-256 has no collision between what is hashed of these entries. -/
def NoCollision (c : Codec V T) (es fs : List (AuditEntry V T)) : Prop :=
  ∀ e ∈ es, ∀ f ∈ fs, c.sha256 (e.hashInput c) = c.sha256 (f.hashInput c) →
    e.hashInput c = f.hashInput c

/-- The same number, links and hash, and the same text where timestamp, event
type, subject and payload stand one behind the other. -/
structure SameHashed (c : Codec V T) (e f : AuditEntry V T) : Prop where
  seq : e.seq = f.seq
  prevHash : e.prevHash = f.prevHash
  hash : e.hash = f.hash
  bodyText : e.bodyText c = f.bodyText c

theorem SameHashed.hashInput {e f : AuditEntry V T} (h : SameHashed c e f) :
    e.hashInput c = f.hashInput c := by
  show utf8 e.prevHash ++ toBeBytes e.seq ++ utf8 (e.bodyText c) =
    utf8 f.prevHash ++ toBeBytes f.seq ++ utf8 (f.bodyText c)
  rw [h.seq, h.prevHash, h.bodyText]

theorem SameHashed.linked {e f : AuditEntry V T} (h : SameHashed c e f) {n : Nat} {prev : String}
    (hf : Linked c n prev f) : Linked c n prev e := by
  obtain ⟨hseq, hprev, hhash⟩ := hf
  refine ⟨h.seq.trans hseq, h.prevHash.trans hprev, ?_⟩
  show hexEncode (c.sha256 (e.hashInput c)) = e.hash
  rw [h.hashInput, h.hash]
  exact hhash

/-- Two linked entries of one place with one hash agree on all that is hashed. -/
theorem sameHashed_of_linked {es fs : List (AuditEntry V T)} (hno : NoCollision c es fs)
    {e f : AuditEntry V T} (hmem : e ∈ es) (hmem' : f ∈ fs) {n : Nat} {prev : String}
    (he : Linked c n prev e) (hf : Linked c n prev f) (hhash : e.hash = f.hash) :
    SameHashed c e f := by
  obtain ⟨hseq, hprev, hre⟩ := he
  obtain ⟨hseq', hprev', hrf⟩ := hf
  have hhex : hexEncode (c.sha256 (e.hashInput c)) = hexEncode (c.sha256 (f.hashInput c)) :=
    hre.trans (hhash.trans hrf.symm)
  have hinput := hno e hmem f hmem' (hexEncode_injective hhex)
  have hsame : e.seq = f.seq := hseq.trans hseq'.symm
  have hlink : e.prevHash = f.prevHash := hprev.trans hprev'.symm
  change utf8 e.prevHash ++ toBeBytes e.seq ++ utf8 (e.bodyText c) =
    utf8 f.prevHash ++ toBeBytes f.seq ++ utf8 (f.bodyText c) at hinput
  rw [hsame, hlink] at hinput
  exact ⟨hsame, hlink, hhash, utf8_injective (List.append_cancel_left hinput)⟩

theorem map_hash_of_sameHashed {es fs : List (AuditEntry V T)}
    (h : List.Forall₂ (SameHashed c) es fs) :
    es.map AuditEntry.hash = fs.map AuditEntry.hash := by
  induction h with
  | nil => rfl
  | cons hef _ ih => rw [List.map_cons, List.map_cons, hef.hash, ih]

/-- The log with other content at its path. -/
def AuditLog.replaced (log : AuditLog V T) (bytes : Bytes) : AuditLog V T :=
  { log with file := some bytes }

theorem AuditLog.readDisk_replaced {log : AuditLog V T} {bytes : Bytes}
    {disk : List (AuditEntry V T)} (h : parseLines c.fromStr bytes = some disk) :
    (log.replaced bytes).readDisk c = some disk := h

/-- A file whose entries agree with those in memory on all that is hashed
passes as the log's own. -/
theorem valid_of_sameHashed {log : AuditLog V T} (hlog : Sealed c log.entries) {bytes : Bytes}
    {disk : List (AuditEntry V T)} (h : parseLines c.fromStr bytes = some disk)
    (hsame : List.Forall₂ (SameHashed c) disk log.entries) :
    ((log.replaced bytes).verify c).valid = true := by
  rw [AuditLog.verify_valid_iff]
  refine ⟨disk, AuditLog.readDisk_replaced h, ?_, ?_⟩
  · exact map_hash_of_sameHashed hsame
  · exact hlog.transfer _ _ hsame (fun _ _ _ _ hef hf => hef.linked hf) fun _ _ hef => hef.hash

theorem sameHashed_of_valid {log : AuditLog V T} (hlog : Sealed c log.entries) {bytes : Bytes}
    {disk : List (AuditEntry V T)} (h : parseLines c.fromStr bytes = some disk)
    (hno : NoCollision c disk log.entries) (hv : ((log.replaced bytes).verify c).valid = true) :
    List.Forall₂ (SameHashed c) disk log.entries := by
  obtain ⟨disk', hdisk, hmap, hseal⟩ := AuditLog.verify_valid_iff.mp hv
  obtain rfl := Option.some.inj ((AuditLog.readDisk_replaced h).symm.trans hdisk)
  exact hseal.zip _ _ hlog hmap fun _ _ e he f hf hle hlf hhash =>
    sameHashed_of_linked hno he hf hle hlf hhash

/-- Appends keep the entries in memory sealed, whatever the codec. -/
theorem sealed_appendAll {log : AuditLog V T} (h : Sealed c log.entries)
    (rs : List (AppendRequest V T)) : Sealed c (log.appendAll c rs).entries := by
  unfold AuditLog.appendAll
  induction rs generalizing log with
  | nil => exact h
  | cons r rs ih =>
    apply ih
    show Sealed c (log.append c r none).2.entries
    rw [AuditLog.append_none]
    exact (chain_snoc _ _).mpr ⟨h, AuditLog.nextEntry_linked rfl r⟩

/-- Whatever was appended and whatever readable file takes the log's place:
verify notices every difference from the appended entries, unless the file
differs and still agrees on all that is hashed. -/
theorem tampering_noticed_iff (rs : List (AppendRequest V T)) {bytes : Bytes}
    {disk : List (AuditEntry V T)} (h : parseLines c.fromStr bytes = some disk)
    (hno : NoCollision c disk (AuditLog.appendAll c ⟨none, []⟩ rs).entries) :
    (disk ≠ (AuditLog.appendAll c ⟨none, []⟩ rs).entries →
      (((AuditLog.appendAll c ⟨none, []⟩ rs).replaced bytes).verify c).valid = false) ↔
    (disk = (AuditLog.appendAll c ⟨none, []⟩ rs).entries ∨
      ¬ List.Forall₂ (SameHashed c) disk (AuditLog.appendAll c ⟨none, []⟩ rs).entries) := by
  have hempty : Sealed c (⟨none, []⟩ : AuditLog V T).entries := trivial
  have hlog := sealed_appendAll hempty rs
  constructor
  · intro hnoticed
    by_cases heq : disk = (AuditLog.appendAll c ⟨none, []⟩ rs).entries
    · exact .inl heq
    · right
      intro hsame
      have hv := valid_of_sameHashed hlog h hsame
      rw [hnoticed heq] at hv
      cases hv
  · intro hcases hne
    rcases hcases with heq | hdiff
    · exact absurd heq hne
    · rw [Bool.eq_false_iff]
      intro hv
      exact hdiff (sameHashed_of_valid hlog h hno hv)

/-! ## One entry in the file, changed -/

/-- The entry of the first sample append. -/
def openedEntry : AuditEntry String Unit :=
  AuditLog.nextEntry sampleCodec ⟨none, []⟩ openedRequest

/-- The entry with another payload. -/
def clearedEntry : AuditEntry String Unit := { openedEntry with payload := "clear" }

/-- The entry with the last letter of its event type moved to its subject. -/
def shiftedEntry : AuditEntry String Unit :=
  { openedEntry with eventType := "case.opene", subjectId := "dtx_1" }

theorem parseLines_one (e : AuditEntry String Unit) :
    parseLines sampleCodec.fromStr (lineBytes (e.toJson sampleCodec)) = some [e] :=
  parseLines_line (sampleCodec_lawful.single_line e) (sampleCodec_lawful.parses_back e)

theorem clearedEntry_noCollision : NoCollision sampleCodec [clearedEntry] [openedEntry] := by
  have hdiff : sampleSha256 (clearedEntry.hashInput sampleCodec) ≠
      sampleSha256 (openedEntry.hashInput sampleCodec) := by decide +kernel
  intro e he f hf heq
  obtain rfl := List.mem_singleton.mp he
  obtain rfl := List.mem_singleton.mp hf
  exact absurd heq hdiff

/-- The changed payload is noticed. -/
theorem tampering_noticed_payload :
    (((AuditLog.appendAll sampleCodec ⟨none, []⟩ [openedRequest]).replaced
      (lineBytes (clearedEntry.toJson sampleCodec))).verify sampleCodec).valid = false := by
  have hpayload : clearedEntry.payload ≠ openedEntry.payload := by decide
  have hbody : clearedEntry.bodyText sampleCodec ≠ openedEntry.bodyText sampleCodec := by decide
  refine (tampering_noticed_iff [openedRequest] (parseLines_one clearedEntry)
    clearedEntry_noCollision).mpr (.inr ?_) ?_
  · intro hsame
    cases hsame with
    | cons h _ => exact hbody h.bodyText
  · intro heq
    exact hpayload (congrArg AuditEntry.payload (List.cons.inj heq).1)

/-- The moved letter is not. -/
theorem tampering_unnoticed_shift :
    parseLines sampleCodec.fromStr (lineBytes (shiftedEntry.toJson sampleCodec)) =
        some [shiftedEntry] ∧
      [shiftedEntry] ≠ (AuditLog.appendAll sampleCodec ⟨none, []⟩ [openedRequest]).entries ∧
      (((AuditLog.appendAll sampleCodec ⟨none, []⟩ [openedRequest]).replaced
        (lineBytes (shiftedEntry.toJson sampleCodec))).verify sampleCodec).valid = true := by
  have hsubject : shiftedEntry.subjectId ≠ openedEntry.subjectId := by decide
  have hbody : shiftedEntry.bodyText sampleCodec = openedEntry.bodyText sampleCodec := by decide
  have hempty : Sealed sampleCodec (⟨none, []⟩ : AuditLog String Unit).entries := trivial
  refine ⟨parseLines_one shiftedEntry, ?_, ?_⟩
  · intro heq
    exact hsubject (congrArg AuditEntry.subjectId (List.cons.inj heq).1)
  · exact valid_of_sameHashed (sealed_appendAll hempty [openedRequest])
      (parseLines_one shiftedEntry) (.cons ⟨rfl, rfl, rfl, hbody⟩ .nil)

end VaultWatch.Engine
