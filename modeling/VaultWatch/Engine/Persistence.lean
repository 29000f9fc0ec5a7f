import VaultWatch.Engine.AuditLog

/-! What one append and one reopening do to a log. A log is `Appendable` when
it verifies and its file ends with a line feed: the next successful append then
adds exactly one line to the file and one link to the chain. -/
namespace VaultWatch.Engine

open VaultWatch.Lib.Lines VaultWatch.Lib.Text VaultWatch.Lib.HashChain

variable {V T : Type} {c : Codec V T}

/-- The bytes at the log's path, none where there is no file. -/
def AuditLog.contents (log : AuditLog V T) : Bytes := log.file.getD []

namespace AuditLog

theorem readDisk_eq_some {log : AuditLog V T} {disk : List (AuditEntry V T)} :
    log.readDisk c = some disk ↔
      (log.file = none → log.entries = []) ∧ parseLines c.fromStr log.contents = some disk := by
  unfold readDisk contents
  cases hf : log.file with
  | none =>
    cases he : log.entries with
    | nil => simp [parseLines_nil]
    | cons e es => simp
  | some bytes => simp

@[simp] theorem append_none (log : AuditLog V T) (r : AppendRequest V T) :
    log.append c r none = (.ok (log.nextEntry c r),
      ⟨some (log.contents ++ lineBytes ((log.nextEntry c r).toJson c)),
        log.entries ++ [log.nextEntry c r]⟩) := rfl

theorem append_error (log : AuditLog V T) (r : AppendRequest V T) (f : PersistFault) :
    (log.append c r (some f)).1 = .error f ∧
      (log.append c r (some f)).2.entries = log.entries := by
  cases f <;> exact ⟨rfl, rfl⟩

/-- The next entry continues any sealed list with the hashes in memory. -/
theorem nextEntry_linked {log : AuditLog V T} {disk : List (AuditEntry V T)}
    (hmap : disk.map AuditEntry.hash = log.entries.map AuditEntry.hash)
    (r : AppendRequest V T) :
    Linked c (1 + disk.length) (tip AuditEntry.hash GENESIS_HASH disk) (log.nextEntry c r) := by
  have hlen : disk.length = log.entries.length := by
    simpa using congrArg List.length hmap
  refine ⟨?_, ?_, rfl⟩
  · show UInt64.ofNat log.entries.length + 1 = _
    rw [ofNat_succ, hlen, Nat.add_comm]
  · show (log.entries.getLast?.map AuditEntry.hash).getD GENESIS_HASH = _
    rw [tip_congr AuditEntry.hash hmap, tip_eq_getLast]

end AuditLog

structure Appendable (c : Codec V T) (log : AuditLog V T) : Prop where
  valid : (log.verify c).valid = true
  terminated : Terminated log.contents

theorem Appendable.append (hl : c.SingleLined) {log : AuditLog V T} (h : Appendable c log)
    {r : AppendRequest V T} (hr : r.ReadsBack c) : Appendable c (log.append c r none).2 := by
  obtain ⟨disk, hdisk, hmap, hseal⟩ := AuditLog.verify_valid_iff.mp h.valid
  have hparse := (AuditLog.readDisk_eq_some.mp hdisk).2
  have hlinked := AuditLog.nextEntry_linked (c := c) hmap r
  rw [AuditLog.append_none]
  refine ⟨AuditLog.verify_valid_iff.mpr ⟨disk ++ [log.nextEntry c r], ?_, ?_, ?_⟩, ?_⟩
  · rw [AuditLog.readDisk_eq_some]
    exact ⟨nofun, parseLines_append_line h.terminated (hl _) (hr _ rfl) hparse⟩
  · simp [hmap]
  · exact (chain_snoc _ _).mpr ⟨hseal, hlinked⟩
  · exact terminated_append_lineBytes _ _

theorem Appendable.appendAll (hl : c.SingleLined) {log : AuditLog V T} (h : Appendable c log)
    {rs : List (AppendRequest V T)} (hrs : ∀ r ∈ rs, r.ReadsBack c) :
    Appendable c (log.appendAll c rs) := by
  unfold AuditLog.appendAll
  induction rs generalizing log with
  | nil => exact h
  | cons r rs ih =>
    obtain ⟨hr, hlater⟩ := List.forall_mem_cons.mp hrs
    exact ih (h.append hl hr) hlater

/-! ## Reopening -/

theorem mapWhileOk_map (texts : List String) : mapWhileOk (texts.map some) = texts := by
  induction texts with
  | nil => rfl
  | cons t texts ih => simp [mapWhileOk, ih]

/-- Where every line is a text and none is blank, opening reads every line. -/
theorem openLog_of_texts {bytes : Bytes} {texts : List String}
    (htexts : readLines bytes = texts.map some) (hblank : ∀ t ∈ texts, isBlank t = false) :
    AuditLog.openLog c (some bytes) =
      (parseLines c.fromStr bytes).map fun entries => ⟨some bytes, entries⟩ := by
  have hfilter : (texts.filter fun line => !isBlank line) = texts := by
    rw [List.filter_eq_self]
    intro t ht
    simp [hblank t ht]
  have hparse : parseLines c.fromStr bytes = texts.mapM c.fromStr := by
    unfold parseLines
    rw [htexts, List.mapM_map]
    rfl
  unfold AuditLog.openLog
  simp only
  rw [htexts, mapWhileOk_map, hfilter, hparse]

/-- A blank line never parses, so a file that verify can read has none. -/
theorem not_blank_of_parse (hb : c.RejectsBlank) {texts : List String}
    {entries : List (AuditEntry V T)}
    (h : texts.mapM c.fromStr = some entries) : ∀ t ∈ texts, isBlank t = false := by
  have hall := mapM_eq_some.mp h
  clear h
  induction hall with
  | nil => simp
  | cons ht _ ih =>
    intro t hmem
    rcases List.mem_cons.mp hmem with rfl | hmem
    · cases hblank : isBlank t with
      | false => rfl
      | true => rw [hb t hblank] at ht; cases ht
    · exact ih t hmem

/-- What verify can read, opening reads the same. -/
theorem openLog_of_parseLines (hb : c.RejectsBlank) {bytes : Bytes}
    {entries : List (AuditEntry V T)}
    (h : parseLines c.fromStr bytes = some entries) :
    AuditLog.openLog c (some bytes) = some ⟨some bytes, entries⟩ := by
  obtain ⟨texts, htexts, hparse⟩ := texts_of_parseLines h
  rw [openLog_of_texts htexts (not_blank_of_parse hb hparse), h]
  rfl

/-- A log that verifies reopens, and the reopened log verifies. -/
theorem reopen_valid (hb : c.RejectsBlank) {log : AuditLog V T} (h : (log.verify c).valid = true) :
    ∃ reopened, AuditLog.openLog c log.file = some reopened ∧
      (reopened.verify c).valid = true := by
  obtain ⟨disk, hdisk, hmap, hseal⟩ := AuditLog.verify_valid_iff.mp h
  obtain ⟨hnone, hparse⟩ := AuditLog.readDisk_eq_some.mp hdisk
  cases hf : log.file with
  | none => exact ⟨⟨none, []⟩, rfl, rfl⟩
  | some bytes =>
    rw [AuditLog.contents, hf, Option.getD_some] at hparse
    refine ⟨_, openLog_of_parseLines hb hparse,
      AuditLog.verify_valid_iff.mpr ⟨disk, ?_, rfl, hseal⟩⟩
    exact AuditLog.readDisk_eq_some.mpr ⟨nofun, hparse⟩

end VaultWatch.Engine
