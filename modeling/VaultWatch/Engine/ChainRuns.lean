import VaultWatch.Engine.Persistence
import VaultWatch.Engine.EntryText
import VaultWatch.Lib.Run

/-! Whole runs of the audit log: successful appends and restarts in any order,
from a path with no file. `Sound` ties the file's lines, the entries in memory,
their numbering and their links together; an append extends both sides by the
same entry and a restart rebuilds the log it started from. -/
namespace VaultWatch.Engine

open VaultWatch.Lib.Lines VaultWatch.Lib.Text VaultWatch.Lib.HashChain VaultWatch.Lib.Run

variable {V T : Type} {c : Codec V T}

/-- A successful `append`, or `AuditLog::open` on the same path. -/
inductive LogOp (V T : Type)
  | append (r : AppendRequest V T)
  | restart
  deriving DecidableEq

/-- `none` once an opening has failed. -/
def logStep (c : Codec V T) : Option (AuditLog V T) → LogOp V T → Option (AuditLog V T)
  | none, _ => none
  | some log, .append r => some (log.append c r none).2
  | some log, .restart => AuditLog.openLog c log.file

/-- The log after the operations, opened where there was no file. -/
def runLog (c : Codec V T) (ops : List (LogOp V T)) : Option (AuditLog V T) :=
  run (logStep c) (AuditLog.openLog c none) ops

/-- The appends among the operations. -/
def appended : List (LogOp V T) → List (AppendRequest V T)
  | [] => []
  | .append r :: ops => r :: appended ops
  | .restart :: ops => appended ops

theorem appended_cons (op : LogOp V T) (ops : List (LogOp V T)) :
    appended (op :: ops) = appended [op] ++ appended ops := by
  cases op <;> rfl

structure Sound (c : Codec V T) (log : AuditLog V T) : Prop where
  created : log.file = none → log.entries = []
  lines : readLines log.contents = log.entries.map fun e => some (e.toJson c)
  terminated : Terminated log.contents
  linked : Sealed c log.entries

theorem sound_empty (c : Codec V T) : Sound c ⟨none, []⟩ :=
  ⟨fun _ => rfl, rfl, .inl rfl, trivial⟩

namespace Sound

/-- Where its entries parse back, the file of a sound log reads back as them. -/
theorem parses {log : AuditLog V T} (h : Sound c log) (hr : ∀ e ∈ log.entries, c.ReadsBack e) :
    parseLines c.fromStr log.contents = some log.entries := by
  unfold parseLines
  rw [h.lines, mapM_eq_some]
  generalize log.entries = entries at hr
  induction entries with
  | nil => exact .nil
  | cons e es ih =>
    obtain ⟨he, hes⟩ := List.forall_mem_cons.mp hr
    exact .cons he (ih hes)

theorem readDisk {log : AuditLog V T} (h : Sound c log) (hr : ∀ e ∈ log.entries, c.ReadsBack e) :
    log.readDisk c = some log.entries :=
  AuditLog.readDisk_eq_some.mpr ⟨h.created, h.parses hr⟩

theorem verify {log : AuditLog V T} (h : Sound c log) (hr : ∀ e ∈ log.entries, c.ReadsBack e) :
    log.verify c = ⟨true, UInt64.ofNat log.entries.length, none⟩ :=
  AuditLog.verify_of_valid
    (AuditLog.verify_valid_iff.mpr ⟨log.entries, h.readDisk hr, rfl, h.linked⟩)

theorem append (hl : c.SingleLined) {log : AuditLog V T} (h : Sound c log)
    (r : AppendRequest V T) : Sound c (log.append c r none).2 := by
  have hlinked := AuditLog.nextEntry_linked (c := c) (rfl : log.entries.map _ = _) r
  rw [AuditLog.append_none]
  refine ⟨nofun, ?_, terminated_append_lineBytes _ _, (chain_snoc _ _).mpr ⟨h.linked, hlinked⟩⟩
  show readLines (log.contents ++ lineBytes _) = _
  rw [readLines_append_line h.terminated (hl _), h.lines]
  simp

/-- A restart of a sound log changes nothing: no line is lost and every line
parses to the entry it was written for. -/
theorem restart {log : AuditLog V T} (h : Sound c log) (hr : ∀ e ∈ log.entries, c.ReadsBack e) :
    AuditLog.openLog c log.file = some log := by
  cases log with
  | mk file entries =>
    cases file with
    | none =>
      obtain rfl : entries = [] := h.created rfl
      rfl
    | some bytes =>
      have hlines : readLines bytes = (entries.map fun e => e.toJson c).map some := by
        rw [List.map_map]
        exact h.lines
      have hblank : ∀ t ∈ entries.map fun e => e.toJson c, isBlank t = false := by
        intro t ht
        obtain ⟨e, _, rfl⟩ := List.mem_map.mp ht
        obtain ⟨cs, hcs⟩ := e.toList_toJson c
        rw [isBlank, hcs, List.all_cons]
        rfl
      have hparse : parseLines c.fromStr bytes = some entries := h.parses hr
      show AuditLog.openLog c (some bytes) = _
      rw [openLog_of_texts hlines hblank, hparse]
      rfl

/-- What one operation does to a sound log. -/
theorem step (hc : c.Lawful) {log : AuditLog V T} (h : Sound c log) (op : LogOp V T) :
    ∃ next, logStep c (some log) op = some next ∧ Sound c next ∧
      next.entries.map AuditEntry.request =
        log.entries.map AuditEntry.request ++ appended [op] ∧
      log.entries <+: next.entries ∧ log.contents <+: next.contents := by
  cases op with
  | append r =>
    refine ⟨_, rfl, h.append hc.single_line r, ?_, ?_, ?_⟩
    · rw [AuditLog.append_none]
      simp [appended, AuditEntry.request, AuditLog.nextEntry]
    · rw [AuditLog.append_none]
      exact List.prefix_append _ _
    · rw [AuditLog.append_none]
      exact List.prefix_append _ _
  | restart =>
    exact ⟨log, h.restart (hc.readsBack _), h, by simp [appended], List.prefix_rfl, List.prefix_rfl⟩

/-- What a run does to a sound log. -/
theorem run (hc : c.Lawful) {log : AuditLog V T} (h : Sound c log) (ops : List (LogOp V T)) :
    ∃ last, Lib.Run.run (logStep c) (some log) ops = some last ∧ Sound c last ∧
      last.entries.map AuditEntry.request =
        log.entries.map AuditEntry.request ++ appended ops ∧
      log.entries <+: last.entries ∧ log.contents <+: last.contents := by
  induction ops generalizing log with
  | nil => exact ⟨log, rfl, h, by simp [appended], List.prefix_rfl, List.prefix_rfl⟩
  | cons op ops ih =>
    obtain ⟨next, hstep, hnext, hreq, hpre, hbytes⟩ := h.step hc op
    obtain ⟨last, hrun, hlast, hreqs, hpre', hbytes'⟩ := ih hnext
    refine ⟨last, ?_, hlast, ?_, hpre.trans hpre', hbytes.trans hbytes'⟩
    · rw [run_cons, hstep]
      exact hrun
    · rw [hreqs, hreq, appended_cons op ops, List.append_assoc]

/-- The numbering and the links of a sound log's entries. -/
theorem getElem {log : AuditLog V T} (h : Sound c log) (i : Nat) (hi : i < log.entries.length) :
    log.entries[i].seq = UInt64.ofNat (i + 1) ∧
      log.entries[i].prevHash = tip AuditEntry.hash GENESIS_HASH (log.entries.take i) ∧
      log.entries[i].recomputed c = log.entries[i].hash := by
  have hlink := h.linked.getElem _ _ i hi
  rw [Nat.add_comm] at hlink
  exact hlink

end Sound

/-- Every run of successful appends and restarts leaves a log that verifies,
holds one entry for each append, numbered and linked from the genesis hash, and
is only ever extended, in memory and on disk, by what runs after it. -/
theorem audit_log_runs (hc : c.Lawful) (ops more : List (LogOp V T)) :
    ∃ log, runLog c ops = some log ∧
      log.verify c = ⟨true, UInt64.ofNat (appended ops).length, none⟩ ∧
      log.entries.map AuditEntry.request = appended ops ∧
      (∀ i (hi : i < log.entries.length), log.entries[i].seq = UInt64.ofNat (i + 1)) ∧
      (∀ h0 : 0 < log.entries.length, log.entries[0].prevHash = GENESIS_HASH) ∧
      (∀ i (hi : i + 1 < log.entries.length),
        log.entries[i + 1].prevHash = log.entries[i].hash) ∧
      log.readDisk c = some log.entries ∧
      ∃ later, runLog c (ops ++ more) = some later ∧ log.entries <+: later.entries ∧
        log.contents <+: later.contents ∧ later.readDisk c = some later.entries := by
  obtain ⟨log, hrun, hsound, hreq, _, _⟩ := (sound_empty c).run hc ops
  obtain ⟨later, hmore, hlater, _, hpre, hbytes⟩ := hsound.run hc more
  have hlen : (appended ops).length = log.entries.length := by
    simpa using (congrArg List.length hreq).symm
  refine ⟨log, hrun, ?_, hreq, ?_, ?_, ?_, hsound.readDisk (hc.readsBack _), later, ?_, hpre,
    hbytes, hlater.readDisk (hc.readsBack _)⟩
  · rw [hsound.verify (hc.readsBack _), hlen]
  · intro i hi
    exact (hsound.getElem i hi).1
  · intro h0
    exact (hsound.getElem 0 h0).2.1
  · intro i hi
    rw [(hsound.getElem (i + 1) hi).2.1, tip_eq_getLast, List.getLast?_take]
    simp [Nat.lt_of_succ_lt hi]
  · have hstart : run (logStep c) (AuditLog.openLog c none) ops = some log := hrun
    unfold runLog
    rw [run_append, hstart]
    exact hmore

/-- Two appends around a restart. -/
theorem audit_log_runs_reopened :
    ∃ log, runLog sampleCodec [.append openedRequest, .restart, .append closedRequest] = some log ∧
      log.verify sampleCodec = ⟨true, 2, none⟩ := by
  obtain ⟨log, hrun, hverify, _⟩ := audit_log_runs sampleCodec_lawful
    [.append openedRequest, .restart, .append closedRequest] []
  exact ⟨log, hrun, hverify⟩

end VaultWatch.Engine
