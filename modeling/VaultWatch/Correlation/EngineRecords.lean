import VaultWatch.Agents.Receipts
import VaultWatch.Engine.ChainRuns
import VaultWatch.Lib.Ledger
import VaultWatch.Lib.Simulation
import VaultWatch.Lib.Trace

/-! # The cases of the agents in the engine's log

The agents' audit client (`agents-python/app/audit.py`) over the engine's audit routes
(`engine-rust/src/main.rs`): any number of pipelines share one log, any of their requests or
answers may be lost on the way, and the engine may fail to persist what it is sent. -/
namespace VaultWatch.Correlation

open VaultWatch.Agents VaultWatch.Engine VaultWatch.Lib.Interleave VaultWatch.Lib.HashChain

variable {V T : Type}

/-- The JSON between the services: a payload as the engine parses it and what comes back of
it, the text of an instant, and what `raise_for_status` raises. -/
structure AuditWire (V T : Type) where
  encode : Dict → V
  decode : V → Value
  timestampText : T → String
  statusError : Raised

/-- `response.json()` of an entry. -/
def AuditWire.entry (wire : AuditWire V T) (e : AuditEntry V T) : Value :=
  .dict [("seq", .int e.seq.toNat), ("timestamp", .str (wire.timestampText e.timestamp)),
    ("event_type", .str e.eventType), ("subject_id", .str e.subjectId),
    ("payload", wire.decode e.payload), ("prev_hash", .str e.prevHash), ("hash", .str e.hash)]

/-- `response.json()` of a verification. -/
def verdict (v : VerifyResponse) : Value :=
  .dict [("valid", .bool v.valid), ("entries_checked", .int v.entriesChecked.toNat),
    ("first_broken_seq", .ofOption (fun seq => .int seq.toNat) v.firstBrokenSeq)]

/-- What becomes of a request: it does not reach the engine, its answer does not come back,
or it is answered. The engine reads its clock and may fail to persist. -/
inductive Transport (T : Type)
  | unsent (error : Raised)
  | lost (error : Raised) (now : T) (fault : Option PersistFault)
  | answered (now : T) (fault : Option PersistFault)

/-- `append_audit`, and `raise_for_status` on its answer. -/
def serveAppend (c : Codec V T) (wire : AuditWire V T) (transport : Transport T) (subject : String)
    (eventType : String) (payload : V) (log : AuditLog V T) :
    Except Raised Value × AuditLog V T :=
  match transport with
  | .unsent error => (.error error, log)
  | .lost error now fault =>
    (.error error, (log.append c ⟨now, eventType, subject, payload⟩ fault).2)
  | .answered now fault =>
    match log.append c ⟨now, eventType, subject, payload⟩ fault with
    | (.ok entry, log) => (.ok (wire.entry entry), log)
    | (.error _, log) => (.error wire.statusError, log)

/-- `AuditClient.append`. A subject that is no string is refused by the engine. -/
def auditAppend (c : Codec V T) (wire : AuditWire V T) (transport : Transport T)
    (transactionId : Value) (eventType : String) (payload : Dict) (log : AuditLog V T) :
    Except Raised Value × AuditLog V T :=
  match transactionId with
  | .str subject => serveAppend c wire transport subject eventType (wire.encode payload) log
  | _ => (.error wire.statusError, log)

/-- `AuditClient.verify`. -/
def auditVerify (c : Codec V T) (log : AuditLog V T) : Transport T → Except Raised Value
  | .unsent error | .lost error _ _ => .error error
  | .answered _ _ => .ok (verdict (log.verify c))

/-- What the environment decides of an operation. -/
structure Decision (T : Type) where
  transport : Transport T
  answer : (o : Op) → o.Res

/-- The environment of a pipeline: the engine's log, and whatever answers the rest. -/
def withEngine (c : Codec V T) (wire : AuditWire V T) (d : Decision T) :
    (o : Op) → AuditLog V T → o.Res × AuditLog V T
  | .append transactionId eventType payload, log =>
    auditAppend c wire d.transport transactionId eventType payload log
  | .verify, log => (auditVerify c log d.transport, log)
  | o, log => (d.answer o, log)

/-- When the engine persisted what the request asks, if it did. -/
def Transport.persisted : Transport T → Option T
  | .lost _ now none | .answered now none => some now
  | _ => none

/-- The entry an operation has the engine append. -/
def appends (c : Codec V T) (wire : AuditWire V T) (d : Decision T) :
    Op → AuditLog V T → List (AuditEntry V T)
  | .append (.str subject) eventType payload, log =>
    d.transport.persisted.toList.map fun now =>
      log.nextEntry c ⟨now, eventType, subject, wire.encode payload⟩
  | _, _ => []

/-- What is appended does not depend on the file. -/
theorem appends_unfiled (c : Codec V T) (wire : AuditWire V T) (d : Decision T) (o : Op)
    (log : AuditLog V T) : appends c wire d o ⟨none, log.entries⟩ = appends c wire d o log := by
  cases o with
  | append transactionId => cases transactionId <;> rfl
  | _ => rfl

/-- What an append does to the entries, and what its answer tells of them. -/
theorem auditAppend_entries (c : Codec V T) (wire : AuditWire V T) (d : Decision T)
    (transactionId : Value) (eventType : String) (payload : Dict) (log : AuditLog V T) :
    let out := auditAppend c wire d.transport transactionId eventType payload log
    let new := appends c wire d (.append transactionId eventType payload) log
    out.2.entries = log.entries ++ new ∧
      ((∃ e, out.1 = .error e) ∨ ∃ entry, out.1 = .ok (wire.entry entry) ∧ new = [entry]) := by
  obtain ⟨transport, answer⟩ := d
  cases transactionId with
  | str subject =>
    cases transport with
    | unsent error => simp [auditAppend, serveAppend, appends, Transport.persisted]
    | lost error now fault =>
      cases fault with
      | none => simp [auditAppend, serveAppend, appends, Transport.persisted]
      | some f =>
        have kept := (AuditLog.append_error (c := c) log
          ⟨now, eventType, subject, wire.encode payload⟩ f).2
        simp [auditAppend, serveAppend, appends, Transport.persisted, kept]
    | answered now fault =>
      cases fault with
      | none => simp [auditAppend, serveAppend, appends, Transport.persisted]
      | some f =>
        obtain ⟨failed, kept⟩ := AuditLog.append_error (c := c) log
          ⟨now, eventType, subject, wire.encode payload⟩ f
        cases out : log.append c ⟨now, eventType, subject, wire.encode payload⟩ (some f) with
        | mk result after =>
          rw [out] at failed kept
          obtain rfl : result = .error f := failed
          have kept : after.entries = log.entries := kept
          simp [auditAppend, serveAppend, appends, Transport.persisted, out, kept]
  | _ => simp [auditAppend, appends]

/-- The engine's log as the record of the pipelines' appends. -/
def engineLedger (c : Codec V T) (wire : AuditWire V T) :
    Ledger (withEngine c wire) AuditLog.entries wire.entry receipt where
  wrote := appends c wire
  grows := by
    intro d o log
    cases o with
    | append transactionId eventType payload =>
      exact (auditAppend_entries c wire d transactionId eventType payload log).1
    | _ => exact (List.append_nil _).symm
  tells := by
    intro d o log
    cases o with
    | append transactionId eventType payload =>
      obtain ⟨_, ⟨e, failed⟩ | ⟨entry, answered, new⟩⟩ :=
        auditAppend_entries c wire d transactionId eventType payload log
      · show (receipt ⟨.append transactionId eventType payload,
          (auditAppend c wire d.transport transactionId eventType payload log).1⟩).Sublist _
        rw [failed]
        exact List.nil_sublist _
      · show (receipt ⟨.append transactionId eventType payload,
          (auditAppend c wire d.transport transactionId eventType payload log).1⟩).Sublist _
        rw [answered, new]
        exact List.Sublist.refl _
    | _ => exact List.nil_sublist _

/-- An append that was answered with its receipt, or no append. -/
def Acknowledged : Prog.Done Op Op.Res → Prop
  | ⟨.append .., answer⟩ => answer.isOk = true
  | _ => True

theorem engineLedger_complete (c : Codec V T) (wire : AuditWire V T) (d : Decision T) (o : Op)
    (log : AuditLog V T) (acknowledged : Acknowledged ⟨o, (withEngine c wire d o log).1⟩) :
    receipt ⟨o, (withEngine c wire d o log).1⟩ =
      ((engineLedger c wire).wrote d o log).map wire.entry := by
  cases o with
  | append transactionId eventType payload =>
    obtain ⟨_, ⟨e, failed⟩ | ⟨entry, answered, new⟩⟩ :=
      auditAppend_entries c wire d transactionId eventType payload log
    · have ok : (auditAppend c wire d.transport transactionId eventType payload log).1.isOk =
        true := acknowledged
      rw [failed] at ok
      cases ok
    · show receipt ⟨.append transactionId eventType payload,
        (auditAppend c wire d.transport transactionId eventType payload log).1⟩ =
        (appends c wire d (.append transactionId eventType payload) log).map wire.entry
      rw [answered, new]
      rfl
  | _ => rfl

theorem acknowledged_of_appendsOk {h : History} (ok : AppendsOk h) : ∀ d ∈ h, Acknowledged d := by
  intro d mem
  obtain ⟨op, answer⟩ := d
  cases op with
  | append transactionId eventType payload =>
    exact ok answer (List.mem_filterMap.mpr ⟨_, mem, rfl⟩)
  | _ => trivial

section
variable {ι : Type} [DecidableEq ι]

/-- Pipelines on payments of different ids, each with its context and review. -/
structure Cases (ι : Type) where
  host : Host
  orchestrator : Orchestrator
  transaction : ι → Transaction
  context : ι → Option ScoringContext
  review : ι → Option Dict
  configured : orchestrator.audit = true
  distinct : ∀ i j, i ≠ j → (transaction i).id ≠ (transaction j).id

/-- The pipeline on payment `i`. -/
def Cases.pipeline (cases : Cases ι) (i : ι) : Prog Op Op.Res (Except Raised PipelineResult) :=
  cases.orchestrator.processTransaction cases.host (cases.transaction i) (cases.context i)
    (cases.review i)

/-- The entry is about payment `i`. -/
def Cases.about (cases : Cases ι) (i : ι) (e : AuditEntry V T) : Bool :=
  e.subjectId = (cases.transaction i).id

omit [DecidableEq ι] in
theorem Cases.owned (cases : Cases ι) (c : Codec V T) (wire : AuditWire V T) :
    (engineLedger c wire).Owned cases.pipeline cases.about where
  own := by
    intro i h o k past d log e mem
    have about := processTransaction_asks past
    cases o with
    | append transactionId eventType payload =>
      obtain rfl : transactionId = .str (cases.transaction i).id := about
      obtain ⟨now, _, rfl⟩ := List.mem_map.mp mem
      exact decide_eq_true rfl
    | _ => cases mem
  apart := by
    intro i j e other mine
    refine decide_eq_false fun same => ?_
    exact cases.distinct i j other ((of_decide_eq_true mine).symm.trans same)

variable (cases : Cases ι) (c : Codec V T) (wire : AuditWire V T)

/-- The services at work on the cases. -/
abbrev Cases.run (log : AuditLog V T) (schedule : List (ι × Decision T)) :
    Pool ι (AuditLog V T) Op Op.Res (Except Raised PipelineResult) :=
  (Pool.start log cases.pipeline).run (withEngine c wire) schedule

theorem Cases.reached (log : AuditLog V T) (schedule : List (ι × Decision T)) :
    (cases.run c wire log schedule).Reached cases.pipeline :=
  (Pool.reached_start log cases.pipeline).run _ schedule

/-- The receipts of the engine's entries about payment `i`. -/
def Cases.logged (i : ι) (log : AuditLog V T) : List Value :=
  (log.entries.filter (cases.about i)).map wire.entry

/-- What a finished case says of its own history. -/
theorem Cases.audited {log : AuditLog V T} {schedule : List (ι × Decision T)} {i : ι}
    {result : PipelineResult}
    (finished : ((cases.run c wire log schedule).threads i).todo = .ret (.ok result)) :
    let h := ((cases.run c wire log schedule).threads i).done
    result.audit.entries = h.flatMap receipt ∧ (result.audit.errors = [] → AppendsOk h) ∧
      (result.audit.status = .verified →
        VerifiedBy h result.audit ∧ result.audit.errors = []) := by
  have past := cases.reached c wire log schedule i
  rw [finished] at past
  exact processTransaction_audited cases.configured past.runs

/-- A case whose appends were all answered holds the receipts of all entries about it. -/
theorem Cases.all_logged {log : AuditLog V T} {i : ι}
    (fresh : ∀ e ∈ log.entries, cases.about i e = false) (schedule : List (ι × Decision T))
    (acknowledged : ∀ d ∈ ((cases.run c wire log schedule).threads i).done, Acknowledged d) :
    ((cases.run c wire log schedule).threads i).done.flatMap receipt =
      cases.logged wire i (cases.run c wire log schedule).shared :=
  (cases.owned c wire).told_all (engineLedger_complete c wire) fresh schedule acknowledged

/-- **The receipts of a case are in the engine's log**: in any interleaving of any number of
pipelines, whatever is lost on the way or not persisted, no entry is removed, and the receipts
of a finished case are entries of the log about it, in the log's order; and when the case has
no audit error, they are all of them. -/
theorem case_receipts_in_log {log : AuditLog V T} {schedule : List (ι × Decision T)} {i : ι}
    {result : PipelineResult}
    (finished : ((cases.run c wire log schedule).threads i).todo = .ret (.ok result)) :
    let after := (cases.run c wire log schedule).shared
    (∀ first between last, schedule = first ++ between ++ last →
      (cases.run c wire log first).shared.entries <+:
        (cases.run c wire log (first ++ between)).shared.entries) ∧
      result.audit.entries.Sublist (cases.logged wire i after) ∧
      ((∀ e ∈ log.entries, cases.about i e = false) → result.audit.errors = [] →
        result.audit.entries = cases.logged wire i after) := by
  obtain ⟨entries, clean, _⟩ := cases.audited c wire finished
  rw [entries]
  refine ⟨fun first between last _ => ?_, ?_, fun fresh none => ?_⟩
  · rw [Cases.run, Cases.run, Pool.run_append]
    exact (engineLedger c wire).prefix_run _ between
  · exact (cases.owned c wire).told_sublist log schedule i
  · exact cases.all_logged c wire fresh schedule (acknowledged_of_appendsOk (clean none))

omit [DecidableEq ι] in
/-- A verification that answered valid found the log valid. -/
theorem valid_of_answered {c : Codec V T} {log : AuditLog V T} {transport : Transport T}
    {verification valid : Value} (answered : .ok verification = auditVerify c log transport)
    (found : verification.getItem "valid" = .ok valid) (truthy : valid.truthy = true) :
    verification = verdict (log.verify c) ∧ (log.verify c).valid = true := by
  cases transport with
  | answered now fault =>
    obtain rfl := Except.ok.inj answered
    obtain rfl := Except.ok.inj found
    exact ⟨rfl, truthy⟩
  | _ => cases answered

/-- **A verified case is sealed**: at some moment of its run the file read back as a chain from
the genesis hash with the hashes in memory, the verdict of that moment is the one the case
shows, and its receipts are the entries about it at that moment and ever since. -/
theorem verified_case_sealed {log : AuditLog V T} {schedule : List (ι × Decision T)} {i : ι}
    {result : PipelineResult} (fresh : ∀ e ∈ log.entries, cases.about i e = false)
    (finished : ((cases.run c wire log schedule).threads i).todo = .ret (.ok result))
    (verified : result.audit.status = .verified) :
    ∃ first last disk, schedule = first ++ last ∧
      let moment := (cases.run c wire log first).shared
      moment.readDisk c = some disk ∧ Sealed c disk ∧
      disk.map AuditEntry.hash = moment.entries.map AuditEntry.hash ∧
      result.audit.verification = some (verdict (moment.verify c)) ∧
      result.audit.entries = cases.logged wire i moment ∧
      (cases.run c wire log schedule).shared.entries.filter (cases.about i) =
        moment.entries.filter (cases.about i) := by
  obtain ⟨entries, clean, sealing⟩ := cases.audited c wire finished
  obtain ⟨⟨h₁, verification, valid, h₂, whole, kept, found, truthy, quiet⟩, none⟩ :=
    sealing verified
  have acknowledged := acknowledged_of_appendsOk (clean none)
  have told := cases.all_logged c wire fresh schedule acknowledged
  have own := Pool.done_run (withEngine c wire) (Pool.start log cases.pipeline) schedule i
  rw [whole] at own entries acknowledged
  obtain ⟨before, ⟨owner, choice, _, _⟩, after, traced, its, same, earlier, _⟩ :=
    Entry.split_history own.symm
  obtain rfl : owner = i := its
  cases same
  obtain ⟨first, last, k, rfl, rfl, _, answer⟩ := Pool.trace_split (withEngine c wire) traced
  have answered : .ok verification = auditVerify c (cases.run c wire log first).shared
      choice.transport := answer
  obtain ⟨rfl, sound⟩ := valid_of_answered answered found truthy
  obtain ⟨disk, read, hashes, chain⟩ := AuditLog.verify_valid_iff.mp sound
  have past : ((cases.run c wire log first).threads owner).done = h₁ := by
    rw [Pool.done_run, earlier]
    rfl
  have receipted : result.audit.entries =
      cases.logged wire owner (cases.run c wire log first).shared := by
    have before := cases.all_logged c wire fresh first
    rw [past] at before
    rw [entries, List.flatMap_append, List.flatMap_cons, quiet, List.append_nil]
    refine (List.append_nil _).trans (before fun d mem => ?_)
    exact acknowledged d (List.mem_append_left _ mem)
  refine ⟨first, _, disk, rfl, read, chain, hashes, kept, receipted, ?_⟩
  have grown := (engineLedger c wire).prefix_run (cases.run c wire log first)
    ((owner, choice) :: last)
  rw [← Pool.run_append] at grown
  rw [whole, ← entries, receipted] at told
  have counted := congrArg List.length told
  unfold Cases.logged at counted
  rw [List.length_map, List.length_map] at counted
  exact ((grown.filter _).eq_of_length counted).symm

/-! ## An engine that keeps up -/

/-- The engine persists what it is sent, whether or not its answer comes back. -/
def Decision.Faultless (d : Decision T) : Prop :=
  match d.transport with
  | .unsent _ => True
  | .lost _ _ fault | .answered _ fault => fault = none

/-- The request is answered and its entry persisted. -/
def Decision.Prompt (d : Decision T) : Prop := ∃ now, d.transport = .answered now none

/-- A sound log without its file: every verification that is answered is valid. -/
def soundEngine (c : Codec V T) (wire : AuditWire V T) (d : Decision T) :
    (o : Op) → List (AuditEntry V T) → o.Res × List (AuditEntry V T)
  | .append transactionId eventType payload, entries =>
    ((auditAppend c wire d.transport transactionId eventType payload ⟨none, entries⟩).1,
      entries ++ appends c wire d (.append transactionId eventType payload) ⟨none, entries⟩)
  | .verify, entries =>
    (match d.transport with
      | .unsent error | .lost error _ _ => .error error
      | .answered _ _ => .ok (verdict ⟨true, .ofNat entries.length, none⟩), entries)
  | o, entries => (d.answer o, entries)

/-- What the engine does with an append it takes without a fault. -/
theorem serveAppend_faultless (c : Codec V T) (wire : AuditWire V T) {d : Decision T}
    (faultless : d.Faultless) (subject eventType : String) (payload : V) {log : AuditLog V T}
    (lined : c.SingleLined) (sound : Sound c log) :
    let out := serveAppend c wire d.transport subject eventType payload log
    out.1 = (serveAppend c wire d.transport subject eventType payload ⟨none, log.entries⟩).1 ∧
      Sound c out.2 := by
  obtain ⟨transport, answer⟩ := d
  cases transport with
  | unsent error => exact ⟨rfl, sound⟩
  | lost error now fault =>
    obtain rfl : fault = none := faultless
    exact ⟨rfl, sound.append lined _⟩
  | answered now fault =>
    obtain rfl : fault = none := faultless
    exact ⟨rfl, sound.append lined _⟩

/-- Without faults the engine is a sound log, as long as its entries parse back. -/
theorem engine_sound {c : Codec V T} (lined : c.SingleLined) (wire : AuditWire V T) :
    Alike (fun d log => d.Faultless ∧ ∀ e ∈ log.entries, c.ReadsBack e)
      (fun log entries => Sound c log ∧ log.entries = entries)
      (withEngine c wire) (soundEngine c wire) := by
  intro d o log entries ⟨faultless, readable⟩ related
  obtain ⟨sound, rfl⟩ := related
  cases o with
  | append transactionId eventType payload =>
    have grown := (auditAppend_entries c wire d transactionId eventType payload log).1
    rw [← appends_unfiled] at grown
    suffices kept :
        (auditAppend c wire d.transport transactionId eventType payload log).1 =
          (auditAppend c wire d.transport transactionId eventType payload ⟨none, log.entries⟩).1 ∧
        Sound c (auditAppend c wire d.transport transactionId eventType payload log).2 from
      ⟨kept.1, kept.2, grown⟩
    cases transactionId with
    | str subject => exact serveAppend_faultless c wire faultless subject eventType _ lined sound
    | _ => exact ⟨rfl, sound⟩
  | verify =>
    refine ⟨?_, sound, rfl⟩
    show auditVerify c log d.transport = match d.transport with
      | .unsent error | .lost error _ _ => .error error
      | .answered _ _ => .ok (verdict ⟨true, .ofNat log.entries.length, none⟩)
    cases d.transport with
    | answered now fault =>
      show Except.ok (verdict (log.verify c)) = _
      rw [sound.verify readable]
    | _ => rfl
  | _ => exact ⟨rfl, sound, rfl⟩

variable {c wire}

/-- An append that succeeded, a verification that came back valid, or something else. -/
def PromptlyAnswered : Prog.Done Op Op.Res → Prop
  | ⟨.append .., answer⟩ => answer.isOk = true
  | ⟨.verify, answer⟩ => ReturnedValid answer
  | _ => True

omit [DecidableEq ι] in
theorem soundEngine_answers {d : Decision T} (prompt : d.Prompt)
    (entries : List (AuditEntry V T)) {o : Op} {id : String}
    (about : o.About (.str id)) : PromptlyAnswered ⟨o, (soundEngine c wire d o entries).1⟩ := by
  cases o with
  | append transactionId eventType payload =>
    obtain rfl : transactionId = .str id := about
    obtain ⟨now, delivered⟩ := prompt
    show (auditAppend c wire d.transport (.str id) eventType payload ⟨none, entries⟩).1.isOk = true
    rw [delivered]
    rfl
  | verify =>
    obtain ⟨now, delivered⟩ := prompt
    refine ⟨verdict ⟨true, .ofNat entries.length, none⟩, .bool true, ?_, rfl, rfl⟩
    show (match d.transport with
      | .unsent error | .lost error _ _ => Except.error error
      | .answered _ _ => .ok (verdict ⟨true, .ofNat entries.length, none⟩)) = _
    rw [delivered]
  | _ => trivial

/-- Every entry in the log after the schedule parses back: those that were there, and those
the cases appended. -/
abbrev Cases.Readable (c : Codec V T) (wire : AuditWire V T) (log : AuditLog V T)
    (schedule : List (ι × Decision T)) : Prop :=
  ∀ e ∈ (cases.run c wire log schedule).shared.entries, c.ReadsBack e

/-- Without faults, a case goes as it does before a sound log. -/
theorem Cases.run_soundly (lined : c.SingleLined) {log : AuditLog V T} (sound : Sound c log)
    {schedule : List (ι × Decision T)} (faultless : ∀ l ∈ schedule, l.2.Faultless)
    (readable : cases.Readable c wire log schedule) :
    (cases.run c wire log schedule).threads =
      ((Pool.start log.entries cases.pipeline).run (soundEngine c wire) schedule).threads :=
  ((engine_sound lined wire).run
    (p := Pool.start log cases.pipeline) (q := Pool.start log.entries cases.pipeline)
    ((Lib.Run.Along.of_forall faultless).and ((engineLedger c wire).along readable))
    rfl ⟨sound, rfl⟩).1

theorem Cases.finished_soundly (lined : c.SingleLined) {log : AuditLog V T} (sound : Sound c log)
    {schedule : List (ι × Decision T)} (faultless : ∀ l ∈ schedule, l.2.Faultless)
    (readable : cases.Readable c wire log schedule) {i : ι}
    (returned : (((Pool.start log.entries cases.pipeline).run (soundEngine c wire)
      schedule).threads i).todo.result?.any (·.isOk) = true) :
    ∃ result, ((cases.run c wire log schedule).threads i).todo = .ret (.ok result) := by
  rw [← cases.run_soundly lined sound faultless readable] at returned
  cases todo : ((cases.run c wire log schedule).threads i).todo with
  | call o k =>
    rw [todo] at returned
    cases returned
  | ret out =>
    rw [todo] at returned
    cases out with
    | error e => cases returned
    | ok result => exact ⟨result, rfl⟩

/-- What the audit of a case was answered, when none of its requests was lost. -/
theorem Cases.answered (lined : c.SingleLined) {log : AuditLog V T} (sound : Sound c log)
    {schedule : List (ι × Decision T)} (faultless : ∀ l ∈ schedule, l.2.Faultless)
    (readable : cases.Readable c wire log schedule) {i : ι}
    (prompt : ∀ l ∈ schedule, l.1 = i → l.2.Prompt) :
    let h := ((cases.run c wire log schedule).threads i).done
    AppendsOk h ∧ ∀ answer ∈ verifyAnswers h, ReturnedValid answer := by
  intro h
  have same := cases.run_soundly lined sound faultless readable
  have past := cases.reached c wire log schedule i
  have about := processTransaction_about past
  have good : ∀ d ∈ h, PromptlyAnswered d := by
    intro d mem
    have mem' : d ∈ (((Pool.start log.entries cases.pipeline).run (soundEngine c wire)
        schedule).threads i).done := same ▸ mem
    obtain ⟨choice, entries, within, answer⟩ := Pool.done_answered mem'
    obtain ⟨o, r⟩ := d
    have answered : r = (soundEngine c wire choice o entries).1 := answer
    rw [answered]
    exact soundEngine_answers (prompt _ within rfl) entries (about _ mem)
  constructor
  · intro answer mem
    obtain ⟨d, within, told⟩ := List.mem_filterMap.mp mem
    have answered := good d within
    obtain ⟨o, r⟩ := d
    cases o with
    | append =>
      obtain rfl := Option.some.inj told
      exact answered
    | _ => cases told
  · intro answer mem
    obtain ⟨d, within, told⟩ := List.mem_filterMap.mp mem
    have answered := good d within
    obtain ⟨o, r⟩ := d
    cases o with
    | verify =>
      obtain rfl := Option.some.inj told
      exact answered
    | _ => cases told

/-- A case whose audit was answered so is verified. -/
theorem Cases.verified_of_answered {log : AuditLog V T} {schedule : List (ι × Decision T)} {i : ι}
    {result : PipelineResult}
    (finished : ((cases.run c wire log schedule).threads i).todo = .ret (.ok result))
    (answered : let h := ((cases.run c wire log schedule).threads i).done
      AppendsOk h ∧ ∀ answer ∈ verifyAnswers h, ReturnedValid answer) :
    result.audit.status = .verified ∧ result.audit.errors = [] := by
  have past := cases.reached c wire log schedule i
  rw [finished] at past
  have verified := processTransaction_verified cases.configured past.runs answered.1 answered.2
  obtain ⟨_, _, sealing⟩ := cases.audited c wire finished
  exact ⟨verified, (sealing verified).2⟩

/-- **An engine that keeps up verifies**: where the engine persists what it is sent and its
entries parse back, a finished case none of whose own requests was lost is verified, without
an audit error, whatever is lost of the others'. -/
theorem prompt_cases_verified (lined : c.SingleLined) {log : AuditLog V T} (sound : Sound c log)
    {schedule : List (ι × Decision T)} (faultless : ∀ l ∈ schedule, l.2.Faultless)
    (readable : cases.Readable c wire log schedule) {i : ι}
    (prompt : ∀ l ∈ schedule, l.1 = i → l.2.Prompt) {result : PipelineResult}
    (finished : ((cases.run c wire log schedule).threads i).todo = .ret (.ok result)) :
    result.audit.status = .verified ∧ result.audit.errors = [] :=
  cases.verified_of_answered finished (cases.answered lined sound faultless readable prompt)

end

/-! Two cases at a time, of which the second loses the answer to its first append. -/

def twoWire : AuditWire String Unit where
  encode payload := String.intercalate "," (payload.map (·.1))
  decode := .str
  timestampText _ := "2026-03-01T12:00:00Z"
  statusError := .exception "HTTPStatusError"

def twoCases : Cases Bool where
  host := sampleHost
  orchestrator := sampleOrchestrator
  transaction first := { sampleTransaction with id := if first then "tx_1" else "tx_2" }
  context _ := some {}
  review _ := none
  configured := rfl
  distinct := by decide

@[irreducible]
def twoTurns : List (Bool × Decision Unit) :=
  (false, ⟨.lost (.exception "ReadTimeout") () none, clearAnswers []⟩) ::
    (List.range 60).map fun n => (n % 2 = 0, ⟨.answered () none, clearAnswers []⟩)

theorem twoTurns_faultless : ∀ l ∈ twoTurns, l.2.Faultless := by
  intro l mem
  unfold twoTurns at mem
  rcases List.mem_cons.mp mem with rfl | mem
  · rfl
  · obtain ⟨n, _, rfl⟩ := List.mem_map.mp mem
    rfl

theorem twoTurns_prompt : ∀ l ∈ twoTurns, l.1 = true → l.2.Prompt := by
  intro l mem first
  unfold twoTurns at mem
  rcases List.mem_cons.mp mem with rfl | mem
  · cases first
  · obtain ⟨n, _, rfl⟩ := List.mem_map.mp mem
    exact ⟨(), rfl⟩

/-- Both cases are done by then. -/
theorem twoTurns_finished (first : Bool) :
    ∃ result, ((twoCases.run sampleCodec twoWire ⟨none, []⟩ twoTurns).threads first).todo =
      .ret (.ok result) := by
  have returned : ∀ first, (((Pool.start (AuditLog.mk none []).entries twoCases.pipeline).run
      (soundEngine sampleCodec twoWire) twoTurns).threads first).todo.result?.any
        (·.isOk) = true := by
    decide +kernel
  exact twoCases.finished_soundly sampleCodec_lawful.single_line (sound_empty _)
    twoTurns_faultless (sampleCodec_lawful.readsBack _) (returned first)

/-- The first case keeps the receipts of all entries about it, the second only of some. -/
theorem case_receipts_in_log_two :
    (∃ result, ((twoCases.run sampleCodec twoWire ⟨none, []⟩ twoTurns).threads true).todo =
        .ret (.ok result) ∧
      result.audit.entries = twoCases.logged twoWire true
        (twoCases.run sampleCodec twoWire ⟨none, []⟩ twoTurns).shared) ∧
    ∃ result, ((twoCases.run sampleCodec twoWire ⟨none, []⟩ twoTurns).threads false).todo =
        .ret (.ok result) ∧
      result.audit.entries.Sublist (twoCases.logged twoWire false
        (twoCases.run sampleCodec twoWire ⟨none, []⟩ twoTurns).shared) := by
  obtain ⟨first, finished⟩ := twoTurns_finished true
  obtain ⟨second, finished'⟩ := twoTurns_finished false
  have answered := @Cases.answered _ _ _ _ twoCases _ twoWire sampleCodec_lawful.single_line
    _ (sound_empty _) _ twoTurns_faultless (sampleCodec_lawful.readsBack _) _ twoTurns_prompt
  have clean := (twoCases.verified_of_answered finished answered).2
  have all := (case_receipts_in_log twoCases sampleCodec twoWire finished).2.2
  have some := (case_receipts_in_log twoCases sampleCodec twoWire finished').2.1
  exact ⟨⟨first, finished, all (fun e mem => by cases mem) clean⟩, second, finished', some⟩

theorem verified_case_sealed_two :
    ∃ result, ((twoCases.run sampleCodec twoWire ⟨none, []⟩ twoTurns).threads true).todo =
        .ret (.ok result) ∧
      ∃ first last disk, twoTurns = first ++ last ∧
        let moment := (twoCases.run sampleCodec twoWire ⟨none, []⟩ first).shared
        moment.readDisk sampleCodec = some disk ∧ Sealed sampleCodec disk ∧
          result.audit.entries = twoCases.logged twoWire true moment := by
  obtain ⟨result, finished⟩ := twoTurns_finished true
  have answered := @Cases.answered _ _ _ _ twoCases _ twoWire sampleCodec_lawful.single_line
    _ (sound_empty _) _ twoTurns_faultless (sampleCodec_lawful.readsBack _) _ twoTurns_prompt
  have verified := (twoCases.verified_of_answered finished answered).1
  obtain ⟨first, last, disk, split, read, chain, _, _, receipts, _⟩ :=
    verified_case_sealed twoCases sampleCodec twoWire (fun e mem => by cases mem) finished
      verified
  exact ⟨result, finished, first, last, disk, split, read, chain, receipts⟩

theorem prompt_cases_verified_two :
    ∃ result, ((twoCases.run sampleCodec twoWire ⟨none, []⟩ twoTurns).threads true).todo =
        .ret (.ok result) ∧ result.audit.status = .verified := by
  obtain ⟨result, finished⟩ := twoTurns_finished true
  exact ⟨result, finished, (prompt_cases_verified twoCases sampleCodec_lawful.single_line
    (sound_empty _) twoTurns_faultless (sampleCodec_lawful.readsBack _) twoTurns_prompt
    finished).1⟩

end VaultWatch.Correlation
