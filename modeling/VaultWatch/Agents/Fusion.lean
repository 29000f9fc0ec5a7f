import VaultWatch.Agents.PaymentGate
import Mathlib.Tactic.Linarith

/-! The security events an account has received (`record_security_event` and the
listener of `agents-python/app/main.py`) and the alert of a transaction that
finds one of them. An event stays for ten minutes, whatever else arrives. -/
namespace VaultWatch.Agents

open VaultWatch.Lib.Effects VaultWatch.Lib.Interleave

/-! ## Receiving -/

/-- An optional field that may be `None`. -/
def nullable {α : Type} (coerce : Value → Option α) : Value → Option (Option α)
  | .none => some none
  | v => (coerce v).map some

def asDict : Value → Option Dict
  | .dict fields => some fields
  | _ => none

/-- `SecurityEvent(**payload)`. -/
def SecurityEvent.ofPayload (host : Host) (payload : Dict) : Except Raised SecurityEvent := do
  let type ← payload.required "type" host.asStr
  let accountId ← payload.optional "account_id" none (nullable host.asStr)
  let severity ← payload.required "severity" host.asStr
  let detail ← payload.optional "detail" [] asDict
  let timestamp ← payload.optional "timestamp" none (nullable host.asStr)
  return { type, accountId, severity, detail, timestamp }

/-- `_recent_security_events`: the bucket of each account. -/
abbrev RecentEvents := String → List (Time × SecurityEvent)

/-- `record_security_event`, at `now`. -/
def recordSecurityEvent (now : Time) (event : SecurityEvent) (recent : RecentEvents) :
    RecentEvents :=
  match event.accountId with
  | none => recent
  | some accountId =>
    if accountId = "" then recent
    else Function.update recent accountId
      ((recent accountId ++ [(now, event)]).filter fun e => e.1 > now - SECURITY_EVENT_WINDOW)

/-- One message of the channel; whatever it raises is only logged. -/
def receive (host : Host) (recent : RecentEvents) (message : Time × Dict) : RecentEvents :=
  match SecurityEvent.ofPayload host message.2 with
  | .ok event => recordSecurityEvent message.1 event recent
  | .error _ => recent

/-- `_security_event_listener` while it stays subscribed. -/
def listen (host : Host) (messages : List (Time × Dict)) (recent : RecentEvents) : RecentEvents :=
  messages.foldl (receive host) recent

/-! ## What stays -/

theorem recordSecurityEvent_own {now : Time} {event : SecurityEvent} {accountId : String}
    (owner : event.accountId = some accountId) (named : accountId ≠ "") (recent : RecentEvents) :
    (now, event) ∈ recordSecurityEvent now event recent accountId := by
  have inside : now - SECURITY_EVENT_WINDOW < now := by
    unfold SECURITY_EVENT_WINDOW
    linarith
  unfold recordSecurityEvent
  simp [owner, named, inside]

/-- Recording leaves every bucket, or appends to the one of its account and prunes it. -/
theorem recordSecurityEvent_cases (now : Time) (event : SecurityEvent) (recent : RecentEvents) :
    recordSecurityEvent now event recent = recent ∨
    ∃ accountId, recordSecurityEvent now event recent = Function.update recent accountId
      ((recent accountId ++ [(now, event)]).filter fun e => e.1 > now - SECURITY_EVENT_WINDOW) := by
  unfold recordSecurityEvent
  cases event.accountId with
  | none => exact .inl rfl
  | some accountId =>
    by_cases unnamed : accountId = ""
    · exact .inl (if_pos unnamed)
    · exact .inr ⟨accountId, if_neg unnamed⟩

/-- Recording drops from a bucket only what is ten minutes old. -/
theorem recordSecurityEvent_keeps {now : Time} (event : SecurityEvent) {recent : RecentEvents}
    {accountId : String} {e : Time × SecurityEvent} (mem : e ∈ recent accountId)
    (within : now < e.1 + SECURITY_EVENT_WINDOW) :
    e ∈ recordSecurityEvent now event recent accountId := by
  have inside : now - SECURITY_EVENT_WINDOW < e.1 := by linarith
  rcases recordSecurityEvent_cases now event recent with same | ⟨owner, recorded⟩
  · rwa [same]
  · rw [recorded]
    by_cases own : accountId = owner
    · subst own
      simp [mem, inside]
    · rwa [Function.update_of_ne own]

/-- Recording adds to a bucket only the event itself. -/
theorem mem_recordSecurityEvent {now : Time} {event : SecurityEvent} {recent : RecentEvents}
    {accountId : String} {e : Time × SecurityEvent}
    (mem : e ∈ recordSecurityEvent now event recent accountId) :
    e ∈ recent accountId ∨ e = (now, event) := by
  rcases recordSecurityEvent_cases now event recent with same | ⟨owner, recorded⟩
  · rw [same] at mem
    exact .inl mem
  · rw [recorded] at mem
    by_cases own : accountId = owner
    · subst own
      rw [Function.update_self] at mem
      rcases List.mem_append.mp (List.mem_filter.mp mem).1 with old | new
      · exact .inl old
      · exact .inr (List.mem_singleton.mp new)
    · rw [Function.update_of_ne own] at mem
      exact .inl mem

/-- A message leaves every bucket, or is one event recorded. -/
theorem receive_cases (host : Host) (recent : RecentEvents) (message : Time × Dict) :
    receive host recent message = recent ∨
    ∃ event, SecurityEvent.ofPayload host message.2 = .ok event ∧
      receive host recent message = recordSecurityEvent message.1 event recent := by
  unfold receive
  cases SecurityEvent.ofPayload host message.2 with
  | error e => exact .inl rfl
  | ok event => exact .inr ⟨event, rfl, rfl⟩

section
variable {host : Host} {recent : RecentEvents} {accountId : String} {e : Time × SecurityEvent}

theorem listen_keeps {messages : List (Time × Dict)} (mem : e ∈ recent accountId)
    (within : ∀ message ∈ messages, message.1 < e.1 + SECURITY_EVENT_WINDOW) :
    e ∈ listen host messages recent accountId := by
  induction messages generalizing recent with
  | nil => exact mem
  | cons message messages ih =>
    refine ih ?_ fun later m => within later (.tail _ m)
    rcases receive_cases host recent message with same | ⟨event, _, recorded⟩
    · rwa [same]
    · rw [recorded]
      exact recordSecurityEvent_keeps event mem (within message (.head _))

/-- Whatever is in a bucket has been delivered. -/
theorem mem_listen {messages : List (Time × Dict)}
    (mem : e ∈ listen host messages recent accountId) :
    e ∈ recent accountId ∨ ∃ message ∈ messages, message.1 = e.1 := by
  induction messages generalizing recent with
  | nil => exact .inl mem
  | cons message messages ih =>
    rcases ih mem with kept | ⟨later, m, same⟩
    · rcases receive_cases host recent message with same | ⟨event, _, recorded⟩
      · rw [same] at kept
        exact .inl kept
      · rw [recorded] at kept
        rcases mem_recordSecurityEvent kept with old | rfl
        · exact .inl old
        · exact .inr ⟨message, .head _, rfl⟩
    · exact .inr ⟨later, .tail _ m, same⟩

end

theorem recentSecurityEvent_isSome_iff {now : Time} {events : List (Time × SecurityEvent)} :
    (recentSecurityEvent now events).isSome = true ↔
      ∃ e ∈ events, now < e.1 + SECURITY_EVENT_WINDOW := by
  unfold recentSecurityEvent
  constructor
  · intro found
    obtain ⟨event, last⟩ := Option.isSome_iff_exists.mp found
    obtain ⟨e, kept, _⟩ := List.mem_map.mp (List.mem_of_getLast? last)
    obtain ⟨mem, inside⟩ := List.mem_filter.mp kept
    exact ⟨e, mem, sub_lt_iff_lt_add.mp (of_decide_eq_true inside)⟩
  · intro ⟨e, mem, within⟩
    have inside : now - SECURITY_EVENT_WINDOW < e.1 := sub_lt_iff_lt_add.mpr within
    have kept : e.2 ∈ (events.filter fun e => e.1 > now - SECURITY_EVENT_WINDOW).map (·.2) :=
      List.mem_map_of_mem (List.mem_filter.mpr ⟨mem, decide_eq_true inside⟩)
    rw [List.getLast?_isSome]
    exact List.ne_nil_of_mem kept

/-! ## The alert -/

namespace Orchestrator

variable {host : Host} {o : Orchestrator} {tx : Transaction}

/-- A critical alert, fused with a security event. -/
structure CriticalFusion (alert : Alert) : Prop where
  severity : alert.severity = .critical
  fused : alert.fusedWithSecurityEvent = true

theorem raiseAlert_fused {case : CaseFile} {event : SecurityEvent} {s t : PipelineResult}
    {h : History} (grave : 50 ≤ case.riskScore)
    (returns : Returns (raiseAlert host o tx case (some event)) s h () t) :
    ∃ alert, t.alert = some alert ∧ CriticalFusion alert := by
  obtain ⟨timestamp, _, rfl, rest⟩ := returns.askThen
  obtain ⟨audit, rfl, _⟩ := emit_returns rest.modifyThen
  refine ⟨_, rfl, ?_, rfl⟩
  show severityFor case.riskScore true = .critical
  exact if_pos ⟨rfl, grave⟩

/-- What a run that reads the account's events finds in them is what it fuses. -/
theorem escalate_fused {triage : TriageVerdict} {rules : RuleEngineVerdict}
    {s t : PipelineResult} {past h : History} {case : CaseFile} (before : Recorded past {} s.audit)
    (returns : Returns (escalate host o tx triage rules) s h () t)
    (caseFile : t.case = some case) (grave : 50 ≤ case.riskScore)
    (found : ∀ now bucket, ⟨.recentSecurityEvents tx.accountId, (now, bucket)⟩ ∈ h →
      (recentSecurityEvent now bucket).isSome = true) :
    ∃ alert, t.alert = some alert ∧ CriticalFusion alert := by
  obtain ⟨file, _, h₁, _, rfl, investigated, rest⟩ := returns.bind
  obtain ⟨_, _, rfl, trail₁, _⟩ := investigate_returns investigated
  obtain ⟨_, _, h₂, _, rfl, drafted, rest⟩ := rest.bind
  obtain ⟨_, _, _, rfl, trail₂, _⟩ := draftCompliance_returns drafted
  obtain ⟨securityEvent, _, h₃, _, rfl, fused, rest⟩ := rest.bind
  obtain ⟨_, _, rfl, trail₃, ⟨now, bucket, read, same⟩, _⟩ := fuse_returns fused
  obtain ⟨_, _, h₄, h₅, rfl, raised, finished⟩ := rest.bind
  obtain ⟨_, _, _, rfl, trail₄, _⟩ := raiseAlert_returns raised
  obtain ⟨_, _, _, rfl, _⟩ := finish_returns
    (before.trans (trail₁.trans (trail₂.trans (trail₃.trans trail₄)))) finished
  cases caseFile
  obtain ⟨event, rfl⟩ : ∃ event, securityEvent = some event := by
    rw [same]
    exact Option.isSome_iff_exists.mp (found now bucket (by simp [read]))
  have carried := raiseAlert_fused grave raised
  exact carried

theorem close_case {label : String} {s t : PipelineResult} {past h : History}
    (before : Recorded past {} s.audit) (returns : Returns (close host o tx label) s h () t) :
    t.case = s.case := by
  obtain ⟨h₁, h₂, _, _, rfl, finished, trail, _⟩ := close_returns returns
  obtain ⟨_, _, _, rfl, _⟩ := finish_returns (before.trans trail) finished
  rfl

/-- A run whose case file scores at least 50 and which finds a recent event of the
account returns with a critical alert fused with it. -/
theorem processTransaction_fused {context : Option ScoringContext} {review : Option Dict}
    {h : History} {result : PipelineResult} {case : CaseFile}
    (run : (o.processTransaction host tx context review).Runs h (.ok result))
    (caseFile : result.case = some case) (grave : 50 ≤ case.riskScore)
    (found : ∀ now bucket, ⟨.recentSecurityEvents tx.accountId, (now, bucket)⟩ ∈ h →
      (recentSecurityEvent now bucket).isSome = true) :
    ∃ alert, result.alert = some alert ∧ CriticalFusion alert := by
  obtain ⟨ctx, _, h₁, _, rfl, opened, rest⟩ := (onNew_returns run).bind
  obtain ⟨_, rfl, trail₁⟩ := openCase_returns opened
  obtain ⟨rules, _, h₂, _, rfl, scored, rest⟩ := rest.bind
  obtain ⟨_, _, rfl, trail₂, _⟩ := scoreRules_returns scored
  obtain ⟨prefilter, _, h₃, _, rfl, filtered, rest⟩ := rest.bind
  obtain ⟨_, _, rfl, trail₃, _⟩ := scorePrefilter_returns filtered
  have trail := trail₁.trans (trail₂.trans trail₃)
  split at rest
  · rw [close_case trail rest] at caseFile
    cases caseFile
  · obtain ⟨triage, _, h₄, _, rfl, triaged, rest⟩ := rest.bind
    obtain ⟨_, _, rfl, trail₄, _⟩ := triageCase_returns triaged
    split at rest
    · rw [close_case (trail.trans trail₄) rest] at caseFile
      cases caseFile
    · refine escalate_fused (trail.trans trail₄) rest caseFile grave fun now bucket read => ?_
      exact found now bucket (by simp [read])

end Orchestrator

end VaultWatch.Agents
