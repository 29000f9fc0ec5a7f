import VaultWatch.Agents.Fusion
import VaultWatch.Gateway.AccountEvents
import VaultWatch.Gateway.CredentialStuffing

/-! # Which login warnings reach the account they concern

The gateway publishes its security events as JSON on one channel, and the agents
keep an event only under the account id it carries. A warning about an account
counts for ten minutes exactly when its publisher had the account's id, which a
failed login never has. -/
namespace VaultWatch.Correlation

open VaultWatch.Gateway (AuthHistory AuthShared AuthChoice AuthOp AuthRes LoginService Call
  DetailValue AccountTriggered Grounded calling handleAuth doneBy)
open VaultWatch.Gateway.Store (AuthStore User)
open VaultWatch.Agents (Host Value Dict RecentEvents SECURITY_EVENT_WINDOW recentSecurityEvent)
open VaultWatch.Lib.Interleave

/-! ## The channel -/

/-- How Go writes times: `Format(time.RFC3339)`, and a `time.Time` in `json.Marshal`. -/
structure Wire where
  rfc3339 : Gateway.Store.Time → String
  marshalTime : Gateway.Store.Time → String

/-- The number that `json.loads` reads back: a whole one is written without a point. -/
def marshalFloat (q : ℚ) : Value :=
  if q.den = 1 ∧ q.num.natAbs < 10 ^ 21 then .int q.num else .float q

def marshalDetail (wire : Wire) : DetailValue → Value
  | .text s => .str s
  | .count n => .int n
  | .number q => marshalFloat q
  | .instant t => .str (wire.marshalTime t)

/-- A map is written in the order of its keys. -/
def marshalMap (wire : Wire) (detail : List (String × DetailValue)) : Dict :=
  (detail.mergeSort fun a b => a.1 ≤ b.1).map fun field => (field.1, marshalDetail wire field.2)

/-- The message of an event; `account_id` is `omitempty`. -/
def payload (wire : Wire) (event : Gateway.SecurityEvent) : Dict :=
  [("type", .str event.type)] ++
  (if event.accountID = "" then [] else [("account_id", .str event.accountID)]) ++
  [("severity", .str event.severity), ("detail", .dict (marshalMap wire event.detail)),
    ("timestamp", .str (wire.rfc3339 event.timestamp))]

/-- The event that the listener makes of the message. -/
def received (wire : Wire) (event : Gateway.SecurityEvent) : Agents.SecurityEvent where
  type := event.type
  accountId := if event.accountID = "" then none else some event.accountID
  severity := event.severity
  detail := marshalMap wire event.detail
  timestamp := some (wire.rfc3339 event.timestamp)

theorem ofPayload_payload {host : Host} (strings : ∀ s, host.asStr (.str s) = some s)
    (wire : Wire) (event : Gateway.SecurityEvent) :
    Agents.SecurityEvent.ofPayload host (payload wire event) = .ok (received wire event) := by
  unfold payload received
  split
  · simp [Agents.SecurityEvent.ofPayload, Dict.required, Dict.optional, Agents.validated,
      Agents.nullable, Agents.asDict, strings, List.lookup_cons, bind, Except.bind, pure,
      Except.pure]
  · simp [Agents.SecurityEvent.ofPayload, Dict.required, Dict.optional, Agents.validated,
      Agents.nullable, Agents.asDict, strings, List.lookup_cons, bind, Except.bind, pure,
      Except.pure]

section
variable {host : Host} {wire : Wire} {event : Gateway.SecurityEvent}

/-- An event with an account id is in that account's bucket when it has been received. -/
theorem receive_owned (strings : ∀ s, host.asStr (.str s) = some s) (owned : event.accountID ≠ "")
    (recent : RecentEvents) (time : Agents.Time) :
    (time, received wire event) ∈
      Agents.receive host recent (time, payload wire event) event.accountID := by
  unfold Agents.receive
  rw [ofPayload_payload strings]
  exact Agents.recordSecurityEvent_own (if_neg owned) owned recent

/-- An event without one leaves no trace. -/
theorem receive_unowned (strings : ∀ s, host.asStr (.str s) = some s)
    (unowned : event.accountID = "") (recent : RecentEvents) (time : Agents.Time) :
    Agents.receive host recent (time, payload wire event) = recent := by
  have nobody : (received wire event).accountId = none := if_pos unowned
  unfold Agents.receive
  rw [ofPayload_payload strings]
  show Agents.recordSecurityEvent time (received wire event) recent = recent
  unfold Agents.recordSecurityEvent
  rw [nobody]

end

/-! ## Runs of the gateway, delivered -/

section
variable {ι σ : Type}

/-- The events of a trace, in order. -/
def publishedBy (entries : List (Entry ι AuthChoice AuthOp AuthRes)) :
    List Gateway.SecurityEvent :=
  entries.flatMap (·.done.1.published)

/-- The messages of a run, received in order on a clock that does not go back:
`event` at `time`, between those of the entries before and after it. -/
structure Delivery (wire : Wire) (before after : List (Entry ι AuthChoice AuthOp AuthRes))
    (event : Gateway.SecurityEvent) where
  earlier : List (Agents.Time × Dict)
  time : Agents.Time
  later : List (Agents.Time × Dict)
  earlierEvents : earlier.map (·.2) = (publishedBy before).map (payload wire)
  laterEvents : later.map (·.2) = (publishedBy after).map (payload wire)
  clock : (earlier ++ (time, payload wire event) :: later).Pairwise (·.1 ≤ ·.1)

namespace Delivery

variable {wire : Wire} {before after : List (Entry ι AuthChoice AuthOp AuthRes)}
  {event : Gateway.SecurityEvent}

/-- The buckets once the event and `next` have been received. -/
def recent (d : Delivery wire before after event) (host : Host)
    (next : List (Agents.Time × Dict)) : RecentEvents :=
  Agents.listen host (d.earlier ++ (d.time, payload wire event) :: next) fun _ => []

/-- A reading at `now`, in the ten minutes after the event, by when `next` of the
later messages have been received. -/
structure Reading (d : Delivery wire before after event) (next : List (Agents.Time × Dict))
    (now : Agents.Time) : Prop where
  arrived : next <+: d.later
  past : ∀ message ∈ next, message.1 ≤ now
  since : d.time ≤ now
  within : now < d.time + SECURITY_EVENT_WINDOW

/-- For ten minutes the account has a recent security event, and a transaction of
it that reaches fusion with a score of at least 50 gets a critical alert. -/
structure Warns (d : Delivery wire before after event) (host : Host) (accountId : String) :
    Prop where
  recent : ∀ next now, d.Reading next now →
    (recentSecurityEvent now (d.recent host next accountId)).isSome = true
  fused : ∀ (o : Agents.Orchestrator) (tx : Agents.Transaction)
    (context : Option Agents.ScoringContext) (review : Option Dict) (h : Agents.History)
    (result : Agents.PipelineResult) (case : Agents.CaseFile), tx.accountId = accountId →
    (o.processTransaction host tx context review).Runs h (.ok result) →
    result.case = some case → 50 ≤ case.riskScore →
    (∀ now bucket, ⟨.recentSecurityEvents tx.accountId, (now, bucket)⟩ ∈ h →
      ∃ next, d.Reading next now ∧ bucket = d.recent host next accountId) →
    ∃ alert, result.alert = some alert ∧ Agents.Orchestrator.CriticalFusion alert

theorem warns_of_recent {d : Delivery wire before after event} {host : Host} {accountId : String}
    (recent : ∀ next now, d.Reading next now →
      (recentSecurityEvent now (d.recent host next accountId)).isSome = true) :
    d.Warns host accountId where
  recent := recent
  fused o tx context review h result case own run caseFile grave read := by
    refine Agents.Orchestrator.processTransaction_fused run caseFile grave ?_
    intro now bucket mem
    obtain ⟨next, reading, rfl⟩ := read now bucket mem
    exact recent next now reading

/-- An event that carries the account's id warns for ten minutes. -/
theorem warns_of_owned {host : Host} (strings : ∀ s, host.asStr (.str s) = some s)
    (owned : event.accountID ≠ "") (d : Delivery wire before after event) :
    d.Warns host event.accountID := by
  refine warns_of_recent fun next now reading => ?_
  refine Agents.recentSecurityEvent_isSome_iff.mpr
    ⟨(d.time, received wire event), ?_, reading.within⟩
  unfold recent Agents.listen
  rw [List.foldl_append, List.foldl_cons]
  refine Agents.listen_keeps (receive_owned strings owned _ d.time) fun message mem => ?_
  exact lt_of_le_of_lt (reading.past message mem) reading.within

/-- All that came before was received ten minutes earlier, all that follows at once. -/
def quiet (wire : Wire) (before after : List (Entry ι AuthChoice AuthOp AuthRes))
    (event : Gateway.SecurityEvent) : Delivery wire before after event where
  earlier := (publishedBy before).map fun e => (0, payload wire e)
  time := SECURITY_EVENT_WINDOW
  later := (publishedBy after).map fun e => (SECURITY_EVENT_WINDOW, payload wire e)
  earlierEvents := by rw [List.map_map]; rfl
  laterEvents := by rw [List.map_map]; rfl
  clock := by
    have after_zero : (0 : Agents.Time) ≤ SECURITY_EVENT_WINDOW := by decide
    have same : ∀ (t : Agents.Time) (events : List Gateway.SecurityEvent),
        (events.map fun e => (t, payload wire e)).Pairwise (·.1 ≤ ·.1) := by
      intro t events
      exact List.pairwise_map.mpr (List.pairwise_of_forall fun _ _ => le_refl t)
    refine List.pairwise_append.mpr ⟨same _ _, List.pairwise_cons.mpr ⟨?_, same _ _⟩, ?_⟩
    · intro message mem
      obtain ⟨_, _, rfl⟩ := List.mem_map.mp mem
      exact le_refl _
    · intro first mem second mem'
      obtain ⟨_, _, rfl⟩ := List.mem_map.mp mem
      rcases List.mem_cons.mp mem' with rfl | rest
      · exact after_zero
      · obtain ⟨_, _, rfl⟩ := List.mem_map.mp rest
        exact after_zero

/-- An event without an account id warns of nothing. -/
theorem quiet_silent {host : Host} (strings : ∀ s, host.asStr (.str s) = some s)
    (unowned : event.accountID = "") (accountId : String) :
    ¬ (quiet wire before after event).Warns host accountId := by
  intro warns
  have reading : (quiet wire before after event).Reading [] SECURITY_EVENT_WINDOW :=
    ⟨List.nil_prefix, nofun, le_refl _,
      show SECURITY_EVENT_WINDOW < SECURITY_EVENT_WINDOW + SECURITY_EVENT_WINDOW by decide⟩
  obtain ⟨e, mem, within⟩ :=
    Agents.recentSecurityEvent_isSome_iff.mp (warns.recent [] _ reading)
  unfold recent Agents.listen at mem
  rw [List.foldl_append, List.foldl_cons] at mem
  have dropped : Agents.receive host (Agents.listen host (quiet wire before after event).earlier
      fun _ => []) (SECURITY_EVENT_WINDOW, payload wire event) = _ :=
    receive_unowned strings unowned _ _
  rcases Agents.mem_listen (dropped ▸ mem) with none | ⟨message, delivered, same⟩
  · cases none
  · obtain ⟨_, _, rfl⟩ := List.mem_map.mp delivered
    rw [← same] at within
    exact lt_irrefl _ (show SECURITY_EVENT_WINDOW < SECURITY_EVENT_WINDOW from
      within.trans_eq (zero_add _))

end Delivery

/-! ## Which events concern an account -/

/-- The event, published by a call that has done `h` while the store is in `g`, was
provoked by requests against the existing account `A`. -/
inductive Against (S : AuthStore σ) (g : AuthShared σ) (h : AuthHistory) (A : User)
    (event : Gateway.SecurityEvent) : Prop
  | travel (email : String) (user : User) (type : event.type = "impossible_travel")
      (found : h.head? = some ⟨.getUserByEmail email, .ok user⟩) (own : user.id = A.id)
  | failures (type : event.type = "brute_force_account")
      (email : ("email", .text A.email) ∈ event.detail)
      (present : S.getUserByEmail A.email g.store = .ok A)
  | reuse (hash : String) (rt : Gateway.Store.RefreshToken)
      (type : event.type = "refresh_token_reuse")
      (read : h.head? = some ⟨.base (.get hash), .ok rt⟩) (own : rt.userID = A.id)

/-- An event about an account carries its id unless it counts the account's failures. -/
theorem Against.owner {S : AuthStore σ} {g : AuthShared σ} {h : AuthHistory} {A : User}
    {event : Gateway.SecurityEvent} (against : Against S g h A event)
    (grounded : Grounded h event) :
    (¬ AccountTriggered h ∧ event.accountID = A.id) ∨
      (AccountTriggered h ∧ event.accountID = "") := by
  cases grounded with
  | travel email user last result now found calm =>
    left
    refine ⟨calm, ?_⟩
    cases against with
    | travel email' user' type found' own =>
      rw [found] at found'
      cases found'
      exact own
    | failures type email present =>
      exact absurd (show "impossible_travel" = "brute_force_account" from type) (by decide)
    | reuse hash rt type read own =>
      rw [found] at read
      cases read
  | failuresIP key count now =>
    cases against with
    | travel email' user' type found' own =>
      exact absurd (show "brute_force_ip" = "impossible_travel" from type) (by decide)
    | failures type email present =>
      exact absurd (show "brute_force_ip" = "brute_force_account" from type) (by decide)
    | reuse hash rt type read own =>
      exact absurd (show "brute_force_ip" = "refresh_token_reuse" from type) (by decide)
  | failuresAccount email count now triggered => exact .inr ⟨triggered, rfl⟩
  | reuse hash rt now read calm =>
    left
    refine ⟨calm, ?_⟩
    cases against with
    | travel email' user' type found' own =>
      rw [read] at found'
      cases found'
    | failures type email present =>
      exact absurd (show "refresh_token_reuse" = "brute_force_account" from type) (by decide)
    | reuse hash' rt' type read' own =>
      rw [read] at read'
      cases read'
      exact own

/-- In every run of the gateway, an event about an existing account reaches the
account's next ten minutes, however its messages are timed, if and only if its
publisher has not just counted the account's failures to the threshold. -/
theorem account_warned_iff [DecidableEq ι] {S : AuthStore σ} {s : LoginService} {call : ι → Call}
    {g : AuthShared σ} {schedule : List (ι × AuthChoice)}
    {before after : List (Entry ι AuthChoice AuthOp AuthRes)}
    {entry : Entry ι AuthChoice AuthOp AuthRes} {event : Gateway.SecurityEvent} {A : User}
    {host : Host} (wire : Wire) (strings : ∀ s, host.asStr (.str s) = some s)
    (named : A.id ≠ "")
    (trace : (calling s call g).trace (handleAuth S) schedule = before ++ entry :: after)
    (published : entry.done.1 = .base (.publish event))
    (against : Against S (before.foldl (Entry.apply (handleAuth S)) g)
      (doneBy entry.thread before) A event) :
    (∀ d : Delivery wire before after event, d.Warns host A.id) ↔
      ¬ AccountTriggered (doneBy entry.thread before) := by
  obtain ⟨calm, owned⟩ | ⟨triggered, unowned⟩ :=
    against.owner (Gateway.published_grounded trace published)
  · refine iff_of_true (fun d => ?_) calm
    rw [← owned] at named ⊢
    exact d.warns_of_owned strings named
  · refine iff_of_false (fun all => ?_) fun calm => calm triggered
    exact Delivery.quiet_silent strings unowned A.id (all (.quiet wire before after event))

end

/-! ## A replayed refresh token, and eight guesses at a password -/

def sampleWire : Wire where
  rfc3339 _ := "1970-01-01T00:00:00Z"
  marshalTime _ := "1970-01-01T00:00:00Z"

/-- The account of `ownAccount`. -/
def ownUser : User where
  id := "u-own"
  email := "own@example.com"
  passwordHash := "own"

theorem sampleHost_strings (text : String) : Agents.sampleHost.asStr (.str text) = some text := rfl

/-- The account's token, already used. -/
def usedToken : Gateway.Store.RefreshToken where
  hash := "sha256:rt"
  userID := "u-own"
  familyID := "f-1"
  usedAt := some 0
  expiresAt := 1

def withUsedToken : AuthShared Gateway.Store.MemoryStore where
  store := { Gateway.ownAccount.store with
    tokens := Function.update (fun _ => none) "sha256:rt" (some usedToken) }

/-- The replay: its lookup, the revocation, the clock and the event. -/
def replayed : List (Entry Unit AuthChoice AuthOp AuthRes) :=
  (calling Gateway.sampleLoginService (fun _ => .refresh "rt") withUsedToken).trace
    (handleAuth Gateway.Store.memoryStore) (Gateway.steps () 4)

theorem account_warned_replay :
    (Delivery.quiet sampleWire (replayed.take 3) []
      { Gateway.AuthService.reused usedToken with timestamp := 0 }).Warns Agents.sampleHost
        ownUser.id := by
  refine (account_warned_iff (A := ownUser) sampleWire sampleHost_strings (by decide)
    (show replayed = replayed.take 3 ++ _ :: [] from rfl) rfl
    (.reuse "sha256:rt" usedToken rfl rfl rfl)).mpr (by decide) _

/-- Eight wrong passwords for the account, each from another address. -/
def guessOwn (i : Fin 8) : Call :=
  .login { Gateway.ownLogin with password := "guess", ip := "10.0.0." ++ toString i.val }

/-- Three operations each, and the clock and the event of the eighth. -/
def guessingOwn : List (Fin 8 × AuthChoice) :=
  (List.finRange 8).flatMap (Gateway.steps · 3) ++ Gateway.steps 7 2

def guessedOwn : List (Entry (Fin 8) AuthChoice AuthOp AuthRes) :=
  (calling Gateway.sampleLoginService guessOwn { toShared := Gateway.ownAccount }).trace
    (handleAuth Gateway.Store.memoryStore) guessingOwn

def eighthFailure : Gateway.SecurityEvent :=
  { LoginService.bruteForceAccount "own@example.com" 8 with timestamp := 0 }

/-- The event of the eighth wrong password is delivered, and the account has no
recent security event. -/
theorem guessed_account_not_warned :
    ∃ entry : Entry (Fin 8) AuthChoice AuthOp AuthRes,
      guessedOwn = guessedOwn.take 25 ++ [entry] ∧
      entry.done.1 = .base (.publish eighthFailure) ∧
      Against Gateway.Store.memoryStore ((guessedOwn.take 25).foldl
        (Entry.apply (handleAuth Gateway.Store.memoryStore)) { toShared := Gateway.ownAccount })
        (doneBy entry.thread (guessedOwn.take 25)) ownUser eighthFailure ∧
      publishedBy (guessedOwn.take 25) = [] ∧
      ∃ d : Delivery (ι := Fin 8) sampleWire (guessedOwn.take 25) [] eighthFailure,
        d.Reading [] SECURITY_EVENT_WINDOW ∧ recentSecurityEvent SECURITY_EVENT_WINDOW
          (d.recent Agents.sampleHost [] ownUser.id) = none :=
  ⟨_, rfl, rfl, .failures rfl (.head _) rfl, rfl, .quiet _ _ _ _,
    ⟨List.nil_prefix, nofun, le_refl _,
      show SECURITY_EVENT_WINDOW < SECURITY_EVENT_WINDOW + SECURITY_EVENT_WINDOW by decide⟩, rfl⟩

end VaultWatch.Correlation
