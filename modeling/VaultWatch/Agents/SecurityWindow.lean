import VaultWatch.Agents.Fusion
import VaultWatch.Lib.Window

/-! `record_security_event` and `_recent_security_event` called in any order. A
bucket is pruned only when an event is recorded into it, and filtered again when it
is read; together they answer from everything recorded. -/
namespace VaultWatch.Agents

open VaultWatch.Lib.Window

inductive SecurityCall where
  | record (event : SecurityEvent)
  | query (accountId : String)

/-- The account whose bucket takes the event: `not event.account_id` holds of `None`
and of the empty string. -/
def SecurityEvent.owner (event : SecurityEvent) : Option String :=
  event.accountId.filter (· ≠ "")

/-- A call, at the time its `datetime.now` reads. -/
def serveSecurity (recent : RecentEvents) (call : Time × SecurityCall) : RecentEvents :=
  match call.2 with
  | .record event => recordSecurityEvent call.1 event recent
  | .query _ => recent

/-- The buckets after `calls`, from the empty `defaultdict`. -/
def bucketsAfter (calls : List (Time × SecurityCall)) : RecentEvents :=
  calls.foldl serveSecurity fun _ => []

/-- `_recent_security_event(account_id)`. -/
def answerQuery (recent : RecentEvents) (now : Time) (accountId : String) : Option SecurityEvent :=
  recentSecurityEvent now (recent accountId)

/-- Everything `calls` recorded for an account, oldest first. -/
def recordedFor (accountId : String) (calls : List (Time × SecurityCall)) :
    List (Time × SecurityEvent) :=
  calls.filterMap fun call => match call.2 with
    | .record event => if event.owner = some accountId then some (call.1, event) else none
    | .query _ => none

/-! ## One bucket -/

theorem securityCutoff_mono ⦃earlier now : Time⦄ (order : earlier ≤ now) :
    earlier - SECURITY_EVENT_WINDOW ≤ now - SECURITY_EVENT_WINDOW :=
  Int.sub_le_sub_right order _

theorem recordSecurityEvent_of_owner {now : Time} {event : SecurityEvent} {accountId : String}
    (owner : event.owner = some accountId) (recent : RecentEvents) :
    recordSecurityEvent now event recent accountId =
      live (· - SECURITY_EVENT_WINDOW) now (recent accountId ++ [(now, event)]) := by
  obtain ⟨own, named⟩ := Option.filter_eq_some_iff.mp owner
  simp only [recordSecurityEvent, own, live]
  rw [if_neg (of_decide_eq_true named), Function.update_self]

theorem recordSecurityEvent_of_ne {now : Time} {event : SecurityEvent} {accountId : String}
    (other : event.owner ≠ some accountId) (recent : RecentEvents) :
    recordSecurityEvent now event recent accountId = recent accountId := by
  unfold recordSecurityEvent
  cases owner : event.accountId with
  | none => rfl
  | some own =>
    by_cases unnamed : own = ""
    · simp [unnamed]
    · have different : accountId ≠ own := by
        rintro rfl
        exact other (Option.filter_eq_some_iff.mpr ⟨owner, decide_eq_true unnamed⟩)
      simp [unnamed, Function.update_of_ne different]

/-- A bucket is the pruned log of what was recorded for its account, and of nothing
else. -/
theorem foldl_serveSecurity (accountId : String) (calls : List (Time × SecurityCall))
    (recent : RecentEvents) :
    calls.foldl serveSecurity recent accountId =
      logged (· - SECURITY_EVENT_WINDOW) (recent accountId) (recordedFor accountId calls) := by
  induction calls generalizing recent with
  | nil => rfl
  | cons call calls ih =>
    rw [List.foldl_cons, ih]
    obtain ⟨now, call⟩ := call
    cases call with
    | query asked => rfl
    | record event =>
      by_cases owner : event.owner = some accountId
      · simp [serveSecurity, recordedFor, owner, recordSecurityEvent_of_owner owner, logged]
      · simp [serveSecurity, recordedFor, owner, recordSecurityEvent_of_ne owner]

theorem bucketsAfter_eq (accountId : String) (calls : List (Time × SecurityCall)) :
    bucketsAfter calls accountId =
      logged (· - SECURITY_EVENT_WINDOW) [] (recordedFor accountId calls) :=
  foldl_serveSecurity accountId calls _

theorem recordedFor_time {accountId : String} {calls : List (Time × SecurityCall)}
    {e : Time × SecurityEvent} (mem : e ∈ recordedFor accountId calls) :
    ∃ call ∈ calls, call.1 = e.1 := by
  obtain ⟨⟨now, call⟩, called, found⟩ := List.mem_filterMap.mp mem
  cases call with
  | query asked => cases found
  | record event =>
    obtain ⟨_, same⟩ := Option.ite_none_right_eq_some.mp found
    exact ⟨_, called, congrArg Prod.fst (Option.some.inj same)⟩

/-! ## Every query -/

/-- With a clock that never goes back, a query answers the last event recorded for its
account less than ten minutes ago. None of those has been pruned, and the bucket is
the one of any other calls that record the same for the account. -/
theorem answerQuery_eq {calls before after : List (Time × SecurityCall)} {now : Time}
    {accountId : String} (clock : calls.Pairwise fun a b => a.1 ≤ b.1)
    (asked : calls = before ++ (now, .query accountId) :: after) :
    answerQuery (bucketsAfter before) now accountId =
      (((recordedFor accountId before).filter
        fun e => e.1 > now - SECURITY_EVENT_WINDOW).getLast?).map (·.2) ∧
    (∀ e ∈ recordedFor accountId before, e.1 > now - SECURITY_EVENT_WINDOW →
      e ∈ bucketsAfter before accountId) ∧
    ∀ others, recordedFor accountId others = recordedFor accountId before →
      bucketsAfter others accountId = bucketsAfter before accountId := by
  have earlier : ∀ e ∈ recordedFor accountId before, e.1 ≤ now := by
    intro e mem
    obtain ⟨call, called, same⟩ := recordedFor_time mem
    rw [asked] at clock
    rw [← same]
    exact (List.pairwise_append.mp clock).2.2 call called _ (.head _)
  refine ⟨?_, ?_, ?_⟩
  · have shown := live_logged securityCutoff_mono earlier []
    rw [← bucketsAfter_eq] at shown
    unfold answerQuery recentSecurityEvent
    rw [List.getLast?_map]
    exact congrArg (fun log => log.getLast?.map (·.2)) shown
  · intro e mem young
    rw [bucketsAfter_eq]
    exact mem_logged securityCutoff_mono earlier mem young
  · intro others same
    rw [bucketsAfter_eq, bucketsAfter_eq, same]

/-- Two events of one account and one of another, then a query when only the second is
younger than ten minutes. -/
theorem answerQuery_eq_second :
    answerQuery (bucketsAfter [(0, .record ⟨"login_failed", some "a", "low", [], none⟩),
      (60000000, .record ⟨"impossible_travel", some "a", "high", [], none⟩),
      (70000000, .record ⟨"login_failed", some "b", "low", [], none⟩)]) 600000000 "a" =
      some ⟨"impossible_travel", some "a", "high", [], none⟩ :=
  (@answerQuery_eq _ _ [] _ _ (by simp) rfl).1.trans
    (by simp [recordedFor, SecurityEvent.owner, SECURITY_EVENT_WINDOW])

end VaultWatch.Agents
