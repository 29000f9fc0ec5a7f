import VaultWatch.Gateway.Login
import VaultWatch.Lib.Contracts

/-! What a call knows when it publishes a security event: whom the events of the
service are about, whatever the other calls and the environment do. -/
namespace VaultWatch.Gateway

open VaultWatch.Gateway.Store VaultWatch.Lib.Interleave

namespace AuthService

/-- What `Refresh` publishes when a used or revoked token is presented. -/
def reused (rt : RefreshToken) : SecurityEvent where
  type := "refresh_token_reuse"
  accountID := rt.userID
  severity := "critical"
  detail := [("family_id", .text rt.familyID)]

end AuthService

abbrev AuthHistory := List (Prog.Done AuthOp AuthRes)

/-- The failure brought its account's failures to the threshold. -/
def triggersAccount : Prog.Done AuthOp AuthRes → Bool
  | ⟨.recordFailure .account _, counted⟩ => counted.1
  | _ => false

/-- A call that has counted an account's failures to the threshold. -/
def AccountTriggered (h : AuthHistory) : Prop :=
  ∃ d ∈ h, triggersAccount d = true

instance (h : AuthHistory) : Decidable (AccountTriggered h) :=
  inferInstanceAs (Decidable (∃ d ∈ h, triggersAccount d = true))

/-- The events a call publishes, by what it has done before. A call begins with
the user or the token it is about. -/
inductive Grounded (h : AuthHistory) : SecurityEvent → Prop
  | travel (email : String) (user : User) (last : Time) (result : TravelResult ℚ) (now : Time)
      (found : h.head? = some ⟨.getUserByEmail email, .ok user⟩) (calm : ¬ AccountTriggered h) :
      Grounded h { LoginService.impossibleTravel user last result with timestamp := now }
  | failuresIP (key : String) (count : Nat) (now : Time) :
      Grounded h { LoginService.bruteForceIP key count with timestamp := now }
  | failuresAccount (email : String) (count : Nat) (now : Time) (triggered : AccountTriggered h) :
      Grounded h { LoginService.bruteForceAccount email count with timestamp := now }
  | reuse (hash : String) (rt : RefreshToken) (now : Time)
      (read : h.head? = some ⟨.base (.get hash), .ok rt⟩) (calm : ¬ AccountTriggered h) :
      Grounded h { AuthService.reused rt with timestamp := now }

/-- The contract of a program whose events are grounded. -/
abbrev Grounds {α : Type} (h : AuthHistory) (p : AuthProg α) : Prop :=
  p.Meets (fun h o => ∀ event, o = .base (.publish event) → Grounded h event) (fun _ _ => True) h

section
variable {α β : Type} {h : AuthHistory}

theorem Grounds.pure (a : α) : Grounds h (Pure.pure a : AuthProg α) := trivial

theorem Grounds.bind {p : AuthProg α} {f : α → AuthProg β} (first : Grounds h p)
    (rest : ∀ h' a, Grounds h' (f a)) : Grounds h (p >>= f) :=
  Prog.Meets.bind first fun h' a _ => rest h' a

theorem Grounds.map {p : AuthProg α} (f : α → β) (own : Grounds h p) : Grounds h (p.map f) :=
  Prog.Meets.map own

/-- An operation that publishes nothing. -/
theorem Grounds.op {o : AuthOp} {f : AuthRes o → AuthProg β} (silent : o.published = [])
    (rest : ∀ r, Grounds (h ++ [⟨o, r⟩]) (f r)) : Grounds h (perform o >>= f) := by
  refine Prog.Meets.op (fun event same => ?_) rest
  rw [same] at silent
  cases silent

theorem Grounds.publish {event : SecurityEvent}
    (grounded : ∀ now, Grounded (h ++ [⟨.base .now, now⟩]) { event with timestamp := now }) :
    Grounds h (LoginService.publish event) := by
  refine Grounds.op rfl fun now => ?_
  refine Prog.Meets.op (fun published same => ?_) fun _ => trivial
  cases same
  exact grounded now

end

theorem issueTokenPair_grounds (s : AuthService) (userID email familyID : String)
    (h : AuthHistory) : Grounds h (based (s.issueTokenPair userID email familyID)) := by
  refine Grounds.op rfl fun access => ?_
  cases access with
  | none => exact Grounds.pure _
  | some access =>
    refine Grounds.op rfl fun plain => ?_
    cases plain with
    | none => exact Grounds.pure _
    | some plain =>
      refine Grounds.op rfl fun now => Grounds.op rfl fun saved => ?_
      cases saved with
      | error e => exact Grounds.pure _
      | ok u => exact Grounds.pure _

theorem refresh_grounds (s : AuthService) (plainToken : String) :
    Grounds [] (based (s.refresh plainToken)) := by
  refine Grounds.op rfl fun got => ?_
  cases got with
  | error e => exact Grounds.pure _
  | ok rt =>
    show Grounds _ (based (if rt.revoked || rt.usedAt.isSome then _ else _))
    split
    · refine Grounds.op rfl fun burnt => ?_
      refine Grounds.bind (p := LoginService.publish (AuthService.reused rt))
        (Grounds.publish fun now => ?_) fun _ _ => Grounds.pure _
      refine .reuse _ rt now rfl ?_
      simp [AccountTriggered, triggersAccount]
    · refine Grounds.op rfl fun now => ?_
      show Grounds _ (based (if rt.expiresAt < now then _ else _))
      split
      · exact Grounds.pure _
      · refine Grounds.op rfl fun now => Grounds.op rfl fun marked => ?_
        cases marked with
        | error e => exact Grounds.pure _
        | ok u =>
          refine Grounds.op rfl fun owner => ?_
          cases owner with
          | error e => exact Grounds.pure _
          | ok user => exact issueTokenPair_grounds s user.id user.email rt.familyID _

namespace LoginService

theorem register_grounds (email password : String) : Grounds [] (register email password) := by
  refine .op rfl fun found => ?_
  cases found with
  | ok user => exact .pure _
  | error e =>
    refine .op rfl fun hashed => ?_
    cases hashed with
    | none => exact .pure _
    | some hash =>
      refine .op rfl fun created => ?_
      cases created with
      | error e => exact .pure _
      | ok user => exact .pure _

theorem recordFailure_grounds (req : LoginRequest) (h : AuthHistory) :
    Grounds h (recordFailure req) := by
  refine .bind (.op rfl fun counted => ?_) fun h' _ => .op rfl fun counted => ?_
  · split
    · exact .publish fun now => .failuresIP _ _ now
    · exact .pure ()
  · split
    · rename_i triggered
      refine .publish fun now => .failuresAccount _ _ now
        ⟨⟨.recordFailure .account (accountKey req.email), counted⟩, ?_, triggered⟩
      simp
    · exact .pure ()

theorem login_grounds (s : LoginService) (req : LoginRequest) : Grounds [] (s.login req) := by
  refine .op rfl fun found => ?_
  have refused : ∀ h, Grounds h (refuse req) := fun h =>
    .bind (recordFailure_grounds req h) fun _ _ => .pure _
  cases found with
  | error e => exact refused _
  | ok user =>
    dsimp only
    split
    · refine .op rfl fun _ => .op rfl fun _ => .bind ?_ fun h' _ => ?_
      · unfold checkTravel
        split
        · refine .op rfl fun now => ?_
          dsimp only
          split
          · refine .publish fun published => .travel req.email user _ _ published rfl ?_
            simp [AccountTriggered, triggersAccount]
          · exact .pure ()
        · exact .pure ()
      · refine .op rfl fun now => .op rfl fun updated => ?_
        cases updated with
        | error e => exact .pure _
        | ok u => exact .op rfl fun familyID => .map _ (issueTokenPair_grounds _ _ _ _ _)
    · exact refused _

end LoginService

theorem Call.prog_grounds (s : LoginService) (call : Call) : Grounds [] (call.prog s) := by
  cases call with
  | register email password => exact .map _ (LoginService.register_grounds email password)
  | login req => exact .map _ (LoginService.login_grounds s req)
  | refresh plainToken => exact .map _ (refresh_grounds s.toAuthService plainToken)

section
variable {σ ι : Type} {S : AuthStore σ} [DecidableEq ι] {s : LoginService} {call : ι → Call}
  {g : AuthShared σ} {schedule : List (ι × AuthChoice)}
  {before after : List (Entry ι AuthChoice AuthOp AuthRes)}
  {entry : Entry ι AuthChoice AuthOp AuthRes}

/-- What a thread has done in a trace. -/
def doneBy (i : ι) (entries : List (Entry ι AuthChoice AuthOp AuthRes)) : AuthHistory :=
  (entries.filter (·.thread = i)).map (·.done)

/-- Every event of a run is grounded in what its publisher has done. -/
theorem published_grounded
    (split : (calling s call g).trace (handleAuth S) schedule = before ++ entry :: after)
    {event : SecurityEvent} (published : entry.done.1 = .base (.publish event)) :
    Grounded (doneBy entry.thread before) event := by
  obtain ⟨first, last, k, rfl, traced, todo, _⟩ := Pool.trace_split _ split
  have reached := (Pool.reached_start g fun i => (call i).prog s).run (handleAuth S) first
    entry.thread
  have own := Pool.done_run (handleAuth S) (calling s call g) first entry.thread
  rw [traced] at own
  rw [todo, own] at reached
  exact ((Call.prog_grounds s (call entry.thread)).past reached).1 event published

end

end VaultWatch.Gateway
