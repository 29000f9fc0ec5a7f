import VaultWatch.Gateway.Accounts
import VaultWatch.Lib.Contracts

/-! # When credential stuffing from one address is reported

The counter of an address is shared by every account and reset by a login that
succeeds, to whichever account. Failures between which no login from the address
succeeds are all counted. -/
namespace VaultWatch.Gateway

open VaultWatch.Gateway.Store VaultWatch.Lib.Run VaultWatch.Lib.Interleave

/-! ## Who reports -/

/-- A failure that reached a threshold has been reported: the history holds the
event that `report` makes of the counter's key and count. -/
def Reported (h : List (Prog.Done AuthOp AuthRes)) : Prop :=
  ∀ key n, (⟨.recordFailure .ip key, (true, n)⟩ : Prog.Done AuthOp AuthRes) ∈ h →
    ∃ now, (⟨.base (.publish { LoginService.bruteForceIP key n with timestamp := now }), ()⟩ :
      Prog.Done AuthOp AuthRes) ∈ h

theorem Reported.snoc {h : List (Prog.Done AuthOp AuthRes)} (reported : Reported h)
    {d : Prog.Done AuthOp AuthRes} (other : ∀ key, d.1 ≠ .recordFailure .ip key) :
    Reported (h ++ [d]) := by
  intro key n mem
  rcases List.mem_append.mp mem with old | new
  · obtain ⟨now, published⟩ := reported key n old
    exact ⟨now, List.mem_append_left _ published⟩
  · rw [← List.mem_singleton.mp new] at other
    exact absurd rfl (other key)

/-- The contract of a program that reports what it counts. -/
abbrev Reports {α : Type} (p : AuthProg α) : Prop :=
  ∀ h, Reported h → p.Meets (fun _ _ => True) (fun h _ => Reported h) h

section
variable {α β : Type}

theorem Reports.pure (a : α) : Reports (Pure.pure a : AuthProg α) := fun _ reported => reported

theorem Reports.bind {p : AuthProg α} {f : α → AuthProg β} (first : Reports p)
    (rest : ∀ a, Reports (f a)) : Reports (p >>= f) :=
  fun h reported => (first h reported).bind fun h' a reported' => rest a h' reported'

theorem Reports.op {o : AuthOp} {f : AuthRes o → AuthProg β}
    (other : ∀ key, o ≠ .recordFailure .ip key) (rest : ∀ r, Reports (f r)) :
    Reports (perform o >>= f) :=
  fun _ reported => Prog.Meets.op trivial fun r => rest r _ (reported.snoc other)

theorem Reports.map {p : AuthProg α} (f : α → β) (own : Reports p) : Reports (p.map f) :=
  fun h reported => (own h reported).map

theorem Reports.based (p : RefreshProg α) : Reports (Gateway.based p) := by
  induction p with
  | ret a => exact Reports.pure a
  | call o k ih => exact Reports.op (fun _ same => by cases same) fun r => ih r

end

namespace LoginService

theorem countFailure_reports_account (key : String) (event : Nat → SecurityEvent) :
    Reports (countFailure .account key event) := by
  refine .op (fun _ same => by cases same) fun counted => ?_
  split
  · exact .based _
  · exact .pure ()

theorem countFailure_reports_ip (key : String) :
    Reports (countFailure .ip key (bruteForceIP key)) := by
  intro h reported
  refine .op trivial fun counted => ?_
  obtain ⟨triggered, n⟩ := counted
  cases triggered with
  | false =>
    intro key' n' mem
    rcases List.mem_append.mp mem with old | new
    · obtain ⟨now, published⟩ := reported key' n' old
      exact ⟨now, List.mem_append_left _ published⟩
    · cases List.mem_singleton.mp new
  | true =>
    -- the clock, then the event
    refine ⟨trivial, fun now => ⟨trivial, fun _ => ?_⟩⟩
    intro key' n' mem
    rw [List.append_assoc, List.append_assoc] at mem ⊢
    rcases List.mem_append.mp mem with old | new
    · obtain ⟨now, published⟩ := reported key' n' old
      exact ⟨now, List.mem_append_left _ published⟩
    · refine ⟨now, List.mem_append_right _ ?_⟩
      rcases List.mem_cons.mp new with same | new
      · cases same
        exact .tail _ (.tail _ (.head _))
      · rcases List.mem_cons.mp new with same | new
        · cases same
        · cases List.mem_singleton.mp new

theorem refuse_reports (req : LoginRequest) : Reports (refuse req) :=
  .bind (.bind (countFailure_reports_ip _) fun _ => countFailure_reports_account _ _)
    fun _ => .pure _

variable (s : LoginService)

theorem checkTravel_reports (req : LoginRequest) (user : User) :
    Reports (checkTravel s req user) := by
  unfold checkTravel
  split
  · refine .op (fun _ same => by cases same) fun now => ?_
    dsimp only
    split
    · exact .based _
    · exact .pure ()
  · exact .pure ()

theorem enter_reports (req : LoginRequest) (user : User) : Reports (enter s req user) := by
  refine .op (fun _ same => by cases same) fun now => ?_
  refine .op (fun _ same => by cases same) fun updated => ?_
  cases updated with
  | error e => exact .pure _
  | ok u => exact .op (fun _ same => by cases same) fun familyID => .map _ (.based _)

theorem login_reports (req : LoginRequest) : Reports (s.login req) := by
  refine .op (fun _ same => by cases same) fun found => ?_
  cases found with
  | error e => exact refuse_reports req
  | ok user =>
    dsimp only
    split
    · refine .op (fun _ same => by cases same) fun _ => ?_
      refine .op (fun _ same => by cases same) fun _ => ?_
      exact .bind (checkTravel_reports s req user) fun _ => enter_reports s req user
    · exact refuse_reports req

theorem register_reports (email password : String) : Reports (register email password) := by
  refine .op (fun _ same => by cases same) fun found => ?_
  cases found with
  | ok user => exact .pure _
  | error e =>
    refine .op (fun _ same => by cases same) fun hashed => ?_
    cases hashed with
    | none => exact .pure _
    | some hash =>
      refine .op (fun _ same => by cases same) fun created => ?_
      cases created with
      | error e => exact .pure _
      | ok user => exact .pure _

end LoginService

theorem Call.reports (s : LoginService) (c : Call) : Reports (c.prog s) := by
  cases c with
  | register email password => exact .map _ (LoginService.register_reports email password)
  | login req => exact .map _ (s.login_reports req)
  | refresh plainToken => exact .map _ (.based _)

/-! ## What the counter counts -/

section
variable {σ ι : Type} {S : AuthStore σ}

/-- The trackers of the service as it was built. -/
structure Configured (g : AuthShared σ) : Prop where
  window : g.byIP.window = 300000000000
  threshold : g.byIP.threshold = 5

/-- A failed login from the address is counted. -/
def Failure (ip : String) (e : Entry ι AuthChoice AuthOp AuthRes) : Prop :=
  e.done.1 = .recordFailure .ip (ipKey ip)

instance (ip : String) (e : Entry ι AuthChoice AuthOp AuthRes) : Decidable (Failure ip e) :=
  inferInstanceAs (Decidable (_ = _))

/-- A login from the address has proved its password. -/
def Success (ip : String) (e : Entry ι AuthChoice AuthOp AuthRes) : Prop :=
  e.done.1 = .reset .ip (ipKey ip)

instance (ip : String) (e : Entry ι AuthChoice AuthOp AuthRes) : Decidable (Success ip e) :=
  inferInstanceAs (Decidable (_ = _))

theorem handleAuth_configured {g : AuthShared σ} (configured : Configured g) (c : AuthChoice)
    (o : AuthOp) : Configured (handleAuth S c o g).2 := by
  obtain ⟨window, threshold⟩ := configured
  cases o with
  | recordFailure counter key => cases counter <;> exact ⟨window, threshold⟩
  | reset counter key => cases counter <;> exact ⟨window, threshold⟩
  | _ => exact ⟨window, threshold⟩

/-- What an operation does to the failures of an address. -/
theorem handleAuth_failures {g : AuthShared σ} (configured : Configured g) {c : AuthChoice}
    {o : AuthOp} {ip : String} {since : Time} (later : since ≤ c.now)
    (within : c.now < since + 300000000000) (kept : o ≠ .reset .ip (ipKey ip)) :
    (handleAuth S c o g).2.byIP.failuresSince (ipKey ip) since =
      g.byIP.failuresSince (ipKey ip) since +
        if o = .recordFailure .ip (ipKey ip) then 1 else 0 := by
  cases o with
  | recordFailure counter key =>
    cases counter with
    | account => simp [handleAuth, AuthShared.setTracker]
    | ip =>
      by_cases same : key = ipKey ip
      · subst same
        rw [if_pos rfl]
        rw [← configured.window] at within
        exact BruteForceTracker.recordFailure_since later within
      · rw [if_neg (by simpa using same)]
        exact BruteForceTracker.recordFailure_since_of_ne (Ne.symm same) c.now since g.byIP
  | reset counter key =>
    rw [if_neg (by simp)]
    cases counter with
    | account => rfl
    | ip =>
      have other : ipKey ip ≠ key := fun same => kept (by rw [same])
      exact BruteForceTracker.reset_since_of_ne other since g.byIP
  | _ => rfl

theorem countP_failure_cons (ip : String) (e : Entry ι AuthChoice AuthOp AuthRes)
    (es : List (Entry ι AuthChoice AuthOp AuthRes)) :
    (e :: es).countP (Failure ip ·) = es.countP (Failure ip ·) +
      if e.done.1 = .recordFailure .ip (ipKey ip) then 1 else 0 := by
  by_cases failure : Failure ip e
  · rw [if_pos (show e.done.1 = .recordFailure .ip (ipKey ip) from failure)]
    simp [failure]
  · rw [if_neg (show ¬ e.done.1 = .recordFailure .ip (ipKey ip) from failure)]
    simp [failure]

/-- What a stretch of a run does to the failures of an address, when no login from
it succeeds and all of it is within the window. -/
theorem foldl_failures {es : List (Entry ι AuthChoice AuthOp AuthRes)} {g : AuthShared σ}
    (configured : Configured g) {ip : String} {since : Time}
    (within : ∀ e ∈ es, since ≤ e.choice.now ∧ e.choice.now < since + 300000000000)
    (kept : ∀ e ∈ es, ¬ Success ip e) :
    Configured (es.foldl (Entry.apply (handleAuth S)) g) ∧
      (es.foldl (Entry.apply (handleAuth S)) g).byIP.failuresSince (ipKey ip) since =
        g.byIP.failuresSince (ipKey ip) since + es.countP (Failure ip ·) := by
  induction es generalizing g with
  | nil => exact ⟨configured, rfl⟩
  | cons e es ih =>
    obtain ⟨later, before⟩ := within e (.head _)
    have counted := handleAuth_failures (S := S) configured later before (kept e (.head _))
    obtain ⟨configured', rest⟩ := ih (handleAuth_configured configured e.choice e.done.1)
      (fun d mem => within d (.tail _ mem)) (fun d mem => kept d (.tail _ mem))
    refine ⟨configured', ?_⟩
    refine rest.trans ?_
    rw [counted, countP_failure_cons]
    omega

/-! ## Runs -/

variable [DecidableEq ι]

/-- The clock of the steps does not go back. -/
abbrev Clocked (schedule : List (ι × AuthChoice)) : Prop :=
  schedule.Pairwise fun a b => a.2.now ≤ b.2.now

omit [DecidableEq ι] in
/-- The fifth failure of a stretch without a success reaches the threshold. -/
theorem fifth_triggers {g : AuthShared σ} (configured : Configured g) {ip : String}
    {during : List (Entry ι AuthChoice AuthOp AuthRes)} {now : Time}
    (ordered : ∀ e ∈ during, e.choice.now ≤ now)
    (window : ∀ e ∈ during, now < e.choice.now + 300000000000)
    (unreset : ∀ e ∈ during, ¬ Success ip e) (four : 4 ≤ during.countP (Failure ip ·)) :
    ((during.foldl (Entry.apply (handleAuth S)) g).byIP.recordFailure (ipKey ip) now).1.1 =
      true := by
  have within : ∀ e ∈ during, now - 299999999999 ≤ e.choice.now ∧
      e.choice.now < now - 299999999999 + 300000000000 := by
    have whole : ∀ t u : ℤ, u < t + 300000000000 → u - 299999999999 ≤ t := by
      intro t u
      omega
    intro e mem
    have upper := ordered e mem
    exact ⟨whole _ _ (window e mem), by linarith⟩
  obtain ⟨settings, counted⟩ := foldl_failures (S := S) configured within unreset
  rw [BruteForceTracker.recordFailure_triggered, settings.threshold]
  have more : (during.foldl (Entry.apply (handleAuth S)) g).byIP.failuresSince (ipKey ip)
      (now - 299999999999) + 1 ≤
        ((during.foldl (Entry.apply (handleAuth S)) g).byIP.recordFailure (ipKey ip) now).1.2 :=
    BruteForceTracker.recordFailure_count (by linarith) (by rw [settings.window]; linarith)
  omega

/-- **Credential stuffing is reported**: of five failed logins from an address
within less than five minutes, between the first and the last of which no login
from the address succeeds, the last has published a `brute_force_ip` event of the
address when it returns. -/
theorem credential_stuffing_reported (s : LoginService) (S : AuthStore σ) (shared : Shared σ)
    (call : ι → Call) {schedule : List (ι × AuthChoice)} (clock : Clocked schedule) {ip : String}
    {before during after : List (Entry ι AuthChoice AuthOp AuthRes)}
    {last : Entry ι AuthChoice AuthOp AuthRes} {reply : Reply}
    (trace : (calling s call { toShared := shared }).trace (handleAuth S) schedule =
      before ++ (during ++ last :: after))
    (failed : Failure ip last) (four : 4 ≤ during.countP (Failure ip ·))
    (window : ∀ e ∈ during, last.choice.now < e.choice.now + 300000000000)
    (unreset : ∀ e ∈ during, ¬ Success ip e)
    (returned : (((calling s call { toShared := shared }).run (handleAuth S) schedule).threads
      last.thread).todo = .ret reply) :
    ∃ event ∈ ((calling s call { toShared := shared }).run (handleAuth S)
        schedule).shared.published,
      event.type = "brute_force_ip" ∧ ("ip_key", .text (ipKey ip)) ∈ event.detail := by
  have choices := Pool.trace_choices (handleAuth S) (calling s call { toShared := shared }) schedule
  have ordered : ∀ e ∈ during, e.choice.now ≤ last.choice.now := by
    have times := List.pairwise_map.mp (clock.sublist choices)
    rw [trace] at times
    have tail := (List.pairwise_append.mp times).2.1
    intro e mem
    exact (List.pairwise_append.mp tail).2.2 e mem last (.head _)
  -- the answer of the last failure
  rw [← List.append_assoc] at trace
  have answered := Pool.trace_answer (handleAuth S) trace
  rw [List.foldl_append] at answered
  have start : Configured (before.foldl (Entry.apply (handleAuth S))
      ({ toShared := shared } : AuthShared σ)) := by
    refine List.foldlRecOn before _ ⟨rfl, rfl⟩ fun g configured e _ => ?_
    exact handleAuth_configured configured e.choice e.done.1
  have triggered := fifth_triggers (S := S) start ordered window unreset four
  obtain ⟨thread, choice, ⟨o, answer⟩⟩ := last
  obtain rfl : o = .recordFailure .ip (ipKey ip) := failed
  obtain ⟨fifth, n⟩ := answer
  obtain rfl : fifth = true := (congrArg Prod.fst answered).trans triggered
  have mem : (⟨.recordFailure .ip (ipKey ip), (true, n)⟩ : Prog.Done AuthOp AuthRes) ∈
      (((calling s call { toShared := shared }).run (handleAuth S) schedule).threads
        thread).done := by
    rw [Pool.done_run, trace]
    refine List.mem_append_right _ (List.mem_map.mpr ⟨⟨thread, choice, _⟩, ?_, rfl⟩)
    simp
  -- the thread has returned, so it has reported what it counted
  have reached := (Pool.reached_start ({ toShared := shared } : AuthShared σ)
    fun i => (call i).prog s).run (handleAuth S) schedule thread
  rw [returned] at reached
  have reported : Reported _ :=
    ((call thread).reports s [] (fun _ _ mem => by cases mem)).past reached
  obtain ⟨now, published⟩ := reported (ipKey ip) n mem
  exact ⟨_, published_run published, rfl, .head _⟩

end

/-! ## Five guesses, with and without a login to an own account in between -/

/-- `math` and Argon2id on the runs below: coordinates on one meridian or on
opposite ones, and a hash that is the password. -/
def sampleLoginService : LoginService where
  hashRefreshToken plain := "sha256:" ++ plain
  verifyPassword hash password := some (hash = password)
  trig :=
    let pi : ℚ := 884279719003555 / 281474976710656
    { pi
      sin := fun x => if x = pi / 2 then 1 else 0
      cos := fun _ => 1
      asin := fun x => if x = 1 then pi / 2 else 0
      sqrt := fun x => x }

def guess : LoginRequest :=
  { email := "victim@example.com", password := "guess", lat := 0, lon := 0, ip := "9.9.9.9" }

def ownLogin : LoginRequest :=
  { email := "own@example.com", password := "own", lat := 0, lon := 0, ip := "9.9.9.9" }

/-- A store with one account. -/
def ownAccount : Shared MemoryStore where
  store := {
    objects := [{ id := "u-own", email := "own@example.com", passwordHash := "own" }]
    users := Function.update (fun _ => none) "own@example.com" (some 0)
    byID := Function.update (fun _ => none) "u-own" (some 0) }

/-- Thread `i` takes `n` steps. -/
def steps {ι : Type} (i : ι) (n : Nat) : List (ι × AuthChoice) :=
  List.replicate n (i, { uuid := "f-1", accessToken := some "jwt", refreshToken := some "rt" })

def fiveGuesses : Fin 5 → Call := fun _ => .login guess

/-- One guess after the other: three operations each, five with the report. -/
def guessing : List (Fin 5 × AuthChoice) :=
  steps 0 3 ++ steps 1 3 ++ steps 2 3 ++ steps 3 3 ++ steps 4 5

/-- What they do: the first failure is the second entry, the fifth the fourteenth. -/
def guessed : List (Entry (Fin 5) AuthChoice AuthOp AuthRes) :=
  (calling sampleLoginService fiveGuesses { toShared := ownAccount }).trace
    (handleAuth memoryStore) guessing

theorem credential_stuffing_reported_five :
    ∃ event ∈ ((calling sampleLoginService fiveGuesses { toShared := ownAccount }).run
        (handleAuth memoryStore) guessing).shared.published,
      event.type = "brute_force_ip" ∧ ("ip_key", .text (ipKey "9.9.9.9")) ∈ event.detail :=
  credential_stuffing_reported sampleLoginService memoryStore ownAccount fiveGuesses
    (show Clocked guessing by decide)
    (show guessed = guessed.take 1 ++ ((guessed.drop 1).take 12 ++ _ :: guessed.drop 14) from rfl)
    (show Failure "9.9.9.9" _ from rfl) (by decide) (by decide) (by decide)
    (show _ = Prog.ret (Reply.loggedIn (.error .invalidCredentials)) from rfl)

def ownLoginBetween : Fin 6 → Call := fun i => .login (if i = 4 then ownLogin else guess)

def guessingAround : List (Fin 6 × AuthChoice) :=
  steps 0 3 ++ steps 1 3 ++ steps 2 3 ++ steps 3 3 ++ steps 4 10 ++ steps 5 3

/-- Five failures at one time, the last after a login to the own account, and no event. -/
theorem credential_stuffing_hidden :
    ∃ p : AuthPool MemoryStore (Fin 6),
      p = (calling sampleLoginService ownLoginBetween { toShared := ownAccount }).run
        (handleAuth memoryStore) guessingAround ∧
      Clocked guessingAround ∧ (∀ l ∈ guessingAround, l.2.now = 0) ∧
      5 ≤ ((calling sampleLoginService ownLoginBetween { toShared := ownAccount }).trace
        (handleAuth memoryStore) guessingAround).countP (Failure "9.9.9.9" ·) ∧
      (p.threads 4).todo = .ret (.loggedIn (.ok ⟨"jwt", "rt"⟩)) ∧
      (p.threads 5).todo = .ret (.loggedIn (.error .invalidCredentials)) ∧
      p.shared.published = [] :=
  ⟨_, rfl, by decide, by decide, by decide, rfl, rfl, rfl⟩

end VaultWatch.Gateway
