import Mathlib.Data.Fintype.Basic
import VaultWatch.Gateway.CredentialStuffing

/-! # When two simultaneous logins hide impossible travel

A login compares itself with the copy of the user it read at its start and writes
its own place only at its end. Two logins that both read before either writes
compare with neither, and the later one may write first. Logins that do not
overlap between reading and writing compare with each other. -/
namespace VaultWatch.Gateway

open VaultWatch.Gateway.Store VaultWatch.Lib.Run VaultWatch.Lib.Interleave LoginService

/-! ## What a successful login did -/

/-- The clock readings of a history. -/
def readings (h : List (Prog.Done AuthOp AuthRes)) : List Time :=
  h.filterMap fun
    | ⟨.base .now, t⟩ => some t
    | _ => none

/-- The operations of a login besides its read and its write of the account. -/
def AuthOp.Inner : AuthOp → Prop
  | .getUserByEmail _ | .createUser _ _ | .updateLastLogin _ _ _ _ => False
  | _ => True

theorem AuthOp.Inner.quiet {o : AuthOp} (inner : o.Inner) : o.Quiet := by
  cases o <;> trivial

/-- The login has compared itself with the last one that its copy of the user has,
at one of the readings `checks`. -/
def Compared (s : LoginService) (req : LoginRequest) (user : User) (checks : List Time)
    (h : List (Prog.Done AuthOp AuthRes)) : Prop :=
  ∀ last lat lon, user.lastLoginAt = some last → user.lastLoginLat = some lat →
    user.lastLoginLon = some lon → ∃ now ∈ checks,
      (checkImpossibleTravel s.trig ⟨lat, lon, last⟩ ⟨req.lat, req.lon, now⟩).impossible = true →
        ∃ event, (⟨.base (.publish event), ()⟩ : Prog.Done AuthOp AuthRes) ∈ h ∧
          event.type = "impossible_travel" ∧ event.accountID = user.id

/-- A complete login: it read `user`, compared itself, and recorded its last reading
before the write, `t`. -/
def Entered (s : LoginService) (req : LoginRequest) (user : User) (t : Time)
    (h : List (Prog.Done AuthOp AuthRes)) : Prop :=
  ∃ before after checks, h = ⟨.getUserByEmail req.email, .ok user⟩ :: (before ++
      ⟨.updateLastLogin user.id req.lat req.lon t, .ok ()⟩ :: after) ∧
    readings before = checks ++ [t] ∧ Compared s req user checks before ∧
    (∀ d ∈ before, d.1.Inner) ∧ ∀ d ∈ after, d.1.Inner

/-- Only operations of `Refresh`. -/
theorem runs_based {α : Type} {p : RefreshProg α} {h : List (Prog.Done AuthOp AuthRes)} {a : α}
    (run : (based p).Runs h a) : ∀ d ∈ h, d.1.Inner := by
  induction p generalizing h with
  | ret b =>
    obtain ⟨rfl, _⟩ := run
    intro d mem
    cases mem
  | call o k ih =>
    obtain ⟨r, t, rfl, rest⟩ := run
    intro d mem
    rcases List.mem_cons.mp mem with rfl | later
    · trivial
    · exact ih r rest d later

section
variable (s : LoginService) {req : LoginRequest} {user : User}
  {h : List (Prog.Done AuthOp AuthRes)} {pair : TokenPair}

theorem refuse_fails : ¬ (refuse req).Runs h (.ok pair) := by
  intro run
  obtain ⟨_, _, _, _, _, _, same⟩ := Prog.Runs.bind run
  cases same

theorem checkTravel_compared (run : (checkTravel s req user).Runs h ()) :
    Compared s req user (readings h) h ∧ ∀ d ∈ h, d.1.Inner := by
  unfold checkTravel at run
  split at run
  · rename_i last lat lon hasAt hasLat hasLon
    obtain ⟨now, rest, rfl, comparing⟩ := Prog.Runs.op run
    dsimp only at comparing
    split at comparing
    · rename_i impossible
      obtain ⟨stamp, _, rfl, _, _, rfl, rfl, _⟩ := comparing
      refine ⟨?_, ?_⟩
      · intro last' lat' lon' _ _ _
        exact ⟨now, .head _, fun _ => ⟨_, .tail _ (.tail _ (.head _)), rfl, rfl⟩⟩
      · intro d mem
        simp only [List.mem_cons, List.not_mem_nil, or_false] at mem
        rcases mem with rfl | rfl | rfl <;> trivial
    · rename_i possible
      obtain ⟨rfl, _⟩ := comparing
      refine ⟨?_, ?_⟩
      · intro last' lat' lon' sameAt sameLat sameLon
        rw [hasAt] at sameAt
        rw [hasLat] at sameLat
        rw [hasLon] at sameLon
        cases sameAt
        cases sameLat
        cases sameLon
        exact ⟨now, .head _, fun impossible => absurd impossible possible⟩
      · intro d mem
        rw [List.mem_singleton.mp mem]
        trivial
  · rename_i other
    obtain ⟨rfl, _⟩ := run
    refine ⟨fun last lat lon sameAt sameLat sameLon => ?_, fun d mem => by cases mem⟩
    exact (other last lat lon sameAt sameLat sameLon).elim

theorem enter_ok (run : (enter s req user).Runs h (.ok pair)) :
    ∃ t after, h = ⟨.base .now, t⟩ ::
      ⟨.updateLastLogin user.id req.lat req.lon t, .ok ()⟩ :: after ∧ ∀ d ∈ after, d.1.Inner := by
  obtain ⟨t, _, rfl, updating⟩ := Prog.Runs.op run
  obtain ⟨updated, _, rfl, drawing⟩ := Prog.Runs.op updating
  cases updated with
  | error e => cases drawing.2
  | ok u =>
    obtain ⟨family, after, rfl, issuing⟩ := Prog.Runs.op drawing
    obtain ⟨_, _, issued⟩ := Prog.Runs.map issuing
    refine ⟨t, _, rfl, fun d mem => ?_⟩
    rcases List.mem_cons.mp mem with rfl | later
    · trivial
    · exact runs_based issued d later

/-- A login that returned a pair is a complete one. -/
theorem login_entered (run : (s.login req).Runs h (.ok pair)) :
    ∃ user t, Entered s req user t h := by
  obtain ⟨found, _, rfl, verifying⟩ := Prog.Runs.op run
  cases found with
  | error e => exact (refuse_fails verifying).elim
  | ok user =>
    dsimp only at verifying
    split at verifying
    · obtain ⟨ip, _, rfl, resetting⟩ := Prog.Runs.op verifying
      obtain ⟨account, _, rfl, checking⟩ := Prog.Runs.op resetting
      obtain ⟨_, h₁, h₂, rfl, checked, entered⟩ := Prog.Runs.bind checking
      obtain ⟨compared, inner⟩ := checkTravel_compared s checked
      obtain ⟨t, after, rfl, innerAfter⟩ := enter_ok s entered
      refine ⟨user, t, ⟨.reset .ip (ipKey req.ip), ip⟩ ::
        ⟨.reset .account (accountKey req.email), account⟩ :: (h₁ ++ [⟨.base .now, t⟩]), after,
        readings h₁, ?_, ?_, ?_, ?_, innerAfter⟩
      · simp
      · exact List.filterMap_append
      · intro last lat lon sameAt sameLat sameLon
        obtain ⟨now, read, reported⟩ := compared last lat lon sameAt sameLat sameLon
        refine ⟨now, read, fun impossible => ?_⟩
        obtain ⟨event, published, kind⟩ := reported impossible
        exact ⟨event, .tail _ (.tail _ (List.mem_append_left _ published)), kind⟩
      · intro d mem
        rcases List.mem_cons.mp mem with rfl | later
        · trivial
        · rcases List.mem_cons.mp later with rfl | later
          · trivial
          · rcases List.mem_append.mp later with checked | now
            · exact inner d checked
            · rw [List.mem_singleton.mp now]
              trivial
    · exact (refuse_fails verifying).elim

end

/-! ## One login after the other -/

section
variable {ι : Type} [DecidableEq ι]

/-- What thread `i` did in a stretch of a trace. -/
abbrev history (es : List (Entry ι AuthChoice AuthOp AuthRes)) (i : ι) :
    List (Prog.Done AuthOp AuthRes) :=
  (es.filter (·.thread = i)).map (·.done)

theorem history_mem {es : List (Entry ι AuthChoice AuthOp AuthRes)}
    {e : Entry ι AuthChoice AuthOp AuthRes} (mem : e ∈ es) : e.done ∈ history es e.thread :=
  List.mem_map_of_mem (List.mem_filter.mpr ⟨mem, by simp⟩)

theorem history_append (es fs : List (Entry ι AuthChoice AuthOp AuthRes)) (i : ι) :
    history (es ++ fs) i = history es i ++ history fs i := by
  rw [history, List.filter_append, List.map_append]

theorem history_sublist (es : List (Entry ι AuthChoice AuthOp AuthRes)) (i : ι) :
    (history es i).Sublist (es.map (·.done)) :=
  List.filter_sublist.map _

/-- The clock advances from reading to reading. -/
def StrictClock (es : List (Entry ι AuthChoice AuthOp AuthRes)) : Prop :=
  (readings (es.map (·.done))).Pairwise (· < ·)

instance (es : List (Entry ι AuthChoice AuthOp AuthRes)) : Decidable (StrictClock es) :=
  inferInstanceAs (Decidable (List.Pairwise _ _))

omit [DecidableEq ι] in
theorem StrictClock.sublist {es fs : List (Entry ι AuthChoice AuthOp AuthRes)}
    (strict : StrictClock es) (sub : fs.Sublist es) : StrictClock fs :=
  List.Pairwise.sublist ((sub.map _).filterMap _) strict

/-- The write of a login. -/
def AuthOp.records : AuthOp → Bool
  | .updateLastLogin _ _ _ _ => true
  | _ => false

theorem AuthOp.Inner.not_records {o : AuthOp} (inner : o.Inner) : o.records ≠ true := by
  cases o with
  | updateLastLogin userID lat lon now => exact inner.elim
  | _ => exact Bool.false_ne_true

omit [DecidableEq ι] in
/-- A login that has written is complete. -/
theorem Entered.left {s : LoginService} {req : LoginRequest} {user : User} {t : Time}
    {h₁ h₂ : List (Prog.Done AuthOp AuthRes)} (entered : Entered s req user t (h₁ ++ h₂))
    (recorded : ∃ d ∈ h₁, d.1.records = true) :
    Entered s req user t h₁ ∧ ∀ d ∈ h₂, d.1.Inner := by
  obtain ⟨before, after, checks, whole, read, compared, innerBefore, innerAfter⟩ := entered
  have unrecorded : ∀ d ∈ ⟨.getUserByEmail req.email, .ok user⟩ :: before,
      d.1.records ≠ true := by
    intro d mem
    rcases List.mem_cons.mp mem with rfl | later
    · exact Bool.false_ne_true
    · exact (innerBefore d later).not_records
  obtain ⟨d, mem, records⟩ := recorded
  rw [← List.cons_append] at whole
  rcases List.append_eq_append_iff.mp whole with ⟨rest, short, _⟩ | ⟨rest, long, tail⟩
  · -- the write is not among what came before it
    refine absurd records (unrecorded d ?_)
    rw [short]
    exact List.mem_append_left _ mem
  · rcases List.cons_eq_append_iff.mp tail with ⟨rfl, _⟩ | ⟨after', rfl, rfl⟩
    · rw [List.append_nil] at long
      rw [long] at mem
      exact absurd records (unrecorded d mem)
    · refine ⟨⟨before, after', checks, long, read, compared, innerBefore, ?_⟩, ?_⟩
      · exact fun d mem => innerAfter d (List.mem_append_left _ mem)
      · exact fun d mem => innerAfter d (List.mem_append_right _ mem)

/-- The write of a login between stretches that leave the accounts alone. -/
theorem only_write {es : List (Entry ι AuthChoice AuthOp AuthRes)} {i : ι}
    {past future : List (Prog.Done AuthOp AuthRes)} {d : Prog.Done AuthOp AuthRes}
    (own : history es i = past ++ d :: future) (innerPast : ∀ x ∈ past, x.1.Quiet)
    (innerFuture : ∀ x ∈ future, x.1.Quiet)
    (others : ∀ e ∈ es, e.thread ≠ i → e.done.1.Quiet) :
    ∃ before e after, es = before ++ e :: after ∧ e.done = d ∧ history before i = past ∧
      (∀ e ∈ before, e.done.1.Quiet) ∧ ∀ e ∈ after, e.done.1.Quiet := by
  obtain ⟨before, e, after, rfl, thread, same, ownPast, ownFuture⟩ := Entry.split_history own
  refine ⟨before, e, after, rfl, same, ownPast, fun x mem => ?_, fun x mem => ?_⟩
  · by_cases mine : x.thread = i
    · subst mine
      exact innerPast _ (ownPast ▸ history_mem mem)
    · exact others x (List.mem_append_left _ mem) mine
  · by_cases mine : x.thread = i
    · subst mine
      exact innerFuture _ (ownFuture ▸ history_mem mem)
    · exact others x (List.mem_append_right _ (.tail _ mem)) mine

/-- The entries of a trace have the answers of the states they met. -/
def Answered (g : AuthShared MemoryStore) (es : List (Entry ι AuthChoice AuthOp AuthRes)) :
    Prop :=
  ∀ before e after, es = before ++ e :: after → e.done.2 = (handleAuth memoryStore e.choice
    e.done.1 (before.foldl (Entry.apply (handleAuth memoryStore)) g)).1

omit [DecidableEq ι] in
/-- What a login reads is the account. -/
theorem Answered.read {g : AuthShared MemoryStore}
    {es before after : List (Entry ι AuthChoice AuthOp AuthRes)}
    {e : Entry ι AuthChoice AuthOp AuthRes} (answered : Answered g es)
    (split : es = before ++ e :: after) {email : String} {user : User}
    (read : e.done = ⟨.getUserByEmail email, .ok user⟩) :
    (before.foldl (Entry.apply (handleAuth memoryStore)) g).store.getUserByEmail email =
      .ok user := by
  have answer := answered before e after split
  obtain ⟨thread, choice, done⟩ := e
  subst read
  exact reading_ok answer.symm

omit [DecidableEq ι] in
/-- What a login writes is the account of the email. -/
theorem Answered.write {g : AuthShared MemoryStore}
    {es before after : List (Entry ι AuthChoice AuthOp AuthRes)}
    {e : Entry ι AuthChoice AuthOp AuthRes} (answered : Answered g es)
    (split : es = before ++ e :: after) {email : String} {user : User} {lat lon : ℚ} {t : Time}
    (wrote : e.done = ⟨.updateLastLogin user.id lat lon t, .ok ()⟩)
    (holds : (before.foldl (Entry.apply (handleAuth memoryStore)) g).store.Holds email user) :
    (Entry.apply (handleAuth memoryStore) (before.foldl (Entry.apply (handleAuth memoryStore)) g)
      e).store.Holds email (user.seenAt lat lon t) := by
  have answer := answered before e after split
  obtain ⟨thread, choice, done⟩ := e
  subst wrote
  obtain ⟨_, stored⟩ := writing_ok answer.symm
  show MemoryStore.Holds (writing choice.fault (memoryStore.updateLastLogin user.id lat lon t)
    _).2.store email _
  rw [stored]
  exact holds.updateLastLogin lat lon t

/-- After the stretch in which a login alone did its read and its write, the account
has the place and the time of the login. -/
theorem Entered.held {s : LoginService} {req : LoginRequest} {user : User} {t : Time} {i : ι}
    {g : AuthShared MemoryStore} (linked : g.store.Linked)
    {es rest : List (Entry ι AuthChoice AuthOp AuthRes)} (answered : Answered g (es ++ rest))
    (alone : ∀ e ∈ es, e.thread = i) (entered : Entered s req user t (history es i)) :
    (es.foldl (Entry.apply (handleAuth memoryStore)) g).store.Holds req.email
      (user.seenAt req.lat req.lon t) := by
  obtain ⟨before, after, checks, own, _, _, innerBefore, innerAfter⟩ := entered
  rw [← List.cons_append] at own
  have quietBefore : ∀ d ∈ (⟨.getUserByEmail req.email, .ok user⟩ : Prog.Done AuthOp AuthRes) ::
      before, d.1.Quiet := by
    intro d mem
    rcases List.mem_cons.mp mem with rfl | later
    · trivial
    · exact (innerBefore d later).quiet
  obtain ⟨start, write, last, rfl, didWrite, ownStart, quietStart, quietLast⟩ := only_write own
    quietBefore (fun d mem => (innerAfter d mem).quiet)
    fun e mem other => absurd (alone e mem) other
  rw [← List.nil_append (_ :: before)] at ownStart
  obtain ⟨first, look, more, rfl, _, didRead, _, _⟩ := Entry.split_history ownStart
  have quietFirst : ∀ e ∈ first, e.done.1.Quiet :=
    fun e mem => quietStart e (List.mem_append_left _ mem)
  have quietLook : look.done.1.Quiet := by
    rw [didRead]
    trivial
  -- the account is the one that was read, until it is written
  have whole : first ++ look :: more ++ write :: last ++ rest =
      first ++ look :: (more ++ write :: (last ++ rest)) := by simp
  have found := answered.read whole didRead
  have linkedLook := linked.of_accounts (foldl_accounts quietFirst g)
  have kept : ((first ++ look :: more).foldl (Entry.apply (handleAuth memoryStore)) g).store.Holds
      req.email user := by
    rw [List.foldl_append]
    refine foldl_holds (fun e mem => ?_) (linkedLook.holds found)
    exact quietStart e (List.mem_append_right _ mem)
  have wrote := answered.write (List.append_assoc _ (write :: last) rest) didWrite kept
  rw [List.foldl_append, List.foldl_cons]
  exact foldl_holds quietLast wrote

omit [DecidableEq ι] in
theorem Entered.recorded_mem {s : LoginService} {req : LoginRequest} {user : User} {t : Time}
    {h : List (Prog.Done AuthOp AuthRes)} (entered : Entered s req user t h) : t ∈ readings h := by
  obtain ⟨before, after, checks, rfl, read, _⟩ := entered
  have mem : t ∈ readings before := by
    rw [read]
    exact List.mem_append_right _ (.head _)
  have sub : before.Sublist (⟨.getUserByEmail req.email, .ok user⟩ :: (before ++
      ⟨.updateLastLogin user.id req.lat req.lon t, .ok ()⟩ :: after)) :=
    (List.sublist_append_left before _).cons _
  exact (sub.filterMap _).subset mem

omit [DecidableEq ι] in
/-- A login records one time. -/
theorem Entered.recorded_eq {s : LoginService} {req : LoginRequest} {user : User} {t t' : Time}
    {h : List (Prog.Done AuthOp AuthRes)} (entered : Entered s req user t h) {id : String}
    {lat lon : ℚ} (recorded : (⟨.updateLastLogin id lat lon t', .ok ()⟩ :
      Prog.Done AuthOp AuthRes) ∈ h) : t' = t := by
  obtain ⟨before, after, checks, rfl, _, _, innerBefore, innerAfter⟩ := entered
  rcases List.mem_cons.mp recorded with same | mem
  · cases same
  · rcases List.mem_append.mp mem with early | late
    · exact (innerBefore _ early).elim
    · rcases List.mem_cons.mp late with same | late
      · cases same
        rfl
      · exact (innerAfter _ late).elim

omit [DecidableEq ι] in
/-- Readings of a later part of a run come after one of an earlier part. -/
theorem readings_later {first between : List (Entry ι AuthChoice AuthOp AuthRes)}
    (strict : StrictClock (first ++ between)) {t t' : Time} {checks : List Time}
    (early : t ∈ readings (first.map (·.done)))
    (late : (checks ++ [t']).Sublist (readings (between.map (·.done)))) :
    (∀ c ∈ checks, t < c ∧ c < t') ∧ t < t' := by
  rw [StrictClock, List.map_append, readings, List.filterMap_append] at strict
  obtain ⟨_, ordered, across⟩ := List.pairwise_append.mp strict
  have own := ordered.sublist late
  refine ⟨fun c mem => ⟨?_, ?_⟩, ?_⟩
  · exact across t early c (late.subset (List.mem_append_left _ mem))
  · exact (List.pairwise_append.mp own).2.2 c mem t' (.head _)
  · exact across t early t' (late.subset (List.mem_append_right _ (.head _)))

/-- The second of two logins, which read the account after the first had written
it, compared itself with the first, and the account is left with its place and
time. -/
theorem Entered.second {s : LoginService} {req req' : LoginRequest} (email : req.email = req'.email)
    {user user' : User} {t t' : Time} {i j : ι} {g : AuthShared MemoryStore}
    (linked : g.store.Linked) {first last : List (Entry ι AuthChoice AuthOp AuthRes)}
    {look : Entry ι AuthChoice AuthOp AuthRes} (answered : Answered g (first ++ look :: last))
    (strict : StrictClock (first ++ look :: last))
    (two : ∀ e ∈ first ++ look :: last, e.thread = i ∨ e.thread = j) (thread : look.thread = j)
    (unstarted : history first j = []) (recorded : ∃ d ∈ history first i, d.1.records = true)
    (entered : Entered s req user t (history (first ++ look :: last) i))
    (entered' : Entered s req' user' t' (history (first ++ look :: last) j)) :
    ∃ checks h, user' = user.seenAt req.lat req.lon t ∧
      Compared s req' user' checks h ∧ (∀ d ∈ h, d ∈ history (first ++ look :: last) j) ∧
      (∀ c ∈ checks, t < c ∧ c < t') ∧ t < t' ∧
      ((first ++ look :: last).foldl (Entry.apply (handleAuth memoryStore)) g).store.Holds
        req'.email (user'.seenAt req'.lat req'.lon t') := by
  rw [history_append] at entered
  obtain ⟨alone, inner⟩ := entered.left recorded
  have only : ∀ e ∈ first, e.thread = i := by
    intro e mem
    rcases two e (List.mem_append_left _ mem) with mine | other
    · exact mine
    · have done := history_mem mem
      rw [other, unstarted] at done
      cases done
  have held := alone.held linked answered only
  -- what the second read
  obtain ⟨before, after, checks, own, read, compared, innerBefore, innerAfter⟩ := entered'
  have cons : history (look :: last) j = look.done :: history last j := by
    rw [history, List.filter_cons_of_pos (by simpa using thread), List.map_cons]
  have whole := own
  rw [history_append, unstarted, List.nil_append, cons] at own
  obtain ⟨didRead, rest⟩ := List.cons.inj own
  have found := answered.read rfl didRead
  rw [← email, held.found] at found
  obtain rfl := Except.ok.inj found
  -- what the second wrote
  obtain ⟨between, write, tail, rfl, didWrite, ownBetween, quietBetween, quietTail⟩ :=
    only_write rest (fun d mem => (innerBefore d mem).quiet)
      (fun d mem => (innerAfter d mem).quiet) fun e mem other => by
        rcases two e (List.mem_append_right _ (.tail _ mem)) with mine | others
        · subst mine
          exact (inner _ (history_mem (.tail _ mem))).quiet
        · exact absurd others other
  have quiet : ∀ e ∈ look :: between, e.done.1.Quiet := by
    intro e mem
    rcases List.mem_cons.mp mem with rfl | later
    · rw [didRead]
      trivial
    · exact quietBetween e later
  have kept : ((first ++ look :: between).foldl (Entry.apply (handleAuth memoryStore))
      g).store.Holds req'.email (user.seenAt req.lat req.lon t) := by
    rw [List.foldl_append, ← email]
    exact foldl_holds quiet held
  have tailed : first ++ look :: (between ++ write :: tail) =
      (first ++ look :: between) ++ write :: tail := by simp
  have wrote := answered.write tailed didWrite kept
  have early : t ∈ readings (first.map (·.done)) :=
    ((history_sublist first i).filterMap _).subset alone.recorded_mem
  have late : (checks ++ [t']).Sublist (readings (between.map (·.done))) := by
    rw [← read, ← ownBetween]
    exact (history_sublist between j).filterMap _
  have apart : (first ++ between).Sublist (first ++ look :: (between ++ write :: tail)) :=
    (List.Sublist.refl first).append ((List.sublist_append_left between _).cons _)
  obtain ⟨inside, order⟩ := readings_later (strict.sublist apart) early late
  refine ⟨checks, before, rfl, compared, ?_, inside, order, ?_⟩
  · intro d mem
    rw [whole]
    exact .tail _ (List.mem_append_left _ mem)
  · rw [tailed, List.foldl_append, List.foldl_cons]
    exact foldl_holds quietTail wrote

end

/-! ## Two logins -/

section
variable {s : LoginService} {req : Fin 2 → LoginRequest} {g : AuthShared MemoryStore}
  {schedule : List (Fin 2 × AuthChoice)}

/-- Two logins over the in-memory store. -/
abbrev logins (s : LoginService) (req : Fin 2 → LoginRequest) (g : AuthShared MemoryStore) :
    AuthPool MemoryStore (Fin 2) :=
  calling s (fun i => .login (req i)) g

/-- A login reads the account only when no other one is between its read and its
write. -/
def Apart {σ ι : Type} (p : AuthPool σ ι) (_ : AuthChoice) : AuthOp → Prop
  | .getUserByEmail _ =>
    ∀ i, (p.threads i).done = [] ∨ ∃ d ∈ (p.threads i).done, d.1.records = true
  | _ => True

instance {σ ι : Type} [Fintype ι] (p : AuthPool σ ι) (c : AuthChoice) (o : AuthOp) :
    Decidable (Apart p c o) := by
  unfold Apart
  split <;> infer_instance

theorem logins_done (i : Fin 2) :
    (((logins s req g).run (handleAuth memoryStore) schedule).threads i).done =
      history ((logins s req g).trace (handleAuth memoryStore) schedule) i :=
  Pool.done_run (handleAuth memoryStore) (logins s req g) schedule i

/-- The login recorded the time `t`. -/
def Recorded (p : AuthPool MemoryStore (Fin 2)) (i : Fin 2) (t : Time) : Prop :=
  ∃ id lat lon, (⟨.updateLastLogin id lat lon t, .ok ()⟩ : Prog.Done AuthOp AuthRes) ∈
    (p.threads i).done

/-- Where a login reads, the other has not begun or has written. -/
theorem reads_apart
    (apart : Along (Pool.step (handleAuth memoryStore)) (Pool.Guarded Apart) (logins s req g)
      schedule) {k : Fin 2} {user : User} {t : Time}
    (entered : Entered s (req k) user t
      (history ((logins s req g).trace (handleAuth memoryStore) schedule) k)) :
    ∃ first look last, (logins s req g).trace (handleAuth memoryStore) schedule =
      first ++ look :: last ∧ look.thread = k ∧ history first k = [] ∧
        ∀ l, history first l = [] ∨ ∃ d ∈ history first l, d.1.records = true := by
  obtain ⟨before, after, checks, own, _⟩ := entered
  rw [← List.nil_append (_ :: _)] at own
  obtain ⟨first, look, last, split, thread, read, unstarted, _⟩ := Entry.split_history own
  obtain ⟨steps, rfl, guarded⟩ := Pool.trace_guarded (handleAuth memoryStore) apart split
  refine ⟨_, look, last, split, thread, unstarted, fun l => ?_⟩
  rw [read] at guarded
  have still := guarded l
  rwa [logins_done] at still

/-- One of two logins that do not overlap reads after the other has written. -/
theorem reads_after_write
    (apart : Along (Pool.step (handleAuth memoryStore)) (Pool.Guarded Apart) (logins s req g)
      schedule) {i j : Fin 2} (different : i ≠ j)
    (entered : ∀ k, ∃ user t, Entered s (req k) user t
      (history ((logins s req g).trace (handleAuth memoryStore) schedule) k)) :
    ∃ first look last, (logins s req g).trace (handleAuth memoryStore) schedule =
        first ++ look :: last ∧
      ((look.thread = j ∧ history first j = [] ∧ ∃ d ∈ history first i, d.1.records = true) ∨
        look.thread = i ∧ history first i = [] ∧ ∃ d ∈ history first j, d.1.records = true) := by
  obtain ⟨_, _, reads⟩ := entered j
  obtain ⟨first, look, last, split, thread, unstarted, others⟩ := reads_apart apart reads
  rcases others i with nothing | recorded
  · -- nothing happened before, so the other reads later
    obtain ⟨_, _, reads'⟩ := entered i
    obtain ⟨first', look', last', split', thread', unstarted', others'⟩ := reads_apart apart reads'
    refine ⟨first', look', last', split', .inr ⟨thread', unstarted', ?_⟩⟩
    rcases others' j with unread | recorded
    · have empty : first = [] := by
        refine List.eq_nil_iff_forall_not_mem.mpr fun e mem => ?_
        have done := history_mem mem
        obtain same | same : e.thread = i ∨ e.thread = j := by omega
        · rw [same, nothing] at done
          cases done
        · rw [same, unstarted] at done
          cases done
      rw [split', empty] at split
      rcases List.append_eq_cons_iff.mp split with ⟨_, same⟩ | ⟨more, rfl, _⟩
      · rw [(List.cons.inj same).1, thread] at thread'
        exact absurd thread'.symm different
      · have done := history_mem (List.mem_cons_self (a := look) (l := more))
        rw [thread, unread] at done
        cases done
    · exact recorded
  · exact ⟨first, look, last, split, .inl ⟨thread, unstarted, recorded⟩⟩

theorem logins_entered
    (returned : ∀ i, ∃ pair, (((logins s req g).run (handleAuth memoryStore)
      schedule).threads i).todo = .ret (.loggedIn (.ok pair))) (k : Fin 2) :
    ∃ user t, Entered s (req k) user t
      (history ((logins s req g).trace (handleAuth memoryStore) schedule) k) := by
  obtain ⟨pair, ret⟩ := returned k
  have reached := (Pool.reached_start g fun k => (Call.login (req k)).prog s).run
    (handleAuth memoryStore) schedule k
  rw [ret, logins_done] at reached
  obtain ⟨_, same, run⟩ := Prog.Runs.map reached.runs
  cases same
  exact login_entered s run

/-- **Simultaneous logins cannot hide impossible travel** in a run in which neither
reads the account while the other is between its read and its write: when both have
returned successfully, the account has the time of the later one, which has
published an `impossible_travel` event if its place was too far for the time
between the two recorded logins. -/
theorem simultaneous_logins_reported (s : LoginService) {req : Fin 2 → LoginRequest}
    (account : ∀ i, (req i).email = (req 0).email) {g : AuthShared MemoryStore}
    (linked : g.store.Linked) {schedule : List (Fin 2 × AuthChoice)}
    (strict : StrictClock ((logins s req g).trace (handleAuth memoryStore) schedule))
    (apart : Along (Pool.step (handleAuth memoryStore)) (Pool.Guarded Apart) (logins s req g)
      schedule)
    (returned : ∀ i, ∃ pair, (((logins s req g).run (handleAuth memoryStore)
      schedule).threads i).todo = .ret (.loggedIn (.ok pair)))
    {earlier later : Fin 2} {t t' : Time}
    (recorded : Recorded ((logins s req g).run (handleAuth memoryStore) schedule) earlier t)
    (recorded' : Recorded ((logins s req g).run (handleAuth memoryStore) schedule) later t')
    (order : t < t') :
    ∃ user, MemoryStore.getUserByEmail (req later).email
        ((logins s req g).run (handleAuth memoryStore) schedule).shared.store = .ok user ∧
      user.lastLoginAt = some t' ∧
      (impossibleTravelKmh < haversineKm s.trig ⟨(req earlier).lat, (req earlier).lon, t⟩
          ⟨(req later).lat, (req later).lon, t'⟩ / hours (t' - t) →
        ∃ event, (⟨.base (.publish event), ()⟩ : Prog.Done AuthOp AuthRes) ∈
            (((logins s req g).run (handleAuth memoryStore) schedule).threads later).done ∧
          event ∈ ((logins s req g).run (handleAuth memoryStore) schedule).shared.published ∧
          event.type = "impossible_travel" ∧ event.accountID = user.id) := by
  have entered := logins_entered returned
  obtain ⟨_, _, _, wrote⟩ := recorded
  obtain ⟨_, _, _, wrote'⟩ := recorded'
  rw [logins_done] at wrote wrote'
  obtain ⟨user, t₀, first⟩ := entered earlier
  obtain ⟨user', t₁, second⟩ := entered later
  obtain rfl := first.recorded_eq wrote
  obtain rfl := second.recorded_eq wrote'
  have different : earlier ≠ later := by
    rintro rfl
    rw [first.recorded_eq wrote'] at order
    exact lt_irrefl _ order
  have answered : Answered g ((logins s req g).trace (handleAuth memoryStore) schedule) :=
    fun before e after split => Pool.trace_answer (handleAuth memoryStore) split
  have email : (req earlier).email = (req later).email := by
    rw [account earlier, account later]
  rw [Pool.shared_run]
  obtain ⟨start, look, last, split, turn⟩ := reads_after_write apart different entered
  rw [split] at first second answered strict ⊢
  rcases turn with ⟨thread, unstarted, written⟩ | ⟨thread, unstarted, written⟩
  · obtain ⟨checks, h, rfl, compared, mine, between, _, held⟩ := first.second email linked answered
      strict (fun e _ => by omega) thread unstarted written second
    refine ⟨_, held.found, rfl, fun fast => ?_⟩
    obtain ⟨now, read, reported⟩ := compared _ _ _ rfl rfl rfl
    obtain ⟨after, before⟩ := between now read
    obtain ⟨event, published, kind, account⟩ :=
      reported (checkImpossibleTravel_sooner s.trig after before.le fast)
    have done : (⟨.base (.publish event), ()⟩ : Prog.Done AuthOp AuthRes) ∈
        (((logins s req g).run (handleAuth memoryStore) schedule).threads later).done := by
      rw [logins_done, split]
      exact mine _ published
    have all := published_run done
    rw [Pool.shared_run, split] at all
    exact ⟨event, done, all, kind, account⟩
  · -- the later one cannot have come first
    obtain ⟨_, _, _, _, _, _, back, _⟩ := second.second email.symm linked answered strict
      (fun e _ => by omega) thread unstarted written first
    exact absurd back (not_lt.mpr order.le)

end

/-! ## From opposite sides of the earth within the hour -/

/-- One account, from the meridian of Greenwich and from the opposite one. -/
def twoPlaces : Fin 2 → LoginRequest := fun i =>
  { ownLogin with lon := if i.val = 0 then 0 else 180 }

/-- Thread `i` takes `n` steps from a time on, one in each nanosecond. -/
def stepsFrom (i : Fin 2) (n : Nat) (start : Time) : List (Fin 2 × AuthChoice) :=
  (List.range n).map fun k => (i, { uuid := "f-1", accessToken := some "jwt",
                                    refreshToken := some "rt", now := start + k })

/-- An hour. -/
def anHour : Time := 3600000000000

/-- The second login an hour after the first. -/
def oneAfterTheOther : List (Fin 2 × AuthChoice) :=
  stepsFrom ⟨0, Nat.zero_lt_two⟩ 10 0 ++ stepsFrom ⟨1, Nat.one_lt_two⟩ 13 anHour

theorem ownAccount_linked : ownAccount.store.Linked :=
  MemoryStore.Linked.empty.createUser (show ({} : MemoryStore).byID "u-own" = none from rfl)
    "own@example.com" "own"

theorem simultaneous_logins_reported_in_turn :
    ∃ event ∈ ((logins sampleLoginService twoPlaces { toShared := ownAccount }).run
        (handleAuth memoryStore) oneAfterTheOther).shared.published,
      event.type = "impossible_travel" := by
  obtain ⟨_, _, _, seen⟩ := simultaneous_logins_reported sampleLoginService
    (show ∀ i, (twoPlaces i).email = (twoPlaces 0).email from fun _ => rfl)
    (g := { toShared := ownAccount }) ownAccount_linked
    (show StrictClock ((logins sampleLoginService twoPlaces _).trace (handleAuth memoryStore)
      oneAfterTheOther) by decide +kernel)
    (by decide +kernel)
    (Fin.forall_fin_two.mpr ⟨⟨⟨"jwt", "rt"⟩, by with_unfolding_all rfl⟩,
      ⟨⟨"jwt", "rt"⟩, by with_unfolding_all rfl⟩⟩)
    (show Recorded _ 0 3 from ⟨"u-own", 0, 0,
      List.mem_of_getElem? (i := 4) (by with_unfolding_all rfl)⟩)
    (show Recorded _ 1 (anHour + 6) from ⟨"u-own", 0, 180,
      List.mem_of_getElem? (i := 7) (by with_unfolding_all rfl)⟩)
    (by decide)
  obtain ⟨event, _, published, kind, _⟩ := seen (by decide +kernel)
  exact ⟨event, published, kind⟩

/-- The second login reads the account before the first has written it, and writes
before the first does. -/
def overlapping : List (Fin 2 × AuthChoice) :=
  stepsFrom ⟨0, Nat.zero_lt_two⟩ 4 0 ++ stepsFrom ⟨1, Nat.one_lt_two⟩ 10 anHour ++
    stepsFrom ⟨0, Nat.zero_lt_two⟩ 6 (2 * anHour)

/-- Both logins return successfully, no event is published, and the account has the
time of the earlier one. -/
theorem simultaneous_logins_hidden :
    ∃ p : AuthPool MemoryStore (Fin 2),
      p = (logins sampleLoginService twoPlaces { toShared := ownAccount }).run
        (handleAuth memoryStore) overlapping ∧
      StrictClock ((logins sampleLoginService twoPlaces { toShared := ownAccount }).trace
        (handleAuth memoryStore) overlapping) ∧
      (∀ i, ∃ pair, (p.threads i).todo = .ret (.loggedIn (.ok pair))) ∧
      Recorded p 0 3 ∧ Recorded p 1 (anHour + 3) ∧
      impossibleTravelKmh < haversineKm sampleLoginService.trig
        ⟨(twoPlaces 0).lat, (twoPlaces 0).lon, 3⟩
        ⟨(twoPlaces 1).lat, (twoPlaces 1).lon, anHour + 3⟩ / hours (anHour + 3 - 3) ∧
      p.shared.published = [] ∧
      (p.shared.store.getUserByEmail "own@example.com").map (·.lastLoginAt) = .ok (some 3) :=
  ⟨_, rfl, by decide +kernel, Fin.forall_fin_two.mpr ⟨⟨_, rfl⟩, ⟨_, rfl⟩⟩,
    ⟨"u-own", 0, 0, List.mem_of_getElem? (i := 4) rfl⟩,
    ⟨"u-own", 0, 180, List.mem_of_getElem? (i := 4) rfl⟩, by decide +kernel, rfl, rfl⟩

end VaultWatch.Gateway
