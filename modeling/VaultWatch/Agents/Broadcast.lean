import VaultWatch.Lib.Run
import VaultWatch.Lib.SlotSet
import Mathlib.Data.Fintype.Basic

/-! The WebSocket fan-out (`agents-python/app/main.py`, `ConnectionManager`).
`broadcast` iterates the live set of connections and suspends in every
`send_json`, so other coroutines change the set between two steps of the
iteration. One action is what runs between two suspensions; the iterator raises
when the set's size is not what it was when the iteration began. -/
namespace VaultWatch.Agents

open VaultWatch.Lib VaultWatch.Lib.Run

section
variable {ι Ws : Type} [DecidableEq ι] [DecidableEq Ws]

/-- Where a broadcast stands: before its first step, suspended in the send to
`ws` with the iterator's position and size and the list `dead`, or done. -/
inductive Phase (Ws : Type)
  | idle
  | sending (pos used : Nat) (ws : Ws) (dead : List Ws)
  | returned
  | raised
  deriving DecidableEq

/-- `sends` are the sends so far, each with whether it succeeded. -/
structure Broadcast (Ws : Type) where
  phase : Phase Ws := .idle
  sends : List (Ws × Bool) := []

structure ConnectionManager (ι Ws : Type) where
  connections : SlotSet Ws := .empty
  broadcasts : ι → Broadcast Ws := fun _ => {}

/-- `connect` is what the coroutine does once `ws.accept()` has returned;
`resume b ok` lets the send of broadcast `b` return (`ok`) or raise. -/
inductive Action (ι Ws : Type)
  | connect (ws : Ws) (place : SlotSet.Place Ws)
  | disconnect (ws : Ws)
  | start (b : ι)
  | resume (b : ι) (ok : Bool)

namespace ConnectionManager

def setBroadcast (m : ConnectionManager ι Ws) (b : ι) (c : Broadcast Ws) :
    ConnectionManager ι Ws :=
  { m with broadcasts := Function.update m.broadcasts b c }

/-- The head of the `for` loop, and behind the loop the removal of `dead`. -/
def next (m : ConnectionManager ι Ws) (b : ι) (pos used : Nat) (dead : List Ws)
    (sends : List (Ws × Bool)) : ConnectionManager ι Ws :=
  if m.connections.size ≠ used then m.setBroadcast b ⟨.raised, sends⟩
  else
    match m.connections.nextFrom pos with
    | some (ws, pos) => m.setBroadcast b ⟨.sending pos used ws dead, sends⟩
    | none =>
      { m.setBroadcast b ⟨.returned, sends⟩ with
        connections := dead.foldl SlotSet.discard m.connections }

def step (m : ConnectionManager ι Ws) : Action ι Ws → ConnectionManager ι Ws
  | .connect ws place => { m with connections := m.connections.add ws place }
  | .disconnect ws => { m with connections := m.connections.discard ws }
  | .start b =>
    match (m.broadcasts b).phase with
    | .idle => m.next b 0 m.connections.size [] []
    | _ => m
  | .resume b ok =>
    match (m.broadcasts b).phase with
    | .sending pos used ws dead =>
      m.next b pos used (if ok then dead else dead ++ [ws]) ((m.broadcasts b).sends ++ [(ws, ok)])
    | _ => m

end ConnectionManager

open ConnectionManager

def Phase.isSending : Phase Ws → Bool
  | .sending .. => true
  | _ => false

/-- A broadcast that goes on finds the set as large as when it began, and no
new connection makes the table move while a broadcast is suspended. -/
def Undisturbed (m : ConnectionManager ι Ws) : Action ι Ws → Prop
  | .connect ws (.rebuilt _) =>
    ws ∈ m.connections.members ∨ ∀ b, (m.broadcasts b).phase.isSending = false
  | .resume b _ =>
    match (m.broadcasts b).phase with
    | .sending _ used _ _ => m.connections.size = used
    | _ => True
  | _ => True

omit [DecidableEq ι] in
instance [Fintype ι] (m : ConnectionManager ι Ws) : ∀ a, Decidable (Undisturbed m a)
  | .connect ws (.rebuilt _) =>
    inferInstanceAs (Decidable (ws ∈ m.connections.members ∨ ∀ b, _ = false))
  | .connect _ (.slot _) | .disconnect _ | .start _ => isTrue trivial
  | .resume b _ =>
    match h : (m.broadcasts b).phase with
    | .sending _ used _ _ =>
      decidable_of_iff (m.connections.size = used) (by simp [Undisturbed, h])
    | .idle | .returned | .raised => isTrue (by simp [Undisturbed, h])

/-- The sends to one connection. -/
def sendsTo (ws : Ws) (sends : List (Ws × Bool)) : List (Ws × Bool) :=
  sends.filter fun s => s.1 = ws

omit [DecidableEq ι] in
theorem sendsTo_snoc (ws current : Ws) (sends : List (Ws × Bool)) (ok : Bool) :
    sendsTo ws (sends ++ [(current, ok)]) =
      sendsTo ws sends ++ if current = ws then [(current, ok)] else [] := by
  unfold sendsTo
  rw [List.filter_append]
  by_cases h : current = ws <;> simp [h]

/-! ## One broadcast and one connection that stays -/

/-- How far broadcast `b` is with connection `ws`: its slot is still ahead, the
send to it is under way, or the one send to it is done. -/
inductive Tracked (m : ConnectionManager ι Ws) (b : ι) (ws : Ws) : Prop
  | ahead (i pos used : Nat) (current : Ws) (dead : List Ws)
      (phase : (m.broadcasts b).phase = .sending pos used current dead)
      (holds : m.connections.Holds i ws) (le : pos ≤ i) (other : current ≠ ws)
      (unsent : sendsTo ws (m.broadcasts b).sends = [])
  | now (i used : Nat) (dead : List Ws)
      (phase : (m.broadcasts b).phase = .sending (i + 1) used ws dead)
      (holds : m.connections.Holds i ws) (unsent : sendsTo ws (m.broadcasts b).sends = [])
  | past (i pos used : Nat) (current : Ws) (dead : List Ws)
      (phase : (m.broadcasts b).phase = .sending pos used current dead)
      (holds : m.connections.Holds i ws) (lt : i < pos) (other : current ≠ ws) (ok : Bool)
      (once : sendsTo ws (m.broadcasts b).sends = [(ws, ok)])
  | returned (phase : (m.broadcasts b).phase = .returned) (ok : Bool)
      (once : sendsTo ws (m.broadcasts b).sends = [(ws, ok)])

omit [DecidableEq ι] in
/-- Nothing changes for a connection that keeps its slot and a broadcast that
does not move. -/
theorem Tracked.frame {m n : ConnectionManager ι Ws} {b : ι} {ws : Ws} (h : Tracked m b ws)
    (hb : n.broadcasts b = m.broadcasts b)
    (hc : ∀ i, (m.broadcasts b).phase.isSending = true → m.connections.Holds i ws →
      n.connections.Holds i ws) : Tracked n b ws := by
  cases h with
  | ahead i pos used current dead phase holds le other unsent =>
    exact .ahead i pos used current dead (by rw [hb]; exact phase)
      (hc i (by rw [phase]; rfl) holds) le other (by rw [hb]; exact unsent)
  | now i used dead phase holds unsent =>
    exact .now i used dead (by rw [hb]; exact phase) (hc i (by rw [phase]; rfl) holds)
      (by rw [hb]; exact unsent)
  | past i pos used current dead phase holds lt other ok once =>
    exact .past i pos used current dead (by rw [hb]; exact phase)
      (hc i (by rw [phase]; rfl) holds) lt other ok (by rw [hb]; exact once)
  | returned phase ok once =>
    exact .returned (by rw [hb]; exact phase) ok (by rw [hb]; exact once)

omit [DecidableEq Ws] in
theorem setBroadcast_self (m : ConnectionManager ι Ws) (b : ι) (c : Broadcast Ws) :
    (m.setBroadcast b c).broadcasts b = c := Function.update_self ..

theorem next_other {m : ConnectionManager ι Ws} {b b' : ι} (hne : b ≠ b') (pos used : Nat)
    (dead : List Ws) (sends : List (Ws × Bool)) :
    (m.next b' pos used dead sends).broadcasts b = m.broadcasts b := by
  unfold next
  split
  · exact Function.update_of_ne hne ..
  · split
    · exact Function.update_of_ne hne ..
    · exact Function.update_of_ne hne ..

theorem next_holds {m : ConnectionManager ι Ws} {b : ι} {pos used : Nat} {dead : List Ws}
    {sends : List (Ws × Bool)} {ws : Ws} {i : Nat}
    (hmem : ws ∈ (m.next b pos used dead sends).connections.members)
    (h : m.connections.Holds i ws) :
    (m.next b pos used dead sends).connections.Holds i ws := by
  unfold next at hmem ⊢
  split
  · exact h
  · next hsize =>
    rw [if_neg hsize] at hmem
    split
    · exact h
    · next hend =>
      rw [hend] at hmem
      obtain ⟨j, hj⟩ := SlotSet.mem_members.mp hmem
      exact SlotSet.holds_discardAll.mpr ⟨h, (SlotSet.holds_discardAll.mp hj).2⟩

/-- A connection that stays keeps its slot while a broadcast is suspended. -/
theorem holds_step {m : ConnectionManager ι Ws} {a : Action ι Ws} (hu : Undisturbed m a) {b : ι}
    (hb : (m.broadcasts b).phase.isSending = true) {ws : Ws}
    (hmem : ws ∈ (m.step a).connections.members) {i : Nat} (h : m.connections.Holds i ws) :
    (m.step a).connections.Holds i ws := by
  cases a with
  | connect ws' place =>
    apply SlotSet.holds_add _ h
    intro u same
    subst same
    rcases hu with hold | hnone
    · exact hold
    · rw [hnone b] at hb
      cases hb
  | disconnect ws' =>
    exact SlotSet.holds_discard.mpr ⟨h, (SlotSet.mem_discard.mp hmem).2⟩
  | start b' =>
    unfold step at hmem ⊢
    simp only at hmem ⊢
    split
    · next hidle =>
      rw [hidle] at hmem
      exact next_holds hmem h
    · exact h
  | resume b' ok =>
    unfold step at hmem ⊢
    simp only at hmem ⊢
    split
    · next pos used current dead hphase =>
      rw [hphase] at hmem
      exact next_holds hmem h
    · exact h

/-- The loop goes on: a slot ahead is reached in its turn, a slot behind is not
visited again. -/
theorem tracked_next {m : ConnectionManager ι Ws} {b : ι} {pos used : Nat} {dead : List Ws}
    {sends : List (Ws × Bool)} {ws : Ws} {i : Nat} (hsize : m.connections.size = used)
    (h : m.connections.Holds i ws)
    (hpos : pos ≤ i ∧ sendsTo ws sends = [] ∨
      i < pos ∧ ∃ ok, sendsTo ws sends = [(ws, ok)]) :
    Tracked (m.next b pos used dead sends) b ws := by
  unfold next
  rw [if_neg (not_not.mpr hsize)]
  cases hnext : m.connections.nextFrom pos with
  | none =>
    have hlt := SlotSet.nextFrom_eq_none hnext h
    rcases hpos with ⟨hle, _⟩ | ⟨_, ok, honce⟩
    · omega
    · exact .returned (by rw [setBroadcast_self]) ok (by rw [setBroadcast_self]; exact honce)
  | some found =>
    obtain ⟨current, q⟩ := found
    obtain ⟨k, rfl, hk, hholds, hfirst⟩ := SlotSet.nextFrom_eq_some hnext
    simp only
    rcases hpos with ⟨hle, hunsent⟩ | ⟨hlt, ok, honce⟩
    · have hki := hfirst i ws hle h
      by_cases heq : k = i
      · subst heq
        obtain rfl : current = ws := by
          rw [SlotSet.Holds, hholds] at h
          cases h
          rfl
        exact .now k used dead (by rw [setBroadcast_self]) h
          (by rw [setBroadcast_self]; exact hunsent)
      · have hother : current ≠ ws := by
          intro same
          subst same
          exact heq (hholds.unique h)
        exact .ahead i (k + 1) used current dead (by rw [setBroadcast_self]) h (by omega) hother
          (by rw [setBroadcast_self]; exact hunsent)
    · have hother : current ≠ ws := by
        intro same
        subst same
        have := hholds.unique h
        omega
      exact .past i (k + 1) used current dead (by rw [setBroadcast_self]) h (by omega) hother ok
        (by rw [setBroadcast_self]; exact honce)

omit [DecidableEq ι] in
theorem Tracked.not_idle {m : ConnectionManager ι Ws} {b : ι} {ws : Ws} (h : Tracked m b ws) :
    (m.broadcasts b).phase ≠ .idle := by
  intro hidle
  cases h with
  | ahead _ _ _ _ _ phase => rw [hidle] at phase; cases phase
  | now _ _ _ phase => rw [hidle] at phase; cases phase
  | past _ _ _ _ _ phase => rw [hidle] at phase; cases phase
  | returned phase => rw [hidle] at phase; cases phase

theorem step_resume {m : ConnectionManager ι Ws} {b : ι} {ok : Bool} {pos used : Nat} {ws : Ws}
    {dead : List Ws} (h : (m.broadcasts b).phase = .sending pos used ws dead) :
    m.step (.resume b ok) = m.next b pos used (if ok then dead else dead ++ [ws])
      ((m.broadcasts b).sends ++ [(ws, ok)]) := by
  unfold ConnectionManager.step
  simp only [h]

/-- Only its own start and its own resumptions move a broadcast. -/
theorem step_other {m : ConnectionManager ι Ws} {a : Action ι Ws} {b : ι}
    (hstart : a = .start b → (m.broadcasts b).phase ≠ .idle)
    (hresume : ∀ ok, a = .resume b ok → (m.broadcasts b).phase.isSending = false) :
    (m.step a).broadcasts b = m.broadcasts b := by
  cases a with
  | connect ws place => rfl
  | disconnect ws => rfl
  | start b' =>
    unfold ConnectionManager.step
    simp only
    split
    · next hidle =>
      apply next_other
      intro same
      subst same
      exact hstart rfl hidle
    · rfl
  | resume b' ok =>
    unfold ConnectionManager.step
    simp only
    split
    · next hphase =>
      apply next_other
      intro same
      subst same
      have hnot := hresume ok rfl
      rw [hphase] at hnot
      cases hnot
    · rfl

theorem Tracked.step {m : ConnectionManager ι Ws} {b : ι} {ws : Ws} (h : Tracked m b ws)
    {a : Action ι Ws} (hu : Undisturbed m a) (hmem : ws ∈ (m.step a).connections.members) :
    Tracked (m.step a) b ws := by
  by_cases hown : ∃ ok, a = .resume b ok ∧ (m.broadcasts b).phase.isSending = true
  · obtain ⟨ok, rfl, hsending⟩ := hown
    cases h with
    | ahead i pos used current dead phase holds le other unsent =>
      have hsize : m.connections.size = used := by simpa [Undisturbed, phase] using hu
      rw [step_resume phase]
      apply tracked_next hsize holds
      left
      refine ⟨le, ?_⟩
      rw [sendsTo_snoc, unsent, if_neg other]
      rfl
    | now i used dead phase holds unsent =>
      have hsize : m.connections.size = used := by simpa [Undisturbed, phase] using hu
      rw [step_resume phase]
      apply tracked_next hsize holds
      right
      refine ⟨Nat.lt_succ_self i, ok, ?_⟩
      rw [sendsTo_snoc, unsent, if_pos rfl]
      rfl
    | past i pos used current dead phase holds lt other ok' once =>
      have hsize : m.connections.size = used := by simpa [Undisturbed, phase] using hu
      rw [step_resume phase]
      apply tracked_next hsize holds
      right
      refine ⟨lt, ok', ?_⟩
      rw [sendsTo_snoc, once, if_neg other]
      rfl
    | returned phase ok' once =>
      rw [phase] at hsending
      cases hsending
  · apply h.frame
    · apply step_other
      · intro _
        exact h.not_idle
      · intro ok heq
        cases hs : (m.broadcasts b).phase.isSending with
        | false => rfl
        | true => exact absurd ⟨ok, heq, hs⟩ hown
    · intro i hsending hi
      exact holds_step hu hsending hmem hi

/-! ## No broadcast raises -/

theorem next_not_raised {m : ConnectionManager ι Ws} {b : ι} {pos used : Nat} {dead : List Ws}
    {sends : List (Ws × Bool)} (hsize : m.connections.size = used) :
    ((m.next b pos used dead sends).broadcasts b).phase ≠ .raised := by
  unfold next
  rw [if_neg (not_not.mpr hsize)]
  split
  · rw [setBroadcast_self]
    nofun
  · show ((m.setBroadcast b ⟨.returned, sends⟩).broadcasts b).phase ≠ .raised
    rw [setBroadcast_self]
    nofun

/-- The iterator raises exactly when the set has changed its size. -/
theorem resume_raises_iff {m : ConnectionManager ι Ws} {b : ι} {ok : Bool} {pos used : Nat}
    {ws : Ws} {dead : List Ws} (h : (m.broadcasts b).phase = .sending pos used ws dead) :
    ((m.step (.resume b ok)).broadcasts b).phase = .raised ↔ m.connections.size ≠ used := by
  rw [step_resume h]
  constructor
  · intro hraised hsize
    exact next_not_raised hsize hraised
  · intro hsize
    unfold next
    rw [if_pos hsize, setBroadcast_self]

theorem not_raised_step {m : ConnectionManager ι Ws}
    (h : ∀ b, (m.broadcasts b).phase ≠ .raised) {a : Action ι Ws} (hu : Undisturbed m a) (b : ι) :
    ((m.step a).broadcasts b).phase ≠ .raised := by
  by_cases hstart : a = .start b ∧ (m.broadcasts b).phase = .idle
  · obtain ⟨rfl, hidle⟩ := hstart
    unfold ConnectionManager.step
    simp only [hidle]
    exact next_not_raised rfl
  · by_cases hresume : ∃ ok, a = .resume b ok ∧ (m.broadcasts b).phase.isSending = true
    · obtain ⟨ok, rfl, hsending⟩ := hresume
      cases hphase : (m.broadcasts b).phase with
      | sending pos used ws dead =>
        have hsize : m.connections.size = used := by simpa [Undisturbed, hphase] using hu
        rw [Ne, resume_raises_iff hphase, not_not]
        exact hsize
      | idle => rw [hphase] at hsending; cases hsending
      | returned => rw [hphase] at hsending; cases hsending
      | raised => rw [hphase] at hsending; cases hsending
    · rw [step_other]
      · exact h b
      · intro heq hidle
        exact hstart ⟨heq, hidle⟩
      · intro ok heq
        cases hs : (m.broadcasts b).phase.isSending with
        | false => rfl
        | true => exact absurd ⟨ok, heq, hs⟩ hresume

/-! ## Whole runs -/

theorem tracked_start {m : ConnectionManager ι Ws} {b : ι}
    (hfresh : (m.broadcasts b).phase = .idle) {ws : Ws} (hmem : ws ∈ m.connections.members) :
    Tracked (m.step (.start b)) b ws := by
  obtain ⟨i, hi⟩ := SlotSet.mem_members.mp hmem
  unfold ConnectionManager.step
  simp only [hfresh]
  exact tracked_next rfl hi (.inl ⟨Nat.zero_le i, rfl⟩)

/-- In every run whose steps leave suspended broadcasts undisturbed no broadcast
raises, and one that has returned has made exactly one send to each connection
that was registered from its start on. -/
theorem broadcast_exactly_once (before after : List (Action ι Ws)) (b : ι)
    (hfresh : ((run step ({} : ConnectionManager ι Ws) before).broadcasts b).phase = .idle)
    (hu : Along step Undisturbed ({} : ConnectionManager ι Ws) (before ++ .start b :: after)) :
    (∀ b', ((run step ({} : ConnectionManager ι Ws) (before ++ .start b :: after)).broadcasts
      b').phase ≠ .raised) ∧
    (((run step ({} : ConnectionManager ι Ws) (before ++ .start b :: after)).broadcasts b).phase =
        .returned →
      ∀ ws, Throughout step (fun m => ws ∈ m.connections.members)
          (run step ({} : ConnectionManager ι Ws) before) (.start b :: after) →
        ∃ ok, sendsTo ws ((run step ({} : ConnectionManager ι Ws)
          (before ++ .start b :: after)).broadcasts b).sends = [(ws, ok)]) := by
  constructor
  · exact Along.invariant (I := fun m : ConnectionManager ι Ws =>
      ∀ b', (m.broadcasts b').phase ≠ .raised) (fun m a h hu => not_raised_step h hu) hu nofun
  · intro hreturned ws hstays
    rw [run_append, run_cons] at hreturned ⊢
    have hafter := (Along.append.mp hu).2.2
    have htracked : Tracked (run step ((run step ({} : ConnectionManager ι Ws) before).step
        (.start b)) after) b ws := by
      refine Along.invariant (I := fun m => Tracked m b ws) ?_ (hafter.and hstays.2.along)
        (tracked_start hfresh hstays.1)
      intro m a h hstep
      exact h.step hstep.1 hstep.2
    cases htracked with
    | ahead _ _ _ _ _ phase => rw [hreturned] at phase; cases phase
    | now _ _ _ phase => rw [hreturned] at phase; cases phase
    | past _ _ _ _ _ phase => rw [hreturned] at phase; cases phase
    | returned _ ok once => exact ⟨ok, once⟩

end

/-! ## Two connections -/

/-- Two clients connect. -/
def bothConnect : List (Action (Fin 1) String) :=
  [.connect "a" (.slot 0), .connect "b" (.slot 1)]

/-- The two sends of a broadcast, both successful. -/
def bothSend : List (Action (Fin 1) String) := [.resume 0 true, .resume 0 true]

/-- A third client connects during the send to the first. -/
def connectDuringSend : List (Action (Fin 1) String) :=
  [.connect "c" (.slot 2), .resume 0 true]

theorem broadcast_exactly_once_quiet :
    ∃ ok, sendsTo "b" ((run ConnectionManager.step ({} : ConnectionManager (Fin 1) String)
      (bothConnect ++ .start 0 :: bothSend)).broadcasts 0).sends = [("b", ok)] :=
  (broadcast_exactly_once bothConnect bothSend 0 (by decide) (by decide)).2 (by decide) "b"
    (by decide)

/-- The iteration raises, and the second client, registered throughout, is
never sent to. -/
theorem broadcast_raises_on_connect :
    ((run ConnectionManager.step ({} : ConnectionManager (Fin 1) String)
      (bothConnect ++ .start 0 :: connectDuringSend)).broadcasts 0).phase = .raised ∧
    Throughout ConnectionManager.step (fun m => "b" ∈ m.connections.members)
      (run ConnectionManager.step ({} : ConnectionManager (Fin 1) String) bothConnect)
      (.start 0 :: connectDuringSend) ∧
    sendsTo "b" ((run ConnectionManager.step ({} : ConnectionManager (Fin 1) String)
      (bothConnect ++ .start 0 :: connectDuringSend)).broadcasts 0).sends = [] := by
  decide

end VaultWatch.Agents
