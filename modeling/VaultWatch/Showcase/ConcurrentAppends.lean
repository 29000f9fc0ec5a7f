import VaultWatch.Showcase.AuditChain
import VaultWatch.Lib.Text
import Mathlib.Data.Fintype.Card

/-! Any number of `appendAuditEntry` calls on one array. The number and the
link of an entry are read before the `await` and the entry is pushed behind it,
so the chain comes out right exactly in the runs in which no call starts while
another is suspended. -/
namespace VaultWatch.Showcase

open VaultWatch.Lib.HashChain VaultWatch.Lib.Interleave VaultWatch.Lib.Run

variable {V ι : Type} [DecidableEq ι]

abbrev Appends (V ι : Type) := Pool ι (List (AuditEntry V)) (ChainOp V) ChainRes (AuditEntry V)

/-- The calls, none of them started, on the empty array. -/
def appending (r : Runtime V) (calls : ι → AppendCall V) : Appends V ι :=
  Pool.start [] fun i => appendAuditEntry r (calls i)

/-- The entry a suspended call is going to push. -/
def pendingEntry : AppendProg V (AuditEntry V) → Option (AuditEntry V)
  | .call (.push e) _ => some e
  | _ => none

def Pending (p : Appends V ι) (i : ι) : Option (AuditEntry V) := pendingEntry (p.threads i).todo

def Finished (p : Appends V ι) (i : ι) : Prop := (p.threads i).todo.result?.isSome

instance (p : Appends V ι) (i : ι) : Decidable (Finished p i) :=
  inferInstanceAs (Decidable (_ = true))

/-- No call is suspended where a call starts. -/
def NoneSuspended (p : Appends V ι) (_ : String) : ChainOp V → Prop
  | .start => ∀ i, Pending p i = none
  | .push _ => True

omit [DecidableEq ι] in
instance [Fintype ι] [DecidableEq V] (p : Appends V ι) (now : String) :
    ∀ o, Decidable (NoneSuspended p now o)
  | .start => inferInstanceAs (Decidable (∀ i, Pending p i = none))
  | .push _ => isTrue trivial

/-- What a step of call `i` does: nothing once the call has returned; before the
`await` it only reads; behind it, it pushes the entry it was suspended with. -/
inductive Effect (r : Runtime V) (calls : ι → AppendCall V) (p q : Appends V ι) (i : ι)
    (now : String) : Prop
  | stays (same : q = p) (finished : Finished p i)
  | starts (at_start : ∃ k, (p.threads i).todo = .call .start k)
      (shared : q.shared = p.shared)
      (pending : Pending q = Function.update (Pending p) i
        (some (newEntry r (calls i) p.shared now)))
      (finished : ∀ j, Finished q j ↔ Finished p j)
  | pushes (e : AuditEntry V) (was : Pending p i = some e)
      (shared : q.shared = p.shared ++ [e])
      (pending : Pending q = Function.update (Pending p) i none)
      (fresh : ¬ Finished p i) (finished : ∀ j, Finished q j ↔ Finished p j ∨ j = i)

omit [DecidableEq ι] in
/-- A call is at its start, suspended with its entry, or finished. -/
theorem append_phases (r : Runtime V) (call : AppendCall V) {q : AppendProg V (AuditEntry V)}
    {done : List (Prog.Done (ChainOp V) ChainRes)}
    (h : (appendAuditEntry r call).Past done q) :
    q = appendAuditEntry r call ∨
      (∃ e, q = .call (.push e) fun _ => .ret e) ∨ ∃ e, q = .ret e := by
  let I : List (Prog.Done (ChainOp V) ChainRes) → AppendProg V (AuditEntry V) → Prop := fun _ q =>
    q = appendAuditEntry r call ∨ (∃ e, q = .call (.push e) fun _ => .ret e) ∨ ∃ e, q = .ret e
  have hall : (appendAuditEntry r call).Always I [] :=
    ⟨.inl rfl, fun a => ⟨.inr (.inl ⟨_, rfl⟩), fun _ => .inr (.inr ⟨_, rfl⟩)⟩⟩
  exact hall.past h

variable {r : Runtime V} {calls : ι → AppendCall V}

omit r calls in
theorem pending_update (p : Appends V ι) (entries : List (AuditEntry V)) (i : ι)
    (t : Thread (ChainOp V) ChainRes (AuditEntry V)) :
    Pending (⟨entries, Function.update p.threads i t⟩ : Appends V ι) =
      Function.update (Pending p) i (pendingEntry t.todo) := by
  funext j
  by_cases hj : j = i
  · subst hj
    simp [Pending]
  · simp [Pending, hj]

omit r calls in
/-- Who is suspended after a step of call `i`. -/
theorem pending_cases {p q : Appends V ι} {i j : ι} {own : Option (AuditEntry V)}
    {e : AuditEntry V} (pending : Pending q = Function.update (Pending p) i own)
    (he : Pending q j = some e) : (j = i ∧ own = some e) ∨ (j ≠ i ∧ Pending p j = some e) := by
  rw [pending] at he
  by_cases hj : j = i
  · subst hj
    rw [Function.update_self] at he
    exact .inl ⟨rfl, he⟩
  · rw [Function.update_of_ne hj] at he
    exact .inr ⟨hj, he⟩

omit r calls in
theorem finished_update (p : Appends V ι) (entries : List (AuditEntry V)) (i j : ι)
    (t : Thread (ChainOp V) ChainRes (AuditEntry V)) :
    Finished (⟨entries, Function.update p.threads i t⟩ : Appends V ι) j ↔
      if j = i then (t.todo.result?.isSome : Prop) else Finished p j := by
  by_cases hj : j = i
  · subst hj
    simp [Finished]
  · simp [Finished, hj]

theorem step_effect {p : Appends V ι} (hp : p.Reached fun i => appendAuditEntry r (calls i))
    (i : ι) (now : String) : Effect r calls p (p.step handle (i, now)) i now := by
  rcases append_phases r (calls i) (hp i) with hstart | ⟨e, hpush⟩ | ⟨e, hret⟩
  · have hq : p.step handle (i, now) = ⟨p.shared, Function.update p.threads i
        { todo := .call (.push (newEntry r (calls i) p.shared now)) fun _ =>
            .ret (newEntry r (calls i) p.shared now)
          done := (p.threads i).done ++ [⟨.start, (p.shared, now)⟩] }⟩ := by
      unfold Pool.step
      simp only [hstart]
      rfl
    have hnot : ¬ Finished p i := by
      unfold Finished
      rw [hstart]
      intro hret
      cases hret
    rw [hq]
    refine .starts ⟨_, hstart⟩ rfl (pending_update ..) ?_
    intro j
    rw [finished_update]
    split
    · next hj =>
      subst hj
      simpa [Prog.result?] using hnot
    · rfl
  · have hq : p.step handle (i, now) = ⟨p.shared ++ [e], Function.update p.threads i
        { todo := .ret e, done := (p.threads i).done ++ [⟨.push e, ()⟩] }⟩ := by
      unfold Pool.step
      simp only [hpush]
      rfl
    rw [hq]
    refine .pushes e ?_ rfl (pending_update ..) ?_ ?_
    · unfold Pending
      rw [hpush]
      rfl
    · unfold Finished
      rw [hpush]
      intro hret
      cases hret
    · intro j
      rw [finished_update]
      split
      · next hj => simp [Prog.result?, hj]
      · next hj => simp [hj]
  · refine .stays ?_ ?_
    · unfold Pool.step
      simp only [hret]
    · unfold Finished
      rw [hret]
      rfl

/-! ## No call starts while another is suspended -/

/-- The array is a chain of one entry for each finished call, and the one
suspended call, if any, has the entry that comes next. -/
structure Serial [Fintype ι] (r : Runtime V) (p : Appends V ι) : Prop where
  chain : Chain (Linked r) AuditEntry.hash 1 GENESIS_HASH p.shared
  next : ∀ i e, Pending p i = some e →
    Linked r (1 + p.shared.length) (tip AuditEntry.hash GENESIS_HASH p.shared) e
  single : ∀ i j e f, Pending p i = some e → Pending p j = some f → i = j
  count : p.shared.length = (Finset.univ.filter (Finished p)).card

omit [DecidableEq ι] in
theorem Serial.start [Fintype ι] : Serial r (appending r calls) where
  chain := trivial
  next _ _ h := nomatch h
  single _ _ _ _ h := nomatch h
  count := by
    have hnone : Finset.univ.filter (Finished (appending r calls)) = ∅ := by
      rw [Finset.filter_eq_empty_iff]
      intro i _ h
      nomatch h
    rw [hnone]
    rfl

theorem Serial.step [Fintype ι] {p : Appends V ι}
    (hp : p.Reached fun i => appendAuditEntry r (calls i)) (h : Serial r p) (l : ι × String)
    (hg : p.Guarded NoneSuspended l) : Serial r (p.step handle l) := by
  obtain ⟨i, now⟩ := l
  cases step_effect hp i now with
  | stays same _ => rwa [same]
  | starts at_start shared pending finished =>
    obtain ⟨k, hk⟩ := at_start
    have hnone : ∀ j, Pending p j = none := by
      simpa [Pool.Guarded, hk, NoneSuspended] using hg
    have honly : ∀ j e, Pending (p.step handle (i, now)) j = some e →
        j = i ∧ e = newEntry r (calls i) p.shared now := by
      intro j e he
      rcases pending_cases pending he with ⟨own, same⟩ | ⟨_, before⟩
      · exact ⟨own, (Option.some.inj same).symm⟩
      · rw [hnone j] at before
        cases before
    constructor
    · rw [shared]
      exact h.chain
    · intro j e he
      obtain ⟨rfl, rfl⟩ := honly j e he
      rw [shared]
      exact newEntry_linked r _ _ _
    · intro j j' e f he hf
      rw [(honly j e he).1, (honly j' f hf).1]
    · rw [shared, h.count]
      exact congrArg Finset.card (Finset.filter_congr fun j _ => (finished j).symm)
  | pushes e was shared pending fresh finished =>
    have hnone : ∀ j f, Pending (p.step handle (i, now)) j ≠ some f := by
      intro j f hf
      rcases pending_cases pending hf with ⟨_, same⟩ | ⟨hj, before⟩
      · cases same
      · exact hj (h.single j i f e before was)
    constructor
    · rw [shared]
      exact (chain_snoc _ _).mpr ⟨h.chain, h.next i e was⟩
    · intro j f hf
      exact absurd hf (hnone j f)
    · intro j _ f _ hf
      exact absurd hf (hnone j f)
    · have hset : Finset.univ.filter (Finished (p.step handle (i, now))) =
          insert i (Finset.univ.filter (Finished p)) := by
        ext j
        simp [finished, or_comm]
      rw [shared, hset, Finset.card_insert_of_notMem (by simpa using fresh), ← h.count]
      simp

/-! ## A call that starts while another is suspended -/

/-- An entry has the wrong number, or a suspended call is bound to push one, or
two calls are suspended at once. -/
inductive Doomed (p : Appends V ι) : Prop
  | misnumbered (n : Nat) (e : AuditEntry V) (at_n : p.shared[n]? = some e) (ne : e.seq ≠ n + 1)
  | stale (i : ι) (e : AuditEntry V) (pending : Pending p i = some e)
      (passed : e.seq ≤ p.shared.length)
  | both (i j : ι) (e f : AuditEntry V) (ne : i ≠ j) (hi : Pending p i = some e)
      (hj : Pending p j = some f)

/-- No suspended call is ahead of the array. -/
def NoneAhead (p : Appends V ι) : Prop :=
  ∀ i e, Pending p i = some e → e.seq ≤ p.shared.length + 1

theorem NoneAhead.step {p : Appends V ι}
    (hp : p.Reached fun i => appendAuditEntry r (calls i)) (h : NoneAhead p) (l : ι × String) :
    NoneAhead (p.step handle l) := by
  obtain ⟨i, now⟩ := l
  intro j f hf
  cases step_effect hp i now with
  | stays same _ =>
    rw [same] at hf ⊢
    exact h j f hf
  | starts at_start shared pending finished =>
    rw [shared]
    rcases pending_cases pending hf with ⟨_, same⟩ | ⟨_, before⟩
    · obtain rfl := Option.some.inj same
      exact Nat.le_refl _
    · exact h j f before
  | pushes e was shared pending fresh finished =>
    rw [shared, List.length_append]
    rcases pending_cases pending hf with ⟨_, same⟩ | ⟨_, before⟩
    · cases same
    · exact (h j f before).trans (Nat.le_add_right _ _)

/-- Nothing mends a doomed run: a wrong number stays in the array, a stale call
pushes one, and of two suspended calls one pushes and leaves the other stale. -/
theorem Doomed.step {p : Appends V ι} (hp : p.Reached fun i => appendAuditEntry r (calls i))
    (ha : NoneAhead p) (h : Doomed p) (l : ι × String) : Doomed (p.step handle l) := by
  obtain ⟨i, now⟩ := l
  cases step_effect hp i now with
  | stays same _ => rwa [same]
  | starts at_start shared pending finished =>
    obtain ⟨k, hk⟩ := at_start
    have hkept : ∀ j e, Pending p j = some e →
        Pending (p.step handle (i, now)) j = some e := by
      intro j e he
      have hj : j ≠ i := by
        intro same
        subst same
        rw [Pending, hk] at he
        cases he
      rw [pending, Function.update_of_ne hj]
      exact he
    cases h with
    | misnumbered n e at_n ne => exact .misnumbered n e (by rw [shared]; exact at_n) ne
    | stale j e hj passed => exact .stale j e (hkept j e hj) (by rw [shared]; exact passed)
    | both j j' e f ne hj hj' => exact .both j j' e f ne (hkept j e hj) (hkept j' f hj')
  | pushes e was shared pending fresh finished =>
    have hkept : ∀ j f, j ≠ i → Pending p j = some f →
        Pending (p.step handle (i, now)) j = some f := by
      intro j f hj hf
      rw [pending, Function.update_of_ne hj]
      exact hf
    have hlen : (p.step handle (i, now)).shared.length = p.shared.length + 1 := by
      rw [shared]
      simp
    -- the other of two suspended calls is stale behind this push
    have hother : ∀ j f, j ≠ i → Pending p j = some f → Doomed (p.step handle (i, now)) := by
      intro j f hj hf
      refine .stale j f (hkept j f hj hf) ?_
      rw [hlen]
      exact ha j f hf
    cases h with
    | misnumbered n f at_n ne =>
      refine .misnumbered n f ?_ ne
      rw [shared]
      exact List.getElem?_append_left (List.getElem?_eq_some_iff.mp at_n).1 ▸ at_n
    | stale j f hj passed =>
      by_cases hji : j = i
      · subst hji
        obtain rfl := Option.some.inj (was.symm.trans hj)
        refine .misnumbered p.shared.length e ?_ (by omega)
        rw [shared]
        simp
      · exact hother j f hji hj
    | both j j' f f' ne hj hj' =>
      by_cases hji : j = i
      · exact hother j' f' (fun h => ne (hji.trans h.symm)) hj'
      · exact hother j f hji hj

/-- A call started while another is suspended dooms the run. -/
theorem doomed_of_start {p : Appends V ι} (hp : p.Reached fun i => appendAuditEntry r (calls i))
    (l : ι × String) (hg : ¬ p.Guarded NoneSuspended l) : Doomed (p.step handle l) := by
  obtain ⟨i, now⟩ := l
  cases step_effect hp i now with
  | stays _ finished =>
    obtain ⟨e, he⟩ := Option.isSome_iff_exists.mp finished
    rw [Prog.result?_eq_some] at he
    exact absurd (by simp [Pool.Guarded, he]) hg
  | starts at_start shared pending finished =>
    obtain ⟨k, hk⟩ := at_start
    have hsome : ∃ j, Pending p j ≠ none := by
      by_contra hnone
      apply hg
      simpa [Pool.Guarded, hk, NoneSuspended] using hnone
    obtain ⟨j, hj⟩ := hsome
    obtain ⟨e, he⟩ := Option.ne_none_iff_exists'.mp hj
    have hji : j ≠ i := by
      intro same
      subst same
      rw [Pending, hk] at he
      cases he
    refine .both j i e (newEntry r (calls i) p.shared now) hji ?_ ?_
    · rw [pending, Function.update_of_ne hji]
      exact he
    · rw [pending, Function.update_self]
  | pushes e was shared pending fresh finished =>
    have hk : ∃ k, (p.threads i).todo = .call (.push e) k := by
      unfold Pending pendingEntry at was
      split at was
      · next e' k hk =>
        obtain rfl := Option.some.inj was
        exact ⟨k, hk⟩
      · cases was
    obtain ⟨k, hk⟩ := hk
    exact absurd (by simp [Pool.Guarded, hk, NoneSuspended]) hg

theorem doomed_of_not_along {p : Appends V ι} {schedule : List (ι × String)}
    (hp : p.Reached fun i => appendAuditEntry r (calls i)) (ha : NoneAhead p)
    (h : ¬ Along (Pool.step handle) (Pool.Guarded NoneSuspended) p schedule) :
    Doomed (p.run handle schedule) := by
  induction schedule generalizing p with
  | nil => exact absurd trivial h
  | cons l schedule ih =>
    by_cases hg : p.Guarded NoneSuspended l
    · apply ih (hp.step handle l) (ha.step hp l)
      intro hrest
      exact h ⟨hg, hrest⟩
    · have hkeep : ∀ (q : Appends V ι) (l : ι × String),
          (q.Reached fun i => appendAuditEntry r (calls i)) ∧ NoneAhead q ∧ Doomed q →
          ((q.step handle l).Reached fun i => appendAuditEntry r (calls i)) ∧
            NoneAhead (q.step handle l) ∧ Doomed (q.step handle l) := by
        intro q l hkept
        obtain ⟨hq, haq, hd⟩ := hkept
        exact ⟨hq.step handle l, haq.step hq l, hd.step hq haq l⟩
      exact (Lib.Run.invariant hkeep schedule
        ⟨hp.step handle l, ha.step hp l, doomed_of_start hp l hg⟩).2.2

/-! ## The chain at the end -/

/-- What the array is to hold after `n` appends: entries numbered from 1 in
order, each linked to its predecessor, and a chain that verifies. -/
structure InOrder (r : Runtime V) (n : Nat) (entries : List (AuditEntry V)) : Prop where
  length : entries.length = n
  seq : ∀ (k : Nat) (e : AuditEntry V), entries[k]? = some e → e.seq = k + 1
  first : ∀ e : AuditEntry V, entries[0]? = some e → e.prevHash = GENESIS_HASH
  prevHash : ∀ (k : Nat) (e f : AuditEntry V), entries[k]? = some e → entries[k + 1]? = some f →
    f.prevHash = e.hash
  verify : verifyAuditChain r entries = ⟨true, n, none⟩

omit [DecidableEq ι] calls in
theorem inOrder_of_chain {entries : List (AuditEntry V)}
    (h : Chain (Linked r) AuditEntry.hash 1 GENESIS_HASH entries) :
    InOrder r entries.length entries := by
  have hlinked : ∀ (k : Nat) (e : AuditEntry V), entries[k]? = some e →
      Linked r (1 + k) (tip AuditEntry.hash GENESIS_HASH (entries.take k)) e := by
    intro k e hk
    obtain ⟨hlt, rfl⟩ := List.getElem?_eq_some_iff.mp hk
    exact h.getElem _ _ k hlt
  refine ⟨rfl, ?_, ?_, ?_, verifyFrom_of_chain h⟩
  · intro k e hk
    rw [(hlinked k e hk).1, Nat.add_comm]
  · intro e h0
    exact (hlinked 0 e h0).2.1
  · intro k e f hk hk'
    obtain ⟨hlt, rfl⟩ := List.getElem?_eq_some_iff.mp hk
    rw [(hlinked (k + 1) f hk').2.1, tip_eq_getLast, List.getLast?_take]
    simp [hlt]

/-- After all calls have finished the array is in order if and only if no call
started while another was suspended at its `await`. -/
theorem appends_in_order_iff [Fintype ι] (r : Runtime V) (calls : ι → AppendCall V)
    (schedule : List (ι × String))
    (hdone : ∀ i, Finished ((appending r calls).run handle schedule) i) :
    InOrder r (Fintype.card ι) ((appending r calls).run handle schedule).shared ↔
      Along (Pool.step handle) (Pool.Guarded NoneSuspended) (appending r calls) schedule := by
  have hreach : (appending r calls).Reached fun i => appendAuditEntry r (calls i) :=
    Pool.reached_start _ _
  constructor
  · intro hok
    by_contra hnot
    have hnone : ∀ i e, Pending ((appending r calls).run handle schedule) i ≠ some e := by
      intro i e he
      obtain ⟨a, ha⟩ := Option.isSome_iff_exists.mp (hdone i)
      rw [Prog.result?_eq_some] at ha
      rw [Pending, ha] at he
      cases he
    have hahead : NoneAhead (appending r calls) := nofun
    cases doomed_of_not_along hreach hahead hnot with
    | misnumbered n e at_n ne => exact ne (hok.seq n e at_n)
    | stale i e pending _ => exact hnone i e pending
    | both i j e f _ hi _ => exact hnone i e hi
  · intro h
    have hserial : ((appending r calls).run handle schedule).Reached
        (fun i => appendAuditEntry r (calls i)) ∧
        Serial r ((appending r calls).run handle schedule) := by
      refine Along.invariant (I := fun q : Appends V ι =>
        (q.Reached fun i => appendAuditEntry r (calls i)) ∧ Serial r q) ?_ h ⟨hreach, .start⟩
      intro q l hkept hg
      obtain ⟨hq, hs⟩ := hkept
      exact ⟨hq.step handle l, hs.step hq l hg⟩
    have hall : Finset.univ.filter (Finished ((appending r calls).run handle schedule)) =
        Finset.univ := by
      rw [Finset.filter_eq_self]
      intro i _
      exact hdone i
    have hcount : ((appending r calls).run handle schedule).shared.length = Fintype.card ι := by
      rw [hserial.2.count, hall, Finset.card_univ]
    rw [← hcount]
    exact inOrder_of_chain hserial.2.chain

/-! ## Two calls -/

/-- SHA-256 in hex, of the entries of the runs below. -/
def sampleSha256Hex (material : String) : String :=
  if material = GENESIS_HASH ++ "|1|2026-03-01T12:00:00.000Z|case.opened|acct_1|\"tx_1\"" then
    "dc1893a96f9f72431bc9d989cb13ecd9c2ea8d31de1a57b27afe63848c535cb7"
  else if material = "dc1893a96f9f72431bc9d989cb13ecd9c2ea8d31de1a57b27afe63848c535cb7" ++
      "|2|2026-03-01T12:00:00.000Z|case.opened|acct_2|\"tx_2\"" then
    "77f1bdeb1f90a28274082de5dbec317fa6695c799db4d59d36ad0b341a2409d6"
  else if material = GENESIS_HASH ++
      "|1|2026-03-01T12:00:00.000Z|case.opened|acct_2|\"tx_2\"" then
    "70d4ed5c29449ef99e9510df2e3cd43afe6db3b177d94af6206667826b06939c"
  else material

/-- Payloads that are JSON strings. -/
def sampleRuntime : Runtime String := ⟨sampleSha256Hex, Lib.Text.quote⟩

def sampleCalls (i : Fin 2) : AppendCall String :=
  if i.val = 0 then ⟨"case.opened", "acct_1", "tx_1"⟩ else ⟨"case.opened", "acct_2", "tx_2"⟩

/-- Call `i` goes on, at one clock reading. -/
def resume (i : Fin 2) : Fin 2 × String := (i, "2026-03-01T12:00:00.000Z")

/-- One call after the other. -/
theorem appends_in_order_sequential :
    InOrder sampleRuntime 2 ((appending sampleRuntime sampleCalls).run handle
      [resume 0, resume 0, resume 1, resume 1]).shared :=
  (appends_in_order_iff sampleRuntime sampleCalls [resume 0, resume 0, resume 1, resume 1]
    (by decide)).mpr (by decide)

/-- Both calls start before either pushes: two entries numbered 1, and a chain
that does not verify. -/
theorem appends_overlap_breaks_chain :
    (∀ i, Finished ((appending sampleRuntime sampleCalls).run handle
      [resume 0, resume 1, resume 0, resume 1]) i) ∧
    (((appending sampleRuntime sampleCalls).run handle
      [resume 0, resume 1, resume 0, resume 1]).shared.map AuditEntry.seq = [1, 1]) ∧
    verifyAuditChain sampleRuntime ((appending sampleRuntime sampleCalls).run handle
      [resume 0, resume 1, resume 0, resume 1]).shared = ⟨false, 1, some 1⟩ := by
  refine ⟨by decide, by decide, ?_⟩
  decide +kernel

end VaultWatch.Showcase
