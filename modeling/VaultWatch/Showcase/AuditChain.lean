import VaultWatch.Lib.HashChain
import VaultWatch.Lib.Interleave

/-! The audit chain of the showcase (`dashboard-web/src/lib/audit.ts`), held in
one module-level array. `appendAuditEntry` runs to its `await` in one piece and
from there to its end in another, so it is a program of two operations; other
calls run between them. `verifyAuditChain` is modelled where no append is under
way, as one pass over the array. -/
namespace VaultWatch.Showcase

open VaultWatch.Lib.HashChain VaultWatch.Lib.Interleave

structure AuditEntry (V : Type) where
  seq : Nat
  timestamp : String
  eventType : String
  subjectId : String
  payload : V
  prevHash : String
  hash : String
  deriving DecidableEq

structure VerifyResult where
  valid : Bool
  entriesChecked : Nat
  firstBrokenSeq : Option Nat
  deriving DecidableEq

/-- `crypto.subtle.digest` in hex and `JSON.stringify`. -/
structure Runtime (V : Type) where
  sha256Hex : String → String
  stringify : V → String

/-- The arguments of one `appendAuditEntry`. -/
structure AppendCall (V : Type) where
  eventType : String
  subjectId : String
  payload : V

variable {V : Type}

def GENESIS_HASH : String := String.ofList (List.replicate 70 '0')

def computeHash (r : Runtime V) (seq : Nat) (timestamp eventType subjectId : String) (payload : V)
    (prevHash : String) : String :=
  r.sha256Hex (prevHash ++ "|" ++ toString seq ++ "|" ++ timestamp ++ "|" ++ eventType ++ "|" ++
    subjectId ++ "|" ++ r.stringify payload)

def AuditEntry.recomputed (r : Runtime V) (e : AuditEntry V) : String :=
  computeHash r e.seq e.timestamp e.eventType e.subjectId e.payload e.prevHash

/-- The entry of a call that found `entries` in the array. -/
def newEntry (r : Runtime V) (call : AppendCall V) (entries : List (AuditEntry V))
    (timestamp : String) : AuditEntry V :=
  let seq := entries.length + 1
  let prevHash := (entries.getLast?.map AuditEntry.hash).getD GENESIS_HASH
  { seq, timestamp, eventType := call.eventType, subjectId := call.subjectId,
    payload := call.payload, prevHash,
    hash := computeHash r seq timestamp call.eventType call.subjectId call.payload prevHash }

/-- What runs without suspension: the code before the `await`, which reads the
array and the clock, and the code behind it, which pushes. -/
inductive ChainOp (V : Type)
  | start
  | push (entry : AuditEntry V)

@[reducible] def ChainRes : ChainOp V → Type
  | .start => List (AuditEntry V) × String
  | .push _ => Unit

abbrev AppendProg (V : Type) := Prog (ChainOp V) ChainRes

def appendAuditEntry (r : Runtime V) (call : AppendCall V) : AppendProg V (AuditEntry V) := do
  let (entries, timestamp) ← Prog.op ChainOp.start
  let entry := newEntry r call entries timestamp  -- the digest is awaited here
  Prog.op (ChainOp.push entry)
  return entry

/-- One operation on the array, at a clock reading. -/
def handle (now : String) : (o : ChainOp V) → List (AuditEntry V) →
    ChainRes o × List (AuditEntry V)
  | .start, entries => ((entries, now), entries)
  | .push entry, entries => ((), entries ++ [entry])

/-- The loop of `verifyAuditChain`. -/
def verifyFrom (r : Runtime V) (total : Nat) : String → List (AuditEntry V) → VerifyResult
  | _, [] => { valid := true, entriesChecked := total, firstBrokenSeq := none }
  | expectedPrev, entry :: rest =>
    if entry.prevHash ≠ expectedPrev ∨ entry.recomputed r ≠ entry.hash then
      { valid := false, entriesChecked := entry.seq, firstBrokenSeq := some entry.seq }
    else verifyFrom r total entry.hash rest

def verifyAuditChain (r : Runtime V) (entries : List (AuditEntry V)) : VerifyResult :=
  verifyFrom r entries.length GENESIS_HASH entries

/-- An entry at position `n` (from 1) after `prev`. -/
def Linked (r : Runtime V) (n : Nat) (prev : String) (e : AuditEntry V) : Prop :=
  e.seq = n ∧ e.prevHash = prev ∧ e.recomputed r = e.hash

theorem newEntry_linked (r : Runtime V) (call : AppendCall V) (entries : List (AuditEntry V))
    (timestamp : String) :
    Linked r (1 + entries.length) (tip AuditEntry.hash GENESIS_HASH entries)
      (newEntry r call entries timestamp) := by
  refine ⟨?_, ?_, rfl⟩
  · show entries.length + 1 = 1 + entries.length
    omega
  · rw [tip_eq_getLast]
    rfl

theorem verifyFrom_of_chain {r : Runtime V} {total n : Nat} {prev : String}
    {entries : List (AuditEntry V)} (h : Chain (Linked r) AuditEntry.hash n prev entries) :
    verifyFrom r total prev entries = ⟨true, total, none⟩ := by
  induction entries generalizing n prev with
  | nil => rfl
  | cons e es ih =>
    obtain ⟨⟨_, hprev, hhash⟩, hrest⟩ := h
    unfold verifyFrom
    rw [if_neg (by simp [hprev, hhash])]
    exact ih hrest

end VaultWatch.Showcase
