import Mathlib.Data.List.Basic
import Mathlib.Data.List.Induction
import Mathlib.Data.List.Forall2

/-! Chains of linked entries: every entry is checked against the value its
predecessor hands on and its own position. `link n h e` says the entry `e` may
stand at position `n` after `h`, and `out e` is what it hands on. -/
namespace VaultWatch.Lib.HashChain

variable {E H : Type*} (link : Nat → H → E → Prop) (out : E → H)

/-- Every entry is linked, the first of them at position `n` after `h`. -/
def Chain : Nat → H → List E → Prop
  | _, _, [] => True
  | n, h, e :: es => link n h e ∧ Chain (n + 1) (out e) es

/-- What the next entry is linked to. -/
def tip (h : H) : List E → H
  | [] => h
  | e :: es => tip (out e) es

@[simp] theorem tip_nil (h : H) : tip out h [] = h := rfl

@[simp] theorem tip_append (h : H) (es fs : List E) :
    tip out h (es ++ fs) = tip out (tip out h es) fs := by
  induction es generalizing h with
  | nil => rfl
  | cons e es ih => exact ih (out e)

theorem tip_eq_getLast (h : H) (es : List E) : tip out h es = (es.getLast?.map out).getD h := by
  induction es using List.reverseRecOn with
  | nil => rfl
  | append_singleton es e _ => simp [tip]

theorem tip_congr {h : H} {es fs : List E} (hf : es.map out = fs.map out) :
    tip out h es = tip out h fs := by
  rw [tip_eq_getLast, tip_eq_getLast, ← List.getLast?_map, ← List.getLast?_map, hf]

/-- A chain is continued exactly by a chain from its tip. -/
theorem chain_append {n : Nat} {h : H} {es fs : List E} :
    Chain link out n h (es ++ fs) ↔
      Chain link out n h es ∧ Chain link out (n + es.length) (tip out h es) fs := by
  induction es generalizing n h with
  | nil => simp [Chain]
  | cons e es ih =>
    simp only [List.cons_append, Chain, tip, List.length_cons, ih, and_assoc]
    rw [show n + 1 + es.length = n + (es.length + 1) by omega]

theorem chain_snoc {n : Nat} {h : H} {es : List E} {e : E} :
    Chain link out n h (es ++ [e]) ↔
      Chain link out n h es ∧ link (n + es.length) (tip out h es) e := by
  rw [chain_append]
  simp [Chain]

/-- Each entry of a chain is linked to the tip of those before it. -/
theorem Chain.getElem {n : Nat} {h : H} {es : List E} (hc : Chain link out n h es)
    (i : Nat) (hi : i < es.length) : link (n + i) (tip out h (es.take i)) es[i] := by
  have hsplit : es = es.take i ++ (es[i] :: es.drop (i + 1)) := by
    rw [← List.drop_eq_getElem_cons hi, List.take_append_drop]
  rw [hsplit, chain_append] at hc
  have hlen : (es.take i).length = i := List.length_take_of_le (Nat.le_of_lt hi)
  rw [hlen] at hc
  exact hc.2.1

/-- Two chains that hand on the same values are linked, entry by entry, to the
same value at the same position. -/
theorem Chain.zip {n : Nat} {h : H} {es fs : List E} (he : Chain link out n h es)
    (hf : Chain link out n h fs) (hout : es.map out = fs.map out) {R : E → E → Prop}
    (hR : ∀ n h, ∀ e ∈ es, ∀ f ∈ fs, link n h e → link n h f → out e = out f → R e f) :
    List.Forall₂ R es fs := by
  induction es generalizing n h fs with
  | nil =>
    cases fs with
    | nil => exact .nil
    | cons f fs => simp at hout
  | cons e es ih =>
    cases fs with
    | nil => simp at hout
    | cons f fs =>
      simp only [List.map_cons, List.cons.injEq] at hout
      obtain ⟨hhead, htail⟩ := hout
      have hfs := hf.2
      rw [← hhead] at hfs
      refine .cons (hR n h e List.mem_cons_self f List.mem_cons_self he.1 hf.1 hhead) ?_
      apply ih he.2 hfs htail
      intro n h e he f hf
      exact hR n h e (List.mem_cons_of_mem _ he) f (List.mem_cons_of_mem _ hf)

/-- Entries that hand on the same and are linked wherever their counterparts
are form a chain when these do. -/
theorem Chain.transfer {n : Nat} {h : H} {es fs : List E} {R : E → E → Prop}
    (hf : Chain link out n h fs) (hR : List.Forall₂ R es fs)
    (hlink : ∀ n h e f, R e f → link n h f → link n h e) (hout : ∀ e f, R e f → out e = out f) :
    Chain link out n h es := by
  induction hR generalizing n h with
  | nil => trivial
  | cons hef _ ih =>
    refine ⟨hlink n h _ _ hef hf.1, ?_⟩
    rw [hout _ _ hef]
    exact ih hf.2

end VaultWatch.Lib.HashChain
