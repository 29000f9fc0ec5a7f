import VaultWatch.Agents.Models
import VaultWatch.Lib.Recents
import VaultWatch.Lib.Run
import Mathlib.Data.List.Nodup

/-! Case persistence (`agents-python/app/db.py`): the deque of a process without a
database, and the table `cases`. An `INSERT` is a transaction of its own: `now()` is
the time it began, the id comes from a sequence, and the row is there for others once
it commits, so the inserts of several connections interleave. -/
namespace VaultWatch.Agents

open VaultWatch.Lib VaultWatch.Lib.Run

structure CaseRecord where
  transactionId : String
  accountId : String
  result : Dict

def CaseRecord.asDict (record : CaseRecord) : Dict :=
  [("transaction_id", .str record.transactionId), ("account_id", .str record.accountId),
    ("result", .dict record.result)]

/-! ## In memory -/

/-- `deque(maxlen=capacity)`. -/
abbrev InMemoryCaseStore := Recents CaseRecord

namespace InMemoryCaseStore

def init (capacity : ℕ := 500) : InMemoryCaseStore := .empty capacity

def save (store : InMemoryCaseStore) (record : CaseRecord) : InMemoryCaseStore := store.push record

def recent (store : InMemoryCaseStore) (limit : ℕ := 50) : List CaseRecord :=
  Recents.recent store limit

def get (store : InMemoryCaseStore) (transactionId : String) : Option CaseRecord :=
  store.find fun row => row.transactionId = transactionId

/-- The store after these saves. -/
def saved (capacity : ℕ) (records : List CaseRecord) : InMemoryCaseStore :=
  records.foldl save (init capacity)

end InMemoryCaseStore

/-! ## In Postgres -/

/-- A row of `cases`. -/
structure CaseRow where
  id : ℕ
  createdAt : Time
  record : CaseRecord

/-- The insert of a connection: none, begun at a time, or its row written but not committed. -/
inductive Insert
  | idle
  | begun (createdAt : Time) (record : CaseRecord)
  | written (row : CaseRow)

/-- `rows` are the committed ones. -/
structure CaseTable (ι : Type) where
  nextId : ℕ := 1
  rows : List CaseRow := []
  inserts : ι → Insert := fun _ => .idle

/-- A step of the database for connection `c`. -/
inductive Statement (ι : Type)
  | start (c : ι) (now : Time) (record : CaseRecord)
  | write (c : ι)
  | commit (c : ι)
  | rollback (c : ι)

namespace CaseTable

variable {ι : Type} [DecidableEq ι]

def setInsert (table : CaseTable ι) (c : ι) (insert : Insert) : CaseTable ι :=
  { table with inserts := Function.update table.inserts c insert }

def step (table : CaseTable ι) : Statement ι → CaseTable ι
  | .start c now record =>
    match table.inserts c with
    | .idle => table.setInsert c (.begun now record)
    | _ => table
  | .write c =>
    match table.inserts c with
    | .begun createdAt record =>
      { table.setInsert c (.written ⟨table.nextId, createdAt, record⟩) with
        nextId := table.nextId + 1 }
    | _ => table
  | .commit c =>
    match table.inserts c with
    | .written row => { table.setInsert c .idle with rows := row :: table.rows }
    | _ => table
  | .rollback c => table.setInsert c .idle

/-- An insert into which no step of another connection falls. -/
def save (table : CaseTable ι) (c : ι) (now : Time) (record : CaseRecord) : CaseTable ι :=
  run step table [.start c now record, .write c, .commit c]

end CaseTable

/-- What `jsonb` makes of a result that goes in and comes out again. -/
abbrev Jsonb := Dict → Dict

def CaseRecord.reread (jsonb : Jsonb) (record : CaseRecord) : CaseRecord :=
  { record with result := jsonb record.result }

namespace PostgresCaseStore

variable {ι : Type} (jsonb : Jsonb) (table : CaseTable ι)

/-- `ORDER BY created_at DESC LIMIT limit`. -/
def recent (order : Descending CaseRow.createdAt) (limit : ℕ := 50) : List CaseRecord :=
  (order.limit limit table.rows).map (·.record.reread jsonb)

/-- `WHERE transaction_id = ... ORDER BY id DESC LIMIT 1`. -/
def get (order : Descending CaseRow.id) (transactionId : String) : Option CaseRecord :=
  (order.first (table.rows.filter fun row => row.record.transactionId = transactionId)).map
    (·.record.reread jsonb)

end PostgresCaseStore

/-! ## The rows, whatever the interleaving -/

/-- The row that an insert has written. -/
def Insert.row? : Insert → Option CaseRow
  | .written row => some row
  | _ => none

namespace CaseTable

variable {ι : Type}

/-- Every row, committed or not, has an id of its own, from the sequence. -/
structure Numbered (table : CaseTable ι) : Prop where
  issued : ∀ row ∈ table.rows, row.id < table.nextId
  distinct : (table.rows.map CaseRow.id).Nodup
  pending : ∀ c row, (table.inserts c).row? = some row →
    row.id < table.nextId ∧ ∀ other ∈ table.rows, other.id ≠ row.id
  apart : ∀ c d row row', (table.inserts c).row? = some row → (table.inserts d).row? = some row' →
    row.id = row'.id → c = d

theorem numbered_init : (({} : CaseTable ι)).Numbered where
  issued row mem := by cases mem
  distinct := List.nodup_nil
  pending c row found := by cases found
  apart c d row row' found := by cases found

variable [DecidableEq ι]

theorem row?_setInsert {table : CaseTable ι} {c d : ι} {insert : Insert} {row : CaseRow}
    (found : ((table.setInsert c insert).inserts d).row? = some row) :
    d = c ∧ insert.row? = some row ∨ d ≠ c ∧ (table.inserts d).row? = some row := by
  by_cases same : d = c
  · subst same
    left
    simp only [setInsert, Function.update_self] at found
    exact ⟨rfl, found⟩
  · right
    simp only [setInsert, Function.update_of_ne same] at found
    exact ⟨same, found⟩

/-- A connection that gives up its row, or never had one. -/
theorem Numbered.setInsert {table : CaseTable ι} (numbered : table.Numbered) (c : ι)
    {insert : Insert} (none : insert.row? = .none) : (table.setInsert c insert).Numbered := by
  have kept : ∀ d row, ((table.setInsert c insert).inserts d).row? = some row →
      (table.inserts d).row? = some row := by
    intro d row found
    obtain ⟨rfl, own⟩ | ⟨_, old⟩ := row?_setInsert found
    · rw [none] at own
      cases own
    · exact old
  exact {
    issued := numbered.issued
    distinct := numbered.distinct
    pending := fun d row found => numbered.pending d row (kept d row found)
    apart := fun d e row row' found found' =>
      numbered.apart d e row row' (kept d row found) (kept e row' found') }

theorem Numbered.write {table : CaseTable ι} (numbered : table.Numbered) (c : ι) (createdAt : Time)
    (record : CaseRecord) :
    ({ table.setInsert c (.written ⟨table.nextId, createdAt, record⟩) with
      nextId := table.nextId + 1 } : CaseTable ι).Numbered := by
  have old : ∀ {d row}, (table.inserts d).row? = some row → row.id < table.nextId :=
    fun found => (numbered.pending _ _ found).1
  constructor
  · exact fun row mem => Nat.lt_succ_of_lt (numbered.issued row mem)
  · exact numbered.distinct
  · intro d row found
    obtain ⟨_, own⟩ | ⟨_, other⟩ := row?_setInsert found
    · cases own
      exact ⟨Nat.lt_succ_self _, fun other mem => (numbered.issued other mem).ne⟩
    · obtain ⟨below, fresh⟩ := numbered.pending d row other
      exact ⟨Nat.lt_succ_of_lt below, fresh⟩
  · intro d e row row' found found' same
    obtain ⟨rfl, own⟩ | ⟨_, other⟩ := row?_setInsert found
    · obtain ⟨rfl, _⟩ | ⟨_, other'⟩ := row?_setInsert found'
      · rfl
      · cases own
        exact absurd same.symm (old other').ne
    · obtain ⟨rfl, own'⟩ | ⟨_, other'⟩ := row?_setInsert found'
      · cases own'
        exact absurd same (old other).ne
      · exact numbered.apart d e row row' other other' same

theorem Numbered.commit {table : CaseTable ι} (numbered : table.Numbered) {c : ι} {row : CaseRow}
    (written : (table.inserts c).row? = some row) :
    ({ table.setInsert c .idle with rows := row :: table.rows } : CaseTable ι).Numbered := by
  obtain ⟨below, fresh⟩ := numbered.pending c row written
  have idle := numbered.setInsert c (show Insert.idle.row? = none from rfl)
  constructor
  · exact List.forall_mem_cons.mpr ⟨below, numbered.issued⟩
  · refine List.nodup_cons.mpr ⟨fun mem => ?_, numbered.distinct⟩
    obtain ⟨other, within, same⟩ := List.mem_map.mp mem
    exact fresh other within same
  · intro d other found
    obtain ⟨_, own⟩ | ⟨apart, old⟩ := row?_setInsert found
    · cases own
    · obtain ⟨less, unlike⟩ := numbered.pending d other old
      refine ⟨less, List.forall_mem_cons.mpr ⟨fun same => ?_, unlike⟩⟩
      exact apart (numbered.apart d c other row old written same.symm)
  · exact idle.apart

theorem Numbered.step {table : CaseTable ι} (numbered : table.Numbered) (s : Statement ι) :
    (table.step s).Numbered := by
  cases s with
  | start c now record =>
    unfold CaseTable.step
    dsimp only
    split
    · exact numbered.setInsert c rfl
    · exact numbered
  | write c =>
    unfold CaseTable.step
    dsimp only
    split
    · exact numbered.write c _ _
    · exact numbered
  | commit c =>
    unfold CaseTable.step
    dsimp only
    split
    · next row written => exact numbered.commit (by rw [written]; rfl)
    · exact numbered
  | rollback c => exact numbered.setInsert c rfl

theorem Numbered.run {table : CaseTable ι} (numbered : table.Numbered)
    (schedule : List (Statement ι)) : (run CaseTable.step table schedule).Numbered :=
  invariant (fun _ s numbered => numbered.step s) schedule numbered

/-- A step adds one row or none, and takes none away. -/
theorem step_rows (table : CaseTable ι) (s : Statement ι) :
    (table.step s).rows = table.rows ∨
      ∃ c row, s = .commit c ∧ table.inserts c = .written row ∧
        (table.step s).rows = row :: table.rows := by
  cases s with
  | start c now record =>
    left
    unfold step
    dsimp only
    split <;> rfl
  | write c =>
    left
    unfold step
    dsimp only
    split <;> rfl
  | commit c =>
    unfold step
    dsimp only
    split
    · next row written => exact .inr ⟨c, row, rfl, written, rfl⟩
    · exact .inl rfl
  | rollback c => exact .inl rfl

theorem rows_run (table : CaseTable ι) (schedule : List (Statement ι)) :
    table.rows <:+ (run step table schedule).rows := by
  induction schedule generalizing table with
  | nil => exact List.suffix_refl _
  | cons s schedule ih =>
    refine List.IsSuffix.trans ?_ (ih (table.step s))
    rcases table.step_rows s with same | ⟨_, row, _, _, added⟩
    · exact same.symm ▸ List.suffix_refl _
    · exact added.symm ▸ List.suffix_cons _ _

end CaseTable

/-! ## What a reader finds -/

namespace PostgresCaseStore

variable {ι : Type} [DecidableEq ι] {jsonb : Jsonb}

omit [DecidableEq ι] in
/-- With ids that are all different, one row is the newest of its transaction. -/
theorem get_unique {table : CaseTable ι} (numbered : table.Numbered)
    (order order' : Descending CaseRow.id) (transactionId : String) :
    get jsonb table order transactionId = get jsonb table order' transactionId := by
  have distinct : ∀ a ∈ table.rows.filter fun row => row.record.transactionId = transactionId,
      ∀ b ∈ table.rows.filter fun row => row.record.transactionId = transactionId,
        a.id = b.id → a = b := by
    intro a memA b memB
    exact List.inj_on_of_nodup_map numbered.distinct (List.mem_of_mem_filter memA)
      (List.mem_of_mem_filter memB)
  unfold get Descending.first
  rw [order.sort_unique order' distinct]

/-- The inserts of any number of connections, in any interleaving: once a case has
committed, whoever asks for it gets it or a case of the same transaction with a later id,
the same one whatever plan the database follows, and it is missing from a list of recent
cases only behind as many that began no earlier. -/
theorem committed_case_found (schedule later : List (Statement ι)) {row : CaseRow}
    (committed : row ∈ (run CaseTable.step {} schedule).rows) :
    let table := run CaseTable.step {} (schedule ++ later)
    (∃ newer ∈ table.rows, newer.record.transactionId = row.record.transactionId ∧
      row.id ≤ newer.id ∧
      ∀ order, get jsonb table order row.record.transactionId = some (newer.record.reread jsonb)) ∧
    ∀ (order : Descending CaseRow.createdAt) (limit : ℕ),
      row.record.reread jsonb ∈ recent jsonb table order limit ∨
        ∃ shown : List CaseRow, recent jsonb table order limit = shown.map (·.record.reread jsonb) ∧
          shown.length = limit ∧ shown.Nodup ∧
          ∀ other ∈ shown, other ∈ table.rows ∧ row.createdAt ≤ other.createdAt := by
  intro table
  have numbered : table.Numbered := CaseTable.numbered_init.run (schedule ++ later)
  have mem : row ∈ table.rows := by
    have grown := CaseTable.rows_run (run CaseTable.step {} schedule) later
    rw [← run_append] at grown
    exact grown.subset committed
  constructor
  · have own : row ∈ table.rows.filter
        fun other => other.record.transactionId = row.record.transactionId :=
      List.mem_filter.mpr ⟨mem, decide_eq_true rfl⟩
    obtain ⟨newer, found, within, older⟩ := (Descending.stable CaseRow.id).first_greatest own
    obtain ⟨inTable, same⟩ := List.mem_filter.mp within
    refine ⟨newer, inTable, of_decide_eq_true same, older, fun order => ?_⟩
    rw [get_unique numbered order (.stable CaseRow.id)]
    exact congrArg (Option.map _) found
  · intro order limit
    by_cases shown : row ∈ order.limit limit table.rows
    · exact .inl (List.mem_map_of_mem shown)
    · obtain ⟨full, newer⟩ := order.limit_newer mem limit shown
      refine .inr ⟨order.limit limit table.rows, rfl, full, ?_, fun other within => ?_⟩
      · exact (((order.perm _).nodup_iff.mpr numbered.distinct.of_map).sublist
          (List.take_sublist _ _))
      · exact ⟨order.mem_sort.mp (List.mem_of_mem_take within), newer other within⟩

/-- Two inserts of one transaction, of which the one that began first commits last. -/
theorem committed_case_found_twice :
    let table := run CaseTable.step {} ([.start false 5 ⟨"tx_1", "acct_1", []⟩,
      .start true 7 ⟨"tx_1", "acct_1", []⟩, .write true, .write false, .commit true] ++
      [.commit false])
    ∃ newer ∈ table.rows, newer.record.transactionId = "tx_1" ∧ 1 ≤ newer.id ∧
      ∀ order, get id table order "tx_1" = some (newer.record.reread id) :=
  (@committed_case_found _ _ id [.start false 5 ⟨"tx_1", "acct_1", []⟩,
    .start true 7 ⟨"tx_1", "acct_1", []⟩, .write true, .write false, .commit true] [.commit false]
    ⟨1, 7, ⟨"tx_1", "acct_1", []⟩⟩ (.head _)).1

end PostgresCaseStore

/-! ## The two stores -/

section
variable {ι : Type} [DecidableEq ι]

/-- A table after these saves, one after the other, over connections of the pool. -/
def CaseTable.saved (saves : List (ι × Time × CaseRecord)) : CaseTable ι :=
  saves.foldl (fun table s => table.save s.1 s.2.1 s.2.2) {}

theorem CaseTable.save_idle {table : CaseTable ι} {c : ι} (idle : table.inserts c = .idle)
    (now : Time) (record : CaseRecord) :
    table.save c now record = { table with
      nextId := table.nextId + 1
      rows := ⟨table.nextId, now, record⟩ :: table.rows } := by
  have same : Function.update table.inserts c .idle = table.inserts := by
    rw [← idle, Function.update_eq_self]
  simp [save, run_cons, step, idle, setInsert, same]

/-- The rows have the ids 1, 2, ... in the order of the saves. -/
theorem CaseTable.saved_rows (saves : List (ι × Time × CaseRecord)) :
    CaseTable.saved saves = {
      nextId := saves.length + 1
      rows := (saves.mapIdx fun i s => ⟨i + 1, s.2.1, s.2.2⟩).reverse } := by
  induction saves using List.reverseRecOn with
  | nil => rfl
  | append_singleton saves s ih =>
    unfold CaseTable.saved at ih ⊢
    rw [List.foldl_concat, ih, CaseTable.save_idle rfl, List.mapIdx_concat, List.reverse_concat,
      List.length_append, List.length_singleton]

/-- Saves that are not made at the same moment: both stores list the same recent cases, as
many as the one in memory can hold, and a case is found in both alike unless it was saved
and the store in memory has since taken in as many others as it holds. -/
theorem stores_agree (jsonb : Jsonb) (capacity : ℕ) {saves : List (ι × Time × CaseRecord)}
    (later : (saves.map fun s => s.2.1).Pairwise (· < ·)) :
    let memory := InMemoryCaseStore.saved capacity (saves.map fun s => s.2.2)
    (∀ (order : Descending CaseRow.createdAt) (limit : ℕ), limit ≤ capacity →
      PostgresCaseStore.recent jsonb (.saved saves) order limit =
        (memory.recent limit).map (·.reread jsonb)) ∧
    ∀ (order : Descending CaseRow.id) (transactionId : String),
      PostgresCaseStore.get jsonb (.saved saves) order transactionId =
          (memory.get transactionId).map (·.reread jsonb) ↔
        (∀ s ∈ saves, s.2.2.transactionId ≠ transactionId) ∨
          ∃ s ∈ saves.reverse.take capacity, s.2.2.transactionId = transactionId := by
  intro memory
  have history : memory = .ofHistory capacity (saves.map fun s => s.2.2) := rfl
  rw [CaseTable.saved_rows]
  set inserted : List CaseRow := saves.mapIdx fun i s => ⟨i + 1, s.2.1, s.2.2⟩ with rows
  have field : ∀ {β : Type} (f : CaseRow → β) (g : ι × Time × CaseRecord → β),
      (∀ i s, f ⟨i + 1, s.2.1, s.2.2⟩ = g s) → inserted.map f = saves.map g := by
    intro β f g same
    apply List.ext_getElem
    · simp [rows]
    · intro i hi hi'
      simp [rows, same]
  have records := field CaseRow.record (fun s => s.2.2) fun _ _ => rfl
  have byId : inserted.reverse.Pairwise fun a b => b.id < a.id := by
    rw [List.pairwise_reverse, List.pairwise_iff_getElem]
    intro i j hi hj less
    simpa [rows] using less
  have byTime : inserted.reverse.Pairwise fun a b => b.createdAt < a.createdAt := by
    rw [← field CaseRow.createdAt (fun s => s.2.1) fun _ _ => rfl, List.pairwise_map] at later
    exact List.pairwise_reverse.mpr later
  constructor
  · intro order limit le
    have kept : memory.recent limit = (saves.map fun s => s.2.2).reverse.take limit := by
      unfold InMemoryCaseStore.recent Recents.recent
      rw [history, Recents.items_ofHistory, List.take_take, min_eq_left le]
    unfold PostgresCaseStore.recent Descending.limit
    rw [order.sort_eq byTime, kept, ← records, ← List.map_reverse, ← List.map_take, List.map_map]
    rfl
  · intro order transactionId
    have found : ∀ table : CaseTable ι, table.rows = inserted.reverse →
        PostgresCaseStore.get jsonb table order transactionId =
          ((saves.map fun s => s.2.2).reverse.find?
            fun record => record.transactionId = transactionId).map (·.reread jsonb) := by
      intro table same
      unfold PostgresCaseStore.get Descending.first
      rw [same, order.sort_eq (byId.filter _), List.head?_filter, ← records, ← List.map_reverse,
        List.find?_map, Option.map_map]
      rfl
    rw [found _ rfl, history]
    refine (Recents.find_ofHistory_iff _ _ capacity _).trans ?_
    rw [← List.map_reverse, ← List.map_take]
    simp only [List.mem_map, forall_exists_index, and_imp, forall_apply_eq_imp_iff₂,
      exists_exists_and_eq_and, decide_eq_true_eq, ne_eq]

theorem stores_agree_twice :
    PostgresCaseStore.recent id (.saved [((), 1, ⟨"tx_1", "acct_1", []⟩),
        ((), 2, ⟨"tx_2", "acct_2", []⟩)]) (.stable CaseRow.createdAt) 1 =
      ((InMemoryCaseStore.saved 1 [⟨"tx_1", "acct_1", []⟩, ⟨"tx_2", "acct_2", []⟩]).recent 1).map
        (·.reread id) :=
  (@stores_agree Unit _ id 1 [((), 1, ⟨"tx_1", "acct_1", []⟩),
    ((), 2, ⟨"tx_2", "acct_2", []⟩)] (by decide)).1 (.stable _) 1 le_rfl

end

end VaultWatch.Agents
