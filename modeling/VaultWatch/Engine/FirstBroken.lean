import VaultWatch.Engine.Tampering
import Mathlib.Algebra.Group.Nat.Defs
import Mathlib.Order.Bounds.Basic

/-! Where `verify` says that trust ends. It knows the place of a broken entry only when
the file has as many readable lines as there are entries, and even then it gives the
number that stands in the entry. -/
namespace VaultWatch.Engine

open VaultWatch.Lib.Lines VaultWatch.Lib.Text VaultWatch.Lib.HashChain

variable {V T : Type} {c : Codec V T}

/-- What each line of the file reads as. -/
def readAs (c : Codec V T) : Option Bytes → List (Option (AuditEntry V T))
  | none => []
  | some bytes => (readLines bytes).map fun line => line.bind c.fromStr

/-- The log with another file, or none, at its path. -/
def AuditLog.withFile (log : AuditLog V T) (file : Option Bytes) : AuditLog V T :=
  { log with file }

/-- Line `i + 1` is missing, does not parse or is not the entry appended there, or it is a
line too many. -/
def BrokenAt (lines : List (Option (AuditEntry V T))) (entries : List (AuditEntry V T)) (i : ℕ) :
    Prop :=
  lines[i]? ≠ entries[i]?.map some

/-- No line was edited so that all that is hashed stayed the same. -/
def NoSilentEdit (c : Codec V T) (lines : List (Option (AuditEntry V T)))
    (entries : List (AuditEntry V T)) : Prop :=
  ∀ (i : ℕ) (e f : AuditEntry V T), lines[i]? = some (some e) → entries[i]? = some f →
    SameHashed c e f → e = f

/-- A failed verification names the first broken position. -/
def Locates (answer : VerifyResponse) (lines : List (Option (AuditEntry V T)))
    (entries : List (AuditEntry V T)) : Prop :=
  answer.valid = false → ∃ i, IsLeast {i | BrokenAt lines entries i} i ∧
    answer.firstBrokenSeq = some (UInt64.ofNat (i + 1))

/-- A line that does not parse is not the first broken one unless that is the first line;
lines are missing or too many only at the end; and where the number of lines is right,
the first broken entry still carries its own number. -/
structure Locatable (lines : List (Option (AuditEntry V T))) (entries : List (AuditEntry V T)) :
    Prop where
  unreadable : none ∈ lines → BrokenAt lines entries 0
  counted : none ∉ lines → lines.length ≠ entries.length →
    ∀ i < min lines.length entries.length, ¬ BrokenAt lines entries i
  numbered : none ∉ lines → lines.length = entries.length → ∀ i e, lines[i]? = some (some e) →
    IsLeast {i | BrokenAt lines entries i} i → e.seq = UInt64.ofNat (i + 1)

/-! ## Reading the lines -/

theorem eq_map_some {α : Type} {lines : List (Option α)} (readable : none ∉ lines) :
    ∃ disk : List α, lines = disk.map some := by
  induction lines with
  | nil => exact ⟨[], rfl⟩
  | cons line lines ih =>
    obtain ⟨disk, rfl⟩ := ih fun mem => readable (List.mem_cons_of_mem _ mem)
    cases line with
    | none => exact absurd List.mem_cons_self readable
    | some e => exact ⟨e :: disk, rfl⟩

theorem mapM_eq_some_map {α β : Type} {f : α → Option β} {xs : List α} {ys : List β} :
    xs.mapM f = some ys ↔ xs.map f = ys.map some := by
  rw [mapM_eq_some, ← List.forall₂_eq_eq_eq, List.forall₂_map_left_iff, List.forall₂_map_right_iff]

namespace AuditLog

variable {log : AuditLog V T} {file : Option Bytes} {disk : List (AuditEntry V T)}

theorem readDisk_withFile (missing : file = none → log.entries = []) :
    (log.withFile file).readDisk c = some disk ↔ readAs c file = disk.map some := by
  cases file with
  | none =>
    have empty := missing rfl
    cases disk <;> simp [readDisk, withFile, readAs, empty]
  | some bytes => exact mapM_eq_some_map

/-- A line that cannot be read is reported as the first. -/
theorem verify_unreadable (unreadable : none ∈ readAs c file) :
    (log.withFile file).verify c = ⟨false, 0, some 1⟩ := by
  have read : (log.withFile file).readDisk c = none := by
    refine Option.eq_none_iff_forall_ne_some.mpr fun disk read => ?_
    rw [readDisk_withFile (by rintro rfl; cases unreadable)] at read
    rw [read] at unreadable
    simp at unreadable
  unfold verify
  rw [read]

/-- The file is gone. -/
theorem verify_missing (some_entry : log.entries ≠ []) :
    (log.withFile none).verify c = ⟨false, 0, some 1⟩ := by
  have read : (log.withFile none).readDisk c = none := by
    simp [readDisk, withFile, some_entry]
  unfold verify
  rw [read]

theorem verify_counted (read : readAs c file = disk.map some)
    (missing : file = none → log.entries = []) (differ : disk.length ≠ log.entries.length) :
    (log.withFile file).verify c = ⟨false, UInt64.ofNat disk.length,
      some (UInt64.ofNat (min disk.length log.entries.length) + 1)⟩ := by
  unfold verify
  rw [(readDisk_withFile missing).mpr read]
  exact if_pos differ

theorem verify_compared (read : readAs c file = disk.map some)
    (missing : file = none → log.entries = []) (same : disk.length = log.entries.length) :
    ((log.withFile file).verify c).valid = (firstBroken c 0 GENESIS_HASH disk log.entries).isNone ∧
      ((log.withFile file).verify c).firstBrokenSeq =
        firstBroken c 0 GENESIS_HASH disk log.entries := by
  unfold verify
  rw [(readDisk_withFile missing).mpr read]
  have held : (log.withFile file).entries = log.entries := rfl
  simp only [held, ne_eq, same, not_true_eq_false, if_false]
  cases firstBroken c 0 GENESIS_HASH disk log.entries with
  | none => exact ⟨rfl, rfl⟩
  | some seq => exact ⟨rfl, rfl⟩

/-- The loop stops at the first entry that is not the one in memory, and gives that entry's
own number. -/
theorem firstBroken_spec {disk entries : List (AuditEntry V T)} (index : ℕ) (prev : String)
    (chained : Chain (Linked c) AuditEntry.hash (index + 1) prev entries)
    (same : disk.length = entries.length) (collides : NoCollision c disk entries)
    (noSilent : ∀ (i : ℕ) (e f : AuditEntry V T), disk[i]? = some e → entries[i]? = some f →
      SameHashed c e f → e = f) :
    (firstBroken c index prev disk entries = none ∧ disk = entries) ∨
      ∃ (i : ℕ) (e : AuditEntry V T), firstBroken c index prev disk entries = some e.seq ∧
        disk[i]? = some e ∧ entries[i]? ≠ some e ∧ ∀ j < i, disk[j]? = entries[j]? := by
  induction disk generalizing index prev entries with
  | nil =>
    obtain rfl := List.length_eq_zero_iff.mp same.symm
    exact .inl ⟨rfl, rfl⟩
  | cons e disk ih =>
    cases entries with
    | nil => simp at same
    | cons f entries =>
      have linked : Linked c (index + 1) prev f := chained.1
      unfold firstBroken
      rw [ofNat_succ]
      split
      · rename_i broken
        refine .inr ⟨0, e, rfl, rfl, fun own => ?_, by simp⟩
        obtain rfl : f = e := by simpa using own
        obtain ⟨seq, prevHash, hash⟩ := linked
        simp [seq, prevHash, hash] at broken
      · rename_i intact
        simp only [not_or, ne_eq, not_not] at intact
        obtain ⟨seq, prevHash, hash, held⟩ := intact
        have hashed := sameHashed_of_linked collides List.mem_cons_self List.mem_cons_self
          (show Linked c (index + 1) prev e from ⟨seq, prevHash, hash⟩) linked held
        obtain rfl : e = f := noSilent 0 e f rfl rfl hashed
        have rest := ih (index + 1) e.hash chained.2 (by simpa using same)
          (fun d mem d' mem' =>
            collides d (List.mem_cons_of_mem _ mem) d' (List.mem_cons_of_mem _ mem'))
          (fun i d d' at' held' => noSilent (i + 1) d d' at' held')
        rcases rest with ⟨none, rfl⟩ | ⟨i, d, stops, at', other, before⟩
        · exact .inl ⟨none, rfl⟩
        · refine .inr ⟨i + 1, d, stops, at', other, fun j lt => ?_⟩
          cases j with
          | zero => rfl
          | succ j => exact before j (Nat.lt_of_succ_lt_succ lt)

end AuditLog

/-! ## The first broken position -/

section
variable {lines : List (Option (AuditEntry V T))} {entries : List (AuditEntry V T)}

theorem ofNat_injective {a b : ℕ} (ha : a < 2 ^ 64) (hb : b < 2 ^ 64)
    (same : UInt64.ofNat a = UInt64.ofNat b) : a = b := by
  have := congrArg UInt64.toNat same
  rwa [UInt64.toNat_ofNat', UInt64.toNat_ofNat', Nat.mod_eq_of_lt ha, Nat.mod_eq_of_lt hb] at this

/-- Past the entries, the first line too many is the first broken one. -/
theorem least_le_length {i : ℕ} (least : IsLeast {i | BrokenAt lines entries i} i) :
    i ≤ entries.length := by
  by_contra beyond
  have none : entries[i]? = none := List.getElem?_eq_none (by omega)
  have line : i < lines.length := by
    by_contra missing
    exact least.1 (by rw [none, List.getElem?_eq_none (not_lt.mp missing)]; rfl)
  have extra : BrokenAt lines entries entries.length := by
    intro same
    rw [List.getElem?_eq_none (le_refl entries.length),
      List.getElem?_eq_getElem (by omega)] at same
    cases same
  have := least.2 extra
  omega

variable (fits : entries.length + 1 < 2 ^ 64)

include fits

/-- An answer that names a position up to one past the entries. -/
theorem locates_at {answer : VerifyResponse} {k : ℕ} (invalid : answer.valid = false)
    (named : answer.firstBrokenSeq = some (UInt64.ofNat (k + 1))) (within : k ≤ entries.length) :
    Locates answer lines entries ↔ IsLeast {i | BrokenAt lines entries i} k := by
  constructor
  · intro locates
    obtain ⟨i, least, same⟩ := locates invalid
    have bound := least_le_length least
    have := ofNat_injective (by omega) (by omega) (Option.some.inj (named.symm.trans same))
    obtain rfl : k = i := by omega
    exact least
  · exact fun least _ => ⟨k, least, named⟩

theorem locates_first : Locates ⟨false, 0, some 1⟩ lines entries ↔ BrokenAt lines entries 0 := by
  rw [locates_at fits rfl (show some 1 = some (UInt64.ofNat (0 + 1)) from rfl) (Nat.zero_le _)]
  exact ⟨And.left, fun broken => ⟨broken, fun i _ => Nat.zero_le i⟩⟩

theorem locates_counted {n : UInt64} (differ : lines.length ≠ entries.length) :
    Locates ⟨false, n, some (UInt64.ofNat (min lines.length entries.length) + 1)⟩ lines entries ↔
      ∀ i < min lines.length entries.length, ¬ BrokenAt lines entries i := by
  rw [locates_at fits rfl (by rw [ofNat_succ]) (min_le_right _ _)]
  have broken : BrokenAt lines entries (min lines.length entries.length) := by
    rcases lt_or_gt_of_ne differ with short | long
    · rw [min_eq_left short.le, BrokenAt, List.getElem?_eq_none le_rfl,
        List.getElem?_eq_getElem short]
      simp
    · rw [min_eq_right (le_of_lt long), BrokenAt, List.getElem?_eq_none (le_refl entries.length),
        List.getElem?_eq_getElem long]
      simp
  constructor
  · exact fun least i lt found => absurd (least.2 found) (not_le.mpr lt)
  · exact fun intact => ⟨broken, fun i found => not_lt.mp fun lt => intact i lt found⟩

end

namespace AuditLog

variable {log : AuditLog V T} {file : Option Bytes} {disk : List (AuditEntry V T)}

/-- As many readable lines as entries: the first broken one is named by its own number. -/
theorem locates_compared (held : Sealed c log.entries) (read : readAs c file = disk.map some)
    (missing : file = none → log.entries = []) (same : disk.length = log.entries.length)
    (collides : NoCollision c disk log.entries)
    (noSilent : NoSilentEdit c (readAs c file) log.entries) :
    Locates ((log.withFile file).verify c) (readAs c file) log.entries ↔
      ∀ i e, (readAs c file)[i]? = some (some e) →
        IsLeast {i | BrokenAt (readAs c file) log.entries i} i → e.seq = UInt64.ofNat (i + 1) := by
  obtain ⟨valid, named⟩ := verify_compared read missing same
  have line (i : ℕ) : (readAs c file)[i]? = disk[i]?.map some := by rw [read, List.getElem?_map]
  have broken_iff (i : ℕ) :
      BrokenAt (readAs c file) log.entries i ↔ disk[i]? ≠ log.entries[i]? := by
    rw [BrokenAt, line]
    exact not_congr (Option.map_injective (Option.some_injective _)).eq_iff
  have silent : ∀ (i : ℕ) (e f : AuditEntry V T), disk[i]? = some e → log.entries[i]? = some f →
      SameHashed c e f → e = f :=
    fun i e f at' own => noSilent i e f (by rw [line, at']; rfl) own
  rcases firstBroken_spec 0 GENESIS_HASH held same collides silent with
    ⟨intact, rfl⟩ | ⟨i, e, stops, at', other, before⟩
  · rw [intact] at valid
    constructor
    · exact fun _ i e _ least => absurd rfl ((broken_iff i).mp least.1)
    · intro _ invalid
      rw [valid] at invalid
      cases invalid
  · have least : IsLeast {i | BrokenAt (readAs c file) log.entries i} i := by
      refine ⟨(broken_iff i).mpr (by rw [at']; exact other.symm), fun j found => ?_⟩
      exact not_lt.mp fun lt => (broken_iff j).mp found (before j lt)
    rw [stops] at valid named
    constructor
    · intro locates k d found least'
      obtain ⟨k', least'', same'⟩ := locates valid
      obtain rfl := least.unique least'
      obtain rfl := least.unique least''
      rw [line, at'] at found
      obtain rfl : e = d := by simpa using found
      exact Option.some.inj (named.symm.trans same')
    · intro numbered _
      refine ⟨i, least, named.trans (congrArg some ?_)⟩
      exact numbered i e (by rw [line, at']; rfl) least

/-- For a log with sealed entries, any file at its path is located or not by what its lines
read as. -/
theorem locates_iff (held : Sealed c log.entries) (file : Option Bytes)
    (fits : log.entries.length + 1 < 2 ^ 64)
    (collides : NoCollision c ((readAs c file).filterMap id) log.entries)
    (noSilent : NoSilentEdit c (readAs c file) log.entries) :
    Locates ((log.withFile file).verify c) (readAs c file) log.entries ↔
      Locatable (readAs c file) log.entries := by
  by_cases unreadable : none ∈ readAs c file
  · rw [verify_unreadable unreadable, locates_first fits]
    exact ⟨fun broken => ⟨fun _ => broken, fun readable => absurd unreadable readable,
      fun readable => absurd unreadable readable⟩, fun locatable => locatable.unreadable unreadable⟩
  by_cases gone : file = none ∧ log.entries ≠ []
  · obtain ⟨rfl, some_entry⟩ := gone
    obtain ⟨e, es, entries⟩ := List.exists_cons_of_ne_nil some_entry
    have first : BrokenAt (readAs c none) log.entries 0 := by simp [BrokenAt, readAs, entries]
    rw [verify_missing some_entry, locates_first fits]
    exact ⟨fun _ => ⟨fun mem => absurd mem unreadable, fun _ _ i lt => by simp [readAs] at lt,
      fun _ same => by simp [readAs, entries] at same⟩, fun _ => first⟩
  have missing : file = none → log.entries = [] := fun none => by simpa [none] using gone
  obtain ⟨disk, read⟩ := eq_map_some unreadable
  have length : (readAs c file).length = disk.length := by rw [read, List.length_map]
  by_cases same : disk.length = log.entries.length
  · have compared := locates_compared held read missing same
      (by simpa [read, List.filterMap_map] using collides) noSilent
    rw [compared]
    exact ⟨fun numbered => ⟨fun mem => absurd mem unreadable,
      fun _ differ => absurd (length.trans same) differ, fun _ _ => numbered⟩,
      fun locatable => locatable.numbered unreadable (length.trans same)⟩
  · have differ : (readAs c file).length ≠ log.entries.length := by rwa [length]
    rw [verify_counted read missing same, ← length, locates_counted fits differ]
    exact ⟨fun intact => ⟨fun mem => absurd mem unreadable, fun _ _ => intact,
      fun _ same => absurd same differ⟩, fun locatable => locatable.counted unreadable differ⟩

theorem appendAll_length (log : AuditLog V T) (rs : List (AppendRequest V T)) :
    (log.appendAll c rs).entries.length = log.entries.length + rs.length := by
  unfold appendAll
  induction rs generalizing log with
  | nil => rfl
  | cons r rs ih =>
    rw [List.foldl_cons, ih, append_none]
    simp only [List.length_append, List.length_cons, List.length_nil]
    omega

end AuditLog

/-- Whatever was appended and whatever takes the file's place: a failed verification names
the first broken line exactly when the file is locatable. A vector holds fewer than `2 ^ 63`
entries. -/
theorem first_broken_seq_iff (rs : List (AppendRequest V T)) (file : Option Bytes)
    (fits : rs.length < 2 ^ 63)
    (collides : NoCollision c ((readAs c file).filterMap id)
      (AuditLog.appendAll c ⟨none, []⟩ rs).entries)
    (noSilent : NoSilentEdit c (readAs c file) (AuditLog.appendAll c ⟨none, []⟩ rs).entries) :
    Locates (((AuditLog.appendAll c ⟨none, []⟩ rs).withFile file).verify c) (readAs c file)
        (AuditLog.appendAll c ⟨none, []⟩ rs).entries ↔
      Locatable (readAs c file) (AuditLog.appendAll c ⟨none, []⟩ rs).entries := by
  have empty : Sealed c (⟨none, []⟩ : AuditLog V T).entries := trivial
  have count := AuditLog.appendAll_length (c := c) ⟨none, []⟩ rs
  rw [List.length_nil, Nat.zero_add] at count
  exact AuditLog.locates_iff (sealed_appendAll empty rs) file (by omega) collides noSilent

/-! ## One entry in the file, with another payload and with another number -/

theorem readAs_one (e : AuditEntry String Unit) :
    readAs sampleCodec (some (lineBytes (e.toJson sampleCodec))) = [some e] :=
  mapM_eq_some_map.mp (parseLines_one e)

theorem noSilentEdit_one {e f : AuditEntry String Unit}
    (differ : e.bodyText sampleCodec ≠ f.bodyText sampleCodec ∨ e.seq ≠ f.seq) :
    NoSilentEdit sampleCodec [some e] [f] := by
  intro i e' f' at' own hashed
  cases i with
  | zero =>
    obtain rfl : e = e' := by simpa using at'
    obtain rfl : f = f' := by simpa using own
    rcases differ with text | number
    · exact absurd hashed.bodyText text
    · exact absurd hashed.seq number
  | succ i => simp at at'

theorem brokenAt_one {e f : AuditEntry String Unit} (differ : e ≠ f) :
    IsLeast {i | BrokenAt [some e] [f] i} 0 :=
  ⟨by simpa [BrokenAt] using differ, fun i _ => Nat.zero_le i⟩

/-- The changed payload is located. -/
theorem first_broken_seq_payload :
    Locates (((AuditLog.appendAll sampleCodec ⟨none, []⟩ [openedRequest]).withFile
        (some (lineBytes (clearedEntry.toJson sampleCodec)))).verify sampleCodec)
      (readAs sampleCodec (some (lineBytes (clearedEntry.toJson sampleCodec))))
      (AuditLog.appendAll sampleCodec ⟨none, []⟩ [openedRequest]).entries := by
  have text : clearedEntry.bodyText sampleCodec ≠ openedEntry.bodyText sampleCodec := by decide
  have read := readAs_one clearedEntry
  refine (first_broken_seq_iff [openedRequest] _ (by simp) ?_ ?_).mpr ?_
  · rw [read]
    exact clearedEntry_noCollision
  · rw [read]
    exact noSilentEdit_one (.inl text)
  · rw [read]
    refine ⟨by simp, fun _ differ => absurd rfl differ, fun _ _ i e at' least => ?_⟩
    obtain rfl := least.unique (brokenAt_one fun same => by rw [same] at text; exact text rfl)
    obtain rfl : clearedEntry = e := by simpa using at'
    rfl

/-- The entry with the number of another place. -/
def renumberedEntry : AuditEntry String Unit := { openedEntry with seq := 7 }

theorem renumberedEntry_noCollision : NoCollision sampleCodec [renumberedEntry] [openedEntry] := by
  have differ : sampleSha256 (renumberedEntry.hashInput sampleCodec) ≠
      sampleSha256 (openedEntry.hashInput sampleCodec) := by decide +kernel
  intro e he f hf same
  obtain rfl := List.mem_singleton.mp he
  obtain rfl := List.mem_singleton.mp hf
  exact absurd same differ

/-- The changed number is noticed in the only entry, and said to be in the seventh. -/
theorem renumbered_misplaced :
    readAs sampleCodec (some (lineBytes (renumberedEntry.toJson sampleCodec))) =
        [some renumberedEntry] ∧
      NoCollision sampleCodec [renumberedEntry]
        (AuditLog.appendAll sampleCodec ⟨none, []⟩ [openedRequest]).entries ∧
      NoSilentEdit sampleCodec [some renumberedEntry]
        (AuditLog.appendAll sampleCodec ⟨none, []⟩ [openedRequest]).entries ∧
      ¬ Locates (((AuditLog.appendAll sampleCodec ⟨none, []⟩ [openedRequest]).withFile
          (some (lineBytes (renumberedEntry.toJson sampleCodec)))).verify sampleCodec)
        [some renumberedEntry]
        (AuditLog.appendAll sampleCodec ⟨none, []⟩ [openedRequest]).entries := by
  have number : renumberedEntry.seq ≠ openedEntry.seq := by decide
  have read := readAs_one renumberedEntry
  have held : Sealed sampleCodec (⟨none, []⟩ : AuditLog String Unit).entries := trivial
  have silent : NoSilentEdit sampleCodec [some renumberedEntry] [openedEntry] :=
    noSilentEdit_one (.inr number)
  refine ⟨read, renumberedEntry_noCollision, silent, fun locates => ?_⟩
  have located := (AuditLog.locates_iff (sealed_appendAll held [openedRequest])
    (some (lineBytes (renumberedEntry.toJson sampleCodec))) (by decide)
    (by rw [read]; exact renumberedEntry_noCollision) (by rw [read]; exact silent)).mp
    (by rw [read]; exact locates)
  rw [read] at located
  have least : IsLeast {i | BrokenAt [some renumberedEntry] [openedEntry] i} 0 :=
    brokenAt_one fun same => number (congrArg AuditEntry.seq same)
  have own := located.numbered (by simp) rfl 0 renumberedEntry rfl least
  exact absurd own (by decide)

end VaultWatch.Engine
