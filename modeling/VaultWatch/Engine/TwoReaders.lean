import VaultWatch.Engine.ChainRuns

/-! The two readers of the audit file. `open` stops at the first line it
cannot read and skips blank lines; `verify` reads every line and fails on
either. They agree exactly on files whose lines are all UTF-8 and not blank. -/
namespace VaultWatch.Engine

open VaultWatch.Lib.Lines VaultWatch.Lib.Text

variable {V T : Type} {c : Codec V T}

/-- Every line is UTF-8 and holds more than white space. -/
def WellLined (bytes : Bytes) : Prop :=
  ∀ line ∈ readLines bytes, ∃ text, line = some text ∧ isBlank text = false

theorem wellLined_nil : WellLined [] := by
  intro line h
  cases h

theorem WellLined.texts {bytes : Bytes} (h : WellLined bytes) :
    ∃ texts : List String, readLines bytes = texts.map some ∧
      ∀ t ∈ texts, isBlank t = false := by
  unfold WellLined at h
  generalize readLines bytes = lines at h
  induction lines with
  | nil => exact ⟨[], rfl, by simp⟩
  | cons line lines ih =>
    obtain ⟨text, rfl, htext⟩ := h line List.mem_cons_self
    obtain ⟨texts, rfl, htexts⟩ := ih fun l hl => h l (List.mem_cons_of_mem _ hl)
    refine ⟨text :: texts, rfl, ?_⟩
    intro t ht
    rcases List.mem_cons.mp ht with rfl | ht
    · exact htext
    · exact htexts t ht

/-- What verify can read is well lined. -/
theorem wellLined_of_parse (hb : c.RejectsBlank) {bytes : Bytes}
    {entries : List (AuditEntry V T)} (h : parseLines c.fromStr bytes = some entries) :
    WellLined bytes := by
  obtain ⟨texts, htexts, hparse⟩ := texts_of_parseLines h
  intro line hline
  rw [htexts] at hline
  obtain ⟨text, hmem, rfl⟩ := List.mem_map.mp hline
  exact ⟨text, rfl, not_blank_of_parse hb hparse text hmem⟩

/-- A log just opened verifies against the entries it loaded if and only if
every line of its file is UTF-8 and not blank. -/
theorem readers_agree_iff (hb : c.RejectsBlank) {file : Option Bytes} {log : AuditLog V T}
    (hopen : AuditLog.openLog c file = some log) :
    log.readDisk c = some log.entries ↔ WellLined (file.getD []) := by
  cases file with
  | none =>
    obtain rfl : (⟨none, []⟩ : AuditLog V T) = log := Option.some.inj hopen
    exact ⟨fun _ => wellLined_nil, fun _ => rfl⟩
  | some bytes =>
    have hfile : log.file = some bytes := by
      unfold AuditLog.openLog at hopen
      obtain ⟨entries, _, rfl⟩ := Option.map_eq_some_iff.mp hopen
      rfl
    have hcontents : log.contents = bytes := by rw [AuditLog.contents, hfile]; rfl
    rw [AuditLog.readDisk_eq_some, hcontents, Option.getD_some]
    constructor
    · intro hread
      obtain ⟨_, hparse⟩ := hread
      exact wellLined_of_parse hb hparse
    · intro hwell
      obtain ⟨texts, htexts, hblank⟩ := hwell.texts
      rw [openLog_of_texts htexts hblank] at hopen
      obtain ⟨entries, hparse, rfl⟩ := Option.map_eq_some_iff.mp hopen
      exact ⟨fun hnone => absurd hnone (Option.some_ne_none bytes), hparse⟩

/-- Behind a line that is not UTF-8 opening reads nothing; verify fails. -/
theorem unreadable_line {line : Bytes} (hline : newline ∉ line)
    (hd : decode (chomp line) = none) (rest : Bytes) :
    AuditLog.openLog c (some (line ++ newline :: rest)) =
        some ⟨some (line ++ newline :: rest), []⟩ ∧
      parseLines c.fromStr (line ++ newline :: rest) = none := by
  constructor
  · unfold AuditLog.openLog
    simp only
    rw [readLines_cons hline, hd]
    rfl
  · unfold parseLines
    rw [readLines_cons hline, hd, List.mapM_cons]
    rfl

/-- An empty line makes no difference to opening; verify fails. -/
theorem empty_line (hb : c.RejectsBlank) {rest : Bytes} {entries : List (AuditEntry V T)}
    (hopen : AuditLog.openLog c (some rest) = some ⟨some rest, entries⟩) :
    AuditLog.openLog c (some (newline :: rest)) = some ⟨some (newline :: rest), entries⟩ ∧
      parseLines c.fromStr (newline :: rest) = none := by
  have hlines : readLines (newline :: rest) = some "" :: readLines rest :=
    readLines_cons (List.not_mem_nil : newline ∉ ([] : Bytes)) rest
  constructor
  · unfold AuditLog.openLog at hopen ⊢
    simp only at hopen ⊢
    obtain ⟨es, hes, heq⟩ := Option.map_eq_some_iff.mp hopen
    obtain rfl : es = entries := congrArg AuditLog.entries heq
    have hskip : (mapWhileOk (readLines (newline :: rest))).filter (fun line => !isBlank line) =
        (mapWhileOk (readLines rest)).filter (fun line => !isBlank line) := by
      rw [hlines]
      rfl
    rw [hskip, hes]
    rfl
  · unfold parseLines
    rw [hlines, List.mapM_cons, Option.bind_some, hb "" (by decide)]
    rfl

/-- The log after the first of the sample appends. -/
def openedLog : AuditLog String Unit :=
  ((⟨none, []⟩ : AuditLog String Unit).append sampleCodec openedRequest none).2

theorem openedLog_sound : Sound sampleCodec openedLog :=
  (sound_empty sampleCodec).append sampleCodec_lawful.single_line openedRequest

theorem readers_agree_opened :
    openedLog.readDisk sampleCodec = some openedLog.entries ↔
      WellLined (openedLog.file.getD []) :=
  readers_agree_iff sampleCodec_strict.blank_rejected
    (openedLog_sound.restart (sampleCodec_lawful.readsBack _))

/-- The one entry of a log behind a line with a byte that is not UTF-8. -/
def unreadableFile : Bytes := [0xFF] ++ newline :: openedLog.contents

/-- The same entry behind an empty line. -/
def emptyLineFile : Bytes := newline :: openedLog.contents

/-- The first file hides the entry from `open`, the second does not; neither
verifies. -/
theorem readers_disagree :
    (AuditLog.openLog sampleCodec (some unreadableFile) = some ⟨some unreadableFile, []⟩ ∧
      AuditLog.readDisk sampleCodec ⟨some unreadableFile, []⟩ = none) ∧
    (AuditLog.openLog sampleCodec (some emptyLineFile) =
        some ⟨some emptyLineFile, openedLog.entries⟩ ∧
      AuditLog.readDisk sampleCodec ⟨some emptyLineFile, openedLog.entries⟩ = none) := by
  have hopen : AuditLog.openLog sampleCodec (some openedLog.contents) =
      some ⟨some openedLog.contents, openedLog.entries⟩ :=
    openedLog_sound.restart (sampleCodec_lawful.readsBack _)
  exact ⟨unreadable_line (by decide) (by decide) _,
    empty_line sampleCodec_strict.blank_rejected hopen⟩

end VaultWatch.Engine
