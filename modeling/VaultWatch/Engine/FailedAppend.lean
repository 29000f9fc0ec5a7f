import VaultWatch.Engine.TwoReaders

/-! Appends that fail. The entries in memory stay as they were, but what
`persist` wrote before it failed stays in the file: the log is intact after a
failure exactly when nothing was written and the file ended with a line feed. -/
namespace VaultWatch.Engine

open VaultWatch.Lib.Lines VaultWatch.Lib.Text VaultWatch.Lib.HashChain

variable {V T : Type} {c : Codec V T}

/-- What a failed append is to leave: memory and file read as before, the log
valid, and valid and reopenable after any further appends of what parses back. -/
structure Intact (c : Codec V T) (log after : AuditLog V T) : Prop where
  entries : after.entries = log.entries
  disk : after.readDisk c = log.readDisk c
  valid : (after.verify c).valid = true
  later : ∀ rs : List (AppendRequest V T), (∀ r ∈ rs, r.ReadsBack c) →
    ((after.appendAll c rs).verify c).valid = true ∧
    ∃ reopened, AuditLog.openLog c (after.appendAll c rs).file = some reopened ∧
      (reopened.verify c).valid = true

/-- The failure came before the first byte. -/
def NothingWritten (f : PersistFault) : Prop := f = .openFailed ∨ f = .textFailed 0

/-- The bytes a failed `persist` leaves. -/
def PersistFault.written (text : String) : PersistFault → Bytes
  | .openFailed => []
  | .textFailed n => (utf8 text).take n
  | .newlineFailed => utf8 text
  | .syncFailed => lineBytes text

theorem AuditLog.append_some_contents (log : AuditLog V T) (r : AppendRequest V T)
    (f : PersistFault) :
    (log.append c r (some f)).2.contents =
      log.contents ++ f.written ((log.nextEntry c r).toJson c) := by
  cases f
  · simp [append, persist, contents, PersistFault.written]
  · rfl
  · rfl
  · rfl

theorem AuditLog.append_some_readDisk {log : AuditLog V T} {r : AppendRequest V T}
    {f : PersistFault} {disk : List (AuditEntry V T)}
    (h : log.readDisk c = some disk)
    (hp : parseLines c.fromStr (log.append c r (some f)).2.contents = some disk) :
    (log.append c r (some f)).2.readDisk c = some disk := by
  rw [readDisk_eq_some]
  refine ⟨?_, hp⟩
  cases f
  · exact (readDisk_eq_some.mp h).1
  · nofun
  · nofun
  · nofun

theorem utf8_toJson_ne_nil (e : AuditEntry V T) : utf8 (e.toJson c) ≠ [] := by
  intro hnil
  obtain ⟨cs, hcs⟩ := e.toList_toJson c
  rw [utf8_eq_flatMap, hcs, List.flatMap_cons] at hnil
  exact String.utf8EncodeChar_ne_nil (List.append_eq_nil_iff.mp hnil).1

/-- Nothing written to a terminated file: the log is as it was. -/
theorem intact_of_nothing_written (hl : c.SingleLined) (hb : c.RejectsBlank) {log : AuditLog V T}
    (hv : (log.verify c).valid = true) (ht : Terminated log.contents) (r : AppendRequest V T)
    {f : PersistFault} (hf : NothingWritten f) : Intact c log (log.append c r (some f)).2 := by
  obtain ⟨disk, hdisk, hmap, hseal⟩ := AuditLog.verify_valid_iff.mp hv
  have hsame : (log.append c r (some f)).2.contents = log.contents := by
    rw [AuditLog.append_some_contents]
    rcases hf with rfl | rfl <;> simp [PersistFault.written]
  have hentries := (AuditLog.append_error (c := c) log r f).2
  have hread : (log.append c r (some f)).2.readDisk c = some disk := by
    apply AuditLog.append_some_readDisk hdisk
    rw [hsame]
    exact (AuditLog.readDisk_eq_some.mp hdisk).2
  have hafter : Appendable c (log.append c r (some f)).2 := by
    refine ⟨AuditLog.verify_valid_iff.mpr ⟨disk, hread, ?_, hseal⟩, ?_⟩
    · rw [hentries]
      exact hmap
    · rw [hsame]
      exact ht
  refine ⟨hentries, ?_, hafter.valid, ?_⟩
  · rw [hread, hdisk]
  · intro rs hrs
    have hlater := hafter.appendAll hl hrs
    exact ⟨hlater.valid, reopen_valid hb hlater.valid⟩

/-- One append to a valid log whose file does not end with a line feed writes
two entries to one line, so the log has an entry more than the file. -/
theorem invalid_of_unterminated (hl : c.SingleLined) {log : AuditLog V T}
    {disk : List (AuditEntry V T)} (hdisk : log.readDisk c = some disk)
    (hlen : disk.length = log.entries.length) (ht : ¬ Terminated log.contents)
    (r : AppendRequest V T) : ((log.append c r none).2.verify c).valid ≠ true := by
  intro hv
  obtain ⟨disk', hdisk', hmap', _⟩ := AuditLog.verify_valid_iff.mp hv
  rw [AuditLog.append_none] at hdisk' hmap'
  have hbefore := length_of_parseLines (AuditLog.readDisk_eq_some.mp hdisk).2
  have hafter := length_of_parseLines (AuditLog.readDisk_eq_some.mp hdisk').2
  have hmerge := rawLines_merge ht (hl (log.nextEntry c r)).newline_not_mem
  have hlines : (rawLines (log.contents ++ lineBytes ((log.nextEntry c r).toJson c))).length =
      disk'.length := hafter
  have hcount : disk'.length = log.entries.length + 1 := by
    simpa using congrArg List.length hmap'
  unfold lineBytes at hlines
  omega

/-- An intact log's file ends with a line feed. -/
theorem Intact.terminated (hl : c.SingleLined) {log after : AuditLog V T}
    (h : Intact c log after) {r : AppendRequest V T} (hr : r.ReadsBack c) :
    Terminated after.contents := by
  by_contra ht
  obtain ⟨disk, hdisk, hmap, _⟩ := AuditLog.verify_valid_iff.mp h.valid
  have hlen : disk.length = after.entries.length := by
    simpa using congrArg List.length hmap
  have hlater := h.later [r] (List.forall_mem_singleton.mpr hr)
  exact invalid_of_unterminated hl hdisk hlen ht r hlater.1

/-- A whole line behind a file that reads back changes what is read back: it is
a line more, or characters behind the last one. -/
theorem parse_line_ne (hl : c.SingleLined) (hs : c.Strict) {file : Bytes}
    {disk : List (AuditEntry V T)} (h : parseLines c.fromStr file = some disk)
    (e : AuditEntry V T) : parseLines c.fromStr (file ++ lineBytes (e.toJson c)) ≠ some disk := by
  intro hsame
  have hline := hl e
  by_cases ht : Terminated file
  · have hbefore := length_of_parseLines h
    have hafter := length_of_parseLines hsame
    unfold lineBytes at hafter
    rw [rawLines_append ht, rawLines_line hline.newline_not_mem, List.length_append,
      List.length_singleton] at hafter
    omega
  · -- the last line of the file and the new text are one line, which cannot parse
    obtain ⟨front, rest, rfl, hfront, hrest⟩ := split_last file
    have hne : rest ≠ [] := by
      intro same
      subst same
      exact ht (by simpa using hfront)
    have hnonempty := utf8_toJson_ne_nil (c := c) e
    unfold parseLines at h hsame
    rw [readLines_rest hfront hne hrest, List.mapM_append] at h
    rw [readLines_merge hfront hrest hline hnonempty, List.mapM_append] at hsame
    obtain ⟨before, hbefore, hlast⟩ := Option.bind_eq_some_iff.mp h
    rw [hbefore] at hsame
    cases hd : decode rest with
    | none => simp [hd] at hlast
    | some s =>
      cases hp : c.fromStr s with
      | none => simp [hd, hp] at hlast
      | some last =>
        have htext : decode (rest ++ utf8 (e.toJson c)) = some (s ++ e.toJson c) := by
          rw [← utf8_of_decode hd, ← utf8_append, decode_utf8]
        simp [htext, hs.trailing_rejected s last e hp] at hsame

/-- A failed `sync_data` leaves the whole entry in the file. -/
theorem readDisk_of_failed_sync (hl : c.SingleLined) (log : AuditLog V T)
    {disk : List (AuditEntry V T)} (ht : Terminated log.contents)
    (h : parseLines c.fromStr log.contents = some disk) {r : AppendRequest V T}
    (hr : r.ReadsBack c) :
    (log.append c r (some .syncFailed)).2.readDisk c = some (disk ++ [log.nextEntry c r]) := by
  rw [AuditLog.readDisk_eq_some, AuditLog.append_some_contents]
  exact ⟨nofun, parseLines_append_line ht (hl _) (hr _ rfl) h⟩

/-- After a failed append the log is intact if and only if the append failed
before its first byte and the file ended with a line feed. -/
theorem failed_append_intact_iff (hl : c.SingleLined) (hs : c.Strict)
    (hr : ∃ r : AppendRequest V T, r.ReadsBack c) {log : AuditLog V T}
    (hv : (log.verify c).valid = true) (r : AppendRequest V T) (f : PersistFault) :
    Intact c log (log.append c r (some f)).2 ↔ NothingWritten f ∧ Terminated log.contents := by
  constructor
  · intro h
    obtain ⟨_, hreads⟩ := hr
    have hterm := h.terminated hl hreads
    obtain ⟨disk, hdisk, _, _⟩ := AuditLog.verify_valid_iff.mp hv
    have hparse := (AuditLog.readDisk_eq_some.mp hdisk).2
    have hline := (hl (log.nextEntry c r)).newline_not_mem
    have hne := utf8_toJson_ne_nil (c := c) (log.nextEntry c r)
    rw [AuditLog.append_some_contents] at hterm
    cases f with
    | openFailed => exact ⟨.inl rfl, by simpa [PersistFault.written] using hterm⟩
    | textFailed n =>
      cases n with
      | zero => exact ⟨.inr rfl, by simpa [PersistFault.written] using hterm⟩
      | succ n =>
        refine absurd hterm (not_terminated_append ?_ fun hm => hline (List.mem_of_mem_take hm))
        cases hu : utf8 ((log.nextEntry c r).toJson c) with
        | nil => exact absurd hu hne
        | cons b bs => simp [PersistFault.written, hu]
    | newlineFailed => exact absurd hterm (not_terminated_append hne hline)
    | syncFailed =>
      have hsame := h.disk
      rw [hdisk] at hsame
      have hafter := (AuditLog.readDisk_eq_some.mp hsame).2
      rw [AuditLog.append_some_contents] at hafter
      exact absurd hafter (parse_line_ne hl hs hparse _)
  · intro hbefore
    obtain ⟨hf, ht⟩ := hbefore
    exact intact_of_nothing_written hl hs.blank_rejected hv ht r hf

/-- Nothing was written to the empty log. -/
theorem failed_append_intact_at_open :
    Intact sampleCodec ⟨none, []⟩
      (AuditLog.append sampleCodec ⟨none, []⟩ openedRequest (some .openFailed)).2 :=
  (failed_append_intact_iff sampleCodec_lawful.single_line sampleCodec_strict
    ⟨openedRequest, sampleCodec_lawful.readable _⟩ rfl openedRequest .openFailed).mpr
    ⟨.inl rfl, .inl rfl⟩

/-- A failed `sync_data`: the error is returned and memory is as before, but
the entry is in the file and the log no longer verifies. -/
theorem failed_sync_first_append :
    (AuditLog.append sampleCodec ⟨none, []⟩ openedRequest (some .syncFailed)).1 =
        .error .syncFailed ∧
      (AuditLog.append sampleCodec ⟨none, []⟩ openedRequest (some .syncFailed)).2.entries = [] ∧
      (AuditLog.append sampleCodec ⟨none, []⟩ openedRequest (some .syncFailed)).2.readDisk
        sampleCodec = some [AuditLog.nextEntry sampleCodec ⟨none, []⟩ openedRequest] ∧
      ((AuditLog.append sampleCodec ⟨none, []⟩ openedRequest (some .syncFailed)).2.verify
        sampleCodec).valid = false := by
  have hread := readDisk_of_failed_sync sampleCodec_lawful.single_line ⟨none, []⟩ (.inl rfl)
    (parseLines_nil _) (sampleCodec_lawful.readable openedRequest)
  obtain ⟨herror, hentries⟩ := AuditLog.append_error (c := sampleCodec) ⟨none, []⟩ openedRequest
    .syncFailed
  refine ⟨herror, hentries, hread, ?_⟩
  rw [Bool.eq_false_iff]
  intro hv
  obtain ⟨disk, hdisk, hmap, _⟩ := AuditLog.verify_valid_iff.mp hv
  obtain rfl := Option.some.inj (hread.symm.trans hdisk)
  rw [hentries] at hmap
  cases hmap

end VaultWatch.Engine
