import Mathlib.Data.List.Basic
import Mathlib.Data.List.Forall2
import Mathlib.Data.List.Induction

/-! Reading a file line by line, as a buffered reader does: a line ends at a
line feed, a carriage return before it is dropped, the last line may lack its
terminator, and a line that is not UTF-8 reads as an error (`none`) without
ending the file. -/
namespace VaultWatch.Lib.Lines

abbrev Bytes := List UInt8

/-- The UTF-8 bytes of a text. -/
def utf8 (s : String) : Bytes := s.toByteArray.data.toList

def decode (b : Bytes) : Option String := String.fromUTF8? ⟨b.toArray⟩

theorem decode_utf8 (s : String) : decode (utf8 s) = some s := by
  unfold decode utf8
  rw [Array.toArray_toList]
  show String.fromUTF8? s.toByteArray = some s
  unfold String.fromUTF8?
  rw [dif_pos s.isValidUTF8]
  rfl

/-- Decoding gives a text with exactly these bytes. -/
theorem utf8_of_decode {b : Bytes} {s : String} (h : decode b = some s) : utf8 s = b := by
  unfold decode String.fromUTF8? at h
  split at h
  · rw [← Option.some.inj h]
    show (ByteArray.mk b.toArray).data.toList = b
    simp
  · cases h

theorem utf8_injective {s t : String} (h : utf8 s = utf8 t) : s = t := by
  have hd := congrArg decode h
  simpa [decode_utf8] using hd

@[simp] theorem utf8_append (s t : String) : utf8 (s ++ t) = utf8 s ++ utf8 t := by
  simp [utf8]

def newline : UInt8 := 10

def carriageReturn : UInt8 := 13

/-- A line without the carriage return before its line feed. -/
def chomp (line : Bytes) : Bytes :=
  if line.getLast? = some carriageReturn then line.dropLast else line

/-- The lines of a file, `current` being what is read of the first. -/
def linesFrom (current : Bytes) : Bytes → List Bytes
  | [] => if current = [] then [] else [current]
  | b :: rest => if b = newline then chomp current :: linesFrom [] rest
    else linesFrom (current ++ [b]) rest

def rawLines (file : Bytes) : List Bytes := linesFrom [] file

/-- Each line's text, or `none` where the line is not UTF-8. -/
def readLines (file : Bytes) : List (Option String) := (rawLines file).map decode

/-- Nothing stands after the last line feed. -/
def Terminated (file : Bytes) : Prop := file = [] ∨ file.getLast? = some newline

instance (file : Bytes) : Decidable (Terminated file) :=
  inferInstanceAs (Decidable (_ ∨ _))

theorem terminated_snoc (file : Bytes) : Terminated (file ++ [newline]) := by
  right; simp

theorem linesFrom_of_not_mem {line : Bytes} (h : newline ∉ line) (current rest : Bytes) :
    linesFrom current (line ++ rest) = linesFrom (current ++ line) rest := by
  induction line generalizing current with
  | nil => simp
  | cons b line ih =>
    have hb : b ≠ newline := fun he => h (he ▸ List.mem_cons_self)
    have hline : newline ∉ line := fun hm => h (List.mem_cons_of_mem _ hm)
    simp [linesFrom, hb, ih hline]

theorem linesFrom_newline (current file rest : Bytes) :
    linesFrom current (file ++ newline :: rest) =
      linesFrom current (file ++ [newline]) ++ linesFrom [] rest := by
  induction file generalizing current with
  | nil => simp [linesFrom]
  | cons b file ih =>
    by_cases hb : b = newline
    · simp [linesFrom, hb, ih]
    · simp [linesFrom, hb, ih]

/-- What follows a terminated file is read as a file of its own. -/
theorem rawLines_append {file : Bytes} (h : Terminated file) (rest : Bytes) :
    rawLines (file ++ rest) = rawLines file ++ rawLines rest := by
  rcases h with rfl | h
  · simp [rawLines, linesFrom]
  · obtain ⟨front, rfl⟩ := List.getLast?_eq_some_iff.mp h
    rw [List.append_assoc, List.singleton_append]
    exact linesFrom_newline _ _ _

/-- One whole line. -/
theorem rawLines_line {line : Bytes} (h : newline ∉ line) :
    rawLines (line ++ [newline]) = [chomp line] := by
  unfold rawLines
  rw [linesFrom_of_not_mem h]
  simp [linesFrom]

/-- A last line without its terminator. -/
theorem rawLines_rest {line : Bytes} (h : newline ∉ line) (hne : line ≠ []) :
    rawLines line = [line] := by
  have := linesFrom_of_not_mem h [] []
  simp only [List.append_nil, List.nil_append] at this
  simp [rawLines, this, linesFrom, hne]

/-- Every file is a terminated part and a rest without line feed. -/
theorem split_last (file : Bytes) :
    ∃ front rest, file = front ++ rest ∧ Terminated front ∧ newline ∉ rest := by
  induction file using List.reverseRecOn with
  | nil => exact ⟨[], [], rfl, .inl rfl, by simp⟩
  | append_singleton file b ih =>
    by_cases hb : b = newline
    · exact ⟨file ++ [b], [], by simp, hb ▸ terminated_snoc file, by simp⟩
    · obtain ⟨front, rest, rfl, hf, hr⟩ := ih
      refine ⟨front, rest ++ [b], by simp, hf, ?_⟩
      simp only [List.mem_append, List.mem_singleton, not_or]
      exact ⟨hr, Ne.symm hb⟩

/-- Writing one more line to a file whose last line is not terminated does not
make one more line. -/
theorem rawLines_merge {file line : Bytes} (hf : ¬ Terminated file) (h : newline ∉ line) :
    (rawLines (file ++ (line ++ [newline]))).length = (rawLines file).length := by
  obtain ⟨front, rest, rfl, hfront, hrest⟩ := split_last file
  have hne : rest ≠ [] := by
    intro same
    subst same
    exact hf (by simpa using hfront)
  have hmerged : newline ∉ rest ++ line := by simp [hrest, h]
  rw [List.append_assoc, rawLines_append hfront, rawLines_append hfront, rawLines_rest hrest hne,
    ← List.append_assoc, rawLines_line hmerged]
  simp

/-- What ends in other bytes than a line feed is not terminated. -/
theorem not_terminated_append {file rest : Bytes} (hne : rest ≠ []) (h : newline ∉ rest) :
    ¬ Terminated (file ++ rest) := by
  intro hterminated
  rcases hterminated with hnil | hlast
  · exact hne (List.append_eq_nil_iff.mp hnil).2
  · rw [List.getLast?_append_of_ne_nil _ hne] at hlast
    exact h (List.mem_of_getLast? hlast)

/-! ## Line breaks in a text and in its bytes -/

theorem utf8_eq_flatMap (s : String) : utf8 s = s.toList.flatMap String.utf8EncodeChar := by
  unfold utf8
  rw [← String.utf8Encode_toList]
  unfold List.utf8Encode
  simp

/-- A byte below 128 in the encoding of a character is that character: the
bytes of a longer encoding are all 128 or more. -/
theorem ascii_mem_utf8EncodeChar {b : UInt8} {c : Char} (h : b ∈ String.utf8EncodeChar c)
    (hb : b.toNat < 128) : c.toNat = b.toNat := by
  unfold String.utf8EncodeChar at h
  have hc : c.toNat = c.val.toNat := rfl
  simp only at h
  split at h
  · have hbe : b = UInt8.ofNat c.val.toNat := by simpa using h
    subst hbe
    simp only [UInt8.toNat_ofNat']
    omega
  · exfalso
    split at h
    · simp at h
      rcases h with h | h <;> subst h <;> simp at hb <;> omega
    · split at h
      · simp at h
        rcases h with h | h | h <;> subst h <;> simp at hb <;> omega
      · simp at h
        rcases h with h | h | h | h <;> subst h <;> simp at hb <;> omega

/-- An ASCII byte of a text's encoding stands for one of its characters. -/
theorem ascii_mem_utf8 {b : UInt8} {s : String} (h : b ∈ utf8 s) (hb : b.toNat < 128) :
    Char.ofNat b.toNat ∈ s.toList := by
  rw [utf8_eq_flatMap, List.mem_flatMap] at h
  obtain ⟨c, hc, hbc⟩ := h
  have hn := ascii_mem_utf8EncodeChar hbc hb
  rwa [← hn, Char.ofNat_toNat]

/-- A text without raw line breaks. -/
def SingleLine (s : String) : Prop := '\n' ∉ s.toList ∧ '\r' ∉ s.toList

instance (s : String) : Decidable (SingleLine s) := inferInstanceAs (Decidable (_ ∧ _))

theorem SingleLine.newline_not_mem {s : String} (h : SingleLine s) : newline ∉ utf8 s :=
  fun hm => h.1 (ascii_mem_utf8 hm (by decide))

/-- A line that ends with a text of one line keeps its last byte. -/
theorem SingleLine.chomp_append {s : String} (h : SingleLine s) (hne : utf8 s ≠ [])
    (b : Bytes) : chomp (b ++ utf8 s) = b ++ utf8 s := by
  unfold Lines.chomp
  rw [if_neg]
  intro hlast
  rw [List.getLast?_append_of_ne_nil _ hne] at hlast
  exact h.2 (ascii_mem_utf8 (List.mem_of_getLast? hlast) (by decide))

theorem SingleLine.chomp {s : String} (h : SingleLine s) : chomp (utf8 s) = utf8 s := by
  by_cases hne : utf8 s = []
  · rw [hne]
    rfl
  · exact h.chomp_append hne []

/-- The bytes one `writeln!` of a text leaves. -/
def lineBytes (s : String) : Bytes := utf8 s ++ [newline]

theorem terminated_append_lineBytes (file : Bytes) (s : String) :
    Terminated (file ++ lineBytes s) := by
  unfold lineBytes
  rw [← List.append_assoc]
  exact terminated_snoc _

/-- A text written on a line of its own after a terminated file is the line
read after the file's lines. -/
theorem readLines_append_line {file : Bytes} {s : String} (hf : Terminated file)
    (h : SingleLine s) :
    readLines (file ++ lineBytes s) = readLines file ++ [some s] := by
  unfold readLines lineBytes
  rw [rawLines_append hf, rawLines_line h.newline_not_mem, h.chomp]
  simp [decode_utf8]

/-- A file whose last line has no terminator. -/
theorem readLines_rest {front rest : Bytes} (hf : Terminated front) (hne : rest ≠ [])
    (h : newline ∉ rest) : readLines (front ++ rest) = readLines front ++ [decode rest] := by
  unfold readLines
  rw [rawLines_append hf, rawLines_rest h hne]
  simp

/-- A text written behind a line without terminator: both are one line. -/
theorem readLines_merge {front rest : Bytes} {s : String} (hf : Terminated front)
    (h : newline ∉ rest) (hs : SingleLine s) (hne : utf8 s ≠ []) :
    readLines (front ++ rest ++ lineBytes s) =
      readLines front ++ [decode (rest ++ utf8 s)] := by
  have hmerged : newline ∉ rest ++ utf8 s := by simp [h, hs.newline_not_mem]
  unfold readLines lineBytes
  rw [List.append_assoc, rawLines_append hf, ← List.append_assoc, rawLines_line hmerged,
    hs.chomp_append hne]
  simp

/-- The first line of a file and the lines behind it. -/
theorem readLines_cons {line : Bytes} (h : newline ∉ line) (rest : Bytes) :
    readLines (line ++ newline :: rest) = decode (chomp line) :: readLines rest := by
  have hsplit : line ++ newline :: rest = (line ++ [newline]) ++ rest := by simp
  unfold readLines
  rw [hsplit, rawLines_append (terminated_snoc line), rawLines_line h]
  rfl

/-! ## Parsing every line -/

/-- All of a list parses exactly when its elements parse one by one. -/
theorem mapM_eq_some {α β : Type*} {f : α → Option β} {xs : List α} {ys : List β} :
    xs.mapM f = some ys ↔ List.Forall₂ (fun x y => f x = some y) xs ys := by
  induction xs generalizing ys with
  | nil => simp [eq_comm]
  | cons x xs ih =>
    rw [List.mapM_cons]
    cases hx : f x with
    | none =>
      simp only [Option.bind_eq_bind, Option.bind_none, reduceCtorEq, false_iff]
      rintro (_ | ⟨hy, _⟩)
      rw [hx] at hy
      cases hy
    | some y =>
      cases hxs : xs.mapM f with
      | none =>
        simp only [Option.bind_eq_bind, Option.bind_some, Option.bind_none, reduceCtorEq,
          false_iff]
        rintro (_ | ⟨_, hys⟩)
        rw [ih.mpr hys] at hxs
        cases hxs
      | some zs =>
        simp only [Option.bind_eq_bind, Option.bind_some, Option.pure_def, Option.some.injEq]
        constructor
        · intro same
          subst same
          exact .cons hx (ih.mp hxs)
        · rintro (_ | ⟨hy, hys⟩)
          rw [hx] at hy
          rw [ih.mpr hys] at hxs
          rw [Option.some.inj hy, Option.some.inj hxs]

/-- The values the lines stand for; one line that is not UTF-8 or does not
parse makes the whole reading fail. -/
def parseLines {α : Type*} (parse : String → Option α) (file : Bytes) : Option (List α) :=
  (readLines file).mapM fun line => line.bind parse

theorem parseLines_nil {α : Type*} (parse : String → Option α) :
    parseLines parse [] = some [] := rfl

theorem length_of_parseLines {α : Type*} {parse : String → Option α} {file : Bytes} {xs : List α}
    (h : parseLines parse file = some xs) : (rawLines file).length = xs.length := by
  have hf := (mapM_eq_some.mp h).length_eq
  simpa [readLines] using hf

theorem parseLines_append_line {α : Type*} {parse : String → Option α} {file : Bytes}
    {xs : List α} {s : String} {x : α} (hf : Terminated file) (hs : SingleLine s)
    (hx : parse s = some x) (h : parseLines parse file = some xs) :
    parseLines parse (file ++ lineBytes s) = some (xs ++ [x]) := by
  unfold parseLines at h ⊢
  rw [readLines_append_line hf hs, List.mapM_append, h]
  simp [hx]

/-- A file of one line. -/
theorem parseLines_line {α : Type*} {parse : String → Option α} {s : String} {x : α}
    (hs : SingleLine s) (hx : parse s = some x) :
    parseLines parse (lineBytes s) = some [x] := by
  have h := parseLines_append_line (.inl rfl) hs hx (parseLines_nil parse)
  exact h

/-- Where every line parses, every line is a text. -/
theorem texts_of_parseLines {α : Type*} {parse : String → Option α} {file : Bytes} {xs : List α}
    (h : parseLines parse file = some xs) :
    ∃ texts : List String, readLines file = texts.map some ∧ texts.mapM parse = some xs := by
  unfold parseLines at h
  have hall := mapM_eq_some.mp h
  generalize readLines file = lines at hall
  clear h
  induction hall with
  | nil => exact ⟨[], rfl, rfl⟩
  | cons hxy _ ih =>
    obtain ⟨text, rfl, htext⟩ := Option.bind_eq_some_iff.mp hxy
    obtain ⟨texts, rfl, hparse⟩ := ih
    refine ⟨text :: texts, rfl, ?_⟩
    rw [List.mapM_cons, htext, hparse]
    rfl

end VaultWatch.Lib.Lines
