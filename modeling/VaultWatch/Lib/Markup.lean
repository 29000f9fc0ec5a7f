import Mathlib.Data.List.Basic
import Mathlib.Tactic.SplitIfs

/-! Pages of markup and texts. In a text, the characters that markup is made of are
replaced by references, so a text neither opens nor closes a tag nor refers to another
character: whatever the texts are, the tags of a page and its quotation marks are those
of its markup, and every ampersand begins a reference. -/
namespace VaultWatch.Lib.Markup

/-! ## Tags -/

/-- The tag that is open behind `c`. -/
def step : Option (List Char) → Char → Option (List Char)
  | none, c => if c = '<' then some [c] else none
  | some tag, c => if c = '>' then none else some (tag ++ [c])

/-- The tag that ends with `c`. -/
def ended : Option (List Char) → Char → List (List Char)
  | none, _ => []
  | some tag, c => if c = '>' then [tag ++ [c]] else []

def tagsFrom : Option (List Char) → List Char → List (List Char)
  | _, [] => []
  | tag, c :: cs => ended tag c ++ tagsFrom (step tag c) cs

theorem tagsFrom_append (tag : Option (List Char)) (cs ds : List Char) :
    tagsFrom tag (cs ++ ds) = tagsFrom tag cs ++ tagsFrom (cs.foldl step tag) ds := by
  induction cs generalizing tag with
  | nil => rfl
  | cons c cs ih => simp [tagsFrom, ih]

/-- The `<...>` of a page, from left to right. -/
def tags (page : String) : List String :=
  (tagsFrom none page.toList).map String.ofList

/-- Every tag of `s` ends in it. -/
def Closed (s : String) : Prop :=
  s.toList.foldl step none = none

@[simp] theorem tags_empty : tags "" = [] := rfl

theorem Closed.tags_append {s : String} (closed : Closed s) (t : String) :
    tags (s ++ t) = tags s ++ tags t := by
  unfold tags
  rw [String.toList_append, tagsFrom_append, closed, List.map_append]

/-! ## Texts -/

/-- The reference to a character that markup is made of. -/
def escapeChar (c : Char) : List Char :=
  if c = '&' then "&amp;".toList
  else if c = '<' then "&lt;".toList
  else if c = '>' then "&gt;".toList
  else if c = '"' then "&quot;".toList
  else if c = '\x27' then "&#x27;".toList
  else [c]

def escape (s : String) : String :=
  String.ofList (s.toList.flatMap escapeChar)

/-- Not a character that opens or closes a tag or a quotation. -/
def Harmless (c : Char) : Prop := c ≠ '<' ∧ c ≠ '>' ∧ c ≠ '"' ∧ c ≠ '\x27'

instance (c : Char) : Decidable (Harmless c) := inferInstanceAs (Decidable (_ ∧ _))

/-- The characters of a page that open or close a tag or a quotation. -/
def bare (page : String) : List Char :=
  page.toList.filter fun c => ¬ Harmless c

theorem bare_append (s t : String) : bare (s ++ t) = bare s ++ bare t := by
  simp [bare]

theorem escapeChar_harmless (c : Char) : ∀ d ∈ escapeChar c, Harmless d := by
  unfold escapeChar
  split_ifs with amp lt gt quot apos
  · simp [Harmless]
  · simp [Harmless]
  · simp [Harmless]
  · simp [Harmless]
  · simp [Harmless]
  · intro d mem
    obtain rfl : d = c := by simpa using mem
    exact ⟨lt, gt, quot, apos⟩

theorem escape_harmless (s : String) : ∀ d ∈ (escape s).toList, Harmless d := by
  intro d mem
  unfold escape at mem
  rw [String.toList_ofList] at mem
  obtain ⟨c, _, escaped⟩ := List.mem_flatMap.mp mem
  exact escapeChar_harmless c d escaped

@[simp] theorem bare_escape (s : String) : bare (escape s) = [] := by
  unfold bare
  rw [List.filter_eq_nil_iff]
  intro c mem
  simpa using escape_harmless s c mem

theorem lt_notMem_escape (s : String) : '<' ∉ (escape s).toList :=
  fun mem => (escape_harmless s _ mem).1 rfl

/-! ## References -/

def references : List (List Char) :=
  ["&amp;".toList, "&lt;".toList, "&gt;".toList, "&quot;".toList, "&#x27;".toList]

/-- Every ampersand begins a reference. -/
def Referring (cs : List Char) : Prop :=
  ∀ rest, '&' :: rest <:+ cs → ∃ r ∈ references, r <+: '&' :: rest

namespace Referring

variable {cs ds : List Char}

theorem of_notMem (none : '&' ∉ cs) : Referring cs :=
  fun _ ends => absurd (ends.subset List.mem_cons_self) none

theorem of_reference (own : '&' :: cs ∈ references) (none : '&' ∉ cs) : Referring ('&' :: cs) := by
  intro rest ends
  rcases List.suffix_cons_iff.mp ends with same | later
  · rw [same]
    exact ⟨_, own, List.prefix_rfl⟩
  · exact absurd (later.subset List.mem_cons_self) none

theorem append (first : Referring cs) (second : Referring ds) : Referring (cs ++ ds) := by
  rintro rest ⟨before, split⟩
  obtain ⟨between, rfl, ends⟩ | ⟨after, rfl, ends⟩ := List.append_eq_append_iff.mp split
  · cases between with
    | nil => exact second rest ⟨[], ends⟩
    | cons c between =>
      -- the ampersand is in the first part, and its reference ends there
      obtain ⟨rfl, rfl⟩ := List.cons.inj ends
      obtain ⟨r, known, begins⟩ := first between ⟨before, rfl⟩
      exact ⟨r, known, begins.trans ⟨ds, rfl⟩⟩
  · exact second rest ⟨after, ends.symm⟩

end Referring

theorem escapeChar_referring (c : Char) : Referring (escapeChar c) := by
  unfold escapeChar
  split_ifs with amp
  · exact .of_reference (by decide) (by decide)
  · exact .of_reference (by decide) (by decide)
  · exact .of_reference (by decide) (by decide)
  · exact .of_reference (by decide) (by decide)
  · exact .of_reference (by decide) (by decide)
  · exact .of_notMem fun mem => amp (List.mem_singleton.mp mem).symm

theorem escape_referring (s : String) : Referring (escape s).toList := by
  unfold escape
  rw [String.toList_ofList]
  induction s.toList with
  | nil => exact .of_notMem List.not_mem_nil
  | cons c cs ih => exact (escapeChar_referring c).append ih

/-! ## Tags of a text -/

/-- Without an opening character there is no tag. -/
theorem untagged {cs : List Char} (unopened : '<' ∉ cs) :
    tagsFrom none cs = [] ∧ cs.foldl step none = none := by
  induction cs with
  | nil => exact ⟨rfl, rfl⟩
  | cons c cs ih =>
    have other : c ≠ '<' := fun same => unopened (by simp [same])
    have own : step none c = none := if_neg other
    obtain ⟨none, after⟩ := ih fun mem => unopened (List.mem_cons_of_mem _ mem)
    rw [tagsFrom, List.foldl_cons, own]
    exact ⟨none, after⟩

theorem escape_closed (s : String) : Closed (escape s) :=
  (untagged (lt_notMem_escape s)).2

@[simp] theorem tags_escape (s : String) : tags (escape s) = [] := by
  unfold tags
  rw [(untagged (lt_notMem_escape s)).1]
  rfl

/-! ## Templates -/

/-- Markup, or a place for a text. -/
inductive Piece
  | markup (s : String)
  | text

def Piece.tags : Piece → List String
  | markup s => Markup.tags s
  | text => []

def Piece.bare : Piece → List Char
  | markup s => Markup.bare s
  | text => []

/-- What stands between texts: its tags end in it, and it refers to no character. -/
structure Literal (s : String) : Prop where
  closed : Closed s
  unreferring : '&' ∉ s.toList

theorem Literal.ofList {cs : List Char} (closed : cs.foldl step none = none)
    (unreferring : '&' ∉ cs) : Literal (String.ofList cs) where
  closed := by
    unfold Closed
    rw [String.toList_ofList]
    exact closed
  unreferring := by rwa [String.toList_ofList]

/-- The page is the template with the texts, escaped, in its places for them. No place is
within a tag. -/
inductive Fills : List Piece → List String → String → Prop
  | nil : Fills [] [] ""
  | markup {s page : String} (literal : Literal s) {template : List Piece} {texts : List String}
      (rest : Fills template texts page) : Fills (.markup s :: template) texts (s ++ page)
  | text (s : String) {page : String} {template : List Piece} {texts : List String}
      (rest : Fills template texts page) : Fills (.text :: template) (s :: texts) (escape s ++ page)

namespace Fills

variable {template template' : List Piece} {texts texts' : List String} {page page' : String}

theorem tags (fills : Fills template texts page) :
    Markup.tags page = template.flatMap Piece.tags := by
  induction fills with
  | nil => rfl
  | markup literal _ ih => rw [literal.closed.tags_append, ih]; rfl
  | text s _ ih => rw [(escape_closed s).tags_append, ih, tags_escape]; rfl

theorem bare (fills : Fills template texts page) :
    Markup.bare page = template.flatMap Piece.bare := by
  induction fills with
  | nil => rfl
  | markup _ _ ih => rw [bare_append, ih]; rfl
  | text s _ ih => rw [bare_append, ih, bare_escape]; rfl

theorem referring (fills : Fills template texts page) : Referring page.toList := by
  induction fills with
  | nil => exact .of_notMem List.not_mem_nil
  | markup literal _ ih =>
    rw [String.toList_append]
    exact (Referring.of_notMem literal.unreferring).append ih
  | text s _ ih =>
    rw [String.toList_append]
    exact (escape_referring s).append ih

theorem append (fills : Fills template texts page) (fills' : Fills template' texts' page') :
    Fills (template ++ template') (texts ++ texts') (page ++ page') := by
  induction fills with
  | nil => rwa [String.empty_append]
  | markup literal _ ih => rw [String.append_assoc]; exact .markup literal ih
  | text s _ ih => rw [String.append_assoc]; exact .text s ih

theorem literal {s : String} (literal : Literal s) : Fills [.markup s] [] s := by
  simpa using Fills.markup literal .nil

theorem escaped (s : String) : Fills [.text] [s] (escape s) := by
  simpa using Fills.text s .nil

theorem of_eq (fills : Fills template texts page) (same : texts = texts') :
    Fills template texts' page := same ▸ fills

/-- A text in which nothing is replaced. -/
theorem plain {s : String} (same : s.toList.flatMap escapeChar = s.toList) :
    Fills [.text] [s] s := by
  have own : escape s = s := by
    unfold escape
    rw [same, String.ofList_toList]
  have fills := Fills.escaped s
  rwa [own] at fills

end Fills

/-! ## Rendering -/

/-- What the computation returns has the property. -/
def Ensures {ε α : Type} (m : Except ε α) (P : α → Prop) : Prop :=
  ∀ a, m = .ok a → P a

namespace Ensures

variable {ε α β : Type} {m : Except ε α} {k : α → Except ε β} {P : β → Prop}

theorem pure {b : β} (holds : P b) : Ensures (Pure.pure b : Except ε β) P := by
  rintro _ ⟨⟩
  exact holds

theorem bind (rest : ∀ a, m = .ok a → Ensures (k a) P) : Ensures (m >>= k) P := by
  intro b returned
  cases m with
  | error e => cases returned
  | ok a => exact rest a rfl b returned

/-- Whatever is read. -/
theorem any (rest : ∀ a, Ensures (k a) P) : Ensures (m >>= k) P :=
  .bind fun a _ => rest a

end Ensures

/-- Whatever page is returned, the texts are too, and the page is the template with them. -/
def Renders {ε : Type} (template : List Piece) (m : Except ε String)
    (shown : Except ε (List String)) : Prop :=
  Ensures m fun page => ∃ texts, shown = .ok texts ∧ Fills template texts page

namespace Renders

variable {ε α : Type} {template : List Piece}

theorem pure {page : String} {texts texts' : List String} (fills : Fills template texts page)
    (same : texts = texts') :
    Renders template (Pure.pure page : Except ε String) (Pure.pure texts') :=
  Ensures.pure ⟨texts', rfl, fills.of_eq same⟩

/-- What both read. -/
theorem read {m : Except ε α} {k : α → Except ε String} {k' : α → Except ε (List String)}
    (rest : ∀ a, Renders template (k a) (k' a)) : Renders template (m >>= k) (m >>= k') := by
  refine Ensures.bind fun a found page returned => ?_
  subst found
  exact rest a page returned

end Renders

/-- A row for each item. -/
theorem mapM_renders {ε α : Type} {row : α → Except ε String} {shown : α → Except ε (List String)}
    {template : List Piece} (renders : ∀ a, Renders template (row a) (shown a)) (items : List α) :
    Ensures (items.mapM row) fun rows => ∃ texts, items.mapM shown = .ok texts ∧
      Fills (List.replicate items.length template).flatten texts.flatten (String.join rows) := by
  induction items with
  | nil => exact .pure ⟨[], rfl, .nil⟩
  | cons item items ih =>
    rw [List.mapM_cons]
    refine .bind fun first own => .bind fun rows others => .pure ?_
    obtain ⟨texts, found, fills⟩ := renders item first own
    obtain ⟨later, read, rest⟩ := ih rows others
    refine ⟨texts :: later, ?_, ?_⟩
    · rw [List.mapM_cons, found, read]
      rfl
    · rw [String.join_cons]
      exact fills.append rest

end VaultWatch.Lib.Markup
