import TypeScriptGen.Proofs.Text.Outline
import TypeScriptGen.Syntax.Printer

/-!
# Parts of printed texts as outlines

For every way in which the printer puts texts together, between braces, with
separators, with a comment above or with a semicolon behind, there is one that puts
outlines together, and it lays out the text that the printer makes.
-/

namespace TypeScriptGen

namespace Outline

def separated (depth : Nat) (separator : Text) : List Outline → Outline
  | [] => flat depth []
  | [item] => item
  | item :: items => item ++ flat depth separator ++ separated depth separator items

/-- Members or statements, which stand one level deeper than the braces. -/
def braced (depth : Nat) (items : List Outline) : Outline :=
  (flat depth ['\x7b']).stacked (items ++ [flat depth ['\x7d']])

def allButLast {α : Type} (change : α → α) : List α → List α
  | [] => []
  | [item] => [item]
  | item :: items => change item :: allButLast change items

/-- Every item but the last is followed by a comma, which stands as deep as the braces do. -/
def commaEnded (depth : Nat) (items : List Outline) : List Outline :=
  allButLast (fun item => item ++ flat depth [',']) items

def above (depth : Nat) (comment : List Text) (outline : Outline) : Outline :=
  if comment.isEmpty then outline else (flat depth (Comment.doc comment)).stacked [outline]

/-- The outline ends with one of the characters. -/
def endsWithAny (marks : List Char) (outline : Outline) : Bool :=
  match outline.lines.getLast? with
  | some line => Text.endsWithAny marks line.text
  | none => false

def terminated (depth : Nat) (outline : Outline) : Outline :=
  if outline.endsWithAny ['\x7d', ';'] then outline else outline ++ flat depth [';']

def optionalPart (depth : Nat) (keyword : String) : Option Outline → Outline
  | none => flat depth []
  | some part => flat depth keyword.toList ++ part

def angled (depth : Nat) (items : List Outline) : Outline :=
  if items.isEmpty then flat depth []
  else flat depth ['<'] ++ separated depth ", ".toList items ++ flat depth ['>']

def extended (depth : Nat) (parents : List Outline) : Outline :=
  if parents.isEmpty then flat depth []
  else flat depth " extends ".toList ++ separated depth ", ".toList parents

/-- An outline that may be missing. -/
def given (depth : Nat) (part : Option Outline) : Outline := part.getD (flat depth [])

/-- A part of a loop header behind its semicolon. -/
def headerPart (depth : Nat) (part : Outline) : Outline :=
  if part.lines = [⟨depth, []⟩] then flat depth [';'] else flat depth "; ".toList ++ part

def grouped (depth : Nat) (group : Bool) (element : Outline) : Outline :=
  if group then flat depth ['('] ++ element ++ flat depth [')'] else element

section Parts

variable {margin depth : Nat} {outline : Outline} {text : Text}
  {items : List Outline} {texts : List Text}

theorem lays_separated (separator : Text) (lays : List.Forall₂ (Lays margin depth) items texts) :
    Lays margin depth (separated depth separator items) (separator.intercalate texts) := by
  induction lays with
  | nil => exact lays_flat margin depth []
  | @cons item text items texts one more ih =>
      cases more with
      | nil =>
          rw [List.intercalate_singleton]
          exact one
      | cons two more =>
          rw [List.intercalate_cons_cons]
          exact (one.append (lays_flat margin depth separator)).append ih

theorem braced_eq (texts : List Text) :
    Printer.braced texts = ['\n'].intercalate (['\x7b'] :: (texts ++ [['\x7d']])) := by
  rw [List.intercalate_cons_of_ne_nil (by simp), Text.joined_concat]
  rfl

/-- What is one level deeper is laid out from the indented texts. -/
theorem shows_deeper (lays : List.Forall₂ (Lays margin (depth + 1)) items texts) :
    List.Forall₂ (Shows margin depth) items (texts.map (Text.indentBy margin)) := by
  rw [List.forall₂_map_right_iff]
  exact lays.imp fun _ _ one => one.toShows.deeper

theorem lays_braced (shows : List.Forall₂ (Shows margin depth) items texts) :
    Lays margin depth (braced depth items) (Printer.braced texts) := by
  have closing : List.Forall₂ (Shows margin depth) [flat depth ['\x7d']] [['\x7d']] :=
    .cons (lays_flat margin depth _).toShows .nil
  rw [braced_eq]
  exact (lays_flat margin depth _).stacked (List.rel_append shows closing)

theorem lays_body {engine : Engine} (lays : List.Forall₂ (Lays margin (depth + 1)) items texts) :
    Lays margin depth (braced depth items) (Printer.body ⟨engine, margin⟩ texts) :=
  lays_braced (shows_deeper lays)

theorem shows_commaEnded (shows : List.Forall₂ (Shows margin depth) items texts) :
    List.Forall₂ (Shows margin depth) (commaEnded depth items)
      (allButLast (fun text => text ++ [',']) texts) := by
  induction shows with
  | nil => exact .nil
  | cons one more ih =>
      cases more with
      | nil => exact .cons one .nil
      | cons two more => exact .cons (one.append (lays_flat margin depth [','])) ih

theorem braced_allButLast (texts : List Text) :
    Printer.braced (allButLast (fun text => text ++ [',']) texts) =
      '\x7b' :: '\n' :: ([',', '\n'].intercalate texts ++
        Template.whenSet (!texts.isEmpty) ['\n'] ++ ['\x7d']) := by
  have lines : ∀ texts : List Text,
      (allButLast (fun text => text ++ [',']) texts).flatMap (fun text => text ++ ['\n']) =
        [',', '\n'].intercalate texts ++ Template.whenSet (!texts.isEmpty) ['\n'] := by
    intro texts
    induction texts with
    | nil => rfl
    | cons text texts ih =>
        cases texts with
        | nil => simp [allButLast, Template.whenSet]
        | cons next texts =>
            rw [allButLast, List.flatMap_cons, ih, List.intercalate_cons_cons]
            · simp [Template.whenSet]
            · nofun
  rw [Printer.braced, lines]
  rfl

theorem lays_above (comment : List Text) (lays : Lays margin depth outline text) :
    Lays margin depth (above depth comment outline) (Comment.above comment text) := by
  unfold above Comment.above
  cases comment with
  | nil => exact lays
  | cons line lines =>
      have some : Comment.doc (line :: lines) ≠ [] := by simp [Comment.doc_eq_nil_iff]
      obtain ⟨c, rest, same⟩ := List.exists_cons_of_ne_nil some
      have below := (lays_flat margin depth (Comment.doc (line :: lines))).stacked
        (.cons lays.toShows .nil)
      rw [List.intercalate_cons_cons, List.intercalate_singleton, List.append_assoc] at below
      rw [same] at below ⊢
      exact below

/-- The last line of a text says how it ends. -/
theorem endsWithAny_lines {marks : List Char} (visible : marks.contains '\n' = false)
    {pieces : List Text} {piece : Text} (cut : Text.splitOn '\n' text = pieces ++ [piece]) :
    Text.endsWithAny marks text = Text.endsWithAny marks piece := by
  rcases List.eq_nil_or_concat text with rfl | ⟨front, c, rfl⟩
  · have empty : [] ++ [[]] = pieces ++ [piece] := cut
    have last : [] = piece := List.singleton_inj.mp (List.append_inj' empty rfl).2
    rw [last]
  · rw [List.concat_eq_append] at cut ⊢
    by_cases feed : c = '\n'
    · subst feed
      rw [Text.splitOn_append_separator] at cut
      have last : [] = piece := List.singleton_inj.mp (List.append_inj' cut rfl).2
      rw [← last]
      simpa [Text.endsWithAny] using visible
    · have single : Text.splitOn '\n' [c] = [[c]] :=
        Text.splitOn_of_not_mem (by simpa using fun same : '\n' = c => feed same.symm)
      obtain ⟨before, last, ends⟩ :=
        (List.eq_nil_or_concat (Text.splitOn '\n' front)).resolve_left
          (Text.splitWhere_ne_nil _ front)
      rw [List.concat_eq_append] at ends
      rw [Text.splitOn_append ends single] at cut
      have same : last ++ [c] = piece := List.singleton_inj.mp (List.append_inj' cut rfl).2
      rw [← same]
      simp [Text.endsWithAny]

theorem endsWithAny_eq {marks : List Char} (visible : marks.contains '\n' = false)
    (shows : Shows margin depth outline text) :
    outline.endsWithAny marks = Text.endsWithAny marks text := by
  obtain ⟨before, last, pieces, piece, ends, cut, _, shown⟩ := shows.exists_last
  have alike : last.text.getLast? = piece.getLast? := by
    rw [← Text.getLast?_indentLine (margin * last.depth), ← Line.shown_eq, shown,
      Text.getLast?_indentLine]
  rw [endsWithAny_lines visible cut, endsWithAny, ends, List.getLast?_concat]
  simp only [Text.endsWithAny, alike]

theorem lays_terminated (lays : Lays margin depth outline text) :
    Lays margin depth (terminated depth outline) (Printer.terminated text) := by
  have alike : outline.endsWithAny ['\x7d', ';'] = Text.endsWithAny ['\x7d', ';'] text :=
    endsWithAny_eq rfl lays.toShows
  unfold terminated Printer.terminated
  rw [alike]
  split
  · exact lays
  · exact lays.append (lays_flat margin depth [';'])

theorem lays_optionalPart (keyword : String) {part : Option Outline} {text : Option Text}
    (lays : Option.Rel (Lays margin depth) part text) :
    Lays margin depth (optionalPart depth keyword part) (Printer.optionalPart keyword text) := by
  cases lays with
  | none => exact lays_flat margin depth []
  | some lays => exact (lays_flat margin depth keyword.toList).append lays

theorem lays_angled (lays : List.Forall₂ (Lays margin depth) items texts) :
    Lays margin depth (angled depth items) (Printer.typeArguments texts) := by
  have inner := lays_separated ", ".toList lays
  cases lays with
  | nil => exact lays_flat margin depth []
  | cons one more =>
      exact ((lays_flat margin depth ['<']).append inner).append (lays_flat margin depth ['>'])

theorem lays_extended (lays : List.Forall₂ (Lays margin depth) items texts) :
    Lays margin depth (extended depth items) (Template.whenSet (!texts.isEmpty)
      (" extends ".toList ++ ", ".toList.intercalate texts)) := by
  have inner := lays_separated ", ".toList lays
  cases lays with
  | nil => exact lays_flat margin depth []
  | cons one more => exact (lays_flat margin depth " extends ".toList).append inner

theorem lays_given {part : Option Outline} {text : Option Text}
    (lays : Option.Rel (Lays margin depth) part text) :
    Lays margin depth (given depth part) (text.getD []) := by
  cases lays with
  | none => exact lays_flat margin depth []
  | some lays => exact lays

theorem lines_eq_iff (lays : Lays margin depth outline text) :
    outline.lines = [⟨depth, []⟩] ↔ text = [] := by
  obtain ⟨next, behind, pieces, lines, cut, more⟩ := lays.exists_first
  have whole := Text.intercalate_splitOn '\n' text
  rw [cut] at whole
  rw [lines]
  constructor
  · intro alone
    cases alone
    rw [List.map_nil] at more
    rw [List.map_eq_nil_iff.mp more.symm, List.intercalate_singleton] at whole
    exact whole.symm
  · rintro rfl
    cases cut
    rw [List.map_nil] at more
    rw [List.map_eq_nil_iff.mp more]

theorem lays_headerPart (lays : Lays margin depth outline text) :
    Lays margin depth (headerPart depth outline) (Printer.headerPart text) := by
  unfold headerPart Printer.headerPart
  by_cases empty : text = []
  · rw [if_pos ((lines_eq_iff lays).mpr empty), if_pos (List.isEmpty_iff.mpr empty)]
    exact lays_flat margin depth [';']
  · rw [if_neg fun same => empty ((lines_eq_iff lays).mp same),
      if_neg fun same => empty (List.isEmpty_iff.mp same)]
    exact (lays_flat margin depth "; ".toList).append lays

theorem lays_grouped {element : Node} {group : Bool} (lays : Lays margin depth outline text)
    (same : group = Printer.needsGroup element text) :
    Lays margin depth (grouped depth group outline) (Printer.grouped element text) := by
  unfold grouped Printer.grouped
  rw [same]
  split
  · exact ((lays_flat margin depth ['(']).append lays).append (lays_flat margin depth [')'])
  · exact lays

end Parts

end Outline

end TypeScriptGen
