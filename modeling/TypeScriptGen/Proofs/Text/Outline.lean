import Mathlib.Data.List.Forall2
import TypeScriptGen.Proofs.Text.Indentation

/-!
# Outlines

An outline is a text before it is indented: its lines, each with the depth at
which it stands. Outlines are put behind and below one another as texts are, and
each way to build one has a lemma that says what text it lays out, for every
margin. A text that is moved to the right is the same outline one level deeper.
-/

namespace TypeScriptGen

/-- A line and the number of bodies, clauses and member lists around it. -/
structure Line where
  depth : Nat
  text : Text
deriving DecidableEq

namespace Line

/-- A blank line is left as it is, any other gets the margin once for every level. -/
def shown (margin : Nat) (line : Line) : Text :=
  if Text.isBlankLine line.text then line.text
  else Text.spaces (margin * line.depth) ++ line.text

/-- A line that goes on stands as deep as its first part that is not blank. -/
def append (first second : Line) : Line :=
  ⟨if Text.isBlankLine first.text then second.depth else first.depth, first.text ++ second.text⟩

theorem shown_eq (margin : Nat) (line : Line) :
    line.shown margin = Text.indentLine (margin * line.depth) line.text := rfl

/-- A line is moved as a whole, by the margin of its first visible part. -/
theorem shown_append {margin depth : Nat} {last : Line} {front : Text}
    (same : last.shown margin = Text.indentLine (margin * depth) front) (next : Text) :
    (last.append ⟨depth, next⟩).shown margin =
      Text.indentLine (margin * depth) (front ++ next) := by
  rw [shown_eq] at same
  have alike : Text.isBlankLine last.text = Text.isBlankLine front := by
    rw [← Text.isBlankLine_indentLine (margin * last.depth), same, Text.isBlankLine_indentLine]
  cases blank : Text.isBlankLine last.text with
  | true =>
      rw [Text.indentLine_of_blank _ blank, Text.indentLine_of_blank _ (alike ▸ blank)] at same
      rw [append, if_pos blank, same, shown_eq]
  | false =>
      have visible : Text.isBlankLine (last.text ++ next) = false := by
        rw [Text.isBlankLine_append, blank, Bool.false_and]
      have also : Text.isBlankLine (front ++ next) = false := by
        rw [Text.isBlankLine_append, ← alike, blank, Bool.false_and]
      rw [Text.indentLine_of_visible _ blank, Text.indentLine_of_visible _ (alike ▸ blank)] at same
      rw [append, if_neg (by rw [blank]; exact Bool.false_ne_true), shown_eq,
        Text.indentLine_of_visible _ visible, Text.indentLine_of_visible _ also,
        ← List.append_assoc, same, List.append_assoc]

end Line

structure Outline where
  lines : List Line
deriving DecidableEq

namespace Outline

/-- The text with every line at its depth. -/
def shown (margin : Nat) (outline : Outline) : Text :=
  ['\n'].intercalate (outline.lines.map (Line.shown margin))

/-- A text at one depth. -/
def flat (depth : Nat) (text : Text) : Outline := ⟨(Text.splitOn '\n' text).map (Line.mk depth)⟩

def joinLines : List Line → List Line → List Line
  | [], behind => behind
  | [last], [] => [last]
  | [last], next :: behind => last.append next :: behind
  | line :: following :: before, behind => line :: joinLines (following :: before) behind

/-- The second outline goes on where the first ends. -/
instance : Append Outline := ⟨fun first second => ⟨joinLines first.lines second.lines⟩⟩

/-- Outlines below one another. -/
def stacked (head : Outline) (items : List Outline) : Outline := ⟨head.lines ++ items.flatMap lines⟩

/-! ## What text an outline lays out -/

/-- The outline shows the text, moved to the right for the depth. -/
structure Shows (margin depth : Nat) (outline : Outline) (text : Text) : Prop where
  lines : outline.lines.map (Line.shown margin) =
    (Text.splitOn '\n' text).map (Text.indentLine (margin * depth))

/-- The outline shows the text and starts at the depth, so that it can stand behind another. -/
structure Lays (margin depth : Nat) (outline : Outline) (text : Text) : Prop
    extends Shows margin depth outline text where
  starts : outline.lines.head? = (Text.splitOn '\n' text).head?.map (Line.mk depth)

section Laying

variable {margin depth : Nat} {first second head : Outline} {front back text : Text}
  {items : List Outline} {texts : List Text}

theorem Shows.shown_eq (shows : Shows margin depth first text) :
    first.shown margin = Text.indentBy (margin * depth) text :=
  congrArg ['\n'].intercalate shows.lines

/-- The lines of an outline are lines. -/
theorem Shows.oneLine (shows : Shows margin depth first text) :
    ∀ line ∈ first.lines, '\n' ∉ line.text := by
  intro line member inside
  have shown : line.shown margin ∈ first.lines.map (Line.shown margin) :=
    List.mem_map_of_mem member
  rw [shows.lines] at shown
  obtain ⟨piece, among, same⟩ := List.mem_map.mp shown
  rw [Line.shown_eq] at same
  have moved : '\n' ∈ Text.indentLine (margin * line.depth) line.text :=
    Text.lineFeed_mem_indentLine.mpr inside
  rw [← same] at moved
  exact Text.not_mem_of_mem_lines among (Text.lineFeed_mem_indentLine.mp moved)

theorem exists_lines (text : Text) :
    ∃ next behind, Text.splitOn '\n' text = next :: behind :=
  List.exists_cons_of_ne_nil (Text.splitWhere_ne_nil _ text)

theorem Shows.exists_last (shows : Shows margin depth first text) :
    ∃ before last pieces piece, first.lines = before ++ [last] ∧
      Text.splitOn '\n' text = pieces ++ [piece] ∧
      before.map (Line.shown margin) = pieces.map (Text.indentLine (margin * depth)) ∧
      last.shown margin = Text.indentLine (margin * depth) piece := by
  obtain ⟨pieces, piece, cut⟩ :=
    (List.eq_nil_or_concat (Text.splitOn '\n' text)).resolve_left (Text.splitWhere_ne_nil _ text)
  rw [List.concat_eq_append] at cut
  have same := shows.lines
  rw [cut, List.map_append] at same
  obtain ⟨before, rest, lines, left, right⟩ := List.map_eq_append_iff.mp same
  obtain ⟨last, rfl, shown⟩ := List.map_eq_singleton_iff.mp right
  exact ⟨before, last, pieces, piece, lines, cut, left, shown⟩

theorem Lays.exists_first (lays : Lays margin depth first text) :
    ∃ next behind pieces, first.lines = ⟨depth, next⟩ :: behind ∧
      Text.splitOn '\n' text = next :: pieces ∧
      behind.map (Line.shown margin) = pieces.map (Text.indentLine (margin * depth)) := by
  obtain ⟨next, pieces, cut⟩ := exists_lines text
  have starts := lays.starts
  have same := lays.lines
  rw [cut] at starts same
  obtain ⟨behind, lines⟩ := List.head?_eq_some_iff.mp starts
  rw [lines, List.map_cons, List.map_cons] at same
  exact ⟨next, behind, pieces, lines, cut, (List.cons.inj same).2⟩

theorem lays_flat (margin depth : Nat) (text : Text) :
    Lays margin depth (flat depth text) text where
  lines := by
    rw [flat, List.map_map]
    rfl
  starts := List.head?_map

theorem joinLines_concat (before behind : List Line) (last next : Line) :
    joinLines (before ++ [last]) (next :: behind) = before ++ last.append next :: behind := by
  induction before with
  | nil => rfl
  | cons line before ih =>
      obtain ⟨following, rest, same⟩ := List.exists_cons_of_ne_nil (l := before ++ [last]) (by simp)
      rw [same] at ih
      rw [List.cons_append, same, joinLines, ih]
      rfl

theorem lines_append {before behind : List Line} {last next : Line}
    (ends : first.lines = before ++ [last]) (starts : second.lines = next :: behind) :
    (first ++ second).lines = before ++ last.append next :: behind := by
  rw [← joinLines_concat, ← ends, ← starts]
  rfl

theorem Shows.append (shows : Shows margin depth first front)
    (lays : Lays margin depth second back) :
    Shows margin depth (first ++ second) (front ++ back) := by
  obtain ⟨before, last, pieces, piece, ends, cut, left, shown⟩ := shows.exists_last
  obtain ⟨next, behind, more, starts, other, right⟩ := lays.exists_first
  constructor
  rw [lines_append ends starts, Text.splitOn_append cut other, List.map_append, List.map_append,
    List.map_cons, List.map_cons, left, right, Line.shown_append shown]

theorem Lays.append (one : Lays margin depth first front) (two : Lays margin depth second back) :
    Lays margin depth (first ++ second) (front ++ back) := by
  refine ⟨one.toShows.append two, ?_⟩
  obtain ⟨before, last, pieces, piece, ends, cut, left, _⟩ := one.toShows.exists_last
  obtain ⟨next, behind, more, starts, other, _⟩ := two.exists_first
  have opening := one.starts
  rw [ends, cut] at opening
  rw [lines_append ends starts, Text.splitOn_append cut other]
  -- A single line is the one at which the outlines meet.
  cases before with
  | nil =>
      rw [List.map_eq_nil_iff.mp left.symm] at opening ⊢
      have only : last = ⟨depth, piece⟩ := Option.some.inj opening
      simp [only, Line.append]
  | cons line before =>
      cases pieces with
      | nil => cases left
      | cons start pieces => exact opening

theorem Shows.deeper (shows : Shows margin (depth + 1) first text) :
    Shows margin depth first (Text.indentBy margin text) := by
  constructor
  rw [shows.lines, Text.splitOn_indentBy, List.map_map, Text.indentLine_comp]
  rfl

theorem shows_below (shows : List.Forall₂ (Shows margin depth) items texts) :
    (items.flatMap lines).map (Line.shown margin) =
      (texts.flatMap (Text.splitOn '\n')).map (Text.indentLine (margin * depth)) := by
  induction shows with
  | nil => rfl
  | cons item items ih =>
      rw [List.flatMap_cons, List.flatMap_cons, List.map_append, List.map_append, item.lines, ih]

theorem splitOn_below (head : Text) (texts : List Text) :
    Text.splitOn '\n' (['\n'].intercalate (head :: texts)) =
      Text.splitOn '\n' head ++ texts.flatMap (Text.splitOn '\n') := by
  induction texts generalizing head with
  | nil => rw [List.intercalate_singleton, List.flatMap_nil, List.append_nil]
  | cons text texts ih =>
      rw [List.intercalate_cons_cons, List.append_assoc, List.singleton_append,
        Text.splitOn_append_separator, ih, List.flatMap_cons]

theorem Lays.stacked (lays : Lays margin depth head text)
    (shows : List.Forall₂ (Shows margin depth) items texts) :
    Lays margin depth (head.stacked items) (['\n'].intercalate (text :: texts)) := by
  obtain ⟨next, behind, pieces, opens, cut, _⟩ := lays.exists_first
  constructor
  · constructor
    rw [splitOn_below, Outline.stacked, List.map_append, List.map_append, lays.lines,
      shows_below shows]
  · rw [splitOn_below, Outline.stacked, opens, cut]
    rfl

end Laying

end Outline

end TypeScriptGen
