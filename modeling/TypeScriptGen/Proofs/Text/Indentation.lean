import TypeScriptGen.Proofs.Text.Pieces
import TypeScriptGen.Text.Line

/-!
# Indented lines

Cutting a text at its line feeds and joining lines undo each other, and where two
texts meet only the line at which they meet changes. Indenting works on each line
for itself and leaves blank lines alone, so indenting twice is indenting once by
the sum.
-/

namespace TypeScriptGen.Text

/-! ## One line -/

theorem isBlankLine_append (first second : Text) :
    isBlankLine (first ++ second) = (isBlankLine first && isBlankLine second) :=
  List.all_append

theorem isBlankLine_spaces (count : Nat) : isBlankLine (spaces count) = true := by
  have blank : isBlank ' ' = true := rfl
  simp [isBlankLine, spaces, blank]

theorem indentLine_of_blank {line : Text} (margin : Nat) (blank : isBlankLine line = true) :
    indentLine margin line = line := if_pos blank

theorem indentLine_of_visible {line : Text} (margin : Nat) (visible : isBlankLine line = false) :
    indentLine margin line = spaces margin ++ line := by
  rw [indentLine, visible]
  exact if_neg Bool.false_ne_true

theorem isBlankLine_indentLine (margin : Nat) (line : Text) :
    isBlankLine (indentLine margin line) = isBlankLine line := by
  unfold indentLine
  split
  · rfl
  · rw [isBlankLine_append, isBlankLine_spaces, Bool.true_and]

theorem indentLine_zero (line : Text) : indentLine 0 line = line := ite_self line

theorem indentLine_indentLine (outer inner : Nat) (line : Text) :
    indentLine outer (indentLine inner line) = indentLine (outer + inner) line := by
  cases blank : isBlankLine line with
  | true => rw [indentLine_of_blank inner blank, indentLine_of_blank outer blank,
      indentLine_of_blank _ blank]
  | false =>
      have moved : isBlankLine (indentLine inner line) = false := by
        rw [isBlankLine_indentLine, blank]
      rw [indentLine_of_visible outer moved, indentLine_of_visible inner blank,
        indentLine_of_visible _ blank, ← List.append_assoc]
      exact congrArg (· ++ line) List.replicate_append_replicate

theorem indentLine_comp (outer inner : Nat) :
    indentLine outer ∘ indentLine inner = indentLine (outer + inner) :=
  funext (indentLine_indentLine outer inner)

theorem mem_indentLine {margin : Nat} {line : Text} {c : Char} (visible : isBlank c = false) :
    c ∈ indentLine margin line ↔ c ∈ line := by
  unfold indentLine
  split
  · rfl
  · rw [List.mem_append]
    refine or_iff_right fun space => ?_
    rw [List.eq_of_mem_replicate space] at visible
    cases visible

theorem lineFeed_mem_indentLine {margin : Nat} {line : Text} :
    '\n' ∈ indentLine margin line ↔ '\n' ∈ line := by
  unfold indentLine
  split
  · rfl
  · rw [List.mem_append]
    exact or_iff_right fun space => absurd (List.eq_of_mem_replicate space) (by decide)

/-- A line ends as it did before it was indented. -/
theorem getLast?_indentLine (margin : Nat) (line : Text) :
    (indentLine margin line).getLast? = line.getLast? := by
  unfold indentLine
  split
  · rfl
  · next visible =>
      have some : line ≠ [] := by
        rintro rfl
        exact visible rfl
      rw [List.getLast?_append, List.getLast?_eq_some_getLast some]
      rfl

/-! ## Several lines -/

theorem not_mem_of_mem_splitWhere {stop : Char → Bool} {text piece : Text}
    (member : piece ∈ splitWhere stop text) : ∀ c ∈ piece, stop c = false := by
  intro c inside
  have kept : c ∈ (splitWhere stop text).flatten := List.mem_flatten.mpr ⟨piece, member, inside⟩
  rw [splitWhere_flatten] at kept
  simpa using (List.mem_filter.mp kept).2

theorem not_mem_of_mem_lines {text line : Text} (member : line ∈ splitOn '\n' text) :
    '\n' ∉ line :=
  fun inside => absurd (not_mem_of_mem_splitWhere member '\n' inside) (by decide)

theorem oneLine_of_splitOn {text line : Text} (single : splitOn '\n' text = [line]) :
    '\n' ∉ text := by
  have whole := intercalate_splitOn '\n' text
  rw [single, List.intercalate_singleton] at whole
  have among : text ∈ splitOn '\n' text := by
    rw [single, whole]
    exact List.mem_cons_self
  exact not_mem_of_mem_lines among

theorem splitOn_indentBy (margin : Nat) (text : Text) :
    splitOn '\n' (indentBy margin text) = (splitOn '\n' text).map (indentLine margin) := by
  refine splitOn_intercalate (by simpa [splitOn] using splitWhere_ne_nil _ text) fun line member => ?_
  obtain ⟨piece, among, rfl⟩ := List.mem_map.mp member
  exact fun inside => not_mem_of_mem_lines among (lineFeed_mem_indentLine.mp inside)

/-- Moving a text to the right adds no line and takes none away. -/
theorem lineFeed_mem_indentBy {margin : Nat} {text : Text} :
    '\n' ∈ indentBy margin text ↔ '\n' ∈ text := by
  have moved := splitOn_indentBy margin text
  refine Decidable.not_iff_not.mp ⟨fun single => ?_, fun single => ?_⟩
  · rw [splitOn_of_not_mem single] at moved
    obtain ⟨line, own, _⟩ := List.map_eq_singleton_iff.mp moved.symm
    exact oneLine_of_splitOn own
  · rw [splitOn_of_not_mem single] at moved
    exact oneLine_of_splitOn moved

theorem indentBy_of_oneLine {margin : Nat} {line : Text} (single : '\n' ∉ line)
    (visible : isBlankLine line = false) : indentBy margin line = spaces margin ++ line := by
  rw [indentBy, splitOn_of_not_mem single, List.map_singleton, List.intercalate_singleton,
    indentLine_of_visible margin visible]

theorem indentBy_zero (text : Text) : indentBy 0 text = text := by
  have same : indentLine 0 = id := funext indentLine_zero
  rw [indentBy, same, List.map_id, intercalate_splitOn]

theorem joined_concat (texts : List Text) (last : Text) :
    ['\n'].intercalate (texts ++ [last]) = texts.flatMap (fun text => text ++ ['\n']) ++ last := by
  induction texts with
  | nil => exact List.intercalate_singleton
  | cons text texts ih =>
      rw [List.cons_append, List.intercalate_cons_of_ne_nil (by simp), ih, List.flatMap_cons]
      simp only [List.append_assoc]

theorem getLast?_closed (lines : List Text) :
    (lines.flatMap fun line => line ++ ['\n']).getLast? = lines.getLast?.map fun _ => '\n' := by
  rcases List.eq_nil_or_concat lines with rfl | ⟨before, last, rfl⟩
  · rfl
  · rw [List.concat_eq_append, List.flatMap_append, List.flatMap_singleton, ← List.append_assoc,
      List.getLast?_concat, List.getLast?_concat]
    rfl

/-- A text ends as it did before it was indented. -/
theorem getLast?_indentBy (margin : Nat) (text : Text) :
    (indentBy margin text).getLast? = text.getLast? := by
  obtain ⟨before, last, ends⟩ :=
    (List.eq_nil_or_concat (splitOn '\n' text)).resolve_left (splitWhere_ne_nil _ text)
  rw [List.concat_eq_append] at ends
  have whole := intercalate_splitOn '\n' text
  rw [ends, joined_concat] at whole
  rw [indentBy, ends, List.map_append, List.map_singleton, joined_concat, ← whole,
    List.getLast?_append, List.getLast?_append, getLast?_indentLine, getLast?_closed,
    getLast?_closed, List.getLast?_map, Option.map_map]
  rfl

/-- Joined lines go on with the first of further joined lines. -/
theorem joined_append (before behind : List Text) (last next : Text) :
    ['\n'].intercalate (before ++ [last]) ++ ['\n'].intercalate (next :: behind) =
      ['\n'].intercalate (before ++ (last ++ next) :: behind) := by
  induction before with
  | nil =>
      rw [List.nil_append, List.nil_append, List.intercalate_singleton]
      cases behind with
      | nil => rw [List.intercalate_singleton, List.intercalate_singleton]
      | cons line behind =>
          rw [List.intercalate_cons_cons, List.intercalate_cons_cons]
          simp only [List.append_assoc]
  | cons line before ih =>
      have front : before ++ [last] ≠ [] := by simp
      have whole : before ++ (last ++ next) :: behind ≠ [] := by simp
      rw [List.cons_append, List.cons_append, List.intercalate_cons_of_ne_nil front,
        List.intercalate_cons_of_ne_nil whole, List.append_assoc, ih]

/-- Where two texts meet, the last line of the first goes on with the first line of the second. -/
theorem splitOn_append {first second last next : Text} {before behind : List Text}
    (ends : splitOn '\n' first = before ++ [last]) (starts : splitOn '\n' second = next :: behind) :
    splitOn '\n' (first ++ second) = before ++ (last ++ next) :: behind := by
  have left : ∀ line ∈ before ++ [last], '\n' ∉ line := fun line member =>
    not_mem_of_mem_lines (ends ▸ member)
  have right : ∀ line ∈ next :: behind, '\n' ∉ line := fun line member =>
    not_mem_of_mem_lines (starts ▸ member)
  have single : ∀ line ∈ before ++ (last ++ next) :: behind, '\n' ∉ line := by
    intro line member
    rcases List.mem_append.mp member with there | here
    · exact left line (List.mem_append_left _ there)
    · rcases List.mem_cons.mp here with rfl | later
      · rw [List.mem_append]
        exact not_or.mpr ⟨left last (by simp), right next List.mem_cons_self⟩
      · exact right line (List.mem_cons_of_mem next later)
  have front := intercalate_splitOn '\n' first
  have back := intercalate_splitOn '\n' second
  rw [ends] at front
  rw [starts] at back
  rw [← front, ← back, joined_append, splitOn_intercalate (by simp) single]

end TypeScriptGen.Text
