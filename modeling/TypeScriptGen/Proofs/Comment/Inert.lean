import Mathlib.Data.List.Infix
import TypeScriptGen.Comment
import TypeScriptGen.Proofs.Outcome.Steps
import TypeScriptGen.Proofs.Text.Indentation

/-!
# Comments without code

A lexer that knows comments alone goes through a text and keeps what stands outside
of them. The header of a section consists of comments; each of them ends at its
own closing mark exactly when no text that was given for the header holds such a
mark, and then nothing but line feeds stands outside. The end marker is a line
comment, which ends with the line.
-/

namespace TypeScriptGen.Comment

/-! ## Lexing -/

inductive Region
  | code
  | block
  | line

/-- The characters that end a line comment. -/
def endsLine (c : Char) : Bool := c == '\n' || c == '\r' || c == '\u2028' || c == '\u2029'

/-- What stands outside of comments from a place in a region on. A block comment must be closed, a
line comment ends with its line. -/
def outsideFrom : Region → Text → Option Text
  | .code, [] => some []
  | .code, '/' :: '*' :: rest => outsideFrom .block rest
  | .code, '/' :: '/' :: rest => outsideFrom .line rest
  | .code, c :: rest => (outsideFrom .code rest).map (c :: ·)
  | .block, [] => none
  | .block, '*' :: '/' :: rest => outsideFrom .code rest
  | .block, _ :: rest => outsideFrom .block rest
  | .line, [] => some []
  | .line, c :: rest =>
      if endsLine c then (outsideFrom .code rest).map (c :: ·) else outsideFrom .line rest

def outside (text : Text) : Option Text := outsideFrom .code text

/-- Nothing but blanks stands outside of comments. -/
def Inert (text : Text) : Prop := ∃ rest, outside text = some rest ∧ Text.isBlankLine rest = true

instance : DecidablePred Inert := fun text =>
  decidable_of_iff ((outside text).any Text.isBlankLine = true) <| by
    cases found : outside text <;> simp [Inert, found]

def closing : Text := ['*', '/']

/-- A block comment with the given content. -/
def enclosed (content : Text) : Text := '/' :: '*' :: (content ++ closing)

theorem closing_append_iff {first second : Text}
    (apart : first.getLast? ≠ some '*' ∨ second.head? ≠ some '/') :
    closing <:+: first ++ second ↔ closing <:+: first ∨ closing <:+: second := by
  rw [List.infix_append_iff]
  constructor
  · rintro (left | right | ⟨start, rest, same, ends, starts⟩)
    · exact .inl left
    · exact .inr right
    · cases start with
      | nil =>
          rw [same]
          exact .inr starts.isInfix
      | cons c start =>
          obtain ⟨star, slash⟩ := List.cons.inj same
          rcases List.append_eq_singleton_iff.mp slash.symm with ⟨none, behind⟩ | ⟨whole, _⟩
          · rw [none, ← star] at ends
            rw [behind] at starts
            obtain ⟨before, rfl⟩ := ends
            obtain ⟨after, rfl⟩ := starts
            simp at apart
          · rw [whole, ← star] at ends
            exact .inl ends.isInfix
  · exact fun within => within.elim .inl fun right => .inr (.inl right)

/-- A block comment ends at the first closing mark. -/
theorem outsideFrom_block {content : Text} (clear : ¬ closing <:+: content) (rest : Text) :
    outsideFrom .block (content ++ closing ++ rest) = outsideFrom .code rest := by
  induction content with
  | nil => rfl
  | cons c content ih =>
      have tail : ¬ closing <:+: content := fun within => clear (List.infix_cons within)
      rw [List.cons_append, List.cons_append, ← ih tail, outsideFrom]
      intro behind star starts
      cases content with
      | nil => cases starts
      | cons d content =>
          rw [star, (List.cons.inj starts).1] at clear
          exact clear ⟨[], content, rfl⟩

theorem outside_enclosed {content : Text} (clear : ¬ closing <:+: content) (rest : Text) :
    outside (enclosed content ++ rest) = outside rest :=
  outsideFrom_block clear rest

/-- Closed comments below one another have the line feeds between them outside. -/
theorem inert_enclosed {contents : List Text}
    (clear : ∀ content ∈ contents, ¬ closing <:+: content) :
    Inert (['\n'].intercalate (contents.map enclosed)) := by
  induction contents with
  | nil => exact ⟨[], rfl, rfl⟩
  | cons content contents ih =>
      obtain ⟨rest, outer, blank⟩ := ih fun other member =>
        clear other (List.mem_cons_of_mem content member)
      have here := clear content List.mem_cons_self
      cases contents with
      | nil =>
          refine ⟨[], ?_, rfl⟩
          have alone := outside_enclosed here []
          rw [List.append_nil] at alone
          rw [List.map_singleton, List.intercalate_singleton]
          exact alone
      | cons next contents =>
          refine ⟨'\n' :: rest, ?_, ?_⟩
          · rw [List.map_cons, List.map_cons, List.intercalate_cons_cons, List.append_assoc,
              outside_enclosed here]
            rw [List.map_cons] at outer
            exact congrArg (Option.map ('\n' :: ·)) outer
          · exact blank

/-! ## Where a closing mark comes from -/

theorem closing_cons_iff {c : Char} (other : c ≠ '*') (text : Text) :
    closing <:+: c :: text ↔ closing <:+: text := by
  rw [List.infix_cons_iff, or_iff_right]
  exact fun starts => other (List.cons_prefix_cons.mp starts).1.symm

/-- Text between marks that are no part of a closing mark. -/
theorem closing_between_iff {front back : Text} (text : Text)
    (before : ¬ closing <:+: front ∧ front.getLast? ≠ some '*')
    (behind : ¬ closing <:+: back ∧ back.head? ≠ some '/') :
    closing <:+: front ++ text ++ back ↔ closing <:+: text := by
  rw [closing_append_iff (.inr behind.2), closing_append_iff (.inl before.2),
    or_iff_left behind.1, or_iff_right before.1]

theorem closing_ne_nil : closing ≠ [] := List.cons_ne_nil _ _

/-- One of the texts holds a closing mark. -/
def HoldsClosing (texts : List Text) : Prop := ∃ text ∈ texts, closing <:+: text

theorem not_holdsClosing_nil : ¬ HoldsClosing [] := by simp [HoldsClosing]

theorem holdsClosing_cons_iff {text : Text} {texts : List Text} :
    HoldsClosing (text :: texts) ↔ closing <:+: text ∨ HoldsClosing texts :=
  List.exists_mem_cons_iff _ _ _

theorem holdsClosing_append_iff {first second : List Text} :
    HoldsClosing (first ++ second) ↔ HoldsClosing first ∨ HoldsClosing second := by
  simp only [HoldsClosing, List.mem_append, or_and_right, exists_or]

theorem closing_isPrefix_iff (c : Char) (text : Text) :
    closing <+: c :: text ↔ c = '*' ∧ text.head? = some '/' := by
  rw [closing, List.cons_prefix_cons, eq_comm]
  refine and_congr_right fun _ => ?_
  cases text with
  | nil => simp
  | cons d text => simp [List.cons_prefix_cons, eq_comm]

/-- The first line of a text starts with a slash when the text does. -/
theorem slash_head_lines {text line : Text} {more : List Text}
    (cut : Text.lines text = line :: more) : line.head? = some '/' ↔ text.head? = some '/' := by
  fun_cases Text.lines text with
  | case1 => cases cut
  | case2 rest =>
      rw [Text.lines] at cut
      rw [← (List.cons.inj cut).1]
      simp
  | case3 c rest notFeed isBreak =>
      rw [Text.lines, if_pos isBreak] at cut
      · have other : c ≠ '/' := by
          rintro rfl
          cases isBreak
        rw [← (List.cons.inj cut).1]
        simpa using other
      · exact notFeed
  | case4 c rest notFeed plain none =>
      rw [Text.lines, if_neg plain, none] at cut
      · rw [← (List.cons.inj cut).1]
        rfl
      · exact notFeed
  | case5 c rest notFeed plain first others same =>
      rw [Text.lines, if_neg plain, same] at cut
      · rw [← (List.cons.inj cut).1]
        rfl
      · exact notFeed

/-- A closing mark stands in one of the lines, since it holds no line break. -/
theorem closing_lines_iff (text : Text) : HoldsClosing (Text.lines text) ↔ closing <:+: text := by
  fun_induction Text.lines text with
  | case1 => simp [not_holdsClosing_nil, closing_ne_nil]
  | case2 rest ih =>
      rw [closing_cons_iff (by decide), closing_cons_iff (by decide), ← ih, holdsClosing_cons_iff]
      simp [closing_ne_nil]
  | case3 c rest _ isBreak ih =>
      have other : c ≠ '*' := by
        rintro rfl
        cases isBreak
      rw [closing_cons_iff other, ← ih, holdsClosing_cons_iff]
      simp [closing_ne_nil]
  | case4 c rest _ _ none =>
      cases rest with
      | nil => rw [holdsClosing_cons_iff, or_iff_left not_holdsClosing_nil]
      | cons d rest => exact absurd none (Text.lines_ne_nil d rest)
  | case5 c rest _ _ first others same ih =>
      rw [same, holdsClosing_cons_iff] at ih
      rw [holdsClosing_cons_iff, List.infix_cons_iff, List.infix_cons_iff, closing_isPrefix_iff,
        closing_isPrefix_iff, slash_head_lines same, or_assoc, ih]

/-! ## What a comment is made of -/

/-- The contents of the comments that lines are written as. -/
def contentsOf (single : Bool) (lines : List Text) : List Text :=
  if single then
    (lines.filter fun line => !line.isEmpty).map fun line => "* ".toList ++ line ++ [' ']
  else
    ["*\n".toList ++ lines.flatMap (fun line => bodyLine line ++ ['\n']) ++ [' ']]

/-- Lines and tags with a blank line between them. -/
def spaced (lines tags : List Text) : List Text :=
  lines ++ (if lines.isEmpty || tags.isEmpty then [] else [[]]) ++ tags

theorem inlineLine_eq (line : Text) :
    inlineLine line = enclosed ("* ".toList ++ line ++ [' ']) := by
  simp [inlineLine, enclosed, closing]

theorem block_eq (lines : List Text) :
    block lines =
      enclosed ("*\n".toList ++ lines.flatMap (fun line => bodyLine line ++ ['\n']) ++ [' ']) := by
  rw [block, Text.joined_concat, List.flatMap_cons, List.flatMap_map]
  simp [enclosed, closing]

theorem layout_eq (single : Bool) (line : Text) (lines tags : List Text) :
    layout single (line :: lines) tags =
      ['\n'].intercalate ((contentsOf single (spaced (line :: lines) tags)).map enclosed) := by
  have written : layout single (line :: lines) tags =
      if single then
        ['\n'].intercalate
          (((spaced (line :: lines) tags).filter fun line => !line.isEmpty).map inlineLine)
      else block (spaced (line :: lines) tags) := rfl
  rw [written, contentsOf]
  cases single with
  | true =>
      have each : enclosed ∘ (fun line => "* ".toList ++ line ++ [' ']) = inlineLine :=
        funext fun line => (inlineLine_eq line).symm
      rw [if_pos rfl, if_pos rfl, List.map_map, each]
  | false => exact (block_eq _).trans List.intercalate_singleton.symm

theorem closing_inline_iff (line : Text) :
    closing <:+: "* ".toList ++ line ++ [' '] ↔ closing <:+: line :=
  closing_between_iff line (by decide) (by decide)

theorem closing_bodyLine_iff (line : Text) :
    closing <:+: bodyLine line ++ ['\n'] ↔ closing <:+: line := by
  unfold bodyLine
  split
  · next empty =>
      rw [List.isEmpty_iff.mp empty]
      simp only [List.infix_nil, closing_ne_nil, iff_false]
      decide
  · exact closing_between_iff line (by decide) (by decide)

theorem closing_body_iff (lines : List Text) :
    closing <:+: lines.flatMap (fun line => bodyLine line ++ ['\n']) ↔ HoldsClosing lines := by
  induction lines with
  | nil => simp [not_holdsClosing_nil, closing_ne_nil]
  | cons line lines ih =>
      rw [List.flatMap_cons, closing_append_iff (.inl (by simp)), closing_bodyLine_iff, ih,
        holdsClosing_cons_iff]

/-- The contents hold a closing mark when one of the lines does. -/
theorem holdsClosing_contentsOf_iff (single : Bool) (lines : List Text) :
    HoldsClosing (contentsOf single lines) ↔ HoldsClosing lines := by
  cases single with
  | true =>
      simp only [HoldsClosing, contentsOf, if_true, List.mem_map, List.mem_filter,
        exists_exists_and_eq_and, closing_inline_iff]
      refine exists_congr fun line => ?_
      rw [and_assoc]
      refine and_congr_right fun _ => and_iff_right_of_imp fun held => ?_
      cases line with
      | nil => exact absurd (List.infix_nil.mp held) closing_ne_nil
      | cons c line => rfl
  | false =>
      rw [contentsOf, if_neg Bool.false_ne_true, holdsClosing_cons_iff,
        or_iff_left not_holdsClosing_nil, closing_between_iff _ (by decide) (by decide),
        closing_body_iff]

theorem holdsClosing_spaced_iff (lines tags : List Text) :
    HoldsClosing (spaced lines tags) ↔ HoldsClosing lines ∨ HoldsClosing tags := by
  have gap : ¬ HoldsClosing (if lines.isEmpty || tags.isEmpty then [] else [[]]) := by
    split
    · exact not_holdsClosing_nil
    · simp [holdsClosing_cons_iff, not_holdsClosing_nil, closing_ne_nil]
  rw [spaced, holdsClosing_append_iff, holdsClosing_append_iff, or_iff_left gap]

/-! ## The header of a section -/

/-- The description of a section: none, a text, or a list of lines. -/
inductive Description
  | missing
  | text (content : Text)
  | lines (texts : List Text)

namespace Description

def value : Description → Value
  | .missing => .null
  | .text content => .text content
  | .lines texts => .list (texts.map Value.text)

/-- The texts that were given. -/
def texts : Description → List Text
  | .missing => []
  | .text content => [content]
  | .lines texts => texts

/-- The lines that are written. -/
def written : Description → List Text
  | .missing => []
  | .text content => Text.lines content
  | .lines texts => texts

theorem linesOf_value (description : Description) :
    linesOf description.value = .ok description.written := by
  cases description with
  | missing => rfl
  | text content => exact linesOf_text content
  | lines texts =>
      have displayed : (texts.map Value.text).mapM Value.display? = .ok texts := by
        induction texts with
        | nil => rfl
        | cons text texts ih =>
            rw [List.map_cons, List.mapM_cons, ih]
            rfl
      cases texts with
      | nil => rfl
      | cons text texts => exact displayed

theorem holdsClosing_written_iff (description : Description) :
    HoldsClosing description.written ↔ HoldsClosing description.texts := by
  cases description with
  | missing => rfl
  | text content =>
      rw [written, texts, closing_lines_iff, holdsClosing_cons_iff,
        or_iff_left not_holdsClosing_nil]
  | lines texts => rfl

end Description

/-- Metadata with the given names and texts. -/
def tableOf (tags : List (Text × Text)) : Table := tags.map fun tag => (.text tag.1, .text tag.2)

def tagOf (tag : Text × Text) : Text := '@' :: (tag.1 ++ ' ' :: tag.2)

theorem tagLines_tableOf (tags : List (Text × Text)) :
    tagLines (tableOf tags) = .ok (tags.map tagOf) := by
  induction tags with
  | nil => rfl
  | cons tag tags ih =>
      have line : tagLine (.text tag.1) (.text tag.2) = .ok (tagOf tag) := rfl
      exact (bind_ok line).trans (bind_ok ih)

theorem closing_tagOf_iff (tag : Text × Text) :
    closing <:+: tagOf tag ↔ closing <:+: tag.1 ∨ closing <:+: tag.2 := by
  rw [tagOf, closing_cons_iff (by decide), closing_append_iff (.inr (by simp)),
    closing_cons_iff (by decide)]

/-- The texts of metadata. -/
def textsOf (tags : List (Text × Text)) : List Text := tags.flatMap fun tag => [tag.1, tag.2]

theorem holdsClosing_tags_iff (tags : List (Text × Text)) :
    HoldsClosing (tags.map tagOf) ↔ HoldsClosing (textsOf tags) := by
  induction tags with
  | nil => rfl
  | cons tag tags ih =>
      rw [textsOf, List.map_cons, List.flatMap_cons, holdsClosing_cons_iff, closing_tagOf_iff, ih,
        holdsClosing_append_iff, holdsClosing_cons_iff, holdsClosing_cons_iff,
        or_iff_left not_holdsClosing_nil, textsOf]

/-- The texts that are given for a header. -/
def given (name : Text) (description : Description) (tags : List (Text × Text)) : List Text :=
  name :: description.texts ++ textsOf tags

theorem holdsClosing_lines_iff (name : Text) (description : Description)
    (tags : List (Text × Text)) :
    HoldsClosing (spaced (name :: description.written) (tags.map tagOf)) ↔
      HoldsClosing (given name description tags) := by
  rw [holdsClosing_spaced_iff, holdsClosing_cons_iff, description.holdsClosing_written_iff,
    holdsClosing_tags_iff, given, holdsClosing_append_iff, holdsClosing_cons_iff]

theorem sectionHeader_eq (name : Text) (description : Description) (tags : List (Text × Text))
    (style : Value) :
    sectionHeader name description.value (.table (tableOf tags)) style =
      .ok (['\n'].intercalate ((contentsOf (isSingle style)
        (spaced (name :: description.written) (tags.map tagOf))).map enclosed)) := by
  have table : entriesOf (.table (tableOf tags)) = .ok (tableOf tags) := by
    cases tags <;> rfl
  refine (bind_ok description.linesOf_value).trans ((bind_ok table).trans
    ((bind_ok (tagLines_tableOf tags)).trans ?_))
  exact congrArg Except.ok (layout_eq (isSingle style) name description.written _)

theorem inert_sectionEnd {name : Text} (oneLine : ∀ c ∈ name, endsLine c = false) :
    Inert (sectionEnd name) := by
  have inside (text : Text) (plain : ∀ c ∈ text, endsLine c = false) :
      outsideFrom .line text = some [] := by
    induction text with
    | nil => rfl
    | cons c text ih =>
        rw [outsideFrom, plain c List.mem_cons_self, if_neg Bool.false_ne_true]
        exact ih fun d member => plain d (List.mem_cons_of_mem c member)
  have fixed : ∀ c ∈ " End ".toList, endsLine c = false := Text.eq_false_of_any rfl
  refine ⟨[], inside (" End ".toList ++ name) fun c member => ?_, rfl⟩
  exact (List.mem_append.mp member).elim (fixed c) (oneLine c)

/-- A header consists of comments, and each ends at its own closing mark exactly when no text that
was given holds one. Then the header holds no code, and neither does the end marker of a section
whose name is in one line. -/
theorem section_comments_inert (name : Text) (description : Description)
    (tags : List (Text × Text)) (style : Value) :
    (∃ contents : List Text, sectionHeader name description.value (.table (tableOf tags)) style =
        .ok (['\n'].intercalate (contents.map enclosed)) ∧
      (HoldsClosing contents ↔ HoldsClosing (given name description tags)) ∧
      (¬ HoldsClosing (given name description tags) →
        Inert (['\n'].intercalate (contents.map enclosed)))) ∧
    ((∀ c ∈ name, endsLine c = false) → Inert (sectionEnd name)) := by
  have same := (holdsClosing_contentsOf_iff (isSingle style) _).trans
    (holdsClosing_lines_iff name description tags)
  refine ⟨⟨_, sectionHeader_eq name description tags style, same, fun clear => ?_⟩,
    inert_sectionEnd⟩
  exact inert_enclosed fun content member held => clear (same.mp ⟨content, member, held⟩)

/-- A header in one comment a line, with a tag and a description of two lines. -/
theorem section_comments_inert_tagged :
    ¬ HoldsClosing (given "Files".toList (.text "All of src.\nNo tests.".toList)
      [("glob".toList, "src/*.ts".toList)]) ∧
    (∀ c ∈ "Files".toList, endsLine c = false) ∧
    (∃ header, sectionHeader "Files".toList (.text "All of src.\nNo tests.".toList)
        (.table (tableOf [("glob".toList, "src/*.ts".toList)])) (.text "single".toList) =
          .ok header ∧ Inert header) ∧
    Inert (sectionEnd "Files".toList) := by
  have clear : ¬ HoldsClosing (given "Files".toList (.text "All of src.\nNo tests.".toList)
      [("glob".toList, "src/*.ts".toList)]) := by
    unfold HoldsClosing
    decide
  have oneLine : ∀ c ∈ "Files".toList, endsLine c = false := Text.eq_false_of_any rfl
  obtain ⟨⟨contents, made, _, inert⟩, marker⟩ :=
    section_comments_inert "Files".toList (.text "All of src.\nNo tests.".toList)
      [("glob".toList, "src/*.ts".toList)] (.text "single".toList)
  exact ⟨clear, oneLine, ⟨_, made, inert clear⟩, marker oneLine⟩

/-- A glob pattern in a description ends the comment before its end. -/
theorem section_comments_broken :
    sectionHeader "Files".toList (Description.text "Matches src/**/*.ts".toList).value
        (.table (tableOf [])) (.text "multi".toList) =
      .ok "/**\n * Files\n * Matches src/**/*.ts\n */".toList ∧
    ¬ Inert "/**\n * Files\n * Matches src/**/*.ts\n */".toList :=
  ⟨rfl, by decide⟩

end TypeScriptGen.Comment
