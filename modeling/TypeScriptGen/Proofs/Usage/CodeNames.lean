import TypeScriptGen.Proofs.Syntax.Segmentation
import TypeScriptGen.Proofs.Usage.NodeNames

/-!
# The names of verbatim text

Verbatim text keeps its references and its literals. A name that counts at its
place is found among them, unless it is a reserved word; and whatever is found
starts somewhere in the text, which is not behind three dots unless it is a type
name or stands in a literal.
-/

namespace TypeScriptGen.Usage

open Syntax (InLiteral Mentioned referencesIn referenceNode codeSegments literals referencesInCode)
open Text (Solid Stands Apart Starts IsSpread)

theorem mem_namesIn_raw {asTypes : Bool} {text name : Text} :
    name ∈ namesIn (.raw text (referencesIn asTypes text)) ↔
      name ∈ namesInCode text ∨
        (∃ code ∈ codeSegments text, ∃ reference ∈ referencesInCode code,
          name ∈ reference.parts) ∨
        ∃ literal ∈ literals text, name ∈ namesInLiteral literal.content := by
  rw [mem_namesIn]
  simp only [ownNames, Node.children, referencesIn, List.mem_append, List.mem_flatMap, List.mem_map]
  constructor
  · rintro (own | ⟨child, ⟨code, among, reference, found, rfl⟩ | ⟨literal, among, rfl⟩, found'⟩)
    · exact Or.inl own
    · exact Or.inr (Or.inl ⟨code, among, reference, found, mem_namesIn_referenceNode.mp found'⟩)
    · rw [namesIn_stringLiteral] at found'
      exact Or.inr (Or.inr ⟨literal, among, found'⟩)
  · rintro (own | ⟨code, among, reference, found, part⟩ | ⟨literal, among, found⟩)
    · exact Or.inl own
    · exact Or.inr ⟨_, Or.inl ⟨code, among, reference, found, rfl⟩,
        mem_namesIn_referenceNode.mpr part⟩
    · rw [← namesIn_stringLiteral] at found
      exact Or.inr ⟨_, Or.inr ⟨literal, among, rfl⟩, found⟩

theorem hasPlaceholder_raw (asTypes : Bool) (text : Text) :
    hasPlaceholder (.raw text (referencesIn asTypes text)) = false := by
  refine hasPlaceholder_iff.mpr ⟨rfl, fun child member => ?_⟩
  simp only [Node.children, referencesIn, List.mem_append, List.mem_flatMap, List.mem_map] at member
  rcases member with ⟨code, _, reference, _, rfl⟩ | ⟨literal, _, rfl⟩
  · exact hasPlaceholder_referenceNode asTypes reference
  · rfl

/-! ## No name is missed -/

theorem isReserved_of_mem_stopWords {word : Text} (stops : word ∈ stopWords) :
    Syntax.isReserved word = true := by
  have all : stopWords.all Syntax.isReserved = true := by decide +kernel
  exact List.all_eq_true.mp all word stops

theorem not_mem_stopWords {word : Text} (free : Syntax.isReserved word = false) :
    word ∉ stopWords := by
  intro stops
  rw [isReserved_of_mem_stopWords stops] at free
  cases free

/-- A name that stands whole in a literal is one of its names. -/
theorem mem_namesInLiteral {inner name rest : Text} (stands : Stands inner name rest)
    (plain : '$' ∉ name) (goes : name ∉ stopWords) :
    name ∈ namesInLiteral (inner ++ (name ++ rest)) := by
  refine List.mem_filter.mpr ⟨stands.mem_words plain, ?_⟩
  simp [Text.isPlainName_of_isIdentifier stands.identifier plain, goes]

theorem mem_namesIn_raw_of_mentioned {text name : Text} (mentioned : Mentioned text name)
    (free : Syntax.isReserved name = false) (asTypes : Bool) :
    name ∈ namesIn (.raw text (referencesIn asTypes text)) := by
  obtain ⟨before, after, whole, stands, place⟩ := mentioned
  rw [mem_namesIn_raw]
  rcases place with ⟨place, undotted⟩ | ⟨place, plain⟩
  · obtain ⟨left, start, rest, among, inside, rfl, _⟩ := place.exists_segment whole stands
    have opens := Syntax.opens_of_undotted inside.opened fun dot =>
      undotted (Syntax.getLast?_of_suffix (List.suffix_append left start) dot)
    obtain ⟨reference, found, part⟩ := Syntax.mem_parts_iff.mpr
      ⟨Text.isReadable_of_isIdentifier inside.identifier, start, rest, rfl, opens, inside.closed⟩
    exact Or.inr (Or.inl ⟨_, among, reference, Syntax.mem_referencesInCode found part free, part⟩)
  · obtain ⟨literal, among, inner, rest, content, stands⟩ := place.exists_literal whole stands
    refine Or.inr (Or.inr ⟨literal, among, ?_⟩)
    rw [content]
    exact mem_namesInLiteral stands plain (not_mem_stopWords free)

/-! ## Nothing is made up -/

/-- The name starts somewhere in the text, and it is a type name, stands in a literal, or has no
three dots in front. -/
def Found (text name : Text) : Prop :=
  Text.isReadable name = true ∧ ∃ front, Starts text front name ∧
    (Text.isTypeName name = true ∨ InLiteral text front name ∨ ¬IsSpread front)

theorem Found.isInfix {text name : Text} (found : Found text name) :
    name <:+: text ∧ Solid name := by
  obtain ⟨readable, front, ⟨⟨back, rfl⟩, _⟩, _⟩ := found
  exact ⟨List.infix_append' front name back, Text.solid_of_isReadable readable⟩

theorem found_of_apart {front name : Text} (back : Text) (readable : Text.isReadable name = true)
    (apart : Apart front) : Found (front ++ (name ++ back)) name :=
  ⟨readable, front, apart.starts back, Or.inr (Or.inr apart.unspread)⟩

theorem isReadable_of_isPlainName {name : Text} (plain : Text.isPlainName name = true) :
    Text.isReadable name = true :=
  Text.isReadable_of_isIdentifier (Text.isIdentifier_of_isPlainName plain)

/-- Segments begin behind quotes, so a place in a segment is one in the text. -/
theorem found_of_reads {text segment name : Text} (among : segment ∈ codeSegments text)
    (reads : Syntax.Reads segment name) : Found text name := by
  obtain ⟨readable, front, back, rfl, apart⟩ := reads
  obtain ⟨left, right, rfl, quoted⟩ := Syntax.segment_place among
  have whole : left ++ (front ++ (name ++ back) ++ right) =
      (left ++ front) ++ (name ++ (back ++ right)) := by simp
  rw [whole]
  refine found_of_apart _ readable (apart.append fun c last => ?_)
  rcases Syntax.isQuote_cases (quoted c last) with rfl | rfl | rfl <;> decide

theorem exists_place_of_mem_namesInLiteral {content name : Text}
    (member : name ∈ namesInLiteral content) :
    Text.isPlainName name = true ∧ ∃ front, Starts content front name := by
  obtain ⟨word, plain⟩ := List.mem_filter.mp member
  obtain ⟨front, back, whole, opened⟩ := Text.word_place word
  rw [Bool.and_eq_true] at plain
  exact ⟨plain.1, front, ⟨back, whole⟩, opened⟩

theorem namesInLiteral_isInfix {content name : Text} (member : name ∈ namesInLiteral content) :
    name <:+: content ∧ Solid name := by
  obtain ⟨plain, front, ⟨back, rfl⟩, _⟩ := exists_place_of_mem_namesInLiteral member
  exact ⟨List.infix_append' front name back,
    Text.solid_of_isReadable (isReadable_of_isPlainName plain)⟩

theorem found_in_literal {text name : Text} {literal : Syntax.Literal}
    (among : literal ∈ literals text) (member : name ∈ namesInLiteral literal.content) :
    Found text name := by
  obtain ⟨plain, inner, ⟨rest, content⟩, opened⟩ := exists_place_of_mem_namesInLiteral member
  obtain ⟨front, back, same⟩ := List.append_of_mem (Syntax.mem_literalsOf.mp among)
  have place : InLiteral text (front.flatMap Syntax.Token.text ++ literal.quote :: inner) name :=
    ⟨front, literal, back, inner, rest, same, content, rfl⟩
  refine ⟨isReadable_of_isPlainName plain, _, ⟨place.exists_after, ?_⟩, Or.inr (Or.inl place)⟩
  rw [← List.singleton_append, ← List.append_assoc]
  refine Text.forall_getLast?_append (fun c last => ?_) opened
  have same : literal.quote = c := by simpa using last
  rcases Syntax.isQuote_cases (Syntax.isQuote_of_mem_literals 0 text among) with
    quote | quote | quote <;> rw [← same, quote] <;> decide

theorem leadingName_isPrefix {text name : Text} (found : Text.leadingName text = some name) :
    name <+: text := by
  cases text with
  | nil => cases found
  | cons c rest =>
      obtain ⟨_, same⟩ := Option.ite_none_right_eq_some.mp found
      cases same
      exact List.cons_prefix_cons.mpr ⟨rfl, List.takeWhile_prefix _⟩

/-- A name behind a mark and blanks. -/
theorem found_behind {before gap text name : Text} {c : Char} (last : gap.getLast? = some c)
    (outside : Text.isWord c = false) (other : c ≠ '.')
    (found : Text.leadingName text = some name) : Found (before ++ (gap ++ text)) name := by
  obtain ⟨back, rfl⟩ := leadingName_isPrefix found
  rw [← List.append_assoc]
  refine found_of_apart back (isReadable_of_isPlainName (Text.leadingName_isPlainName found)) ?_
  exact Text.apart_of_last (by rw [List.getLast?_append, last]; rfl) outside other

theorem found_of_mem_annotatedNames (before : Text) {code name : Text}
    (member : name ∈ annotatedNames code) : Found (before ++ code) name := by
  induction code generalizing before with
  | nil => cases member
  | cons c rest ih =>
      have further (found : name ∈ annotatedNames rest) : Found (before ++ c :: rest) name := by
        have later := ih (before ++ [c]) found
        rwa [List.append_assoc] at later
      rw [annotatedNames] at member
      split at member
      · next colon =>
          rcases List.mem_append.mp member with here | found
          · obtain ⟨blanks, whole, white⟩ := Syntax.exists_blanks rest
            rw [whole, ← List.cons_append]
            have read := Option.mem_toList.mp here
            rcases List.eq_nil_or_concat blanks with rfl | ⟨blanks, d, rfl⟩
            · exact found_behind (c := c) rfl (by rw [colon]; decide) (by rw [colon]; decide) read
            · have blank := white d (by simp)
              exact found_behind (c := d) (by simp [List.getLast?_cons])
                (Syntax.isWord_of_isBlank blank) (Syntax.ne_dot_of_isBlank blank) read
          · exact further found
      · exact further member

theorem found_of_matchOperand {keyword before text name after : Text}
    (found : matchOperand keyword before.getLast? text = some (name, after)) :
    Found (before ++ text) name := by
  unfold matchOperand at found
  obtain ⟨_, found⟩ := Option.ite_none_right_eq_some.mp found
  obtain ⟨shorter, found⟩ := Option.ite_none_right_eq_some.mp found
  obtain ⟨operand, read, same⟩ := Option.map_eq_some_iff.mp found
  cases same
  obtain ⟨blanks, whole, white⟩ := Syntax.exists_blanks (text.drop keyword.length)
  rcases List.eq_nil_or_concat blanks with rfl | ⟨blanks, d, rfl⟩
  · rw [← whole.trans (List.nil_append _)] at shorter
    exact absurd shorter (Nat.lt_irrefl _)
  · have blank := white d (by simp)
    have split : text = text.take keyword.length ++
        (blanks.concat d ++ Text.trimStart (text.drop keyword.length)) := by
      rw [← whole, List.take_append_drop]
    rw [split, ← List.append_assoc]
    exact found_behind (c := d) (by simp) (Syntax.isWord_of_isBlank blank)
      (Syntax.ne_dot_of_isBlank blank) read

/-- Whatever a scan of free text finds starts somewhere in it. -/
theorem found_of_mem_namesInCode {code name : Text} (member : name ∈ namesInCode code) :
    Found code name := by
  simp only [namesInCode, List.mem_append] at member
  rcases member with ((quoted | typed) | annotated) | operand
  · obtain ⟨literal, among, found⟩ := List.mem_flatMap.mp quoted
    exact found_in_literal among found
  · obtain ⟨word, typed⟩ := List.mem_filter.mp typed
    obtain ⟨front, back, whole, opened⟩ := Text.word_place word
    exact ⟨isReadable_of_isPlainName (Text.isPlainName_of_isTypeName typed), front,
      ⟨⟨back, whole⟩, opened⟩, Or.inl typed⟩
  · exact found_of_mem_annotatedNames [] annotated
  · obtain ⟨keyword, _, found⟩ := List.mem_flatMap.mp operand
    obtain ⟨before, rest, after, whole, matched⟩ := Syntax.collectFrom_place 0 [] code found
    rw [List.nil_append] at whole
    rw [whole]
    exact found_of_matchOperand matched

theorem namesInCode_isInfix {code name : Text} (member : name ∈ namesInCode code) :
    name <:+: code ∧ Solid name :=
  (found_of_mem_namesInCode member).isInfix

theorem found_of_mem_namesIn_raw {asTypes : Bool} {text name : Text}
    (member : name ∈ namesIn (.raw text (referencesIn asTypes text))) : Found text name := by
  rcases mem_namesIn_raw.mp member with
    own | ⟨code, among, reference, found, part⟩ | ⟨literal, among, found⟩
  · exact found_of_mem_namesInCode own
  · exact found_of_reads among (Syntax.reads_of_mem_referencesInCode found name part)
  · exact found_in_literal among found

end TypeScriptGen.Usage
