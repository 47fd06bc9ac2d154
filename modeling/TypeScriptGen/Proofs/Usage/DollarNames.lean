import TypeScriptGen.Proofs.Syntax.Components
import TypeScriptGen.Proofs.Usage.Completeness

/-!
# Names with dollar signs

The search in code takes dollar signs as parts of names, the scan of literals does
not: it takes the plain names on either side of them. So whether a name with a
dollar sign is used is decided by the code around the literals alone, also for code
that stands inside a template.
-/

namespace TypeScriptGen.Usage

open Syntax (InLiteral Opens Referenced HasComponent isReserved)
open Text (Stands)

variable {text name : Text}

/-! ## Names without dollar signs -/

theorem dollar_not_mem_of_isPlainName (plain : Text.isPlainName name = true) : '$' ∉ name := by
  intro member
  cases name with
  | nil => cases member
  | cons c rest =>
      simp only [Text.isPlainName, Bool.and_eq_true, List.all_eq_true] at plain
      have part : Text.isNamePart '$' = true := by
        rcases List.mem_cons.mp member with rfl | tail
        · exact Text.isNamePart_of_isNameStart _ plain.1
        · exact plain.2 _ tail
      exact absurd part (by decide)

theorem isPlainName_of_mem_annotatedNames {code : Text} (member : name ∈ annotatedNames code) :
    Text.isPlainName name = true := by
  induction code with
  | nil => cases member
  | cons c rest ih =>
      rw [annotatedNames] at member
      split at member
      · rcases List.mem_append.mp member with here | later
        · exact Text.leadingName_isPlainName (Option.mem_toList.mp here)
        · exact ih later
      · exact ih member

theorem isPlainName_of_matchOperand {keyword rest : Text} {lead : Option Char}
    (found : matchOperand keyword lead text = some (name, rest)) :
    Text.isPlainName name = true := by
  unfold matchOperand at found
  obtain ⟨_, found⟩ := Option.ite_none_right_eq_some.mp found
  obtain ⟨_, found⟩ := Option.ite_none_right_eq_some.mp found
  obtain ⟨operand, read, same⟩ := Option.map_eq_some_iff.mp found
  cases same
  exact Text.leadingName_isPlainName read

/-- Free text, with the literals in it, yields plain names only. -/
theorem isPlainName_of_mem_namesInCode {code : Text} (member : name ∈ namesInCode code) :
    Text.isPlainName name = true := by
  simp only [namesInCode, List.mem_append] at member
  rcases member with ((quoted | typed) | annotated) | operand
  · obtain ⟨literal, _, found⟩ := List.mem_flatMap.mp quoted
    exact (exists_place_of_mem_namesInLiteral found).1
  · exact Text.isPlainName_of_isTypeName (List.mem_filter.mp typed).2
  · exact isPlainName_of_mem_annotatedNames annotated
  · obtain ⟨keyword, _, found⟩ := List.mem_flatMap.mp operand
    obtain ⟨_, _, _, _, matched⟩ := Syntax.collectFrom_place 0 [] code found
    exact isPlainName_of_matchOperand matched

theorem isReserved_of_dollar (dollar : '$' ∈ name) : isReserved name = false := by
  have all : Syntax.reservedWords.all (fun word => !word.contains '$') = true := by decide +kernel
  cases reserved : isReserved name with
  | false => rfl
  | true =>
      have plain := List.all_eq_true.mp all name (List.contains_iff_mem.mp reserved)
      rw [List.contains_iff_mem.mpr dollar] at plain
      cases plain

/-! ## What parsed text uses -/

section Dollar

variable (identifier : Text.isIdentifier name = true) (dollar : '$' ∈ name)

include identifier dollar

/-- Verbatim text uses such a name exactly if it is referenced in the code of the text. -/
theorem mem_namesIn_raw_iff_referenced {asTypes : Bool} :
    name ∈ namesIn (.raw text (Syntax.referencesIn asTypes text)) ↔ Referenced text name := by
  rw [mem_namesIn_raw, Syntax.mem_referencesInCode_iff identifier (isReserved_of_dollar dollar)]
  constructor
  · rintro (free | referenced | ⟨literal, _, quoted⟩)
    · exact absurd dollar (dollar_not_mem_of_isPlainName (isPlainName_of_mem_namesInCode free))
    · exact referenced
    · exact absurd dollar
        (dollar_not_mem_of_isPlainName (exists_place_of_mem_namesInLiteral quoted).1)
  · exact fun referenced => .inr (.inl referenced)

theorem mem_namesIn_parseExpression_iff :
    name ∈ namesIn (Syntax.parseExpression text) ↔ Referenced text name := by
  rw [← Syntax.referenced_trim_iff]
  unfold Syntax.parseExpression
  dsimp only
  split
  · next plain =>
      rw [Syntax.referenced_identifier_iff ((Bool.and_eq_true _ _).mp plain).1,
        namesIn_identifier, List.mem_singleton]
  · exact mem_namesIn_raw_iff_referenced identifier dollar

theorem mem_namesIn_parseStatement_iff :
    name ∈ namesIn (Syntax.parseStatement text) ↔ Referenced text name := by
  have body (core : Text) : name ∈ namesIn (.expressionStatement (Syntax.parseExpression core)) ↔
      Referenced core name := by
    rw [mem_namesIn, ← mem_namesIn_parseExpression_iff identifier dollar]
    simp [ownNames, Node.children]
  unfold Syntax.parseStatement
  dsimp only
  rw [body]
  split
  · next ends =>
      exact (Syntax.referenced_dropSemicolon_iff ends).trans Syntax.referenced_trim_iff
  · exact Syntax.referenced_trim_iff

/-- A name with a dollar sign is used by a parsed text exactly if it stands whole in the code of the
text, outside of all literals, where a reference starts or behind a component of one and a dot.
However often it stands in literals, in the holes of templates as well, does not count. -/
theorem dollar_used_iff :
    ∀ parse ∈ [Syntax.parseExpression, Syntax.parseStatement],
      ∃ tracker, Tracker.empty.scan (.node (parse text)) = (tracker, .ok ()) ∧
        (tracker.isUsed name = true ↔
          ∃ before after, text = before ++ (name ++ after) ∧ Stands before name after ∧
            Syntax.InCode text before name ∧ Opens before) := by
  intro parse parser
  have ⟨complete, names⟩ : hasPlaceholder (parse text) = false ∧
      (name ∈ namesIn (parse text) ↔ Referenced text name) := by
    simp only [List.mem_cons, List.not_mem_nil, or_false] at parser
    rcases parser with rfl | rfl
    · exact ⟨(Syntax.movable_parseExpression _).complete,
        mem_namesIn_parseExpression_iff identifier dollar⟩
    · exact ⟨(Syntax.movable_parseStatement _).complete,
        mem_namesIn_parseStatement_iff identifier dollar⟩
  refine ⟨_, scan_node .empty rfl complete, ?_⟩
  exact List.contains_iff_mem.trans ((mem_recordAll_empty _ _).trans names)

end Dollar

/-- Beside a template that calls it, the name is called in code. -/
theorem dollar_used_beside :
    Text.isIdentifier "load$".toList = true ∧ '$' ∈ "load$".toList ∧
      ∃ tracker, Tracker.empty.scan
          (.node (Syntax.parseStatement "`$\x7bload$()\x7d` + load$(1);".toList)) =
            (tracker, .ok ()) ∧
        tracker.isUsed "load$".toList = true := by
  have identifier : Text.isIdentifier "load$".toList = true := by decide
  have dollar : '$' ∈ "load$".toList := by decide
  have stands : Stands "`$\x7bload$()\x7d` + ".toList "load$".toList "(1);".toList :=
    ⟨identifier, fun _ last => by cases last; decide, fun _ first => by cases first; decide⟩
  obtain ⟨tracker, scanned, used⟩ :=
    @dollar_used_iff "`$\x7bload$()\x7d` + load$(1);".toList _ identifier dollar
      Syntax.parseStatement (by simp)
  refine ⟨identifier, dollar, tracker, scanned, used.mpr
    ⟨_, _, rfl, stands, ?_, .start (by decide)⟩⟩
  exact ⟨Syntax.tokens "`$\x7bload$()\x7d` + ".toList, Syntax.tokens "(1);".toList,
    by decide, by decide⟩

/-- A call in the hole of a template is not seen, although the same call is outside of it. -/
theorem dollar_in_template_unused :
    Text.isIdentifier "load$".toList = true ∧ '$' ∈ "load$".toList ∧
      Stands "`$\x7b".toList "load$".toList "()\x7d`".toList ∧
      InLiteral "`$\x7bload$()\x7d`".toList "`$\x7b".toList "load$".toList ∧
      ∀ parse ∈ [Syntax.parseExpression, Syntax.parseStatement],
        (Tracker.empty.scan (.node (parse "`$\x7bload$()\x7d`".toList))).1.isUsed "load$".toList =
            false ∧
          (Tracker.empty.scan (.node (parse "load$()".toList))).1.isUsed "load$".toList = true := by
  have inside : InLiteral "`$\x7bload$()\x7d`".toList "`$\x7b".toList "load$".toList :=
    ⟨[], ⟨'\x60', "$\x7bload$()\x7d".toList⟩, [], "$\x7b".toList, "()\x7d".toList,
      by decide, rfl, rfl⟩
  refine ⟨by decide, by decide, ⟨by decide, fun _ last => by cases last; decide,
    fun _ first => by cases first; decide⟩, inside, ?_⟩
  decide +kernel

end TypeScriptGen.Usage
