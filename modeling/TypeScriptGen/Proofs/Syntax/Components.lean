import TypeScriptGen.Proofs.Syntax.ReferenceSearch
import TypeScriptGen.Proofs.Usage.Mention

/-!
# Components of references in a text

The search for references runs over the code between the literals. Seen from the
whole text, it finds the names that stand in code where a reference can start, or
behind such a name and a dot. Literals in front of a segment, blanks in front of
the text and padding behind it change nothing about this.
-/

namespace TypeScriptGen.Syntax

open Text (Stands isReferencePart)

/-! ## Texts that no reference reaches over -/

/-- No component of a reference in this text goes on behind it. -/
structure Breaks (left : Text) : Prop where
  fresh : opensReference left.getLast? = true
  broken : ∀ first c rest, left = first ++ c :: rest → Text.isIdentifierStart c = true →
    ∃ d ∈ rest, isQuote d = true

theorem breaks_nil : Breaks [] := ⟨rfl, fun first c rest same => by simp at same⟩

theorem breaks_of_quoted {left : Text} (quoted : ∀ c ∈ left.getLast?, isQuote c = true) :
    Breaks left := by
  rcases List.eq_nil_or_concat left with rfl | ⟨left, quote, rfl⟩
  · exact breaks_nil
  · have opens : isQuote quote = true := quoted quote (by simp)
    refine ⟨?_, fun first c rest same start => ?_⟩
    · rw [List.concat_eq_append, List.getLast?_concat]
      rcases isQuote_cases opens with rfl | rfl | rfl <;> decide
    · rcases List.eq_nil_or_concat rest with rfl | ⟨rest, d, rfl⟩
      · have last : quote = c := by
          have ends := congrArg List.getLast? same
          simpa using ends
        rw [last, isQuote_of_isReferencePart
          (Text.isReferencePart_of_isIdentifierStart c start)] at opens
        cases opens
      · have last : quote = d := by
          have ends := congrArg List.getLast? same
          simpa [List.getLast?_cons] using ends
        exact ⟨d, by simp, last ▸ opens⟩

theorem breaks_of_blank {left : Text} (white : ∀ c ∈ left, Text.isBlank c = true) :
    Breaks left := by
  refine ⟨?_, fun first c rest same start => ?_⟩
  · cases last : left.getLast? with
    | none => rfl
    | some c =>
        have blank := white c (List.mem_of_getLast? last)
        simp [opensReference, Text.isReferencePart_of_isBlank c blank, ne_dot_of_isBlank blank]
  · have blank := white c (by simp [same])
    rw [Text.isBlank_of_isReferencePart (Text.isReferencePart_of_isIdentifierStart c start)] at blank
    cases blank

/-- A component, blanks and a dot hold no quote. -/
theorem isQuote_of_mem_owner {owner blanks : Text} (readable : Text.isReadable owner = true)
    (white : ∀ c ∈ blanks, Text.isBlank c = true) :
    ∀ c ∈ owner ++ (blanks ++ ['.']), isQuote c = false := by
  intro c member
  simp only [List.mem_append, List.mem_singleton] at member
  rcases member with part | blank | rfl
  · exact isQuote_of_isReferencePart (Text.solid_of_isReadable readable c part)
  · exact (isPadding_of_isBlank white c blank).2
  · rfl

theorem Opens.drop {left front : Text} (opens : Opens (left ++ front)) (breaks : Breaks left) :
    Opens front := by
  generalize same : left ++ front = whole at opens
  induction opens generalizing front with
  | @start whole fresh =>
      subst same
      refine .start ?_
      rw [List.getLast?_append] at fresh
      cases last : front.getLast? with
      | none => rfl
      | some c =>
          rw [last] at fresh
          exact fresh
  | @member earlier owner blanks opens readable white ih =>
      rcases List.append_eq_append_iff.mp same with ⟨extra, split, behind⟩ | ⟨extra, split, behind⟩
      · -- The break lies in front of the owner.
        rw [behind]
        exact (ih split.symm).member readable white
      · cases extra with
        | nil =>
            rw [List.nil_append] at behind
            rw [← behind]
            exact Opens.member (.start (rfl : opensReference ([] : Text).getLast? = true)) readable white
        | cons c extra =>
            obtain ⟨d, owner, rfl⟩ :=
              List.exists_cons_of_ne_nil (Text.ne_nil_of_isReadable readable)
            have start : Text.isIdentifierStart d = true := ((Bool.and_eq_true _ _).mp readable).1
            rw [List.cons_append, List.cons_append, List.cons.injEq] at behind
            obtain ⟨e, inside, quote⟩ := breaks.broken earlier c extra split (behind.1 ▸ start)
            have plain := isQuote_of_mem_owner readable white e (by
              rw [List.cons_append, behind.2]
              exact List.mem_cons_of_mem d (List.mem_append_left front inside))
            rw [plain] at quote
            cases quote

theorem Opens.behind {left front : Text} (opens : Opens front) (breaks : Breaks left) :
    Opens (left ++ front) := by
  induction opens with
  | @start front fresh =>
      refine .start ?_
      rw [List.getLast?_append]
      cases last : front.getLast? with
      | none => exact breaks.fresh
      | some c =>
          rw [last] at fresh
          exact fresh
  | @member front owner blanks _ readable white ih =>
      rw [← List.append_assoc]
      exact ih.member readable white

/-! ## Names in the code of a text -/

/-- The name stands whole in the code of a text, where a component of a reference can. -/
def Referenced (text name : Text) : Prop :=
  ∃ before after, text = before ++ (name ++ after) ∧ Stands before name after ∧
    InCode text before name ∧ Opens before

theorem isReferencePart_of_isQuote {c : Char} (quote : isQuote c = true) :
    isReferencePart c = false := by
  rcases isQuote_cases quote with rfl | rfl | rfl <;> decide

section Segments

variable {text name : Text}

/-- A component in a segment stands in the text, behind the quote in front of the segment. -/
theorem referenced_of_segment (identifier : Text.isIdentifier name = true) {segment : Text}
    (among : segment ∈ codeSegments text) (component : HasComponent segment name) :
    Referenced text name := by
  obtain ⟨front, back, whole, ends, starts⟩ := exists_of_mem_codeOf among
  obtain ⟨_, start, rest, rfl, opens, closed⟩ := component
  have quoted := ends.isQuote whole
  have inside : Stands start name rest := ⟨identifier, opens.opened, closed⟩
  refine ⟨front.flatMap Token.text ++ start, rest ++ back.flatMap Token.text, ?_, ?_, ?_, ?_⟩
  · rw [← tokens_text text, whole, List.flatMap_append, List.flatMap_append, map_code_text]
    simp
  · refine inside.within (fun c last => isReferencePart_of_isQuote (quoted c last)) fun c first => ?_
    exact isReferencePart_of_isQuote
      (starts.isQuote (whole.trans (List.append_assoc _ _ _).symm) c first)
  · refine ⟨front ++ start.map Token.code, rest.map Token.code ++ back, ?_, ?_⟩
    · rw [whole]
      simp
    · rw [List.flatMap_append, map_code_text]
  · exact opens.behind (breaks_of_quoted quoted)

/-- A name in the code of a text is a component in its segment. -/
theorem Referenced.exists_segment (referenced : Referenced text name) :
    ∃ segment ∈ codeSegments text, HasComponent segment name := by
  obtain ⟨before, after, whole, stands, place, opens⟩ := referenced
  obtain ⟨left, start, rest, among, inside, rfl, quoted⟩ := place.exists_segment whole stands
  exact ⟨_, among, Text.isReadable_of_isIdentifier inside.identifier, start, rest, rfl,
    opens.drop (breaks_of_quoted quoted), inside.closed⟩

/-- The references in the code of a text have exactly these names as components. -/
theorem mem_referencesInCode_iff (identifier : Text.isIdentifier name = true)
    (free : isReserved name = false) :
    (∃ code ∈ codeSegments text, ∃ reference ∈ referencesInCode code, name ∈ reference.parts) ↔
      Referenced text name := by
  constructor
  · rintro ⟨code, among, reference, found, part⟩
    exact referenced_of_segment identifier among
      (mem_parts_iff.mp ⟨reference, (List.mem_filter.mp found).1, part⟩)
  · intro referenced
    obtain ⟨code, among, component⟩ := referenced.exists_segment
    obtain ⟨reference, found, part⟩ := mem_parts_iff.mpr component
    exact ⟨code, among, reference, mem_referencesInCode found part free, part⟩

end Segments

/-! ## Padding around what is parsed -/

variable {text name : Text}

theorem referenced_padded_iff {opening core closing : Text}
    (white : ∀ c ∈ opening, Text.isBlank c = true) (padding : IsPadding closing) :
    Referenced (opening ++ (core ++ closing)) name ↔ Referenced core name := by
  have front := isPadding_of_isBlank white
  constructor
  · rintro ⟨before, after, whole, stands, place, opens⟩
    obtain ⟨inner, rfl, within⟩ := place.core front padding stands.solid stands.ne_nil
    obtain ⟨rest, split⟩ := within.exists_after
    exact ⟨inner, rest, split, stands_core stands whole split, within,
      opens.drop (breaks_of_blank white)⟩
  · rintro ⟨before, after, rfl, stands, place, opens⟩
    refine ⟨opening ++ before, after ++ closing, by simp, ?_, place.padded front padding,
      opens.behind (breaks_of_blank white)⟩
    exact stands.within (fun c last => (front c (List.mem_of_getLast? last)).1) fun c first =>
      (padding c (List.mem_of_head? first)).1

theorem referenced_trimEnd_iff : Referenced (Text.trimEnd text) name ↔ Referenced text name := by
  obtain ⟨blanks, whole, padding⟩ := exists_trimEnd text
  have same := @referenced_padded_iff name [] (Text.trimEnd text) blanks nofun padding
  rw [List.nil_append, ← whole] at same
  exact same.symm

theorem referenced_trim_iff : Referenced (Text.trim text) name ↔ Referenced text name := by
  obtain ⟨blanks, whole, white⟩ := exists_blanks text
  have same := @referenced_padded_iff name blanks (Text.trimStart text) [] white isPadding_nil
  rw [List.append_nil, ← whole] at same
  exact referenced_trimEnd_iff.trans same.symm

/-- A semicolon at the end belongs to no name. -/
theorem referenced_dropSemicolon_iff (ends : text.getLast? = some ';') :
    Referenced (Text.trimEnd text.dropLast) name ↔ Referenced text name := by
  obtain ⟨front, rfl⟩ := List.getLast?_eq_some_iff.mp ends
  rw [List.dropLast_concat, referenced_trimEnd_iff]
  exact (@referenced_padded_iff name [] front [';'] nofun isPadding_semicolon).symm

/-- An identifier holds no name but itself. -/
theorem referenced_identifier_iff (identifier : Text.isIdentifier text = true) :
    Referenced text name ↔ name = text := by
  constructor
  · rintro ⟨before, after, rfl, stands, _⟩
    exact (stands.eq_of_isIdentifier identifier).symm
  · rintro rfl
    have plain (c : Char) (part : c ∈ name) : isQuote c = false :=
      isQuote_of_isReferencePart (Text.solid_of_isIdentifier identifier c part)
    refine ⟨[], [], by simp, ⟨identifier, nofun, nofun⟩, ⟨[], [], ?_, rfl⟩, .start rfl⟩
    have cut := tokens_of_plain plain []
    rwa [List.append_nil] at cut

end TypeScriptGen.Syntax
