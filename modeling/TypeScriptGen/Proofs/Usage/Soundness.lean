import TypeScriptGen.Proofs.Usage.Mention

/-!
# The scan of parsed text is sound

Whatever a scan finds in an expression or a statement starts somewhere in the
text that was given, blanks and a final semicolon included.
-/

namespace TypeScriptGen.Usage

open Syntax (InLiteral IsPadding)
open Text (IsSpread)

variable {text name : Text}

/-- Blanks in front of a text and padding behind it change no place. -/
theorem Found.padded {blanks core back : Text} (white : ∀ c ∈ blanks, Text.isBlank c = true)
    (closing : IsPadding back) (found : Found core name) :
    Found (blanks ++ (core ++ back)) name := by
  obtain ⟨readable, front, starts, kind⟩ := found
  obtain ⟨rest, rfl⟩ := starts.split
  have outside (c : Char) (last : c ∈ blanks.getLast?) : Text.isWord c = false ∧ c ≠ '.' := by
    have blank := white c (List.mem_of_getLast? last)
    exact ⟨Syntax.isWord_of_isBlank blank, Syntax.ne_dot_of_isBlank blank⟩
  have opened := Text.forall_getLast?_append (fun c last => (outside c last).1) starts.opened
  refine ⟨readable, blanks ++ front, ⟨⟨rest ++ back, by simp⟩, opened⟩, ?_⟩
  rcases kind with typed | inside | unspread
  · exact Or.inl typed
  · exact Or.inr (Or.inl (inside.padded (Syntax.isPadding_of_isBlank white) closing))
  · exact Or.inr (Or.inr ((Text.Apart.mk starts.opened unspread).append outside).unspread)

theorem Found.dropped {core back : Text} (closing : IsPadding back) (found : Found core name) :
    Found (core ++ back) name := by
  change Found ([] ++ (core ++ back)) name
  exact found.padded nofun closing

theorem Found.of_trimEnd (found : Found (Text.trimEnd text) name) : Found text name := by
  obtain ⟨blanks, whole, padding⟩ := Syntax.exists_trimEnd text
  rw [whole]
  exact found.dropped padding

theorem Found.of_trim (found : Found (Text.trim text) name) : Found text name := by
  obtain ⟨blanks, whole, white⟩ := Syntax.exists_blanks text
  rw [whole, ← List.append_nil (Text.trimStart text)]
  exact found.of_trimEnd.padded white Syntax.isPadding_nil

theorem found_of_mem_namesIn_parseExpression
    (member : name ∈ namesIn (Syntax.parseExpression text)) : Found text name := by
  refine Found.of_trim ?_
  unfold Syntax.parseExpression at member
  dsimp only at member
  split at member
  · next plain =>
      rw [Bool.and_eq_true] at plain
      rw [List.mem_singleton.mp (mem_namesIn_named.mp member)]
      have whole : Found ([] ++ (Text.trim text ++ [])) (Text.trim text) :=
        found_of_apart [] (Text.isReadable_of_isIdentifier plain.1) Text.apart_nil
      rwa [List.append_nil] at whole
  · exact found_of_mem_namesIn_raw member

theorem found_of_mem_namesIn_parseStatement
    (member : name ∈ namesIn (Syntax.parseStatement text)) : Found text name := by
  refine Found.of_trim ?_
  rcases mem_namesIn.mp member with own | ⟨child, among, found⟩
  · cases own
  · rw [List.mem_singleton.mp among] at found
    have inner := found_of_mem_namesIn_parseExpression found
    split at inner
    · next ends =>
        obtain ⟨front, whole⟩ := List.getLast?_eq_some_iff.mp ends
        rw [whole, List.dropLast_concat] at inner
        rw [whole]
        exact inner.of_trimEnd.dropped Syntax.isPadding_semicolon
    · exact inner

end TypeScriptGen.Usage
