import TypeScriptGen.Proofs.Text.Standing
import TypeScriptGen.Text.Quoted

/-!
# Texts that show where they end

A name ends where the first character follows that is in no name, a quoted text
at its closing quote, whatever stands in it. So the beginning of a text can be
read off in one way only, and what is behind it as well.
-/

namespace TypeScriptGen.Text

/-- No name goes on with the text. -/
def Closes (text : Text) : Prop := ∀ c ∈ text.head?, isReferencePart c = false

theorem closes_cons {c : Char} (outside : isReferencePart c = false) (rest : Text) :
    Closes (c :: rest) := by
  intro d first
  cases first
  exact outside

section Identifiers

variable {first second after behind : Text}

/-- Two texts that start with identifiers are the same only if the identifiers are. -/
theorem identifier_append_inj (one : isIdentifier first = true) (closed : Closes after)
    (other : isIdentifier second = true) (shut : Closes behind)
    (same : first ++ after = second ++ behind) : first = second ∧ after = behind := by
  have left : Stands [] first after := ⟨one, nofun, closed⟩
  have right : Stands [] second behind := ⟨other, nofun, shut⟩
  obtain ⟨taken, dropped⟩ := left.isRun.takeWhile_eq
  rw [same] at taken dropped
  constructor
  · rw [← taken, right.isRun.takeWhile_eq.1]
  · rw [← dropped, right.isRun.takeWhile_eq.2]

theorem exists_cons_of_isIdentifier (one : isIdentifier first = true) :
    ∃ c rest, first = c :: rest ∧ isIdentifierStart c = true := by
  cases first with
  | nil => cases one
  | cons c rest => exact ⟨c, rest, rfl, ((Bool.and_eq_true _ _).mp one).1⟩

/-- A text that starts with an identifier starts with no other mark. -/
theorem ne_of_isIdentifier {mark : Char} (outside : isIdentifierStart mark = false)
    (one : isIdentifier first = true) : first ++ after ≠ mark :: behind := by
  obtain ⟨c, rest, rfl, start⟩ := exists_cons_of_isIdentifier one
  intro same
  rw [(List.cons.inj same).1, outside] at start
  cases start

end Identifiers

/-! ## Quoted texts -/

/-- The escaped form of a character never starts with the closing quote. -/
theorem guardChar_cases (c : Char) :
    guardChar c = ['\\', c] ∧ (c = '"' ∨ c = '\\') ∨
      guardChar c = [c] ∧ c ≠ '"' ∧ c ≠ '\\' := by
  unfold guardChar
  by_cases escaped : (c = '"' || c = '\\') = true
  · rw [if_pos escaped]
    simpa using escaped
  · rw [if_neg escaped]
    simpa using escaped

theorem guardChar_append_ne (c : Char) (after behind : Text) :
    guardChar c ++ after ≠ '"' :: behind := by
  rcases guardChar_cases c with ⟨form, _⟩ | ⟨form, quote, _⟩
  · rw [form]
    intro same
    cases same
  · rw [form]
    intro same
    exact quote (List.cons.inj same).1

theorem guardChar_append_inj {c d : Char} {after behind : Text}
    (same : guardChar c ++ after = guardChar d ++ behind) : c = d ∧ after = behind := by
  rcases guardChar_cases c with ⟨first, escaped⟩ | ⟨first, plain⟩ <;>
    rcases guardChar_cases d with ⟨second, marked⟩ | ⟨second, bare⟩ <;>
      rw [first, second] at same
  · cases same
    exact ⟨rfl, rfl⟩
  · exact absurd (List.cons.inj same).1.symm bare.2
  · exact absurd (List.cons.inj same).1 plain.2
  · cases same
    exact ⟨rfl, rfl⟩

/-- Two texts that start with quoted texts are the same only if the quoted ones are. -/
theorem guard_append_inj {first second after behind : Text}
    (same : guard first ++ after = guard second ++ behind) : first = second ∧ after = behind := by
  suffices inner : ∀ second, first.flatMap guardChar ++ '"' :: after =
      second.flatMap guardChar ++ '"' :: behind → first = second ∧ after = behind by
    refine inner second ?_
    simpa [guard] using same
  clear same
  induction first with
  | nil =>
      intro second same
      cases second with
      | nil => exact ⟨rfl, (List.cons.inj same).2⟩
      | cons d second =>
          rw [List.flatMap_cons, List.append_assoc] at same
          exact absurd same.symm (guardChar_append_ne d _ _)
  | cons c first ih =>
      intro second same
      cases second with
      | nil =>
          rw [List.flatMap_cons, List.append_assoc] at same
          exact absurd same (guardChar_append_ne c _ _)
      | cons d second =>
          rw [List.flatMap_cons, List.flatMap_cons, List.append_assoc, List.append_assoc] at same
          obtain ⟨head, tail⟩ := guardChar_append_inj same
          obtain ⟨rest, behind⟩ := ih second tail
          exact ⟨by rw [head, rest], behind⟩

end TypeScriptGen.Text
