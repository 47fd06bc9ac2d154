import TypeScriptGen.Text.Line

/-!
# Blocks of text

A block is moved to the right by spaces behind each of its line feeds: its first line stands where
the text in front of it ends. Moving works on the parts of a text for themselves, leaves a single
line as it is, and adds up.
-/

namespace TypeScriptGen.Text

/-- Puts spaces behind every line feed. -/
def shifted (margin : Nat) (text : Text) : Text := replace '\n' ('\n' :: spaces margin) text

variable {text : Text}

theorem shifted_append (margin : Nat) (first second : Text) :
    shifted margin (first ++ second) = shifted margin first ++ shifted margin second :=
  replace_append _ _ _ _

theorem shifted_lineFeed (margin : Nat) (text : Text) :
    shifted margin ('\n' :: text) = '\n' :: (spaces margin ++ shifted margin text) := rfl

theorem shifted_cons_of_ne {c : Char} (margin : Nat) (other : c ≠ '\n') (text : Text) :
    shifted margin (c :: text) = c :: shifted margin text := by
  rw [shifted, replace, List.flatMap_cons, if_neg other]
  rfl

theorem shifted_of_oneLine (margin : Nat) (single : '\n' ∉ text) : shifted margin text = text := by
  induction text with
  | nil => rfl
  | cons c rest ih =>
      rw [List.mem_cons, not_or] at single
      rw [shifted_cons_of_ne margin (Ne.symm single.1), ih single.2]

theorem oneLine_spaces (count : Nat) : '\n' ∉ spaces count := fun inside =>
  absurd (List.eq_of_mem_replicate inside) (by decide)

theorem shifted_intercalate (margin : Nat) (separator : Text) (texts : List Text) :
    shifted margin (separator.intercalate texts) =
      (shifted margin separator).intercalate (texts.map (shifted margin)) := by
  induction texts with
  | nil => rfl
  | cons text texts ih =>
      cases texts with
      | nil => rw [List.intercalate_singleton, List.map_singleton, List.intercalate_singleton]
      | cons next texts =>
          rw [List.map_cons, List.map_cons, List.intercalate_cons_cons,
            List.intercalate_cons_cons, shifted_append, shifted_append, ih, List.map_cons]

theorem shifted_zero (text : Text) : shifted 0 text = text := by
  induction text with
  | nil => rfl
  | cons c rest ih =>
      by_cases same : c = '\n'
      · rw [same, shifted_lineFeed, ih]
        rfl
      · rw [shifted_cons_of_ne 0 same, ih]

theorem shifted_shifted (outer inner : Nat) (text : Text) :
    shifted outer (shifted inner text) = shifted (outer + inner) text := by
  induction text with
  | nil => rfl
  | cons c rest ih =>
      by_cases same : c = '\n'
      · have sum : spaces outer ++ spaces inner = spaces (outer + inner) :=
          List.replicate_append_replicate
        rw [same, shifted_lineFeed, shifted_lineFeed, shifted_lineFeed, shifted_append,
          shifted_of_oneLine outer (oneLine_spaces inner), ih, ← List.append_assoc, sum]
      · rw [shifted_cons_of_ne inner same, shifted_cons_of_ne outer same,
          shifted_cons_of_ne _ same, ih]

end TypeScriptGen.Text
