import TypeScriptGen.Proofs.Text.Standing

/-!
# Pieces of a text

What splitting at some characters gives: pieces that stand in the text as they
are and hold none of these characters, among them every stretch that such
characters enclose. Words are such pieces, and a name without a dollar sign that
stands whole in a text is one of its words.
-/

namespace TypeScriptGen.Text

theorem splitWhere_append_stop {stop : Char → Bool} {c : Char} (stops : stop c = true)
    (front back : Text) :
    splitWhere stop (front ++ c :: back) = splitWhere stop front ++ splitWhere stop back := by
  induction front with
  | nil => simp [splitWhere, stops]
  | cons d front ih =>
      rw [List.cons_append, splitWhere, splitWhere, ih]
      cases same : splitWhere stop front with
      | nil => exact absurd same (splitWhere_ne_nil stop front)
      | cons piece pieces => split <;> rfl

theorem splitWhere_of_clear {stop : Char → Bool} {text : Text}
    (clear : ∀ c ∈ text, stop c = false) : splitWhere stop text = [text] := by
  induction text with
  | nil => rfl
  | cons c text ih =>
      have rest := ih fun d member => clear d (List.mem_cons_of_mem c member)
      have first := clear c List.mem_cons_self
      simp [splitWhere, first, rest]

theorem splitOn_of_not_mem {separator : Char} {text : Text} (clear : separator ∉ text) :
    splitOn separator text = [text] :=
  splitWhere_of_clear fun c member => by
    simpa using fun same : c = separator => clear (same ▸ member)

theorem splitOn_append_separator (separator : Char) (front back : Text) :
    splitOn separator (front ++ separator :: back) =
      splitOn separator front ++ splitOn separator back :=
  @splitWhere_append_stop (· == separator) separator (beq_self_eq_true separator) front back

/-- Pieces without the separator are told apart again. -/
theorem splitOn_intercalate {separator : Char} {pieces : List Text} (some : pieces ≠ [])
    (clear : ∀ piece ∈ pieces, separator ∉ piece) :
    splitOn separator ([separator].intercalate pieces) = pieces := by
  induction pieces with
  | nil => exact absurd rfl some
  | cons piece pieces ih =>
      have here := splitOn_of_not_mem (clear piece List.mem_cons_self)
      cases pieces with
      | nil =>
          rw [List.intercalate_singleton]
          exact here
      | cons next pieces =>
          have rest := ih (List.cons_ne_nil next pieces) fun other member =>
            clear other (List.mem_cons_of_mem piece member)
          rw [List.intercalate_cons_cons, List.append_assoc, List.singleton_append,
            splitOn_append_separator, here, rest]
          rfl

/-- A stretch without stops that stops enclose is a piece. -/
theorem mem_splitWhere {stop : Char → Bool} {before name after : Text}
    (opened : ∀ c ∈ before.getLast?, stop c = true) (clear : ∀ c ∈ name, stop c = false)
    (closed : ∀ c ∈ after.head?, stop c = true) :
    name ∈ splitWhere stop (before ++ (name ++ after)) := by
  have closing : name ∈ splitWhere stop (name ++ after) := by
    cases after with
    | nil => simp [splitWhere_of_clear clear]
    | cons c rest => simp [splitWhere_append_stop (closed c rfl), splitWhere_of_clear clear]
  cases last : before.getLast? with
  | none =>
      rw [List.getLast?_eq_none_iff.mp last]
      exact closing
  | some c =>
      obtain ⟨front, rfl⟩ := List.getLast?_eq_some_iff.mp last
      rw [List.append_assoc, List.singleton_append, splitWhere_append_stop (opened c last)]
      exact List.mem_append_right _ closing

/-- The first piece stands at the start, and every other one behind a stop. -/
theorem splitWhere_place (stop : Char → Bool) (text : Text) :
    (∀ piece ∈ (splitWhere stop text).head?, piece <+: text) ∧
      ∀ piece ∈ (splitWhere stop text).tail,
        ∃ front c back, text = front ++ c :: (piece ++ back) ∧ stop c = true := by
  induction text with
  | nil => simp [splitWhere]
  | cons c text ih =>
      obtain ⟨start, behind⟩ := ih
      rw [splitWhere]
      cases same : splitWhere stop text with
      | nil => exact absurd same (splitWhere_ne_nil stop text)
      | cons first pieces =>
          rw [same] at start behind
          have further (piece : Text) (member : piece ∈ pieces) :
              ∃ front d back, c :: text = front ++ d :: (piece ++ back) ∧ stop d = true := by
            obtain ⟨front, d, back, rfl, stops⟩ := behind piece member
            exact ⟨c :: front, d, back, rfl, stops⟩
          split
          · next stops =>
              refine ⟨by simp, fun piece member => ?_⟩
              rcases List.mem_cons.mp member with rfl | tail
              · obtain ⟨back, whole⟩ := start piece rfl
                exact ⟨[], c, back, by rw [whole]; rfl, stops⟩
              · exact further piece tail
          · have opening : c :: first <+: c :: text :=
              List.cons_prefix_cons.mpr ⟨rfl, start first rfl⟩
            exact ⟨by simpa using opening, further⟩

/-- A piece stands behind a stop or at the start. -/
theorem exists_place_of_mem_splitWhere {stop : Char → Bool} {text piece : Text}
    (member : piece ∈ splitWhere stop text) :
    ∃ front back, text = front ++ (piece ++ back) ∧ ∀ c ∈ front.getLast?, stop c = true := by
  obtain ⟨start, behind⟩ := splitWhere_place stop text
  obtain ⟨first, pieces, same⟩ := List.exists_cons_of_ne_nil (splitWhere_ne_nil stop text)
  rw [same] at member start behind
  rcases List.mem_cons.mp member with rfl | tail
  · obtain ⟨back, whole⟩ := start piece rfl
    exact ⟨[], back, whole.symm, nofun⟩
  · obtain ⟨front, c, back, rfl, stops⟩ := behind piece tail
    exact ⟨front ++ [c], back, by simp, by simp [stops]⟩

/-- Every other character lies in a piece. -/
theorem exists_piece_of_mem (stop : Char → Bool) {text : Text} {c : Char} (member : c ∈ text)
    (other : stop c = false) : ∃ piece ∈ splitWhere stop text, c ∈ piece := by
  have flat : c ∈ (splitWhere stop text).flatten := by
    rw [splitWhere_flatten]
    exact List.mem_filter.mpr ⟨member, by rw [other]; rfl⟩
  exact List.mem_flatten.mp flat

theorem intercalate_splitOn (separator : Char) (text : Text) :
    [separator].intercalate (splitOn separator text) = text := by
  induction text with
  | nil => rfl
  | cons c text ih =>
      obtain ⟨first, rest, same⟩ := List.exists_cons_of_ne_nil
        (splitWhere_ne_nil (· == separator) text)
      rw [splitOn, same] at ih
      rw [splitOn, splitWhere, same]
      split
      · next stops =>
          rw [List.intercalate_cons_cons, ih, beq_iff_eq.mp stops]
          rfl
      · cases rest with
        | nil => rw [← ih]; simp
        | cons second rest =>
            rw [List.intercalate_cons_cons] at ih ⊢
            rw [← ih]
            rfl

/-! ## Words -/

/-- In front of a word there is no word character. -/
theorem word_place {text word : Text} (member : word ∈ words text) :
    ∃ front back, text = front ++ (word ++ back) ∧ ∀ c ∈ front.getLast?, isWord c = false := by
  obtain ⟨front, back, whole, stops⟩ :=
    exists_place_of_mem_splitWhere (List.mem_filter.mp member).1
  exact ⟨front, back, whole, fun c last => by simpa using stops c last⟩

theorem words_append_stop {c : Char} (stops : isWord c = false) (front back : Text) :
    words (front ++ c :: back) = words front ++ words back := by
  have apart : (!isWord c) = true := by rw [stops]; rfl
  rw [words, splitWhere_append_stop apart, List.filter_append]
  rfl

theorem words_clear_append {pad : Text} (clear : ∀ c ∈ pad, isWord c = false) (text : Text) :
    words (pad ++ text) = words text := by
  induction pad with
  | nil => rfl
  | cons c pad ih =>
      have first := words_append_stop (clear c List.mem_cons_self) [] (pad ++ text)
      exact first.trans (ih fun d member => clear d (List.mem_cons_of_mem c member))

theorem words_append_clear {pad : Text} (clear : ∀ c ∈ pad, isWord c = false) (text : Text) :
    words (text ++ pad) = words text := by
  cases pad with
  | nil => rw [List.append_nil]
  | cons c pad =>
      have rest := words_clear_append (fun d member => clear d (List.mem_cons_of_mem c member)) []
      rw [List.append_nil] at rest
      rw [words_append_stop (clear c List.mem_cons_self), rest]
      exact List.append_nil _

theorem isWord_of_isReferencePart {c : Char} (outside : isReferencePart c = false) :
    isWord c = false := by
  simp only [isReferencePart, Bool.or_eq_false_iff] at outside
  exact outside.1

/-- Without a dollar sign an identifier is a plain name. -/
theorem isPlainName_of_isIdentifier {name : Text} (identifier : isIdentifier name = true)
    (plain : '$' ∉ name) : isPlainName name = true := by
  cases name with
  | nil => cases identifier
  | cons c rest =>
      simp only [List.mem_cons, not_or] at plain
      simp only [isIdentifier, isIdentifierStart, isIdentifierPart, Bool.and_eq_true,
        List.all_eq_true, Bool.or_eq_true, beq_iff_eq] at identifier
      simp only [isPlainName, Bool.and_eq_true, List.all_eq_true]
      refine ⟨identifier.1.resolve_right (Ne.symm plain.1), fun d member => ?_⟩
      exact (identifier.2 d member).resolve_right fun dollar => plain.2 (dollar ▸ member)

theorem isWord_of_isPlainName {name : Text} (plain : isPlainName name = true) :
    ∀ c ∈ name, isWord c = true := by
  intro c member
  cases name with
  | nil => cases member
  | cons first rest =>
      simp only [isPlainName, Bool.and_eq_true, List.all_eq_true] at plain
      rcases List.mem_cons.mp member with rfl | tail
      · exact isWord_of_isNamePart c (isNamePart_of_isNameStart c plain.1)
      · exact isWord_of_isNamePart c (plain.2 c tail)

theorem Stands.mem_words {before name after : Text} (stands : Stands before name after)
    (plain : '$' ∉ name) : name ∈ words (before ++ (name ++ after)) := by
  have letters := isWord_of_isPlainName (isPlainName_of_isIdentifier stands.identifier plain)
  refine List.mem_filter.mpr ⟨mem_splitWhere ?_ ?_ ?_, by simpa using stands.ne_nil⟩
  · intro c last
    simp [isWord_of_isReferencePart (stands.opened c last)]
  · intro c member
    simp [letters c member]
  · intro c first
    simp [isWord_of_isReferencePart (stands.closed c first)]

end TypeScriptGen.Text
