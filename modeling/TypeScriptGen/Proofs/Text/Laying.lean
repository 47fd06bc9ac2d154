import TypeScriptGen.Comment
import TypeScriptGen.Proofs.Text.Pieces
import TypeScriptGen.Text.Line
import TypeScriptGen.Text.Quoted

/-!
# Names in texts that are laid out

Joining texts, moving them to the right, quoting them and putting comments above
them all keep a name that stands in one line. Moving a text inserts spaces at the
starts of lines only, and quoting touches only quotes and backslashes, which are
in no name.
-/

namespace TypeScriptGen.Text

/-- Every text stands in the list joined with a separator. -/
theorem infix_intercalate {texts : List Text} {text : Text} (separator : Text)
    (member : text ∈ texts) : text <:+: separator.intercalate texts := by
  induction texts with
  | nil => cases member
  | cons first rest ih =>
      cases rest with
      | nil =>
          have whole : separator.intercalate [first] = first := List.intercalate_singleton
          exact whole.symm ▸ List.mem_singleton.mp member ▸ List.infix_rfl
      | cons second rest =>
          rw [List.intercalate_cons_cons]
          rcases List.mem_cons.mp member with rfl | tail
          · exact List.infix_append_of_infix_left List.infix_append_left
          · exact List.infix_append_of_infix_right (ih tail)

theorem intercalate_isPrefix (separator : Text) (texts more : List Text) :
    separator.intercalate texts <+: separator.intercalate (texts ++ more) := by
  induction texts with
  | nil => exact List.nil_prefix
  | cons text texts ih =>
      cases texts with
      | nil =>
          rw [List.intercalate_singleton, List.singleton_append]
          cases more with
          | nil => exact List.intercalate_singleton.symm ▸ List.prefix_rfl
          | cons next more =>
              rw [List.intercalate_cons_cons, List.append_assoc]
              exact List.prefix_append text _
      | cons next texts =>
          rw [List.cons_append, List.cons_append, List.intercalate_cons_cons,
            List.intercalate_cons_cons]
          exact (List.prefix_append_right_inj _).mpr ih

/-- Neighbouring texts stand in the joined text as they are joined by themselves. -/
theorem intercalate_isInfix {texts more : List Text} (separator : Text) (inside : texts <:+: more) :
    separator.intercalate texts <:+: separator.intercalate more := by
  obtain ⟨before, after, rfl⟩ := inside
  rw [List.append_assoc]
  induction before with
  | nil => exact (intercalate_isPrefix separator texts after).isInfix
  | cons text before ih =>
      rw [List.cons_append]
      cases rest : before ++ (texts ++ after) with
      | nil =>
          have none : texts = [] := by simp_all
          rw [none]
          exact List.nil_infix
      | cons next more =>
          rw [rest] at ih
          rw [List.intercalate_cons_cons]
          exact List.infix_append_of_infix_right ih

theorem intercalate_append {texts more : List Text} (separator : Text) (some : texts ≠ [])
    (others : more ≠ []) :
    separator.intercalate (texts ++ more) =
      separator.intercalate texts ++ separator ++ separator.intercalate more := by
  induction texts with
  | nil => exact absurd rfl some
  | cons text texts ih =>
      cases texts with
      | nil =>
          rw [List.intercalate_singleton, List.singleton_append,
            List.intercalate_cons_of_ne_nil others]
      | cons next texts =>
          have rest : next :: texts ++ more ≠ [] := List.cons_ne_nil _ _
          rw [List.cons_append, List.intercalate_cons_of_ne_nil rest, ih (List.cons_ne_nil _ _),
            List.intercalate_cons_cons]
          simp only [List.append_assoc]

/-- What stands in front of the first text stands in front of the joined texts. -/
theorem intercalate_cons_append (separator front text : Text) (texts : List Text) :
    separator.intercalate ((front ++ text) :: texts) =
      front ++ separator.intercalate (text :: texts) := by
  cases texts with
  | nil => rw [List.intercalate_singleton, List.intercalate_singleton]
  | cons next texts =>
      rw [List.intercalate_cons_cons, List.intercalate_cons_cons]
      simp only [List.append_assoc]

/-- Two joined texts, one behind the other, meet in the last text of the first and the first text
of the second. -/
theorem intercalate_meeting (separator last middle first : Text) (before behind : List Text) :
    separator.intercalate (before ++ (last ++ middle ++ first) :: behind) =
      separator.intercalate (before ++ [last]) ++ middle ++
        separator.intercalate (first :: behind) := by
  induction before with
  | nil =>
      rw [List.nil_append, List.nil_append, List.intercalate_singleton, intercalate_cons_append]
  | cons text before ih =>
      have one : before ++ (last ++ middle ++ first) :: behind ≠ [] := by simp
      have other : before ++ [last] ≠ [] := by simp
      rw [List.cons_append, List.cons_append, List.intercalate_cons_of_ne_nil one,
        List.intercalate_cons_of_ne_nil other, ih]
      simp only [List.append_assoc]

/-- Where the parts of an item are joined with the same separator, joining all parts at once gives
the items joined. -/
theorem intercalate_flatMap {α : Type} {separator : Text} {items : List α} {parts : α → List Text}
    {write : α → Text} (some : ∀ item ∈ items, parts item ≠ [])
    (joined : ∀ item ∈ items, separator.intercalate (parts item) = write item) :
    separator.intercalate (items.flatMap parts) = separator.intercalate (items.map write) := by
  induction items with
  | nil => rfl
  | cons item items ih =>
      have own := joined item List.mem_cons_self
      have rest := ih (fun other member => some other (List.mem_cons_of_mem item member))
        fun other member => joined other (List.mem_cons_of_mem item member)
      rw [List.flatMap_cons, List.map_cons]
      cases items with
      | nil => rw [List.flatMap_nil, List.append_nil, own, List.map_nil, List.intercalate_singleton]
      | cons next items =>
          have more : (next :: items).flatMap parts ≠ [] := by
            rw [List.flatMap_cons]
            exact List.append_ne_nil_of_left_ne_nil
              (some next (List.mem_cons_of_mem item List.mem_cons_self)) _
          have written : (next :: items).map write ≠ [] := List.cons_ne_nil _ _
          rw [intercalate_append separator (some item List.mem_cons_self) more, own, rest,
            List.intercalate_cons_of_ne_nil written]

/-- A margin in front of each item is one in front of the first and behind each separator. -/
theorem intercalate_margin (margin separator : Text) (item : Text) (items : List Text) :
    separator.intercalate ((item :: items).map fun item => margin ++ item) =
      margin ++ (separator ++ margin).intercalate (item :: items) := by
  induction items generalizing item with
  | nil => simp
  | cons next items ih =>
      rw [List.map_cons, List.map_cons, List.intercalate_cons_cons, List.intercalate_cons_cons,
        ← List.map_cons (f := fun item => margin ++ item), ih]
      simp

theorem infix_flatMap {α β : Type} {items : List α} {item : α} (write : α → List β)
    (member : item ∈ items) : write item <:+: items.flatMap write :=
  List.infix_of_mem_flatten (List.mem_map_of_mem member)

theorem splitWhere_clear_append {stop : Char → Bool} {name : Text} (back : Text)
    (clear : ∀ c ∈ name, stop c = false) :
    ∃ first pieces, splitWhere stop (name ++ back) = (name ++ first) :: pieces := by
  induction name with
  | nil => exact List.exists_cons_of_ne_nil (splitWhere_ne_nil stop back)
  | cons c name ih =>
      obtain ⟨first, pieces, same⟩ := ih fun d member => clear d (List.mem_cons_of_mem c member)
      refine ⟨first, pieces, ?_⟩
      rw [List.cons_append, splitWhere, if_neg (by simp [clear c List.mem_cons_self]), same]
      rfl

/-- A stretch without stops lies in one of the pieces. -/
theorem exists_piece {stop : Char → Bool} {name text : Text} (inside : name <:+: text)
    (clear : ∀ c ∈ name, stop c = false) : ∃ piece ∈ splitWhere stop text, name <:+: piece := by
  obtain ⟨front, back, rfl⟩ := inside
  rw [List.append_assoc]
  induction front with
  | nil =>
      obtain ⟨first, pieces, same⟩ := splitWhere_clear_append back clear
      refine ⟨name ++ first, ?_, List.infix_append_left⟩
      rw [List.nil_append, same]
      exact List.mem_cons_self
  | cons c front ih =>
      obtain ⟨piece, among, within⟩ := ih
      rw [List.cons_append, splitWhere]
      split
      · exact ⟨piece, List.mem_cons_of_mem [] among, within⟩
      · split
        · next none => exact absurd none (splitWhere_ne_nil stop _)
        · next first pieces same =>
            rw [same] at among
            rcases List.mem_cons.mp among with rfl | tail
            · exact ⟨c :: piece, List.mem_cons_self, List.infix_cons within⟩
            · exact ⟨piece, List.mem_cons_of_mem _ tail, within⟩

theorem indentBy_isInfix {name text : Text} (margin : Nat) (inside : name <:+: text)
    (oneLine : '\n' ∉ name) : name <:+: indentBy margin text := by
  have clear : ∀ c ∈ name, (c == '\n') = false := by
    intro c member
    simpa using fun same : c = '\n' => oneLine (same ▸ member)
  obtain ⟨line, among, within⟩ := exists_piece inside clear
  have moved : name <:+: indentLine margin line := by
    unfold indentLine
    split
    · exact within
    · exact List.infix_append_of_infix_right within
  exact moved.trans (infix_intercalate ['\n'] (List.mem_map_of_mem among))

theorem guardChar_of_isReferencePart {c : Char} (part : isReferencePart c = true) :
    guardChar c = [c] := by
  unfold guardChar
  split
  · next special =>
      simp only [Bool.or_eq_true, decide_eq_true_eq] at special
      rcases special with rfl | rfl <;> exact absurd part (by decide)
  · rfl

theorem flatMap_guardChar {name : Text} (solid : Solid name) : name.flatMap guardChar = name := by
  induction name with
  | nil => rfl
  | cons c name ih =>
      have rest := ih fun d member => solid d (List.mem_cons_of_mem c member)
      rw [List.flatMap_cons, rest, guardChar_of_isReferencePart (solid c List.mem_cons_self)]
      rfl

theorem guard_isInfix {name content : Text} (inside : name <:+: content) (solid : Solid name) :
    name <:+: guard content := by
  obtain ⟨front, back, rfl⟩ := inside
  unfold guard
  rw [List.flatMap_append, List.flatMap_append, flatMap_guardChar solid]
  exact List.infix_append_of_infix_left (List.infix_cons (List.infix_append _ name _))

theorem above_isSuffix (lines : List Text) (text : Text) : text <:+ Comment.above lines text := by
  unfold Comment.above
  split
  · exact List.suffix_rfl
  · exact (List.suffix_cons '\n' text).trans (List.suffix_append _ _)

theorem above_isInfix (lines : List Text) (text : Text) : text <:+: Comment.above lines text :=
  (above_isSuffix lines text).isInfix

end TypeScriptGen.Text
