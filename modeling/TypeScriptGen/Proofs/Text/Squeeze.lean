import Mathlib.Data.List.DropRight
import TypeScriptGen.Text.Blank

/-!
# Texts without their blanks

Squeezing a text takes out all its blanks. Trimming takes out some of them, so it
leaves the visible characters as they are.
-/

namespace TypeScriptGen.Text

/-- The characters of a text that are not blank. -/
def squeeze (text : Text) : Text := text.filter fun c => !isBlank c

variable {text : Text}

theorem mem_squeeze {c : Char} : c ∈ squeeze text ↔ c ∈ text ∧ isBlank c = false := by
  rw [squeeze, List.mem_filter, Bool.not_eq_true']

theorem squeeze_append (first second : Text) :
    squeeze (first ++ second) = squeeze first ++ squeeze second :=
  List.filter_append first second

theorem squeeze_reverse (text : Text) : squeeze text.reverse = (squeeze text).reverse :=
  List.filter_reverse

theorem squeeze_trimStart (text : Text) : squeeze (trimStart text) = squeeze text := by
  induction text with
  | nil => rfl
  | cons c text ih =>
      unfold trimStart at ih ⊢
      cases blank : isBlank c with
      | true => rw [List.dropWhile_cons_of_pos blank, ih, squeeze, squeeze]; simp [blank]
      | false => rw [List.dropWhile_cons_of_neg (by simp [blank])]

theorem squeeze_trimEnd (text : Text) : squeeze (trimEnd text) = squeeze text := by
  have front := squeeze_trimStart text.reverse
  rw [squeeze_reverse] at front
  rw [trimEnd, squeeze_reverse]
  exact (congrArg List.reverse front).trans (List.reverse_reverse _)

theorem squeeze_trim (text : Text) : squeeze (trim text) = squeeze text := by
  rw [trim, squeeze_trimEnd, squeeze_trimStart]

/-- Texts that are squeezed to the same have the same visible characters. -/
theorem mem_iff_of_squeeze {other : Text} (same : squeeze other = squeeze text) {c : Char}
    (visible : isBlank c = false) : c ∈ other ↔ c ∈ text := by
  have inside : c ∈ squeeze other ↔ c ∈ squeeze text := by rw [same]
  simpa only [mem_squeeze, visible, and_true] using inside

theorem mem_trim {c : Char} (visible : isBlank c = false) : c ∈ trim text ↔ c ∈ text :=
  mem_iff_of_squeeze (squeeze_trim text) visible

theorem mem_trimEnd {c : Char} (visible : isBlank c = false) : c ∈ trimEnd text ↔ c ∈ text :=
  mem_iff_of_squeeze (squeeze_trimEnd text) visible

/-- There is something to be seen. -/
def Visible (text : Text) : Prop := ∃ c ∈ text, isBlank c = false

theorem visible_trim_iff : Visible (trim text) ↔ Visible text :=
  exists_congr fun _ => and_congr_left mem_trim

/-- Where a text starts visibly, nothing is squeezed out in front. -/
theorem head?_squeeze (visible : ∀ c ∈ text.head?, isBlank c = false) :
    (squeeze text).head? = text.head? := by
  cases text with
  | nil => rfl
  | cons c text => simp [squeeze, visible c rfl]

theorem trimEnd_isPrefix (text : Text) : trimEnd text <+: text := by
  have dropped := List.dropWhile_suffix isBlank (l := text.reverse)
  rw [← List.reverse_prefix, List.reverse_reverse] at dropped
  exact dropped

theorem trim_isInfix (text : Text) : trim text <:+: text :=
  (trimEnd_isPrefix _).isInfix.trans (List.dropWhile_suffix isBlank).isInfix

/-- A trimmed text starts visibly. -/
theorem visible_trim (text : Text) : ∀ c ∈ (trim text).head?, isBlank c = false := by
  intro c first
  obtain ⟨back, whole⟩ := trimEnd_isPrefix (trimStart text)
  rw [trim] at first
  have start : (trimStart text).head? = some c := by
    rw [← whole, List.head?_append, first]
    rfl
  have stops := List.head?_dropWhile_not isBlank text
  rw [← trimStart, start] at stops
  exact stops

/-- Where a text starts visibly, a part in front starts so as well. -/
theorem visible_of_isPrefix {front : Text} (inside : front <+: text)
    (visible : ∀ c ∈ text.head?, isBlank c = false) : ∀ c ∈ front.head?, isBlank c = false := by
  obtain ⟨back, rfl⟩ := inside
  intro c first
  refine visible c ?_
  rw [List.head?_append, first]
  rfl

theorem trimStart_of_visible (visible : ∀ c ∈ text.head?, isBlank c = false) :
    trimStart text = text := by
  cases text with
  | nil => rfl
  | cons c rest =>
      rw [trimStart, List.dropWhile_cons_of_neg]
      rw [visible c rfl]
      exact Bool.false_ne_true

theorem trimEnd_of_visible (visible : ∀ c ∈ text.getLast?, isBlank c = false) :
    trimEnd text = text := by
  have front : trimStart text.reverse = text.reverse :=
    trimStart_of_visible fun c first => visible c (List.head?_reverse ▸ first)
  rw [trimEnd]
  exact (congrArg List.reverse front).trans (List.reverse_reverse text)

/-- Nothing is trimmed off a text that starts and ends visibly. -/
theorem trim_of_visible (first : ∀ c ∈ text.head?, isBlank c = false)
    (last : ∀ c ∈ text.getLast?, isBlank c = false) : trim text = text := by
  rw [trim, trimStart_of_visible first, trimEnd_of_visible last]

theorem trimStart_around {c : Char} (visible : isBlank c = false) (front back : Text) :
    trimStart (front ++ c :: back) = trimStart front ++ c :: back := by
  induction front with
  | nil => exact List.dropWhile_cons_of_neg (by simp [visible])
  | cons d front ih =>
      unfold trimStart at ih ⊢
      cases blank : isBlank d with
      | true =>
          rw [List.cons_append, List.dropWhile_cons_of_pos blank, ih,
            List.dropWhile_cons_of_pos blank]
      | false =>
          rw [List.cons_append, List.dropWhile_cons_of_neg (by simp [blank]),
            List.dropWhile_cons_of_neg (by simp [blank]), List.cons_append]

/-- Blanks are trimmed off on both sides of a visible character. -/
theorem trim_around {c : Char} (visible : isBlank c = false) (front back : Text) :
    trim (front ++ c :: back) = trimStart front ++ c :: trimEnd back := by
  have last (head : Text) : trimEnd (head ++ c :: back) = head ++ c :: trimEnd back := by
    have whole : (head ++ c :: back).reverse = back.reverse ++ c :: head.reverse := by simp
    have front := trimStart_around visible back.reverse head.reverse
    rw [trimEnd, whole]
    change (trimStart _).reverse = _
    rw [front]
    simp [trimEnd, trimStart]
  rw [trim, trimStart_around visible, last]

theorem trimEnd_trimEnd (text : Text) : trimEnd (trimEnd text) = trimEnd text := by
  rw [trimEnd, trimEnd, List.reverse_reverse, List.dropWhile_idempotent]

/-- A part in front of a trimmed text has blanks at its end only. -/
theorem trim_trimEnd {front back : Text} (ends : trim text = front ++ back) :
    trim (trimEnd front) = trimEnd front := by
  have inside : trimEnd front <+: trim text := by
    rw [ends]
    exact (trimEnd_isPrefix front).trans (List.prefix_append front back)
  rw [trim, trimStart_of_visible (visible_of_isPrefix inside (visible_trim text)),
    trimEnd_trimEnd]

end TypeScriptGen.Text
