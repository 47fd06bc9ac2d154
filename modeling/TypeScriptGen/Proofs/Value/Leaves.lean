import TypeScriptGen.Proofs.Syntax.Spelling
import TypeScriptGen.Value.Literal

/-!
# The texts in a literal

Plain data is built from nothing, truth values, whole numbers that can be
written, texts, lists, tuples and tables with identifiers for keys. Its literal
spells the encoded texts in it, in their order, and no other literal: brackets,
keys, numbers and margins hold no quotes.
-/

namespace TypeScriptGen.Value

open Syntax (Spells encodedLiteral isQuote)

/-- A key that is an identifier. -/
def isIdentifierKey : Value → Bool
  | .text key => Text.isIdentifier key
  | _ => false

mutual

def isPlainData : Value → Bool
  | .null => true
  | .bool _ => true
  | .int number => !Decimal.isOversize number
  | .text _ => true
  | .list items => allPlainData items
  | .tuple items => allPlainData items
  | .table entries => entriesPlainData entries
  | _ => false

def allPlainData : List Value → Bool
  | [] => true
  | item :: items => isPlainData item && allPlainData items

def entriesPlainData : List (Value × Value) → Bool
  | [] => true
  | (key, value) :: entries => isIdentifierKey key && isPlainData value && entriesPlainData entries

end

mutual

/-- The texts in a value, in the order in which its literal shows them. -/
def leaves : Value → List Text
  | .text content => [content]
  | .list items => leavesAll items
  | .tuple items => leavesAll items
  | .table entries => leavesEntries entries
  | _ => []

def leavesAll : List Value → List Text
  | [] => []
  | item :: items => leaves item ++ leavesAll items

def leavesEntries : List (Value × Value) → List Text
  | [] => []
  | (_, value) :: entries => leaves value ++ leavesEntries entries

end

/-! ## Plain data is written -/

mutual

theorem holdsOversize_of_isPlainData :
    ∀ value, isPlainData value = true → holdsOversize value = false
  | .null => fun _ => rfl
  | .bool _ => fun _ => rfl
  | .int number => fun plain => by
      rw [isPlainData, Bool.not_eq_true'] at plain
      exact plain
  | .float _ => nofun
  | .text _ => fun _ => rfl
  | .ragged _ => nofun
  | .list items => anyOversize_of_allPlainData items
  | .tuple items => anyOversize_of_allPlainData items
  | .table entries => entryOversize_of_entriesPlainData entries
  | .moment _ => nofun
  | .node _ => nofun

theorem anyOversize_of_allPlainData :
    ∀ items, allPlainData items = true → anyOversize items = false
  | [] => fun _ => rfl
  | item :: items => fun plain => by
      rw [allPlainData, Bool.and_eq_true] at plain
      rw [anyOversize, holdsOversize_of_isPlainData item plain.1,
        anyOversize_of_allPlainData items plain.2]
      rfl

theorem entryOversize_of_entriesPlainData :
    ∀ entries, entriesPlainData entries = true → entryOversize entries = false
  | [] => fun _ => rfl
  | (key, value) :: entries => fun plain => by
      simp only [entriesPlainData, Bool.and_eq_true] at plain
      have held : holdsOversize key = false := by
        cases key with
        | text _ => rfl
        | _ => cases plain.1.1
      rw [entryOversize, held, holdsOversize_of_isPlainData value plain.1.2,
        entryOversize_of_entriesPlainData entries plain.2]
      rfl

end

/-! ## Parts of a literal -/

theorem literalAll_eq (level : Int) (items : List Value) :
    literalAll level items = items.map (literal level) := by
  induction items with
  | nil => rfl
  | cons item items ih => rw [literalAll, ih, List.map_cons]

/-- An entry of a table as its literal shows it. -/
def entryText (level : Int) (entry : Value × Value) : Text :=
  display entry.1 ++ ": ".toList ++ literal level entry.2

theorem literalEntries_eq (level : Int) (entries : List (Value × Value)) :
    literalEntries level entries = entries.map (entryText level) := by
  induction entries with
  | nil => rfl
  | cons entry entries ih =>
      obtain ⟨key, value⟩ := entry
      rw [literalEntries, ih, List.map_cons]
      rfl

theorem leavesAll_eq (items : List Value) : leavesAll items = items.flatMap leaves := by
  induction items with
  | nil => rfl
  | cons item items ih => rw [leavesAll, ih, List.flatMap_cons]

theorem leavesEntries_eq (entries : List (Value × Value)) :
    leavesEntries entries = entries.flatMap fun entry => leaves entry.2 := by
  induction entries with
  | nil => rfl
  | cons entry entries ih =>
      obtain ⟨key, value⟩ := entry
      rw [leavesEntries, ih, List.flatMap_cons]

theorem isQuote_levelMargin (level : Int) : ∀ c ∈ levelMargin level, isQuote c = false := by
  intro c member
  rw [List.eq_of_mem_replicate member]
  rfl

theorem isQuote_wholeText (number : Int) : ∀ c ∈ Decimal.wholeText number, isQuote c = false := by
  have digits (number : Nat) : ∀ c ∈ Decimal.digits number, isQuote c = false := by
    intro c member
    have digit := Nat.isDigit_of_mem_toDigits (by omega) (by omega) member
    exact Syntax.isQuote_of_isReferencePart (Text.isReferencePart_of_isDigit digit)
  intro c member
  cases number with
  | ofNat number => exact digits number c member
  | negSucc number =>
      rcases List.mem_cons.mp member with rfl | later
      · rfl
      · exact digits (number + 1) c later

theorem isQuote_of_isIdentifier {key : Text} (identifier : Text.isIdentifier key = true) :
    ∀ c ∈ key, isQuote c = false :=
  fun c member => Syntax.isQuote_of_isReferencePart (Text.solid_of_isIdentifier identifier c member)

/-- Braces add no literal to those of the entries. -/
theorem spells_braces {α : Type} (level : Int) {items : List α} {write : α → Text}
    {held : α → List Syntax.Literal} (spelled : ∀ item ∈ items, Spells (write item) (held item)) :
    Spells (braces level (items.map write)) (items.flatMap held) := by
  cases items with
  | nil =>
      exact Syntax.spells_of_plain (Syntax.isQuote_of_any rfl)
  | cons item items =>
      have lines := Syntax.spells_intercalate [',', '\n'] (Syntax.isQuote_of_any rfl) fun other member =>
        (spelled other member).behind (isQuote_levelMargin level)
      have below : ∀ c ∈ '\n' :: levelMargin (level - 1), isQuote c = false := by
        intro c member
        rcases List.mem_cons.mp member with rfl | later
        · rfl
        · exact isQuote_levelMargin (level - 1) c later
      unfold braces
      rw [List.map_cons, List.isEmpty_cons, if_neg Bool.false_ne_true, ← List.map_cons (f := write),
        List.map_map]
      exact ((lines.behind (Syntax.isQuote_of_any rfl)).before below).before
        (Syntax.isQuote_of_any rfl)

/-! ## Literals of plain data -/

theorem spells_bracket {items : List Value} (level : Int)
    (spelled : ∀ item ∈ items,
      Spells (literal level item) ((leaves item).map encodedLiteral)) :
    Spells (bracket '[' ']' (literalAll level items)) ((leavesAll items).map encodedLiteral) := by
  have parts := Syntax.spells_intercalate ", ".toList (Syntax.isQuote_of_any rfl) spelled
  rw [literalAll_eq, leavesAll_eq, List.map_flatMap]
  have opening : ∀ c ∈ ['['], isQuote c = false := Syntax.isQuote_of_any rfl
  exact (parts.behind opening).before (Syntax.isQuote_of_any rfl)

mutual

/-- The literal of plain data spells the texts in it. -/
theorem spells_literal (level : Int) :
    ∀ value, isPlainData value = true →
      Spells (literal level value) ((leaves value).map encodedLiteral)
  | .null => fun _ => Syntax.spells_of_plain (Syntax.isQuote_of_any rfl)
  | .bool true => fun _ => Syntax.spells_of_plain (Syntax.isQuote_of_any rfl)
  | .bool false => fun _ => Syntax.spells_of_plain (Syntax.isQuote_of_any rfl)
  | .int number => fun _ => Syntax.spells_of_plain (isQuote_wholeText number)
  | .float _ => nofun
  | .text content => fun _ => Syntax.spells_encode content
  | .ragged _ => nofun
  | .list items => fun plain => spells_bracket level (spells_literal_item level items plain)
  | .tuple items => fun plain => spells_bracket level (spells_literal_item level items plain)
  | .table entries => fun plain => by
      rw [literal, leaves, literalEntries_eq, leavesEntries_eq, List.map_flatMap]
      exact spells_braces level (spells_entryText (level + 1) entries plain)
  | .moment _ => nofun
  | .node _ => nofun

theorem spells_literal_item (level : Int) :
    ∀ items, allPlainData items = true → ∀ item ∈ items,
      Spells (literal level item) ((leaves item).map encodedLiteral)
  | [] => fun _ _ member => absurd member List.not_mem_nil
  | first :: items => fun plain item member => by
      rw [allPlainData, Bool.and_eq_true] at plain
      rcases List.mem_cons.mp member with same | later
      · rw [same]
        exact spells_literal level first plain.1
      · exact spells_literal_item level items plain.2 item later

theorem spells_entryText (level : Int) :
    ∀ entries, entriesPlainData entries = true → ∀ entry ∈ entries,
      Spells (entryText level entry) ((leaves entry.2).map encodedLiteral)
  | [] => fun _ _ member => absurd member List.not_mem_nil
  | (key, value) :: entries => fun plain entry member => by
      simp only [entriesPlainData, Bool.and_eq_true] at plain
      rcases List.mem_cons.mp member with same | later
      · rw [same, entryText]
        cases key with
        | text name =>
            refine Spells.behind ?_ (spells_literal level value plain.1.2)
            exact List.forall_mem_append.mpr
              ⟨isQuote_of_isIdentifier plain.1.1, Syntax.isQuote_of_any rfl⟩
        | _ => cases plain.1.1
      · exact spells_entryText level entries plain.2 entry later

end

end TypeScriptGen.Value
