import TypeScriptGen.Proofs.Document.Keeping
import TypeScriptGen.Proofs.Value.Leaves

/-!
# Names in the texts of objects

An object of plain data is written with each of its texts encoded, and the scan
finds the names in what is written. A name in a text is found there unless a
control character stands right in front of it: that one is written as a backslash
and word characters, which the scan takes for the start of the name.
-/

namespace TypeScriptGen

open Syntax (Spells encodedLiteral isQuote)
open Text (encodeChar)

namespace ObjectEntry

mutual

/-- The keys are identifiers, and the values plain data. -/
def isPlainData : ObjectEntry → Bool
  | .plain key value _ => Text.isIdentifier key && value.isPlainData
  | .nested key entries _ => Text.isIdentifier key && allPlainData entries

def allPlainData : List ObjectEntry → Bool
  | [] => true
  | entry :: entries => isPlainData entry && allPlainData entries

end

mutual

def leaves : ObjectEntry → List Text
  | .plain _ value _ => value.leaves
  | .nested _ entries _ => leavesAll entries

/-- The texts in some entries, in the order in which they are written. -/
def leavesAll : List ObjectEntry → List Text
  | [] => []
  | entry :: entries => leaves entry ++ leavesAll entries

end

theorem leavesAll_eq (entries : List ObjectEntry) : leavesAll entries = entries.flatMap leaves := by
  induction entries with
  | nil => rfl
  | cons entry entries ih => rw [leavesAll, ih, List.flatMap_cons]

mutual

theorem holdsOversize_of_isPlainData :
    ∀ entry, isPlainData entry = true → holdsOversize entry = false
  | .plain key value _ => fun plain => by
      rw [isPlainData, Bool.and_eq_true] at plain
      exact Value.holdsOversize_of_isPlainData value plain.2
  | .nested key entries _ => fun plain => by
      rw [isPlainData, Bool.and_eq_true] at plain
      exact anyOversize_of_allPlainData entries plain.2

theorem anyOversize_of_allPlainData :
    ∀ entries, allPlainData entries = true → anyOversize entries = false
  | [] => fun _ => rfl
  | entry :: entries => fun plain => by
      rw [allPlainData, Bool.and_eq_true] at plain
      rw [anyOversize, holdsOversize_of_isPlainData entry plain.1,
        anyOversize_of_allPlainData entries plain.2]
      rfl

end

/-- What stands in front of the value of an entry holds no quotes. -/
theorem spells_line {key literal : Text} {found : List Syntax.Literal}
    (identifier : Text.isIdentifier key = true) (readonly : Bool) (spelled : Spells literal found) :
    Spells (line key readonly literal) found := by
  refine Spells.behind ?_ spelled
  simp only [List.forall_mem_append]
  refine ⟨⟨?_, Value.isQuote_of_isIdentifier identifier⟩, Syntax.isQuote_of_any rfl⟩
  cases readonly <;> exact Syntax.isQuote_of_any rfl

mutual

/-- An entry of plain data spells the texts in it. -/
theorem spells_text (level : Int) :
    ∀ entry, isPlainData entry = true →
      Spells (text level entry) ((leaves entry).map encodedLiteral)
  | .plain key value readonly => fun plain => by
      rw [isPlainData, Bool.and_eq_true] at plain
      exact spells_line plain.1 readonly (Value.spells_literal level value plain.2)
  | .nested key entries readonly => fun plain => by
      rw [isPlainData, Bool.and_eq_true] at plain
      rw [text, leaves, texts_eq, leavesAll_eq, List.map_flatMap]
      exact spells_line plain.1 readonly
        (Value.spells_braces level (spells_text_entry (level + 1) entries plain.2))

theorem spells_text_entry (level : Int) :
    ∀ entries, allPlainData entries = true → ∀ entry ∈ entries,
      Spells (text level entry) ((leaves entry).map encodedLiteral)
  | [] => fun _ _ member => absurd member List.not_mem_nil
  | first :: entries => fun plain entry member => by
      rw [allPlainData, Bool.and_eq_true] at plain
      rcases List.mem_cons.mp member with same | later
      · rw [same]
        exact spells_text level first plain.1
      · exact spells_text_entry level entries plain.2 entry later

end

end ObjectEntry

namespace ObjectDraft

/-- An object of plain data without a comment, whose name holds no quotes. -/
structure IsPlainData (draft : ObjectDraft) : Prop where
  uncommented : draft.comment = []
  name : ∀ c ∈ draft.name, isQuote c = false
  entries : ObjectEntry.allPlainData draft.entries = true

def leaves (draft : ObjectDraft) : List Text := ObjectEntry.leavesAll draft.entries

variable {draft : ObjectDraft}

theorem spells_declare {literal : Text} {found : List Syntax.Literal}
    (name : ∀ c ∈ draft.name, isQuote c = false) (spelled : Spells literal found) :
    Spells (draft.declare literal) found := by
  unfold declare
  split
  · refine ((Spells.behind ?_ spelled).before ?_).before (Syntax.isQuote_of_any rfl)
    · simp only [List.forall_mem_append]
      refine ⟨⟨⟨?_, Syntax.isQuote_of_any rfl⟩, name⟩, Syntax.isQuote_of_any rfl⟩
      split <;> exact Syntax.isQuote_of_any rfl
    · split <;> exact Syntax.isQuote_of_any rfl
  · split
    · have opening : ∀ c ∈ ['('], isQuote c = false := Syntax.isQuote_of_any rfl
      exact (spelled.behind opening).before (Syntax.isQuote_of_any rfl)
    · exact spelled

/-- An object of plain data is printed, and what is printed spells the texts in it. -/
theorem IsPlainData.print (plain : draft.IsPlainData) :
    ∃ text, draft.print = .ok text ∧ Spells text (draft.leaves.map encodedLiteral) := by
  have small := ObjectEntry.anyOversize_of_allPlainData draft.entries plain.entries
  have written : draft.literal? 1 = .ok (draft.literal 1) := by
    rw [literal?, small]
    rfl
  refine ⟨draft.declare (draft.literal 1), ?_, spells_declare plain.name ?_⟩
  · refine (bind_ok written).trans ?_
    rw [plain.uncommented]
    rfl
  · rw [literal, ObjectEntry.texts_eq, leaves, ObjectEntry.leavesAll_eq, List.map_flatMap]
    exact Value.spells_braces 1 (ObjectEntry.spells_text_entry 2 draft.entries plain.entries)

end ObjectDraft

/-- A name in a text that no ASCII letter or digit, underscore or dollar sign touches, and that
holds no dollar sign. -/
structure Text.IsToken (inner name rest : Text) : Prop where
  identifier : isIdentifier name = true
  plain : '$' ∉ name
  opened : ∀ c ∈ inner.getLast?, isIdentifierPart c = false
  closed : ∀ c ∈ rest.head?, isIdentifierPart c = false

namespace Text.IsToken

variable {inner name rest : Text}

theorem isReferencePart_eq {c : Char} (apart : isIdentifierPart c = false)
    (outside : isWord c = false) : isReferencePart c = false := by
  simp only [isIdentifierPart, Bool.or_eq_false_iff] at apart
  rw [isReferencePart, outside, apart.2]
  rfl

/-- Encoding keeps the name, and the token around it unless a control character or a letter of
another script touches it. -/
theorem stands (token : IsToken inner name rest)
    (opened : ∀ c ∈ inner.getLast?, isWord c = false ∧ 32 ≤ c.toNat)
    (closed : ∀ c ∈ rest.head?, isWord c = false) :
    Stands (inner.flatMap encodeChar) name (rest.flatMap encodeChar) := by
  refine ⟨token.identifier, fun d last => ?_, fun d first => ?_⟩
  · rcases List.eq_nil_or_concat inner with rfl | ⟨front, c, rfl⟩
    · cases last
    · rw [List.concat_eq_append] at last opened
      obtain ⟨outside, visible⟩ := opened c (by simp)
      rw [Option.mem_def, getLast?_encoded,
        (encoding_encodeChar c).getLast?_visible visible] at last
      cases last
      exact isReferencePart_eq (token.opened d (by simp)) outside
  · cases rest with
    | nil => cases first
    | cons c more =>
        rw [Option.mem_def, head?_encoded] at first
        rcases (encoding_encodeChar c).head? with same | same
        · rw [same] at first
          cases first
          exact isReferencePart_eq (token.closed d rfl) (closed d rfl)
        · rw [same] at first
          cases first
          decide

/-- A control character, or a letter, in front ends in a word character. -/
theorem exists_last {c : Char} (last : inner.getLast? = some c)
    (touched : isWord c = true ∨ c.toNat < 32) :
    ∃ d, (inner.flatMap encodeChar).getLast? = some d ∧ isWord d = true := by
  obtain ⟨front, rfl⟩ := List.getLast?_eq_some_iff.mp last
  rw [getLast?_encoded]
  by_cases small : c.toNat < 32
  · exact (encoding_encodeChar c).getLast?_control small
  · have visible := (encoding_encodeChar c).getLast?_visible (by omega)
    exact ⟨c, visible, touched.resolve_right small⟩

end Text.IsToken

namespace Section

open Text (IsToken Starts)

/-- A name in a text of an object is used, and its import kept by every section that holds the
object, unless a control character stands right in front of the name, or a letter of another
script touches it. With one of these in front, the name is used only if it also starts somewhere
else. -/
theorem leaf_name_used {draft : ObjectDraft} (plain : draft.IsPlainData) {inner name rest : Text}
    (leaf : inner ++ (name ++ rest) ∈ draft.leaves) (token : IsToken inner name rest)
    (goes : name ∉ Usage.stopWords) :
    ∃ text tracker before after, draft.print = .ok text ∧
      Usage.Tracker.empty.scan (.code text) = (tracker, .ok ()) ∧
      text = before ++ (name ++ after) ∧ '"' :: inner.flatMap encodeChar <:+ before ∧
      ((∀ c ∈ inner.getLast?, Text.isWord c = false ∧ 32 ≤ c.toNat) →
        (∀ c ∈ rest.head?, Text.isWord c = false) →
          tracker.isUsed name = true ∧
            ∀ current : Section, current.Reached → ∀ kind label,
              ⟨kind, label, .text text⟩ ∈ current.items → current.Keeps name) ∧
      ((∃ c ∈ inner.getLast?, Text.isWord c = true ∨ c.toNat < 32) →
        tracker.isUsed name = true → ∃ front, front ≠ before ∧ Starts text front name) := by
  obtain ⟨text, printed, spelled⟩ := plain.print
  have solid := Text.solid_of_isIdentifier token.identifier
  have content : (encodedLiteral (inner ++ (name ++ rest))).content =
      inner.flatMap encodeChar ++ (name ++ rest.flatMap encodeChar) := by
    change List.flatMap encodeChar (inner ++ (name ++ rest)) = _
    rw [List.flatMap_append, List.flatMap_append, Text.encoded_of_solid solid]
  have among : encodedLiteral (inner ++ (name ++ rest)) ∈ Syntax.literals text := by
    rw [spelled.literals_eq]
    exact List.mem_map_of_mem leaf
  -- The literal of the leaf stands at one place at least, and that place is told about.
  obtain ⟨front, back, same⟩ := List.append_of_mem (Syntax.mem_literalsOf.mp among)
  have place : Syntax.InLiteral text
      (front.flatMap Syntax.Token.text ++ '"' :: inner.flatMap encodeChar) name :=
    ⟨front, _, back, _, _, same, content, rfl⟩
  obtain ⟨after, whole⟩ := place.exists_after
  refine ⟨text, _, _, after, printed, Usage.scan_code .empty rfl text, whole,
    List.suffix_append _ _, fun opened closed => ?_, fun touched used => ?_⟩
  · have found : name ∈ Usage.namesInCode text := by
      refine List.mem_append_left _ (List.mem_append_left _ (List.mem_append_left _ ?_))
      refine List.mem_flatMap.mpr ⟨_, among, ?_⟩
      rw [content]
      exact Usage.mem_namesInLiteral (token.stands opened closed) token.plain goes
    constructor
    · exact List.contains_iff_mem.mpr ((Usage.mem_recordAll_empty _ _).mpr found)
    · intro current reached kind label member
      exact keeps_of_text reached.sound member found
  · have found := (Usage.mem_recordAll_empty _ _).mp (List.contains_iff_mem.mp used)
    obtain ⟨_, start, starts, _⟩ := Usage.found_of_mem_namesInCode found
    refine ⟨start, ?_, starts⟩
    -- At its own place the code of the touching character ends in a word character.
    rintro rfl
    obtain ⟨c, last, touched⟩ := touched
    obtain ⟨d, ends, word⟩ := IsToken.exists_last last touched
    have outside := starts.opened d (by
      rw [Option.mem_def, List.getLast?_append, List.getLast?_cons, ends]
      rfl)
    rw [word] at outside
    cases outside

/-- A greeting whose text holds quotes, in a table within a list. -/
def greeting : ObjectDraft :=
  ⟨"greeting".toList, false, true,
    [.nested "lines".toList [.plain "all".toList (.list [.null,
      .table [(.text "text".toList, .text "say \"hi\" via translate()".toList)]]) true] false], []⟩

/-- Behind escaped quotes a name is seen. -/
theorem leaf_translate_used :
    greeting.IsPlainData ∧
      "say \"hi\" via ".toList ++ ("translate".toList ++ "()".toList) ∈ greeting.leaves ∧
      IsToken "say \"hi\" via ".toList "translate".toList "()".toList ∧
      "translate".toList ∉ Usage.stopWords ∧
      ∃ text tracker, greeting.print = .ok text ∧
        Usage.Tracker.empty.scan (.code text) = (tracker, .ok ()) ∧
        tracker.isUsed "translate".toList = true := by
  have plain : greeting.IsPlainData := ⟨rfl, Syntax.isQuote_of_any rfl, by decide⟩
  have leaf : "say \"hi\" via ".toList ++ ("translate".toList ++ "()".toList) ∈ greeting.leaves :=
    List.mem_cons_self
  have token : IsToken "say \"hi\" via ".toList "translate".toList "()".toList :=
    ⟨by decide, by decide, fun _ last => by cases last; decide, fun _ first => by cases first; decide⟩
  have goes : "translate".toList ∉ Usage.stopWords := by decide +kernel
  refine ⟨plain, leaf, token, goes, ?_⟩
  obtain ⟨text, tracker, _, _, printed, scanned, _, _, used, _⟩ :=
    leaf_name_used plain leaf token goes
  have opened : ∀ c ∈ "say \"hi\" via ".toList.getLast?, Text.isWord c = false ∧ 32 ≤ c.toNat :=
    fun _ last => by cases last; decide
  have closed : ∀ c ∈ "()".toList.head?, Text.isWord c = false :=
    fun _ first => by cases first; decide
  exact ⟨text, tracker, printed, scanned, (used opened closed).1⟩

/-- An object with code that starts in a new line. -/
def hooks : ObjectDraft :=
  ⟨"hooks".toList, false, false, [.plain "code".toList (.text "\nuseState()".toList) false], []⟩

/-- The declaration of this object, in which the line feed is a backslash and a letter. -/
def hooksText : Text := "const hooks = \x7b\n    code: \"\\nuseState()\"\n\x7d;".toList

/-- A section that imports what this code calls. -/
def hooking : Section :=
  after [.imports "react".toList [.named "useState".toList []] false false,
    .object [.property "code".toList (.text "\nuseState()".toList) false] "hooks".toList none false
      .null]
    (start "Hooks".toList .standard)

/-- A name at the start of a line in a text, but whose import is dropped. -/
theorem leaf_useState_dropped :
    hooks.IsPlainData ∧ "\n".toList ++ ("useState".toList ++ "()".toList) ∈ hooks.leaves ∧
      IsToken "\n".toList "useState".toList "()".toList ∧ "useState".toList ∉ Usage.stopWords ∧
      hooks.print = .ok hooksText ∧
      (Usage.Tracker.empty.scan (.code hooksText)).1.isUsed "useState".toList = false ∧
      hooking.Reached ∧ ⟨.object, "hooks".toList, .text hooksText⟩ ∈ hooking.items ∧
      (∃ registry ∈ hooking.registries, ∃ binding ∈ registry.named,
        binding.localName = "useState".toList) ∧
      hooking.print.2 =
        .ok ("/**\n * Hooks\n */\n".toList ++ hooksText ++ "\n// End Hooks".toList) := by
  refine ⟨⟨rfl, Syntax.isQuote_of_any rfl, by decide⟩, List.mem_cons_self,
    ⟨by decide, by decide, fun _ last => by cases last; decide,
      fun _ first => by cases first; decide⟩,
    by decide +kernel, by rfl, by decide +kernel, ⟨_, _, _, rfl⟩, ?_,
    ⟨_, List.mem_cons_self, _, List.mem_cons_self, rfl⟩, by rfl⟩
  exact List.mem_cons_of_mem _ List.mem_cons_self

end Section

end TypeScriptGen
