import TypeScriptGen.Proofs.Document.Keeping
import TypeScriptGen.Proofs.Text.Squeeze
import TypeScriptGen.Proofs.Usage.Soundness

/-!
# Names that are spread

The search for references takes the last of three dots for the dot of a member
access, so it passes over the name behind them. Such a name is still used when it
is a type name, since type names are used wherever they stand, and otherwise only
when it starts at some other place as well.
-/

namespace TypeScriptGen

namespace Syntax

theorem isWord_of_isPadding {pad : Text} (padding : IsPadding pad) :
    ∀ c ∈ pad, Text.isWord c = false :=
  fun c member => Text.isWord_of_isReferencePart (padding c member).1

theorem words_trimEnd (text : Text) : Text.words (Text.trimEnd text) = Text.words text := by
  obtain ⟨blanks, whole, padding⟩ := exists_trimEnd text
  have same := Text.words_append_clear (isWord_of_isPadding padding) (Text.trimEnd text)
  rw [← whole] at same
  exact same.symm

theorem words_trim (text : Text) : Text.words (Text.trim text) = Text.words text := by
  obtain ⟨blanks, whole, padding⟩ := exists_trimStart text
  have same := Text.words_clear_append (isWord_of_isPadding padding) (Text.trimStart text)
  rw [← whole] at same
  rw [Text.trim, words_trimEnd, ← same]

end Syntax

namespace Usage

open Text (IsSpread Starts Stands isTypeName isReferencePart)

variable {text name : Text}

/-- A text with dots is kept verbatim, so all its type names are used. -/
theorem mem_namesIn_parseExpression_of_typed (word : name ∈ Text.words text)
    (typed : isTypeName name = true) (dots : '.' ∈ text) :
    name ∈ namesIn (Syntax.parseExpression text) := by
  have inside : '.' ∈ Text.trim text := (Text.mem_trim (by decide)).mpr dots
  have compound : Text.isIdentifier (Text.trim text) = false := by
    cases identifier : Text.isIdentifier (Text.trim text) with
    | false => rfl
    | true => exact absurd (Text.solid_of_isIdentifier identifier '.' inside) (by decide)
  unfold Syntax.parseExpression
  dsimp only
  rw [compound, Bool.false_and, if_neg Bool.false_ne_true, mem_namesIn_raw]
  refine Or.inl (List.mem_append_left _ (List.mem_append_left _ (List.mem_append_right _ ?_)))
  exact List.mem_filter.mpr ⟨by rwa [Syntax.words_trim], typed⟩

theorem mem_namesIn_parseStatement_of_typed (word : name ∈ Text.words text)
    (typed : isTypeName name = true) (dots : '.' ∈ text) :
    name ∈ namesIn (Syntax.parseStatement text) := by
  rw [← Syntax.words_trim] at word
  have inside : '.' ∈ Text.trim text := (Text.mem_trim (by decide)).mpr dots
  unfold Syntax.parseStatement
  refine mem_namesIn_of_child List.mem_cons_self ?_
  split
  · next ends =>
      obtain ⟨front, whole⟩ := List.getLast?_eq_some_iff.mp ends
      have clear : ∀ c ∈ [';'], Text.isWord c = false := by simp [Text.isWord]
      rw [whole, Text.words_append_clear clear] at word
      rw [whole, List.mem_append] at inside
      rw [whole, List.dropLast_concat]
      have left : '.' ∈ front := inside.resolve_right (by decide)
      exact mem_namesIn_parseExpression_of_typed (by rwa [Syntax.words_trimEnd]) typed
        ((Text.mem_trimEnd (by decide)).mpr left)
  · exact mem_namesIn_parseExpression_of_typed word typed inside

theorem plain_of_isTypeName (typed : isTypeName name = true) : '$' ∉ name := by
  intro member
  have word := Text.isWord_of_isPlainName (Text.isPlainName_of_isTypeName typed) '$' member
  exact absurd word (by decide)

/-- Behind three dots a type name is a word of the text. -/
theorem mem_words_of_spread {before after : Text} (spread : IsSpread before)
    (closed : ∀ c ∈ after.head?, isReferencePart c = false) (typed : isTypeName name = true) :
    name ∈ Text.words (before ++ (name ++ after)) ∧ '.' ∈ before ++ (name ++ after) := by
  have last := Text.getLast?_of_isSpread spread
  have stands : Stands before name after := by
    constructor
    · exact Text.isIdentifier_of_isPlainName (Text.isPlainName_of_isTypeName typed)
    · intro c found
      rw [last] at found
      cases found
      decide
    · exact closed
  exact ⟨stands.mem_words (plain_of_isTypeName typed),
    List.mem_append_left _ (List.mem_of_getLast? last)⟩

end Usage

namespace Section

open Text (IsSpread Starts isTypeName isReferencePart)
open Syntax (InLiteral)

/-- A name behind three dots is used, and its import kept by every section that holds the text,
when it is a type name. A name of another kind is used only if it also starts at a place that is in
a literal or has no three dots in front. -/
theorem spread_name_used {before name after : Text} (spread : IsSpread before)
    (closed : ∀ c ∈ after.head?, isReferencePart c = false) :
    ∀ parse ∈ [Syntax.parseExpression, Syntax.parseStatement],
      ∃ tracker, Usage.Tracker.empty.scan (.node (parse (before ++ (name ++ after)))) =
          (tracker, .ok ()) ∧
        (isTypeName name = true → tracker.isUsed name = true ∧
          ∀ current : Section, current.Reached → ∀ kind label outer,
            ⟨kind, label, .node outer⟩ ∈ current.items →
              (parse (before ++ (name ++ after))).Within outer → current.Keeps name) ∧
        (tracker.isUsed name = true → isTypeName name = true ∨
          ∃ front, Starts (before ++ (name ++ after)) front name ∧
            (InLiteral (before ++ (name ++ after)) front name ∨ ¬IsSpread front)) := by
  intro parse parser
  -- What is needed of the parser: its nodes can be scanned, hold the type names, and make up none.
  have ⟨complete, found, place⟩ :
      Usage.hasPlaceholder (parse (before ++ (name ++ after))) = false ∧
        (isTypeName name = true → name ∈ Usage.namesIn (parse (before ++ (name ++ after)))) ∧
        (name ∈ Usage.namesIn (parse (before ++ (name ++ after))) →
          Usage.Found (before ++ (name ++ after)) name) := by
    simp only [List.mem_cons, List.not_mem_nil, or_false] at parser
    rcases parser with rfl | rfl
    · refine ⟨(Syntax.movable_parseExpression _).complete, fun typed => ?_,
        Usage.found_of_mem_namesIn_parseExpression⟩
      obtain ⟨word, dots⟩ := Usage.mem_words_of_spread spread closed typed
      exact Usage.mem_namesIn_parseExpression_of_typed word typed dots
    · refine ⟨(Syntax.movable_parseStatement _).complete, fun typed => ?_,
        Usage.found_of_mem_namesIn_parseStatement⟩
      obtain ⟨word, dots⟩ := Usage.mem_words_of_spread spread closed typed
      exact Usage.mem_namesIn_parseStatement_of_typed word typed dots
  refine ⟨_, Usage.scan_node .empty rfl complete, fun typed => ⟨?_, ?_⟩, fun used => ?_⟩
  · exact List.contains_iff_mem.mpr ((Usage.mem_recordAll_empty _ _).mpr (found typed))
  · intro current reached kind label outer member within
    exact keeps_of_node reached.sound member within (found typed)
  · have member := (Usage.mem_recordAll_empty _ _).mp (List.contains_iff_mem.mp used)
    obtain ⟨_, front, starts, typed | elsewhere⟩ := place member
    · exact Or.inl typed
    · exact Or.inr ⟨front, starts, elsewhere⟩

/-- A type name that is spread into a call. -/
theorem spread_defaults_used :
    IsSpread "merge(options, ...".toList ∧ (∀ c ∈ ");".toList.head?, isReferencePart c = false) ∧
      ∃ tracker, Usage.Tracker.empty.scan
          (.node (Syntax.parseStatement "merge(options, ...Defaults);".toList)) =
            (tracker, .ok ()) ∧
        tracker.isUsed "Defaults".toList = true := by
  have spread : IsSpread "merge(options, ...".toList := by
    unfold IsSpread
    decide
  have closed : ∀ c ∈ ");".toList.head?, isReferencePart c = false :=
    fun _ first => by cases first; decide
  refine ⟨spread, closed, ?_⟩
  obtain ⟨tracker, scanned, used, _⟩ :=
    @spread_name_used _ "Defaults".toList _ spread closed Syntax.parseStatement (by simp)
  exact ⟨tracker, scanned, (used (by decide)).1⟩

/-- A section that imports arguments and spreads them into a call. -/
def spreading : Section := guarded "./args".toList "args".toList "run(...args)".toList

/-- Arguments that are spread into a call, in code without literals, but whose import is dropped. -/
theorem spread_args_dropped :
    IsSpread "run(...".toList ∧ Text.isIdentifier "args".toList = true ∧
      Syntax.isReserved "args".toList = false ∧ Syntax.literals "run(...args)".toList = [] ∧
      (∀ parse ∈ [Syntax.parseExpression, Syntax.parseStatement],
        (Usage.Tracker.empty.scan (.node (parse ("run(...".toList ++ ("args".toList ++
          ")".toList))))).1.isUsed "args".toList = false) ∧
      spreading.Reached ∧
      (∃ kind label outer, ⟨kind, label, .node outer⟩ ∈ spreading.items ∧
        (Syntax.parseStatement "run(...args)".toList).Within outer) ∧
      (∃ registry ∈ spreading.registries, ∃ binding ∈ registry.named,
        binding.localName = "args".toList) ∧
      spreading.print.2 = .ok
        "/**\n * Calls\n */\nif (ready) \x7b\n    run(...args);\n\x7d\n// End Calls".toList := by
  refine ⟨?_, by decide, by decide, by decide, by decide, reached_guarded _ _ _, ?_,
    ⟨_, List.mem_cons_self, _, List.mem_cons_self, rfl⟩, by rfl⟩
  · unfold IsSpread
    decide
  · exact ⟨_, _, _, guardedNode_mem _ _ _, within_guardedNode _⟩

end Section

end TypeScriptGen
