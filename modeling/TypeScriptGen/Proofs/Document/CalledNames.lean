import TypeScriptGen.Proofs.Document.Keeping
import TypeScriptGen.Proofs.Text.Squeeze
import TypeScriptGen.Proofs.Usage.Soundness

/-!
# Imports of names that are called

A statement that calls a name keeps the import of the name, whatever the
arguments are. Names that a module can bind are lost for one of two reasons: they
start with a letter that no reference starts with, or they are among six words
that are keywords in some places only and that the scan takes for keywords
everywhere.
-/

namespace TypeScriptGen

namespace Syntax

/-- The words that no module can bind. -/
def refusedWords : List Text :=
  ["break", "case", "catch", "class", "const", "continue", "debugger", "default", "delete", "do",
    "else", "enum", "export", "extends", "false", "finally", "for", "function", "if", "import",
    "in", "instanceof", "new", "null", "return", "super", "switch", "this", "throw", "true", "try",
    "typeof", "var", "void", "while", "with", "yield", "let", "static", "implements", "interface",
    "package", "private", "protected", "public", "await", "eval", "arguments"].map String.toList

/-- The words that a module can bind, although they are reserved for the scan. -/
def contextualWords : List Text :=
  ["as", "async", "of", "keyof", "readonly", "undefined"].map String.toList

theorem isReserved_cases {word : Text} (reserved : isReserved word = true) :
    word ∈ refusedWords ∨ word ∈ contextualWords := by
  have all : ∀ word ∈ reservedWords, word ∈ refusedWords ∨ word ∈ contextualWords := by
    decide +kernel
  exact all word (List.contains_iff_mem.mp reserved)

/-- A call of a name. -/
def callText (name arguments : Text) : Text := name ++ '(' :: (arguments ++ [')'])

section Call

variable {name : Text}

/-- A name is a component of a code that calls it at its start. -/
theorem hasComponent_call (readable : Text.isReadable name = true) (rest : Text) :
    HasComponent (name ++ '(' :: rest) name :=
  ⟨readable, [], '(' :: rest, rfl, .start rfl, by rintro _ ⟨⟩; decide⟩

theorem trim_callText (readable : Text.isReadable name = true) (arguments : Text) :
    Text.trim (callText name arguments) = callText name arguments := by
  obtain ⟨c, more, rfl⟩ := List.exists_cons_of_ne_nil (Text.ne_nil_of_isReadable readable)
  have part := Text.solid_of_isReadable readable c List.mem_cons_self
  refine Text.trim_of_visible (fun d first => ?_) fun d last => ?_
  · obtain rfl : c = d := Option.some.inj first
    exact Text.isBlank_of_isReferencePart part
  · have close : callText (c :: more) arguments = c :: more ++ '(' :: arguments ++ [')'] := by
      simp [callText]
    rw [close, List.getLast?_concat] at last
    obtain rfl : ')' = d := Option.some.inj last
    rfl

/-- A call is kept verbatim, with its references. -/
theorem parseStatement_callText (readable : Text.isReadable name = true) (arguments : Text) :
    parseStatement (callText name arguments) = .expressionStatement
      (.raw (callText name arguments) (referencesIn false (callText name arguments))) := by
  have last : ¬(callText name arguments).getLast? = some ';' := by
    simp [callText, List.getLast?_cons]
  have compound : ¬Text.isIdentifier (callText name arguments) = true := by
    intro identifier
    have part := Text.solid_of_isIdentifier identifier '(' (by simp [callText])
    exact absurd part (by decide)
  have trimmed := trim_callText readable arguments
  unfold parseStatement
  dsimp only
  rw [trimmed, if_neg last]
  unfold parseExpression
  dsimp only
  rw [trimmed, if_neg (by simp [compound])]

end Call

end Syntax

open Syntax (callText refusedWords contextualWords)

variable {name : Text}

theorem Usage.mem_namesIn_callText (readable : Text.isReadable name = true)
    (free : Syntax.isReserved name = false) (arguments : Text) :
    name ∈ namesIn (Syntax.parseStatement (callText name arguments)) := by
  rw [Syntax.parseStatement_callText readable]
  refine mem_namesIn_of_child List.mem_cons_self (mem_namesIn_raw.mpr (Or.inr (Or.inl ?_)))
  obtain ⟨first, more, split⟩ := List.exists_cons_of_ne_nil
    (Syntax.codeOf_ne_nil (Syntax.tokens (arguments ++ [')'])))
  have plain (c : Char) (member : c ∈ name ++ ['(']) : Syntax.isQuote c = false := by
    rcases List.mem_append.mp member with inside | last
    · exact Syntax.isQuote_of_isReferencePart (Text.solid_of_isReadable readable c inside)
    · rw [List.mem_singleton.mp last]
      rfl
  have segments : Syntax.codeSegments (callText name arguments) =
      (name ++ '(' :: first) :: more := by
    have whole : callText name arguments = (name ++ ['(']) ++ (arguments ++ [')']) := by
      simp [callText]
    rw [Syntax.codeSegments, whole, Syntax.tokens_of_plain plain,
      Syntax.codeOf_code_append _ first _ more split, List.append_assoc]
    rfl
  obtain ⟨reference, found, part⟩ :=
    Syntax.mem_parts_iff.mpr (Syntax.hasComponent_call readable first)
  exact ⟨name ++ '(' :: first, by rw [segments]; exact List.mem_cons_self, reference,
    Syntax.mem_referencesInCode found part free, part⟩

namespace Section

/-- A section that imports a name and calls it under a condition. -/
def calling (name arguments : Text) : Section :=
  guarded "rxjs".toList name (callText name arguments)

/-- Without the name among the used ones, such a section does not keep its import. -/
theorem not_keeps_calling {arguments : Text} (unused : name ∉ (calling name arguments).usedNames) :
    ¬(calling name arguments).Keeps name := by
  intro keeps
  have only : (calling name arguments).registries =
      [(Registry.start "rxjs".toList false false).addNamed name []] := rfl
  have block : (calling name arguments).importBlock = [] := by
    refine importBlock_eq_nil only ?_ rfl rfl
    change List.filter (fun binding => false || binding.marked || List.contains _ _)
      [Binding.declare .named name name] = []
    simp [Binding.declare, unused]
  obtain ⟨lead, clauses, _, states⟩ := keeps.named _ (by rw [only]; exact List.mem_cons_self)
    (Binding.declare .named name name) List.mem_cons_self rfl
  rw [block] at states
  have empty := List.eq_nil_of_infix_nil states
  cases empty

theorem isReadable_of_mem_guardedNode {statement found : Text}
    (member : found ∈ Usage.namesIn (guardedNode statement)) : Text.isReadable found = true := by
  rcases Usage.mem_namesIn.mp member with own | ⟨child, among, inner⟩
  · cases own
  · simp only [guardedNode, Node.children, Option.toList_none, List.mem_cons, List.not_mem_nil,
      or_false] at among
    rcases among with rfl | rfl
    · exact (Usage.found_of_mem_namesIn_parseExpression inner).1
    · rcases Usage.mem_namesIn.mp inner with own | ⟨child, among, inner⟩
      · cases own
      · rw [List.mem_singleton.mp among] at inner
        exact (Usage.found_of_mem_namesIn_parseStatement inner).1

theorem isReadable_of_used {arguments found : Text}
    (used : found ∈ (calling name arguments).usedNames) : Text.isReadable found = true := by
  have content : (calling name arguments).contentInOrder =
      [⟨.conditional, "if".toList, .node (guardedNode (callText name arguments))⟩] := rfl
  rw [usedNames, content, List.flatMap_singleton] at used
  have shown : (guardedNode (callText name arguments)).Shown :=
    (reached_guarded _ _ _).sound _ (guardedNode_mem "rxjs".toList name (callText name arguments))
  rcases List.mem_append.mp ((Item.mem_usedNames_node _ _ shown).mp used) with own | written
  · exact isReadable_of_mem_guardedNode own
  · exact (Usage.found_of_mem_namesInCode written).1

theorem unused_contextual :
    ∀ word ∈ contextualWords, word ∉ (calling word "1".toList).usedNames := by
  decide +kernel

/-- Among the names that a module can bind, the readable ones other than the contextual words are
those whose import is kept by every section with a statement that calls the name. -/
theorem keeps_called_iff {name : Text} (allowed : name ∉ refusedWords) :
    (∀ (current : Section) (arguments : Text), current.Reached →
        ∀ kind label outer, ⟨kind, label, .node outer⟩ ∈ current.items →
          (Syntax.parseStatement (callText name arguments)).Within outer → current.Keeps name) ↔
      Text.isReadable name = true ∧ name ∉ contextualWords := by
  constructor
  · intro kept
    have keeps (arguments : Text) : (calling name arguments).Keeps name :=
      kept _ arguments (reached_guarded _ _ _) _ _ _ (guardedNode_mem _ _ _) (within_guardedNode _)
    constructor
    · cases readable : Text.isReadable name with
      | true => rfl
      | false =>
          refine absurd (keeps []) (not_keeps_calling fun used => ?_)
          rw [isReadable_of_used used] at readable
          cases readable
    · intro contextual
      exact not_keeps_calling (unused_contextual name contextual) (keeps "1".toList)
  · rintro ⟨readable, free⟩ current arguments reached kind label outer member within
    have unreserved : Syntax.isReserved name = false := by
      cases reserved : Syntax.isReserved name with
      | false => rfl
      | true => exact ((Syntax.isReserved_cases reserved).elim allowed free).elim
    exact keeps_of_node reached.sound member within
      (Usage.mem_namesIn_callText readable unreserved arguments)

/-- A word of import statements that names an operator, with a quote among the arguments. -/
theorem keeps_called_from :
    "from".toList ∉ refusedWords ∧
      (calling "from".toList "of('it".toList).Keeps "from".toList ∧
      (calling "from".toList "of('it".toList).print.2 =
        .ok ("/**\n * Calls\n */\nimport \x7b from \x7d from \"rxjs\";\n\n" ++
          "if (ready) \x7b\n    from(of('it);\n\x7d\n// End Calls").toList := by
  have allowed : "from".toList ∉ refusedWords := by decide +kernel
  refine ⟨allowed, ?_, by rfl⟩
  exact (keeps_called_iff allowed).mpr ⟨by decide, by decide +kernel⟩ _ _ (reached_guarded _ _ _)
    _ _ _ (guardedNode_mem _ _ _) (within_guardedNode _)

/-- An imported operator that is called, but whose import is dropped. -/
theorem called_of_dropped :
    "of".toList ∉ refusedWords ∧ Text.isIdentifier "of".toList = true ∧
      (calling "of".toList "1".toList).Reached ∧
      (∃ kind label outer, ⟨kind, label, .node outer⟩ ∈ (calling "of".toList "1".toList).items ∧
        (Syntax.parseStatement (callText "of".toList "1".toList)).Within outer) ∧
      (∃ registry ∈ (calling "of".toList "1".toList).registries, ∃ binding ∈ registry.named,
        binding.source = "of".toList ∧ binding.localName = "of".toList) ∧
      (calling "of".toList "1".toList).print.2 = .ok
        "/**\n * Calls\n */\nif (ready) \x7b\n    of(1);\n\x7d\n// End Calls".toList := by
  refine ⟨by decide +kernel, by decide, reached_guarded _ _ _, ?_,
    ⟨_, List.mem_cons_self, _, List.mem_cons_self, rfl, rfl⟩, by rfl⟩
  exact ⟨_, _, _, guardedNode_mem _ _ _, within_guardedNode _⟩

end Section

end TypeScriptGen
