import TypeScriptGen.Proofs.Import.Statement

/-!
# Import statements tell what they import

Two registries that print the same text import the same. The text is taken apart
from the front: the mark of a type-only import, the clause with its names, the
module, and the next statement.
-/

namespace TypeScriptGen

namespace ImportClause

open Text (Closes closes_cons identifier_append_inj isIdentifier ne_of_isIdentifier)

theorem closes_blank (rest : Text) : Closes (' ' :: rest) := closes_cons (by decide) rest

theorem closes_comma (rest : Text) : Closes (',' :: rest) := closes_cons (by decide) rest

/-! ## Named bindings -/

/-- What stands behind a named binding: a comma, or the closing brace behind a blank. -/
def EndsPair (text : Text) : Prop :=
  (∃ rest, text = ',' :: rest) ∨ ∃ rest, text = ' ' :: '\x7d' :: rest

theorem EndsPair.closes {text : Text} (ends : EndsPair text) : Closes text := by
  rcases ends with ⟨rest, rfl⟩ | ⟨rest, rfl⟩
  · exact closes_comma rest
  · exact closes_blank _

/-- The source and local names are identifiers. -/
def SpelledPair (pair : Text × Text) : Prop :=
  isIdentifier pair.1 = true ∧ isIdentifier pair.2 = true

theorem closes_aliasText {after : Text} (ends : EndsPair after) (pair : Text × Text) :
    Closes (aliasText pair ++ after) := by
  unfold aliasText
  split
  · exact ends.closes
  · exact closes_blank _

/-- A comma or a brace is no alias. -/
theorem EndsPair.ne_alias {text : Text} (ends : EndsPair text) (rest : Text) :
    text ≠ " as ".toList ++ rest := by
  intro same
  rcases ends with ⟨more, rfl⟩ | ⟨more, rfl⟩
  · cases same
  · cases same

theorem pairText_append_inj {first second : Text × Text} {after behind : Text}
    (one : SpelledPair first) (other : SpelledPair second) (ends : EndsPair after)
    (closes : EndsPair behind) (same : pairText first ++ after = pairText second ++ behind) :
    first = second ∧ after = behind := by
  unfold pairText at same
  rw [List.append_assoc, List.append_assoc] at same
  obtain ⟨sources, rest⟩ := identifier_append_inj one.1 (closes_aliasText ends first) other.1
    (closes_aliasText closes second) same
  obtain ⟨source, localName⟩ := first
  obtain ⟨origin, name⟩ := second
  have sources : source = origin := sources
  subst sources
  unfold aliasText at rest
  dsimp only at rest
  split at rest
  · next plain =>
      split at rest
      · next bare => exact ⟨by rw [← plain, ← bare], rest⟩
      · rw [List.append_assoc] at rest
        exact absurd rest (ends.ne_alias _)
  · split at rest
    · rw [List.append_assoc] at rest
      exact absurd rest.symm (closes.ne_alias _)
    · rw [List.append_assoc, List.append_assoc] at rest
      obtain ⟨names, behind⟩ := identifier_append_inj one.2 ends.closes other.2 closes.closes
        (List.append_cancel_left rest)
      have names : localName = name := names
      exact ⟨by rw [names], behind⟩

/-- The pairs behind the first, up to the closing brace and what follows it. -/
def moreText (pairs : List (Text × Text)) (after : Text) : Text :=
  pairs.flatMap (fun pair => ", ".toList ++ pairText pair) ++ ' ' :: '\x7d' :: after

theorem moreText_cons (pair : Text × Text) (pairs : List (Text × Text)) (after : Text) :
    moreText (pair :: pairs) after = ", ".toList ++ (pairText pair ++ moreText pairs after) := by
  simp [moreText]

theorem endsPair_moreText (pairs : List (Text × Text)) (after : Text) :
    EndsPair (moreText pairs after) := by
  cases pairs with
  | nil => exact .inr ⟨after, rfl⟩
  | cons pair pairs =>
      rw [moreText_cons]
      exact .inl ⟨_, rfl⟩

theorem moreText_inj {first second : List (Text × Text)} {after behind : Text}
    (one : ∀ pair ∈ first, SpelledPair pair) (other : ∀ pair ∈ second, SpelledPair pair)
    (same : moreText first after = moreText second behind) :
    first = second ∧ after = behind := by
  induction first generalizing second with
  | nil =>
      cases second with
      | nil =>
          cases same
          exact ⟨rfl, rfl⟩
      | cons pair second =>
          rw [moreText_cons] at same
          cases same
  | cons pair first ih =>
      cases second with
      | nil =>
          rw [moreText_cons] at same
          cases same
      | cons next second =>
          rw [moreText_cons, moreText_cons] at same
          obtain ⟨head, tail⟩ := pairText_append_inj (one pair List.mem_cons_self)
            (other next List.mem_cons_self) (endsPair_moreText _ _) (endsPair_moreText _ _)
            (List.append_cancel_left same)
          obtain ⟨rest, behind⟩ := ih (fun pair member => one pair (List.mem_cons_of_mem _ member))
            (fun pair member => other pair (List.mem_cons_of_mem _ member)) tail
          exact ⟨by rw [head, rest], behind⟩

theorem intercalate_cons (separator first : Text) (texts : List Text) :
    separator.intercalate (first :: texts) =
      first ++ texts.flatMap fun text => separator ++ text := by
  induction texts generalizing first with
  | nil => simp
  | cons second texts ih =>
      rw [List.intercalate_cons_cons, ih, List.flatMap_cons]
      simp

/-- The text of a clause with named bindings alone, and what follows it. -/
theorem named_text (pair : Text × Text) (pairs : List (Text × Text)) (after : Text) :
    text (.members none (pair :: pairs)) ++ after =
      '\x7b' :: ' ' :: (pairText pair ++ moreText pairs after) := by
  change ", ".toList.intercalate [_] ++ after = _
  rw [List.intercalate_singleton, List.map_cons, intercalate_cons]
  simp [moreText, List.flatMap_map]

/-- What stands behind a default binding: the braces with the named bindings, if there are any. -/
def restText (named : List (Text × Text)) (after : Text) : Text :=
  match named with
  | [] => after
  | pair :: pairs => ", ".toList ++ (text (.members none (pair :: pairs)) ++ after)

theorem default_text (name : Text) (named : List (Text × Text)) (after : Text) :
    text (.members (some name) named) ++ after = name ++ restText named after := by
  cases named with
  | nil =>
      change ", ".toList.intercalate [name] ++ after = name ++ after
      rw [List.intercalate_singleton]
  | cons pair pairs =>
      change ", ".toList.intercalate [name, _] ++ after =
        name ++ (_ ++ (", ".toList.intercalate [_] ++ _))
      rw [List.intercalate_cons_cons, List.intercalate_singleton]
      simp only [List.append_assoc]

theorem closes_restText (named : List (Text × Text)) (after : Text) :
    Closes (restText named (' ' :: after)) := by
  cases named with
  | nil => exact closes_blank after
  | cons pair pairs => exact closes_comma _

/-! ## Clauses -/

section Clauses

variable {after behind : Text}

/-- A clause starts with an asterisk, a brace or the name of a default binding. -/
theorem Proper.cases {clause : ImportClause} (proper : clause.Proper) :
    (∃ localName, clause = .star localName ∧ isIdentifier localName = true) ∨
    (∃ pair pairs, clause = .members none (pair :: pairs) ∧
      ∀ other ∈ pair :: pairs, SpelledPair other) ∨
    ∃ name named, clause = .members (some name) named ∧ isIdentifier name = true ∧
      ∀ other ∈ named, SpelledPair other := by
  cases clause with
  | star localName => exact .inl ⟨localName, rfl, proper⟩
  | members default named =>
      obtain ⟨some, spelled, pairs⟩ := proper
      cases default with
      | some name => exact .inr (.inr ⟨name, named, rfl, spelled name rfl, pairs⟩)
      | none =>
          cases named with
          | nil => simp at some
          | cons pair rest => exact .inr (.inl ⟨pair, rest, rfl, pairs⟩)

theorem named_append_inj {pair next : Text × Text} {pairs others : List (Text × Text)}
    (one : ∀ other ∈ pair :: pairs, SpelledPair other)
    (other : ∀ pair ∈ next :: others, SpelledPair pair)
    (same : text (.members none (pair :: pairs)) ++ after =
      text (.members none (next :: others)) ++ behind) :
    pair :: pairs = next :: others ∧ after = behind := by
  rw [named_text, named_text] at same
  obtain ⟨head, tail⟩ := pairText_append_inj (one pair List.mem_cons_self)
    (other next List.mem_cons_self) (endsPair_moreText _ _) (endsPair_moreText _ _)
    (List.cons.inj (List.cons.inj same).2).2
  obtain ⟨rest, follows⟩ := moreText_inj
    (fun found member => one found (List.mem_cons_of_mem _ member))
    (fun found member => other found (List.mem_cons_of_mem _ member)) tail
  exact ⟨by rw [head, rest], follows⟩

theorem restText_inj {named others : List (Text × Text)} (one : ∀ pair ∈ named, SpelledPair pair)
    (other : ∀ pair ∈ others, SpelledPair pair)
    (same : restText named (' ' :: after) = restText others (' ' :: behind)) :
    named = others ∧ after = behind := by
  cases named with
  | nil =>
      cases others with
      | nil =>
          cases same
          exact ⟨rfl, rfl⟩
      | cons next others => cases same
  | cons pair pairs =>
      cases others with
      | nil => cases same
      | cons next others =>
          obtain ⟨pairs, follows⟩ := named_append_inj one other (List.append_cancel_left same)
          exact ⟨pairs, (List.cons.inj follows).2⟩

theorem star_ne_named (localName : Text) (pair : Text × Text) (pairs : List (Text × Text)) :
    text (.star localName) ++ after ≠ text (.members none (pair :: pairs)) ++ behind := by
  rw [named_text]
  intro same
  cases same

theorem default_ne_star {name : Text} (spelled : isIdentifier name = true)
    (named : List (Text × Text)) (localName : Text) :
    text (.members (some name) named) ++ after ≠ text (.star localName) ++ behind := by
  rw [default_text]
  exact ne_of_isIdentifier (by decide) spelled

theorem default_ne_named {name : Text} (spelled : isIdentifier name = true)
    (named : List (Text × Text)) (pair : Text × Text) (pairs : List (Text × Text)) :
    text (.members (some name) named) ++ after ≠
      text (.members none (pair :: pairs)) ++ behind := by
  rw [default_text, named_text]
  exact ne_of_isIdentifier (by decide) spelled

/-- A clause can be told from the blank behind it on. -/
theorem text_append_inj {first second : ImportClause} (one : first.Proper) (other : second.Proper)
    (same : first.text ++ ' ' :: after = second.text ++ ' ' :: behind) :
    first = second ∧ after = behind := by
  rcases one.cases with ⟨localName, rfl, spelled⟩ | ⟨pair, pairs, rfl, spelled⟩ |
      ⟨name, named, rfl, spelled, pairs⟩ <;>
    rcases other.cases with ⟨others, rfl, written⟩ | ⟨next, others, rfl, written⟩ |
      ⟨called, others, rfl, written, nexts⟩
  · rw [text, text, List.append_assoc, List.append_assoc] at same
    obtain ⟨names, rest⟩ := identifier_append_inj spelled (closes_blank _) written (closes_blank _)
      (List.append_cancel_left same)
    exact ⟨by rw [names], (List.cons.inj rest).2⟩
  · exact absurd same (star_ne_named _ _ _)
  · exact absurd same.symm (default_ne_star written _ _)
  · exact absurd same.symm (star_ne_named _ _ _)
  · obtain ⟨pairs, rest⟩ := named_append_inj spelled written same
    exact ⟨by rw [pairs], (List.cons.inj rest).2⟩
  · exact absurd same.symm (default_ne_named written _ _ _)
  · exact absurd same (default_ne_star spelled _ _)
  · exact absurd same (default_ne_named spelled _ _ _)
  · rw [default_text, default_text] at same
    obtain ⟨names, rest⟩ := identifier_append_inj spelled (closes_restText _ _) written
      (closes_restText _ _) same
    obtain ⟨named, rest⟩ := restText_inj pairs nexts rest
    exact ⟨by rw [names, named], rest⟩

/-- The mark of a type-only import is no default binding called `type`: from what follows, the next
word would have to be `from` as a word and as a name at once. -/
theorem type_ne {first second : ImportClause} (one : first.Proper) (other : second.Proper) :
    "type ".toList ++ (first.text ++ (" from ".toList ++ '"' :: after)) ≠
      second.text ++ (" from ".toList ++ '"' :: behind) := by
  intro same
  rcases other.cases with ⟨localName, rfl, _⟩ | ⟨pair, pairs, rfl, _⟩ |
    ⟨name, named, rfl, spelled, _⟩
  · cases same
  · rw [named_text] at same
    cases same
  · rw [default_text] at same
    have same : "type".toList ++ ' ' :: (first.text ++ (" from ".toList ++ '"' :: after)) =
      name ++ restText named (" from ".toList ++ '"' :: behind) := same
    have keyword : isIdentifier "type".toList = true := by decide
    obtain ⟨_, rest⟩ := identifier_append_inj keyword (closes_blank _) spelled
      (closes_restText named _) same
    cases named with
    | cons pair pairs => cases rest
    | nil =>
        -- so the second text goes on with the word `from`, and the first with a clause
        have rest : first.text ++ (" from ".toList ++ '"' :: after) =
          "from".toList ++ ' ' :: '"' :: behind := (List.cons.inj rest).2
        rcases one.cases with ⟨localName, rfl, _⟩ | ⟨pair, pairs, rfl, _⟩ |
          ⟨called, others, rfl, written, _⟩
        · cases rest
        · rw [named_text] at rest
          cases rest
        · -- a default binding called `from`: behind it the first has another word, the second a quote
          rw [default_text] at rest
          have word : isIdentifier "from".toList = true := by decide
          obtain ⟨_, rest⟩ := identifier_append_inj written (closes_restText others _) word
            (closes_blank _) rest
          cases others with
          | nil => cases rest
          | cons pair pairs => cases rest

end Clauses

end ImportClause

/-! ## Statements -/

open ImportClause (text_append_inj type_ne)

theorem importLayout_append (typeOnly : Bool) (clause module after : Text) :
    Template.importLayout typeOnly clause module ++ after =
      "import ".toList ++ (Template.whenSet typeOnly "type ".toList ++
        (clause ++ (" from ".toList ++ (Text.guard module ++ ';' :: after)))) := by
  unfold Template.importLayout
  simp only [List.append_assoc]
  rfl

/-- The statement at the start of a text can be told, with what follows it. -/
theorem importLayout_append_inj {oneType otherType : Bool} {first second : ImportClause}
    {module source after behind : Text} (one : first.Proper) (other : second.Proper)
    (same : Template.importLayout oneType first.text module ++ after =
      Template.importLayout otherType second.text source ++ behind) :
    oneType = otherType ∧ first = second ∧ module = source ∧ after = behind := by
  rw [importLayout_append, importLayout_append] at same
  have same := List.append_cancel_left same
  have clauses (one : first.Proper) (other : second.Proper)
      (same : first.text ++ (" from ".toList ++ (Text.guard module ++ ';' :: after)) =
        second.text ++ (" from ".toList ++ (Text.guard source ++ ';' :: behind))) :
      first = second ∧ module = source ∧ after = behind := by
    obtain ⟨clauses, rest⟩ := text_append_inj one other same
    have quoted : Text.guard module ++ ';' :: after = Text.guard source ++ ';' :: behind :=
      List.append_cancel_left rest
    obtain ⟨modules, rest⟩ := Text.guard_append_inj quoted
    exact ⟨clauses, modules, (List.cons.inj rest).2⟩
  cases oneType with
  | true =>
      cases otherType with
      | true => exact ⟨rfl, clauses one other (List.append_cancel_left same)⟩
      | false => exact absurd same (type_ne one other)
  | false =>
      cases otherType with
      | true => exact absurd same.symm (type_ne other one)
      | false => exact ⟨rfl, clauses one other same⟩

/-- Further statements, each on a new line. -/
def furtherLines (typeOnly : Bool) (module : Text) (clauses : List ImportClause) : Text :=
  clauses.flatMap fun clause => '\n' :: Template.importLayout typeOnly clause.text module

theorem furtherLines_inj {typeOnly : Bool} {module : Text} {first second : List ImportClause}
    (one : ∀ clause ∈ first, clause.Proper) (other : ∀ clause ∈ second, clause.Proper)
    (same : furtherLines typeOnly module first = furtherLines typeOnly module second) :
    first = second := by
  induction first generalizing second with
  | nil =>
      cases second with
      | nil => rfl
      | cons clause second => cases same
  | cons clause first ih =>
      cases second with
      | nil => cases same
      | cons next second =>
          obtain ⟨_, heads, _, rest⟩ := importLayout_append_inj (one clause List.mem_cons_self)
            (other next List.mem_cons_self) (List.cons.inj same).2
          have tails := ih (fun found member => one found (List.mem_cons_of_mem _ member))
            (fun found member => other found (List.mem_cons_of_mem _ member)) rest
          rw [heads, tails]

/-- The statements of a registry. -/
def importLines (typeOnly : Bool) (module : Text) (clauses : List ImportClause) : Text :=
  ['\n'].intercalate (clauses.map fun clause =>
    Template.importLayout typeOnly clause.text module)

theorem importLines_cons (typeOnly : Bool) (module : Text) (clause : ImportClause)
    (clauses : List ImportClause) :
    importLines typeOnly module (clause :: clauses) =
      Template.importLayout typeOnly clause.text module ++
        furtherLines typeOnly module clauses := by
  unfold importLines furtherLines
  rw [List.map_cons, ImportClause.intercalate_cons, List.flatMap_map]
  rfl

theorem importLines_eq_nil_iff {typeOnly : Bool} {module : Text} {clauses : List ImportClause} :
    importLines typeOnly module clauses = [] ↔ clauses = [] := by
  constructor
  · intro none
    cases clauses with
    | nil => rfl
    | cons clause clauses =>
        rw [importLines_cons, importLayout_append] at none
        cases none
  · rintro rfl
    rfl

/-- Statements with proper clauses can be told from their text. -/
theorem importLines_inj {oneType otherType : Bool} {module source : Text}
    {first second : List ImportClause} (one : ∀ clause ∈ first, clause.Proper)
    (other : ∀ clause ∈ second, clause.Proper) (some : first ≠ [])
    (same : importLines oneType module first = importLines otherType source second) :
    oneType = otherType ∧ module = source ∧ first = second := by
  cases first with
  | nil => exact absurd rfl some
  | cons clause first =>
      cases second with
      | nil =>
          rw [importLines_eq_nil_iff.mpr rfl, importLines_eq_nil_iff] at same
          cases same
      | cons next second =>
          rw [importLines_cons, importLines_cons] at same
          obtain ⟨types, heads, modules, rest⟩ := importLayout_append_inj
            (one clause List.mem_cons_self) (other next List.mem_cons_self) same
          subst types modules
          have tails := furtherLines_inj
            (fun found member => one found (List.mem_cons_of_mem _ member))
            (fun found member => other found (List.mem_cons_of_mem _ member)) rest
          exact ⟨rfl, rfl, by rw [heads, tails]⟩

namespace Registry

/-- Some run leaves the registry. -/
def Reached (registry : Registry) : Prop :=
  ∃ module includeUnused typeOnly events,
    registry = (start module includeUnused typeOnly).after events

theorem Reached.fitting {registry : Registry} (reached : registry.Reached) : registry.Fitting := by
  obtain ⟨module, includeUnused, typeOnly, events, rfl⟩ := reached
  exact (fitting_start module includeUnused typeOnly).after events

theorem survivors_eq_nil_iff {registry : Registry} (reached : registry.Reached)
    (spelled : registry.Spelled) (all : Bool) :
    registry.survivors all = [] ↔ registry.importClauses all = [] := by
  rw [survivors_eq reached.fitting]
  constructor
  · intro none
    cases clauses : registry.importClauses all with
    | nil => rfl
    | cons clause rest =>
        have proper : clause.Proper :=
          proper_importClauses spelled clause (by rw [clauses]; exact List.mem_cons_self)
        rw [clauses, List.flatMap_cons, List.append_eq_nil_iff] at none
        rcases proper.cases with ⟨localName, rfl, _⟩ | ⟨pair, pairs, rfl, _⟩ | ⟨name, named, rfl, _⟩
        · cases none.1
        · cases none.1
        · cases none.1
  · intro none
    rw [none]
    rfl

/-- Printing always gives a text, which is empty just when no binding survives, and from which the
type-only mark, the module and the surviving bindings can be told. -/
theorem print_tells_imports {first second : Registry} (one : first.Reached)
    (other : second.Reached) (spelled : first.Spelled) (written : second.Spelled)
    (all typeOnly everything typesOnly : Option Bool) :
    ∃ text line,
      first.print all typeOnly = .ok text ∧ second.print everything typesOnly = .ok line ∧
      (text = [] ↔ first.survivors (all.getD first.includeUnused) = []) ∧
      (text = line → text ≠ [] →
        typeOnly.getD first.typeOnly = typesOnly.getD second.typeOnly ∧
          first.module = second.module ∧
          first.survivors (all.getD first.includeUnused) =
            second.survivors (everything.getD second.includeUnused)) := by
  refine ⟨_, _, print_eq_statements one.fitting all typeOnly,
    print_eq_statements other.fitting everything typesOnly, ?_, ?_⟩
  · exact importLines_eq_nil_iff.trans (survivors_eq_nil_iff one spelled _).symm
  · intro same some
    have some : first.importClauses (all.getD first.includeUnused) ≠ [] :=
      fun none => some (importLines_eq_nil_iff.mpr none)
    obtain ⟨types, modules, clauses⟩ := importLines_inj (proper_importClauses spelled)
      (proper_importClauses written) some same
    exact ⟨types, modules, by rw [survivors_eq one.fitting, survivors_eq other.fitting, clauses]⟩

/-- The words of a statement as names, from a module whose name has a quote and a backslash: one
registry prints what is marked in it, the other all that it holds. -/
theorem print_tells_imports_keywords :
    let module := "./a\"b\\c".toList
    let names : List Event :=
      [.call (.default "type".toList), .call (.named "from".toList []),
        .call (.named "as".toList "of".toList)]
    let marks : List Event :=
      [.call .markDefault, .call (.markNamed "from".toList), .call (.markNamed "of".toList),
        .call (.named "unused".toList [])]
    let first := (start module false false).after (names ++ marks)
    let second := (start module true true).after names
    ∃ text line, first.print none none = .ok text ∧ second.print none (some false) = .ok line ∧
      text = line ∧ text ≠ [] ∧
      first.survivors false = second.survivors true ∧
      first.survivors false =
        [(.default, "type".toList, "type".toList), (.named, "from".toList, "from".toList),
          (.named, "as".toList, "of".toList)] := by
  intro module names marks first second
  have one : first.Reached := ⟨module, false, false, names ++ marks, rfl⟩
  have other : second.Reached := ⟨module, true, true, names, rfl⟩
  have spelled : first.Spelled := by
    unfold Spelled
    decide
  have written : second.Spelled := by
    unfold Spelled
    decide
  obtain ⟨text, line, prints, writes, _, tells⟩ :=
    print_tells_imports one other spelled written none none none (some false)
  have same : text = line := by
    have texts : first.print none none = second.print none (some false) := by rfl
    rw [prints, writes] at texts
    exact Except.ok.inj texts
  have some : text ≠ [] := by
    rintro rfl
    cases prints
  obtain ⟨_, _, survive⟩ := tells same some
  exact ⟨text, line, prints, writes, same, some, survive, by decide⟩

end Registry

end TypeScriptGen
