import Mathlib.Data.List.Forall2
import TypeScriptGen.Proofs.Declaration.Drafted
import TypeScriptGen.Proofs.Text.Laying

/-!
# Type parameters given as tables

Several type parameters are added one by one, each as its table describes it. The
first table that cannot be added ends this with a failure, and the parameters
that were added before it stay, so a failed call is undone by nothing. It changed
nothing only where it failed at the first table.
-/

namespace TypeScriptGen

namespace AliasDraft

open Node (Shown)

/-! ## What a table describes -/

/-- A table whose name, if it has one, is a text. -/
def IsParameterTable (entry : Value) : Prop :=
  ∃ table, entry = .table table ∧
    ∀ value, Table.field? table nameKey = some value → ∃ name, value = .text name

/-- The type that an entry spells, if it is there and not empty. -/
inductive Spells : Option Value → Option Node → Prop
  | missing : Spells none none
  | empty {value : Value} (falsy : value.isTruthy = false) : Spells (some value) none
  | text {content : Text} (shown : content ≠ []) :
      Spells (some (.text content)) (some (Syntax.parseType content))
  | ragged (content : Text.Ragged) :
      Spells (some (.ragged content)) (some (Syntax.parseType content.shown))

/-- An entry that is not empty and no text. -/
def IsOdd (given : Option Value) : Prop :=
  ∃ value, given = some value ∧ value.isTruthy = true ∧ value.points? = none

def constraintOf (table : Table) : Option Value := Table.field? table "constraint".toList

/-- The first of two keys gives the default wherever it is there. -/
def defaultOf (table : Table) : Option Value :=
  (Table.field? table "default".toList).or (Table.field? table "default_type".toList)

/-- The parameter that a table describes. -/
inductive Describes : Value → Node → Prop
  | table {table : Table} {name : Text} {constraint default : Option Node}
      (named : Table.field? table nameKey = some (.text name))
      (bound : Spells (constraintOf table) constraint)
      (initial : Spells (defaultOf table) default) :
      Describes (.table table) (.typeParameter name constraint default)

/-- Why a table cannot be added: it has no name, or its constraint or default is no text. -/
inductive Refuses : Value → Failure → Prop
  | unnamed {table : Table} (missing : Table.field? table nameKey = none) :
      Refuses (.table table) (.missingKey (.text nameKey))
  | odd {table : Table} {name : Text} (named : Table.field? table nameKey = some (.text name))
      (given : IsOdd (constraintOf table) ∨ IsOdd (defaultOf table)) :
      Refuses (.table table) .unsupported

def append (draft : AliasDraft) (parameters : List Node) : AliasDraft :=
  { draft with parameters := draft.parameters ++ parameters }

theorem append_nil (draft : AliasDraft) : draft.append [] = draft := by
  rw [append, List.append_nil]

theorem append_append (draft : AliasDraft) (parameters more : List Node) :
    (draft.append parameters).append more = draft.append (parameters ++ more) := by
  simp only [append, List.append_assoc]

theorem append_eq_self_iff (draft : AliasDraft) (parameters : List Node) :
    draft.append parameters = draft ↔ parameters = [] := by
  constructor
  · intro same
    exact List.append_right_eq_self.mp (congrArg AliasDraft.parameters same)
  · rintro rfl
    exact draft.append_nil

theorem spells_optionalType (content : Text) :
    Spells (some (.text content)) (optionalType content) := by
  unfold optionalType
  cases content with
  | nil => exact .empty rfl
  | cons c content => exact .text (List.cons_ne_nil c content)

theorem spells_ragged (content : Text.Ragged) :
    Spells (some (.ragged content)) (optionalType content.shown) := by
  obtain ⟨points, torn⟩ := content
  cases points with
  | nil => cases torn
  | cons point points => exact .ragged ⟨point :: points, torn⟩

/-- An entry is read as the text of a type, or it is odd. -/
theorem textEntry_cases (table : Table) (key : Text) :
    (∃ content, textEntry table key = .ok content ∧
        Spells (Table.field? table key) (optionalType content)) ∨
      textEntry table key = .error .unsupported ∧ IsOdd (Table.field? table key) := by
  unfold textEntry
  split
  · next missing => exact .inl ⟨[], rfl, by rw [missing]; exact .missing⟩
  · next content found => exact .inl ⟨content, rfl, by rw [found]; exact spells_optionalType content⟩
  · next content found =>
      exact .inl ⟨content.shown, rfl, by rw [found]; exact spells_ragged content⟩
  · next other strange torn found =>
      cases truthy : other.isTruthy with
      | false => exact .inl ⟨[], rfl, by rw [found]; exact .empty truthy⟩
      | true =>
          have silent : other.points? = none := by
            cases other with
            | text content => exact absurd rfl (strange content)
            | ragged content => exact absurd rfl (torn content)
            | _ => rfl
          exact .inr ⟨rfl, other, found, truthy, silent⟩

/-- A named table is added with its constraint and its default, or one of them is odd. -/
theorem addTable_cases (draft : AliasDraft) {table : Table} {name : Text}
    (named : Table.field? table nameKey = some (.text name)) :
    (∃ constraint default, draft.addTable table = .ok (draft.addParameter name constraint default) ∧
        Spells (constraintOf table) (optionalType constraint) ∧
        Spells (defaultOf table) (optionalType default)) ∨
      draft.addTable table = .error .unsupported ∧
        (IsOdd (constraintOf table) ∨ IsOdd (defaultOf table)) := by
  unfold addTable
  rw [named]
  dsimp only
  rcases textEntry_cases table "constraint".toList with ⟨constraint, read, bound⟩ | ⟨failed, odd⟩
  · rw [bind_ok read]
    -- the second key of the default counts only where the first is missing
    cases first : Table.field? table "default".toList with
    | some value =>
        have known : defaultOf table = Table.field? table "default".toList := by
          rw [defaultOf, first, Option.some_or]
        rw [Option.isSome_some, if_pos rfl, known]
        rcases textEntry_cases table "default".toList with ⟨default, read, initial⟩ | ⟨failed, odd⟩
        · exact .inl ⟨constraint, default, bind_ok read, bound, initial⟩
        · exact .inr ⟨by rw [failed]; rfl, .inr odd⟩
    | none =>
        have known : defaultOf table = Table.field? table "default_type".toList := by
          rw [defaultOf, first, Option.none_or]
        rw [Option.isSome_none, if_neg Bool.false_ne_true, known]
        rcases textEntry_cases table "default_type".toList with
          ⟨default, read, initial⟩ | ⟨failed, odd⟩
        · exact .inl ⟨constraint, default, bind_ok read, bound, initial⟩
        · exact .inr ⟨by rw [failed]; rfl, .inr odd⟩
  · exact .inr ⟨by rw [failed]; rfl, .inl odd⟩

/-- A table is added as it describes, or it is refused. -/
theorem addEntry_cases (draft : AliasDraft) {entry : Value} (table : IsParameterTable entry) :
    (∃ parameter, Describes entry parameter ∧ draft.addEntry entry =
        .ok (draft.append [parameter])) ∨
      ∃ failure, Refuses entry failure ∧ draft.addEntry entry = .error failure := by
  obtain ⟨table, rfl, texts⟩ := table
  change (∃ parameter, _ ∧ draft.addTable table = _) ∨ ∃ failure, _ ∧ draft.addTable table = _
  cases found : Table.field? table nameKey with
  | none =>
      refine .inr ⟨_, .unnamed found, ?_⟩
      rw [addTable, found]
  | some value =>
      obtain ⟨name, rfl⟩ := texts value found
      rcases draft.addTable_cases found with ⟨constraint, default, added, bound, initial⟩ |
        ⟨failed, odd⟩
      · exact .inl ⟨_, .table found bound initial, added⟩
      · exact .inr ⟨_, .odd found odd, failed⟩

/-! ## Adding them all -/

/-- What adding tables leaves: the parameters of the tables up to the first that is refused. -/
structure AddsUpTo (draft : AliasDraft) (entries kept rest : List Value) (parameters : List Node)
    (outcome : Outcome AliasDraft) : Prop where
  split : entries = kept ++ rest
  described : List.Forall₂ Describes kept parameters
  state : outcome.state = draft.append parameters
  result : rest = [] ∧ outcome.result = .ok none ∨
    ∃ faulty more failure, rest = faulty :: more ∧ Refuses faulty failure ∧
      outcome.result = .error failure

theorem addEntries_addsUpTo (draft : AliasDraft) {entries : List Value}
    (tables : ∀ entry ∈ entries, IsParameterTable entry) :
    ∃ kept rest parameters,
      AddsUpTo draft entries kept rest parameters (addEntries entries draft) := by
  induction entries generalizing draft with
  | nil => exact ⟨[], [], [], rfl, .nil, draft.append_nil.symm, .inl ⟨rfl, rfl⟩⟩
  | cons entry entries ih =>
      rcases draft.addEntry_cases (tables entry List.mem_cons_self) with
        ⟨parameter, described, added⟩ | ⟨failure, refused, failed⟩
      · obtain ⟨kept, rest, parameters, split, describes, state, result⟩ :=
          ih (draft.append [parameter]) fun other member =>
            tables other (List.mem_cons_of_mem entry member)
        have goes : addEntries (entry :: entries) draft =
            addEntries entries (draft.append [parameter]) := by
          rw [addEntries, added]
        refine ⟨entry :: kept, rest, parameter :: parameters, by rw [split]; rfl,
          .cons described describes, ?_, by rw [goes]; exact result⟩
        rw [goes, state, append_append]
        rfl
      · have stops : addEntries (entry :: entries) draft = .failed draft failure := by
          rw [addEntries, failed]
        refine ⟨[], entry :: entries, [], rfl, .nil, by rw [stops, append_nil]; rfl, .inr ?_⟩
        exact ⟨entry, entries, failure, rfl, refused, by rw [stops]; rfl⟩

/-! ## The printed alias -/

/-- More parameters make a longer text. -/
theorem length_list_lt (texts : List Text) {more : List Text} (further : more ≠ []) :
    (Template.whenSet (!texts.isEmpty) ('<' :: ", ".toList.intercalate texts ++ ['>'])).length <
      (Template.whenSet (!(texts ++ more).isEmpty)
        ('<' :: ", ".toList.intercalate (texts ++ more) ++ ['>'])).length := by
  have some : (texts ++ more).isEmpty = false := by simp [further]
  rw [some, Template.whenSet, Template.whenSet, Bool.not_false, if_pos rfl]
  cases texts with
  | nil => simp
  | cons text texts =>
      have behind := Text.intercalate_append ", ".toList (List.cons_ne_nil text texts) further
      rw [behind]
      simp only [List.isEmpty_cons, Bool.not_false, if_true, List.length_append, List.length_cons]
      have separated : 0 < ", ".toList.length := by decide
      omega

theorem aliasLayout_append_eq_iff {comment name type : Text} {exported : Bool}
    {texts more : List Text} :
    Template.aliasLayout comment exported name (texts ++ more) type =
      Template.aliasLayout comment exported name texts type ↔ more = [] := by
  constructor
  · intro same
    unfold Template.aliasLayout at same
    simp only [List.append_assoc, List.append_cancel_left_eq] at same
    by_contra further
    have longer := length_list_lt texts further
    have lengths := congrArg List.length same
    simp only [List.length_append] at lengths longer
    omega
  · rintro rfl
    rw [List.append_nil]

/-- Further parameters show in the printed alias. -/
theorem print_append {draft : AliasDraft} {parameters : List Node}
    (sound : (draft.append parameters).Sound) :
    ∃ text longer, draft.node.print = .ok text ∧
      (draft.append parameters).node.print = .ok longer ∧ (longer = text ↔ parameters = []) := by
  have first : ∀ node ∈ draft.parameters, Shown node := fun node member =>
    sound.parameters node (List.mem_append_left parameters member)
  have further : ∀ node ∈ parameters, Shown node := fun node member =>
    sound.parameters node (List.mem_append_right draft.parameters member)
  obtain ⟨texts, all, _⟩ := Node.printAll_ok first
  obtain ⟨more, added, _⟩ := Node.printAll_ok further
  obtain ⟨_, printed, _⟩ := sound.node.printed
  obtain ⟨_, _, printed⟩ := exists_of_bind_ok printed
  obtain ⟨type, one, _⟩ := exists_of_bind_ok printed
  have whole : Printer.printAll .standard (draft.append parameters).parameters =
      .ok (texts ++ more) := Node.printAll_append all added
  refine ⟨_, _, print_of_parts all one, print_of_parts whole one,
    aliasLayout_append_eq_iff.trans ?_⟩
  rw [← List.length_eq_zero_iff, ← List.length_eq_zero_iff, Node.length_of_printAll added]

/-- Adding type parameters given as tables stops at the first table that is refused, for want of a
name or for a constraint or default that is no text, and keeps exactly the parameters of the tables
before it, in order; without such a table it keeps all of them and succeeds. The alias, and what it
is printed as, is left as it was only if no table comes before the refused one. -/
theorem parameters_added_up_to_refused (name : Text) (exported : Bool) (commands : List Command)
    {entries : List Value} (tables : ∀ entry ∈ entries, IsParameterTable entry) :
    let draft := (Outcome.run apply commands (start name exported)).state
    let outcome := apply (.parameters entries) draft
    ∃ kept rest parameters,
      AddsUpTo draft entries kept rest parameters outcome ∧
      (outcome.state = draft ↔ kept = []) ∧
      ∃ before after, draft.node.print = .ok before ∧ outcome.state.node.print = .ok after ∧
        (after = before ↔ kept = []) := by
  intro draft outcome
  obtain ⟨kept, rest, parameters, adds⟩ := draft.addEntries_addsUpTo tables
  have none : parameters = [] ↔ kept = [] := by
    rw [← List.length_eq_zero_iff, ← List.length_eq_zero_iff, adds.described.length_eq]
  have grown : outcome.state = draft.append parameters := adds.state
  have sound : (draft.append parameters).Sound := by
    rw [← grown]
    exact (sound_run commands (sound_start name exported)).addEntries entries
  refine ⟨kept, rest, parameters, adds, ?_, ?_⟩
  · rw [grown, append_eq_self_iff, none]
  · obtain ⟨before, after, printed, shown, same⟩ := print_append sound
    exact ⟨before, after, printed, by rw [grown, shown], same.trans none⟩

/-- The parameter in front of a table without a name stays, and the one behind it is not added. -/
theorem parameters_added_up_to_unnamed :
    let entries : List Value :=
      [.table [(.text nameKey, .text ['T']), (.text "constraint".toList, .text "string".toList)],
        .table [(.text "default".toList, .text ['A'])], .table [(.text nameKey, .text ['K'])]]
    (∀ entry ∈ entries, IsParameterTable entry) ∧
      (let draft := (Outcome.run apply [.parameter ['S'] [] []] (start ['B'] true)).state
      let outcome := apply (.parameters entries) draft
      ∃ kept rest parameters, AddsUpTo draft entries kept rest parameters outcome ∧
        (outcome.state = draft ↔ kept = []) ∧
        ∃ before after, draft.node.print = .ok before ∧ outcome.state.node.print = .ok after ∧
          (after = before ↔ kept = [])) := by
  intro entries
  have tables : ∀ entry ∈ entries, IsParameterTable entry := by
    refine List.forall_mem_cons.mpr ⟨?_, List.forall_mem_cons.mpr ⟨?_, List.forall_mem_cons.mpr
      ⟨?_, nofun⟩⟩⟩
    · exact ⟨_, rfl, fun value found => ⟨['T'], (Option.some.inj found).symm⟩⟩
    · exact ⟨_, rfl, nofun⟩
    · exact ⟨_, rfl, fun value found => ⟨['K'], (Option.some.inj found).symm⟩⟩
  exact ⟨tables, parameters_added_up_to_refused ['B'] true [.parameter ['S'] [] []] tables⟩

/-- A call that fails at its second table leaves the parameter of the first behind. -/
theorem parameters_half_added :
    let draft := start "Box".toList false
    let entries : List Value := [.table [(.text nameKey, .text ['T'])], .table []]
    let outcome := apply (.parameters entries) draft
    outcome.result = .error (.missingKey (.text nameKey)) ∧
      draft.parameters = [] ∧ outcome.state.parameters = [.typeParameter ['T'] none none] ∧
      draft.node.print = .ok "type Box = any;".toList ∧
      outcome.state.node.print = .ok "type Box<T> = any;".toList ∧
      outcome.state.parameters ≠ draft.parameters ∧
      outcome.state.node.print ≠ draft.node.print := by
  intro draft entries outcome
  have before : draft.node.print = .ok "type Box = any;".toList := rfl
  have after : outcome.state.node.print = .ok "type Box<T> = any;".toList := rfl
  refine ⟨rfl, rfl, rfl, before, after, List.cons_ne_nil _ _, fun same => ?_⟩
  have texts := after.symm.trans (same.trans before)
  exact absurd (Except.ok.inj texts) (by decide)

end AliasDraft

end TypeScriptGen
