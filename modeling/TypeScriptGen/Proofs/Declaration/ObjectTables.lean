import TypeScriptGen.Declaration.Object
import TypeScriptGen.Proofs.Outcome.Steps
import TypeScriptGen.Value.Mapping

/-!
# Objects built from tables

A table is given to an object whole, or entry by entry to an object of its own, and so
on down through the tables in it. Both are written the same at every level, and what
is around them does not tell which it was.
-/

namespace TypeScriptGen

namespace Value

mutual

/-- A table has texts for its keys, and so have the tables among its values. -/
def hasTextKeys : Value → Bool
  | .table entries => allTextKeys entries
  | _ => true

def allTextKeys : List (Value × Value) → Bool
  | [] => true
  | (key, value) :: entries => (text? key).isSome && hasTextKeys value && allTextKeys entries

end

end Value

namespace ObjectEntry

mutual

/-- The entry for a value: a table is an object of its own. -/
def ofValue (key : Text) : Value → ObjectEntry
  | .table entries => .nested key (ofTable entries) false
  | value => .plain key value false

def ofTable : List (Value × Value) → List ObjectEntry
  | [] => []
  | (key, value) :: entries => ofValue key.display value :: ofTable entries

end

theorem line_plain (key literal : Text) :
    line key false literal = key ++ ": ".toList ++ literal := by
  rw [line]
  rfl

mutual

/-- An entry is written as the one of the table that it was made from. -/
theorem text_ofValue (level : Int) (key : Text) :
    ∀ value, text level (ofValue key value) = key ++ ": ".toList ++ Value.literal level value
  | .table entries => by
      rw [ofValue, text, texts_ofTable (level + 1) entries, line_plain, Value.literal]
  | .null | .bool _ | .int _ | .float _ | .text _ | .ragged _ | .list _ | .tuple _ | .moment _
  | .node _ =>
      line_plain key _

theorem texts_ofTable (level : Int) :
    ∀ entries, texts level (ofTable entries) = Value.literalEntries level entries
  | [] => rfl
  | (key, value) :: entries => by
      rw [ofTable, texts, Value.literalEntries, text_ofValue level key.display value,
        texts_ofTable level entries]

end

mutual

theorem holdsOversize_ofValue (key : Text) :
    ∀ value, Value.hasTextKeys value = true →
      holdsOversize (ofValue key value) = value.holdsOversize
  | .table entries => fun keyed => anyOversize_ofTable entries keyed
  | .null | .bool _ | .int _ | .float _ | .text _ | .ragged _ | .list _ | .tuple _ | .moment _
  | .node _ => fun _ => rfl

/-- Keys that are texts hold no number that is too long to write. -/
theorem anyOversize_ofTable :
    ∀ entries, Value.allTextKeys entries = true →
      anyOversize (ofTable entries) = Value.entryOversize entries
  | [] => fun _ => rfl
  | (key, value) :: entries => fun keyed => by
      rw [Value.allTextKeys, Bool.and_eq_true, Bool.and_eq_true] at keyed
      obtain ⟨⟨text, inner⟩, rest⟩ := keyed
      have short : key.holdsOversize = false := by
        cases key with
        | text _ | ragged _ => rfl
        | _ => cases text
      rw [ofTable, anyOversize, Value.entryOversize, holdsOversize_ofValue key.display value inner,
        anyOversize_ofTable entries rest, short, Bool.false_or]

end

end ObjectEntry

namespace ObjectDraft

/-! ## Building entry by entry -/

mutual

/-- The command that adds a value: a table is built in an object of its own. -/
def valueCommand (key : Text) : Value → Command
  | .table entries => .nested key (tableCommands entries) false
  | value => .property key value false

def tableCommands : List (Value × Value) → List Command
  | [] => []
  | (key, value) :: entries => valueCommand key.display value :: tableCommands entries

end

/-- The entries of a table behind those that are there. -/
def addTable (draft : ObjectDraft) (entries : List (Value × Value)) : ObjectDraft :=
  { draft with entries := draft.entries ++ ObjectEntry.ofTable entries }

theorem addTable_cons (draft : ObjectDraft) (key value : Value) (entries : List (Value × Value)) :
    draft.addTable ((key, value) :: entries) =
      (draft.add (.ofValue key.display value)).addTable entries := by
  simp [addTable, add, ObjectEntry.ofTable]

mutual

theorem step_valueCommand (draft : ObjectDraft) (key : Text) :
    ∀ value, draft.step (valueCommand key value) = .ok (draft.add (.ofValue key value), none)
  | .table entries => by
      rw [valueCommand, step]
      exact bind_ok (steps_tableCommands anonymous entries)
  | .null | .bool _ | .int _ | .float _ | .text _ | .ragged _ | .list _ | .tuple _ | .moment _
  | .node _ => rfl

theorem steps_tableCommands (draft : ObjectDraft) :
    ∀ entries, draft.steps (tableCommands entries) = .ok (draft.addTable entries)
  | [] => by simp [tableCommands, steps, addTable, ObjectEntry.ofTable]
  | (key, value) :: entries => by
      rw [tableCommands, steps]
      refine (bind_ok (step_valueCommand draft key.display value)).trans ?_
      rw [addTable_cons]
      exact steps_tableCommands (draft.add (.ofValue key.display value)) entries

end

theorem run_tableCommands (draft : ObjectDraft) (entries : List (Value × Value)) :
    Outcome.run apply (tableCommands entries) draft = .done (draft.addTable entries) := by
  induction entries generalizing draft with
  | nil => simp [tableCommands, Outcome.run, addTable, ObjectEntry.ofTable]
  | cons entry entries ih =>
      obtain ⟨key, value⟩ := entry
      have first : apply (valueCommand key.display value) draft =
          .done (draft.add (.ofValue key.display value)) := by
        rw [apply, step_valueCommand]
        rfl
      rw [tableCommands, Outcome.run, first, addTable_cons, ← ih]
      rfl

/-! ## What shows of an object -/

/-- Two objects that are written the same, alone and inside others. -/
structure Alike (first second : ObjectDraft) : Prop where
  name : first.name = second.name
  exported : first.exported = second.exported
  constant : first.constant = second.constant
  comment : first.comment = second.comment
  texts : ∀ level, ObjectEntry.texts level first.entries = ObjectEntry.texts level second.entries
  oversize : ObjectEntry.anyOversize first.entries = ObjectEntry.anyOversize second.entries

namespace Alike

variable {first second : ObjectDraft}

theorem refl (draft : ObjectDraft) : Alike draft draft := ⟨rfl, rfl, rfl, rfl, fun _ => rfl, rfl⟩

theorem literal? (alike : Alike first second) (level : Int) :
    first.literal? level = second.literal? level := by
  simp only [ObjectDraft.literal?, literal, alike.texts, alike.oversize]

theorem print (alike : Alike first second) : first.print = second.print := by
  unfold ObjectDraft.print
  rw [alike.literal?, alike.comment]
  unfold declare
  rw [alike.name, alike.exported, alike.constant]

theorem node (alike : Alike first second) : first.node = second.node := by
  rw [ObjectDraft.node, ObjectDraft.node, alike.print]

theorem add (alike : Alike first second) {one other : ObjectEntry}
    (texts : ∀ level, one.text level = other.text level)
    (oversize : one.holdsOversize = other.holdsOversize) :
    Alike (first.add one) (second.add other) where
  name := alike.name
  exported := alike.exported
  constant := alike.constant
  comment := alike.comment
  texts level := by
    have before := alike.texts level
    rw [ObjectEntry.texts_eq, ObjectEntry.texts_eq] at before ⊢
    simp only [ObjectDraft.add, List.map_append, before, List.map_cons, texts]
  oversize := by
    have before := alike.oversize
    rw [ObjectEntry.anyOversize_eq, ObjectEntry.anyOversize_eq] at before ⊢
    simp only [ObjectDraft.add, List.any_append, before, List.any_cons, oversize]

/-- A command does the same to both. -/
theorem apply (alike : Alike first second) (command : Command) :
    (ObjectDraft.apply command first).result = (ObjectDraft.apply command second).result ∧
      Alike (ObjectDraft.apply command first).state (ObjectDraft.apply command second).state := by
  cases command with
  | comment comment =>
      unfold ObjectDraft.apply ObjectDraft.step setComment
      cases Comment.linesOf comment with
      | error failure => exact ⟨rfl, alike⟩
      | ok lines =>
          exact ⟨rfl, alike.name, alike.exported, alike.constant, rfl, alike.texts, alike.oversize⟩
  | print =>
      unfold ObjectDraft.apply ObjectDraft.step
      rw [alike.print]
      cases second.print <;> exact ⟨rfl, alike⟩
  | property key value readonly => exact ⟨rfl, alike.add (fun _ => rfl) rfl⟩
  | nested key commands readonly =>
      unfold ObjectDraft.apply ObjectDraft.step
      cases steps anonymous commands with
      | error failure => exact ⟨rfl, alike⟩
      | ok inner => exact ⟨rfl, alike.add (fun _ => rfl) rfl⟩
  | constant =>
      exact ⟨rfl, alike.name, alike.exported, rfl, alike.comment, alike.texts, alike.oversize⟩
  | literal level =>
      unfold ObjectDraft.apply ObjectDraft.step
      rw [alike.literal?]
      cases second.literal? level <;> exact ⟨rfl, alike⟩

/-- So does a run of commands, wherever it stops. -/
theorem run (alike : Alike first second) (commands : List Command) :
    (Outcome.run ObjectDraft.apply commands first).result =
        (Outcome.run ObjectDraft.apply commands second).result ∧
      Alike (Outcome.run ObjectDraft.apply commands first).state
        (Outcome.run ObjectDraft.apply commands second).state := by
  induction commands generalizing first second with
  | nil => exact ⟨rfl, alike⟩
  | cons command commands ih =>
      obtain ⟨same, next⟩ := alike.apply command
      rw [Outcome.run, Outcome.run, same]
      cases (ObjectDraft.apply command second).result with
      | error failure => exact ⟨rfl, next⟩
      | ok text => exact ih next

end Alike

/-- A table given whole and one built in an object of its own leave objects that are alike. -/
theorem alike_property_nested {entries : List (Value × Value)}
    (keyed : Value.allTextKeys entries = true) (draft : ObjectDraft) (key : Text)
    (readonly : Bool) :
    ∃ whole built, draft.step (.property key (.table entries) readonly) = .ok (whole, none) ∧
      draft.step (.nested key (tableCommands entries) readonly) = .ok (built, none) ∧
      Alike whole built := by
  refine ⟨_, _, rfl, bind_ok (steps_tableCommands anonymous entries),
    (Alike.refl draft).add (fun level => ?_) (ObjectEntry.anyOversize_ofTable entries keyed).symm⟩
  change ObjectEntry.line key readonly (Value.literal level (.table entries)) =
    ObjectEntry.line key readonly (Value.braces level
      (ObjectEntry.texts (level + 1) (ObjectEntry.ofTable entries)))
  rw [ObjectEntry.texts_ofTable, Value.literal]

/-- An object built from a table is written as the table, or is too large to be written as well. -/
theorem literal?_built {entries : List (Value × Value)} (keyed : Value.allTextKeys entries = true)
    (name : Text) (exported constant : Bool) (level : Int) :
    ((start name exported constant).addTable entries).literal? level =
      (Value.table entries).literal? level := by
  have shown : ((start name exported constant).addTable entries).literal level =
      Value.literal level (.table entries) := by
    change Value.braces level
      (ObjectEntry.texts (level + 1) (ObjectEntry.ofTable entries)) = _
    rw [ObjectEntry.texts_ofTable, Value.literal]
  have size : ObjectEntry.anyOversize ((start name exported constant).addTable entries).entries =
      (Value.table entries).holdsOversize := ObjectEntry.anyOversize_ofTable entries keyed
  rw [literal?, size, shown, Value.literal?]

theorem run_of_step {draft next : ObjectDraft} {command : Command}
    (stepped : draft.step command = .ok (next, none)) (later : List Command) :
    Outcome.run apply (command :: later) draft = Outcome.run apply later next := by
  have first : apply command draft = .done next := by
    rw [apply, stepped]
    rfl
  rw [Outcome.run, first]
  rfl

/-- An object built from a table, entry by entry and down through its tables, is written as the
table is at every level; and a table given to an object whole, or so built inside it, leads to the
same answers and the same text, whatever was done before and is done after. -/
theorem built_eq_given {entries : List (Value × Value)}
    (keyed : Value.allTextKeys entries = true) :
    (∀ name exported constant,
      let built := Outcome.run apply (tableCommands entries) (start name exported constant)
      built.result = .ok none ∧
        ∀ level, built.state.literal? level = (Value.table entries).literal? level) ∧
      ∀ (draft : ObjectDraft) (key : Text) (readonly : Bool) (later : List Command),
        let given := Outcome.run apply (.property key (.table entries) readonly :: later) draft
        let built :=
          Outcome.run apply (.nested key (tableCommands entries) readonly :: later) draft
        given.result = built.result ∧ given.state.print = built.state.print ∧
          given.state.node = built.state.node := by
  refine ⟨fun name exported constant => ?_, fun draft key readonly later => ?_⟩
  · dsimp only
    rw [run_tableCommands]
    exact ⟨rfl, literal?_built keyed name exported constant⟩
  · obtain ⟨one, other, given, built, alike⟩ := alike_property_nested keyed draft key readonly
    obtain ⟨same, ends⟩ := alike.run later
    dsimp only
    rw [run_of_step given, run_of_step built]
    exact ⟨same, ends.print, ends.node⟩

/-- A table in a table beside a list of tables, which is plain data, and an empty table. -/
theorem built_eq_given_headers :
    let inner : Table := [(.text "accept".toList, .text "json".toList)]
    let entries : Table := [(.text "headers".toList, .table
        [(.text "own".toList, .table inner), (.text "more".toList, .list [.table inner])]),
      (.text "none".toList, .table [])]
    Value.allTextKeys entries = true ∧
      (∀ level, (Outcome.run apply (tableCommands entries) anonymous).state.literal? level =
        (Value.table entries).literal? level) ∧
      (Outcome.run apply [.nested ['k'] (tableCommands entries) true, .constant]
          (start ['x'] true false)).state.print =
        (Outcome.run apply [.property ['k'] (.table entries) true, .constant]
          (start ['x'] true false)).state.print := by
  intro inner entries
  have keyed : Value.allTextKeys entries = true := rfl
  obtain ⟨alone, inside⟩ := built_eq_given keyed
  exact ⟨keyed, (alone [] false false).2,
    (inside (start ['x'] true false) ['k'] true [.constant]).2.1.symm⟩

end ObjectDraft

end TypeScriptGen
