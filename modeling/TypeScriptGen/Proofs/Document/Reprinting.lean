import TypeScriptGen.Proofs.Document.Addition
import TypeScriptGen.Proofs.Import.Forgetting

/-!
# Printing a section again

Printing leaves the registries of a section reconciled. Nothing that happens
later depends on that: two sections whose registries agree print the same text,
and every call keeps them in agreement. So further prints, put anywhere into a
run, change the answer of no other print.
-/

namespace TypeScriptGen

namespace Item

theorem reconcile_reconcile (earlier later : Text → Bool) (item : Item) :
    (item.reconcile earlier).reconcile later = item.reconcile later := by
  obtain ⟨kind, name, payload⟩ := item
  cases payload with
  | registry registry => simp [reconcile, registry.reconcile_reconcile]
  | _ => rfl

theorem isImport_reconcile (isUsed : Text → Bool) (item : Item) :
    (item.reconcile isUsed).isImport = item.isImport := by
  obtain ⟨kind, name, payload⟩ := item
  cases payload <;> rfl

/-- Reconciliation touches registries only. -/
theorem reconcile_content (isUsed : Text → Bool) (item : Item)
    (content : item.isImport = false) : item.reconcile isUsed = item := by
  obtain ⟨kind, name, payload⟩ := item
  cases payload with
  | registry registry => cases content
  | _ => rfl

end Item

namespace Section

/-- The section without the outcome of any reconciliation. -/
def forget (current : Section) : Section :=
  { current with items := current.items.map (Item.reconcile fun _ => false) }

/-- The sections differ at most in the use of unmarked bindings. -/
def Agree (first second : Section) : Prop := first.forget = second.forget

theorem Agree.refl (current : Section) : Agree current current := rfl

def reconcile (current : Section) (isUsed : Text → Bool) : Section :=
  { current with items := current.items.map (Item.reconcile isUsed) }

theorem forget_reconcile (current : Section) (isUsed : Text → Bool) :
    (current.reconcile isUsed).forget = current.forget := by
  simp [forget, reconcile, Function.comp_def, Item.reconcile_reconcile]

theorem reconcile_forget (current : Section) (isUsed : Text → Bool) :
    current.forget.reconcile isUsed = current.reconcile isUsed := by
  simp [forget, reconcile, Function.comp_def, Item.reconcile_reconcile]

theorem forget_forget (current : Section) : current.forget.forget = current.forget :=
  current.forget_reconcile _

theorem contentInOrder_forget (current : Section) :
    current.forget.contentInOrder = current.contentInOrder := by
  unfold contentInOrder forget
  rw [List.filter_map]
  simp only [Function.comp_def, Item.isImport_reconcile]
  refine (List.map_congr_left fun item member => ?_).trans (List.map_id' _)
  have content : item.isImport = false := by simpa using (List.mem_filter.mp member).2
  exact item.reconcile_content _ content

theorem content_forget (current : Section) : current.forget.content = current.content := by
  unfold content
  rw [contentInOrder_forget]
  rfl

/-! ## One print -/

theorem print_error {current : Section} {failure : Failure}
    (failed : printContent current.content .empty = .error failure) :
    current.print = (current, .error failure) := by
  unfold print
  rw [failed]

theorem print_ok {current : Section} {contents : List Text} {tracker : Usage.Tracker}
    (printed : printContent current.content .empty = .ok (contents, tracker)) :
    current.print =
      (current.reconcile tracker.isUsed, do
        let lines ← importLines (current.reconcile tracker.isUsed).imports
        (current.reconcile tracker.isUsed).layout lines contents) := by
  unfold print
  rw [printed]
  rfl

/-- A print changes nothing but the outcome of reconciliation. -/
theorem forget_print (current : Section) : current.print.1.forget = current.forget := by
  cases printed : printContent current.content .empty with
  | error failure => rw [print_error printed]
  | ok found =>
      rw [print_ok printed]
      exact current.forget_reconcile _

/-- What is printed does not depend on an earlier reconciliation. -/
theorem print_forget (current : Section) : current.forget.print.2 = current.print.2 := by
  cases printed : printContent current.content .empty with
  | error failure =>
      have again := printed
      rw [← content_forget] at again
      rw [print_error printed, print_error again]
  | ok found =>
      have again := printed
      rw [← content_forget] at again
      rw [print_ok printed, print_ok again, reconcile_forget]

theorem Agree.print {first second : Section} (agree : Agree first second) :
    first.print.2 = second.print.2 := by
  have same : first.forget = second.forget := agree
  rw [← first.print_forget, same, second.print_forget]

/-- The second of two prints in a row answers what the first did. -/
theorem print_print (current : Section) : current.print.1.print.2 = current.print.2 :=
  Agree.print current.forget_print

/-! ## Other calls -/

theorem forget_addAll (current : Section) (items : List Item) :
    (current.addAll items).forget =
      current.forget.addAll (items.map (Item.reconcile fun _ => false)) := by
  simp [forget, addAll]

theorem item?_forget (current : Section) (index : Int) :
    current.forget.item? index =
      (current.item? index).map fun found => (found.1, found.2.reconcile fun _ => false) := by
  unfold item? forget
  simp only [List.length_map, List.getElem?_map]
  cases place current.items.length index with
  | none => rfl
  | some found => cases same : current.items[found]? <;> simp [same]

theorem onRegistry_none {current : Section} {index : Int} (commands : List Registry.Command)
    (absent : current.item? index = none) :
    (current.onRegistry index commands).state = current := by
  simp [onRegistry, absent, Outcome.failed]

theorem onRegistry_content {current : Section} {index : Int} {found : Nat} {item : Item}
    (commands : List Registry.Command) (present : current.item? index = some (found, item))
    (content : item.isImport = false) :
    (current.onRegistry index commands).state = current := by
  obtain ⟨kind, name, payload⟩ := item
  cases payload with
  | registry registry => cases content
  | node node => cases commands <;> simp [onRegistry, present, Outcome.failed, Outcome.done]
  | text text => cases commands <;> simp [onRegistry, present, Outcome.failed, Outcome.done]

theorem onRegistry_registry {current : Section} {index : Int} {found : Nat} {kind : ItemKind}
    {name : Text} {registry : Registry} (commands : List Registry.Command)
    (present : current.item? index = some (found, ⟨kind, name, .registry registry⟩)) :
    (current.onRegistry index commands).state =
      { current with
        items := current.items.set found
          ⟨kind, name, .registry (Outcome.run Registry.apply commands registry).state⟩ } := by
  simp [onRegistry, present]

/-! ### What calls change -/

/-- The call assigns no option. -/
def Command.keepsOptions : Command → Bool
  | .option _ _ => false
  | _ => true

theorem exists_items_onRegistry (current : Section) (index : Int)
    (commands : List Registry.Command) :
    ∃ items, (current.onRegistry index commands).state = { current with items := items } := by
  cases present : current.item? index with
  | none => exact ⟨current.items, onRegistry_none commands present⟩
  | some found =>
      obtain ⟨place, kind, name, payload⟩ := found
      cases payload with
      | registry registry => exact ⟨_, onRegistry_registry commands present⟩
      | node node => exact ⟨current.items, onRegistry_content commands present rfl⟩
      | text text => exact ⟨current.items, onRegistry_content commands present rfl⟩

theorem exists_items_print (current : Section) :
    ∃ items, current.print.1 = { current with items := items } := by
  cases printed : printContent current.content .empty with
  | error failure => exact ⟨current.items, congrArg Prod.fst (print_error printed)⟩
  | ok found => exact ⟨_, congrArg Prod.fst (print_ok printed)⟩

/-- A call that assigns no option changes nothing but the items. -/
theorem exists_items_apply (current : Section) {command : Command}
    (keeps : command.keepsOptions = true) :
    ∃ items, (current.apply command).state = { current with items := items } := by
  cases adds : command.isAddition with
  | true => exact ⟨_, apply_addition current command adds⟩
  | false =>
      cases command with
      | registry index commands => exact current.exists_items_onRegistry index commands
      | option name value => cases keeps
      | printItem index => exact ⟨current.items, rfl⟩
      | print => exact current.exists_items_print
      | _ => cases adds

/-- No call renames a section. -/
theorem name_apply (command : Command) (current : Section) :
    (current.apply command).state.name = current.name := by
  cases keeps : command.keepsOptions with
  | true =>
      obtain ⟨items, same⟩ := current.exists_items_apply keeps
      rw [same]
  | false =>
      cases command with
      | option name value => rfl
      | _ => cases keeps

theorem options_apply {command : Command} (keeps : command.keepsOptions = true)
    (current : Section) : (current.apply command).state.options = current.options := by
  obtain ⟨items, same⟩ := current.exists_items_apply keeps
  rw [same]

/-! ### Without earlier reconciliations -/

/-- Commands on a registry leave what they would leave without earlier reconciliations. -/
theorem forget_onRegistry (current : Section) (index : Int) (commands : List Registry.Command) :
    (current.onRegistry index commands).state.forget =
      (current.forget.onRegistry index commands).state.forget := by
  have shadow := current.item?_forget index
  cases present : current.item? index with
  | none =>
      rw [present] at shadow
      rw [onRegistry_none commands present, onRegistry_none commands shadow, forget_forget]
  | some found =>
      obtain ⟨place, ⟨kind, name, payload⟩⟩ := found
      rw [present] at shadow
      cases payload with
      | node node =>
          rw [onRegistry_content commands present rfl, onRegistry_content commands shadow rfl,
            forget_forget]
      | text text =>
          rw [onRegistry_content commands present rfl, onRegistry_content commands shadow rfl,
            forget_forget]
      | registry registry =>
          have agree : Registry.Agree registry registry.forget := registry.forget_forget.symm
          have states : Registry.forget _ = Registry.forget _ := (agree.run commands).1
          rw [onRegistry_registry commands present, onRegistry_registry commands shadow]
          simp only [forget, List.map_set, List.map_map, Function.comp_def,
            Item.reconcile_reconcile, Section.mk.injEq, true_and]
          exact congrArg (fun changed : Registry =>
            (current.items.map (Item.reconcile fun _ => false)).set place
              ⟨kind, name, .registry changed⟩) states

/-- What a call leaves, up to reconciliation, can be computed from the section up to
reconciliation. -/
theorem forget_apply (command : Command) (current : Section) :
    (apply command current).state.forget = (apply command current.forget).state.forget := by
  cases adds : command.isAddition with
  | true =>
      rw [apply_addition current command adds, apply_addition current.forget command adds,
        forget_addAll, forget_addAll, forget_forget]
      rfl
  | false =>
      cases command with
      | registry index commands => exact current.forget_onRegistry index commands
      | option name value =>
          change { current with options := _ }.forget = { current.forget with options := _ }.forget
          simp [forget, Function.comp_def, Item.reconcile_reconcile]
      | printItem index => exact current.forget_forget.symm
      | print =>
          change current.print.1.forget = current.forget.print.1.forget
          rw [forget_print, forget_print, forget_forget]
      | _ => cases adds

theorem Agree.apply {first second : Section} (agree : Agree first second) (command : Command) :
    Agree (apply command first).state (apply command second).state := by
  have same : first.forget = second.forget := agree
  unfold Agree
  rw [forget_apply command first, same, ← forget_apply command second]

/-! ## Runs -/

/-- The answer of a print; other calls are not asked for one. -/
def answerOf (command : Command) (current : Section) : List (Except Failure Text) :=
  match command with
  | .print => [current.print.2]
  | _ => []

/-- The answers of the prints among calls, each a text or a failure. Calls may fail. -/
def answers : List Command → Section → List (Except Failure Text)
  | [], _ => []
  | command :: commands, current =>
      answerOf command current ++ answers commands (current.apply command).state

/-- The answers of the prints among calls when there are further prints, each of them `none`, whose
answers nobody asks for. -/
def answersAmid : List (Option Command) → Section → List (Except Failure Text)
  | [], _ => []
  | none :: commands, current => answersAmid commands current.print.1
  | some command :: commands, current =>
      answerOf command current ++ answersAmid commands (current.apply command).state

theorem Agree.answerOf {first second : Section} (agree : Agree first second) (command : Command) :
    answerOf command first = answerOf command second := by
  cases command with
  | print => exact congrArg (fun text => [text]) agree.print
  | _ => rfl

theorem Agree.answersAmid {first second : Section} (agree : Agree first second)
    (commands : List (Option Command)) :
    answersAmid commands first = answers (commands.filterMap id) second := by
  induction commands generalizing first second with
  | nil => rfl
  | cons command commands ih =>
      cases command with
      | none =>
          have next : Agree first.print.1 second := first.forget_print.trans agree
          exact ih next
      | some command =>
          change Section.answerOf command first ++ _ = Section.answerOf command second ++ _
          rw [agree.answerOf command]
          exact congrArg _ (ih (agree.apply command))

/-- Printing never influences a later print: prints put anywhere into any run leave every answer
of the run as it is, and a print repeated at once gives the same answer. -/
theorem answers_eq_answersAmid :
    (∀ (commands : List (Option Command)) (current : Section),
      answersAmid commands current = answers (commands.filterMap id) current) ∧
    ∀ current : Section, current.print.1.print.2 = current.print.2 :=
  ⟨fun commands current => (Agree.refl current).answersAmid commands, print_print⟩

end Section

end TypeScriptGen
