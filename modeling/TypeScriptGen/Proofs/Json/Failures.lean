import TypeScriptGen.Json.Writer

/-!
# What keeps values from being written

Whether a value is written as a whole does not depend on where it stands. Writing
fails at the first of its parts that has no written form: a whole number that is
too long, a key of another kind, or a ragged text, for no file holds a surrogate.
-/

namespace TypeScriptGen

namespace Value

mutual

/-- A text in the value, or the value itself, is ragged. -/
def holdsRagged : Value → Bool
  | .ragged _ => true
  | .list items => anyRagged items
  | .tuple items => anyRagged items
  | .table entries => entryRagged entries
  | _ => false

def anyRagged : List Value → Bool
  | [] => false
  | item :: items => holdsRagged item || anyRagged items

def entryRagged : List (Value × Value) → Bool
  | [] => false
  | (key, value) :: entries => holdsRagged key || holdsRagged value || entryRagged entries

end

theorem entryRagged_append (first second : List (Value × Value)) :
    entryRagged (first ++ second) = (entryRagged first || entryRagged second) := by
  induction first with
  | nil => rfl
  | cons entry first ih =>
      obtain ⟨key, value⟩ := entry
      rw [List.cons_append, entryRagged, entryRagged, ih, Bool.or_assoc _ _ (entryRagged second)]

theorem entryRagged_eq_false_iff {entries : List (Value × Value)} :
    entryRagged entries = false ↔
      ∀ entry ∈ entries, holdsRagged entry.1 = false ∧ holdsRagged entry.2 = false := by
  induction entries with
  | nil => exact ⟨fun _ => nofun, fun _ => rfl⟩
  | cons entry entries ih =>
      obtain ⟨key, value⟩ := entry
      rw [entryRagged, Bool.or_eq_false_iff, Bool.or_eq_false_iff, ih, List.forall_mem_cons]

end Value

namespace Json

/-! ## The first failure -/

def keyFailure (key : Value) : Option Failure :=
  match keyText key with
  | .ok _ => none
  | .error failure => some failure

mutual

/-- What writing a value fails at. -/
def writeFailure : Value → Option Failure
  | .int number => if Decimal.isOversize number then some .oversize else none
  | .ragged _ => some .unencodable
  | .list items => itemFailure items
  | .tuple items => itemFailure items
  | .table entries => entryFailure entries
  | _ => none

def itemFailure : List Value → Option Failure
  | [] => none
  | item :: items => (writeFailure item).or (itemFailure items)

def entryFailure : List (Value × Value) → Option Failure
  | [] => none
  | (key, value) :: entries =>
      (keyFailure key).or ((writeFailure value).or (entryFailure entries))

end

theorem isOk_keyText {key : Value} (written : keyFailure key = none) :
    (keyText key).isOk = true := by
  unfold keyFailure at written
  cases named : keyText key with
  | ok name => rfl
  | error failure =>
      rw [named] at written
      cases written

/-- A number is written as a key if it is written as a value. -/
theorem keyFailure_int (number : Int) : keyFailure (.int number) = writeFailure (.int number) := by
  rw [keyFailure, keyText, writeFailure]
  cases Decimal.isOversize number <;> rfl

theorem Output.failure_andThen (first second : Output) :
    (first.andThen second).failure = first.failure.or second.failure := by
  unfold andThen
  cases own : first.failure with
  | none => rfl
  | some failure => exact own

theorem Output.failure_ofText_andThen (text : Text) (second : Output) :
    ((ofText text).andThen second).failure = second.failure := rfl

theorem failure_refuseKey (lead : Text) (failure : Failure) :
    (refuseKey lead failure).failure = some failure := by
  cases failure <;> rfl

mutual

/-- The failure is the same at every level, and behind every text. -/
theorem failure_writeValue (level : Nat) (lead : Text) :
    ∀ value, (writeValue level lead value).failure = writeFailure value
  | .null | .bool true | .bool false | .float _ | .text _ | .ragged _ | .moment _ | .node _ => rfl
  | .int number => by
      rw [writeValue, writeFailure, leadNumber]
      split <;> rfl
  | .list items => failure_writeItems level items
  | .tuple items => failure_writeItems level items
  | .table entries => failure_writeEntries level entries

theorem failure_writeItems (level : Nat) :
    ∀ items, (writeItems level items).failure = itemFailure items
  | [] => rfl
  | item :: items => by
      rw [writeItems, Output.failure_andThen, failure_writeValue (level + 1) _ item,
        failure_writeMoreItems level items, itemFailure]

theorem failure_writeMoreItems (level : Nat) :
    ∀ items, (writeMoreItems level items).failure = itemFailure items
  | [] => rfl
  | item :: items => by
      rw [writeMoreItems, Output.failure_andThen, failure_writeValue (level + 1) _ item,
        failure_writeMoreItems level items, itemFailure]

theorem failure_writeEntries (level : Nat) :
    ∀ entries, (writeEntries level entries).failure = entryFailure entries
  | [] => rfl
  | (key, value) :: entries => by
      rw [writeEntries, Output.failure_ofText_andThen, entryFailure, keyFailure]
      cases keyText key with
      | error failure => rfl
      | ok text =>
          dsimp only
          rw [Output.failure_andThen, Output.failure_ofText_andThen,
            failure_writeValue (level + 1) [] value, failure_writeMoreEntries level entries,
            Option.none_or]

theorem failure_writeMoreEntries (level : Nat) :
    ∀ entries, (writeMoreEntries level entries).failure = entryFailure entries
  | [] => rfl
  | (key, value) :: entries => by
      rw [writeMoreEntries, entryFailure, keyFailure]
      cases keyText key with
      | error failure => exact failure_refuseKey _ failure
      | ok text =>
          dsimp only
          rw [Output.failure_andThen, Output.failure_ofText_andThen,
            failure_writeValue (level + 1) [] value, failure_writeMoreEntries level entries,
            Option.none_or]

end

/-! ## Kinds of failures -/

/-- A whole number that is too long, a key of another kind and a ragged text are all that writing
fails at. -/
def Unwritable (failure : Failure) : Prop :=
  failure = .oversize ∨ failure = .wrongKind ∨ failure = .unencodable

theorem unwritable_of_intFailure {number : Int} {failure : Failure}
    (failed : writeFailure (.int number) = some failure) : Unwritable failure := by
  rw [writeFailure] at failed
  split at failed
  · exact .inl (Option.some.inj failed).symm
  · cases failed

theorem unwritable_of_keyFailure {key : Value} {failure : Failure}
    (failed : keyFailure key = some failure) : Unwritable failure := by
  cases key with
  | int number =>
      rw [keyFailure_int] at failed
      exact unwritable_of_intFailure failed
  | bool flag => cases flag <;> cases failed
  | ragged content => exact .inr (.inr (Option.some.inj failed).symm)
  | null | text _ | float _ => cases failed
  | _ => exact .inr (.inl (Option.some.inj failed).symm)

theorem unwritable_of_or {first second : Option Failure} {failure : Failure}
    (failed : first.or second = some failure)
    (own : first = some failure → Unwritable failure)
    (behind : second = some failure → Unwritable failure) : Unwritable failure := by
  rcases Option.or_eq_some_iff.mp failed with earlier | ⟨-, later⟩
  · exact own earlier
  · exact behind later

mutual

theorem unwritable_of_writeFailure {failure : Failure} :
    ∀ value, writeFailure value = some failure → Unwritable failure
  | .null | .bool _ | .float _ | .text _ | .moment _ | .node _ => nofun
  | .ragged _ => fun failed => .inr (.inr (Option.some.inj failed).symm)
  | .int _ => unwritable_of_intFailure
  | .list items => unwritable_of_itemFailure items
  | .tuple items => unwritable_of_itemFailure items
  | .table entries => unwritable_of_entryFailure entries

theorem unwritable_of_itemFailure {failure : Failure} :
    ∀ items, itemFailure items = some failure → Unwritable failure
  | [] => nofun
  | item :: items => fun failed =>
      unwritable_of_or failed (unwritable_of_writeFailure item) (unwritable_of_itemFailure items)

theorem unwritable_of_entryFailure {failure : Failure} :
    ∀ entries, entryFailure entries = some failure → Unwritable failure
  | [] => nofun
  | (_, value) :: entries => fun failed =>
      unwritable_of_or failed unwritable_of_keyFailure fun behind =>
        unwritable_of_or behind (unwritable_of_writeFailure value)
          (unwritable_of_entryFailure entries)

end

end Json

end TypeScriptGen
