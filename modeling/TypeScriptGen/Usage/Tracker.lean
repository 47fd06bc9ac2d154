import TypeScriptGen.Failure
import TypeScriptGen.Usage.Names

/-!
# Usage tracker

The set of names that the code of one section uses. Fragments of code are
scanned into it until it is frozen; a reset empties it and thaws it. The nodes of
a tree are visited one after the other, from a stack of those that are left.
-/

namespace TypeScriptGen.Usage

/-- What can be scanned: a node, free text, a collection of fragments, or something without code. -/
inductive Fragment
  | node (node : Node)
  | code (text : Text)
  | many (fragments : List Fragment)
  | other

mutual

/-- What a value gives to scan: a text is code, a list or tuple gives its items, and a table its
keys. -/
def Fragment.ofValue : Value → Fragment
  | .text content => .code content
  | .ragged content => .code content.shown
  | .node root => .node root
  | .list items => .many (Fragment.ofItems items)
  | .tuple items => .many (Fragment.ofItems items)
  | .table entries => .many (Fragment.ofKeys entries)
  | _ => .other

def Fragment.ofItems : List Value → List Fragment
  | [] => []
  | item :: items => Fragment.ofValue item :: Fragment.ofItems items

def Fragment.ofKeys : List (Value × Value) → List Fragment
  | [] => []
  | (key, _) :: entries => Fragment.ofValue key :: Fragment.ofKeys entries

end

structure Tracker where
  names : List Text
  frozen : Bool

namespace Tracker

def empty : Tracker := ⟨[], false⟩

def record (tracker : Tracker) (name : Text) : Tracker :=
  { tracker with names := tracker.names.insert name }

def recordAll (tracker : Tracker) (names : List Text) : Tracker := names.foldl record tracker

theorem mem_record (tracker : Tracker) (name other : Text) :
    other ∈ (tracker.record name).names ↔ other = name ∨ other ∈ tracker.names := by
  simp [record]

theorem mem_recordAll (tracker : Tracker) (names : List Text) (other : Text) :
    other ∈ (tracker.recordAll names).names ↔ other ∈ names ∨ other ∈ tracker.names := by
  induction names generalizing tracker with
  | nil => simp [recordAll]
  | cons name names ih =>
      have step := ih (tracker.record name)
      simp only [recordAll, List.foldl_cons] at step ⊢
      rw [step, mem_record, List.mem_cons]
      exact ⟨fun h => h.elim (.inl ∘ .inr) (·.elim (.inl ∘ .inl) .inr),
        fun h => h.elim (·.elim (.inr ∘ .inl) .inl) (.inr ∘ .inr)⟩

theorem recordAll_frozen (tracker : Tracker) (names : List Text) :
    (tracker.recordAll names).frozen = tracker.frozen := by
  induction names generalizing tracker with
  | nil => rfl
  | cons name names ih => exact ih (tracker.record name)

def isUsed (tracker : Tracker) (name : Text) : Bool := tracker.names.contains name

end Tracker

/-- A walk under way: the tracker, and the nodes that are left to visit, the next one first. -/
structure Walk where
  tracker : Tracker
  stack : List Node

/-- Visits nodes until none is left, but at most so many: the names of a node are recorded, and its
children take its place, the last one first. A placeholder ends the walk. -/
def Walk.run : Nat → Walk → Walk × Except Failure Unit
  | 0, walk => (walk, .ok ())
  | visits + 1, walk =>
      match walk.stack with
      | [] => (walk, .ok ())
      | node :: stack =>
          let tracker := walk.tracker.recordAll (ownNames node)
          match node.children? with
          | none => (⟨tracker, stack⟩, .error .wrongKind)
          | some children => run visits ⟨tracker, children.reverse ++ stack⟩

namespace Tracker

mutual

/-- Scans a fragment; what was found before a failure stays. A walk visits each node once, so it
needs no more visits than there are nodes. -/
def scan (tracker : Tracker) : Fragment → Tracker × Except Failure Unit
  | .node node =>
      if tracker.frozen then (tracker, .error .frozen)
      else
        let done := Walk.run node.walk.length ⟨tracker, [node]⟩
        (done.1.tracker, done.2)
  | .code text =>
      if tracker.frozen then (tracker, .error .frozen)
      else (tracker.recordAll (namesInCode text), .ok ())
  | .many fragments =>
      if tracker.frozen then (tracker, .error .frozen) else scanAll tracker fragments
  | .other => if tracker.frozen then (tracker, .error .frozen) else (tracker, .ok ())

def scanAll (tracker : Tracker) : List Fragment → Tracker × Except Failure Unit
  | [] => (tracker, .ok ())
  | fragment :: fragments =>
      match scan tracker fragment with
      | (next, .ok ()) => scanAll next fragments
      | stopped => stopped

end

def freeze (tracker : Tracker) : Tracker := { tracker with frozen := true }

/-- Forgets everything. -/
def reset (_ : Tracker) : Tracker := empty

/-- The names in rising order of their characters. -/
def sortedNames (tracker : Tracker) : List Text := tracker.names.mergeSort fun a b => !(b < a)

/-- Looks a value up among the names; only a value that can be a key may be looked up. -/
def containsValue (tracker : Tracker) (value : Value) : Except Failure Bool :=
  if !value.isHashable then .error .wrongKind
  else
    match value with
    | .text content => .ok (tracker.isUsed content)
    | _ => .ok false

end Tracker

/-! ## Requests -/

/-- What is asked of a tracker. -/
inductive Request
  | scan (fragment : Fragment)
  | freeze
  | reset
  | isUsed (name : Text)
  | contains (value : Value)

namespace Tracker

/-- The tracker behind a request, and the answer if the request is a question. -/
def serve (tracker : Tracker) : Request → Tracker × Except Failure (Option Bool)
  | .scan fragment =>
      let (next, result) := tracker.scan fragment
      (next, result.map fun _ => none)
  | .freeze => (tracker.freeze, .ok none)
  | .reset => (tracker.reset, .ok none)
  | .isUsed name => (tracker, .ok (some (tracker.isUsed name)))
  | .contains value => (tracker, (tracker.containsValue value).map some)

/-- The tracker behind some requests; one that fails does not keep the next from being served. -/
def after (tracker : Tracker) (requests : List Request) : Tracker :=
  requests.foldl (fun tracker request => (tracker.serve request).1) tracker

end Tracker

end TypeScriptGen.Usage
