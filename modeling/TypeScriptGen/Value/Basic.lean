import TypeScriptGen.Calendar.Moment
import TypeScriptGen.Decimal.Double
import TypeScriptGen.Syntax.Record
import TypeScriptGen.Text.Point

/-!
# Values

The data that configurations, metadata, enumeration members and object
literals are given as. A table lists its entries in the order of insertion, and
no two of its keys are the same: `Table.insert` replaces the value of a key that
is there. A number equals another of the same size whatever its kind, and the
truth values count as the numbers zero and one. Tables are the same whatever the
order of their entries. A text with a surrogate that has no partner is a value of
its own kind, and a syntax node can be a value too.
-/

namespace TypeScriptGen

inductive Value
  | null
  | bool (flag : Bool)
  | int (number : Int)
  | float (number : Decimal.Double)
  | text (content : Text)
  | ragged (content : Text.Ragged)
  | list (items : List Value)
  | tuple (items : List Value)
  | table (entries : List (Value × Value))
  | moment (date : Calendar.Moment)
  | node (node : Node)

abbrev Table := List (Value × Value)

namespace Value

instance : Inhabited Value := ⟨.null⟩

/-- The text of a list of points, which is ragged if one of them is a surrogate. -/
def ofPoints (points : List Text.Point) : Value :=
  if torn : points.any Text.Point.isSurrogate = true then .ragged ⟨points, torn⟩
  else .text (points.map Text.Point.shown)

/-- The points of a text of either kind. -/
def points? : Value → Option (List Text.Point)
  | .text content => some (content.map .char)
  | .ragged content => some content.points
  | _ => none

theorem ofPoints_char (content : Text) : ofPoints (content.map .char) = .text content := by
  have whole : (content.map Text.Point.char).any Text.Point.isSurrogate = false := by
    rw [List.any_map, List.any_eq_false]
    exact fun _ _ => Bool.false_ne_true
  rw [ofPoints, dif_neg (Bool.eq_false_iff.mp whole), Text.Point.map_shown_char]

theorem points?_ofPoints (points : List Text.Point) : (ofPoints points).points? = some points := by
  unfold ofPoints
  split
  · rfl
  · next whole =>
      rw [points?, List.map_map]
      refine congrArg some ((List.map_congr_left fun point among => ?_).trans (List.map_id points))
      cases point with
      | char c => rfl
      | surrogate place => exact absurd (List.any_eq_true.mpr ⟨_, among, rfl⟩) whole

/-- A finite number as a fraction with a positive denominator. -/
def ratio : Value → Option (Int × Nat)
  | .bool flag => some (if flag then 1 else 0, 1)
  | .int number => some (number, 1)
  | .float number =>
      if number.isFinite then
        let (top, bottom) := number.fraction
        some (if number.isNegative then -(top : Int) else top, bottom)
      else none
  | _ => none

mutual

/-- Two values are the same, as keys of a table or as elements of a list. -/
def same : Value → Value → Bool
  | .null, .null => true
  | .text first, .text second => first == second
  | .ragged first, .ragged second => first == second
  | .moment first, .moment second =>
      if first.offset.isSome == second.offset.isSome then first.instant == second.instant
      else false
  | .list first, .list second => sameAll first second
  | .tuple first, .tuple second => sameAll first second
  | .table first, .table second => first.length == second.length && sameEntries first second
  | .node first, .node second => first.record.same second.record
  | first, second =>
      match ratio first, ratio second with
      | some (a, b), some (c, d) => a * d == c * b
      | none, none =>
          match first, second with
          | .float first, .float second => !first.isNaN && first.bits == second.bits
          | _, _ => false
      | _, _ => false

def sameAll : List Value → List Value → Bool
  | [], [] => true
  | first :: firsts, second :: seconds => same first second && sameAll firsts seconds
  | _, _ => false

/-- Every entry stands, with the same value, among the others. -/
def sameEntries : List (Value × Value) → List (Value × Value) → Bool
  | [], _ => true
  | (key, value) :: entries, others =>
      others.any (fun other => same key other.1 && same value other.2) &&
        sameEntries entries others

end

/-- A value that a condition takes for true: neither empty nor zero. -/
def isTruthy : Value → Bool
  | .null => false
  | .bool flag => flag
  | .int number => number != 0
  | .float number => !number.isZero
  | .text content => !content.isEmpty
  | .ragged _ => true
  | .list items => !items.isEmpty
  | .tuple items => !items.isEmpty
  | .table entries => !entries.isEmpty
  | .moment _ => true
  | .node _ => true

def isNull : Value → Bool
  | .null => true
  | _ => false

end Value

namespace Table

def get? (table : Table) (key : Value) : Option Value :=
  (table.find? fun entry => entry.1.same key).map Prod.snd

def contains (table : Table) (key : Value) : Bool := table.any fun entry => entry.1.same key

/-- Gives a key a value: in the place of the key if it is there, at the end if not. -/
def insert (table : Table) (key value : Value) : Table :=
  if contains table key then
    table.map fun entry => if entry.1.same key then (entry.1, value) else entry
  else table ++ [(key, value)]

def insertAll (table : Table) (entries : List (Value × Value)) : Table :=
  entries.foldl (fun table entry => insert table entry.1 entry.2) table

def ofList (entries : List (Value × Value)) : Table := insertAll [] entries

def erase (table : Table) (key : Value) : Table :=
  table.filter fun entry => !entry.1.same key

def keys (table : Table) : List Value := table.map Prod.fst

/-- The value of a key that is a text. -/
def field? (table : Table) (name : Text) : Option Value := get? table (.text name)

end Table

end TypeScriptGen
