import TypeScriptGen.Value.Basic

/-!
# Order of values

Numbers and truth values are ordered by size, texts by their characters, moments
by their instants if both or neither have an offset, and lists and tuples by
their first difference. Other pairs of values cannot be compared.
-/

namespace TypeScriptGen.Value

/-- A number on the line that ends in two infinities. -/
inductive Size
  | below
  | finite (numerator : Int) (denominator : Nat)
  | above
  | undefined

def size? (value : Value) : Option Size :=
  match value with
  | .float number =>
      if number.isNaN then some .undefined
      else
        match ratio value with
        | some (top, bottom) => some (.finite top bottom)
        | none => some (if number.isNegative then .below else .above)
  | _ => (ratio value).map fun (top, bottom) => .finite top bottom

def Size.less : Size → Size → Bool
  | .undefined, _ => false
  | _, .undefined => false
  | .below, .below => false
  | .below, _ => true
  | .finite a b, .finite c d => a * d < c * b
  | .finite _ _, .above => true
  | _, _ => false

mutual

/-- Whether the first value comes before the second; there is no answer for values that cannot
be compared. -/
def less? (first second : Value) : Option Bool :=
  match first, second with
  | .text a, .text b => some (a < b)
  | .text a, .ragged b => some (a.map Char.toNat < b.codes)
  | .ragged a, .text b => some (a.codes < b.map Char.toNat)
  | .ragged a, .ragged b => some (a.codes < b.codes)
  | .moment a, .moment b =>
      if a.offset.isSome == b.offset.isSome then some (a.instant < b.instant) else none
  | .list a, .list b => lessAll? a b
  | .tuple a, .tuple b => lessAll? a b
  | a, b =>
      match size? a, size? b with
      | some a, some b => some (a.less b)
      | _, _ => none

def lessAll? : List Value → List Value → Option Bool
  | _, [] => some false
  | [], _ :: _ => some true
  | a :: as, b :: bs => if same a b then lessAll? as bs else less? a b

end

end TypeScriptGen.Value
