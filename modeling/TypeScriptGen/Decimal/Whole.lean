import TypeScriptGen.Text.Basic

/-!
# Whole numbers in decimal

The digits of an integer, with a minus sign in front of a negative one. Numbers
of more than `digitLimit` digits have no written form. Reading digits is a fold,
in which `tenTo` weighs what stands in front.
-/

namespace TypeScriptGen.Decimal

def digits (number : Nat) : Text := Nat.toDigits 10 number

def wholeText : Int → Text
  | .ofNat number => digits number
  | .negSucc number => '-' :: digits (number + 1)

theorem wholeText_natCast (number : Nat) : wholeText number = digits number := rfl

def digitLimit : Nat := 4300

/-- Ten to a power: the weight of a digit with so many places behind it. -/
def tenTo (places : Nat) : Nat := Nat.pow 10 places

theorem tenTo_succ (places : Nat) : tenTo (places + 1) = tenTo places * 10 := rfl

/-- The number has more digits than the limit allows. -/
def isOversize (number : Int) : Bool := tenTo digitLimit ≤ number.natAbs

def digitValue (c : Char) : Nat := c.toNat - 48

/-- The number that a list of digits spells, the first digit weighing most. -/
def ofDigits (text : Text) : Nat :=
  text.foldl (fun number c => 10 * number + digitValue c) 0

theorem ofDigits_append (first second : Text) :
    ofDigits (first ++ second) = ofDigits first * tenTo second.length + ofDigits second := by
  have general : ∀ (start : Nat) (text : Text),
      text.foldl (fun number c => 10 * number + digitValue c) start =
        start * tenTo text.length + ofDigits text := by
    intro start text
    induction text generalizing start with
    | nil => simp [ofDigits, tenTo]
    | cons c rest ih =>
        have step := ih (digitValue c)
        simp only [ofDigits, List.foldl_cons, List.length_cons, Nat.mul_zero, Nat.zero_add] at step ⊢
        rw [ih, step, tenTo_succ, Nat.add_mul, Nat.mul_comm 10 start, Nat.mul_assoc start,
          Nat.mul_comm 10 (tenTo rest.length)]
        simp only [ofDigits]
        omega
  rw [ofDigits, List.foldl_append, general]
  rfl

/-- A number padded with zeros on the left to the given width. -/
def padded (width number : Nat) : Text :=
  let text := digits number
  List.replicate (width - text.length) '0' ++ text

end TypeScriptGen.Decimal
