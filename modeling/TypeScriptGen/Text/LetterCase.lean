import TypeScriptGen.Text.LetterCaseTable
import TypeScriptGen.Text.Basic

/-!
# Letter case

The full case mappings: a character may become several. A capital sigma has two
small forms; the final one stands after a letter and before none, where
characters that carry no case of their own are looked through.
-/

namespace TypeScriptGen.Text

def Shift.apply? (shift : Shift) (code : Nat) : Option Nat :=
  if shift.first ≤ code && code ≤ shift.last && (code - shift.first) % shift.step == 0 then
    some (Int.toNat (code + shift.offset))
  else none

def shiftBy (shifts : List Shift) (c : Char) : Char :=
  match shifts.findSome? (fun shift => shift.apply? c.toNat) with
  | some code => Char.ofNat code
  | none => c

def lowerChar (c : Char) : Text :=
  if c.toNat < 128 then [c.toLower]
  else if c.toNat == 0x130 then ['i', Char.ofNat 0x307]
  else [shiftBy lowerShifts c]

def titleChar (c : Char) : Text :=
  if c.toNat < 128 then [c.toUpper]
  else
    match titleSequences.lookup c.toNat with
    | some codes => codes.map Char.ofNat
    | none => [shiftBy titleShifts c]

def isCased (c : Char) : Bool := inRanges casedRanges c.toNat

def isCaseIgnorable (c : Char) : Bool := inRanges caseIgnorableRanges c.toNat

/-- The nearest character that is not looked through has a case. -/
def startsCased (text : Text) : Bool :=
  match text.dropWhile isCaseIgnorable with
  | c :: _ => isCased c
  | [] => false

/-- The small form of a capital sigma; `before` lists the preceding text backwards. -/
def smallSigma (before after : Text) : Char :=
  if startsCased before && !startsCased after then 'ς' else 'σ'

def lowerAfter (before : Text) : Text → Text
  | [] => []
  | c :: rest =>
      (if c = 'Σ' then [smallSigma before rest] else lowerChar c) ++ lowerAfter (c :: before) rest

def lower (text : Text) : Text := lowerAfter [] text

def isAscii (text : Text) : Bool := text.all fun c => c.toNat < 128

theorem code_lt_of_isAscii {c : Char} {text : Text} (ascii : isAscii text = true)
    (member : c ∈ text) : c.toNat < 128 :=
  of_decide_eq_true (List.all_eq_true.mp ascii c member)

theorem lowerAfter_eq_map (before text : Text) (ascii : isAscii text = true) :
    lowerAfter before text = text.map Char.toLower := by
  induction text generalizing before with
  | nil => rfl
  | cons c rest ih =>
      simp only [isAscii, List.all_cons, Bool.and_eq_true, decide_eq_true_eq] at ascii
      have plain : c ≠ 'Σ' := by
        rintro rfl
        exact absurd ascii.1 (by decide)
      rw [lowerAfter, if_neg plain, lowerChar, if_pos ascii.1, ih (c :: before) ascii.2]
      rfl

theorem lower_eq_map (text : Text) (ascii : isAscii text = true) :
    lower text = text.map Char.toLower :=
  lowerAfter_eq_map [] text ascii

/-- Puts the first character into title case; the others stay. -/
def capitalize : Text → Text
  | [] => []
  | c :: rest => titleChar c ++ rest

end TypeScriptGen.Text
