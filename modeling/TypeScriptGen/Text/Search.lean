import TypeScriptGen.Text.Basic

/-!
# Searching a text from left to right

A matcher looks at the character before a place and at the text from there on,
and answers what it found together with the text that follows. `collect` tries
a matcher at every place, goes on behind each match, and lists what was found.
-/

namespace TypeScriptGen.Text

abbrev Matcher (α : Type) := Option Char → Text → Option (α × Text)

/-- The search below, after the next `skip` characters, which belong to a match. -/
def collectFrom {α : Type} (matcher : Matcher α) : Nat → Option Char → Text → List α
  | _, _, [] => []
  | skip + 1, _, c :: rest => collectFrom matcher skip (some c) rest
  | 0, before, c :: rest =>
      match matcher before (c :: rest) with
      | some (found, after) =>
          found :: collectFrom matcher (rest.length - after.length) (some c) rest
      | none => collectFrom matcher 0 (some c) rest

def collect {α : Type} (matcher : Matcher α) (text : Text) : List α :=
  collectFrom matcher 0 none text

end TypeScriptGen.Text
