import TypeScriptGen.Timestamp

/-!
# Outcomes of commands

Whatever is built is built by commands, given as data. A command leaves a state
behind, may warn, and either succeeds, perhaps with a text, or fails. A list of
commands runs up to the first failure, and what was done before it stays.
-/

namespace TypeScriptGen

structure Outcome (σ : Type) where
  state : σ
  warnings : List Warning
  result : Except Failure (Option Text)

namespace Outcome

variable {σ τ κ : Type}

def done (state : σ) : Outcome σ := ⟨state, [], .ok none⟩

def failed (state : σ) (failure : Failure) : Outcome σ := ⟨state, [], .error failure⟩

/-- The outcome of a command that only asks for a text. -/
def answered (state : σ) (text : Except Failure Text) : Outcome σ := ⟨state, [], text.map some⟩

/-- The outcome of a command that leaves the old state when it fails. -/
def ofExcept (old : σ) : Except Failure (σ × Option Text) → Outcome σ
  | .ok (state, text) => ⟨state, [], .ok text⟩
  | .error failure => failed old failure

def run (apply : κ → σ → Outcome σ) : List κ → σ → Outcome σ
  | [], state => done state
  | command :: commands, state =>
      let first := apply command state
      match first.result with
      | .error failure => ⟨first.state, first.warnings, .error failure⟩
      | .ok _ =>
          let rest := run apply commands first.state
          ⟨rest.state, first.warnings ++ rest.warnings, rest.result⟩

/-- Uses what commands made of a fresh part; a part that failed is dropped. -/
def embed (old : σ) (part : Outcome τ) (use : τ → Except Failure σ) : Outcome σ :=
  match part.result with
  | .error failure => ⟨old, part.warnings, .error failure⟩
  | .ok _ =>
      match use part.state with
      | .error failure => ⟨old, part.warnings, .error failure⟩
      | .ok state => ⟨state, part.warnings, .ok none⟩

end Outcome

end TypeScriptGen
