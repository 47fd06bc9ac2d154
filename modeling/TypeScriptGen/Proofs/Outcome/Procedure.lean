import TypeScriptGen.Outcome

/-!
# Procedures on a receiver

A procedure works on its receiver in place. Where it fails, whatever it did to the
receiver before stays done, as do the warnings. A callback is a procedure on the
fresh object that it is handed; it cannot touch the receiver of the call that
hands it out. A procedure that only reads before its one change is atomic: when it
fails, the receiver is as it was.
-/

namespace TypeScriptGen

/-- What a procedure leaves: the receiver also where the procedure fails. -/
structure Trial (σ α : Type) where
  state : σ
  warnings : List Warning
  result : Except Failure α

def Procedure (σ α : Type) : Type := σ → Trial σ α

namespace Procedure

variable {σ τ κ α β : Type}

/-- Goes on with what a procedure left, unless it failed. -/
def andThen (first : Procedure σ α) (next : α → Procedure σ β) : Procedure σ β := fun state =>
  let trial := first state
  match trial.result with
  | .error failure => ⟨trial.state, trial.warnings, .error failure⟩
  | .ok found =>
      let rest := next found trial.state
      ⟨rest.state, trial.warnings ++ rest.warnings, rest.result⟩

instance : Monad (Procedure σ) where
  pure found := fun state => ⟨state, [], .ok found⟩
  bind := andThen

/-- Reads the receiver. -/
def look : Procedure σ σ := fun state => ⟨state, [], .ok state⟩

/-- Changes the receiver. -/
def update (change : σ → σ) : Procedure σ Unit := fun state => ⟨change state, [], .ok ()⟩

/-- A computation that may fail and has nothing to do with the receiver. -/
def compute (computed : Except Failure α) : Procedure σ α := fun state => ⟨state, [], computed⟩

/-- Hands a fresh object to a callback and takes what it made of it. -/
def hand (fresh : τ) (callback : Procedure τ Unit) : Procedure σ τ := fun state =>
  let trial := callback fresh
  ⟨state, trial.warnings, trial.result.map fun _ => trial.state⟩

/-- Hands out a fresh object and adds what the callback made of it. -/
def take (fresh : τ) (callback : Procedure τ Unit) (add : τ → σ → σ) : Procedure σ Unit := do
  let part ← hand fresh callback
  update (add part)

/-- Calls in turn, up to the first that fails. -/
def calls (apply : κ → σ → Outcome σ) (commands : List κ) : Procedure σ Unit := fun state =>
  let outcome := Outcome.run apply commands state
  ⟨outcome.state, outcome.warnings, outcome.result.map fun _ => ()⟩

/-- The outcome of a call that returns no text. -/
def outcome (procedure : Procedure σ Unit) (state : σ) : Outcome σ :=
  let trial := procedure state
  ⟨trial.state, trial.warnings, trial.result.map fun _ => none⟩

/-! ## Atomic procedures -/

/-- The procedure changes nothing. -/
def Reads (procedure : Procedure σ α) : Prop := ∀ state, (procedure state).state = state

/-- Where the procedure fails, it changed nothing. -/
def Atomic (procedure : Procedure σ α) : Prop :=
  ∀ state failure, (procedure state).result = .error failure → (procedure state).state = state

theorem Atomic.outcome_state {procedure : Procedure σ Unit} (atomic : procedure.Atomic) {state : σ}
    {failure : Failure} (fails : (procedure.outcome state).result = .error failure) :
    (procedure.outcome state).state = state := by
  cases result : (procedure state).result with
  | error other => exact atomic state other result
  | ok done =>
      change (procedure state).result.map _ = _ at fails
      rw [result] at fails
      cases fails

theorem reads_look : (look : Procedure σ σ).Reads := fun _ => rfl

theorem reads_compute (computed : Except Failure α) : (compute computed : Procedure σ α).Reads :=
  fun _ => rfl

theorem reads_hand (fresh : τ) (callback : Procedure τ Unit) :
    (hand fresh callback : Procedure σ τ).Reads := fun _ => rfl

theorem atomic_update (change : σ → σ) : (update change).Atomic := by
  intro state failure fails
  cases fails

/-- Reading first keeps what follows atomic. -/
theorem Reads.bind {first : Procedure σ α} {next : α → Procedure σ β} (reads : first.Reads)
    (atomic : ∀ found, (next found).Atomic) : (first >>= next).Atomic := by
  intro state failure fails
  have same : (first state).state = state := reads state
  change (andThen first next state).result = _ at fails
  change (andThen first next state).state = state
  unfold andThen at fails ⊢
  cases result : (first state).result with
  | error other =>
      simp only [result]
      exact same
  | ok found =>
      simp only [result, same] at fails ⊢
      exact atomic found state failure fails

/-- What the callback does to the part that it is handed does not reach the receiver. -/
theorem atomic_take (fresh : τ) (callback : Procedure τ Unit) (add : τ → σ → σ) :
    (take fresh callback add).Atomic :=
  (reads_hand fresh callback).bind fun part => atomic_update (add part)

/-! ## Calls as procedures -/

theorem outcome_look (next : σ → Procedure σ Unit) (old : σ) :
    (look >>= next).outcome old = (next old).outcome old := rfl

/-- Computing something and going on with it. -/
theorem outcome_compute (computed : Except Failure α) (next : α → Procedure σ Unit) (old : σ) :
    (compute computed >>= next).outcome old =
      match computed with
      | .error failure => .failed old failure
      | .ok found => (next found).outcome old := by
  cases computed with
  | error failure => rfl
  | ok found => rfl

theorem ofExcept_eq (computed : Except Failure α) (add : α → σ → σ) (old : σ) :
    Outcome.ofExcept old (do
      let part ← computed
      pure (add part old, none)) =
      (compute computed >>= fun part => update (add part)).outcome old := by
  cases computed with
  | error failure => rfl
  | ok part => rfl

/-- What commands make of a fresh part is added as if a callback had made it. -/
theorem embed_eq (apply : κ → τ → Outcome τ) (commands : List κ) (fresh : τ) (add : τ → σ → σ)
    (old : σ) :
    Outcome.embed old (Outcome.run apply commands fresh) (fun part => .ok (add part old)) =
      (take fresh (calls apply commands) add).outcome old := by
  change _ = outcome (andThen _ _) old
  unfold outcome andThen hand calls
  generalize Outcome.run apply commands fresh = ran
  obtain ⟨part, warnings, result⟩ := ran
  cases result with
  | error failure => rfl
  | ok text =>
      change (⟨add part old, warnings, .ok none⟩ : Outcome σ) =
        ⟨add part old, warnings ++ [], .ok none⟩
      rw [List.append_nil]

section Steps

variable {step : σ → κ → Except Failure (σ × Option Text)}
  {steps : σ → List κ → Except Failure σ}

/-- Commands that leave the old state when they fail run as steps do, up to the failure. -/
theorem run_ofExcept (nil : ∀ draft, steps draft [] = .ok draft)
    (cons : ∀ draft command commands, steps draft (command :: commands) = do
      let (next, _) ← step draft command
      steps next commands)
    (commands : List κ) (draft : σ) :
    let ran :=
      Outcome.run (fun command draft => .ofExcept draft (step draft command)) commands draft
    ran.warnings = [] ∧ (ran.result.map fun _ => ran.state) = steps draft commands := by
  -- where a step fails, the run keeps the draft so far, which the steps drop
  induction commands generalizing draft with
  | nil => exact ⟨rfl, (nil draft).symm⟩
  | cons command commands ih =>
      rw [cons, Outcome.run]
      cases made : step draft command with
      | error failure => exact ⟨rfl, rfl⟩
      | ok pair => exact ih pair.1

/-- Handing out a fresh draft for some calls is computing their steps. -/
theorem hand_calls (nil : ∀ draft, steps draft [] = .ok draft)
    (cons : ∀ draft command commands, steps draft (command :: commands) = do
      let (next, _) ← step draft command
      steps next commands)
    (commands : List κ) (fresh : σ) :
    (hand fresh (calls (fun command draft => .ofExcept draft (step draft command)) commands) :
      Procedure τ σ) = compute (steps fresh commands) := by
  have runs := run_ofExcept nil cons commands fresh
  funext state
  unfold hand calls compute
  generalize Outcome.run _ commands fresh = ran at runs ⊢
  obtain ⟨part, warnings, result⟩ := ran
  obtain ⟨rfl, same⟩ := runs
  rw [← same]
  cases result <;> rfl

end Steps

end Procedure

end TypeScriptGen
