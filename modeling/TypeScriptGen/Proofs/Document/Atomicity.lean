import TypeScriptGen.Proofs.Document.Call

/-!
# A call that fails leaves its receiver alone

Every call that takes a part looks at its receiver, hands a fresh object out and
computes; only its last step changes the receiver, and that step cannot fail. So
where the callback fails, or the part lacks something, the receiver is as it was,
whatever the callback had done to its own object by then.
-/

namespace TypeScriptGen

open Procedure (atomic_take atomic_update reads_compute reads_hand reads_look)

namespace Call

theorem atomic_takeStatement {σ : Type} (form : StatementForm)
    (callback : Procedure form.Draft Unit) (add : Node → σ → σ) :
    (takeStatement form callback add).Atomic := by
  refine (reads_hand form.empty callback).bind fun draft => ?_
  exact (reads_compute (form.node draft)).bind fun node => atomic_update (add node)

theorem atomic_perform {receiver : Receiver} (call : Call receiver) : call.perform.Atomic := by
  cases call with
  | addSection name source overrides callback =>
      refine reads_look.bind fun document => ?_
      exact (reads_compute _).bind fun options => atomic_take _ callback _
  | interface name callback => exact reads_look.bind fun current => atomic_take _ callback _
  | typeText name text exported comment =>
      refine reads_look.bind fun current => ?_
      exact (reads_compute _).bind fun lines => atomic_update _
  | type name exported comment callback =>
      refine reads_look.bind fun current => ?_
      exact (reads_compute _).bind fun fresh => atomic_take fresh callback _
  | enumeration name constant callback =>
      exact reads_look.bind fun current => atomic_take _ callback _
  | object name exported constant comment callback =>
      refine reads_look.bind fun current => (reads_compute _).bind fun fresh => ?_
      refine (reads_hand fresh callback).bind fun draft => ?_
      exact (reads_compute draft.print).bind fun text => atomic_update _
  | imports module includeUnused typeOnly callback => exact atomic_take _ callback _
  | statement form callback => exact atomic_takeStatement form callback _
  | nestedStatement form callback => exact atomic_takeStatement form callback _
  | thenBody callback => exact atomic_take _ callback _
  | elseIf condition callback => exact atomic_take _ callback _
  | otherwise callback => exact atomic_take _ callback _
  | case label callback => exact atomic_take _ callback _
  | defaultCase callback => exact atomic_take _ callback _
  | forBody callback => exact atomic_take _ callback _
  | loopBody kind callback => exact atomic_take _ callback _
  | nestedObject key readonly callback => exact atomic_take _ callback _

end Call

namespace Receiver

variable {receiver : Receiver}

/-- A command that takes a part changes nothing when it fails. -/
theorem apply_failed {command : receiver.Command}
    (takes : (receiver.call? command).isSome = true) {state : receiver.State} {failure : Failure}
    (fails : (receiver.apply command state).result = .error failure) :
    (receiver.apply command state).state = state := by
  obtain ⟨call, makes⟩ := Option.isSome_iff_exists.mp takes
  rw [apply_eq_perform makes] at fails ⊢
  exact call.atomic_perform.outcome_state fails

/-- What commands leave when the caller goes on behind those that fail. -/
def persist (receiver : Receiver) (commands : List receiver.Command) (state : receiver.State) :
    receiver.State :=
  commands.foldl (fun state command => (receiver.apply command state).state) state

/-- Failed calls leave no trace: a caller that goes on behind them comes to where a run of some of
the calls comes that does not fail. -/
theorem exists_run_eq_persist (commands : List receiver.Command)
    (take : ∀ command ∈ commands, (receiver.call? command).isSome = true)
    (state : receiver.State) :
    ∃ succeeding, succeeding.Sublist commands ∧
      (Outcome.run receiver.apply succeeding state).result = .ok none ∧
      (Outcome.run receiver.apply succeeding state).state = receiver.persist commands state := by
  induction commands generalizing state with
  | nil => exact ⟨[], .slnil, rfl, rfl⟩
  | cons command commands ih =>
      have later := fun other among => take other (List.mem_cons_of_mem command among)
      obtain ⟨succeeding, among, fine, same⟩ := ih later (receiver.apply command state).state
      cases result : (receiver.apply command state).result with
      | error failure =>
          -- the call is left out: the others start from the same state without it
          have stays := apply_failed (take command List.mem_cons_self) result
          refine ⟨succeeding, among.cons command, ?_, ?_⟩
          · rw [← stays]
            exact fine
          · change _ = receiver.persist commands (receiver.apply command state).state
            rw [← same, stays]
      | ok text =>
          refine ⟨command :: succeeding, among.cons_cons command, ?_, ?_⟩
          · rw [Outcome.run]
            simp only [result]
            exact fine
          · rw [Outcome.run]
            simp only [result]
            exact same

/-- Whatever the callback of a call does to the object that it is handed, a call that fails leaves
its receiver as it was, and so the text that it gives next; and each command for such a call does
just that. -/
theorem failed_call_changes_nothing (call : Call receiver) (state : receiver.State) :
    (∀ failure, (call.perform.outcome state).result = .error failure →
      (call.perform.outcome state).state = state ∧
        receiver.text (call.perform.outcome state).state = receiver.text state) ∧
    ∀ command, receiver.call? command = some call →
      receiver.apply command state = call.perform.outcome state := by
  constructor
  · intro failure fails
    have same := call.atomic_perform.outcome_state fails
    exact ⟨same, congrArg receiver.text same⟩
  · intro command makes
    exact apply_eq_perform makes state

/-- A loop without a condition, inside the block of a conditional that has got its own. -/
theorem failed_conditional_changes_nothing :
    let current := (Section.start "Main".toList .standard).add .object "o".toList (.text "o".toList)
    let inner : List ConditionalCommand :=
      [.condition "ready".toList,
        .body [.statement "run()".toList, .loop .whileLoop [.body [.statement "wait()".toList]]]]
    let failed := current.apply (.conditional inner)
    (Outcome.run ConditionalDraft.apply inner .empty).state.condition = "ready".toList ∧
      failed.result = .error (.builder .whileCondition) ∧ failed.state = current ∧
      failed.state.print.2 = current.print.2 := by
  intro current inner failed
  have result : failed.result = .error (.builder .whileCondition) := by rfl
  obtain ⟨keeps, does⟩ := failed_call_changes_nothing
    (.statement .conditional (Procedure.calls ConditionalDraft.apply inner)) current
  have same : failed = _ := does (.conditional inner) rfl
  rw [same] at result ⊢
  obtain ⟨state, text⟩ := keeps _ result
  exact ⟨by rfl, result, state, text⟩

end Receiver

end TypeScriptGen
