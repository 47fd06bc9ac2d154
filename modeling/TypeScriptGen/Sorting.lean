/-!
# Sorting with a comparison that may fail

`sort` puts a list in order by a comparison that may have no answer for two
items; without an answer that it needs the sort has no result. The longest start
of the list that rises or falls is taken over as one run, and the other items
are inserted into it one after the other, each at the place that halving finds.
Items of which neither is less than the other keep their order.
-/

namespace TypeScriptGen.Sorting

variable {α : Type} (less : α → α → Option Bool)

/-- Inserts an item behind those that it is not less than, comparing it with the middle one first. -/
def insert (item : α) (sorted : List α) : Option (List α) :=
  match _split : sorted.drop (sorted.length / 2) with
  | [] => some [item]
  | middle :: back =>
      let front := sorted.take (sorted.length / 2)
      match less item middle with
      | none => none
      | some true => (insert item front).map fun found => found ++ middle :: back
      | some false => (insert item back).map fun found => front ++ middle :: found
termination_by sorted.length
decreasing_by
  all_goals
    have lengths := congrArg List.length _split
    rw [List.length_drop, List.length_cons] at lengths
  · exact Nat.lt_of_le_of_lt (List.length_take_le _ _) (by omega)
  · omega

/-- Cuts off the items that go on falling behind `last`, or that go on not falling. -/
def run (falls : Bool) (last : α) : List α → Option (List α × List α)
  | [] => some ([], [])
  | item :: items => do
      let smaller ← less item last
      if smaller = falls then
        let (found, rest) ← run falls item items
        pure (item :: found, rest)
      else pure ([], item :: items)

/-- The run at the start of a list, in rising order, and the items behind it. -/
def firstRun : List α → Option (List α × List α)
  | first :: second :: items => do
      let falls ← less second first
      let (found, rest) ← run less falls second items
      let all := first :: second :: found
      pure (if falls then all.reverse else all, rest)
  | items => some (items, [])

def sort (items : List α) : Option (List α) := do
  let (sorted, rest) ← firstRun less items
  rest.foldlM (fun sorted item => insert less item sorted) sorted

theorem insert_perm (item : α) (sorted found : List α) (done : insert less item sorted = some found) :
    found.Perm (item :: sorted) := by
  fun_induction insert less item sorted generalizing found with
  | case1 sorted split =>
      cases done
      have short := congrArg List.length split
      simp only [List.length_drop, List.length_nil] at short
      have empty : sorted = [] := List.eq_nil_of_length_eq_zero (by omega)
      simp [empty]
  | case2 => cases done
  | case3 sorted middle back split front _ ih =>
      obtain ⟨inner, same, rfl⟩ := Option.map_eq_some_iff.1 done
      have whole : front ++ middle :: back = sorted := split ▸ List.take_append_drop _ sorted
      rw [← whole]
      exact (ih inner same).append_right _
  | case4 sorted middle back split front _ ih =>
      obtain ⟨inner, same, rfl⟩ := Option.map_eq_some_iff.1 done
      have whole : front ++ middle :: back = sorted := split ▸ List.take_append_drop _ sorted
      rw [← whole]
      exact (((ih inner same).cons middle).trans (.swap item middle back)).append_left front
        |>.trans List.perm_middle

theorem run_append (falls : Bool) (last : α) (items found rest : List α)
    (done : run less falls last items = some (found, rest)) : found ++ rest = items := by
  induction items generalizing last found with
  | nil => cases done; rfl
  | cons item items ih =>
      simp only [run, Option.bind_eq_bind, Option.bind_eq_some_iff] at done
      obtain ⟨smaller, _, step⟩ := done
      split at step
      · obtain ⟨inner, same, step⟩ := Option.bind_eq_some_iff.1 step
        cases step
        rw [List.cons_append, ih item inner.1 same]
      · cases step
        rfl

theorem firstRun_perm (items found rest : List α) (done : firstRun less items = some (found, rest)) :
    (found ++ rest).Perm items := by
  match items with
  | [] => cases done; rfl
  | [item] => cases done; rfl
  | first :: second :: items =>
      simp only [firstRun, Option.bind_eq_bind, Option.bind_eq_some_iff] at done
      obtain ⟨falls, _, inner, same, step⟩ := done
      cases step
      have whole := run_append less falls second items inner.1 inner.2 same
      rw [← whole]
      cases falls
      · exact .refl _
      · exact (List.reverse_perm _).append_right _

/-- Sorting loses nothing and adds nothing. -/
theorem sort_perm (items found : List α) (done : sort less items = some found) :
    found.Perm items := by
  obtain ⟨start, begun, step⟩ := Option.bind_eq_some_iff.1 done
  refine List.Perm.trans ?_ (firstRun_perm less items start.1 start.2 begun)
  obtain ⟨sorted, rest⟩ := start
  clear begun done
  induction rest generalizing sorted with
  | nil => cases step; simp
  | cons item rest ih =>
      obtain ⟨next, inserted, step⟩ := Option.bind_eq_some_iff.1 step
      exact ((ih next step).trans ((insert_perm less item sorted next inserted).append_right rest)).trans
        List.perm_middle.symm

end TypeScriptGen.Sorting
