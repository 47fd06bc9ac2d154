import TypeScriptGen.Sorting

/-!
# The order that a sort makes

A sort compares every item with earlier ones. Where each such comparison has an
answer and tells which of the two goes first in a transitive order, the sort
succeeds, and its result is in that order. When the places of the items decide
between equal ones, this says that the sort is stable.
-/

namespace TypeScriptGen.Sorting

variable {α : Type} {less : α → α → Option Bool} {before : α → α → Prop}

/-- Comparing an item with an earlier one tells which of the two goes first. -/
def Settles (less : α → α → Option Bool) (before : α → α → Prop) (earlier later : α) : Prop :=
  (less later earlier = some true ∧ before later earlier) ∨
    (less later earlier = some false ∧ before earlier later)

section Transitive

variable (trans : ∀ first second third : α, before first second → before second third →
  before first third)

include trans

/-- An item goes into an ordered list at its place. -/
theorem insert_ordered {item : α} {sorted : List α} (ordered : sorted.Pairwise before)
    (settled : ∀ other ∈ sorted, Settles less before other item) :
    ∃ found, insert less item sorted = some found ∧ found.Pairwise before := by
  fun_induction insert less item sorted with
  | case1 => exact ⟨[item], rfl, List.pairwise_singleton before item⟩
  | case2 sorted middle back split unanswered =>
      have among : middle ∈ sorted := List.mem_of_mem_drop (split ▸ List.mem_cons_self)
      rcases settled middle among with ⟨answered, _⟩ | ⟨answered, _⟩ <;>
        rw [unanswered] at answered <;> cases answered
  | case3 sorted middle back split front answered ih =>
      have whole : front ++ middle :: back = sorted := split ▸ List.take_append_drop _ sorted
      rw [← whole] at ordered settled
      obtain ⟨ahead, behind, across⟩ := List.pairwise_append.mp ordered
      obtain ⟨found, inserted, rises⟩ := ih ahead fun other member =>
        settled other (List.mem_append_left _ member)
      have first : before item middle := by
        rcases settled middle (by simp) with ⟨_, goes⟩ | ⟨other, _⟩
        · exact goes
        · rw [answered] at other
          cases other
      refine ⟨found ++ middle :: back, by rw [inserted]; rfl, ?_⟩
      refine List.pairwise_append.mpr ⟨rises, behind, fun a member b later => ?_⟩
      -- Everything behind the middle follows it, and so follows the item.
      rcases List.mem_cons.mp ((insert_perm less item front found inserted).mem_iff.mp member) with
        rfl | member
      · rcases List.mem_cons.mp later with rfl | later
        · exact first
        · exact trans _ _ _ first ((List.pairwise_cons.mp behind).1 b later)
      · exact across a member b later
  | case4 sorted middle back split front answered ih =>
      have whole : front ++ middle :: back = sorted := split ▸ List.take_append_drop _ sorted
      rw [← whole] at ordered settled
      obtain ⟨ahead, behind, across⟩ := List.pairwise_append.mp ordered
      obtain ⟨follow, behind⟩ := List.pairwise_cons.mp behind
      obtain ⟨found, inserted, rises⟩ := ih behind fun other member =>
        settled other (List.mem_append_right _ (List.mem_cons_of_mem middle member))
      have last : before middle item := by
        rcases settled middle (by simp) with ⟨other, _⟩ | ⟨_, goes⟩
        · rw [answered] at other
          cases other
        · exact goes
      have follows : ∀ b ∈ found, before middle b := by
        intro b member
        rcases List.mem_cons.mp ((insert_perm less item back found inserted).mem_iff.mp member) with
          rfl | member
        · exact last
        · exact follow b member
      refine ⟨front ++ middle :: found, by rw [inserted]; rfl, ?_⟩
      refine List.pairwise_append.mpr
        ⟨ahead, List.pairwise_cons.mpr ⟨follows, rises⟩, fun a member b later => ?_⟩
      have nearer : before a middle := across a member middle List.mem_cons_self
      rcases List.mem_cons.mp later with rfl | later
      · exact nearer
      · exact trans _ _ _ nearer (follows b later)

/-- Items that go on falling are in the opposite order, those that go on rising in order. -/
theorem run_ordered (falls : Bool) {last : α} {items : List α}
    (settled : (last :: items).Pairwise (Settles less before)) :
    ∃ found rest, run less falls last items = some (found, rest) ∧
      (last :: found).Pairwise fun a b => if falls then before b a else before a b := by
  induction items generalizing last with
  | nil => exact ⟨[], [], rfl, List.pairwise_singleton _ _⟩
  | cons item items ih =>
      obtain ⟨compared, settled⟩ := List.pairwise_cons.mp settled
      obtain ⟨smaller, answered, goes⟩ : ∃ smaller, less item last = some smaller ∧
          if smaller then before item last else before last item := by
        rcases compared item List.mem_cons_self with ⟨answered, goes⟩ | ⟨answered, goes⟩
        · exact ⟨true, answered, goes⟩
        · exact ⟨false, answered, goes⟩
      by_cases same : smaller = falls
      · subst same
        obtain ⟨found, rest, ran, chain⟩ := ih settled
        refine ⟨item :: found, rest, by simp [run, answered, ran], ?_⟩
        refine List.pairwise_cons.mpr ⟨fun b member => ?_, chain⟩
        rcases List.mem_cons.mp member with rfl | member
        · exact goes
        · have next := (List.pairwise_cons.mp chain).1 b member
          cases smaller
          · exact trans _ _ _ goes next
          · exact trans _ _ _ next goes
      · exact ⟨[], item :: items, by simp [run, answered, same], List.pairwise_singleton _ _⟩

/-- The first run is an ordered form of the start of the list. -/
theorem firstRun_ordered {items : List α} (settled : items.Pairwise (Settles less before)) :
    ∃ found rest front, firstRun less items = some (found, rest) ∧ front ++ rest = items ∧
      found.Perm front ∧ found.Pairwise before := by
  match items with
  | [] => exact ⟨[], [], [], rfl, rfl, .refl _, .nil⟩
  | [item] => exact ⟨[item], [], [item], rfl, rfl, .refl _, List.pairwise_singleton before item⟩
  | first :: second :: items =>
      obtain ⟨compared, settled⟩ := List.pairwise_cons.mp settled
      obtain ⟨falls, answered, goes⟩ : ∃ falls, less second first = some falls ∧
          if falls then before second first else before first second := by
        rcases compared second List.mem_cons_self with ⟨answered, goes⟩ | ⟨answered, goes⟩
        · exact ⟨true, answered, goes⟩
        · exact ⟨false, answered, goes⟩
      obtain ⟨found, rest, ran, chain⟩ := run_ordered trans falls settled
      have whole := run_append less falls second items found rest ran
      refine ⟨if falls then (first :: second :: found).reverse else first :: second :: found, rest,
        first :: second :: found, by simp [firstRun, answered, ran], by simp [whole], ?_, ?_⟩
      · cases falls
        · exact .refl _
        · exact List.reverse_perm _
      · have follow : ∀ b ∈ second :: found, if falls then before b first else before first b := by
          intro b member
          rcases List.mem_cons.mp member with rfl | member
          · exact goes
          · have next := (List.pairwise_cons.mp chain).1 b member
            cases falls
            · exact trans _ _ _ goes next
            · exact trans _ _ _ next goes
        have all := List.pairwise_cons.mpr ⟨follow, chain⟩
        cases falls
        · exact all
        · exact List.pairwise_reverse.mpr all

/-- A sort whose comparisons tell a transitive order gives the list in that order. -/
theorem sort_ordered {items : List α} (settled : items.Pairwise (Settles less before)) :
    ∃ found, sort less items = some found ∧ found.Perm items ∧ found.Pairwise before := by
  obtain ⟨sorted, rest, front, begun, whole, same, ordered⟩ := firstRun_ordered trans settled
  suffices rises : ∃ found, rest.foldlM (fun sorted item => insert less item sorted) sorted =
      some found ∧ found.Pairwise before by
    obtain ⟨found, folded, rises⟩ := rises
    have done : sort less items = some found := by simp [sort, begun, folded]
    exact ⟨found, done, sort_perm less items found done, rises⟩
  rw [← whole] at settled
  clear whole begun
  -- Every item that is still to come has been settled with all that are in order.
  induction rest generalizing sorted front with
  | nil => exact ⟨sorted, rfl, ordered⟩
  | cons item rest ih =>
      obtain ⟨ahead, behind, across⟩ := List.pairwise_append.mp settled
      obtain ⟨next, inserted, rises⟩ := insert_ordered trans ordered fun other member =>
        across other (same.mem_iff.mp member) item List.mem_cons_self
      have moved : next.Perm (front ++ [item]) :=
        ((insert_perm less item sorted next inserted).trans (same.cons item)).trans
          (List.perm_append_singleton item front).symm
      obtain ⟨found, folded, final⟩ :=
        ih next (front ++ [item]) (by simpa using settled) moved rises
      exact ⟨found, by simp [List.foldlM_cons, inserted, folded], final⟩

end Transitive

end TypeScriptGen.Sorting
