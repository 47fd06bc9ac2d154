import TypeScriptGen.Proofs.Outcome.Steps
import TypeScriptGen.Proofs.Value.Tables
import TypeScriptGen.Value.Mapping

/-!
# Tables that values are or list

A value that serves as a table is one, or lists pairs. Either way the values of the
table are parts of the value, so the value itself is none of them.
-/

namespace TypeScriptGen.Value

theorem elements?_of_elements {value : Value} {items : List Value}
    (walked : value.elements = .ok items) : value.elements? = some items := by
  unfold elements at walked
  split at walked
  · next same =>
      cases walked
      exact same
  · cases walked

theorem elements_eq_ok {value : Value} {items : List Value}
    (walked : value.elements? = some items) : value.elements = .ok items := by
  rw [elements, walked]

theorem pair_eq_ok {value : Value} {entry : Value × Value} (made : value.pair = .ok entry) :
    value.elements? = some [entry.1, entry.2] ∧ entry.1.isHashable = true := by
  unfold pair at made
  split at made
  · cases made
  · next walked =>
      split at made
      · next hashable =>
          cases made
          exact ⟨walked, hashable⟩
      · cases made
  · cases made

theorem toTable_eq_ok {value : Value} {table : Table} (made : value.toTable = .ok table) :
    value = .table table ∨ ∃ items pairs, value.elements? = some items ∧
      items.mapM pair = .ok pairs ∧ table = Table.ofList pairs := by
  unfold toTable at made
  split at made
  · cases made
    exact .inl rfl
  · obtain ⟨items, walked, made⟩ := exists_of_bind_ok made
    obtain ⟨pairs, paired, made⟩ := exists_of_bind_ok made
    cases made
    exact .inr ⟨items, pairs, elements?_of_elements walked, paired, rfl⟩

/-! ## Values are larger than what their tables hold -/

theorem sizeOf_singleton_le {α : Type} [SizeOf α] {c : α} {content : List α}
    (member : c ∈ content) :
    sizeOf [c] ≤ sizeOf content := by
  induction content with
  | nil => cases member
  | cons first content ih =>
      simp only [List.cons.sizeOf_spec, List.nil.sizeOf_spec] at ih ⊢
      rcases List.mem_cons.mp member with rfl | later
      · have positive : 1 ≤ sizeOf content := by
          cases content with
          | nil => exact Nat.le_refl 1
          | cons _ _ =>
              rw [List.cons.sizeOf_spec]
              omega
        omega
      · have smaller := ih later
        omega

/-- The text of one point is little larger than the point. -/
theorem sizeOf_ofPoints_singleton (point : Text.Point) :
    sizeOf (ofPoints [point]) ≤ 4 + sizeOf point := by
  unfold ofPoints
  split
  · simp only [ragged.sizeOf_spec, Text.Ragged.mk.sizeOf_spec, List.cons.sizeOf_spec,
      List.nil.sizeOf_spec, sizeOf_default]
    omega
  · next whole =>
      cases point with
      | char c =>
          simp only [List.map_cons, List.map_nil, Text.Point.shown, text.sizeOf_spec,
            List.cons.sizeOf_spec, List.nil.sizeOf_spec, Text.Point.char.sizeOf_spec]
          omega
      | surrogate place => exact absurd rfl whole

theorem sizeOf_le_of_elements? {value item : Value} {items : List Value}
    (walked : value.elements? = some items) (member : item ∈ items) :
    sizeOf item ≤ sizeOf value := by
  cases value with
  | text content =>
      cases walked
      obtain ⟨c, among, rfl⟩ := List.mem_map.mp member
      have smaller := sizeOf_singleton_le among
      rw [text.sizeOf_spec, text.sizeOf_spec]
      omega
  | ragged content =>
      cases walked
      obtain ⟨point, among, rfl⟩ := List.mem_map.mp member
      have small := sizeOf_ofPoints_singleton point
      have smaller := sizeOf_singleton_le among
      obtain ⟨points, torn⟩ := content
      simp only [ragged.sizeOf_spec, Text.Ragged.mk.sizeOf_spec, List.cons.sizeOf_spec,
        List.nil.sizeOf_spec] at smaller ⊢
      omega
  | list items =>
      cases walked
      have smaller := List.sizeOf_lt_of_mem member
      rw [list.sizeOf_spec]
      omega
  | tuple items =>
      cases walked
      have smaller := List.sizeOf_lt_of_mem member
      rw [tuple.sizeOf_spec]
      omega
  | table entries =>
      cases walked
      obtain ⟨⟨key, held⟩, among, rfl⟩ := List.mem_map.mp member
      have smaller := List.sizeOf_lt_of_mem among
      rw [Prod.mk.sizeOf_spec] at smaller
      rw [table.sizeOf_spec]
      dsimp only
      omega
  | _ => cases walked

/-- The second of two elements is smaller than the value. -/
theorem sizeOf_lt_of_two {value key item : Value} (walked : value.elements? = some [key, item]) :
    sizeOf item < sizeOf value := by
  cases value with
  | text content =>
      obtain ⟨first, rest, rfl, _, behind⟩ := List.map_eq_cons_iff.mp (Option.some.inj walked)
      obtain ⟨second, last, rfl, rfl, ends⟩ := List.map_eq_cons_iff.mp behind
      obtain rfl := List.map_eq_nil_iff.mp ends
      simp only [text.sizeOf_spec, List.cons.sizeOf_spec, List.nil.sizeOf_spec]
      omega
  | ragged content =>
      obtain ⟨points, torn⟩ := content
      obtain ⟨first, rest, rfl, _, behind⟩ := List.map_eq_cons_iff.mp (Option.some.inj walked)
      obtain ⟨second, last, rfl, rfl, ends⟩ := List.map_eq_cons_iff.mp behind
      obtain rfl := List.map_eq_nil_iff.mp ends
      have small := sizeOf_ofPoints_singleton second
      simp only [ragged.sizeOf_spec, Text.Ragged.mk.sizeOf_spec, List.cons.sizeOf_spec,
        List.nil.sizeOf_spec]
      omega
  | list items =>
      cases walked
      simp only [list.sizeOf_spec, List.cons.sizeOf_spec]
      omega
  | tuple items =>
      cases walked
      simp only [tuple.sizeOf_spec, List.cons.sizeOf_spec]
      omega
  | table entries =>
      obtain ⟨first, rest, rfl, _, behind⟩ := List.map_eq_cons_iff.mp (Option.some.inj walked)
      obtain ⟨⟨second, held⟩, last, rfl, rfl, _⟩ := List.map_eq_cons_iff.mp behind
      simp only [table.sizeOf_spec, List.cons.sizeOf_spec, Prod.mk.sizeOf_spec]
      omega
  | _ => cases walked

/-- A value is larger than each value of the table that it is or lists. -/
theorem sizeOf_lt_of_toTable {value : Value} {entries : Table}
    (made : value.toTable = .ok entries) : ∀ entry ∈ entries, sizeOf entry.2 < sizeOf value := by
  rcases toTable_eq_ok made with rfl | ⟨items, pairs, walked, paired, rfl⟩
  · rintro ⟨key, held⟩ member
    have smaller := List.sizeOf_lt_of_mem member
    rw [Prod.mk.sizeOf_spec] at smaller
    rw [table.sizeOf_spec]
    dsimp only
    omega
  · have smaller : ∀ entry ∈ pairs, True ∧ sizeOf entry.2 < sizeOf value := fun entry member => by
      obtain ⟨item, among, made⟩ := exists_of_mem_mapM paired member
      have whole := sizeOf_le_of_elements? walked among
      exact ⟨trivial, Nat.lt_of_lt_of_le (sizeOf_lt_of_two (pair_eq_ok made).1) whole⟩
    have all := Table.forall_insertAll (fun _ => True) (fun held => sizeOf held < sizeOf value)
      (fun _ member => absurd member List.not_mem_nil) smaller
    exact fun entry member => (all entry member).2

/-- A value is none of the values of its own table. -/
theorem ne_of_mem_toTableOrEmpty {value : Value} {entries : Table}
    (made : value.toTableOrEmpty = .ok entries) : ∀ entry ∈ entries, entry.2 ≠ value := by
  unfold toTableOrEmpty at made
  split at made
  · intro entry member same
    have smaller := sizeOf_lt_of_toTable made entry member
    rw [same] at smaller
    exact Nat.lt_irrefl _ smaller
  · cases made
    exact fun _ member => absurd member List.not_mem_nil

/-! ## Values that serve as tables -/

/-- The value has two elements, of which the first can be a key. -/
def isPair (value : Value) : Bool :=
  match value.elements? with
  | some [key, _] => key.isHashable
  | _ => false

def listsPairs (value : Value) : Bool := value.elements?.elim false fun items => items.all isPair

/-- The value is a table or lists pairs, or it counts as nothing. -/
def servesAsTable : Value → Bool
  | .table _ => true
  | value => !value.isTruthy || value.listsPairs

/-- A value of another kind, or of another number of elements, is refused. -/
def Refused {α : Type} (outcome : Except Failure α) : Prop :=
  outcome = .error .wrongKind ∨ outcome = .error .notPairs

theorem Refused.bind {α β : Type} {first : Except Failure α} (refused : Refused first)
    (next : α → Except Failure β) : Refused (first >>= next) := by
  rcases refused with rfl | rfl
  · exact .inl rfl
  · exact .inr rfl

theorem pair_of_isPair {value : Value} (pairs : value.isPair = true) :
    ∃ entry, value.pair = .ok entry := by
  unfold isPair at pairs
  split at pairs
  · next key item walked =>
      refine ⟨(key, item), ?_⟩
      simp only [pair, walked, if_pos pairs]
  · cases pairs

theorem refused_pair {value : Value} (other : value.isPair = false) : Refused value.pair := by
  unfold isPair at other
  unfold pair
  split
  · exact .inl rfl
  · next key item walked =>
      simp only [walked] at other
      rw [other, if_neg Bool.false_ne_true]
      exact .inl rfl
  · exact .inr rfl

theorem mapM_pair {items : List Value} (pairs : ∀ item ∈ items, item.isPair = true) :
    ∃ entries, items.mapM pair = .ok entries := by
  induction items with
  | nil => exact ⟨[], rfl⟩
  | cons item items ih =>
      obtain ⟨own, later⟩ := List.forall_mem_cons.mp pairs
      obtain ⟨first, made⟩ := pair_of_isPair own
      obtain ⟨others, behind⟩ := ih later
      exact ⟨first :: others, by rw [List.mapM_cons, bind_ok made, bind_ok behind]; rfl⟩

theorem refused_mapM_pair {items : List Value} {item : Value} (among : item ∈ items)
    (other : item.isPair = false) : Refused (items.mapM pair) := by
  induction items with
  | nil => cases among
  | cons first items ih =>
      rw [List.mapM_cons]
      cases own : first.isPair with
      | false => exact (refused_pair own).bind _
      | true =>
          obtain ⟨made, same⟩ := pair_of_isPair own
          rcases List.mem_cons.mp among with rfl | later
          · cases own.symm.trans other
          · rw [bind_ok same]
            exact (ih later).bind _

theorem toTable_of_listsPairs {value : Value} (lists : value.listsPairs = true) :
    ∃ entries, value.toTable = .ok entries := by
  unfold toTable
  split
  · exact ⟨_, rfl⟩
  · unfold listsPairs at lists
    cases walked : value.elements? with
    | none =>
        rw [walked] at lists
        cases lists
    | some items =>
        rw [walked] at lists
        obtain ⟨entries, made⟩ := mapM_pair (List.all_eq_true.mp lists)
        exact ⟨_, by rw [bind_ok (elements_eq_ok walked), bind_ok made]; rfl⟩

theorem refused_toTable {value : Value} (apart : ∀ entries, value ≠ .table entries)
    (other : value.listsPairs = false) : Refused value.toTable := by
  unfold toTable
  split
  · exact absurd rfl (apart _)
  · unfold listsPairs at other
    cases walked : value.elements? with
    | none =>
        have walk : value.elements = .error .wrongKind := by rw [elements, walked]
        rw [walk]
        exact .inl rfl
    | some items =>
        rw [walked] at other
        obtain ⟨item, among, odd⟩ := List.all_eq_false.mp other
        rw [bind_ok (elements_eq_ok walked)]
        exact (refused_mapM_pair among (Bool.eq_false_iff.mpr odd)).bind _

theorem toTableOrEmpty_of_servesAsTable {value : Value} (serves : value.servesAsTable = true) :
    ∃ entries, value.toTableOrEmpty = .ok entries := by
  unfold toTableOrEmpty
  split
  · next truthy =>
      unfold servesAsTable at serves
      split at serves
      · exact ⟨_, rfl⟩
      · rw [truthy] at serves
        exact toTable_of_listsPairs serves
  · exact ⟨[], rfl⟩

theorem refused_toTableOrEmpty {value : Value} (other : value.servesAsTable = false) :
    Refused value.toTableOrEmpty := by
  unfold servesAsTable at other
  split at other
  · cases other
  · next apart =>
      obtain ⟨truthy, unlisted⟩ := Bool.or_eq_false_iff.mp other
      rw [toTableOrEmpty, if_pos (by simpa using truthy)]
      exact refused_toTable apart unlisted

end TypeScriptGen.Value
