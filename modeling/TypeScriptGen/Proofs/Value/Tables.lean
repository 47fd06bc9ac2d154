import TypeScriptGen.Value.Display

/-!
# Tables without repeated keys

A table is lawful when no key is the same as one before it. Giving keys values
keeps a table lawful, and a lawful list of entries is the table of its entries.
Entries that are given to a table change the values of the keys that are there and
add the others in their order.
-/

namespace TypeScriptGen

namespace Value

def IsText (value : Value) : Prop := ∃ points, value.points? = some points

theorem isText_iff {value : Value} :
    value.IsText ↔ (∃ content, value = .text content) ∨ ∃ content, value = .ragged content := by
  constructor
  · rintro ⟨points, same⟩
    cases value with
    | text content => exact .inl ⟨content, rfl⟩
    | ragged content => exact .inr ⟨content, rfl⟩
    | _ => cases same
  · rintro (⟨content, rfl⟩ | ⟨content, rfl⟩) <;> exact ⟨_, rfl⟩

theorem isText_ofPoints (points : List Text.Point) : (ofPoints points).IsText :=
  ⟨points, points?_ofPoints points⟩

/-- The items of a text are texts. -/
theorem isText_of_elements? {value : Value} {items : List Value} (text : value.IsText)
    (walked : value.elements? = some items) : ∀ item ∈ items, item.IsText := by
  intro item member
  rcases isText_iff.mp text with ⟨content, rfl⟩ | ⟨content, rfl⟩
  · cases walked
    obtain ⟨c, _, rfl⟩ := List.mem_map.mp member
    exact ⟨_, rfl⟩
  · cases walked
    obtain ⟨point, _, rfl⟩ := List.mem_map.mp member
    exact isText_ofPoints [point]

/-- Only a text is the same as a text. -/
theorem same_text (key : Value) (name : Text) :
    key.same (.text name) = true ↔ key = .text name := by
  cases key with
  | text content => rw [same, beq_iff_eq, text.injEq]
  | float number =>
      unfold same
      cases ratio (.float number) <;> exact ⟨nofun, nofun⟩
  | _ => exact ⟨nofun, nofun⟩

theorem text_same (name : Text) (key : Value) :
    same (.text name) key = true ↔ key = .text name := by
  cases key with
  | text content => rw [same, beq_iff_eq, text.injEq, eq_comm]
  | float number =>
      unfold same
      cases ratio (.float number) <;> exact ⟨nofun, nofun⟩
  | _ => exact ⟨nofun, nofun⟩

theorem same_text_comm (key : Value) (name : Text) :
    key.same (.text name) = same (.text name) key := by
  rw [Bool.eq_iff_iff, same_text, text_same]

end Value

namespace Table

/-- No key is the same as one before it. -/
def Lawful (table : Table) : Prop :=
  table.Pairwise fun first second => first.1.same second.1 = false

section Insertion

variable {table base tail : Table} {entries : List (Value × Value)} {key value : Value}

theorem contains_eq_false_iff :
    contains table key = false ↔ ∀ entry ∈ table, entry.1.same key = false := by
  simp [contains]

theorem insert_of_contains (there : contains table key = true) :
    insert table key value =
      table.map fun entry => if entry.1.same key then (entry.1, value) else entry :=
  if_pos there

theorem insert_of_not_contains (absent : contains table key = false) :
    insert table key value = table ++ [(key, value)] :=
  if_neg (by rw [absent]; exact Bool.false_ne_true)

theorem contains_eq_keys : contains table key = (keys table).any fun other => other.same key := by
  simp [contains, keys, Function.comp_def]

/-- Giving a key a value adds the key at the end, or leaves the keys as they are. -/
theorem keys_insert (table : Table) (key value : Value) :
    keys (insert table key value) =
      if contains table key then keys table else keys table ++ [key] := by
  cases there : contains table key with
  | true =>
      rw [insert_of_contains there, if_pos rfl, keys, keys, List.map_map]
      refine List.map_congr_left fun entry _ => ?_
      simp only [Function.comp]
      split <;> rfl
  | false =>
      rw [insert_of_not_contains there, if_neg Bool.false_ne_true]
      simp [keys]

theorem lawful_iff_keys : Lawful table ↔
    (keys table).Pairwise fun first second => first.same second = false := by
  rw [Lawful, keys, List.pairwise_map]

theorem Lawful.insert (lawful : Lawful table) (key value : Value) :
    Lawful (insert table key value) := by
  rw [lawful_iff_keys] at lawful ⊢
  rw [keys_insert]
  split
  · exact lawful
  · next absent =>
      rw [Bool.not_eq_true, contains_eq_keys, List.any_eq_false] at absent
      refine List.pairwise_append.mpr
        ⟨lawful, List.pairwise_singleton _ _, fun other among last => ?_⟩
      intro member
      rw [List.mem_singleton.mp member]
      simpa using absent other among

theorem Lawful.insertAll (lawful : Lawful table) (entries : List (Value × Value)) :
    Lawful (insertAll table entries) := by
  induction entries generalizing table with
  | nil => exact lawful
  | cons entry entries ih => exact ih (lawful.insert entry.1 entry.2)

theorem lawful_ofList (entries : List (Value × Value)) : Lawful (ofList entries) :=
  Lawful.insertAll List.Pairwise.nil entries

theorem insertAll_cons (table : Table) (entry : Value × Value) (entries : List (Value × Value)) :
    insertAll table (entry :: entries) = insertAll (insert table entry.1 entry.2) entries := rfl

theorem ofList_append (first second : List (Value × Value)) :
    ofList (first ++ second) = insertAll (ofList first) second :=
  List.foldl_append

/-- Entries with new keys stand behind a table in their order. -/
theorem insertAll_of_lawful (lawful : Lawful (table ++ entries)) :
    insertAll table entries = table ++ entries := by
  induction entries generalizing table with
  | nil => exact (List.append_nil table).symm
  | cons entry entries ih =>
      have absent : contains table entry.1 = false :=
        contains_eq_false_iff.mpr fun other among =>
          (List.pairwise_append.mp lawful).2.2 other among entry List.mem_cons_self
      rw [insertAll_cons, insert_of_not_contains absent, ih, List.append_assoc]
      · rfl
      · rw [List.append_assoc]
        exact lawful

theorem ofList_of_lawful (lawful : Lawful entries) : ofList entries = entries :=
  insertAll_of_lawful lawful

/-- Changing the value of a key leaves a table without the key as it is. -/
theorem map_of_not_contains (absent : contains table key = false) :
    (table.map fun entry => if entry.1.same key then (entry.1, value) else entry) = table := by
  rw [contains_eq_false_iff] at absent
  calc (table.map fun entry => if entry.1.same key then (entry.1, value) else entry)
      = table.map id := List.map_congr_left fun entry among => by
        rw [absent entry among]
        rfl
    _ = table := List.map_id table

/-- A key that is not in the front of a table goes into what is behind it. -/
theorem insert_append (absent : contains base key = false) :
    insert (base ++ tail) key value = base ++ insert tail key value := by
  have split : contains (base ++ tail) key = contains tail key := by
    simp only [contains] at absent ⊢
    rw [List.any_append, absent, Bool.false_or]
  cases there : contains tail key with
  | true =>
      rw [insert_of_contains (split.trans there), insert_of_contains there, List.map_append,
        map_of_not_contains absent]
  | false =>
      rw [insert_of_not_contains (split.trans there), insert_of_not_contains there,
        List.append_assoc]

theorem insertAll_append (absent : ∀ entry ∈ entries, contains base entry.1 = false) :
    insertAll (base ++ tail) entries = base ++ insertAll tail entries := by
  induction entries generalizing tail with
  | nil => rfl
  | cons entry entries ih =>
      rw [insertAll_cons, insertAll_cons, insert_append (absent entry List.mem_cons_self),
        ih fun other among => absent other (List.mem_cons_of_mem entry among)]

/-- What holds of all keys and all values still does when a key is given a value. -/
theorem forall_insert (keyed valued : Value → Prop)
    (all : ∀ entry ∈ table, keyed entry.1 ∧ valued entry.2) (own : keyed key)
    (given : valued value) :
    ∀ entry ∈ insert table key value, keyed entry.1 ∧ valued entry.2 := by
  intro entry among
  cases there : contains table key with
  | true =>
      rw [insert_of_contains there, List.mem_map] at among
      obtain ⟨old, member, rfl⟩ := among
      split
      · exact ⟨(all old member).1, given⟩
      · exact all old member
  | false =>
      rw [insert_of_not_contains there, List.mem_append, List.mem_singleton] at among
      rcases among with member | rfl
      · exact all entry member
      · exact ⟨own, given⟩

theorem forall_insertAll (keyed valued : Value → Prop)
    (all : ∀ entry ∈ table, keyed entry.1 ∧ valued entry.2)
    (others : ∀ entry ∈ entries, keyed entry.1 ∧ valued entry.2) :
    ∀ entry ∈ insertAll table entries, keyed entry.1 ∧ valued entry.2 := by
  induction entries generalizing table with
  | nil => exact all
  | cons entry entries ih =>
      have own := others entry List.mem_cons_self
      exact ih (forall_insert keyed valued all own.1 own.2) fun other member =>
        others other (List.mem_cons_of_mem entry member)

end Insertion

/-! ## Values of keys that are texts -/

section Fields

variable {table : Table} {key value : Value} {name : Text}

theorem field?_cons (entry : Value × Value) (table : Table) (name : Text) :
    field? (entry :: table) name =
      if entry.1.same (.text name) then some entry.2 else field? table name := by
  rw [field?, get?, List.find?_cons]
  cases entry.1.same (.text name) <;> rfl

theorem field?_append (front behind : Table) (name : Text) :
    field? (front ++ behind) name = (field? front name).or (field? behind name) := by
  rw [field?, get?, List.find?_append]
  cases found : front.find? fun entry => entry.1.same (.text name) <;>
    simp [field?, get?, found]

theorem field?_eq_none_iff :
    field? table name = none ↔ ∀ entry ∈ table, entry.1.same (.text name) = false := by
  simp [field?, get?]

theorem mem_of_field? (found : field? table name = some value) : (.text name, value) ∈ table := by
  obtain ⟨⟨key, held⟩, first, rfl⟩ := Option.map_eq_some_iff.mp found
  have own : key.same (.text name) = true :=
    List.find?_some (p := fun entry : Value × Value => entry.1.same (.text name)) first
  rw [← (Value.same_text key name).mp own]
  exact List.mem_of_find?_eq_some first

/-- In a lawful table the value of a key is the one that stands beside it. -/
theorem field?_of_mem (lawful : Lawful table) (among : (.text name, value) ∈ table) :
    field? table name = some value := by
  induction table with
  | nil => cases among
  | cons entry table ih =>
      rw [Lawful, List.pairwise_cons] at lawful
      rw [field?_cons]
      rcases List.mem_cons.mp among with rfl | later
      · exact if_pos ((Value.same_text _ _).mpr rfl)
      · have other : entry.1.same (.text name) = false := lawful.1 _ later
        rw [other, if_neg Bool.false_ne_true, ih lawful.2 later]

theorem contains_text (table : Table) (name : Text) :
    contains table (.text name) = (field? table name).isSome := by
  induction table with
  | nil => rfl
  | cons entry table ih =>
      rw [contains] at ih ⊢
      rw [List.any_cons, ih, field?_cons]
      cases entry.1.same (.text name) <;> rfl

theorem field?_update (table : Table) (key value : Value) (name : Text) :
    field? (table.map fun entry => if entry.1.same key then (entry.1, value) else entry) name =
      (field? table name).map fun held => if key.same (.text name) then value else held := by
  induction table with
  | nil => rfl
  | cons entry table ih =>
      rw [List.map_cons, field?_cons, field?_cons, ih]
      cases own : entry.1.same (.text name) with
      | false =>
          rw [if_neg (by split <;> simp [own]), if_neg Bool.false_ne_true]
      | true =>
          rw [if_pos (by split <;> simp [own]), if_pos rfl, Option.map_some,
            Value.same_text_comm key, ← (Value.same_text _ _).mp own]
          split <;> rfl

theorem field?_insert (table : Table) (key value : Value) (name : Text) :
    field? (insert table key value) name =
      if key.same (.text name) then some value else field? table name := by
  cases there : contains table key with
  | true =>
      rw [insert_of_contains there, field?_update]
      cases own : key.same (.text name) with
      | true =>
          rw [(Value.same_text _ _).mp own, contains_text, Option.isSome_iff_exists] at there
          obtain ⟨held, found⟩ := there
          rw [found]
          rfl
      | false => exact Option.map_id'
  | false =>
      rw [insert_of_not_contains there, field?_append, field?_cons]
      cases own : key.same (.text name) with
      | true =>
          have absent : field? table name = none := by
            rw [(Value.same_text _ _).mp own, contains_text] at there
            simpa using there
          rw [absent]
          rfl
      | false => exact Option.or_none

theorem Lawful.filter (lawful : Lawful table) (keep : Value × Value → Bool) :
    Lawful (table.filter keep) :=
  List.Pairwise.filter keep lawful

/-- A choice among the entries that keeps those of a name keeps the value of the name. -/
theorem field?_filter {keep : Value × Value → Bool}
    (kept : ∀ value, keep (.text name, value) = true) (table : Table) :
    field? (table.filter keep) name = field? table name := by
  induction table with
  | nil => rfl
  | cons entry table ih =>
      obtain ⟨key, value⟩ := entry
      rw [List.filter_cons, field?_cons]
      cases own : key.same (.text name) with
      | true =>
          have same := (Value.same_text _ _).mp own
          rw [same, if_pos (kept value), field?_cons, if_pos ((Value.same_text _ _).mpr rfl)]
          rfl
      | false =>
          split
          · rw [field?_cons, own, ih]
          · rw [ih]
            rfl

/-- In a lawful table the first entry has the only key of its name. -/
theorem Lawful.field?_tail {entry : Value × Value} (lawful : Lawful (entry :: table))
    (own : entry.1.same (.text name) = true) : field? table name = none :=
  field?_eq_none_iff.mpr fun other member => by
    rw [Value.same_text_comm, ← (Value.same_text _ _).mp own]
    exact (List.pairwise_cons.mp lawful).1 other member

/-- A choice among the values of a lawful table. -/
theorem field?_filter_values (lawful : Lawful table) (keep : Value → Bool) (name : Text) :
    field? (table.filter fun entry => keep entry.2) name = (field? table name).filter keep := by
  induction table with
  | nil => rfl
  | cons entry table ih =>
      have rest := ih (List.pairwise_cons.mp lawful).2
      rw [List.filter_cons, field?_cons]
      cases own : entry.1.same (.text name) with
      | true =>
          rw [lawful.field?_tail own] at rest
          rw [if_pos rfl, Option.filter_some]
          split
          · rw [field?_cons, if_pos own]
          · exact rest
      | false =>
          rw [if_neg Bool.false_ne_true, ← rest]
          split
          · rw [field?_cons, own, if_neg Bool.false_ne_true]
          · rfl

/-- Given entries come before those that are there. -/
theorem field?_insertAll {entries : List (Value × Value)} (lawful : Lawful entries)
    (table : Table) (name : Text) :
    field? (insertAll table entries) name = (field? entries name).or (field? table name) := by
  induction entries generalizing table with
  | nil => rfl
  | cons entry entries ih =>
      rw [insertAll_cons, ih (List.pairwise_cons.mp lawful).2, field?_insert, field?_cons]
      cases own : entry.1.same (.text name) with
      | true =>
          rw [lawful.field?_tail own]
          rfl
      | false => rfl

/-! ## Entries without names -/

/-- The key is one of the names. -/
def isNamed (names : List Text) (key : Value) : Bool :=
  names.any fun name => key.same (.text name)

theorem isNamed_eq_false_iff {names : List Text} :
    isNamed names key = false ↔ ∀ name ∈ names, key.same (.text name) = false := by
  simp only [isNamed, List.any_eq_false, Bool.not_eq_true]

theorem isNamed_append (first second : List Text) (key : Value) :
    isNamed (first ++ second) key = (isNamed first key || isNamed second key) :=
  List.any_append

theorem isNamed_congr {first second : List Text} (same : ∀ name, name ∈ first ↔ name ∈ second) :
    isNamed first = isNamed second := by
  funext key
  rw [Bool.eq_iff_iff]
  simp only [isNamed, List.any_eq_true, same]

/-- The entries with none of the names. -/
def without (names : List Text) (table : Table) : Table :=
  table.filter fun entry => !isNamed names entry.1

theorem mem_without {names : List Text} {entry : Value × Value} :
    entry ∈ without names table ↔
      entry ∈ table ∧ ∀ name ∈ names, entry.1.same (.text name) = false := by
  rw [without, List.mem_filter, Bool.not_eq_true', isNamed_eq_false_iff]

theorem erase_text (table : Table) (name : Text) :
    erase table (.text name) = without [name] table := by
  simp only [erase, without, isNamed, List.any_cons, List.any_nil, Bool.or_false]

theorem field?_without {names : List Text} (apart : name ∉ names) (table : Table) :
    field? (without names table) name = field? table name := by
  refine field?_filter (fun value => ?_) table
  rw [Bool.not_eq_true', isNamed_eq_false_iff]
  intro other member
  rw [Bool.eq_false_iff, Ne, Value.same_text, Value.text.injEq]
  rintro rfl
  exact apart member

theorem field?_without_of_mem {names : List Text} (among : name ∈ names) (table : Table) :
    field? (without names table) name = none :=
  field?_eq_none_iff.mpr fun _ member => (mem_without.mp member).2 name among

theorem without_without (first second : List Text) (table : Table) :
    without second (without first table) = without (first ++ second) table := by
  rw [without, without, without, List.filter_filter]
  refine List.filter_congr fun entry _ => ?_
  rw [isNamed_append, Bool.not_or, Bool.and_comm]

theorem without_congr {first second : List Text} (same : ∀ name, name ∈ first ↔ name ∈ second)
    (table : Table) : without first table = without second table := by
  rw [without, without, isNamed_congr same]

/-- Names that are left out already need not be left out again. -/
theorem without_of_subset {first second : List Text} (among : ∀ name ∈ second, name ∈ first)
    (table : Table) : without second (without first table) = without first table := by
  rw [without_without]
  exact without_congr (fun name => by simpa using among name) table

/-! ## Entries over a table of names -/

/-- The table with the given names for keys. -/
def named (fields : List (Text × Value)) : Table :=
  fields.map fun field => (.text field.1, field.2)

def namesOf (fields : List (Text × Value)) : List Text := fields.map Prod.fst

theorem contains_named (fields : List (Text × Value)) (key : Value) :
    contains (named fields) key = isNamed (namesOf fields) key := by
  simp [contains, named, isNamed, namesOf, Function.comp_def, Value.same_text_comm]

/-- A field with another value if its name is the given key. -/
def updated (key value : Value) (field : Text × Value) : Text × Value :=
  if key.same (.text field.1) then (field.1, value) else field

theorem updated_fst (key value : Value) (field : Text × Value) :
    (updated key value field).1 = field.1 := by
  unfold updated
  split <;> rfl

theorem update_named (fields : List (Text × Value)) (key value : Value) :
    ((named fields).map fun entry => if entry.1.same key then (entry.1, value) else entry) =
      named (fields.map (updated key value)) := by
  simp only [named, List.map_map]
  refine List.map_congr_left fun field _ => ?_
  simp only [Function.comp, updated, Value.same_text_comm key]
  split <;> rfl

theorem namesOf_updated (fields : List (Text × Value)) (key value : Value) :
    namesOf (fields.map (updated key value)) = namesOf fields := by
  rw [namesOf, namesOf, List.map_map]
  exact List.map_congr_left fun field _ => updated_fst key value field

/-- A field with the value that the entries give its name, if they give one. -/
def given (entries : Table) (field : Text × Value) : Text × Value :=
  (field.1, (field? entries field.1).getD field.2)

theorem given_cons {entry : Value × Value} {entries : Table} (lawful : Lawful (entry :: entries))
    (field : Text × Value) :
    given (entry :: entries) field = given entries (updated entry.1 entry.2 field) := by
  rw [given, given, updated_fst, field?_cons, updated]
  cases own : entry.1.same (.text field.1) with
  | true =>
      rw [lawful.field?_tail own]
      rfl
  | false => rfl

/-- The given entries change the values of the names that are there, and the others stand behind in
their order. -/
theorem insertAll_named_append {fields : List (Text × Value)} {tail : Table}
    {entries : List (Value × Value)} (lawful : Lawful (tail ++ entries)) :
    insertAll (named fields ++ tail) entries =
      named (fields.map (given entries)) ++ tail ++ without (namesOf fields) entries := by
  induction entries generalizing fields tail with
  | nil =>
      have same : fields.map (given []) = fields := List.map_id fields
      rw [same]
      exact (List.append_nil _).symm
  | cons entry entries ih =>
      obtain ⟨front, behind, apart⟩ := List.pairwise_append.mp lawful
      have absent : contains tail entry.1 = false :=
        contains_eq_false_iff.mpr fun other member => apart other member _ List.mem_cons_self
      have whole : contains (named fields ++ tail) entry.1 = isNamed (namesOf fields) entry.1 := by
        rw [contains, List.any_append, ← contains, ← contains, contains_named, absent,
          Bool.or_false]
      rw [insertAll_cons, without, List.filter_cons, ← without]
      cases among : isNamed (namesOf fields) entry.1 with
      | true =>
          have later : Lawful (tail ++ entries) := List.pairwise_append.mpr
            ⟨front, (List.pairwise_cons.mp behind).2, fun other member next follows =>
              apart other member next (List.mem_cons_of_mem _ follows)⟩
          have changed : fields.map (given (entry :: entries)) =
              (fields.map (updated entry.1 entry.2)).map (given entries) := by
            rw [List.map_map]
            exact List.map_congr_left fun field _ => given_cons behind field
          rw [insert_of_contains (whole.trans among), List.map_append, map_of_not_contains absent,
            update_named, ih later, namesOf_updated, changed]
          rfl
      | false =>
          have kept : fields.map (given (entry :: entries)) = fields.map (given entries) := by
            refine List.map_congr_left fun field member => ?_
            have other : entry.1.same (.text field.1) = false := by
              exact isNamed_eq_false_iff.mp among field.1 (List.mem_map_of_mem member)
            rw [given_cons behind, updated, other]
            rfl
          have same : tail ++ [(entry.1, entry.2)] ++ entries = tail ++ entry :: entries :=
            List.append_assoc ..
          rw [insert_of_not_contains (whole.trans among), List.append_assoc, ih (same ▸ lawful),
            kept]
          simp

theorem insertAll_named {entries : List (Value × Value)} (lawful : Lawful entries)
    (fields : List (Text × Value)) : insertAll (named fields) entries =
      named (fields.map (given entries)) ++ without (namesOf fields) entries := by
  have split : insertAll (named fields ++ []) entries =
      named (fields.map (given entries)) ++ [] ++ without (namesOf fields) entries :=
    insertAll_named_append lawful
  rw [List.append_nil, List.append_nil] at split
  exact split

end Fields

end Table

/-! ## Values whose tables are lawful -/

namespace Value

mutual

/-- No table in the value repeats a key. -/
def isLawful : Value → Bool
  | .list items => allAreLawful items
  | .tuple items => allAreLawful items
  | .table entries => entriesAreLawful entries
  | _ => true

def allAreLawful : List Value → Bool
  | [] => true
  | item :: items => isLawful item && allAreLawful items

def entriesAreLawful : List (Value × Value) → Bool
  | [] => true
  | (key, value) :: entries =>
      entries.all (fun entry => !same key entry.1) && isLawful key && isLawful value &&
        entriesAreLawful entries

end

theorem isLawful_of_isText {value : Value} (text : value.IsText) : value.isLawful = true := by
  rcases isText_iff.mp text with ⟨content, rfl⟩ | ⟨content, rfl⟩ <;> rfl

theorem isLawful_list {items : List Value} :
    allAreLawful items = true ↔ ∀ item ∈ items, isLawful item = true := by
  induction items with
  | nil => exact ⟨fun _ _ member => absurd member List.not_mem_nil, fun _ => rfl⟩
  | cons item items ih => rw [allAreLawful, Bool.and_eq_true, ih, List.forall_mem_cons]

theorem lawful_of_isLawful {entries : List (Value × Value)}
    (lawful : isLawful (.table entries) = true) : Table.Lawful entries ∧
      ∀ entry ∈ entries, isLawful entry.1 = true ∧ isLawful entry.2 = true := by
  rw [isLawful] at lawful
  induction entries with
  | nil => exact ⟨List.Pairwise.nil, fun _ member => absurd member List.not_mem_nil⟩
  | cons entry entries ih =>
      obtain ⟨key, value⟩ := entry
      rw [entriesAreLawful, Bool.and_eq_true, Bool.and_eq_true, Bool.and_eq_true,
        List.all_eq_true] at lawful
      obtain ⟨⟨⟨fresh, first⟩, own⟩, rest⟩ := lawful
      obtain ⟨later, parts⟩ := ih rest
      refine ⟨List.pairwise_cons.mpr ⟨fun other member => ?_, later⟩,
        List.forall_mem_cons.mpr ⟨⟨first, own⟩, parts⟩⟩
      simpa using fresh other member

end Value

end TypeScriptGen
