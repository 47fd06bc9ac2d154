import TypeScriptGen.Proofs.Document.SavedForm

/-!
# Configuration files that are saved and loaded

A path that leads to a file, or to a free place, leads to the file that is put
there: the directories on the way are other places and stay what they are. So what
is saved is found again, and a configuration that was made from JSON data is loaded
with the options and fields that it was saved with, unless it holds a ragged text.
-/

namespace TypeScriptGen

/-! ## Places -/

namespace Path

/-- No step of the path, nor of any path that it goes through, is taken back. -/
def IsFlat (place : Path) : Prop :=
  ∀ count, flat { place with components := place.components.take count } =
    { place with components := place.components.take count }

theorem flat_append (root : Text) (components : List Text) (name : Text) :
    flat ⟨root, components ++ [name]⟩ = (flat ⟨root, components⟩).enter name := by
  rw [flat, List.foldl_append]
  rfl

theorem IsFlat.flat_eq {place : Path} (isFlat : place.IsFlat) : place.flat = place := by
  have whole := isFlat place.components.length
  rw [List.take_length] at whole
  exact whole

theorem isFlat_root (root : Text) : IsFlat ⟨root, []⟩ := fun count => by
  rw [List.take_nil]
  rfl

/-- A step from a flat place leads to a flat place. -/
theorem IsFlat.enter {place : Path} (isFlat : place.IsFlat) (name : Text) :
    (place.enter name).IsFlat := by
  obtain ⟨root, components⟩ := place
  have step : flat ⟨root, components ++ [name]⟩ = Path.enter ⟨root, components⟩ name := by
    rw [flat_append]
    exact congrArg (fun found : Path => found.enter name) isFlat.flat_eq
  unfold Path.enter at step ⊢
  split
  · intro count
    dsimp only
    rw [List.dropLast_eq_take, List.take_take]
    exact isFlat _
  split
  · exact isFlat
  · next onwards upwards =>
      rw [if_neg onwards, if_neg upwards] at step
      intro count
      dsimp only
      by_cases within : count ≤ components.length
      · rw [List.take_append_of_le_length within]
        exact isFlat count
      · rw [List.take_of_length_le (by rw [List.length_append]; exact Nat.lt_of_not_le within)]
        exact step

end Path

/-! ## Stores -/

namespace FileStore

/-- A file stands at the place, or can be made there. -/
def Accepts (place : Path) (goal : Goal) : Prop :=
  goal = .free place ∨ ∃ content, goal = .entry place (.file content)

/-- Some place accepts a file. -/
def isOpen : Goal → Bool
  | .free _ => true
  | .entry _ (.file _) => true
  | _ => false

theorem Accepts.isOpen {place : Path} {goal : Goal} (accepts : Accepts place goal) :
    isOpen goal = true := by
  rcases accepts with rfl | ⟨content, rfl⟩ <;> rfl

/-- What a path leads to accepts a file at one place only. -/
theorem Accepts.unique {first second : Path} {goal : Goal} (one : Accepts first goal)
    (two : Accepts second goal) : first = second := by
  rcases one with rfl | ⟨_, rfl⟩
  · rcases two with same | ⟨_, same⟩ <;> cases same
    rfl
  · rcases two with same | ⟨_, same⟩ <;> cases same
    rfl

theorem look_cases (store : FileStore) (place : Path) :
    store.look place = .free place ∨ ∃ entry, store.look place = .entry place entry := by
  unfold look
  split
  · exact .inr ⟨_, rfl⟩
  · split
    · exact .inr ⟨_, rfl⟩
    · exact .inl rfl

theorem look_put_self {store : FileStore} {place : Path} (isFlat : place.IsFlat)
    (accepts : Accepts place (store.look place)) (entry : StoreEntry) :
    (store.put place entry).look place = .entry place entry := by
  have named : (place.components.all fun part => part == Path.upwards) = false := by
    cases upwards : place.components.all fun part => part == Path.upwards with
    | false => rfl
    | true =>
        rw [look, if_pos upwards] at accepts
        cases accepts.isOpen
  have found : (store.put place entry).entries.lookup place = some entry := by
    rw [put, isFlat.flat_eq]
    exact List.lookup_cons_self
  rw [look, if_neg (by rw [named]; decide), found]

theorem lookup_directories (places : List Path) (place : Path) :
    (places.map fun other => (other, StoreEntry.directory)).lookup place = none ∨
      (places.map fun other => (other, StoreEntry.directory)).lookup place =
        some StoreEntry.directory := by
  induction places with
  | nil => exact .inl rfl
  | cons first places ih =>
      rw [List.map_cons, List.lookup_cons]
      cases place == first with
      | true => exact .inr rfl
      | false => exact ih

theorem lookup_filter_ne {place other : Path} (apart : other ≠ place)
    (entries : List (Path × StoreEntry)) :
    (entries.filter fun entry => !(entry.1 == place)).lookup other = entries.lookup other := by
  induction entries with
  | nil => rfl
  | cons entry entries ih =>
      obtain ⟨first, held⟩ := entry
      rw [List.filter_cons, List.lookup_cons]
      by_cases same : first = place
      · rw [same, beq_self_eq_true, Bool.not_true, if_neg Bool.false_ne_true, beq_false_of_ne apart]
        exact ih
      · rw [beq_false_of_ne same, Bool.not_false, if_pos rfl, List.lookup_cons, ih]

/-- A directory at another place stays there when an entry is put. -/
theorem look_put_directory {store : FileStore} {place other : Path} (isFlat : place.IsFlat)
    (apart : other ≠ place) (directory : store.look other = .entry other .directory)
    (entry : StoreEntry) : (store.put place entry).look other = .entry other .directory := by
  unfold look at directory ⊢
  split
  · rfl
  · next named =>
      rw [if_neg named] at directory
      have held : store.entries.lookup other = some .directory := by
        split at directory
        · next found same =>
            cases directory
            exact same
        · cases directory
      have kept : (store.put place entry).entries.lookup other = some .directory := by
        rw [put, isFlat.flat_eq]
        dsimp only
        rw [List.lookup_append, List.lookup_cons, beq_false_of_ne apart]
        dsimp only
        rw [lookup_filter_ne apart, held]
        rcases lookup_directories (place.passed.filter fun other => !store.holds other) other with
          none | some
        · rw [none]
          rfl
        · rw [some]
          rfl
      rw [kept]

/-- What stopped goes nowhere. -/
theorem foldl_step_stopped {store : FileStore} {goal : Goal} (names : List Text)
    (stopped : ∀ name, store.step goal name = goal) : names.foldl store.step goal = goal := by
  induction names with
  | nil => rfl
  | cons name names ih => rw [List.foldl_cons, stopped, ih]

/-- A way that leads to a place for a file ends there with its next name, or goes on through a
directory of that name. -/
theorem accepts_cons {store : FileStore} {place start : Path} {name : Text} {names : List Text}
    (accepts : Accepts place ((name :: names).foldl store.step (.entry start .directory))) :
    ¬nameLimit < byteCount name ∧
      (names = [] ∧ place = start.enter name ∧ Accepts place (store.look place) ∨
        store.look (start.enter name) = .entry (start.enter name) .directory ∧
          Accepts place (names.foldl store.step (.entry (start.enter name) .directory))) := by
  rw [List.foldl_cons] at accepts
  by_cases long : nameLimit < byteCount name
  · rw [step, if_pos long, foldl_step_stopped names fun _ => rfl] at accepts
    cases accepts.isOpen
  rw [step, if_neg long] at accepts
  refine ⟨long, ?_⟩
  -- Only a directory leads on, so anything else is what the last name leads to.
  have last (stops : ∀ other rest, Accepts place
      ((other :: rest).foldl store.step (store.look (start.enter name))) → False)
      (own : Accepts (start.enter name) (store.look (start.enter name))) :
      names = [] ∧ place = start.enter name ∧ Accepts place (store.look place) := by
    cases names with
    | cons other rest => exact absurd accepts (stops other rest)
    | nil =>
        obtain rfl := own.unique accepts
        exact ⟨rfl, rfl, own⟩
  rcases look_cases store (start.enter name) with free | ⟨entry, found⟩
  · refine .inl (last (fun other rest accepts => ?_) (.inl free))
    rw [free, List.foldl_cons, step, foldl_step_stopped rest fun _ => rfl] at accepts
    cases accepts.isOpen
  cases entry with
  | file content =>
      refine .inl (last (fun other rest accepts => ?_) (.inr ⟨content, found⟩))
      rw [found, List.foldl_cons, step, foldl_step_stopped rest fun _ => rfl] at accepts
      cases accepts.isOpen
  | directory => exact .inr ⟨found, found ▸ accepts⟩

/-- A way from a flat place to one that accepts a file leads to what is put there. -/
theorem foldl_step_put {store : FileStore} {place : Path} {names : List Text} {start : Path}
    (isFlat : start.IsFlat)
    (accepts : Accepts place (names.foldl store.step (.entry start .directory))) :
    place.IsFlat ∧ Accepts place (store.look place) ∧
      ∀ entry, names.foldl (store.put place entry).step (.entry start .directory) =
        .entry place entry := by
  induction names generalizing start with
  | nil => cases accepts.isOpen
  | cons name names ih =>
      obtain ⟨short, last⟩ := accepts_cons accepts
      have next := isFlat.enter name
      have onwards (entry : StoreEntry) :
          (store.put place entry).step (.entry start .directory) name =
            (store.put place entry).look (start.enter name) := if_neg short
      simp only [List.foldl_cons, onwards]
      rcases last with ⟨rfl, rfl, own⟩ | ⟨found, later⟩
      · exact ⟨next, own, look_put_self next own⟩
      · obtain ⟨isFlat, own, follows⟩ := ih next later
        have apart : start.enter name ≠ place := by
          rintro same
          rw [← same, found] at own
          cases own.isOpen
        refine ⟨isFlat, own, fun entry => ?_⟩
        rw [look_put_directory isFlat apart found]
        exact follows entry

/-- A path that leads to a file or to a free place leads to the file that is put there. -/
theorem follow_put {store : FileStore} {path place : Path}
    (accepts : Accepts place (store.follow path)) (entry : StoreEntry) :
    (store.put place entry).follow path = .entry place entry := by
  unfold follow at accepts ⊢
  split
  · next null =>
      rw [if_pos null] at accepts
      cases accepts.isOpen
  · next null =>
      rw [if_neg null] at accepts
      split
      · next long =>
          rw [if_pos long] at accepts
          cases accepts.isOpen
      · next long =>
          rw [if_neg long] at accepts
          exact (foldl_step_put (Path.isFlat_root path.root) accepts).2.2 entry

/-- The path leads to a file, or to a place where one can be made. -/
def Writable (store : FileStore) (path : Path) : Prop := ∃ place, Accepts place (store.follow path)

end FileStore

/-! ## Saving and loading -/

namespace Configuration

open FileStore (Accepts)
open Json (isJsonData)

theorem save_of_accepts {configuration : Configuration} {store : FileStore} {path place : Path}
    (accepts : Accepts place (store.follow path)) :
    configuration.save store path = configuration.write store place := by
  unfold save
  rcases accepts with leads | ⟨content, leads⟩ <;> rw [leads]

/-- Saving to a writable path puts the whole output there, and loading reads it. -/
theorem load_save_output {configuration : Configuration} {store : FileStore} {path : Path}
    {text : Text} (writable : store.Writable path) (written : configuration.output = .ofText text)
    (later : Calendar.Moment) :
    (configuration.save store path).2 = .ok text ∧
      load later (configuration.save store path).1 path =
        if path.isJson then ofText later path.text text
        else .error (.config (.notJson path.text)) := by
  obtain ⟨place, accepts⟩ := writable
  have saved : configuration.save store path =
      (store.put place (.file (FileStore.encodeText text)), .ok text) := by
    rw [save_of_accepts accepts, write, written]
    rfl
  have found := FileStore.follow_put accepts (.file (FileStore.encodeText text))
  rw [saved]
  refine ⟨rfl, ?_⟩
  rw [load, found]
  cases path.isJson with
  | true => simp [FileStore.decodeText_encodeText]
  | false => rfl

/-- Saving to a writable path fails where writing the output fails. -/
theorem save_of_failure {configuration : Configuration} {store : FileStore} {path : Path}
    {failure : Failure} (writable : store.Writable path)
    (failed : configuration.output.failure = some failure) :
    (configuration.save store path).2 = .error failure := by
  obtain ⟨place, accepts⟩ := writable
  rw [save_of_accepts accepts, write]
  dsimp only
  rw [failed]

/-- Extra entries come back as they are exactly when their keys are texts. -/
theorem ofList_keyed_iff {extra : Table} (lawful : Table.Lawful extra) :
    Table.ofList (extra.map keyed) = extra ↔
      ∀ key ∈ Table.keys extra, ∃ name, key = .text name := by
  constructor
  · intro same key member
    obtain ⟨entry, among, rfl⟩ := List.mem_map.mp member
    rw [← same] at among
    have all : ∀ entry ∈ Table.ofList (extra.map keyed), (∃ name, entry.1 = .text name) ∧ True :=
      Table.forall_insertAll (fun key => ∃ name, key = .text name)
        (fun _ => True) (fun _ member => absurd member List.not_mem_nil)
        fun entry member => by
          obtain ⟨old, _, rfl⟩ := List.mem_map.mp member
          exact ⟨⟨_, rfl⟩, trivial⟩
    exact (all entry among).1
  · intro texts
    have same : ∀ entry ∈ extra, keyed entry = id entry := by
      rintro ⟨key, value⟩ member
      obtain ⟨name, rfl⟩ := texts key (List.mem_map_of_mem (f := Prod.fst) member)
      rfl
    rw [List.map_congr_left same, List.map_id, Table.ofList_of_lawful lawful]

section RoundTrip

variable {now later : Calendar.Moment} {value : Value} {configuration : Configuration}
  {extra : Table} {store : FileStore} {path : Path} {stamp : Text}

/-- A configuration that was made from JSON data is saved unless it holds a ragged text, and then
loaded unless the path has another ending. -/
theorem load_save_eq (data : isJsonData value = true) (made : ofValue now value = .ok configuration)
    (held : configuration.metadata.extra = .table extra)
    (plain : ∀ name ∈ reservedNames, Table.field? extra name = none)
    (writable : store.Writable path) (present : Timestamp.ofMoment later = .ok stamp) :
    Table.Lawful extra ∧
      (configuration.holdsRagged = true →
        (configuration.save store path).2 = .error .unencodable) ∧
      (configuration.holdsRagged = false → ∃ text, (configuration.save store path).2 = .ok text ∧
        load later (configuration.save store path).1 path =
          if path.isJson then
            .ok { configuration with metadata := { configuration.metadata with
              extra := .table (Table.ofList (extra.map keyed)) } }
          else .error (.config (.notJson path.text))) := by
  obtain ⟨entries, own⟩ := isJson_of_ofValue data made
  obtain rfl : entries = extra := Value.table.inj (own.held.symm.trans held)
  refine ⟨own.lawful, fun torn => save_of_failure writable ?_, fun whole => ?_⟩
  · rw [own.failure_output plain, torn]
    rfl
  · obtain ⟨text, written, read⟩ := own.ofText_output plain whole present
    obtain ⟨saved, loaded⟩ := load_save_output writable written later
    rw [read] at loaded
    exact ⟨text, saved, loaded⟩

/-- A configuration that was made from JSON data, without reserved names among its extra entries,
is saved to a writable path and loaded from it, if the path ends as those of JSON files do. It has
the same options and fields, and the same extra entries with the texts of their keys, so the same
ones if their keys are texts. Only one with a ragged text, which no file can hold, is not saved. -/
theorem load_save (data : isJsonData value = true) (made : ofValue now value = .ok configuration)
    (held : configuration.metadata.extra = .table extra)
    (plain : ∀ name ∈ reservedNames, Table.field? extra name = none)
    (writable : store.Writable path) (json : path.isJson = true)
    (present : Timestamp.ofMoment later = .ok stamp) :
    (configuration.holdsRagged = true →
      (configuration.save store path).2 = .error .unencodable) ∧
    (configuration.holdsRagged = false →
      ∃ text loaded, (configuration.save store path).2 = .ok text ∧
        load later (configuration.save store path).1 path = .ok loaded ∧
        loaded.defaults = configuration.defaults ∧
        loaded.metadata.generator = configuration.metadata.generator ∧
        loaded.metadata.generatedAt = configuration.metadata.generatedAt ∧
        loaded.metadata.project = configuration.metadata.project ∧
        loaded.metadata.extra = .table (Table.ofList (extra.map keyed)) ∧
        (loaded.metadata.extra = configuration.metadata.extra ↔
          ∀ key ∈ Table.keys extra, ∃ name, key = .text name)) := by
  obtain ⟨lawful, fails, succeeds⟩ := load_save_eq data made held plain writable present
  refine ⟨fails, fun whole => ?_⟩
  obtain ⟨text, saved, loaded⟩ := succeeds whole
  rw [json, if_pos rfl] at loaded
  refine ⟨text, _, saved, loaded, rfl, rfl, rfl, rfl, rfl, ?_⟩
  rw [held, Value.table.injEq]
  exact ofList_keyed_iff lawful

end RoundTrip

/-- The current place, with no file in it. -/
def emptyStore : FileStore := FileStore.ofDirectory ⟨[], []⟩

def settings : Path := Path.ofText "c.json".toList

/-- The current place with one file in it. -/
def storeOf (content : ByteArray) : FileStore := emptyStore.put settings (.file content)

def emptyTable : Text := "\x7b\x7d".toList

/-- The current place with a configuration file without entries. -/
def emptyTableStore : FileStore := storeOf (FileStore.encodeText emptyTable)

theorem writable_emptyStore (path : Path) (found : emptyStore.follow path = .free path) :
    emptyStore.Writable path := ⟨path, .inl found⟩

def owned : Table := [(.text "owner".toList, .list [.int 7, .text "\"".toList])]

/-- An extra entry with a surrogate for its text. -/
def torn : Table := [(.text "owner".toList, .ofPoints [.ofCode Text.firstSurrogate])]

theorem absent_of_isNone {table : Table}
    (absent : ∀ name ∈ reservedNames, (Table.field? table name).isNone = true) :
    ∀ name ∈ reservedNames, Table.field? table name = none :=
  fun name reserved => Option.isNone_iff_eq_none.mp (absent name reserved)

/-- The hypotheses hold for a configuration with an owner, and the owner comes back unless it is a
surrogate. -/
theorem load_save_owned :
    let path := Path.ofText "c.json".toList
    (∃ text loaded, ((ordered owned).save emptyStore path).2 = .ok text ∧
      load noon ((ordered owned).save emptyStore path).1 path = .ok loaded ∧
      loaded.metadata.extra = .table owned) ∧
    ((ordered torn).save emptyStore path).2 = .error .unencodable := by
  have json : (Path.ofText "c.json".toList).isJson = true := by decide +kernel
  have texts : ∀ key ∈ Table.keys owned, ∃ name, key = .text name := by
    simp [owned, Table.keys]
  have data (table : Table) (all : isJsonData (orderedValue (.table table)) = true)
      (listed : Value.toTableOrEmpty (.table table) = .ok table)
      (read : readMetadata noon table = .ok (ordered table).metadata)
      (absent : ∀ name ∈ reservedNames, (Table.field? table name).isNone = true) :=
    load_save all (ofValue_orderedValue listed read) rfl (absent_of_isNone absent)
      (writable_emptyStore _ rfl) json ofMoment_noon
  obtain ⟨_, succeeds⟩ := data owned (by decide +kernel) rfl rfl (by decide +kernel)
  obtain ⟨fails, _⟩ := data torn (by decide +kernel) rfl rfl (by decide +kernel)
  obtain ⟨text, loaded, saved, found, _, _, _, _, _, same⟩ := succeeds (by decide +kernel)
  exact ⟨⟨text, loaded, saved, found, same.mpr texts⟩, fails (by decide +kernel)⟩

/-- An extra entry whose key is a number, and the list of pairs that gives it. -/
def numbered : Table := [(.int 1, .text "x".toList)]

def numberedPairs : Value := .list [.list [.int 1, .text "x".toList]]

/-- A list of pairs gives extra entries with keys that are no texts, which come back under other
keys; a file with nothing but the ending for a name is saved, but not loaded; and a configuration
with a surrogate is not saved. -/
theorem load_save_numbered_unnamed_or_torn :
    (isJsonData (orderedValue numberedPairs) = true ∧
      ofValue noon (orderedValue numberedPairs) = .ok (ordered numbered) ∧
      (∀ name ∈ reservedNames, Table.field? numbered name = none) ∧
      ∃ text loaded,
        ((ordered numbered).save emptyStore (Path.ofText "c.json".toList)).2 = .ok text ∧
        load noon ((ordered numbered).save emptyStore (Path.ofText "c.json".toList)).1
          (Path.ofText "c.json".toList) = .ok loaded ∧
        loaded.metadata.extra = .table [(.text "1".toList, .text "x".toList)] ∧
        loaded.metadata.extra ≠ (ordered numbered).metadata.extra) ∧
    (isJsonData (orderedValue (.table owned)) = true ∧
      ofValue noon (orderedValue (.table owned)) = .ok (ordered owned) ∧
      (∀ name ∈ reservedNames, Table.field? owned name = none) ∧
      ∃ text, ((ordered owned).save emptyStore (Path.ofText ".json".toList)).2 = .ok text ∧
        load noon ((ordered owned).save emptyStore (Path.ofText ".json".toList)).1
          (Path.ofText ".json".toList) = .error (.config (.notJson ".json".toList))) ∧
    isJsonData (orderedValue (.table torn)) = true ∧
      ofValue noon (orderedValue (.table torn)) = .ok (ordered torn) ∧
      (∀ name ∈ reservedNames, Table.field? torn name = none) ∧
      ((ordered torn).save emptyStore (Path.ofText "c.json".toList)).2 = .error .unencodable := by
  have noNumber : ∀ name ∈ reservedNames, Table.field? numbered name = none :=
    absent_of_isNone (by decide +kernel)
  have noOwner : ∀ name ∈ reservedNames, Table.field? owned name = none :=
    absent_of_isNone (by decide +kernel)
  have noName : ∀ name ∈ reservedNames, Table.field? torn name = none :=
    absent_of_isNone (by decide +kernel)
  have numbers : isJsonData (orderedValue numberedPairs) = true := by decide +kernel
  have owners : isJsonData (orderedValue (.table owned)) = true := by decide +kernel
  have surrogates : isJsonData (orderedValue (.table torn)) = true := by decide +kernel
  have fromPairs : ofValue noon (orderedValue numberedPairs) = .ok (ordered numbered) :=
    ofValue_orderedValue rfl rfl
  have fromTable : ofValue noon (orderedValue (.table owned)) = .ok (ordered owned) :=
    ofValue_orderedValue rfl rfl
  have fromTorn : ofValue noon (orderedValue (.table torn)) = .ok (ordered torn) :=
    ofValue_orderedValue rfl rfl
  obtain ⟨_, _, kept⟩ := load_save_eq numbers fromPairs rfl noNumber
    (writable_emptyStore (Path.ofText "c.json".toList) rfl) ofMoment_noon
  obtain ⟨text, saved, loaded⟩ := kept (by decide +kernel)
  obtain ⟨_, _, unnamed⟩ := load_save_eq owners fromTable rfl noOwner
    (writable_emptyStore (Path.ofText ".json".toList) rfl) ofMoment_noon
  obtain ⟨rest, stored, refused⟩ := unnamed (by decide +kernel)
  obtain ⟨_, fails, _⟩ := load_save_eq surrogates fromTorn rfl noName
    (writable_emptyStore (Path.ofText "c.json".toList) rfl) ofMoment_noon
  rw [if_pos (by decide +kernel)] at loaded
  rw [if_neg (by decide +kernel)] at refused
  have named : Json.keyName (.int 1) = "1".toList := by decide +kernel
  have back : Table.ofList (numbered.map keyed) = [(.text "1".toList, .text "x".toList)] := by
    rw [numbered, List.map_singleton, keyed, named]
    rfl
  have other : Value.table [(.text "1".toList, .text "x".toList)] ≠ .table numbered := by
    intro same
    cases same
  rw [back] at loaded
  exact ⟨⟨numbers, fromPairs, noNumber, text, _, saved, loaded, rfl, other⟩,
    ⟨owners, fromTable, noOwner, rest, stored, refused⟩, surrogates, fromTorn, noName,
    fails (by decide +kernel)⟩

end Configuration

end TypeScriptGen
