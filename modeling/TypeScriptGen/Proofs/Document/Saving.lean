import TypeScriptGen.Proofs.Document.Files

/-!
# What a failed save leaves

Saving looks at the path first. Where no file can be opened the store stays as it
is, and the failure is a fault of the configuration, or of the path. Where one can,
it is emptied before the configuration is converted and written, so that a failure
of that leaves the text up to there in place of what the file held. Nothing else in
the store is touched.
-/

namespace TypeScriptGen

/-! ## Other places -/

namespace FileStore

variable {store : FileStore} {place other start : Path}

/-- Something stands wherever a path to the place goes through. -/
def Grounded (store : FileStore) (place : Path) : Prop :=
  ∀ other ∈ place.passed, store.holds other = true

theorem mem_passed_iff (isFlat : place.IsFlat) : other ∈ place.passed ↔
    ∃ count < place.components.length,
      other = { place with components := place.components.take count } := by
  rw [Path.passed, List.mem_map]
  simp only [List.mem_range, isFlat _, eq_comm]

theorem Grounded.enter (isFlat : place.IsFlat) (grounded : Grounded store place)
    (there : store.holds place = true) (name : Text) : Grounded store (place.enter name) := by
  have prefixes (count : Nat) : count ≤ place.components.length →
      store.holds { place with components := place.components.take count } = true := by
    intro within
    rcases Nat.lt_or_eq_of_le within with less | rfl
    · exact grounded _ ((mem_passed_iff isFlat).mpr ⟨count, less, rfl⟩)
    · rwa [List.take_length]
  intro other among
  obtain ⟨count, less, rfl⟩ := (mem_passed_iff (isFlat.enter name)).mp among
  -- upwards, at the root or onwards, what is passed are prefixes of the place itself
  unfold Path.enter at less ⊢
  split at less
  · next back =>
      rw [if_pos back]
      dsimp only at less ⊢
      rw [List.length_dropLast] at less
      rw [List.dropLast_eq_take, List.take_take, Nat.min_eq_left (Nat.le_of_lt less)]
      exact prefixes count (by omega)
  · next onwards =>
      rw [if_neg onwards]
      split at less
      · next root =>
          rw [if_pos root]
          exact prefixes count (Nat.le_of_lt less)
      · next named =>
          rw [if_neg named]
          dsimp only at less ⊢
          rw [List.length_append, List.length_singleton] at less
          rw [List.take_append_of_le_length (by omega)]
          exact prefixes count (by omega)

/-- A way from a grounded place leads to a grounded place. -/
theorem grounded_of_accepts {names : List Text} (isFlat : start.IsFlat)
    (grounded : Grounded store start) (there : store.holds start = true)
    (accepts : Accepts place (names.foldl store.step (.entry start .directory))) :
    place.IsFlat ∧ Grounded store place := by
  induction names generalizing start with
  | nil => cases accepts.isOpen
  | cons name names ih =>
      have next := grounded.enter isFlat there name
      obtain ⟨_, ⟨rfl, rfl, _⟩ | ⟨found, later⟩⟩ := accepts_cons accepts
      · exact ⟨isFlat.enter name, next⟩
      · have onwards : store.holds (start.enter name) = true := by rw [holds, found]
        exact ih (isFlat.enter name) next onwards later

/-- What a path leads to is grounded, if a file can stand there. -/
theorem grounded_of_follow {path : Path} (accepts : Accepts place (store.follow path)) :
    place.IsFlat ∧ Grounded store place := by
  unfold follow at accepts
  split at accepts
  · cases accepts.isOpen
  split at accepts
  · cases accepts.isOpen
  · exact grounded_of_accepts (Path.isFlat_root path.root) nofun rfl accepts

/-- Putting an entry at a grounded place leaves the other places as they are. -/
theorem look_put_other (isFlat : place.IsFlat) (grounded : Grounded store place)
    (apart : other ≠ place) (entry : StoreEntry) :
    (store.put place entry).look other = store.look other := by
  have made : place.passed.filter (fun other => !store.holds other) = [] :=
    List.filter_eq_nil_iff.mpr fun passed among => by rw [grounded passed among]; decide
  have kept : (store.put place entry).entries.lookup other = store.entries.lookup other := by
    rw [put, isFlat.flat_eq, made]
    dsimp only
    rw [List.map_nil, List.singleton_append, List.lookup_cons,
      beq_false_of_ne apart]
    exact lookup_filter_ne apart _
  rw [look, look, kept]

end FileStore

/-! ## Failed saves -/

namespace Configuration

open FileStore (Accepts encodeText)

variable {configuration : Configuration} {store : FileStore} {path place : Path} {failure : Failure}

/-- What converting and writing a configuration fails at: a whole number that is too long, a key or
extra entries of another kind, a ragged text, or a time outside the calendar. -/
def WriteFailure (failure : Failure) : Prop :=
  failure = .oversize ∨ failure = .wrongKind ∨ failure = .unencodable ∨ failure = .outOfCalendar

theorem ofMoment_failure {moment : Calendar.Moment}
    (failed : Timestamp.ofMoment moment = .error failure) : failure = .outOfCalendar := by
  unfold Timestamp.ofMoment at failed
  split at failed
  · cases failed
  · exact (Except.error.inj failed).symm

theorem extraEntries_failure {metadata : Metadata}
    (failed : metadata.extraEntries = .error failure) : failure = .wrongKind := by
  unfold Metadata.extraEntries at failed
  split at failed
  · cases failed
  · exact (Except.error.inj failed).symm

theorem metadata_entries_failure {metadata : Metadata}
    (failed : metadata.entries = .error failure) : WriteFailure failure := by
  -- whatever the time is, only extra entries of another kind fail behind it
  have behind {write : Table → Table}
      (failed : (metadata.extraEntries >>= fun extra => pure (write extra)) = .error failure) :
      WriteFailure failure := by
    rcases exists_of_bind_error failed with odd | ⟨_, _, failed⟩
    · exact .inr (.inl (extraEntries_failure odd))
    · cases failed
  unfold Metadata.entries at failed
  cases time : metadata.generatedAt with
  | moment date =>
      rw [time] at failed
      rcases exists_of_bind_error failed with timeless | ⟨_, _, failed⟩
      · cases made : Timestamp.ofMoment date with
        | ok stamp =>
            rw [made] at timeless
            cases timeless
        | error earlier =>
            rw [made] at timeless
            cases timeless
            exact .inr (.inr (.inr (ofMoment_failure made)))
      · exact behind failed
  | _ =>
      rw [time] at failed
      exact behind failed

theorem output_failure (failed : configuration.output.failure = some failure) :
    WriteFailure failure := by
  unfold output at failed
  split at failed
  · next earlier unconverted =>
      cases failed
      rcases exists_of_bind_error unconverted with failed | ⟨_, _, failed⟩
      · exact metadata_entries_failure failed
      · cases failed
  · rw [Json.write, Json.failure_writeValue] at failed
    rcases Json.unwritable_of_writeFailure _ failed with long | odd | torn
    · exact .inl long
    · exact .inr (.inl odd)
    · exact .inr (.inr (.inl torn))

theorem output_of_unconverted (unconverted : configuration.entries = .error failure) :
    configuration.output = .fail failure := by
  rw [output, unconverted]

/-- The path leads to no place where a file can be opened, and saving fails for that alone. -/
theorem save_of_not_writable (configuration : Configuration) (closed : ¬store.Writable path) :
    ∃ failure, configuration.save store path = (store, .error failure) ∧
      ((∃ fault, failure = .config fault) ∨ failure = .invalidPath) := by
  unfold save
  cases leads : store.follow path with
  | entry place entry =>
      cases entry with
      | directory => exact ⟨_, rfl, .inl ⟨_, rfl⟩⟩
      | file content => exact absurd ⟨place, .inr ⟨content, leads⟩⟩ closed
  | free place => exact absurd ⟨place, .inl leads⟩ closed
  | invalid => exact ⟨_, rfl, .inr rfl⟩
  | _ => exact ⟨_, rfl, .inl ⟨_, rfl⟩⟩

theorem write_failed (failed : (configuration.write store place).2 = .error failure) :
    configuration.output.failure = some failure := by
  unfold write at failed
  dsimp only at failed
  split at failed
  · next earlier same =>
      cases failed
      exact same
  · cases failed

/-- A save that fails with a fault of the configuration, or of the path, leaves the store as it was.
Any other failure comes when a place for the file is open: then the file there holds what was
written until the failure, which is nothing if the configuration could not be converted, and every
other place is as it was. -/
theorem save_failed_cases (failed : (configuration.save store path).2 = .error failure) :
    (((∃ fault, failure = .config fault) ∨ failure = .invalidPath) ∧ ¬store.Writable path ∧
        (configuration.save store path).1 = store) ∨
      WriteFailure failure ∧ configuration.output.failure = some failure ∧
        (∀ earlier, configuration.entries = .error earlier → configuration.output.text = []) ∧
        ∃ place, Accepts place (store.follow path) ∧
          (configuration.save store path).1.follow path =
            .entry place (.file (encodeText configuration.output.text)) ∧
          ∀ other, other ≠ place →
            (configuration.save store path).1.look other = store.look other := by
  by_cases writable : store.Writable path
  · obtain ⟨place, accepts⟩ := writable
    obtain ⟨isFlat, grounded⟩ := FileStore.grounded_of_follow accepts
    rw [save_of_accepts accepts] at failed ⊢
    have stopped := write_failed failed
    refine .inr ⟨output_failure stopped, stopped, fun earlier unconverted => ?_, place, accepts,
      FileStore.follow_put accepts _, fun other apart => ?_⟩
    · rw [output_of_unconverted unconverted]
      rfl
    · exact FileStore.look_put_other isFlat grounded apart _
  · obtain ⟨refusal, saved, kind⟩ := save_of_not_writable configuration writable
    rw [saved] at failed ⊢
    cases failed
    exact .inl ⟨kind, writable, rfl⟩

/-! ### A key that cannot be written -/

/-- A configuration with a tuple for the key of an extra entry. -/
private def unkeyed : Configuration :=
  ⟨SectionOptions.standard, ⟨.text Metadata.generatorName, .text noonStamp, .null,
    .table [(.tuple [.int 1], .text "x".toList)]⟩⟩

private theorem unkeyed_fails : (unkeyed.save emptyTableStore settings).2 = .error .wrongKind :=
  rfl

private theorem accepts_settings : Accepts settings (emptyTableStore.follow settings) :=
  .inr ⟨_, rfl⟩

theorem save_failed_cases_unkeyed :
    ∃ place, Accepts place (emptyTableStore.follow settings) ∧
      (unkeyed.save emptyTableStore settings).1.follow settings =
        .entry place (.file (encodeText unkeyed.output.text)) := by
  rcases save_failed_cases unkeyed_fails with ⟨⟨_, other⟩ | other, _⟩ |
    ⟨_, _, _, place, accepts, leads, _⟩
  · cases other
  · cases other
  · exact ⟨place, accepts, leads⟩

/-- A configuration that can be made fails to be saved, and the file at the path, which held another
configuration, holds something else afterwards. -/
theorem save_failed_overwrites :
    ofValue noon (.table [(.text metadataKey,
      .table [(.tuple [.int 1], .text "x".toList)])]) = .ok unkeyed ∧
    (unkeyed.save emptyTableStore settings).2 = .error .wrongKind ∧
    emptyTableStore.follow settings = .entry settings (.file (encodeText emptyTable)) ∧
    (unkeyed.save emptyTableStore settings).1.follow settings ≠
      .entry settings (.file (encodeText emptyTable)) := by
  have known : ∀ key ∈ [Value.text metadataKey],
      Value.isKnown [defaultsKey, metadataKey] key = true := by decide
  refine ⟨ofValue_eq known rfl rfl rfl, unkeyed_fails, rfl, fun same => ?_⟩
  have leads : (unkeyed.save emptyTableStore settings).1.follow settings =
      .entry settings (.file (encodeText unkeyed.output.text)) := by
    rw [save_of_accepts accepts_settings]
    exact FileStore.follow_put accepts_settings _
  have bytes : encodeText unkeyed.output.text = encodeText emptyTable :=
    StoreEntry.file.inj (Goal.entry.inj (leads.symm.trans same)).2
  have texts := congrArg FileStore.decodeText bytes
  rw [FileStore.decodeText_encodeText, FileStore.decodeText_encodeText] at texts
  have longer : unkeyed.output.text ≠ emptyTable := by decide +kernel
  exact longer (Option.some.inj texts)

end Configuration

end TypeScriptGen
