import TypeScriptGen.Proofs.Document.Files
import TypeScriptGen.Proofs.Document.Misfits

/-!
# Files that cannot be loaded

Loading a file that holds no configuration should end with a fault of the
configuration. It does so unless the path is too long, the bytes are no text, a
whole number is too long, or data of another kind stands where a table should be or
where the spacing should be: these end with failures of their own.
-/

namespace TypeScriptGen

/-! ## Configurations -/

namespace Configuration

section Entries

variable {now : Calendar.Moment} {stamp : Text} {entries fields : Table}

/-- The options among the entries are accepted. -/
def Merges (entries : Table) : Prop :=
  ∃ options, SectionOptions.standard.merged (entryOf entries defaultsKey) = .ok options

/-- Entries of a configuration that are refused otherwise than as a fault of it: its options are a
misfit; or, behind options that are accepted, its metadata or the extra entries in them do not serve
as a table. -/
inductive Misfit (entries : Table) : Prop
  | options (known : KnownKeys entries)
      (misfit : SectionOptions.Misfit (entryOf entries defaultsKey))
  | metadata (known : KnownKeys entries) (merges : Merges entries)
      (odd : (entryOf entries metadataKey).servesAsTable = false)
  | extra (known : KnownKeys entries) (merges : Merges entries) {fields : Table}
      (listed : (entryOf entries metadataKey).toTableOrEmpty = .ok fields)
      (odd : (entryOf fields Metadata.extraKey).servesAsTable = false)

theorem clear_toTableOrEmpty_iff {value : Value} :
    Clear value.toTableOrEmpty ↔ value.servesAsTable = true := by
  cases serves : value.servesAsTable with
  | true =>
      obtain ⟨table, listed⟩ := Value.toTableOrEmpty_of_servesAsTable serves
      rw [listed]
      exact iff_of_true (clear_ok _) rfl
  | false => exact iff_of_false (Value.refused_toTableOrEmpty serves).not_clear Bool.false_ne_true

theorem clear_readMetadata_iff (clock : Timestamp.ofMoment now = .ok stamp) :
    Clear (readMetadata now fields) ↔
      (entryOf fields Metadata.extraKey).servesAsTable = true := by
  have standard : Metadata.standard now =
      .ok ⟨.text Metadata.generatorName, .text stamp, .null, .table []⟩ := by
    rw [Metadata.standard, bind_ok clock]
    rfl
  rw [readMetadata, bind_ok standard, clear_bind_iff, clear_toTableOrEmpty_iff]
  exact and_iff_left fun _ _ => clear_ok _

theorem data_entryOf (data : Json.Data (.table entries)) (name : Text) :
    Json.Data (entryOf entries name) := by
  cases data with
  | table _ _ all =>
      rw [entryOf]
      cases found : Table.field? entries name with
      | none => exact .null
      | some value => exact all _ (Table.mem_of_field? found)

/-- A configuration is made clearly of JSON data unless its entries are a misfit. -/
theorem clear_ofValue_iff (clock : Timestamp.ofMoment now = .ok stamp)
    (data : Json.Data (.table entries)) :
    Clear (ofValue now (.table entries)) ↔ ¬Misfit entries := by
  by_cases known : KnownKeys entries
  · have valid {options : SectionOptions}
        (merged : SectionOptions.standard.merged (entryOf entries defaultsKey) = .ok options) :
        options.validate = .ok () :=
      (SectionOptions.validate_eq_ok_iff options).mpr
        (SectionOptions.standard_merged_cases merged).1
    rw [ofValue_known known]
    -- the steps one behind the other, each with what it needs of those before it
    simp only [clear_bind_iff, SectionOptions.clear_merged_iff (data_entryOf data _),
      clear_toTableOrEmpty_iff, clear_readMetadata_iff clock]
    constructor
    · rintro ⟨fits, rest⟩ (⟨_, misfit⟩ | ⟨_, ⟨options, merged⟩, odd⟩ |
        ⟨_, ⟨options, merged⟩, listed, odd⟩)
      · exact fits misfit
      · cases odd.symm.trans (rest options merged).1
      · cases odd.symm.trans ((rest options merged).2 _ listed).1
    · intro fits
      refine ⟨fun misfit => fits (.options known misfit), fun options merged => ⟨?_, ?_⟩⟩
      · exact eq_true_of_ne_false fun odd => fits (.metadata known ⟨options, merged⟩ odd)
      · refine fun fields listed => ⟨?_, fun metadata _ => ?_⟩
        · exact eq_true_of_ne_false fun odd => fits (.extra known ⟨options, merged⟩ listed odd)
        · rw [valid merged]
          exact ⟨clear_ok _, fun _ _ => clear_ok _⟩
  · obtain ⟨key, among, unknown⟩ :
        ∃ key ∈ Table.keys entries, Value.isKnown [defaultsKey, metadataKey] key = false := by
      simpa [KnownKeys] using known
    have texts : ∀ key ∈ Table.keys entries, key.IsText := by
      intro key among
      obtain ⟨entry, member, rfl⟩ := List.mem_map.mp among
      cases data with
      | table _ named _ => exact named entry member
    have walked : (Value.table entries).elements? = some (Table.keys entries) := rfl
    obtain ⟨name, names, left⟩ := Value.unknownNames_of_texts walked texts among unknown
    have refused : ofValue now (.table entries) =
        .error (.config (.unknownKeys (name :: names))) := by
      rw [ofValue, bind_ok left]
      rfl
    rw [refused]
    refine iff_of_true (clear_config _) ?_
    rintro (⟨all, _⟩ | ⟨all, _, _⟩ | ⟨all, _, _, _⟩) <;> exact known all

end Entries

/-! ## Files -/

section Files

variable {now : Calendar.Moment} {stamp : Text} {store : FileStore} {path : Path}

/-- The path has the ending of JSON files and leads to a file with this content. -/
def Serves (store : FileStore) (path : Path) (content : ByteArray) : Prop :=
  path.isJson = true ∧ ∃ place, store.follow path = .entry place (.file content)

theorem Serves.unique {first second : ByteArray} (one : Serves store path first)
    (two : Serves store path second) : first = second := by
  obtain ⟨_, _, leads⟩ := one
  obtain ⟨_, _, same⟩ := two
  exact StoreEntry.file.inj (Goal.entry.inj (leads.symm.trans same)).2

/-- Loading from the path is refused otherwise than as a fault of the configuration. -/
inductive Escapes (store : FileStore) (path : Path) : Prop
  | tooLong (long : store.follow path = .tooLong)
  | undecodable {content : ByteArray} (serves : Serves store path content)
      (undecoded : FileStore.decodeText content = none)
  | oversize {content : ByteArray} {text : Text} (serves : Serves store path content)
      (decoded : FileStore.decodeText content = some text)
      (large : Json.read text = .error .oversize)
  | misfit {content : ByteArray} {text : Text} {entries : Table}
      (serves : Serves store path content) (decoded : FileStore.decodeText content = some text)
      (read : Json.read text = .ok (.table entries)) (misfit : Misfit entries)

/-- A configuration with valid options, or a fault of the configuration. -/
def Reported (outcome : Except Failure Configuration) : Prop :=
  (∃ configuration, outcome = .ok configuration ∧ configuration.defaults.validate = .ok ()) ∨
    ∃ fault, outcome = .error (.config fault)

theorem valid_of_ofText {path content : Text} {configuration : Configuration}
    (made : ofText now path content = .ok configuration) :
    configuration.defaults.validate = .ok () := by
  unfold ofText at made
  split at made
  · cases made
  · cases made
  · obtain ⟨_, _, _, merged, _, _⟩ := ofValue_cases made
    exact (SectionOptions.validate_eq_ok_iff _).mpr (SectionOptions.standard_merged_cases merged).1
  · cases made

theorem valid_of_load {configuration : Configuration}
    (loaded : load now store path = .ok configuration) :
    configuration.defaults.validate = .ok () := by
  unfold load at loaded
  split at loaded
  · split at loaded
    · cases loaded
    · split at loaded
      · cases loaded
      · split at loaded
        · cases loaded
        · exact valid_of_ofText loaded
  · cases loaded
  · cases loaded

theorem reported_load_iff_clear :
    Reported (load now store path) ↔ Clear (load now store path) := by
  cases loaded : load now store path with
  | ok configuration =>
      exact iff_of_true (.inl ⟨configuration, rfl, valid_of_load loaded⟩) (clear_ok _)
  | error failure =>
      rw [clear_error_iff]
      constructor
      · rintro (⟨_, same, _⟩ | ⟨fault, same⟩)
        · cases same
        · exact ⟨fault, Except.error.inj same⟩
      · exact fun ⟨fault, same⟩ => .inr ⟨fault, congrArg Except.error same⟩

theorem clear_ofText_iff (clock : Timestamp.ofMoment now = .ok stamp) {path text : Text} :
    Clear (ofText now path text) ↔ Json.read text ≠ .error .oversize ∧
      ∀ entries, Json.read text = .ok (.table entries) → ¬Misfit entries := by
  unfold ofText
  cases read : Json.read text with
  | error fault =>
      cases fault with
      | malformed => exact iff_of_true (clear_config _) ⟨nofun, nofun⟩
      | oversize => exact iff_of_false (not_clear_error nofun) (absurd rfl ·.1)
  | ok value =>
      cases value with
      | table entries =>
          rw [clear_ofValue_iff clock (Json.data_of_read read)]
          exact ⟨fun fits => ⟨nofun, fun _ same => by cases same; exact fits⟩,
            fun fits => fits.2 entries rfl⟩
      | _ => exact iff_of_true (clear_config _) ⟨nofun, nofun⟩

/-- What is loaded from a file depends on its content alone. -/
theorem clear_load_iff (clock : Timestamp.ofMoment now = .ok stamp) {content : ByteArray}
    (serves : Serves store path content) :
    Clear (load now store path) ↔ ¬Escapes store path := by
  obtain ⟨place, leads⟩ := serves.2
  rw [load, leads]
  dsimp only
  rw [serves.1, Bool.not_true, if_neg Bool.false_ne_true]
  cases decoded : FileStore.decodeText content with
  | none =>
      exact iff_of_false (not_clear_error (by simp)) (not_not_intro (.undecodable serves decoded))
  | some text =>
      dsimp only
      rw [clear_ofText_iff clock]
      constructor
      · rintro ⟨small, fits⟩ (long | ⟨other, undecoded⟩ | ⟨other, own, large⟩ |
          ⟨other, own, read, misfit⟩)
        · cases leads.symm.trans long
        · obtain rfl := serves.unique other
          cases decoded.symm.trans undecoded
        · obtain rfl := serves.unique other
          cases decoded.symm.trans own
          exact small large
        · obtain rfl := serves.unique other
          cases decoded.symm.trans own
          exact fits _ read misfit
      · exact fun escapes => ⟨fun large => escapes (.oversize serves decoded large),
          fun entries read misfit => escapes (.misfit serves decoded read misfit)⟩

/-- Where no file of the right ending is, loading is a fault, if the path is not too long. -/
theorem clear_load_of_not_serves (absent : ∀ content, ¬Serves store path content) :
    Clear (load now store path) ↔ ¬Escapes store path := by
  have escapes_iff : Escapes store path ↔ store.follow path = .tooLong := by
    refine ⟨?_, .tooLong⟩
    rintro (long | ⟨serves, _⟩ | ⟨serves, _, _⟩ | ⟨serves, _, _, _⟩)
    · exact long
    all_goals exact absurd serves (absent _)
  rw [escapes_iff, load]
  cases leads : store.follow path with
  | tooLong => exact iff_of_false (not_clear_error (by simp)) (not_not_intro rfl)
  | entry place entry =>
      refine iff_of_true ?_ (by simp)
      dsimp only
      split
      · exact clear_config _
      · next json =>
          cases entry with
          | directory => exact clear_config _
          | file content => exact absurd ⟨by simpa using json, place, leads⟩ (absent content)
  | _ => exact iff_of_true (clear_config _) (by simp)

/-- Loading gives a configuration with valid options or a fault of the configuration, exactly
unless the path is too long, or the file there holds bytes that are no text, a whole number that is
too long, or data of another kind where a table should be or where the spacing should be. -/
theorem load_reported_iff (clock : Timestamp.ofMoment now = .ok stamp) (store : FileStore)
    (path : Path) : Reported (load now store path) ↔ ¬Escapes store path := by
  rw [reported_load_iff_clear]
  by_cases there : ∃ content, Serves store path content
  · obtain ⟨content, serves⟩ := there
    exact clear_load_iff clock serves
  · exact clear_load_of_not_serves (not_exists.mp there)

end Files

/-! ### A file that loads and one that is no text -/

private theorem serves_storeOf (content : ByteArray) : Serves (storeOf content) settings content :=
  ⟨by decide +kernel, settings, rfl⟩

private theorem not_escapes_empty : ¬Escapes emptyTableStore settings := by
  have read : Json.read emptyTable = .ok (.table []) := by rfl
  have only {content : ByteArray} (serves : Serves emptyTableStore settings content) :
      FileStore.decodeText content = some emptyTable := by
    rw [serves.unique (serves_storeOf _)]
    exact FileStore.decodeText_encodeText emptyTable
  rintro (long | ⟨serves, undecoded⟩ | ⟨serves, decoded, large⟩ | ⟨serves, decoded, found, misfit⟩)
  · cases long
  · cases (only serves).symm.trans undecoded
  · cases (only serves).symm.trans decoded
    cases read.symm.trans large
  · cases (only serves).symm.trans decoded
    cases read.symm.trans found
    rcases misfit with ⟨_, misfit⟩ | ⟨_, _, odd⟩ | ⟨_, _, listed, odd⟩
    · cases misfit.isTruthy
    · cases odd
    · cases listed
      cases odd

theorem load_reported_empty :
    Reported (load noon emptyTableStore settings) :=
  (load_reported_iff ofMoment_noon _ _).mpr not_escapes_empty

/-- A file of one byte that begins no character has no fault of the configuration. -/
theorem load_not_reported_undecodable :
    load noon (storeOf ⟨#[0xff]⟩) settings = .error .undecodable ∧
      ¬Reported (load noon (storeOf ⟨#[0xff]⟩) settings) := by
  have undecoded : FileStore.decodeText ⟨#[0xff]⟩ = none := by decide +kernel
  have loaded : load noon (storeOf ⟨#[0xff]⟩) settings = .error .undecodable := by
    obtain ⟨json, _, leads⟩ := serves_storeOf ⟨#[0xff]⟩
    rw [load, leads]
    dsimp only
    rw [json, undecoded]
    rfl
  refine ⟨loaded, ?_⟩
  rw [loaded]
  rintro (⟨_, same, _⟩ | ⟨_, same⟩) <;> cases same

end Configuration

end TypeScriptGen
