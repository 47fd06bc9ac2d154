import TypeScriptGen.Value.Mapping

/-!
# Section options

The options of a section are values of any kind until they are validated.
`merged` replaces some of them and validates the result; a null override is no
override, except for the order.
-/

namespace TypeScriptGen

inductive OptionField
  | description
  | style
  | endMarker
  | exportAll
  | spacing
  | sortItems
  | order
  | metadata
deriving DecidableEq

namespace OptionField

def all : List OptionField :=
  [.description, .style, .endMarker, .exportAll, .spacing, .sortItems, .order, .metadata]

def name : OptionField → Text
  | .description => "description".toList
  | .style => "jsdoc_style".toList
  | .endMarker => "add_end_comment".toList
  | .exportAll => "export_all".toList
  | .spacing => "spacing".toList
  | .sortItems => "sort_items".toList
  | .order => "order".toList
  | .metadata => "metadata".toList

def names : List Text := all.map name

def ofName? (name : Text) : Option OptionField := all.find? fun field => field.name == name

end OptionField

structure SectionOptions where
  description : Value
  style : Value
  endMarker : Value
  exportAll : Value
  spacing : Value
  sortItems : Value
  order : Value
  metadata : Value

namespace SectionOptions

def standard : SectionOptions :=
  { description := .null
    style := .text "multi".toList
    endMarker := .bool true
    exportAll := .bool false
    spacing := .text "normal".toList
    sortItems := .bool false
    order := .null
    metadata := .table [] }

def get (options : SectionOptions) : OptionField → Value
  | .description => options.description
  | .style => options.style
  | .endMarker => options.endMarker
  | .exportAll => options.exportAll
  | .spacing => options.spacing
  | .sortItems => options.sortItems
  | .order => options.order
  | .metadata => options.metadata

def set (options : SectionOptions) (field : OptionField) (value : Value) : SectionOptions :=
  match field with
  | .description => { options with description := value }
  | .style => { options with style := value }
  | .endMarker => { options with endMarker := value }
  | .exportAll => { options with exportAll := value }
  | .spacing => { options with spacing := value }
  | .sortItems => { options with sortItems := value }
  | .order => { options with order := value }
  | .metadata => { options with metadata := value }

theorem get_set (options : SectionOptions) (field other : OptionField) (value : Value) :
    (options.set field value).get other = if other = field then value else options.get other := by
  cases field <;> cases other <;> rfl

/-- Sets an option by name; a name that is no option sets nothing. -/
def setNamed (options : SectionOptions) (name : Text) (value : Value) : SectionOptions :=
  match OptionField.ofName? name with
  | some field => options.set field value
  | none => options

def entries (options : SectionOptions) : Table :=
  OptionField.all.map fun field => (.text field.name, options.get field)

def isStyle : Value → Bool
  | .text content => content == "single".toList || content == "multi".toList
  | _ => false

def isSpacing : Value → Bool
  | .text content =>
      content == "compact".toList || content == "normal".toList || content == "loose".toList
  | _ => false

/-- Null or a whole number; a truth value counts as one. -/
def isOrder : Value → Bool
  | .null => true
  | .bool _ => true
  | .int _ => true
  | _ => false

def isTable : Value → Bool
  | .table _ => true
  | _ => false

/-- The failure that names a value, unless the value cannot be written. -/
def complaint (fault : Value → ConfigFault) (value : Value) : Failure :=
  if value.holdsOversize then .oversize else .config (fault value)

def validate (options : SectionOptions) : Except Failure Unit :=
  if !isStyle options.style then .error (complaint .invalidStyle options.style)
  else if !options.spacing.isHashable then .error .wrongKind
  else if !isSpacing options.spacing then .error (complaint .invalidSpacing options.spacing)
  else if !isOrder options.order then .error (complaint .invalidOrder options.order)
  else if !isTable options.metadata then .error (.config .metadataNotTable)
  else .ok ()

def isValid (options : SectionOptions) : Bool :=
  isStyle options.style && isSpacing options.spacing && isOrder options.order &&
    isTable options.metadata

theorem validate_eq_ok_iff (options : SectionOptions) :
    options.validate = .ok () ↔ options.isValid = true := by
  have hashable : isSpacing options.spacing = true → options.spacing.isHashable = true := by
    intro spacing
    cases same : options.spacing <;> simp_all [isSpacing, Value.isHashable]
  simp only [validate, isValid, Bool.and_eq_true, Bool.not_eq_true']
  constructor
  · intro valid
    split at valid
    · cases valid
    · split at valid
      · cases valid
      · split at valid
        · cases valid
        · split at valid
          · cases valid
          · split at valid
            · cases valid
            · simp_all
  · rintro ⟨⟨⟨style, spacing⟩, order⟩, metadata⟩
    simp [style, spacing, order, metadata, hashable spacing]

/-- The override counts: it is not null, or it is for the order. -/
def counts (name : Text) (value : Value) : Bool := !value.isNull || name == OptionField.order.name

/-- Sets the options that the entries of a table name. -/
def setEntries (options : SectionOptions) (overrides : Table) : SectionOptions :=
  overrides.foldl (fun options entry =>
    match entry.1 with
    | .text name => if counts name entry.2 then options.setNamed name entry.2 else options
    | _ => options) options

/-- The overrides give the metadata a value. -/
def setsMetadata (overrides : Table) : Bool :=
  match Table.field? overrides OptionField.metadata.name with
  | some value => !value.isNull
  | none => false

def merged (options : SectionOptions) (overrides : Value) : Except Failure SectionOptions :=
  if !overrides.isTruthy then do
    let metadata ← options.metadata.toTable
    pure { options with metadata := .table metadata }
  else do
    let unknown ← overrides.unknownNames OptionField.names
    if !unknown.isEmpty then .error (.config (.unknownOptions unknown))
    else
      match overrides with
      | .table entries => do
          let metadata ←
            if setsMetadata entries then pure options.metadata
            else (options.metadata.toTable).map .table
          let result := setEntries { options with metadata := metadata } entries
          result.validate
          pure result
      | _ => .error .unsupported

/-- The options with the given fields, not validated; a field that does not exist is refused. -/
def ofTable (fields : Table) : Except Failure SectionOptions :=
  fields.foldlM (fun options entry =>
    match entry.1 with
    | .text name =>
        match OptionField.ofName? name with
        | some field => .ok (options.set field entry.2)
        | none => .error .wrongKind
    | _ => .error .wrongKind) standard

end SectionOptions

end TypeScriptGen
