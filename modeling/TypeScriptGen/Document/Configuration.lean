import TypeScriptGen.Document.Metadata
import TypeScriptGen.Document.Options

/-!
# Configurations

A configuration holds the options that sections start from and the metadata of
the document. It is made from a table with an entry for each. Under the
metadata, entries of unknown names become extra entries.
-/

namespace TypeScriptGen

structure Configuration where
  defaults : SectionOptions
  metadata : Metadata

namespace Configuration

def defaultsKey : Text := "section_defaults".toList

def metadataKey : Text := "global_metadata".toList

def standard (now : Calendar.Moment) : Except Failure Configuration := do
  let metadata ← Metadata.standard now
  pure ⟨SectionOptions.standard, metadata⟩

/-- The value under a key, null when there is none. -/
def entryOf (table : Table) (key : Text) : Value := (Table.field? table key).getD .null

/-- Puts an entry under the metadata into its field, or among the extra entries. -/
def addEntry (state : Metadata × Table) (entry : Value × Value) : Metadata × Table :=
  let (metadata, extra) := state
  match entry.1 with
  | .text name =>
      if name = Metadata.generatorKey || name = Metadata.timeKey || name = Metadata.projectKey then
        (metadata.setNamed name entry.2, extra)
      else if name = Metadata.timeTag then (metadata.setNamed Metadata.timeKey entry.2, extra)
      else (metadata, Table.insert extra entry.1 entry.2)
  | _ => (metadata, Table.insert extra entry.1 entry.2)

/-- Reads the metadata from a table: an entry `extra` gives the first extra entries. -/
def readMetadata (now : Calendar.Moment) (table : Table) : Except Failure Metadata := do
  let start ← Metadata.standard now
  let extra ← (entryOf table Metadata.extraKey).toTableOrEmpty
  let rest := Table.erase table (.text Metadata.extraKey)
  let (metadata, extra) := rest.foldl addEntry (start, extra)
  pure { metadata with extra := .table extra }

def ofValue (now : Calendar.Moment) (value : Value) : Except Failure Configuration := do
  let unknown ← value.unknownNames [defaultsKey, metadataKey]
  if !unknown.isEmpty then .error (.config (.unknownKeys unknown))
  else
    match value with
    | .table entries => do
        let overrides := entryOf entries defaultsKey
        let defaults ← SectionOptions.standard.merged
          (if overrides.isTruthy then overrides else .table [])
        let fields ← (entryOf entries metadataKey).toTableOrEmpty
        let metadata ← readMetadata now fields
        defaults.validate
        pure ⟨defaults, metadata⟩
    | _ => .error .unsupported

def entries (configuration : Configuration) : Except Failure Table := do
  let metadata ← configuration.metadata.entries
  pure [(.text defaultsKey, .table configuration.defaults.entries),
    (.text metadataKey, .table metadata)]

end Configuration

end TypeScriptGen
