import TypeScriptGen.Comment
import TypeScriptGen.Value.Mapping

/-!
# Document metadata

The metadata of a document become the tags of its header: the generator, the
time of generation, the project, and any extra entries. An extra entry of the
same name takes the place of one of the three; null entries are left out.
-/

namespace TypeScriptGen

structure Metadata where
  generator : Value
  generatedAt : Value
  project : Value
  extra : Value

namespace Metadata

def generatorName : Text := "ts-builder".toList

def generatorKey : Text := "generator".toList

def timeKey : Text := "generated_at".toList

def timeTag : Text := "generatedAt".toList

def projectKey : Text := "project".toList

def extraKey : Text := "extra".toList

def standard (now : Calendar.Moment) : Except Failure Metadata := do
  let stamp ← Timestamp.ofMoment now
  pure ⟨.text generatorName, .text stamp, .null, .table []⟩

def setNamed (metadata : Metadata) (name : Text) (value : Value) : Metadata :=
  if name = generatorKey then { metadata with generator := value }
  else if name = timeKey then { metadata with generatedAt := value }
  else if name = projectKey then { metadata with project := value }
  else if name = extraKey then { metadata with extra := value }
  else metadata

def fieldNames : List Text := [generatorKey, timeKey, projectKey, extraKey]

/-- The metadata with the given fields; a field that does not exist is refused. -/
def ofTable (now : Calendar.Moment) (fields : Table) : Except Failure Metadata := do
  let start ← standard now
  fields.foldlM (fun (metadata : Metadata) (entry : Value × Value) =>
    match entry.1 with
    | .text name =>
        if fieldNames.contains name then .ok (metadata.setNamed name entry.2)
        else .error .wrongKind
    | _ => .error .wrongKind) start

def extraEntries (metadata : Metadata) : Except Failure Table :=
  match metadata.extra with
  | .table entries => .ok entries
  | _ => .error .wrongKind

/-- The time of generation as a timestamp; null stays null. -/
def timeValue (clock : Clock) (metadata : Metadata) : Except Failure Value × List Warning :=
  if metadata.generatedAt.isNull then (.ok .null, [])
  else Timestamp.ofValue clock metadata.generatedAt

def tagTable (metadata : Metadata) (time : Value) (extra : Table) : Table :=
  Table.insertAll
    [(.text generatorKey, metadata.generator), (.text timeTag, time),
      (.text projectKey, metadata.project)] extra

/-- The tags of the header, without null entries, and the warnings of making them. -/
def tags (clock : Clock) (metadata : Metadata) : Except Failure Table × List Warning :=
  let (time, warnings) := metadata.timeValue clock
  let result := do
    let time ← time
    let extra ← metadata.extraEntries
    pure ((metadata.tagTable time extra).filter fun entry => !entry.2.isNull)
  (result, warnings)

/-- The entries as they are saved: the time of generation under its own name, a moment as a
timestamp, and the extra entries beside the three. -/
def entries (metadata : Metadata) : Except Failure Table := do
  let time ←
    match metadata.generatedAt with
    | .moment date => (Timestamp.ofMoment date).map .text
    | other => pure other
  let extra ← metadata.extraEntries
  pure (Table.insertAll
    [(.text generatorKey, metadata.generator), (.text timeKey, time),
      (.text projectKey, metadata.project)] extra)

end Metadata

end TypeScriptGen
