import TypeScriptGen.Document.Configuration
import TypeScriptGen.Json.Reader
import TypeScriptGen.Json.Writer
import TypeScriptGen.Text.LetterCase

/-!
# Configuration files

A store holds the files and directories that can be read and written, by path.
A path is followed name by name, and a step upwards starts from a directory like
any other step. Loading looks at a path, then at its ending, then at its content, and takes the
configuration from the JSON object there. Saving empties the file before it
writes, so a failure leaves what was written until then.
-/

namespace TypeScriptGen

/-! ## Paths -/

structure Path where
  /-- The slashes in front; a path without them starts at the current place. -/
  root : Text
  components : List Text
deriving DecidableEq

namespace Path

/-- The slashes in front: two stay two, any other number is one. -/
def rootOf (text : Text) : Text :=
  match (text.takeWhile fun c => c == '/').length with
  | 0 => []
  | 2 => ['/', '/']
  | _ => ['/']

/-- Empty components and single dots do not count. -/
def ofText (text : Text) : Path :=
  ⟨rootOf text, (Text.splitOn '/' text).filter fun part => !part.isEmpty && part != ['.']⟩

def text (path : Path) : Text :=
  if path.root.isEmpty && path.components.isEmpty then ['.']
  else path.root ++ ['/'].intercalate path.components

def child (path : Path) (below : Path) : Path :=
  if below.root.isEmpty then ⟨path.root, path.components ++ below.components⟩ else below

/-- The ending of a file name from its last dot on; a dot that begins or ends the name makes none. -/
def endingOf (name : Text) : Text :=
  let tail := name.reverse.takeWhile fun c => !(c == '.')
  if tail.isEmpty || name.length ≤ tail.length + 1 then [] else '.' :: tail.reverse

def ending (path : Path) : Text :=
  match path.components.getLast? with
  | some name => endingOf name
  | none => []

def isJson (path : Path) : Bool := Text.lower path.ending == ".json".toList

/-- The name of a step upwards. -/
def upwards : Text := ['.', '.']

/-- One step from a place: to a name in it, or upwards. Nothing lies above the root. -/
def enter (place : Path) (name : Text) : Path :=
  if name = upwards && place.components.getLast?.getD upwards != upwards then
    { place with components := place.components.dropLast }
  else if name = upwards && !place.root.isEmpty then place
  else { place with components := place.components ++ [name] }

/-- The place that a path means when every step upwards takes back the one before it. -/
def flat (path : Path) : Path := path.components.foldl enter ⟨path.root, []⟩

/-- The places that a path goes through before it reaches its own. -/
def passed (path : Path) : List Path :=
  (List.range path.components.length).map fun count =>
    flat { path with components := path.components.take count }

end Path

/-! ## Stores -/

inductive StoreEntry
  | directory
  | file (content : ByteArray)

structure FileStore where
  entries : List (Path × StoreEntry)

/-- Where a path leads to. -/
inductive Goal
  | entry (place : Path) (entry : StoreEntry)
  /-- A directory holds no entry of that name. -/
  | free (place : Path)
  /-- A directory on the way is missing. -/
  | missing
  /-- A file stands where a directory should be. -/
  | blocked
  /-- A name, or the whole path, is too long. -/
  | tooLong
  /-- The path holds the character that ends a path. -/
  | invalid

namespace FileStore

/-- A store with one empty directory. -/
def ofDirectory (path : Path) : FileStore := ⟨[(path, .directory)]⟩

/-- The root, the current place and those above it are always there. -/
def look (store : FileStore) (place : Path) : Goal :=
  if place.components.all fun part => part == Path.upwards then .entry place .directory
  else
    match store.entries.lookup place with
    | some entry => .entry place entry
    | none => .free place

/-- The most bytes that a name may have. -/
def nameLimit : Nat := 255

/-- The most bytes that a path may have. -/
def pathLimit : Nat := 4095

def byteCount (text : Text) : Nat := (String.ofList text).utf8ByteSize

/-- Goes on to a name from where a path has led so far. -/
def step (store : FileStore) (goal : Goal) (name : Text) : Goal :=
  match goal with
  | .entry place .directory =>
      if nameLimit < byteCount name then .tooLong else store.look (place.enter name)
  | .entry _ (.file _) => .blocked
  | .free _ => .missing
  | stopped => stopped

/-- Follows a path one name after the other. -/
def follow (store : FileStore) (path : Path) : Goal :=
  if path.text.contains '\x00' then .invalid
  else if pathLimit < byteCount path.text then .tooLong
  else path.components.foldl store.step (.entry ⟨path.root, []⟩ .directory)

def holds (store : FileStore) (place : Path) : Bool :=
  match store.look place with
  | .entry _ _ => true
  | _ => false

/-- Puts an entry where a path leads, and directories where there are none on the way. -/
def put (store : FileStore) (path : Path) (entry : StoreEntry) : FileStore :=
  let place := path.flat
  let made := path.passed.filter fun other => !store.holds other
  ⟨(place, entry) :: made.map (fun other => (other, .directory)) ++
    store.entries.filter fun other => !(other.1 == place)⟩

/-- The bytes of a text of characters. Surrogates, which have none, are kept back when a value is
written. -/
def encodeText (text : Text) : ByteArray := (String.ofList text).toByteArray

def decodeText (content : ByteArray) : Option Text := (String.fromUTF8? content).map String.toList

theorem decodeText_encodeText (text : Text) : decodeText (encodeText text) = some text := by
  have valid := (String.ofList text).isValidUTF8
  rw [decodeText, encodeText, String.fromUTF8?, dif_pos valid]
  exact congrArg some String.toList_ofList

end FileStore

/-! ## Loading and saving -/

namespace Configuration

/-- The configuration in the text of a file. -/
def ofText (now : Calendar.Moment) (path content : Text) : Except Failure Configuration :=
  match Json.read content with
  | .error .malformed => .error (.config (.malformed path))
  | .error .oversize => .error .oversize
  | .ok (.table entries) => ofValue now (.table entries)
  | .ok _ => .error (.config (.notObject path))

def load (now : Calendar.Moment) (store : FileStore) (path : Path) :
    Except Failure Configuration :=
  match store.follow path with
  | .entry _ entry =>
      if !path.isJson then .error (.config (.notJson path.text))
      else
        match entry with
        | .directory => .error (.config (.unreadable path.text .directory))
        | .file content =>
            match FileStore.decodeText content with
            | none => .error .undecodable
            | some text => ofText now path.text text
  | .tooLong => .error .longPath
  | _ => .error (.config (.notFound path.text))

/-- What saving writes, up to a failure. -/
def output (configuration : Configuration) : Json.Output :=
  match configuration.entries with
  | .error failure => .fail failure
  | .ok entries => Json.write (.table entries)

def write (configuration : Configuration) (store : FileStore) (place : Path) :
    FileStore × Except Failure Text :=
  let output := configuration.output
  (store.put place (.file (FileStore.encodeText output.text)),
    match output.failure with
    | some failure => .error failure
    | none => .ok output.text)

/-- Saves a configuration; the file at the path is emptied first. -/
def save (configuration : Configuration) (store : FileStore) (path : Path) :
    FileStore × Except Failure Text :=
  let refuse (obstacle : Obstacle) : FileStore × Except Failure Text :=
    (store, .error (.config (.unwritable path.text obstacle)))
  match store.follow path with
  | .entry place (.file _) => configuration.write store place
  | .free place => configuration.write store place
  | .entry _ .directory => refuse .directory
  | .missing => refuse .missingDirectory
  | .blocked => refuse .noDirectory
  | .tooLong => refuse .longName
  | .invalid => (store, .error .invalidPath)

/-- Accepts nothing, a table, or the path of a file. A ragged text names no file. -/
def resolve (now : Calendar.Moment) (store : FileStore) : Value → Except Failure Configuration
  | .null => standard now
  | .table entries => ofValue now (.table entries)
  | .text content => load now store (Path.ofText content)
  | .ragged content => .error (.config (.notFound content.shown))
  | value => .error (.config (.invalidKind value))

/-- Accepts a configuration that is given as such, if its options are valid. -/
def accept (configuration : Configuration) : Except Failure Configuration := do
  configuration.defaults.validate
  pure configuration

end Configuration

end TypeScriptGen
