import TypeScriptGen.Value.Display

/-!
# Failures

The causes for which an operation gives no result, each with its message. A
failure without a message is one whose kind says all.
-/

namespace TypeScriptGen

/-- A part that a statement cannot be without. -/
inductive MissingPart
  | ifCondition
  | ifBody
  | switchExpression
  | whileCondition
  | doCondition
  | loopBody
deriving DecidableEq

def MissingPart.message : MissingPart → Text
  | .ifCondition => "Condition is required for if statement".toList
  | .ifBody => "Then block is required for if statement".toList
  | .switchExpression => "Expression is required for switch statement".toList
  | .whileCondition => "Condition is required for while statement".toList
  | .doCondition => "Condition is required for do-while statement".toList
  | .loopBody => "Body is required for loop statement".toList

/-- What a path meets that keeps a file from being read or written. -/
inductive Obstacle
  | directory
  | missingDirectory
  | noDirectory
  | longName

def quotedPath (path : Text) : Text := Text.display path

def Obstacle.message (path : Text) : Obstacle → Text
  | .directory => "[Errno 21] Is a directory: ".toList ++ quotedPath path
  | .missingDirectory => "[Errno 2] No such file or directory: ".toList ++ quotedPath path
  | .noDirectory => "[Errno 20] Not a directory: ".toList ++ quotedPath path
  | .longName => "[Errno 36] File name too long: ".toList ++ quotedPath path

/-- What is wrong with a configuration or its file. -/
inductive ConfigFault
  | invalidStyle (found : Value)
  | invalidSpacing (found : Value)
  | invalidOrder (found : Value)
  | metadataNotTable
  | unknownOptions (names : List Text)
  | unknownKeys (names : List Text)
  | invalidKind (found : Value)
  | notFound (path : Text)
  | notJson (path : Text)
  | malformed (path : Text)
  | notObject (path : Text)
  | unreadable (path : Text) (obstacle : Obstacle)
  | unwritable (path : Text) (obstacle : Obstacle)

def ConfigFault.message : ConfigFault → Text
  | .invalidStyle found =>
      "Invalid jsdoc_style: ".toList ++ found.display ++
        " (expected one of single, multi)".toList
  | .invalidSpacing found =>
      "Invalid spacing: ".toList ++ found.display ++
        " (expected one of compact, normal, loose)".toList
  | .invalidOrder found =>
      "Invalid order: ".toList ++ found.inspect ++ " (expected an integer)".toList
  | .metadataNotTable => "Section metadata must be a mapping".toList
  | .unknownOptions names =>
      "Unknown section option(s): ".toList ++ ", ".toList.intercalate names
  | .unknownKeys names =>
      "Unknown configuration key(s): ".toList ++ ", ".toList.intercalate names
  | .invalidKind found =>
      "Invalid config type: <class '".toList ++ found.fullKindName ++ "'>".toList
  | .notFound path => "Configuration file not found: ".toList ++ path
  | .notJson path => "Configuration file must be JSON: ".toList ++ path
  | .malformed path => "Invalid JSON in configuration file ".toList ++ path ++ [':']
  | .notObject path => "Configuration file must contain a JSON object: ".toList ++ path
  | .unreadable path obstacle =>
      "Failed to load configuration file ".toList ++ path ++ ": ".toList ++ obstacle.message path
  | .unwritable path obstacle =>
      "Failed to save configuration to ".toList ++ path ++ ": ".toList ++ obstacle.message path

/-- Why a template gives no text. -/
inductive TemplateFault
  | unknown
  | notIterable (kind : Text)
  | oversize
  /-- A value of the context has a key that is no text. -/
  | unnamed
  /-- A value of the context has the key of the template itself. -/
  | ownKey

def TemplateFault.message (name : Text) : TemplateFault → Text
  | .unknown => name
  | .notIterable kind => '\x27' :: kind ++ "' object is not iterable".toList
  | .oversize =>
      "Exceeds the limit (4300 digits) for integer string conversion; ".toList ++
        "use sys.set_int_max_str_digits() to increase the limit".toList
  | .unnamed => "keywords must be strings".toList
  | .ownKey => "Template.render() got multiple values for argument 'self'".toList

inductive Failure
  | builder (part : MissingPart)
  | config (fault : ConfigFault)
  | template (name : Text) (fault : TemplateFault)
  /-- A placeholder, or a value that is no node, has no printed form. -/
  | unprintable (kind : Text)
  /-- A frozen tracker takes no further code. -/
  | frozen
  /-- A table lacks a key that it must have. -/
  | missingKey (key : Value)
  /-- An import item has no text apart from its registry. -/
  | importItem (name : Text)
  /-- A value is of a kind that the operation cannot take. -/
  | wrongKind
  /-- A value does not offer what is asked of it, such as entries. -/
  | unsupported
  /-- A list that should hold pairs holds something else. -/
  | notPairs
  /-- There is no item at a place. -/
  | noItem
  /-- A whole number has more digits than can be written or read. -/
  | oversize
  /-- An instant lies outside the calendar. -/
  | outOfCalendar
  /-- The bytes of a file are no text. -/
  | undecodable
  /-- A text holds a surrogate, which no file can hold. -/
  | unencodable
  /-- A path, or a name in it, is too long to be looked up. -/
  | longPath
  /-- A path holds a character that no path can hold. -/
  | invalidPath
  /-- A level of logging has no such name. -/
  | unknownLevel

def Failure.message : Failure → Option Text
  | .builder part => some part.message
  | .config fault => some fault.message
  | .template name fault =>
      some ("Failed to render template ".toList ++ name ++ ": ".toList ++ fault.message name)
  | .unprintable kind => some ("Cannot print node of kind ".toList ++ kind)
  | .frozen => some "Usage tracker is frozen; reset it before scanning again".toList
  | .missingKey key => some key.inspect
  | .importItem name =>
      some ("Import item '".toList ++ name ++ "' is rendered by its registry".toList)
  | _ => none

/-- The display text of a value, unless a whole number in it is too long to write. -/
def Value.display? (value : Value) : Except Failure Text :=
  if value.holdsOversize then .error .oversize else .ok value.display

theorem Value.display?_text (content : Text) :
    (Value.text content).display? = .ok content := rfl

/-- The items of a value that is walked through. -/
def Value.elements (value : Value) : Except Failure (List Value) :=
  match value.elements? with
  | some items => .ok items
  | none => .error .wrongKind

end TypeScriptGen
