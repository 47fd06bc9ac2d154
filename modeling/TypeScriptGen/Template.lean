import TypeScriptGen.Failure
import TypeScriptGen.Text.Blank

/-!
# Templates

A declaration or import statement is laid out by a template, which reads named
values from a context. There are four built-in layouts. An engine may replace
them, and add others, by plain templates: text in which a name between double
braces stands for the display text of a value, or for nothing without a value.
-/

namespace TypeScriptGen

abbrev Context := List (Text × Value)

namespace Template

def whenSet (condition : Bool) (text : Text) : Text := if condition then text else []

/-- A comment on its own lines, if there is one. -/
def commentPart (comment : Text) : Text := whenSet (!comment.isEmpty) (comment ++ ['\n'])

def exportPart (exported : Bool) : Text := whenSet exported "export ".toList

def interfaceLayout (comment : Text) (exported : Bool) (name : Text)
    (heritage members : List Text) : Text :=
  commentPart comment ++ exportPart exported ++ "interface ".toList ++ name ++
    whenSet (!heritage.isEmpty) (" extends ".toList ++ ", ".toList.intercalate heritage) ++
    [' ', '\x7b', '\n'] ++ members.flatMap (fun member => member ++ ['\n']) ++ ['\x7d']

def enumLayout (comment : Text) (exported constant : Bool) (name : Text)
    (members : List Text) : Text :=
  commentPart comment ++ exportPart exported ++ whenSet constant "const ".toList ++
    "enum ".toList ++ name ++ [' ', '\x7b', '\n'] ++
    [',', '\n'].intercalate members ++ whenSet (!members.isEmpty) ['\n'] ++ ['\x7d']

def aliasLayout (comment : Text) (exported : Bool) (name : Text) (parameters : List Text)
    (type : Text) : Text :=
  commentPart comment ++ exportPart exported ++ "type ".toList ++ name ++
    whenSet (!parameters.isEmpty) ('<' :: ", ".toList.intercalate parameters ++ ['>']) ++
    " = ".toList ++ type ++ [';']

def importLayout (typeOnly : Bool) (clause module : Text) : Text :=
  "import ".toList ++ whenSet typeOnly "type ".toList ++ clause ++ " from ".toList ++
    Text.guard module ++ [';']

def interfaceName : Text := "interface.ts.j2".toList

def enumName : Text := "enum.ts.j2".toList

def aliasName : Text := "type_alias.ts.j2".toList

def importName : Text := "import.ts.j2".toList

/-! ## Reading the context -/

/-- The key that would stand for the template itself. -/
def ownKey : Text := "self".toList

/-- The context that a table gives. Its keys must be texts, and none may be the template's own. -/
def contextOf (table : Table) : Except TemplateFault Context :=
  let context := table.filterMap fun (key, value) =>
    match key with
    | .text name => some (name, value)
    | .ragged name => some (name.shown, value)
    | _ => none
  if context.length < table.length then .error .unnamed
  else if (context.lookup ownKey).isSome then .error .ownKey
  else .ok context

def display (value : Value) : Except TemplateFault Text :=
  if value.holdsOversize then .error .oversize else .ok value.display

def textOf (context : Context) (name : String) : Except TemplateFault Text :=
  match context.lookup name.toList with
  | some value => display value
  | none => .ok []

def flagOf (context : Context) (name : String) : Bool :=
  match context.lookup name.toList with
  | some value => value.isTruthy
  | none => false

/-- The text of a value that is left out when it is not truthy. -/
def optionalText (context : Context) (name : String) : Except TemplateFault Text :=
  if flagOf context name then textOf context name else .ok []

def displayAll (value : Value) : Except TemplateFault (List Text) :=
  match value.elements? with
  | some items => items.mapM display
  | none => .error (.notIterable value.kindName)

def listOf (context : Context) (name : String) : Except TemplateFault (List Text) :=
  match context.lookup name.toList with
  | some value => displayAll value
  | none => .ok []

def optionalList (context : Context) (name : String) : Except TemplateFault (List Text) :=
  if flagOf context name then listOf context name else .ok []

def renderInterface (context : Context) : Except TemplateFault Text := do
  let comment ← optionalText context "jsdoc"
  let name ← textOf context "name"
  let heritage ← optionalList context "heritage"
  let members ← listOf context "members"
  pure (interfaceLayout comment (flagOf context "exported") name heritage members)

def renderEnum (context : Context) : Except TemplateFault Text := do
  let comment ← optionalText context "jsdoc"
  let name ← textOf context "name"
  let members ← listOf context "members"
  pure (enumLayout comment (flagOf context "exported") (flagOf context "const") name members)

def renderAlias (context : Context) : Except TemplateFault Text := do
  let comment ← optionalText context "jsdoc"
  let name ← textOf context "name"
  let parameters ← optionalList context "type_parameters"
  let type ← textOf context "type"
  pure (aliasLayout comment (flagOf context "exported") name parameters type)

def renderImport (context : Context) : Except TemplateFault Text := do
  let clause ← textOf context "clause"
  let module ← textOf context "module"
  pure (importLayout (flagOf context "type_only") clause module)

/-! ## Plain templates -/

/-- A plain template is a list of literal texts and names. -/
inductive Piece
  | literal (text : Text)
  | variable (name : Text)

/-- The text up to the closing braces, and what follows them. -/
def upToClose : Text → Option (Text × Text)
  | [] => none
  | '\x7d' :: '\x7d' :: rest => some ([], rest)
  | c :: rest => (upToClose rest).map fun (inner, after) => (c :: inner, after)

/-- The pieces of a source, with `skip` characters of it belonging to the piece before. -/
def piecesFrom : Nat → Text → List Piece
  | _, [] => []
  | skip + 1, _ :: rest => piecesFrom skip rest
  | 0, c :: rest =>
      match c, rest with
      | '\x7b', '\x7b' :: inner =>
          match upToClose inner with
          | some (name, after) =>
              .variable (Text.trim name) ::
                piecesFrom (rest.length - after.length) rest
          | none => .literal [c] :: piecesFrom 0 rest
      | _, _ => .literal [c] :: piecesFrom 0 rest

/-- Line breaks of all three kinds become line feeds. -/
def unifyBreaks : Text → Text
  | [] => []
  | '\r' :: '\n' :: rest => '\n' :: unifyBreaks rest
  | '\r' :: rest => '\n' :: unifyBreaks rest
  | c :: rest => c :: unifyBreaks rest

/-- One line feed at the end of a source does not count. -/
def dropFinalBreak (source : Text) : Text :=
  if source.getLast? = some '\n' then source.dropLast else source

def pieces (source : Text) : List Piece := piecesFrom 0 (dropFinalBreak (unifyBreaks source))

def escapeMarkup (text : Text) : Text :=
  text.flatMap fun c =>
    if c = '&' then "&amp;".toList
    else if c = '<' then "&lt;".toList
    else if c = '>' then "&gt;".toList
    else if c = '\x27' then "&#39;".toList
    else if c = '"' then "&#34;".toList
    else [c]

/-- Templates for markup, known by their ending, write their values escaped. -/
def isMarkup (name : Text) : Bool :=
  let small := name.map Char.toLower
  ".html".toList.isSuffixOf small || ".xml".toList.isSuffixOf small

def renderPiece (markup : Bool) (context : Context) : Piece → Except TemplateFault Text
  | .literal text => .ok text
  | .variable name =>
      match context.lookup name with
      | none => .ok []
      | some value => do
          let text ← display value
          pure (if markup then escapeMarkup text else text)

def renderPieces (markup : Bool) (context : Context) (source : List Piece) :
    Except TemplateFault Text := do
  let texts ← source.mapM (renderPiece markup context)
  pure texts.flatten

end Template

/-- A source of templates: the built-in ones and those that replace or extend them. -/
structure Engine where
  replacements : List (Text × Text)

namespace Engine

def standard : Engine := ⟨[]⟩

def builtIn (name : Text) (context : Context) : Except TemplateFault Text :=
  if name = Template.interfaceName then Template.renderInterface context
  else if name = Template.enumName then Template.renderEnum context
  else if name = Template.aliasName then Template.renderAlias context
  else if name = Template.importName then Template.renderImport context
  else .error .unknown

def render (engine : Engine) (name : Text) (context : Context) : Except Failure Text :=
  let result :=
    match engine.replacements.lookup name with
    | some source => Template.renderPieces (Template.isMarkup name) context (Template.pieces source)
    | none => builtIn name context
  match result with
  | .ok text => .ok text
  | .error fault => .error (.template name fault)

def builtInNames : List Text :=
  [Template.interfaceName, Template.enumName, Template.aliasName, Template.importName]

def holds (engine : Engine) (name : Text) : Bool :=
  (engine.replacements.lookup name).isSome || builtInNames.contains name

/-- Renders a template that the engine holds with the values of a table, each under its key. -/
def renderTable (engine : Engine) (name : Text) (table : Table) : Except Failure Text :=
  match Template.contextOf table with
  | .ok context => engine.render name context
  | .error fault => .error (.template name (if engine.holds name then fault else .unknown))

end Engine

end TypeScriptGen
