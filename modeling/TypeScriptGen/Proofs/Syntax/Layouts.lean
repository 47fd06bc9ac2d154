import TypeScriptGen.Proofs.Text.Laying
import TypeScriptGen.Syntax.Printer

/-!
# Built-in layouts of declarations

Given texts, the built-in templates always succeed, and the declaration they lay
out shows its name and every text that was given for its parts.
-/

namespace TypeScriptGen

namespace Template

theorem mapM_display (texts : List Text) :
    (texts.map Printer.textValue).mapM display = .ok texts := by
  induction texts with
  | nil => rfl
  | cons text texts ih =>
      rw [List.map_cons, List.mapM_cons, ih]
      rfl

theorem displayAll_textValues (texts : List Text) :
    displayAll (Printer.textValues texts) = .ok texts := mapM_display texts

theorem optionalText_eq {context : Context} {name : String} (text : Text)
    (found : context.lookup name.toList = some (.text text)) :
    optionalText context name = .ok text := by
  unfold optionalText flagOf textOf
  rw [found]
  cases text <;> rfl

theorem optionalList_eq {context : Context} {name : String} (texts : List Text)
    (found : context.lookup name.toList = some (Printer.textValues texts)) :
    optionalList context name = .ok texts := by
  unfold optionalList flagOf listOf
  rw [found]
  dsimp only
  rw [displayAll_textValues]
  cases texts <;> rfl

theorem render_standard {name text : Text} {context : Context}
    (built : Engine.builtIn name context = .ok text) :
    Engine.standard.render name context = .ok text := by
  have unreplaced : Engine.standard.replacements.lookup name = none := rfl
  unfold Engine.render
  rw [unreplaced]
  dsimp only
  rw [built]

/-! ## Interfaces -/

def interfaceContext (comment : List Text) (exported : Bool) (name : Text)
    (heritage members : List Text) : Context :=
  [("jsdoc".toList, .text (Comment.doc comment)), ("exported".toList, .bool exported),
    ("name".toList, .text name), ("heritage".toList, Printer.textValues heritage),
    ("members".toList, Printer.textValues members)]

theorem render_interface (comment : List Text) (exported : Bool) (name : Text)
    (heritage members : List Text) :
    Engine.standard.render interfaceName (interfaceContext comment exported name heritage members) =
      .ok (interfaceLayout (Comment.doc comment) exported name heritage members) := by
  refine render_standard ?_
  change renderInterface (interfaceContext comment exported name heritage members) = _
  have lines : listOf (interfaceContext comment exported name heritage members) "members" =
      .ok members := displayAll_textValues members
  unfold renderInterface
  rw [optionalText_eq (Comment.doc comment) rfl, optionalList_eq heritage rfl,
    lines]
  rfl

/-- A part that is left out without texts is there when there is one. -/
theorem infix_whenSet {texts : List Text} {text shown : Text} (member : text ∈ texts)
    (inside : text <:+: shown) : text <:+: whenSet (!texts.isEmpty) shown := by
  cases texts with
  | nil => cases member
  | cons first rest => exact inside

/-- An interface shows its name, its parents and its members. -/
theorem infix_interfaceLayout {comment name text : Text} {exported : Bool}
    {heritage members : List Text} (part : text = name ∨ text ∈ heritage ∨ text ∈ members) :
    text <:+: interfaceLayout comment exported name heritage members := by
  unfold interfaceLayout
  simp only [List.append_assoc]
  refine List.infix_append_of_infix_right (List.infix_append_of_infix_right
    (List.infix_append_of_infix_right ?_))
  rcases part with rfl | parent | member
  · exact List.infix_append_left
  · exact List.infix_append_of_infix_right (List.infix_append_of_infix_left
      (infix_whenSet parent (List.infix_append_of_infix_right
        (Text.infix_intercalate _ parent))))
  · refine List.infix_append_of_infix_right (List.infix_append_of_infix_right
      (List.infix_append_of_infix_right (List.infix_append_of_infix_left ?_)))
    exact List.infix_append_left.trans
      (Text.infix_flatMap (fun member => member ++ ['\n']) member)

/-! ## Type aliases -/

def aliasContext (comment : List Text) (exported : Bool) (name : Text) (parameters : List Text)
    (type : Text) : Context :=
  [("jsdoc".toList, .text (Comment.doc comment)), ("exported".toList, .bool exported),
    ("name".toList, .text name), ("type_parameters".toList, Printer.textValues parameters),
    ("type".toList, .text type)]

theorem render_alias (comment : List Text) (exported : Bool) (name : Text) (parameters : List Text)
    (type : Text) :
    Engine.standard.render aliasName (aliasContext comment exported name parameters type) =
      .ok (aliasLayout (Comment.doc comment) exported name parameters type) := by
  refine render_standard ?_
  change renderAlias (aliasContext comment exported name parameters type) = _
  unfold renderAlias
  rw [optionalText_eq (Comment.doc comment) rfl, optionalList_eq parameters rfl]
  rfl

/-- An alias shows its name, its parameters and its type. -/
theorem infix_aliasLayout {comment name type text : Text} {exported : Bool}
    {parameters : List Text} (part : text = name ∨ text ∈ parameters ∨ text = type) :
    text <:+: aliasLayout comment exported name parameters type := by
  unfold aliasLayout
  simp only [List.append_assoc]
  refine List.infix_append_of_infix_right (List.infix_append_of_infix_right
    (List.infix_append_of_infix_right ?_))
  rcases part with rfl | parameter | rfl
  · exact List.infix_append_left
  · exact List.infix_append_of_infix_right (List.infix_append_of_infix_left
      (infix_whenSet parameter (List.infix_append_of_infix_left
        (List.infix_cons (Text.infix_intercalate _ parameter)))))
  · exact List.infix_append_of_infix_right (List.infix_append_of_infix_right
      (List.infix_append_of_infix_right List.infix_append_left))

/-! ## Enumerations -/

def enumContext (comment : List Text) (exported constant : Bool) (name : Text)
    (members : List Text) : Context :=
  [("jsdoc".toList, .text (Comment.doc comment)), ("exported".toList, .bool exported),
    ("const".toList, .bool constant), ("name".toList, .text name),
    ("members".toList, Printer.textValues members)]

theorem render_enum (comment : List Text) (exported constant : Bool) (name : Text)
    (members : List Text) :
    Engine.standard.render enumName (enumContext comment exported constant name members) =
      .ok (enumLayout (Comment.doc comment) exported constant name members) := by
  refine render_standard ?_
  change renderEnum (enumContext comment exported constant name members) = _
  have lines : listOf (enumContext comment exported constant name members) "members" =
      .ok members := displayAll_textValues members
  unfold renderEnum
  rw [optionalText_eq (Comment.doc comment) rfl, lines]
  rfl

/-- An enumeration shows its name and its members. -/
theorem infix_enumLayout {comment name text : Text} {exported constant : Bool}
    {members : List Text} (part : text = name ∨ text ∈ members) :
    text <:+: enumLayout comment exported constant name members := by
  unfold enumLayout
  simp only [List.append_assoc]
  refine List.infix_append_of_infix_right (List.infix_append_of_infix_right
    (List.infix_append_of_infix_right (List.infix_append_of_infix_right ?_)))
  rcases part with rfl | member
  · exact List.infix_append_left
  · exact List.infix_append_of_infix_right (List.infix_append_of_infix_right
      (List.infix_append_of_infix_left (Text.infix_intercalate _ member)))

end Template

end TypeScriptGen
