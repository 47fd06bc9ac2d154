import TypeScriptGen.Proofs.Declaration.Members
import TypeScriptGen.Proofs.Text.Indentation
import TypeScriptGen.Proofs.Text.StringLiteral

/-!
# The text of a member

A key that is no identifier is put between quotes as it is, and of a value the quotes and
backslashes are escaped, but nothing is done about line breaks. So the text of a member says what
was given exactly if the key holds no quote and no backslash and neither of them holds a line break.
Such a text is in one line, and the enumeration shows it behind a margin; any other stays wrong
there.
-/

namespace TypeScriptGen

namespace Text

theorem unbroken_of_isIdentifier {key : Text} (identifier : isIdentifier key = true) :
    Unbroken key := by
  intro c member
  have part := solid_of_isIdentifier identifier c member
  constructor
  · rintro rfl
    exact absurd part (by decide)
  · rintro rfl
    exact absurd part (by decide)

theorem not_mem_of_isIdentifier {key : Text} {c : Char} (identifier : isIdentifier key = true)
    (mark : isReferencePart c = false) : c ∉ key := by
  intro member
  rw [solid_of_isIdentifier identifier c member] at mark
  cases mark

end Text

namespace Template

/-- Each member stands in lines of its own, and a comma or the end of the line follows it. -/
theorem exists_enumLayout_around (comment : Text) (exported constant : Bool) (name : Text)
    (before : List Text) (member : Text) (behind : List Text) :
    ∃ above below, enumLayout comment exported constant name (before ++ member :: behind) =
      above ++ '\n' :: member ++ below ∧ (below.head? = some ',' ∨ below.head? = some '\n') := by
  obtain ⟨front, opened⟩ : ∃ front, '\n' :: [',', '\n'].intercalate (before ++ member :: behind) =
      front ++ '\n' :: [',', '\n'].intercalate (member :: behind) := by
    cases before with
    | nil => exact ⟨[], rfl⟩
    | cons first before =>
        refine ⟨'\n' :: [',', '\n'].intercalate (first :: before) ++ [','], ?_⟩
        rw [Text.intercalate_append _ (List.cons_ne_nil _ _) (List.cons_ne_nil _ _)]
        simp
  obtain ⟨back, closed, head⟩ : ∃ back, [',', '\n'].intercalate (member :: behind) ++
      ['\n', '\x7d'] = member ++ back ∧ (back.head? = some ',' ∨ back.head? = some '\n') := by
    cases behind with
    | nil => exact ⟨['\n', '\x7d'], by rw [List.intercalate_singleton], .inr rfl⟩
    | cons next behind =>
        refine ⟨[',', '\n'] ++ [',', '\n'].intercalate (next :: behind) ++ ['\n', '\x7d'], ?_,
          .inl rfl⟩
        rw [List.intercalate_cons_cons]
        simp
  refine ⟨commentPart comment ++ exportPart exported ++ whenSet constant "const ".toList ++
    "enum ".toList ++ name ++ [' ', '\x7b'] ++ front, back, ?_, head⟩
  have some : (before ++ member :: behind).isEmpty = false := by simp
  have whole : '\n' :: [',', '\n'].intercalate (before ++ member :: behind) ++ ['\n', '\x7d'] =
      front ++ '\n' :: member ++ back := by
    rw [opened, List.append_assoc, List.append_assoc, List.cons_append, List.cons_append, closed]
  have line : whenSet true ['\n'] = ['\n'] := rfl
  rw [enumLayout, some, Bool.not_false, line]
  simp only [List.append_assoc, List.cons_append, List.nil_append] at whole ⊢
  rw [whole]

end Template

namespace EnumDraft

open Text (IsLiteral Unbroken)

variable {draft : EnumDraft} {key value shown : Text}

/-! ## What a text says of a member -/

/-- The text gives the key as it is if it is an identifier, or else as a literal, and the value as a
literal. -/
def Gives (key value shown : Text) : Prop :=
  ∃ name initial, shown = name ++ " = ".toList ++ initial ∧
    (if Text.isIdentifier key then name = key else IsLiteral '"' name key) ∧
    IsLiteral '"' initial value

/-- A key that holds neither quotes nor backslashes, and no line break in key and value. -/
def Writable (key value : Text) : Prop :=
  '"' ∉ key ∧ '\\' ∉ key ∧ Unbroken key ∧ Unbroken value

theorem Gives.unbroken (gives : Gives key value shown) : Unbroken shown := by
  obtain ⟨name, initial, rfl, named, literal⟩ := gives
  have front : Unbroken name := by
    split at named
    · next identifier => exact named ▸ Text.unbroken_of_isIdentifier identifier
    · exact named.unbroken (by decide)
  have middle : Unbroken " = ".toList := by decide
  exact Text.unbroken_append.mpr
    ⟨Text.unbroken_append.mpr ⟨front, middle⟩, literal.unbroken (by decide)⟩

/-- The text of a member with these. -/
def memberText (key value : Text) : Text := keyText key ++ " = ".toList ++ Text.guard value

theorem mem_keyText {c : Char} (member : c ∈ key) : c ∈ keyText key := by
  unfold keyText
  split
  · exact member
  · exact List.mem_append_left _ (.tail _ member)

theorem isIdentifier_of_isPlainKey (plain : isPlainKey key = true) (unbroken : Unbroken key) :
    Text.isIdentifier key = true := by
  rw [isPlainKey, Bool.or_eq_true, Bool.and_eq_true, beq_iff_eq] at plain
  refine plain.resolve_right fun broken => ?_
  exact (unbroken '\n' (List.mem_of_getLast? broken.1)).1 rfl

theorem keyText_of_unbroken (unbroken : Unbroken key) :
    keyText key = if Text.isIdentifier key then key else '"' :: key ++ ['"'] := by
  unfold keyText
  split
  · next plain => rw [if_pos (isIdentifier_of_isPlainKey plain unbroken)]
  · next other =>
      rw [if_neg fun identifier => other (isPlainKey_of_isIdentifier identifier)]

theorem Writable.gives (writable : Writable key value) :
    Gives key value (memberText key value) := by
  obtain ⟨unquoted, solid, unbroken, line⟩ := writable
  refine ⟨keyText key, Text.guard value, rfl, ?_, Text.isLiteral_guard_iff.mpr line⟩
  rw [keyText_of_unbroken unbroken]
  split
  · rfl
  · exact Text.isLiteral_of_plain unquoted solid unbroken

/-- The text is too short for escapes in the key: the literals of key and value have a character
for each quote and backslash more. -/
theorem Gives.writable (gives : Gives key value (memberText key value)) : Writable key value := by
  have unbroken := gives.unbroken
  obtain ⟨front, back⟩ := Text.unbroken_append.mp unbroken
  have line : Unbroken value := fun c member => back c (Text.mem_guard c value member)
  have key_line : Unbroken key := fun c member =>
    (Text.unbroken_append.mp front).1 c (mem_keyText member)
  obtain ⟨name, initial, same, named, literal⟩ := gives
  cases identifier : Text.isIdentifier key with
  | true =>
      exact ⟨Text.not_mem_of_isIdentifier identifier (by decide),
        Text.not_mem_of_isIdentifier identifier (by decide), key_line, line⟩
  | false =>
      rw [identifier, if_neg Bool.false_ne_true] at named
      have lengths := congrArg List.length same
      rw [memberText, keyText_of_unbroken key_line, identifier, if_neg Bool.false_ne_true,
        Text.guard] at lengths
      simp only [List.length_append, List.length_cons, List.length_nil,
        Text.length_guarded] at lengths
      have least := named.length_le
      have last := literal.length_le
      have unmarked : key.countP (Text.isMark '"') = 0 := by omega
      have clear := List.countP_eq_zero.mp unmarked
      exact ⟨fun quote => clear '"' quote rfl, fun backslash => clear '\\' backslash rfl,
        key_line, line⟩

theorem gives_iff : Gives key value (memberText key value) ↔ Writable key value :=
  ⟨Gives.writable, Writable.gives⟩

/-! ## Members that are moved to the right -/

theorem visible_memberText : Text.isBlankLine (memberText key value) = false := by
  refine List.all_eq_false.mpr ⟨'=', ?_, by decide⟩
  have sign : '=' ∈ " = ".toList := by decide
  exact List.mem_append_left _ (List.mem_append_right _ sign)

/-- Behind a margin the text says what it says without one. -/
theorem moved_gives_iff {margin : Nat} :
    (∃ text, Text.indentBy margin (memberText key value) = Text.spaces margin ++ text ∧
      Gives key value text) ↔ Writable key value := by
  have whole (single : '\n' ∉ memberText key value) :
      Text.indentBy margin (memberText key value) =
        Text.spaces margin ++ memberText key value :=
    Text.indentBy_of_oneLine single visible_memberText
  constructor
  · rintro ⟨text, moved, gives⟩
    have single : '\n' ∉ Text.indentBy margin (memberText key value) := by
      rw [moved, List.mem_append, not_or]
      refine ⟨fun space => ?_, fun broken => (gives.unbroken '\n' broken).1 rfl⟩
      exact absurd (List.eq_of_mem_replicate space) (by decide)
    rw [whole (mt Text.lineFeed_mem_indentBy.mpr single)] at moved
    exact gives_iff.mp (List.append_cancel_left moved ▸ gives)
  · intro writable
    have gives := writable.gives
    exact ⟨_, whole fun broken => (gives.unbroken '\n' broken).1 rfl, gives⟩

/-! ## Members in the enumeration -/

/-- The members of a draft stay in front of those that are added. -/
theorem keeps_members (members : List Node) :
    Keeps fun draft => members <+: draft.members where
  comment _ _ there := there
  sanitizer _ _ there := there
  member _ _ _ there := there.trans (List.prefix_append _ _)

/-- The member with a text for its value. -/
def textMember (key value : Text) : Node := .enumMember (keyText key) (.stringLiteral value)

theorem members_textMember (key value : Text) (draft : EnumDraft) :
    (apply (.member key (.text value)) draft).state.members =
      draft.members ++ [textMember key value] := rfl

theorem print_textMember (key value : Text) :
    (textMember key value).print = .ok (memberText key value) := rfl

/-- Where all members can be printed, the lines of each stand behind a line feed and in front of a
comma or the end of the line. -/
theorem exists_print_around (sound : draft.Sound) {front back : List Node} {member : Node}
    (members : draft.members = front ++ member :: back) (printed : member.print = .ok shown) :
    ∃ above below, draft.node.print = .ok (above ++
        '\n' :: Text.indentBy Printer.defaultMargin shown ++ below) ∧
      (below.head? = some ',' ∨ below.head? = some '\n') := by
  rw [Sound, members] at sound
  obtain ⟨frontTexts, frontPrinted, _⟩ := Node.printAll_ok fun node among =>
    (sound node (List.mem_append_left _ among)).toShown
  obtain ⟨backTexts, backPrinted, _⟩ := Node.printAll_ok fun node among =>
    (sound node (List.mem_append_right front (.tail _ among))).toShown
  have texts : Printer.printAll .standard draft.members =
      .ok (frontTexts ++ shown :: backTexts) := by
    rw [members]
    exact Node.printAll_append frontPrinted (Node.printAll_cons printed backPrinted)
  have whole : draft.node.print = .ok (Template.enumLayout (Comment.doc draft.comment)
      draft.exported draft.constant draft.name
      ((frontTexts ++ shown :: backTexts).map (Text.indentBy Printer.defaultMargin))) := by
    refine bind_ok ((bind_ok texts).trans ?_)
    exact Template.render_enum draft.comment draft.exported draft.constant draft.name _
  rw [whole, List.map_append, List.map_cons]
  obtain ⟨above, below, layout, head⟩ := Template.exists_enumLayout_around
    (Comment.doc draft.comment) draft.exported draft.constant draft.name _ _ _
  exact ⟨above, below, congrArg _ layout, head⟩

/-- The text of a member gives what was given exactly if the key holds no quote and no backslash
and neither key nor value holds a line break, and so does what the enumeration shows of it behind
the margin, whatever comes before and behind the member. -/
theorem member_given_iff (key value : Text) :
    ∃ shown, (textMember key value).print = .ok shown ∧
      (Gives key value shown ↔ Writable key value) ∧
      ∀ (name : Text) (exported constant : Bool) (before behind : List Command),
        let draft := after before (start name exported constant)
        let outcome := apply (.member key (.text value)) draft
        outcome.result = .ok none ∧
        outcome.state.members = draft.members ++ [textMember key value] ∧
        ∃ above lines below,
          (after behind outcome.state).node.print = .ok (above ++ '\n' :: lines ++ below) ∧
          (below.head? = some ',' ∨ below.head? = some '\n') ∧
          lines = Text.indentBy Printer.defaultMargin shown ∧
          ((∃ text, lines = Text.spaces Printer.defaultMargin ++ text ∧ Gives key value text) ↔
            Writable key value) := by
  refine ⟨memberText key value, print_textMember key value, gives_iff, ?_⟩
  intro name exported constant before behind draft outcome
  have sound : (after behind outcome.state).Sound :=
    keeps_sound.after behind (keeps_sound.apply _ _
      (keeps_sound.after before (sound_start name exported constant)))
  obtain ⟨back, whole⟩ : outcome.state.members <+: (after behind outcome.state).members :=
    (keeps_members outcome.state.members).after behind List.prefix_rfl
  have added : outcome.state.members = draft.members ++ [textMember key value] :=
    members_textMember key value draft
  have members : (after behind outcome.state).members =
      draft.members ++ textMember key value :: back := by
    rw [← whole, added, List.append_assoc, List.singleton_append]
  obtain ⟨above, below, printed, head⟩ :=
    exists_print_around sound members (print_textMember key value)
  exact ⟨rfl, added, above, _, below, printed, head, rfl, moved_gives_iff⟩

/-- The quotes in a key stand between the quotes of the literal as they are. -/
theorem member_misquoted :
    let key := "say \"hi\"".toList
    let shown := "\"say \"hi\"\" = \"x\"".toList
    let outcome := apply (.member key (.text ['x'])) (start "Quoted".toList false false)
    outcome.state.members.map Node.print = [.ok shown] ∧ ¬ Gives key ['x'] shown := by
  intro key shown outcome
  refine ⟨rfl, fun gives => ?_⟩
  have unquoted : '"' ∉ key := (Gives.writable gives).1
  exact unquoted (by decide)

end EnumDraft

end TypeScriptGen
