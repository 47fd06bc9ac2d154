import TypeScriptGen.Proofs.Document.ImportBlock

/-!
# The order of the content

The option that sorts the content decides in which order its texts are written, and
nothing else. The header, the imports and the end marker stay, also the imports,
since the names that the content uses do not depend on its order. Sorting goes by the
code points of the names and is stable: items of one name keep their order.
-/

namespace TypeScriptGen

namespace Section

/-! ## Stable sorting by name -/

/-- A sort keeps the order of the items that are all in order with each other. -/
theorem filter_mergeSort {α : Type} {goes : α → α → Bool}
    (trans : ∀ a b c, goes a b → goes b c → goes a c) (total : ∀ a b, goes a b || goes b a)
    {choice : α → Bool} (items : List α)
    (equal : ∀ a b, choice a → choice b → goes a b) :
    (items.mergeSort goes).filter choice = items.filter choice := by
  have ordered : (items.filter choice).Pairwise fun a b => goes a b :=
    List.pairwise_of_forall_mem_list fun a first b second =>
      equal a b (List.mem_filter.mp first).2 (List.mem_filter.mp second).2
  have inside := List.sublist_mergeSort trans total ordered List.filter_sublist
  have chosen := inside.filter choice
  rw [List.filter_filter] at chosen
  simp only [Bool.and_self] at chosen
  exact (chosen.eq_of_length ((List.mergeSort_perm items goes).filter choice).length_eq.symm).symm

theorem goes_iff {a b : Item} : (!decide (b.name < a.name)) = true ↔ ¬b.name < a.name := by
  rw [Bool.not_eq_true', decide_eq_false_iff_not]

theorem goes_trans (a b c : Item) (first : (!decide (b.name < a.name)) = true)
    (second : (!decide (c.name < b.name)) = true) : (!decide (c.name < a.name)) = true :=
  goes_iff.mpr (List.not_lt.mpr
    (List.le_trans (List.not_lt.mp (goes_iff.mp first)) (List.not_lt.mp (goes_iff.mp second))))

theorem goes_total (a b : Item) :
    (!decide (b.name < a.name) || !decide (a.name < b.name)) = true := by
  rw [Bool.or_eq_true, goes_iff, goes_iff]
  exact (List.le_total a.name b.name).imp List.not_lt.mpr List.not_lt.mpr

theorem pairwise_sortByName (items : List Item) :
    (sortByName items).Pairwise fun a b => ¬b.name < a.name :=
  (List.pairwise_mergeSort goes_trans goes_total items).imp goes_iff.mp

theorem filter_sortByName (items : List Item) (name : Text) :
    (sortByName items).filter (fun item => item.name = name) =
      items.filter (fun item => item.name = name) := by
  refine filter_mergeSort goes_trans goes_total items fun a b first second => goes_iff.mpr ?_
  rw [of_decide_eq_true first, of_decide_eq_true second]
  exact List.lt_irrefl name

/-- The items as a setting orders them: a falsy one leaves them as they are, another sorts them by
name and keeps the order of those that have the same name. -/
structure Arranged (setting : Value) (given order : List Item) : Prop where
  perm : order.Perm given
  kept : setting.isTruthy = false → order = given
  rising : setting.isTruthy = true → order.Pairwise fun a b => ¬b.name < a.name
  stable : ∀ name, order.filter (fun item => item.name = name) =
    given.filter (fun item => item.name = name)

theorem arranged_content (current : Section) :
    Arranged current.options.sortItems current.contentInOrder current.content := by
  refine ⟨current.perm_content, ?_, ?_, ?_⟩ <;> unfold content
  · intro falsy
    rw [falsy, if_neg Bool.false_ne_true]
  · intro truthy
    rw [if_pos truthy]
    exact pairwise_sortByName _
  · intro name
    split
    · exact filter_sortByName _ name
    · rfl

/-! ## What stands around the content -/

/-- The texts of a section but for its content. -/
structure Frame where
  header : Text
  imports : Text
  marker : Option Text

/-- Imports and content are written in one body, from which an empty one of them is missing. -/
def Frame.around (frame : Frame) (content : Text) : Text :=
  let blocks := [frame.imports, content].filter fun block => !block.isEmpty
  let body := if blocks.isEmpty then [] else [['\n', '\n'].intercalate blocks]
  ['\n'].intercalate (frame.header :: body ++ frame.marker.toList)

/-- What a section is printed in, if it can be printed: its header, its imports and its end marker,
around the content. -/
structure Frames (current : Section) (gap : Text) (frame : Frame) : Prop where
  separated : separator current.options.spacing = .ok gap
  headed : Comment.sectionHeader current.name current.options.description current.options.metadata
    current.options.style = .ok frame.header
  imports : frame.imports = current.importBlock
  marker : frame.marker =
    if current.options.endMarker.isTruthy then some (Comment.sectionEnd current.name) else none

/-- The spacing or the header of a section cannot be written, for the given reason. -/
def Unframed (current : Section) (failure : Failure) : Prop :=
  separator current.options.spacing = .error failure ∨
    Comment.sectionHeader current.name current.options.description current.options.metadata
      current.options.style = .error failure

/-- Where a section can be framed, that is how it is printed. -/
theorem Frames.print {current : Section} {gap : Text} {frame : Frame}
    (frames : Frames current gap frame) (sound : current.Sound) :
    current.print.2 = .ok (frame.around (gap.intercalate current.contentTexts)) := by
  obtain ⟨header, imports, marker⟩ := frame
  obtain ⟨separated, headed, rfl, rfl⟩ := frames
  rw [print_eq sound]
  refine (bind_ok separated).trans ((bind_ok headed).trans (congrArg Except.ok ?_))
  unfold page Frame.around
  cases current.options.endMarker.isTruthy <;> rfl

/-! ## Other settings -/

/-- The section with a setting for the order of its content. -/
def sorting (current : Section) (setting : Value) : Section :=
  { current with options := current.options.set .sortItems setting }

theorem Sound.sorting {current : Section} (sound : current.Sound) (setting : Value) :
    (current.sorting setting).Sound := sound

/-- The frame of a section does not depend on how its content is sorted. -/
theorem frames_sorting_iff {current : Section} {setting : Value} {gap : Text} {frame : Frame} :
    Frames (current.sorting setting) gap frame ↔ Frames current gap frame :=
  ⟨fun ⟨separated, headed, imports, marker⟩ => ⟨separated, headed, imports, marker⟩,
    fun ⟨separated, headed, imports, marker⟩ => ⟨separated, headed, imports, marker⟩⟩

/-- A section is framed, or its options make it fail under every setting. -/
theorem frames_or_fails {current : Section} (sound : current.Sound) :
    (∃ gap frame, Frames current gap frame) ∨
      ∃ failure, Unframed current failure ∧
        ∀ setting, (current.sorting setting).print.2 = .error failure := by
  have printed (setting : Value) := congrArg Prod.snd (print_eq (sound.sorting setting))
  cases separated : separator current.options.spacing with
  | error failure =>
      exact .inr ⟨failure, .inl separated, fun setting =>
        (printed setting).trans (bind_error separated)⟩
  | ok gap =>
      cases headed : Comment.sectionHeader current.name current.options.description
        current.options.metadata current.options.style with
      | error failure =>
          exact .inr ⟨failure, .inr headed, fun setting =>
            (printed setting).trans ((bind_ok separated).trans (bind_error headed))⟩
      | ok header => exact .inl ⟨gap, ⟨header, current.importBlock, _⟩, separated, headed, rfl, rfl⟩

theorem Agree.sorting {first second : Section} (agree : Agree first second) (setting : Value) :
    Agree (first.sorting setting) (second.sorting setting) :=
  congrArg (fun current : Section => current.sorting setting)
    (show first.forget = second.forget from agree)

/-- Printing under one setting does not change what is printed under another. -/
theorem print_sorting_print (current : Section) (earlier setting : Value) :
    ((current.sorting earlier).print.1.sorting setting).print.2 =
      (current.sorting setting).print.2 := by
  have agree : Agree (current.sorting earlier).print.1 (current.sorting earlier) :=
    (current.sorting earlier).forget_print
  exact (agree.sorting setting).print

/-- Under every setting a section is printed in the same header, imports and end marker, around the
texts of its items in the order that the setting asks for: each item once, those of one name in the
order in which they were added. Only a section whose spacing or header cannot be written fails, and
then alike under all settings. Printing under one setting changes nothing for another. -/
theorem print_sorting {current : Section} (reached : current.Reached) :
    ((∃ gap frame, Frames current gap frame ∧ ∀ setting, ∃ order,
        Arranged setting current.contentInOrder order ∧
        (∀ item ∈ order, item.print = .ok item.text) ∧
        (current.sorting setting).print.2 =
          .ok (frame.around (gap.intercalate (order.map Item.text)))) ∨
      ∃ failure, Unframed current failure ∧
        ∀ setting, (current.sorting setting).print.2 = .error failure) ∧
    ∀ earlier setting, ((current.sorting earlier).print.1.sorting setting).print.2 =
      (current.sorting setting).print.2 := by
  have sound := reached.sound
  refine ⟨?_, current.print_sorting_print⟩
  rcases frames_or_fails sound with ⟨gap, frame, frames⟩ | fails
  · refine .inl ⟨gap, frame, frames, fun setting => ?_⟩
    have again := sound.sorting setting
    refine ⟨(current.sorting setting).content, (current.sorting setting).arranged_content,
      fun item member => (again.content item member).scanned.printed, ?_⟩
    exact (frames_sorting_iff.mpr frames).print again
  · exact .inr fails

/-- An import and three items, of which the first and the last are named B. -/
def repeating : Section :=
  after [.imports "./lib".toList [.named "User".toList []] false false,
    .type ['B'] (.text "User".toList) none .null, .type ['A'] (.text "number".toList) none .null,
    .enumeration ['B'] [] false, .option "spacing".toList (.text "compact".toList)]
    (start "Models".toList .standard)

def repeatingText : Text :=
  "/**\n * Models\n */\nimport \x7b User \x7d from \"./lib\";\n\n".toList ++
    "type B = User;\ntype A = number;\nenum B \x7b\n\x7d\n// End Models".toList

theorem print_sorting_repeating :
    repeating.Reached ∧
      (∃ gap frame, Frames repeating gap frame ∧ ∀ setting, ∃ order,
        Arranged setting repeating.contentInOrder order ∧
        (∀ item ∈ order, item.print = .ok item.text) ∧
        (repeating.sorting setting).print.2 =
          .ok (frame.around (gap.intercalate (order.map Item.text)))) ∧
      (repeating.sorting (.bool false)).print.2.toOption = some repeatingText := by
  have reached : repeating.Reached := ⟨_, _, _, rfl⟩
  have shown : (repeating.sorting (.bool false)).print.2.toOption = some repeatingText := by
    decide +kernel
  refine ⟨reached, ?_, shown⟩
  rcases (print_sorting reached).1 with framed | ⟨failure, _, fails⟩
  · exact framed
  · rw [fails] at shown
    cases shown

end Section

end TypeScriptGen
