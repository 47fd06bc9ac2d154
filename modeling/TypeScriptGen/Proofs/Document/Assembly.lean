import TypeScriptGen.Document.Basic
import TypeScriptGen.Proofs.Document.Content
import TypeScriptGen.Proofs.Sorting.Stable

/-!
# How a document is put together

A document is printed as its header and the texts of its sections. Sections with
an order come first, by their orders, and the place of registration decides
between the others and between equal orders. Every registered section has one
text there, which is what printing it alone gives, before and after the document
is printed.
-/

namespace TypeScriptGen

namespace Section

theorem name_run (commands : List Command) (current : Section) :
    (Outcome.run apply commands current).state.name = current.name :=
  have step (command : Command) (state : Section) (same : state.name = current.name) :
      (state.apply command).state.name = current.name := (name_apply command state).trans same
  Outcome.run_state step commands rfl

end Section

namespace Document

open SectionOptions (isOrder)

/-! ## The order of sections -/

/-- The number that an order is: null is none, and truth values count as zero and one. -/
def orderNumber : Value → Option Int
  | .int number => some number
  | .bool flag => some (if flag then 1 else 0)
  | _ => none

/-- A section with its place of registration is written before another: it alone has an order, its
order is lower, or nothing but the place decides. -/
def Precedes (first second : Section × Nat) : Prop :=
  match orderNumber first.1.options.order, orderNumber second.1.options.order with
  | some a, some b => a < b ∨ a = b ∧ first.2 < second.2
  | some _, none => True
  | none, some _ => False
  | none, none => first.2 < second.2

theorem Precedes.trans (first second third : Section × Nat) (ahead : Precedes first second)
    (behind : Precedes second third) : Precedes first third := by
  unfold Precedes at *
  generalize orderNumber first.1.options.order = a at *
  generalize orderNumber second.1.options.order = b at *
  generalize orderNumber third.1.options.order = c at *
  cases a <;> cases b <;> cases c <;> simp only at * <;> omega

/-- Whole numbers and truth values are compared by their numbers. -/
theorem less_of_orderNumber {first second : Value} {a b : Int}
    (left : orderNumber first = some a) (right : orderNumber second = some b) :
    (if first.same second then some false else first.less? second) = some (decide (a < b)) := by
  have sized (value : Value) (number : Int) (known : orderNumber value = some number) :
      value.ratio = some (number, 1) := by
    cases value <;> cases known <;> rfl
  have compared : first.same second = (a == b) ∧ first.less? second = some (decide (a < b)) := by
    cases first <;> cases left <;> cases second <;> cases right <;>
      simp [Value.same, Value.less?, Value.size?, Value.ratio, Value.Size.less]
  rw [compared.1, compared.2]
  by_cases same : a = b
  · simp [same]
  · simp [same]

/-- A section has no order and no number, or an order with the number that it was given. -/
theorem orderOf_cases {current : Section} (order : isOrder current.options.order = true) :
    (orderOf current = none ∧ orderNumber current.options.order = none) ∨
      ∃ order number, orderOf current = some order ∧ orderNumber order = some number ∧
        orderNumber current.options.order = some number := by
  unfold orderOf
  cases given : current.options.order with
  | null => exact .inl ⟨rfl, rfl⟩
  | bool flag => exact .inr (by cases flag <;> exact ⟨_, _, rfl, rfl, rfl⟩)
  | int number =>
      right
      by_cases zero : number = 0
      · subst zero
        exact ⟨_, _, rfl, rfl, rfl⟩
      · exact ⟨.int number, number, by simp [Value.isTruthy, zero], rfl, rfl⟩
  | _ =>
      rw [given] at order
      cases order

/-- Of two sections, the one that was registered first is the earlier one in the sort. -/
theorem settles {first second : Section × Nat} (places : first.2 < second.2)
    (left : isOrder first.1.options.order = true)
    (right : isOrder second.1.options.order = true) :
    Sorting.Settles (fun a b => precedes? a.1 b.1) Precedes first second := by
  rcases orderOf_cases left with ⟨none₁, num₁⟩ | ⟨a, x, some₁, val₁, num₁⟩ <;>
    rcases orderOf_cases right with ⟨none₂, num₂⟩ | ⟨b, y, some₂, val₂, num₂⟩
  · exact .inr ⟨by simp [precedes?, *], by simp [Precedes, *]⟩
  · exact .inl ⟨by simp [precedes?, *], by simp [Precedes, *]⟩
  · exact .inr ⟨by simp [precedes?, *], by simp [Precedes, *]⟩
  · have compared : precedes? second.1 first.1 = some (decide (y < x)) := by
      simp only [precedes?, some₁, some₂]
      exact less_of_orderNumber val₂ val₁
    by_cases lower : y < x
    · exact .inl ⟨by simp [compared, lower], by simp [Precedes, num₁, num₂, lower]⟩
    · refine .inr ⟨by simp [compared, lower], ?_⟩
      simp only [Precedes, num₁, num₂]
      omega

/-! ## The texts of sections -/

theorem printSections_cons (current : Section) (found : Nat) (order : List (Section × Nat))
    (sections : List Section) :
    printSections ((current, found) :: order) sections =
      match current.print.2 with
      | .error failure => (sections.set found current.print.1, .error failure)
      | .ok text =>
          let printed := printSections order (sections.set found current.print.1)
          (printed.1, printed.2.map (text :: ·)) := rfl

theorem set_eq_self {α : Type} {items : List α} {found : Nat} {item : α}
    (held : items[found]? = some item) : items.set found item = items := by
  refine List.ext_getElem? fun other => ?_
  rw [List.getElem?_set]
  split
  · next same =>
      obtain ⟨bound, _⟩ := List.getElem?_eq_some_iff.mp held
      rw [← same, if_pos bound, held]
  · rfl

/-- Printing sections leaves each of them as it was, up to reconciliation. -/
theorem forget_printSections {order : List (Section × Nat)} {sections : List Section}
    (held : ∀ entry ∈ order, (sections.map Section.forget)[entry.2]? = some entry.1.forget) :
    (printSections order sections).1.map Section.forget = sections.map Section.forget := by
  induction order generalizing sections with
  | nil => rfl
  | cons entry order ih =>
      obtain ⟨current, found⟩ := entry
      have kept : (sections.set found current.print.1).map Section.forget =
          sections.map Section.forget := by
        rw [List.map_set, Section.forget_print]
        exact set_eq_self (held (current, found) List.mem_cons_self)
      rw [printSections_cons]
      split
      · exact kept
      · refine (ih fun entry member => ?_).trans kept
        rw [kept]
        exact held entry (List.mem_cons_of_mem _ member)

/-- Sections that are printed one by one are printed together. -/
theorem printSections_ok {order : List (Section × Nat)} (sections : List Section)
    (printed : ∀ entry ∈ order, ∃ text, entry.1.print.2 = .ok text) :
    ∃ texts, (printSections order sections).2 = .ok texts ∧
      order.map (fun entry => entry.1.print.2) = texts.map .ok := by
  induction order generalizing sections with
  | nil => exact ⟨[], rfl, rfl⟩
  | cons entry order ih =>
      obtain ⟨current, found⟩ := entry
      obtain ⟨text, same⟩ := printed (current, found) List.mem_cons_self
      obtain ⟨texts, done, all⟩ := ih (sections.set found current.print.1) fun entry member =>
        printed entry (List.mem_cons_of_mem _ member)
      refine ⟨text :: texts, ?_, ?_⟩
      · rw [printSections_cons, same]
        exact congrArg (Except.map (text :: ·)) done
      · rw [List.map_cons, List.map_cons, all, same]

/-! ## Calls -/

/-- The document that calls leave, whether they fail or not. -/
def after (commands : List Command) (document : Document) : Document :=
  commands.foldl (fun document command => (document.apply command).state) document

/-- The name of the section that a call registers, if it does not fail. -/
def registeredBy (command : Command) (document : Document) : List Text :=
  match command, (apply command document).result with
  | .section name _ _ _, .ok _ => [name]
  | _, _ => []

/-- The names of the sections that calls register, in this order. -/
def registered : List Command → Document → List Text
  | [], _ => []
  | command :: commands, document =>
      registeredBy command document ++ registered commands (apply command document).state

def names (document : Document) : List Text := document.sections.map Section.name

/-- A call leaves the header, and the sections that are there keep their places and names. -/
structure Extends (document next : Document) (added : List Text) : Prop where
  header : next.header = document.header
  names : next.names = document.names ++ added

theorem Extends.refl (document : Document) : Extends document document [] :=
  ⟨rfl, (List.append_nil _).symm⟩

theorem extends_addSection (document : Document) (name : Text) (commands : List Section.Command)
    (source : OptionSource) (overrides : Table) :
    Extends document (document.addSection name commands source overrides).state
      (registeredBy (.section name commands source overrides) document) := by
  have result : (apply (.section name commands source overrides) document).result =
      (document.addSection name commands source overrides).result := rfl
  unfold registeredBy
  rw [result]
  unfold addSection
  cases document.sectionOptions source overrides with
  | error failure => exact .refl document
  | ok options =>
      have renamed := Section.name_run commands (.start name options)
      simp only [Outcome.embed]
      cases (Outcome.run Section.apply commands (.start name options)).result with
      | error failure => exact .refl document
      | ok text =>
          refine ⟨rfl, ?_⟩
          simp only [names, List.map_append, List.map_cons, List.map_nil, renamed]
          rfl

theorem extends_onSection (document : Document) (index : Int) (commands : List Section.Command) :
    Extends document (document.onSection index commands).state [] := by
  unfold onSection
  split
  · exact .refl document
  · next found _ =>
      split
      · exact .refl document
      · next current held =>
          refine ⟨rfl, ?_⟩
          have there : document.names[found]? = some current.name := by
            rw [names, List.getElem?_map, held]
            rfl
          rw [List.append_nil, names, List.map_set, Section.name_run]
          exact set_eq_self there

theorem forget_sections_print (document : Document) :
    document.print.1.sections.map Section.forget = document.sections.map Section.forget := by
  unfold print
  split
  · rfl
  · next order sorted =>
      refine forget_printSections fun entry member => ?_
      have among := (Sorting.sort_perm _ _ _ sorted).mem_iff.mp member
      rw [List.getElem?_map, List.mem_zipIdx_iff_getElem?.mp among]
      rfl

theorem extends_print (document : Document) : Extends document document.print.1 [] := by
  refine ⟨?_, ?_⟩
  · unfold print
    split <;> rfl
  · have same := congrArg (List.map Section.name) document.forget_sections_print
    rw [List.map_map, List.map_map] at same
    exact same.trans (List.append_nil _).symm

/-- Every call extends the document by the section that it registers. -/
theorem extends_apply (command : Command) (document : Document) :
    Extends document (apply command document).state (registeredBy command document) := by
  cases command with
  | «section» name commands source overrides =>
      exact document.extends_addSection name commands source overrides
  | inSection index commands => exact document.extends_onSection index commands
  | setDefault name value => exact ⟨rfl, (List.append_nil _).symm⟩
  | setMetadata name value => exact ⟨rfl, (List.append_nil _).symm⟩
  | print => exact document.extends_print

theorem extends_after (commands : List Command) (document : Document) :
    Extends document (after commands document) (registered commands document) := by
  induction commands generalizing document with
  | nil => exact .refl document
  | cons command commands ih =>
      have first := extends_apply command document
      have rest := ih (apply command document).state
      refine ⟨rest.header.trans first.header, ?_⟩
      rw [registered, ← List.append_assoc, ← first.names]
      exact rest.names

/-! ## The whole text -/

/-- There is a header exactly if there are tags. -/
theorem headerText_eq_nil_iff {tags : Table} {header : Text} (made : headerText tags = .ok header) :
    header = [] ↔ tags = [] := by
  cases tags with
  | nil =>
      cases made
      exact ⟨fun _ => rfl, fun _ => rfl⟩
  | cons entry entries =>
      obtain ⟨lines, read, made⟩ := exists_of_bind_ok made
      obtain ⟨table, _, made⟩ := exists_of_bind_ok made
      obtain ⟨tagged, _, made⟩ := exists_of_bind_ok made
      cases read
      cases made
      exact ⟨nofun, nofun⟩

/-- A text is made of a header and the texts of sections; an empty header is none. -/
structure Assembled (header : Text) (texts : List Text) (text : Text) : Prop where
  nothing : header = [] → texts = [] → text = []
  headerOnly : header ≠ [] → texts = [] → text = header ++ ['\n']
  sectionsOnly : header = [] → texts ≠ [] → text = ['\n', '\n'].intercalate texts ++ ['\n']
  both : header ≠ [] → texts ≠ [] →
    text = header ++ ['\n'] ++ ['\n', '\n'].intercalate texts ++ ['\n']

theorem assembled_layout (header : Text) (texts : List Text) :
    Assembled header texts (layout header texts) := by
  constructor <;> intro one other <;> simp [layout, one, other, List.intercalate]

/-- A document starts with the header that its tags make, and without sections. -/
theorem exists_of_start {clock : Clock} {configuration : Configuration} {fresh : Document}
    (started : (start clock configuration).1 = .ok fresh) :
    ∃ tags, (configuration.metadata.tags clock).1 = .ok tags ∧
      headerText tags = .ok fresh.header ∧ fresh.sections = [] := by
  obtain ⟨tags, tagged, started⟩ := exists_of_bind_ok started
  obtain ⟨header, headed, started⟩ := exists_of_bind_ok started
  cases started
  exact ⟨tags, tagged, headed, rfl⟩

/-- Sections with whole numbers for orders can be put in order. -/
theorem ordered?_ordered {sections : List Section}
    (orders : ∀ current ∈ sections, isOrder current.options.order = true) :
    ∃ order, ordered? sections = some order ∧ order.Perm sections.zipIdx ∧
      order.Pairwise Precedes := by
  have places : sections.zipIdx.Pairwise fun first second => first.2 < second.2 :=
    List.pairwise_map.mp (List.zipIdx_map_snd 0 sections ▸ List.pairwise_lt_range')
  refine Sorting.sort_ordered Precedes.trans (places.imp_of_mem fun first second ahead => ?_)
  exact settles ahead (orders _ (List.fst_mem_of_mem_zipIdx first))
    (orders _ (List.fst_mem_of_mem_zipIdx second))

/-- Texts are those of the sections of a document, in an order that has each section once. -/
structure Sequenced (document : Document) (order : List (Section × Nat)) (texts : List Text) :
    Prop where
  own : order.map (fun entry => entry.1.print.2) = texts.map .ok
  once : order.Perm document.sections.zipIdx
  sorted : order.Pairwise Precedes

/-- Sections whose orders are whole numbers, and each of which is printed, are printed together:
behind the header that was fixed at the start, every registered section with its own text, by its
order and its place. Printing them together changes the text of none. -/
theorem print_assembled {clock : Clock} {configuration : Configuration} {fresh : Document}
    (started : (start clock configuration).1 = .ok fresh) (commands : List Command)
    (orders : ∀ current ∈ (after commands fresh).sections,
      isOrder current.options.order = true)
    (printed : ∀ current ∈ (after commands fresh).sections,
      ∃ text, current.print.2 = .ok text) :
    ∃ (tags : Table) (header : Text) (order : List (Section × Nat)) (texts : List Text)
        (text : Text),
      (configuration.metadata.tags clock).1 = .ok tags ∧ headerText tags = .ok header ∧
      (header = [] ↔ tags = []) ∧
      (after commands fresh).names = registered commands fresh ∧
      Sequenced (after commands fresh) order texts ∧
      (after commands fresh).print.2 = .ok text ∧ Assembled header texts text ∧
      (after commands fresh).print.1.sections.map (fun current => current.print.2) =
        (after commands fresh).sections.map (fun current => current.print.2) := by
  obtain ⟨tags, tagged, headed, none⟩ := exists_of_start started
  have extended := extends_after commands fresh
  obtain ⟨order, sorted, same, ordered⟩ := ordered?_ordered orders
  have each : ∀ entry ∈ order, ∃ text, entry.1.print.2 = .ok text := fun entry member =>
    printed _ (List.fst_mem_of_mem_zipIdx (same.mem_iff.mp member))
  obtain ⟨texts, done, own⟩ := printSections_ok (after commands fresh).sections each
  refine ⟨tags, fresh.header, order, texts, layout fresh.header texts, tagged, headed,
    headerText_eq_nil_iff headed, ?_, ⟨own, same, ordered⟩, ?_, assembled_layout _ texts, ?_⟩
  · rw [extended.names, names, none, List.map_nil, List.nil_append]
  · unfold print
    rw [sorted, ← extended.header]
    exact congrArg (Except.map (layout (after commands fresh).header)) done
  · have unchanged := congrArg (List.map fun current : Section => current.print.2)
      (after commands fresh).forget_sections_print
    rw [List.map_map, List.map_map] at unchanged
    simpa only [Function.comp_def, Section.print_forget] using unchanged

/-- Metadata of which only the generator is known. -/
def plainConfiguration : Configuration :=
  ⟨.standard, ⟨.text Metadata.generatorName, .null, .null, .table []⟩⟩

def plainDocument : Document :=
  ⟨plainConfiguration,
    "/**\n * Generated TypeScript code\n *\n * @generator ts-builder\n */".toList, []⟩

/-- The override that gives a section an order. -/
def orderedBy (number : Int) : Table := [(.text "order".toList, .int number)]

/-- Sections without an order, and with a positive one, zero and a negative one. -/
def fourSections : List Command :=
  [.section "Last".toList [] (.table []) [],
    .section "Third".toList [] (.table []) (orderedBy 2),
    .section "Second".toList [.imports "./user".toList [.named "User".toList []] false false]
      (.table []) (orderedBy 0),
    .section "First".toList [] (.table []) (orderedBy (-1)),
    .inSection 2 [.type "Id".toList (.text "User".toList) none .null]]

def noon : Calendar.Moment := ⟨⟨2024, 5, 1⟩, 12, 0, 0, 0, some 0⟩

/-- What these sections are printed as. -/
def fourTexts : Text :=
  plainDocument.header ++ ("\n/**\n * First\n */\n// End First\n\n" ++
    "/**\n * Second\n */\nimport \x7b User \x7d from \"./user\";\n\ntype Id = User;\n" ++
    "// End Second\n\n/**\n * Third\n */\n// End Third\n\n" ++
    "/**\n * Last\n */\n// End Last\n").toList

/-- The negative order comes first, then zero; the section without an order is the last. -/
theorem print_assembled_four :
    (start (.plain noon) plainConfiguration).1 = .ok plainDocument ∧
      (∀ current ∈ (after fourSections plainDocument).sections,
        isOrder current.options.order = true) ∧
      (∀ current ∈ (after fourSections plainDocument).sections,
        ∃ text, current.print.2 = .ok text) ∧
      ∃ order texts text,
        Sequenced (after fourSections plainDocument) order texts ∧
        (after fourSections plainDocument).print.2 = .ok text ∧
        text = fourTexts := by
  have started : (start (.plain noon) plainConfiguration).1 = .ok plainDocument := by rfl
  have orders : ∀ current ∈ (after fourSections plainDocument).sections,
      isOrder current.options.order = true := by
    intro current member
    have all : (after fourSections plainDocument).sections.all
      (fun current => isOrder current.options.order) = true := by decide +kernel
    exact List.all_eq_true.mp all current member
  have printed : ∀ current ∈ (after fourSections plainDocument).sections,
      ∃ text, current.print.2 = .ok text := by
    intro current member
    have all : (after fourSections plainDocument).sections.all
      (fun current => current.print.2.isOk) = true := by decide +kernel
    have succeeds := List.all_eq_true.mp all current member
    cases same : current.print.2 with
    | ok text => exact ⟨text, rfl⟩
    | error failure =>
        rw [same] at succeeds
        cases succeeds
  refine ⟨started, orders, printed, ?_⟩
  obtain ⟨_, _, order, texts, text, _, _, _, _, sequenced, done, _, _⟩ :=
    print_assembled started fourSections orders printed
  refine ⟨order, texts, text, sequenced, done, ?_⟩
  have shown : (after fourSections plainDocument).print.2.toOption = some fourTexts := by
    decide +kernel
  rw [done] at shown
  exact Option.some.inj shown

end Document

end TypeScriptGen
