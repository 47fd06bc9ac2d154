import TypeScriptGen.Proofs.Text.Place
import TypeScriptGen.Syntax.Reference

/-!
# The search for references

The search misses no name: an identifier that stands whole in code, with no dot
in front of it, is the first component or a member of a reference that is found,
and so is one behind such a component and a dot. And it makes nothing up: every
component of a reference that is found stands at such a place, so no three dots
stand in front of it.
-/

namespace TypeScriptGen.Syntax

open Text (IsRun Stands Keeps Solid Apart isReferencePart)

/-- All components of a reference. -/
def Reference.parts (reference : Reference) : List Text := reference.first :: reference.members

theorem readReference_of_match {lead : Option Char} {text rest : Text} {reference : Reference}
    (found : matchReference lead text = some (reference, rest)) :
    readReference text = some (reference, rest) := by
  unfold matchReference at found
  split at found
  · exact found
  · cases found

/-! ## What is read off a text -/

/-- An identifier is read as far as it goes. -/
theorem readIdentifier_append {text first rest : Text}
    (found : readIdentifier text = some (first, rest)) :
    text = first ++ rest ∧ Text.isReadable first = true ∧
      ∀ c ∈ rest.head?, isReferencePart c = false := by
  cases text with
  | nil => cases found
  | cons c text =>
      rw [readIdentifier] at found
      obtain ⟨start, same⟩ := Option.ite_none_right_eq_some.mp found
      cases same
      refine ⟨by rw [List.cons_append, List.takeWhile_append_dropWhile], ?_, fun d stops => ?_⟩
      · rw [Text.isReadable, start, List.all_takeWhile]
        rfl
      · have ends := List.head?_dropWhile_not isReferencePart text
        rw [Option.mem_def.mp stops] at ends
        exact ends

theorem exists_blanks (text : Text) :
    ∃ blanks, text = blanks ++ Text.trimStart text ∧ ∀ c ∈ blanks, Text.isBlank c = true :=
  ⟨text.takeWhile Text.isBlank, List.takeWhile_append_dropWhile.symm,
    fun c member => List.all_eq_true.mp List.all_takeWhile c member⟩

/-- A dot with blanks around it. -/
def IsJoint (gap : Text) : Prop :=
  ∃ blanks more, gap = blanks ++ '.' :: more ∧ (∀ c ∈ blanks, Text.isBlank c = true) ∧
    ∀ c ∈ more, Text.isBlank c = true

theorem readMember_append {text member rest : Text}
    (found : readMember text = some (member, rest)) :
    (∃ gap, text = gap ++ (member ++ rest) ∧ IsJoint gap) ∧ Text.isReadable member = true ∧
      ∀ c ∈ rest.head?, isReferencePart c = false := by
  unfold readMember at found
  split at found
  · next inner same =>
      obtain ⟨whole, readable, closed⟩ := readIdentifier_append found
      obtain ⟨blanks, outer, white⟩ := exists_blanks text
      obtain ⟨more, behind, clear⟩ := exists_blanks inner
      refine ⟨⟨blanks ++ '.' :: more, ?_, blanks, more, rfl, white, clear⟩, readable, closed⟩
      rw [outer, same, behind, whole]
      simp
  · cases found

theorem readMember_length {text member rest : Text}
    (found : readMember text = some (member, rest)) : rest.length < text.length := by
  obtain ⟨⟨gap, rfl, blanks, more, rfl, _⟩, _⟩ := readMember_append found
  simp only [List.length_append, List.length_cons]
  omega

/-- All members that follow. -/
def membersOf (text : Text) : List Text := (readMembers text.length text).1

/-- Each member takes some of the text, so a higher limit finds no more of them. -/
theorem readMembers_eq (limit : Nat) {text : Text} (enough : text.length ≤ limit) :
    (readMembers limit text).1 = membersOf text := by
  unfold membersOf
  induction limit using Nat.strongRecOn generalizing text with
  | ind limit ih =>
      cases limit with
      | zero => rw [Nat.le_zero.mp enough]
      | succ limit =>
          cases found : readMember text with
          | none => cases size : text.length <;> simp [readMembers, found]
          | some read =>
              obtain ⟨member, rest⟩ := read
              have shorter := readMember_length found
              obtain ⟨length, size⟩ := Nat.exists_eq_succ_of_ne_zero (Nat.ne_zero_of_lt shorter)
              rw [size, readMembers, readMembers, found]
              refine congrArg (member :: ·) ?_
              rw [ih limit (Nat.lt_succ_self limit) (by omega)]
              by_cases same : length = limit
              · rw [same, ih limit (Nat.lt_succ_self limit) (by omega)]
              · rw [ih length (by omega) (by omega)]

theorem membersOf_cons {text member rest : Text} (found : readMember text = some (member, rest)) :
    membersOf text = member :: membersOf rest := by
  have shorter := readMember_length found
  obtain ⟨length, size⟩ := Nat.exists_eq_succ_of_ne_zero (Nat.ne_zero_of_lt shorter)
  rw [membersOf, size, readMembers, found]
  exact congrArg (member :: ·) (readMembers_eq length (by omega))

/-! ## No name is missed -/

section Standing

variable {before name after : Text}

theorem readIdentifier_name (run : IsRun before name after)
    (readable : Text.isReadable name = true) :
    readIdentifier (name ++ after) = some (name, after) := by
  obtain ⟨took, left⟩ := run.takeWhile_eq
  obtain ⟨c, rest, rfl, part⟩ := run.exists_cons
  have start : Text.isIdentifierStart c = true := ((Bool.and_eq_true _ _).mp readable).1
  rw [List.cons_append, List.takeWhile_cons_of_pos part, List.cons.injEq] at took
  rw [List.cons_append, List.dropWhile_cons_of_pos part] at left
  rw [List.cons_append, readIdentifier, if_pos start, took.2, left]

/-- An identifier that is read in front of a name is the name, or ends before it. -/
theorem readIdentifier_keeps (run : IsRun before name after) {first rest : Text}
    (found : readIdentifier (before ++ (name ++ after)) = some (first, rest)) :
    first = name ∧ rest = after ∨ Keeps before name after rest := by
  cases before with
  | nil =>
      obtain ⟨took, left⟩ := run.takeWhile_eq
      obtain ⟨c, more, rfl, part⟩ := run.exists_cons
      rw [List.nil_append, List.cons_append, readIdentifier] at found
      obtain ⟨_, same⟩ := Option.ite_none_right_eq_some.mp found
      rw [List.cons_append, List.takeWhile_cons_of_pos part] at took
      rw [List.cons_append, List.dropWhile_cons_of_pos part] at left
      rw [took, left] at same
      cases same
      exact Or.inl ⟨rfl, rfl⟩
  | cons c before =>
      rw [List.cons_append, readIdentifier] at found
      obtain ⟨start, same⟩ := Option.ite_none_right_eq_some.mp found
      cases same
      have part := Text.isReferencePart_of_isIdentifierStart c start
      have cut : c :: before = [c] ++ before := rfl
      exact Or.inr ((run.dropWhile_keeps part).trans cut)

/-- Behind a mark that opens no name, what was kept is kept still. -/
theorem keeps_of_mark (run : IsRun before name after) {mark : Char} {rest : Text}
    (closed : isReferencePart mark = false)
    (found : Text.trimStart (before ++ (name ++ after)) = mark :: rest) :
    Keeps before name after rest := by
  obtain ⟨front, back, whole, left⟩ := run.trimStart_keeps
  rw [found] at left
  cases back with
  | nil =>
      obtain ⟨c, tail, rfl, part⟩ := run.exists_cons
      cases left
      rw [part] at closed
      cases closed
  | cons c back =>
      cases left
      exact ⟨front ++ [mark], back, by simp [whole], rfl⟩

theorem readMember_keeps (run : IsRun before name after) {member rest : Text}
    (found : readMember (before ++ (name ++ after)) = some (member, rest)) :
    member = name ∧ rest = after ∨ Keeps before name after rest := by
  unfold readMember at found
  split at found
  · next inner same =>
      obtain ⟨front, back, rfl, rfl⟩ := keeps_of_mark run (by decide) same
      obtain ⟨blanks, last, rfl, left⟩ := run.tail.trimStart_keeps
      rw [left] at found
      rcases readIdentifier_keeps run.tail.tail found with took | kept
      · exact Or.inl took
      · exact Or.inr ((kept.trans rfl).trans rfl)
  · cases found

/-- The members in front of a name go on with it and its own members, or they end before it. -/
theorem readMembers_keeps (run : IsRun before name after) (limit : Nat)
    (enough : (before ++ (name ++ after)).length ≤ limit) :
    name :: membersOf after <:+ (readMembers limit (before ++ (name ++ after))).1 ∨
      Keeps before name after (readMembers limit (before ++ (name ++ after))).2 := by
  induction limit generalizing before with
  | zero => exact Or.inr ⟨[], before, rfl, rfl⟩
  | succ limit ih =>
      unfold readMembers
      split
      · exact Or.inr ⟨[], before, rfl, rfl⟩
      · next member rest found =>
          have shorter := readMember_length found
          rcases readMember_keeps run found with ⟨rfl, rfl⟩ | ⟨front, back, rfl, rfl⟩
          · have same := readMembers_eq limit (Nat.le_of_lt_succ (Nat.lt_of_lt_of_le shorter enough))
            exact Or.inl (same ▸ List.suffix_rfl)
          · rcases ih run.tail (by omega) with took | kept
            · exact Or.inl (took.trans (List.suffix_cons member _))
            · exact Or.inr (kept.trans rfl)

theorem readOpening_keeps (run : IsRun before name after) {rest : Text}
    (found : readOpening (before ++ (name ++ after)) = some rest) :
    Keeps before name after rest := by
  unfold readOpening at found
  split at found
  · next inner same =>
      cases found
      exact keeps_of_mark run (by decide) same
  · cases found

/-- A reference that is read in front of a name ends with it and its members, or before it. -/
theorem readReference_keeps (run : IsRun before name after) {reference : Reference}
    {rest : Text} (found : readReference (before ++ (name ++ after)) = some (reference, rest)) :
    name :: membersOf after <:+ reference.parts ∨ Keeps before name after rest := by
  unfold readReference at found
  split at found
  · cases found
  · next first left read =>
      rcases readIdentifier_keeps run read with ⟨rfl, rfl⟩ | ⟨front, back, rfl, rfl⟩
      · refine Or.inl ?_
        dsimp only at found
        split at found <;> cases found <;> exact List.suffix_rfl
      · have members := readMembers_keeps run.tail (back ++ (name ++ after)).length (Nat.le_refl _)
        dsimp only at found
        generalize readMembers (back ++ (name ++ after)).length (back ++ (name ++ after)) = read
          at members found
        rcases members with took | ⟨middle, last, rfl, left⟩
        · refine Or.inl ?_
          split at found <;> cases found <;> exact took.trans (List.suffix_cons first _)
        · refine Or.inr ?_
          split at found
          · next arguments opened =>
              cases found
              rw [left] at opened
              exact ((readOpening_keeps run.tail.tail opened).trans rfl).trans rfl
          · cases found
            exact ⟨front ++ middle, last, by simp, left⟩

theorem readReference_name (run : IsRun before name after)
    (readable : Text.isReadable name = true) :
    ∃ reference rest, readReference (name ++ after) = some (reference, rest) ∧
      reference.parts = name :: membersOf after := by
  unfold readReference
  rw [readIdentifier_name run readable]
  dsimp only
  split
  · exact ⟨_, _, rfl, rfl⟩
  · exact ⟨_, _, rfl, rfl⟩

/-- The search goes on towards the name until a reference has it as a component; `skip` never
leads beyond the name, since a match ends before it or takes it. -/
theorem mem_collectFrom (run : IsRun before name after) (readable : Text.isReadable name = true)
    (skip : Nat) (lead : Option Char) (short : skip ≤ before.length)
    (opens : opensReference (before.getLast?.or lead) = true) :
    ∃ reference ∈ Text.collectFrom matchReference skip lead (before ++ (name ++ after)),
      name :: membersOf after <:+ reference.parts := by
  induction before generalizing skip lead with
  | nil =>
      obtain ⟨reference, rest, read, parts⟩ := readReference_name run readable
      obtain ⟨c, more, rfl, _⟩ := run.exists_cons
      have none : skip = 0 := Nat.le_zero.mp short
      subst none
      have found : matchReference lead (c :: (more ++ after)) = some (reference, rest) := by
        have here : opensReference lead = true := opens
        unfold matchReference
        rw [if_pos here]
        exact read
      refine ⟨reference, ?_, ?_⟩
      · simp only [List.nil_append, List.cons_append, Text.collectFrom, found]
        exact List.mem_cons_self
      · exact parts ▸ List.suffix_rfl
  | cons c before ih =>
      have next : opensReference (before.getLast?.or (some c)) = true := by
        rw [List.getLast?_cons] at opens
        cases last : before.getLast? with
        | none => rw [last] at opens; exact opens
        | some d => rw [last] at opens; exact opens
      have later : IsRun ([c] ++ before) name after := run
      have rest : IsRun before name after := later.tail
      cases skip with
      | succ skip => exact ih rest skip (some c) (Nat.le_of_succ_le_succ short) next
      | zero =>
          rw [List.cons_append]
          unfold Text.collectFrom
          split
          · next reference left found =>
              rcases readReference_keeps run (readReference_of_match found) with
                took | ⟨front, back, whole, rfl⟩
              · exact ⟨reference, List.mem_cons_self, took⟩
              · have bound : (before ++ (name ++ after)).length -
                    (back ++ (name ++ after)).length ≤ before.length := by
                  simp only [List.length_append]
                  omega
                obtain ⟨other, member, took⟩ := ih rest _ (some c) bound next
                exact ⟨other, List.mem_cons_of_mem reference member, took⟩
          · exact ih rest 0 (some c) (Nat.zero_le _) next

end Standing

/-! ## Places where components stand -/

/-- Behind this text a component of a reference can stand: a reference starts here, or a dot stands
here behind a component. -/
inductive Opens : Text → Prop
  | start {front : Text} (fresh : opensReference front.getLast? = true) : Opens front
  | member {front owner blanks : Text} (opens : Opens front)
      (readable : Text.isReadable owner = true) (white : ∀ c ∈ blanks, Text.isBlank c = true) :
      Opens (front ++ (owner ++ (blanks ++ ['.'])))

theorem isReferencePart_of_opensReference {lead : Option Char} (opens : opensReference lead = true) :
    ∀ c ∈ lead, isReferencePart c = false ∧ c ≠ '.' := by
  intro c last
  cases last
  simpa [opensReference] using opens

/-- No name ends where a component can stand. -/
theorem Opens.opened {front : Text} (opens : Opens front) :
    ∀ c ∈ front.getLast?, isReferencePart c = false := by
  cases opens with
  | start fresh => exact fun c last => (isReferencePart_of_opensReference fresh c last).1
  | @member front owner blanks _ _ _ =>
      have last : (front ++ (owner ++ (blanks ++ ['.']))).getLast? = some '.' := by simp
      rw [last]
      rintro _ ⟨⟩
      decide

theorem opens_of_undotted {front : Text} (opened : ∀ c ∈ front.getLast?, isReferencePart c = false)
    (undotted : front.getLast? ≠ some '.') : Opens front := by
  refine .start ?_
  cases last : front.getLast? with
  | none => rfl
  | some c =>
      have outside := opened c last
      have other : c ≠ '.' := fun dot => undotted (dot ▸ last)
      simp [opensReference, outside, other]

theorem readMember_dot {blanks name after : Text} (white : ∀ c ∈ blanks, Text.isBlank c = true)
    (run : IsRun [] name after) (readable : Text.isReadable name = true) :
    readMember (blanks ++ '.' :: (name ++ after)) = some (name, after) := by
  have dot : Text.trimStart (blanks ++ '.' :: (name ++ after)) = '.' :: (name ++ after) := by
    rw [Text.trimStart, List.dropWhile_append_of_pos white]
    exact List.dropWhile_cons_of_neg (by decide)
  have visible : Text.trimStart (name ++ after) = name ++ after := run.trimStart_eq
  rw [readMember, dot]
  change readIdentifier (Text.trimStart (name ++ after)) = _
  rw [visible, readIdentifier_name run readable]

/-- At each of these places a name is found, together with all its members. -/
theorem exists_mem_collect {before name after : Text} (opens : Opens before)
    (readable : Text.isReadable name = true)
    (closed : ∀ c ∈ after.head?, isReferencePart c = false) :
    ∃ reference ∈ Text.collect matchReference (before ++ (name ++ after)),
      name :: membersOf after <:+ reference.parts := by
  induction opens generalizing name after with
  | @start front fresh =>
      have run := Text.isRun_of_isReadable readable (Opens.start fresh).opened closed
      exact mem_collectFrom run readable 0 none (Nat.zero_le _) (by rwa [Option.or_none])
  | @member front owner blanks opens known white ih =>
      -- The owner is found with all its members, of which the name is the first.
      have dotted : ∀ c ∈ (blanks ++ '.' :: (name ++ after)).head?, isReferencePart c = false := by
        cases blanks with
        | nil => rintro _ ⟨⟩; decide
        | cons c blanks =>
            rintro _ ⟨⟩
            exact Text.isReferencePart_of_isBlank c (white c List.mem_cons_self)
      obtain ⟨reference, found, chain⟩ := ih known dotted
      have run : IsRun [] name after := Text.isRun_of_isReadable readable nofun closed
      rw [membersOf_cons (readMember_dot white run readable)] at chain
      have whole : front ++ (owner ++ (blanks ++ ['.'])) ++ (name ++ after) =
          front ++ (owner ++ (blanks ++ '.' :: (name ++ after))) := by simp
      rw [whole]
      exact ⟨reference, found, (List.suffix_cons owner _).trans chain⟩

/-! ## Nothing is made up -/

/-- The name stands in the code where a component of a reference can. -/
def HasComponent (code name : Text) : Prop :=
  Text.isReadable name = true ∧ ∃ front back, code = front ++ (name ++ back) ∧ Opens front ∧
    ∀ c ∈ back.head?, isReferencePart c = false

theorem isWord_of_isBlank {c : Char} (blank : Text.isBlank c = true) : Text.isWord c = false :=
  Text.isWord_of_isReferencePart (Text.isReferencePart_of_isBlank c blank)

theorem ne_dot_of_isBlank {c : Char} (blank : Text.isBlank c = true) : c ≠ '.' := by
  rintro rfl
  exact absurd blank (by decide)

theorem Opens.joint {before first gap : Text} (opens : Opens before)
    (readable : Text.isReadable first = true) (joint : IsJoint gap) :
    Opens (before ++ (first ++ gap)) := by
  obtain ⟨blanks, more, rfl, white, clear⟩ := joint
  rcases List.eq_nil_or_concat more with rfl | ⟨more, c, rfl⟩
  · exact opens.member readable white
  -- A blank behind the dot is what stands in front of the next component.
  · have blank := clear c (by simp)
    have last : (before ++ (first ++ (blanks ++ '.' :: more.concat c))).getLast? = some c := by
      simp [List.getLast?_cons]
    refine opens_of_undotted (fun d found => ?_) fun dot => ?_
    · rw [last] at found
      cases found
      exact Text.isReferencePart_of_isBlank c blank
    · rw [last] at dot
      exact ne_dot_of_isBlank blank (Option.some.inj dot)

/-- Reading goes on behind each member, which is then the component in front of the next one. -/
theorem hasComponent_of_mem_readMembers (limit : Nat) {before first text : Text}
    (opens : Opens before) (known : Text.isReadable first = true) :
    ∀ member ∈ (readMembers limit text).1, HasComponent (before ++ (first ++ text)) member := by
  induction limit generalizing before first text with
  | zero => intro member found; cases found
  | succ limit ih =>
      intro member found
      unfold readMembers at found
      split at found
      · cases found
      · next second rest read =>
          obtain ⟨⟨gap, rfl, joint⟩, readable, closed⟩ := readMember_append read
          have whole : before ++ (first ++ (gap ++ (second ++ rest))) =
              (before ++ (first ++ gap)) ++ (second ++ rest) := by simp
          rw [whole]
          rcases List.mem_cons.mp found with rfl | tail
          · exact ⟨readable, _, rest, rfl, opens.joint known joint, closed⟩
          · exact ih (opens.joint known joint) readable member tail

theorem hasComponent_of_matchReference {front text rest : Text} {reference : Reference}
    (found : matchReference front.getLast? text = some (reference, rest)) :
    ∀ part ∈ reference.parts, HasComponent (front ++ text) part := by
  obtain ⟨opens, read⟩ := Option.ite_none_right_eq_some.mp found
  unfold readReference at read
  split at read
  · cases read
  · next first left same =>
      obtain ⟨rfl, readable, closed⟩ := readIdentifier_append same
      have all : ∀ part ∈ first :: (readMembers left.length left).1,
          HasComponent (front ++ (first ++ left)) part := by
        intro part member
        rcases List.mem_cons.mp member with rfl | tail
        · exact ⟨readable, front, left, rfl, .start opens, closed⟩
        · exact hasComponent_of_mem_readMembers _ (.start opens) readable part tail
      dsimp only at read
      split at read <;> cases read <;> exact all

/-- Whatever a search finds was matched at some place of the text, behind what stands there. -/
theorem collectFrom_place {α : Type} {matcher : Text.Matcher α} {found : α} (skip : Nat)
    (before text : Text) (member : found ∈ Text.collectFrom matcher skip before.getLast? text) :
    ∃ front rest after, before ++ text = front ++ rest ∧
      matcher front.getLast? rest = some (found, after) := by
  induction text generalizing skip before with
  | nil => cases skip <;> cases member
  | cons c text ih =>
      have further (skip : Nat) (member : found ∈ Text.collectFrom matcher skip (some c) text) :
          ∃ front rest after, before ++ c :: text = front ++ rest ∧
            matcher front.getLast? rest = some (found, after) := by
        have last : (before ++ [c]).getLast? = some c := by simp
        rw [← last] at member
        obtain ⟨front, rest, after, whole, matched⟩ := ih skip (before ++ [c]) member
        exact ⟨front, rest, after, by rw [← whole]; simp, matched⟩
      cases skip with
      | succ skip => exact further skip member
      | zero =>
          unfold Text.collectFrom at member
          split at member
          · next first after matched =>
              rcases List.mem_cons.mp member with rfl | tail
              · exact ⟨before, c :: text, after, rfl, matched⟩
              · exact further _ tail
          · exact further 0 member

/-- The search finds exactly the names that stand where a component of a reference can. -/
theorem mem_parts_iff {code name : Text} :
    (∃ reference ∈ Text.collect matchReference code, name ∈ reference.parts) ↔
      HasComponent code name := by
  constructor
  · rintro ⟨reference, found, part⟩
    obtain ⟨front, rest, after, whole, matched⟩ := collectFrom_place 0 [] code found
    rw [List.nil_append] at whole
    rw [whole]
    exact hasComponent_of_matchReference matched name part
  · rintro ⟨readable, front, back, rfl, opens, closed⟩
    obtain ⟨reference, found, chain⟩ := exists_mem_collect opens readable closed
    exact ⟨reference, found, chain.subset List.mem_cons_self⟩

/-- A name that is no reserved word is not taken for a keyword. -/
theorem mem_referencesInCode {reference : Reference} {code name : Text}
    (found : reference ∈ Text.collect matchReference code) (part : name ∈ reference.parts)
    (free : isReserved name = false) : reference ∈ referencesInCode code := by
  refine List.mem_filter.mpr ⟨found, ?_⟩
  unfold Reference.isKeyword
  cases members : reference.members with
  | cons member rest => rfl
  | nil =>
      have first : name = reference.first := by simpa [Reference.parts, members] using part
      rw [← first, free]
      rfl

/-! ## No component is spread -/

theorem apart_of_opensReference {front : Text} (opens : opensReference front.getLast? = true) :
    Apart front := by
  cases last : front.getLast? with
  | none =>
      rw [List.getLast?_eq_none_iff.mp last]
      exact Text.apart_nil
  | some c =>
      rw [last] at opens
      simp only [opensReference, Bool.not_eq_true', Bool.or_eq_false_iff, beq_eq_false_iff_ne]
        at opens
      exact Text.apart_of_last last (Text.isWord_of_isReferencePart opens.1) opens.2

/-- A dot behind a component spreads nothing: in front of it stands a blank, or the last character
of the component. -/
theorem Opens.apart {front : Text} (opens : Opens front) : Apart front := by
  cases opens with
  | start fresh => exact apart_of_opensReference fresh
  | @member front owner blanks _ readable white =>
      obtain ⟨d, last, other⟩ :
          ∃ d, (front ++ (owner ++ blanks)).getLast? = some d ∧ d ≠ '.' := by
        rcases List.eq_nil_or_concat blanks with rfl | ⟨blanks, d, rfl⟩
        · obtain ⟨first, d, rfl⟩ :=
            (List.eq_nil_or_concat owner).resolve_left (Text.ne_nil_of_isReadable readable)
          refine ⟨d, by simp, ?_⟩
          rintro rfl
          exact absurd (Text.solid_of_isReadable readable '.' (by simp)) (by decide)
        · exact ⟨d, by simp, ne_dot_of_isBlank (white d (by simp))⟩
      have whole : front ++ (owner ++ (blanks ++ ['.'])) = front ++ (owner ++ blanks) ++ ['.'] := by
        simp
      rw [whole]
      exact Text.apart_dot last other

/-- Where the text of a code holds a name that is read as part of a reference. -/
def Reads (code name : Text) : Prop :=
  Text.isReadable name = true ∧ ∃ front back, code = front ++ (name ++ back) ∧ Apart front

/-- The components of a reference are read off the code. -/
theorem reads_of_mem_referencesInCode {reference : Reference} {code : Text}
    (found : reference ∈ referencesInCode code) : ∀ part ∈ reference.parts, Reads code part := by
  intro part member
  obtain ⟨readable, front, back, whole, opens, _⟩ :=
    mem_parts_iff.mp ⟨reference, (List.mem_filter.mp found).1, member⟩
  exact ⟨readable, front, back, whole, opens.apart⟩

end TypeScriptGen.Syntax
