import TypeScriptGen.Proofs.Naming.PlainNames

/-!
# Snake case is a normal form

A text in snake case has no capitals, hyphens and blanks, and each of its underscores stands between
two other characters. Every ASCII text is brought into this form, and a text of this form stays as
it is. So all case styles depend on the snake case of a name alone, and of the two styles that part
words by capitals one begins with a capital and the other does not.
-/

namespace TypeScriptGen.Naming

variable {c : Char} {text : Text}

/-! ## The form -/

/-- Two underscores in a row. -/
def twoUnderscores : Text := ['_', '_']

structure IsSnake (text : Text) : Prop where
  small : ∀ c ∈ text, c.isUpper = false
  solid : ∀ c ∈ text, c ≠ '-' ∧ Text.isBlank c = false
  single : ¬twoUnderscores <:+: text
  starts : text.head? ≠ some '_'
  ends : text.getLast? ≠ some '_'

theorem isSeparator_eq_false_iff : isSeparator c = false ↔ c ≠ '-' ∧ Text.isBlank c = false := by
  rw [isSeparator, Bool.or_eq_false_iff, beq_eq_false_iff_ne]

theorem twoUnderscores_cons_iff {rest : Text} : twoUnderscores <:+: c :: rest ↔
    c = '_' ∧ rest.head? = some '_' ∨ twoUnderscores <:+: rest := by
  rw [twoUnderscores, List.infix_cons_iff, List.cons_prefix_cons, eq_comm,
    List.singleton_prefix_iff_head?_eq_some]

/-! ## Small ASCII letters -/

/-- What holds of the small form of each ASCII character. -/
theorem toLower_cases (ascii : c.toNat < 128) :
    c.toLower.toNat < 128 ∧ c.toLower.isUpper = false ∧
      (c.isUpper = false → c.toLower = c) ∧
      (isSeparator c = false → isSeparator c.toLower = false) :=
  Text.ascii_cases c ascii (by decide +kernel)

theorem isAscii_parted (ascii : Text.isAscii text = true) : Text.isAscii (parted text) = true := by
  refine List.all_eq_true.mpr fun c member => decide_eq_true ?_
  rcases mem_parted member with rfl | ⟨given, _⟩
  · decide
  · exact Text.code_lt_of_isAscii ascii given

/-- Each character of the snake case is the small form of one that is no separator. -/
theorem mem_toSnake (ascii : Text.isAscii text = true) (member : c ∈ toSnake text) :
    ∃ given, given.toNat < 128 ∧ isSeparator given = false ∧ c = given.toLower := by
  have inside := mem_joinUnderscores (mem_stripWhere (toSnake_eq text ▸ member))
  rw [Text.lower_eq_map _ (isAscii_parted ascii)] at inside
  obtain ⟨given, among, rfl⟩ := List.mem_map.mp inside
  refine ⟨given, Text.code_lt_of_isAscii (isAscii_parted ascii) among, ?_, rfl⟩
  rcases mem_parted among with rfl | ⟨_, solid⟩
  · rfl
  · exact solid

theorem isAscii_toSnake (ascii : Text.isAscii text = true) :
    Text.isAscii (toSnake text) = true := by
  refine List.all_eq_true.mpr fun c member => decide_eq_true ?_
  obtain ⟨given, small, _, rfl⟩ := mem_toSnake ascii member
  exact (toLower_cases small).1

/-! ## The ends of a text -/

section Ends

variable {drop : Char → Bool}

theorem stripWhere_isPrefix (drop : Char → Bool) (text : Text) :
    stripWhere drop text <+: text.dropWhile drop := by
  have front := List.reverse_prefix.mpr
    (List.dropWhile_suffix (l := (text.dropWhile drop).reverse) drop)
  rwa [List.reverse_reverse] at front

theorem stripWhere_isInfix (drop : Char → Bool) (text : Text) : stripWhere drop text <:+: text :=
  (stripWhere_isPrefix drop text).isInfix.trans (List.dropWhile_suffix drop).isInfix

theorem head?_dropWhile (found : (text.dropWhile drop).head? = some c) : drop c = false := by
  have stops := List.head?_dropWhile_not drop text
  rwa [found] at stops

theorem head?_stripWhere (found : (stripWhere drop text).head? = some c) : drop c = false := by
  obtain ⟨back, whole⟩ := stripWhere_isPrefix drop text
  have first : (text.dropWhile drop).head? = some c := by
    rw [← whole, List.head?_append, found]
    rfl
  exact head?_dropWhile first

theorem getLast?_stripWhere (found : (stripWhere drop text).getLast? = some c) :
    drop c = false := by
  rw [stripWhere, List.getLast?_reverse] at found
  exact head?_dropWhile found

theorem dropWhile_of_head? (starts : ∀ c ∈ text.head?, drop c = false) :
    text.dropWhile drop = text := by
  cases text with
  | nil => rfl
  | cons c rest => exact List.dropWhile_cons_of_neg (by simp [starts c rfl])

theorem stripWhere_of_ends (starts : ∀ c ∈ text.head?, drop c = false)
    (ends : ∀ c ∈ text.getLast?, drop c = false) : stripWhere drop text = text := by
  have back : text.reverse.dropWhile drop = text.reverse :=
    dropWhile_of_head? (by rwa [List.head?_reverse])
  rw [stripWhere, dropWhile_of_head? starts, back, List.reverse_reverse]

end Ends

/-! ## Every ASCII text is brought into the form -/

/-- Behind an underscore no other is written, also behind one that is already there. -/
theorem single_joinUnderscores (inside : Bool) (text : Text) :
    ¬twoUnderscores <:+: joinUnderscores inside text ∧
      (inside = true → (joinUnderscores inside text).head? ≠ some '_') := by
  induction text generalizing inside with
  | nil =>
      rw [joinUnderscores]
      exact ⟨by decide, fun _ => (Option.some_ne_none _).symm⟩
  | cons c rest ih =>
      rw [joinUnderscores]
      split
      · split
        · exact ⟨(ih true).1, fun _ => (ih true).2 rfl⟩
        · next outside =>
            refine ⟨fun two => ?_, fun within => absurd within outside⟩
            rcases twoUnderscores_cons_iff.mp two with ⟨_, next⟩ | later
            · exact (ih true).2 rfl next
            · exact (ih true).1 later
      · next other =>
          refine ⟨fun two => ?_, fun _ same => other (Option.some.inj same)⟩
          rcases twoUnderscores_cons_iff.mp two with ⟨low, _⟩ | later
          · exact other low
          · exact (ih false).1 later

theorem isSnake_toSnake (ascii : Text.isAscii text = true) : IsSnake (toSnake text) where
  small c member := by
    obtain ⟨given, small, _, rfl⟩ := mem_toSnake ascii member
    exact (toLower_cases small).2.1
  solid c member := by
    obtain ⟨given, small, solid, rfl⟩ := mem_toSnake ascii member
    exact isSeparator_eq_false_iff.mp ((toLower_cases small).2.2.2 solid)
  single two :=
    (single_joinUnderscores false _).1 (two.trans (stripWhere_isInfix _ _))
  starts found := Bool.noConfusion (head?_stripWhere found)
  ends found := Bool.noConfusion (getLast?_stripWhere found)

/-! ## A text of the form stays as it is -/

theorem joinSeparators_of_solid (solid : ∀ c ∈ text, isSeparator c = false) (inside : Bool) :
    joinSeparators inside text = text := by
  induction text generalizing inside with
  | nil => rfl
  | cons c rest ih =>
      obtain ⟨here, later⟩ := List.forall_mem_cons.mp solid
      rw [joinSeparators, here, if_neg Bool.false_ne_true, ih later]

theorem breakAcronyms_of_small (small : ∀ c ∈ text, c.isUpper = false) (after : Bool) :
    breakAcronyms after text = text := by
  induction text generalizing after with
  | nil => rfl
  | cons c rest ih =>
      obtain ⟨here, later⟩ := List.forall_mem_cons.mp small
      rw [breakAcronyms, here, Bool.false_and, Bool.false_and, if_neg Bool.false_ne_true, ih later]

theorem breakWords_of_small (small : ∀ c ∈ text, c.isUpper = false) (after : Bool) :
    breakWords after text = text := by
  induction text generalizing after with
  | nil => rfl
  | cons c rest ih =>
      obtain ⟨here, later⟩ := List.forall_mem_cons.mp small
      rw [breakWords, here, Bool.false_and, if_neg Bool.false_ne_true, ih later]

theorem lower_of_small (ascii : Text.isAscii text = true) (small : ∀ c ∈ text, c.isUpper = false) :
    Text.lower text = text := by
  have same : text.map Char.toLower = text.map id := List.map_congr_left fun c member =>
    (toLower_cases (Text.code_lt_of_isAscii ascii member)).2.2.1 (small c member)
  rw [Text.lower_eq_map text ascii, same, List.map_id]

theorem joinUnderscores_of_single {inside : Bool} (single : ¬twoUnderscores <:+: text)
    (starts : inside = true → text.head? ≠ some '_') : joinUnderscores inside text = text := by
  induction text generalizing inside with
  | nil => rfl
  | cons c rest ih =>
      rw [twoUnderscores_cons_iff, not_or] at single
      rw [joinUnderscores]
      split
      · next low =>
          have alone : rest.head? ≠ some '_' := fun next => single.1 ⟨low, next⟩
          rw [if_neg fun within => starts within (congrArg some low), low,
            ih single.2 fun _ => alone]
      · next other => rw [ih single.2 fun within => absurd within Bool.false_ne_true]

theorem toSnake_of_isSnake (ascii : Text.isAscii text = true) (snake : IsSnake text) :
    toSnake text = text := by
  have solid : ∀ c ∈ text, isSeparator c = false := fun c member =>
    isSeparator_eq_false_iff.mpr (snake.solid c member)
  have whole : parted text = text := by
    rw [parted, joinSeparators_of_solid solid, breakAcronyms_of_small snake.small,
      breakWords_of_small snake.small]
  have starts : ∀ c ∈ text.head?, (c == '_') = false := fun c first =>
    beq_false_of_ne fun low => snake.starts (low ▸ first)
  have ends : ∀ c ∈ text.getLast?, (c == '_') = false := fun c last =>
    beq_false_of_ne fun low => snake.ends (low ▸ last)
  rw [toSnake_eq, whole, lower_of_small ascii snake.small,
    joinUnderscores_of_single snake.single fun within => absurd within Bool.false_ne_true,
    stripWhere_of_ends starts ends]

theorem toSnake_toSnake (ascii : Text.isAscii text = true) :
    toSnake (toSnake text) = toSnake text :=
  toSnake_of_isSnake (isAscii_toSnake ascii) (isSnake_toSnake ascii)

/-! ## The styles with capitals -/

/-- The styles that go through the words in snake case do not tell apart what has the same. -/
theorem convert_toSnake (ascii : Text.isAscii text = true) (style : Style) :
    convert style (toSnake text) = convert style text := by
  have words : snakeParts (toSnake text) = snakeParts text := by
    rw [snakeParts, toSnake_toSnake ascii, snakeParts]
  cases style with
  | snake => exact toSnake_toSnake ascii
  | camel => simp only [convert, toCamel, words]
  | pascal => simp only [convert, toPascal, words]

/-- The first word is empty only if there is no other. -/
theorem snakeParts_cases (ascii : Text.isAscii text = true) :
    snakeParts text = [[]] ∨
      ∃ c word rest, c.toNat < 128 ∧ snakeParts text = (c :: word) :: rest := by
  have starts := (isSnake_toSnake ascii).starts
  have codes := isAscii_toSnake ascii
  rw [snakeParts]
  cases found : toSnake text with
  | nil => exact .inl rfl
  | cons c more =>
      rw [found] at starts codes
      have other : (c == '_') = false := beq_false_of_ne fun low => starts (congrArg some low)
      obtain ⟨word, rest, split⟩ :=
        List.exists_cons_of_ne_nil (Text.splitWhere_ne_nil (fun c => c == '_') more)
      refine .inr ⟨c, word, rest, Text.code_lt_of_isAscii codes List.mem_cons_self, ?_⟩
      rw [Text.splitOn, Text.splitWhere, other, if_neg Bool.false_ne_true, split]

/-- The first character is put into upper case. -/
theorem toPascal_eq (ascii : Text.isAscii text = true) :
    toPascal text = (toCamel text).modifyHead Char.toUpper := by
  rcases snakeParts_cases ascii with none | ⟨c, word, rest, small, parts⟩
  · simp only [toPascal, toCamel, none]
    rfl
  · have title : Text.capitalize (c :: word) = c.toUpper :: word := by
      rw [Text.capitalize, Text.titleChar, if_pos small, List.singleton_append]
    simp only [toPascal, toCamel, parts, List.flatMap_cons, title, List.cons_append,
      List.modifyHead_cons]

/-- Snake case is a normal form of ASCII texts, in which the case styles agree, and the two styles
with capitals differ in the first character. -/
theorem toSnake_normal (ascii : Text.isAscii text = true) :
    Text.isAscii (toSnake text) = true ∧ IsSnake (toSnake text) ∧
      toSnake (toSnake text) = toSnake text ∧
      toCamel (toSnake text) = toCamel text ∧ toPascal (toSnake text) = toPascal text ∧
      toPascal text = (toCamel text).modifyHead Char.toUpper :=
  ⟨isAscii_toSnake ascii, isSnake_toSnake ascii, toSnake_toSnake ascii,
    convert_toSnake ascii .camel, convert_toSnake ascii .pascal, toPascal_eq ascii⟩

/-- Acronyms, digits and runs of separators come into the form. -/
theorem toSnake_normal_acronyms :
    let text := "-HTTPServer \t v2XMLId__".toList
    Text.isAscii text = true ∧ toSnake text = "http_server_v2_xml_id".toList ∧
      toCamel text = "httpServerV2XmlId".toList ∧
      Text.isAscii (toSnake text) = true ∧ IsSnake (toSnake text) ∧
      toSnake (toSnake text) = toSnake text ∧
      toCamel (toSnake text) = toCamel text ∧ toPascal (toSnake text) = toPascal text ∧
      toPascal text = (toCamel text).modifyHead Char.toUpper :=
  ⟨by decide, by decide, by decide, toSnake_normal (by decide)⟩

end TypeScriptGen.Naming
