import TypeScriptGen.Proofs.Text.Pieces

/-!
# Places where names start

A name starts where no word character stands in front of it. Three dots in front
spread what the name stands for; a single dot, or any other character, does not.
-/

namespace TypeScriptGen.Text

/-- An identifier that may go on with letters and numbers of any script, as readers take it. -/
def isReadable : Text → Bool
  | [] => false
  | c :: rest => isIdentifierStart c && rest.all isReferencePart

variable {name front left : Text}

theorem isReadable_of_isIdentifier (identifier : isIdentifier name = true) :
    isReadable name = true := by
  cases name with
  | nil => cases identifier
  | cons c rest =>
      simp only [isIdentifier, isReadable, Bool.and_eq_true, List.all_eq_true] at identifier ⊢
      exact ⟨identifier.1, fun d member =>
        isReferencePart_of_isIdentifierPart d (identifier.2 d member)⟩

theorem isIdentifier_of_isPlainName (plain : isPlainName name = true) :
    isIdentifier name = true := by
  cases name with
  | nil => cases plain
  | cons c rest =>
      simp only [isIdentifier, isPlainName, Bool.and_eq_true, List.all_eq_true] at plain ⊢
      refine ⟨by simp [isIdentifierStart, plain.1], fun d member => ?_⟩
      simp [isIdentifierPart, plain.2 d member]

theorem isPlainName_of_isTypeName (typed : isTypeName name = true) : isPlainName name = true := by
  cases name with
  | nil => cases typed
  | cons c rest =>
      simp only [isTypeName, isPlainName, Bool.and_eq_true] at typed ⊢
      have letter : c.isAlpha = true := (Bool.or_eq_true _ _).mpr (Or.inl typed.1)
      exact ⟨by simp [isNameStart, letter], typed.2⟩

theorem solid_of_isReadable (readable : isReadable name = true) : Solid name := by
  intro c member
  cases name with
  | nil => cases member
  | cons first rest =>
      simp only [isReadable, Bool.and_eq_true, List.all_eq_true] at readable
      rcases List.mem_cons.mp member with rfl | tail
      · exact isReferencePart_of_isIdentifierStart c readable.1
      · exact readable.2 c tail

theorem ne_nil_of_isReadable (readable : isReadable name = true) : name ≠ [] := by
  rintro rfl
  cases readable

theorem isRun_of_isReadable {before after : Text} (readable : isReadable name = true)
    (opened : ∀ c ∈ before.getLast?, isReferencePart c = false)
    (closed : ∀ c ∈ after.head?, isReferencePart c = false) : IsRun before name after :=
  ⟨ne_nil_of_isReadable readable, solid_of_isReadable readable, opened, closed⟩

/-- Three dots stand right in front. -/
def IsSpread (front : Text) : Prop := ['.', '.', '.'] <:+ front

/-- No word character and no three dots stand right in front. -/
structure Apart (front : Text) : Prop where
  opened : ∀ c ∈ front.getLast?, isWord c = false
  unspread : ¬IsSpread front

/-- The name starts in the text behind the given front. -/
structure Starts (text front name : Text) : Prop where
  split : ∃ back, text = front ++ (name ++ back)
  opened : ∀ c ∈ front.getLast?, isWord c = false

theorem Apart.starts (apart : Apart front) (back : Text) :
    Starts (front ++ (name ++ back)) front name :=
  ⟨⟨back, rfl⟩, apart.opened⟩

theorem getLast?_of_isSpread (spread : IsSpread front) : front.getLast? = some '.' := by
  obtain ⟨left, rfl⟩ := spread
  simp

/-- Any character but a dot or a word character sets a place apart. -/
theorem apart_of_last {c : Char} (last : front.getLast? = some c) (outside : isWord c = false)
    (other : c ≠ '.') : Apart front := by
  constructor
  · intro d found
    rw [last] at found
    cases found
    exact outside
  · intro spread
    rw [getLast?_of_isSpread spread] at last
    cases last
    exact other rfl

/-- A lone dot spreads nothing. -/
theorem apart_dot {c : Char} (last : front.getLast? = some c) (other : c ≠ '.') :
    Apart (front ++ ['.']) := by
  obtain ⟨start, rfl⟩ := List.getLast?_eq_some_iff.mp last
  constructor
  · intro d ends
    have dot : '.' = d := by simpa using ends
    rw [← dot]
    decide
  · rintro ⟨left, same⟩
    have ends : (left ++ ['.']) ++ ['.', '.'] = start ++ [c, '.'] := by simpa using same
    have back := List.append_inj_right' ends rfl
    cases back
    exact other rfl

theorem apart_nil : Apart [] := ⟨nofun, fun spread => by simpa using spread.length_le⟩

theorem forall_getLast?_append {holds : Char → Prop} (before : ∀ c ∈ left.getLast?, holds c)
    (behind : ∀ c ∈ front.getLast?, holds c) : ∀ c ∈ (left ++ front).getLast?, holds c := by
  intro c last
  rw [Option.mem_def, List.getLast?_append] at last
  cases same : front.getLast? with
  | none =>
      rw [same] at last
      exact before c last
  | some d =>
      rw [same] at last
      cases last
      exact behind c same

/-- What is set off from a text touches no name in it. -/
theorem Stands.within {before after right : Text} (stands : Stands before name after)
    (opened : ∀ c ∈ left.getLast?, isReferencePart c = false)
    (closed : ∀ c ∈ right.head?, isReferencePart c = false) :
    Stands (left ++ before) name (after ++ right) := by
  refine ⟨stands.identifier, forall_getLast?_append opened stands.opened, fun c first => ?_⟩
  cases after with
  | nil => exact closed c first
  | cons d after => exact stands.closed c first

/-- Places stay apart behind a text that ends in no word character and no dot. -/
theorem Apart.append (outside : ∀ c ∈ left.getLast?, isWord c = false ∧ c ≠ '.')
    (apart : Apart front) : Apart (left ++ front) := by
  constructor
  · exact forall_getLast?_append (fun c last => (outside c last).1) apart.opened
  · rintro ⟨before, whole⟩
    refine apart.unspread ?_
    -- Dots that reach into the text in front would end it in a dot.
    rcases List.append_eq_append_iff.mp whole with ⟨extra, same, rest⟩ | ⟨extra, _, rest⟩
    · rcases List.eq_nil_or_concat extra with rfl | ⟨extra, c, rfl⟩
      · exact ⟨[], rest⟩
      · rw [List.concat_eq_append] at same rest
        have dot : c ∈ ['.', '.', '.'] := by simp [rest]
        have last : left.getLast? = some c := by simp [same]
        exact absurd (by simpa using dot) (outside c last).2
    · exact ⟨extra, rest.symm⟩

end TypeScriptGen.Text
