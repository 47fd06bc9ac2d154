import TypeScriptGen.Proofs.Usage.Descendants

/-!
# Runs of a tracker

Whatever is asked of a tracker, and in whatever order, what it holds are the names
of the fragments that it took since it was last reset. It took those that it was
given before it was frozen; a scan that comes later is refused and leaves it as it
is. A fragment adds the names of the nodes and texts in it, so that neither their
order nor how they are grouped makes a difference.
-/

namespace TypeScriptGen.Usage

/-! ## Fragments -/

namespace Fragment

/-- No node in the fragment holds a placeholder. -/
inductive IsComplete : Fragment → Prop
  | node {root : Node} (complete : root.IsComplete) : IsComplete (.node root)
  | code (text : Text) : IsComplete (.code text)
  | many {fragments : List Fragment} (complete : ∀ fragment ∈ fragments, IsComplete fragment) :
      IsComplete (.many fragments)
  | other : IsComplete .other

/-- The name is one of a node or text in the fragment. -/
inductive Yields : Fragment → Text → Prop
  | node {root : Node} {name : Text} (born : BornWithin root name) : Yields (.node root) name
  | code {text name : Text} (found : name ∈ namesInCode text) : Yields (.code text) name
  | many {fragments : List Fragment} {fragment : Fragment} {name : Text}
      (among : fragment ∈ fragments) (yields : Yields fragment name) : Yields (.many fragments) name

/-- The node or text stands in the fragment, at whatever depth. -/
inductive Leaf : Fragment → Fragment → Prop
  | node (root : Node) : Leaf (.node root) (.node root)
  | code (text : Text) : Leaf (.code text) (.code text)
  | many {fragments : List Fragment} {leaf fragment : Fragment}
      (among : fragment ∈ fragments) (inner : Leaf leaf fragment) : Leaf leaf (.many fragments)

variable {fragment : Fragment} {fragments : List Fragment} {name : Text}

theorem yields_node {root : Node} : Yields (.node root) name ↔ BornWithin root name := by
  refine ⟨?_, .node⟩
  rintro ⟨born⟩
  exact born

theorem yields_code {text : Text} : Yields (.code text) name ↔ name ∈ namesInCode text := by
  refine ⟨?_, .code⟩
  rintro (_ | ⟨found⟩)
  exact found

theorem not_yields_other : ¬Yields .other name := by
  rintro ⟨⟩

theorem yields_many :
    Yields (.many fragments) name ↔ ∃ fragment ∈ fragments, Yields fragment name := by
  constructor
  · rintro (_ | _ | ⟨among, yields⟩)
    exact ⟨_, among, yields⟩
  · rintro ⟨fragment, among, yields⟩
    exact .many among yields

theorem yields_iff_leaf : Yields fragment name ↔ ∃ leaf, Leaf leaf fragment ∧ Yields leaf name := by
  constructor
  · intro yields
    induction yields with
    | node born => exact ⟨_, .node _, .node born⟩
    | code found => exact ⟨_, .code _, .code found⟩
    | many among _ ih =>
        obtain ⟨leaf, inner, yields⟩ := ih
        exact ⟨leaf, .many among inner, yields⟩
  · rintro ⟨leaf, inner, yields⟩
    induction inner with
    | node | code => exact yields
    | many among _ ih => exact .many among (ih yields)

theorem yields_map {α : Type} (items : List α) (make : α → Fragment) :
    Yields (.many (items.map make)) name ↔ ∃ item ∈ items, Yields (make item) name := by
  rw [yields_many]
  simp only [List.mem_map]
  constructor
  · rintro ⟨_, ⟨item, among, rfl⟩, yields⟩
    exact ⟨item, among, yields⟩
  · rintro ⟨item, among, yields⟩
    exact ⟨_, ⟨item, among, rfl⟩, yields⟩

theorem ofItems_eq_map (items : List Value) : ofItems items = items.map ofValue := by
  induction items with
  | nil => rfl
  | cons item items ih => rw [ofItems, ih, List.map_cons]

theorem ofKeys_eq_map (entries : List (Value × Value)) :
    ofKeys entries = entries.map fun entry => ofValue entry.1 := by
  induction entries with
  | nil => rfl
  | cons entry entries ih => rw [ofKeys, ih, List.map_cons]

/-- A collection yields what its items or keys do. -/
structure Unites : Prop where
  list (items : List Value) (name : Text) :
    Yields (ofValue (.list items)) name ↔ ∃ item ∈ items, Yields (ofValue item) name
  tuple (items : List Value) (name : Text) :
    Yields (ofValue (.tuple items)) name ↔ ∃ item ∈ items, Yields (ofValue item) name
  table (entries : List (Value × Value)) (name : Text) :
    Yields (ofValue (.table entries)) name ↔ ∃ entry ∈ entries, Yields (ofValue entry.1) name

theorem unites : Unites where
  list items name := by rw [ofValue, ofItems_eq_map, yields_map]
  tuple items name := by rw [ofValue, ofItems_eq_map, yields_map]
  table entries name := by rw [ofValue, ofKeys_eq_map, yields_map]

end Fragment

open Fragment (Yields)

/-! ## Scans -/

variable {tracker : Tracker} {fragment : Fragment}

theorem scan_frozen (frozen : tracker.frozen = true) :
    tracker.scan fragment = (tracker, .error .frozen) := by
  cases fragment <;> rw [Tracker.scan, if_pos frozen]

/-- The tracker takes fragments by recording their names, which are the same for any tracker. -/
private def TakenBy (names : List Text) (scan : Tracker → Tracker × Except Failure Unit) : Prop :=
  ∀ tracker : Tracker, tracker.frozen = false → scan tracker = (tracker.recordAll names, .ok ())

theorem scanAll_complete {fragments : List Fragment}
    (each : ∀ fragment ∈ fragments, ∃ names, (∀ name, name ∈ names ↔ Yields fragment name) ∧
      TakenBy names fun tracker => tracker.scan fragment) :
    ∃ names, (∀ name, name ∈ names ↔ Yields (.many fragments) name) ∧
      TakenBy names fun tracker => tracker.scanAll fragments := by
  induction fragments with
  | nil => exact ⟨[], fun name => by simp [Fragment.yields_many], fun tracker _ => rfl⟩
  | cons fragment fragments ih =>
      obtain ⟨first, first_iff, scans⟩ := each fragment (.head _)
      obtain ⟨rest, rest_iff, scans_rest⟩ := ih fun later among => each later (.tail _ among)
      refine ⟨first ++ rest, fun name => ?_, fun tracker thawed => ?_⟩
      · simp [Fragment.yields_many, first_iff, rest_iff]
      · have thawed_next := (Tracker.recordAll_frozen tracker first).trans thawed
        have head := scans tracker thawed
        have tail := scans_rest _ thawed_next
        simp only [Tracker.scanAll, head, tail, recordAll_append]

/-- A thawed tracker takes any complete fragment, and what it adds is what the fragment yields. -/
theorem scan_complete (complete : fragment.IsComplete) :
    ∃ names, (∀ name, name ∈ names ↔ Yields fragment name) ∧
      TakenBy names fun tracker => tracker.scan fragment := by
  induction complete with
  | @node root complete =>
      refine ⟨namesIn root, fun name => ?_, fun tracker thawed =>
        scan_node tracker thawed (hasPlaceholder_eq_false_iff.mpr complete)⟩
      rw [mem_namesIn_iff, Fragment.yields_node]
  | code text =>
      exact ⟨namesInCode text, fun name => Fragment.yields_code.symm,
        fun tracker thawed => scan_code tracker thawed text⟩
  | @many fragments _ ih =>
      obtain ⟨names, names_iff, scans⟩ := scanAll_complete ih
      refine ⟨names, names_iff, fun tracker thawed => ?_⟩
      dsimp only
      rw [Tracker.scan, thawed, if_neg Bool.false_ne_true]
      exact scans tracker thawed
  | other =>
      refine ⟨[], fun name => iff_of_false List.not_mem_nil Fragment.not_yields_other,
        fun tracker thawed => ?_⟩
      dsimp only
      rw [Tracker.scan, thawed, if_neg Bool.false_ne_true]
      rfl

/-! ## Requests since the last reset -/

/-- A request for which this holds was served behind the last reset; what holds may depend on the
requests before it. -/
def Since (requests : List Request) (holds : List Request → Request → Prop) : Prop :=
  ∃ before request after, requests = before ++ request :: after ∧ .reset ∉ request :: after ∧
    holds before request

def FrozenBy (requests : List Request) : Prop := Since requests fun _ request => request = .freeze

/-- The fragment was given to be scanned when the tracker was not frozen, and it has not been reset
since. -/
def Taken (requests : List Request) (fragment : Fragment) : Prop :=
  Since requests fun before request => request = .scan fragment ∧ ¬FrozenBy before

section Since

variable {requests : List Request} {request : Request} {holds : List Request → Request → Prop}

theorem not_since_nil : ¬Since [] holds := by
  rintro ⟨before, request, after, whole, -, -⟩
  cases before <;> cases whole

theorem since_concat :
    Since (requests ++ [request]) holds ↔
      request ≠ .reset ∧ (Since requests holds ∨ holds requests request) := by
  constructor
  · rintro ⟨before, found, after, whole, kept, held⟩
    rcases List.eq_nil_or_concat after with rfl | ⟨middle, last, rfl⟩
    · obtain ⟨rfl, same⟩ := List.append_inj' whole rfl
      cases same
      exact ⟨fun reset => kept (reset ▸ .head _), .inr held⟩
    · rw [List.concat_eq_append, ← List.cons_append, ← List.append_assoc] at whole
      obtain ⟨rfl, same⟩ := List.append_inj' whole rfl
      cases same
      rw [List.concat_eq_append, ← List.cons_append, List.mem_append, not_or] at kept
      exact ⟨fun reset => kept.2 (reset ▸ .head _), .inl ⟨_, _, _, rfl, kept.1, held⟩⟩
  · rintro ⟨other, ⟨before, found, after, rfl, kept, held⟩ | held⟩
    · refine ⟨before, found, after ++ [request], by simp, ?_, held⟩
      rw [← List.cons_append, List.mem_append, not_or, List.mem_singleton]
      exact ⟨kept, Ne.symm other⟩
    · have kept : .reset ∉ [request] := fun reset => other (List.mem_singleton.mp reset).symm
      exact ⟨requests, request, [], rfl, kept, held⟩

end Since

/-! ## Runs -/

/-- What a tracker is after the requests: frozen by them, with the names of the fragments that it
took; frozen it refuses every scan, and thawed it takes every complete fragment. -/
structure Tracker.Accounts (tracker : Tracker) (requests : List Request) : Prop where
  frozen_iff : tracker.frozen = true ↔ FrozenBy requests
  refuses (fragment : Fragment) : FrozenBy requests →
    tracker.serve (.scan fragment) = (tracker, .error .frozen)
  accepts (fragment : Fragment) : ¬FrozenBy requests → fragment.IsComplete →
    (tracker.serve (.scan fragment)).2 = .ok none
  names_iff (name : Text) :
    name ∈ tracker.names ↔ ∃ fragment, Taken requests fragment ∧ Yields fragment name

theorem serve_scan {next : Tracker} {result : Except Failure Unit}
    (done : tracker.scan fragment = (next, result)) :
    tracker.serve (.scan fragment) = (next, result.map fun _ => none) := by
  rw [Tracker.serve, done]

section Runs

variable {requests : List Request} {request : Request}

/-- Freezing and names alone decide whether scans are refused. -/
theorem Tracker.Accounts.of_iffs (frozen_iff : tracker.frozen = true ↔ FrozenBy requests)
    (names_iff : ∀ name, name ∈ tracker.names ↔
      ∃ fragment, Taken requests fragment ∧ Yields fragment name) : tracker.Accounts requests where
  frozen_iff := frozen_iff
  refuses _ frozen := serve_scan (scan_frozen (frozen_iff.mpr frozen))
  accepts _ thawed complete := by
    obtain ⟨names, -, scans⟩ := scan_complete complete
    have unlocked : tracker.frozen = false :=
      eq_false_of_ne_true fun frozen => thawed (frozen_iff.mp frozen)
    rw [serve_scan (scans tracker unlocked)]
    rfl
  names_iff := names_iff

theorem frozenBy_concat :
    FrozenBy (requests ++ [request]) ↔
      request ≠ .reset ∧ (FrozenBy requests ∨ request = .freeze) := since_concat

theorem taken_concat :
    Taken (requests ++ [request]) fragment ↔
      request ≠ .reset ∧
        (Taken requests fragment ∨ request = .scan fragment ∧ ¬FrozenBy requests) := since_concat

/-- A request that neither freezes, resets nor scans leaves the account as it is. -/
theorem Tracker.Accounts.idle (accounts : tracker.Accounts requests) (reset : request ≠ .reset)
    (freeze : request ≠ .freeze) (scan : ∀ fragment, request ≠ .scan fragment) :
    tracker.Accounts (requests ++ [request]) := by
  refine .of_iffs ?_ fun name => ?_
  · rw [accounts.frozen_iff, frozenBy_concat]
    simp only [reset, freeze, ne_eq, not_false_eq_true, true_and, or_false]
  · rw [accounts.names_iff]
    simp only [taken_concat, reset, scan, ne_eq, not_false_eq_true, true_and, false_and, or_false]

/-- One request more. -/
theorem Tracker.Accounts.serve (accounts : tracker.Accounts requests)
    (complete : ∀ fragment, request = .scan fragment → fragment.IsComplete) :
    (tracker.serve request).1.Accounts (requests ++ [request]) := by
  cases request with
  | isUsed name => exact accounts.idle nofun nofun nofun
  | contains value => exact accounts.idle nofun nofun nofun
  | freeze =>
      refine .of_iffs ?_ fun name => ?_
      · simp [Tracker.serve, Tracker.freeze, frozenBy_concat]
      · simp [Tracker.serve, Tracker.freeze, taken_concat, accounts.names_iff]
  | reset =>
      refine .of_iffs ?_ fun name => ?_
      · simp [Tracker.serve, Tracker.reset, Tracker.empty, frozenBy_concat]
      · simp [Tracker.serve, Tracker.reset, Tracker.empty, taken_concat]
  | scan fragment =>
      by_cases frozen : FrozenBy requests
      · rw [accounts.refuses fragment frozen]
        refine .of_iffs ?_ fun name => ?_
        · simp [accounts.frozen_iff, frozenBy_concat]
        · simp [accounts.names_iff, taken_concat, frozen]
      · obtain ⟨names, names_iff, scans⟩ := scan_complete (complete fragment rfl)
        have thawed : tracker.frozen = false :=
          Bool.eq_false_iff.mpr fun held => frozen (accounts.frozen_iff.mp held)
        rw [serve_scan (scans tracker thawed)]
        refine .of_iffs ?_ fun name => ?_
        · simp [Tracker.recordAll_frozen, accounts.frozen_iff, frozenBy_concat]
        · rw [Tracker.mem_recordAll, names_iff, accounts.names_iff]
          simp only [taken_concat, Request.scan.injEq]
          constructor
          · rintro (yields | ⟨earlier, taken, yields⟩)
            · exact ⟨fragment, ⟨nofun, .inr ⟨rfl, frozen⟩⟩, yields⟩
            · exact ⟨earlier, ⟨nofun, .inl taken⟩, yields⟩
          · rintro ⟨found, ⟨-, taken | ⟨rfl, -⟩⟩, yields⟩
            · exact .inr ⟨found, taken, yields⟩
            · exact .inl yields

theorem Tracker.Accounts.after {before : List Request} (accounts : tracker.Accounts before)
    (complete : ∀ fragment, .scan fragment ∈ requests → fragment.IsComplete) :
    (tracker.after requests).Accounts (before ++ requests) := by
  -- the requests that were served pass from the run to what is accounted for
  induction requests generalizing tracker before with
  | nil => rwa [List.append_nil]
  | cons request requests ih =>
      have served := accounts.serve fun fragment same => complete fragment (same ▸ .head _)
      rw [List.append_cons]
      exact ih served fun fragment among => complete fragment (.tail _ among)

theorem Tracker.accounts_empty : empty.Accounts [] := by
  refine .of_iffs ?_ fun name => ?_
  · exact ⟨nofun, fun frozen => absurd frozen not_since_nil⟩
  · exact ⟨nofun, fun ⟨_, taken, _⟩ => absurd taken not_since_nil⟩

/-- The node or text stands in a fragment that was taken. -/
def Gathered (requests : List Request) (leaf : Fragment) : Prop :=
  ∃ fragment, Taken requests fragment ∧ leaf.Leaf fragment

theorem Tracker.Accounts.names_iff_gathered (accounts : tracker.Accounts requests) (name : Text) :
    name ∈ tracker.names ↔ ∃ leaf, Gathered requests leaf ∧ Yields leaf name := by
  rw [accounts.names_iff]
  constructor
  · rintro ⟨fragment, taken, yields⟩
    obtain ⟨leaf, inner, yields⟩ := Fragment.yields_iff_leaf.mp yields
    exact ⟨leaf, ⟨fragment, taken, inner⟩, yields⟩
  · rintro ⟨leaf, ⟨fragment, taken, inner⟩, yields⟩
    exact ⟨fragment, taken, Fragment.yields_iff_leaf.mpr ⟨leaf, inner, yields⟩⟩

/-- Every run of a fresh tracker accounts for its requests, where a collection counts for what is in
it; and two runs that took the same nodes and texts end with the same names, in whatever order,
grouping and number they took them. -/
theorem run_accounts (requests : List Request)
    (complete : ∀ fragment, .scan fragment ∈ requests → fragment.IsComplete) :
    (Tracker.empty.after requests).Accounts requests ∧ Fragment.Unites ∧
      ∀ others : List Request, (∀ fragment, .scan fragment ∈ others → fragment.IsComplete) →
        (∀ leaf, Gathered requests leaf ↔ Gathered others leaf) →
        ∀ name, name ∈ (Tracker.empty.after requests).names ↔
          name ∈ (Tracker.empty.after others).names := by
  have accounts := Tracker.accounts_empty.after complete
  refine ⟨accounts, Fragment.unites, fun others complete_others same name => ?_⟩
  have accounts_others := Tracker.accounts_empty.after complete_others
  rw [Tracker.Accounts.names_iff_gathered accounts, accounts_others.names_iff_gathered]
  simp only [List.nil_append, same]

end Runs

/-! ### Two runs with the same names -/

private def bar : Node := .identifier "bar".toList

private def annotated : Text := "x: Foo".toList

/-- A name that a reset forgets, nested collections, and requests behind a freeze. -/
private def mixedRun : List Request :=
  [] ++ [.scan (.code "x: Old".toList)] ++ [.reset] ++
    [.scan (.ofValue (.list [.text annotated, .tuple [.node bar, .null]]))] ++
    [.isUsed annotated] ++ [.freeze] ++ [.scan (.many [])] ++ [.contains (.list [])]

private def plainRun : List Request :=
  [] ++ [.scan (.node bar)] ++ [.scan (.code annotated)] ++ [.scan (.code annotated)]

private theorem bar_complete : bar.IsComplete := hasPlaceholder_eq_false_iff.mp (by decide)

private def collected : Fragment := .many [.code annotated, .many [.node bar, .other]]

private theorem collected_complete : collected.IsComplete := by
  refine .many ?_
  rintro _ (_ | ⟨_, _ | ⟨_, ⟨⟩⟩⟩)
  · exact .code annotated
  · refine .many ?_
    rintro _ (_ | ⟨_, _ | ⟨_, ⟨⟩⟩⟩)
    · exact .node bar_complete
    · exact .other

private theorem leaf_collected {leaf : Fragment} :
    leaf.Leaf collected ↔ leaf = .node bar ∨ leaf = .code annotated := by
  constructor
  · rintro (_ | _ | ⟨_ | ⟨_, _ | ⟨_, ⟨⟩⟩⟩, inner⟩)
    · cases inner
      exact .inr rfl
    · obtain _ | _ | ⟨_ | ⟨_, _ | ⟨_, ⟨⟩⟩⟩, inner⟩ := inner
      · cases inner
        exact .inl rfl
      · cases inner
  · rintro (rfl | rfl)
    · exact .many (.tail _ (.head _)) (.many (.head _) (.node bar))
    · exact .many (.head _) (.code annotated)

private theorem mem_mixedRun {fragment : Fragment} (among : .scan fragment ∈ mixedRun) :
    fragment.IsComplete := by
  simp only [mixedRun, List.nil_append, List.cons_append, List.mem_cons, Request.scan.injEq,
    reduceCtorEq, false_or, or_false, List.not_mem_nil] at among
  rcases among with rfl | rfl | rfl
  · exact .code _
  · exact collected_complete
  · exact .many nofun

private theorem mem_plainRun {fragment : Fragment} (among : .scan fragment ∈ plainRun) :
    fragment.IsComplete := by
  simp only [plainRun, List.nil_append, List.cons_append, List.mem_cons, Request.scan.injEq,
    or_false, List.not_mem_nil, or_self] at among
  rcases among with rfl | rfl
  · exact .node bar_complete
  · exact .code annotated

private theorem gathered_mixedRun {leaf : Fragment} :
    Gathered mixedRun leaf ↔ leaf = .node bar ∨ leaf = .code annotated := by
  have taken : ∀ fragment, Taken mixedRun fragment ↔ collected = fragment := by
    intro fragment
    simp only [mixedRun, taken_concat, frozenBy_concat]
    simp [Fragment.ofValue, Fragment.ofItems, FrozenBy, Taken, not_since_nil, collected]
  simp only [Gathered, taken, exists_eq_left', leaf_collected]

private theorem gathered_plainRun {leaf : Fragment} :
    Gathered plainRun leaf ↔ leaf = .node bar ∨ leaf = .code annotated := by
  have taken : ∀ fragment, Taken plainRun fragment ↔
      .node bar = fragment ∨ .code annotated = fragment := by
    intro fragment
    simp only [plainRun, taken_concat, frozenBy_concat]
    simp [FrozenBy, Taken, not_since_nil]
  simp only [Gathered, taken, or_and_right, exists_or, exists_eq_left']
  exact or_congr ⟨fun | .node _ => rfl, (· ▸ .node bar)⟩
    ⟨fun | .code _ => rfl, (· ▸ .code annotated)⟩

theorem run_accounts_mixedRun :
    (Tracker.empty.after mixedRun).Accounts mixedRun ∧
      ∀ name, name ∈ (Tracker.empty.after mixedRun).names ↔
        name ∈ (Tracker.empty.after plainRun).names := by
  obtain ⟨accounts, -, same⟩ := run_accounts mixedRun fun _ => mem_mixedRun
  exact ⟨accounts, same plainRun (fun _ => mem_plainRun)
    fun leaf => gathered_mixedRun.trans gathered_plainRun.symm⟩

end TypeScriptGen.Usage
