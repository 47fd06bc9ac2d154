import TypeScriptGen.Proofs.Declaration.Drafted
import TypeScriptGen.Proofs.Naming.PlainNames
import TypeScriptGen.Proofs.Text.Place

/-!
# Members of enumerations

A member that is given by its value alone takes its key from the enumeration's own sanitizer, which
makes plain names and keeps those of different values apart. A key that is given with its value is
not told to the sanitizer. So the names of the members differ as long as no given key is also made
for a value.
-/

namespace TypeScriptGen

open Naming (Request)
open Naming.Sanitizer (Exchange exchanges fresh)
open Text (Spelled)

namespace EnumDraft

variable {draft next : EnumDraft} {key other : Text}

/-- What commands make of a draft when the caller goes on behind those that fail. -/
def after (commands : List Command) (draft : EnumDraft) : EnumDraft :=
  commands.foldl (fun draft command => (apply command draft).state) draft

/-- The request for the key of a value. -/
def request (value : Text) : Request := ⟨value, .pascal, Naming.Sanitizer.defaultSuffix⟩

/-- The member for a value whose key was made. -/
def derived (exchange : Exchange) : Node :=
  .enumMember exchange.answer (.stringLiteral exchange.request.name)

/-! ## Keys as they are written -/

theorem isPlainKey_of_isIdentifier (identifier : Text.isIdentifier key = true) :
    isPlainKey key = true := by
  rw [isPlainKey, identifier, Bool.true_or]

theorem keyText_of_isPlainName (plain : Text.isPlainName key = true) : keyText key = key :=
  if_pos (isPlainKey_of_isIdentifier (Text.isIdentifier_of_isPlainName plain))

theorem head?_of_isIdentifier (identifier : Text.isIdentifier key = true) :
    key.head? ≠ some '"' := by
  cases key with
  | nil => cases identifier
  | cons c rest =>
      rw [Text.isIdentifier, Bool.and_eq_true] at identifier
      rintro same
      cases same
      exact absurd identifier.1 (by decide)

theorem head?_of_isPlainKey (plain : isPlainKey key = true) : key.head? ≠ some '"' := by
  rw [isPlainKey, Bool.or_eq_true, Bool.and_eq_true] at plain
  rcases plain with identifier | ⟨_, identifier⟩
  · exact head?_of_isIdentifier identifier
  · cases key with
    | nil => cases identifier
    | cons c rest =>
        cases rest with
        | nil => cases identifier
        | cons d rest => exact fun same => head?_of_isIdentifier identifier same

/-- Keys that differ are written differently. -/
theorem keyText_inj (same : keyText key = keyText other) : key = other := by
  unfold keyText at same
  split at same
  · next plain =>
      split at same
      · exact same
      · exact absurd (congrArg List.head? same) (head?_of_isPlainKey plain)
  · split at same
    · next plain => exact absurd (congrArg List.head? same.symm) (head?_of_isPlainKey plain)
    · exact List.append_cancel_right (List.cons.inj same).2

/-! ## Sanitizers of enumerations -/

theorem spelled_defaultSuffix : Spelled Naming.Sanitizer.defaultSuffix := by decide

/-- The sanitizer of the draft remembers plain names only. -/
def IsPlain (draft : EnumDraft) : Prop := draft.sanitizer.IsPlain

theorem isPlain_start (name : Text) (exported constant : Bool) :
    IsPlain (start name exported constant) := nofun

theorem keeps_isPlain : Keeps IsPlain where
  comment _ _ plain := plain
  sanitizer _ text plain := plain.next (request text) spelled_defaultSuffix
  member _ _ _ plain := plain

theorem Keeps.after {kept : EnumDraft → Prop} (keeps : Keeps kept) (commands : List Command)
    (held : kept draft) : kept (after commands draft) :=
  List.foldlRecOn commands _ held fun _ held command _ => keeps.apply command _ held

/-! ## Members for values -/

theorem answers_isPlainName (plain : draft.IsPlain) (values : List Text) :
    ∀ exchange ∈ exchanges draft.sanitizer (values.map request),
      Text.isPlainName exchange.answer = true := by
  refine Naming.Sanitizer.IsPlain.exchanges plain fun asked among => ?_
  obtain ⟨value, _, rfl⟩ := List.mem_map.mp among
  exact spelled_defaultSuffix

/-- The draft with a member for one more text. -/
def withText (draft : EnumDraft) (value : Text) : EnumDraft :=
  { draft with
    members := draft.members ++ [derived ⟨draft.sanitizer, request value⟩]
    sanitizer := draft.sanitizer.next (request value) }

theorem addValue_text (plain : draft.IsPlain) (value : Text) :
    draft.addValue (.text value) = .ok (draft.withText value) := by
  have made : draft.addValue (.text value) = .ok { draft with
      members := draft.members ++ [.enumMember
        (keyText (draft.sanitizer.answer (request value))) (.stringLiteral value)]
      sanitizer := draft.sanitizer.next (request value) } := rfl
  rw [made, keyText_of_isPlainName (plain.answer (request value) spelled_defaultSuffix)]
  rfl

theorem isPlain_withText (plain : draft.IsPlain) (value : Text) : (draft.withText value).IsPlain :=
  plain.next (request value) spelled_defaultSuffix

/-- Texts are never refused: each becomes a member whose key the sanitizer makes. -/
theorem addValues_texts (plain : draft.IsPlain) (values : List Text) :
    addValues (values.map .text) draft = .done { draft with
      members := draft.members ++ (exchanges draft.sanitizer (values.map request)).map derived
      sanitizer := (values.map request).foldl Naming.Sanitizer.next draft.sanitizer } := by
  induction values generalizing draft with
  | nil =>
      rw [List.map_nil, List.map_nil, exchanges, List.map_nil, List.append_nil]
      rfl
  | cons value values ih =>
      rw [List.map_cons, addValues, addValue_text plain value]
      dsimp only
      rw [ih (isPlain_withText plain value), List.map_cons, exchanges, List.map_cons,
        List.foldl_cons, withText, List.append_assoc, List.singleton_append]

end EnumDraft

/-- With suffixes of letters, digits and underscores a sanitizer gives plain names only. So in an
enumeration, whatever was done before, each text that is given without a key becomes a member with
a plain name for its key, which is written as it is. -/
theorem Naming.Sanitizer.answers_plain (reserved : List Text) {requests : List Request}
    (suffixes : ∀ request ∈ requests, Spelled request.suffix) :
    (exchanges (fresh reserved) requests).map Exchange.request = requests ∧
    (∀ exchange ∈ exchanges (fresh reserved) requests,
      Text.isPlainName exchange.answer = true) ∧
    ∀ (name : Text) (exported constant : Bool) (commands : List EnumDraft.Command)
      (values : List Text),
      let draft := EnumDraft.after commands (.start name exported constant)
      let made := exchanges draft.sanitizer (values.map EnumDraft.request)
      let outcome := EnumDraft.apply (.values (values.map .text)) draft
      outcome.result = .ok none ∧
      outcome.state.members = draft.members ++ made.map EnumDraft.derived ∧
      made.map (fun exchange => exchange.request.name) = values ∧
      ∀ exchange ∈ made, Text.isPlainName exchange.answer = true ∧
        (EnumDraft.derived exchange).print =
          .ok (exchange.answer ++ " = ".toList ++ Text.guard exchange.request.name) := by
  refine ⟨map_request_exchanges _ _, (isPlain_fresh reserved).exchanges suffixes, ?_⟩
  intro name exported constant commands values draft made outcome
  have plain : draft.IsPlain :=
    EnumDraft.keeps_isPlain.after commands (EnumDraft.isPlain_start name exported constant)
  have added : outcome = .done { draft with
      members := draft.members ++ made.map EnumDraft.derived
      sanitizer := (values.map EnumDraft.request).foldl Naming.Sanitizer.next draft.sanitizer } :=
    EnumDraft.addValues_texts plain values
  have requested : made.map Exchange.request = values.map EnumDraft.request :=
    map_request_exchanges _ _
  have answers := EnumDraft.answers_isPlainName plain values
  refine ⟨by rw [added]; rfl, by rw [added]; rfl, ?_, fun exchange member =>
    ⟨answers exchange member, rfl⟩⟩
  have names := congrArg (List.map Request.name) requested
  rw [List.map_map, List.map_map] at names
  exact names.trans (List.map_id values)

/-- Texts of which nothing is left, that start with digits or that are of other scripts, with an
empty suffix and a number as suffix. -/
private def oddRequests : List Request :=
  [⟨"404 page".toList, .pascal, "_".toList⟩, ⟨"404-page".toList, .camel, []⟩,
    ⟨"--".toList, .snake, "9".toList⟩, ⟨"größe".toList, .snake, []⟩, ⟨[], .snake, "9".toList⟩]

theorem Naming.Sanitizer.answers_plain_odd :
    (∀ request ∈ oddRequests, Spelled request.suffix) ∧
    (exchanges (fresh ["_404Page".toList]) oddRequests).map Exchange.answer =
      ["_404Page_".toList, "_404Page".toList, "value".toList, "gr_e".toList, "value91".toList] ∧
    ∀ exchange ∈ exchanges (fresh ["_404Page".toList]) oddRequests,
      Text.isPlainName exchange.answer = true := by
  have suffixes : ∀ request ∈ oddRequests, Spelled request.suffix := by decide
  exact ⟨suffixes, by decide +kernel, (answers_plain ["_404Page".toList] suffixes).2.1⟩

namespace EnumDraft

/-! ## Names of the members -/

def memberName? : Node → Option Text
  | .enumMember name _ => some name
  | _ => none

/-- The names of the members, as they are written. -/
def names (draft : EnumDraft) : List Text := draft.members.filterMap memberName?

/-- A member is given with its key, or members are given by their values alone. -/
inductive Call
  | member (key : Text) (value : Value)
  | values (values : List Text)

namespace Call

def command : Call → Command
  | .member key value => .member key value
  | .values texts => .values (texts.map .text)

/-- The keys that are given. A number too long to write makes no member. -/
def keys : Call → List Text
  | .member key value => if value.holdsOversize then [] else [key]
  | .values _ => []

def texts : Call → List Text
  | .member _ _ => []
  | .values texts => texts

end Call

theorem names_derived (made : List Exchange) :
    (made.map derived).filterMap memberName? = made.map Exchange.answer := by
  induction made with
  | nil => rfl
  | cons exchange made ih => exact congrArg (exchange.answer :: ·) ih

theorem member_state (key : Text) (value : Value) (draft : EnumDraft) :
    (apply (.member key value) draft).state.names =
        draft.names ++ (Call.member key value).keys.map keyText ∧
      (apply (.member key value) draft).state.sanitizer = draft.sanitizer := by
  cases oversize : value.holdsOversize with
  | true =>
      have refused : draft.addMember key value = .error .oversize := by
        rw [addMember, initializer, Value.display?, oversize]
        rfl
      rw [apply, refused, Call.keys, oversize]
      exact ⟨(List.append_nil _).symm, rfl⟩
  | false =>
      have written : value.display? = .ok value.display := by
        rw [Value.display?, oversize]
        rfl
      obtain ⟨initial, initialized⟩ : ∃ initial, initializer value = .ok initial := by
        rw [initializer, written]
        cases value <;> exact ⟨_, rfl⟩
      have made : draft.addMember key value = .ok { draft with
          members := draft.members ++ [.enumMember (keyText key) initial] } := bind_ok initialized
      rw [apply, made, Call.keys, oversize]
      exact ⟨List.filterMap_append, rfl⟩

theorem values_state (plain : draft.IsPlain) (values : List Text) :
    (apply (.values (values.map .text)) draft).state.names =
        draft.names ++ (exchanges draft.sanitizer (values.map request)).map Exchange.answer ∧
      (apply (.values (values.map .text)) draft).state.sanitizer =
        (values.map request).foldl Naming.Sanitizer.next draft.sanitizer := by
  rw [apply, addValues_texts plain values]
  refine ⟨?_, rfl⟩
  rw [← names_derived]
  exact List.filterMap_append

/-- The names of the members are the given keys as they are written and the keys that were made
for texts, in another order. -/
theorem names_after (calls : List Call) (plain : draft.IsPlain) :
    (after (calls.map Call.command) draft).names.Perm
      (draft.names ++ ((calls.flatMap Call.keys).map keyText ++
        (exchanges draft.sanitizer ((calls.flatMap Call.texts).map request)).map
          Exchange.answer)) := by
  induction calls generalizing draft with
  | nil => exact .of_eq (List.append_nil _).symm
  | cons call calls ih =>
      have later := ih (keeps_isPlain.apply call.command draft plain)
      rw [List.flatMap_cons, List.flatMap_cons, List.map_append, List.map_append]
      cases call with
      | member key value =>
          obtain ⟨names, sanitizer⟩ := member_state key value draft
          rw [Call.command, names, sanitizer] at later
          refine later.trans (.of_eq ?_)
          rw [Call.texts, List.map_nil, List.nil_append, List.append_assoc, List.append_assoc]
      | values texts =>
          obtain ⟨names, sanitizer⟩ := values_state plain texts
          rw [Call.command, names, sanitizer, List.append_assoc] at later
          rw [Call.keys, Call.texts, List.map_nil, List.nil_append,
            Naming.Sanitizer.exchanges_append, List.map_append]
          exact later.trans (.append_left draft.names (List.perm_append_comm_assoc _ _ _))

/-- Texts that differ get keys that differ. -/
theorem nodup_answers {texts : List Text} (apart : texts.Nodup) :
    ((exchanges (fresh []) (texts.map request)).map Exchange.answer).Nodup := by
  have keys : ((exchanges (fresh []) (texts.map request)).map fun exchange =>
      exchange.request.key).Nodup := by
    have same : (exchanges (fresh []) (texts.map request)).map (fun exchange =>
        exchange.request.key) = texts.map fun text => (request text).key := by
      have requests := Naming.Sanitizer.map_request_exchanges (fresh []) (texts.map request)
      have mapped := congrArg (List.map Request.key) requests
      rwa [List.map_map, List.map_map] at mapped
    rw [same]
    refine apart.map fun first second keys => ?_
    have whole : request first = request second := Request.key_inj rfl keys
    exact congrArg Request.name whole
  have told := (Naming.Sanitizer.faithful_fresh []).pairwise_exchanges (texts.map request)
  rw [List.Nodup, List.pairwise_map] at keys ⊢
  exact told.imp₂ (fun _ _ same apart answers => apart (same.mp answers)) keys

/-- Where the given keys differ and the texts without keys do, the names of the members differ
exactly if no given key is also made for a text. -/
theorem names_nodup_iff {calls : List Call} (keys : (calls.flatMap Call.keys).Nodup)
    (texts : (calls.flatMap Call.texts).Nodup) (name : Text) (exported constant : Bool) :
    (after (calls.map Call.command) (start name exported constant)).names.Nodup ↔
      ∀ exchange ∈ exchanges (fresh []) ((calls.flatMap Call.texts).map request),
        exchange.answer ∉ calls.flatMap Call.keys := by
  have plain := isPlain_start name exported constant
  have written : ((calls.flatMap Call.keys).map keyText).Nodup :=
    keys.map fun _ _ => keyText_inj
  rw [(names_after calls plain).nodup_iff]
  change ([] ++ _).Nodup ↔ _
  rw [List.nil_append, List.nodup_append]
  constructor
  · rintro ⟨_, _, apart⟩ exchange among there
    have answer := answers_isPlainName plain (calls.flatMap Call.texts) exchange among
    exact apart _ (List.mem_map_of_mem there) _ (List.mem_map_of_mem among)
      (keyText_of_isPlainName answer)
  · intro apart
    refine ⟨written, nodup_answers texts, ?_⟩
    intro shown inKeys answer inAnswers same
    obtain ⟨key, given, rfl⟩ := List.mem_map.mp inKeys
    obtain ⟨exchange, among, rfl⟩ := List.mem_map.mp inAnswers
    have answer := answers_isPlainName plain (calls.flatMap Call.texts) exchange among
    rw [← keyText_of_isPlainName answer] at same
    exact apart exchange among (keyText_inj same ▸ given)

/-- Two texts that look alike, with given keys before and behind them. -/
private def progressCalls : List Call :=
  [.member "Done".toList (.text "done".toList), .values ["in-progress".toList, "in_progress".toList],
    .member "InProgress_2".toList (.text "in progress".toList)]

theorem names_nodup_progress :
    (progressCalls.flatMap Call.keys).Nodup ∧ (progressCalls.flatMap Call.texts).Nodup ∧
    (after (progressCalls.map Call.command) (start "Status".toList false false)).names =
      ["Done".toList, "InProgress".toList, "InProgress_1".toList, "InProgress_2".toList] ∧
    (after (progressCalls.map Call.command) (start "Status".toList false false)).names.Nodup := by
  have keys : (progressCalls.flatMap Call.keys).Nodup := by decide
  have texts : (progressCalls.flatMap Call.texts).Nodup := by decide
  exact ⟨keys, texts, by decide +kernel, (names_nodup_iff keys texts _ _ _).mpr (by decide +kernel)⟩

/-- A given key that is also made for a text stands twice in the enumeration. -/
theorem names_repeated_active :
    let calls : List Call := [.member "Active".toList (.text "on".toList), .values ["active".toList]]
    let draft := after (calls.map Call.command) (start "Status".toList false false)
    (calls.flatMap Call.keys).Nodup ∧ (calls.flatMap Call.texts).Nodup ∧
    draft.node.print =
      .ok "enum Status \x7b\n    Active = \"on\",\n    Active = \"active\"\n\x7d".toList ∧
    ¬draft.names.Nodup :=
  ⟨by decide, by decide, rfl, by decide +kernel⟩

end EnumDraft

end TypeScriptGen
