import Mathlib.Data.List.Nodup
import Mathlib.Data.Nat.Init
import TypeScriptGen.Naming.Sanitizer
import TypeScriptGen.Proofs.Decimal.Digits

/-!
# The names that a sanitizer gives

A request that a sanitizer remembers gets the name that it got before. For any
other the candidates are tried one after the other, until one is free; since they
differ and only finitely many names are taken, the search comes to an end. So what
is given to a new request was given to none before, and requests are remembered
apart as long as they have the same suffix.
-/

namespace TypeScriptGen.Naming

structure Request where
  name : Text
  style : Style
  suffix : Text
deriving DecidableEq

namespace Request

variable {first second : Request}

/-- What the request is remembered by. -/
def key (request : Request) : Text := Sanitizer.request request.name request.style request.suffix

/-- The name in its style, before it is compared with any other. -/
def base (request : Request) : Text :=
  Sanitizer.guardStart (convert request.style (Sanitizer.clean request.name))

/-- No style is named by the end of another style's name: their last two letters differ. -/
theorem style_eq_of_ends {front back : Text} {one other : Style}
    (same : front ++ '_' :: Sanitizer.styleName one = back ++ '_' :: Sanitizer.styleName other) :
    one = other := by
  have letters (front : Text) (style : Style) :
      (front ++ '_' :: Sanitizer.styleName style).reverse.take 2 =
        (Sanitizer.styleName style).reverse.take 2 := by
    rw [List.reverse_append, List.reverse_cons, List.append_assoc,
      List.take_append_of_le_length (by cases style <;> decide)]
  have ends := congrArg (fun text => text.reverse.take 2) same
  simp only [letters] at ends
  revert ends
  cases one <;> cases other <;> decide

theorem key_inj (suffixes : first.suffix = second.suffix) (same : first.key = second.key) :
    first = second := by
  obtain ⟨name, style, suffix⟩ := first
  obtain ⟨otherName, otherStyle, otherSuffix⟩ := second
  cases suffixes
  have front := List.append_cancel_right same
  cases style_eq_of_ends front
  cases List.append_cancel_right front
  rfl

end Request

namespace Sanitizer

variable {sanitizer : Sanitizer} {request : Request} {requests : List Request}

/-! ## The search for a free name -/

/-- The name that is tried in a round: first the name itself, then the name with a number. -/
def candidate (name suffix : Text) : Nat → Text
  | 0 => name
  | round + 1 => numbered name suffix (round + 1)

theorem candidate_inj {name suffix : Text} {first second : Nat} :
    candidate name suffix first = candidate name suffix second ↔ first = second := by
  have longer (round : Nat) : name ≠ candidate name suffix (round + 1) := by
    intro same
    obtain ⟨c, rest, digits, _⟩ := Decimal.digits_eq_cons (round + 1)
    have lengths := congrArg List.length same
    simp only [candidate, numbered, digits, List.length_append, List.length_cons] at lengths
    omega
  refine ⟨fun same => ?_, congrArg _⟩
  cases first with
  | zero =>
      cases second with
      | zero => rfl
      | succ second => exact absurd same (longer second)
  | succ first =>
      cases second with
      | zero => exact absurd same.symm (longer first)
      | succ second =>
          have digits := congrArg Decimal.ofDigits (List.append_cancel_left same)
          rwa [Decimal.ofDigits_digits, Decimal.ofDigits_digits] at digits

theorem candidates_eq (name suffix : Text) (count : Nat) :
    candidates name suffix count = (List.range' 0 (count + 1)).map (candidate name suffix) := by
  rw [candidates, List.range'_succ, List.range'_succ_left, List.map_cons, List.map_map,
    ← List.range_eq_range']
  rfl

/-- The search for a name that is not used, from a round on: a free candidate ends it, and behind a
used one it goes on with the next round. -/
inductive Search (used : List Text) (name suffix : Text) : Nat → Text → Prop
  | free {round : Nat} (free : candidate name suffix round ∉ used) :
      Search used name suffix round (candidate name suffix round)
  | later {round : Nat} {found : Text} (taken : candidate name suffix round ∈ used)
      (search : Search used name suffix (round + 1) found) : Search used name suffix round found

namespace Search

variable {used : List Text} {name suffix found other : Text} {round : Nat}

theorem not_mem (search : Search used name suffix round found) : found ∉ used := by
  induction search with
  | free free => exact free
  | later taken search ih => exact ih

theorem exists_round (search : Search used name suffix round found) :
    ∃ last, found = candidate name suffix last := by
  induction search with
  | free free => exact ⟨_, rfl⟩
  | later taken search ih => exact ih

theorem unique (search : Search used name suffix round found)
    (again : Search used name suffix round other) : found = other := by
  induction search with
  | free free =>
      cases again with
      | free => rfl
      | later taken => exact absurd taken free
  | later taken search ih =>
      cases again with
      | free free => exact absurd taken free
      | later taken again => exact ih again

/-- Where all candidates in front of a free one are used, the search ends there. -/
theorem of_taken {last : Nat} (free : candidate name suffix last ∉ used)
    (taken : ∀ round < last, candidate name suffix round ∈ used) (start : Nat)
    (before : start ≤ last) : Search used name suffix start (candidate name suffix last) := by
  induction before using Nat.decreasingInduction with
  | self => exact .free free
  | of_succ start earlier ih => exact .later (taken start earlier) ih

theorem of_find? {start count : Nat}
    (picked : ((List.range' start count).map (candidate name suffix)).find?
      (fun tried => !used.contains tried) = some found) :
    Search used name suffix start found := by
  induction count generalizing start with
  | zero => cases picked
  | succ count ih =>
      rw [List.range'_succ, List.map_cons, List.find?_cons] at picked
      split at picked
      · next free =>
          cases picked
          exact .free (by simpa using free)
      · next taken => exact .later (by simpa using taken) (ih picked)

end Search

/-- Of more candidates than there are used names one is free. -/
theorem exists_find?_candidates (used : List Text) (name suffix : Text) :
    ∃ found, (candidates name suffix used.length).find? (fun tried => !used.contains tried) =
      some found := by
  refine Option.ne_none_iff_exists'.mp fun none => ?_
  have taken : candidates name suffix used.length ⊆ used := by
    intro tried member
    simpa using List.find?_eq_none.mp none tried member
  have apart : (candidates name suffix used.length).Nodup := by
    rw [candidates_eq]
    exact List.Nodup.map (fun _ _ => candidate_inj.mp) List.nodup_range'
  have more := apart.length_le_of_subset taken
  rw [candidates_eq, List.length_map, List.length_range'] at more
  omega

/-- The name from which the search starts: a reserved one takes the suffix. -/
def allowed (reserved : List Text) (name suffix : Text) : Text :=
  if reserved.contains name then name ++ suffix else name

theorem search_resolve (sanitizer : Sanitizer) (name suffix : Text) :
    Search sanitizer.used (allowed sanitizer.reserved name suffix) suffix 0
      (sanitizer.resolve name suffix) := by
  obtain ⟨found, picked⟩ :=
    exists_find?_candidates sanitizer.used (allowed sanitizer.reserved name suffix) suffix
  have same : sanitizer.resolve name suffix = found := by
    change ((candidates (allowed sanitizer.reserved name suffix) suffix
      sanitizer.used.length).find? _).getD _ = found
    rw [picked]
    rfl
  rw [candidates_eq] at picked
  rw [same]
  exact .of_find? picked

/-! ## One request -/

/-- The steps by which a request gets its name: it is looked up, and searched for if it is not
remembered. -/
inductive Answers (sanitizer : Sanitizer) (request : Request) : Text → Prop
  | remembered {name : Text} (known : sanitizer.answers.lookup request.key = some name) :
      Answers sanitizer request name
  | searched {name : Text} (unknown : sanitizer.answers.lookup request.key = none)
      (search : Search sanitizer.used
        (allowed sanitizer.reserved request.base request.suffix) request.suffix 0 name) :
      Answers sanitizer request name

def answer (sanitizer : Sanitizer) (request : Request) : Text :=
  (sanitizer.sanitize request.name request.style request.suffix).2

def next (sanitizer : Sanitizer) (request : Request) : Sanitizer :=
  (sanitizer.sanitize request.name request.style request.suffix).1

theorem answer_of_known {name : Text} (known : sanitizer.answers.lookup request.key = some name) :
    sanitizer.answer request = name ∧ sanitizer.next request = sanitizer := by
  change sanitizer.answers.lookup (Sanitizer.request _ _ _) = _ at known
  simp only [answer, next, sanitize, known, and_self]

/-- A request that is not remembered is from then on. -/
theorem answer_of_unknown (unknown : sanitizer.answers.lookup request.key = none) :
    Search sanitizer.used (allowed sanitizer.reserved request.base request.suffix) request.suffix 0
      (sanitizer.answer request) ∧
    sanitizer.next request =
      ⟨sanitizer.reserved, (request.key, sanitizer.answer request) :: sanitizer.answers,
        sanitizer.answer request :: sanitizer.used⟩ := by
  change sanitizer.answers.lookup (Sanitizer.request _ _ _) = _ at unknown
  have made : sanitizer.answer request = sanitizer.resolve request.base request.suffix := by
    simp only [answer, sanitize, unknown, Request.base]
  refine ⟨made ▸ search_resolve sanitizer request.base request.suffix, ?_⟩
  rw [made]
  simp only [next, sanitize, unknown, Request.base, Request.key]

theorem answers_answer (sanitizer : Sanitizer) (request : Request) :
    Answers sanitizer request (sanitizer.answer request) := by
  cases known : sanitizer.answers.lookup request.key with
  | some name => exact .remembered (by rw [(answer_of_known known).1, known])
  | none => exact .searched known (answer_of_unknown known).1

theorem mem_of_lookup {answers : List (Text × Text)} {key name : Text}
    (known : answers.lookup key = some name) : (key, name) ∈ answers := by
  obtain ⟨before, behind, rfl, _⟩ := List.lookup_eq_some_iff.mp known
  exact List.mem_append_right before List.mem_cons_self

/-- A name that is remembered stays so. -/
theorem lookup_next {key name : Text} (known : sanitizer.answers.lookup key = some name) :
    (sanitizer.next request).answers.lookup key = some name := by
  cases held : sanitizer.answers.lookup request.key with
  | some other => rwa [(answer_of_known held).2]
  | none =>
      have apart : key ≠ request.key := by
        rintro rfl
        cases known.symm.trans held
      rw [(answer_of_unknown held).2, List.lookup_cons, beq_false_of_ne apart]
      exact known

theorem lookup_next_self (sanitizer : Sanitizer) (request : Request) :
    (sanitizer.next request).answers.lookup request.key = some (sanitizer.answer request) := by
  cases held : sanitizer.answers.lookup request.key with
  | some other => rw [(answer_of_known held).2, (answer_of_known held).1, held]
  | none => rw [(answer_of_unknown held).2, List.lookup_cons_self]

/-! ## One request after the other -/

/-- A request together with the sanitizer that it meets. -/
structure Exchange where
  sanitizer : Sanitizer
  request : Request

def Exchange.answer (exchange : Exchange) : Text := exchange.sanitizer.answer exchange.request

def exchanges (sanitizer : Sanitizer) : List Request → List Exchange
  | [] => []
  | request :: requests => ⟨sanitizer, request⟩ :: exchanges (sanitizer.next request) requests

theorem map_request_exchanges (sanitizer : Sanitizer) (requests : List Request) :
    (exchanges sanitizer requests).map Exchange.request = requests := by
  induction requests generalizing sanitizer with
  | nil => rfl
  | cons request requests ih => exact congrArg (request :: ·) (ih _)

theorem exchanges_append (sanitizer : Sanitizer) (requests more : List Request) :
    exchanges sanitizer (requests ++ more) =
      exchanges sanitizer requests ++ exchanges (requests.foldl next sanitizer) more := by
  induction requests generalizing sanitizer with
  | nil => rfl
  | cons request requests ih => exact congrArg (_ :: ·) (ih _)

/-- What each request keeps holds whenever a request is made. -/
theorem forall_exchanges (property : Sanitizer → Prop)
    (keeps : ∀ request ∈ requests, ∀ state, property state → property (state.next request))
    (holds : property sanitizer) :
    ∀ exchange ∈ exchanges sanitizer requests,
      exchange.request ∈ requests ∧ property exchange.sanitizer := by
  induction requests generalizing sanitizer with
  | nil => nofun
  | cons request requests ih =>
      intro exchange member
      rcases List.mem_cons.mp member with rfl | later
      · exact ⟨List.mem_cons_self, holds⟩
      · have rest := ih (fun other among => keeps other (List.mem_cons_of_mem request among))
          (keeps request List.mem_cons_self sanitizer holds) exchange later
        exact ⟨List.mem_cons_of_mem request rest.1, rest.2⟩

/-! ## Requests are told apart -/

/-- The used names are those that are remembered, each for one request. -/
structure Faithful (sanitizer : Sanitizer) : Prop where
  used : sanitizer.used = sanitizer.answers.map Prod.snd
  apart : sanitizer.used.Nodup

theorem faithful_fresh (reserved : List Text) : Faithful (fresh reserved) :=
  ⟨rfl, List.nodup_nil⟩

theorem Faithful.next (faithful : Faithful sanitizer) (request : Request) :
    Faithful (sanitizer.next request) := by
  cases held : sanitizer.answers.lookup request.key with
  | some name => rwa [(answer_of_known held).2]
  | none =>
      obtain ⟨search, same⟩ := answer_of_unknown held
      rw [same]
      exact ⟨congrArg (sanitizer.answer request :: ·) faithful.used,
        List.nodup_cons.mpr ⟨search.not_mem, faithful.apart⟩⟩

theorem Faithful.mem_used (faithful : Faithful sanitizer) {key name : Text}
    (known : sanitizer.answers.lookup key = some name) : name ∈ sanitizer.used :=
  faithful.used ▸ List.mem_map_of_mem (f := Prod.snd) (mem_of_lookup known)

/-- The name that is remembered for a key is given to the requests with this key and no others. -/
theorem Faithful.answer_eq_iff (faithful : Faithful sanitizer) {key name : Text}
    (known : sanitizer.answers.lookup key = some name) (request : Request) :
    sanitizer.answer request = name ↔ request.key = key := by
  cases held : sanitizer.answers.lookup request.key with
  | some other =>
      rw [(answer_of_known held).1]
      constructor
      · rintro rfl
        have values := faithful.apart
        rw [faithful.used] at values
        exact congrArg Prod.fst (List.inj_on_of_nodup_map values (mem_of_lookup held)
          (mem_of_lookup known) rfl)
      · rintro rfl
        exact Option.some.inj (held.symm.trans known)
  | none =>
      refine iff_of_false (fun same => ?_) fun same => ?_
      · exact (answer_of_unknown held).1.not_mem (same ▸ faithful.mem_used known)
      · rw [same, known] at held
        cases held

/-- From any faithful sanitizer on, two requests get the same name if they have the same key. -/
theorem Faithful.pairwise_exchanges (faithful : Faithful sanitizer) (requests : List Request) :
    (exchanges sanitizer requests).Pairwise fun first second =>
      (first.answer = second.answer ↔ first.request.key = second.request.key) := by
  induction requests generalizing sanitizer with
  | nil => exact .nil
  | cons request requests ih =>
      refine .cons (fun later member => ?_) (ih (faithful.next request))
      -- What the first request got is remembered whenever a later one is made.
      have kept := (forall_exchanges
        (fun state => Faithful state ∧
          state.answers.lookup request.key = some (sanitizer.answer request))
        (fun other _ state held => ⟨held.1.next other, lookup_next held.2⟩)
        ⟨faithful.next request, lookup_next_self sanitizer request⟩ later member).2
      rw [eq_comm, eq_comm (a := request.key)]
      exact kept.1.answer_eq_iff kept.2 later.request

/-- Of requests with one suffix each is answered, be it from memory or by a search that ends, and
two of them get the same name exactly if they have the same name and style. -/
theorem exchanges_told_apart (reserved : List Text) (suffix : Text) {requests : List Request}
    (one : ∀ request ∈ requests, request.suffix = suffix) :
    (exchanges (fresh reserved) requests).map Exchange.request = requests ∧
    (∀ exchange ∈ exchanges (fresh reserved) requests,
      Answers exchange.sanitizer exchange.request exchange.answer) ∧
    (exchanges (fresh reserved) requests).Pairwise fun first second =>
      (first.answer = second.answer ↔
        first.request.name = second.request.name ∧
          first.request.style = second.request.style) := by
  have asked : ∀ exchange ∈ exchanges (fresh reserved) requests,
      exchange.request.suffix = suffix := by
    intro exchange member
    refine one exchange.request ?_
    rw [← map_request_exchanges (fresh reserved) requests]
    exact List.mem_map_of_mem member
  refine ⟨map_request_exchanges _ _, fun exchange _ => answers_answer _ _, ?_⟩
  refine ((faithful_fresh reserved).pairwise_exchanges requests).imp_of_mem ?_
  intro first second among other apart
  rw [apart]
  constructor
  · intro same
    have whole := Request.key_inj ((asked first among).trans (asked second other).symm) same
    rw [whole]
    exact ⟨rfl, rfl⟩
  · rintro ⟨names, styles⟩
    rw [Request.key, Request.key, names, styles, asked first among, asked second other]

/-- Two names that look alike, one of them in another style, and the first again. -/
private def progressRequests : List Request :=
  [⟨"in-progress".toList, .pascal, defaultSuffix⟩, ⟨"in_progress".toList, .pascal, defaultSuffix⟩,
    ⟨"in-progress".toList, .camel, defaultSuffix⟩, ⟨"in-progress".toList, .pascal, defaultSuffix⟩]

theorem exchanges_told_apart_progress :
    (∀ request ∈ progressRequests, request.suffix = defaultSuffix) ∧
    (exchanges (fresh ["inProgress".toList]) progressRequests).map Exchange.answer =
      ["InProgress".toList, "InProgress_1".toList, "inProgress_".toList, "InProgress".toList] ∧
    (exchanges (fresh ["inProgress".toList]) progressRequests).Pairwise fun first second =>
      (first.answer = second.answer ↔
        first.request.name = second.request.name ∧
          first.request.style = second.request.style) :=
  ⟨by decide, by decide +kernel, (exchanges_told_apart _ defaultSuffix (by decide)).2.2⟩

end Sanitizer

end TypeScriptGen.Naming
