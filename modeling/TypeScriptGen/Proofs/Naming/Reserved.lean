import TypeScriptGen.Proofs.Naming.Answers

/-!
# Reserved names

A reserved name takes the suffix, and a taken name takes a number; what comes of it
is not compared with the reserved names again. Each candidate of a request is given
at some time, since hyphens behind a name make another request for the same name.
So a sanitizer keeps clear of the reserved names exactly if no candidate is one.
-/

namespace TypeScriptGen.Naming

variable {reserved : List Text} {request : Request}

theorem stripWhere_append {drop : Char → Bool} {back : Text} (dropped : ∀ c ∈ back, drop c = true)
    (text : Text) : stripWhere drop (text ++ back) = stripWhere drop text := by
  have all : back.dropWhile drop = [] := by
    rw [← List.append_nil back, List.dropWhile_append_of_pos dropped]
    rfl
  rw [stripWhere, stripWhere, List.dropWhile_append]
  split
  · next empty => rw [all, List.isEmpty_iff.mp empty]
  · rw [List.reverse_append, List.dropWhile_append_of_pos]
    exact fun c member => dropped c (List.mem_reverse.mp member)

namespace Request

/-- The request with hyphens behind its name. -/
def hyphened (request : Request) (count : Nat) : Request :=
  { request with name := request.name ++ List.replicate count '-' }

theorem base_hyphened (request : Request) (count : Nat) :
    (request.hyphened count).base = request.base := by
  have dropped : ∀ c ∈ List.replicate count '-', (c == '_' || c == '-') = true := by
    intro c member
    rw [List.eq_of_mem_replicate member]
    rfl
  have clean : Sanitizer.clean (request.name ++ List.replicate count '-') =
      Sanitizer.clean request.name := by
    have hyphen : (if Sanitizer.isAllowed '-' then '-' else '_') = '-' := rfl
    rw [Sanitizer.clean, Sanitizer.clean, List.map_append, List.map_replicate, hyphen,
      stripWhere_append dropped]
  rw [base, base, hyphened, clean]

theorem hyphened_inj {first second : Nat}
    (same : (request.hyphened first).key = (request.hyphened second).key) : first = second := by
  have whole : request.hyphened first = request.hyphened second := key_inj rfl same
  have lengths := congrArg (fun one : Request => one.name.length) whole
  simp only [hyphened, List.length_append, List.length_replicate] at lengths
  omega

end Request

namespace Sanitizer

variable {sanitizer : Sanitizer} {requests : List Request} {count : Nat}

/-- The name that the search for a request tries in a round. -/
def offer (reserved : List Text) (request : Request) (round : Nat) : Text :=
  candidate (allowed reserved request.base request.suffix) request.suffix round

theorem offer_inj {first second : Nat} :
    offer reserved request first = offer reserved request second ↔ first = second :=
  candidate_inj

/-- The first candidate is reserved if the name and the name with the suffix are, and any other is
the first with a number. -/
theorem offers_not_mem_iff :
    (∀ round, offer reserved request round ∉ reserved) ↔
      (request.base ∈ reserved → request.base ++ request.suffix ∉ reserved) ∧
      ∀ number > 0, numbered (allowed reserved request.base request.suffix) request.suffix number ∉
        reserved := by
  have first : offer reserved request 0 ∉ reserved ↔
      (request.base ∈ reserved → request.base ++ request.suffix ∉ reserved) := by
    change allowed reserved request.base request.suffix ∉ reserved ↔ _
    unfold allowed
    split
    · next held => exact ⟨fun free _ => free, fun free => free (by simpa using held)⟩
    · next free =>
        exact ⟨fun _ held => absurd (by simpa using held) free, fun _ => by simpa using free⟩
  constructor
  · intro free
    refine ⟨first.mp (free 0), fun number positive => ?_⟩
    obtain ⟨round, rfl⟩ := Nat.exists_eq_succ_of_ne_zero (Nat.ne_of_gt positive)
    exact free (round + 1)
  · rintro ⟨base, later⟩ round
    cases round with
    | zero => exact first.mpr base
    | succ round => exact later (round + 1) round.succ_pos

/-! ## Every name is a candidate -/

/-- The name is a candidate of one of the requests. -/
def Offered (reserved : List Text) (requests : List Request) (name : Text) : Prop :=
  ∃ request ∈ requests, ∃ round, name = offer reserved request round

/-- The reserved names stay the same, and what is remembered was a candidate. -/
structure Offers (reserved : List Text) (requests : List Request) (sanitizer : Sanitizer) :
    Prop where
  same : sanitizer.reserved = reserved
  remembered : ∀ pair ∈ sanitizer.answers, Offered reserved requests pair.2

theorem Offers.answer (offers : Offers reserved requests sanitizer) (among : request ∈ requests) :
    Offered reserved requests (sanitizer.answer request) := by
  cases held : sanitizer.answers.lookup request.key with
  | some name =>
      rw [(answer_of_known held).1]
      exact offers.remembered (request.key, name) (mem_of_lookup held)
  | none =>
      have search := (answer_of_unknown held).1
      rw [offers.same] at search
      obtain ⟨round, same⟩ := search.exists_round
      exact ⟨request, among, round, same⟩

theorem Offers.next (offers : Offers reserved requests sanitizer) (among : request ∈ requests) :
    Offers reserved requests (sanitizer.next request) := by
  cases held : sanitizer.answers.lookup request.key with
  | some name => rwa [(answer_of_known held).2]
  | none =>
      rw [(answer_of_unknown held).2]
      refine ⟨offers.same, fun pair member => ?_⟩
      rcases List.mem_cons.mp member with rfl | there
      · exact offers.answer among
      · exact offers.remembered pair there

theorem offered_exchanges (reserved : List Text) (requests : List Request) :
    ∀ exchange ∈ exchanges (fresh reserved) requests,
      Offered reserved requests exchange.answer := by
  intro exchange member
  have start : Offers reserved requests (fresh reserved) := ⟨rfl, nofun⟩
  have met := forall_exchanges (Offers reserved requests)
    (fun request among state offers => offers.next among) start exchange member
  exact met.2.answer met.1

/-! ## Every candidate is given -/

/-- The first candidates of the request are used, and it has not been made with more hyphens. -/
structure Filled (reserved : List Text) (request : Request) (count : Nat) (sanitizer : Sanitizer) :
    Prop where
  same : sanitizer.reserved = reserved
  used : ∀ name, name ∈ sanitizer.used ↔ ∃ round < count, name = offer reserved request round
  unknown : ∀ later ≥ count, sanitizer.answers.lookup (request.hyphened later).key = none

theorem filled_fresh (reserved : List Text) (request : Request) :
    Filled reserved request 0 (fresh reserved) :=
  ⟨rfl, by simp [fresh], fun _ _ => rfl⟩

theorem Filled.answer (filled : Filled reserved request count sanitizer) :
    sanitizer.answer (request.hyphened count) = offer reserved request count := by
  have search := (answer_of_unknown (filled.unknown count count.le_refl)).1
  rw [filled.same, Request.base_hyphened] at search
  have free : offer reserved request count ∉ sanitizer.used := by
    rw [filled.used]
    rintro ⟨round, earlier, same⟩
    exact Nat.ne_of_gt earlier (offer_inj.mp same)
  exact search.unique (.of_taken free
    (fun round earlier => (filled.used _).mpr ⟨round, earlier, rfl⟩) 0 count.zero_le)

theorem Filled.next (filled : Filled reserved request count sanitizer) :
    Filled reserved request (count + 1) (sanitizer.next (request.hyphened count)) := by
  rw [(answer_of_unknown (filled.unknown count count.le_refl)).2, filled.answer]
  refine ⟨filled.same, fun name => ?_, fun later beyond => ?_⟩
  · rw [List.mem_cons, filled.used, Nat.exists_lt_succ_right, or_comm]
  · have apart : (request.hyphened later).key ≠ (request.hyphened count).key := fun same =>
      Nat.ne_of_gt beyond (Request.hyphened_inj same)
    rw [List.lookup_cons, beq_false_of_ne apart]
    exact filled.unknown later (Nat.le_of_succ_le beyond)

theorem Filled.exists_exchange (filled : Filled reserved request count sanitizer) (more : Nat) :
    ∃ exchange ∈ exchanges sanitizer ((List.range' count (more + 1)).map request.hyphened),
      exchange.answer = offer reserved request (count + more) := by
  induction more generalizing count sanitizer with
  | zero => exact ⟨_, List.mem_cons_self, filled.answer⟩
  | succ more ih =>
      obtain ⟨exchange, member, same⟩ := ih filled.next
      refine ⟨exchange, ?_, by rw [same, Nat.add_right_comm, Nat.add_assoc]⟩
      rw [List.range'_succ, List.map_cons]
      exact List.mem_cons_of_mem _ member

/-! ## Reserved names that are given -/

/-- With suffixes of any kind, no run of requests ever gets a reserved name exactly if for each
request the following holds: a reserved name is not reserved with the suffix as well, and the name
from which the search starts is not reserved with the suffix and a number. -/
theorem never_reserved_iff (reserved : List Text) (suffixes : Text → Prop) :
    (∀ requests : List Request, (∀ request ∈ requests, suffixes request.suffix) →
      ∀ exchange ∈ exchanges (fresh reserved) requests, exchange.answer ∉ reserved) ↔
    ∀ request : Request, suffixes request.suffix →
      (request.base ∈ reserved → request.base ++ request.suffix ∉ reserved) ∧
      ∀ number > 0,
        numbered (allowed reserved request.base request.suffix) request.suffix number ∉
          reserved := by
  constructor
  · intro never request suffix
    refine offers_not_mem_iff.mp fun round held => ?_
    obtain ⟨exchange, member, same⟩ := (filled_fresh reserved request).exists_exchange round
    refine never _ (fun other among => ?_) exchange member ?_
    · obtain ⟨count, _, rfl⟩ := List.mem_map.mp among
      exact suffix
    · rwa [same, Nat.zero_add]
  · intro free requests suffix exchange member
    obtain ⟨request, among, round, same⟩ := offered_exchanges reserved requests exchange member
    rw [same]
    exact offers_not_mem_iff.mpr (free request (suffix request among)) round

/-- Where a name and the name with the suffix are reserved, the second one is given. -/
theorem suffixed_user_reserved :
    defaultSuffix ≠ [] ∧
    (exchanges (fresh ["User".toList, "User_".toList])
      [⟨"user".toList, .pascal, defaultSuffix⟩]).map Exchange.answer = ["User_".toList] ∧
    "User_".toList ∈ ["User".toList, "User_".toList] :=
  ⟨by decide, by decide +kernel, by decide⟩

end Sanitizer

end TypeScriptGen.Naming
