import Lowering.Proofs.CacheBlind
import Lowering.Proofs.Parameters

/-! # The body cache is transparent

A session translates each library body once per signature and hands the cached model to every
later call with that signature. The signature holds only the body's identity and the shapes and
element types of the caller's inputs, so the cache is sound only if a body's translation depends
on nothing else: not on the caller's graph, not on what was cached before, not on the depth at
which the body was first asked for.

For a library that does not call itself, it is:

* `freshBody` — the reference: a body translated afresh for a signature, with every nested body
  translated afresh too, a given number of levels deep;
* `freshBody_depth` — in a non-recursive library a body's fresh translation is the same at every
  depth beyond its rank;
* `Coherent` — the cache invariant: every entry is its signature's fresh translation;
* `bodySource_agrees_fresh` — from a coherent cache, the session's body source answers every call
  as the fresh source does, and leaves a coherent cache;
* `convertedModel_eq_fresh` — a session gives the model a session without a cache gives, and every
  body it cached is the fresh translation of its signature.
-/

namespace Lowering

open Lowering.Ir Lowering.Pass Lowering.Proofs Lowering.Translator

section Fresh

variable (registry : Registry) (options : Options) (library : Source.Graph)

/-- One body translated afresh for a signature, with `bodies` for the bodies it calls: the
library's body graph of the signature's identity, pinned to its shapes and types and lowered on an
empty cache, with its names cleared when the options ask so. An identity the library lacks has no
body. -/
def freshStep (bodies : BodySource) (sig : Signature) : Except LowerError (Option Model) :=
  if !library.hasFunction sig.identity then .ok none
  else
    match library.bodyGraph? sig.identity with
    | none => .ok none
    | some body =>
      match body.specialize sig.shapes sig.types with
      | .error e => .error e
      | .ok src =>
        match ((lowerGraph ⟨registry, options, library, bodies⟩ src sig.identity).run {}).1 with
        | .error e => .error e
        | .ok m => .ok (some (if options.clearBodyNames then { m with graph := m.graph.clearNames } else m))

/-- A body translated afresh for a signature, `depth` levels deep: every body it calls is
translated afresh too, one level less deep; at depth zero there is no body. -/
def freshBody : Nat → Signature → Except LowerError (Option Model)
  | 0, _ => .ok none
  | depth + 1, sig => freshStep registry options library
      (fun identity inputs g cache => (freshBody depth (Signature.ofCall identity inputs g), cache)) sig

/-- The body source of a session whose cache never answers: every call is translated afresh,
`depth` levels deep, and the cache is left as it is. -/
def freshSource (depth : Nat) : BodySource :=
  fun identity inputs g cache => (freshBody registry options library depth (Signature.ofCall identity inputs g), cache)

theorem freshBody_succ (depth : Nat) (sig : Signature) :
    freshBody registry options library (depth + 1) sig =
      freshStep registry options library (freshSource registry options library depth) sig :=
  rfl

variable {registry options library}

theorem freshBody_absent (sig : Signature) (absent : library.hasFunction sig.identity = false) :
    ∀ depth, freshBody registry options library depth sig = .ok none
  | 0 => rfl
  | depth + 1 => by simp [freshBody_succ, freshStep, absent]

end Fresh

/-! ## Non-recursive libraries -/

/-- `rank` ranks the library's bodies below their number, and every body that a body's operations
may ask for ranks lower than that body. -/
def Ranked (registry : Registry) (library : Source.Graph) (rank : String → Nat) : Prop :=
  ∀ identity body, library.bodyGraph? identity = some body →
    rank identity < library.functions.length ∧
    ∀ op ∈ body.operations, ∀ callee ∈ bodyRequests registry op,
      library.hasFunction callee = true → rank callee < rank identity

/-- A library is non-recursive when its bodies can be ranked: no body asks, directly or through
other bodies, for itself. -/
def NonRecursive (registry : Registry) (library : Source.Graph) : Prop :=
  ∃ rank, Ranked registry library rank

theorem Source.Graph.exists_bodyGraph {library : Source.Graph} {identity : String}
    (present : library.hasFunction identity = true) : ∃ body, library.bodyGraph? identity = some body := by
  have found : (library.functions.find? (·.1 == identity)).isSome := by
    simpa [List.find?_isSome, Source.Graph.hasFunction, List.any_eq_true] using present
  obtain ⟨e, entry⟩ := Option.isSome_iff_exists.mp found
  exact ⟨{ e.2 with name := some (e.2.name.getD identity) },
    by simp [Source.Graph.bodyGraph?, Source.Graph.function?, entry]⟩

section Ranked

variable {registry : Registry} {options : Options} {library : Source.Graph} {rank : String → Nat}

theorem Ranked.rank_lt_length (ranked : Ranked registry library rank) {identity : String}
    (present : library.hasFunction identity = true) : rank identity < library.functions.length := by
  obtain ⟨body, found⟩ := Source.Graph.exists_bodyGraph present
  exact (ranked identity body found).1

/-- A body pinned to a signature asks only for library bodies that rank lower than it. -/
theorem Ranked.callee_lt (ranked : Ranked registry library rank) {identity : String}
    {body src : Source.Graph} (found : library.bodyGraph? identity = some body)
    {shapes : List Shape} {types : List ElementType} (pinned : body.specialize shapes types = .ok src)
    {op : Source.Operation} (member : op ∈ src.operations) {callee : String}
    (requested : callee ∈ bodyRequests registry op) (present : library.hasFunction callee = true) :
    rank callee < rank identity := by
  obtain ⟨same, -, -⟩ := Source.Graph.specialize_eq_ok pinned
  rw [same] at member
  exact (ranked identity body found).2 op member callee requested present

/-- In a ranked library a body's fresh translation is the same at every depth beyond its rank: the
bodies it asks for rank lower, so their fresh translations are the same at every depth beyond
theirs. -/
theorem freshBody_depth (ranked : Ranked registry library rank) (sig : Signature) :
    ∀ d d', rank sig.identity < d → rank sig.identity < d' →
      freshBody registry options library d sig = freshBody registry options library d' sig := by
  induction h : rank sig.identity using Nat.strongRecOn generalizing sig with
  | _ n inductionHypothesis =>
  intro d d' below below'
  cases present : library.hasFunction sig.identity with
  | false => rw [freshBody_absent _ present, freshBody_absent _ present]
  | true =>
    obtain ⟨k, rfl⟩ := Nat.exists_eq_add_of_lt below
    obtain ⟨k', rfl⟩ := Nat.exists_eq_add_of_lt below'
    obtain ⟨body, found⟩ := Source.Graph.exists_bodyGraph present
    rw [freshBody_succ, freshBody_succ]
    simp only [freshStep, present, found, Bool.not_true, Bool.false_eq_true, if_false]
    split
    · rfl
    · rename_i src pinned
      -- the bodies the body asks for rank lower, and are the same at both depths
      have agree : BodiesAgree (fun _ _ => True)
          (fun callee => ∃ op ∈ src.operations, callee ∈ bodyRequests registry op)
          (freshSource registry options library (n + k)) (freshSource registry options library (n + k')) := by
        rintro callee ⟨op, member, requested⟩ inputs g _ _ -
        refine ⟨?_, trivial⟩
        cases present' : library.hasFunction callee with
        | false =>
          exact (freshBody_absent (Signature.ofCall callee inputs g) present' _).trans
            (freshBody_absent _ present' _).symm
        | true =>
          have lower : rank callee < n := h ▸ ranked.callee_lt found pinned member requested present'
          exact inductionHypothesis (rank callee) lower (Signature.ofCall callee inputs g) rfl _ _
            (by omega) (by omega)
      rw [(lowerGraph_agree src sig.identity agree trivial).1]

/-! ## A cache of fresh translations -/

/-- Every entry of the cache is its signature's body translated afresh, at every depth beyond the
body's rank. -/
def Coherent (registry : Registry) (options : Options) (library : Source.Graph) (rank : String → Nat)
    (c : BodyCache) : Prop :=
  ∀ e ∈ c.entries, ∀ d, rank e.1.identity < d → freshBody registry options library d e.1 = .ok (some e.2)

@[simp] theorem Pass.Signature.identity_ofCall (identity : String) (inputs : List Handle) (g : Graph) :
    (Signature.ofCall identity inputs g).identity = identity :=
  rfl

theorem Coherent.lookup {c : BodyCache} (coherent : Coherent registry options library rank c)
    (sig : Signature) : Coherent registry options library rank (c.lookup sig).2 :=
  coherent

theorem Coherent.insert {c : BodyCache} (coherent : Coherent registry options library rank c)
    {sig : Signature} {m : Model}
    (fresh : ∀ d, rank sig.identity < d → freshBody registry options library d sig = .ok (some m)) :
    Coherent registry options library rank (c.insert sig m) := by
  intro e member
  rcases List.mem_append.mp member with kept | new
  · exact coherent e (List.mem_filter.mp kept).1
  · rw [List.mem_singleton.mp new]
    exact fresh

/-- Lowering a graph from a cache of fresh translations, on a session's bodies that agree with the
fresh ones, gives what lowering from an empty cache on the fresh bodies gives, and leaves a cache
of fresh translations. -/
theorem lowerGraph_agrees_fresh {depth : Nat} (src : Source.Graph) (name : String)
    (agree : BodiesAgree (fun c _ => Coherent registry options library rank c)
      (fun identity => ∃ op ∈ src.operations, identity ∈ bodyRequests registry op)
      (bodySource registry options library depth) (freshSource registry options library depth))
    {c : BodyCache} (coherent : Coherent registry options library rank c) :
    ((lowerGraph ⟨registry, options, library, bodySource registry options library depth⟩ src
        name).run c).1 =
      ((lowerGraph ⟨registry, options, library, freshSource registry options library depth⟩ src
        name).run {}).1 ∧
    Coherent registry options library rank
      ((lowerGraph ⟨registry, options, library, bodySource registry options library depth⟩ src
        name).run c).2 :=
  lowerGraph_agree src name agree coherent

/-- From a cache of fresh translations, the session's body source answers each body within its
depth as the fresh source does, and leaves a cache of fresh translations: a hit hands out a fresh
translation, and a miss lowers the body on bodies that, one level less deep, agree again. -/
theorem bodySource_agrees_fresh (ranked : Ranked registry library rank) :
    ∀ depth, BodiesAgree (fun c _ => Coherent registry options library rank c)
      (fun identity => library.hasFunction identity = true → rank identity < depth)
      (bodySource registry options library depth) (freshSource registry options library depth) := by
  intro depth
  -- on the depth: a miss lowers the body on the bodies one level less deep
  induction depth with
  | zero => exact fun _ _ _ _ _ _ coherent => ⟨rfl, coherent⟩
  | succ depth inductionHypothesis =>
    intro identity asked inputs g c₁ c₂ coherent
    show _ = freshBody registry options library (depth + 1) (Signature.ofCall identity inputs g) ∧ _
    cases present : library.hasFunction identity with
    | false =>
      simp only [bodySource, present, Bool.not_false, if_true]
      exact ⟨(freshBody_absent (Signature.ofCall identity inputs g) present _).symm, coherent⟩
    | true =>
    have below := asked present
    have coherent' := coherent.lookup (Signature.ofCall identity inputs g)
    cases looked : c₁.lookup (Signature.ofCall identity inputs g) with
    | mk found c₁' =>
    rw [looked] at coherent'
    cases found with
    | some m =>
      -- a hit hands out an entry, which is the fresh translation
      have entry := Pass.BodyCache.mem_of_lookup (by rw [looked])
      simp only [bodySource, present, looked, Bool.not_true, Bool.false_eq_true, if_false]
      exact ⟨(coherent _ entry _ below).symm, coherent'⟩
    | none =>
    simp only [bodySource, present, looked, freshBody_succ, freshStep, Signature.identity_ofCall,
      Bool.not_true, Bool.false_eq_true, if_false]
    cases found : library.bodyGraph? identity with
    | none => exact ⟨rfl, coherent'⟩
    | some body =>
    dsimp only
    cases pinned : body.specialize (Signature.ofCall identity inputs g).shapes
      (Signature.ofCall identity inputs g).types with
    | error e => exact ⟨rfl, coherent'⟩
    | ok src =>
    dsimp only
    -- the body's calls rank lower, so within one level less they agree again
    have agree : BodiesAgree (fun c _ => Coherent registry options library rank c)
        (fun callee => ∃ op ∈ src.operations, callee ∈ bodyRequests registry op)
        (bodySource registry options library depth) (freshSource registry options library depth) :=
      inductionHypothesis.mono <| by
        rintro callee ⟨op, member, requested⟩ present'
        have lower := ranked.callee_lt found pinned member requested present'
        omega
    obtain ⟨sameOutcome, coherent''⟩ := lowerGraph_agrees_fresh src identity agree coherent'
    cases ran : (lowerGraph ⟨registry, options, library, bodySource registry options library depth⟩
      src identity).run c₁' with
    | mk outcome c₁'' =>
    rw [ran] at sameOutcome coherent''
    dsimp only at sameOutcome coherent''
    simp only [← sameOutcome]
    cases outcome with
    | error e => exact ⟨rfl, coherent''⟩
    | ok M =>
    refine ⟨rfl, coherent''.insert fun d above => ?_⟩
    -- the entry stored is the fresh translation at this depth, hence at every depth beyond the rank
    rw [freshBody_depth ranked _ d (depth + 1) above below, freshBody_succ]
    simp only [freshStep, Signature.identity_ofCall, present, found, pinned, ← sameOutcome,
      Bool.not_true, Bool.false_eq_true, if_false]

/-- A cache of fresh translations in a ranked library holds only library bodies, so each entry is its
fresh translation at every depth beyond the number of bodies. -/
theorem Coherent.fresh_beyond (ranked : Ranked registry library rank) {c : BodyCache}
    (coherent : Coherent registry options library rank c) :
    ∀ e ∈ c.entries, ∀ d, library.functions.length < d →
      freshBody registry options library d e.1 = .ok (some e.2) := by
  intro e member d beyond
  have present : library.hasFunction e.1.identity = true := by
    cases absent : library.hasFunction e.1.identity with
    | true => rfl
    | false =>
      have stored := coherent e member _ (Nat.lt_succ_self _)
      rw [freshBody_absent _ absent] at stored
      cases stored
  have ranks := ranked.rank_lt_length present
  exact coherent e member d (by omega)

end Ranked

/-- A session on a non-recursive library gives the model, or the failure, that a session whose
cache never answers gives, where every call of a body translates the body afresh. Every body the
session cached is its signature's fresh translation, at every depth beyond the number of the
library's bodies: it does not depend on where the body was first asked for. -/
theorem convertedModel_eq_fresh (library : Source.Graph) (registry : Registry) (options : Options)
    (nonRecursive : NonRecursive registry library) :
    (Session.convertedModel { library, registry, options }).1 =
        ((lowerGraph ⟨registry, options, library,
          freshSource registry options library (library.functions.length + 1)⟩ library
          options.modelName).run {}).1 ∧
      ∀ e ∈ (Session.convertedModel { library, registry, options }).2.cache.entries,
        ∀ d, library.functions.length < d →
          freshBody registry options library d e.1 = .ok (some e.2) := by
  obtain ⟨rank, ranked⟩ := nonRecursive
  -- every library body ranks below the session's depth
  have agree : BodiesAgree (fun c _ => Coherent registry options library rank c)
      (fun identity => ∃ op ∈ library.operations, identity ∈ bodyRequests registry op)
      (bodySource registry options library (library.functions.length + 1))
      (freshSource registry options library (library.functions.length + 1)) :=
    (bodySource_agrees_fresh ranked _).mono fun identity _ present => by
      have ranks := ranked.rank_lt_length present
      omega
  obtain ⟨sameOutcome, coherent⟩ := lowerGraph_agrees_fresh library options.modelName agree
    (c := {}) fun _ absent => absurd absent List.not_mem_nil
  simp only [Session.convertedModel, Session.env]
  cases ran : (lowerGraph ⟨registry, options, library,
      bodySource registry options library (library.functions.length + 1)⟩ library
      options.modelName).run {} with
  | mk outcome cache =>
  rw [ran] at sameOutcome coherent
  dsimp only at sameOutcome coherent
  cases outcome with
  | error e => exact ⟨sameOutcome, coherent.fresh_beyond ranked⟩
  | ok m => exact ⟨sameOutcome, coherent.fresh_beyond ranked⟩

/-- A library whose top graph calls `Outer` twice, once on the other's result, and whose `Outer`
calls `Inner`. -/
def nestedCalls : Source.Graph where
  inputs := [{ name := "p", elementType := .f32, shape := ⟨some [.known 2]⟩ }]
  operations := [{ name := "o1", opType := "Outer", inputs := [{ producer := "p" }] },
    { name := "o2", opType := "Outer", inputs := [{ producer := "o1" }] }]
  outputs := [⟨"o2", .all⟩]
  functions := [("Inner", { inputs := [{ name := "a" }], outputs := [⟨"a", .all⟩] }),
    ("Outer", { inputs := [{ name := "x" }]
                operations := [{ name := "c", opType := "Inner", inputs := [{ producer := "x" }] }]
                outputs := [⟨"c", .all⟩] })]

/-- With `Outer` ranked above `Inner`, the nested library is non-recursive, and its session agrees
with the session whose cache never answers. -/
theorem convertedModel_eq_fresh_nested :
    NonRecursive [] nestedCalls ∧
      ((Session.convertedModel { library := nestedCalls, registry := [], options := {} }).1 =
          ((lowerGraph ⟨[], {}, nestedCalls,
            freshSource [] {} nestedCalls (nestedCalls.functions.length + 1)⟩ nestedCalls
            ({} : Options).modelName).run {}).1 ∧
        ∀ e ∈ (Session.convertedModel
            { library := nestedCalls, registry := [], options := {} }).2.cache.entries,
          ∀ d, nestedCalls.functions.length < d → freshBody [] {} nestedCalls d e.1 = .ok (some e.2)) := by
  have nonRecursive : NonRecursive [] nestedCalls := by
    refine ⟨fun identity => if identity = "Outer" then 1 else 0, ?_⟩
    intro identity body found
    -- `Inner` calls nothing; `Outer` calls only `Inner`, which ranks lower
    by_cases inner : identity = "Inner"
    · subst inner
      simp [nestedCalls, Source.Graph.bodyGraph?, Source.Graph.function?] at found
      simp [← found, nestedCalls]
    · by_cases outer : identity = "Outer"
      · subst outer
        simp [nestedCalls, Source.Graph.bodyGraph?, Source.Graph.function?] at found
        simp [← found, nestedCalls, bodyRequests, Source.Graph.hasFunction]
      · simp [nestedCalls, Source.Graph.bodyGraph?, Source.Graph.function?, Ne.symm inner,
          Ne.symm outer] at found
  exact ⟨nonRecursive, convertedModel_eq_fresh _ _ _ nonRecursive⟩

end Lowering
