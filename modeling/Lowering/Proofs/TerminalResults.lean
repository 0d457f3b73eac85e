import Mathlib.Algebra.GroupWithZero.Nat
import Mathlib.Data.List.Nodup
import Lowering.Pass.Assemble

/-! # Results for the values nobody reads

When a pass declares no results, `terminalResults` walks the bound values, names in the order of
the bindings (kept sorted by name) and each name's values in order, and adds a result for every
value that is no result's own and that nothing reads, each value once. The walk tests the graph it
is changing; that is harmless because a result it adds reads a value already seen, so the
readers of a value not seen yet are still the ones it had before the walk.

* `firstOccurrences` — each value once, with its position under the name where it first occurs;
* `terminalState` — the walk's state after a prefix of the candidates, in closed form, and
  `terminalStep_state`, what one round does to it;
* `terminalResults_spec` — the graph gains exactly the results for the values that await one,
  in order of first occurrence, and afterwards every bound value of a node that is no result has
  a reader.
-/

namespace Lowering.Pass

open Lowering.Ir

/-! ## First occurrences -/

section FirstOccurrences

variable {κ ι : Type} [DecidableEq κ]

/-- Each key once, with what came with its first occurrence, in the order of first occurrences. -/
def firstOccurrences : List (κ × ι) → List (κ × ι)
  | [] => []
  | p :: rest => p :: (firstOccurrences rest).filter (·.1 ≠ p.1)

/-- One more pair adds its key at the end, unless the key occurred before. -/
theorem firstOccurrences_append_singleton (p : κ × ι) :
    ∀ l : List (κ × ι), firstOccurrences (l ++ [p]) =
      if p.1 ∈ l.map Prod.fst then firstOccurrences l else firstOccurrences l ++ [p]
  | [] => by simp [firstOccurrences]
  | q :: l => by
    have unfolded : firstOccurrences (q :: l ++ [p]) =
        q :: (firstOccurrences (l ++ [p])).filter (·.1 ≠ q.1) := rfl
    rw [unfolded, firstOccurrences_append_singleton p l]
    by_cases before : p.1 ∈ l.map Prod.fst
    · have earlier : p.1 ∈ (q :: l).map Prod.fst := List.mem_cons_of_mem _ before
      rw [if_pos before, if_pos earlier]
      rfl
    · rw [if_neg before, List.filter_append]
      by_cases same : p.1 = q.1
      · have earlier : p.1 ∈ (q :: l).map Prod.fst := same ▸ List.mem_cons_self
        rw [if_pos earlier]
        simp [firstOccurrences, same]
      · have notBefore : p.1 ∉ (q :: l).map Prod.fst := by
          simp only [List.map_cons, List.mem_cons, not_or]
          exact ⟨same, before⟩
        rw [if_neg notBefore]
        simp [firstOccurrences, same]

theorem mem_keys_firstOccurrences {k : κ} :
    ∀ {l : List (κ × ι)}, k ∈ (firstOccurrences l).map Prod.fst ↔ k ∈ l.map Prod.fst
  | [] => by simp [firstOccurrences]
  | q :: l => by
    simp only [firstOccurrences, List.map_cons, List.mem_cons, ← mem_keys_firstOccurrences (l := l)]
    by_cases same : k = q.1
    · simp [same]
    · simp [same, List.mem_filter]

theorem keys_firstOccurrences_nodup :
    ∀ l : List (κ × ι), ((firstOccurrences l).map Prod.fst).Nodup
  | [] => List.nodup_nil
  | q :: l => by
    rw [firstOccurrences, List.map_cons, List.nodup_cons]
    refine ⟨fun member => ?_, ((keys_firstOccurrences_nodup l).sublist
      ((List.filter_sublist).map Prod.fst))⟩
    obtain ⟨p, kept, same⟩ := List.mem_map.mp member
    exact (of_decide_eq_true (List.mem_filter.mp kept).2) same

/-- The keys of the first occurrences that pass a test are the keys that occur and pass it. -/
theorem mem_keys_filter_firstOccurrences {k : κ} {q : κ → Bool} {l : List (κ × ι)} :
    k ∈ ((firstOccurrences l).filter (q ·.1)).map Prod.fst ↔ k ∈ l.map Prod.fst ∧ q k := by
  constructor
  · intro member
    obtain ⟨p, kept, rfl⟩ := List.mem_map.mp member
    obtain ⟨first, passes⟩ := List.mem_filter.mp kept
    exact ⟨mem_keys_firstOccurrences.mp (List.mem_map_of_mem first), passes⟩
  · rintro ⟨occurs, passes⟩
    obtain ⟨p, first, rfl⟩ := List.mem_map.mp (mem_keys_firstOccurrences.mpr occurs)
    exact List.mem_map_of_mem (List.mem_filter.mpr ⟨first, passes⟩)

/-- A pair kept is where its key occurs first. -/
theorem find?_of_mem_firstOccurrences {p : κ × ι} :
    ∀ {l : List (κ × ι)}, p ∈ firstOccurrences l → l.find? (·.1 == p.1) = some p
  | [], kept => by simp [firstOccurrences] at kept
  | q :: l, kept => by
    rw [firstOccurrences, List.mem_cons] at kept
    rcases kept with rfl | later
    · simp
    · obtain ⟨kept, other⟩ := List.mem_filter.mp later
      have differ : q.1 ≠ p.1 := fun same => of_decide_eq_true other same.symm
      rw [List.find?_cons, beq_false_of_ne differ]
      exact find?_of_mem_firstOccurrences kept

end FirstOccurrences

end Lowering.Pass

namespace Lowering.Ir.Graph

/-- Whether a value awaits a result: its node is no result, and nothing reads it. -/
def awaitsResult (g : Graph) (h : Handle) : Bool :=
  !(g.node? h.node).elim false (·.op.isResult) && g.consumerCount h == 0

/-- The result for value `h` found at position `i` under its name: it reads `h`, has the type and
shape of `h`, and is named after the node of `h` and the position `i`. -/
def terminalNode (g : Graph) (p : Handle × Nat) : Node :=
  ⟨(g.node? p.1.node).elim "" (·.name) ++ ":" ++ toString p.2, .result,
    [{ elementType := (g.tensor p.1).elementType, shape := (g.tensor p.1).shape }], [p.1]⟩

/-! ## Reading a graph with results appended -/

section Appended

variable {g : Graph} {extra : List Node}

theorem node?_append_of_lt {n : Nat} (below : n < g.size) :
    ({ nodes := g.nodes ++ extra.toArray } : Graph).node? n = g.node? n :=
  Array.getElem?_append_left below

theorem tensor_append_of_lt {h : Handle} (below : h.node < g.size) :
    ({ nodes := g.nodes ++ extra.toArray } : Graph).tensor h = g.tensor h := by
  simp only [tensor, node?_append_of_lt below]

/-- The readers of a value after appending nodes: the old ones and the new nodes' slots. -/
theorem consumerCount_append (h : Handle) :
    ({ nodes := g.nodes ++ extra.toArray } : Graph).consumerCount h =
      g.consumerCount h + (extra.map (·.inputs.count h)).sum := by
  unfold consumerCount
  rw [Array.foldl_append, List.foldl_toArray]
  generalize Array.foldl (fun acc nd => acc + nd.inputs.count h) 0 g.nodes = start
  induction extra generalizing start with
  | nil => simp
  | cons nd rest inductionHypothesis =>
    rw [List.foldl_cons, inductionHypothesis, List.map_cons, List.sum_cons]
    omega

end Appended

/-- The results for fresh values read exactly the values they stand for. -/
theorem count_terminalNodes (g : Graph) (fresh : List (Handle × Nat)) (h : Handle) :
    ((fresh.map g.terminalNode).map (·.inputs.count h)).sum = (fresh.map Prod.fst).count h := by
  induction fresh with
  | nil => rfl
  | cons p rest inductionHypothesis =>
    simp only [List.map_cons, List.sum_cons, inductionHypothesis, List.count_cons, terminalNode,
      List.count_nil]
    omega

end Lowering.Ir.Graph

namespace Lowering.Pass

open Lowering.Ir

/-! ## The walk -/

/-- The values bound in `b`, each with its position under its name, names in order. -/
def Bindings.recorded (b : Bindings) : List (Handle × Nat) :=
  b.entries.flatMap fun (_, vs) => vs.zipIdx.map fun (v, i) => (v.handle, i)

/-- One round of the walk of `terminalResults`, on candidate value `h` found at position `i`. -/
def terminalStep (state : Graph × List Handle × List Nat) (candidate : Handle × Nat) :
    Graph × List Handle × List Nat :=
  let (g, seen, acc) := state
  let (h, i) := candidate
  if seen.contains h then (g, seen, acc)
  else
    let seen := seen ++ [h]
    let isResult := (g.node? h.node).elim false (·.op.isResult)
    if isResult || g.consumerCount h > 0 then (g, seen, acc)
    else
      let name := (g.node? h.node).elim "" (·.name) ++ ":" ++ toString i
      let (g, r) := g.addResult h name
      (g, seen, acc ++ [r])

theorem terminalResults_eq_foldl (b : Bindings) (g : Graph) :
    terminalResults b g = ((b.recorded.foldl terminalStep (g, [], [])).1,
      (b.recorded.foldl terminalStep (g, [], [])).2.2) := rfl

/-- The values among the candidates `done` that get a result: each once, at its first
occurrence, when it awaits one. -/
def freshValues (g : Graph) (done : List (Handle × Nat)) : List (Handle × Nat) :=
  (firstOccurrences done).filter (g.awaitsResult ·.1)

/-- The graph after the candidates `done`: a result for each fresh value, in order. -/
def terminalGraph (g : Graph) (done : List (Handle × Nat)) : Graph :=
  ⟨g.nodes ++ ((freshValues g done).map g.terminalNode).toArray⟩

/-- The walk's state after the candidates `done`: the graph with a result for each fresh value,
the values seen, and the indices of the results added. -/
def terminalState (g : Graph) (done : List (Handle × Nat)) : Graph × List Handle × List Nat :=
  (terminalGraph g done, (firstOccurrences done).map Prod.fst,
    List.range' g.size (freshValues g done).length)

/-! ## One round -/

/-- A round skips a value seen before; otherwise it marks the value seen and, when the value
awaits a result, adds one. -/
theorem terminalStep_eq (g : Graph) (seen : List Handle) (acc : List Nat) (h : Handle) (i : Nat) :
    terminalStep (g, seen, acc) (h, i) =
      if h ∈ seen then (g, seen, acc)
      else if g.awaitsResult h then
        ((g.addResult h ((g.node? h.node).elim "" (·.name) ++ ":" ++ toString i)).1, seen ++ [h],
          acc ++ [g.size])
      else (g, seen ++ [h], acc) := by
  -- the round's test is the negation of `awaitsResult`
  have negated : ((g.node? h.node).elim false (·.op.isResult) || decide (g.consumerCount h > 0)) =
      !g.awaitsResult h := by
    unfold Graph.awaitsResult
    cases (g.node? h.node).elim false (·.op.isResult) <;> cases g.consumerCount h <;> simp
  by_cases seenBefore : h ∈ seen
  · simp [terminalStep, seenBefore]
  · simp only [terminalStep, List.contains_iff_mem, seenBefore, if_false, negated]
    cases g.awaitsResult h <;> rfl

/-- A value seen again leaves the walk's state as it was. -/
theorem terminalState_seen {g : Graph} {done : List (Handle × Nat)} {h : Handle} (i : Nat)
    (seen : h ∈ done.map Prod.fst) : terminalState g (done ++ [(h, i)]) = terminalState g done := by
  simp [terminalState, terminalGraph, freshValues, firstOccurrences_append_singleton, seen]

/-- A value not seen before is tested on the graph as it was before the walk: the results added
so far read only values already seen. -/
theorem awaitsResult_terminalGraph {g : Graph} {done : List (Handle × Nat)} {h : Handle}
    (below : h.node < g.size) (unseen : h ∉ done.map Prod.fst) :
    (terminalGraph g done).awaitsResult h = g.awaitsResult h := by
  have unread : ((freshValues g done).map Prod.fst).count h = 0 := by
    refine List.count_eq_zero.mpr fun member => unseen ?_
    obtain ⟨p, fresh, rfl⟩ := List.mem_map.mp member
    exact mem_keys_firstOccurrences.mp (List.mem_map_of_mem (List.mem_filter.mp fresh).1)
  simp only [Graph.awaitsResult, terminalGraph, Graph.node?_append_of_lt below,
    Graph.consumerCount_append, Graph.count_terminalNodes, unread, Nat.add_zero]

/-- What one round does to the walk's state. -/
theorem terminalStep_state {g : Graph} {done : List (Handle × Nat)} {h : Handle} (i : Nat)
    (below : h.node < g.size) :
    terminalStep (terminalState g done) (h, i) = terminalState g (done ++ [(h, i)]) := by
  rw [terminalState, terminalStep_eq]
  by_cases seen : h ∈ done.map Prod.fst
  · rw [if_pos (mem_keys_firstOccurrences.mpr seen), terminalState_seen i seen]
    rfl
  · rw [if_neg (fun member => seen (mem_keys_firstOccurrences.mp member)),
      awaitsResult_terminalGraph below seen]
    have first : firstOccurrences (done ++ [(h, i)]) = firstOccurrences done ++ [(h, i)] := by
      rw [firstOccurrences_append_singleton, if_neg seen]
    by_cases awaits : g.awaitsResult h
    · -- the value gets a result, which is the result the closed form lists next
      have grown : freshValues g (done ++ [(h, i)]) = freshValues g done ++ [(h, i)] := by
        simp [freshValues, first, List.filter_append, awaits]
      rw [if_pos awaits]
      simp only [terminalState, terminalGraph, grown, first, List.map_append, List.map_singleton,
        List.length_append, List.length_singleton]
      refine Prod.ext ?_ (Prod.ext rfl ?_)
      · simp [Graph.addResult, Graph.addNode, Graph.terminalNode, Graph.node?_append_of_lt below,
          Graph.tensor_append_of_lt below]
      · simp [Graph.size, List.range'_concat]
    · have kept : freshValues g (done ++ [(h, i)]) = freshValues g done := by
        simp [freshValues, first, List.filter_append, awaits]
      rw [if_neg awaits]
      simp [terminalState, terminalGraph, kept, first]

/-! ## The whole walk -/

/-- The walk over more candidates, whose values name nodes of the graph, keeps the closed form. -/
theorem foldl_terminalStep {g : Graph} :
    ∀ (rest done : List (Handle × Nat)), (∀ p ∈ rest, p.1.node < g.size) →
      rest.foldl terminalStep (terminalState g done) = terminalState g (done ++ rest)
  | [], done, _ => by simp
  | (h, i) :: rest, done, below => by
    rw [List.foldl_cons, terminalStep_state i (below (h, i) List.mem_cons_self),
      foldl_terminalStep rest (done ++ [(h, i)]) fun p member => below p (List.mem_cons_of_mem _ member)]
    simp

theorem terminalState_nil (g : Graph) : terminalState g [] = (g, [], []) := by
  simp [terminalState, terminalGraph, freshValues, firstOccurrences]

/-! ## The results for the values nobody reads -/

/-- When every bound value names a node of the graph, as every value a pass binds does, the graph
keeps its nodes and gains one result for each value that awaits one (its node is no result and
nothing read it before), each value once, in the order in which the values first occur (names in
the order of the bindings, each name's values in order), and named after the value's node and its
position under the name where it first occurs; afterwards every bound value of a node that is no
result has a reader. -/
theorem terminalResults_spec (b : Bindings) (g : Graph) (bound : ∀ p ∈ b.recorded, p.1.node < g.size) :
    let fresh := (firstOccurrences b.recorded).filter (g.awaitsResult ·.1)
    terminalResults b g =
        (⟨g.nodes ++ (fresh.map g.terminalNode).toArray⟩, List.range' g.size fresh.length) ∧
      (fresh.map Prod.fst).Nodup ∧
      (∀ h, h ∈ fresh.map Prod.fst ↔ h ∈ b.recorded.map Prod.fst ∧ g.awaitsResult h) ∧
      (∀ p ∈ fresh, b.recorded.find? (·.1 == p.1) = some p) ∧
      ∀ p ∈ b.recorded, ((terminalResults b g).1.node? p.1.node).elim false (·.op.isResult) = false →
        0 < (terminalResults b g).1.consumerCount p.1 := by
  intro fresh
  have run : terminalResults b g =
      (⟨g.nodes ++ (fresh.map g.terminalNode).toArray⟩, List.range' g.size fresh.length) := by
    rw [terminalResults_eq_foldl, ← terminalState_nil, foldl_terminalStep _ [] bound]
    rfl
  have awaiting : ∀ h, h ∈ fresh.map Prod.fst ↔ h ∈ b.recorded.map Prod.fst ∧ g.awaitsResult h :=
    fun _ => mem_keys_filter_firstOccurrences
  refine ⟨run, (keys_firstOccurrences_nodup _).sublist (List.filter_sublist.map Prod.fst), awaiting,
    fun p kept => find?_of_mem_firstOccurrences (List.mem_filter.mp kept).1, ?_⟩
  -- a value nobody read before the walk got a result, which reads it
  intro p recorded notResult
  have below := bound p recorded
  rw [run, Graph.node?_append_of_lt below] at notResult
  rw [run, Graph.consumerCount_append, Graph.count_terminalNodes]
  by_cases read : 0 < g.consumerCount p.1
  · omega
  · have awaits : g.awaitsResult p.1 := by
      simp [Graph.awaitsResult, notResult, Nat.eq_zero_of_not_pos read]
    have listed := (awaiting p.1).mpr ⟨List.mem_map_of_mem recorded, awaits⟩
    have counted := List.count_pos_iff.mpr listed
    omega

/-- A parameter `x` read by a stand-in `f` with two outputs, where `f`'s second value is bound
under `y` as well. -/
def twoReaders : Graph :=
  ⟨#[⟨"x", .parameter, [{}], []⟩, ⟨"f", .framework "Custom" [] none, [{}, {}], [⟨0, 0⟩]⟩]⟩

/-- The bindings of `twoReaders`, sorted by name. -/
def twoReadersBound : Bindings :=
  ⟨[("f", [{ handle := ⟨1, 0⟩ }, { handle := ⟨1, 1⟩ }]), ("x", [{ handle := ⟨0, 0⟩ }]),
    ("y", [{ handle := ⟨1, 1⟩ }])]⟩

/-- Only the two values of `f` get results, once each, after the graph's own nodes. -/
theorem terminalResults_spec_twoReaders :
    (∀ p ∈ twoReadersBound.recorded, p.1.node < twoReaders.size) ∧
      (terminalResults twoReadersBound twoReaders).2 = [2, 3] := by
  have bound : ∀ p ∈ twoReadersBound.recorded, p.1.node < twoReaders.size := by decide
  refine ⟨bound, ?_⟩
  rw [(terminalResults_spec twoReadersBound twoReaders bound).1]
  decide

end Lowering.Pass
