import Mathlib.Algebra.Group.Nat.Defs
import Lowering.Proofs.CacheCounts
import Lowering.Proofs.Consistency
import Lowering.Proofs.EdgeDirection
import Lowering.Proofs.FedResults
import Lowering.Proofs.UnreadResults

/-! # A stand-in has as many outputs as its readers ask for

An operation that no translator handles becomes a stand-in with its declared number of outputs,
and its name is bound to all of them. A later input that names the operation and a port past the
last output grows the stand-in to one past that port, and binds the name again to all outputs.

* `Graph.Fitted g F k` — node `F` has `k` outputs, or one past the highest port of it that a node
  reads when that is more;
* `StandsFor P F s` — the name `P` is bound to all outputs of the stand-in `F`, and to nothing
  else of it; resolving any input keeps this (`resolveInput_tracks`), and an input that reads `P`
  at port `p` gets output `p` of `F` (`resolveInput_reads_standIn`);
* a walk that translates every operation as a stand-in keeps `F` fitted to the ports its
  consumers read, and so does the rest of the pass (`lowerGraph_standIn_fitted`).

The growth target is one past the port, taken modulo `2 ^ 64`: the last port a 64-bit index can
name wraps to a target of zero, so the stand-in does not grow and reading that port fails. A target
past `Graph.maxOutputs` cannot be stored and stops the pass, so the ports that resolve are those
below it.
-/

namespace Lowering.Ir.Graph

variable {g g' : Graph} {F n k : Nat}

/-! ## Outputs read, and counts that fit them -/

/-- Some node of `g` reads output `p` of node `F`. -/
def ReadsPort (g : Graph) (F p : Nat) : Prop := ∃ n, (⟨F, p⟩ : Handle) ∈ g.inputs n

/-- Node `F` has `k` outputs, or one past the highest port that `reads` holds when that is more:
its count is the least `c` that is at least `k` and above every such port. -/
def Fits (g : Graph) (F k : Nat) (reads : Nat → Prop) : Prop :=
  ∀ c, (g.outputs F).length ≤ c ↔ k ≤ c ∧ ∀ p, reads p → p < c

/-- Node `F` has `k` outputs, or one past the highest port of it that a node reads. -/
def Fitted (g : Graph) (F k : Nat) : Prop := g.Fits F k (g.ReadsPort F)

theorem length_outputs (g : Graph) (n : Nat) :
    (g.outputs n).length = (g.node? n).elim 0 (·.outputs.length) := by
  unfold outputs
  cases g.node? n <;> simp

theorem mem_outputs {h : Handle} : h ∈ g.outputs n ↔ h.node = n ∧ h.output < (g.outputs n).length := by
  unfold outputs
  cases g.node? n with
  | none => simp
  | some nd =>
    obtain ⟨m, p⟩ := h
    simp only [List.mem_map, List.mem_range, Handle.mk.injEq, List.length_map, List.length_range]
    constructor
    · rintro ⟨q, bound, rfl, rfl⟩
      exact ⟨rfl, bound⟩
    · rintro ⟨rfl, bound⟩
      exact ⟨p, bound, rfl, rfl⟩

theorem outputs_of_node?_eq (same : g'.node? n = g.node? n) : g'.outputs n = g.outputs n := by
  unfold outputs
  rw [same]

theorem outputs_growOutputs_of_ne {m : Nat} (len : Nat) (other : m ≠ n) :
    (g.growOutputs n len).outputs m = g.outputs m :=
  outputs_of_node?_eq (by rw [growOutputs, node?_modifyNode, if_neg (Ne.symm other)])

/-- Growing an existing node to `len` outputs leaves it with the larger of its count and `len`. -/
theorem length_outputs_growOutputs (len : Nat) (present : (g.node? n).isSome) :
    ((g.growOutputs n len).outputs n).length = max (g.outputs n).length len := by
  obtain ⟨nd, found⟩ := Option.isSome_iff_exists.mp present
  rw [length_outputs, length_outputs, growOutputs, node?_modifyNode, if_pos rfl, found]
  simp only [Option.map_some, Option.elim]
  split
  · rename_i shorter
    simp only [List.length_append, List.length_replicate]
    omega
  · omega

/-- Position `p` of all outputs of a node, as unnamed values. -/
theorem getElem?_unlabeled_outputs (g : Graph) (n p : Nat) :
    (Pass.unlabeled (g.outputs n))[p]? =
      if p < (g.outputs n).length then some { handle := ⟨n, p⟩ } else none := by
  rw [length_outputs]
  unfold outputs Pass.unlabeled
  cases g.node? n with
  | none => simp
  | some nd =>
    by_cases inside : p < nd.outputs.length
    · simp [inside]
    · simp [inside]

theorem Retagged.readsPort_iff (same : Retagged g g') {p : Nat} : g'.ReadsPort F p ↔ g.ReadsPort F p := by
  -- the nodes and their inputs are the same
  have inputs : ∀ m, g'.inputs m = g.inputs m := by
    intro m
    have agree := same m
    unfold inputs
    cases found : g.node? m with
    | none =>
      cases found' : g'.node? m with
      | none => rfl
      | some nd' => simp [found, found'] at agree
    | some nd =>
      obtain ⟨nd', found', -, sameInputs⟩ := same.image found
      rw [found']
      exact sameInputs
  simp only [ReadsPort, inputs]

/-! ## The stand-in of an operation -/

/-- Node `F` of `g` is the stand-in of `op`: it has the operation's name, type and attributes, and
records no translator failure. -/
def StandsIn (g : Graph) (F : Nat) (op : Source.Operation) : Prop :=
  ∃ nd, g.node? F = some nd ∧ nd.name = op.name ∧ nd.op = .framework op.opType op.attrs none

namespace StandsIn

variable {op : Source.Operation}

theorem lt_size (standsIn : g.StandsIn F op) : F < g.size :=
  let ⟨_, found, _⟩ := standsIn
  lt_size_of_node? found

/-- An edit of a node keeps the stand-in when it is another node, or keeps names and operations. -/
theorem modifyNode (standsIn : g.StandsIn F op) {m : Nat} {f : Node → Node}
    (keeps : m = F → ∀ nd, (f nd).name = nd.name ∧ (f nd).op = nd.op) :
    (g.modifyNode m f).StandsIn F op := by
  obtain ⟨nd, found, name, isStandIn⟩ := standsIn
  rw [StandsIn, node?_modifyNode, found]
  split
  · rename_i same
    obtain ⟨sameName, sameOp⟩ := keeps same nd
    exact ⟨f nd, rfl, sameName.trans name, sameOp.trans isStandIn⟩
  · exact ⟨nd, rfl, name, isStandIn⟩

theorem standIn (standsIn : g.StandsIn F op) : Pass.standIn g F = true := by
  obtain ⟨nd, found, -, isStandIn⟩ := standsIn
  simp [Pass.standIn, found, isStandIn, Op.isFramework]

theorem growOutputs (standsIn : g.StandsIn F op) (m len : Nat) : (g.growOutputs m len).StandsIn F op :=
  standsIn.modifyNode fun _ nd => by
    split <;> exact ⟨rfl, rfl⟩

theorem addNode (standsIn : g.StandsIn F op) (name : String) (o : Op) (ins : List Handle)
    (outs : List TensorInfo) : (g.addNode name o ins outs).1.StandsIn F op := by
  rw [StandsIn, node?_addNode_of_lt name o ins outs standsIn.lt_size]
  exact standsIn

end StandsIn

theorem inputs_of_size_le (beyond : g.size ≤ n) : g.inputs n = [] := by
  have missing : g.node? n = none := Array.getElem?_eq_none beyond
  simp [inputs, missing]

/-- A graph with one more node, which reads `ins`: its reads are the old ones and `ins`. -/
theorem readsPort_of_appended {ins : List Handle} (size : g'.size = g.size + 1)
    (old : ∀ m < g.size, g'.node? m = g.node? m) (inputsNew : g'.inputs g.size = ins) {p : Nat} :
    g'.ReadsPort F p ↔ g.ReadsPort F p ∨ (⟨F, p⟩ : Handle) ∈ ins := by
  constructor
  · rintro ⟨m, member⟩
    rcases Nat.lt_trichotomy m g.size with older | rfl | newer
    · exact .inl ⟨m, by simpa [inputs, old m older] using member⟩
    · exact .inr (inputsNew ▸ member)
    · rw [inputs_of_size_le (by rw [size]; omega)] at member
      cases member
  · rintro (⟨m, member⟩ | member)
    · have older : m < g.size := by
        by_contra beyond
        rw [inputs_of_size_le (Nat.le_of_not_lt beyond)] at member
        cases member
      exact ⟨m, by simpa [inputs, old m older] using member⟩
    · exact ⟨g.size, inputsNew ▸ member⟩

theorem readsPort_addNode {name : String} {o : Op} {ins : List Handle} {outs : List TensorInfo}
    {p : Nat} : (g.addNode name o ins outs).1.ReadsPort F p ↔ g.ReadsPort F p ∨ (⟨F, p⟩ : Handle) ∈ ins :=
  readsPort_of_appended (size_addNode name o ins outs)
    (fun _ older => node?_addNode_of_lt name o ins outs older) (by simp [inputs, node?_addNode_self])

/-- An edit that keeps the number of outputs of a node keeps that of every node. -/
theorem length_outputs_modifyNode {m : Nat} {f : Node → Node}
    (keeps : ∀ nd, (f nd).outputs.length = nd.outputs.length) :
    ((g.modifyNode m f).outputs n).length = (g.outputs n).length := by
  rw [length_outputs, length_outputs, node?_modifyNode]
  split <;> cases g.node? n <;> simp [keeps]

/-- `g'` is `g` with one more node: the stand-in of `op` reading `inputs`, with the operation's
declared number of outputs. -/
structure AddsStandIn (g : Graph) (op : Source.Operation) (inputs : List Handle) (g' : Graph) : Prop where
  size : g'.size = g.size + 1
  old : ∀ m < g.size, g'.node? m = g.node? m
  new : ∃ nd, g'.node? g.size = some nd ∧ nd.name = op.name ∧
    nd.op = .framework op.opType op.attrs none ∧ nd.outputs.length = op.numOutputs ∧ nd.inputs = inputs

namespace AddsStandIn

variable {op : Source.Operation} {ins : List Handle}

theorem outputs_of_lt (adds : g.AddsStandIn op ins g') (bound : n < g.size) : g'.outputs n = g.outputs n :=
  outputs_of_node?_eq (adds.old n bound)

theorem length_outputs_new (adds : g.AddsStandIn op ins g') : (g'.outputs g.size).length = op.numOutputs := by
  obtain ⟨nd, found, -, -, count, -⟩ := adds.new
  simp [length_outputs, found, count]

theorem standsIn_new (adds : g.AddsStandIn op ins g') : g'.StandsIn g.size op :=
  let ⟨nd, found, name, isStandIn, _⟩ := adds.new
  ⟨nd, found, name, isStandIn⟩

theorem standsIn_old (adds : g.AddsStandIn op ins g') {P : Source.Operation} (standsIn : g.StandsIn F P) :
    g'.StandsIn F P := by
  rw [StandsIn, adds.old F standsIn.lt_size]
  exact standsIn

theorem readsPort_iff (adds : g.AddsStandIn op ins g') {p : Nat} :
    g'.ReadsPort F p ↔ g.ReadsPort F p ∨ (⟨F, p⟩ : Handle) ∈ ins :=
  let ⟨nd, found, _, _, _, reads⟩ := adds.new
  readsPort_of_appended adds.size adds.old (by simp [inputs, found, reads])

end AddsStandIn

/-! ## Counts that fit -/

namespace Fits

variable {R R' : Nat → Prop}

/-- A count and ports that did not change keep fitting. -/
theorem congr (fits : g.Fits F k R) (count : (g'.outputs F).length = (g.outputs F).length)
    (same : ∀ p, R' p ↔ R p) : g'.Fits F k R' := by
  intro c
  rw [count, fits c]
  simp only [same]

/-- Ports below the count may be read without changing what fits. -/
theorem read_below (fits : g.Fits F k R) {S : Nat → Prop} (below : ∀ p, S p → p < (g.outputs F).length) :
    g.Fits F k (fun p => R p ∨ S p) := by
  intro c
  constructor
  · intro atMost
    obtain ⟨least, above⟩ := (fits c).mp atMost
    exact ⟨least, fun p read => read.elim (above p) fun extra => Nat.lt_of_lt_of_le (below p extra) atMost⟩
  · rintro ⟨least, above⟩
    exact (fits c).mpr ⟨least, fun p read => above p (.inl read)⟩

/-- Growing `F` to `len` outputs, no more than one past a port `q` that exists afterwards, fits
the ports read before and `q`. -/
theorem grow (fits : g.Fits F k R) {len q : Nat}
    (count : (g'.outputs F).length = max (g.outputs F).length len) (short : len ≤ q + 1)
    (inside : q < (g'.outputs F).length) : g'.Fits F k (fun p => R p ∨ p = q) := by
  intro c
  rw [count]
  constructor
  · intro atMost
    obtain ⟨least, above⟩ := (fits c).mp (Nat.le_trans (Nat.le_max_left _ _) atMost)
    refine ⟨least, fun p read => read.elim (above p) fun same => ?_⟩
    rw [count] at inside
    omega
  · rintro ⟨least, above⟩
    have old := (fits c).mpr ⟨least, fun p read => above p (.inl read)⟩
    have new := above q (.inr rfl)
    omega

end Fits

/-- A new node that reads only outputs that `F` has keeps `F` fitted. -/
theorem Fitted.addNode (fitted : g.Fitted F k) (present : F < g.size) {name : String} {o : Op}
    {ins : List Handle} {outs : List TensorInfo}
    (below : ∀ p, (⟨F, p⟩ : Handle) ∈ ins → p < (g.outputs F).length) :
    (g.addNode name o ins outs).1.Fitted F k :=
  (fitted.read_below below).congr
    (congrArg List.length (outputs_of_node?_eq (node?_addNode_of_lt name o ins outs present)))
    fun _ => readsPort_addNode

end Lowering.Ir.Graph

namespace Lowering.Pass

open Lowering.Ir Lowering.Proofs
open Lowering.Source (Operation Edge)

theorem Bindings.get?_rebind_of_none {b : Bindings} {name Q : String} {vs : List Labeled}
    (absent : b.get? Q = none) : (b.rebind name vs).get? Q = none := by
  rw [Bindings.get?_rebind, if_neg, absent]
  rintro ⟨rfl, present⟩
  simp [Bindings.contains_iff, absent] at present

theorem Bindings.get?_rebind_of_ne {b : Bindings} {name Q : String} {vs : List Labeled}
    (other : Q ≠ name) : (b.rebind name vs).get? Q = b.get? Q := by
  rw [Bindings.get?_rebind, if_neg fun both => other both.1]

/-- The values of all outputs of a node are on that node. -/
theorem node_of_mem_unlabeled_outputs {g : Graph} {n : Nat} {v : Labeled}
    (member : v ∈ unlabeled (g.outputs n)) : v.handle.node = n := by
  obtain ⟨h, inOutputs, rfl⟩ := List.mem_map.mp member
  exact Graph.node_of_mem_outputs inOutputs

/-! ## A name that stands for a stand-in -/

/-- The stand-in `F` of operation `P` has at least one output, the name of `P` is bound to all of
them, and no other name holds a value of `F`. -/
structure StandsFor (P : Operation) (F : Nat) (s : PassState) : Prop where
  node : s.graph.StandsIn F P
  entry : s.bindings.get? P.name = some (unlabeled (s.graph.outputs F))
  opened : s.graph.outputs F ≠ []
  alone : ∀ Q vs, s.bindings.get? Q = some vs → Q ≠ P.name → ∀ v ∈ vs, v.handle.node ≠ F

namespace StandsFor

variable {P : Operation} {F : Nat} {s : PassState}

theorem standIn (standsFor : StandsFor P F s) : standIn s.graph F = true :=
  standsFor.node.standIn

theorem bound (standsFor : StandsFor P F s) : s.bindings.contains P.name = true :=
  Bindings.contains_iff.mpr (by simp [standsFor.entry])

theorem present (standsFor : StandsFor P F s) : (s.graph.node? F).isSome :=
  let ⟨_, found, _⟩ := standsFor.node
  by simp [found]

/-- A bound value of `F` is an output that `F` has. -/
theorem held (standsFor : StandsFor P F s) {q : Nat} (held : s.bindings.Holds ⟨F, q⟩) :
    q < (s.graph.outputs F).length := by
  obtain ⟨Q, vs, found, v, member, same⟩ := held
  by_cases named : Q = P.name
  · subst named
    rw [standsFor.entry, Option.some.injEq] at found
    subst found
    obtain ⟨h, inOutputs, rfl⟩ := List.mem_map.mp member
    cases same
    exact (Graph.mem_outputs.mp inOutputs).2
  · exact absurd (congrArg Handle.node same) (standsFor.alone Q vs found named v member)

/-- Growing `F` and binding `P` again to all its outputs keeps `P` standing for `F`. -/
theorem regrow_self (standsFor : StandsFor P F s) (len : Nat) :
    StandsFor P F { s with
      graph := s.graph.growOutputs F len
      bindings := s.bindings.rebind P.name (unlabeled ((s.graph.growOutputs F len).outputs F)) } := by
  refine ⟨standsFor.node.growOutputs F len, ?_, ?_, ?_⟩
  · exact Bindings.get?_rebind.trans (if_pos ⟨rfl, standsFor.bound⟩)
  · -- growing never shortens
    have opened := List.length_pos_of_ne_nil standsFor.opened
    have count := Graph.length_outputs_growOutputs (g := s.graph) len standsFor.present
    exact List.ne_nil_of_length_pos (by dsimp only; omega)
  · intro Q ws found other
    rw [Bindings.get?_rebind_of_ne other] at found
    exact standsFor.alone Q ws found other

/-- Growing another node and binding another name to all its outputs keeps `P` standing for `F`. -/
theorem regrow_other (standsFor : StandsFor P F s) {m : Nat} (len : Nat) {producer : String}
    (grownOther : m ≠ F) (other : P.name ≠ producer) :
    StandsFor P F { s with
      graph := s.graph.growOutputs m len
      bindings := s.bindings.rebind producer (unlabeled ((s.graph.growOutputs m len).outputs m)) } := by
  have sameOutputs := Graph.outputs_growOutputs_of_ne (g := s.graph) len (Ne.symm grownOther)
  refine ⟨standsFor.node.growOutputs m len, ?_, sameOutputs ▸ standsFor.opened, ?_⟩
  · rw [Bindings.get?_rebind_of_ne other]
    exact sameOutputs ▸ standsFor.entry
  · intro Q ws found otherQ
    rw [Bindings.get?_rebind] at found
    split at found
    · cases found
      intro w inEntry
      rw [node_of_mem_unlabeled_outputs inEntry]
      exact grownOther
    · exact standsFor.alone Q ws found otherQ

end StandsFor

/-- Resolving any input keeps `P` standing for `F`, grows nothing but the node behind the
producer's first value, and leaves unbound names unbound. A value of `F` it gives becomes a port
that `F` fits, with the ports `R` it fitted before. -/
theorem resolveInput_tracks {P : Operation} {F k : Nat} {R : Nat → Prop} (op : Operation) (slot : Nat)
    (edge : Edge) (s : PassState) (standsFor : StandsFor P F s) (fits : s.graph.Fits F k R) :
    Triple (· = s) (resolveInput op slot edge)
      (fun r s' => StandsFor P F s' ∧ s'.graph.Fits F k (fun p => R p ∨ r = some ⟨F, p⟩) ∧
        Graph.Retagged s.graph s'.graph ∧ ∀ Q, s.bindings.get? Q = none → s'.bindings.get? Q = none)
      (fun _ => True) := by
  refine (resolveInput_cases op slot edge s).conseq (fun _ same => same) ?_ (fun _ _ => trivial)
  rintro r s' (⟨rfl, held⟩ | ⟨out, v, ⟨vs, first, entry, head, isStandIn, rfl⟩, found, rfl⟩)
  · refine ⟨standsFor, fits.read_below fun p same => standsFor.held (held _ same),
      Graph.Retagged.refl _, fun _ absent => absent⟩
  · have present : s.bindings.contains edge.producer = true :=
      Bindings.contains_iff.mpr (by simp [entry])
    have member := List.mem_of_mem_head? head
    -- a producer whose first value is on `F` is `P`
    have onF : first.handle.node = F → edge.producer = P.name := fun on => by
      by_contra other
      exact standsFor.alone _ vs entry other first member on
    -- and the values of `P` are all on `F`
    have onP : edge.producer = P.name → first.handle.node = F := by
      intro named
      rw [named] at entry
      rw [standsFor.entry, Option.some.injEq] at entry
      subst entry
      exact node_of_mem_unlabeled_outputs member
    rw [Bindings.get?_rebind, if_pos ⟨rfl, present⟩, Option.bind_some,
      Graph.getElem?_unlabeled_outputs] at found
    have inside : out < ((s.graph.growOutputs first.handle.node ((out + 1) % Nat.pow 2 64)).outputs
        first.handle.node).length := by
      by_contra outside
      rw [if_neg outside] at found
      cases found
    rw [if_pos inside] at found
    cases found
    generalize first.handle.node = m at isStandIn onF onP inside ⊢
    have retagged := Graph.retagged_growOutputs (g := s.graph) m ((out + 1) % Nat.pow 2 64)
    by_cases grownF : m = F
    · -- the stand-in of `P` grew to one past the port read
      subst grownF
      have named := onF rfl
      have count := Graph.length_outputs_growOutputs (g := s.graph) ((out + 1) % Nat.pow 2 64)
        standsFor.present
      refine ⟨named ▸ standsFor.regrow_self _, ?_, retagged, fun Q absent => Bindings.get?_rebind_of_none absent⟩
      refine (fits.grow count (Nat.mod_le _ _) inside).congr rfl fun p => ?_
      simp only [Option.some.injEq, Handle.mk.injEq, true_and]
      exact or_congr_right eq_comm
    · -- another node grew, and `P` is not its producer
      have other : P.name ≠ edge.producer := fun same => grownF (onP same.symm)
      have sameOutputs := Graph.outputs_growOutputs_of_ne (g := s.graph) ((out + 1) % Nat.pow 2 64)
        (Ne.symm grownF)
      refine ⟨standsFor.regrow_other _ grownF other, ?_, retagged,
        fun Q absent => Bindings.get?_rebind_of_none absent⟩
      refine fits.congr (congrArg List.length sameOutputs) fun p => ?_
      simp [grownF]

/-! ## Reading a port of a stand-in -/

/-- Input `slot` of `op` reads port `p` of `P` through `edge`: a data edge that names `P` with
index `p`, in a group or not, that no value bound under `slot:op` cuts off and no value bound
under `P:p` answers. -/
structure ReadsThrough (P : Operation) (p : Nat) (op : Operation) (slot : Nat) (edge : Edge)
    (s : PassState) : Prop where
  producer : edge.producer = P.name
  data : edge.control = false
  index : edge.index = p
  unpruned : s.bindings.get? (toString slot ++ ":" ++ op.name) = none
  direct : s.bindings.get? (P.name ++ ":" ++ toString p) = none

variable {P : Operation} {F p : Nat} {op : Operation} {slot : Nat} {edge : Edge} {s : PassState}

theorem maxOutputs_lt : Graph.maxOutputs < 2 ^ 63 := by
  unfold Graph.maxOutputs
  show (2 ^ 63 - 1) / 56 < 2 ^ 63
  omega

/-- What reading port `p` of `P` through its entry does, for a port whose successor 64 bits hold:
with no more outputs than `p`, the stand-in grows to `p + 1` outputs and `P` is bound to all of
them again, unless a node cannot hold that many, which stops the read and leaves the state; the
value read is output `p` of `F`. -/
theorem resolveInput_run_of_readsThrough (standsFor : StandsFor P F s)
    (through : ReadsThrough P p op slot edge s) (below : p + 1 < 2 ^ 64) :
    (resolveInput op slot edge).run.run s =
      if (s.graph.outputs F).length ≤ p then
        if Graph.maxOutputs < p + 1 then (.error .capacityOverflow, s)
        else (.ok (some ⟨F, p⟩), { s with
          graph := s.graph.growOutputs F (p + 1)
          bindings := s.bindings.rebind P.name (unlabeled ((s.graph.growOutputs F (p + 1)).outputs F)) })
      else (.ok (some ⟨F, p⟩), s) := by
  obtain ⟨producer, data, index, unpruned, direct⟩ := through
  have entry := standsFor.entry
  have wrap : (p + 1) % Nat.pow 2 64 = p + 1 := Nat.mod_eq_of_lt below
  have present := standsFor.bound
  have count := Graph.length_outputs_growOutputs (g := s.graph) (p + 1) standsFor.present
  have length : (unlabeled (s.graph.outputs F)).length = (s.graph.outputs F).length := by
    simp [unlabeled]
  -- the first value of `P` is output 0 of `F`
  have head : (unlabeled (s.graph.outputs F)).head? = some { handle := ⟨F, 0⟩ } := by
    rw [List.head?_eq_getElem?, Graph.getElem?_unlabeled_outputs,
      if_pos (List.length_pos_of_ne_nil standsFor.opened)]
  have isStandIn : ((s.graph.node? F).elim false fun nd => nd.op.isFramework) = true :=
    standsFor.standIn
  unfold resolveInput
  simp only [run_get_bind, unpruned, data, producer, index, Bool.false_eq_true, if_false]
  -- with a group or without, the port is the index, and no value bound under `P:p` answers it
  cases group : edge.group <;>
    simp only [entry, Option.getD_some, flatIndex_unlabeled, pure_bind, direct, head, isStandIn,
      if_true, wrap, length]
  all_goals
    by_cases short : (s.graph.outputs F).length ≤ p
    · have grows : (s.graph.outputs F).length < p + 1 := by omega
      by_cases exceeds : Graph.maxOutputs < p + 1
      · simp only [short, if_true, grows, exceeds, and_self, run_bind, run_throw]
      · -- the stand-in grows to one past the port, and `P` is bound to all its outputs again
        simp only [short, if_true, grows, exceeds, and_false, if_false, run_bind, run_set, run_get,
          Bindings.get?_rebind, present, and_self, Option.bind_some, Graph.getElem?_unlabeled_outputs,
          count]
        rw [if_pos (by omega)]
        rfl
    · simp only [short, if_false, run_get_bind, entry, Option.bind_some,
        Graph.getElem?_unlabeled_outputs]
      rw [if_pos (by omega)]
      rfl

/-- Reading port `p` of `P` succeeds with output `p` of its stand-in, grown to one past `p` first
when it has fewer outputs, as long as one past `p` is a count of outputs a node can hold. -/
theorem resolveInput_ok_of_readsThrough (standsFor : StandsFor P F s)
    (through : ReadsThrough P p op slot edge s) (room : p + 1 ≤ Graph.maxOutputs) :
    ∃ s', (resolveInput op slot edge).run.run s = (.ok (some ⟨F, p⟩), s') := by
  have below : p + 1 < 2 ^ 64 := by
    have capped := maxOutputs_lt
    omega
  rw [resolveInput_run_of_readsThrough standsFor through below]
  split
  · rw [if_neg (by omega)]
    exact ⟨_, rfl⟩
  · exact ⟨_, rfl⟩

/-- Reading a port of `P` past the outputs of its stand-in, whose successor is more outputs than a
node can hold, stops the pass and leaves the state as it was. -/
theorem resolveInput_fails_past_capacity (standsFor : StandsFor P F s)
    (through : ReadsThrough P p op slot edge s) (short : (s.graph.outputs F).length ≤ p)
    (exceeds : Graph.maxOutputs < p + 1) (below : p + 1 < 2 ^ 64) :
    (resolveInput op slot edge).run.run s = (.error .capacityOverflow, s) := by
  rw [resolveInput_run_of_readsThrough standsFor through below, if_pos short, if_pos exceeds]

example :
    ((Session.convertedModel
      ⟨{ operations := [{ name := "u", opType := "Mystery" },
          { name := "t", opType := "Sink", inputs := [{ producer := "u", index := Graph.maxOutputs }] }] },
       [], {}, {}, none⟩).1.map fun _ => ()).mapError LowerError.message = .error "capacity overflow" := by
  decide +kernel

/-- Reading port `p` of `P` gives output `p` of its stand-in `F`, which is left with one more
output than `p` when it had fewer, and `P` still stands for `F`. -/
theorem resolveInput_reads_standIn (standsFor : StandsFor P F s)
    (through : ReadsThrough P p op slot edge s) (room : p + 1 ≤ Graph.maxOutputs) :
    ∃ s', (resolveInput op slot edge).run.run s = (.ok (some ⟨F, p⟩), s') ∧ StandsFor P F s' ∧
      (s'.graph.outputs F).length = max (s.graph.outputs F).length (p + 1) := by
  obtain ⟨s', ran⟩ := resolveInput_ok_of_readsThrough standsFor through room
  -- the count before is the least count that fits no port at all
  have start : s.graph.Fits F (s.graph.outputs F).length (fun _ => False) := fun c => by simp
  have tracked := resolveInput_tracks op slot edge s standsFor start s rfl
  rw [ran] at tracked
  obtain ⟨standsFor', fits, -, -⟩ := tracked
  refine ⟨s', ran, standsFor', Nat.le_antisymm ((fits _).mpr ⟨Nat.le_max_left _ _, ?_⟩) ?_⟩
  · intro q read
    simp only [false_or, Option.some.injEq, Handle.mk.injEq, true_and] at read
    omega
  · obtain ⟨least, above⟩ := (fits _).mp (Nat.le_refl _)
    have past := above p (.inr rfl)
    omega

/-! ## One operation as a stand-in -/

theorem passthrough_run (op : Operation) (inputs : List Handle) (failure : Option String) (s : PassState) :
    (passthrough op inputs failure).run.run s =
      (.ok (unlabeled (((s.graph.addFramework "" op.opType op.attrs failure inputs op.numOutputs).1.setName
          op.name s.graph.size).outputs s.graph.size)),
        { s with
          graph := (s.graph.addFramework "" op.opType op.attrs failure inputs op.numOutputs).1.setName
            op.name s.graph.size }) := rfl

theorem passthrough_adds (op : Operation) (inputs : List Handle) (s : PassState) :
    Triple (· = s) (passthrough op inputs none)
      (fun vs s' => s.graph.AddsStandIn op inputs s'.graph ∧ s'.bindings = s.bindings ∧
        vs = unlabeled (s'.graph.outputs s.graph.size))
      (fun _ => True) := by
  rintro _ rfl
  rw [passthrough_run]
  refine ⟨⟨by simp [Graph.addFramework], fun m older => ?_, ?_⟩, rfl, rfl⟩
  · rw [Graph.setName, Graph.node?_modifyNode, if_neg (Nat.ne_of_gt older), Graph.addFramework,
      Graph.node?_addNode_of_lt _ _ _ _ older]
  · rw [Graph.setName, Graph.node?_modifyNode, if_pos rfl, Graph.addFramework,
      Graph.node?_addNode_self]
    exact ⟨_, rfl, rfl, rfl, by simp, rfl⟩

/-- With no translator and no library body for its type, an operation is dispatched to a stand-in. -/
theorem dispatch_of_unregistered {env : Env} (unregistered : env.registry = [])
    (absent : ∀ t ins g c, env.bodies t ins g c = (.ok none, c)) (op : Operation) (inputs : List Handle)
    (s : PassState) : (dispatch env op inputs).run.run s = (passthrough op inputs none).run.run s := by
  unfold dispatch
  rw [unregistered, List.find?_nil]
  simp only [absent, run_bind, run_get, run_set, run_liftExcept]

theorem foldl_append_fst {α γ : Type} (xs kept : List α) (c : γ) :
    xs.foldl (fun acc v => (acc.1 ++ [v], acc.2)) (kept, c) = (kept ++ xs, c) := by
  induction xs generalizing kept with
  | nil => simp
  | cons v rest inductionHypothesis => simp [inductionHypothesis]

/-- Registering values of stand-ins binds the operation's name to all of them, when there are
any: no stand-in is a result or a parameter. -/
theorem register_standIns (op : Operation) (vs : List Labeled) (s : PassState)
    (plain : ∀ v ∈ vs, standIn s.graph v.handle.node = true) :
    Triple (· = s) (register op vs)
      (fun _ s' => s'.graph = s.graph ∧
        ∀ Q, s'.bindings.get? Q = if Q = op.name ∧ vs ≠ [] then some vs else s.bindings.get? Q)
      (fun _ => True) := by
  unfold register
  refine Triple.get_bind fun s₀ same => ?_
  subst same
  split
  rename_i kept ps rs folded
  -- each value is kept, and the lists of parameters and results stay as they were
  rw [List.foldl_ext _ (fun acc v => (acc.1 ++ [v], acc.2)) _ fun acc v member => ?_,
    foldl_append_fst, List.nil_append] at folded
  · cases folded
    refine Triple.set_bind_state ?_
    split
    · rename_i nonempty
      have filled : vs ≠ [] := fun empty => by simp [empty] at nonempty
      -- binding the name, which succeeds only while it is unbound
      let Registered (s' : PassState) : Prop := s'.graph = s₀.graph ∧
        ∀ Q, s'.bindings.get? Q = if Q = op.name ∧ vs ≠ [] then some vs else s₀.bindings.get? Q
      have binding : Triple (fun s => (∀ b, s.bindings.bind op.name vs = .ok b →
          Registered { s with bindings := b }) ∧ True) (bindName op.name vs) (fun _ => Registered)
          (fun _ => True) := bindName_spec op.name vs
      refine binding.conseq ?_ (fun _ _ holds => holds) (fun _ _ => trivial)
      rintro _ rfl
      refine ⟨fun b bound => ⟨rfl, fun Q => ?_⟩, trivial⟩
      rw [Bindings.get?_bind bound]
      simp [filled]
    · rename_i empty
      have none : vs = [] := by
        cases vs with
        | nil => rfl
        | cons v rest => simp at empty
      exact Triple.pure fun _ same => by subst same; simp [none]
  · obtain ⟨kept', ps', rs'⟩ := acc
    have isStandIn := plain v member
    unfold standIn at isStandIn
    cases found : s₀.graph.node? v.handle.node with
    | none => simp [found] at isStandIn
    | some nd =>
      simp only [found, Option.elim] at isStandIn ⊢
      have notResult : nd.op.isResult = false := by
        revert isStandIn
        cases nd.op <;> simp [Op.isFramework, Op.isResult]
      have notParameter : nd.op.isParameter = false := by
        revert isStandIn
        cases nd.op <;> simp [Op.isFramework, Op.isParameter]
      simp [notResult, notParameter]

/-- Dispatching an operation that has no translator and no library body, then registering its
values: the graph gains the stand-in, and the operation's name is bound to all its outputs when it
has any. -/
theorem dispatch_register_standIn {env : Env} (unregistered : env.registry = [])
    (absent : ∀ t ins g c, env.bodies t ins g c = (.ok none, c)) (op : Operation)
    (inputs : List Handle) (s : PassState) :
    Triple (· = s) (dispatch env op inputs >>= register op)
      (fun _ s' => s.graph.AddsStandIn op inputs s'.graph ∧ ∀ Q, s'.bindings.get? Q =
        if Q = op.name ∧ 0 < op.numOutputs then some (unlabeled (s'.graph.outputs s.graph.size))
        else s.bindings.get? Q)
      (fun _ => True) := by
  have dispatched : Triple (· = s) (dispatch env op inputs)
      (fun vs s₁ => s.graph.AddsStandIn op inputs s₁.graph ∧ s₁.bindings = s.bindings ∧
        vs = unlabeled (s₁.graph.outputs s.graph.size)) (fun _ => True) := by
    intro s₀ same
    rw [same, dispatch_of_unregistered unregistered absent]
    exact passthrough_adds op inputs s s rfl
  refine Triple.bind dispatched fun vs => Triple.of_each fun s₁ ⟨adds, sameBindings, listed⟩ => ?_
  subst listed
  -- the values are the outputs of the new stand-in
  have plain : ∀ v ∈ unlabeled (s₁.graph.outputs s.graph.size), standIn s₁.graph v.handle.node = true := by
    intro v member
    rw [node_of_mem_unlabeled_outputs member]
    exact adds.standsIn_new.standIn
  refine (register_standIns op _ s₁ plain).conseq (fun _ same => same) ?_ (fun _ _ => trivial)
  rintro _ s₂ ⟨sameGraph, bound⟩
  refine ⟨sameGraph ▸ adds, fun Q => ?_⟩
  have count : (unlabeled (s₁.graph.outputs s.graph.size)).length = op.numOutputs := by
    simp [unlabeled, adds.length_outputs_new]
  have filled : unlabeled (s₁.graph.outputs s.graph.size) ≠ [] ↔ 0 < op.numOutputs := by
    rw [← List.length_pos_iff, count]
  rw [bound Q, sameBindings, sameGraph]
  simp only [filled]

theorem Regrown.get?_of_none {producer Q : String} {s s' : PassState} (grown : Regrown producer s s')
    (absent : s.bindings.get? Q = none) : s'.bindings.get? Q = none := by
  obtain ⟨vs, first, len, -, -, -, rfl⟩ := grown
  exact Bindings.get?_rebind_of_none absent

/-- Resolving inputs leaves an unbound name unbound. -/
theorem resolveInputs_unbound (op : Operation) (Q : String) :
    Triple (fun s => s.bindings.get? Q = none) (resolveInputs op) (fun _ s => s.bindings.get? Q = none)
      (fun _ => True) := by
  refine resolveInputs_keeps op fun slot edge => Triple.of_each fun s absent =>
    (resolveInput_effect op slot edge s).conseq (fun _ same => same) ?_ (fun _ _ => trivial)
  rintro _ s' ⟨rfl | grown, -⟩
  · exact absent
  · exact grown.get?_of_none absent

/-- Resolving the inputs of an operation keeps `P` standing for `F`, and `F` fits, with the ports
nodes read before, the values of `F` it gives. -/
theorem resolveInputs_tracks {P : Operation} {F k : Nat} (op : Operation) (s : PassState)
    (standsFor : StandsFor P F s) (fitted : s.graph.Fitted F k) :
    Triple (· = s) (resolveInputs op)
      (fun hs s' => StandsFor P F s' ∧ s'.graph.Fits F k (fun p => s.graph.ReadsPort F p ∨ ⟨F, p⟩ ∈ hs) ∧
        Graph.Retagged s.graph s'.graph ∧ ∀ Q, s.bindings.get? Q = none → s'.bindings.get? Q = none)
      (fun _ => True) := by
  -- what the inputs resolved so far keep
  let Resolving (done : List (Option Handle)) (s' : PassState) : Prop :=
    StandsFor P F s' ∧ s'.graph.Fits F k (fun p => s.graph.ReadsPort F p ∨ some ⟨F, p⟩ ∈ done) ∧
      Graph.Retagged s.graph s'.graph ∧ ∀ Q, s.bindings.get? Q = none → s'.bindings.get? Q = none
  have start : Resolving [] s :=
    ⟨standsFor, fitted.congr rfl fun p => by simp, Graph.Retagged.refl _, fun _ absent => absent⟩
  unfold resolveInputs
  split
  · refine Triple.pure ?_
    rintro _ rfl
    exact ⟨standsFor, fitted.congr rfl fun p => by simp, Graph.Retagged.refl _, fun _ absent => absent⟩
  · refine Triple.bind ((Triple.mapM (fun ⟨e, i⟩ _ done => (?_ : Triple (Resolving done)
      (resolveInput op i e) (fun r => Resolving (done ++ [r])) (fun _ => True))) []).conseq
      (fun _ same => same ▸ start) (fun _ _ holds => holds) (fun _ _ => trivial))
      fun found => Triple.pure ?_
    · rintro s' ⟨standsFor', fits', retagged', unbound'⟩
      exact ⟨standsFor', fits'.congr rfl fun p => by simp [List.reduceOption_mem_iff], retagged', unbound'⟩
    · refine Triple.of_each fun s₁ ⟨standsFor₁, fits₁, retagged₁, unbound₁⟩ =>
        (resolveInput_tracks op i e s₁ standsFor₁ fits₁).conseq (fun _ same => same) ?_
          (fun _ _ => trivial)
      rintro r s₂ ⟨standsFor₂, fits₂, retagged₂, unbound₂⟩
      refine ⟨standsFor₂, fits₂.congr rfl fun p => ?_, retagged₁.trans retagged₂,
        fun Q absent => unbound₂ Q (unbound₁ Q absent)⟩
      simp [or_assoc, eq_comm]

/-! ## A walk of stand-ins -/

/-- A body source that gives no body is sound. -/
theorem bodies_sound_of_absent {bodies : Translator.BodySource}
    (absent : ∀ t ins g c, bodies t ins g c = (.ok none, c)) : bodies.Sound := fun t ins g c cacheSound => by
  rw [absent]
  exact ⟨cacheSound, fun _ found => by cases found⟩

section Unregistered

variable {env : Env} (unregistered : env.registry = [])
  (absent : ∀ t ins g c, env.bodies t ins g c = (.ok none, c))
include unregistered absent

/-- Translating an operation of another name leaves a name unbound. -/
theorem translateOperations_single_unbound {Q : String} (op : Operation) (other : op.name ≠ Q) :
    Triple (fun s => s.bindings.get? Q = none) (translateOperations env [op])
      (fun _ s => s.bindings.get? Q = none) (fun _ => True) := by
  rw [translateOperations_single]
  refine Triple.get_bind fun s unbound => ?_
  split
  · exact Triple.pure fun _ same => same ▸ unbound
  · refine Triple.bind ((resolveInputs_unbound op Q).conseq (fun _ same => same ▸ unbound)
      (fun _ _ holds => holds) (fun _ _ => trivial)) fun hs => ?_
    refine Triple.of_each fun s₁ unbound₁ => (dispatch_register_standIn unregistered absent op hs s₁).conseq
      (fun _ same => same) ?_ (fun _ _ => trivial)
    rintro _ s₂ ⟨-, bound⟩
    rw [bound, if_neg fun both => other both.1.symm]
    exact unbound₁

/-- Translating `P` while its name is unbound makes a stand-in `F` that `P` stands for, with its
declared number of outputs, which no node reads yet. -/
theorem translateOperations_single_standsFor {base : PassState} (P : Operation)
    (declared : 0 < P.numOutputs) :
    Triple (fun s => PassState.Sound base s ∧ s.bindings.get? P.name = none) (translateOperations env [P])
      (fun _ s => ∃ F, StandsFor P F s ∧ s.graph.Fitted F P.numOutputs) (fun _ => True) := by
  rw [translateOperations_single]
  refine Triple.get_bind fun s ⟨sound, unbound⟩ => ?_
  split
  · rename_i bound
    simp [Bindings.contains_iff, unbound] at bound
  · refine Triple.bind ((Triple.and (resolveInputs_sound P) (resolveInputs_unbound P P.name)).conseq
      (fun _ same => by rw [same]; exact ⟨sound, unbound⟩) (fun _ _ holds => holds) (fun _ _ => trivial))
      fun hs => ?_
    refine Triple.of_each fun s₁ ⟨⟨sound₁, valid⟩, _⟩ =>
      (dispatch_register_standIn unregistered absent P hs s₁).conseq (fun _ same => same) ?_
        (fun _ _ => trivial)
    rintro _ s₂ ⟨adds, bound⟩
    -- no node reads the new stand-in: older nodes read older nodes, and it reads existing values
    have unread : ∀ p, ¬ s₂.graph.ReadsPort s₁.graph.size p := by
      intro p reads
      rcases adds.readsPort_iff.mp reads with ⟨m, member⟩ | member
      · obtain ⟨nd, found, inNode⟩ := Graph.mem_inputs.mp member
        have older := (sound₁.graph.inputs m nd found _ inNode).1
        have inside := Graph.lt_size_of_node? found
        dsimp only at older
        omega
      · exact Nat.lt_irrefl _ (Graph.lt_size_of_hasOutput (valid _ member))
    refine ⟨s₁.graph.size, ⟨adds.standsIn_new, ?_, ?_, ?_⟩, fun c => ?_⟩
    · rw [bound, if_pos ⟨rfl, declared⟩]
    · exact List.ne_nil_of_length_pos (adds.length_outputs_new ▸ declared)
    · intro Q vs found other v member
      rw [bound, if_neg fun both => other both.1] at found
      exact Nat.ne_of_lt (Graph.lt_size_of_hasOutput (sound₁.bound_get? found v member))
    · rw [adds.length_outputs_new]
      simp [unread]

/-- Translating one more operation keeps `P` standing for `F`, and `F` fitted to `k` outputs and
the ports nodes read: a new reader of `F` reads ports that `F` grew to have. -/
theorem translateOperations_single_tracks {P : Operation} {F k : Nat} (op : Operation) :
    Triple (fun s => StandsFor P F s ∧ s.graph.Fitted F k) (translateOperations env [op])
      (fun _ s => StandsFor P F s ∧ s.graph.Fitted F k) (fun _ => True) := by
  rw [translateOperations_single]
  refine Triple.get_bind fun s ⟨standsFor, fitted⟩ => ?_
  split
  · exact Triple.pure fun _ same => same ▸ ⟨standsFor, fitted⟩
  · rename_i unbound
    refine Triple.bind (resolveInputs_tracks op s standsFor fitted) fun hs => ?_
    refine Triple.of_each fun s₁ ⟨standsFor₁, fits₁, retagged₁, _⟩ =>
      (dispatch_register_standIn unregistered absent op hs s₁).conseq (fun _ same => same) ?_
        (fun _ _ => trivial)
    rintro _ s₂ ⟨adds, bound⟩
    -- `F` is older than the new stand-in, and `op` is not `P`, whose name is bound
    have older : F < s₁.graph.size := standsFor₁.node.lt_size
    have other : P.name ≠ op.name := fun same => unbound (same ▸ standsFor.bound)
    have sameOutputs := adds.outputs_of_lt older
    refine ⟨⟨adds.standsIn_old standsFor₁.node, ?_, sameOutputs ▸ standsFor₁.opened, ?_⟩, ?_⟩
    · rw [bound, if_neg fun both => other both.1, sameOutputs]
      exact standsFor₁.entry
    · intro Q vs found otherQ
      rw [bound] at found
      split at found
      · cases found
        intro v member
        rw [node_of_mem_unlabeled_outputs member]
        exact Nat.ne_of_gt older
      · exact standsFor₁.alone Q vs found otherQ
    · refine fits₁.congr (congrArg List.length sameOutputs) fun p => ?_
      rw [adds.readsPort_iff, retagged₁.readsPort_iff]

/-- Translating operations of other names leaves a name unbound. -/
theorem translateOperations_unbound {Q : String} :
    ∀ (ops : List Operation), (∀ op ∈ ops, op.name ≠ Q) →
      Triple (fun s => s.bindings.get? Q = none) (translateOperations env ops)
        (fun _ s => s.bindings.get? Q = none) (fun _ => True)
  | [], _ => Triple.pure fun _ unbound => unbound
  | op :: ops, others => by
    rw [translateOperations_cons]
    exact Triple.bind (translateOperations_single_unbound unregistered absent op (others op List.mem_cons_self))
      fun _ => translateOperations_unbound ops fun op' member => others op' (List.mem_cons_of_mem op member)

/-- Translating any operations keeps `P` standing for `F`, and `F` fitted. -/
theorem translateOperations_tracks {P : Operation} {F k : Nat} :
    ∀ (ops : List Operation), Triple (fun s => StandsFor P F s ∧ s.graph.Fitted F k)
      (translateOperations env ops) (fun _ s => StandsFor P F s ∧ s.graph.Fitted F k) (fun _ => True)
  | [] => Triple.pure fun _ holds => holds
  | op :: ops => by
    rw [translateOperations_cons]
    exact Triple.bind (translateOperations_single_tracks unregistered absent op)
      fun _ => translateOperations_tracks ops

/-- A walk over `before`, then `P`, then `after`, where `P` is the first operation of its name and
has outputs: `P` ends standing for a stand-in `F` that has `P`'s declared number of outputs, or
one more than the highest port of it that a node reads when that is more. -/
theorem translateOperations_standsFor {base : PassState} (before : List Operation) (P : Operation)
    (after : List Operation) (first : ∀ op ∈ before, op.name ≠ P.name) (declared : 0 < P.numOutputs) :
    Triple (fun s => PassState.Sound base s ∧ s.bindings.get? P.name = none)
      (translateOperations env (before ++ P :: after))
      (fun _ s => ∃ F, StandsFor P F s ∧ s.graph.Fitted F P.numOutputs) (fun _ => True) := by
  have bodies := bodies_sound_of_absent absent
  rw [translateOperations_append, translateOperations_cons]
  refine Triple.bind ((Triple.and (translateOperations_sound env bodies before)
    (translateOperations_unbound unregistered absent before first)).conseq (fun _ holds => holds)
      (fun _ _ holds => holds) (fun _ _ => trivial)) fun _ => ?_
  exact Triple.bind (translateOperations_single_standsFor unregistered absent P declared) fun _ =>
    Triple.exists_pre fun _ => translateOperations_tracks unregistered absent after

end Unregistered

/-! ## The rest of the pass -/

/-- Binding another name leaves a name unbound, and so does failing to. -/
theorem bindName_unbound {Q name : String} (vs : List Labeled) (other : name ≠ Q) :
    Triple (fun s => s.bindings.get? Q = none) (bindName name vs) (fun _ s => s.bindings.get? Q = none)
      (fun s => s.bindings.get? Q = none) := by
  refine (bindName_spec name vs).conseq (fun _ unbound => ⟨fun b bound => ?_, unbound⟩)
    (fun _ _ holds => holds) (fun _ holds => holds)
  rw [Bindings.get?_bind bound, if_neg other.symm]
  exact unbound

/-- Freezing inputs of other names leaves a name unbound. -/
theorem freezeInputs_unbound {Q : String} (places : List Source.Place)
    (others : ∀ p ∈ places, p.name ≠ Q) :
    Triple (fun s => s.bindings.get? Q = none) (freezeInputs places) (fun _ s => s.bindings.get? Q = none)
      (fun _ => True) := by
  refine (Triple.forM fun p member => ?_).conseq (fun _ holds => holds) (fun _ _ holds => holds)
    (fun _ _ => trivial)
  split
  · exact Triple.pure fun _ holds => holds
  · refine Triple.get_bind fun s unbound => ?_
    split
    exact Triple.set_bind_state ((bindName_unbound _ (others p member)).conseq
      (fun _ same => by rw [same]; exact unbound) (fun _ _ holds => holds) (fun _ holds => holds))

/-- Opening inputs of other names leaves a name unbound. -/
theorem openInputs_unbound {Q : String} (options : Options) (places : List Source.Place)
    (others : ∀ p ∈ places, p.name ≠ Q) :
    Triple (fun s => s.bindings.get? Q = none) (openInputs options places)
      (fun _ s => s.bindings.get? Q = none) (fun _ => True) := by
  refine (Triple.forM fun p member => ?_).conseq (fun _ holds => holds) (fun _ _ holds => holds)
    (fun _ _ => trivial)
  split
  · exact Triple.pure fun _ holds => holds
  · refine Triple.get_bind fun s unbound => ?_
    split
    · exact Triple.pure fun _ same => same ▸ unbound
    · exact Triple.set_bind_state ((bindName_unbound _ (others p member)).conseq
        (fun _ same => by rw [same]; exact unbound) (fun _ _ holds => holds) (fun _ holds => holds))

/-- Adding results keeps the stand-in `F` and keeps it fitted: a result reads a bound value, which
is an output `F` has when it is on `F`. -/
theorem assembleResults_fitted {P : Operation} {F k : Nat} {base : PassState} (src : Source.Graph) :
    Triple (fun s => PassState.Sound base s ∧ s.graph.StandsIn F P ∧ s.graph.Fitted F k)
      (assembleResults src) (fun _ s => s.graph.StandsIn F P ∧ s.graph.Fitted F k) (fun _ => True) := by
  unfold assembleResults
  refine Triple.get_bind fun s ⟨sound, standsIn, fitted⟩ => ?_
  let Kept (g : Graph) (_ : List Nat) : Prop := s.graph.Extends g ∧ g.StandsIn F P ∧ g.Fitted F k
  have add : ∀ g acc (v : Handle) name, Kept g acc → (∃ e ∈ s.bindings.entries, ∃ w ∈ e.2, w.handle = v) →
      Kept (g.addResult v name).1 (acc ++ [(g.addResult v name).2]) := by
    rintro g acc v name ⟨grows, standsIn', fitted'⟩ ⟨e, entry, w, member, rfl⟩
    have valid := grows.hasOutput (sound.bound e entry w member)
    rw [Graph.addResult_eq]
    refine ⟨grows.trans (Graph.extends_addNode _ _ _ _), standsIn'.addNode _ _ _ _,
      fitted'.addNode standsIn'.lt_size fun p read => ?_⟩
    rw [List.mem_singleton] at read
    obtain ⟨nd, found, inside⟩ := Graph.hasOutput_iff.mp valid
    rw [← read] at found inside
    simpa [Graph.length_outputs, found] using inside
  split
  · exact Triple.pure fun _ same => same ▸ ⟨standsIn, fitted⟩
  · refine Triple.liftExcept_bind (fun _ _ => trivial) fun ⟨g, rs⟩ declared => ?_
    have kept := declaredResults_keeps Kept add ⟨Graph.Extends.refl _, standsIn, fitted⟩ declared
    refine Triple.set_bind_state ?_
    split
    · exact Triple.pure fun _ same => same ▸ kept.2
    · exact Triple.set fun _ _ => (terminalResults_keeps (b := s.bindings) Kept add kept).2

/-- Restoring parameter names, none of which is `F`, keeps the stand-in and its count. -/
theorem restoreParameterNames_standsIn {g : Graph} {F : Nat} {P : Operation} (standsIn : g.StandsIn F P)
    (params : List Nat) (unlisted : F ∉ params) (registry : List (String × String)) :
    (restoreParameterNames g params registry).StandsIn F P ∧
      ((restoreParameterNames g params registry).outputs F).length = (g.outputs F).length := by
  refine foldl_invariant (fun g' => g'.StandsIn F P ∧ (g'.outputs F).length = (g.outputs F).length) ?_ g
    ⟨standsIn, rfl⟩
  rintro g' p member ⟨standsIn', count⟩
  dsimp only
  split
  · exact ⟨standsIn'.modifyNode fun same => absurd (same ▸ member) unlisted,
      (Graph.length_outputs_modifyNode fun _ => by simp).trans count⟩
  · exact ⟨standsIn'.modifyNode fun _ _ => ⟨rfl, rfl⟩,
      (Graph.length_outputs_modifyNode fun _ => by simp).trans count⟩

/-- Restoring result names, none of which is `F`, keeps the stand-in and its count. -/
theorem restoreResultNames_standsIn {g : Graph} {F : Nat} {P : Operation} (standsIn : g.StandsIn F P)
    (results : List Nat) (unlisted : F ∉ results) (registry : List (String × String)) :
    (restoreResultNames g results registry).StandsIn F P ∧
      ((restoreResultNames g results registry).outputs F).length = (g.outputs F).length := by
  refine foldl_invariant (fun g' => g'.StandsIn F P ∧ (g'.outputs F).length = (g.outputs F).length) ?_ g
    ⟨standsIn, rfl⟩
  rintro g' r member ⟨standsIn', count⟩
  dsimp only
  split
  · exact ⟨standsIn', count⟩
  · split
    · rename_i v _ name _
      refine ⟨(standsIn'.modifyNode fun same => absurd (same ▸ member) unlisted).modifyNode
        fun _ _ => ⟨rfl, rfl⟩, ?_⟩
      have renamed := Graph.length_outputs_modifyNode (g := g') (m := r) (n := F)
        (f := fun nd => { nd with name := name }) fun _ => rfl
      rw [Graph.modifyTensor_eq_modifyNode, Graph.length_outputs_modifyNode fun _ => by simp, renamed,
        count]
    · exact ⟨standsIn'.modifyNode fun _ _ => ⟨rfl, rfl⟩,
        (Graph.length_outputs_modifyNode fun _ => by simp).trans count⟩

/-- Taking names back and ordering the parameters and results keeps the stand-in and keeps it
fitted: it is neither a parameter nor a result, and names change no count and no input. -/
theorem finishNames_fitted {P : Operation} {F k : Nat} {base : PassState} (src : Source.Graph) :
    Triple (fun s => PassState.Sound base s ∧ s.graph.StandsIn F P ∧ s.graph.Fitted F k)
      (finishNames src) (fun _ s => s.graph.StandsIn F P ∧ s.graph.Fitted F k) (fun _ => True) := by
  unfold finishNames
  refine Triple.get_bind fun s ⟨sound, standsIn, fitted⟩ => ?_
  extract_lets parametersNamed named nameOf
  -- the stand-in is of neither kind
  have kind : ∀ {op : Op}, s.graph.HasOp F op → op.isFramework = true := by
    rintro op ⟨nd, found, rfl⟩
    obtain ⟨nd', found', -, isStandIn⟩ := standsIn
    rw [found] at found'
    cases found'
    rw [isStandIn]
    rfl
  have notParameter : F ∉ s.parameters := fun listed => by
    simpa [Op.isFramework] using kind (sound.parameters F listed)
  have notResult : F ∉ s.results := fun listed => by
    simpa [Op.isFramework] using kind (sound.results F listed)
  have first : parametersNamed.StandsIn F P ∧
      (parametersNamed.outputs F).length = (s.graph.outputs F).length := by
    unfold parametersNamed
    split
    · split
      · exact ⟨standsIn, rfl⟩
      · exact restoreParameterNames_standsIn standsIn _ notParameter _
    · exact ⟨standsIn, rfl⟩
  have second : named.StandsIn F P ∧ (named.outputs F).length = (s.graph.outputs F).length := by
    unfold named
    split
    · split
      · exact first
      · obtain ⟨standsIn', count⟩ := restoreResultNames_standsIn first.1 s.results notResult _
        exact ⟨standsIn', count.trans first.2⟩
    · exact first
  have retagged : Graph.Retagged s.graph named := by
    have renamed : Graph.Retagged s.graph parametersNamed := by
      unfold parametersNamed
      split
      · split
        · exact Graph.Retagged.refl _
        · exact retagged_restoreParameterNames _ _ _
      · exact Graph.Retagged.refl _
    unfold named
    split
    · split
      · exact renamed
      · exact renamed.trans (retagged_restoreResultNames _ _ _)
    · exact renamed
  refine Triple.liftExcept_bind (fun _ _ => trivial) fun ps _ => ?_
  refine Triple.liftExcept_bind (fun _ _ => trivial) fun rs _ => ?_
  exact Triple.set fun _ _ => ⟨second.1, fitted.congr second.2 fun _ => retagged.readsPort_iff⟩

/-- A pass with no translator and no library body, over a source in which `P` is the first
operation of its name, has outputs, and shares its name with no input: when it succeeds, the
stand-in of `P` in the model has `P`'s declared number of outputs, or one more than the highest
port of it that a node reads when that is more. -/
theorem lowerGraph_standIn_fitted {env : Env} (unregistered : env.registry = [])
    (absent : ∀ t ins g c, env.bodies t ins g c = (.ok none, c)) (src : Source.Graph) (name : String)
    {cache : BodyCache} (cacheSound : cache.Sound) (before after : List Operation) (P : Operation)
    (ops : src.operations = before ++ P :: after) (first : ∀ op ∈ before, op.name ≠ P.name)
    (unplaced : ∀ place ∈ src.inputs, place.name ≠ P.name) (declared : 0 < P.numOutputs)
    {M : Model} (lowered : ((lowerGraph env src name).run cache).1 = .ok M) :
    ∃ F, M.graph.StandsIn F P ∧ M.graph.Fitted F P.numOutputs := by
  have bodies := bodies_sound_of_absent absent
  unfold lowerGraph at lowered
  extract_lets pass at lowered
  let start : PassState := { cache := cache }
  -- the inputs bind only their own names; `P` then makes its stand-in, which stays fitted
  have passed : Triple (· = start) pass (fun M _ => ∃ F, M.graph.StandsIn F P ∧ M.graph.Fitted F P.numOutputs)
      (fun _ => True) := by
    have quiet {pre post : PassState → Prop} {x : PassM Unit} (step : Triple pre x (fun _ => post)
        (PassState.Sound start)) : Triple pre x (fun _ => post) (fun _ => True) :=
      step.conseq (fun _ holds => holds) (fun _ _ holds => holds) (fun _ _ => trivial)
    refine Triple.bind ((Triple.and (quiet (freezeInputs_sound src.inputs))
      (freezeInputs_unbound src.inputs unplaced)).conseq
        (fun _ same => by rw [same]; exact ⟨PassState.Sound.start cacheSound, rfl⟩)
        (fun _ _ holds => holds) (fun _ _ => trivial)) fun _ => ?_
    refine Triple.bind ((Triple.and (quiet (openInputs_sound env.options src.inputs))
      (openInputs_unbound env.options src.inputs unplaced)).conseq (fun _ holds => holds)
        (fun _ _ holds => holds) (fun _ _ => trivial)) fun _ => ?_
    have translated : Triple (fun s => PassState.Sound start s ∧ s.bindings.get? P.name = none)
        (translateOperations env (before ++ P :: after))
        (fun _ s => ∃ F, PassState.Sound start s ∧ s.graph.StandsIn F P ∧ s.graph.Fitted F P.numOutputs)
        (fun _ => True) :=
      (Triple.and (quiet (translateOperations_sound env bodies _))
        (translateOperations_standsFor unregistered absent before P after first declared)).conseq
          (fun _ holds => ⟨holds.1, holds⟩)
          (fun _ _ ⟨sound, F, standsFor, fitted⟩ => ⟨F, sound, standsFor.node, fitted⟩) (fun _ _ => trivial)
    rw [ops]
    refine Triple.bind translated fun _ => ?_
    refine Triple.bind (Triple.exists_pre fun F => (Triple.and (quiet (assembleResults_sound src))
      (assembleResults_fitted (F := F) src)).conseq (fun _ holds => ⟨holds.1, holds⟩)
        (fun _ _ holds => holds) (fun _ _ => trivial)) fun _ => ?_
    refine Triple.bind (Triple.exists_pre fun F => finishNames_fitted (P := P) (F := F) src) fun _ => ?_
    exact Triple.get_bind fun _ holds => Triple.pure fun _ same => same ▸ holds
  have ended := passed start rfl
  simp only [StateT.run_bind, StateT.run_get, pure_bind] at lowered
  revert ended lowered
  rcases (pass.run).run start with ⟨_ | M', s⟩
  · exact fun _ failed => by cases failed
  · exact fun ended same => by cases same; exact ended

/-! ## Sessions over libraries without functions -/

/-- A session over a library without functions has no body to give. -/
theorem env_bodies_of_functions_nil {s : Session} (bare : s.library.functions = [])
    (identity : String) (inputs : List Handle) (g : Graph) (c : BodyCache) :
    s.env.bodies identity inputs g c = (.ok none, c) :=
  bodySource_absent _ (by simp [Source.Graph.hasFunction, bare]) inputs g c

/-- An outcome that succeeds is `.ok a` for some `a`; each such `a` is then all there is to check. -/
theorem exists_ok_and {ε α : Type} {r : Except ε α} {P : α → Prop} (ok : r.toBool = true)
    (each : ∀ a, r = .ok a → P a) : ∃ a, r = .ok a ∧ P a := by
  rcases r with e | a
  · simp [Except.toBool] at ok
  · exact ⟨a, rfl, each a rfl⟩

/-- A session with no translator, over a library without functions in which `P` is the first
operation of its name, has outputs, and shares its name with no input. Once `P` is translated,
`P` stands for a stand-in `F` in every state the walk reaches, and a data edge of any later
operation that reads port `p` of `P` through `P`'s own entry resolves to port `p` of `F`, growing
`F` to `p + 1` outputs when it has fewer, as long as a node can hold `p + 1` outputs. A conversion that
succeeds leaves `F` with `P`'s declared number of outputs, or one more than the highest port of it
that a node reads when that is more. -/
theorem standIn_reads_resolve_to_ports (src : Source.Graph) (options : Options)
    (before after : List Operation) (P : Operation) (bare : src.functions = [])
    (ops : src.operations = before ++ P :: after) (first : ∀ op ∈ before, op.name ≠ P.name)
    (unplaced : ∀ place ∈ src.inputs, place.name ≠ P.name) (declared : 0 < P.numOutputs) :
    (∀ (base : PassState) (mid : List Operation),
      Triple (fun s => PassState.Sound base s ∧ s.bindings.get? P.name = none)
        (translateOperations (Session.env ⟨src, [], options, {}, none⟩) (before ++ P :: mid))
        (fun _ s => ∃ F, StandsFor P F s ∧ ∀ op slot edge p, ReadsThrough P p op slot edge s →
          p + 1 ≤ Graph.maxOutputs → ∃ s', (resolveInput op slot edge).run.run s = (.ok (some ⟨F, p⟩), s') ∧
            StandsFor P F s' ∧ (s'.graph.outputs F).length = max (s.graph.outputs F).length (p + 1))
        (fun _ => True)) ∧
    ∀ M, (Session.convertedModel ⟨src, [], options, {}, none⟩).1 = .ok M →
      ∃ F, M.graph.StandsIn F P ∧ M.graph.Fitted F P.numOutputs := by
  have absent := env_bodies_of_functions_nil (s := ⟨src, [], options, {}, none⟩) bare
  refine ⟨fun base mid => ?_, fun M converted => ?_⟩
  · refine (translateOperations_standsFor rfl absent before P mid first declared).conseq
      (fun _ holds => holds) ?_ (fun _ _ => trivial)
    rintro _ s ⟨F, standsFor, -⟩
    exact ⟨F, standsFor, fun op slot edge p through room => resolveInput_reads_standIn standsFor through room⟩
  · unfold Session.convertedModel at converted
    dsimp only at converted
    split at converted
    · rename_i m c ran
      cases converted
      exact lowerGraph_standIn_fitted rfl absent src options.modelName
        (show BodyCache.Sound {} from fun _ member => absurd member List.not_mem_nil) before after P ops
        first unplaced declared (by rw [ran])
    · cases converted

/-- `E` reads ports 3 and 1 of `D`, of an unknown type with one declared output: the conversion
succeeds, with `D` standing for a node fitted to its readers. -/
theorem standIn_reads_resolve_to_ports_of_sink :
    ∃ M, (Session.convertedModel
      ⟨{ operations := [{ name := "D", opType := "Mystery" },
          { name := "E", opType := "Sink",
            inputs := [{ producer := "D", index := 3 }, { producer := "D", index := 1 }] }]
         outputs := [⟨"E", .all⟩] }, [], {}, {}, none⟩).1 = .ok M ∧
      ∃ F, M.graph.StandsIn F { name := "D", opType := "Mystery" } ∧ M.graph.Fitted F 1 :=
  exists_ok_and (by decide +kernel) fun M converted =>
    (standIn_reads_resolve_to_ports _ {} [] [_] _ (by rfl) (by rfl) (by simp) (by simp)
      (by decide)).2 M converted

/-- Reading the last port a 64-bit index can name fails: one past it wraps to zero, so the
stand-in does not grow, and the port is out of range. -/
theorem standIn_read_of_last_port_fails :
    ((Session.convertedModel
      ⟨{ operations := [{ name := "u", opType := "Mystery" },
          { name := "t", opType := "Sink", inputs := [{ producer := "u", index := 2 ^ 64 - 1 }] }] },
       [], {}, {}, none⟩).1.map fun _ => ()).mapError LowerError.message =
      .error ("cannot prepare input 0 of operation 't', expected producer 'u' port " ++
        "18446744073709551615: output port is out of range") := by
  decide +kernel

end Lowering.Pass
