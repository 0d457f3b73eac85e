import Lowering.Pass.Assemble
import Lowering.Pass.BodyCache
import Lowering.Pass.Splice
import Lowering.Proofs.WellFormed

/-! # Failure labels of stand-ins

A stand-in records in its `failure` why the translator of its operation failed, or nothing when
no translator was tried. `Graph.relabel T φ` passes the records of the stand-ins of operation
type `T` through `φ` and changes nothing else: the number of nodes, every node's name, inputs and
outputs, and every other operation stay.

No step of a pass reads these records. So each read of a graph gives the same answer after
relabeling (`tensor_relabel`, `hasOutput_relabel`, `consumerCount_relabel`, `topoOrder_relabel`),
and each edit of a relabeled graph gives the relabeled edit (`setName_relabel`, `addNode_relabel`,
`splice_relabel`, `declaredResults_relabel`, `terminalResults_relabel`, ...). The bodies of a
cache are relabeled alike (`BodyCache.relabel`); looking one up and storing one commute with it.
-/

namespace Lowering.Ir

open Lowering.Pass

variable (T : String) (φ : Option String → Option String)

/-- The operation with the failure record of a stand-in of type `T` passed through `φ`. -/
def Op.relabel : Op → Op
  | .parameter => .parameter
  | .constant c => .constant c
  | .result => .result
  | .op t a => .op t a
  | .framework t a f => .framework t a (if t = T then φ f else f)

/-- The node with its operation relabeled. -/
def Node.relabel (nd : Node) : Node := { nd with op := nd.op.relabel T φ }

/-- The graph with every operation relabeled. -/
def Graph.relabel (g : Graph) : Graph := { nodes := g.nodes.map (Node.relabel T φ) }

/-- The model with its graph relabeled. -/
def Model.relabel (m : Model) : Model := { m with graph := m.graph.relabel T φ }

variable {T φ}

namespace Op

@[simp] theorem isFramework_relabel (o : Op) : (o.relabel T φ).isFramework = o.isFramework := by
  cases o <;> rfl

@[simp] theorem isResult_relabel (o : Op) : (o.relabel T φ).isResult = o.isResult := by
  cases o <;> rfl

@[simp] theorem isParameter_relabel (o : Op) : (o.relabel T φ).isParameter = o.isParameter := by
  cases o <;> rfl

theorem relabel_framework_self (attrs : Json.Fields) (failure : Option String) :
    (Op.framework T attrs failure).relabel T φ = .framework T attrs (φ failure) := by
  simp [Op.relabel]

/-- Only the stand-ins of type `T` change. -/
theorem relabel_framework_of_ne {t : String} (other : t ≠ T) (attrs : Json.Fields)
    (failure : Option String) : (Op.framework t attrs failure).relabel T φ = .framework t attrs failure := by
  simp [Op.relabel, other]

end Op

namespace Node

@[simp] theorem relabel_name (nd : Node) : (nd.relabel T φ).name = nd.name := rfl

@[simp] theorem relabel_op (nd : Node) : (nd.relabel T φ).op = nd.op.relabel T φ := rfl

@[simp] theorem relabel_outputs (nd : Node) : (nd.relabel T φ).outputs = nd.outputs := rfl

@[simp] theorem relabel_inputs (nd : Node) : (nd.relabel T φ).inputs = nd.inputs := rfl

end Node

@[simp] theorem Model.relabel_name (m : Model) : (m.relabel T φ).name = m.name := rfl

@[simp] theorem Model.relabel_graph (m : Model) : (m.relabel T φ).graph = m.graph.relabel T φ := rfl

@[simp] theorem Model.relabel_parameters (m : Model) : (m.relabel T φ).parameters = m.parameters :=
  rfl

@[simp] theorem Model.relabel_results (m : Model) : (m.relabel T φ).results = m.results := rfl

namespace Graph

variable (g : Graph)

theorem ext_node? {g g' : Graph} (same : ∀ n, g.node? n = g'.node? n) : g = g' := by
  cases g
  cases g'
  congr
  exact Array.ext_getElem? same

/-! ## Reads -/

@[simp] theorem size_relabel : (g.relabel T φ).size = g.size := by
  simp [relabel, size]

@[simp] theorem node?_relabel (n : Nat) :
    (g.relabel T φ).node? n = (g.node? n).map (Node.relabel T φ) := by
  simp [relabel, node?]

@[simp] theorem tensor_relabel (h : Handle) : (g.relabel T φ).tensor h = g.tensor h := by
  unfold tensor
  rw [node?_relabel]
  cases g.node? h.node <;> rfl

@[simp] theorem hasOutput_relabel (h : Handle) : (g.relabel T φ).hasOutput h = g.hasOutput h := by
  unfold hasOutput
  rw [node?_relabel]
  cases g.node? h.node <;> rfl

@[simp] theorem outputs_relabel (n : Nat) : (g.relabel T φ).outputs n = g.outputs n := by
  unfold outputs
  rw [node?_relabel]
  cases g.node? n <;> rfl

@[simp] theorem inputs_relabel (n : Nat) : (g.relabel T φ).inputs n = g.inputs n := by
  unfold inputs
  rw [node?_relabel]
  cases g.node? n <;> rfl

@[simp] theorem inputValue_relabel (n : Nat) : (g.relabel T φ).inputValue n = g.inputValue n := by
  simp [inputValue]

@[simp] theorem consumerCount_relabel (h : Handle) :
    (g.relabel T φ).consumerCount h = g.consumerCount h := by
  simp only [consumerCount, relabel]
  rw [Array.foldl_map]
  rfl

/-- A read of a node through `Option.elim` sees the node relabeled. -/
@[simp] theorem elim_node?_relabel {α : Type} (n : Nat) (a : α) (f : Node → α) :
    ((g.relabel T φ).node? n).elim a f = (g.node? n).elim a (fun nd => f (nd.relabel T φ)) := by
  rw [node?_relabel]
  cases g.node? n <;> rfl

@[simp] theorem successors_relabel : (g.relabel T φ).successors = g.successors := by
  simp only [successors, size_relabel, inputs_relabel]

@[simp] theorem searchOrder_relabel : (g.relabel T φ).searchOrder = g.searchOrder := by
  simp only [searchOrder, successors_relabel, size_relabel]

@[simp] theorem forwardIn_relabel (order : List Nat) :
    (g.relabel T φ).forwardIn order = g.forwardIn order := by
  simp only [forwardIn, size_relabel, inputs_relabel]

@[simp] theorem topoOrder_relabel : (g.relabel T φ).topoOrder = g.topoOrder := by
  simp only [topoOrder, searchOrder_relabel, forwardIn_relabel]

/-! ## Edits

Each edit of a relabeled graph is the relabeled edit. An edit that adds a node of a given
operation adds it relabeled. -/

/-- An edit of one node that commutes with relabeling the node. -/
theorem modifyNode_relabel (m : Nat) (f : Node → Node)
    (commutes : ∀ nd, f (nd.relabel T φ) = (f nd).relabel T φ) :
    (g.relabel T φ).modifyNode m f = (g.modifyNode m f).relabel T φ := by
  refine ext_node? fun n => ?_
  simp only [node?_modifyNode, node?_relabel]
  split
  · cases g.node? n <;> simp [commutes]
  · rfl

@[simp] theorem setName_relabel (name : String) (n : Nat) :
    (g.relabel T φ).setName name n = (g.setName name n).relabel T φ :=
  modifyNode_relabel g n _ fun _ => rfl

@[simp] theorem growOutputs_relabel (n len : Nat) :
    (g.relabel T φ).growOutputs n len = (g.growOutputs n len).relabel T φ := by
  refine modifyNode_relabel g n _ fun nd => ?_
  by_cases grows : nd.outputs.length < len <;> simp [grows, Node.relabel]

@[simp] theorem modifyTensor_relabel (v : Handle) (f : TensorInfo → TensorInfo) :
    (g.relabel T φ).modifyTensor v f = (g.modifyTensor v f).relabel T φ := by
  rw [modifyTensor_eq_modifyNode, modifyTensor_eq_modifyNode]
  exact modifyNode_relabel g v.node _ fun _ => rfl

@[simp] theorem rename_relabel (n : Nat) (name : String) :
    (g.relabel T φ).modifyNode n (fun nd => { nd with name := name }) =
      (g.modifyNode n fun nd => { nd with name := name }).relabel T φ :=
  modifyNode_relabel g n _ fun _ => rfl

@[simp] theorem clearNames_relabel : (g.relabel T φ).clearNames = g.clearNames.relabel T φ := by
  simp only [clearNames, relabel, Array.map_map]
  rfl

@[simp] theorem rollback_relabel (mark : Nat) :
    (g.relabel T φ).rollback mark = (g.rollback mark).relabel T φ := by
  refine ext_node? fun n => ?_
  simp only [node?_rollback, node?_relabel]
  split <;> rfl

theorem addNode_relabel (name : String) (o : Op) (ins : List Handle) (outs : List TensorInfo) :
    (g.relabel T φ).addNode name (o.relabel T φ) ins outs =
      ((g.addNode name o ins outs).1.relabel T φ, (g.addNode name o ins outs).2) := by
  simp [addNode, relabel, size]
  rfl

/-- Adding a node whose operation relabeling keeps. -/
theorem addNode_relabel_of_kept (name : String) {o : Op} (kept : o.relabel T φ = o)
    (ins : List Handle) (outs : List TensorInfo) :
    (g.relabel T φ).addNode name o ins outs =
      ((g.addNode name o ins outs).1.relabel T φ, (g.addNode name o ins outs).2) := by
  have added := addNode_relabel (T := T) (φ := φ) g name o ins outs
  rwa [kept] at added

@[simp] theorem addOpNode_relabel (name t : String) (attrs : Json.Fields) (ins : List Handle)
    (outs : List TensorInfo) :
    (g.relabel T φ).addNode name (.op t attrs) ins outs =
      ((g.addNode name (.op t attrs) ins outs).1.relabel T φ, (g.addNode name (.op t attrs) ins outs).2) :=
  addNode_relabel_of_kept g name rfl ins outs

@[simp] theorem addParameter_relabel (t : ElementType) (s : Shape) :
    (g.relabel T φ).addParameter t s =
      ((g.addParameter t s).1.relabel T φ, (g.addParameter t s).2) := by
  simp only [addParameter, addNode_relabel_of_kept g "" (o := .parameter) rfl]

@[simp] theorem addConstant_relabel (c : Constant) :
    (g.relabel T φ).addConstant c = ((g.addConstant c).1.relabel T φ, (g.addConstant c).2) := by
  simp only [addConstant, addNode_relabel_of_kept g "" (o := .constant c) rfl]

@[simp] theorem addResult_relabel (v : Handle) (name : String) :
    (g.relabel T φ).addResult v name = ((g.addResult v name).1.relabel T φ, (g.addResult v name).2) := by
  simp only [addResult, tensor_relabel, addNode_relabel_of_kept g name (o := .result) rfl]

/-- A graph that relabeling keeps has each of its nodes kept. -/
theorem relabel_node_of_fixed {g : Graph} (fixed : g.relabel T φ = g) {nd : Node} (member : nd ∈ g.nodes) :
    nd.relabel T φ = nd := by
  obtain ⟨i, bound, rfl⟩ := Array.mem_iff_getElem.mp member
  have kept : (g.relabel T φ).node? i = g.node? i := by rw [fixed]
  rw [node?_relabel] at kept
  simp only [node?, Array.getElem?_eq_getElem bound, Option.map_some] at kept
  exact Option.some.inj kept

/-! ## Folds over a graph -/

/-- A fold that carries a graph beside other data, with a step that commutes with relabeling. -/
theorem foldl_relabel {α β : Type} (step : Graph × α → β → Graph × α)
    (commutes : ∀ g a x, step (g.relabel T φ, a) x = ((step (g, a) x).1.relabel T φ, (step (g, a) x).2))
    (xs : List β) (g : Graph) (a : α) :
    xs.foldl step (g.relabel T φ, a) = ((xs.foldl step (g, a)).1.relabel T φ, (xs.foldl step (g, a)).2) := by
  induction xs generalizing g a with
  | nil => rfl
  | cons x rest inductionHypothesis =>
    rw [List.foldl_cons, List.foldl_cons, commutes]
    exact inductionHypothesis _ _

end Graph

end Lowering.Ir

namespace Lowering.Pass

open Lowering.Ir
open Lowering.Source (Sink)

/-- The cache with every stored body relabeled. -/
def BodyCache.relabel (T : String) (φ : Option String → Option String) (c : BodyCache) : BodyCache :=
  { c with entries := c.entries.map fun e => (e.1, e.2.relabel T φ) }

variable {T : String} {φ : Option String → Option String}

/-! ## Splicing a relabeled body -/

@[simp] theorem Relocation.relocate_relabel (r : Relocation) (body : Graph) :
    r.relocate (body.relabel T φ) = r.relocate body := by
  funext v
  unfold Relocation.relocate
  simp only [Graph.elim_node?_relabel, Node.relabel_name]

@[simp] theorem adoptType_relabel (body g : Graph) (pair : Nat × Handle) :
    adoptType (body.relabel T φ) (g.relabel T φ) pair = (adoptType body g pair).relabel T φ := by
  unfold adoptType
  simp only [Graph.tensor_relabel, Graph.elim_node?_relabel, Node.relabel_op, Op.isParameter_relabel]
  split <;> simp

theorem copyNodes_relabel (body : Graph) :
    ∀ order g r, copyNodes (body.relabel T φ) order (g.relabel T φ, r) =
      ((copyNodes body order (g, r)).1.relabel T φ, (copyNodes body order (g, r)).2)
  | [], _, _ => rfl
  | n :: rest, g, r => by
    simp only [copyNodes, Graph.node?_relabel]
    cases body.node? n with
    | none => exact copyNodes_relabel body rest g r
    | some nd =>
      simp only [Option.map_some, Node.relabel_op, Op.isResult_relabel, Node.relabel_inputs,
        Relocation.relocate_relabel]
      split
      · exact copyNodes_relabel body rest g r
      · cases nd.inputs.mapM (r.relocate body) with
        | error e => rfl
        | ok ins =>
          simp only [Node.relabel_name, Node.relabel_outputs, Graph.addNode_relabel]
          exact copyNodes_relabel body rest _ _

theorem splice_relabel (g : Graph) (body : Model) (opType : String) (inputs : List Handle) :
    (g.relabel T φ).splice (body.relabel T φ) opType inputs =
      ((g.splice body opType inputs).1.relabel T φ, (g.splice body opType inputs).2) := by
  unfold Graph.splice
  simp only [Model.relabel_parameters, Model.relabel_results, Model.relabel_graph,
    Graph.topoOrder_relabel, Graph.inputValue_relabel, Graph.elim_node?_relabel, Node.relabel_name,
    Relocation.relocate_relabel]
  split
  · rfl
  have adopted : (body.parameters.zip inputs).foldl (adoptType (body.graph.relabel T φ)) (g.relabel T φ) =
      ((body.parameters.zip inputs).foldl (adoptType body.graph) g).relabel T φ :=
    List.foldl_hom (Graph.relabel T φ) fun g pair => adoptType_relabel body.graph g pair
  rw [adopted]
  split
  · rfl
  rw [copyNodes_relabel]
  rcases copyNodes body.graph _ _ with ⟨copied, _ | r⟩ <;> rfl

/-! ## Results and names -/

theorem declareSink_relabel (src : Source.Graph) (b : Bindings) (g : Graph) (acc : List Nat) (k : Sink) :
    declareSink src b (g.relabel T φ) acc k =
      (declareSink src b g acc k).map fun p => (p.1.relabel T φ, p.2) := by
  unfold declareSink
  split
  · cases b.require k.name with
    | error e => rfl
    | ok vs =>
      simp only [bind, Except.bind, pure, Except.pure, Except.map]
      congr 1
      exact Graph.foldl_relabel _ (fun g a x => by simp [Graph.addResult_relabel]) _ g acc
  · rename_i p _
    cases b.require k.name with
    | error e => rfl
    | ok vs =>
      simp only [bind, Except.bind, Graph.addResult_relabel]
      cases vs[p]? <;> rfl
  · -- the fed operation, its input edge, the producer's values and the output index are looked
    -- up alike; only the result added at the end sees the graph
    dsimp -zeta only
    extract_lets afterOp₁ afterOp₂
    have afterOp : ∀ op, afterOp₁ op = (afterOp₂ op).map fun p => (p.1.relabel T φ, p.2) := by
      intro op
      dsimp -zeta only [afterOp₁, afterOp₂]
      extract_lets afterEdge₁ afterEdge₂
      have afterEdge : ∀ edge, afterEdge₁ edge = (afterEdge₂ edge).map fun p => (p.1.relabel T φ, p.2) := by
        intro edge
        dsimp -zeta only [afterEdge₁, afterEdge₂]
        cases b.require edge.producer with
        | error e => rfl
        | ok vs =>
          dsimp -zeta only [bind, Except.bind]
          extract_lets afterIndex₁ afterIndex₂
          have afterIndex : ∀ out, afterIndex₁ out =
              (afterIndex₂ out).map fun p => (p.1.relabel T φ, p.2) := by
            intro out
            dsimp only [afterIndex₁, afterIndex₂]
            cases vs[out]? with
            | none => rfl
            | some v =>
              simp only [Graph.addResult_relabel]
              rfl
          split
          · split
            · exact afterIndex _
            · rfl
            · rfl
          · exact afterIndex _
      split
      · split
        · rfl
        · exact afterEdge _
      · rfl
    split
    · exact afterOp _
    · rfl

theorem declaredResults_relabel (src : Source.Graph) (b : Bindings) (g : Graph) :
    declaredResults src b (g.relabel T φ) =
      (declaredResults src b g).map fun p => (p.1.relabel T φ, p.2) := by
  unfold declaredResults
  -- one declared output after another, from any graph and list of results
  suffices folded : ∀ (ks : List Sink) (g : Graph) (acc : List Nat),
      ks.foldlM (fun p k => declareSink src b p.1 p.2 k) (g.relabel T φ, acc) =
        (ks.foldlM (fun p k => declareSink src b p.1 p.2 k) (g, acc)).map
          fun p : Graph × List Nat => (p.1.relabel T φ, p.2) from folded src.outputs g []
  intro ks
  induction ks with
  | nil => intro g acc; rfl
  | cons k rest inductionHypothesis =>
    intro g acc
    simp only [List.foldlM_cons, declareSink_relabel]
    cases declareSink src b g acc k with
    | error e => rfl
    | ok p => exact inductionHypothesis p.1 p.2

theorem terminalResults_relabel (b : Bindings) (g : Graph) :
    terminalResults b (g.relabel T φ) =
      ((terminalResults b g).1.relabel T φ, (terminalResults b g).2) := by
  unfold terminalResults
  dsimp only
  rw [Graph.foldl_relabel]
  rintro g ⟨seen, acc⟩ ⟨h, i⟩
  dsimp only
  split
  · rfl
  · simp only [Graph.elim_node?_relabel, Node.relabel_op, Op.isResult_relabel,
      Graph.consumerCount_relabel, Node.relabel_name]
    split
    · rfl
    · simp only [Graph.addResult_relabel]

theorem restoreParameterNames_relabel (g : Graph) (params : List Nat)
    (registry : List (String × String)) :
    restoreParameterNames (g.relabel T φ) params registry =
      (restoreParameterNames g params registry).relabel T φ := by
  unfold restoreParameterNames
  refine List.foldl_hom (Graph.relabel T φ) fun g p => ?_
  simp only [Graph.outputs_relabel, Graph.tensor_relabel]
  split
  · exact Graph.setName_relabel g _ p
  · exact Graph.modifyTensor_relabel g _ _

theorem restoreResultNames_relabel (g : Graph) (results : List Nat)
    (registry : List (String × String)) :
    restoreResultNames (g.relabel T φ) results registry =
      (restoreResultNames g results registry).relabel T φ := by
  unfold restoreResultNames
  refine List.foldl_hom (Graph.relabel T φ) fun g r => ?_
  simp only [Graph.inputValue_relabel, Graph.tensor_relabel]
  split
  · rfl
  · split
    · simp only [Graph.rename_relabel, Graph.modifyTensor_relabel]
    · exact Graph.modifyTensor_relabel g _ _

/-! ## Bodies in the cache -/

@[simp] theorem Signature.ofCall_relabel (identity : String) (inputs : List Handle) (g : Graph) :
    Signature.ofCall identity inputs (g.relabel T φ) = Signature.ofCall identity inputs g := by
  simp [Signature.ofCall]

namespace BodyCache

@[simp] theorem relabel_stats (c : BodyCache) : (c.relabel T φ).stats = c.stats := rfl

theorem lookup_relabel (c : BodyCache) (s : Signature) :
    (c.relabel T φ).lookup s = ((c.lookup s).1.map (Model.relabel T φ), (c.lookup s).2.relabel T φ) := by
  simp only [lookup, relabel, List.find?_map, Option.map_map, Function.comp_def, Option.isSome_map]

theorem insert_relabel (c : BodyCache) (s : Signature) (m : Model) :
    (c.relabel T φ).insert s (m.relabel T φ) = (c.insert s m).relabel T φ := by
  simp [insert, relabel, List.filter_map, Function.comp_def]

end BodyCache

end Lowering.Pass
