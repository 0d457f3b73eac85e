import Mathlib.Data.List.ReduceOption
import Lowering.Proofs.FailureLabels
import Lowering.Proofs.CacheCounts

/-! # Translators that always fail

A translator that fails on every call a translation makes to it, after only adding nodes, leaves
no trace in the translation but the failure records of the stand-ins: its nodes are rolled back
and a stand-in takes the operation's place, as it does when no translator is registered for its
type `T`. So translating with it gives what translating without it gives, with the stand-ins of
type `T` relabeled. The calls are those on an operation of type `T` that the translation can
dispatch (`Source.Graph.dispatchable`: the library's own and its functions' bodies'), with at most
one value for each input edge (`resolveInputs_length_le`); failing may be an error, an abort, or a
value that does not exist (`Kind.strayHandle_failsAddingOnly`).

The argument is one simulation. From states related by `PassState.Relabeled T φ` (the second is
the first relabeled), every step of a pass gives the same outcome and related states again; the
step lemmas run from `bindName_relabel` to `finishNames_relabel`, and through the translators
(`Kind.run_relabel`). An operation is dispatched alike when both sides look up the same
translator (`dispatch_relabel`), or when one side's translator for `T` fails on the call and the
other side has none (`dispatch_relabel_failing`). Whole passes follow (`lowerGraph_relabel`), and
nested passes for bodies by induction on their depth (`bodySource_relabel`).

Two instances are used: erasing every record of type `T`, which relates translating with a
failing translator for `T` to translating without one; and filling in every missing record, which
a translation with a translator for `T` does not change, so its stand-ins of type `T` all carry a
record (`failingTranslator_only_relabels`).
-/

namespace Lowering.Source.Graph

/-- The operations a translation of this graph can dispatch: its own, and those of the bodies of
its functions, which nested passes translate. -/
def dispatchable (g : Graph) : List Operation :=
  g.operations ++ g.functions.flatMap (·.2.operations)

theorem operations_of_specialize {g g' : Graph} {shapes : List Shape} {types : List ElementType}
    (specialized : g.specialize shapes types = .ok g') : g'.operations = g.operations := by
  unfold specialize at specialized
  dsimp only at specialized
  split at specialized
  · cases specialized
  · cases specialized
    rfl

/-- An operation of a body the graph gives, specialized to a call, is one it can dispatch. -/
theorem mem_dispatchable_of_body {g body src : Graph} {identity : String} {shapes : List Shape}
    {types : List ElementType} (found : g.bodyGraph? identity = some body)
    (specialized : body.specialize shapes types = .ok src) {op : Operation}
    (member : op ∈ src.operations) : op ∈ g.dispatchable := by
  rw [operations_of_specialize specialized] at member
  unfold bodyGraph? function? at found
  obtain ⟨b, found', rfl⟩ := Option.map_eq_some_iff.mp found
  obtain ⟨f, listed, rfl⟩ := Option.map_eq_some_iff.mp found'
  exact List.mem_append_right _ (List.mem_flatMap.mpr ⟨f, List.mem_of_find?_eq_some listed, member⟩)

end Lowering.Source.Graph

namespace Lowering.Ir.Graph

/-- Rolling back to a checkpoint drops exactly the nodes appended since. -/
theorem rollback_checkpoint_append {g g' : Graph} {added : Array Node}
    (appended : g'.nodes = g.nodes ++ added) : g'.rollback g.checkpoint = g := by
  cases g
  cases g'
  simp only [rollback, checkpoint, size] at appended ⊢
  subst appended
  simp

/-- A graph that rolls back to `g` is `g` with nodes appended. -/
theorem exists_append_of_rollback {g g' : Graph} (restored : g'.rollback g.checkpoint = g) :
    ∃ added, g'.nodes = g.nodes ++ added := by
  have kept : g'.nodes.extract 0 g.size = g.nodes := congrArg Graph.nodes restored
  refine ⟨g'.nodes.extract g.size g'.nodes.size, ?_⟩
  rw [← kept, Array.extract_append_extract, Nat.zero_min,
    Array.extract_eq_self_of_le (Nat.le_max_right _ _)]

/-- Naming the node just added leaves the older nodes alone. -/
theorem rollback_setName_addNode (g : Graph) (name : String) (o : Op) (ins : List Handle)
    (outs : List TensorInfo) (name' : String) :
    ((g.addNode name o ins outs).1.setName name' g.size).rollback g.checkpoint = g := by
  refine ext_node? fun n => ?_
  rw [node?_rollback, checkpoint]
  by_cases below : n < g.size
  · rw [if_pos below, setName, node?_modifyNode, if_neg (Nat.ne_of_lt below).symm,
      node?_addNode_of_lt _ _ _ _ below]
  · rw [if_neg below]
    exact (Array.getElem?_eq_none (Nat.le_of_not_lt below)).symm

end Lowering.Ir.Graph

namespace Lowering.Pass

open Lowering.Ir Lowering.Proofs Lowering.Translator
open Lowering.Source (Operation Edge Place)

/-- The state with its graph and its cached bodies relabeled. -/
def PassState.relabel (T : String) (φ : Option String → Option String) (s : PassState) : PassState :=
  { s with graph := s.graph.relabel T φ, cache := s.cache.relabel T φ }

/-- The second state is the first relabeled. -/
def PassState.Relabeled (T : String) (φ : Option String → Option String) (s₁ s₂ : PassState) : Prop :=
  s₂ = s₁.relabel T φ

variable {T : String} {φ : Option String → Option String}

namespace PassState

@[simp] theorem relabel_graph (s : PassState) : (s.relabel T φ).graph = s.graph.relabel T φ := rfl

@[simp] theorem relabel_cache (s : PassState) : (s.relabel T φ).cache = s.cache.relabel T φ := rfl

@[simp] theorem relabel_bindings (s : PassState) : (s.relabel T φ).bindings = s.bindings := rfl

@[simp] theorem relabel_parameters (s : PassState) : (s.relabel T φ).parameters = s.parameters := rfl

@[simp] theorem relabel_results (s : PassState) : (s.relabel T φ).results = s.results := rfl

end PassState

/-! ## Steps that do not use the translators or the bodies -/

theorem bindName_relabel (name : String) (vs : List Labeled) :
    Agree (PassState.Relabeled T φ) (bindName name vs) (bindName name vs) := by
  unfold bindName
  refine Agree.get_bind fun s _ related => ?_
  subst related
  refine AgreeFrom.liftExcept_bind _ rfl fun b _ => ?_
  exact AgreeFrom.set rfl

theorem single_relabel (vs : List Labeled) (fault : LowerError) :
    Agree (PassState.Relabeled T φ) (single vs fault) (single vs fault) := by
  unfold single
  split
  · exact Agree.pure _
  · exact Agree.throw _

/-- The last step of resolving an input: reading the producer's value `out`. -/
theorem readOutput_relabel (op : Operation) (slot : Nat) (edge : Edge) (out : Nat) :
    Agree (ε := LowerError) (PassState.Relabeled T φ)
      (do let s ← get; match (s.bindings.get? edge.producer).bind (·[out]?) with
        | some v => return some v.handle
        | none => throw (LowerError.inputResolution op.name slot edge.producer out .outOfRange))
      (do let s ← get; match (s.bindings.get? edge.producer).bind (·[out]?) with
        | some v => return some v.handle
        | none => throw (LowerError.inputResolution op.name slot edge.producer out .outOfRange)) := by
  refine Agree.get_bind fun s _ related => ?_
  subst related
  dsimp only [PassState.relabel_bindings]
  split
  · exact AgreeFrom.of_agree (Agree.pure _) rfl
  · exact AgreeFrom.of_agree (Agree.throw _) rfl

theorem resolveInput_relabel (op : Operation) (slot : Nat) (edge : Edge) :
    Agree (PassState.Relabeled T φ) (resolveInput op slot edge) (resolveInput op slot edge) := by
  unfold resolveInput
  refine Agree.get_bind fun s _ related => ?_
  subst related
  simp -zeta only [PassState.relabel_bindings, PassState.relabel_graph, Graph.elim_node?_relabel,
    Node.relabel_op, Op.isFramework_relabel, Graph.growOutputs_relabel, Graph.outputs_relabel]
  -- keep what follows the output index as one join point on each side
  extract_lets tail₁ tail₂
  -- once the index is known: a labeled value, a missing producer, or the producer's value after
  -- an optional growth of a stand-in
  have tail : ∀ out, Agree (PassState.Relabeled T φ) (tail₁ out) (tail₂ out) := by
    intro out
    dsimp only [tail₁, tail₂]
    split
    · exact (single_relabel _ _).bind fun _ => Agree.pure _
    split
    · exact Agree.throw _
    -- the producer's value, read after an optional growth of a stand-in
    split
    · split
      · split
        · split
          · exact Agree.throw_bind _
          · exact fun _ _ _ => AgreeFrom.set_bind (by simp [PassState.Relabeled, PassState.relabel])
              (readOutput_relabel op slot edge out)
        · exact readOutput_relabel op slot edge out
      · exact readOutput_relabel op slot edge out
    · exact readOutput_relabel op slot edge out
  split
  · exact AgreeFrom.of_agree ((single_relabel _ _).bind fun _ => Agree.pure _) rfl
  split
  · exact AgreeFrom.of_agree (Agree.pure _) rfl
  -- the index comes from the edge's group, or is the edge's own
  split
  · split
    · exact AgreeFrom.of_agree ((Agree.pure _).bind tail) rfl
    · exact AgreeFrom.of_agree ((Agree.throw _).bind tail) rfl
    · exact AgreeFrom.of_agree ((Agree.throw _).bind tail) rfl
  · exact AgreeFrom.of_agree ((Agree.pure _).bind tail) rfl

theorem resolveInputs_relabel (op : Operation) :
    Agree (PassState.Relabeled T φ) (resolveInputs op) (resolveInputs op) := by
  unfold resolveInputs
  split
  · exact Agree.pure _
  · exact (Agree.mapM fun _ _ => resolveInput_relabel _ _ _).bind fun _ => Agree.pure _

/-- Resolving the inputs of `op` gives at most one value for each of its input edges. -/
theorem resolveInputs_length_le (op : Operation) {s : PassState} {inputs : List Handle}
    (resolved : ((resolveInputs op).run.run s).1 = .ok inputs) : inputs.length ≤ op.inputs.length := by
  unfold resolveInputs at resolved
  split at resolved
  · cases resolved
    exact Nat.zero_le _
  · rw [run_bind] at resolved
    split at resolved
    · rename_i found _ mapped
      cases resolved
      have counted := run_mapM_length (s := s) (by rw [mapped])
      rw [List.length_zipIdx] at counted
      exact counted ▸ List.reduceOption_length_le found
    · cases resolved

/-- A stand-in whose failure record relabeling turns into the other side's. -/
theorem passthrough_relabel (op : Operation) (inputs : List Handle) {failure₁ failure₂ : Option String}
    (records : (Op.framework op.opType op.attrs failure₁).relabel T φ =
      .framework op.opType op.attrs failure₂) :
    Agree (PassState.Relabeled T φ) (passthrough op inputs failure₁) (passthrough op inputs failure₂) := by
  unfold passthrough
  refine Agree.get_bind fun s _ related => ?_
  subst related
  have added : (s.graph.relabel T φ).addFramework "" op.opType op.attrs failure₂ inputs op.numOutputs =
      ((s.graph.addFramework "" op.opType op.attrs failure₁ inputs op.numOutputs).1.relabel T φ,
        s.graph.size) := by
    unfold Graph.addFramework
    rw [← records, Graph.addNode_relabel]
    rfl
  simp only [PassState.relabel_graph, added, Graph.setName_relabel, Graph.outputs_relabel]
  exact AgreeFrom.set_bind rfl (Agree.pure _)

theorem register_relabel (op : Operation) (vs : List Labeled) :
    Agree (PassState.Relabeled T φ) (register op vs) (register op vs) := by
  unfold register
  refine Agree.get_bind fun s _ related => ?_
  subst related
  simp only [PassState.relabel_graph, PassState.relabel_parameters, PassState.relabel_results,
    Graph.elim_node?_relabel, Node.relabel_op, Op.isResult_relabel, Op.isParameter_relabel]
  refine AgreeFrom.set_bind rfl ?_
  split
  · exact bindName_relabel _ _
  · exact Agree.pure _

theorem freezeInputs_relabel (places : List Place) :
    Agree (PassState.Relabeled T φ) (freezeInputs places) (freezeInputs places) := by
  refine Agree.forM fun p _ => ?_
  split
  · exact Agree.pure _
  · refine Agree.get_bind fun s _ related => ?_
    subst related
    simp only [PassState.relabel_graph, Graph.addConstant_relabel, Graph.setName_relabel]
    exact AgreeFrom.set_bind rfl (bindName_relabel _ _)

theorem openInputs_relabel (options : Options) (places : List Place) :
    Agree (PassState.Relabeled T φ) (openInputs options places) (openInputs options places) := by
  refine Agree.forM fun p _ => ?_
  split
  · exact Agree.pure _
  · refine Agree.get_bind fun s _ related => ?_
    subst related
    simp only [PassState.relabel_graph, PassState.relabel_bindings, PassState.relabel_parameters,
      Graph.addParameter_relabel, Graph.setName_relabel]
    split
    · exact AgreeFrom.of_agree (Agree.pure _) rfl
    · exact AgreeFrom.set_bind rfl (bindName_relabel _ _)

theorem assembleResults_relabel (src : Source.Graph) :
    Agree (PassState.Relabeled T φ) (assembleResults src) (assembleResults src) := by
  unfold assembleResults
  refine Agree.get_bind fun s _ related => ?_
  subst related
  simp only [PassState.relabel_graph, PassState.relabel_bindings, PassState.relabel_results,
    declaredResults_relabel]
  split
  · exact AgreeFrom.of_agree (Agree.pure _) rfl
  -- the declared results are added alike, or fail alike
  cases declaredResults src s.bindings s.graph with
  | error e => exact AgreeFrom.of_agree (Agree.throw e) rfl
  | ok declared =>
    simp only [Except.map, liftExcept, pure_bind]
    refine AgreeFrom.set_bind rfl ?_
    split
    · exact Agree.pure _
    · refine fun _ _ _ => AgreeFrom.set ?_
      simp [PassState.Relabeled, PassState.relabel, terminalResults_relabel]

theorem finishNames_relabel (src : Source.Graph) :
    Agree (PassState.Relabeled T φ) (finishNames src) (finishNames src) := by
  unfold finishNames
  refine Agree.get_bind fun s _ related => ?_
  subst related
  -- with each registry absent, empty or not, the relabeled graph is renamed as the graph is
  rcases src.savedInputs with _ | inputs <;> rcases src.savedOutputs with _ | outputs <;>
    simp only [PassState.relabel_graph, PassState.relabel_parameters, PassState.relabel_results,
      restoreParameterNames_relabel, restoreResultNames_relabel, ← apply_ite (Graph.relabel T φ),
      Graph.elim_node?_relabel, Node.relabel_name] <;>
    exact AgreeFrom.liftExcept_bind _ rfl fun _ _ => AgreeFrom.liftExcept_bind _ rfl fun _ _ =>
      AgreeFrom.set rfl

end Lowering.Pass

namespace Lowering.Translator

open Lowering.Ir Lowering.Pass Lowering.Proofs Lowering.Json
open Lowering.Source (Operation)

/-- The workspace with its graph and its cached bodies relabeled. -/
def Workspace.relabel (T : String) (φ : Option String → Option String) (w : Workspace) : Workspace :=
  ⟨w.graph.relabel T φ, w.cache.relabel T φ⟩

/-- The second workspace is the first relabeled. -/
def Workspace.Relabeled (T : String) (φ : Option String → Option String) (w₁ w₂ : Workspace) : Prop :=
  w₂ = w₁.relabel T φ

/-- Two body sources answer alike up to relabeling: asked from a relabeled graph and cache, the
second gives the first's answer relabeled and leaves the first's cache relabeled. -/
def BodiesRelabeled (T : String) (φ : Option String → Option String) (B₁ B₂ : BodySource) : Prop :=
  ∀ identity inputs g c, B₂ identity inputs (g.relabel T φ) (c.relabel T φ) =
    ((B₁ identity inputs g c).1.map (Option.map (Model.relabel T φ)),
      (B₁ identity inputs g c).2.relabel T φ)

/-- A translator run that gives nothing usable, a failure or a value that does not exist, after
only adding nodes to the graph, and that leaves the cache alone. -/
def FailsAddingOnly (x : TranslatorM (List Labeled)) (w : Workspace) : Prop :=
  (rejection (x.run.run w).2.graph (x.run.run w).1).isSome ∧
    (∃ added, (x.run.run w).2.graph.nodes = w.graph.nodes ++ added) ∧ (x.run.run w).2.cache = w.cache

/-- A translator that gives up at once gives up adding nothing. -/
theorem failsAddingOnly_throw (f : Failure) (w : Workspace) :
    FailsAddingOnly (throw f : TranslatorM (List Labeled)) w :=
  ⟨rfl, ⟨#[], Array.append_empty.symm⟩, rfl⟩

/-- The stock translator `fail` gives up on every operation, adding at most its one node. -/
theorem Kind.fail_failsAddingOnly (ctx : Context) (w : Workspace) :
    FailsAddingOnly (Kind.fail.run ctx) w := by
  unfold Kind.run
  dsimp only
  unfold Context.attrOr Context.readAttr Context.addOp
  -- reading the message may fail first; otherwise the node is added and the translator fails
  split
  · split
    · exact ⟨rfl, Graph.exists_append_of_rollback (Graph.rollback_setName_addNode _ _ _ _ _ _), rfl⟩
    · exact failsAddingOnly_throw _ w
  · exact ⟨rfl, Graph.exists_append_of_rollback (Graph.rollback_setName_addNode _ _ _ _ _ _), rfl⟩

/-- The stock translator `strayHandle`, on an operation that does not set its port, returns
port 5 of the one-output node it adds: a value that does not exist, after only adding that node. -/
theorem Kind.strayHandle_failsAddingOnly (ctx : Context) (w : Workspace)
    (unset : Fields.find? ctx.op.attrs "port" = none) :
    FailsAddingOnly (Kind.strayHandle.run ctx) w := by
  have ran : (Kind.strayHandle.run ctx).run.run w =
      (.ok (unlabeled [⟨w.graph.size, 5⟩]),
        ⟨(w.graph.addNode "" (.op ctx.op.opType []) [] [{}]).1.setName ctx.op.name w.graph.size, w.cache⟩) := by
    unfold Kind.run Context.attrOr Context.addOp
    rw [unset]
    rfl
  -- the node added has one output, and the handle names output 5
  have missing : ((w.graph.addNode "" (.op ctx.op.opType []) [] [{}]).1.setName ctx.op.name
      w.graph.size).hasOutput ⟨w.graph.size, 5⟩ = false := by
    simp [Graph.hasOutput, Graph.setName, Graph.node?_modifyNode, Graph.node?_addNode_self]
  unfold FailsAddingOnly
  rw [ran]
  exact ⟨by simp [rejection, unlabeled, missing],
    Graph.exists_append_of_rollback (Graph.rollback_setName_addNode _ _ _ _ _ _), rfl⟩

variable {T : String} {φ : Option String → Option String}

@[simp] theorem Workspace.relabel_graph (w : Workspace) : (w.relabel T φ).graph = w.graph.relabel T φ :=
  rfl

@[simp] theorem Workspace.relabel_cache (w : Workspace) : (w.relabel T φ).cache = w.cache.relabel T φ :=
  rfl

section Contexts

variable {op : Operation} {inputs : List Handle} {B₁ B₂ : BodySource}

/-! ## What a translator reads and writes -/

theorem Context.input_relabel (i : Nat) :
    Agree (Workspace.Relabeled T φ) (Context.input ⟨op, inputs, B₁⟩ i) (Context.input ⟨op, inputs, B₂⟩ i) := by
  unfold Context.input Context.fail
  dsimp only
  split
  · exact Agree.pure _
  · exact Agree.throw _

theorem Context.readAttr_relabel {α : Type} (k : String) (v : Value) (read : TreeReader α) :
    Agree (Workspace.Relabeled T φ) (Context.readAttr ⟨op, inputs, B₁⟩ k v read)
      (Context.readAttr ⟨op, inputs, B₂⟩ k v read) := by
  unfold Context.readAttr Context.fail
  dsimp only
  split
  · exact Agree.pure _
  · exact Agree.throw _

theorem Context.attr_relabel {α : Type} (k : String) (read : TreeReader α) :
    Agree (Workspace.Relabeled T φ) (Context.attr ⟨op, inputs, B₁⟩ k read)
      (Context.attr ⟨op, inputs, B₂⟩ k read) := by
  unfold Context.attr Context.fail
  dsimp only
  split
  · exact Context.readAttr_relabel _ _ _
  · exact Agree.throw _

theorem Context.attrOr_relabel {α : Type} (k : String) (read : TreeReader α) (default : α) :
    Agree (Workspace.Relabeled T φ) (Context.attrOr ⟨op, inputs, B₁⟩ k read default)
      (Context.attrOr ⟨op, inputs, B₂⟩ k read default) := by
  unfold Context.attrOr
  dsimp only
  split
  · exact Context.readAttr_relabel _ _ _
  · exact Agree.pure _

theorem Context.tensor_relabel (h : Handle) :
    Agree (Workspace.Relabeled T φ) (Context.tensor h) (Context.tensor h) := by
  unfold Context.tensor
  refine Agree.get_bind fun w _ related => ?_
  subst related
  simp only [Workspace.relabel_graph, Graph.tensor_relabel]
  exact AgreeFrom.of_agree (Agree.pure _) rfl

theorem Context.addOp_relabel (opType : String) (ins : List Handle) (outs : List TensorInfo) :
    Agree (Workspace.Relabeled T φ) (Context.addOp ⟨op, inputs, B₁⟩ opType ins outs)
      (Context.addOp ⟨op, inputs, B₂⟩ opType ins outs) := by
  unfold Context.addOp
  refine Agree.get_bind fun w _ related => ?_
  subst related
  simp only [Workspace.relabel_graph, Graph.addOpNode_relabel, Graph.setName_relabel]
  exact AgreeFrom.set_bind rfl (Agree.pure _)

/-! ## Stock translators -/

/-- Splicing a body again and again: each answer of the second source is the first's relabeled,
and splicing a relabeled body into a relabeled graph is the relabeled splice. -/
theorem Kind.repeatSplice_relabel (body : String) (ins : List Handle)
    (bodies : BodiesRelabeled T φ B₁ B₂) :
    ∀ times acc, Agree (Workspace.Relabeled T φ) (Kind.repeatSplice ⟨op, inputs, B₁⟩ body ins times acc)
      (Kind.repeatSplice ⟨op, inputs, B₂⟩ body ins times acc)
  | 0, acc => Agree.pure acc
  | times + 1, acc => by
    unfold Kind.repeatSplice Context.bodyModel Context.fail
    simp only [bind_assoc]
    refine Agree.get_bind fun w _ related => ?_
    subst related
    simp only [Workspace.relabel_graph, Workspace.relabel_cache, bodies body ins w.graph w.cache]
    rcases B₁ body ins w.graph w.cache with ⟨answer, cache⟩
    refine AgreeFrom.set_bind rfl ?_
    simp only [pure_bind]
    rcases answer with e | _ | m
    · exact Agree.throw _
    · exact Agree.throw _
    · refine Agree.get_bind fun w' _ related => ?_
      subst related
      simp only [Workspace.relabel_graph, splice_relabel]
      refine AgreeFrom.set_bind rfl ?_
      split
      · exact Agree.throw _
      · exact Kind.repeatSplice_relabel body ins bodies times _

/-- A stock translator runs alike from a workspace and from the workspace relabeled, with body
sources that answer alike up to relabeling. -/
theorem Kind.run_relabel (k : Kind) (bodies : BodiesRelabeled T φ B₁ B₂) :
    Agree (Workspace.Relabeled T φ) (k.run ⟨op, inputs, B₁⟩) (k.run ⟨op, inputs, B₂⟩) := by
  cases k <;> unfold Kind.run <;> dsimp only
  case unary =>
    exact (Context.input_relabel 0).bind fun x => (Context.tensor_relabel x).bind fun _ =>
      (Context.addOp_relabel _ _ _).bind fun _ => Agree.pure _
  case binary =>
    exact (Context.input_relabel 0).bind fun a => (Context.input_relabel 1).bind fun _ =>
      (Context.tensor_relabel a).bind fun _ => (Context.addOp_relabel _ _ _).bind fun _ => Agree.pure _
  case variadic =>
    refine (Context.attrOr_relabel _ _ _).bind fun _ => ?_
    split
    · exact (Agree.map _ (Context.tensor_relabel _)).bind fun _ =>
        (Context.addOp_relabel _ _ _).bind fun _ => Agree.pure _
    · exact (Agree.pure _).bind fun _ => (Context.addOp_relabel _ _ _).bind fun _ => Agree.pure _
  case grouped =>
    exact (Context.attrOr_relabel _ _ _).bind fun _ => (Context.addOp_relabel _ _ _).bind fun _ =>
      Agree.pure _
  case identity => exact (Context.input_relabel 0).bind fun _ => Agree.pure _
  case result =>
    refine (Context.input_relabel 0).bind fun _ => (Context.attrOr_relabel _ _ _).bind fun _ => ?_
    refine Agree.get_bind fun w _ related => ?_
    subst related
    simp only [Workspace.relabel_graph, Graph.addResult_relabel]
    exact AgreeFrom.set_bind rfl (Agree.pure _)
  case parameter =>
    refine (Context.attrOr_relabel _ _ _).bind fun _ => (Context.attrOr_relabel _ _ _).bind fun _ =>
      (Context.attrOr_relabel _ _ _).bind fun _ => ?_
    refine Agree.get_bind fun w _ related => ?_
    subst related
    simp only [Workspace.relabel_graph, Graph.addParameter_relabel, Graph.setName_relabel]
    exact AgreeFrom.set_bind rfl (Agree.pure _)
  case constant =>
    refine (Context.attr_relabel _ _).bind fun _ => ?_
    refine Agree.get_bind fun w _ related => ?_
    subst related
    simp only [Workspace.relabel_graph, Graph.addConstant_relabel, Graph.setName_relabel]
    exact AgreeFrom.set_bind rfl (Agree.pure _)
  case fail =>
    exact (Context.attrOr_relabel _ _ _).bind fun _ => (Context.addOp_relabel _ _ _).bind fun _ =>
      Agree.throw _
  case failAttr => exact (Context.attr_relabel _ _).bind fun _ => Agree.throw _
  case abort => exact (Context.attrOr_relabel _ _ _).bind fun _ => Agree.throw _
  case abortText => exact Agree.throw _
  case abortSilent => exact Agree.throw _
  case strayHandle =>
    exact (Context.attrOr_relabel _ _ _).bind fun _ => (Context.addOp_relabel _ _ _).bind fun _ =>
      Agree.pure _
  case inputOutOfRange =>
    refine (Context.attrOr_relabel _ _ _).bind fun _ => ?_
    split
    · exact Agree.pure _
    · exact Agree.throw _
  case repeatBody =>
    refine (Context.attrOr_relabel _ _ _).bind fun body => (Context.attrOr_relabel _ _ _).bind fun _ =>
      (Context.attrOr_relabel _ _ _).bind fun _ => ?_
    refine (Kind.repeatSplice_relabel body _ bodies _ _).bind fun _ => ?_
    split
    · exact Agree.throw _
    · exact Agree.pure _

end Contexts

end Lowering.Translator

namespace Lowering.Pass

open Lowering.Ir Lowering.Proofs Lowering.Translator
open Lowering.Source (Operation)

variable {T : String} {φ : Option String → Option String}

/-! ## Dispatching an operation -/

@[simp] theorem rejection_relabel (g : Graph) (outcome : Except Failure (List Labeled)) :
    rejection (g.relabel T φ) outcome = rejection g outcome := by
  unfold rejection
  simp only [Graph.hasOutput_relabel]

/-- A failure lifted on both sides fails alike, whatever follows it. -/
theorem agree_liftExcept_error_bind {R : PassState → PassState → Prop} {α β : Type} (e : LowerError)
    {f₁ f₂ : α → PassM β} : Agree R (liftExcept (.error e) >>= f₁) (liftExcept (.error e) >>= f₂) :=
  fun _ _ related => ⟨rfl, related⟩

section Dispatch

variable {R₁ R₂ : Registry} {options : Options} {library : Source.Graph} {B₁ B₂ : BodySource}

/-- An operation is dispatched alike when both sides look up the same translator and their body
sources answer alike up to relabeling, provided relabeling keeps the records its stand-ins may
carry: a translator's failure, and no record when no translator is registered. -/
theorem dispatch_relabel (op : Operation) (inputs : List Handle)
    (registered : R₁.find? (·.1 == op.opType) = R₂.find? (·.1 == op.opType))
    (bodies : BodiesRelabeled T φ B₁ B₂)
    (failed : ∀ m, (Op.framework op.opType op.attrs (some m)).relabel T φ =
      .framework op.opType op.attrs (some m))
    (untranslated : R₂.find? (·.1 == op.opType) = none →
      (Op.framework op.opType op.attrs none).relabel T φ = .framework op.opType op.attrs none) :
    Agree (PassState.Relabeled T φ) (dispatch ⟨R₁, options, library, B₁⟩ op inputs)
      (dispatch ⟨R₂, options, library, B₂⟩ op inputs) := by
  unfold dispatch
  dsimp only
  rw [registered]
  split
  · rename_i kind _
    refine Agree.get_bind fun s _ related => ?_
    subst related
    simp only [PassState.relabel_graph, PassState.relabel_cache, PassState.relabel_bindings,
      PassState.relabel_parameters, PassState.relabel_results]
    -- the translator runs alike from the workspace and from the workspace relabeled
    have ran : AgreeFrom (Workspace.Relabeled T φ) (kind.run ⟨op, inputs, B₁⟩)
        (kind.run ⟨op, inputs, B₂⟩) ⟨s.graph, s.cache⟩ ⟨s.graph.relabel T φ, s.cache.relabel T φ⟩ :=
      Kind.run_relabel kind bodies _ _ rfl
    obtain ⟨sameOutcome, related⟩ := ran
    rcases ran₁ : (kind.run ⟨op, inputs, B₁⟩).run.run ⟨s.graph, s.cache⟩ with ⟨outcome, w⟩
    rcases ran₂ : (kind.run ⟨op, inputs, B₂⟩).run.run ⟨s.graph.relabel T φ, s.cache.relabel T φ⟩
      with ⟨outcome', w'⟩
    rw [ran₁, ran₂] at sameOutcome related
    dsimp only at sameOutcome related
    subst sameOutcome related
    simp only [Workspace.relabel_graph, Workspace.relabel_cache, rejection_relabel,
      Graph.rollback_relabel, Graph.checkpoint, Graph.size_relabel]
    -- the translator's values are kept, or its nodes dropped, alike
    split
    · exact AgreeFrom.set_bind rfl (Agree.pure _)
    · exact AgreeFrom.set_bind rfl (passthrough_relabel _ _ (failed _))
  · rename_i unregistered
    refine Agree.get_bind fun s _ related => ?_
    subst related
    simp only [PassState.relabel_graph, PassState.relabel_cache, bodies op.opType inputs s.graph s.cache]
    rcases B₁ op.opType inputs s.graph s.cache with ⟨found, cache⟩
    refine AgreeFrom.set_bind rfl ?_
    -- the body of the operation's type comes relabeled from the second source
    rcases found with e | _ | body
    · exact agree_liftExcept_error_bind e
    · simp only [Except.map, Option.map_none, liftExcept, pure_bind]
      exact passthrough_relabel _ _ (untranslated unregistered)
    · simp only [Except.map, Option.map_some, liftExcept, pure_bind]
      refine Agree.get_bind fun t _ related => ?_
      subst related
      simp only [PassState.relabel_graph, splice_relabel]
      refine AgreeFrom.set_bind rfl ((Agree.liftExcept _).bind fun vs => ?_)
      refine fun u _ related => ?_
      subst related
      refine AgreeFrom.modify_bind ?_ (Agree.pure _)
      -- each value of the call is named alike in the two graphs
      simp only [PassState.Relabeled, PassState.relabel, PassState.mk.injEq, and_true]
      exact List.foldl_hom _ fun g _ => Graph.modifyTensor_relabel g _ _

/-- An operation of type `T` is dispatched alike, up to erasing failure records, when every
translator the first side has for `T` fails on this call after only adding nodes, the second side
has none, and neither side has a body of that name: the first side's stand-in records the failure,
the second side's records nothing. -/
theorem dispatch_relabel_failing (op : Operation) (inputs : List Handle) (isT : op.opType = T)
    (fails : ∀ p ∈ R₁, p.1 = T → ∀ w, FailsAddingOnly (p.2.run ⟨op, inputs, B₁⟩) w)
    (unregistered : R₂.find? (·.1 == T) = none)
    (absent₁ : ∀ inputs g c, B₁ T inputs g c = (.ok none, c))
    (absent₂ : ∀ inputs g c, B₂ T inputs g c = (.ok none, c)) :
    Agree (PassState.Relabeled T fun _ => none) (dispatch ⟨R₁, options, library, B₁⟩ op inputs)
      (dispatch ⟨R₂, options, library, B₂⟩ op inputs) := by
  have erased : ∀ failure, (Op.framework op.opType op.attrs failure).relabel T (fun _ => none) =
      .framework op.opType op.attrs none := fun failure => by
    rw [isT, Op.relabel_framework_self]
  unfold dispatch
  dsimp only
  rw [isT, unregistered]
  dsimp only
  split
  · -- the translator found for `T` fails after adding nodes, which are dropped again
    rename_i name kind found
    refine Agree.get_bind fun s _ related => ?_
    subst related
    have failing := fails (name, kind) (List.mem_of_find?_eq_some found)
      (by simpa using List.find?_some found) ⟨s.graph, s.cache⟩
    simp only [PassState.relabel_graph, PassState.relabel_cache, absent₂]
    rcases ran : (kind.run ⟨op, inputs, B₁⟩).run.run ⟨s.graph, s.cache⟩ with ⟨outcome, w⟩
    obtain ⟨rejected, ⟨added, appended⟩, kept⟩ := failing
    rw [ran] at rejected appended kept
    obtain ⟨text, rejectedText⟩ := Option.isSome_iff_exists.mp rejected
    dsimp only at rejectedText appended kept
    simp only [rejectedText, Graph.rollback_checkpoint_append appended, kept]
    -- the first side is back at its state and keeps a stand-in recording the failure
    refine AgreeFrom.set_bind rfl ?_
    simp only [liftExcept, pure_bind]
    exact passthrough_relabel _ _ (erased _)
  · refine Agree.get_bind fun s _ related => ?_
    subst related
    simp only [PassState.relabel_graph, PassState.relabel_cache, absent₁, absent₂]
    refine AgreeFrom.set_bind rfl ?_
    simp only [liftExcept, pure_bind]
    exact passthrough_relabel _ _ (erased none)

end Dispatch

theorem translateOperations_relabel {env₁ env₂ : Env} (ops : List Operation)
    (dispatched : ∀ op ∈ ops, ∀ inputs : List Handle, inputs.length ≤ op.inputs.length →
      Agree (PassState.Relabeled T φ) (dispatch env₁ op inputs) (dispatch env₂ op inputs)) :
    Agree (PassState.Relabeled T φ) (translateOperations env₁ ops) (translateOperations env₂ ops) := by
  unfold translateOperations
  refine Agree.forM fun op member => ?_
  refine Agree.get_bind fun s _ related => ?_
  subst related
  dsimp only [PassState.relabel_bindings]
  by_cases present : s.bindings.contains op.name = true
  · simp only [present, ↓reduceIte]
    exact AgreeFrom.of_agree (Agree.pure _) rfl
  · simp only [present, Bool.false_eq_true, ↓reduceIte]
    refine AgreeFrom.of_agree ?_ rfl
    exact (resolveInputs_relabel op).bind_of_yields fun inputs ⟨_, resolved⟩ =>
      (dispatched op member inputs (resolveInputs_length_le op resolved)).bind fun vs =>
        register_relabel op vs

/-! ## Whole passes -/

/-- A pass from a cache relabeled, with dispatches that agree up to relabeling, gives the model
of the pass from the cache, relabeled, or fails alike; it leaves the cache relabeled. -/
theorem lowerGraph_relabel {R₁ R₂ : Registry} {options : Options} {library : Source.Graph}
    {B₁ B₂ : BodySource} (src : Source.Graph) (name : String)
    (dispatched : ∀ op ∈ src.operations, ∀ inputs : List Handle, inputs.length ≤ op.inputs.length →
      Agree (PassState.Relabeled T φ) (dispatch ⟨R₁, options, library, B₁⟩ op inputs)
        (dispatch ⟨R₂, options, library, B₂⟩ op inputs))
    (c : BodyCache) :
    (lowerGraph ⟨R₂, options, library, B₂⟩ src name).run (c.relabel T φ) =
      (((lowerGraph ⟨R₁, options, library, B₁⟩ src name).run c).1.map (Model.relabel T φ),
        ((lowerGraph ⟨R₁, options, library, B₁⟩ src name).run c).2.relabel T φ) := by
  unfold lowerGraph
  extract_lets pass₂ pass₁
  -- the first pass with its model relabeled agrees with the second
  have passes : Agree (PassState.Relabeled T φ) (pass₁ >>= fun m => pure (m.relabel T φ)) pass₂ := by
    simp only [pass₁, pass₂, bind_assoc]
    exact (freezeInputs_relabel _).bind fun _ => (openInputs_relabel _ _).bind fun _ =>
      (translateOperations_relabel _ dispatched).bind fun _ => (assembleResults_relabel _).bind fun _ =>
        (finishNames_relabel _).bind fun _ => Agree.get_bind fun s _ related => by
          subst related
          simp only [pure_bind]
          exact AgreeFrom.of_agree (Agree.pure _) rfl
  have start : ({ cache := c.relabel T φ } : PassState) = ({ cache := c } : PassState).relabel T φ := by
    simp [PassState.relabel, Graph.relabel]
  obtain ⟨sameOutcome, related⟩ := passes _ _ start
  rw [run_bind] at sameOutcome related
  simp only [StateT.run_bind, StateT.run_get, pure_bind]
  rcases ran₁ : pass₁.run.run { cache := c } with ⟨outcome, s⟩
  rcases ran₂ : pass₂.run.run { cache := c.relabel T φ } with ⟨outcome', s'⟩
  rw [ran₁, ran₂] at sameOutcome related
  -- the outcomes agree up to the relabeled model, and the states are related
  cases outcome with
  | error e =>
    dsimp only at sameOutcome related
    subst sameOutcome related
    rfl
  | ok m =>
    simp only [run_pure] at sameOutcome related
    subst sameOutcome related
    rfl

end Lowering.Pass

namespace Lowering

open Lowering.Ir Lowering.Pass Lowering.Proofs Lowering.Translator
open Lowering.Source (Operation)

variable {T : String} {φ : Option String → Option String}

section Nested

variable {R₁ R₂ : Registry} {options : Options} {library : Source.Graph}

/-- The nested passes for bodies answer alike up to relabeling, at every depth, when at each depth
the dispatches of the operations the library can dispatch do, on at most one value per input edge,
given body sources of the depth below that answer alike. -/
theorem bodySource_relabel
    (dispatched : ∀ depth, BodiesRelabeled T φ (bodySource R₁ options library depth)
        (bodySource R₂ options library depth) →
      ∀ op ∈ library.dispatchable, ∀ inputs : List Handle, inputs.length ≤ op.inputs.length →
        Agree (PassState.Relabeled T φ)
          (dispatch ⟨R₁, options, library, bodySource R₁ options library depth⟩ op inputs)
          (dispatch ⟨R₂, options, library, bodySource R₂ options library depth⟩ op inputs)) :
    ∀ depth, BodiesRelabeled T φ (bodySource R₁ options library depth)
      (bodySource R₂ options library depth) := by
  intro depth
  induction depth with
  | zero => exact fun _ _ _ _ => rfl
  | succ depth inductionHypothesis =>
    intro identity inputs g c
    simp only [bodySource, Signature.ofCall_relabel, BodyCache.lookup_relabel]
    cases library.hasFunction identity with
    | false => rfl
    | true =>
      simp only [Bool.not_true, Bool.false_eq_true, ↓reduceIte]
      -- a stored body comes relabeled; a missing one is lowered by a nested pass, relabeled
      rcases c.lookup (Signature.ofCall identity inputs g) with ⟨_ | m, c'⟩
      · dsimp only [Option.map_none]
        cases found : library.bodyGraph? identity with
        | none => rfl
        | some body =>
          dsimp only
          cases specialized : body.specialize (Signature.ofCall identity inputs g).shapes
            (Signature.ofCall identity inputs g).types with
          | error e => rfl
          | ok src =>
            dsimp only
            -- the body's operations are among those the library can dispatch
            rw [lowerGraph_relabel src identity fun op member => dispatched depth inductionHypothesis op
              (Source.Graph.mem_dispatchable_of_body found specialized member)]
            rcases (lowerGraph ⟨R₁, options, library, bodySource R₁ options library depth⟩ src identity).run c'
              with ⟨_ | m, c''⟩
            · rfl
            · by_cases clear : options.clearBodyNames = true
              · simp only [clear, ↓reduceIte, Except.map, Option.map_some, Model.relabel_graph,
                  Graph.clearNames_relabel]
                exact Prod.ext rfl (BodyCache.insert_relabel c'' _ { m with graph := m.graph.clearNames })
              · simp only [clear, Bool.false_eq_true, ↓reduceIte, Except.map, Option.map_some]
                exact Prod.ext rfl (BodyCache.insert_relabel c'' _ _)
      · rfl

end Nested

/-- A fresh session's outcome is its pass's outcome. -/
theorem Session.convertedModel_fst_of_fresh (s : Session) (fresh : s.converted = none) :
    s.convertedModel.1 = ((lowerGraph s.env s.library s.options.modelName).run s.cache).1 := by
  unfold Session.convertedModel
  rw [fresh]
  rcases (lowerGraph s.env s.library s.options.modelName).run s.cache with ⟨_ | m, c⟩ <;> rfl

section Registries

variable {registry : Registry} {options : Options} {library : Source.Graph}

/-- Erasing the failure records of type `T`: when every translator for `T` fails after only
adding nodes on every call the translation of the library can make, and the library has no body
`T`, the registry and the registry without `T` dispatch alike up to the records, at every depth of
nested passes. -/
theorem dispatch_erasing (absent : library.hasFunction T = false)
    (fails : ∀ p ∈ registry, p.1 = T → ∀ ctx : Context, ctx.op.opType = T →
      ctx.op ∈ library.dispatchable → ctx.inputs.length ≤ ctx.op.inputs.length → ∀ w,
        FailsAddingOnly (p.2.run ctx) w)
    (depth : Nat) (bodies : BodiesRelabeled T (fun _ => none) (bodySource registry options library depth)
      (bodySource (registry.filter (·.1 != T)) options library depth))
    (op : Operation) (dispatchable : op ∈ library.dispatchable) (inputs : List Handle)
    (short : inputs.length ≤ op.inputs.length) :
    Agree (PassState.Relabeled T fun _ => none)
      (dispatch ⟨registry, options, library, bodySource registry options library depth⟩ op inputs)
      (dispatch ⟨registry.filter (·.1 != T), options, library,
        bodySource (registry.filter (·.1 != T)) options library depth⟩ op inputs) := by
  by_cases isT : op.opType = T
  · refine dispatch_relabel_failing op inputs isT
      (fun p listed named => fails p listed named ⟨op, inputs, _⟩ isT dispatchable short) ?_
      (bodySource_absent depth absent) (bodySource_absent depth absent)
    simp
  · refine dispatch_relabel op inputs ?_ bodies (fun _ => Op.relabel_framework_of_ne isT _ _)
      (fun _ => Op.relabel_framework_of_ne isT _ _)
    -- for another type, the registry without `T` finds what the registry finds
    rw [List.find?_filter]
    congr 1
    funext p
    by_cases same : p.1 = op.opType
    · simp [same, isT]
    · simp [same]

/-- Filling in a record on every stand-in of type `T` that has none: with a translator for `T`
registered, a registry dispatches alike from a state and from the state filled in, at every
depth of nested passes. -/
theorem dispatch_filling (registered : ∃ k, (T, k) ∈ registry) (depth : Nat)
    (bodies : BodiesRelabeled T (fun failure => some (failure.getD ""))
      (bodySource registry options library depth) (bodySource registry options library depth))
    (op : Operation) (inputs : List Handle) :
    Agree (PassState.Relabeled T fun failure => some (failure.getD ""))
      (dispatch ⟨registry, options, library, bodySource registry options library depth⟩ op inputs)
      (dispatch ⟨registry, options, library, bodySource registry options library depth⟩ op inputs) := by
  refine dispatch_relabel op inputs rfl bodies (fun m => ?_) (fun unregistered => ?_)
  · by_cases isT : op.opType = T
    · rw [isT, Op.relabel_framework_self]
      rfl
    · exact Op.relabel_framework_of_ne isT _ _
  · -- an operation of type `T` always finds its translator
    by_cases isT : op.opType = T
    · obtain ⟨k, member⟩ := registered
      rw [isT] at unregistered
      exact absurd (List.find?_eq_none.mp unregistered (T, k) member) (by simp)
    · exact Op.relabel_framework_of_ne isT _ _

end Registries

/-- Translating with a registry whose translators for an operation type `T` all fail after only
adding nodes gives what translating without them gives, when the library has no body `T`: the
same failure, or the same model up to the failure records of the stand-ins of type `T`, which
the translation with them all fills in. So the two models have the same name, parameters and
results, and the same nodes, in the same order and with the same names, inputs and outputs. -/
theorem failingTranslator_only_relabels (library : Source.Graph) (registry : Registry)
    (options : Options) (T : String) (absent : library.hasFunction T = false)
    (registered : ∃ k, (T, k) ∈ registry)
    (fails : ∀ p ∈ registry, p.1 = T → ∀ ctx : Context, ctx.op.opType = T →
      ctx.op ∈ library.dispatchable → ctx.inputs.length ≤ ctx.op.inputs.length → ∀ w,
        FailsAddingOnly (p.2.run ctx) w) :
    (Session.convertedModel ⟨library, registry.filter (·.1 != T), options, {}, none⟩).1 =
        (Session.convertedModel ⟨library, registry, options, {}, none⟩).1.map
          (Model.relabel T fun _ => none) ∧
      ∀ m, (Session.convertedModel ⟨library, registry, options, {}, none⟩).1 = .ok m →
        ∀ nd ∈ m.graph.nodes, ∀ attrs failure, nd.op = .framework T attrs failure → failure.isSome := by
  rw [Session.convertedModel_fst_of_fresh _ rfl, Session.convertedModel_fst_of_fresh _ rfl]
  simp only [Session.env]
  -- the passes of the two sessions, and of the first with itself filled in, agree
  have erased := @dispatch_erasing T registry options library absent fails
  have completed : ∀ depth bodies, ∀ op ∈ library.dispatchable, ∀ inputs : List Handle,
      inputs.length ≤ op.inputs.length → _ :=
    fun depth bodies op _ inputs _ => @dispatch_filling T registry options library registered depth bodies op inputs
  -- the top-level operations are among those the library can dispatch
  have erasing := lowerGraph_relabel library options.modelName
    (fun op member => erased _ (bodySource_relabel erased (library.functions.length + 1)) op
      (List.mem_append_left _ member)) ({} : BodyCache)
  have filling := lowerGraph_relabel library options.modelName
    (fun op member => completed _ (bodySource_relabel completed (library.functions.length + 1)) op
      (List.mem_append_left _ member)) ({} : BodyCache)
  refine ⟨congrArg Prod.fst erasing, fun m lowered nd member attrs failure standIn => ?_⟩
  -- the model is its own filled-in version, so its stand-ins of type `T` carry records
  have filled := congrArg Prod.fst filling
  have empty : ({} : BodyCache).relabel T (fun failure => some (failure.getD "")) = {} := rfl
  rw [empty, lowered] at filled
  dsimp only [Except.map] at filled
  have fixed : m.graph.relabel T (fun failure => some (failure.getD "")) = m.graph :=
    (congrArg Model.graph (Except.ok.inj filled)).symm
  have kept := congrArg Node.op (Graph.relabel_node_of_fixed fixed member)
  rw [Node.relabel_op, standIn, Op.relabel_framework_self] at kept
  have recorded : some (failure.getD "") = failure := (Op.framework.inj kept).2.2
  rw [← recorded]
  rfl

/-- A graph whose one operation, `c` of type `Custom`, reads the input `x` and is the output. -/
def customCall : Source.Graph where
  inputs := [{ name := "x", elementType := .f32, shape := ⟨some [.known 2]⟩ }]
  operations := [{ name := "c", opType := "Custom", inputs := [{ producer := "x" }] }]
  outputs := [⟨"c", .all⟩]

/-- `Custom` translated by the stock translator `strayHandle`, which adds a node and returns a
port of it that does not exist. -/
theorem failingTranslator_only_relabels_custom :
    customCall.hasFunction "Custom" = false ∧
      (∃ k, ("Custom", k) ∈ ([("Custom", .strayHandle)] : Registry)) ∧
      (∀ p ∈ ([("Custom", .strayHandle)] : Registry), p.1 = "Custom" → ∀ ctx : Context,
        ctx.op.opType = "Custom" → ctx.op ∈ customCall.dispatchable →
          ctx.inputs.length ≤ ctx.op.inputs.length → ∀ w, FailsAddingOnly (p.2.run ctx) w) ∧
      ((Session.convertedModel ⟨customCall,
          ([("Custom", .strayHandle)] : Registry).filter (·.1 != "Custom"), {}, {}, none⟩).1 =
          (Session.convertedModel ⟨customCall, [("Custom", .strayHandle)], {}, {}, none⟩).1.map
            (Model.relabel "Custom" fun _ => none) ∧
        ∀ m, (Session.convertedModel ⟨customCall, [("Custom", .strayHandle)], {}, {}, none⟩).1 = .ok m →
          ∀ nd ∈ m.graph.nodes, ∀ attrs failure, nd.op = .framework "Custom" attrs failure →
            failure.isSome) := by
  have absent : customCall.hasFunction "Custom" = false := rfl
  have registered : ∃ k, ("Custom", k) ∈ ([("Custom", .strayHandle)] : Registry) :=
    ⟨.strayHandle, List.mem_singleton_self _⟩
  have fails : ∀ p ∈ ([("Custom", .strayHandle)] : Registry), p.1 = "Custom" → ∀ ctx : Context,
      ctx.op.opType = "Custom" → ctx.op ∈ customCall.dispatchable →
        ctx.inputs.length ≤ ctx.op.inputs.length → ∀ w, FailsAddingOnly (p.2.run ctx) w := by
    intro p member _ ctx _ dispatchable _ w
    rw [List.mem_singleton] at member
    subst member
    -- the one operation `c` sets no port
    have only : ctx.op = { name := "c", opType := "Custom", inputs := [{ producer := "x" }] } := by
      simpa [Source.Graph.dispatchable, customCall] using dispatchable
    exact Kind.strayHandle_failsAddingOnly ctx w (by rw [only]; rfl)
  exact ⟨absent, registered, fails,
    failingTranslator_only_relabels customCall _ {} "Custom" absent registered fails⟩

end Lowering
