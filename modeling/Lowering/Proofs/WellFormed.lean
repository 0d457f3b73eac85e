import Lowering.Ir.Basic

/-! # Well-formed IR graphs and how they grow

A pass builds its graph by appending nodes, by editing nodes in place, and by dropping the
newest nodes after a failed translator. This module says what survives each of these:

* `Graph.WellFormed` — every input of a node names an existing output of an older node, and every
  result reads exactly one value;
* `Graph.Extends g g'` — `g'` has every node of `g`, with its operation, its inputs and at least its
  outputs, each keeping its shape and its element type once known (`TensorInfo.Keeps`); existing
  outputs (`hasOutput`) and node kinds (`HasOp`) survive it;
* lemmas for `addNode` and its forms, for in-place edits that grow a node (`setName`,
  `growOutputs`, `modifyTensor`) and for `rollback`.
-/

namespace Lowering.Ir

namespace Op

theorem isResult_iff {op : Op} : op.isResult = true ↔ op = .result := by
  cases op <;> simp [isResult]

theorem isParameter_iff {op : Op} : op.isParameter = true ↔ op = .parameter := by
  cases op <;> simp [isParameter]

end Op

/-- `t'` has the shape of `t`, and its element type once that is known. -/
def TensorInfo.Keeps (t t' : TensorInfo) : Prop :=
  t'.shape = t.shape ∧ (t.elementType.isStatic = true → t'.elementType = t.elementType)

namespace TensorInfo

theorem Keeps.refl (t : TensorInfo) : t.Keeps t := ⟨rfl, fun _ => rfl⟩

theorem Keeps.trans {t t' t'' : TensorInfo} (first : t.Keeps t') (second : t'.Keeps t'') :
    t.Keeps t'' := by
  refine ⟨second.1.trans first.1, fun static => ?_⟩
  have same := first.2 static
  exact (second.2 (same ▸ static)).trans same

/-- An edit that touches only the names of a tensor keeps it. -/
theorem keeps_names (t : TensorInfo) (names : List String) : t.Keeps { t with names := names } :=
  ⟨rfl, fun _ => rfl⟩

end TensorInfo

/-- `nd'` has the operation and inputs of `nd` and at least its outputs, each of them kept. -/
structure Node.Le (nd nd' : Node) : Prop where
  op : nd'.op = nd.op
  inputs : nd'.inputs = nd.inputs
  length : nd.outputs.length ≤ nd'.outputs.length
  keeps : ∀ (i : Nat) (t t' : TensorInfo), nd.outputs[i]? = some t → nd'.outputs[i]? = some t' →
    t.Keeps t'

namespace Node.Le

variable {nd nd' nd'' : Node}

theorem refl (nd : Node) : nd.Le nd := by
  refine ⟨rfl, rfl, Nat.le_refl _, fun i t t' found found' => ?_⟩
  rw [found] at found'
  cases found'
  exact TensorInfo.Keeps.refl t

theorem exists_output (le : nd.Le nd') {i : Nat} {t : TensorInfo} (found : nd.outputs[i]? = some t) :
    ∃ t', nd'.outputs[i]? = some t' :=
  ⟨_, List.getElem?_eq_getElem (Nat.lt_of_lt_of_le (List.getElem?_eq_some_iff.mp found).1 le.length)⟩

theorem trans (first : nd.Le nd') (second : nd'.Le nd'') : nd.Le nd'' := by
  refine ⟨second.op.trans first.op, second.inputs.trans first.inputs,
    Nat.le_trans first.length second.length, fun i t t'' found found'' => ?_⟩
  obtain ⟨t', found'⟩ := first.exists_output found
  exact (first.keeps i t t' found found').trans (second.keeps i t' t'' found' found'')

end Node.Le

/-- An edit of a node that keeps it (`Node.Le`), whatever the node. -/
@[reducible] def Node.Grows (f : Node → Node) : Prop := ∀ nd : Node, nd.Le (f nd)

namespace Graph

/-- Node `n` exists and has operation `op`. -/
def HasOp (g : Graph) (n : Nat) (op : Op) : Prop := ∃ nd, g.node? n = some nd ∧ nd.op = op

/-- Every input of a node names an existing output of an older node, and every result reads
exactly one value. -/
structure WellFormed (g : Graph) : Prop where
  inputs : ∀ n nd, g.node? n = some nd → ∀ h ∈ nd.inputs, h.node < n ∧ g.hasOutput h
  result : ∀ n nd, g.node? n = some nd → nd.op = .result → nd.inputs.length = 1

/-- `g'` has every node of `g`, kept (`Node.Le`). -/
def Extends (g g' : Graph) : Prop :=
  ∀ n nd, g.node? n = some nd → ∃ nd', g'.node? n = some nd' ∧ nd.Le nd'

/-! ## Reading nodes -/

variable {g g' g'' : Graph} {n : Nat} {nd : Node} {h : Handle}

theorem lt_size_of_node? (found : g.node? n = some nd) : n < g.size := by
  simp only [node?, size] at found ⊢
  exact (Array.getElem?_eq_some_iff.mp found).1

theorem exists_node?_of_lt (bound : n < g.size) : ∃ nd, g.node? n = some nd :=
  ⟨g.nodes[n], Array.getElem?_eq_getElem bound⟩

theorem hasOutput_iff : g.hasOutput h ↔ ∃ nd, g.node? h.node = some nd ∧ h.output < nd.outputs.length := by
  unfold hasOutput
  cases g.node? h.node <;> simp

theorem hasOutput_of_node? (found : g.node? h.node = some nd) (bound : h.output < nd.outputs.length) :
    g.hasOutput h :=
  hasOutput_iff.mpr ⟨nd, found, bound⟩

theorem lt_size_of_hasOutput (valid : g.hasOutput h) : h.node < g.size := by
  obtain ⟨_, found, _⟩ := hasOutput_iff.mp valid
  exact lt_size_of_node? found

theorem mem_inputs {v : Handle} : v ∈ g.inputs n ↔ ∃ nd, g.node? n = some nd ∧ v ∈ nd.inputs := by
  unfold inputs
  cases g.node? n <;> simp

theorem WellFormed.input_valid (wellFormed : g.WellFormed) {v : Handle} (member : v ∈ g.inputs n) :
    g.hasOutput v := by
  obtain ⟨nd, found, inNode⟩ := mem_inputs.mp member
  exact (wellFormed.inputs n nd found v inNode).2

theorem WellFormed.inputValue_valid (wellFormed : g.WellFormed) {v : Handle}
    (first : g.inputValue n = some v) : g.hasOutput v :=
  wellFormed.input_valid (List.mem_of_head? first)

@[simp] theorem size_addNode (name : String) (op : Op) (ins : List Handle) (outs : List TensorInfo) :
    (g.addNode name op ins outs).1.size = g.size + 1 := by
  simp [addNode, size]

@[simp] theorem addNode_index (name : String) (op : Op) (ins : List Handle) (outs : List TensorInfo) :
    (g.addNode name op ins outs).2 = g.size := rfl

theorem node?_addNode (name : String) (op : Op) (ins : List Handle) (outs : List TensorInfo) (n : Nat) :
    (g.addNode name op ins outs).1.node? n =
      if n = g.size then some ⟨name, op, outs, ins⟩ else g.node? n := by
  show (g.nodes.push _)[n]? = _
  rw [Array.getElem?_push]
  rfl

theorem node?_addNode_self (name : String) (op : Op) (ins : List Handle) (outs : List TensorInfo) :
    (g.addNode name op ins outs).1.node? g.size = some ⟨name, op, outs, ins⟩ := by
  simp [node?_addNode]

theorem node?_addNode_of_lt (name : String) (op : Op) (ins : List Handle) (outs : List TensorInfo)
    (bound : n < g.size) : (g.addNode name op ins outs).1.node? n = g.node? n := by
  simp [node?_addNode, Nat.ne_of_lt bound]

theorem node?_modifyNode (m : Nat) (f : Node → Node) (n : Nat) :
    (g.modifyNode m f).node? n = if m = n then (g.node? n).map f else g.node? n := by
  simp [modifyNode, node?, Array.getElem?_modify]

@[simp] theorem size_modifyNode (m : Nat) (f : Node → Node) : (g.modifyNode m f).size = g.size := by
  simp [modifyNode, size]

theorem modifyTensor_eq_modifyNode (v : Handle) (f : TensorInfo → TensorInfo) :
    g.modifyTensor v f = g.modifyNode v.node fun nd => { nd with outputs := nd.outputs.modify v.output f } :=
  rfl

theorem node?_rollback (mark n : Nat) : (g.rollback mark).node? n = if n < mark then g.node? n else none := by
  simp only [rollback, node?, Array.getElem?_extract]
  by_cases below : n < mark
  · by_cases inside : n < g.nodes.size
    · simp only [Nat.sub_zero, Nat.zero_add, Nat.lt_min.mpr ⟨below, inside⟩, ↓reduceIte, inside,
        getElem?_pos, below]
    · simp only [Nat.sub_zero, Nat.zero_add, Array.getElem?_eq_none (Nat.le_of_not_lt inside),
        ite_self, below, ↓reduceIte]
  · simp only [Nat.sub_zero, Nat.lt_min, below, false_and, ↓reduceIte]

/-! ## Growing a graph -/

theorem Extends.refl (g : Graph) : g.Extends g :=
  fun _ nd found => ⟨nd, found, Node.Le.refl nd⟩

theorem Extends.trans (first : g.Extends g') (second : g'.Extends g'') : g.Extends g'' := by
  intro n nd found
  obtain ⟨nd', found', le'⟩ := first n nd found
  obtain ⟨nd'', found'', le''⟩ := second n nd' found'
  exact ⟨nd'', found'', le'.trans le''⟩

theorem Extends.hasOutput (grows : g.Extends g') (valid : g.hasOutput h) : g'.hasOutput h := by
  obtain ⟨nd, found, bound⟩ := hasOutput_iff.mp valid
  obtain ⟨nd', found', le⟩ := grows h.node nd found
  exact hasOutput_of_node? found' (Nat.lt_of_lt_of_le bound le.length)

theorem Extends.hasOp {op : Op} (grows : g.Extends g') (has : g.HasOp n op) : g'.HasOp n op := by
  obtain ⟨nd, found, kind⟩ := has
  obtain ⟨nd', found', le⟩ := grows n nd found
  exact ⟨nd', found', le.op.trans kind⟩

/-- An existing output keeps its shape, and its element type once known. -/
theorem Extends.tensor (grows : g.Extends g') (valid : g.hasOutput h) :
    (g.tensor h).Keeps (g'.tensor h) := by
  obtain ⟨nd, found, bound⟩ := hasOutput_iff.mp valid
  obtain ⟨nd', found', le⟩ := grows h.node nd found
  obtain ⟨t, atOutput⟩ : ∃ t, nd.outputs[h.output]? = some t := ⟨_, List.getElem?_eq_getElem bound⟩
  obtain ⟨t', atOutput'⟩ := le.exists_output atOutput
  simp only [Graph.tensor, found, found', List.getD_eq_getElem?_getD, atOutput, atOutput',
    Option.getD_some]
  exact le.keeps h.output t t' atOutput atOutput'

theorem Extends.size_le (grows : g.Extends g') : g.size ≤ g'.size := by
  cases sizeIsZero : g.size with
  | zero => exact Nat.zero_le _
  | succ last =>
    obtain ⟨nd, found⟩ := exists_node?_of_lt (g := g) (n := last) (by omega)
    obtain ⟨_, found', -⟩ := grows last nd found
    exact lt_size_of_node? found'

/-- A node keeps its old outputs as its first ones. -/
theorem Extends.outputs_prefix (grows : g.Extends g') (n : Nat) : g.outputs n <+: g'.outputs n := by
  unfold outputs
  cases found : g.node? n with
  | none => exact List.nil_prefix
  | some nd =>
    obtain ⟨nd', found', le⟩ := grows n nd found
    obtain ⟨extra, longer⟩ := Nat.exists_eq_add_of_le le.length
    simp only [found', longer, List.range_add, List.map_append]
    exact List.prefix_append _ _

/-- A graph whose nodes all grow, and which gains no node, stays well formed. -/
theorem WellFormed.of_extends (wellFormed : g.WellFormed) (grows : g.Extends g')
    (sameSize : g'.size = g.size) : g'.WellFormed := by
  have old : ∀ n nd', g'.node? n = some nd' →
      ∃ nd, g.node? n = some nd ∧ nd'.op = nd.op ∧ nd'.inputs = nd.inputs := by
    intro n nd' found'
    obtain ⟨nd, found⟩ := exists_node?_of_lt (g := g) (n := n) (sameSize ▸ lt_size_of_node? found')
    obtain ⟨nd'', found'', le⟩ := grows n nd found
    rw [found'] at found''
    cases found''
    exact ⟨nd, found, le.op, le.inputs⟩
  constructor
  · intro n nd' found' h member
    obtain ⟨nd, found, -, inputs⟩ := old n nd' found'
    obtain ⟨older, valid⟩ := wellFormed.inputs n nd found h (inputs ▸ member)
    exact ⟨older, grows.hasOutput valid⟩
  · intro n nd' found' isResult
    obtain ⟨nd, found, op, inputs⟩ := old n nd' found'
    rw [inputs]
    exact wellFormed.result n nd found (op ▸ isResult)

theorem extends_addNode (name : String) (op : Op) (ins : List Handle) (outs : List TensorInfo) :
    g.Extends (g.addNode name op ins outs).1 := by
  intro n nd found
  exact ⟨nd, by rw [node?_addNode_of_lt _ _ _ _ (lt_size_of_node? found), found], Node.Le.refl nd⟩

theorem hasOutput_addNode_self (name : String) (op : Op) (ins : List Handle) (outs : List TensorInfo)
    {output : Nat} (bound : output < outs.length) :
    (g.addNode name op ins outs).1.hasOutput ⟨g.size, output⟩ :=
  hasOutput_of_node? (node?_addNode_self name op ins outs) bound

theorem hasOp_addNode_self (name : String) (op : Op) (ins : List Handle) (outs : List TensorInfo) :
    (g.addNode name op ins outs).1.HasOp g.size op :=
  ⟨_, node?_addNode_self name op ins outs, rfl⟩

theorem addParameter_eq (t : ElementType) (s : Shape) :
    g.addParameter t s = ((g.addNode "" .parameter [] [{ elementType := t, shape := s }]).1, ⟨g.size, 0⟩) :=
  rfl

theorem addConstant_eq (c : Constant) :
    g.addConstant c =
      ((g.addNode "" (.constant c) [] [{ elementType := c.elementType, shape := c.shapeOf }]).1, ⟨g.size, 0⟩) :=
  rfl

theorem addResult_eq (v : Handle) (name : String) :
    g.addResult v name =
      g.addNode name .result [v] [{ elementType := (g.tensor v).elementType, shape := (g.tensor v).shape }] :=
  rfl

/-- A node whose inputs exist, and which reads one value if it is a result, keeps a graph well
formed. -/
theorem WellFormed.addNode (wellFormed : g.WellFormed) {name : String} {op : Op}
    {ins : List Handle} {outs : List TensorInfo} (valid : ∀ h ∈ ins, g.hasOutput h)
    (arity : op = .result → ins.length = 1) : (g.addNode name op ins outs).1.WellFormed := by
  have grows := extends_addNode (g := g) name op ins outs
  constructor
  · intro n nd found h member
    rw [node?_addNode] at found
    split at found
    · cases found
      rename_i isNew
      exact ⟨isNew ▸ lt_size_of_hasOutput (valid h member), grows.hasOutput (valid h member)⟩
    · obtain ⟨older, existing⟩ := wellFormed.inputs n nd found h member
      exact ⟨older, grows.hasOutput existing⟩
  · intro n nd found isResult
    rw [node?_addNode] at found
    split at found
    · cases found
      exact arity isResult
    · exact wellFormed.result n nd found isResult

/-! ## Editing nodes in place -/

theorem extends_modifyNode {m : Nat} {f : Node → Node}
    (grows : ∀ nd, g.node? m = some nd → nd.Le (f nd)) : g.Extends (g.modifyNode m f) := by
  intro n nd found
  rw [node?_modifyNode]
  split
  · rename_i same
    subst same
    exact ⟨f nd, by rw [found]; rfl, grows nd found⟩
  · exact ⟨nd, found, Node.Le.refl nd⟩

theorem WellFormed.modifyNode (wellFormed : g.WellFormed) {m : Nat} {f : Node → Node}
    (grows : ∀ nd, g.node? m = some nd → nd.Le (f nd)) : (g.modifyNode m f).WellFormed :=
  wellFormed.of_extends (extends_modifyNode grows) (size_modifyNode m f)

theorem le_rename (nd : Node) (name : String) : nd.Le { nd with name := name } :=
  ⟨rfl, rfl, Nat.le_refl _, (Node.Le.refl nd).keeps⟩

theorem extends_rename (m : Nat) (name : String) :
    g.Extends (g.modifyNode m fun nd => { nd with name := name }) :=
  extends_modifyNode fun nd _ => le_rename nd name

theorem WellFormed.rename (wellFormed : g.WellFormed) (m : Nat) (name : String) :
    (g.modifyNode m fun nd => { nd with name := name }).WellFormed :=
  wellFormed.modifyNode fun nd _ => le_rename nd name

/-- Editing one output of a node keeps the node when the edit keeps that output. -/
theorem le_modifyOutput (nd : Node) (output : Nat) {f : TensorInfo → TensorInfo}
    (keeps : ∀ t, nd.outputs[output]? = some t → t.Keeps (f t)) :
    nd.Le { nd with outputs := nd.outputs.modify output f } := by
  refine ⟨rfl, rfl, by simp, fun i t t' found found' => ?_⟩
  simp only [List.getElem?_modify] at found'
  split at found'
  · rename_i same
    subst same
    rw [found] at found'
    cases found'
    exact keeps t found
  · rw [found] at found'
    cases found'
    exact TensorInfo.Keeps.refl t

/-- Editing a tensor keeps the graph when the edit keeps that tensor. -/
theorem extends_modifyTensor (v : Handle) {f : TensorInfo → TensorInfo}
    (keeps : (g.tensor v).Keeps (f (g.tensor v))) : g.Extends (g.modifyTensor v f) := by
  refine extends_modifyNode fun nd found => le_modifyOutput nd v.output fun t atOutput => ?_
  have same : g.tensor v = t := by
    simp only [tensor, found, List.getD_eq_getElem?_getD, atOutput, Option.getD_some]
  exact same ▸ keeps

theorem WellFormed.modifyTensor (wellFormed : g.WellFormed) (v : Handle) {f : TensorInfo → TensorInfo}
    (keeps : (g.tensor v).Keeps (f (g.tensor v))) : (g.modifyTensor v f).WellFormed :=
  wellFormed.of_extends (extends_modifyTensor v keeps) (size_modifyNode v.node _)

@[simp] theorem size_modifyTensor (v : Handle) (f : TensorInfo → TensorInfo) :
    (g.modifyTensor v f).size = g.size :=
  size_modifyNode v.node _

theorem grows_setName (name : String) :
    Node.Grows fun nd =>
      let single := nd.outputs.length == 1
      let tag (p : Nat) (t : TensorInfo) : TensorInfo :=
        let names := if single then insertName name t.names else t.names
        { t with names := insertName (name ++ ":" ++ toString p) names }
      { nd with name := name, outputs := nd.outputs.mapIdx tag } := by
  intro nd
  refine ⟨rfl, rfl, by simp, fun i t t' found found' => ?_⟩
  simp only [List.getElem?_mapIdx, found, Option.map_some, Option.some.injEq] at found'
  subst found'
  exact TensorInfo.keeps_names t _

theorem extends_setName (name : String) (m : Nat) : g.Extends (g.setName name m) :=
  extends_modifyNode fun nd _ => grows_setName name nd

theorem WellFormed.setName (wellFormed : g.WellFormed) (name : String) (m : Nat) :
    (g.setName name m).WellFormed :=
  wellFormed.modifyNode fun nd _ => grows_setName name nd

@[simp] theorem size_setName (name : String) (m : Nat) : (g.setName name m).size = g.size :=
  size_modifyNode m _

theorem grows_growOutputs (len : Nat) :
    Node.Grows fun nd =>
      if nd.outputs.length < len then
        { nd with outputs := nd.outputs ++ List.replicate (len - nd.outputs.length) {} }
      else nd := by
  intro nd
  dsimp only
  split
  · refine ⟨rfl, rfl, by simp, fun i t t' found found' => ?_⟩
    rw [List.getElem?_append_left (List.getElem?_eq_some_iff.mp found).1, found] at found'
    cases found'
    exact TensorInfo.Keeps.refl t
  · exact Node.Le.refl nd

theorem extends_growOutputs (m len : Nat) : g.Extends (g.growOutputs m len) :=
  extends_modifyNode fun nd _ => grows_growOutputs len nd

theorem WellFormed.growOutputs (wellFormed : g.WellFormed) (m len : Nat) :
    (g.growOutputs m len).WellFormed :=
  wellFormed.modifyNode fun nd _ => grows_growOutputs len nd

theorem node?_clearNames (n : Nat) :
    g.clearNames.node? n =
      (g.node? n).map fun nd => { nd with outputs := nd.outputs.map ({ · with names := [] }) } := by
  simp [clearNames, node?, Array.getElem?_map]

/-- Clearing tensor names keeps every node. -/
theorem extends_clearNames : g.Extends g.clearNames := by
  intro n nd found
  refine ⟨{ nd with outputs := nd.outputs.map ({ · with names := [] }) },
    by rw [node?_clearNames, found]; rfl, rfl, rfl, by simp, fun i t t' atOutput atOutput' => ?_⟩
  simp only [List.getElem?_map, atOutput, Option.map_some, Option.some.injEq] at atOutput'
  subst atOutput'
  exact TensorInfo.keeps_names t []

theorem WellFormed.clearNames (wellFormed : g.WellFormed) : g.clearNames.WellFormed :=
  wellFormed.of_extends extends_clearNames (by simp [Graph.clearNames, size])

/-! ## Dropping the newest nodes -/

/-- Dropping nodes down to the size of an earlier graph keeps everything that graph had. -/
theorem Extends.rollback (grows : g.Extends g') : g.Extends (g'.rollback g.size) := by
  intro n nd found
  obtain ⟨nd', found', same⟩ := grows n nd found
  exact ⟨nd', by rw [node?_rollback, if_pos (lt_size_of_node? found), found'], same⟩

/-- Dropping the newest nodes keeps a graph well formed: the nodes that stay read only older
nodes, which stay too. -/
theorem WellFormed.rollback (wellFormed : g.WellFormed) (mark : Nat) :
    (g.rollback mark).WellFormed := by
  constructor
  · intro n nd found h member
    rw [node?_rollback] at found
    split at found
    · rename_i kept
      obtain ⟨older, valid⟩ := wellFormed.inputs n nd found h member
      obtain ⟨source, sourceFound, bound⟩ := hasOutput_iff.mp valid
      refine ⟨older, hasOutput_of_node? ?_ bound⟩
      rw [node?_rollback, if_pos (Nat.lt_trans older kept), sourceFound]
    · cases found
  · intro n nd found isResult
    rw [node?_rollback] at found
    split at found
    · exact wellFormed.result n nd found isResult
    · cases found

end Graph

end Lowering.Ir
