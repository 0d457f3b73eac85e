import Lowering.Proofs.Splice

/-! # Edges run from older nodes to newer ones

An edge of an IR graph runs from the node an input handle names to the node that has the input.
A graph is `Forward` when every edge runs from a lower index to a higher one. Every graph the graph
operations build from the empty graph is forward (`Graph.Built.forward`), as long as each appended
node reads only nodes that already exist:

* an appended node comes after everything it reads;
* edits in place change names and tensors but no operation and no input (`Graph.Retagged`);
* a rollback keeps a prefix of the nodes, and the nodes of a prefix read only nodes of it;
* a splice appends copies that read the caller's values and copies made before them, and this
  holds of any body, even one the splice gives up on half way.

The copy loop is handled by `copyNodes_keeps`, the induction over it for any invariant of the
graph and the relocation that one copy keeps.
-/

namespace Lowering.Ir.Graph

open Lowering.Pass

/-! ## Edits that keep every operation and every input -/

/-- `g'` has the nodes of `g` with their operations and inputs; names and tensors may differ. -/
def Retagged (g g' : Graph) : Prop :=
  ∀ n, (g'.node? n).map (fun nd => (nd.op, nd.inputs)) = (g.node? n).map (fun nd => (nd.op, nd.inputs))

variable {g g' g'' : Graph} {n : Nat} {nd : Node}

namespace Retagged

theorem refl (g : Graph) : Retagged g g := fun _ => rfl

theorem trans (first : Retagged g g') (second : Retagged g' g'') : Retagged g g'' :=
  fun n => (second n).trans (first n)

theorem symm (same : Retagged g g') : Retagged g' g := fun n => (same n).symm

/-- A node of `g` is in `g'` with its operation and its inputs. -/
theorem image (same : Retagged g g') (found : g.node? n = some nd) :
    ∃ nd', g'.node? n = some nd' ∧ nd'.op = nd.op ∧ nd'.inputs = nd.inputs := by
  have agree := same n
  rw [found] at agree
  cases found' : g'.node? n with
  | none => simp [found'] at agree
  | some nd' =>
    simp only [found', Option.map_some, Option.some.injEq, Prod.mk.injEq] at agree
    exact ⟨nd', rfl, agree⟩

/-- A node of `g'` comes from a node of `g` with its operation and its inputs. -/
theorem origin (same : Retagged g g') {nd' : Node} (found : g'.node? n = some nd') :
    ∃ nd, g.node? n = some nd ∧ nd'.op = nd.op ∧ nd'.inputs = nd.inputs := by
  obtain ⟨nd, found', op, inputs⟩ := same.symm.image found
  exact ⟨nd, found', op.symm, inputs.symm⟩

theorem size_eq (same : Retagged g g') : g'.size = g.size := by
  -- a graph has a node wherever the other has one
  have within : ∀ {a b : Graph}, Retagged a b → b.size ≤ a.size := by
    intro a b same'
    refine Nat.le_of_not_lt fun bigger => ?_
    obtain ⟨nd, found⟩ := exists_node?_of_lt bigger
    obtain ⟨_, found', -⟩ := same'.origin found
    exact Nat.lt_irrefl _ (lt_size_of_node? found')
  exact Nat.le_antisymm (within same) (within same.symm)

end Retagged

theorem retagged_modifyNode {m : Nat} {f : Node → Node}
    (keeps : ∀ nd, (f nd).op = nd.op ∧ (f nd).inputs = nd.inputs) : Retagged g (g.modifyNode m f) := by
  intro n
  rw [node?_modifyNode]
  split
  · cases g.node? n with
    | none => rfl
    | some nd => simp [keeps nd]
  · rfl

theorem retagged_growOutputs (m len : Nat) : Retagged g (g.growOutputs m len) := by
  refine retagged_modifyNode fun nd => ?_
  split <;> exact ⟨rfl, rfl⟩

theorem retagged_setName (name : String) (m : Nat) : Retagged g (g.setName name m) :=
  retagged_modifyNode fun _ => ⟨rfl, rfl⟩

theorem retagged_modifyTensor (v : Handle) (f : TensorInfo → TensorInfo) :
    Retagged g (g.modifyTensor v f) :=
  retagged_modifyNode fun _ => ⟨rfl, rfl⟩

theorem retagged_clearNames : Retagged g g.clearNames := by
  intro n
  rw [node?_clearNames, Option.map_map]
  rfl

/-- Writing the body's types back to the caller's parameters changes tensors only. -/
theorem retagged_adoptTypes (body : Graph) :
    ∀ (pairs : List (Nat × Handle)) (g : Graph), Retagged g (pairs.foldl (adoptType body) g)
  | [], g => Retagged.refl g
  | (param, input) :: rest, g => by
    refine Retagged.trans ?_ (retagged_adoptTypes body rest _)
    simp only [adoptType]
    split
    · exact retagged_modifyTensor _ _
    · exact Retagged.refl g

/-! ## Forward graphs -/

/-- Every input of a node reads an older node. -/
def Forward (g : Graph) : Prop := ∀ n nd, g.node? n = some nd → ∀ h ∈ nd.inputs, h.node < n

theorem WellFormed.forward (wellFormed : g.WellFormed) : g.Forward :=
  fun n nd found h member => (wellFormed.inputs n nd found h member).1

namespace Forward

theorem retagged (forward : g.Forward) (same : Retagged g g') : g'.Forward := by
  intro n nd' found' h member
  obtain ⟨nd, found, -, inputs⟩ := same.origin found'
  exact forward n nd found h (inputs ▸ member)

/-- A node that reads only existing nodes is appended after all of them. -/
theorem addNode (forward : g.Forward) {name : String} {op : Op} {ins : List Handle}
    {outs : List TensorInfo} (older : ∀ h ∈ ins, h.node < g.size) :
    (g.addNode name op ins outs).1.Forward := by
  intro n nd found h member
  rw [node?_addNode] at found
  split at found
  · rename_i isNew
    cases found
    exact isNew ▸ older h member
  · exact forward n nd found h member

/-- The nodes below a mark read only nodes below it. -/
theorem rollback (forward : g.Forward) (mark : Nat) : (g.rollback mark).Forward := by
  intro n nd found h member
  rw [node?_rollback] at found
  split at found
  · exact forward n nd found h member
  · cases found

end Forward

end Lowering.Ir.Graph

/-! ## The copy loop of a splice -/

namespace Lowering.Pass

open Lowering.Ir

/-- A relocated value is a caller value that a body parameter stands for, or the same output of a
copy. -/
theorem Relocation.relocate_target {r : Relocation} {body : Graph} {v h : Handle}
    (relocated : r.relocate body v = .ok h) :
    (∃ p ∈ r.replaced, p.2 = h) ∨ ∃ p ∈ r.copied, h = ⟨p.2, v.output⟩ := by
  unfold relocate at relocated
  cases replacement : r.replacement? v.node with
  | some caller =>
    rw [replacement] at relocated
    cases relocated
    obtain ⟨p, found, rfl⟩ := Option.map_eq_some_iff.mp replacement
    exact .inl ⟨p, List.mem_reverse.mp (List.mem_of_find?_eq_some found), rfl⟩
  | none =>
    rw [replacement] at relocated
    simp only at relocated
    split at relocated
    · rename_i p copy found
      cases relocated
      exact .inr ⟨(p, copy), List.mem_of_find?_eq_some found, rfl⟩
    · cases relocated

end Lowering.Pass

namespace Lowering.Ir.Graph

open Lowering.Pass

variable {g : Graph}

/-- Every value a relocation hands out names a node of `g`. -/
def Reaches (g : Graph) (r : Relocation) : Prop :=
  (∀ p ∈ r.replaced, p.2.node < g.size) ∧ ∀ p ∈ r.copied, p.2 < g.size

/-- A copy reads relocated values, which name existing nodes, so it comes after them. -/
theorem Forward.copy (forward : g.Forward) {r : Relocation} (reaches : Reaches g r) {body : Graph}
    {n : Nat} {nd : Node} {ins : List Handle} (mapped : nd.inputs.mapM (r.relocate body) = .ok ins) :
    (g.addNode nd.name nd.op ins nd.outputs).1.Forward ∧
      Reaches (g.addNode nd.name nd.op ins nd.outputs).1 { r with copied := r.copied ++ [(n, g.size)] } := by
  have older : ∀ h ∈ ins, h.node < g.size := by
    intro h member
    obtain ⟨v, -, relocated⟩ := exists_mem_of_mapM_ok mapped h member
    rcases Relocation.relocate_target relocated with ⟨p, replaced, rfl⟩ | ⟨p, copied, rfl⟩
    · exact reaches.1 p replaced
    · exact reaches.2 p copied
  refine ⟨forward.addNode older, fun p replaced => ?_, fun p copied => ?_⟩
  · simpa using Nat.lt_succ_of_lt (reaches.1 p replaced)
  · rcases List.mem_append.mp copied with old | new
    · simpa using Nat.lt_succ_of_lt (reaches.2 p old)
    · simp [List.mem_singleton.mp new]

/-- A splice on existing values keeps a graph forward, whatever the body and however far the
copy gets. -/
theorem Forward.splice (forward : g.Forward) (body : Model) (opType : String) {inputs : List Handle}
    (older : ∀ h ∈ inputs, h.node < g.size) : (g.splice body opType inputs).1.Forward := by
  unfold Graph.splice
  split
  · exact forward
  · have adopted := retagged_adoptTypes body.graph (body.parameters.zip inputs) g
    have sameSize : (List.foldl (adoptType body.graph) g (body.parameters.zip inputs)).size = g.size :=
      adopted.size_eq
    dsimp only
    split
    · exact forward.retagged adopted
    · rename_i order _
      have start : Reaches (List.foldl (adoptType body.graph) g (body.parameters.zip inputs))
          { replaced := body.parameters.zip inputs } :=
        ⟨fun p member => sameSize ▸ older p.2 (List.of_mem_zip member).2,
          fun p member => absurd member List.not_mem_nil⟩
      obtain ⟨⟨r, copied, -⟩, -⟩ := copyNodes_keeps body.graph
        (fun g r => g.Forward ∧ Reaches g r)
        (fun _ _ _ _ _ holds _ _ mapped => holds.1.copy holds.2 mapped) order _ _
        ⟨forward.retagged adopted, start⟩
      split <;> rename_i copiedEq <;> rw [copiedEq] at copied <;> exact copied

/-! ## Graphs the graph operations build -/

/-- The graphs that the graph operations build from the empty graph when every appended node
reads only nodes that exist. The forms of `addNode` (parameters, constants, results, stand-ins)
are `addNode` itself. -/
inductive Built : Graph → Prop
  | empty : Built {}
  | addNode {g : Graph} (name : String) (op : Op) (ins : List Handle) (outs : List TensorInfo) :
      Built g → (∀ h ∈ ins, h.node < g.size) → Built (g.addNode name op ins outs).1
  | growOutputs {g : Graph} (n len : Nat) : Built g → Built (g.growOutputs n len)
  | setName {g : Graph} (name : String) (n : Nat) : Built g → Built (g.setName name n)
  | rename {g : Graph} (n : Nat) (name : String) :
      Built g → Built (g.modifyNode n fun nd => { nd with name := name })
  | modifyTensor {g : Graph} (v : Handle) (f : TensorInfo → TensorInfo) :
      Built g → Built (g.modifyTensor v f)
  | clearNames {g : Graph} : Built g → Built g.clearNames
  | splice {g : Graph} (body : Model) (opType : String) (inputs : List Handle) :
      Built g → (∀ h ∈ inputs, h.node < g.size) → Built (g.splice body opType inputs).1
  | rollback {g : Graph} (mark : Nat) : Built g → Built (g.rollback mark)

/-- Every graph the graph operations build is forward: one case per operation. -/
theorem Built.forward (built : g.Built) : g.Forward := by
  induction built with
  | empty => exact fun n nd found => by simp [node?] at found
  | addNode _ _ _ _ _ older forward => exact forward.addNode older
  | growOutputs n len _ forward => exact forward.retagged (retagged_growOutputs n len)
  | setName name n _ forward => exact forward.retagged (retagged_setName name n)
  | rename n name _ forward => exact forward.retagged (retagged_modifyNode fun _ => ⟨rfl, rfl⟩)
  | modifyTensor v f _ forward => exact forward.retagged (retagged_modifyTensor v f)
  | clearNames _ forward => exact forward.retagged retagged_clearNames
  | splice body opType _ _ older forward => exact forward.splice body opType older
  | rollback mark _ forward => exact forward.rollback mark

end Lowering.Ir.Graph
