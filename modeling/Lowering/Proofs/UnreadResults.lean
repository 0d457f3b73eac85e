import Lowering.Proofs.Spliceable
import Lowering.Proofs.CacheCounts

/-! # No node reads a result

A pass never wires a result into another node: a node reads only values the pass resolved from its
bindings or values a translator made, and a result's value is never bound. Two invariants carry
this, both on top of soundness:

* `Workspace.Sealed` — a translator's graph reads no result (`Kind.run_sealed`, one case per stock
  translator);
* `PassState.Unread` — the pass's graph reads no result and no binding holds a result's value: a
  value registered for an operation is bound only when it is no result's, a stand-in that grows is
  no result, and a splice on readable values gives readable values.

A lowered model is therefore a body a splice always takes (`lowerGraph_spliceable`), and so is every
entry of a session's body cache (`bodySource_spliceable`).
-/

namespace Lowering.Translator

open Lowering.Ir Lowering.Pass Lowering.Proofs

/-- A sound workspace whose graph reads no result. -/
structure Workspace.Sealed (base : Graph) (w : Workspace) : Prop extends Workspace.Sound base w where
  reads : w.graph.ReadsValues

namespace Workspace.Sealed

variable {base : Graph} {w : Workspace}

theorem addNode (sealed : Sealed base w) {name : String} {op : Op} {ins : List Handle}
    {outs : List TensorInfo} (valid : ∀ h ∈ ins, base.hasOutput h)
    (readable : ∀ h ∈ ins, base.Readable h.node) (arity : op = .result → ins.length = 1) :
    Sealed base { w with graph := (w.graph.addNode name op ins outs).1 } :=
  { sealed.toSound.addNode valid arity with
    reads := sealed.reads.addNode fun h member => (readable h member).of_extends sealed.grows }

theorem setName (sealed : Sealed base w) (name : String) (n : Nat) :
    Sealed base { w with graph := w.graph.setName name n } :=
  { sealed.toSound.setName name n with reads := sealed.reads.retagged (Graph.retagged_setName name n) }

end Workspace.Sealed

namespace Context

variable (ctx : Context) {base : Graph}

theorem addOp_sealed (opType : String) {ins : List Handle} (outs : List TensorInfo)
    (valid : ∀ h ∈ ins, base.hasOutput h) (readable : ∀ h ∈ ins, base.Readable h.node) :
    Triple (Workspace.Sealed base) (ctx.addOp opType ins outs) (fun _ => Workspace.Sealed base)
      (Workspace.Sealed base) := by
  unfold addOp
  refine Triple.get_bind fun w sealed => ?_
  refine Triple.set_bind ?_ (Triple.pure fun _ holds => holds)
  exact (sealed.addNode valid readable (fun isResult => Op.noConfusion isResult)).setName
    ctx.op.name w.graph.size

theorem bodyModel_sealed (bodies : ctx.bodies.Sound) (identity : String) (ins : List Handle) :
    Triple (Workspace.Sealed base) (ctx.bodyModel identity ins)
      (fun r w => Workspace.Sealed base w ∧ ∀ m, r = .ok (some m) → m.graph.WellFormed)
      (Workspace.Sealed base) := by
  unfold bodyModel
  refine Triple.get_bind fun w sealed => ?_
  obtain ⟨cacheSound, delivered⟩ := bodies identity ins w.graph w.cache sealed.cache
  exact Triple.set_bind (show Workspace.Sealed base _ from
    ⟨⟨sealed.graph, sealed.grows, cacheSound⟩, sealed.reads⟩) (Triple.pure fun _ holds => ⟨holds, delivered⟩)

end Context

namespace Kind

variable {base : Graph}

/-- Splicing a body again and again on readable values keeps the workspace's graph reading no
result, whether a round fails or not. -/
theorem repeatSplice_sealed (ctx : Context) (bodies : ctx.bodies.Sound) (body : String)
    {ins : List Handle} (valid : ∀ h ∈ ins, base.hasOutput h) (readable : ∀ h ∈ ins, base.Readable h.node) :
    ∀ (times : Nat) (acc : List Handle),
      Triple (Workspace.Sealed base) (repeatSplice ctx body ins times acc)
        (fun _ => Workspace.Sealed base) (Workspace.Sealed base)
  | 0, acc => Triple.pure fun _ holds => holds
  | times + 1, acc => by
    simp only [repeatSplice]
    refine Triple.bind (ctx.bodyModel_sealed bodies body ins) fun found => ?_
    split
    · exact fun _ holds => holds.1
    · exact fun _ holds => holds.1
    · rename_i m
      refine Triple.get_bind fun w pre => ?_
      obtain ⟨sealed, delivered⟩ := pre
      obtain ⟨splicedWellFormed, splicedGrows, -⟩ :=
        splice_sound body sealed.graph (delivered m rfl)
          (fun h member => sealed.grows.hasOutput (valid h member))
      have splicedReads := (sealed.reads.splice m body
        fun h member => (readable h member).of_extends sealed.grows).1
      refine Triple.set_bind (show Workspace.Sealed base _ from
        ⟨⟨splicedWellFormed, sealed.grows.trans splicedGrows, sealed.cache⟩, splicedReads⟩) ?_
      split
      · exact fun _ holds => holds
      · exact repeatSplice_sealed ctx bodies body valid readable times _

/-- Every stock translator, given readable inputs that exist, keeps its workspace's graph reading
no result, whether it succeeds or fails. -/
theorem run_sealed (k : Kind) (ctx : Context) (bodies : ctx.bodies.Sound)
    (valid : ∀ h ∈ ctx.inputs, base.hasOutput h) (readable : ∀ h ∈ ctx.inputs, base.Readable h.node) :
    Triple (Workspace.Sealed base) (k.run ctx) (fun _ => Workspace.Sealed base)
      (Workspace.Sealed base) := by
  have keeps : ∀ w, Workspace.Sealed base w → Workspace.Sealed base w := fun _ holds => holds
  have done {a : List Labeled} : Triple (Workspace.Sealed base) (pure a : TranslatorM _)
      (fun _ => Workspace.Sealed base) (Workspace.Sealed base) := Triple.pure keeps
  have none : ∀ h ∈ ([] : List Handle), base.Readable h.node := fun _ member => absurd member List.not_mem_nil
  have noneExist : ∀ h ∈ ([] : List Handle), base.hasOutput h := fun _ member => absurd member List.not_mem_nil
  cases k with
  | unary =>
    refine ctx.input_bind 0 keeps fun x member => ?_
    refine (Context.tensor_unchanging x).bind keeps fun t => ?_
    refine Triple.bind (ctx.addOp_sealed _ _ ?_ ?_) fun _ => done
    · simpa using valid x member
    · simpa using readable x member
  | binary =>
    refine ctx.input_bind 0 keeps fun a first => ?_
    refine ctx.input_bind 1 keeps fun b second => ?_
    refine (Context.tensor_unchanging a).bind keeps fun t => ?_
    refine Triple.bind (ctx.addOp_sealed _ _ ?_ ?_) fun _ => done
    · simpa using ⟨valid a first, valid b second⟩
    · simpa using ⟨readable a first, readable b second⟩
  | variadic =>
    refine (ctx.attrOr_unchanging _ _ _).bind keeps fun count => ?_
    dsimp only
    split
    · refine ((Context.tensor_unchanging _).map _).bind keeps fun info => ?_
      exact Triple.bind (ctx.addOp_sealed _ _ valid readable) fun _ => done
    · refine (Unchanging.pure _).bind keeps fun info => ?_
      exact Triple.bind (ctx.addOp_sealed _ _ valid readable) fun _ => done
  | grouped =>
    refine (ctx.attrOr_unchanging _ _ _).bind keeps fun groups => ?_
    exact Triple.bind (ctx.addOp_sealed _ _ valid readable) fun _ => done
  | identity => exact ctx.input_bind 0 keeps fun _ _ => done
  | result =>
    -- a result reads one input, which is readable; the result itself is never bound
    refine ctx.input_bind 0 keeps fun x member => ?_
    refine (ctx.attrOr_unchanging _ _ _).bind keeps fun name => ?_
    refine Triple.get_bind fun w sealed => ?_
    refine Triple.set_bind (show Workspace.Sealed base _ from ?_) done
    exact sealed.addNode (by simpa using valid x member) (by simpa using readable x member) (fun _ => rfl)
  | parameter =>
    refine (ctx.attrOr_unchanging _ _ _).bind keeps fun t => ?_
    refine (ctx.attrOr_unchanging _ _ _).bind keeps fun shape => ?_
    refine (ctx.attrOr_unchanging _ _ _).bind keeps fun name => ?_
    refine Triple.get_bind fun w sealed => ?_
    refine Triple.set_bind (show Workspace.Sealed base _ from ?_) done
    exact (sealed.addNode noneExist none (fun isResult => Op.noConfusion isResult)).setName _ _
  | constant =>
    refine (ctx.attr_unchanging _ _).bind keeps fun c => ?_
    refine Triple.get_bind fun w sealed => ?_
    refine Triple.set_bind (show Workspace.Sealed base _ from ?_) done
    exact (sealed.addNode noneExist none (fun isResult => Op.noConfusion isResult)).setName _ _
  | fail =>
    refine (ctx.attrOr_unchanging _ _ _).bind keeps fun message => ?_
    exact Triple.bind (ctx.addOp_sealed _ _ valid readable) fun _ => fun _ holds => holds
  | failAttr => exact (ctx.attr_unchanging _ _).bind keeps fun _ => fun _ holds => holds
  | abort => exact (ctx.attrOr_unchanging _ _ _).bind keeps fun _ => fun _ holds => holds
  | abortText => exact fun _ holds => holds
  | abortSilent => exact fun _ holds => holds
  | strayHandle =>
    refine (ctx.attrOr_unchanging _ _ _).bind keeps fun output => ?_
    exact Triple.bind (ctx.addOp_sealed _ _ noneExist none) fun _ => done
  | inputOutOfRange =>
    refine (ctx.attrOr_unchanging _ _ _).bind keeps fun i => ?_
    split
    · exact done
    · exact fun _ holds => holds
  | repeatBody =>
    refine (ctx.attrOr_unchanging _ _ _).bind keeps fun body => ?_
    refine (ctx.attrOr_unchanging _ _ _).bind keeps fun times => ?_
    refine (ctx.attrOr_unchanging _ _ _).bind keeps fun giveUp => ?_
    refine Triple.bind (repeatSplice_sealed ctx bodies body valid readable times []) fun _ => ?_
    split
    · exact fun _ holds => holds
    · exact done

end Kind

end Lowering.Translator

namespace Lowering.Pass

open Lowering.Ir Lowering.Proofs Lowering.Translator
open Lowering.Source (Sink)

/-- A pass state whose graph reads no result and whose bindings hold no result's value. -/
structure PassState.Unread (s : PassState) : Prop where
  graph : s.graph.ReadsValues
  bound : ∀ e ∈ s.bindings.entries, ∀ v ∈ e.2, s.graph.Readable v.handle.node

namespace PassState.Unread

variable {s : PassState}

/-- A state with the same bindings and a graph that reads no result and keeps every readable node
is unread. -/
theorem of_graph (unread : s.Unread) {s' : PassState} (reads : s'.graph.ReadsValues)
    (bindings : s'.bindings = s.bindings) (keeps : ∀ n, s.graph.Readable n → s'.graph.Readable n) :
    s'.Unread :=
  ⟨reads, fun e entry v member => keeps _ (unread.bound e (bindings ▸ entry) v member)⟩

theorem holds (unread : s.Unread) {h : Handle} (held : s.bindings.Holds h) : s.graph.Readable h.node := by
  obtain ⟨name, vs, found, v, member, rfl⟩ := held
  exact unread.bound _ (Bindings.mem_of_get? found) v member

end PassState.Unread

/-! ## Binding and resolving -/

theorem bindName_unread (name : String) (vs : List Labeled) :
    Triple (fun s => s.Unread ∧ ∀ v ∈ vs, s.graph.Readable v.handle.node) (bindName name vs)
      (fun _ => PassState.Unread) PassState.Unread := by
  refine (bindName_spec name vs).conseq (fun s ⟨unread, readable⟩ => ⟨fun b bound => ⟨unread.graph, ?_⟩, unread⟩)
    (fun _ _ holds => holds) (fun _ holds => holds)
  intro e entry
  rcases Bindings.mem_bind bound entry with rfl | old
  · exact readable
  · exact unread.bound e old

theorem Graph.node_of_mem_outputs {g : Graph} {n : Nat} {h : Handle} (member : h ∈ g.outputs n) :
    h.node = n := by
  unfold Graph.outputs at member
  cases found : g.node? n with
  | none => simp [found] at member
  | some nd =>
    simp only [found, List.mem_map, List.mem_range] at member
    obtain ⟨p, -, rfl⟩ := member
    rfl

/-- A regrowth keeps a state unread: the grown node is a stand-in, no result, and only its outputs
are bound anew. -/
theorem Regrown.unread {producer : String} {s s' : PassState} (grown : Regrown producer s s')
    (unread : s.Unread) : s'.Unread ∧ Graph.Retagged s.graph s'.graph := by
  obtain ⟨vs, first, len, -, -, standIn, rfl⟩ := grown
  have same := Graph.retagged_growOutputs (g := s.graph) first.handle.node len
  refine ⟨⟨unread.graph.retagged same, fun e entry => ?_⟩, same⟩
  rcases Bindings.mem_rebind entry with rfl | old
  · intro v member
    obtain ⟨h, inOutputs, rfl⟩ := List.mem_map.mp member
    rw [Graph.node_of_mem_outputs inOutputs]
    -- the stand-in behind the producer's first value is no result
    unfold Lowering.Pass.standIn at standIn
    cases found : s.graph.node? first.handle.node with
    | none => simp [found] at standIn
    | some nd =>
      simp only [found, Option.elim] at standIn
      refine Graph.Readable.retagged ⟨nd, found, fun isResult => ?_⟩ same
      rw [isResult] at standIn
      cases standIn
  · exact fun v member => (unread.bound e old v member).retagged same

/-- Resolving one more input keeps a state unread and gives a readable value. -/
theorem resolveInput_unread (op : Source.Operation) (e : Source.Edge) (i : Nat) (done : List (Option Handle)) :
    Triple (fun s => s.Unread ∧ ∀ r ∈ done, ∀ h, r = some h → s.graph.Readable h.node) (resolveInput op i e)
      (fun r s => s.Unread ∧ ∀ r' ∈ done ++ [r], ∀ h, r' = some h → s.graph.Readable h.node)
      PassState.Unread := by
  refine Triple.of_each fun s ⟨unread, resolved⟩ => ?_
  refine (resolveInput_effect op i e s).conseq (fun _ same => same) ?_ ?_
  · rintro r s' ⟨effect, bound⟩
    obtain ⟨unread', keeps⟩ : s'.Unread ∧ ∀ n, s.graph.Readable n → s'.graph.Readable n := by
      rcases effect with rfl | grown
      · exact ⟨unread, fun _ holds => holds⟩
      · obtain ⟨unread', same⟩ := grown.unread unread
        exact ⟨unread', fun _ holds => holds.retagged same⟩
    refine ⟨unread', fun r' member h isSome => ?_⟩
    rcases List.mem_append.mp member with old | new
    · exact keeps _ (resolved r' old h isSome)
    · rw [List.mem_singleton.mp new] at isSome
      exact unread'.holds (bound h isSome)
  · rintro s' (rfl | grown)
    · exact unread
    · exact (grown.unread unread).1

theorem resolveInputs_unread (op : Source.Operation) :
    Triple PassState.Unread (resolveInputs op)
      (fun hs s => s.Unread ∧ ∀ h ∈ hs, s.graph.Readable h.node) PassState.Unread := by
  unfold resolveInputs
  split
  · exact Triple.pure fun _ unread => ⟨unread, fun _ member => absurd member List.not_mem_nil⟩
  · refine Triple.bind ((Triple.mapM (fun ⟨e, i⟩ _ done => resolveInput_unread op e i done) []).conseq
      (fun _ unread => ⟨unread, by simp⟩) (fun _ _ holds => holds) (fun _ holds => holds))
      fun found => Triple.pure ?_
    rintro s ⟨unread, resolved⟩
    refine ⟨unread, fun h member => resolved (some h) ?_ h rfl⟩
    simpa using List.reduceOption_mem_iff.mp member

/-! ## Stand-ins and dispatch -/

theorem passthrough_unread (op : Source.Operation) (inputs : List Handle) (failure : Option String) :
    Triple (fun s => s.Unread ∧ ∀ h ∈ inputs, s.graph.Readable h.node)
      (passthrough op inputs failure) (fun _ => PassState.Unread) PassState.Unread := by
  unfold passthrough
  refine Triple.get_bind fun s ⟨unread, readable⟩ => ?_
  refine Triple.set_bind_state (Triple.pure ?_)
  rintro _ rfl
  have grows := Graph.extends_addNode (g := s.graph) ""
    (.framework op.opType op.attrs failure) inputs (List.replicate op.numOutputs {})
  have same := Graph.retagged_setName (g := (s.graph.addFramework "" op.opType op.attrs failure inputs
    op.numOutputs).1) op.name s.graph.size
  exact unread.of_graph ((unread.graph.addNode readable).retagged same) rfl
    (fun _ holds => (holds.of_extends grows).retagged same)

theorem retagged_renamed (op : Source.Operation) (vs : List Handle) (g : Graph) :
    Graph.Retagged g (vs.zipIdx.foldl (fun g (v, i) =>
      g.modifyTensor v fun t => { t with names := [op.name ++ ":" ++ toString i] }) g) := by
  refine foldl_invariant (fun g' => Graph.Retagged g g') ?_ g (Graph.Retagged.refl g)
  rintro g' ⟨v, i⟩ - same
  exact same.trans (Graph.retagged_modifyTensor _ _)

/-- Dispatching an operation on readable values keeps a sound state unread: a translator's graph
reads no result, a rollback keeps the older nodes, and a library body is spliced on readable
values. -/
theorem dispatch_unread {base : PassState} (env : Env) (bodies : env.bodies.Sound)
    (op : Source.Operation) (inputs : List Handle) :
    Triple (fun s => PassState.Sound base s ∧ s.Unread ∧ (∀ h ∈ inputs, s.graph.hasOutput h) ∧
        ∀ h ∈ inputs, s.graph.Readable h.node)
      (dispatch env op inputs) (fun _ => PassState.Unread) PassState.Unread := by
  unfold dispatch
  split
  · rename_i kind _
    refine Triple.get_bind fun s ⟨sound, unread, valid, readable⟩ => ?_
    dsimp only
    split
    rename_i outcome w ranEq
    -- the translator keeps its graph reading no result whether it succeeds or fails
    have worked : Workspace.Sealed s.graph w := by
      have ran := Kind.run_sealed kind ⟨op, inputs, env.bodies⟩ bodies valid readable ⟨s.graph, s.cache⟩
        ⟨⟨sound.graph, Graph.Extends.refl _, sound.cache⟩, unread.graph⟩
      rw [ranEq] at ran
      cases outcome <;> exact ran
    split
    · refine Triple.set_bind_state (Triple.pure ?_)
      rintro _ rfl
      exact unread.of_graph worked.reads rfl fun _ holds => holds.of_extends worked.grows
    · -- the nodes the translator added are dropped, and a stand-in takes its place
      have kept := worked.grows.rollback
      refine Triple.set_bind_state ((passthrough_unread op inputs _).conseq ?_
        (fun _ _ holds => holds) (fun _ holds => holds))
      rintro _ rfl
      exact ⟨unread.of_graph (worked.reads.rollback worked.graph.forward _) rfl
        fun _ holds => holds.of_extends kept, fun h member => (readable h member).of_extends kept⟩
  · refine Triple.get_bind fun s ⟨sound, unread, valid, readable⟩ => ?_
    obtain ⟨-, delivered⟩ := bodies op.opType inputs s.graph s.cache sound.cache
    generalize env.bodies op.opType inputs s.graph s.cache = found at delivered ⊢
    obtain ⟨found, cache⟩ := found
    dsimp only
    have withCache : PassState.Unread { s with cache := cache } := ⟨unread.graph, unread.bound⟩
    refine Triple.set_bind_state ?_
    refine Triple.liftExcept_bind (fun _ same => same ▸ withCache) fun r isOk => ?_
    split
    · exact (passthrough_unread op inputs none).conseq (fun _ same => same ▸ ⟨withCache, readable⟩)
        (fun _ _ holds => holds) (fun _ holds => holds)
    · rename_i body
      refine Triple.get_bind fun _ same => ?_
      subst same
      dsimp only
      obtain ⟨-, splicedGrows, -⟩ := splice_sound op.opType sound.graph (delivered body (isOk ▸ rfl)) valid
      have splicedReads := (unread.graph.splice body op.opType readable).1
      generalize s.graph.splice body op.opType inputs = call at splicedReads splicedGrows ⊢
      obtain ⟨g, values⟩ := call
      dsimp only
      have withSplice : PassState.Unread { s with cache := cache, graph := g } :=
        unread.of_graph splicedReads rfl fun _ holds => holds.of_extends splicedGrows
      refine Triple.set_bind_state ?_
      refine Triple.liftExcept_bind (fun _ same => same ▸ withSplice) fun vs found => ?_
      refine Triple.modify_bind fun _ same => ?_
      subst same
      refine Triple.pure ?_
      rintro _ rfl
      have same := retagged_renamed op vs g
      exact withSplice.of_graph (splicedReads.retagged same) rfl fun _ holds => holds.retagged same

/-- Registering values that exist binds only values that are no result's. -/
theorem register_unread (op : Source.Operation) (vs : List Labeled) :
    Triple (fun s => s.Unread ∧ Exist vs s) (register op vs) (fun _ => PassState.Unread)
      PassState.Unread := by
  unfold register
  refine Triple.get_bind fun s ⟨unread, exist⟩ => ?_
  split
  rename_i kept ps rs folded
  -- the fold keeps only values whose node is no result
  let Safe (acc : List Labeled × List Nat × List Nat) : Prop := ∀ v ∈ acc.1, s.graph.Readable v.handle.node
  have keptReadable : Safe (kept, ps, rs) := by
    rw [← folded]
    refine foldl_invariant Safe ?_ _ (fun _ member => absurd member List.not_mem_nil)
    rintro ⟨kept', ps', rs'⟩ v member holds
    dsimp only
    split
    · exact holds
    · rename_i notResult
      intro w inKept
      rcases List.mem_append.mp inKept with old | new
      · exact holds w old
      · rw [List.mem_singleton.mp new]
        obtain ⟨nd, found, -⟩ := Graph.hasOutput_iff.mp (exist v member)
        refine ⟨nd, found, fun isResult => notResult ?_⟩
        simp [found, isResult, Op.isResult]
  refine Triple.set_bind_state ?_
  split
  · exact (bindName_unread op.name kept).conseq (fun _ same => same ▸ ⟨⟨unread.graph, unread.bound⟩, keptReadable⟩)
      (fun _ _ holds => holds) (fun _ holds => holds)
  · exact Triple.pure fun _ same => same ▸ ⟨unread.graph, unread.bound⟩

/-! ## Inputs and operations -/

/-- A node appended without inputs, then named, reads nothing and keeps every readable node; it is
readable unless it is a result. -/
theorem named_single_unread {g : Graph} (reads : g.ReadsValues) (name : String) (op : Op)
    (t : TensorInfo) (notResult : op ≠ .result) :
    let g' := (g.addNode "" op [] [t]).1.setName name g.size
    g'.ReadsValues ∧ (∀ n, g.Readable n → g'.Readable n) ∧ g'.Readable g.size := by
  have grows := Graph.extends_addNode (g := g) "" op [] [t]
  have same := Graph.retagged_setName (g := (g.addNode "" op [] [t]).1) name g.size
  exact ⟨(reads.addNode fun _ member => absurd member List.not_mem_nil).retagged same,
    fun _ holds => (holds.of_extends grows).retagged same,
    (Graph.readable_addNode_self notResult).retagged same⟩

theorem freezeInputs_unread (places : List Source.Place) :
    Triple PassState.Unread (freezeInputs places) (fun _ => PassState.Unread) PassState.Unread := by
  refine Triple.forM fun p _ => ?_
  split
  · exact Triple.pure fun _ holds => holds
  · rename_i c _
    refine Triple.get_bind fun s unread => ?_
    split
    rename_i g h added
    rw [Graph.addConstant_eq] at added
    cases added
    obtain ⟨reads, keeps, fresh⟩ :=
      named_single_unread unread.graph p.name (.constant c) _ (fun isResult => Op.noConfusion isResult)
    refine Triple.set_bind_state ((bindName_unread p.name _).conseq ?_
      (fun _ _ holds => holds) (fun _ holds => holds))
    rintro _ rfl
    exact ⟨unread.of_graph reads rfl keeps, fun v member => List.mem_singleton.mp member ▸ fresh⟩

theorem openInputs_unread (options : Options) (places : List Source.Place) :
    Triple PassState.Unread (openInputs options places) (fun _ => PassState.Unread) PassState.Unread := by
  refine Triple.forM fun p _ => ?_
  split
  · exact Triple.pure fun _ holds => holds
  · refine Triple.get_bind fun s unread => ?_
    split
    · exact Triple.pure fun _ same => same ▸ unread
    · simp only [Graph.addParameter_eq]
      obtain ⟨reads, keeps, fresh⟩ :=
        named_single_unread unread.graph p.name .parameter _ (fun isResult => Op.noConfusion isResult)
      refine Triple.set_bind_state ((bindName_unread p.name _).conseq ?_
        (fun _ _ holds => holds) (fun _ holds => holds))
      rintro _ rfl
      exact ⟨unread.of_graph reads rfl keeps, fun v member => List.mem_singleton.mp member ▸ fresh⟩

/-- Translating the operations in order keeps a sound state unread: each step keeps both. -/
theorem translateOperations_unread {base : PassState} (env : Env) (bodies : env.bodies.Sound)
    (ops : List Source.Operation) :
    Triple (fun s => PassState.Sound base s ∧ s.Unread) (translateOperations env ops)
      (fun _ s => PassState.Sound base s ∧ s.Unread) (fun s => PassState.Sound base s ∧ s.Unread) := by
  refine Triple.forM fun op _ => ?_
  refine Triple.get_bind fun s ⟨sound, unread⟩ => ?_
  split
  · exact Triple.pure fun _ same => same ▸ ⟨sound, unread⟩
  · refine Triple.bind ((Triple.and (resolveInputs_sound op) (resolveInputs_unread op)).conseq
      (fun _ same => same ▸ ⟨sound, unread⟩) (fun _ _ holds => holds) (fun _ holds => holds))
      fun inputs => ?_
    refine Triple.bind ((Triple.and (dispatch_sound env bodies op inputs)
      (dispatch_unread env bodies op inputs)).conseq
      (fun _ ⟨⟨sound', valid⟩, unread', readable⟩ => ⟨⟨sound', valid⟩, sound', unread', valid, readable⟩)
      (fun _ _ holds => holds) (fun _ holds => holds)) fun vs => ?_
    exact (Triple.and (register_sound op vs) (register_unread op vs)).conseq
      (fun _ ⟨⟨sound', exist⟩, unread'⟩ => ⟨⟨sound', exist⟩, unread', exist⟩)
      (fun _ _ holds => holds) (fun _ holds => holds)

/-! ## Results and names -/

/-- Results read bound values, which are readable, so the graph still reads no result. -/
theorem assembleResults_unread (src : Source.Graph) :
    Triple PassState.Unread (assembleResults src) (fun _ => PassState.Unread) PassState.Unread := by
  unfold assembleResults
  refine Triple.get_bind fun s unread => ?_
  let Reading (g : Graph) (_ : List Nat) : Prop := g.ReadsValues ∧ s.graph.Extends g
  have add : ∀ g acc (v : Handle) name, Reading g acc →
      (∃ e ∈ s.bindings.entries, ∃ w ∈ e.2, w.handle = v) →
        Reading (g.addResult v name).1 (acc ++ [(g.addResult v name).2]) := by
    rintro g acc v name ⟨reads, grows⟩ ⟨e, entry, w, member, rfl⟩
    rw [Graph.addResult_eq]
    exact ⟨reads.addNode (by simpa using (unread.bound e entry w member).of_extends grows),
      grows.trans (Graph.extends_addNode _ _ _ _)⟩
  split
  · exact Triple.pure fun _ same => same ▸ unread
  · refine Triple.liftExcept_bind (fun _ same => same ▸ unread) fun ⟨g, rs⟩ declared => ?_
    have declaredReading : Reading g rs :=
      declaredResults_keeps Reading add ⟨unread.graph, Graph.Extends.refl _⟩ declared
    refine Triple.set_bind_state ?_
    split
    · exact Triple.pure fun _ same => same ▸
        unread.of_graph declaredReading.1 rfl fun _ holds => holds.of_extends declaredReading.2
    · have terminal := terminalResults_keeps (b := s.bindings) Reading add (g := g) declaredReading
      exact Triple.set fun _ _ => unread.of_graph terminal.1 rfl fun _ holds => holds.of_extends terminal.2

theorem retagged_restoreParameterNames (g : Graph) (params : List Nat) (registry : List (String × String)) :
    Graph.Retagged g (restoreParameterNames g params registry) := by
  refine foldl_invariant (fun g' => Graph.Retagged g g') ?_ g (Graph.Retagged.refl g)
  rintro g' p - same
  dsimp only
  split
  · exact same.trans (Graph.retagged_setName _ p)
  · exact same.trans (Graph.retagged_modifyTensor _ _)

theorem retagged_restoreResultNames (g : Graph) (results : List Nat) (registry : List (String × String)) :
    Graph.Retagged g (restoreResultNames g results registry) := by
  refine foldl_invariant (fun g' => Graph.Retagged g g') ?_ g (Graph.Retagged.refl g)
  rintro g' r - same
  dsimp only
  split
  · exact same
  · split
    · refine same.trans (Graph.Retagged.trans ?_ (Graph.retagged_modifyTensor _ _))
      exact Graph.retagged_modifyNode fun _ => ⟨rfl, rfl⟩
    · exact same.trans (Graph.retagged_modifyTensor _ _)

/-- Restoring names and ordering parameters and results keeps a state unread. -/
theorem finishNames_unread (src : Source.Graph) :
    Triple PassState.Unread (finishNames src) (fun _ => PassState.Unread) PassState.Unread := by
  unfold finishNames
  refine Triple.get_bind fun s unread => ?_
  extract_lets parametersNamed named nameOf
  have first : Graph.Retagged s.graph parametersNamed := by
    unfold parametersNamed
    split
    · split
      · exact Graph.Retagged.refl _
      · exact retagged_restoreParameterNames _ _ _
    · exact Graph.Retagged.refl _
  have second : Graph.Retagged s.graph named := by
    unfold named
    split
    · split
      · exact first
      · exact first.trans (retagged_restoreResultNames _ _ _)
    · exact first
  refine Triple.liftExcept_bind (fun _ same => same ▸ unread) fun ps _ => ?_
  refine Triple.liftExcept_bind (fun _ same => same ▸ unread) fun rs _ => ?_
  exact Triple.set fun _ _ => unread.of_graph (unread.graph.retagged second) rfl fun _ holds => holds.retagged second

end Lowering.Pass

namespace Lowering

open Lowering.Ir Lowering.Pass Lowering.Proofs Lowering.Translator

/-! ## Passes and sessions -/

/-- A pass with a source of well-formed bodies, from a sound cache, lowers a model whose graph
reads no result. -/
theorem lowerGraph_unread (env : Env) (bodies : env.bodies.Sound) (src : Source.Graph) (name : String)
    {cache : BodyCache} (cacheSound : cache.Sound) :
    ∀ M, ((lowerGraph env src name).run cache).1 = .ok M → M.graph.ReadsValues := by
  unfold lowerGraph
  extract_lets pass
  let start : PassState := { cache := cache }
  have started : PassState.Sound start start := PassState.Sound.start cacheSound
  have unreadStart : start.Unread :=
    ⟨fun _ _ found => by simp [start, Graph.node?] at found, fun _ entry => absurd entry List.not_mem_nil⟩
  -- soundness and the unread invariant through the inputs and the operations; the results and the
  -- names need only the latter
  have passed : Triple (· = start) pass (fun M _ => M.graph.ReadsValues) (fun _ => True) := by
    have both {x : PassM Unit}
        (sound : Triple (PassState.Sound start) x (fun _ => PassState.Sound start) (PassState.Sound start))
        (unread : Triple PassState.Unread x (fun _ => PassState.Unread) PassState.Unread) :
        Triple (fun s => PassState.Sound start s ∧ s.Unread) x
          (fun _ s => PassState.Sound start s ∧ s.Unread) (fun _ => True) :=
      (Triple.and sound unread).conseq (fun _ holds => holds) (fun _ _ holds => holds) (fun _ _ => trivial)
    have weaker {x : PassM Unit} (unread : Triple PassState.Unread x (fun _ => PassState.Unread) PassState.Unread) :
        Triple PassState.Unread x (fun _ => PassState.Unread) (fun _ => True) :=
      unread.conseq (fun _ holds => holds) (fun _ _ holds => holds) (fun _ _ => trivial)
    refine Triple.bind ((both (freezeInputs_sound src.inputs) (freezeInputs_unread src.inputs)).conseq
      (fun _ same => by subst same; exact ⟨started, unreadStart⟩) (fun _ _ holds => holds)
      (fun _ holds => holds))
      fun _ => ?_
    refine Triple.bind (both (openInputs_sound env.options src.inputs)
      (openInputs_unread env.options src.inputs)) fun _ => ?_
    refine Triple.bind ((translateOperations_unread env bodies src.operations).conseq
      (fun _ holds => holds) (fun _ _ holds => holds.2) (fun _ _ => trivial)) fun _ => ?_
    refine Triple.bind (weaker (assembleResults_unread src)) fun _ => ?_
    refine Triple.bind (weaker (finishNames_unread src)) fun _ => ?_
    exact Triple.get_bind fun s unread => Triple.pure fun _ _ => unread.graph
  simp only [StateT.run_bind, StateT.run_get, pure_bind]
  split
  rename_i r s ran
  have ended := passed start rfl
  simp only [StateT.run_bind, StateT.run_set, StateT.run_pure]
  rw [ran] at ended
  cases r with
  | error e => exact fun _ failed => by cases failed
  | ok M => exact fun _ same => by cases same; exact ended

/-- What a lowered model has that a splice needs: a well-formed graph that reads no result, and
results that are result nodes. -/
theorem lowerGraph_sealed (env : Env) (bodies : env.bodies.Sound) (src : Source.Graph) (name : String)
    {cache : BodyCache} (cacheSound : cache.Sound) (M : Model)
    (lowered : ((lowerGraph env src name).run cache).1 = .ok M) :
    M.graph.WellFormed ∧ M.graph.ReadsValues ∧ ∀ r ∈ M.results, M.graph.HasOp r .result := by
  obtain ⟨consistent, wellFormed⟩ := (lowerGraph_sound env bodies src name cacheSound).2 M lowered
  refine ⟨wellFormed, lowerGraph_unread env bodies src name cacheSound M lowered, fun r listed => ?_⟩
  obtain ⟨nd, -, found, isResult, -, -⟩ := consistent.results r listed
  exact ⟨nd, found, isResult⟩

/-- Every body in a cache is one a splice always takes. -/
def Pass.BodyCache.Spliceable (c : BodyCache) : Prop := ∀ e ∈ c.entries, e.2.Spliceable

theorem Pass.BodyCache.Spliceable.lookup {c : BodyCache} (spliceable : c.Spliceable) (sig : Signature) :
    (c.lookup sig).2.Spliceable ∧ ∀ m, (c.lookup sig).1 = some m → m.Spliceable := by
  refine ⟨spliceable, fun m found => ?_⟩
  obtain ⟨e, entry, rfl⟩ := Option.map_eq_some_iff.mp found
  exact spliceable e (List.mem_of_find?_eq_some entry)

theorem Pass.BodyCache.Spliceable.insert {c : BodyCache} (spliceable : c.Spliceable) (sig : Signature)
    {m : Model} (stored : m.Spliceable) : (c.insert sig m).Spliceable := by
  intro e member
  rcases List.mem_append.mp member with kept | new
  · exact spliceable e (List.mem_filter.mp kept).1
  · rw [List.mem_singleton.mp new]
    exact stored

/-- The body source of a session, on a sound cache of bodies a splice always takes, keeps its cache
so and hands out only such bodies: a hit hands out an entry, and a miss lowers the body, whose
names may then be cleared, which changes no operation and no input. -/
theorem bodySource_spliceable (registry : Registry) (options : Options) (library : Source.Graph) :
    ∀ depth identity inputs g (c : BodyCache), c.Sound → c.Spliceable →
      (bodySource registry options library depth identity inputs g c).2.Spliceable ∧
        ∀ m, (bodySource registry options library depth identity inputs g c).1 = .ok (some m) →
          m.Spliceable := by
  intro depth
  -- on the depth: a miss lowers the body on the body source one level less deep
  induction depth with
  | zero => exact fun _ _ _ _ _ spliceable => ⟨spliceable, fun _ found => by cases found⟩
  | succ depth inductionHypothesis =>
    intro identity inputs g c cacheSound spliceable
    simp only [bodySource]
    split
    · exact ⟨spliceable, fun _ found => by cases found⟩
    · obtain ⟨lookedUpSound, -⟩ := cacheSound.lookup (Signature.ofCall identity inputs g)
      obtain ⟨lookedUp, hit⟩ := spliceable.lookup (Signature.ofCall identity inputs g)
      split
      · rename_i m c' found
        rw [found] at lookedUp hit
        exact ⟨lookedUp, fun _ same => by cases same; exact hit m rfl⟩
      · rename_i c' found
        rw [found] at lookedUp lookedUpSound
        split
        · exact ⟨lookedUp, fun _ found => by cases found⟩
        · split
          · exact ⟨lookedUp, fun _ found => by cases found⟩
          · rename_i body _
            -- the pass over the body keeps the cache sound and spliceable through the shallower source
            have passed := @lowerGraph_keeps registry options library
              (fun c => c.Sound ∧ c.Spliceable) _ body identity
              (fun identity' _ inputs' g' c'' kept =>
                ⟨(bodySource_sound registry options library depth identity' inputs' g' c'' kept.1).1,
                  (inductionHypothesis identity' inputs' g' c'' kept.1 kept.2).1⟩) _ ⟨lookedUpSound, lookedUp⟩
            split
            · rename_i e c'' ran
              rw [ran] at passed
              exact ⟨passed.2, fun _ found => by cases found⟩
            · rename_i m c'' ran
              rw [ran] at passed
              obtain ⟨wellFormed, reads, results⟩ := lowerGraph_sealed
                ⟨registry, options, library, bodySource registry options library depth⟩
                (bodySource_sound registry options library depth) body identity lookedUpSound m
                (by rw [ran])
              have stored : (if options.clearBodyNames then { m with graph := m.graph.clearNames }
                  else m).Spliceable := by
                split
                · exact Model.Spliceable.of_readsValues wellFormed.clearNames
                    (reads.retagged Graph.retagged_clearNames)
                    fun r listed => Graph.extends_clearNames.hasOp (results r listed)
                · exact Model.Spliceable.of_readsValues wellFormed reads results
              exact ⟨passed.2.insert _ stored, fun _ same => by cases same; exact stored⟩

/-- Every graph the graph operations build, each new node reading only existing nodes, has its
edges running from older to newer nodes. Every model a pass lowers with a source of well-formed
bodies, and every body a session's cache holds after a conversion, is one a splice takes: it has a
topological order, each of its result nodes reads one value, no node reads a result, and a splice
on as many values as it has parameters succeeds. -/
theorem built_forward_and_lowered_spliceable :
    (∀ g : Graph, g.Built → g.Forward) ∧
    (∀ env : Env, env.bodies.Sound → ∀ (src : Source.Graph) (name : String) (c : BodyCache), c.Sound →
      ∀ M, ((lowerGraph env src name).run c).1 = .ok M → M.Spliceable) ∧
    ∀ s : Session, s.cache.Sound → s.cache.Spliceable → s.convertedModel.2.cache.Spliceable := by
  refine ⟨fun _ built => built.forward, fun env bodies src name c cacheSound M lowered => ?_,
    fun s cacheSound spliceable => ?_⟩
  · obtain ⟨wellFormed, reads, results⟩ := lowerGraph_sealed env bodies src name cacheSound M lowered
    exact Model.Spliceable.of_readsValues wellFormed reads results
  · unfold Session.convertedModel Session.env
    split
    · exact spliceable
    · -- the conversion's pass keeps the cache through the session's body source
      have kept := @lowerGraph_keeps s.registry s.options s.library (fun c => c.Sound ∧ c.Spliceable)
        (bodySource s.registry s.options s.library (s.library.functions.length + 1))
        s.library s.options.modelName
        (fun identity _ inputs g c kept =>
          ⟨(bodySource_sound s.registry s.options s.library _ identity inputs g c kept.1).1,
            (bodySource_spliceable s.registry s.options s.library _ identity inputs g c kept.1 kept.2).1⟩)
        _ ⟨cacheSound, spliceable⟩
      cases ran : (lowerGraph ⟨s.registry, s.options, s.library,
          bodySource s.registry s.options s.library (s.library.functions.length + 1)⟩ s.library
          s.options.modelName).run s.cache with
      | mk outcome cache =>
      rw [ran] at kept
      cases outcome with
      | error e => exact kept.2
      | ok M => exact kept.2

/-- A graph whose `n` negates its input `x`, with `n` declared as the output. -/
def negationLibrary : Source.Graph where
  inputs := [{ name := "x", elementType := .f32, shape := ⟨some [.known 2]⟩ }]
  operations := [{ name := "n", opType := "Neg", inputs := [{ producer := "x" }] }]
  outputs := [⟨"n", .all⟩]

/-- What `negationLibrary` lowers to: the parameter `x`, the negation, and a result reading it. -/
def negationModel : Model :=
  ⟨"model", ⟨#[⟨"x", .parameter, [{ elementType := .f32, shape := ⟨some [.known 2]⟩, names := ["x", "x:0"] }], []⟩,
    ⟨"n", .op "Neg" [], [{ elementType := .f32, shape := ⟨some [.known 2]⟩, names := ["n", "n:0"] }], [⟨0, 0⟩]⟩,
    ⟨"n:0", .result, [{ elementType := .f32, shape := ⟨some [.known 2]⟩ }], [⟨1, 0⟩]⟩]⟩, [0], [2]⟩

/-- A graph that calls its body `Step`, which negates its argument; the call is spliced from the
body the session caches. -/
def stepCallLibrary : Source.Graph where
  inputs := [{ name := "x", elementType := .f32, shape := ⟨some [.known 2]⟩ }]
  operations := [{ name := "call", opType := "Step", inputs := [{ producer := "x" }] }]
  outputs := [⟨"call", .all⟩]
  functions :=
    [("Step", { inputs := [{ name := "arg" }], outputs := [⟨"n", .all⟩],
                operations := [{ name := "n", opType := "Neg", inputs := [{ producer := "arg" }] }] })]

/-- The lowered negation is built by the graph operations and spliceable, and the body a session
on `stepCallLibrary` caches is spliceable. -/
theorem built_forward_and_lowered_spliceable_negation :
    (negationModel.graph.Built ∧ negationModel.graph.Forward) ∧
    ((Session.env ⟨negationLibrary, [("Neg", .unary)], {}, {}, none⟩).bodies.Sound ∧ ({} : BodyCache).Sound ∧
      ((lowerGraph (Session.env ⟨negationLibrary, [("Neg", .unary)], {}, {}, none⟩) negationLibrary
        "model").run {}).1 = .ok negationModel ∧ negationModel.Spliceable) ∧
    (({} : BodyCache).Sound ∧ ({} : BodyCache).Spliceable ∧
      (Session.convertedModel ⟨stepCallLibrary, [("Neg", .unary)], {}, {}, none⟩).2.cache.Spliceable) := by
  have built : negationModel.graph.Built := by
    show Graph.Built (((({} : Graph).addNode "x" .parameter []
      [{ elementType := .f32, shape := ⟨some [.known 2]⟩, names := ["x", "x:0"] }]).1.addNode "n" (.op "Neg" [])
      [⟨0, 0⟩] [{ elementType := .f32, shape := ⟨some [.known 2]⟩, names := ["n", "n:0"] }]).1.addNode "n:0"
      .result [⟨1, 0⟩] [{ elementType := .f32, shape := ⟨some [.known 2]⟩ }]).1
    exact .addNode _ _ _ _ (.addNode _ _ _ _ (.addNode _ _ _ _ .empty (by simp)) (by simp)) (by simp)
  have bodies := bodySource_sound [("Neg", .unary)] {} negationLibrary 1
  have empty : ({} : BodyCache).Sound := fun _ member => absurd member List.not_mem_nil
  have emptySpliceable : ({} : BodyCache).Spliceable := fun _ member => absurd member List.not_mem_nil
  have lowered : ((lowerGraph (Session.env ⟨negationLibrary, [("Neg", .unary)], {}, {}, none⟩) negationLibrary
      "model").run {}).1 = .ok negationModel := by
    rfl
  exact ⟨⟨built, built_forward_and_lowered_spliceable.1 _ built⟩,
    ⟨bodies, empty, lowered, built_forward_and_lowered_spliceable.2.1 _ bodies _ _ _ empty _ lowered⟩,
    ⟨empty, emptySpliceable, built_forward_and_lowered_spliceable.2.2 _ empty emptySpliceable⟩⟩

end Lowering
