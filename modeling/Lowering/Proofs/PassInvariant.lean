import Mathlib.Data.List.ReduceOption
import Lowering.Proofs.Bindings
import Lowering.Proofs.Translator

/-! # A lowering pass keeps its state sound

`PassState.Sound base s` is what every step of a pass keeps, counted from the state `base` the
pass started in: the graph is well formed and has every node of `base`; every bound value
exists; the parameter list extends that of `base`, and parameters and results are distinct nodes
of their kind; the body cache holds well-formed bodies.

The steps are taken one by one: binding a name, resolving an input (which may regrow a stand-in),
a stand-in for an operation, the dispatch to a translator or a library body (with the rollback
after a failed translator), and the registration of an operation's values.
-/

namespace Lowering.Pass

open Lowering.Ir Lowering.Proofs Lowering.Translator
open Lowering.Source (Operation Edge)

/-- What a pass keeps true of its state, counted from the state `base` it started in. -/
structure PassState.Sound (base s : PassState) : Prop where
  graph : s.graph.WellFormed
  grows : base.graph.Extends s.graph
  extendsParameters : base.parameters <+: s.parameters
  bound : ∀ e ∈ s.bindings.entries, ∀ v ∈ e.2, s.graph.hasOutput v.handle
  parametersNodup : s.parameters.Nodup
  parameters : ∀ p ∈ s.parameters, s.graph.HasOp p .parameter
  resultsNodup : s.results.Nodup
  results : ∀ r ∈ s.results, s.graph.HasOp r .result
  cache : s.cache.Sound

/-- The values a step hands on exist in the graph of the state it leaves. -/
def Exist (vs : List Labeled) (s : PassState) : Prop := ∀ v ∈ vs, s.graph.hasOutput v.handle

theorem Graph.hasOutput_of_mem_outputs {g : Graph} {n : Nat} {h : Handle} (member : h ∈ g.outputs n) :
    g.hasOutput h := by
  unfold Graph.outputs at member
  cases found : g.node? n with
  | none => simp [found] at member
  | some nd =>
    simp only [found, List.mem_map, List.mem_range] at member
    obtain ⟨p, bound, rfl⟩ := member
    exact Graph.hasOutput_of_node? found bound

theorem exist_unlabeled_outputs (g : Graph) (n : Nat) {s : PassState} (same : s.graph = g) :
    Exist (unlabeled (g.outputs n)) s := by
  intro v member
  obtain ⟨h, inOutputs, rfl⟩ := List.mem_map.mp member
  exact same ▸ Graph.hasOutput_of_mem_outputs inOutputs

namespace PassState.Sound

variable {base s : PassState}

/-- A new graph that is well formed and keeps the old one keeps a state sound. -/
theorem withGraph (sound : Sound base s) {g : Graph} (wellFormed : g.WellFormed)
    (grows : s.graph.Extends g) : Sound base { s with graph := g } :=
  { sound with
    graph := wellFormed
    grows := sound.grows.trans grows
    bound := fun e entry v member => grows.hasOutput (sound.bound e entry v member)
    parameters := fun p member => grows.hasOp (sound.parameters p member)
    results := fun r member => grows.hasOp (sound.results r member) }

theorem withCache (sound : Sound base s) {c : BodyCache} (cacheSound : c.Sound) :
    Sound base { s with cache := c } :=
  { sound with cache := cacheSound }

theorem bound_get? (sound : Sound base s) {name : String} {vs : List Labeled}
    (found : s.bindings.get? name = some vs) : Exist vs s :=
  sound.bound _ (Bindings.mem_of_get? found)

theorem exist_of_extends (grows : s.graph.Extends s'.graph) {vs : List Labeled}
    (exist : Exist vs s) : Exist vs s' :=
  fun v member => grows.hasOutput (exist v member)

/-- A sound state may be taken as the start of the rest of its pass. -/
theorem rebase (sound : Sound base s) : Sound s s :=
  { sound with grows := Graph.Extends.refl _, extendsParameters := List.prefix_refl _ }

end PassState.Sound

/-! ## Binding and resolving -/

/-- Binding a name: on success the bindings become those `bind` gives, and a failure leaves the
state as it is. -/
theorem bindName_spec {post fault : PassState → Prop} (name : String) (vs : List Labeled) :
    Triple (fun s => (∀ b, s.bindings.bind name vs = .ok b → post { s with bindings := b }) ∧ fault s)
      (bindName name vs) (fun _ => post) fault := by
  unfold bindName
  refine Triple.get_bind fun s ⟨bound, holds⟩ => ?_
  refine Triple.liftExcept_bind (fun _ same => same ▸ holds) fun b ok => ?_
  exact Triple.set fun _ _ => bound b ok

theorem bindName_sound {base : PassState} (name : String) (vs : List Labeled) :
    Triple (fun s => PassState.Sound base s ∧ Exist vs s) (bindName name vs) (fun _ => PassState.Sound base)
      (PassState.Sound base) := by
  refine (bindName_spec name vs).conseq (fun s ⟨sound, exist⟩ => ⟨fun b bound => ?_, sound⟩)
    (fun _ _ holds => holds) (fun _ holds => holds)
  refine { sound with bound := fun e entry => ?_ }
  rcases Bindings.mem_bind bound entry with rfl | old
  · exact exist
  · exact sound.bound e old

/-- A regrowth keeps a state sound: the grown node keeps its outputs, and the producer is bound
to outputs of a node that exists. -/
theorem Regrown.sound {base s s' : PassState} {producer : String} (grown : Regrown producer s s')
    (sound : PassState.Sound base s) : PassState.Sound base s' ∧ s.graph.Extends s'.graph := by
  obtain ⟨vs, first, len, -, -, -, rfl⟩ := grown
  have grows := Graph.extends_growOutputs (g := s.graph) first.handle.node len
  refine ⟨{ sound.withGraph (sound.graph.growOutputs _ len) grows with bound := ?_ }, grows⟩
  intro e entry
  rcases Bindings.mem_rebind entry with rfl | old
  · exact exist_unlabeled_outputs _ _ rfl
  · exact PassState.Sound.exist_of_extends grows (sound.bound e old)

/-- A sound state in whose graph every value resolved so far exists. -/
def Resolved (base : PassState) (done : List (Option Handle)) (s : PassState) : Prop :=
  PassState.Sound base s ∧ ∀ r ∈ done, ∀ h, r = some h → s.graph.hasOutput h

/-- Resolving one more input keeps a state sound, keeps the values resolved before, and gives a
value that exists. -/
theorem resolveInput_resolved {base : PassState} (op : Operation) (e : Edge) (i : Nat)
    (done : List (Option Handle)) :
    Triple (Resolved base done) (resolveInput op i e) (fun r => Resolved base (done ++ [r]))
      (PassState.Sound base) := by
  refine Triple.of_each fun s ⟨sound, resolved⟩ => ?_
  refine (resolveInput_effect op i e s).conseq (fun _ same => same) ?_ ?_
  · rintro r s' ⟨effect, bound⟩
    obtain ⟨sound', grows⟩ : PassState.Sound base s' ∧ s.graph.Extends s'.graph := by
      rcases effect with rfl | grown
      · exact ⟨sound, Graph.Extends.refl _⟩
      · exact grown.sound sound
    refine ⟨sound', fun r' member h isSome => ?_⟩
    rcases List.mem_append.mp member with old | new
    · exact grows.hasOutput (resolved r' old h isSome)
    · rw [List.mem_singleton.mp new] at isSome
      obtain ⟨name, vs, found, v, inEntry, rfl⟩ := bound h isSome
      exact sound'.bound_get? found v inEntry
  · rintro s' (rfl | grown)
    · exact sound
    · exact (grown.sound sound).1

/-- Resolving the inputs of an operation keeps a state sound and gives values that exist. -/
theorem resolveInputs_sound {base : PassState} (op : Operation) :
    Triple (PassState.Sound base) (resolveInputs op)
      (fun hs s => PassState.Sound base s ∧ ∀ h ∈ hs, s.graph.hasOutput h) (PassState.Sound base) := by
  unfold resolveInputs
  split
  · exact Triple.pure fun _ sound => ⟨sound, fun _ member => absurd member List.not_mem_nil⟩
  · refine Triple.bind ((Triple.mapM (fun ⟨e, i⟩ _ done => resolveInput_resolved op e i done) []).conseq
      (fun _ sound => ⟨sound, by simp⟩) (fun _ _ holds => holds) (fun _ holds => holds))
      fun found => Triple.pure ?_
    rintro s ⟨sound, resolved⟩
    refine ⟨sound, fun h member => resolved (some h) ?_ h rfl⟩
    simpa using List.reduceOption_mem_iff.mp member

/-! ## Stand-ins and dispatch -/

/-- A stand-in reads values that exist and gives values that exist. -/
theorem passthrough_sound {base : PassState} (op : Operation) (inputs : List Handle)
    (failure : Option String) :
    Triple (fun s => PassState.Sound base s ∧ ∀ h ∈ inputs, s.graph.hasOutput h)
      (passthrough op inputs failure) (fun vs s => PassState.Sound base s ∧ Exist vs s)
      (PassState.Sound base) := by
  unfold passthrough
  refine Triple.get_bind fun s ⟨sound, valid⟩ => ?_
  have added := Graph.extends_addNode (g := s.graph) ""
    (.framework op.opType op.attrs failure) inputs (List.replicate op.numOutputs {})
  have wellFormed : (s.graph.addFramework "" op.opType op.attrs failure inputs op.numOutputs).1.WellFormed :=
    sound.graph.addNode valid (fun isResult => Op.noConfusion isResult)
  refine Triple.set_bind_state (Triple.pure ?_)
  rintro _ rfl
  exact ⟨sound.withGraph (wellFormed.setName op.name s.graph.size)
    (added.trans (Graph.extends_setName op.name s.graph.size)), exist_unlabeled_outputs _ _ rfl⟩

/-- A translator's values that `rejection` lets through exist. -/
theorem exist_of_rejection_none {g : Graph} {vs : List Labeled}
    (accepted : rejection g (.ok vs) = none) : ∀ v ∈ vs, g.hasOutput v.handle := by
  simp only [rejection] at accepted
  split at accepted
  · cases accepted
  · rename_i none
    intro v member
    simpa using List.find?_eq_none.mp none v member

/-- Naming the values of a call keeps the graph well formed and keeps it. -/
theorem renamed_sound (op : Operation) (vs : List Handle) {g : Graph} (wellFormed : g.WellFormed) :
    let renamed := vs.zipIdx.foldl (fun g (v, i) =>
      g.modifyTensor v fun t => { t with names := [op.name ++ ":" ++ toString i] }) g
    renamed.WellFormed ∧ g.Extends renamed := by
  refine foldl_invariant (fun g' => g'.WellFormed ∧ g.Extends g') ?_ g
    ⟨wellFormed, Graph.Extends.refl g⟩
  rintro g' ⟨v, i⟩ - ⟨wellFormed', grows⟩
  exact ⟨wellFormed'.modifyTensor v (TensorInfo.keeps_names _ _),
    grows.trans (Graph.extends_modifyTensor v (TensorInfo.keeps_names _ _))⟩

/-- Dispatching an operation on values that exist keeps a state sound and gives values that
exist, through a translator (or the stand-in after its failure) or a library body. -/
theorem dispatch_sound {base : PassState} (env : Env) (bodies : env.bodies.Sound)
    (op : Operation) (inputs : List Handle) :
    Triple (fun s => PassState.Sound base s ∧ ∀ h ∈ inputs, s.graph.hasOutput h)
      (dispatch env op inputs) (fun vs s => PassState.Sound base s ∧ Exist vs s)
      (PassState.Sound base) := by
  unfold dispatch
  split
  · rename_i kind _
    refine Triple.get_bind fun s ⟨sound, valid⟩ => ?_
    dsimp only
    split
    rename_i outcome w ranEq
    -- the translator keeps its workspace sound whether it succeeds or fails
    have worked : Workspace.Sound s.graph w := by
      have ran := Kind.run_sound kind ⟨op, inputs, env.bodies⟩ bodies valid ⟨s.graph, s.cache⟩
        ⟨sound.graph, Graph.Extends.refl _, sound.cache⟩
      rw [ranEq] at ran
      cases outcome <;> exact ran
    split
    · rename_i vs accepted
      refine Triple.set_bind_state (Triple.pure ?_)
      rintro _ rfl
      exact ⟨(sound.withGraph worked.graph worked.grows).withCache worked.cache,
        exist_of_rejection_none accepted⟩
    · -- the nodes the translator added are dropped, and a stand-in takes its place
      have kept := worked.grows.rollback
      refine Triple.set_bind_state ((passthrough_sound op inputs _).conseq ?_
        (fun _ _ holds => holds) (fun _ holds => holds))
      rintro _ rfl
      exact ⟨(sound.withGraph (worked.graph.rollback _) kept).withCache worked.cache,
        fun h member => kept.hasOutput (valid h member)⟩
  · refine Triple.get_bind fun s ⟨sound, valid⟩ => ?_
    obtain ⟨cacheSound, delivered⟩ := bodies op.opType inputs s.graph s.cache sound.cache
    generalize env.bodies op.opType inputs s.graph s.cache = found at cacheSound delivered ⊢
    obtain ⟨found, cache⟩ := found
    dsimp only
    have withCache := sound.withCache cacheSound
    refine Triple.set_bind_state ?_
    refine Triple.liftExcept_bind (fun _ same => same ▸ withCache) fun r isOk => ?_
    split
    · exact (passthrough_sound op inputs none).conseq (fun _ same => same ▸ ⟨withCache, valid⟩)
        (fun _ _ holds => holds) (fun _ holds => holds)
    · rename_i body
      have bodyWellFormed := delivered body (isOk ▸ rfl)
      refine Triple.get_bind fun _ same => ?_
      subst same
      dsimp only
      obtain ⟨splicedWellFormed, splicedGrows, spliced⟩ :=
        splice_sound op.opType sound.graph bodyWellFormed valid
      generalize s.graph.splice body op.opType inputs = call at splicedWellFormed splicedGrows spliced ⊢
      obtain ⟨g, values⟩ := call
      dsimp only
      have withSplice := withCache.withGraph splicedWellFormed splicedGrows
      refine Triple.set_bind_state ?_
      refine Triple.liftExcept_bind (fun _ same => same ▸ withSplice) fun vs found => ?_
      obtain ⟨renamedWellFormed, renamedGrows⟩ := renamed_sound op vs splicedWellFormed
      refine Triple.modify_bind fun _ same => ?_
      subst same
      refine Triple.pure ?_
      rintro _ rfl
      refine ⟨withSplice.withGraph renamedWellFormed renamedGrows, ?_⟩
      intro v member
      obtain ⟨h, inValues, rfl⟩ := List.mem_map.mp member
      exact renamedGrows.hasOutput (spliced vs found h inValues)

/-! ## Registering values -/

/-- A node that a test on operations accepts, where the test accepts only `op`, has `op`. -/
theorem Graph.hasOp_of_elim {g : Graph} {n : Nat} {op : Op} {test : Op → Bool}
    (only : ∀ o, test o = true → o = op) (accepted : (g.node? n).elim false (fun nd => test nd.op) = true) :
    g.HasOp n op := by
  cases found : g.node? n with
  | none => simp [found] at accepted
  | some nd =>
    simp only [found, Option.elim] at accepted
    exact ⟨nd, found, only _ accepted⟩

/-- Registering values that exist keeps a state sound: a result joins the results and a new
parameter the parameters, each at most once, and the other values are bound. -/
theorem register_sound {base : PassState} (op : Operation) (vs : List Labeled) :
    Triple (fun s => PassState.Sound base s ∧ Exist vs s) (register op vs)
      (fun _ => PassState.Sound base) (PassState.Sound base) := by
  unfold register
  refine Triple.get_bind fun s ⟨sound, exist⟩ => ?_
  -- what the fold over the values keeps of the lists it builds
  let Registered (acc : List Labeled × List Nat × List Nat) : Prop :=
    s.parameters <+: acc.2.1 ∧ acc.2.1.Nodup ∧ (∀ p ∈ acc.2.1, s.graph.HasOp p .parameter) ∧
      acc.2.2.Nodup ∧ (∀ r ∈ acc.2.2, s.graph.HasOp r .result) ∧ Exist acc.1 s
  split
  rename_i kept ps rs folded
  have registered : Registered (kept, ps, rs) := by
    rw [← folded]
    refine foldl_invariant Registered ?_ _ ⟨List.prefix_refl _, sound.parametersNodup,
      sound.parameters, sound.resultsNodup, sound.results, fun _ member => absurd member List.not_mem_nil⟩
    rintro ⟨kept', ps', rs'⟩ v member ⟨extended, psNodup, psKind, rsNodup, rsKind, keptExist⟩
    dsimp only
    split
    · rename_i isResult
      have result := Graph.hasOp_of_elim (fun o => Op.isResult_iff.mp) isResult
      refine ⟨extended, psNodup, psKind, ?_, ?_, keptExist⟩
      · split
        · exact rsNodup
        · rename_i fresh
          exact List.nodup_append.mpr ⟨rsNodup, by simp,
            fun a old b new => by rw [List.mem_singleton.mp new]; rintro rfl; simp_all⟩
      · split
        · exact rsKind
        · intro r inResults
          rcases List.mem_append.mp inResults with old | new
          · exact rsKind r old
          · rw [List.mem_singleton.mp new]
            exact result
    · refine ⟨?_, ?_, ?_, rsNodup, rsKind, ?_⟩
      · split
        · exact extended.trans (List.prefix_append _ _)
        · exact extended
      · split
        · rename_i fresh
          have notMember : v.handle.node ∉ ps' := by simp_all
          exact List.nodup_append.mpr ⟨psNodup, by simp,
            fun a old b new => by rw [List.mem_singleton.mp new]; rintro rfl; exact notMember old⟩
        · exact psNodup
      · split
        · rename_i fresh
          have parameter := Graph.hasOp_of_elim (fun o => Op.isParameter_iff.mp)
            (Bool.and_eq_true_iff.mp fresh).1
          intro p inParameters
          rcases List.mem_append.mp inParameters with old | new
          · exact psKind p old
          · rw [List.mem_singleton.mp new]
            exact parameter
        · exact psKind
      · intro w inKept
        rcases List.mem_append.mp inKept with old | new
        · exact keptExist w old
        · rw [List.mem_singleton.mp new]
          exact exist v member
  obtain ⟨extended, psNodup, psKind, rsNodup, rsKind, keptExist⟩ := registered
  have listed : PassState.Sound base { s with parameters := ps, results := rs } :=
    { sound with
      extendsParameters := sound.extendsParameters.trans extended
      parametersNodup := psNodup
      parameters := psKind
      resultsNodup := rsNodup
      results := rsKind }
  refine Triple.set_bind_state ?_
  split
  · exact (bindName_sound op.name kept).conseq (fun _ same => same ▸ ⟨listed, keptExist⟩)
      (fun _ _ holds => holds) (fun _ holds => holds)
  · exact Triple.pure fun _ same => same ▸ listed

/-! ## Inputs and operations -/

/-- A node appended with a single output, then named, is well formed, keeps the graph, and its
output exists. -/
theorem named_single_sound {g : Graph} (wellFormed : g.WellFormed) (name : String) (op : Op)
    (t : TensorInfo) (notResult : op ≠ .result) :
    let g' := ((g.addNode "" op [] [t]).1.setName name g.size)
    g'.WellFormed ∧ g.Extends g' ∧ g'.hasOutput ⟨g.size, 0⟩ ∧ g'.HasOp g.size op := by
  have renamed := Graph.extends_setName (g := (g.addNode "" op [] [t]).1) name g.size
  refine ⟨(wellFormed.addNode (fun _ member => absurd member List.not_mem_nil)
      (fun isResult => absurd isResult notResult)).setName name g.size,
    (Graph.extends_addNode "" op [] [t]).trans renamed,
    renamed.hasOutput (Graph.hasOutput_addNode_self "" op [] [t] (Nat.zero_lt_one)),
    renamed.hasOp (Graph.hasOp_addNode_self "" op [] [t])⟩

/-- Freezing inputs as named constants keeps a state sound. -/
theorem freezeInputs_sound {base : PassState} (places : List Source.Place) :
    Triple (PassState.Sound base) (freezeInputs places) (fun _ => PassState.Sound base)
      (PassState.Sound base) := by
  refine Triple.forM fun p _ => ?_
  split
  · exact Triple.pure fun _ holds => holds
  · rename_i c _
    refine Triple.get_bind fun s sound => ?_
    split
    rename_i g h added
    rw [Graph.addConstant_eq] at added
    cases added
    obtain ⟨wellFormed, grows, exists', -⟩ :=
      named_single_sound sound.graph p.name (.constant c) _ (fun isResult => Op.noConfusion isResult)
    refine Triple.set_bind_state ((bindName_sound p.name _).conseq ?_
      (fun _ _ holds => holds) (fun _ holds => holds))
    rintro _ rfl
    exact ⟨sound.withGraph wellFormed grows, fun v member => List.mem_singleton.mp member ▸ exists'⟩

/-- Opening the other inputs as parameters keeps a state sound; each new parameter is a fresh node. -/
theorem openInputs_sound {base : PassState} (options : Options) (places : List Source.Place) :
    Triple (PassState.Sound base) (openInputs options places) (fun _ => PassState.Sound base)
      (PassState.Sound base) := by
  refine Triple.forM fun p _ => ?_
  split
  · exact Triple.pure fun _ holds => holds
  · refine Triple.get_bind fun s sound => ?_
    split
    · exact Triple.pure fun _ same => same ▸ sound
    · simp only [Graph.addParameter_eq]
      obtain ⟨wellFormed, grows, exists', parameter⟩ :=
        named_single_sound sound.graph p.name .parameter _ (fun isResult => Op.noConfusion isResult)
      -- the new parameter is the graph's new node, so it is not listed yet
      have fresh : s.graph.size ∉ s.parameters := fun listed => by
        obtain ⟨nd, found, -⟩ := sound.parameters _ listed
        exact Nat.lt_irrefl _ (Graph.lt_size_of_node? found)
      refine Triple.set_bind_state ((bindName_sound p.name _).conseq ?_
        (fun _ _ holds => holds) (fun _ holds => holds))
      rintro _ rfl
      refine ⟨{ sound.withGraph wellFormed grows with
          extendsParameters := sound.extendsParameters.trans (List.prefix_append _ _)
          parametersNodup := List.nodup_append.mpr ⟨sound.parametersNodup, by simp,
            fun a old b new => by rw [List.mem_singleton.mp new]; rintro rfl; exact fresh old⟩
          parameters := fun q listed => ?_ }, fun v member => List.mem_singleton.mp member ▸ exists'⟩
      rcases List.mem_append.mp listed with old | new
      · exact grows.hasOp (sound.parameters q old)
      · rw [List.mem_singleton.mp new]
        exact parameter

/-! ## The walk over the operations -/

theorem translateOperations_single (env : Env) (op : Operation) :
    translateOperations env [op] = (do
      if (← get).bindings.contains op.name then return
      let inputs ← resolveInputs op
      dispatch env op inputs >>= register op) := by
  simp [translateOperations]

theorem translateOperations_cons (env : Env) (op : Operation) (ops : List Operation) :
    translateOperations env (op :: ops) =
      (translateOperations env [op] >>= fun _ => translateOperations env ops) := by
  simp only [translateOperations, List.forM_eq_forM, List.forM_cons, List.forM_nil, bind_assoc,
    bind_pure_unit]

theorem translateOperations_append (env : Env) (ops ops' : List Operation) :
    translateOperations env (ops ++ ops') =
      (translateOperations env ops >>= fun _ => translateOperations env ops') := by
  simp only [translateOperations, List.forM_eq_forM, List.forM_append]

/-- Translating the operations in order keeps a state sound. -/
theorem translateOperations_sound {base : PassState} (env : Env) (bodies : env.bodies.Sound)
    (ops : List Operation) :
    Triple (PassState.Sound base) (translateOperations env ops) (fun _ => PassState.Sound base)
      (PassState.Sound base) := by
  refine Triple.forM fun op _ => ?_
  refine Triple.get_bind fun s sound => ?_
  split
  · exact Triple.pure fun _ same => same ▸ sound
  · refine Triple.bind ((resolveInputs_sound op).conseq (fun _ same => same ▸ sound)
      (fun _ _ holds => holds) (fun _ holds => holds)) fun inputs => ?_
    exact Triple.bind (dispatch_sound env bodies op inputs) fun vs => register_sound op vs

end Lowering.Pass
