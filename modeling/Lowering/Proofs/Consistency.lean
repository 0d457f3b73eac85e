import Lowering.Session
import Lowering.Proofs.PassInvariant
import Lowering.Proofs.Arrange

/-! # Lowered models are consistent

The last steps of a pass add the results a source declares (or, when it declares none, one for
every value nobody reads), take names back from the source's registries and put the parameters
and results in the order the source asks for. Each keeps what `PassState.Sound` promises, so a
pass that succeeds gives a model whose interface is consistent with its graph
(`Model.Consistent`): every edge leaves an existing output, parameters and results are distinct
nodes of their kind, each result reads one existing value, and requested orders are followed.

The body source of a session hands out only such models, by induction on its depth; hence so
does a session (`convertedModel_consistent`).
-/

namespace Lowering.Pass

open Lowering.Ir Lowering.Proofs Lowering.Translator
open Lowering.Source (Sink)

/-! ## Results -/

/-- `rs` lists distinct result nodes of `g'`, a well-formed graph that keeps `g`. -/
structure ResultsBuilt (g g' : Graph) (rs : List Nat) : Prop where
  graph : g'.WellFormed
  grows : g.Extends g'
  nodup : rs.Nodup
  results : ∀ r ∈ rs, g'.HasOp r .result

namespace ResultsBuilt

variable {g g' : Graph} {rs : List Nat}

theorem start (wellFormed : g.WellFormed) : ResultsBuilt g g [] :=
  ⟨wellFormed, Graph.Extends.refl g, List.nodup_nil, fun _ member => absurd member List.not_mem_nil⟩

/-- A result on a value of `g` is a new node, so it joins the list once. -/
theorem addResult (built : ResultsBuilt g g' rs) {v : Handle} (valid : g.hasOutput v) (name : String) :
    ResultsBuilt g (g'.addResult v name).1 (rs ++ [(g'.addResult v name).2]) := by
  rw [Graph.addResult_eq]
  have added := Graph.extends_addNode (g := g') name .result [v]
    [{ elementType := (g'.tensor v).elementType, shape := (g'.tensor v).shape }]
  have fresh : g'.size ∉ rs := fun listed => by
    obtain ⟨nd, found, -⟩ := built.results _ listed
    exact Nat.lt_irrefl _ (Graph.lt_size_of_node? found)
  refine ⟨built.graph.addNode (by simpa using built.grows.hasOutput valid) (fun _ => rfl),
    built.grows.trans added, ?_, ?_⟩
  · exact List.nodup_append.mpr ⟨built.nodup, by simp,
      fun a old b new => by rw [List.mem_singleton.mp new]; rintro rfl; exact fresh old⟩
  · intro r listed
    rcases List.mem_append.mp listed with old | new
    · exact added.hasOp (built.results r old)
    · rw [List.mem_singleton.mp new]
      exact Graph.hasOp_addNode_self _ _ _ _

theorem after {g₀ : Graph} (earlier : g₀.Extends g) (built : ResultsBuilt g g' rs) :
    ResultsBuilt g₀ g' rs :=
  { built with grows := earlier.trans built.grows }

end ResultsBuilt

/-- Results built on a state's graph replace its results soundly. -/
theorem PassState.Sound.withResults {base s : PassState} (sound : PassState.Sound base s)
    {g : Graph} {rs : List Nat} (built : ResultsBuilt s.graph g rs) :
    PassState.Sound base { s with graph := g, results := rs } :=
  { sound.withGraph built.graph built.grows with
    resultsNodup := built.nodup
    results := built.results }

theorem require_ok {b : Bindings} {name : String} {vs : List Labeled}
    (required : b.require name = .ok vs) : b.get? name = some vs := by
  unfold Bindings.require at required
  split at required
  · cases required
    assumption
  · cases required

/-- Every value bound in `b` exists in `g`. -/
def BoundIn (b : Bindings) (g : Graph) : Prop := ∀ e ∈ b.entries, ∀ v ∈ e.2, g.hasOutput v.handle

theorem BoundIn.get? {b : Bindings} {g : Graph} (bound : BoundIn b g) {name : String}
    {vs : List Labeled} (found : b.get? name = some vs) {v : Labeled} (member : v ∈ vs) :
    g.hasOutput v.handle :=
  bound _ (Bindings.mem_of_get? found) v member

/-- What adding a result on a bound value keeps, the results of one declared output keep. -/
theorem declareSink_keeps {src : Source.Graph} {b : Bindings} (inv : Graph → List Nat → Prop)
    (add : ∀ g acc (v : Handle) name, inv g acc → (∃ e ∈ b.entries, ∃ w ∈ e.2, w.handle = v) →
      inv (g.addResult v name).1 (acc ++ [(g.addResult v name).2]))
    {g g' : Graph} {acc acc' : List Nat} (k : Sink) (holds : inv g acc)
    (declared : declareSink src b g acc k = .ok (g', acc')) : inv g' acc' := by
  have bound : ∀ {name vs} {w : Labeled}, b.require name = .ok vs → w ∈ vs →
      ∃ e ∈ b.entries, ∃ w' ∈ e.2, w'.handle = w.handle :=
    fun required member => ⟨_, Bindings.mem_of_get? (require_ok required), _, member, rfl⟩
  unfold declareSink at declared
  split at declared
  · obtain ⟨vs, required, declared⟩ := bind_eq_ok declared
    show (fun x : Graph × List Nat => inv x.1 x.2) (g', acc')
    rw [← Except.ok.inj declared]
    refine foldl_invariant (fun x : Graph × List Nat => inv x.1 x.2) ?_ _ holds
    rintro ⟨g₁, acc₁⟩ ⟨v, p⟩ member holds₁
    exact add g₁ acc₁ v.handle _ holds₁ (bound required (List.fst_mem_of_mem_zipIdx member))
  · obtain ⟨vs, required, declared⟩ := bind_eq_ok declared
    split at declared
    · cases declared
    · rename_i v atOutput
      split at declared
      rename_i g₂ r result
      cases declared
      have next := add g acc v.handle k.render holds (bound required (List.mem_of_getElem? atOutput))
      rw [result] at next
      exact next
  · -- the fed operation, its input edge, the producer's values and the output index are looked
    -- up in turn, and a failed lookup fails the declaration
    extract_lets afterOp at declared
    obtain ⟨op, declared⟩ : ∃ op, afterOp op = .ok (g', acc') := by
      split at declared <;> exact ok_of_bind declared
    unfold afterOp at declared
    extract_lets afterEdge at declared
    obtain ⟨edge, declared⟩ : ∃ edge, afterEdge edge = .ok (g', acc') := by
      split at declared
      · split at declared <;> exact ok_of_bind declared
      · exact ok_of_bind declared
    unfold afterEdge at declared
    obtain ⟨vs, required, declared⟩ := bind_eq_ok declared
    extract_lets afterIndex at declared
    obtain ⟨out, declared⟩ : ∃ out, afterIndex out = .ok (g', acc') := by
      split at declared
      · split at declared <;> exact ok_of_bind declared
      · exact ok_of_bind declared
    unfold afterIndex at declared
    split at declared
    · cases declared
    · rename_i v atOutput
      split at declared
      rename_i g₂ r result
      cases declared
      have next := add g acc v.handle (edge.producer ++ ":" ++ toString out) holds
        (bound required (List.mem_of_getElem? atOutput))
      rw [result] at next
      exact next

theorem declaredResults_keeps {src : Source.Graph} {b : Bindings} (inv : Graph → List Nat → Prop)
    (add : ∀ g acc (v : Handle) name, inv g acc → (∃ e ∈ b.entries, ∃ w ∈ e.2, w.handle = v) →
      inv (g.addResult v name).1 (acc ++ [(g.addResult v name).2]))
    {g g' : Graph} {rs : List Nat} (holds : inv g []) (declared : declaredResults src b g = .ok (g', rs)) :
    inv g' rs := by
  refine foldlM_invariant (fun (x : Graph × List Nat) (_ : List Sink) => inv x.1 x.2) ?_
    src.outputs (g, []) [] (g', rs) holds declared
  rintro ⟨g₁, acc₁⟩ - k ⟨g₂, acc₂⟩ holds₁ declared₁
  exact declareSink_keeps inv add k holds₁ declared₁

theorem terminalResults_keeps {b : Bindings} (inv : Graph → List Nat → Prop)
    (add : ∀ g acc (v : Handle) name, inv g acc → (∃ e ∈ b.entries, ∃ w ∈ e.2, w.handle = v) →
      inv (g.addResult v name).1 (acc ++ [(g.addResult v name).2]))
    {g : Graph} (holds : inv g []) : inv (terminalResults b g).1 (terminalResults b g).2 := by
  unfold terminalResults
  dsimp only
  refine foldl_invariant (fun x : Graph × List Handle × List Nat => inv x.1 x.2.2) ?_ _ holds
  rintro ⟨g₁, seen, acc₁⟩ ⟨h, i⟩ candidate holds₁
  dsimp only
  split
  · exact holds₁
  · split
    · exact holds₁
    · -- a candidate is a value bound under some name
      obtain ⟨e, entry, listed⟩ := List.mem_flatMap.mp candidate
      obtain ⟨⟨v, j⟩, inEntry, same⟩ := List.mem_map.mp listed
      cases same
      exact add g₁ acc₁ v.handle _ holds₁ ⟨e, entry, v, List.fst_mem_of_mem_zipIdx inEntry, rfl⟩

/-- Adding a result on a value of `b` keeps the results built on `g`. -/
theorem ResultsBuilt.addBound {b : Bindings} {g : Graph} (bound : BoundIn b g) :
    ∀ g' acc (v : Handle) name, ResultsBuilt g g' acc → (∃ e ∈ b.entries, ∃ w ∈ e.2, w.handle = v) →
      ResultsBuilt g (g'.addResult v name).1 (acc ++ [(g'.addResult v name).2]) := by
  rintro g' acc v name built ⟨e, entry, w, member, rfl⟩
  exact built.addResult (bound e entry w member) name

/-- The declared outputs add distinct results on bound values. -/
theorem declaredResults_built {src : Source.Graph} {b : Bindings} {g g' : Graph} {rs : List Nat}
    (wellFormed : g.WellFormed) (bound : BoundIn b g) (declared : declaredResults src b g = .ok (g', rs)) :
    ResultsBuilt g g' rs :=
  declaredResults_keeps (ResultsBuilt g) (ResultsBuilt.addBound bound) (ResultsBuilt.start wellFormed)
    declared

/-- The values nobody reads get distinct results. -/
theorem terminalResults_built {b : Bindings} {g : Graph} (wellFormed : g.WellFormed) (bound : BoundIn b g) :
    ResultsBuilt g (terminalResults b g).1 (terminalResults b g).2 :=
  terminalResults_keeps (ResultsBuilt g) (ResultsBuilt.addBound bound) (ResultsBuilt.start wellFormed)

/-- Adding results keeps a state sound: declared ones, or else one for each value nobody reads. -/
theorem assembleResults_sound {base : PassState} (src : Source.Graph) :
    Triple (PassState.Sound base) (assembleResults src) (fun _ => PassState.Sound base)
      (PassState.Sound base) := by
  unfold assembleResults
  refine Triple.get_bind fun s sound => ?_
  split
  · exact Triple.pure fun _ same => same ▸ sound
  · refine Triple.liftExcept_bind (fun _ same => same ▸ sound) fun ⟨g, rs⟩ declared => ?_
    have built := declaredResults_built sound.graph sound.bound declared
    refine Triple.set_bind_state ?_
    split
    · exact Triple.pure fun _ same => same ▸ sound.withResults built
    · have terminal := terminalResults_built (b := s.bindings) built.graph
        fun e entry v member => built.grows.hasOutput (sound.bound e entry v member)
      exact Triple.set fun _ _ => sound.withResults (terminal.after built.grows)

/-! ## Names and order -/

/-- Restoring parameter names only renames: the graph stays well formed and is kept. -/
theorem restoreParameterNames_keeps {g : Graph} (wellFormed : g.WellFormed) (params : List Nat)
    (registry : List (String × String)) :
    (restoreParameterNames g params registry).WellFormed ∧ g.Extends (restoreParameterNames g params registry) := by
  refine foldl_invariant (fun g' => g'.WellFormed ∧ g.Extends g') ?_ g ⟨wellFormed, Graph.Extends.refl g⟩
  rintro g' p - ⟨wellFormed', grows⟩
  dsimp only
  split
  · exact ⟨wellFormed'.setName _ p, grows.trans (Graph.extends_setName _ p)⟩
  · exact ⟨wellFormed'.modifyTensor _ (TensorInfo.keeps_names _ _),
      grows.trans (Graph.extends_modifyTensor _ (TensorInfo.keeps_names _ _))⟩

/-- Restoring result names only renames: the graph stays well formed and is kept. -/
theorem restoreResultNames_keeps {g : Graph} (wellFormed : g.WellFormed) (results : List Nat)
    (registry : List (String × String)) :
    (restoreResultNames g results registry).WellFormed ∧ g.Extends (restoreResultNames g results registry) := by
  refine foldl_invariant (fun g' => g'.WellFormed ∧ g.Extends g') ?_ g ⟨wellFormed, Graph.Extends.refl g⟩
  rintro g' r - ⟨wellFormed', grows⟩
  dsimp only
  split
  · exact ⟨wellFormed', grows⟩
  · split
    · rename_i name _
      have renamed := Graph.extends_rename (g := g') r name
      exact ⟨(wellFormed'.rename r _).modifyTensor _ (TensorInfo.keeps_names _ _),
        grows.trans (renamed.trans (Graph.extends_modifyTensor _ (TensorInfo.keeps_names _ _)))⟩
    · exact ⟨wellFormed'.modifyTensor _ (TensorInfo.keeps_names _ _),
        grows.trans (Graph.extends_modifyTensor _ (TensorInfo.keeps_names _ _))⟩

/-- The name of a node, empty for a node that does not exist. -/
def nameIn (g : Graph) (n : Nat) : String := (g.node? n).elim "" (·.name)

/-- What the last step of a pass makes of the state `s`: the graph only renamed, the parameters and
results the same nodes, in the order the source asks for (the parameters as they were when it
asks for none). -/
structure NamesFinished (src : Source.Graph) (s s' : PassState) : Prop where
  graph : s'.graph.WellFormed
  grows : s.graph.Extends s'.graph
  cache : s'.cache = s.cache
  parameters : s'.parameters.Perm s.parameters
  results : s'.results.Perm s.results
  parameterNames : src.inputNames ≠ [] → s'.parameters.map (nameIn s'.graph) = src.inputNames
  resultNames : src.outputNames ≠ [] → s'.results.map (nameIn s'.graph) = src.outputNames
  unordered : src.inputNames = [] → s'.parameters = s.parameters

theorem arrange_nil {α : Type} (kind : OrderKind) (items : List α) (nameOf : α → String) :
    arrange kind [] items nameOf = .ok items := rfl

/-- The last step of a pass: a failure leaves the state as it is. -/
theorem finishNames_effect (src : Source.Graph) (s : PassState) (wellFormed : s.graph.WellFormed) :
    Triple (· = s) (finishNames src) (fun _ => NamesFinished src s) (· = s) := by
  unfold finishNames
  refine Triple.get_bind fun s₀ same => ?_
  subst s₀
  extract_lets parametersNamed named nameOf
  have first : parametersNamed.WellFormed ∧ s.graph.Extends parametersNamed := by
    unfold parametersNamed
    split
    · split
      · exact ⟨wellFormed, Graph.Extends.refl _⟩
      · exact restoreParameterNames_keeps wellFormed _ _
    · exact ⟨wellFormed, Graph.Extends.refl _⟩
  have second : named.WellFormed ∧ s.graph.Extends named := by
    unfold named
    split
    · split
      · exact first
      · obtain ⟨wellFormed', grows⟩ := restoreResultNames_keeps first.1 s.results _
        exact ⟨wellFormed', first.2.trans grows⟩
    · exact first
  refine Triple.liftExcept_bind (fun _ same => same) fun ps orderedParameters => ?_
  refine Triple.liftExcept_bind (fun _ same => same) fun rs orderedResults => ?_
  refine Triple.set fun _ _ => ?_
  obtain ⟨parametersPerm, parametersNamed'⟩ := arrange_ok orderedParameters
  obtain ⟨resultsPerm, resultsNamed⟩ := arrange_ok orderedResults
  refine ⟨second.1, second.2, rfl, parametersPerm, resultsPerm, parametersNamed', resultsNamed, ?_⟩
  intro unordered
  rw [unordered, arrange_nil] at orderedParameters
  exact (Except.ok.inj orderedParameters).symm

/-! ## Passes and sessions -/

end Lowering.Pass

namespace Lowering

open Lowering.Ir Lowering.Pass Lowering.Proofs Lowering.Translator

/-- What a lowered model promises about its interface: every edge leaves an existing output of
its source node; parameters are distinct parameter nodes; results are distinct result nodes, each
reading exactly one existing value; and where the source asks for an order of its inputs or
outputs, the names of the parameters or results follow it. -/
structure Ir.Model.Consistent (src : Source.Graph) (M : Model) : Prop where
  edges : ∀ n nd, M.graph.node? n = some nd → ∀ h ∈ nd.inputs, M.graph.hasOutput h
  parametersNodup : M.parameters.Nodup
  parameters : ∀ p ∈ M.parameters, M.graph.HasOp p .parameter
  resultsNodup : M.results.Nodup
  results : ∀ r ∈ M.results, ∃ nd h, M.graph.node? r = some nd ∧ nd.op = .result ∧
    nd.inputs = [h] ∧ M.graph.hasOutput h
  parameterNames : src.inputNames ≠ [] → M.parameters.map (nameIn M.graph) = src.inputNames
  resultNames : src.outputNames ≠ [] → M.results.map (nameIn M.graph) = src.outputNames

/-- A sound state whose names are finished is a consistent model. -/
theorem consistent_of_finished {src : Source.Graph} {base s s' : PassState}
    (sound : PassState.Sound base s) (finished : NamesFinished src s s') (name : String) :
    Model.Consistent src ⟨name, s'.graph, s'.parameters, s'.results⟩ := by
  refine ⟨fun n nd found h member => (finished.graph.inputs n nd found h member).2,
    finished.parameters.nodup_iff.mpr sound.parametersNodup,
    fun p listed => finished.grows.hasOp (sound.parameters p (finished.parameters.mem_iff.mp listed)),
    finished.results.nodup_iff.mpr sound.resultsNodup, fun r listed => ?_,
    finished.parameterNames, finished.resultNames⟩
  obtain ⟨nd, found, isResult⟩ :=
    finished.grows.hasOp (sound.results r (finished.results.mem_iff.mp listed))
  -- a result reads one value, and that value exists
  obtain ⟨h, single⟩ := List.length_eq_one_iff.mp (finished.graph.result r nd found isResult)
  exact ⟨nd, h, found, isResult, single,
    (finished.graph.inputs r nd found h (single ▸ List.mem_singleton_self h)).2⟩

theorem wellFormed_empty : (({} : Graph)).WellFormed :=
  ⟨fun _ _ found => by simp [Graph.node?] at found, fun _ _ found => by simp [Graph.node?] at found⟩

/-- A pass starts sound from a sound cache. -/
theorem PassState.Sound.start {cache : BodyCache} (cacheSound : cache.Sound) :
    PassState.Sound { cache := cache } { cache := cache } :=
  ⟨wellFormed_empty, Graph.Extends.refl _, List.prefix_refl _,
    fun _ member => absurd member List.not_mem_nil, List.nodup_nil,
    fun _ member => absurd member List.not_mem_nil, List.nodup_nil,
    fun _ member => absurd member List.not_mem_nil, cacheSound⟩

/-- A pass from a sound cache, with a source of well-formed bodies, leaves a sound cache and, when it
succeeds, a consistent model with a well-formed graph. -/
theorem lowerGraph_sound (env : Env) (bodies : env.bodies.Sound) (src : Source.Graph) (name : String)
    {cache : BodyCache} (cacheSound : cache.Sound) :
    ((lowerGraph env src name).run cache).2.Sound ∧
      ∀ M, ((lowerGraph env src name).run cache).1 = .ok M → M.Consistent src ∧ M.graph.WellFormed := by
  unfold lowerGraph
  extract_lets pass
  let start : PassState := { cache := cache }
  have started : PassState.Sound start start := PassState.Sound.start cacheSound
  -- the steps of the pass, each keeping the state sound; a failure keeps at least the cache sound
  have passed : Triple (· = start) pass
      (fun M s => (M.Consistent src ∧ M.graph.WellFormed) ∧ s.cache.Sound) (fun s => s.cache.Sound) := by
    have kept {x : PassM Unit} (step : Triple (PassState.Sound start) x (fun _ => PassState.Sound start)
        (PassState.Sound start)) :
        Triple (PassState.Sound start) x (fun _ => PassState.Sound start) (fun s => s.cache.Sound) :=
      step.conseq (fun _ holds => holds) (fun _ _ holds => holds) (fun _ holds => holds.cache)
    refine Triple.bind ((kept (freezeInputs_sound src.inputs)).conseq (fun _ same => same ▸ started)
      (fun _ _ holds => holds) (fun _ holds => holds)) fun _ => ?_
    refine Triple.bind (kept (openInputs_sound env.options src.inputs)) fun _ => ?_
    refine Triple.bind (kept (translateOperations_sound env bodies src.operations)) fun _ => ?_
    refine Triple.bind (kept (assembleResults_sound src)) fun _ => ?_
    have finishing : Triple (PassState.Sound start) (finishNames src)
        (fun _ s' => ∃ s, PassState.Sound start s ∧ NamesFinished src s s') (fun s => s.cache.Sound) :=
      Triple.of_each fun s sound => (finishNames_effect src s sound.graph).conseq
        (fun _ same => same) (fun _ s' finished => ⟨s, sound, finished⟩)
        (fun _ same => same ▸ sound.cache)
    refine Triple.bind finishing fun _ => ?_
    refine Triple.get_bind fun s ⟨s₀, sound, finished⟩ => Triple.pure fun _ same => ?_
    subst same
    exact ⟨⟨consistent_of_finished sound finished name, finished.graph⟩, finished.cache ▸ sound.cache⟩
  simp only [StateT.run_bind, StateT.run_get, pure_bind]
  split
  rename_i r s ran
  have ended := passed start rfl
  simp only [StateT.run_bind, StateT.run_set, StateT.run_pure]
  rw [ran] at ended
  cases r with
  | error e => exact ⟨ended, fun _ failed => by cases failed⟩
  | ok M => exact ⟨ended.2, fun _ same => by cases same; exact ended.1⟩

/-- The body source of a session keeps its cache sound and hands out well-formed bodies, at every
depth: a body comes from the cache or from a pass over the library with the next shallower
source. -/
theorem bodySource_sound (registry : Registry) (options : Options) (library : Source.Graph) :
    ∀ depth, (bodySource registry options library depth).Sound
  | 0 => fun _ _ _ _ cacheSound => ⟨cacheSound, fun _ found => by cases found⟩
  | depth + 1 => by
    intro identity inputs g c cacheSound
    simp only [bodySource]
    split
    · exact ⟨cacheSound, fun _ found => by cases found⟩
    · obtain ⟨lookedUp, hit⟩ := cacheSound.lookup (Signature.ofCall identity inputs g)
      split
      · rename_i m c' found
        rw [found] at lookedUp hit
        exact ⟨lookedUp, fun _ same => by cases same; exact hit m rfl⟩
      · rename_i c' found
        rw [found] at lookedUp
        split
        · exact ⟨lookedUp, fun _ found => by cases found⟩
        · split
          · exact ⟨lookedUp, fun _ found => by cases found⟩
          · rename_i body _
            obtain ⟨passCache, passModel⟩ := lowerGraph_sound
              ⟨registry, options, library, bodySource registry options library depth⟩
              (bodySource_sound registry options library depth) body identity lookedUp
            split
            · rename_i e c'' ran
              rw [ran] at passCache
              exact ⟨passCache, fun _ found => by cases found⟩
            · rename_i m c'' ran
              rw [ran] at passCache passModel
              have wellFormed := (passModel m rfl).2
              -- a cleared body keeps its graph well formed
              have stored : (if options.clearBodyNames then { m with graph := m.graph.clearNames }
                  else m).graph.WellFormed := by
                split
                · exact wellFormed.clearNames
                · exact wellFormed
              exact ⟨passCache.insert _ stored, fun _ same => by cases same; exact stored⟩

/-- A session on a fresh cache that lowers a source graph to a model gives a consistent model. -/
theorem convertedModel_consistent (src : Source.Graph) (registry : Registry) (options : Options)
    {M : Model} (converted : (Session.convertedModel ⟨src, registry, options, {}, none⟩).1 = .ok M) :
    M.Consistent src := by
  unfold Session.convertedModel at converted
  obtain ⟨-, lowered⟩ := lowerGraph_sound (Session.env ⟨src, registry, options, {}, none⟩)
    (bodySource_sound registry options src _) src options.modelName
    (show BodyCache.Sound {} from fun _ member => absurd member List.not_mem_nil)
  dsimp only at converted
  split at converted
  · rename_i m c ran
    cases converted
    exact (lowered M (by rw [ran])).1
  · cases converted

/-- A one-operation graph: the input `x` becomes a parameter, `n` negates it, and its value is the
one result. -/
theorem convertedModel_consistent_negation :
    (Session.convertedModel
      ⟨{ operations := [{ name := "n", opType := "Neg", inputs := [{ producer := "x" }] }]
         inputs := [{ name := "x", elementType := .f32 }]
         outputs := [⟨"n", .all⟩]
         inputNames := ["x"] },
       [("Neg", .unary)], {}, {}, none⟩).1 =
      .ok ⟨"model",
        ⟨#[⟨"x", .parameter, [{ elementType := .f32, names := ["x", "x:0"] }], []⟩,
          ⟨"n", .op "Neg" [], [{ elementType := .f32, names := ["n", "n:0"] }], [⟨0, 0⟩]⟩,
          ⟨"n:0", .result, [{ elementType := .f32 }], [⟨1, 0⟩]⟩]⟩, [0], [2]⟩ ∧
    Model.Consistent
      { operations := [{ name := "n", opType := "Neg", inputs := [{ producer := "x" }] }]
        inputs := [{ name := "x", elementType := .f32 }]
        outputs := [⟨"n", .all⟩]
        inputNames := ["x"] }
      ⟨"model",
        ⟨#[⟨"x", .parameter, [{ elementType := .f32, names := ["x", "x:0"] }], []⟩,
          ⟨"n", .op "Neg" [], [{ elementType := .f32, names := ["n", "n:0"] }], [⟨0, 0⟩]⟩,
          ⟨"n:0", .result, [{ elementType := .f32 }], [⟨1, 0⟩]⟩]⟩, [0], [2]⟩ :=
  have converted : (Session.convertedModel
      ⟨{ operations := [{ name := "n", opType := "Neg", inputs := [{ producer := "x" }] }]
         inputs := [{ name := "x", elementType := .f32 }]
         outputs := [⟨"n", .all⟩]
         inputNames := ["x"] },
       [("Neg", .unary)], {}, {}, none⟩).1 =
      .ok ⟨"model",
        ⟨#[⟨"x", .parameter, [{ elementType := .f32, names := ["x", "x:0"] }], []⟩,
          ⟨"n", .op "Neg" [], [{ elementType := .f32, names := ["n", "n:0"] }], [⟨0, 0⟩]⟩,
          ⟨"n:0", .result, [{ elementType := .f32 }], [⟨1, 0⟩]⟩]⟩, [0], [2]⟩ := by
    rfl
  ⟨converted, convertedModel_consistent _ _ _ converted⟩

end Lowering
