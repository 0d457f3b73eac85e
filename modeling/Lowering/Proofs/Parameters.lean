import Mathlib.Data.List.Forall2
import Mathlib.Data.List.Nodup
import Lowering.Proofs.Consistency
import Lowering.Proofs.CacheBlind

/-! # Parameters follow the formal inputs

A pass opens the formal (unvalued) input places of its source graph as parameters, one by one in
place order, passing over a name that is already bound. When the places have distinct names none
is passed over, and when the source asks for no order of its inputs the finished model keeps that
order: parameter `i` is then the one opened for formal place `i`, with the place's shape, and the
place's type where it has one.

A body served for a call is the library's body graph with its formal places pinned, one by one, to
the caller's inputs. Main statements:

* `lowerGraph_opens_formal` — parameter `i` of a lowered model is opened for formal place `i`;
* `BodyCache.OpensSignatures` — the cache invariant: every cached body opens the formal places of
  its body graph pinned to its signature; the session's body source keeps it;
* `bodySource_parameters_match_call` — a body served for a call, from the cache or lowered afresh,
  has as parameter `i` the parameter opened for formal place `i` of the pinned body graph, with the
  type and the shape of the caller's input `i` wherever the caller knows them;
* `permuted_body_parameter_mistyped` — a body that orders its inputs by name breaks this: the
  caller's first input is bound to a parameter pinned to the second.
-/

namespace Lowering.Source.Graph

/-- Pinning keeps the places' names. -/
theorem map_name_pin (places : List Place) (args : List (Shape × ElementType)) :
    (pin places args).map (·.name) = places.map (·.name) := by
  induction places generalizing args with
  | nil => rfl
  | cons p ps inductionHypothesis =>
    simp only [pin]
    split
    · simp [inductionHypothesis]
    · split_ifs <;> simp [inductionHypothesis]
    · simp [inductionHypothesis]

/-- An unvalued place pinned to a shape and a type stays unvalued; it takes the type when that is
known, and the shape when its rank is known. -/
theorem pin_cons_unvalued {p : Place} (ps : List Place) (s : Shape) (t : ElementType)
    (rest : List (Shape × ElementType)) (unvalued : p.value = none) :
    ∃ q, pin (p :: ps) ((s, t) :: rest) = q :: pin ps rest ∧ q.value = none ∧
      (t.isStatic = true → q.elementType = t) ∧ (s.isRankStatic = true → q.shape = s) := by
  simp only [pin, unvalued]
  refine ⟨_, rfl, ?_⟩
  split_ifs <;> simp_all

/-- Formal place `i` of a pinned list is formal place `i` of the original pinned to argument `i`:
it takes the argument's type when that is known, and its shape when its rank is known. -/
theorem getElem?_formal_pin (places : List Place) (args : List (Shape × ElementType)) (i : Nat)
    {p : Place} {arg : Shape × ElementType} (formal : (places.filter (·.value.isNone))[i]? = some p)
    (given : args[i]? = some arg) :
    ∃ q, ((pin places args).filter (·.value.isNone))[i]? = some q ∧
      (arg.2.isStatic = true → q.elementType = arg.2) ∧ (arg.1.isRankStatic = true → q.shape = arg.1) := by
  induction places generalizing args i with
  | nil => simp at formal
  | cons p' ps inductionHypothesis =>
    cases valued : p'.value with
    | some c =>
      -- a frozen place is neither counted nor pinned
      simp only [pin, valued, List.filter_cons, Option.isNone_some] at formal ⊢
      exact inductionHypothesis args i formal given
    | none =>
      cases args with
      | nil => simp at given
      | cons a rest =>
        obtain ⟨s, t⟩ := a
        obtain ⟨q, pinned, unvalued, typed, shaped⟩ := pin_cons_unvalued ps s t rest valued
        rw [pinned]
        simp only [List.filter_cons, valued, unvalued, Option.isNone_none, if_true] at formal ⊢
        cases i with
        | zero =>
          simp only [List.getElem?_cons_zero, Option.some.injEq] at formal given
          subst given
          exact ⟨q, rfl, typed, shaped⟩
        | succ k => exact inductionHypothesis rest k formal given

/-- A specialization that succeeds pins the formal places, which are as many as the shapes and
the types given. -/
theorem specialize_eq_ok {g src : Graph} {shapes : List Shape} {types : List ElementType}
    (pinned : g.specialize shapes types = .ok src) :
    src = { g with inputs := pin g.inputs (shapes.zip types) } ∧ g.formal.length = shapes.length ∧
      shapes.length = types.length := by
  dsimp only [specialize] at pinned
  split at pinned
  · cases pinned
  · rename_i arity
    cases pinned
    simp only [not_or, ne_eq, Decidable.not_not] at arity
    exact ⟨rfl, arity⟩

end Lowering.Source.Graph

namespace Lowering.Pass

open Lowering.Ir Lowering.Proofs
open Lowering.Source (Place)

/-- Related lists relate their entries at each position. -/
theorem exists_getElem?_of_forall₂ {α β : Type} {R : α → β → Prop} :
    ∀ {l₁ : List α} {l₂ : List β}, List.Forall₂ R l₁ l₂ → ∀ {i : Nat} {a : α}, l₁[i]? = some a →
      ∃ b, l₂[i]? = some b ∧ R a b
  | _, _, .nil, _, _, found => by simp at found
  | _, _, .cons related _, 0, _, found => by
    simp only [List.getElem?_cons_zero, Option.some.injEq] at found
    exact ⟨_, rfl, found ▸ related⟩
  | _, _, .cons _ rest, i + 1, _, found => exists_getElem?_of_forall₂ rest (by simpa using found)

/-! ## The parameter opened for a place -/

/-- The tensor a pass opens for a formal place: the place's shape, and its type when it has one,
else the default input type. -/
def openedTensor (options : Options) (p : Place) : TensorInfo :=
  { elementType := if p.elementType.isStatic then p.elementType else options.defaultInputType
    shape := p.shape }

/-- Node `n` of `g` is a parameter opened for place `p`: its one output keeps the tensor opened
for `p`. -/
def OpensFor (options : Options) (g : Graph) (p : Place) (n : Nat) : Prop :=
  g.HasOp n .parameter ∧ g.hasOutput ⟨n, 0⟩ ∧ (openedTensor options p).Keeps (g.tensor ⟨n, 0⟩)

theorem OpensFor.of_extends {options : Options} {g g' : Graph} {p : Place} {n : Nat}
    (opens : OpensFor options g p n) (grows : g.Extends g') : OpensFor options g' p n :=
  ⟨grows.hasOp opens.1, grows.hasOutput opens.2.1, opens.2.2.trans (grows.tensor opens.2.1)⟩

/-- A parameter opened for a place pinned to a caller's value has the value's type and shape,
wherever the caller knows them. -/
theorem OpensFor.pinned {options : Options} {g : Graph} {q : Place} {n : Nat}
    (opens : OpensFor options g q n) {s : Shape} {t : ElementType}
    (typed : t.isStatic = true → q.elementType = t) (shaped : s.isRankStatic = true → q.shape = s) :
    (t.isStatic = true → (g.tensor ⟨n, 0⟩).elementType = t) ∧
      (s.isRankStatic = true → (g.tensor ⟨n, 0⟩).shape = s) := by
  obtain ⟨-, -, sameShape, keepsType⟩ := opens
  refine ⟨fun static => ?_, fun rankStatic => ?_⟩
  · -- a known type of the place is the opened type, which the parameter keeps
    have opened : (openedTensor options q).elementType = t := by
      simp [openedTensor, typed static, static]
    rw [keepsType (opened ▸ static), opened]
  · rw [sameShape, ← shaped rankStatic]
    rfl

/-- The output of a node appended with one tensor, then named, keeps that tensor. -/
theorem keeps_tensor_named_single (g : Graph) (name : String) (op : Op) (t : TensorInfo) :
    t.Keeps (((g.addNode "" op [] [t]).1.setName name g.size).tensor ⟨g.size, 0⟩) := by
  have added : (g.addNode "" op [] [t]).1.tensor ⟨g.size, 0⟩ = t := by
    simp [Graph.tensor, Graph.node?_addNode_self]
  have kept := (Graph.extends_setName (g := (g.addNode "" op [] [t]).1) name g.size).tensor
    (Graph.hasOutput_addNode_self "" op [] [t] Nat.zero_lt_one)
  rwa [added] at kept

/-! ## Opening the inputs -/

/-- Partway through opening `places`, with the places `done` behind: every bound name is that of a
frozen place or of a place done, and the parameters are those opened for the formal places done,
in order. -/
structure Opening (options : Options) (places done : List Place) (s : PassState) : Prop where
  bound : ∀ e ∈ s.bindings.entries, ∃ q ∈ places, (q.value.isSome ∨ q ∈ done) ∧ q.name = e.1
  opened : List.Forall₂ (OpensFor options s.graph) (done.filter (·.value.isNone)) s.parameters

namespace Opening

variable {options : Options} {places done : List Place} {s : PassState}

theorem withGraph (opening : Opening options places done s) {g : Graph} (grows : s.graph.Extends g) :
    Opening options places done { s with graph := g } :=
  ⟨opening.bound, opening.opened.imp fun _ _ opens => opens.of_extends grows⟩

/-- A formal place not done yet is unbound, when the places have distinct names. -/
theorem unbound (opening : Opening options places done s) (distinct : (places.map (·.name)).Nodup)
    {p : Place} {rest : List Place} (whole : done ++ p :: rest = places) (formal : p.value = none) :
    s.bindings.contains p.name = false := by
  have member : p ∈ places := whole ▸ List.mem_append_right done List.mem_cons_self
  -- the places are distinct as their names are, so `p` is not among those done
  have notDone : p ∉ done := fun isDone =>
    List.disjoint_of_nodup_append (whole ▸ distinct.of_map _) isDone List.mem_cons_self
  simp only [Bindings.contains, List.any_eq_false, beq_iff_eq]
  intro e entry named
  obtain ⟨q, listed, kind, sameName⟩ := opening.bound e entry
  have same : q = p := List.inj_on_of_nodup_map distinct listed member (sameName.trans named)
  subst same
  rcases kind with frozen | isDone
  · simp [formal] at frozen
  · exact notDone isDone

end Opening

/-- Freezing inputs binds only names of frozen places, and opens no parameter. -/
theorem freezeInputs_opening (options : Options) (places : List Place) :
    Triple (Opening options places []) (freezeInputs places) (fun _ => Opening options places [])
      (fun _ => True) := by
  refine (Triple.forM fun p member => ?_).conseq (fun _ holds => holds) (fun _ _ holds => holds)
    (fun _ _ => trivial)
  split
  · exact Triple.pure fun _ holds => holds
  · rename_i c frozen
    refine Triple.get_bind fun s opening => ?_
    split
    rename_i g h added
    rw [Graph.addConstant_eq] at added
    cases added
    have kept := opening.withGraph ((Graph.extends_addNode (g := s.graph) "" (.constant c) []
      [{ elementType := c.elementType, shape := c.shapeOf }]).trans (Graph.extends_setName p.name s.graph.size))
    refine Triple.set_bind_state ((bindName_spec p.name _).conseq ?_ (fun _ _ holds => holds)
      (fun _ holds => holds))
    rintro _ rfl
    refine ⟨fun b bound => ⟨fun e entry => ?_, kept.opened⟩, kept⟩
    rcases Bindings.mem_bind bound entry with rfl | old
    · exact ⟨p, member, .inl (by simp [frozen]), rfl⟩
    · exact kept.bound e old

/-- Opening places with distinct names opens one parameter for each formal place, in order. -/
theorem openInputs_opening (options : Options) (places : List Place)
    (distinct : (places.map (·.name)).Nodup) :
    Triple (Opening options places []) (openInputs options places)
      (fun _ => Opening options places places) (fun _ => True) := by
  refine Triple.forM_prefix fun done p rest whole => ?_
  have member : p ∈ places := whole ▸ List.mem_append_right done List.mem_cons_self
  -- a name bound before is still accounted for once `p` is done
  have later {s : PassState} (opening : Opening options places done s) :
      ∀ e ∈ s.bindings.entries, ∃ q ∈ places, (q.value.isSome ∨ q ∈ done ++ [p]) ∧ q.name = e.1 := by
    intro e entry
    obtain ⟨q, listed, kind, named⟩ := opening.bound e entry
    exact ⟨q, listed, kind.imp_right (List.mem_append_left [p]), named⟩
  split
  · -- a frozen place opens nothing
    rename_i frozen
    refine Triple.pure fun s opening => ⟨later opening, ?_⟩
    have unopened : p.value.isNone = false := by simpa [Option.isNone_iff_eq_none,
      ← Option.ne_none_iff_isSome] using frozen
    simpa [List.filter_append, unopened] using opening.opened
  · rename_i formal
    have unvalued : p.value = none := by simpa using formal
    refine Triple.get_bind fun s opening => ?_
    split
    · rename_i bound
      rw [opening.unbound distinct whole unvalued] at bound
      cases bound
    · simp only [Graph.addParameter_eq]
      have renamed := Graph.extends_setName
        (g := (s.graph.addNode "" .parameter [] [openedTensor options p]).1) p.name s.graph.size
      have grows := (Graph.extends_addNode (g := s.graph) "" .parameter [] [openedTensor options p]).trans
        renamed
      -- the new node is a parameter opened for `p`
      have opens : OpensFor options _ p s.graph.size :=
        ⟨renamed.hasOp (Graph.hasOp_addNode_self _ _ _ _),
          renamed.hasOutput (Graph.hasOutput_addNode_self _ _ _ _ Nat.zero_lt_one),
          keeps_tensor_named_single _ _ _ _⟩
      refine Triple.set_bind_state ((bindName_spec p.name _).conseq ?_ (fun _ _ holds => holds)
        (fun _ (_ : True) => trivial))
      rintro _ rfl
      refine ⟨fun b bound => ⟨fun e entry => ?_, ?_⟩, trivial⟩
      · rcases Bindings.mem_bind bound entry with rfl | old
        · exact ⟨p, member, .inr (List.mem_append_right done (List.mem_singleton_self p)), rfl⟩
        · exact later opening e old
      · simp only [List.filter_append, List.filter_singleton, unvalued, Option.isNone_none,
          cond_true]
        exact List.rel_append (opening.opened.imp fun _ _ opened => opened.of_extends grows)
          (.cons opens .nil)

/-! ## Lowered models -/

/-- Parameter `i` of `M` is a parameter opened for formal place `i` of `src`, for every formal
place. -/
def OpensFormal (options : Options) (src : Source.Graph) (M : Model) : Prop :=
  ∀ (i : Nat) (p : Place), src.formal[i]? = some p →
    ∃ n, M.parameters[i]? = some n ∧ OpensFor options M.graph p n

/-- A pass over a graph that names its input places apart and asks for no order of its inputs
opens, as parameter `i` of the model it gives, a parameter for formal place `i`. -/
theorem lowerGraph_opens_formal (env : Env) (bodies : env.bodies.Sound) (src : Source.Graph)
    (name : String) {cache : BodyCache} (cacheSound : cache.Sound) (unordered : src.inputNames = [])
    (distinct : (src.inputs.map (·.name)).Nodup) {M : Model}
    (lowered : ((lowerGraph env src name).run cache).1 = .ok M) : OpensFormal env.options src M := by
  unfold lowerGraph at lowered
  extract_lets pass at lowered
  let start : PassState := { cache := cache }
  have started : PassState.Sound start start := PassState.Sound.start cacheSound
  have passed : Triple (· = start) pass (fun M _ => OpensFormal env.options src M) (fun _ => True) := by
    have frozen : Triple (· = start) (freezeInputs src.inputs)
        (fun _ s => PassState.Sound start s ∧ Opening env.options src.inputs [] s) (fun _ => True) :=
      ((freezeInputs_sound src.inputs).and (freezeInputs_opening env.options src.inputs)).conseq
        (fun _ same => by rw [same]; exact ⟨started, fun _ member => absurd member List.not_mem_nil, .nil⟩)
        (fun _ _ holds => holds) (fun _ _ => trivial)
    refine Triple.bind frozen fun _ => ?_
    have opened : Triple (fun s => PassState.Sound start s ∧ Opening env.options src.inputs [] s)
        (openInputs env.options src.inputs)
        (fun _ s => PassState.Sound start s ∧ Opening env.options src.inputs src.inputs s)
        (fun _ => True) :=
      ((openInputs_sound env.options src.inputs).and
        (openInputs_opening env.options src.inputs distinct)).conseq
        (fun _ holds => holds) (fun _ _ holds => holds) (fun _ _ => trivial)
    refine Triple.bind opened fun _ => Triple.of_each fun s₂ ⟨sound, opening⟩ => ?_
    -- the rest of the pass is counted from `s₂`, whose parameters stay in front
    have rest {x : PassM Unit} (step : Triple (PassState.Sound s₂) x (fun _ => PassState.Sound s₂)
        (PassState.Sound s₂)) :
        Triple (PassState.Sound s₂) x (fun _ => PassState.Sound s₂) (fun _ => True) :=
      step.conseq (fun _ holds => holds) (fun _ _ holds => holds) (fun _ _ => trivial)
    refine Triple.bind ((rest (translateOperations_sound env bodies src.operations)).conseq
      (fun _ same => same ▸ sound.rebase) (fun _ _ holds => holds) (fun _ holds => holds)) fun _ => ?_
    refine Triple.bind (rest (assembleResults_sound src)) fun _ => ?_
    have finishing : Triple (PassState.Sound s₂) (finishNames src)
        (fun _ s' => ∃ s, PassState.Sound s₂ s ∧ NamesFinished src s s') (fun _ => True) :=
      Triple.of_each fun s sound' => (finishNames_effect src s sound'.graph).conseq
        (fun _ same => same) (fun _ s' finished => ⟨s, sound', finished⟩) (fun _ _ => trivial)
    refine Triple.bind finishing fun _ => ?_
    refine Triple.get_bind fun s ⟨s₃, sound₃, finished⟩ => Triple.pure fun _ same => ?_
    subst same
    intro i p formal
    obtain ⟨n, listed, opens⟩ := exists_getElem?_of_forall₂ opening.opened formal
    refine ⟨n, ?_, opens.of_extends (sound₃.grows.trans finished.grows)⟩
    -- parameter `i` of `s₂` keeps its place: later parameters come after it, and no order is asked
    obtain ⟨bound, same⟩ := List.getElem?_eq_some_iff.mp listed
    rw [finished.unordered unordered, ← same]
    exact List.prefix_iff_getElem?.mp sound₃.extendsParameters i bound
  simp only [StateT.run_bind, StateT.run_get, pure_bind] at lowered
  split at lowered
  rename_i r s ran
  have ended := passed start rfl
  rw [ran] at ended
  simp only [StateT.run_bind, StateT.run_set, StateT.run_pure] at lowered
  subst lowered
  exact ended

/-- A body stored as lowered, or with its names cleared, opens the formal places the lowered body
opens. -/
theorem OpensFormal.stored {options : Options} {src : Source.Graph} {M : Model}
    (opens : OpensFormal options src M) :
    OpensFormal options src
      (if options.clearBodyNames then { M with graph := M.graph.clearNames } else M) := by
  intro i p formal
  obtain ⟨n, listed, opensFor⟩ := opens i p formal
  split
  · exact ⟨n, listed, opensFor.of_extends Graph.extends_clearNames⟩
  · exact ⟨n, listed, opensFor⟩

end Lowering.Pass

namespace Lowering

open Lowering.Ir Lowering.Pass Lowering.Proofs

/-! ## Bodies served for calls -/

/-- Every body the cache holds, for a library body graph that names its input places apart and
asks for no order of its inputs, opens as parameter `i` a parameter for formal place `i` of that
graph pinned to the body's signature. -/
def Pass.BodyCache.OpensSignatures (options : Options) (library : Source.Graph) (c : BodyCache) :
    Prop :=
  ∀ e ∈ c.entries, ∀ body, library.bodyGraph? e.1.identity = some body → body.inputNames = [] →
    (body.inputs.map (·.name)).Nodup →
      ∃ src, body.specialize e.1.shapes e.1.types = .ok src ∧ OpensFormal options src e.2

section Served

variable {registry : Registry} {options : Options} {library : Source.Graph}

theorem Pass.BodyCache.OpensSignatures.lookup {c : BodyCache}
    (opening : c.OpensSignatures options library) (sig : Signature) :
    (c.lookup sig).2.OpensSignatures options library :=
  opening

theorem Pass.BodyCache.OpensSignatures.insert {c : BodyCache}
    (opening : c.OpensSignatures options library) {sig : Signature} {m : Model}
    (opens : ∀ body, library.bodyGraph? sig.identity = some body → body.inputNames = [] →
      (body.inputs.map (·.name)).Nodup →
        ∃ src, body.specialize sig.shapes sig.types = .ok src ∧ OpensFormal options src m) :
    (c.insert sig m).OpensSignatures options library := by
  intro e member
  rcases List.mem_append.mp member with kept | new
  · exact opening e (List.mem_filter.mp kept).1
  · rw [List.mem_singleton.mp new]
    exact opens

/-- A body lowered for a call, from the library's body graph pinned to the call's signature and
stored as the options ask, opens that graph's formal places whenever the graph names its input
places apart and asks for no order of its inputs. -/
theorem opensSignature_of_lowered {depth : Nat} {identity : String} {inputs : List Handle}
    {g : Graph} {body src : Source.Graph} {cache c' : BodyCache} {M : Model} (cacheSound : cache.Sound)
    (found : library.bodyGraph? identity = some body)
    (pinned : body.specialize (Signature.ofCall identity inputs g).shapes
      (Signature.ofCall identity inputs g).types = .ok src)
    (ran : (lowerGraph ⟨registry, options, library, bodySource registry options library depth⟩ src
      identity).run cache = (.ok M, c')) :
    ∀ body', library.bodyGraph? identity = some body' → body'.inputNames = [] →
      (body'.inputs.map (·.name)).Nodup →
        ∃ src, body'.specialize (Signature.ofCall identity inputs g).shapes
          (Signature.ofCall identity inputs g).types = .ok src ∧
          OpensFormal options src (if options.clearBodyNames then { M with graph := M.graph.clearNames } else M) := by
  intro body' found' unordered distinct
  rw [found] at found'
  cases found'
  -- the body lowered is the library's graph with its formal places pinned
  obtain ⟨same, -, -⟩ := Source.Graph.specialize_eq_ok pinned
  refine ⟨src, pinned, OpensFormal.stored ?_⟩
  exact lowerGraph_opens_formal _ (bodySource_sound registry options library depth) src identity
    cacheSound (by rw [same]; exact unordered)
    (by rw [same]; simpa [Source.Graph.map_name_pin] using distinct) (by rw [ran])

/-- The session's body source keeps its cache opening its signatures, at every depth: a hit leaves
every entry as it is, and a miss stores the body it lowers, which opens its signature, after a
nested pass that keeps the cache as each shallower call does. -/
theorem bodySource_opensSignatures (registry : Registry) (options : Options) (library : Source.Graph) :
    ∀ depth identity inputs g (c : BodyCache), c.Sound → c.OpensSignatures options library →
      (bodySource registry options library depth identity inputs g c).2.OpensSignatures options library
  | 0 => fun _ _ _ _ _ opening => opening
  | depth + 1 => by
    intro identity inputs g c cacheSound opening
    let sig := Signature.ofCall identity inputs g
    have lookedUp := (cacheSound.lookup sig).1
    have kept := opening.lookup sig
    simp only [bodySource]
    split
    · exact opening
    split
    · rename_i m c' looked
      rw [looked] at kept
      exact kept
    rename_i c' looked
    rw [looked] at lookedUp kept
    split
    · exact kept
    rename_i body found
    split
    · exact kept
    rename_i src pinned
    -- the nested pass keeps the cache sound and opening its signatures, as each shallower call does
    have nested := @lowerGraph_keeps registry options library
      (fun c => c.Sound ∧ c.OpensSignatures options library) (bodySource registry options library depth)
      src identity (fun callee _ inputs' g' c'' holds =>
        ⟨(bodySource_sound registry options library depth callee inputs' g' c'' holds.1).1,
          bodySource_opensSignatures registry options library depth callee inputs' g' c'' holds.1
            holds.2⟩) c' ⟨lookedUp, kept⟩
    split
    · rename_i e c'' ran
      rw [ran] at nested
      exact nested.2
    · rename_i M c'' ran
      rw [ran] at nested
      exact nested.2.insert (opensSignature_of_lowered lookedUp found pinned ran)

/-- A body the session's body source serves for a call, from a cache opening its signatures, opens
the library's body graph pinned to the call: from the cache on a hit, lowered afresh on a miss. -/
theorem bodySource_opens_formal {depth : Nat} {identity : String} {inputs : List Handle} {g : Graph}
    {cache : BodyCache} (cacheSound : cache.Sound) (opening : cache.OpensSignatures options library)
    {body : Source.Graph} (found : library.bodyGraph? identity = some body)
    (unordered : body.inputNames = []) (distinct : (body.inputs.map (·.name)).Nodup) {m : Model}
    (served : (bodySource registry options library depth identity inputs g cache).1 = .ok (some m)) :
    ∃ src, body.specialize (Signature.ofCall identity inputs g).shapes
      (Signature.ofCall identity inputs g).types = .ok src ∧ OpensFormal options src m := by
  cases depth with
  | zero => simp [bodySource] at served
  | succ depth =>
    have lookedUp := (cacheSound.lookup (Signature.ofCall identity inputs g)).1
    simp only [bodySource] at served
    split at served
    · cases served
    split at served
    · -- a hit serves an entry of the signature
      rename_i m' c' looked
      have hit : (cache.lookup (Signature.ofCall identity inputs g)).1 = some m' := by
        rw [looked]
      have same : m' = m := by simpa using served
      subst same
      exact opening _ (BodyCache.mem_of_lookup hit) body found unordered distinct
    rename_i c' looked
    rw [looked] at lookedUp
    split at served
    · cases served
    rename_i body' found'
    split at served
    · cases served
    rename_i src pinned
    split at served
    · cases served
    rename_i M c'' ran
    simp only [Except.ok.injEq, Option.some.injEq] at served
    subst served
    exact opensSignature_of_lowered lookedUp found' pinned ran body found unordered distinct

end Served

/-- A body served for a call, from a cache whose every body opens its signature, has as parameter
`i` the parameter opened for formal place `i` of the library's body graph pinned to the call, when
that graph names its input places apart and asks for no order of its inputs: a parameter node with
the type and the shape of the caller's input `i`, wherever the caller knows them. The cache left
still opens its signatures, so this holds of every later call too. -/
theorem bodySource_parameters_match_call (registry : Registry) (options : Options)
    (library : Source.Graph) (depth : Nat) (identity : String) (inputs : List Handle) (g : Graph)
    {cache : BodyCache} (cacheSound : cache.Sound) (opening : cache.OpensSignatures options library)
    {body : Source.Graph} (found : library.bodyGraph? identity = some body)
    (unordered : body.inputNames = []) (distinct : (body.inputs.map (·.name)).Nodup) {m : Model}
    (served : (bodySource registry options library depth identity inputs g cache).1 = .ok (some m)) :
    (bodySource registry options library depth identity inputs g cache).2.OpensSignatures options library ∧
    ∃ src, body.specialize (Signature.ofCall identity inputs g).shapes
      (Signature.ofCall identity inputs g).types = .ok src ∧
      ∀ (i : Nat) (h : Handle), inputs[i]? = some h →
        ∃ q n, src.formal[i]? = some q ∧ m.parameters[i]? = some n ∧ OpensFor options m.graph q n ∧
          ((g.tensor h).elementType.isStatic = true →
            (m.graph.tensor ⟨n, 0⟩).elementType = (g.tensor h).elementType) ∧
          ((g.tensor h).shape.isRankStatic = true →
            (m.graph.tensor ⟨n, 0⟩).shape = (g.tensor h).shape) := by
  obtain ⟨src, pinned, opens⟩ := bodySource_opens_formal cacheSound opening found unordered distinct served
  refine ⟨bodySource_opensSignatures registry options library depth identity inputs g cache cacheSound
    opening, src, pinned, fun i h input => ?_⟩
  obtain ⟨same, arity, -⟩ := Source.Graph.specialize_eq_ok pinned
  -- input `i` feeds formal place `i` of the body, which is pinned to its shape and type
  have counted : i < body.formal.length := by
    rw [arity]
    simpa [Signature.ofCall] using (List.getElem?_eq_some_iff.mp input).1
  obtain ⟨p, formal⟩ : ∃ p, body.formal[i]? = some p := ⟨_, List.getElem?_eq_getElem counted⟩
  have given : ((Signature.ofCall identity inputs g).shapes.zip
      (Signature.ofCall identity inputs g).types)[i]? =
      some ((g.tensor h).shape, (g.tensor h).elementType) := by
    simp [Signature.ofCall, List.getElem?_zip_eq_some, input]
  obtain ⟨q, pinnedFormal, typed, shaped⟩ :=
    Source.Graph.getElem?_formal_pin body.inputs _ i formal given
  have placed : src.formal[i]? = some q := by
    rw [same]
    exact pinnedFormal
  obtain ⟨n, listed, opensFor⟩ := opens i q placed
  exact ⟨q, n, placed, listed, opensFor, opensFor.pinned typed shaped⟩

/-- An outcome that holds a value is `.ok (some m)` for some `m`; each such `m` is then all there is
to check. -/
theorem exists_ok_some_and {ε α : Type} {r : Except ε (Option α)} {P : α → Prop}
    (holds : (r.toOption.bind id).isSome = true) (each : ∀ m, r = .ok (some m) → P m) :
    ∃ m, r = .ok (some m) ∧ P m := by
  rcases r with e | _ | m
  · simp [Except.toOption] at holds
  · simp [Except.toOption] at holds
  · exact ⟨m, rfl, each m rfl⟩

/-- A one-input body called on an `f32` value of shape `[2]` opens its parameter with that type and
shape. -/
theorem bodySource_parameters_match_call_single :
    ∃ m, (bodySource [] {}
        { functions := [("Body",
            { inputs := [{ name := "a" }]
              operations := [{ name := "u", opType := "UseA", inputs := [{ producer := "a" }] }]
              outputs := [⟨"u", .all⟩] })] } 1
        "Body" [⟨0, 0⟩] (({} : Graph).addParameter .f32 ⟨some [.known 2]⟩).1 {}).1 = .ok (some m) ∧
      ∃ n, m.parameters[0]? = some n ∧ m.graph.HasOp n .parameter ∧
        (m.graph.tensor ⟨n, 0⟩).elementType = .f32 ∧ (m.graph.tensor ⟨n, 0⟩).shape = ⟨some [.known 2]⟩ :=
  exists_ok_some_and (by decide +kernel) fun _ served => by
    obtain ⟨-, src, -, each⟩ := bodySource_parameters_match_call [] {} _ 1 "Body" [⟨0, 0⟩] _
      (fun _ member => absurd member List.not_mem_nil) (fun _ member => absurd member List.not_mem_nil)
      rfl rfl (by simp) served
    obtain ⟨q, n, -, listed, opensFor, typed, shaped⟩ := each 0 ⟨0, 0⟩ rfl
    exact ⟨n, listed, opensFor.1, typed rfl, shaped rfl⟩

/-- A body that lists its inputs by name, `b` before `a`, opens `a` and `b` in place order, pinned
to a caller's `f32` and `i32` inputs, then lists them as `b`, `a`: the caller's first input, of type
`f32`, is bound to a parameter of type `i32`. -/
theorem permuted_body_parameter_mistyped :
    ((bodySource [] {}
        { functions := [("Body",
            { inputs := [{ name := "a" }, { name := "b" }]
              inputNames := ["b", "a"]
              operations := [{ name := "u", opType := "UseA", inputs := [{ producer := "a" }] }]
              outputs := [⟨"u", .all⟩] })] } 1
        "Body" [⟨0, 0⟩, ⟨1, 0⟩]
        ((({} : Graph).addParameter .f32 ⟨some [.known 2]⟩).1.addParameter .i32 ⟨some [.known 3]⟩).1
        {}).1.toOption.bind id).map
      (fun m => m.parameters.map fun n => (m.graph.tensor ⟨n, 0⟩).elementType) = some [.i32, .f32] := by
  decide +kernel

end Lowering
