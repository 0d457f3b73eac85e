import Lowering.Proofs.Agreement

/-! # A pass sees its cache only through its bodies

A lowering pass carries the session's body cache in its state, but reads it only by asking its
source of bodies, directly for a call of a library body or through a translator. So two passes over
the same graph whose states differ only in their caches, and whose body sources answer alike for
every body the graph's operations may ask for, give the same outcome.

* `PassState.SameUpTo C`, `Workspace.SameUpTo C` — states alike but for their caches, which `C`
  relates;
* `BodiesAgree C asked B₁ B₂` — two body sources answer alike for each identity `asked` admits;
* `bodyRequests registry op` — the identities lowering `op` may ask for;
* `lowerGraph_agree` — the main statement: passes with agreeing body sources agree;
* `lowerGraph_keeps` — so a pass keeps every property of the cache that its body source keeps.

The steps that do not use the bodies agree with themselves from states alike but for their caches;
those that do agree as their body sources do.
-/

namespace Lowering.Pass

open Lowering.Ir Lowering.Proofs Lowering.Translator
open Lowering.Source (Operation Edge Place)

/-- Two pass states alike but for their caches, which `C` relates. -/
def PassState.SameUpTo (C : BodyCache → BodyCache → Prop) (s₁ s₂ : PassState) : Prop :=
  ∃ c, s₂ = { s₁ with cache := c } ∧ C s₁.cache c

theorem Agree.liftExcept {R : PassState → PassState → Prop} {α : Type} (r : Except LowerError α) :
    Agree R (liftExcept r) (liftExcept r) := by
  cases r with
  | error e => exact Agree.throw e
  | ok a => exact Agree.pure a

/-- Lifting one outcome on both sides: a failure fails alike, a value goes on. -/
theorem AgreeFrom.liftExcept_bind {R : PassState → PassState → Prop} {s₁ s₂ : PassState}
    {α β : Type} (r : Except LowerError α) {f₁ f₂ : α → PassM β} (related : R s₁ s₂)
    (rest : ∀ a, r = .ok a → AgreeFrom R (f₁ a) (f₂ a) s₁ s₂) :
    AgreeFrom R (liftExcept r >>= f₁) (liftExcept r >>= f₂) s₁ s₂ := by
  cases r with
  | error e => exact ⟨rfl, related⟩
  | ok a => exact rest a rfl

section CacheFree

variable {C : BodyCache → BodyCache → Prop}

/-! ## Steps that do not use the bodies -/

theorem bindName_agree (name : String) (vs : List Labeled) :
    Agree (PassState.SameUpTo C) (bindName name vs) (bindName name vs) := by
  unfold bindName
  refine Agree.get_bind fun s₁ _ ⟨c, same, related⟩ => ?_
  subst same
  dsimp only
  refine AgreeFrom.liftExcept_bind _ ⟨c, rfl, related⟩ fun b _ => ?_
  exact AgreeFrom.set ⟨c, rfl, related⟩

theorem single_agree (vs : List Labeled) (fault : LowerError) :
    Agree (PassState.SameUpTo C) (single vs fault) (single vs fault) := by
  unfold single
  split
  · exact Agree.pure _
  · exact Agree.throw _

/-- The last step of resolving an input: reading the producer's value `out`. -/
theorem readOutput_agree (op : Operation) (slot : Nat) (edge : Edge) (out : Nat) :
    Agree (ε := LowerError) (PassState.SameUpTo C)
      (do let s ← get; match (s.bindings.get? edge.producer).bind (·[out]?) with
        | some v => return some v.handle
        | none => throw (LowerError.inputResolution op.name slot edge.producer out .outOfRange))
      (do let s ← get; match (s.bindings.get? edge.producer).bind (·[out]?) with
        | some v => return some v.handle
        | none => throw (LowerError.inputResolution op.name slot edge.producer out .outOfRange)) := by
  refine Agree.get_bind fun s₁ _ ⟨c, same, related⟩ => ?_
  subst same
  dsimp only
  split
  · exact AgreeFrom.of_agree (Agree.pure _) ⟨c, rfl, related⟩
  · exact AgreeFrom.of_agree (Agree.throw _) ⟨c, rfl, related⟩

theorem resolveInput_agree (op : Operation) (slot : Nat) (edge : Edge) :
    Agree (PassState.SameUpTo C) (resolveInput op slot edge) (resolveInput op slot edge) := by
  unfold resolveInput
  refine Agree.get_bind fun s₁ _ ⟨c, same, related⟩ => ?_
  subst same
  -- keep what follows the output index as one join point on each side
  dsimp -zeta only
  extract_lets tail₁ tail₂
  have started : PassState.SameUpTo C s₁ { s₁ with cache := c } := ⟨c, rfl, related⟩
  -- once the index is known: a labeled value, a missing producer, or the producer's value after
  -- an optional growth of a stand-in
  have tail : ∀ out, Agree (PassState.SameUpTo C) (tail₁ out) (tail₂ out) := by
    intro out
    dsimp only [tail₁, tail₂]
    split
    · exact (single_agree _ _).bind fun _ => Agree.pure _
    split
    · exact Agree.throw _
    split
    · split
      · split
        · -- a growth past the most outputs a node holds stops alike on both sides
          split
          · exact Agree.throw_bind _
          · exact fun _ _ _ => AgreeFrom.set_bind ⟨c, rfl, related⟩ (readOutput_agree op slot edge out)
        · exact readOutput_agree op slot edge out
      · exact readOutput_agree op slot edge out
    · exact readOutput_agree op slot edge out
  split
  · exact AgreeFrom.of_agree ((single_agree _ _).bind fun _ => Agree.pure _) started
  split
  · exact AgreeFrom.of_agree (Agree.pure _) started
  -- the index comes from the edge's group, or is the edge's own
  split
  · split
    · exact AgreeFrom.of_agree ((Agree.pure _).bind tail) started
    · exact AgreeFrom.of_agree ((Agree.throw _).bind tail) started
    · exact AgreeFrom.of_agree ((Agree.throw _).bind tail) started
  · exact AgreeFrom.of_agree ((Agree.pure _).bind tail) started

theorem resolveInputs_agree (op : Operation) :
    Agree (PassState.SameUpTo C) (resolveInputs op) (resolveInputs op) := by
  unfold resolveInputs
  split
  · exact Agree.pure _
  · exact (Agree.mapM fun _ _ => resolveInput_agree _ _ _).bind fun _ => Agree.pure _

theorem passthrough_agree (op : Operation) (inputs : List Handle) (failure : Option String) :
    Agree (PassState.SameUpTo C) (passthrough op inputs failure) (passthrough op inputs failure) := by
  unfold passthrough
  refine Agree.get_bind fun s₁ _ ⟨c, same, related⟩ => ?_
  subst same
  dsimp only
  exact AgreeFrom.set_bind ⟨c, rfl, related⟩ (Agree.pure _)

theorem register_agree (op : Operation) (vs : List Labeled) :
    Agree (PassState.SameUpTo C) (register op vs) (register op vs) := by
  unfold register
  refine Agree.get_bind fun s₁ _ ⟨c, same, related⟩ => ?_
  subst same
  dsimp only
  refine AgreeFrom.set_bind ⟨c, rfl, related⟩ ?_
  split
  · exact bindName_agree _ _
  · exact Agree.pure _

theorem freezeInputs_agree (places : List Place) :
    Agree (PassState.SameUpTo C) (freezeInputs places) (freezeInputs places) := by
  refine Agree.forM fun p _ => ?_
  split
  · exact Agree.pure _
  · refine Agree.get_bind fun s₁ _ ⟨c, same, related⟩ => ?_
    subst same
    dsimp only
    exact AgreeFrom.set_bind ⟨c, rfl, related⟩ (bindName_agree _ _)

theorem openInputs_agree (options : Options) (places : List Place) :
    Agree (PassState.SameUpTo C) (openInputs options places) (openInputs options places) := by
  refine Agree.forM fun p _ => ?_
  split
  · exact Agree.pure _
  · refine Agree.get_bind fun s₁ _ ⟨c, same, related⟩ => ?_
    subst same
    dsimp only
    split
    · exact AgreeFrom.of_agree (Agree.pure _) ⟨c, rfl, related⟩
    · exact AgreeFrom.set_bind ⟨c, rfl, related⟩ (bindName_agree _ _)

theorem assembleResults_agree (src : Source.Graph) :
    Agree (PassState.SameUpTo C) (assembleResults src) (assembleResults src) := by
  unfold assembleResults
  refine Agree.get_bind fun s₁ _ ⟨c, same, related⟩ => ?_
  subst same
  dsimp only
  split
  · exact AgreeFrom.of_agree (Agree.pure _) ⟨c, rfl, related⟩
  refine AgreeFrom.liftExcept_bind _ ⟨c, rfl, related⟩ fun declared _ => ?_
  refine AgreeFrom.set_bind ⟨c, rfl, related⟩ ?_
  split
  · exact Agree.pure _
  · exact fun _ _ _ => AgreeFrom.set ⟨c, rfl, related⟩

theorem finishNames_agree (src : Source.Graph) :
    Agree (PassState.SameUpTo C) (finishNames src) (finishNames src) := by
  unfold finishNames
  refine Agree.get_bind fun s₁ _ ⟨c, same, related⟩ => ?_
  subst same
  dsimp only
  refine AgreeFrom.liftExcept_bind _ ⟨c, rfl, related⟩ fun _ _ => ?_
  refine AgreeFrom.liftExcept_bind _ ⟨c, rfl, related⟩ fun _ _ => ?_
  exact AgreeFrom.set ⟨c, rfl, related⟩

end CacheFree

end Lowering.Pass

namespace Lowering.Translator

open Lowering.Ir Lowering.Pass Lowering.Proofs Lowering.Json
open Lowering.Source (Operation)

/-- Two workspaces alike but for their caches, which `C` relates. -/
def Workspace.SameUpTo (C : BodyCache → BodyCache → Prop) (w₁ w₂ : Workspace) : Prop :=
  ∃ c, w₂ = { w₁ with cache := c } ∧ C w₁.cache c

/-- Two body sources give the same answer for each identity that `asked` admits, from caches
related by `C`, and leave related caches. -/
def BodiesAgree (C : BodyCache → BodyCache → Prop) (asked : String → Prop) (B₁ B₂ : BodySource) :
    Prop :=
  ∀ identity, asked identity → ∀ inputs g c₁ c₂, C c₁ c₂ →
    (B₁ identity inputs g c₁).1 = (B₂ identity inputs g c₂).1 ∧
      C (B₁ identity inputs g c₁).2 (B₂ identity inputs g c₂).2

theorem BodiesAgree.mono {C : BodyCache → BodyCache → Prop} {asked asked' : String → Prop}
    {B₁ B₂ : BodySource} (agree : BodiesAgree C asked B₁ B₂) (within : ∀ identity, asked' identity → asked identity) :
    BodiesAgree C asked' B₁ B₂ :=
  fun identity isAsked => agree identity (within identity isAsked)

/-- The bodies a repeating translator may ask for: the one its attribute `body` names, or `Step`
when it names none. -/
def repeatRequests (op : Operation) : List String :=
  match Fields.find? op.attrs "body" with
  | some v =>
    match decodeTree string v with
    | .ok name => [name]
    | .error _ => []
  | none => ["Step"]

section Contexts

variable {C : BodyCache → BodyCache → Prop} {op : Operation} {inputs : List Handle}
  {B₁ B₂ : BodySource}

/-! ## What a translator reads and writes -/

theorem input_agree (i : Nat) :
    Agree (Workspace.SameUpTo C) (Context.input ⟨op, inputs, B₁⟩ i) (Context.input ⟨op, inputs, B₂⟩ i) := by
  unfold Context.input Context.fail
  dsimp only
  split
  · exact Agree.pure _
  · exact Agree.throw _

theorem readAttr_agree {α : Type} (k : String) (v : Value) (read : TreeReader α) :
    Agree (Workspace.SameUpTo C) (Context.readAttr ⟨op, inputs, B₁⟩ k v read)
      (Context.readAttr ⟨op, inputs, B₂⟩ k v read) := by
  unfold Context.readAttr Context.fail
  dsimp only
  split
  · exact Agree.pure _
  · exact Agree.throw _

theorem attr_agree {α : Type} (k : String) (read : TreeReader α) :
    Agree (Workspace.SameUpTo C) (Context.attr ⟨op, inputs, B₁⟩ k read)
      (Context.attr ⟨op, inputs, B₂⟩ k read) := by
  unfold Context.attr Context.fail
  dsimp only
  split
  · exact readAttr_agree _ _ _
  · exact Agree.throw _

theorem attrOr_agree {α : Type} (k : String) (read : TreeReader α) (default : α) :
    Agree (Workspace.SameUpTo C) (Context.attrOr ⟨op, inputs, B₁⟩ k read default)
      (Context.attrOr ⟨op, inputs, B₂⟩ k read default) := by
  unfold Context.attrOr
  dsimp only
  split
  · exact readAttr_agree _ _ _
  · exact Agree.pure _

theorem tensor_agree (h : Handle) :
    Agree (Workspace.SameUpTo C) (Context.tensor h) (Context.tensor h) := by
  unfold Context.tensor
  refine Agree.get_bind fun w₁ _ ⟨c, same, related⟩ => ?_
  subst same
  exact AgreeFrom.of_agree (Agree.pure _) ⟨c, rfl, related⟩

theorem addOp_agree (opType : String) (ins : List Handle) (outs : List TensorInfo) :
    Agree (Workspace.SameUpTo C) (Context.addOp ⟨op, inputs, B₁⟩ opType ins outs)
      (Context.addOp ⟨op, inputs, B₂⟩ opType ins outs) := by
  unfold Context.addOp
  refine Agree.get_bind fun w₁ _ ⟨c, same, related⟩ => ?_
  subst same
  dsimp only
  exact AgreeFrom.set_bind ⟨c, rfl, related⟩ (Agree.pure _)

/-- Asking the session for a body on which the two sources agree. -/
theorem bodyModel_agree (identity : String) (ins : List Handle)
    (agree : BodiesAgree C (· = identity) B₁ B₂) :
    Agree (Workspace.SameUpTo C) (Context.bodyModel ⟨op, inputs, B₁⟩ identity ins)
      (Context.bodyModel ⟨op, inputs, B₂⟩ identity ins) := by
  unfold Context.bodyModel
  refine Agree.get_bind fun w₁ _ ⟨c, same, related⟩ => ?_
  subst same
  obtain ⟨sameAnswer, related'⟩ := agree identity rfl ins w₁.graph w₁.cache c related
  dsimp only
  rw [sameAnswer]
  exact AgreeFrom.set_bind ⟨_, rfl, related'⟩ (Agree.pure _)

/-! ## Stock translators -/

/-- Splicing a body again and again, asking for it each time. -/
theorem Kind.repeatSplice_agree (body : String) (ins : List Handle)
    (agree : BodiesAgree C (· = body) B₁ B₂) :
    ∀ times acc, Agree (Workspace.SameUpTo C) (Kind.repeatSplice ⟨op, inputs, B₁⟩ body ins times acc)
      (Kind.repeatSplice ⟨op, inputs, B₂⟩ body ins times acc)
  | 0, acc => Agree.pure acc
  | times + 1, acc => by
    unfold Kind.repeatSplice Context.fail
    refine (bodyModel_agree body ins agree).bind fun answer => ?_
    split
    · exact Agree.throw _
    · exact Agree.throw _
    · refine Agree.get_bind fun w₁ _ ⟨c, same, related⟩ => ?_
      subst same
      dsimp only
      refine AgreeFrom.set_bind ⟨c, rfl, related⟩ ?_
      split
      · exact Agree.throw _
      · exact Kind.repeatSplice_agree body ins agree times _

/-- A stock translator runs alike with two body sources that agree on every body it may ask for. -/
theorem Kind.run_agree (k : Kind)
    (agree : k = .repeatBody → BodiesAgree C (· ∈ repeatRequests op) B₁ B₂) :
    Agree (Workspace.SameUpTo C) (k.run ⟨op, inputs, B₁⟩) (k.run ⟨op, inputs, B₂⟩) := by
  cases k <;> unfold Kind.run <;> dsimp only
  case unary =>
    exact (input_agree 0).bind fun x => (tensor_agree x).bind fun _ =>
      (addOp_agree _ _ _).bind fun _ => Agree.pure _
  case binary =>
    exact (input_agree 0).bind fun a => (input_agree 1).bind fun _ => (tensor_agree a).bind fun _ =>
      (addOp_agree _ _ _).bind fun _ => Agree.pure _
  case variadic =>
    refine (attrOr_agree _ _ _).bind fun _ => ?_
    split
    · exact (Agree.map _ (tensor_agree _)).bind fun _ => (addOp_agree _ _ _).bind fun _ => Agree.pure _
    · exact (Agree.pure _).bind fun _ => (addOp_agree _ _ _).bind fun _ => Agree.pure _
  case grouped =>
    exact (attrOr_agree _ _ _).bind fun _ => (addOp_agree _ _ _).bind fun _ => Agree.pure _
  case identity => exact (input_agree 0).bind fun _ => Agree.pure _
  case result =>
    refine (input_agree 0).bind fun _ => (attrOr_agree _ _ _).bind fun _ => ?_
    refine Agree.get_bind fun w₁ _ ⟨c, same, related⟩ => ?_
    subst same
    exact AgreeFrom.set_bind ⟨c, rfl, related⟩ (Agree.pure _)
  case parameter =>
    refine (attrOr_agree _ _ _).bind fun _ => (attrOr_agree _ _ _).bind fun _ =>
      (attrOr_agree _ _ _).bind fun _ => ?_
    refine Agree.get_bind fun w₁ _ ⟨c, same, related⟩ => ?_
    subst same
    exact AgreeFrom.set_bind ⟨c, rfl, related⟩ (Agree.pure _)
  case constant =>
    refine (attr_agree _ _).bind fun _ => ?_
    refine Agree.get_bind fun w₁ _ ⟨c, same, related⟩ => ?_
    subst same
    exact AgreeFrom.set_bind ⟨c, rfl, related⟩ (Agree.pure _)
  case fail =>
    exact (attrOr_agree _ _ _).bind fun _ => (addOp_agree _ _ _).bind fun _ => Agree.throw _
  case failAttr => exact (attr_agree _ _).bind fun _ => Agree.throw _
  case abort => exact (attrOr_agree _ _ _).bind fun _ => Agree.throw _
  case abortText => exact Agree.throw _
  case abortSilent => exact Agree.throw _
  case strayHandle =>
    exact (attrOr_agree _ _ _).bind fun _ => (addOp_agree _ _ _).bind fun _ => Agree.pure _
  case inputOutOfRange =>
    refine (attrOr_agree _ _ _).bind fun _ => ?_
    split
    · exact Agree.pure _
    · exact Agree.throw _
  case repeatBody =>
    -- the body asked for is the one the attribute names, or the default
    refine (attrOr_agree _ _ _).bind_of_yields fun body named => ?_
    refine (attrOr_agree _ _ _).bind fun _ => (attrOr_agree _ _ _).bind fun _ => ?_
    have requested : body ∈ repeatRequests op := by
      obtain ⟨w, ran⟩ := named
      unfold Context.attrOr Context.readAttr Context.fail at ran
      unfold repeatRequests
      dsimp only at ran
      cases found : Fields.find? op.attrs "body" with
      | some v =>
        rw [found] at ran
        dsimp only at ran ⊢
        cases decoded : decodeTree string v with
        | ok name =>
          rw [decoded] at ran
          have same : name = body := Except.ok.inj ran
          rw [same]
          exact List.mem_singleton_self body
        | error e =>
          rw [decoded] at ran
          cases ran
      | none =>
        rw [found] at ran
        have same : "Step" = body := Except.ok.inj ran
        rw [← same]
        exact List.mem_singleton_self _
    refine (Kind.repeatSplice_agree body _ ((agree rfl).mono fun _ same => same ▸ requested) _ _).bind
      fun _ => ?_
    split
    · exact Agree.throw _
    · exact Agree.pure _

end Contexts

end Lowering.Translator

namespace Lowering.Pass

open Lowering.Ir Lowering.Proofs Lowering.Translator
open Lowering.Source (Operation)

/-- The identities of the bodies that lowering `op` may ask for: its own type when no translator is
registered for it, and the body a repeating translator names. -/
def bodyRequests (registry : Registry) (op : Operation) : List String :=
  match registry.find? (·.1 == op.opType) with
  | none => [op.opType]
  | some (_, kind) => if kind = .repeatBody then repeatRequests op else []

section Bodies

variable {C : BodyCache → BodyCache → Prop} {registry : Registry} {options : Options}
  {library : Source.Graph} {B₁ B₂ : BodySource}

/-! ## Steps that use the bodies -/

theorem dispatch_agree (op : Operation) (inputs : List Handle)
    (agree : BodiesAgree C (· ∈ bodyRequests registry op) B₁ B₂) :
    Agree (PassState.SameUpTo C) (dispatch ⟨registry, options, library, B₁⟩ op inputs)
      (dispatch ⟨registry, options, library, B₂⟩ op inputs) := by
  unfold dispatch
  dsimp only
  split
  · rename_i kind registered
    refine Agree.get_bind fun s₁ _ ⟨c, same, related⟩ => ?_
    subst same
    dsimp only
    -- the translator runs alike from the two workspaces
    have ran : AgreeFrom (Workspace.SameUpTo C) (kind.run ⟨op, inputs, B₁⟩)
        (kind.run ⟨op, inputs, B₂⟩) ⟨s₁.graph, s₁.cache⟩ ⟨s₁.graph, c⟩ :=
      Kind.run_agree kind (fun isRepeat => agree.mono fun identity requested => by
        simp [bodyRequests, registered, isRepeat, requested]) _ _ ⟨c, rfl, related⟩
    obtain ⟨sameOutcome, c', sameWorkspace, related'⟩ := ran
    rcases ran₁ : (kind.run ⟨op, inputs, B₁⟩).run.run ⟨s₁.graph, s₁.cache⟩ with ⟨outcome, w⟩
    rcases ran₂ : (kind.run ⟨op, inputs, B₂⟩).run.run ⟨s₁.graph, c⟩ with ⟨outcome', w'⟩
    rw [ran₁, ran₂] at sameOutcome sameWorkspace
    rw [ran₁] at related'
    dsimp only at sameOutcome sameWorkspace related'
    subst sameOutcome sameWorkspace
    dsimp only
    -- the translator's values are kept or dropped alike
    split
    · exact AgreeFrom.set_bind ⟨c', rfl, related'⟩ (Agree.pure _)
    · exact AgreeFrom.set_bind ⟨c', rfl, related'⟩ (passthrough_agree _ _ _)
  · rename_i unregistered
    refine Agree.get_bind fun s₁ _ ⟨c, same, related⟩ => ?_
    subst same
    dsimp only
    -- the body of the operation's type comes alike from the two sources
    obtain ⟨sameAnswer, related'⟩ := agree op.opType (by simp [bodyRequests, unregistered])
      inputs s₁.graph s₁.cache c related
    rw [sameAnswer]
    refine AgreeFrom.set_bind ⟨_, rfl, related'⟩ ((Agree.liftExcept _).bind fun found => ?_)
    split
    · exact passthrough_agree _ _ _
    · refine Agree.get_bind fun t₁ _ ⟨c₂, same₂, related₂⟩ => ?_
      subst same₂
      dsimp only
      refine AgreeFrom.set_bind ⟨c₂, rfl, related₂⟩ ((Agree.liftExcept _).bind fun vs => ?_)
      exact fun u₁ _ ⟨c₃, same₃, related₃⟩ => by
        subst same₃
        exact AgreeFrom.modify_bind ⟨c₃, rfl, related₃⟩ (Agree.pure _)

theorem translateOperations_agree (ops : List Operation)
    (agree : BodiesAgree C (fun identity => ∃ op ∈ ops, identity ∈ bodyRequests registry op) B₁ B₂) :
    Agree (PassState.SameUpTo C) (translateOperations ⟨registry, options, library, B₁⟩ ops)
      (translateOperations ⟨registry, options, library, B₂⟩ ops) := by
  unfold translateOperations
  refine Agree.forM fun op member => ?_
  refine Agree.get_bind fun s₁ _ ⟨c, same, related⟩ => ?_
  subst same
  dsimp only
  split
  · exact AgreeFrom.of_agree (Agree.pure _) ⟨c, rfl, related⟩
  · refine AgreeFrom.of_agree ?_ ⟨c, rfl, related⟩
    exact (resolveInputs_agree op).bind fun inputs =>
      (dispatch_agree op inputs (agree.mono fun _ requested => ⟨op, member, requested⟩)).bind fun vs =>
        register_agree op vs

/-- Two passes over one graph, from caches related by `C`, with body sources that agree on every
body the graph's operations may ask for, give the same outcome and leave related caches. -/
theorem lowerGraph_agree (src : Source.Graph) (name : String)
    (agree : BodiesAgree C (fun identity => ∃ op ∈ src.operations, identity ∈ bodyRequests registry op)
      B₁ B₂) {c₁ c₂ : BodyCache} (related : C c₁ c₂) :
    ((lowerGraph ⟨registry, options, library, B₁⟩ src name).run c₁).1 =
        ((lowerGraph ⟨registry, options, library, B₂⟩ src name).run c₂).1 ∧
      C ((lowerGraph ⟨registry, options, library, B₁⟩ src name).run c₁).2
        ((lowerGraph ⟨registry, options, library, B₂⟩ src name).run c₂).2 := by
  unfold lowerGraph
  extract_lets pass₁ pass₂
  have passes : Agree (PassState.SameUpTo C) pass₁ pass₂ :=
    (freezeInputs_agree _).bind fun _ => (openInputs_agree _ _).bind fun _ =>
      (translateOperations_agree _ agree).bind fun _ => (assembleResults_agree _).bind fun _ =>
        (finishNames_agree _).bind fun _ => Agree.get_bind fun s₁ _ ⟨c, same, related⟩ => by
          subst same
          exact AgreeFrom.of_agree (Agree.pure _) ⟨c, rfl, related⟩
  obtain ⟨sameOutcome, c, sameState, related'⟩ := passes { cache := c₁ } { cache := c₂ } ⟨c₂, rfl, related⟩
  simp only [StateT.run_bind, StateT.run_get, pure_bind]
  rcases ran₁ : pass₁.run.run { cache := c₁ } with ⟨r, s⟩
  rcases ran₂ : pass₂.run.run { cache := c₂ } with ⟨r', s'⟩
  rw [ran₁, ran₂] at sameOutcome sameState
  rw [ran₁] at related'
  dsimp only at sameOutcome sameState related'
  subst sameOutcome sameState
  exact ⟨rfl, related'⟩

/-- A pass keeps every property of the cache that each call of its body source keeps, for the
bodies the pass may ask for: the property is the diagonal of an agreement between the pass and
itself. -/
theorem lowerGraph_keeps {P : BodyCache → Prop} {bodies : BodySource} (src : Source.Graph)
    (name : String)
    (keeps : ∀ identity, (∃ op ∈ src.operations, identity ∈ bodyRequests registry op) →
      ∀ inputs g c, P c → P (bodies identity inputs g c).2)
    {c : BodyCache} (holds : P c) :
    P ((lowerGraph ⟨registry, options, library, bodies⟩ src name).run c).2 := by
  have agree : BodiesAgree (fun c₁ c₂ => c₁ = c₂ ∧ P c₁)
      (fun identity => ∃ op ∈ src.operations, identity ∈ bodyRequests registry op) bodies bodies := by
    intro identity asked inputs g c₁ c₂ related
    obtain ⟨rfl, holds₁⟩ := related
    exact ⟨rfl, rfl, keeps identity asked inputs g c₁ holds₁⟩
  exact (lowerGraph_agree src name agree ⟨rfl, holds⟩).2.2

end Bodies

end Lowering.Pass
