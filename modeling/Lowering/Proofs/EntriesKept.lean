import Lowering.Proofs.Consistency
import Lowering.Proofs.NamesBoundOnce

/-! # Entries kept along a walk

Resolving an input may regrow a stand-in and bind its producer again, to all outputs of the node
behind the producer's first value. An entry survives that, as the start of its new values, only
when its values were the first outputs of that node in order (`resolveInput_refines`). Along a
whole walk over the operations nothing else happens to an entry: binding a name leaves every other
name alone, and a dispatch leaves the bindings alone and only adds to the graph.

* `Settled` — values that no regrowth rewrites out of order: the node behind the first value
  exists, and when it is a stand-in the values are its first outputs;
* `EntryKept` — what each step keeps of a settled entry: the name is still bound, to settled
  values that start with the old ones;
* `translateOperations_keeps_settled_entry` — along the walk a settled entry only grows, so every
  later lookup of one of its positions gives the value it held;
* `forwarded_entry_rebound` — an entry that forwards a stand-in's output out of order is rewritten,
  and two readers of one of its positions get different values.
-/

namespace Lowering.Pass

open Lowering.Ir Lowering.Proofs Lowering.Translator
open Lowering.Source (Operation Edge)

/-- Values that no regrowth rewrites out of order: the node behind the first value exists, and
when it is a stand-in the values are its first outputs, in order. -/
def Settled (g : Graph) (vs : List Labeled) : Prop :=
  ∀ first, vs.head? = some first → ∃ nd, g.node? first.handle.node = some nd ∧
    (nd.op.isFramework = true → vs.map (·.handle) <+: g.outputs first.handle.node)

theorem Settled.of_extends {g g' : Graph} {vs : List Labeled} (settled : Settled g vs)
    (grows : g.Extends g') : Settled g' vs := by
  intro first head
  obtain ⟨nd, found, leading⟩ := settled first head
  obtain ⟨nd', found', le⟩ := grows _ nd found
  refine ⟨nd', found', fun framework => ?_⟩
  rw [le.op] at framework
  exact (leading framework).trans (Graph.Extends.outputs_prefix grows _)

/-- All outputs of a node, in order, are settled. -/
theorem settled_unlabeled_outputs (g : Graph) (n : Nat) : Settled g (unlabeled (g.outputs n)) := by
  intro first head
  have member : first.handle ∈ g.outputs n := by
    obtain ⟨h, inOutputs, rfl⟩ := List.mem_map.mp (List.mem_of_mem_head? head)
    exact inOutputs
  unfold Graph.outputs at member
  cases found : g.node? n with
  | none => simp [found] at member
  | some nd =>
    -- the first value is an output of `n` itself
    simp only [found, List.mem_map, List.mem_range] at member
    obtain ⟨p, -, same⟩ := member
    rw [← same, map_handle_unlabeled]
    exact ⟨nd, found, fun _ => List.prefix_refl _⟩

/-- What a walk keeps of the entry `vs` of `name`: the name is still bound, to settled values that
start with those of `vs`. -/
def EntryKept (name : String) (vs : List Labeled) (s : PassState) : Prop :=
  ∃ vs', s.bindings.get? name = some vs' ∧ vs.map (·.handle) <+: vs'.map (·.handle) ∧
    Settled s.graph vs'

theorem EntryKept.of_extends {name : String} {vs : List Labeled} {s s' : PassState}
    (kept : EntryKept name vs s) (grows : s.graph.Extends s'.graph) (same : s'.bindings = s.bindings) :
    EntryKept name vs s' := by
  obtain ⟨vs', found, leading, settled⟩ := kept
  exact ⟨vs', same ▸ found, leading, settled.of_extends grows⟩

/-! ## One step at a time -/

section Steps

variable (name : String) (vs : List Labeled)

/-- Resolving an input keeps a settled entry. A regrowth of another producer leaves the entry
alone and only grows the graph; a regrowth of its own producer binds it to all outputs of its
stand-in, which its values start. -/
theorem resolveInput_keeps_entry (op : Operation) (slot : Nat) (edge : Edge) :
    Triple (EntryKept name vs) (resolveInput op slot edge) (fun _ => EntryKept name vs)
      (fun _ => True) := by
  refine Triple.of_each fun s kept => (resolveInput_effect op slot edge s).conseq
    (fun _ same => same) (fun _ s' ⟨effect, _⟩ => ?_) (fun _ _ => trivial)
  rcases effect with rfl | ⟨pvs, first, len, entry, head, isStandIn, rfl⟩
  · exact kept
  obtain ⟨vs', found, leading, settled⟩ := kept
  by_cases same : name = edge.producer
  · subst same
    rw [entry] at found
    cases found
    obtain ⟨nd, node, outputsFirst⟩ := settled first head
    have framework : nd.op.isFramework = true := by simpa [standIn, node] using isStandIn
    refine ⟨_, ?_, ?_, settled_unlabeled_outputs _ first.handle.node⟩
    · rw [Bindings.get?_rebind, if_pos ⟨rfl, Bindings.contains_iff.mpr (by simp [entry])⟩]
    · -- the old values start the stand-in's outputs, which growing keeps first
      rw [map_handle_unlabeled]
      exact leading.trans ((outputsFirst framework).trans (outputs_prefix_growOutputs _ _ _))
  · refine ⟨vs', ?_, leading, settled.of_extends (Graph.extends_growOutputs _ _)⟩
    rw [Bindings.get?_rebind, if_neg fun both => same both.1]
    exact found

/-- A dispatch keeps a settled entry: it leaves the bindings alone, and the graph it leaves extends
the one it found. -/
theorem dispatch_keeps_entry (env : Env) (bodies : env.bodies.Sound) (op : Operation)
    (inputs : List Handle) {base : PassState} :
    Triple (fun s => (PassState.Sound base s ∧ ∀ h ∈ inputs, s.graph.hasOutput h) ∧ EntryKept name vs s)
      (dispatch env op inputs) (fun vs' s => (PassState.Sound base s ∧ Exist vs' s) ∧ EntryKept name vs s)
      (fun _ => True) := by
  refine Triple.of_each fun s ⟨⟨sound, valid⟩, kept⟩ => ?_
  -- counted from `s` itself, soundness says the graph grows from that of `s`
  refine (((@dispatch_sound base env bodies op inputs).and (@dispatch_sound s env bodies op inputs)).and
    (dispatch_keeps_bindings env op inputs s.bindings)).conseq ?_ ?_ (fun _ _ => trivial)
  · rintro _ rfl
    exact ⟨⟨⟨sound, valid⟩, sound.rebase, valid⟩, rfl⟩
  · rintro vs' s' ⟨⟨held, grown, -⟩, unchanged⟩
    exact ⟨held, kept.of_extends grown.grows unchanged⟩

/-- Registering an operation's values keeps a settled entry: binding the operation's name succeeds
only when that name is another, and leaves the entry alone. -/
theorem register_keeps_entry (op : Operation) (vs' : List Labeled) :
    Triple (EntryKept name vs) (register op vs') (fun _ => EntryKept name vs) (fun _ => True) := by
  unfold register
  refine Triple.get_bind fun s kept => ?_
  split
  refine Triple.set_bind_state ?_
  split
  · refine (bindName_spec op.name _).conseq (fun _ same => ⟨fun b bound => ?_, trivial⟩)
      (fun _ _ holds => holds) (fun _ (_ : True) => trivial)
    subst same
    obtain ⟨vs'', found, leading, settled⟩ := kept
    exact ⟨vs'', Bindings.get?_bind_of_bound bound found, leading, settled⟩
  · exact Triple.pure fun _ same => by subst same; exact kept

/-- Translating one operation keeps a sound state and a settled entry. -/
theorem translateOperation_keeps_entry (env : Env) (bodies : env.bodies.Sound) (op : Operation)
    {base : PassState} :
    Triple (fun s => PassState.Sound base s ∧ EntryKept name vs s) (translateOperations env [op])
      (fun _ s => PassState.Sound base s ∧ EntryKept name vs s) (fun _ => True) := by
  rw [translateOperations_single]
  refine Triple.get_bind fun s held => ?_
  split
  · exact Triple.pure fun _ same => by subst same; exact held
  refine Triple.bind (((resolveInputs_sound op).and
    (resolveInputs_keeps op (resolveInput_keeps_entry name vs op))).conseq
    (fun _ same => by subst same; exact held) (fun _ _ holds => holds) (fun _ _ => trivial))
    fun inputs => ?_
  refine Triple.bind (dispatch_keeps_entry name vs env bodies op inputs) fun vs' => ?_
  exact ((register_sound op vs').and (register_keeps_entry name vs op vs')).conseq
    (fun _ holds => holds) (fun _ _ holds => holds) (fun _ _ => trivial)

/-- A walk over the operations keeps a sound state and a settled entry. -/
theorem translateOperations_keeps_entry (env : Env) (bodies : env.bodies.Sound) {base : PassState} :
    ∀ ops : List Operation, Triple (fun s => PassState.Sound base s ∧ EntryKept name vs s)
      (translateOperations env ops) (fun _ s => PassState.Sound base s ∧ EntryKept name vs s)
      (fun _ => True)
  | [] => Triple.pure fun _ held => held
  | op :: ops => by
    rw [translateOperations_cons]
    exact Triple.bind (translateOperation_keeps_entry name vs env bodies op) fun _ =>
      translateOperations_keeps_entry env bodies ops

end Steps

/-! ## The walk -/

/-- Along a walk over the operations, a name bound to settled values stays bound, to values that
start with those: every later lookup of one of its positions gives the value it held. -/
theorem translateOperations_keeps_settled_entry (env : Env) (bodies : env.bodies.Sound)
    (base : PassState) (name : String) (vs : List Labeled) (ops : List Operation) :
    Triple (fun s => PassState.Sound base s ∧ s.bindings.get? name = some vs ∧ Settled s.graph vs)
      (translateOperations env ops)
      (fun _ s => ∃ vs', s.bindings.get? name = some vs' ∧ vs.map (·.handle) <+: vs'.map (·.handle))
      (fun _ => True) := by
  refine (translateOperations_keeps_entry name vs env bodies ops).conseq
    (fun _ ⟨sound, found, settled⟩ => ⟨sound, vs, found, List.prefix_refl _, settled⟩) ?_
    (fun _ _ => trivial)
  rintro _ s ⟨-, vs', found, leading, -⟩
  exact ⟨vs', found, leading⟩

/-- The stand-in `D`, with one output, bound to it, as a state of a walk. -/
def standInBound : PassState where
  graph := (({} : Graph).addFramework "D" "Custom" [] none [] 1).1
  bindings := { entries := [("D", [{ handle := ⟨0, 0⟩ }])] }

/-- A reader of `D:2` after `standInBound` grows `D` to three outputs, and `D` stays bound to values
that start with its output 0. -/
theorem translateOperations_keeps_settled_entry_standIn :
    ∃ vs', ((translateOperations (Session.env ⟨{}, [], {}, {}, none⟩)
        [{ name := "use", opType := "Use", inputs := [{ producer := "D", index := 2 }] }]).run.run
        standInBound).2.bindings.get? "D" = some vs' ∧ [(⟨0, 0⟩ : Handle)] <+: vs'.map (·.handle) := by
  have sound : PassState.Sound standInBound standInBound :=
    { graph := wellFormed_empty.addNode (fun _ member => absurd member List.not_mem_nil)
        fun isResult => Op.noConfusion isResult
      grows := Graph.Extends.refl _
      extendsParameters := List.prefix_refl _
      bound := by decide
      parametersNodup := List.nodup_nil
      parameters := fun _ member => absurd member List.not_mem_nil
      resultsNodup := List.nodup_nil
      results := fun _ member => absurd member List.not_mem_nil
      cache := fun _ member => absurd member List.not_mem_nil }
  have settled : Settled standInBound.graph [{ handle := ⟨0, 0⟩ }] := fun first head => by
    cases head
    exact ⟨_, rfl, fun _ => by decide⟩
  have ended := translateOperations_keeps_settled_entry (Session.env ⟨{}, [], {}, {}, none⟩)
    (bodySource_sound [] {} {} _) standInBound
    "D" _ [{ name := "use", opType := "Use", inputs := [{ producer := "D", index := 2 }] }]
    standInBound ⟨sound, rfl, settled⟩
  have succeeded : ((translateOperations (Session.env ⟨{}, [], {}, {}, none⟩)
      [{ name := "use", opType := "Use", inputs := [{ producer := "D", index := 2 }] }]).run.run
      standInBound).1.toBool = true := by
    decide +kernel
  revert ended succeeded
  rcases (translateOperations _ _).run.run standInBound with ⟨_ | _, s'⟩
  · exact fun _ failed => by cases failed
  · exact fun ended _ => ended

/-- An entry that forwards another node's output is not kept. `id` forwards output 1 of the
stand-in `D`; `a` reads `id:0` and gets it, then `b` reads `id:2`, which grows `D` and binds `id`
to all outputs of `D`, so that `c`, reading `id:0` as `a` did, gets output 0. -/
theorem forwarded_entry_rebound :
    ((Session.convertedModel
      ⟨{ operations := [
          { name := "D", opType := "Custom", numOutputs := 3 },
          { name := "id", opType := "Ident", inputs := [{ producer := "D", index := 1 }] },
          { name := "a", opType := "UseA", inputs := [{ producer := "id" }] },
          { name := "b", opType := "UseB", inputs := [{ producer := "id", index := 2 }] },
          { name := "c", opType := "UseC", inputs := [{ producer := "id" }] }]
         outputs := [⟨"a", .all⟩, ⟨"b", .all⟩, ⟨"c", .all⟩] },
      [("Ident", .identity)], {}, {}, none⟩).1.toOption.map
        fun M => (M.graph.inputs 1, M.graph.inputs 3)) = some ([⟨0, 1⟩], [⟨0, 0⟩]) := by
  decide +kernel

end Lowering.Pass
