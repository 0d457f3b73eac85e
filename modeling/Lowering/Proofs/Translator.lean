import Lowering.Translator.Kind
import Lowering.Proofs.Hoare
import Lowering.Proofs.Splice

/-! # Translators keep their workspace sound

A translator may append nodes, splice bodies and ask the session for bodies; when it fails, the
pass drops what it appended. This module shows that each stock translator, given inputs that
exist, keeps its workspace sound (`Workspace.Sound`): the graph stays well formed and keeps every
node it started with, and the body cache holds only well-formed bodies. That holds on failure too,
which is what lets the pass roll back safely.

* `BodyCache.Sound`, `BodySource.Sound` — caches and sources of well-formed bodies;
* one triple per `Context` operation (`input`, the attribute reads, `addOp`, `bodyModel`);
* `Kind.run_sound` — the case analysis over the stock translators.
-/

namespace Lowering.Pass

open Lowering.Ir

/-- Every body the cache holds has a well-formed graph. -/
def BodyCache.Sound (c : BodyCache) : Prop := ∀ e ∈ c.entries, e.2.graph.WellFormed

theorem BodyCache.mem_of_lookup {c : BodyCache} {sig : Signature} {m : Model}
    (found : (c.lookup sig).1 = some m) : (sig, m) ∈ c.entries := by
  obtain ⟨⟨sig', m'⟩, entry, rfl⟩ := Option.map_eq_some_iff.mp found
  have same : sig' = sig := by simpa using List.find?_some entry
  subst same
  exact List.mem_of_find?_eq_some entry

theorem BodyCache.Sound.lookup {c : BodyCache} (sound : c.Sound) (sig : Signature) :
    (c.lookup sig).2.Sound ∧ ∀ m, (c.lookup sig).1 = some m → m.graph.WellFormed :=
  ⟨sound, fun _ found => sound _ (BodyCache.mem_of_lookup found)⟩

theorem BodyCache.Sound.insert {c : BodyCache} (sound : c.Sound) (sig : Signature) {m : Model}
    (wellFormed : m.graph.WellFormed) : (c.insert sig m).Sound := by
  intro e member
  rcases List.mem_append.mp member with kept | new
  · exact sound e (List.mem_filter.mp kept).1
  · rw [List.mem_singleton.mp new]
    exact wellFormed

end Lowering.Pass

namespace Lowering.Translator

open Lowering.Ir Lowering.Pass Lowering.Proofs

/-- A source of bodies that keeps a cache sound and hands out only well-formed bodies. -/
def BodySource.Sound (bodies : BodySource) : Prop :=
  ∀ identity inputs g c, BodyCache.Sound c → (bodies identity inputs g c).2.Sound ∧
    ∀ m, (bodies identity inputs g c).1 = .ok (some m) → m.graph.WellFormed

/-- What a translator keeps: a well-formed graph that has every node of `base`, and a cache of
well-formed bodies. -/
structure Workspace.Sound (base : Graph) (w : Workspace) : Prop where
  graph : w.graph.WellFormed
  grows : base.Extends w.graph
  cache : w.cache.Sound

namespace Workspace.Sound

variable {base : Graph} {w : Workspace}

theorem addNode (sound : Sound base w) {name : String} {op : Op} {ins : List Handle}
    {outs : List TensorInfo} (valid : ∀ h ∈ ins, base.hasOutput h)
    (arity : op = .result → ins.length = 1) :
    Sound base { w with graph := (w.graph.addNode name op ins outs).1 } :=
  ⟨sound.graph.addNode (fun h member => sound.grows.hasOutput (valid h member)) arity,
    sound.grows.trans (Graph.extends_addNode name op ins outs), sound.cache⟩

theorem setName (sound : Sound base w) (name : String) (n : Nat) :
    Sound base { w with graph := w.graph.setName name n } :=
  ⟨sound.graph.setName name n, sound.grows.trans (Graph.extends_setName name n), sound.cache⟩

end Workspace.Sound

/-! ## Reading the context -/

/-- A computation that leaves the workspace as it found it. -/
def Unchanging (x : TranslatorM α) : Prop := ∀ w, (x.run.run w).2 = w

/-- A step that leaves the workspace alone passes the precondition on to what follows, and a
failure of it leaves a state the precondition still describes. -/
theorem Unchanging.bind {x : TranslatorM α} {f : α → TranslatorM β} {pre : Workspace → Prop}
    {post : β → Workspace → Prop} {fault : Workspace → Prop} (unchanging : Unchanging x)
    (faults : ∀ w, pre w → fault w) (rest : ∀ a, Triple pre (f a) post fault) :
    Triple pre (x >>= f) post fault := by
  intro w holds
  rw [run_bind]
  have same := unchanging w
  revert same
  rcases x.run.run w with ⟨_ | a, w'⟩
  · intro same
    subst same
    exact faults _ holds
  · intro same
    subst same
    exact rest a _ holds

theorem Unchanging.map {x : TranslatorM α} (unchanging : Unchanging x) (f : α → β) :
    Unchanging (f <$> x) := by
  intro w
  rw [map_eq_pure_bind, run_bind]
  have same := unchanging w
  revert same
  rcases x.run.run w with ⟨_ | _, w'⟩ <;> exact id

theorem Unchanging.pure (a : α) : Unchanging (Pure.pure a : TranslatorM α) := fun _ => rfl

namespace Context

variable (ctx : Context)

theorem fail_unchanging (text : String) : Unchanging (fail text : TranslatorM α) := fun _ => rfl

/-- Reading an input leaves the workspace alone and gives a member of the inputs. -/
theorem input_bind {f : Handle → TranslatorM β} {pre : Workspace → Prop}
    {post : β → Workspace → Prop} {fault : Workspace → Prop} (i : Nat)
    (faults : ∀ w, pre w → fault w) (rest : ∀ h ∈ ctx.inputs, Triple pre (f h) post fault) :
    Triple pre (ctx.input i >>= f) post fault := by
  unfold input
  split
  · rename_i h found
    exact fun w holds => rest h (List.mem_of_getElem? found) w holds
  · exact fun w holds => faults w holds

theorem readAttr_unchanging (k : String) (v : Json.Value) (read : Json.TreeReader α) :
    Unchanging (ctx.readAttr k v read) := by
  intro w
  unfold readAttr
  split <;> rfl

theorem attr_unchanging (k : String) (read : Json.TreeReader α) : Unchanging (ctx.attr k read) := by
  intro w
  unfold attr
  split
  · exact ctx.readAttr_unchanging k _ read w
  · rfl

theorem attrOr_unchanging (k : String) (read : Json.TreeReader α) (default : α) :
    Unchanging (ctx.attrOr k read default) := by
  intro w
  unfold attrOr
  split
  · exact ctx.readAttr_unchanging k _ read w
  · rfl

theorem tensor_unchanging (h : Handle) : Unchanging (Context.tensor h) := fun _ => rfl

/-! ## Writing the graph and asking for bodies -/

variable {base : Graph}

theorem addOp_sound (opType : String) {ins : List Handle} (outs : List TensorInfo)
    (valid : ∀ h ∈ ins, base.hasOutput h) :
    Triple (Workspace.Sound base) (ctx.addOp opType ins outs) (fun _ => Workspace.Sound base)
      (Workspace.Sound base) := by
  unfold addOp
  refine Triple.get_bind fun w sound => ?_
  refine Triple.set_bind ?_ (Triple.pure fun _ holds => holds)
  exact (sound.addNode valid (fun isResult => Op.noConfusion isResult)).setName ctx.op.name w.graph.size

theorem bodyModel_sound (bodies : ctx.bodies.Sound) (identity : String) (ins : List Handle) :
    Triple (Workspace.Sound base) (ctx.bodyModel identity ins)
      (fun r w => Workspace.Sound base w ∧ ∀ m, r = .ok (some m) → m.graph.WellFormed)
      (Workspace.Sound base) := by
  unfold bodyModel
  refine Triple.get_bind fun w sound => ?_
  obtain ⟨cacheSound, delivered⟩ := bodies identity ins w.graph w.cache sound.cache
  exact Triple.set_bind (show Workspace.Sound base _ from ⟨sound.graph, sound.grows, cacheSound⟩)
    (Triple.pure fun _ holds => ⟨holds, delivered⟩)

end Context

namespace Kind

variable {base : Graph}

/-- Splicing a body again and again keeps the workspace sound, whether a round fails or not. -/
theorem repeatSplice_sound (ctx : Context) (bodies : ctx.bodies.Sound) (body : String)
    {ins : List Handle} (valid : ∀ h ∈ ins, base.hasOutput h) :
    ∀ (times : Nat) (acc : List Handle),
      Triple (Workspace.Sound base) (repeatSplice ctx body ins times acc)
        (fun _ => Workspace.Sound base) (Workspace.Sound base)
  | 0, acc => Triple.pure fun _ holds => holds
  | times + 1, acc => by
    simp only [repeatSplice]
    refine Triple.bind (ctx.bodyModel_sound bodies body ins) fun found => ?_
    split
    · exact fun _ holds => holds.1
    · exact fun _ holds => holds.1
    · rename_i m
      refine Triple.get_bind fun w pre => ?_
      obtain ⟨sound, delivered⟩ := pre
      obtain ⟨splicedWellFormed, splicedGrows, -⟩ :=
        splice_sound body sound.graph (delivered m rfl)
          (fun h member => sound.grows.hasOutput (valid h member))
      refine Triple.set_bind (show Workspace.Sound base _ from
        ⟨splicedWellFormed, sound.grows.trans splicedGrows, sound.cache⟩) ?_
      split
      · exact fun _ holds => holds
      · exact repeatSplice_sound ctx bodies body valid times _

/-- Every stock translator, given inputs that exist, keeps its workspace sound, whether it
succeeds or fails. -/
theorem run_sound (k : Kind) (ctx : Context) (bodies : ctx.bodies.Sound)
    (valid : ∀ h ∈ ctx.inputs, base.hasOutput h) :
    Triple (Workspace.Sound base) (k.run ctx) (fun _ => Workspace.Sound base)
      (Workspace.Sound base) := by
  have keeps : ∀ w, Workspace.Sound base w → Workspace.Sound base w := fun _ holds => holds
  have done {a : List Labeled} : Triple (Workspace.Sound base) (pure a : TranslatorM _)
      (fun _ => Workspace.Sound base) (Workspace.Sound base) := Triple.pure keeps
  cases k with
  | unary =>
    refine ctx.input_bind 0 keeps fun x member => ?_
    refine (Context.tensor_unchanging x).bind keeps fun t => ?_
    refine Triple.bind (ctx.addOp_sound _ _ ?_) fun _ => done
    simpa using valid x member
  | binary =>
    refine ctx.input_bind 0 keeps fun a first => ?_
    refine ctx.input_bind 1 keeps fun b second => ?_
    refine (Context.tensor_unchanging a).bind keeps fun t => ?_
    refine Triple.bind (ctx.addOp_sound _ _ ?_) fun _ => done
    simpa using ⟨valid a first, valid b second⟩
  | variadic =>
    refine (ctx.attrOr_unchanging _ _ _).bind keeps fun count => ?_
    dsimp only
    split
    · refine ((Context.tensor_unchanging _).map _).bind keeps fun info => ?_
      exact Triple.bind (ctx.addOp_sound _ _ valid) fun _ => done
    · refine (Unchanging.pure _).bind keeps fun info => ?_
      exact Triple.bind (ctx.addOp_sound _ _ valid) fun _ => done
  | grouped =>
    refine (ctx.attrOr_unchanging _ _ _).bind keeps fun groups => ?_
    exact Triple.bind (ctx.addOp_sound _ _ valid) fun _ => done
  | identity => exact ctx.input_bind 0 keeps fun _ _ => done
  | result =>
    refine ctx.input_bind 0 keeps fun x member => ?_
    refine (ctx.attrOr_unchanging _ _ _).bind keeps fun name => ?_
    refine Triple.get_bind fun w sound => ?_
    refine Triple.set_bind (show Workspace.Sound base _ from ?_) done
    exact sound.addNode (by simpa using valid x member) (fun _ => rfl)
  | parameter =>
    refine (ctx.attrOr_unchanging _ _ _).bind keeps fun t => ?_
    refine (ctx.attrOr_unchanging _ _ _).bind keeps fun shape => ?_
    refine (ctx.attrOr_unchanging _ _ _).bind keeps fun name => ?_
    refine Triple.get_bind fun w sound => ?_
    refine Triple.set_bind (show Workspace.Sound base _ from ?_) done
    exact (sound.addNode (fun _ member => absurd member List.not_mem_nil) (fun isResult => Op.noConfusion isResult)).setName _ _
  | constant =>
    refine (ctx.attr_unchanging _ _).bind keeps fun c => ?_
    refine Triple.get_bind fun w sound => ?_
    refine Triple.set_bind (show Workspace.Sound base _ from ?_) done
    exact (sound.addNode (fun _ member => absurd member List.not_mem_nil) (fun isResult => Op.noConfusion isResult)).setName _ _
  | fail =>
    refine (ctx.attrOr_unchanging _ _ _).bind keeps fun message => ?_
    exact Triple.bind (ctx.addOp_sound _ _ valid) fun _ => fun _ holds => holds
  | failAttr => exact (ctx.attr_unchanging _ _).bind keeps fun _ => fun _ holds => holds
  | abort => exact (ctx.attrOr_unchanging _ _ _).bind keeps fun _ => fun _ holds => holds
  | abortText => exact fun _ holds => holds
  | abortSilent => exact fun _ holds => holds
  | strayHandle =>
    refine (ctx.attrOr_unchanging _ _ _).bind keeps fun output => ?_
    exact Triple.bind (ctx.addOp_sound _ _ (fun _ member => absurd member List.not_mem_nil)) fun _ => done
  | inputOutOfRange =>
    refine (ctx.attrOr_unchanging _ _ _).bind keeps fun i => ?_
    split
    · exact done
    · exact fun _ holds => holds
  | repeatBody =>
    refine (ctx.attrOr_unchanging _ _ _).bind keeps fun body => ?_
    refine (ctx.attrOr_unchanging _ _ _).bind keeps fun times => ?_
    refine (ctx.attrOr_unchanging _ _ _).bind keeps fun giveUp => ?_
    refine Triple.bind (repeatSplice_sound ctx bodies body valid times []) fun _ => ?_
    split
    · exact fun _ holds => holds
    · exact done

end Kind

end Lowering.Translator
