import Lowering.Proofs.Bindings

/-! # Names bound once

A pass binds a name in three places: each frozen input as a named constant, each other input as
a parameter, and each translated operation once its values are known. Binding a name that is
bound already is a failure, and only the first of the three places can meet it:

* `openInputs` skips an input whose name is bound, and binds the others right away
  (`openInputs_ok`);
* the walk skips an operation whose name is bound; resolving the operation's inputs only rebinds
  names already bound (`resolveInputs_keeps_unbound`) and dispatching it leaves the bindings as
  they are (`dispatch_keeps_bindings`), so registering its values binds a free name
  (`register_ok`);
* the frozen inputs come first, into empty bindings, so binding them fails exactly at the first
  frozen name that repeats an earlier one (`freezeInputs_run`), and then the pass stops with the
  session's cache untouched.

Main statement: `bindName_fails_only_on_frozen_repeat`.
-/

namespace Lowering.Pass

open Lowering.Ir Lowering.Proofs
open Lowering.Source (Operation Place)

/-- The names of the frozen input places, in order. -/
def frozenNames (places : List Place) : List String :=
  (places.filter (·.value.isSome)).map (·.name)

/-- The first name that repeats one before it, the names `seen` counting as before. -/
def firstRepeat (seen : List String) : List String → Option String
  | [] => none
  | n :: rest => if n ∈ seen then some n else firstRepeat (seen ++ [n]) rest

/-! ## First repeats -/

theorem firstRepeat_of_nodup : ∀ {seen names : List String}, (seen ++ names).Nodup →
    firstRepeat seen names = none
  | _, [], _ => rfl
  | seen, n :: rest, distinct => by
    have fresh : n ∉ seen := fun member =>
      (List.nodup_append.mp distinct).2.2 n member n List.mem_cons_self rfl
    rw [firstRepeat, if_neg fresh]
    exact firstRepeat_of_nodup (by simpa using distinct)

theorem firstRepeat_of_split : ∀ {seen pre post : List String} {n : String}, (seen ++ pre).Nodup →
    n ∈ seen ++ pre → firstRepeat seen (pre ++ n :: post) = some n
  | seen, [], post, n, _, repeated => by
    rw [List.append_nil] at repeated
    simp [firstRepeat, repeated]
  | seen, m :: pre, post, n, distinct, repeated => by
    have fresh : m ∉ seen := fun member =>
      (List.nodup_append.mp distinct).2.2 m member m List.mem_cons_self rfl
    rw [List.cons_append, firstRepeat, if_neg fresh]
    exact firstRepeat_of_split (by simpa using distinct) (by simpa using repeated)

/-! ## Which names are bound -/

namespace Bindings

variable {b : Bindings} {name n : String} {vs : List Labeled}

theorem contains_insertSorted :
    ({ entries := Json.insertSorted name vs b.entries } : Bindings).contains n = true ↔
      n = name ∨ b.contains n = true := by
  rw [contains_iff, get?_insertSorted, contains_iff]
  by_cases same : n = name <;> simp [same]

@[simp] theorem contains_rebind : (b.rebind name vs).contains n = b.contains n := by
  unfold rebind
  split
  · rename_i present
    apply Bool.eq_iff_iff.mpr
    rw [contains_insertSorted]
    constructor
    · rintro (rfl | bound)
      · exact present
      · exact bound
    · exact .inr
  · rfl

end Bindings

/-- Binding a name: a failure, leaving the state as it is, when the name is bound; otherwise the
name joins the bindings. -/
theorem bindName_run (name : String) (vs : List Labeled) (s : PassState) :
    (bindName name vs).run.run s =
      if s.bindings.contains name then (.error (.duplicateOperation name), s)
      else (.ok (), { s with bindings := { entries := Json.insertSorted name vs s.bindings.entries } }) := by
  unfold bindName Bindings.bind
  rw [run_get_bind, run_bind, run_liftExcept]
  cases s.bindings.contains name <;> simp

/-- Binding a free name never fails. -/
theorem bindName_free (name : String) (vs : List Labeled) :
    Triple (fun s => s.bindings.contains name = false) (bindName name vs) (fun _ _ => True)
      (fun _ => False) := by
  intro s free
  rw [bindName_run, free]
  trivial

/-! ## Inputs opened as parameters -/

/-- Opening the inputs that are not frozen never fails: an input whose name is bound is skipped,
and the others are bound at once, with nothing bound in between. -/
theorem openInputs_ok (options : Options) (places : List Place) (s : PassState) :
    ∃ s', (openInputs options places).run.run s = (.ok (), s') := by
  have never : Triple (fun _ => True) (openInputs options places) (fun _ _ => True) (fun _ => False) := by
    unfold openInputs
    refine Triple.forM_prefix fun _ p _ _ =>
      (?_ : Triple (fun _ => True) _ (fun _ _ => True) (fun _ => False))
    split
    · exact Triple.pure fun _ _ => trivial
    · refine Triple.get_bind fun s₀ _ => ?_
      split
      · exact Triple.pure fun _ _ => trivial
      · rename_i free
        refine Triple.set_bind_state ((bindName_free p.name _).conseq ?_ (fun _ _ _ => trivial)
          (fun _ never => never))
        rintro _ rfl
        simpa using free
  obtain ⟨_, s', ran, -⟩ := never.run_ok s trivial
  exact ⟨s', ran⟩

/-! ## Operations registered after dispatch -/

/-- Resolving an input leaves a free name free: it only rebinds the producer, which is bound. -/
theorem resolveInput_keeps_unbound (op : Operation) (slot : Nat) (edge : Source.Edge) (n : String) :
    Triple (fun s => s.bindings.contains n = false) (resolveInput op slot edge)
      (fun _ s => s.bindings.contains n = false) (fun _ => True) := by
  refine Triple.of_each fun s free => ?_
  refine (resolveInput_effect op slot edge s).conseq (fun _ same => same) ?_ (fun _ _ => trivial)
  rintro _ s' ⟨rfl | ⟨vs, first, len, -, -, -, rfl⟩, -⟩
  · exact free
  · simpa using free

theorem resolveInputs_keeps_unbound (op : Operation) (n : String) :
    Triple (fun s => s.bindings.contains n = false) (resolveInputs op)
      (fun _ s => s.bindings.contains n = false) (fun _ => True) :=
  resolveInputs_keeps op fun slot edge => resolveInput_keeps_unbound op slot edge n

theorem passthrough_keeps_bindings (op : Operation) (inputs : List Handle) (failure : Option String)
    (b : Bindings) :
    Triple (fun s => s.bindings = b) (passthrough op inputs failure) (fun _ s => s.bindings = b)
      (fun _ => True) := by
  unfold passthrough
  refine Triple.get_bind fun s same => Triple.set_bind_state (Triple.pure ?_)
  rintro _ rfl
  exact same

/-- Dispatching an operation leaves the bindings as they are: a translator works on the graph
and the cache only, and so do a stand-in and a spliced body. -/
theorem dispatch_keeps_bindings (env : Env) (op : Operation) (inputs : List Handle) (b : Bindings) :
    Triple (fun s => s.bindings = b) (dispatch env op inputs) (fun _ s => s.bindings = b)
      (fun _ => True) := by
  unfold dispatch
  split
  · refine Triple.get_bind fun s same => ?_
    dsimp only
    split
    split
    · refine Triple.set_bind_state (Triple.pure ?_)
      rintro _ rfl
      exact same
    · -- a failed translator leaves a stand-in, on the bindings as they were
      refine Triple.set_bind_state ((passthrough_keeps_bindings op inputs _ b).conseq ?_
        (fun _ _ holds => holds) (fun _ holds => holds))
      rintro _ rfl
      exact same
  · refine Triple.get_bind fun s same => ?_
    generalize env.bodies op.opType inputs s.graph s.cache = found
    obtain ⟨found, cache⟩ := found
    dsimp only
    refine Triple.set_bind_state (Triple.liftExcept_bind (fun _ _ => trivial) fun found _ => ?_)
    cases found with
    | none =>
      refine (passthrough_keeps_bindings op inputs none b).conseq ?_ (fun _ _ holds => holds)
        (fun _ holds => holds)
      rintro _ rfl
      exact same
    | some body =>
      refine Triple.get_bind fun _ now => ?_
      subst now
      dsimp only
      generalize s.graph.splice body op.opType inputs = call
      obtain ⟨g, values⟩ := call
      refine Triple.set_bind_state (Triple.liftExcept_bind (fun _ _ => trivial) fun vs _ => ?_)
      refine Triple.modify_bind fun _ now => ?_
      subst now
      refine Triple.pure ?_
      rintro _ rfl
      exact same

/-- Registering the values of an operation whose name is free never fails. -/
theorem register_ok (op : Operation) (vs : List Labeled) :
    Triple (fun s => s.bindings.contains op.name = false) (register op vs) (fun _ _ => True)
      (fun _ => False) := by
  unfold register
  refine Triple.get_bind fun s free => ?_
  split
  refine Triple.set_bind_state ?_
  split
  · exact (bindName_free op.name _).conseq (fun _ now => now ▸ free) (fun _ _ _ => trivial)
      (fun _ never => never)
  · exact Triple.pure fun _ _ => trivial

/-! ## Frozen inputs -/

/-- Freezing inputs into bindings that hold exactly the names `seen`: it fails exactly at the
first frozen name that repeats one before it or one of `seen`, and it leaves the cache alone. -/
theorem freezeInputs_run : ∀ (places : List Place) (s : PassState) (seen : List String),
    (∀ n, s.bindings.contains n = true ↔ n ∈ seen) →
    ((freezeInputs places).run.run s).1 = (match firstRepeat seen (frozenNames places) with
      | none => .ok ()
      | some n => .error (.duplicateOperation n)) ∧
      ((freezeInputs places).run.run s).2.cache = s.cache
  | [], s, seen, _ => ⟨rfl, rfl⟩
  | p :: rest, s, seen, bound => by
    have skip := freezeInputs_run rest
    unfold freezeInputs at skip ⊢
    simp only [List.forM_eq_forM, List.forM_cons] at skip ⊢
    rw [run_bind]
    cases frozen : p.value with
    | none =>
      have names : frozenNames (p :: rest) = frozenNames rest := by
        simp [frozenNames, frozen]
      simp only [run_pure, names]
      exact skip s seen bound
    | some c =>
      have names : frozenNames (p :: rest) = p.name :: frozenNames rest := by
        simp [frozenNames, frozen]
      simp only [run_get_bind]
      simp only [run_bind, run_set, bindName_run, names, firstRepeat]
      by_cases repeated : p.name ∈ seen
      · -- the name repeats one bound before: the bind fails and the walk stops
        have present : s.bindings.contains p.name = true := (bound p.name).mpr repeated
        simp only [present, if_true, repeated, and_self]
      · have absent : s.bindings.contains p.name = false := by
          simpa using mt (bound p.name).mp repeated
        simp only [absent, Bool.false_eq_true, if_false, repeated]
        refine skip _ (seen ++ [p.name]) fun n => ?_
        rw [Bindings.contains_insertSorted, bound n, List.mem_append, List.mem_singleton, or_comm]

/-- A pass whose frozen inputs repeat a name fails at the first repeat, before opening a
parameter or translating an operation, so the session's cache is as it was. -/
theorem lowerGraph_frozen_repeat (env : Env) (src : Source.Graph) (name : String) (cache : BodyCache)
    {n : String} (first : firstRepeat [] (frozenNames src.inputs) = some n) :
    (lowerGraph env src name).run cache = (.error (.duplicateOperation n), cache) := by
  unfold lowerGraph
  extract_lets pass
  have frozen := freezeInputs_run src.inputs { cache := cache } [] (by simp [Bindings.contains])
  rw [first] at frozen
  simp only [StateT.run_bind, StateT.run_get, pure_bind]
  split
  rename_i r s ran
  simp only [StateT.run_bind, StateT.run_set, StateT.run_pure]
  -- the pass starts by freezing the inputs, and that fails
  have failed : (pass.run.run { cache := cache }) =
      (.error (.duplicateOperation n), ((freezeInputs src.inputs).run.run { cache := cache }).2) := by
    dsimp only [pass]
    rw [run_bind]
    cases freezing : (freezeInputs src.inputs).run.run { cache := cache } with
    | mk r' s' =>
      rw [freezing] at frozen
      obtain ⟨rfl, -⟩ := frozen
      rfl
  rw [ran] at failed
  cases failed
  simp only [frozen.2]
  rfl

/-! ## Where binding a name can fail -/

/-- Binding a name fails only for a frozen input. Opening the other inputs never fails; once the
walk has found an operation's name free, resolving its inputs and dispatching it leave the name
free, so registering its values never fails; freezing the inputs succeeds when their names are
distinct; and when they repeat a name, the pass fails for the first frozen name that repeats an
earlier one, leaving the session's cache as it was. -/
theorem bindName_fails_only_on_frozen_repeat :
    (∀ (options : Options) (places : List Place) (s : PassState),
      ∃ s', (openInputs options places).run.run s = (.ok (), s')) ∧
    (∀ (env : Env) (op : Operation) (s s₁ s₂ : PassState) (inputs : List Handle) (vs : List Labeled),
      s.bindings.contains op.name = false → (resolveInputs op).run.run s = (.ok inputs, s₁) →
      (dispatch env op inputs).run.run s₁ = (.ok vs, s₂) →
      ∃ s₃, (register op vs).run.run s₂ = (.ok (), s₃)) ∧
    (∀ (places : List Place) (cache : BodyCache), (frozenNames places).Nodup →
      ∃ s, (freezeInputs places).run.run { cache := cache } = (.ok (), s)) ∧
    (∀ (env : Env) (src : Source.Graph) (name : String) (cache : BodyCache)
      (pre post : List String) (n : String),
      frozenNames src.inputs = pre ++ n :: post → pre.Nodup → n ∈ pre →
      (lowerGraph env src name).run cache = (.error (.duplicateOperation n), cache)) := by
  refine ⟨openInputs_ok, ?_, ?_, ?_⟩
  · intro env op s s₁ s₂ inputs vs free resolved dispatched
    have stillFree : s₁.bindings.contains op.name = false :=
      (resolveInputs_keeps_unbound op op.name).post_of_run free resolved
    have same : s₂.bindings = s₁.bindings :=
      (dispatch_keeps_bindings env op inputs s₁.bindings).post_of_run rfl dispatched
    have free₂ : s₂.bindings.contains op.name = false := by
      rw [same]
      exact stillFree
    obtain ⟨_, s₃, ran, -⟩ := (register_ok op vs).run_ok s₂ free₂
    exact ⟨s₃, ran⟩
  · intro places cache distinct
    have frozen := freezeInputs_run places { cache := cache } [] (by simp [Bindings.contains])
    rw [firstRepeat_of_nodup (by simpa using distinct)] at frozen
    revert frozen
    rcases (freezeInputs places).run.run { cache := cache } with ⟨_ | ⟨⟩, s⟩
    · exact fun frozen => by cases frozen.1
    · exact fun _ => ⟨s, rfl⟩
  · intro env src name cache pre post n split distinct repeated
    exact lowerGraph_frozen_repeat env src name cache
      (split ▸ firstRepeat_of_split (by simpa using distinct) (by simpa using repeated))

/-- Three frozen inputs `a`, `b`, `a`: the third repeats the first. -/
def frozenTwice : Source.Graph :=
  { inputs := [{ name := "a", value := some ⟨.f32, [], []⟩ }, { name := "b", value := some ⟨.f32, [], []⟩ },
      { name := "a", value := some ⟨.f32, [], []⟩ }] }

/-- A pass over `frozenTwice`, in a session with no translators and an empty library, fails for
`a`, with the cache as it was. -/
theorem bindName_fails_only_on_frozen_repeat_twice :
    frozenNames frozenTwice.inputs = ["a", "b"] ++ "a" :: [] ∧
      (lowerGraph (Session.env { library := {}, registry := [], options := {} }) frozenTwice
        "model").run {} = (.error (.duplicateOperation "a"), {}) :=
  ⟨rfl, bindName_fails_only_on_frozen_repeat.2.2.2 _ frozenTwice "model" {} ["a", "b"] [] "a" rfl
    (by decide) (by decide)⟩

end Lowering.Pass
