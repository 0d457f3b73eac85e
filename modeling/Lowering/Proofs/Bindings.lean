import Lowering.Proofs.Hoare
import Lowering.Proofs.WellFormed
import Lowering.Session

/-! # Bindings and how resolving an input changes them

The bindings map operation names to the values they produced. This module gives the lookups
after `bind` and `rebind`, and then says exactly what resolving one input may do to a pass's
state: nothing, or grow the stand-in behind the first value bound to the producer and bind the
producer again to all outputs of that node (`Regrown`). A value it returns is always bound to some
name (`resolveInput_effect`); when it grew a stand-in, to one past the position it then reads
(`resolveInput_cases`).
-/

namespace Lowering.Pass

open Lowering.Ir Lowering.Proofs
open Lowering.Source (Operation Edge)

/-! ## Lookups -/

theorem find?_insertSorted {α : Type} (k n : String) (v : α) :
    ∀ entries : List (String × α), (Json.insertSorted k v entries).find? (·.1 == n) =
      if n = k then some (k, v) else entries.find? (·.1 == n)
  | [] => by
    by_cases same : n = k
    · simp [Json.insertSorted, same]
    · simp [Json.insertSorted, same, Ne.symm same]
  | (k', v') :: rest => by
    unfold Json.insertSorted
    by_cases same : n = k
    · subst same
      split
      · simp
      · split
        · simp
        · rename_i notBefore notHere
          rw [List.find?_cons, beq_false_of_ne (Ne.symm notHere)]
          simpa using find?_insertSorted n n v rest
    · split
      · simp [Ne.symm same]
      · split
        · rename_i notBefore here
          subst here
          simp [Ne.symm same]
        · simp only [List.find?_cons]
          rw [find?_insertSorted k n v rest]
          simp [same]

theorem mem_insertSorted {α : Type} {k : String} {v : α} {e : String × α} :
    ∀ {entries : List (String × α)}, e ∈ Json.insertSorted k v entries → e = (k, v) ∨ e ∈ entries
  | [], member => by
    simp only [Json.insertSorted, List.mem_singleton] at member
    exact .inl member
  | (k', v') :: rest, member => by
    unfold Json.insertSorted at member
    split at member
    · exact List.mem_cons.mp member
    · split at member
      · rcases List.mem_cons.mp member with new | old
        · exact .inl new
        · exact .inr (List.mem_cons_of_mem _ old)
      · rcases List.mem_cons.mp member with first | later
        · exact .inr (first ▸ List.mem_cons_self)
        · rcases mem_insertSorted later with new | old
          · exact .inl new
          · exact .inr (List.mem_cons_of_mem _ old)

namespace Bindings

variable {b b' : Bindings} {name n : String} {vs : List Labeled}

theorem mem_of_get? (found : b.get? n = some vs) : (n, vs) ∈ b.entries := by
  unfold get? at found
  obtain ⟨e, entry, rfl⟩ := Option.map_eq_some_iff.mp found
  have named : e.1 = n := by simpa using List.find?_some entry
  exact named ▸ List.mem_of_find?_eq_some entry

theorem mem_bind {e : String × List Labeled} (bound : b.bind name vs = .ok b')
    (member : e ∈ b'.entries) : e = (name, vs) ∨ e ∈ b.entries := by
  unfold bind at bound
  split at bound
  · cases bound
  · cases bound
    exact mem_insertSorted member

theorem mem_rebind {e : String × List Labeled} (member : e ∈ (b.rebind name vs).entries) :
    e = (name, vs) ∨ e ∈ b.entries := by
  unfold rebind at member
  split at member
  · exact mem_insertSorted member
  · exact .inr member

theorem get?_insertSorted :
    ({ entries := Json.insertSorted name vs b.entries } : Bindings).get? n =
      if n = name then some vs else b.get? n := by
  unfold get?
  rw [find?_insertSorted]
  split <;> simp

theorem contains_iff : b.contains n = true ↔ (b.get? n).isSome := by
  simp [contains, get?, List.find?_isSome]

theorem get?_bind (bound : b.bind name vs = .ok b') :
    b'.get? n = if n = name then some vs else b.get? n := by
  unfold bind at bound
  split at bound
  · cases bound
  · cases bound
    exact get?_insertSorted

/-- Binding a new name keeps every name bound before. -/
theorem get?_bind_of_bound (bound : b.bind name vs = .ok b') {vs' : List Labeled}
    (found : b.get? n = some vs') : b'.get? n = some vs' := by
  unfold bind at bound
  split at bound
  · cases bound
  · rename_i free
    cases bound
    rw [get?_insertSorted, if_neg]
    · exact found
    · rintro rfl
      exact free (contains_iff.mpr (by simp [found]))

theorem get?_rebind : (b.rebind name vs).get? n =
    if n = name ∧ b.contains name = true then some vs else b.get? n := by
  unfold rebind
  split
  · rename_i present
    rw [get?_insertSorted]
    by_cases same : n = name <;> simp [same, present]
  · rename_i absent
    by_cases same : n = name <;> simp [same, absent]

end Bindings

/-- Value `h` is bound to some name. -/
def Bindings.Holds (b : Bindings) (h : Handle) : Prop :=
  ∃ name vs, b.get? name = some vs ∧ ∃ v ∈ vs, v.handle = h

/-! ## Resolving an input -/

/-- The node at index `n` exists and is a stand-in. -/
def standIn (g : Graph) (n : Nat) : Bool := (g.node? n).elim false (·.op.isFramework)

/-- The one change resolving an input can make: the stand-in behind the first value bound to
`producer` grows to `len` outputs, and `producer` is bound again to all outputs of that node. -/
def Regrown (producer : String) (s s' : PassState) : Prop :=
  ∃ vs first len, s.bindings.get? producer = some vs ∧ vs.head? = some first ∧
    standIn s.graph first.handle.node = true ∧
    s' = { s with
      graph := s.graph.growOutputs first.handle.node len
      bindings := s.bindings.rebind producer
        (unlabeled ((s.graph.growOutputs first.handle.node len).outputs first.handle.node)) }

/-- `s'` is `s` after the stand-in behind the first value bound to `producer` grew to `len`
outputs, with `producer` bound again to all outputs of that node: a `Regrown` of a known length. -/
def RegrownTo (producer : String) (len : Nat) (s s' : PassState) : Prop :=
  ∃ vs first, s.bindings.get? producer = some vs ∧ vs.head? = some first ∧
    standIn s.graph first.handle.node = true ∧
    s' = { s with
      graph := s.graph.growOutputs first.handle.node len
      bindings := s.bindings.rebind producer
        (unlabeled ((s.graph.growOutputs first.handle.node len).outputs first.handle.node)) }

theorem RegrownTo.regrown {producer : String} {len : Nat} {s s' : PassState}
    (grown : RegrownTo producer len s s') : Regrown producer s s' :=
  let ⟨vs, first, entry, head, isStandIn, same⟩ := grown
  ⟨vs, first, len, entry, head, isStandIn, same⟩

/-- What resolving an input through `producer` that gave `r` did to the state `s`: nothing, with
`r` a bound value, or it grew the stand-in behind the producer's first value to one past the
position `out` and read `r` there among the producer's new values. -/
def ResolvedFrom (producer : String) (s : PassState) (r : Option Handle) (s' : PassState) : Prop :=
  (s' = s ∧ ∀ h, r = some h → s.bindings.Holds h) ∨
    ∃ out v, RegrownTo producer ((out + 1) % Nat.pow 2 64) s s' ∧
      (s'.bindings.get? producer).bind (·[out]?) = some v ∧ r = some v.handle

theorem single_spec {pre fault : PassState → Prop} {vs : List Labeled} {e : LowerError}
    (fails : ∀ s, pre s → fault s) :
    Triple pre (single vs e) (fun h s => pre s ∧ ∃ v ∈ vs, v.handle = h) fault := by
  unfold single
  split
  · rename_i v
    exact Triple.pure fun _ holds => ⟨holds, v, List.mem_singleton_self v, rfl⟩
  · exact Triple.throw fails

/-- Reading value `out` of the producer's entry leaves the state alone, and a value it gives is the
one at `out`. -/
theorem readOutput_eq (producer : String) (out : Nat) (e : LowerError) (s : PassState) :
    Triple (· = s) (do
        let s ← get
        match (s.bindings.get? producer).bind (·[out]?) with
        | some v => pure (some v.handle)
        | none => throw e : PassM (Option Handle))
      (fun r s' => s' = s ∧ ∃ v, (s.bindings.get? producer).bind (·[out]?) = some v ∧ r = some v.handle)
      (· = s) := by
  refine Triple.get_bind fun s₀ start => ?_
  subst start
  split
  · rename_i v found
    exact Triple.pure fun _ same => ⟨same, v, found, rfl⟩
  · exact Triple.throw fun _ same => same

/-- How resolving an input got its value: from a value bound under some name, leaving the state
alone, or by growing the stand-in behind the producer's first value to one past the position `out`
that it then reads among the producer's new values. A failure leaves the state alone or regrown. -/
theorem resolveInput_cases (op : Operation) (slot : Nat) (edge : Edge) (s : PassState) :
    Triple (· = s) (resolveInput op slot edge) (ResolvedFrom edge.producer s)
      (fun s' => s' = s ∨ Regrown edge.producer s s') := by
  unfold resolveInput
  refine Triple.get_bind fun s₀ start => ?_
  subst start
  -- a value bound under a key `name`, read as the single value of an input
  have fromKey : ∀ key vs e, s₀.bindings.get? key = some vs →
      Triple (· = s₀) (single vs e >>= fun h => pure (some h))
        (ResolvedFrom edge.producer s₀)
        (fun s' => s' = s₀ ∨ Regrown edge.producer s₀ s') := by
    intro key vs e found
    refine Triple.bind (single_spec fun _ same => .inl same) fun h => Triple.pure ?_
    rintro s' ⟨rfl, v, member, rfl⟩
    exact .inl ⟨rfl, fun _ same => by cases same; exact ⟨key, vs, found, v, member, rfl⟩⟩
  -- reading the producer's entry as it is
  have unchanged : ∀ (out : Nat) (e : LowerError), Triple (· = s₀) (do
        let s ← get
        match (s.bindings.get? edge.producer).bind (·[out]?) with
        | some v => pure (some v.handle)
        | none => throw e : PassM (Option Handle))
      (ResolvedFrom edge.producer s₀)
      (fun s' => s' = s₀ ∨ Regrown edge.producer s₀ s') := by
    intro out e
    refine (readOutput_eq edge.producer out e s₀).conseq (fun _ same => same) ?_ (fun _ same => .inl same)
    rintro r s' ⟨rfl, v, found, rfl⟩
    obtain ⟨vs, entry, atOut⟩ := Option.bind_eq_some_iff.mp found
    exact .inl ⟨rfl, fun _ same => by
      cases same; exact ⟨edge.producer, vs, entry, v, List.mem_of_getElem? atOut, rfl⟩⟩
  split
  · rename_i vs found
    exact fromKey _ vs _ found
  · split
    · exact Triple.pure fun _ same => .inl ⟨same, fun _ none => by cases none⟩
    · extract_lets afterIndex
      -- everything after the index is found, for any index
      have rest : ∀ out, Triple (· = s₀) (afterIndex out)
          (ResolvedFrom edge.producer s₀)
          (fun s' => s' = s₀ ∨ Regrown edge.producer s₀ s') := by
        intro out
        dsimp only [afterIndex]
        split
        · rename_i vs found
          exact fromKey _ vs _ found
        · split
          · exact Triple.throw fun _ same => .inl same
          · rename_i vs entry
            split
            · split
              · rename_i first head
                split
                · rename_i isStandIn
                  -- a growth past the most outputs a node holds fails before it changes anything
                  split
                  · exact Triple.throw_bind fun _ same => .inl same
                  refine Triple.set_bind_state ((readOutput_eq edge.producer out _ _).conseq
                    (fun _ same => same) ?_ ?_)
                  · rintro r s' ⟨rfl, v, found, rfl⟩
                    exact .inr ⟨out, v, ⟨vs, first, entry, head, isStandIn, rfl⟩, found, rfl⟩
                  · rintro s' rfl
                    exact .inr (RegrownTo.regrown ⟨vs, first, entry, head, isStandIn, rfl⟩)
                · exact unchanged out _
              · exact unchanged out _
            · exact unchanged out _
      split
      · split
        · simp only [pure_bind]
          exact rest _
        · exact Triple.throw_bind fun _ same => .inl same
        · exact Triple.throw_bind fun _ same => .inl same
      · simp only [pure_bind]
        exact rest _

/-- Resolving an input leaves the state alone or regrows the producer's stand-in, and a value it
returns is bound to some name afterwards. -/
theorem resolveInput_effect (op : Operation) (slot : Nat) (edge : Edge) (s : PassState) :
    Triple (· = s) (resolveInput op slot edge)
      (fun r s' => (s' = s ∨ Regrown edge.producer s s') ∧ ∀ h, r = some h → s'.bindings.Holds h)
      (fun s' => s' = s ∨ Regrown edge.producer s s') := by
  refine (resolveInput_cases op slot edge s).conseq (fun _ same => same) ?_ (fun _ effect => effect)
  rintro r s' (⟨rfl, held⟩ | ⟨out, v, grown, found, rfl⟩)
  · exact ⟨.inl rfl, held⟩
  · refine ⟨.inr grown.regrown, fun _ same => ?_⟩
    cases same
    obtain ⟨vs, entry, atOut⟩ := Option.bind_eq_some_iff.mp found
    exact ⟨edge.producer, vs, entry, v, List.mem_of_getElem? atOut, rfl⟩

/-- What resolving each input of an operation keeps, resolving them all keeps. -/
theorem resolveInputs_keeps {inv fault : PassState → Prop} (op : Operation)
    (each : ∀ slot edge, Triple inv (resolveInput op slot edge) (fun _ => inv) fault) :
    Triple inv (resolveInputs op) (fun _ => inv) fault := by
  unfold resolveInputs
  split
  · exact Triple.pure fun _ holds => holds
  · have every : ∀ p ∈ op.inputs.zipIdx, ∀ _ : List (Option Handle),
        Triple inv (resolveInput op p.2 p.1) (fun _ => inv) fault :=
      fun p _ _ => each p.2 p.1
    exact Triple.bind (Triple.mapM every []) fun _ => Triple.pure fun _ holds => holds

/-! ## Entries kept across a resolution

The regrowth binds the producer to all outputs of the node behind its first value. That keeps the
values the producer was bound to only when they were the first outputs of that node, in order: an
entry that forwards another node's output, or a body's outputs, is replaced by a list that need
not start with it. -/

/-- Every name bound in `b` is still bound in `b'`, to values that start with its old ones. -/
def Bindings.Refines (b b' : Bindings) : Prop :=
  ∀ name vs, b.get? name = some vs →
    ∃ vs', b'.get? name = some vs' ∧ vs.map (·.handle) <+: vs'.map (·.handle)

theorem Bindings.Refines.refl (b : Bindings) : b.Refines b :=
  fun _ vs found => ⟨vs, found, List.prefix_refl _⟩

@[simp] theorem map_handle_unlabeled (hs : List Handle) : (unlabeled hs).map (·.handle) = hs := by
  simp [unlabeled, Function.comp_def]

/-- Growing a node keeps its old outputs as the first ones. -/
theorem outputs_prefix_growOutputs (g : Graph) (n len : Nat) :
    g.outputs n <+: (g.growOutputs n len).outputs n :=
  Graph.Extends.outputs_prefix (Graph.extends_growOutputs n len) n

/-- A regrowth keeps every entry exactly when the producer's values are the first outputs of the
node behind its first value, after the growth. -/
theorem regrown_refines_iff {producer : String} {s s' : PassState} (grown : Regrown producer s s') :
    s.bindings.Refines s'.bindings ↔ ∀ vs first, s.bindings.get? producer = some vs →
      vs.head? = some first → vs.map (·.handle) <+: s'.graph.outputs first.handle.node := by
  obtain ⟨vs, first, len, entry, head, standIn, rfl⟩ := grown
  have present : s.bindings.contains producer = true :=
    Bindings.contains_iff.mpr (by simp [entry])
  constructor
  · intro refines vs' first' found head'
    rw [entry] at found
    cases found
    rw [head] at head'
    cases head'
    obtain ⟨vs'', rebound, leading⟩ := refines producer vs entry
    simp only [Bindings.get?_rebind, present, and_self, if_true, Option.some.injEq] at rebound
    subst rebound
    simpa using leading
  · intro canonical name vs' found
    by_cases same : name = producer
    · subst same
      rw [entry] at found
      cases found
      refine ⟨_, by rw [Bindings.get?_rebind, if_pos ⟨rfl, present⟩], ?_⟩
      simpa using canonical vs first entry head
    · exact ⟨vs', by simp only [Bindings.get?_rebind, same, false_and, if_false, found],
        List.prefix_refl _⟩

/-- Resolving an input keeps every entry of the bindings, the ones read before it with the values
they were read with, when the producer's values are the first outputs of the node behind its
first value. -/
theorem resolveInput_refines (op : Operation) (slot : Nat) (edge : Edge) (s : PassState)
    (canonical : ∀ vs first, s.bindings.get? edge.producer = some vs → vs.head? = some first →
      vs.map (·.handle) <+: s.graph.outputs first.handle.node) :
    Triple (· = s) (resolveInput op slot edge) (fun _ s' => s.bindings.Refines s'.bindings)
      (fun s' => s.bindings.Refines s'.bindings) := by
  have kept : ∀ s', s' = s ∨ Regrown edge.producer s s' → s.bindings.Refines s'.bindings := by
    rintro s' (rfl | grown)
    · exact Bindings.Refines.refl _
    · refine (regrown_refines_iff grown).mpr fun vs first found head => ?_
      obtain ⟨_, _, len, entry, head', -, rfl⟩ := grown
      rw [entry] at found
      cases found
      rw [head'] at head
      cases head
      exact (canonical vs first entry head').trans (outputs_prefix_growOutputs _ _ _)
  exact (resolveInput_effect op slot edge s).conseq (fun _ same => same)
    (fun _ s' ⟨effect, _⟩ => kept s' effect) kept

end Lowering.Pass
