import Lowering.Proofs.Bindings

/-! # Results that expose what an input slot reads

A declared output `slot:C` asks for a result on whatever feeds input `slot` of operation `C`. The
results are assembled after the walk, and the place is resolved again from the bindings: the edge's
producer is looked up, its group resolved, and the value at that position taken. The walk resolved
the same edge earlier, with two more rules first: a value bound under `slot:C` (an input cut off by
pruning) wins, and so does a value bound under `producer:p`. The assembly has neither rule.

* `portIn` — the position an edge names among its producer's values, the one computation both
  share;
* `resolveInput_reads_port` — what the walk reads, when no pruned key is bound, is the value at
  that position of the producer's values it leaves bound;
* `portIn_of_prefix` — the position and the value stay the same among values that start with
  those;
* `fedResult_reads_resolved` — so the result of `slot:C`, assembled from any later bindings that
  keep the producer's values in front, reads exactly the value `C` consumed;
* `fedResult_misses_boundary` — with a value bound under `0:C`, `C` consumes it, and the result of
  `0:C` reads the producer the edge names instead.
-/

namespace Lowering.Pass

open Lowering.Ir Lowering.Proofs
open Lowering.Source (Operation Edge Sink)

/-- The position an edge names among its producer's values `vs`: its index within its group, or
its own index when it names no group. -/
def portIn (vs : List Labeled) (edge : Edge) : Except LowerError Nat :=
  match edge.group with
  | some grp => flatIndex vs grp edge.index
  | none => .ok edge.index

/-! ## Positions of values -/

/-- Among values without group names, an index is already a position. -/
theorem flatIndex_unlabeled (hs : List Handle) (grp : String) (index : Nat) :
    flatIndex (unlabeled hs) grp index = .ok index := by
  unfold flatIndex
  cases hs with
  | nil => rfl
  | cons h rest => simp [unlabeled]

/-- A position past the values comes only from values without group names, which keep the index. -/
theorem flatIndex_eq_index_of_le {vs : List Labeled} {grp : String} {index p : Nat}
    (found : flatIndex vs grp index = .ok p) (beyond : vs.length ≤ p) : p = index := by
  unfold flatIndex at found
  split at found
  · exact (Except.ok.inj found).symm
  · split at found
    · exact (Except.ok.inj found).symm
    · split at found
      · cases found
      · dsimp only at found
        split at found
        · cases found
        · rename_i v atPos
          split at found
          · cases found
            exact absurd (List.getElem?_eq_some_iff.mp atPos).1 (Nat.not_lt.mpr beyond)
          · cases found

/-- A position found among values with a first one is found alike among values that start with
them: the first value, the start of the group and the value at the position all lie in front. -/
theorem flatIndex_append {vs : List Labeled} (t : List Labeled) {grp : String} {index p : Nat}
    (nonempty : vs ≠ []) (found : flatIndex vs grp index = .ok p) :
    flatIndex (vs ++ t) grp index = .ok p := by
  obtain ⟨first, rest, rfl⟩ := List.exists_cons_of_ne_nil nonempty
  unfold flatIndex at found ⊢
  simp only [List.head?_cons, List.cons_append] at found ⊢
  split at found
  · rename_i unnamed
    rw [if_pos unnamed]
    exact found
  · rename_i named
    rw [if_neg named]
    split at found
    · cases found
    · rename_i start idx
      have idx' : (first :: (rest ++ t)).findIdx? (·.label == some grp) = some start := by
        rw [← List.cons_append, List.findIdx?_append, idx]
        rfl
      rw [idx']
      dsimp only at found ⊢
      split at found
      · cases found
      · rename_i w atPos
        rw [← List.cons_append, List.getElem?_append_left (List.getElem?_eq_some_iff.mp atPos).1, atPos]
        exact found

/-- The position an edge names among some values, and the value there, are the same among values
that start with them. -/
theorem portIn_of_prefix {vs vs' : List Labeled} {edge : Edge} {p : Nat} {v : Labeled}
    (leading : vs <+: vs') (port : portIn vs edge = .ok p) (value : vs[p]? = some v) :
    portIn vs' edge = .ok p ∧ vs'[p]? = some v := by
  obtain ⟨t, rfl⟩ := leading
  refine ⟨?_, by rw [List.getElem?_append_left (List.getElem?_eq_some_iff.mp value).1, value]⟩
  have nonempty : vs ≠ [] := by
    rintro rfl
    simp at value
  unfold portIn at port ⊢
  split
  · rename_i grp group
    rw [group] at port
    exact flatIndex_append t nonempty port
  · rename_i group
    rw [group] at port
    exact port

/-! ## What the walk reads -/

/-- The last step of resolving an input reads the value at position `out` of the producer's values;
when `out` is the position the edge names among whatever values the producer has then, the value
read sits at the edge's position of the values the producer is left with. -/
theorem readOutput_reads {pre : PassState → Prop} (edge : Edge) (out : Nat) (e : LowerError)
    (positioned : ∀ s, pre s → ∀ vs, s.bindings.get? edge.producer = some vs → portIn vs edge = .ok out) :
    Triple pre (do
        let s ← get
        match (s.bindings.get? edge.producer).bind (·[out]?) with
        | some v => pure (some v.handle)
        | none => throw e : PassM (Option Handle))
      (fun r s' => ∀ h, r = some h → ∃ vs p v, s'.bindings.get? edge.producer = some vs ∧
        portIn vs edge = .ok p ∧ vs[p]? = some v ∧ v.handle = h)
      (fun _ => True) := by
  refine Triple.get_bind fun s holds => ?_
  split
  · rename_i v found
    refine Triple.pure fun _ same => ?_
    subst same
    intro h read
    cases read
    obtain ⟨vs, entry, atOut⟩ := Option.bind_eq_some_iff.mp found
    exact ⟨vs, out, v, entry, positioned _ holds vs entry, atOut, rfl⟩
  · exact Triple.throw fun _ _ => trivial

/-- When no value is bound under the slot of the consumer or under a port of the producer, the
value an input resolves to sits at the position the edge names among the values the producer is
left bound to: either the producer's values are read as they were, or its stand-in grew and it is
bound to all the stand-in's outputs, which carry no group names. -/
theorem resolveInput_reads_port (op : Operation) (slot : Nat) (edge : Edge) (s : PassState)
    (unpruned : s.bindings.get? (toString slot ++ ":" ++ op.name) = none)
    (direct : ∀ p : Nat, s.bindings.get? (edge.producer ++ ":" ++ toString p) = none) :
    Triple (· = s) (resolveInput op slot edge)
      (fun r s' => ∀ h, r = some h → ∃ vs p v, s'.bindings.get? edge.producer = some vs ∧
        portIn vs edge = .ok p ∧ vs[p]? = some v ∧ v.handle = h)
      (fun _ => True) := by
  unfold resolveInput
  refine Triple.get_bind fun s₀ start => ?_
  subst start
  split
  · rename_i vs found
    rw [unpruned] at found
    cases found
  · split
    · exact Triple.pure fun _ _ _ none => by cases none
    · extract_lets afterIndex
      -- once the index is known to be the edge's position in the producer's values
      have rest : ∀ out, (∀ vs, s₀.bindings.get? edge.producer = some vs → portIn vs edge = .ok out) →
          Triple (· = s₀) (afterIndex out)
            (fun r s' => ∀ h, r = some h → ∃ vs p v, s'.bindings.get? edge.producer = some vs ∧
              portIn vs edge = .ok p ∧ vs[p]? = some v ∧ v.handle = h)
            (fun _ => True) := by
        intro out positioned
        dsimp only [afterIndex]
        split
        · rename_i vs found
          rw [direct] at found
          cases found
        · split
          · exact Triple.throw fun _ _ => trivial
          · rename_i vs entry
            have unchanged := fun s' (same : s' = s₀) => same ▸ positioned
            split
            · rename_i short
              split
              · split
                · -- a growth past the most outputs a node holds stops the pass
                  split
                  · exact Triple.throw_bind fun _ _ => trivial
                  -- the stand-in grew: its outputs carry no group names, so the position is the index
                  refine Triple.set_bind_state (readOutput_reads edge out _ ?_)
                  rintro _ rfl vs' rebound
                  have present : s₀.bindings.contains edge.producer = true :=
                    Bindings.contains_iff.mpr (by simp [entry])
                  simp only [Bindings.get?_rebind, present, and_self, if_true, Option.some.injEq] at rebound
                  subst rebound
                  have port := positioned vs entry
                  unfold portIn at port ⊢
                  split
                  · rename_i grp group
                    rw [group] at port
                    rw [flatIndex_unlabeled, flatIndex_eq_index_of_le port short]
                  · rename_i group
                    rw [group] at port
                    exact port
                · exact readOutput_reads edge out _ unchanged
              · exact readOutput_reads edge out _ unchanged
            · exact readOutput_reads edge out _ unchanged
      split
      · split
        · rename_i _ grp group _ p found
          simp only [pure_bind]
          refine rest p fun vs entry => ?_
          rw [entry, Option.getD_some] at found
          simp [portIn, group, found]
        · exact Triple.throw_bind fun _ _ => trivial
        · exact Triple.throw_bind fun _ _ => trivial
      · rename_i group
        simp only [pure_bind]
        exact rest _ fun _ _ => by simp [portIn, group]

/-! ## What the assembly reads -/

theorem inputValue_addResult (g : Graph) (v : Handle) (name : String) :
    (g.addResult v name).1.inputValue g.size = some v := by
  simp [Graph.addResult, Graph.inputValue, Graph.inputs, Graph.node?_addNode_self]

/-- The declared output `slot:name` adds a result reading the value at the edge's position among
the producer's values. -/
theorem declareSink_feed {src : Source.Graph} {b : Bindings} {g : Graph} {acc : List Nat}
    {name : String} {slot : Nat} {op : Operation} {edge : Edge} {vs : List Labeled} {p : Nat}
    {v : Labeled} (first : src.operation? name = some op) (atSlot : op.inputs[slot]? = some edge)
    (data : edge.control = false) (entry : b.get? edge.producer = some vs)
    (port : portIn vs edge = .ok p) (value : vs[p]? = some v) :
    declareSink src b g acc ⟨name, .feed slot⟩ =
      .ok ((g.addResult v.handle (edge.producer ++ ":" ++ toString p)).1, acc ++ [g.size]) := by
  have required : b.require edge.producer = pure vs := by simp [Bindings.require, entry]; rfl
  unfold portIn at port
  cases group : edge.group with
  | some grp =>
    rw [group] at port
    have located : flatIndex vs grp edge.index = .ok p := port
    simp [declareSink, first, atSlot, data, required, group, located, value]
    rfl
  | none =>
    rw [group] at port
    cases port
    simp [declareSink, first, atSlot, data, required, group, value]
    rfl

/-- A declared output `slot:name` exposes exactly the value that the operation `name` consumed at
that slot, when no value was bound under the slot of the consumer or under a port of the producer:
assembled from any later bindings that keep the producer's values as their first ones, such as
those the walk leaves, the result is added, and it reads that value. -/
theorem fedResult_reads_resolved {src : Source.Graph} {name : String} {op : Operation} {slot : Nat}
    {edge : Edge} (first : src.operation? name = some op) (atSlot : op.inputs[slot]? = some edge)
    (data : edge.control = false) {s s' : PassState} {h : Handle}
    (unpruned : s.bindings.get? (toString slot ++ ":" ++ op.name) = none)
    (direct : ∀ p : Nat, s.bindings.get? (edge.producer ++ ":" ++ toString p) = none)
    (resolved : (resolveInput op slot edge).run.run s = (.ok (some h), s')) {b : Bindings}
    (kept : ∀ vs, s'.bindings.get? edge.producer = some vs →
      ∃ vs', b.get? edge.producer = some vs' ∧ vs <+: vs')
    (g : Graph) (acc : List Nat) :
    ∃ g' r, declareSink src b g acc ⟨name, .feed slot⟩ = .ok (g', acc ++ [r]) ∧
      g'.inputValue r = some h := by
  have reads := resolveInput_reads_port op slot edge s unpruned direct s rfl
  rw [resolved] at reads
  obtain ⟨vs, p, v, entry, port, value, rfl⟩ := reads h rfl
  -- the later bindings keep the producer's values in front, and with them the position and value
  obtain ⟨vs', entry', leading⟩ := kept vs entry
  obtain ⟨port', value'⟩ := portIn_of_prefix leading port value
  exact ⟨_, _, declareSink_feed first atSlot data entry' port' value', inputValue_addResult _ _ _⟩

/-- The stand-in `D` with two outputs bound to them, and `C` reading `D:1`, as a state of a walk. -/
def readsSecondOutput : PassState where
  graph := (({} : Graph).addFramework "D" "Split" [] none [] 2).1
  bindings := { entries := [("D", [{ handle := ⟨0, 0⟩ }, { handle := ⟨0, 1⟩ }])] }

/-- `C` reading `D:1` consumes output 1 of `D`; once `C` is bound too, the declared output `0:C`
reads that value. -/
theorem fedResult_reads_resolved_second :
    let C : Operation := { name := "C", opType := "Consumer", inputs := [{ producer := "D", index := 1 }] }
    let src : Source.Graph := { operations := [C], outputs := [⟨"C", .feed 0⟩] }
    let later : Bindings :=
      { entries := [("C", [{ handle := ⟨1, 0⟩ }]), ("D", [{ handle := ⟨0, 0⟩ }, { handle := ⟨0, 1⟩ }])] }
    src.operation? "C" = some C ∧ C.inputs[0]? = some { producer := "D", index := 1 } ∧
      ({ producer := "D", index := 1 } : Edge).control = false ∧
      readsSecondOutput.bindings.get? (toString 0 ++ ":" ++ C.name) = none ∧
      (∀ p : Nat, readsSecondOutput.bindings.get? ("D" ++ ":" ++ toString p) = none) ∧
      (resolveInput C 0 { producer := "D", index := 1 }).run.run readsSecondOutput =
        (.ok (some ⟨0, 1⟩), readsSecondOutput) ∧
      (∀ vs, readsSecondOutput.bindings.get? "D" = some vs → ∃ vs', later.get? "D" = some vs' ∧ vs <+: vs') ∧
      ∃ g' r, declareSink src later readsSecondOutput.graph [] ⟨"C", .feed 0⟩ = .ok (g', [] ++ [r]) ∧
        g'.inputValue r = some ⟨0, 1⟩ := by
  intro C src later
  have first : src.operation? "C" = some C := rfl
  have atSlot : C.inputs[0]? = some { producer := "D", index := 1 } := rfl
  have unpruned : readsSecondOutput.bindings.get? (toString 0 ++ ":" ++ C.name) = none := by decide
  -- only `D` is bound, and no bound name has a colon
  have direct : ∀ p : Nat, readsSecondOutput.bindings.get? ("D" ++ ":" ++ toString p) = none := by
    intro p
    simp only [readsSecondOutput, Bindings.get?, List.find?_cons, List.find?_nil]
    split
    · rename_i named
      have lengths := congrArg String.length (beq_iff_eq.mp named)
      simp only [String.length_append] at lengths
      have one : "D".length = 1 := rfl
      have colon : ":".length = 1 := rfl
      omega
    · rfl
  have resolved : (resolveInput C 0 { producer := "D", index := 1 }).run.run readsSecondOutput =
      (.ok (some ⟨0, 1⟩), readsSecondOutput) := rfl
  -- binding `C` leaves the values of `D` as they were
  have kept : ∀ vs, readsSecondOutput.bindings.get? "D" = some vs →
      ∃ vs', later.get? "D" = some vs' ∧ vs <+: vs' := by
    intro vs found
    exact ⟨vs, by rw [← found]; rfl, List.prefix_refl vs⟩
  exact ⟨first, atSlot, rfl, unpruned, direct, resolved, kept,
    fedResult_reads_resolved first atSlot rfl unpruned direct resolved kept _ _⟩

end Lowering.Pass

namespace Lowering

open Lowering.Ir Lowering.Pass

/-- A graph whose input place `0:C` cuts off input 0 of `C`, which names `x`, and which declares the
output `0:C`. -/
def boundaryFed : Source.Graph where
  inputs := [{ name := "x", elementType := .f32 }, { name := "0:C", elementType := .i32 }]
  operations := [{ name := "C", opType := "Consumer", inputs := [{ producer := "x" }] }]
  outputs := [⟨"C", .feed 0⟩]

/-- `C` consumes the parameter `0:C` (node 1), but the result of `0:C` reads the parameter `x`
(node 0) that its edge names. -/
theorem fedResult_misses_boundary :
    ((Session.convertedModel ⟨boundaryFed, [], {}, {}, none⟩).1.toOption.map
      fun M => (M.graph.inputs 2, M.resultValues)) = some ([⟨1, 0⟩], [some ⟨0, 0⟩]) := by
  decide +kernel

end Lowering
