import Lowering.Proofs.SearchOrder

/-! # Bodies a splice always takes

A splice copies a body in topological order and stops at the first body value that has nowhere to
go: a result's value, or a value of a node not copied yet. A body never makes it stop when its graph
is well formed (so forward, and ordered by `topoOrder_of_forward`), when no node reads a result
(`Graph.ReadsValues`), and when each of its results is a result node: then every value it reads
belongs to a caller value or to an earlier copy (`copyNodes_ok`), and a splice on as many values as
it has parameters succeeds (`splice_ok`). `Model.Spliceable` collects what the splice needs.

The graph side is the same for any body: a splice on values that are no results' keeps a graph
whose nodes read no result, and gives values that are no results' (`ReadsValues.splice`).
-/

namespace Lowering.Ir.Graph

open Lowering.Pass

/-- A node whose values may be read: it exists and is no result. -/
def Readable (g : Graph) (n : Nat) : Prop := ∃ nd, g.node? n = some nd ∧ nd.op ≠ .result

/-- Every input of every node reads a node whose values may be read. -/
def ReadsValues (g : Graph) : Prop := ∀ n nd, g.node? n = some nd → ∀ h ∈ nd.inputs, g.Readable h.node

variable {g g' : Graph} {n : Nat}

theorem Readable.of_extends (readable : g.Readable n) (grows : g.Extends g') : g'.Readable n := by
  obtain ⟨nd, found, notResult⟩ := readable
  obtain ⟨nd', found', le⟩ := grows n nd found
  exact ⟨nd', found', le.op ▸ notResult⟩

theorem Readable.retagged (readable : g.Readable n) (same : Retagged g g') : g'.Readable n := by
  obtain ⟨nd, found, notResult⟩ := readable
  obtain ⟨nd', found', op, -⟩ := same.image found
  exact ⟨nd', found', op ▸ notResult⟩

theorem readable_addNode_self {name : String} {op : Op} {ins : List Handle} {outs : List TensorInfo}
    (notResult : op ≠ .result) : (g.addNode name op ins outs).1.Readable g.size :=
  ⟨_, node?_addNode_self name op ins outs, notResult⟩

/-- A readable node is no result node. -/
theorem Readable.not_hasOp (readable : g.Readable n) : ¬ g.HasOp n .result := by
  obtain ⟨nd, found, notResult⟩ := readable
  rintro ⟨nd', found', isResult⟩
  rw [found] at found'
  cases found'
  exact notResult isResult

namespace ReadsValues

theorem retagged (reads : g.ReadsValues) (same : Retagged g g') : g'.ReadsValues := by
  intro n nd' found' h member
  obtain ⟨nd, found, -, inputs⟩ := same.origin found'
  exact (reads n nd found h (inputs ▸ member)).retagged same

/-- A node that reads only readable nodes keeps a graph reading no result. -/
theorem addNode (reads : g.ReadsValues) {name : String} {op : Op} {ins : List Handle}
    {outs : List TensorInfo} (readable : ∀ h ∈ ins, g.Readable h.node) :
    (g.addNode name op ins outs).1.ReadsValues := by
  have grows := extends_addNode (g := g) name op ins outs
  intro n nd found h member
  rw [node?_addNode] at found
  split at found
  · cases found
    exact (readable h member).of_extends grows
  · exact (reads n nd found h member).of_extends grows

/-- The nodes below a mark read older nodes, which stay. -/
theorem rollback (reads : g.ReadsValues) (forward : g.Forward) (mark : Nat) :
    (g.rollback mark).ReadsValues := by
  intro n nd found h member
  rw [node?_rollback] at found
  split at found
  · rename_i below
    obtain ⟨nd', found', notResult⟩ := reads n nd found h member
    have older := forward n nd found h member
    exact ⟨nd', by rw [node?_rollback, if_pos (by omega), found'], notResult⟩
  · cases found

/-! ### The graph side of a splice -/

/-- Every value a relocation hands out names a readable node. -/
def Targets (g : Graph) (r : Relocation) : Prop :=
  (∀ p ∈ r.replaced, g.Readable p.2.node) ∧ ∀ p ∈ r.copied, g.Readable p.2

/-- A copy reads relocated values, which are readable, and is no result, so it is readable too. -/
theorem copy (reads : g.ReadsValues) {r : Relocation} (targets : Targets g r) {body : Graph} {n : Nat}
    {nd : Node} {ins : List Handle} (notResult : nd.op ≠ .result)
    (mapped : nd.inputs.mapM (r.relocate body) = .ok ins) :
    (g.addNode nd.name nd.op ins nd.outputs).1.ReadsValues ∧
      Targets (g.addNode nd.name nd.op ins nd.outputs).1 { r with copied := r.copied ++ [(n, g.size)] } := by
  have grows := extends_addNode (g := g) nd.name nd.op ins nd.outputs
  have readable : ∀ h ∈ ins, g.Readable h.node := by
    intro h member
    obtain ⟨v, -, relocated⟩ := exists_mem_of_mapM_ok mapped h member
    rcases Relocation.relocate_target relocated with ⟨p, replaced, rfl⟩ | ⟨p, copied, rfl⟩
    · exact targets.1 p replaced
    · exact targets.2 p copied
  refine ⟨reads.addNode readable, fun p replaced => (targets.1 p replaced).of_extends grows, ?_⟩
  intro p copied
  rcases List.mem_append.mp copied with old | new
  · exact (targets.2 p old).of_extends grows
  · rw [List.mem_singleton.mp new]
    exact readable_addNode_self notResult

/-- A splice on readable values keeps a graph reading no result and gives readable values, for any
body and however far the copy gets. -/
theorem splice (reads : g.ReadsValues) (body : Model) (opType : String) {inputs : List Handle}
    (readable : ∀ h ∈ inputs, g.Readable h.node) :
    (g.splice body opType inputs).1.ReadsValues ∧
      ∀ vs, (g.splice body opType inputs).2 = .ok vs → ∀ v ∈ vs, (g.splice body opType inputs).1.Readable v.node := by
  unfold Graph.splice
  split
  · exact ⟨reads, fun _ failed => by cases failed⟩
  · have adopted := retagged_adoptTypes body.graph (body.parameters.zip inputs) g
    dsimp only
    split
    · exact ⟨reads.retagged adopted, fun _ failed => by cases failed⟩
    · rename_i order _
      have start : Targets (List.foldl (adoptType body.graph) g (body.parameters.zip inputs))
          { replaced := body.parameters.zip inputs } :=
        ⟨fun p member => (readable p.2 (List.of_mem_zip member).2).retagged adopted,
          fun p member => absurd member List.not_mem_nil⟩
      obtain ⟨⟨r, copied⟩, finished⟩ := copyNodes_keeps body.graph
        (fun g r => g.ReadsValues ∧ Targets g r)
        (fun _ _ _ _ _ holds _ notResult mapped => holds.1.copy holds.2 notResult mapped) order _ _
        ⟨reads.retagged adopted, start⟩
      split
      · rename_i g' e copiedEq
        rw [copiedEq] at copied
        exact ⟨copied.1, fun _ failed => by cases failed⟩
      · rename_i g' r' copiedEq
        rw [copiedEq] at finished
        obtain ⟨reads', targets⟩ := finished r' rfl
        refine ⟨reads', fun vs mapped v member => ?_⟩
        obtain ⟨res, -, relocated⟩ := exists_mem_of_mapM_ok mapped v member
        split at relocated
        · rcases Relocation.relocate_target relocated with ⟨p, replaced, rfl⟩ | ⟨p, copied, rfl⟩
          · exact targets.1 p replaced
          · exact targets.2 p copied
        · cases relocated

end ReadsValues

end Lowering.Ir.Graph

/-! ## The body side of a splice -/

namespace Lowering.Pass

open Lowering.Ir

namespace Relocation

/-- A relocation covers a body node when it has a value for it: a caller value or a copy. -/
def Covers (r : Relocation) (n : Nat) : Prop := (∃ p ∈ r.replaced, p.1 = n) ∨ ∃ p ∈ r.copied, p.1 = n

theorem relocate_ok {r : Relocation} {body : Graph} {v : Handle} (covers : r.Covers v.node) :
    ∃ h, r.relocate body v = .ok h := by
  unfold relocate
  cases replacement : r.replacement? v.node with
  | some caller => exact ⟨caller, rfl⟩
  | none =>
    -- no caller value, so the node was copied
    have copied : (r.copied.find? (·.1 == v.node)).isSome = true := by
      rcases covers with ⟨p, replaced, same⟩ | ⟨p, copied, same⟩
      · simp only [replacement?, Option.map_eq_none_iff, List.find?_eq_none, List.mem_reverse,
          beq_iff_eq] at replacement
        exact absurd same (replacement p replaced)
      · exact List.find?_isSome.mpr ⟨p, copied, by simp [same]⟩
    obtain ⟨⟨m, c⟩, found⟩ := Option.isSome_iff_exists.mp copied
    exact ⟨⟨c, v.output⟩, by simp [found]⟩

theorem covers_of_isReplaced {r : Relocation} {n : Nat} (replaced : r.isReplaced n = true) : r.Covers n := by
  obtain ⟨p, member, same⟩ := List.any_eq_true.mp replaced
  exact .inl ⟨p, member, by simpa using same⟩

theorem Covers.copy {r : Relocation} {m : Nat} (covers : r.Covers m) (n c : Nat) :
    Relocation.Covers { r with copied := r.copied ++ [(n, c)] } m := by
  rcases covers with replaced | ⟨p, copied, same⟩
  · exact .inl replaced
  · exact .inr ⟨p, List.mem_append_left _ copied, same⟩

end Relocation

/-- A `mapM` in `Except` whose every call succeeds succeeds. -/
theorem mapM_ok_of_ok {ε α β : Type} {f : α → Except ε β} :
    ∀ {xs : List α}, (∀ x ∈ xs, ∃ y, f x = .ok y) → ∃ ys, xs.mapM f = .ok ys
  | [], _ => ⟨[], rfl⟩
  | x :: xs, each => by
    obtain ⟨y, head⟩ := each x List.mem_cons_self
    have restEach : ∀ x' ∈ xs, ∃ y, f x' = .ok y := fun x' member => each x' (List.mem_cons_of_mem x member)
    obtain ⟨ys, tail⟩ := mapM_ok_of_ok restEach
    refine ⟨y :: ys, ?_⟩
    rw [List.mapM_cons, head, tail]
    rfl

/-- Copying body nodes in an order where each node comes after the nodes it reads never stops:
every readable node seen so far is covered, so each copy finds its inputs. `pre` is the part of
the order already copied. -/
theorem copyNodes_ok {body : Graph} (reads : body.ReadsValues) :
    ∀ (pre post : List Nat) (g : Graph) (r : Relocation), (∀ m ∈ pre, body.Readable m → r.Covers m) →
      (∀ front n back, post = front ++ n :: back → ∀ nd, body.node? n = some nd →
        ∀ h ∈ nd.inputs, h.node ∈ pre ++ front) →
      ∃ r', (copyNodes body post (g, r)).2 = .ok r' ∧ ∀ m ∈ pre ++ post, body.Readable m → r'.Covers m
  | pre, [], g, r, covers, _ => ⟨r, rfl, by simpa using covers⟩
  | pre, n :: rest, g, r, covers, ordered => by
    -- what is read later is read from the copied part or from the rest before it
    have orderedRest : ∀ front m back, rest = front ++ m :: back → ∀ nd, body.node? m = some nd →
        ∀ h ∈ nd.inputs, h.node ∈ (pre ++ [n]) ++ front := by
      intro front m back split nd found h member
      simpa using ordered (n :: front) m back (by simp [split]) nd found h member
    have skip : (∀ m ∈ pre ++ [n], body.Readable m → r.Covers m) →
        ∃ r', (copyNodes body rest (g, r)).2 = .ok r' ∧ ∀ m ∈ pre ++ n :: rest, body.Readable m → r'.Covers m := by
      intro covers'
      simpa using copyNodes_ok reads (pre ++ [n]) rest g r covers' orderedRest
    simp only [copyNodes]
    cases found : body.node? n with
    | none =>
      refine skip fun m member readable => ?_
      rcases List.mem_append.mp member with old | new
      · exact covers m old readable
      · obtain ⟨nd, found', -⟩ := readable
        rw [List.mem_singleton.mp new, found] at found'
        cases found'
    | some nd =>
      simp only
      split
      · rename_i skipped
        refine skip fun m member readable => ?_
        rcases List.mem_append.mp member with old | new
        · exact covers m old readable
        · rw [List.mem_singleton.mp new] at readable ⊢
          rcases Bool.or_eq_true_iff.mp skipped with replaced | isResult
          · exact Relocation.covers_of_isReplaced replaced
          · obtain ⟨nd', found', notResult⟩ := readable
            rw [found] at found'
            cases found'
            exact absurd (Op.isResult_iff.mp isResult) notResult
      · -- every input of the node is a covered node copied before it
        obtain ⟨ins, mapped⟩ : ∃ ins, nd.inputs.mapM (r.relocate body) = .ok ins := by
          refine mapM_ok_of_ok fun h member => Relocation.relocate_ok (covers h.node ?_ ?_)
          · simpa using ordered [] n rest rfl nd found h member
          · exact reads n nd found h member
        rw [mapped]
        simp only
        have covers' : ∀ m ∈ pre ++ [n], body.Readable m →
            Relocation.Covers { r with copied := r.copied ++ [(n, g.size)] } m := by
          intro m member readable
          rcases List.mem_append.mp member with old | new
          · exact (covers m old readable).copy n g.size
          · exact .inr ⟨(n, g.size), by simp, by simp [List.mem_singleton.mp new]⟩
        obtain ⟨r', done, covered⟩ := copyNodes_ok reads (pre ++ [n]) rest _ _ covers' orderedRest
        exact ⟨r', done, by simpa using covered⟩

end Lowering.Pass

namespace Lowering.Ir

open Lowering.Pass

/-- What splicing a body needs of it: a topological order, a value read by every result node, no
node reading a result, and so a splice on as many values of the caller as the body has parameters
succeeds. -/
structure Model.Spliceable (M : Model) : Prop where
  ordered : M.graph.topoOrder.isSome
  answered : ∀ n nd, M.graph.node? n = some nd → nd.op = .result → ∃ v, nd.inputs = [v]
  unread : ∀ n nd, M.graph.node? n = some nd → ∀ h ∈ nd.inputs, ¬ M.graph.HasOp h.node .result
  splices : ∀ (g : Graph) (opType : String) (inputs : List Handle),
    (∀ h ∈ inputs, g.hasOutput h = true) → inputs.length = M.parameters.length →
      ∃ vs, (g.splice M opType inputs).2 = .ok vs

variable {M : Model}

/-- A splice of a well-formed body whose nodes read no result and whose results are result nodes
succeeds when the counts of values and parameters agree. -/
theorem splice_ok (wellFormed : M.graph.WellFormed) (reads : M.graph.ReadsValues)
    (results : ∀ r ∈ M.results, M.graph.HasOp r .result) (g : Graph) (opType : String)
    {inputs : List Handle} (arity : inputs.length = M.parameters.length) :
    ∃ vs, (g.splice M opType inputs).2 = .ok vs := by
  obtain ⟨nodup, covers, closed⟩ := Graph.searchOrder_spec wellFormed.forward
  -- in the order of the search, a node comes after every node it reads
  have ordered : ∀ front n back, M.graph.searchOrder = front ++ n :: back → ∀ nd, M.graph.node? n = some nd →
      ∀ h ∈ nd.inputs, h.node ∈ [] ++ front := by
    intro front n back split nd found h member
    have inOrder : h.node ∈ M.graph.searchOrder :=
      (covers _).mpr (Graph.lt_size_of_hasOutput (wellFormed.inputs n nd found h member).2)
    have edge : n ∈ M.graph.successors.getD h.node [] :=
      Graph.mem_successors.mpr ⟨(covers _).mp inOrder, Graph.lt_size_of_node? found, h,
        Graph.mem_inputs.mpr ⟨nd, found, member⟩, rfl⟩
    rw [split] at nodup closed inOrder
    simpa using closed.mem_before nodup inOrder edge
  unfold Graph.splice
  rw [if_neg (by omega)]
  dsimp only
  rw [Graph.topoOrder_of_forward wellFormed.forward]
  dsimp only
  obtain ⟨r, copied, covered⟩ := copyNodes_ok reads [] M.graph.searchOrder
    (List.foldl (adoptType M.graph) g (M.parameters.zip inputs)) { replaced := M.parameters.zip inputs }
    (fun _ member => absurd member List.not_mem_nil) ordered
  have pair : copyNodes M.graph M.graph.searchOrder
      (List.foldl (adoptType M.graph) g (M.parameters.zip inputs), { replaced := M.parameters.zip inputs }) =
      ((copyNodes M.graph M.graph.searchOrder
        (List.foldl (adoptType M.graph) g (M.parameters.zip inputs), { replaced := M.parameters.zip inputs })).1,
        .ok r) := Prod.ext rfl copied
  rw [pair]
  dsimp only
  -- each result reads one readable value, which the copy covers
  refine mapM_ok_of_ok fun res listed => ?_
  obtain ⟨nd, found, isResult⟩ := results res listed
  obtain ⟨v, single⟩ := List.length_eq_one_iff.mp (wellFormed.result res nd found isResult)
  have valueFound : M.graph.inputValue res = some v := by simp [Graph.inputValue, Graph.inputs, found, single]
  rw [valueFound]
  have bound : v.node < M.graph.size :=
    Graph.lt_size_of_hasOutput (wellFormed.inputs res nd found v (by simp [single])).2
  exact Relocation.relocate_ok (covered v.node (by simpa using (covers _).mpr bound)
    (reads res nd found v (by simp [single])))

/-- A well-formed body whose nodes read no result and whose results are result nodes is one a
splice always takes. -/
theorem Model.Spliceable.of_readsValues (wellFormed : M.graph.WellFormed) (reads : M.graph.ReadsValues)
    (results : ∀ r ∈ M.results, M.graph.HasOp r .result) : M.Spliceable where
  ordered := by rw [Graph.topoOrder_of_forward wellFormed.forward]; rfl
  answered n nd found isResult := List.length_eq_one_iff.mp (wellFormed.result n nd found isResult)
  unread n nd found h member := (reads n nd found h member).not_hasOp
  splices g opType _ _ arity := splice_ok wellFormed reads results g opType arity

end Lowering.Ir
