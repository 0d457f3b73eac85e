import Lowering.Proofs.EdgeDirection

/-! # The order of a depth-first search

`Graph.topoOrder` runs a depth-first search and keeps its order only when every edge goes forward
in it. On an acyclic graph whose inputs all read nodes of the graph it always does
(`topoOrder_of_acyclic`): the search lists every node once, and each node before all its
successors (`Closed`). Forward graphs are such graphs (`topoOrder_of_forward`).

The search is proved with one invariant, `Exploring`: the marks cover the finished nodes and the
stack of nodes whose successors are being searched; the finished nodes are listed once each, each
before its successors. A search from an unmarked node keeps the invariant and finishes the node
(`explore_spec`), by induction on the fuel. Every node of the stack leads to the node being
searched, so in an acyclic graph a successor met again is never on the stack; and the stack holds
distinct nodes, so a fuel of one more than the number of nodes never runs out.
-/

namespace Lowering.Ir.Graph

/-! ## Successors -/

theorem mem_getD_modify_append (a : Array (List Nat)) (i x u t : Nat) :
    u ∈ (a.modify i (· ++ [t])).getD x [] ↔ u ∈ a.getD x [] ∨ (i = x ∧ x < a.size ∧ u = t) := by
  simp only [Array.getD_eq_getD_getElem?, Array.getElem?_modify]
  by_cases same : i = x
  · subst same
    by_cases bound : i < a.size
    · simp [bound]
    · simp [bound]
  · simp [same]

variable {g : Graph}

/-- The edges into one consumer `t` add `t` to the list of each node it reads. -/
theorem mem_successors_consumer (t x u : Nat) : ∀ (hs : List Handle) (acc : Array (List Nat)),
    (hs.foldl (fun acc h => acc.modify h.node (· ++ [t])) acc).size = acc.size ∧
      (u ∈ (hs.foldl (fun acc h => acc.modify h.node (· ++ [t])) acc).getD x [] ↔
        u ∈ acc.getD x [] ∨ (x < acc.size ∧ u = t ∧ ∃ h ∈ hs, h.node = x))
  | [], acc => by simp
  | h :: rest, acc => by
    obtain ⟨size, mem⟩ := mem_successors_consumer t x u rest (acc.modify h.node (· ++ [t]))
    simp only [List.foldl_cons, Array.size_modify] at size mem ⊢
    refine ⟨size, ?_⟩
    rw [mem, mem_getD_modify_append]
    constructor
    · rintro ((old | ⟨rfl, bound, rfl⟩) | ⟨bound, rfl, h', member, rfl⟩)
      · exact .inl old
      · exact .inr ⟨bound, rfl, h, List.mem_cons_self, rfl⟩
      · exact .inr ⟨bound, rfl, h', List.mem_cons_of_mem h member, rfl⟩
    · rintro (old | ⟨bound, rfl, h', member, rfl⟩)
      · exact .inl (.inl old)
      · rcases List.mem_cons.mp member with rfl | later
        · exact .inl (.inr ⟨rfl, bound, rfl⟩)
        · exact .inr ⟨bound, rfl, h', later, rfl⟩

theorem mem_successors_consumers (x u : Nat) : ∀ (ts : List Nat) (acc : Array (List Nat)),
    (ts.foldl (fun acc t => (g.inputs t).foldl (fun acc h => acc.modify h.node (· ++ [t])) acc) acc).size =
        acc.size ∧
      (u ∈ (ts.foldl (fun acc t => (g.inputs t).foldl (fun acc h => acc.modify h.node (· ++ [t])) acc)
          acc).getD x [] ↔ u ∈ acc.getD x [] ∨ (x < acc.size ∧ u ∈ ts ∧ ∃ h ∈ g.inputs u, h.node = x))
  | [], acc => by simp
  | t :: rest, acc => by
    obtain ⟨innerSize, inner⟩ := mem_successors_consumer t x u (g.inputs t) acc
    obtain ⟨size, mem⟩ := mem_successors_consumers x u rest
      ((g.inputs t).foldl (fun acc h => acc.modify h.node (· ++ [t])) acc)
    simp only [List.foldl_cons] at size mem ⊢
    rw [innerSize] at size mem
    refine ⟨size, ?_⟩
    rw [mem, inner]
    constructor
    · rintro ((old | ⟨bound, rfl, reads⟩) | ⟨bound, member, reads⟩)
      · exact .inl old
      · exact .inr ⟨bound, List.mem_cons_self, reads⟩
      · exact .inr ⟨bound, List.mem_cons_of_mem t member, reads⟩
    · rintro (old | ⟨bound, member, reads⟩)
      · exact .inl (.inl old)
      · rcases List.mem_cons.mp member with rfl | later
        · exact .inl (.inr ⟨bound, rfl, reads⟩)
        · exact .inr ⟨bound, later, reads⟩

/-- `t` is listed as a successor of `x` exactly when `t` is a node that reads `x`. -/
theorem mem_successors {x t : Nat} :
    t ∈ g.successors.getD x [] ↔ x < g.size ∧ t < g.size ∧ ∃ h ∈ g.inputs t, h.node = x := by
  obtain ⟨-, mem⟩ := mem_successors_consumers (g := g) x t (List.range g.size) (Array.replicate g.size [])
  have empty : (Array.replicate g.size ([] : List Nat)).getD x [] = [] := by
    simp only [Array.getD_eq_getD_getElem?, Array.getElem?_replicate]
    split <;> rfl
  simp only [empty, List.not_mem_nil, false_or, Array.size_replicate, List.mem_range] at mem
  exact mem

/-! ## Acyclic graphs -/

/-- Node `m` feeds node `n` when an input of `n` reads an output of `m`. -/
def Feeds (g : Graph) (m n : Nat) : Prop := ∃ h ∈ g.inputs n, h.node = m

/-- Every input reads a node of the graph. -/
def Linked (g : Graph) : Prop := ∀ n, ∀ h ∈ g.inputs n, h.node < g.size

/-- No chain of edges leads from a node back to itself; a node reading its own output is a cycle. -/
def Acyclic (g : Graph) : Prop := ∀ n, ¬ Relation.TransGen g.Feeds n n

theorem Forward.feeds_lt (forward : g.Forward) {m n : Nat} (feeds : g.Feeds m n) : m < n := by
  obtain ⟨h, member, rfl⟩ := feeds
  obtain ⟨nd, found, inNode⟩ := mem_inputs.mp member
  exact forward n nd found h inNode

theorem Forward.linked (forward : g.Forward) : g.Linked := by
  intro n h member
  obtain ⟨nd, found, inNode⟩ := mem_inputs.mp member
  exact Nat.lt_trans (forward n nd found h inNode) (lt_size_of_node? found)

/-- A rank that rises along every edge rises along every chain of edges, so no chain closes. -/
theorem acyclic_of_rank (rank : Nat → Nat) (rises : ∀ {m n}, g.Feeds m n → rank m < rank n) : g.Acyclic := by
  have climbs : ∀ {m n}, Relation.TransGen g.Feeds m n → rank m < rank n := by
    intro m n chain
    induction chain with
    | single feeds => exact rises feeds
    | tail _ feeds below => exact Nat.lt_trans below (rises feeds)
  exact fun n cycle => Nat.lt_irrefl (rank n) (climbs cycle)

/-- Every edge of a forward graph climbs in index, so no chain of edges closes. -/
theorem Forward.acyclic (forward : g.Forward) : g.Acyclic :=
  acyclic_of_rank id forward.feeds_lt

/-! ## Orders closed under successors -/

/-- Each node of the list comes before all its successors, which are in the list. -/
def Closed (succ : Array (List Nat)) : List Nat → Prop
  | [] => True
  | x :: rest => (∀ t ∈ succ.getD x [], t ∈ rest) ∧ Closed succ rest

section Closed

variable {succ : Array (List Nat)}

theorem Closed.right : ∀ (pre : List Nat) {post : List Nat}, Closed succ (pre ++ post) → Closed succ post
  | [], _, closed => closed
  | _ :: pre, _, closed => Closed.right pre closed.2

/-- In a closed order without repeats, a node that has `n` as a successor comes before `n`. -/
theorem Closed.mem_before {pre post : List Nat} {n x : Nat} (closed : Closed succ (pre ++ n :: post))
    (nodup : (pre ++ n :: post).Nodup) (member : x ∈ pre ++ n :: post) (edge : n ∈ succ.getD x []) :
    x ∈ pre := by
  have fresh : n ∉ post := (List.nodup_cons.mp (List.nodup_append.mp nodup).2.1).1
  rcases List.mem_append.mp member with early | late
  · exact early
  · -- at or after `n`, the successor `n` would have to come again later
    exfalso
    rcases List.mem_cons.mp late with rfl | later
    · exact fresh ((Closed.right pre closed).1 x edge)
    · obtain ⟨front, back, rfl⟩ := List.append_of_mem later
      have tail : Closed succ (x :: back) := Closed.right (pre ++ n :: front) (by simpa using closed)
      exact fresh (List.mem_append_right front (List.mem_cons_of_mem x (tail.1 n edge)))

/-- In a closed order without repeats, a node comes before each of its successors. -/
theorem Closed.idxOf_lt : ∀ {order : List Nat}, Closed succ order → order.Nodup →
    ∀ {x t : Nat}, x ∈ order → t ∈ succ.getD x [] → order.idxOf x < order.idxOf t
  | [], _, _, _, _, member, _ => absurd member List.not_mem_nil
  | y :: rest, closed, nodup, x, t, member, edge => by
    obtain ⟨notInRest, restNodup⟩ := List.nodup_cons.mp nodup
    rcases List.mem_cons.mp member with rfl | later
    · have after : t ∈ rest := closed.1 t edge
      have differs : x ≠ t := fun same => notInRest (same ▸ after)
      rw [List.idxOf_cons_self, List.idxOf_cons, beq_false_of_ne differs]
      simp
    · have after := Closed.idxOf_lt closed.2 restNodup later edge
      have differs : y ≠ x := fun same => notInRest (same ▸ later)
      -- `t` comes after `x`, so it is not the head either
      have differs' : y ≠ t := by
        rintro rfl
        obtain ⟨front, back, rfl⟩ := List.append_of_mem later
        exact notInRest (List.mem_append_right front (List.mem_cons_of_mem x
          ((Closed.right front closed.2).1 y edge)))
      rw [List.idxOf_cons, List.idxOf_cons, beq_false_of_ne differs, beq_false_of_ne differs']
      simpa using after

end Closed

/-! ## The search -/

/-- One round of a search loop: a search from `x` unless `x` is marked. -/
def visit (succ : Array (List Nat)) (fuel : Nat) (st : Array Bool × List Nat) (x : Nat) :
    Array Bool × List Nat :=
  if st.1.getD x true then st else search succ fuel x st

theorem search_succ (succ : Array (List Nat)) (fuel x : Nat) (st : Array Bool × List Nat) :
    search succ (fuel + 1) x st =
      (((succ.getD x []).foldl (visit succ fuel) (st.1.set! x true, st.2)).1,
        x :: ((succ.getD x []).foldl (visit succ fuel) (st.1.set! x true, st.2)).2) := by
  obtain ⟨seen, done⟩ := st
  rfl

theorem searchOrder_eq (g : Graph) : g.searchOrder =
    ((List.range g.size).foldl (visit g.successors (g.size + 1)) (Array.replicate g.size false, [])).2 :=
  rfl

theorem getD_set_true (seen : Array Bool) (x y : Nat) :
    (seen.set! x true).getD y true = (x == y || seen.getD y true) := by
  simp only [Array.getD_eq_getD_getElem?, Array.set!_eq_setIfInBounds, Array.getElem?_setIfInBounds]
  by_cases same : x = y
  · subst same
    by_cases bound : x < seen.size
    · simp [bound]
    · simp [bound]
  · simp [same]

/-- A loop each of whose rounds keeps `inv`, gains `has` for its element and keeps it for the
others ends with `inv` and with `has` for every element. -/
theorem foldl_collects {σ α : Type} {f : σ → α → σ} (inv : σ → Prop) (has : σ → α → Prop)
    {xs : List α} (round : ∀ s, ∀ a ∈ xs, inv s → inv (f s a) ∧ has (f s a) a ∧ ∀ c, has s c → has (f s a) c) :
    ∀ s, inv s → inv (xs.foldl f s) ∧ ∀ a ∈ xs, has (xs.foldl f s) a := by
  induction xs with
  | nil => exact fun _ holds => ⟨holds, fun _ member => absurd member List.not_mem_nil⟩
  | cons a rest inductionHypothesis =>
    intro s holds
    obtain ⟨kept, gained, keeps⟩ := round s a List.mem_cons_self holds
    obtain ⟨ended, collected⟩ := inductionHypothesis
      (fun s' a' member => round s' a' (List.mem_cons_of_mem a member)) (f s a) kept
    refine ⟨ended, fun a' member => ?_⟩
    rcases List.mem_cons.mp member with rfl | later
    · -- the rounds after `a'` keep what its own round gained
      have lasts : ∀ (ys : List α), (∀ y ∈ ys, y ∈ rest) → ∀ s', inv s' → has s' a' →
          has (ys.foldl f s') a' := by
        intro ys
        induction ys with
        | nil => exact fun _ _ _ holding => holding
        | cons y ys inner =>
          intro within s' holds' holding
          obtain ⟨kept', -, keeps'⟩ := round s' y (List.mem_cons_of_mem a' (within y List.mem_cons_self)) holds'
          exact inner (fun z member => within z (List.mem_cons_of_mem y member)) _ kept'
            (keeps' a' holding)
      exact lasts rest (fun _ member => member) _ kept gained
    · exact collected a' later

variable {succ : Array (List Nat)} {n : Nat}

/-- A state of the search in a graph of `n` nodes, while the successors of the nodes of `stack`
are searched: the finished nodes are marked, distinct, below `n` and each listed before its
successors; the nodes of the stack are marked, and a marked node is finished or on the stack. -/
structure Exploring (succ : Array (List Nat)) (n : Nat) (stack : List Nat) (st : Array Bool × List Nat) :
    Prop where
  size : st.1.size = n
  below : ∀ y ∈ st.2, y < n
  nodup : st.2.Nodup
  finished : ∀ y ∈ st.2, st.1.getD y true = true
  opened : ∀ y ∈ stack, st.1.getD y true = true
  marked : ∀ y < n, st.1.getD y true = true → y ∈ st.2 ∨ y ∈ stack
  closed : Closed succ st.2

/-- How a search changes its state: marks stay, a newly marked node is finished, and the newly
finished nodes, unmarked before, go in front. -/
structure Follows (st st' : Array Bool × List Nat) : Prop where
  marks : ∀ y, st.1.getD y true = true → st'.1.getD y true = true
  newlyMarked : ∀ y, st'.1.getD y true = true → st.1.getD y true = true ∨ y ∈ st'.2
  front : ∃ new, st'.2 = new ++ st.2 ∧ ∀ y ∈ new, st.1.getD y true = false

namespace Follows

theorem refl (st : Array Bool × List Nat) : Follows st st :=
  ⟨fun _ holds => holds, fun _ holds => .inl holds, ⟨[], rfl, fun _ member => absurd member List.not_mem_nil⟩⟩

theorem mem {st st' : Array Bool × List Nat} (follows : Follows st st') {y : Nat} (member : y ∈ st.2) :
    y ∈ st'.2 := by
  obtain ⟨new, same, -⟩ := follows.front
  rw [same]
  exact List.mem_append_right new member

theorem trans {st st' st'' : Array Bool × List Nat} (first : Follows st st') (second : Follows st' st'') :
    Follows st st'' := by
  obtain ⟨new, same, unmarked⟩ := first.front
  obtain ⟨new', same', unmarked'⟩ := second.front
  refine ⟨fun y holds => second.marks y (first.marks y holds), fun y holds => ?_,
    ⟨new' ++ new, by rw [same', same, List.append_assoc], fun y member => ?_⟩⟩
  · rcases second.newlyMarked y holds with earlier | finished
    · rcases first.newlyMarked y earlier with before | finished
      · exact .inl before
      · exact .inr (second.mem finished)
    · exact .inr finished
  · rcases List.mem_append.mp member with later | earlier
    · -- unmarked before the second search, so unmarked before the first too
      cases marked : st.1.getD y true with
      | false => rfl
      | true =>
        have stillMarked := first.marks y marked
        rw [unmarked' y later] at stillMarked
        cases stillMarked
    · exact unmarked y earlier

end Follows

theorem marks_set_true {seen : Array Bool} {y : Nat} (x : Nat) (holds : seen.getD y true = true) :
    (seen.set! x true).getD y true = true := by
  rw [getD_set_true, holds, Bool.or_true]


/-- Marking `x` before its successors are searched puts it on the stack. -/
theorem Exploring.mark {stack : List Nat} {x : Nat} {st : Array Bool × List Nat}
    (exploring : Exploring succ n stack st) : Exploring succ n (x :: stack) (st.1.set! x true, st.2) := by
  refine ⟨by simpa using exploring.size, exploring.below, exploring.nodup,
    fun y member => marks_set_true x (exploring.finished y member), fun y member => ?_,
    fun y bound holds => ?_, exploring.closed⟩
  · rcases List.mem_cons.mp member with rfl | below
    · rw [getD_set_true, beq_self_eq_true, Bool.true_or]
    · exact marks_set_true x (exploring.opened y below)
  · rw [getD_set_true] at holds
    by_cases same : x = y
    · exact .inr (same ▸ List.mem_cons_self)
    · rw [beq_false_of_ne same, Bool.false_or] at holds
      rcases exploring.marked y bound holds with finished | stacked
      · exact .inl finished
      · exact .inr (List.mem_cons_of_mem x stacked)

/-- Once the successors of `x` are searched, `x` is finished and leaves the stack. -/
theorem Exploring.finish {stack : List Nat} {x : Nat} {st looped : Array Bool × List Nat}
    (exploring : Exploring succ n stack st) (bound : x < n) (unmarked : st.1.getD x true = false)
    (searched : Exploring succ n (x :: stack) looped) (follows : Follows (st.1.set! x true, st.2) looped)
    (covered : ∀ t ∈ succ.getD x [], t ∈ looped.2) :
    Exploring succ n stack (looped.1, x :: looped.2) ∧ Follows st (looped.1, x :: looped.2) := by
  obtain ⟨new, same, unmarkedNew⟩ := follows.front
  have markedX : (st.1.set! x true).getD x true = true := by
    rw [getD_set_true, beq_self_eq_true, Bool.true_or]
  -- `x` was neither finished before nor finished by the searches from its successors
  have fresh : x ∉ looped.2 := by
    rw [same]
    intro member
    rcases List.mem_append.mp member with late | early
    · have gone : (st.1.set! x true).getD x true = false := unmarkedNew x late
      rw [gone] at markedX
      cases markedX
    · rw [exploring.finished x early] at unmarked
      cases unmarked
  have before : ∀ y, (st.1.set! x true).getD y true = true → y = x ∨ st.1.getD y true = true := by
    intro y holds
    rw [getD_set_true] at holds
    by_cases isX : x = y
    · exact .inl isX.symm
    · rw [beq_false_of_ne isX, Bool.false_or] at holds
      exact .inr holds
  refine ⟨⟨searched.size, ?_, List.nodup_cons.mpr ⟨fresh, searched.nodup⟩, ?_,
    fun y member => searched.opened y (List.mem_cons_of_mem x member), ?_, ⟨covered, searched.closed⟩⟩,
    ⟨fun y holds => follows.marks y (marks_set_true x holds), ?_, ⟨x :: new, by simp [same], ?_⟩⟩⟩
  · intro y member
    rcases List.mem_cons.mp member with rfl | later
    · exact bound
    · exact searched.below y later
  · intro y member
    rcases List.mem_cons.mp member with rfl | later
    · exact follows.marks _ markedX
    · exact searched.finished y later
  · intro y within holds
    rcases searched.marked y within holds with finished | stacked
    · exact .inl (List.mem_cons_of_mem x finished)
    · rcases List.mem_cons.mp stacked with rfl | below
      · exact .inl List.mem_cons_self
      · exact .inr below
  · intro y holds
    rcases follows.newlyMarked y holds with earlier | finished
    · rcases before y earlier with rfl | old
      · exact .inr List.mem_cons_self
      · exact .inl old
    · exact .inr (List.mem_cons_of_mem x finished)
  · intro y member
    rcases List.mem_cons.mp member with rfl | later
    · exact unmarked
    · cases old : st.1.getD y true with
      | false => rfl
      | true =>
        have gone : (st.1.set! x true).getD y true = false := unmarkedNew y later
        rw [marks_set_true x old] at gone
        cases gone

/-- Distinct nodes below `n` are at most `n`. -/
theorem length_le_of_nodup_below {ys : List Nat} (nodup : ys.Nodup) (below : ∀ y ∈ ys, y < n) :
    ys.length ≤ n := by
  have within : ys ⊆ List.range n := fun y member => List.mem_range.mpr (below y member)
  simpa using nodup.length_le_of_subset within

/-- Where no chain of successors returns to its start, a search from an unmarked node keeps the
invariant, finishes the node, and changes the state only as a search does. The fuel covers the
nodes not on the stack. -/
theorem explore_spec {R : Nat → Nat → Prop} (edges : ∀ x t, t ∈ succ.getD x [] → R x t ∧ t < n)
    (acyclic : ∀ y, ¬ Relation.TransGen R y y) :
    ∀ (fuel x : Nat) (st : Array Bool × List Nat) (stack : List Nat),
      x < n → n < fuel + stack.length → (x :: stack).Nodup → (∀ z ∈ stack, z < n) →
      (∀ z ∈ stack, Relation.TransGen R z x) → st.1.getD x true = false → Exploring succ n stack st →
      Exploring succ n stack (search succ fuel x st) ∧ x ∈ (search succ fuel x st).2 ∧
        Follows st (search succ fuel x st)
  | 0, x, _, stack, bound, enough, nodup, within, _, _, _ => by
    -- `x` and the stack are distinct nodes below `n`, more than the fuel allows
    have short := length_le_of_nodup_below nodup fun z member =>
      (List.mem_cons.mp member).elim (fun same => same ▸ bound) (within z)
    simp only [List.length_cons] at short
    omega
  | fuel + 1, x, st, stack, bound, enough, nodup, within, leads, unmarked, exploring => by
    rw [search_succ]
    -- one round of the loop over the successors: a search from each one not yet marked
    have round : ∀ st', ∀ t ∈ succ.getD x [],
        (Exploring succ n (x :: stack) st' ∧ Follows (st.1.set! x true, st.2) st') →
          (Exploring succ n (x :: stack) (visit succ fuel st' t) ∧
            Follows (st.1.set! x true, st.2) (visit succ fuel st' t)) ∧
          t ∈ (visit succ fuel st' t).2 ∧ ∀ c, c ∈ st'.2 → c ∈ (visit succ fuel st' t).2 := by
      rintro st' t edge ⟨exploring', follows'⟩
      obtain ⟨step, within'⟩ := edges x t edge
      -- every node of the stack, `x` now included, leads to `t`
      have leads' : ∀ z ∈ x :: stack, Relation.TransGen R z t := by
        intro z member
        rcases List.mem_cons.mp member with rfl | below
        · exact .single step
        · exact (leads z below).tail step
      unfold visit
      split
      · rename_i seen
        refine ⟨⟨exploring', follows'⟩, ?_, fun _ member => member⟩
        rcases exploring'.marked t within' seen with finished | stacked
        · exact finished
        · exact absurd (leads' t stacked) (acyclic t)
      · rename_i unseen
        have unmarked' : st'.1.getD t true = false := by simpa using unseen
        have fresh : t ∉ x :: stack := by
          intro stacked
          rw [exploring'.opened t stacked] at unmarked'
          cases unmarked'
        have within'' : ∀ z ∈ x :: stack, z < n := fun z member =>
          (List.mem_cons.mp member).elim (fun same => same ▸ bound) (within z)
        obtain ⟨searched, finished, follows''⟩ := explore_spec edges acyclic fuel t st' (x :: stack) within'
          (by simp only [List.length_cons]; omega) (List.nodup_cons.mpr ⟨fresh, nodup⟩) within'' leads'
          unmarked' exploring'
        exact ⟨⟨searched, follows'.trans follows''⟩, finished, fun _ member => follows''.mem member⟩
    obtain ⟨⟨searched, follows⟩, covered⟩ := foldl_collects
      (fun st' => Exploring succ n (x :: stack) st' ∧ Follows (st.1.set! x true, st.2) st')
      (fun st' t => t ∈ st'.2) round _ ⟨exploring.mark, Follows.refl _⟩
    obtain ⟨finished, follows'⟩ := exploring.finish bound unmarked searched follows covered
    exact ⟨finished, List.mem_cons_self, follows'⟩

/-- The order of the search from every node of an acyclic graph lists each node once, each before
its successors. -/
theorem searchOrder_spec_of_acyclic (acyclic : g.Acyclic) :
    g.searchOrder.Nodup ∧ (∀ x, x ∈ g.searchOrder ↔ x < g.size) ∧ Closed g.successors g.searchOrder := by
  have edges : ∀ x t, t ∈ g.successors.getD x [] → g.Feeds x t ∧ t < g.size := by
    intro x t edge
    obtain ⟨-, bound, feeds⟩ := mem_successors.mp edge
    exact ⟨feeds, bound⟩
  have start : Exploring g.successors g.size [] (Array.replicate g.size false, []) := by
    refine ⟨by simp, fun _ member => absurd member List.not_mem_nil, List.nodup_nil,
      fun _ member => absurd member List.not_mem_nil, fun _ member => absurd member List.not_mem_nil,
      fun y bound holds => ?_, trivial⟩
    simp [Array.getD_eq_getD_getElem?, bound] at holds
  have round : ∀ st, ∀ x ∈ List.range g.size, Exploring g.successors g.size [] st →
      Exploring g.successors g.size [] (visit g.successors (g.size + 1) st x) ∧
        x ∈ (visit g.successors (g.size + 1) st x).2 ∧
        ∀ c, c ∈ st.2 → c ∈ (visit g.successors (g.size + 1) st x).2 := by
    intro st x member exploring
    have bound := List.mem_range.mp member
    unfold visit
    split
    · rename_i seen
      refine ⟨exploring, ?_, fun _ member => member⟩
      rcases exploring.marked x bound seen with finished | stacked
      · exact finished
      · exact absurd stacked List.not_mem_nil
    · rename_i unseen
      obtain ⟨searched, finished, follows⟩ := explore_spec edges acyclic (g.size + 1) x st [] bound
        (by simp) (List.nodup_cons.mpr ⟨List.not_mem_nil, List.nodup_nil⟩) (fun _ member => absurd member List.not_mem_nil)
        (fun _ member => absurd member List.not_mem_nil) (by simpa using unseen) exploring
      exact ⟨searched, finished, fun _ member => follows.mem member⟩
  obtain ⟨searched, covered⟩ := foldl_collects (Exploring g.successors g.size []) (fun st x => x ∈ st.2)
    round _ start
  rw [searchOrder_eq]
  refine ⟨searched.nodup, fun x => ⟨searched.below x, fun bound => covered x (List.mem_range.mpr bound)⟩,
    searched.closed⟩

/-- The order of the search from every node of a forward graph lists each node once, each before
its successors. -/
theorem searchOrder_spec (forward : g.Forward) :
    g.searchOrder.Nodup ∧ (∀ x, x ∈ g.searchOrder ↔ x < g.size) ∧ Closed g.successors g.searchOrder :=
  searchOrder_spec_of_acyclic forward.acyclic

/-! ## The order check -/

/-- The rank array of `forwardIn` gives each node of the order its position. -/
theorem rank_getD {f : Array Nat × Nat → Nat → Array Nat × Nat}
    (step : ∀ r i x, f (r, i) x = (r.set! x i, i + 1)) :
    ∀ (order : List Nat), order.Nodup → ∀ (r : Array Nat) (k : Nat), (∀ x ∈ order, x < r.size) →
      ∀ y, (order.foldl f (r, k)).1.getD y 0 = if y ∈ order then k + order.idxOf y else r.getD y 0
  | [], _, r, k, _, y => by simp
  | x :: rest, nodup, r, k, bounded, y => by
    obtain ⟨notInRest, restNodup⟩ := List.nodup_cons.mp nodup
    have xBound := bounded x List.mem_cons_self
    rw [List.foldl_cons, step, rank_getD step rest restNodup _ _
      (fun z member => by simpa using bounded z (List.mem_cons_of_mem x member))]
    have written : ∀ z, (r.set! x k).getD z 0 = if x = z then k else r.getD z 0 := by
      intro z
      simp only [Array.getD_eq_getD_getElem?, Array.set!_eq_setIfInBounds, Array.getElem?_setIfInBounds]
      by_cases same : x = z
      · subst same
        simp [xBound]
      · simp [same]
    by_cases isX : x = y
    · subst isX
      rw [if_neg notInRest, written, if_pos rfl, if_pos List.mem_cons_self, List.idxOf_cons_self,
        Nat.add_zero]
    · by_cases later : y ∈ rest
      · rw [if_pos later, if_pos (List.mem_cons_of_mem x later), List.idxOf_cons, beq_false_of_ne isX,
          cond_false]
        omega
      · have absent : y ∉ x :: rest := fun member =>
          (List.mem_cons.mp member).elim (fun same => isX same.symm) later
        rw [if_neg later, if_neg absent, written, if_neg isX]


/-- On an acyclic graph whose inputs read nodes of the graph, the order check accepts the order of
the search. -/
theorem forwardIn_searchOrder (linked : g.Linked) (acyclic : g.Acyclic) :
    g.forwardIn g.searchOrder = true := by
  obtain ⟨nodup, covers, closed⟩ := searchOrder_spec_of_acyclic acyclic
  unfold forwardIn
  simp only [List.all_eq_true, List.mem_range, Bool.and_eq_true, decide_eq_true_eq]
  intro t bound h member
  have inside : h.node < g.size := linked t h member
  have edge : t ∈ g.successors.getD h.node [] := mem_successors.mpr ⟨inside, bound, h, member, rfl⟩
  refine ⟨inside, ?_⟩
  rw [rank_getD (fun _ _ _ => rfl) _ nodup _ _ (fun x member => by simpa using (covers x).mp member),
    rank_getD (fun _ _ _ => rfl) _ nodup _ _ (fun x member => by simpa using (covers x).mp member),
    if_pos ((covers _).mpr inside), if_pos ((covers _).mpr bound)]
  exact Nat.add_lt_add_left (closed.idxOf_lt nodup ((covers _).mpr inside) edge) 0

/-- An acyclic graph whose inputs read nodes of the graph has a topological order: the order of the
search. -/
theorem topoOrder_of_acyclic (linked : g.Linked) (acyclic : g.Acyclic) : g.topoOrder = some g.searchOrder := by
  simp only [topoOrder, forwardIn_searchOrder linked acyclic, if_true]

/-- An order the check accepts ranks every edge upwards, from a node of the graph. -/
theorem linked_acyclic_of_forwardIn {order : List Nat} (accepted : g.forwardIn order = true) :
    g.Linked ∧ g.Acyclic := by
  unfold forwardIn at accepted
  simp only [List.all_eq_true, List.mem_range, Bool.and_eq_true, decide_eq_true_eq] at accepted
  obtain ⟨rank, ranked⟩ : ∃ rank : Array Nat, ∀ t < g.size, ∀ h ∈ g.inputs t,
      h.node < g.size ∧ rank.getD h.node 0 < rank.getD t 0 := ⟨_, accepted⟩
  -- only existing nodes have inputs
  have inside : ∀ t, ∀ h ∈ g.inputs t, t < g.size := by
    intro t h member
    obtain ⟨nd, found, -⟩ := mem_inputs.mp member
    exact lt_size_of_node? found
  refine ⟨fun t h member => (ranked t (inside t h member) h member).1, acyclic_of_rank (rank.getD · 0) ?_⟩
  rintro m n ⟨h, member, rfl⟩
  exact (ranked n (inside n h member) h member).2

/-- A graph has a topological order exactly when its inputs read nodes of it and no chain of
edges closes. -/
theorem topoOrder_isSome_iff : g.topoOrder.isSome ↔ g.Linked ∧ g.Acyclic := by
  constructor
  · intro ordered
    unfold topoOrder at ordered
    dsimp only at ordered
    split at ordered
    · rename_i accepted
      exact linked_acyclic_of_forwardIn accepted
    · cases ordered
  · rintro ⟨linked, acyclic⟩
    rw [topoOrder_of_acyclic linked acyclic]
    rfl

/-- A forward graph has a topological order: the order of the search. -/
theorem topoOrder_of_forward (forward : g.Forward) : g.topoOrder = some g.searchOrder :=
  topoOrder_of_acyclic forward.linked forward.acyclic

end Lowering.Ir.Graph
