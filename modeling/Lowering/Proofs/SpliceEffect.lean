import Mathlib.Data.Set.Function
import Mathlib.Order.Interval.Set.Defs
import Lowering.Proofs.Spliceable

/-! # What a splice does

`Graph.splice` on a body whose parameters are distinct, whose graph is acyclic with every input
reading one of its nodes, and whose nodes other than results read no result (`splice_spec`): with
as many values as parameters, it writes known types onto caller parameters of unknown type,
appends one copy of every body node that is neither a parameter nor a result, each reading the
images of its inputs (`Model.spliced`), and answers with the images of the values the results
read, exactly when each of them is an output of a parameter or of a copied node
(`Model.Answers`). A result that reads another result has no answer, so the splice of such a
body fails (`splice_fails_on_result_chain`).

The types are written one pair at a time (`adoptTypes_node?`): the first known type among the body
parameters that stand for a caller value wins. The copy follows the order of the search, in which
every node comes after the nodes it reads (`topoOrder_of_acyclic`), so each copy finds its inputs
relocated (`copyNodes_spec`, by induction on the part of the order not yet copied).
-/

namespace Lowering.Pass

open Lowering.Ir

/-! ## Types written back to the caller -/

/-- The known element type that writing body types back gives caller value `h`: that of the first
body parameter of known type paired with `h`. -/
def adoptedType? (body : Graph) (pairs : List (Nat × Handle)) (h : Handle) : Option ElementType :=
  (pairs.find? fun q => q.2 == h && (body.tensor ⟨q.1, 0⟩).elementType.isStatic).map
    fun q => (body.tensor ⟨q.1, 0⟩).elementType

/-- Caller node `m` once the types are written back: on a parameter, an output of unknown element
type takes the type adopted for it, if there is one. -/
def adoptedNode (body : Graph) (pairs : List (Nat × Handle)) (m : Nat) (nd : Node) : Node :=
  if nd.op.isParameter then
    { nd with outputs := nd.outputs.mapIdx fun p t =>
        if t.elementType.isStatic then t
        else ((adoptedType? body pairs ⟨m, p⟩).map fun e => { t with elementType := e }).getD t }
  else nd

variable {body : Graph}

theorem adoptedType?_cons (param : Nat) (input : Handle) (rest : List (Nat × Handle)) (h : Handle) :
    adoptedType? body ((param, input) :: rest) h =
      if input = h ∧ (body.tensor ⟨param, 0⟩).elementType.isStatic = true then
        some (body.tensor ⟨param, 0⟩).elementType
      else adoptedType? body rest h := by
  unfold adoptedType?
  rw [List.find?_cons]
  by_cases hit : input = h ∧ (body.tensor ⟨param, 0⟩).elementType.isStatic = true
  · simp [hit]
  · rw [if_neg hit]
    have miss : (input == h && (body.tensor ⟨param, 0⟩).elementType.isStatic) = false := by
      simpa [Bool.and_eq_true] using hit
    simp only [miss]

@[simp] theorem adoptedNode_nil (m : Nat) (nd : Node) : adoptedNode body [] m nd = nd := by
  unfold adoptedNode adoptedType?
  split
  · have same : nd.outputs.mapIdx (fun _ t => if t.elementType.isStatic then t else t) = nd.outputs := by
      apply List.ext_getElem (by simp)
      intro p _ _
      simp
    simp only [List.find?_nil, Option.map_none, Option.getD_none, same]
  · rfl

/-- Two lists of pairs that adopt the same types for the outputs of unknown type of a parameter
give it the same node. -/
theorem adoptedNode_congr {pairs pairs' : List (Nat × Handle)} {m : Nat} {nd : Node}
    (agree : nd.op.isParameter = true → ∀ p (bound : p < nd.outputs.length),
      nd.outputs[p].elementType.isStatic = false →
        adoptedType? body pairs ⟨m, p⟩ = adoptedType? body pairs' ⟨m, p⟩) :
    adoptedNode body pairs m nd = adoptedNode body pairs' m nd := by
  unfold adoptedNode
  split
  · rename_i parameter
    have same : nd.outputs.mapIdx (fun p t => if t.elementType.isStatic then t
          else ((adoptedType? body pairs ⟨m, p⟩).map fun e => { t with elementType := e }).getD t) =
        nd.outputs.mapIdx (fun p t => if t.elementType.isStatic then t
          else ((adoptedType? body pairs' ⟨m, p⟩).map fun e => { t with elementType := e }).getD t) := by
      apply List.ext_getElem (by simp)
      intro p bound _
      simp only [List.getElem_mapIdx]
      split
      · rfl
      · rename_i unknown
        rw [agree parameter p (by simpa using bound) (by simpa using unknown)]
    rw [same]
  · rfl

theorem tensor_of_node? {g : Graph} {h : Handle} {nd : Node} (found : g.node? h.node = some nd)
    (bound : h.output < nd.outputs.length) : g.tensor h = nd.outputs[h.output] := by
  simp [Graph.tensor, found, bound]

/-- Writing one type back, then the rest, is the closed form for all the pairs: a write happens
exactly when the pair's type is the first known one for a caller output of unknown type on a
parameter, and a write leaves that output known, so the later pairs pass it by. -/
theorem adoptType_node? (g : Graph) (param : Nat) (input : Handle) (rest : List (Nat × Handle)) (m : Nat) :
    ((adoptType body g (param, input)).node? m).map (adoptedNode body rest m) =
      (g.node? m).map (adoptedNode body ((param, input) :: rest) m) := by
  -- away from `input`, the first pair adopts nothing
  have elsewhere : ∀ p, input ≠ ⟨m, p⟩ → adoptedType? body ((param, input) :: rest) ⟨m, p⟩ =
      adoptedType? body rest ⟨m, p⟩ := by
    intro p differs
    rw [adoptedType?_cons, if_neg fun hit => differs hit.1]
  simp only [adoptType]
  split
  · rename_i written
    simp only [Bool.and_eq_true, Bool.not_eq_true'] at written
    obtain ⟨⟨static, unknown⟩, parameter⟩ := written
    rw [Graph.modifyTensor_eq_modifyNode, Graph.node?_modifyNode]
    split
    · rename_i same
      subst same
      cases found : g.node? input.node with
      | none => simp [found] at parameter
      | some nd =>
        have isParameter : nd.op.isParameter = true := by simpa [found] using parameter
        simp only [Option.map_some, Option.some.injEq, adoptedNode, isParameter, if_true]
        congr 1
        apply List.ext_getElem (by simp)
        intro p bound _
        simp only [List.getElem_mapIdx, List.getElem_modify]
        by_cases here : input.output = p
        · -- the written output: known now, adopted from the first pair before
          subst here
          have inside : input.output < nd.outputs.length := by simpa using bound
          have was : nd.outputs[input.output].elementType.isStatic = false := by
            rw [← tensor_of_node? found inside]
            exact unknown
          rw [if_pos rfl, if_pos static, if_neg (by simp [was]), adoptedType?_cons,
            if_pos ⟨rfl, static⟩]
          rfl
        · rw [if_neg here, elsewhere p fun same => here (by rw [same])]
    · rename_i differs
      cases g.node? m with
      | none => rfl
      | some nd =>
        refine congrArg some (adoptedNode_congr fun _ p _ _ => (elsewhere p fun same => differs ?_).symm)
        rw [same]
  · rename_i kept
    cases found : g.node? m with
    | none => rfl
    | some nd =>
      refine congrArg some (adoptedNode_congr fun parameter p bound unknown => ?_)
      rw [adoptedType?_cons]
      split
      · -- a known body type at a parameter's unknown output would have been written
        rename_i hit
        obtain ⟨rfl, static⟩ := hit
        have was : (g.tensor ⟨m, p⟩).elementType.isStatic = false := by
          rw [tensor_of_node? found bound]
          exact unknown
        simp [static, was, found, parameter] at kept
      · rfl

/-- Writing the body's types back changes each caller node as `adoptedNode` says. -/
theorem adoptTypes_node? :
    ∀ (pairs : List (Nat × Handle)) (g : Graph) (m : Nat),
      (pairs.foldl (adoptType body) g).node? m = (g.node? m).map (adoptedNode body pairs m)
  | [], g, m => by
    rw [List.foldl_nil]
    cases g.node? m <;> simp
  | (param, input) :: rest, g, m => by
    rw [List.foldl_cons, adoptTypes_node? rest, adoptType_node?]

end Lowering.Pass

/-! ## Where body values go -/

namespace Lowering.Ir.Model

/-- Whether a splice copies body node `n`: it exists and is neither a parameter nor a result. -/
def copies (B : Model) (n : Nat) : Bool :=
  (B.graph.node? n).elim false fun nd => !nd.op.isResult && !B.parameters.contains n

/-- The number of body nodes a splice copies. -/
def copyCount (B : Model) : Nat := (List.range B.graph.size).countP B.copies

/-- Where a splice sends a body value, when the copy of each copied node `n` is node `c n`: an
output of the `i`-th parameter goes to the `i`-th caller value, an output of another node to the
same output of its copy. -/
def spliced (B : Model) (inputs : List Handle) (c : Nat → Nat) (v : Handle) : Handle :=
  if v.node ∈ B.parameters then inputs.getD (B.parameters.idxOf v.node) default else ⟨c v.node, v.output⟩

/-- A result is answered in a splice when the value it reads is an output of a parameter or of a
copied node. -/
def Answers (B : Model) (res : Nat) : Prop :=
  ∃ v, B.graph.inputValue res = some v ∧ (v.node ∈ B.parameters ∨ B.copies v.node = true)

variable {B : Model} {n : Nat}

theorem copies_iff : B.copies n = true ↔ ∃ nd, B.graph.node? n = some nd ∧ nd.op ≠ .result ∧ n ∉ B.parameters := by
  unfold copies
  cases B.graph.node? n with
  | none => simp
  | some nd => simp [← Op.isResult_iff]

theorem lt_size_of_copies (copied : B.copies n = true) : n < B.graph.size := by
  obtain ⟨nd, found, -⟩ := copies_iff.mp copied
  exact Graph.lt_size_of_node? found

/-- Every output of the `i`-th parameter goes to the `i`-th caller value. -/
theorem spliced_parameter (distinct : B.parameters.Nodup) (inputs : List Handle) (c : Nat → Nat) {i : Nat}
    (bound : i < B.parameters.length) (p : Nat) :
    B.spliced inputs c ⟨B.parameters[i], p⟩ = inputs.getD i default := by
  simp [spliced, distinct.idxOf_getElem]

end Lowering.Ir.Model

namespace Lowering.Pass

open Lowering.Ir

section Zip

variable {params : List Nat} {inputs : List Handle}

/-- A pair of distinct parameters and caller values holds the caller value at its parameter's
position. -/
theorem getD_idxOf_of_mem_zip (distinct : params.Nodup) {a : Nat} {b : Handle}
    (member : (a, b) ∈ params.zip inputs) : inputs.getD (params.idxOf a) default = b := by
  induction params generalizing inputs with
  | nil => simp at member
  | cons p ps inductionHypothesis =>
    cases inputs with
    | nil => simp at member
    | cons i is =>
      obtain ⟨fresh, restDistinct⟩ := List.nodup_cons.mp distinct
      rcases List.mem_cons.mp member with same | later
      · cases same
        simp
      · have differs : a ≠ p := fun same => fresh (same ▸ (List.of_mem_zip later).1)
        rw [List.idxOf_cons, beq_false_of_ne (Ne.symm differs), cond_false, List.getD_cons_succ]
        exact inductionHypothesis restDistinct later

theorem mem_zip_idxOf (arity : inputs.length = params.length) {a : Nat} (member : a ∈ params) :
    (a, inputs.getD (params.idxOf a) default) ∈ params.zip inputs := by
  have bound : params.idxOf a < params.length := List.idxOf_lt_length_of_mem member
  have bound' : params.idxOf a < inputs.length := arity ▸ bound
  have within : params.idxOf a < (params.zip inputs).length := by simp [bound, bound']
  have pair : (params.zip inputs)[params.idxOf a] = (a, inputs.getD (params.idxOf a) default) := by
    simp [List.getElem_zip, List.getElem_idxOf bound, bound']
  exact pair ▸ List.getElem_mem within

end Zip

/-- The relocation a splice of `B` on `inputs` holds once the nodes `ns` are copied, the copy of
`n` being node `c n`. -/
def spliceRelocation (B : Model) (inputs : List Handle) (c : Nat → Nat) (ns : List Nat) : Relocation :=
  { replaced := B.parameters.zip inputs, copied := ns.map fun n => (n, c n) }

variable {B : Model} {inputs : List Handle} {c : Nat → Nat}

/-- The place recorded for a copied node is its place under `c`. -/
theorem find?_copied {ns : List Nat} {m : Nat} (member : m ∈ ns) :
    (ns.map fun n => (n, c n)).find? (·.1 == m) = some (m, c m) := by
  have hit : ((ns.map fun n => (n, c n)).find? (·.1 == m)).isSome :=
    List.find?_isSome.mpr ⟨(m, c m), List.mem_map.mpr ⟨m, member, rfl⟩, by simp⟩
  obtain ⟨q, found⟩ := Option.isSome_iff_exists.mp hit
  obtain ⟨k, -, rfl⟩ := List.mem_map.mp (List.mem_of_find?_eq_some found)
  have same : k = m := by simpa using List.find?_some found
  rw [found, same]

section Relocate

theorem replacement?_spliceRelocation (distinct : B.parameters.Nodup)
    (arity : inputs.length = B.parameters.length) (ns : List Nat) (n : Nat) :
    (spliceRelocation B inputs c ns).replacement? n =
      if n ∈ B.parameters then some (inputs.getD (B.parameters.idxOf n) default) else none := by
  unfold Relocation.replacement? spliceRelocation
  split
  · rename_i member
    -- the one pair for `n` is the one found
    have hit : ((B.parameters.zip inputs).reverse.find? (·.1 == n)).isSome :=
      List.find?_isSome.mpr ⟨_, List.mem_reverse.mpr (mem_zip_idxOf arity member), by simp⟩
    obtain ⟨⟨a, b⟩, found⟩ := Option.isSome_iff_exists.mp hit
    have sameNode : a = n := by simpa using List.find?_some found
    subst sameNode
    have inZip : (a, b) ∈ B.parameters.zip inputs := List.mem_reverse.mp (List.mem_of_find?_eq_some found)
    rw [found, Option.map_some, getD_idxOf_of_mem_zip distinct inZip]
  · rename_i absent
    rw [List.find?_eq_none.mpr fun q inZip same => absent ?_, Option.map_none]
    have sameNode : q.1 = n := by simpa using same
    exact sameNode ▸ (List.of_mem_zip (List.mem_reverse.mp inZip)).1

theorem isReplaced_spliceRelocation (arity : inputs.length = B.parameters.length) (ns : List Nat) (n : Nat) :
    (spliceRelocation B inputs c ns).isReplaced n = decide (n ∈ B.parameters) := by
  unfold Relocation.isReplaced spliceRelocation
  by_cases member : n ∈ B.parameters
  · rw [decide_eq_true member]
    exact List.any_eq_true.mpr ⟨_, mem_zip_idxOf arity member, by simp⟩
  · rw [decide_eq_false member]
    refine List.any_eq_false.mpr fun q inZip same => member ?_
    have sameNode : q.1 = n := by simpa using same
    exact sameNode ▸ (List.of_mem_zip inZip).1

/-- A value of a parameter or of a copied node goes where `Model.spliced` says. -/
theorem relocate_spliceRelocation (distinct : B.parameters.Nodup) (arity : inputs.length = B.parameters.length)
    {ns : List Nat} {v : Handle} (known : v.node ∈ B.parameters ∨ v.node ∈ ns) :
    (spliceRelocation B inputs c ns).relocate B.graph v = .ok (B.spliced inputs c v) := by
  unfold Relocation.relocate
  rw [replacement?_spliceRelocation distinct arity]
  by_cases member : v.node ∈ B.parameters
  · simp [member, Model.spliced]
  · have found := find?_copied (c := c) (known.resolve_left member)
    simp [member, spliceRelocation, found, Model.spliced]

/-- A value of a node that is neither a parameter nor copied has nowhere to go. -/
theorem relocate_spliceRelocation_stuck (distinct : B.parameters.Nodup)
    (arity : inputs.length = B.parameters.length) {ns : List Nat} {v : Handle}
    (notParameter : v.node ∉ B.parameters) (notCopied : v.node ∉ ns) (y : Handle) :
    (spliceRelocation B inputs c ns).relocate B.graph v ≠ .ok y := by
  unfold Relocation.relocate
  rw [replacement?_spliceRelocation distinct arity, if_neg notParameter]
  have missing : (spliceRelocation B inputs c ns).copied.find? (·.1 == v.node) = none := by
    refine List.find?_eq_none.mpr fun q member same => notCopied ?_
    obtain ⟨k, inNodes, rfl⟩ := List.mem_map.mp member
    have sameNode : k = v.node := by simpa using same
    exact sameNode ▸ inNodes
  simp [missing]

end Relocate

/-- The only failure of a relocation is a value with nowhere to go. -/
theorem Relocation.relocate_error {r : Relocation} {body : Graph} {v : Handle} {e : LowerError}
    (failed : r.relocate body v = .error e) : ∃ name, e = .noOutput name v.output := by
  unfold Relocation.relocate at failed
  split at failed
  · cases failed
  · split at failed
    · cases failed
    · cases failed
      exact ⟨_, rfl⟩

/-- A `mapM` in `Except` whose every call succeeds with the value `g` gives, and that skips no
member, succeeds with those values. -/
theorem mapM_eq_ok_filterMap {ε α β : Type} {f : α → Except ε β} {g : α → Option β} :
    ∀ {xs : List α}, (∀ x ∈ xs, ∃ y, g x = some y ∧ f x = .ok y) → xs.mapM f = .ok (xs.filterMap g)
  | [], _ => rfl
  | x :: xs, each => by
    obtain ⟨y, some, head⟩ := each x List.mem_cons_self
    have tail := mapM_eq_ok_filterMap fun x' member => each x' (List.mem_cons_of_mem x member)
    rw [List.mapM_cons, head, tail, List.filterMap_cons_some some]
    rfl

/-- A `mapM` in `Except` with a call that does not succeed fails, with the error of a call. -/
theorem mapM_eq_error {ε α β : Type} {f : α → Except ε β} {P : ε → Prop} :
    ∀ {xs : List α}, (∀ x ∈ xs, ∀ e, f x = .error e → P e) → (∃ x ∈ xs, ∀ y, f x ≠ .ok y) →
      ∃ e, xs.mapM f = .error e ∧ P e
  | [], _, ⟨_, member, _⟩ => absurd member List.not_mem_nil
  | x :: xs, errors, ⟨x', member, stuck⟩ => by
    rw [List.mapM_cons]
    cases head : f x with
    | error e => exact ⟨e, rfl, errors x List.mem_cons_self e head⟩
    | ok y =>
      -- the call that does not succeed is a later one
      have later : x' ∈ xs := by
        rcases List.mem_cons.mp member with rfl | later
        · exact absurd head (stuck y)
        · exact later
      obtain ⟨e, tail, holds⟩ := mapM_eq_error (fun x' member => errors x' (List.mem_cons_of_mem x member))
        ⟨x', later, stuck⟩
      exact ⟨e, by rw [tail]; rfl, holds⟩

/-! ## The copy -/

/-- What copying the nodes `ns` of a body onto `g` leaves in `g'`: the nodes of `g`, and after them
a copy of each copied node of `ns`, the copy of `n` at the place `c n` and reading the images of
its inputs. -/
structure Copied (B : Model) (inputs : List Handle) (c : Nat → Nat) (g : Graph) (ns : List Nat)
    (g' : Graph) : Prop where
  size : g'.size = g.size + (ns.filter B.copies).length
  old : ∀ m < g.size, g'.node? m = g.node? m
  copy : ∀ n ∈ ns, ∀ nd, B.graph.node? n = some nd → B.copies n = true →
    g'.node? (c n) = some { nd with inputs := nd.inputs.map (B.spliced inputs c) }

namespace Copied

variable {g g' : Graph} {n : Nat} {ns : List Nat}

theorem nil (g : Graph) : Copied B inputs c g [] g :=
  ⟨by simp, fun _ _ => rfl, fun _ member => absurd member List.not_mem_nil⟩

/-- A node not copied adds nothing. -/
theorem skip (copied : Copied B inputs c g ns g') (skipped : B.copies n = false) :
    Copied B inputs c g (n :: ns) g' := by
  refine ⟨by simp [copied.size, skipped], copied.old, fun m member nd found copies => ?_⟩
  rcases List.mem_cons.mp member with rfl | later
  · rw [skipped] at copies
    cases copies
  · exact copied.copy m later nd found copies

/-- A copied node goes right after the nodes of `g`, and the rest after it. -/
theorem cons {nd : Node} (found : B.graph.node? n = some nd) (placed : c n = g.size)
    (copied : Copied B inputs c (g.addNode nd.name nd.op (nd.inputs.map (B.spliced inputs c)) nd.outputs).1 ns g')
    (copies : B.copies n = true) : Copied B inputs c g (n :: ns) g' := by
  have grown := Graph.size_addNode (g := g) nd.name nd.op (nd.inputs.map (B.spliced inputs c)) nd.outputs
  refine ⟨by simp [copied.size, copies, grown]; omega, fun m bound => ?_, fun m member nd' found' copies' => ?_⟩
  · rw [copied.old m (by omega), Graph.node?_addNode_of_lt _ _ _ _ bound]
  · rcases List.mem_cons.mp member with rfl | later
    · rw [found] at found'
      cases found'
      rw [placed, copied.old g.size (by omega), Graph.node?_addNode_self]
    · exact copied.copy m later nd' found' copies'

end Copied

/-- Copying the part `post` of an order without repeats appends the copies of its copied nodes
and ends with every copied node of the order relocated, when the copy of each node goes to the
next free place and each input of a copied node reads a parameter or a node copied before. -/
theorem copyNodes_spec (distinct : B.parameters.Nodup) (arity : inputs.length = B.parameters.length) :
    ∀ (pre post : List Nat) (g : Graph), (pre ++ post).Nodup →
      (∀ n ∈ post, B.copies n = true → c n = g.size + (post.filter B.copies).idxOf n) →
      (∀ front n back, post = front ++ n :: back → B.copies n = true → ∀ h ∈ B.graph.inputs n,
        h.node ∈ B.parameters ∨ h.node ∈ (pre ++ front).filter B.copies) →
      Copied B inputs c g post (copyNodes B.graph post (g, spliceRelocation B inputs c (pre.filter B.copies))).1 ∧
        (copyNodes B.graph post (g, spliceRelocation B inputs c (pre.filter B.copies))).2 =
          .ok (spliceRelocation B inputs c ((pre ++ post).filter B.copies))
  | pre, [], g, _, _, _ => ⟨Copied.nil g, by simp [copyNodes]⟩
  | pre, n :: rest, g, nodup, placed, ordered => by
    have nodup' : (pre ++ [n] ++ rest).Nodup := by simpa using nodup
    have fresh : n ∉ rest := (List.nodup_cons.mp (List.nodup_append.mp nodup).2.1).1
    have orderedRest : ∀ front m back, rest = front ++ m :: back → B.copies m = true →
        ∀ h ∈ B.graph.inputs m, h.node ∈ B.parameters ∨ h.node ∈ (pre ++ [n] ++ front).filter B.copies := by
      intro front m back split copies h member
      simpa using ordered (n :: front) m back (by simp [split]) copies h member
    have reordered : pre ++ [n] ++ rest = pre ++ n :: rest := by simp
    -- a node that is not copied leaves the state as it is
    have skip : B.copies n = false → Copied B inputs c g (n :: rest)
          (copyNodes B.graph rest (g, spliceRelocation B inputs c (pre.filter B.copies))).1 ∧
        (copyNodes B.graph rest (g, spliceRelocation B inputs c (pre.filter B.copies))).2 =
          .ok (spliceRelocation B inputs c ((pre ++ n :: rest).filter B.copies)) := by
      intro skipped
      have placed' : ∀ m ∈ rest, B.copies m = true → c m = g.size + (rest.filter B.copies).idxOf m := by
        intro m member copies
        simpa [skipped] using placed m (List.mem_cons_of_mem n member) copies
      have same : (pre ++ [n]).filter B.copies = pre.filter B.copies := by simp [skipped]
      obtain ⟨copied, done⟩ := copyNodes_spec distinct arity (pre ++ [n]) rest g nodup' placed' orderedRest
      rw [same, reordered] at *
      exact ⟨copied.skip skipped, done⟩
    simp only [copyNodes]
    cases found : B.graph.node? n with
    | none => exact skip (by simp [Model.copies, found])
    | some nd =>
      simp only
      split
      · rename_i skipped
        rw [isReplaced_spliceRelocation arity] at skipped
        refine skip ?_
        rcases Bool.or_eq_true_iff.mp skipped with parameter | result
        · simp [Model.copies, found, of_decide_eq_true parameter]
        · simp [Model.copies, found, result]
      · rename_i kept
        rw [isReplaced_spliceRelocation arity] at kept
        simp only [Bool.or_eq_true, decide_eq_true_eq, not_or, Bool.not_eq_true] at kept
        have copies : B.copies n = true := by simp [Model.copies, found, kept.1, kept.2]
        -- every input reads a parameter or a node copied before, so it relocates
        have mapped : nd.inputs.mapM ((spliceRelocation B inputs c (pre.filter B.copies)).relocate B.graph) =
            .ok (nd.inputs.map (B.spliced inputs c)) := by
          rw [← List.filterMap_eq_map]
          refine mapM_eq_ok_filterMap fun h member => ⟨_, rfl, ?_⟩
          refine relocate_spliceRelocation distinct arity ?_
          simpa using ordered [] n rest rfl copies h (Graph.mem_inputs.mpr ⟨nd, found, member⟩)
        rw [mapped]
        simp only
        have first : c n = g.size := by simpa [copies] using placed n List.mem_cons_self copies
        have recorded : { spliceRelocation B inputs c (pre.filter B.copies) with
              copied := (spliceRelocation B inputs c (pre.filter B.copies)).copied ++ [(n, g.size)] } =
            spliceRelocation B inputs c ((pre ++ [n]).filter B.copies) := by
          simp [spliceRelocation, copies, first]
        rw [Graph.addNode_index, recorded]
        have placed' : ∀ m ∈ rest, B.copies m = true → c m =
            (g.addNode nd.name nd.op (nd.inputs.map (B.spliced inputs c)) nd.outputs).1.size +
              (rest.filter B.copies).idxOf m := by
          intro m member copies'
          have differs : n ≠ m := fun same => fresh (same ▸ member)
          rw [placed m (List.mem_cons_of_mem n member) copies', Graph.size_addNode,
            List.filter_cons_of_pos copies, List.idxOf_cons, beq_false_of_ne differs, cond_false]
          omega
        obtain ⟨copied, done⟩ := copyNodes_spec distinct arity (pre ++ [n]) rest _ nodup' placed' orderedRest
        rw [reordered] at done
        exact ⟨copied.cons found first copies, done⟩

end Lowering.Pass

namespace Lowering.Ir

open Lowering.Pass

/-- Places after `base` in the order of a list without repeats: a bijection from its members onto
as many places. -/
theorem bijOn_idxOf {L : List Nat} (nodup : L.Nodup) (base : Nat) :
    Set.BijOn (fun n => base + L.idxOf n) {n | n ∈ L} (Set.Ico base (base + L.length)) := by
  refine ⟨fun n member => ?_, fun a member b member' same => ?_, fun j within => ?_⟩
  · have bound : L.idxOf n < L.length := List.idxOf_lt_length_of_mem member
    exact Set.mem_Ico.mpr ⟨Nat.le_add_right base _, Nat.add_lt_add_left bound base⟩
  · have bound : L.idxOf a < L.length := List.idxOf_lt_length_of_mem member
    have bound' : L.idxOf b < L.length := List.idxOf_lt_length_of_mem member'
    have sameIndex : L.idxOf a = L.idxOf b := by simpa using same
    calc a = L[L.idxOf a] := (List.getElem_idxOf bound).symm
      _ = L[L.idxOf b] := by simp only [sameIndex]
      _ = b := List.getElem_idxOf bound'
  · obtain ⟨low, high⟩ := within
    have bound : j - base < L.length := by omega
    refine ⟨L[j - base], List.getElem_mem bound, ?_⟩
    simp only [nodup.idxOf_getElem]
    omega

variable {B : Model}

/-- The copied nodes in the order of the search of an acyclic body are all its copied nodes. -/
theorem mem_copiedOrder (acyclic : B.graph.Acyclic) {n : Nat} :
    n ∈ B.graph.searchOrder.filter B.copies ↔ B.copies n = true := by
  obtain ⟨-, covers, -⟩ := Graph.searchOrder_spec_of_acyclic acyclic
  rw [List.mem_filter, covers]
  exact ⟨fun both => both.2, fun copied => ⟨Model.lt_size_of_copies copied, copied⟩⟩

theorem copyCount_eq (acyclic : B.graph.Acyclic) :
    B.copyCount = (B.graph.searchOrder.filter B.copies).length := by
  obtain ⟨nodup, covers, -⟩ := Graph.searchOrder_spec_of_acyclic acyclic
  have perm : B.graph.searchOrder.Perm (List.range B.graph.size) :=
    (List.perm_ext_iff_of_nodup nodup List.nodup_range).mpr fun n => by rw [covers, List.mem_range]
  rw [Model.copyCount, ← perm.countP_eq, List.countP_eq_length_filter]

/-- In the order of the search of an acyclic body whose nodes other than results read no result,
each input of a copied node reads a parameter or a copied node that comes before it. -/
theorem copied_inputs_before (linked : B.graph.Linked) (acyclic : B.graph.Acyclic)
    (unread : ∀ n nd, B.graph.node? n = some nd → nd.op ≠ .result →
      ∀ h ∈ nd.inputs, ¬ B.graph.HasOp h.node .result)
    {front back : List Nat} {n : Nat} (split : B.graph.searchOrder = front ++ n :: back)
    (copied : B.copies n = true) {h : Handle} (member : h ∈ B.graph.inputs n) :
    h.node ∈ B.parameters ∨ h.node ∈ front.filter B.copies := by
  obtain ⟨nodup, covers, closed⟩ := Graph.searchOrder_spec_of_acyclic acyclic
  obtain ⟨nd, found, notResult, -⟩ := Model.copies_iff.mp copied
  obtain ⟨nd₀, found₀, inNode⟩ := Graph.mem_inputs.mp member
  rw [found] at found₀
  cases found₀
  have inOrder : h.node ∈ B.graph.searchOrder := (covers _).mpr (linked n h member)
  have edge : n ∈ B.graph.successors.getD h.node [] :=
    Graph.mem_successors.mpr ⟨linked n h member, Graph.lt_size_of_node? found, h, member, rfl⟩
  rw [split] at nodup closed inOrder
  -- the order is closed under successors, so what `n` reads comes before it
  have before : h.node ∈ front := closed.mem_before nodup inOrder edge
  by_cases parameter : h.node ∈ B.parameters
  · exact .inl parameter
  · obtain ⟨nd', found'⟩ := Graph.exists_node?_of_lt (linked n h member)
    have notResult' : nd'.op ≠ .result := fun isResult =>
      unread n nd found notResult h inNode ⟨nd', found', isResult⟩
    exact .inr (List.mem_filter.mpr ⟨before, Model.copies_iff.mpr ⟨nd', found', notResult', parameter⟩⟩)

/-- A splice of a body with distinct parameters, an acyclic graph whose inputs read its own nodes,
and whose nodes other than results read no result, on values the caller has, as every splice is
given. With a wrong count of values it fails and
leaves the graph as it is. Otherwise it writes known types back onto the caller's parameters
(`adoptedNode`), appends one copy of each copied body node (`Model.copies`) after the old nodes,
the copy of `n` at `c n`, reading the images of `n`'s inputs (`Model.spliced`); and it answers with
the images of the values the results read when each result is answered (`Model.Answers`), else
it fails with a value that has nowhere to go. -/
theorem splice_effect (distinct : B.parameters.Nodup) (linked : B.graph.Linked) (acyclic : B.graph.Acyclic)
    (unread : ∀ n nd, B.graph.node? n = some nd → nd.op ≠ .result →
      ∀ h ∈ nd.inputs, ¬ B.graph.HasOp h.node .result)
    (G : Graph) (opType : String) (inputs : List Handle) (_present : ∀ h ∈ inputs, G.hasOutput h = true) :
    (inputs.length ≠ B.parameters.length →
      G.splice B opType inputs = (G, .error (.bodyArity opType B.parameters.length inputs.length))) ∧
    (inputs.length = B.parameters.length → ∃ c : Nat → Nat,
      (G.splice B opType inputs).1.size = G.size + B.copyCount ∧
      Set.BijOn c {n | B.copies n = true} (Set.Ico G.size (G.size + B.copyCount)) ∧
      (∀ n nd, B.graph.node? n = some nd → B.copies n = true →
        (G.splice B opType inputs).1.node? (c n) = some { nd with inputs := nd.inputs.map (B.spliced inputs c) }) ∧
      (∀ m < G.size, (G.splice B opType inputs).1.node? m =
        (G.node? m).map (adoptedNode B.graph (B.parameters.zip inputs) m)) ∧
      ((∀ res ∈ B.results, B.Answers res) → (G.splice B opType inputs).2 =
        .ok (B.results.filterMap fun res => (B.graph.inputValue res).map (B.spliced inputs c))) ∧
      ((∃ res ∈ B.results, ¬ B.Answers res) →
        ∃ name p, (G.splice B opType inputs).2 = .error (.noOutput name p))) := by
  constructor
  · intro differs
    unfold Graph.splice
    rw [if_pos (Ne.symm differs)]
  intro arity
  obtain ⟨nodup, covers, -⟩ := Graph.searchOrder_spec_of_acyclic acyclic
  have adoptedSize : ((B.parameters.zip inputs).foldl (adoptType B.graph) G).size = G.size :=
    (Graph.retagged_adoptTypes B.graph _ G).size_eq
  -- the copy of a node goes to its place among the copied nodes, in the order of the search
  let c : Nat → Nat := fun n => G.size + (B.graph.searchOrder.filter B.copies).idxOf n
  obtain ⟨copied, done⟩ := copyNodes_spec (c := c) distinct arity [] B.graph.searchOrder
    ((B.parameters.zip inputs).foldl (adoptType B.graph) G) (by simpa using nodup)
    (fun n _ _ => by simp [c, adoptedSize])
    (fun _ _ _ split copied _ member => by simpa using copied_inputs_before linked acyclic unread split copied member)
  change Copied B inputs c _ _
    (copyNodes B.graph B.graph.searchOrder (_, { replaced := B.parameters.zip inputs })).1 at copied
  have pair : copyNodes B.graph B.graph.searchOrder
      ((B.parameters.zip inputs).foldl (adoptType B.graph) G, { replaced := B.parameters.zip inputs }) =
      ((copyNodes B.graph B.graph.searchOrder
          ((B.parameters.zip inputs).foldl (adoptType B.graph) G, { replaced := B.parameters.zip inputs })).1,
        .ok (spliceRelocation B inputs c (B.graph.searchOrder.filter B.copies))) :=
    Prod.ext rfl done
  unfold Graph.splice
  rw [if_neg fun differs => differs arity.symm]
  dsimp only
  rw [Graph.topoOrder_of_acyclic linked acyclic]
  dsimp only
  rw [pair]
  dsimp only
  refine ⟨c, ?_, ?_, ?_, ?_, ?_, ?_⟩
  · rw [copied.size, adoptedSize, copyCount_eq acyclic]
  · have sameSet : {n | B.copies n = true} = {n | n ∈ B.graph.searchOrder.filter B.copies} :=
      Set.ext fun n => (mem_copiedOrder acyclic).symm
    rw [sameSet, copyCount_eq acyclic]
    exact bijOn_idxOf (nodup.sublist List.filter_sublist) G.size
  · intro n nd found copies
    exact copied.copy n ((covers n).mpr (Model.lt_size_of_copies copies)) nd found copies
  · intro m bound
    rw [copied.old m (by omega), adoptTypes_node?]
  · intro answers
    refine mapM_eq_ok_filterMap fun res member => ?_
    obtain ⟨v, value, known⟩ := answers res member
    refine ⟨_, by rw [value]; rfl, ?_⟩
    rw [value]
    exact relocate_spliceRelocation distinct arity (known.imp_right (mem_copiedOrder acyclic).mpr)
  · rintro ⟨res, member, unanswered⟩
    refine (mapM_eq_error (P := fun e : LowerError => ∃ name p, e = .noOutput name p) ?_
      ⟨res, member, ?_⟩).elim fun e ⟨failed, name, p, same⟩ => ⟨name, p, same ▸ failed⟩
    · intro res' _ e failed
      split at failed
      · obtain ⟨name, rfl⟩ := Relocation.relocate_error failed
        exact ⟨name, _, rfl⟩
      · cases failed
        exact ⟨_, 0, rfl⟩
    · intro y
      cases value : B.graph.inputValue res with
      | none => simp
      | some v =>
        simp only
        have neither : v.node ∉ B.parameters ∧ B.copies v.node ≠ true := by
          simpa [Model.Answers, value, not_or] using unanswered
        exact relocate_spliceRelocation_stuck distinct arity neither.1
          (fun inList => neither.2 ((mem_copiedOrder acyclic).mp inList)) y

/-- A body on two parameters, of types `f32` and `i32`, that adds them; its one result reads the
sum. -/
def sumBody : Model where
  name := "body"
  graph := { nodes := #[⟨"", .parameter, [{ elementType := .f32 }], []⟩,
    ⟨"", .parameter, [{ elementType := .i32 }], []⟩,
    ⟨"sum", .op "Add" [], [{}], [⟨0, 0⟩, ⟨1, 0⟩]⟩,
    ⟨"out", .result, [{}], [⟨2, 0⟩]⟩] }
  parameters := [0, 1]
  results := [3]

/-- A caller graph with one parameter of unknown element type. -/
def untypedCaller : Graph := { nodes := #[⟨"x", .parameter, [{}], []⟩] }

/-- One caller value for both parameters of `sumBody`. -/
theorem splice_effect_shared :
    sumBody.parameters.Nodup ∧ sumBody.graph.Linked ∧ sumBody.graph.Acyclic ∧
      (∀ n nd, sumBody.graph.node? n = some nd → nd.op ≠ .result →
        ∀ h ∈ nd.inputs, ¬ sumBody.graph.HasOp h.node .result) ∧
      (∀ h ∈ ([⟨0, 0⟩, ⟨0, 0⟩] : List Handle), untypedCaller.hasOutput h = true) ∧
      (([⟨0, 0⟩, ⟨0, 0⟩] : List Handle).length ≠ sumBody.parameters.length →
        untypedCaller.splice sumBody "Sum" [⟨0, 0⟩, ⟨0, 0⟩] =
          (untypedCaller, .error (.bodyArity "Sum" sumBody.parameters.length 2))) ∧
      (([⟨0, 0⟩, ⟨0, 0⟩] : List Handle).length = sumBody.parameters.length → ∃ c : Nat → Nat,
        (untypedCaller.splice sumBody "Sum" [⟨0, 0⟩, ⟨0, 0⟩]).1.size = untypedCaller.size + sumBody.copyCount ∧
        Set.BijOn c {n | sumBody.copies n = true}
          (Set.Ico untypedCaller.size (untypedCaller.size + sumBody.copyCount)) ∧
        (∀ n nd, sumBody.graph.node? n = some nd → sumBody.copies n = true →
          (untypedCaller.splice sumBody "Sum" [⟨0, 0⟩, ⟨0, 0⟩]).1.node? (c n) =
            some { nd with inputs := nd.inputs.map (sumBody.spliced [⟨0, 0⟩, ⟨0, 0⟩] c) }) ∧
        (∀ m < untypedCaller.size, (untypedCaller.splice sumBody "Sum" [⟨0, 0⟩, ⟨0, 0⟩]).1.node? m =
          (untypedCaller.node? m).map (adoptedNode sumBody.graph (sumBody.parameters.zip [⟨0, 0⟩, ⟨0, 0⟩]) m)) ∧
        ((∀ res ∈ sumBody.results, sumBody.Answers res) →
          (untypedCaller.splice sumBody "Sum" [⟨0, 0⟩, ⟨0, 0⟩]).2 = .ok (sumBody.results.filterMap fun res =>
            (sumBody.graph.inputValue res).map (sumBody.spliced [⟨0, 0⟩, ⟨0, 0⟩] c))) ∧
        ((∃ res ∈ sumBody.results, ¬ sumBody.Answers res) →
          ∃ name p, (untypedCaller.splice sumBody "Sum" [⟨0, 0⟩, ⟨0, 0⟩]).2 = .error (.noOutput name p))) := by
  have ordered := (Graph.topoOrder_isSome_iff (g := sumBody.graph)).mp (by decide)
  have unread : ∀ n nd, sumBody.graph.node? n = some nd → nd.op ≠ .result →
      ∀ h ∈ nd.inputs, ¬ sumBody.graph.HasOp h.node .result := by
    rintro n nd found notResult h member ⟨nd', found', isResult⟩
    rcases n with _ | _ | _ | _ | n <;> simp [sumBody, Graph.node?] at found <;> subst found <;>
      simp at member notResult
    rcases member with rfl | rfl <;> simp [sumBody, Graph.node?] at found' <;> subst found' <;> simp at isResult
  have present : ∀ h ∈ ([⟨0, 0⟩, ⟨0, 0⟩] : List Handle), untypedCaller.hasOutput h = true := by decide
  exact ⟨by decide, ordered.1, ordered.2, unread, present,
    splice_effect (by decide) ordered.1 ordered.2 unread untypedCaller "Sum" [⟨0, 0⟩, ⟨0, 0⟩] present⟩

/-- A body whose result reads another result: parameter `0` of type `f32`, result `first` reading
it, and result `second`, the body's one result, reading `first`. -/
def resultChain : Model where
  name := "body"
  graph := { nodes := #[⟨"", .parameter, [{ elementType := .f32 }], []⟩,
    ⟨"first", .result, [{ elementType := .f32 }], [⟨0, 0⟩]⟩,
    ⟨"second", .result, [{ elementType := .f32 }], [⟨1, 0⟩]⟩] }
  parameters := [0]
  results := [2]

/-- A body may chain results and still have distinct parameters, an acyclic graph, an input on
every result and no other node reading a result; a splice of it on as many existing values as it
has parameters fails all the same, since the value of a result has nowhere to go. -/
theorem splice_fails_on_result_chain :
    resultChain.parameters.Nodup ∧ resultChain.graph.Acyclic ∧
      (∀ n nd, resultChain.graph.node? n = some nd → nd.op = .result → nd.inputs ≠ []) ∧
      (∀ n nd, resultChain.graph.node? n = some nd → nd.op ≠ .result →
        ∀ h ∈ nd.inputs, ¬ resultChain.graph.HasOp h.node .result) ∧
      untypedCaller.hasOutput ⟨0, 0⟩ ∧
      (untypedCaller.splice resultChain "Body" [⟨0, 0⟩]).2 = .error (.noOutput "first" 0) := by
  refine ⟨by decide, ((Graph.topoOrder_isSome_iff (g := resultChain.graph)).mp (by decide)).2, ?_, ?_,
    by decide, rfl⟩
  · intro n nd found isResult
    rcases n with _ | _ | _ | n <;> simp [resultChain, Graph.node?] at found <;> subst found <;> simp_all
  · intro n nd found notResult h member
    rcases n with _ | _ | _ | n <;> simp [resultChain, Graph.node?] at found <;> subst found <;> simp_all

end Lowering.Ir
