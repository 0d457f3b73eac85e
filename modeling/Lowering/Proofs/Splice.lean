import Lowering.Pass.Splice
import Lowering.Proofs.WellFormed

/-! # Splicing keeps a graph well formed

`Graph.splice` copies a translated body into a graph. When the graph and the body are well formed
and the caller's values exist, the spliced graph is well formed, it extends the graph it started
from (a failed splice included), and the values of the call exist in it.

The invariant of the copy is `Relocation.Sound`: every caller value a body parameter stands for
exists, and every copy has at least the outputs of the body node it copies. A body value that
exists in the body then relocates to a value that exists in the graph (`Relocation.relocate_valid`).
`copyNodes_keeps` carries any invariant that one copy keeps through the whole copy loop.
-/

namespace Lowering.Pass

open Lowering.Ir

/-- Each value of a list produced by `mapM` in `Except` is the image of a member of the list. -/
theorem exists_mem_of_mapM_ok {ε α β : Type} {f : α → Except ε β} :
    ∀ {xs : List α} {ys : List β}, xs.mapM f = .ok ys → ∀ y ∈ ys, ∃ x ∈ xs, f x = .ok y
  | [], ys, mapped, y, member => by
    simp only [List.mapM_nil] at mapped
    cases mapped
    cases member
  | x :: xs, ys, mapped, y, member => by
    simp only [List.mapM_cons] at mapped
    cases head : f x with
    | error e => simp [head] at mapped; cases mapped
    | ok z =>
      cases tail : xs.mapM f with
      | error e => simp [head, tail] at mapped; cases mapped
      | ok zs =>
        simp only [head, tail] at mapped
        cases mapped
        rcases List.mem_cons.mp member with isHead | inTail
        · exact ⟨x, List.mem_cons_self, isHead ▸ head⟩
        · obtain ⟨w, wMember, image⟩ := exists_mem_of_mapM_ok tail y inTail
          exact ⟨w, List.mem_cons_of_mem x wMember, image⟩

namespace Relocation

/-- Every caller value the relocation hands out exists in `g`, and every copy in `g` has at least
the outputs of the body node it copies. -/
structure Sound (body g : Graph) (r : Relocation) : Prop where
  replaced : ∀ p ∈ r.replaced, g.hasOutput p.2
  copied : ∀ p ∈ r.copied, ∀ nd, body.node? p.1 = some nd →
    ∀ i < nd.outputs.length, g.hasOutput ⟨p.2, i⟩

variable {body g g' : Graph} {r : Relocation}

theorem Sound.extend (sound : Sound body g r) (grows : g.Extends g') : Sound body g' r :=
  ⟨fun p member => grows.hasOutput (sound.replaced p member),
    fun p member nd found i bound => grows.hasOutput (sound.copied p member nd found i bound)⟩

/-- A value that exists in the body relocates to a value that exists in the graph. -/
theorem relocate_valid (sound : Sound body g r) {v h : Handle} (valid : body.hasOutput v)
    (relocated : r.relocate body v = .ok h) : g.hasOutput h := by
  unfold relocate at relocated
  cases replacement : r.replacement? v.node with
  | some caller =>
    rw [replacement] at relocated
    cases relocated
    obtain ⟨p, found, rfl⟩ := Option.map_eq_some_iff.mp replacement
    exact sound.replaced p (List.mem_reverse.mp (List.mem_of_find?_eq_some found))
  | none =>
    rw [replacement] at relocated
    simp only at relocated
    split at relocated
    · rename_i p copy found
      cases relocated
      have sameNode : p = v.node := by simpa using List.find?_some found
      obtain ⟨nd, bodyFound, bound⟩ := Graph.hasOutput_iff.mp valid
      exact sound.copied (p, copy) (List.mem_of_find?_eq_some found) nd
        (sameNode ▸ bodyFound) v.output bound
    · cases relocated

end Relocation

open Relocation

variable {body g : Graph}

/-- A type is written only over an unknown one, so the caller's value keeps its shape and any known
type. -/
theorem keeps_adoptedType {t : TensorInfo} {bodyType : ElementType}
    (unknown : (t.elementType.isStatic = true) = False) : t.Keeps { t with elementType := bodyType } :=
  ⟨rfl, fun static => absurd static (by simp [unknown])⟩

theorem extends_adoptType (body : Graph) (pair : Nat × Handle) : g.Extends (adoptType body g pair) := by
  obtain ⟨param, input⟩ := pair
  simp only [adoptType]
  split
  · rename_i written
    exact Graph.extends_modifyTensor _ (keeps_adoptedType (by simp_all))
  · exact Graph.Extends.refl g

theorem wellFormed_adoptType (body : Graph) (wellFormed : g.WellFormed) (pair : Nat × Handle) :
    (adoptType body g pair).WellFormed := by
  obtain ⟨param, input⟩ := pair
  simp only [adoptType]
  split
  · rename_i written
    exact wellFormed.modifyTensor _ (keeps_adoptedType (by simp_all))
  · exact wellFormed

/-- Writing the body's types back to caller parameters keeps the graph well formed and grows it. -/
theorem adoptTypes_sound (body : Graph) (pairs : List (Nat × Handle)) (wellFormed : g.WellFormed) :
    (pairs.foldl (adoptType body) g).WellFormed ∧ g.Extends (pairs.foldl (adoptType body) g) := by
  induction pairs generalizing g with
  | nil => exact ⟨wellFormed, Graph.Extends.refl g⟩
  | cons pair rest inductionHypothesis =>
    obtain ⟨restWellFormed, restGrows⟩ := inductionHypothesis (wellFormed_adoptType body wellFormed pair)
    exact ⟨restWellFormed, (extends_adoptType body pair).trans restGrows⟩

/-- What one copy keeps of the graph and the relocation holds after the copy loop, whether the
loop runs to its end or stops at a value that has nowhere to go. -/
theorem copyNodes_keeps (body : Graph) (inv : Graph → Relocation → Prop)
    (copy : ∀ g r n nd ins, inv g r → body.node? n = some nd → nd.op ≠ .result →
      nd.inputs.mapM (r.relocate body) = .ok ins →
      inv (g.addNode nd.name nd.op ins nd.outputs).1 { r with copied := r.copied ++ [(n, g.size)] }) :
    ∀ (order : List Nat) (g : Graph) (r : Relocation), inv g r →
      (∃ r', inv (copyNodes body order (g, r)).1 r') ∧
        ∀ r', (copyNodes body order (g, r)).2 = .ok r' → inv (copyNodes body order (g, r)).1 r'
  | [], g, r, holds => ⟨⟨r, holds⟩, fun r' done => by cases done; exact holds⟩
  | n :: rest, g, r, holds => by
    simp only [copyNodes]
    cases found : body.node? n with
    | none => exact copyNodes_keeps body inv copy rest g r holds
    | some nd =>
      simp only
      split
      · exact copyNodes_keeps body inv copy rest g r holds
      · rename_i kept
        cases mapped : nd.inputs.mapM (r.relocate body) with
        | error e => exact ⟨⟨r, holds⟩, fun r' done => by cases done⟩
        | ok ins =>
          have notResult : nd.op ≠ .result := fun isResult => kept (by simp [Op.isResult_iff.mpr isResult])
          exact copyNodes_keeps body inv copy rest _ _ (copy g r n nd ins holds found notResult mapped)

/-- One copy reads relocated body values, which exist, so it keeps the graph well formed, grows it,
and keeps the relocation sound with the copy recorded. -/
theorem copyNode_sound (bodyWellFormed : body.WellFormed) {r : Relocation} {n : Nat} {nd : Node}
    {ins : List Handle} (wellFormed : g.WellFormed) (sound : Sound body g r)
    (found : body.node? n = some nd) (notResult : nd.op ≠ .result)
    (mapped : nd.inputs.mapM (r.relocate body) = .ok ins) :
    (g.addNode nd.name nd.op ins nd.outputs).1.WellFormed ∧
      g.Extends (g.addNode nd.name nd.op ins nd.outputs).1 ∧
      Sound body (g.addNode nd.name nd.op ins nd.outputs).1
        { r with copied := r.copied ++ [(n, g.size)] } := by
  have insValid : ∀ h ∈ ins, g.hasOutput h := by
    intro h member
    obtain ⟨v, inBody, relocated⟩ := exists_mem_of_mapM_ok mapped h member
    exact relocate_valid sound ((bodyWellFormed.inputs n nd found v inBody).2) relocated
  have grows := Graph.extends_addNode (g := g) nd.name nd.op ins nd.outputs
  have grown := sound.extend grows
  refine ⟨wellFormed.addNode insValid (fun isResult => absurd isResult notResult), grows,
    grown.replaced, ?_⟩
  intro p member bodyNode bodyFound i bound
  rcases List.mem_append.mp member with old | new
  · exact grown.copied p old bodyNode bodyFound i bound
  · rw [List.mem_singleton.mp new] at bodyFound ⊢
    rw [found] at bodyFound
    cases bodyFound
    exact Graph.hasOutput_addNode_self _ _ _ _ bound

/-- Copying body nodes keeps the graph well formed, grows it, and keeps the relocation sound. -/
theorem copyNodes_sound (bodyWellFormed : body.WellFormed) :
    ∀ (order : List Nat) (g : Graph) (r : Relocation), g.WellFormed → Sound body g r →
      (copyNodes body order (g, r)).1.WellFormed ∧ g.Extends (copyNodes body order (g, r)).1 ∧
        ∀ r', (copyNodes body order (g, r)).2 = .ok r' → Sound body (copyNodes body order (g, r)).1 r' := by
  intro order g r wellFormed sound
  have kept := copyNodes_keeps body (fun g' r' => g'.WellFormed ∧ g.Extends g' ∧ Sound body g' r')
    ?copy order g r ⟨wellFormed, Graph.Extends.refl g, sound⟩
  · obtain ⟨⟨-, copiedWellFormed, copiedGrows, -⟩, copiedSound⟩ := kept
    exact ⟨copiedWellFormed, copiedGrows, fun r' done => (copiedSound r' done).2.2⟩
  · -- growth from the start composes with the growth of each copy
    rintro g' r' n nd ins ⟨held, grown, sound'⟩ found notResult mapped
    obtain ⟨wellFormed', grows, copied⟩ := copyNode_sound bodyWellFormed held sound' found notResult mapped
    exact ⟨wellFormed', grown.trans grows, copied⟩

/-- Splicing a well-formed body on existing values keeps a well-formed graph well formed and
grows it, whether or not it succeeds, and the values of a successful call exist. -/
theorem splice_sound {body : Model} (opType : String) {inputs : List Handle}
    (wellFormed : g.WellFormed) (bodyWellFormed : body.graph.WellFormed)
    (valid : ∀ h ∈ inputs, g.hasOutput h) :
    (g.splice body opType inputs).1.WellFormed ∧ g.Extends (g.splice body opType inputs).1 ∧
      ∀ vs, (g.splice body opType inputs).2 = .ok vs →
        ∀ v ∈ vs, (g.splice body opType inputs).1.hasOutput v := by
  unfold Graph.splice
  split
  · exact ⟨wellFormed, Graph.Extends.refl g, fun _ failed => by cases failed⟩
  · obtain ⟨adoptedWellFormed, adoptedGrows⟩ :=
      adoptTypes_sound body.graph (body.parameters.zip inputs) wellFormed
    have start : Sound body.graph (List.foldl (adoptType body.graph) g (body.parameters.zip inputs))
        { replaced := body.parameters.zip inputs } := by
      refine ⟨fun p member => adoptedGrows.hasOutput (valid p.2 (List.of_mem_zip member).2), ?_⟩
      intro p member
      cases member
    dsimp only
    split
    · exact ⟨adoptedWellFormed, adoptedGrows, fun _ failed => by cases failed⟩
    · rename_i order _
      obtain ⟨copiedWellFormed, copiedGrows, copiedSound⟩ :=
        copyNodes_sound bodyWellFormed order _ _ adoptedWellFormed start
      split
      · rename_i g' e copiedEq
        rw [copiedEq] at copiedWellFormed copiedGrows
        exact ⟨copiedWellFormed, adoptedGrows.trans copiedGrows, fun _ failed => by cases failed⟩
      · rename_i g' r copiedEq
        rw [copiedEq] at copiedWellFormed copiedGrows copiedSound
        refine ⟨copiedWellFormed, adoptedGrows.trans copiedGrows, ?_⟩
        intro vs mapped v member
        obtain ⟨res, -, relocated⟩ := exists_mem_of_mapM_ok mapped v member
        split at relocated
        · rename_i value first
          exact relocate_valid (copiedSound r rfl) (bodyWellFormed.inputValue_valid first) relocated
        · cases relocated

end Lowering.Pass
