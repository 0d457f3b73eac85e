import Mathlib.Data.List.ReduceOption
import Mathlib.Data.List.Nodup
import Mathlib.Data.List.Perm.Subperm
import Lowering.Pass.Assemble
import Lowering.Proofs.Hoare

/-! # Putting a list in the order of requested names

`arrange` places each item at the first position of its name among the requested names. When it
succeeds it neither drops nor repeats an item, and the items' names, in the new order, are the
requested names (`arrange_ok`). Main statement: `arrange_spec`, which also says when it succeeds
(the names are distinct and the items' names are a reordering of them) and which item decides a
failure.

The intuition: every item goes to a slot of its own, and there are as many slots as items, so
when no item is refused every slot is filled, each with an item of the slot's name. An item is
refused when its name is not requested or an earlier item has it (`Occupied` tracks which slots
are taken), and as many distinct requested names as names is a reordering of the names.
-/

namespace Lowering.Pass

open Lowering.Proofs

/-- Filling an empty slot adds the item to the filled ones. -/
theorem reduceOption_set_perm {α : Type} {x : α} :
    ∀ {slots : List (Option α)} {i : Nat}, slots[i]? = some none →
      (slots.set i (some x)).reduceOption.Perm (x :: slots.reduceOption)
  | none :: rest, 0, _ => by simp [List.reduceOption_cons_of_none]
  | some _ :: _, 0, empty => by simp at empty
  | none :: rest, i + 1, empty => by
    simpa [List.reduceOption_cons_of_none] using reduceOption_set_perm (x := x) (by simpa using empty)
  | some y :: rest, i + 1, empty => by
    simp only [List.set_cons_succ, List.reduceOption_cons_of_some]
    exact ((reduceOption_set_perm (x := x) (by simpa using empty)).cons y).trans (List.Perm.swap x y _)

/-- A list of options that are all filled is its values, each wrapped. -/
theorem eq_map_some_reduceOption {α : Type} :
    ∀ {slots : List (Option α)}, (∀ o ∈ slots, o.isSome) → slots = slots.reduceOption.map some
  | [], _ => rfl
  | none :: _, filled => by simp at filled
  | some y :: rest, filled => by
    rw [List.reduceOption_cons_of_some, List.map_cons,
      ← eq_map_some_reduceOption (fun o member => filled o (List.mem_cons_of_mem _ member))]

variable {α : Type} {names : List String} {nameOf : α → String}

/-- What the slots hold after placing some items: one slot per name, each filled slot holds an
item of the slot's name, and the filled slots hold exactly the items placed so far. -/
structure Placed (names : List String) (nameOf : α → String) (slots : List (Option α))
    (done : List α) : Prop where
  length : slots.length = names.length
  named : ∀ (i : Nat) x, slots[i]? = some (some x) → names[i]? = some (nameOf x)
  filled : slots.reduceOption.Perm done

theorem placed_start {n : Nat} (sameLength : names.length = n) :
    Placed names nameOf (List.replicate n none) [] :=
  ⟨by simp [sameLength], fun i x found => by simp [List.getElem?_replicate] at found,
    by simp [List.reduceOption_replicate_none]⟩

/-- Placing one item keeps the slots placed. -/
theorem placed_step {kind : OrderKind} {slots slots' : List (Option α)} {done : List α} {item : α}
    (placed : Placed names nameOf slots done)
    (step : (match names.idxOf? (nameOf item) with
      | none => .error (LowerError.reorder kind (.notRequested (nameOf item)))
      | some i =>
        match slots[i]? with
        | some (some _) => .error (LowerError.reorder kind (.twice (nameOf item)))
        | _ => .ok (slots.set i (some item)) : Except LowerError (List (Option α))) = .ok slots') :
    Placed names nameOf slots' (done ++ [item]) := by
  split at step
  · cases step
  · rename_i i position
    obtain ⟨bound, atPosition, -⟩ := List.idxOf?_eq_some_iff.mp position
    split at step
    · cases step
    · rename_i slot free
      cases step
      -- the slot exists, since there is a slot per name, and it is empty
      have empty : slots[i]? = some none := by
        have inside : i < slots.length := placed.length ▸ bound
        rw [List.getElem?_eq_getElem inside] at free ⊢
        cases slotValue : slots[i] with
        | none => rfl
        | some y => exact absurd (congrArg some slotValue) (free y)
      refine ⟨by simp [placed.length], ?_, ?_⟩
      · intro j x found
        rw [List.getElem?_set] at found
        split at found
        · rename_i same
          subst same
          split at found
          · cases found
            rw [List.getElem?_eq_getElem bound, atPosition]
          · cases found
        · exact placed.named j x found
      · exact (reduceOption_set_perm empty).trans
          ((placed.filled.cons item).trans (List.perm_append_singleton item done).symm)

/-- When `arrange` succeeds, its result is a reordering of the items, and when names were
requested, the names of the reordered items are exactly the requested names, in order. -/
theorem arrange_ok {kind : OrderKind} {items out : List α}
    (arranged : arrange kind names items nameOf = .ok out) :
    out.Perm items ∧ (names ≠ [] → out.map nameOf = names) := by
  unfold arrange at arranged
  split at arranged
  · rename_i noNames
    cases arranged
    exact ⟨List.Perm.refl _, fun nonEmpty => absurd (List.isEmpty_iff.mp noNames) nonEmpty⟩
  · split at arranged
    · cases arranged
    · rename_i sameLength
      cases folded : List.foldlM (m := Except LowerError) _ (List.replicate items.length none) items with
      | error e => rw [folded] at arranged; cases arranged
      | ok slots =>
        rw [folded] at arranged
        cases arranged
        have placed := foldlM_invariant (Placed names nameOf)
          (fun _ _ _ _ holds step => placed_step holds step) items _ [] slots
          (placed_start (Decidable.of_not_not sameLength)) folded
        rw [List.nil_append] at placed
        refine ⟨placed.filled, fun _ => ?_⟩
        have full : slots.reduceOption.length = slots.length := by
          rw [placed.filled.length_eq, placed.length]
          exact (Decidable.of_not_not sameLength).symm
        have wrapped := eq_map_some_reduceOption (List.reduceOption_length_eq_iff.mp full)
        apply List.ext_getElem?
        intro i
        rw [List.getElem?_map]
        cases value : slots.reduceOption[i]? with
        | none =>
          rw [List.getElem?_eq_none_iff] at value
          have beyond : names.length ≤ i := by
            rw [← placed.length, ← full]
            exact value
          rw [List.getElem?_eq_none beyond]
          rfl
        | some x =>
          have atSlot : slots[i]? = some (some x) := by
            rw [wrapped, List.getElem?_map, value]
            rfl
          exact (placed.named i x atSlot).symm

/-! ## Which requests succeed, and why the others fail

Each item in turn is accepted (its name is requested and no item before it has that name) or
refused, and the first refused item decides the failure. With as many names as items, accepting
every item means the names are distinct and the items' names are a reordering of them. -/

/-- One step of `arrange`: the item goes to the first position of its name, which must be
requested and not yet taken. -/
def place (kind : OrderKind) (names : List String) (nameOf : α → String) (slots : List (Option α))
    (item : α) : Except LowerError (List (Option α)) :=
  match names.idxOf? (nameOf item) with
  | none => .error (LowerError.reorder kind (.notRequested (nameOf item)))
  | some i =>
    match slots[i]? with
    | some (some _) => .error (LowerError.reorder kind (.twice (nameOf item)))
    | _ => .ok (slots.set i (some item))

theorem arrange_eq (kind : OrderKind) (names : List String) (items : List α) (nameOf : α → String) :
    arrange kind names items nameOf =
      if names.isEmpty then .ok items
      else if names.length ≠ items.length then
        .error (.reorder kind (.lengths names.length items.length))
      else (items.foldlM (place kind names nameOf) (List.replicate items.length none)).map
        List.reduceOption := rfl

/-- The items `done` are accepted in turn: every name is requested, and no name comes twice. -/
def Accepted (names : List String) (nameOf : α → String) (done : List α) : Prop :=
  (done.map nameOf).Nodup ∧ ∀ y ∈ done, nameOf y ∈ names

/-- The slots after placing the items `done`: one slot per name, and a slot is taken exactly when
it is the first position of the name of an item placed. -/
structure Occupied (names : List String) (nameOf : α → String) (slots : List (Option α))
    (done : List α) : Prop where
  length : slots.length = names.length
  taken : ∀ i, (∃ y, slots[i]? = some (some y)) ↔ ∃ y ∈ done, names.idxOf? (nameOf y) = some i

theorem occupied_start {n : Nat} (sameLength : names.length = n) :
    Occupied names nameOf (List.replicate n none) [] :=
  ⟨by simp [sameLength], fun i => by simp [List.getElem?_replicate]⟩

/-- Two names with the same first position are the same name. -/
theorem eq_of_idxOf?_eq {n m : String} {i : Nat} (first : names.idxOf? n = some i)
    (second : names.idxOf? m = some i) : n = m := by
  obtain ⟨bound, atN, -⟩ := List.idxOf?_eq_some_iff.mp first
  obtain ⟨_, atM, -⟩ := List.idxOf?_eq_some_iff.mp second
  exact atN.symm.trans atM

section Place

variable {kind : OrderKind} {slots : List (Option α)} {done : List α} {item : α}

/-- An item whose name is requested and not yet placed goes to the first position of its name. -/
theorem place_accepts (kind : OrderKind) (occupied : Occupied names nameOf slots done)
    (requested : nameOf item ∈ names)
    (fresh : nameOf item ∉ done.map nameOf) :
    ∃ slots', place kind names nameOf slots item = .ok slots' ∧
      Occupied names nameOf slots' (done ++ [item]) := by
  obtain ⟨i, position⟩ : ∃ i, names.idxOf? (nameOf item) = some i :=
    Option.isSome_iff_exists.mp (List.isSome_idxOf?.mpr requested)
  have bound : i < slots.length := occupied.length ▸ (List.idxOf?_eq_some_iff.mp position).1
  -- the slot is free: an item in it would have the same first position, hence the same name
  have free : slots[i]? = some none := by
    rw [List.getElem?_eq_getElem bound]
    cases slot : slots[i] with
    | none => rfl
    | some y =>
      obtain ⟨y', placed, samePosition⟩ := (occupied.taken i).mp
        ⟨y, by rw [List.getElem?_eq_getElem bound, slot]⟩
      refine (fresh ?_).elim
      rw [← eq_of_idxOf?_eq samePosition position]
      exact List.mem_map_of_mem placed
  refine ⟨slots.set i (some item), by simp [place, position, free], by simp [occupied.length], ?_⟩
  intro j
  rw [List.getElem?_set]
  by_cases same : i = j
  · subst same
    simp [bound, position]
  · simp only [same, if_false, occupied.taken j, List.mem_append, List.mem_singleton]
    constructor
    · rintro ⟨y, placed, samePosition⟩
      exact ⟨y, .inl placed, samePosition⟩
    · rintro ⟨y, placed | rfl, samePosition⟩
      · exact ⟨y, placed, samePosition⟩
      · exact absurd (Option.some.inj (position.symm.trans samePosition)) same

/-- A refused item, whose name is not requested or was placed before, decides the failure. -/
theorem place_refuses (occupied : Occupied names nameOf slots done)
    (refused : nameOf item ∉ names ∨ nameOf item ∈ done.map nameOf) :
    place kind names nameOf slots item = .error (.reorder kind
      (if nameOf item ∈ names then .twice (nameOf item) else .notRequested (nameOf item))) := by
  by_cases requested : nameOf item ∈ names
  · obtain ⟨y, placed, sameName⟩ := List.mem_map.mp (refused.resolve_left (not_not.mpr requested))
    obtain ⟨i, position⟩ : ∃ i, names.idxOf? (nameOf item) = some i :=
      Option.isSome_iff_exists.mp (List.isSome_idxOf?.mpr requested)
    -- the earlier item of the same name took the slot
    obtain ⟨z, taken⟩ := (occupied.taken i).mpr ⟨y, placed, sameName ▸ position⟩
    simp [place, position, taken, requested]
  · have absent : names.idxOf? (nameOf item) = none := List.idxOf?_eq_none_iff.mpr requested
    simp [place, absent, requested]

/-- A placement that succeeds accepted its item. -/
theorem place_ok {slots' : List (Option α)} (occupied : Occupied names nameOf slots done)
    (accepted : Accepted names nameOf done) (placed : place kind names nameOf slots item = .ok slots') :
    Occupied names nameOf slots' (done ++ [item]) ∧ Accepted names nameOf (done ++ [item]) := by
  by_cases fits : nameOf item ∈ names ∧ nameOf item ∉ done.map nameOf
  · obtain ⟨slots'', placed', occupied'⟩ := place_accepts kind occupied fits.1 fits.2
    rw [placed'] at placed
    cases placed
    refine ⟨occupied', ?_, ?_⟩
    · simpa [List.nodup_append] using ⟨accepted.1, fun y member same => fits.2 (same ▸ List.mem_map_of_mem member)⟩
    · intro y member
      rcases List.mem_append.mp member with old | new
      · exact accepted.2 y old
      · exact (List.mem_singleton.mp new) ▸ fits.1
  · rw [place_refuses occupied (by tauto)] at placed
    cases placed

end Place

/-- Placing accepted items never fails. -/
theorem foldlM_place_accepted (kind : OrderKind) :
    ∀ (rest : List α) {slots : List (Option α)} {done : List α}, Occupied names nameOf slots done →
      Accepted names nameOf (done ++ rest) →
      ∃ slots', rest.foldlM (place kind names nameOf) slots = .ok slots' ∧
        Occupied names nameOf slots' (done ++ rest)
  | [], slots, done, occupied, _ => ⟨slots, rfl, by simpa using occupied⟩
  | item :: rest, slots, done, occupied, accepted => by
    have requested : nameOf item ∈ names := accepted.2 item (by simp)
    have fresh : nameOf item ∉ done.map nameOf := by
      have distinct := accepted.1
      simp only [List.map_append, List.map_cons, List.nodup_append, List.nodup_cons] at distinct
      exact fun member => distinct.2.2 _ member _ List.mem_cons_self rfl
    obtain ⟨slots₁, placed, occupied₁⟩ := place_accepts kind occupied requested fresh
    obtain ⟨slots', folded, occupied'⟩ :=
      foldlM_place_accepted kind rest occupied₁ (by simpa using accepted)
    refine ⟨slots', ?_, by simpa using occupied'⟩
    rw [List.foldlM_cons, placed]
    exact folded

/-- The slots fill without failure exactly when the items are accepted in turn. -/
theorem foldlM_place_ok_iff (kind : OrderKind) {items : List α} (sameLength : names.length = items.length) :
    (∃ slots, items.foldlM (place kind names nameOf) (List.replicate items.length none) = .ok slots) ↔
      Accepted names nameOf items := by
  constructor
  · rintro ⟨slots, folded⟩
    have kept := foldlM_invariant
      (fun slots done => Occupied names nameOf slots done ∧ Accepted names nameOf done)
      (fun _ _ _ _ holds placed => place_ok holds.1 holds.2 placed) items _ [] slots
      ⟨occupied_start sameLength, by simp [Accepted]⟩ folded
    simpa using kept.2
  · intro accepted
    obtain ⟨slots, folded, -⟩ := foldlM_place_accepted kind items (occupied_start sameLength)
      (by simpa using accepted)
    exact ⟨slots, folded⟩

/-- As many accepted items as requested names: the names are distinct, and the items' names are a
reordering of them. -/
theorem accepted_iff_perm {items : List α} (sameLength : names.length = items.length) :
    Accepted names nameOf items ↔ names.Nodup ∧ (items.map nameOf).Perm names := by
  constructor
  · intro accepted
    have within : items.map nameOf ⊆ names := by
      intro n member
      obtain ⟨y, inItems, rfl⟩ := List.mem_map.mp member
      exact accepted.2 y inItems
    have perm := (List.Nodup.subperm accepted.1 within).perm_of_length_le (by simp [sameLength])
    exact ⟨perm.nodup_iff.mp accepted.1, perm⟩
  · rintro ⟨distinct, perm⟩
    exact ⟨perm.nodup_iff.mpr distinct, fun y member => perm.subset (List.mem_map_of_mem member)⟩

/-- Two reorderings of items with distinct names that give the same names in order are equal. -/
theorem eq_of_perm_of_map_eq {items out out' : List α} (distinct : (items.map nameOf).Nodup)
    (perm : out.Perm items) (perm' : out'.Perm items) (same : out.map nameOf = out'.map nameOf) :
    out = out' := by
  have sameLength : out.length = out'.length := perm.length_eq.trans perm'.length_eq.symm
  refine List.ext_getElem sameLength fun i inside inside' => ?_
  have sameName : nameOf out[i] = nameOf out'[i] := by
    have atI := congrArg (·[i]?) same
    simp only [List.getElem?_map, List.getElem?_eq_getElem inside, List.getElem?_eq_getElem inside',
      Option.map_some] at atI
    exact Option.some.inj atI
  exact List.inj_on_of_nodup_map distinct (perm.subset (List.getElem_mem inside))
    (perm'.subset (List.getElem_mem inside')) sameName

/-- The whole behaviour of `arrange`. No requested names keep the items. Otherwise it succeeds
exactly when there are as many names as items, the names are distinct and the items' names are a
reordering of them; the result is then the one reordering of the items whose names are the
requested names in order. It fails on different counts, and otherwise for the first item that is
not accepted: one whose name is not requested, or one whose name an earlier item has. -/
theorem arrange_spec (kind : OrderKind) (names : List String) (items : List α) (nameOf : α → String) :
    (names = [] → arrange kind names items nameOf = .ok items) ∧
    (names ≠ [] →
      ((∃ out, arrange kind names items nameOf = .ok out) ↔
          names.length = items.length ∧ names.Nodup ∧ (items.map nameOf).Perm names) ∧
      (∀ out, arrange kind names items nameOf = .ok out →
          out.Perm items ∧ out.map nameOf = names ∧
          ∀ out', out'.Perm items → out'.map nameOf = names → out' = out) ∧
      (names.length ≠ items.length → arrange kind names items nameOf =
          .error (.reorder kind (.lengths names.length items.length))) ∧
      (names.length = items.length → ∀ pre x post, items = pre ++ x :: post →
          (pre.map nameOf).Nodup → (∀ y ∈ pre, nameOf y ∈ names) →
          (nameOf x ∉ names ∨ nameOf x ∈ pre.map nameOf) →
          arrange kind names items nameOf = .error (.reorder kind
            (if nameOf x ∈ names then .twice (nameOf x) else .notRequested (nameOf x))))) := by
  refine ⟨fun noNames => by simp [arrange_eq, noNames], fun someNames => ?_⟩
  have requested : names.isEmpty = false := List.isEmpty_eq_false_iff.mpr someNames
  -- with names requested, `arrange` checks the counts and then fills the slots
  have filling : names.length = items.length → arrange kind names items nameOf =
      (items.foldlM (place kind names nameOf) (List.replicate items.length none)).map
        List.reduceOption := fun sameLength => by
    rw [arrange_eq, requested, if_neg Bool.false_ne_true, if_neg (not_not.mpr sameLength)]
  have differing : names.length ≠ items.length → arrange kind names items nameOf =
      .error (.reorder kind (.lengths names.length items.length)) := fun differ => by
    rw [arrange_eq, requested, if_neg Bool.false_ne_true, if_pos differ]
  -- a success, with its result read off `arrange_ok`
  have succeeded : ∀ out, arrange kind names items nameOf = .ok out →
      names.length = items.length ∧ out.Perm items ∧ out.map nameOf = names ∧
        Accepted names nameOf items := by
    intro out arranged
    obtain ⟨perm, named⟩ := arrange_ok arranged
    by_cases sameLength : names.length = items.length
    · rw [filling sameLength] at arranged
      cases folded : List.foldlM (place kind names nameOf) (List.replicate items.length none) items with
      | error e => rw [folded] at arranged; cases arranged
      | ok slots =>
        exact ⟨sameLength, perm, named someNames,
          (foldlM_place_ok_iff kind sameLength).mp ⟨slots, folded⟩⟩
    · rw [differing sameLength] at arranged
      cases arranged
  refine ⟨⟨fun ⟨out, arranged⟩ => ?_, fun ⟨sameLength, distinct, perm⟩ => ?_⟩, ?_, differing, ?_⟩
  · obtain ⟨sameLength, -, -, accepted⟩ := succeeded out arranged
    exact ⟨sameLength, (accepted_iff_perm sameLength).mp accepted⟩
  · obtain ⟨slots, folded⟩ := (foldlM_place_ok_iff kind sameLength).mpr
      ((accepted_iff_perm sameLength).mpr ⟨distinct, perm⟩)
    exact ⟨slots.reduceOption, by rw [filling sameLength, folded]; rfl⟩
  · intro out arranged
    obtain ⟨-, perm, named, accepted⟩ := succeeded out arranged
    exact ⟨perm, named, fun out' perm' named' =>
      eq_of_perm_of_map_eq accepted.1 perm' perm (named'.trans named.symm)⟩
  · rintro sameLength pre x post rfl distinct inNames refused
    -- the accepted items before `x` fill their slots, and `x` is refused
    obtain ⟨slots, folded, occupied⟩ := foldlM_place_accepted kind pre
      (occupied_start sameLength) (by rw [List.nil_append]; exact ⟨distinct, inNames⟩)
    rw [List.nil_append] at occupied
    rw [filling sameLength, List.foldlM_append, folded]
    show Except.map _ (place kind names nameOf slots x >>= fun b => post.foldlM _ b) = _
    rw [place_refuses occupied refused]
    rfl

/-- Requested names that repeat the first item's name: the second item, whose name an earlier
item has, decides the failure. -/
theorem arrange_spec_repeated :
    arrange .results ["a", "b"] ["a", "a"] id = .error (.reorder .results (.twice "a")) := by
  have refused := ((arrange_spec .results ["a", "b"] ["a", "a"] id).2 (by simp)).2.2.2 rfl ["a"] "a" []
    rfl (by simp) (by simp) (.inr (by simp))
  simpa using refused

end Lowering.Pass
