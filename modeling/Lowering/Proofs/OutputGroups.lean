import Mathlib.Algebra.Group.Nat.Defs
import Mathlib.Data.List.Basic
import Lowering.Pass.Bindings

/-! # Members of named output groups

An operation's values may carry the name of the output group they belong to, and an input may ask
for the `index`-th value of a group. `flatIndex` answers from two reads only: the position `first`
of the group's first member, and the value at `first + index`. That value is the group's
`index`-th member exactly when the members stand in one run of consecutive positions.

* `groupMembers` — the positions of a group's members, in order, and `memberLookup`, the answer
  that names the `index`-th of them;
* `Contiguous` — the members of a group form one run;
* `flatIndex_resolves_members` — values without group names keep the index, and for a group in
  one run (whose `first + index` stays below `2^64`, where positions wrap) `flatIndex` is
  `memberLookup`;
* `flatIndex_split_group` — for a group split in two runs the lookup lands on another group.
-/

namespace Lowering.Pass

/-- The positions of the members of `group` among `outputs`, in order. -/
def groupMembers (outputs : List Labeled) (group : String) : List Nat :=
  outputs.findIdxs (·.label == some group)

/-- The answer to a request for the `index`-th member of `group`: its position; else a failure
that says whether the request reaches past the values, counted from the group's first member
(or the group has none), or lands on a value outside the group. -/
def memberLookup (outputs : List Labeled) (group : String) (index : Nat) : Except LowerError Nat :=
  match (groupMembers outputs group)[index]? with
  | some k => .ok k
  | none =>
    let beyond := ∀ first ∈ (groupMembers outputs group).head?, outputs.length ≤ first + index
    .error (.groupLookup group index (if beyond then .absent else .otherGroup))

/-- The members of `group` stand in one run of consecutive positions: the values are some outside
the group, then a run of members, then again some outside the group. -/
def Contiguous (outputs : List Labeled) (group : String) : Prop :=
  ∃ pre run post, outputs = pre ++ run ++ post ∧ (∀ v ∈ run, v.label = some group) ∧
    ∀ v ∈ pre ++ post, v.label ≠ some group

/-! ## Finding positions -/

/-- The first position found is the head of all positions found. -/
theorem head?_findIdxs {α : Type} (p : α → Bool) :
    ∀ (xs : List α) (s : Nat), (xs.findIdxs p s).head? = (xs.findIdx? p).map (· + s)
  | [], _ => rfl
  | x :: xs, s => by
    rw [List.findIdxs_cons, List.findIdx?_cons]
    by_cases found : p x
    · simp [found]
    · simp only [found, Bool.false_eq_true, if_false, head?_findIdxs p xs (s + 1), Option.map_map]
      congr 1
      funext i
      simp only [Function.comp_apply]
      omega

/-- When every value qualifies, every position from the start is found. -/
theorem findIdxs_of_forall {α : Type} {p : α → Bool} :
    ∀ {xs : List α} (s : Nat), (∀ x ∈ xs, p x) → xs.findIdxs p s = List.range' s xs.length
  | [], _, _ => rfl
  | x :: xs, s, all => by
    rw [List.findIdxs_cons, if_pos (all x List.mem_cons_self), List.length_cons, List.range'_succ,
      findIdxs_of_forall (s + 1) fun y member => all y (List.mem_cons_of_mem x member)]

/-! ## Values without group names -/

/-- When the first value has no group name, the index is already a position. -/
theorem flatIndex_of_unnamed {outputs : List Labeled} (unnamed : ∀ first ∈ outputs.head?, first.label = none)
    (group : String) (index : Nat) : flatIndex outputs group index = .ok index := by
  unfold flatIndex
  cases outputs with
  | nil => rfl
  | cons first rest => simp [unnamed first rfl]

/-! ## A group in one run -/

section Run

variable {pre run post : List Labeled} {group : String}

/-- The members of a group in one run are the positions of the run. -/
theorem groupMembers_run (inRun : ∀ v ∈ run, v.label = some group)
    (outside : ∀ v ∈ pre ++ post, v.label ≠ some group) :
    groupMembers (pre ++ run ++ post) group = List.range' pre.length run.length := by
  have skipped : ∀ (xs : List Labeled), (∀ v ∈ xs, v ∈ pre ++ post) →
      ∀ s, xs.findIdxs (·.label == some group) s = [] := by
    intro xs inside s
    refine List.findIdxs_eq_nil_iff.mpr fun v member => ?_
    simpa using outside v (inside v member)
  unfold groupMembers
  rw [List.findIdxs_append, List.findIdxs_append,
    skipped pre (fun v member => List.mem_append_left post member),
    skipped post (fun v member => List.mem_append_right pre member),
    findIdxs_of_forall _ (fun v member => by simp [inRun v member])]
  simp

/-- A position within the run reads the run. -/
theorem getElem?_run {index : Nat} (short : index < run.length) :
    (pre ++ run ++ post)[pre.length + index]? = run[index]? := by
  rw [List.append_assoc, List.getElem?_append_right (by omega), Nat.add_sub_cancel_left,
    List.getElem?_append_left short]

/-- A position past the run reads the values after it. -/
theorem getElem?_after_run {index : Nat} (long : run.length ≤ index) :
    (pre ++ run ++ post)[pre.length + index]? = post[index - run.length]? := by
  rw [List.append_assoc, List.getElem?_append_right (by omega), Nat.add_sub_cancel_left,
    List.getElem?_append_right long]

/-- In a group that forms one run, the value `index` places past the group's first member is the
`index`-th member when the run is long enough, and otherwise lies outside the group or past the
values. -/
theorem flatIndex_run (named : ∃ first ∈ (pre ++ run ++ post).head?, first.label.isSome)
    (inRun : ∀ v ∈ run, v.label = some group) (outside : ∀ v ∈ pre ++ post, v.label ≠ some group)
    {index : Nat} (noWrap : ∀ first ∈ (groupMembers (pre ++ run ++ post) group).head?,
      first + index < 2 ^ 64) :
    flatIndex (pre ++ run ++ post) group index = memberLookup (pre ++ run ++ post) group index := by
  have members := groupMembers_run inRun outside
  have firstMember : (pre ++ run ++ post).findIdx? (·.label == some group) =
      (List.range' pre.length run.length).head? := by
    rw [← members, groupMembers, head?_findIdxs]
    simp
  obtain ⟨v, head, labeled⟩ := named
  unfold flatIndex memberLookup
  rw [head, firstMember, members]
  simp only [Option.isNone_iff_eq_none, Option.ne_none_iff_isSome.mpr labeled, if_false]
  cases run with
  | nil => simp
  | cons r rs =>
    have start : (List.range' pre.length (r :: rs).length).head? = some pre.length := by
      rw [List.length_cons, List.range'_succ, List.head?_cons]
    have noWrap' : pre.length + index < 2 ^ 64 := noWrap pre.length (by rw [members, start]; rfl)
    rw [start]
    simp only [Nat.pow_eq, Nat.mod_eq_of_lt noWrap']
    by_cases short : index < (r :: rs).length
    · -- the index-th member exists, and it is the value at that position of the run
      obtain ⟨w, member⟩ : ∃ w, (r :: rs)[index]? = some w :=
        ⟨_, List.getElem?_eq_getElem short⟩
      rw [getElem?_run short, member, List.getElem?_range' short]
      simp [inRun w (List.mem_of_getElem? member)]
    · -- no such member: the position lies in the values after the run, or past them
      have long : (r :: rs).length ≤ index := Nat.le_of_not_lt short
      have past : rs.length + 1 ≤ index := long
      have noMember : (List.range' pre.length (r :: rs).length)[index]? = none :=
        List.getElem?_eq_none (by simpa using long)
      rw [getElem?_after_run long, noMember]
      cases after : post[index - (r :: rs).length]? with
      | none =>
        -- the request reaches past the values
        have beyond : post.length ≤ index - (rs.length + 1) := by
          simpa using List.getElem?_eq_none_iff.mp after
        simp
        omega
      | some w =>
        -- the request lands on a value after the run, outside the group
        have within : index - (rs.length + 1) < post.length := by
          simpa using (List.getElem?_eq_some_iff.mp after).1
        have notMember : w.label ≠ some group :=
          outside w (List.mem_append_right pre (List.mem_of_getElem? after))
        simp [notMember]
        omega

end Run

/-- Values without group names keep the index; and when the first value has a group name and the
members of `group` stand in one run, the lookup answers the position of the group's `index`-th
member, or fails, saying whether the request reaches past the values or lands outside the group.
Positions are 64-bit words: the statement covers every request whose sum `first + index` does not
wrap around. -/
theorem flatIndex_resolves_members (outputs : List Labeled) (group : String) (index : Nat) :
    ((∀ first ∈ outputs.head?, first.label = none) → flatIndex outputs group index = .ok index) ∧
    ((∃ first ∈ outputs.head?, first.label.isSome) → Contiguous outputs group →
      (∀ first ∈ (groupMembers outputs group).head?, first + index < 2 ^ 64) →
      flatIndex outputs group index = memberLookup outputs group index) := by
  refine ⟨fun unnamed => flatIndex_of_unnamed unnamed group index, ?_⟩
  rintro named ⟨pre, run, post, rfl, inRun, outside⟩ noWrap
  exact flatIndex_run named inRun outside noWrap

/-- Outputs named in three groups, the middle one of two values. -/
def threeGroups : List Labeled :=
  [{ label := some "y", handle := ⟨0, 0⟩ }, { label := some "idx", handle := ⟨0, 1⟩ },
    { label := some "idx", handle := ⟨0, 2⟩ }, { label := some "count", handle := ⟨0, 3⟩ }]

theorem flatIndex_resolves_members_second :
    Contiguous threeGroups "idx" ∧ flatIndex threeGroups "idx" 1 = .ok 2 := by
  have contiguous : Contiguous threeGroups "idx" :=
    ⟨[{ label := some "y", handle := ⟨0, 0⟩ }],
      [{ label := some "idx", handle := ⟨0, 1⟩ }, { label := some "idx", handle := ⟨0, 2⟩ }],
      [{ label := some "count", handle := ⟨0, 3⟩ }], rfl, by simp, by simp⟩
  refine ⟨contiguous, ?_⟩
  rw [(flatIndex_resolves_members threeGroups "idx" 1).2 ⟨_, rfl, rfl⟩ contiguous
    (by simp [groupMembers, threeGroups])]
  rfl

/-- A group split in two runs: its second member stands at position 2, but the lookup reads the
value one place after the group's first member, which belongs to another group. -/
theorem flatIndex_split_group :
    let outputs : List Labeled := [{ label := some "y", handle := ⟨0, 0⟩ },
      { label := some "idx", handle := ⟨0, 1⟩ }, { label := some "y", handle := ⟨0, 2⟩ }]
    (groupMembers outputs "y")[1]? = some 2 ∧
      flatIndex outputs "y" 1 = .error (.groupLookup "y" 1 .otherGroup) :=
  ⟨rfl, rfl⟩

end Lowering.Pass
