import Lowering.Pass.Lower

/-! # Hoare triples for computations with state and failure

A lowering pass and a translator are both computations that thread a state and may fail
(`ExceptT ε (StateM σ)`). This module says what such a computation does as a triple:

* `Triple pre x post fault` — from a state satisfying `pre`, `x` ends in a state satisfying
  `post a` when it returns `a`, and in one satisfying `fault` when it fails. The state a failure
  leaves matters here: a session keeps the body cache of a failed translation;
* rules for `pure`, `bind`, `get`, `set`, `throw`, `List.forM` (also one that sees the elements
  done so far) and `List.mapM`, the consequence rule, the conjunction of two triples, and a
  precondition with a witness;
* `run` equations that open a computation on a state, for the proofs that compute, and the
  length of what a map returns (`run_mapM_length`);
* `foldl_invariant`, `foldlM_invariant` — a fold (in `Except`, one that succeeds) keeps what each
  of its steps keeps.
-/

namespace Lowering.Proofs

variable {ε σ α β : Type}

/-! ## Running a computation -/

theorem run_bind (x : ExceptT ε (StateM σ) α) (f : α → ExceptT ε (StateM σ) β) (s : σ) :
    (x >>= f).run.run s = match x.run.run s with
      | (.ok a, s') => (f a).run.run s'
      | (.error e, s') => (.error e, s') := by
  simp only [ExceptT.run_bind, StateT.run_bind]
  rcases x.run.run s with ⟨_ | _, _⟩ <;> rfl

@[simp] theorem run_pure (a : α) (s : σ) :
    (pure a : ExceptT ε (StateM σ) α).run.run s = (.ok a, s) := rfl

@[simp] theorem run_get (s : σ) : (get : ExceptT ε (StateM σ) σ).run.run s = (.ok s, s) := rfl

@[simp] theorem run_set (s s' : σ) :
    (set s' : ExceptT ε (StateM σ) PUnit).run.run s = (.ok ⟨⟩, s') := rfl

@[simp] theorem run_modify (f : σ → σ) (s : σ) :
    (modify f : ExceptT ε (StateM σ) PUnit).run.run s = (.ok ⟨⟩, f s) := rfl

@[simp] theorem run_throw (e : ε) (s : σ) :
    (throw e : ExceptT ε (StateM σ) α).run.run s = (.error e, s) := rfl

@[simp] theorem run_get_bind (f : σ → ExceptT ε (StateM σ) β) (s : σ) :
    (get >>= f).run.run s = (f s).run.run s := rfl

@[simp] theorem run_liftExcept (r : Except LowerError α) (s : Pass.PassState) :
    (Pass.liftExcept r).run.run s = (r, s) := by
  cases r <;> rfl

/-- A map that returns gives one value for each element. -/
theorem run_mapM_length {xs : List β} {f : β → ExceptT ε (StateM σ) α} {s : σ} {as : List α}
    (ran : ((xs.mapM f).run.run s).1 = .ok as) : as.length = xs.length := by
  induction xs generalizing s as with
  | nil =>
    cases ran
    rfl
  | cons b rest inductionHypothesis =>
    simp only [List.mapM_cons, run_bind] at ran
    revert ran
    rcases (f b).run.run s with ⟨_ | a, s'⟩
    · exact fun failed => by cases failed
    · dsimp only
      rcases rested : (rest.mapM f).run.run s' with ⟨_ | as', s''⟩
      · exact fun failed => by cases failed
      · intro ran
        cases ran
        simpa using inductionHypothesis (s := s') (by rw [rested])

/-! ## Triples -/

/-- Started in a state satisfying `pre`, `x` ends in a state satisfying `post a` when it returns
`a`, and in a state satisfying `fault` when it fails. -/
def Triple (pre : σ → Prop) (x : ExceptT ε (StateM σ) α) (post : α → σ → Prop)
    (fault : σ → Prop) : Prop :=
  ∀ s, pre s → match x.run.run s with
    | (.ok a, s') => post a s'
    | (.error _, s') => fault s'

namespace Triple

variable {pre pre' : σ → Prop} {post post' : α → σ → Prop} {fault fault' : σ → Prop}

theorem conseq {x : ExceptT ε (StateM σ) α} (triple : Triple pre x post fault)
    (weaker : ∀ s, pre' s → pre s) (stronger : ∀ a s, post a s → post' a s)
    (faultStronger : ∀ s, fault s → fault' s) : Triple pre' x post' fault' := by
  intro s holds
  have ends := triple s (weaker s holds)
  revert ends
  rcases x.run.run s with ⟨_ | a, s'⟩
  · exact faultStronger s'
  · exact stronger a s'

theorem pure {a : α} (ends : ∀ s, pre s → post a s) :
    Triple (ε := ε) pre (Pure.pure a) post fault :=
  fun s holds => ends s holds

theorem bind {x : ExceptT ε (StateM σ) α} {f : α → ExceptT ε (StateM σ) β}
    {mid : α → σ → Prop} {post : β → σ → Prop}
    (first : Triple pre x mid fault) (rest : ∀ a, Triple (mid a) (f a) post fault) :
    Triple pre (x >>= f) post fault := by
  intro s holds
  have ends := first s holds
  rw [run_bind]
  revert ends
  rcases x.run.run s with ⟨_ | a, s'⟩
  · exact id
  · exact rest a s'

/-- A computation that starts by reading the state is specified from each state it may read. -/
theorem get_bind {f : σ → ExceptT ε (StateM σ) α}
    (rest : ∀ s₀, pre s₀ → Triple (· = s₀) (f s₀) post fault) :
    Triple pre (get >>= f) post fault := by
  intro s holds
  rw [run_get_bind]
  exact rest s holds s rfl

theorem set {s' : σ} {post : PUnit → σ → Prop} (ends : ∀ s, pre s → post ⟨⟩ s') :
    Triple (ε := ε) pre (MonadStateOf.set s') post fault :=
  fun s holds => ends s holds

/-- After writing the state, what follows starts from any description of the written state. -/
theorem set_bind {s' : σ} {f : PUnit → ExceptT ε (StateM σ) α} {inv : σ → Prop} (holds : inv s')
    (rest : Triple inv (f ⟨⟩) post fault) : Triple pre (MonadStateOf.set s' >>= f) post fault :=
  fun _ _ => rest s' holds

/-- After writing the state, what follows starts from exactly the written state. -/
theorem set_bind_state {s' : σ} {f : PUnit → ExceptT ε (StateM σ) α}
    (rest : Triple (· = s') (f ⟨⟩) post fault) : Triple pre (MonadStateOf.set s' >>= f) post fault :=
  fun _ _ => rest s' rfl

/-- After changing the state, what follows starts from the changed state. -/
theorem modify_bind {g : σ → σ} {f : PUnit → ExceptT ε (StateM σ) α}
    (rest : ∀ s, pre s → Triple (· = g s) (f ⟨⟩) post fault) :
    Triple pre (modify g >>= f) post fault :=
  fun s holds => rest s holds (g s) rfl

/-- A triple may be proved from each state the precondition admits. -/
theorem of_each {x : ExceptT ε (StateM σ) α} (each : ∀ s₀, pre s₀ → Triple (· = s₀) x post fault) :
    Triple pre x post fault :=
  fun s holds => each s holds s rfl

theorem throw {e : ε} (fails : ∀ s, pre s → fault s) :
    Triple pre (MonadExceptOf.throw e : ExceptT ε (StateM σ) α) post fault :=
  fun s holds => fails s holds

theorem throw_bind {e : ε} {f : α → ExceptT ε (StateM σ) β} {post : β → σ → Prop}
    (fails : ∀ s, pre s → fault s) : Triple pre (MonadExceptOf.throw e >>= f) post fault :=
  fun s holds => fails s holds

/-- A loop keeps what each of its rounds keeps, on success and on failure alike. -/
theorem forM {xs : List β} {f : β → ExceptT ε (StateM σ) PUnit} {inv : σ → Prop}
    (round : ∀ b ∈ xs, Triple inv (f b) (fun _ => inv) inv) :
    Triple inv (xs.forM f) (fun _ => inv) inv := by
  induction xs with
  | nil => exact pure fun _ holds => holds
  | cons b rest inductionHypothesis =>
    simp only [List.forM_eq_forM, List.forM_cons]
    exact bind (round b List.mem_cons_self) fun _ =>
      inductionHypothesis fun c member => round c (List.mem_cons_of_mem b member)

/-- A loop keeps an invariant that also sees the elements done so far; each round is told where
its element stands in the list. -/
theorem forM_prefix {xs : List β} {f : β → ExceptT ε (StateM σ) PUnit} {inv : List β → σ → Prop}
    (round : ∀ done b rest, done ++ b :: rest = xs →
      Triple (inv done) (f b) (fun _ => inv (done ++ [b])) fault) :
    Triple (inv []) (xs.forM f) (fun _ => inv xs) fault := by
  -- the loop over the suffix `ys` that follows the elements `done`
  have suffix : ∀ ys done, done ++ ys = xs →
      Triple (inv done) (ys.forM f) (fun _ => inv (done ++ ys)) fault := by
    intro ys
    induction ys with
    | nil => exact fun done _ => pure fun _ holds => by simpa using holds
    | cons b rest inductionHypothesis =>
      intro done whole
      simp only [List.forM_eq_forM, List.forM_cons]
      refine bind (round done b rest whole) fun _ => ?_
      simpa using inductionHypothesis (done ++ [b]) (by simpa using whole)
  simpa using suffix xs [] rfl

/-- Two triples of one computation hold together. -/
theorem and {x : ExceptT ε (StateM σ) α} {pre₁ pre₂ : σ → Prop} {post₁ post₂ : α → σ → Prop}
    {fault₁ fault₂ : σ → Prop} (first : Triple pre₁ x post₁ fault₁) (second : Triple pre₂ x post₂ fault₂) :
    Triple (fun s => pre₁ s ∧ pre₂ s) x (fun a s => post₁ a s ∧ post₂ a s)
      (fun s => fault₁ s ∧ fault₂ s) := by
  intro s ⟨holds₁, holds₂⟩
  have ends₁ := first s holds₁
  have ends₂ := second s holds₂
  revert ends₁ ends₂
  rcases x.run.run s with ⟨_ | a, s'⟩
  · exact And.intro
  · exact And.intro

/-- A precondition that holds for some witness gives the postcondition for some witness. -/
theorem exists_pre {γ : Type} {x : ExceptT ε (StateM σ) α} {pre : γ → σ → Prop}
    {post : γ → α → σ → Prop} (each : ∀ c, Triple (pre c) x (post c) fault) :
    Triple (fun s => ∃ c, pre c s) x (fun a s => ∃ c, post c a s) fault := by
  rintro s ⟨c, holds⟩
  have ends := each c s holds
  revert ends
  rcases x.run.run s with ⟨_ | a, s'⟩
  · exact id
  · exact fun ends => ⟨c, ends⟩

/-- Lifting an outcome: its failure leaves the state as it is. -/
theorem liftExcept_bind {r : Except LowerError α} {f : α → Pass.PassM β} {pre fault : Pass.PassState → Prop}
    {post : β → Pass.PassState → Prop} (fails : ∀ s, pre s → fault s)
    (rest : ∀ a, r = .ok a → Triple pre (f a) post fault) : Triple pre (Pass.liftExcept r >>= f) post fault := by
  cases r with
  | error e => exact fun s holds => fails s holds
  | ok a => exact rest a rfl

/-- What a triple says of one run that returns. -/
theorem post_of_run {x : ExceptT ε (StateM σ) α} (triple : Triple pre x post fault) {s s' : σ} {a : α}
    (holds : pre s) (ran : x.run.run s = (.ok a, s')) : post a s' := by
  have ends := triple s holds
  rwa [ran] at ends

/-- A computation whose failures reach no state returns, from every state its precondition
admits. -/
theorem run_ok {x : ExceptT ε (StateM σ) α} (triple : Triple pre x post (fun _ => False)) (s : σ)
    (holds : pre s) : ∃ a s', x.run.run s = (.ok a, s') ∧ post a s' := by
  have ends := triple s holds
  revert ends
  rcases x.run.run s with ⟨_ | a, s'⟩
  · exact False.elim
  · exact fun ends => ⟨a, s', rfl, ends⟩

/-- A map keeps an invariant that also sees the values produced so far. -/
theorem mapM {xs : List β} {f : β → ExceptT ε (StateM σ) α} {inv : List α → σ → Prop}
    (round : ∀ b ∈ xs, ∀ done, Triple (inv done) (f b) (fun a => inv (done ++ [a])) fault) :
    ∀ done, Triple (inv done) (xs.mapM f) (fun as => inv (done ++ as)) fault := by
  induction xs with
  | nil => exact fun done => pure fun _ holds => by simpa using holds
  | cons b rest inductionHypothesis =>
    intro done
    simp only [List.mapM_cons]
    refine bind (round b List.mem_cons_self done) fun a => ?_
    refine bind (inductionHypothesis (fun c member => round c (List.mem_cons_of_mem b member))
      (done ++ [a])) fun as => pure fun _ holds => ?_
    simpa using holds

end Triple

/-! ## Folds -/

/-- A fold keeps an invariant that each of its steps keeps. -/
theorem foldl_invariant {f : β → α → β} (inv : β → Prop) {xs : List α}
    (step : ∀ b, ∀ a ∈ xs, inv b → inv (f b a)) : ∀ b, inv b → inv (xs.foldl f b) := by
  induction xs with
  | nil => exact fun _ holds => holds
  | cons a rest inductionHypothesis =>
    intro b holds
    exact inductionHypothesis (fun b' a' member => step b' a' (List.mem_cons_of_mem a member))
      (f b a) (step b a List.mem_cons_self holds)

/-- A bind in `Except` that succeeds ran its first step to a value. -/
theorem bind_eq_ok {x : Except ε α} {f : α → Except ε β} {b : β} (ok : (x >>= f) = .ok b) :
    ∃ a, x = .ok a ∧ f a = .ok b := by
  cases x with
  | error e => cases ok
  | ok a => exact ⟨a, rfl, ok⟩

/-- What follows a step in `Except` succeeds on some value when the whole succeeds. -/
theorem ok_of_bind {x : Except ε α} {f : α → Except ε β} {b : β} (ok : (x >>= f) = .ok b) :
    ∃ a, f a = .ok b :=
  let ⟨a, _, rest⟩ := bind_eq_ok ok
  ⟨a, rest⟩

/-- A fold in `Except` that succeeds keeps an invariant that each step keeps; the invariant also
sees the elements folded so far. -/
theorem foldlM_invariant {f : β → α → Except ε β} (inv : β → List α → Prop)
    (step : ∀ b done a b', inv b done → f b a = .ok b' → inv b' (done ++ [a])) :
    ∀ (xs : List α) (b : β) (done : List α) (b' : β), inv b done →
      xs.foldlM f b = .ok b' → inv b' (done ++ xs)
  | [], b, done, b', holds, folded => by
    simp only [List.foldlM_nil] at folded
    cases folded
    simpa using holds
  | a :: rest, b, done, b', holds, folded => by
    simp only [List.foldlM_cons] at folded
    cases first : f b a with
    | error e => simp [first] at folded; cases folded
    | ok next =>
      simp only [first] at folded
      have afterRest := foldlM_invariant inv step rest next (done ++ [a]) b' (step b done a next holds first) folded
      simpa using afterRest

end Lowering.Proofs
