import Lowering.Proofs.Hoare

/-! # Two runs that agree

A relational companion of `Triple`: two computations with state and failure, each run from its own
state, agree when they give the same outcome and leave states that are related again.

* `AgreeFrom R x₁ x₂ s₁ s₂` — from `s₁` and `s₂`, `x₁` and `x₂` give the same outcome (the same
  value, or the same failure) and end in states related by `R`;
* `Agree R x₁ x₂` — they do so from any two states related by `R`;
* rules for `pure`, `throw` (also before whatever follows it), `bind` (also one that knows the
  value came from some run), `map`, `get`, `set`, `modify`, `List.forM` and `List.mapM`.

`R` is kept on failure as on success, because a failed pass still hands its state on.
-/

namespace Lowering.Proofs

variable {ε σ α β : Type}

/-- From `s₁` and `s₂`, `x₁` and `x₂` give the same outcome and end in states related by `R`. -/
def AgreeFrom (R : σ → σ → Prop) (x₁ x₂ : ExceptT ε (StateM σ) α) (s₁ s₂ : σ) : Prop :=
  (x₁.run.run s₁).1 = (x₂.run.run s₂).1 ∧ R (x₁.run.run s₁).2 (x₂.run.run s₂).2

/-- From any two states related by `R`, `x₁` and `x₂` give the same outcome and end in states
related by `R`. -/
def Agree (R : σ → σ → Prop) (x₁ x₂ : ExceptT ε (StateM σ) α) : Prop :=
  ∀ s₁ s₂, R s₁ s₂ → AgreeFrom R x₁ x₂ s₁ s₂

namespace AgreeFrom

variable {R : σ → σ → Prop} {s₁ s₂ : σ}

theorem of_agree {x₁ x₂ : ExceptT ε (StateM σ) α} (agree : Agree R x₁ x₂) (related : R s₁ s₂) :
    AgreeFrom R x₁ x₂ s₁ s₂ :=
  agree s₁ s₂ related

theorem bind {x₁ x₂ : ExceptT ε (StateM σ) α} {f₁ f₂ : α → ExceptT ε (StateM σ) β}
    (first : AgreeFrom R x₁ x₂ s₁ s₂) (rest : ∀ a, Agree R (f₁ a) (f₂ a)) :
    AgreeFrom R (x₁ >>= f₁) (x₂ >>= f₂) s₁ s₂ := by
  obtain ⟨same, related⟩ := first
  unfold AgreeFrom
  rw [run_bind, run_bind]
  revert same related
  rcases x₁.run.run s₁ with ⟨_ | a, t₁⟩ <;> rcases x₂.run.run s₂ with ⟨_ | b, t₂⟩ <;>
    intro same related
  · cases same
    exact ⟨rfl, related⟩
  · cases same
  · cases same
  · cases same
    exact rest a t₁ t₂ related

/-- After writing related states, two computations go on from them. -/
theorem set_bind {s₁' s₂' : σ} {f₁ f₂ : PUnit → ExceptT ε (StateM σ) α} (related : R s₁' s₂')
    (rest : Agree R (f₁ ⟨⟩) (f₂ ⟨⟩)) :
    AgreeFrom R (MonadStateOf.set s₁' >>= f₁) (MonadStateOf.set s₂' >>= f₂) s₁ s₂ :=
  rest s₁' s₂' related

theorem set {s₁' s₂' : σ} (related : R s₁' s₂') :
    AgreeFrom (ε := ε) R (MonadStateOf.set s₁') (MonadStateOf.set s₂') s₁ s₂ :=
  ⟨rfl, related⟩

/-- After changing the states to related ones, two computations go on from them. -/
theorem modify_bind {g₁ g₂ : σ → σ} {f₁ f₂ : PUnit → ExceptT ε (StateM σ) α}
    (related : R (g₁ s₁) (g₂ s₂)) (rest : Agree R (f₁ ⟨⟩) (f₂ ⟨⟩)) :
    AgreeFrom R (modify g₁ >>= f₁) (modify g₂ >>= f₂) s₁ s₂ :=
  rest (g₁ s₁) (g₂ s₂) related

end AgreeFrom

namespace Agree

variable {R : σ → σ → Prop}

theorem pure (a : α) : Agree (ε := ε) R (Pure.pure a) (Pure.pure a) :=
  fun _ _ related => ⟨rfl, related⟩

theorem throw (e : ε) :
    Agree R (MonadExceptOf.throw e : ExceptT ε (StateM σ) α) (MonadExceptOf.throw e) :=
  fun _ _ related => ⟨rfl, related⟩

/-- The same failure on both sides agrees, whatever was to follow it. -/
theorem throw_bind (e : ε) {f₁ f₂ : α → ExceptT ε (StateM σ) β} :
    Agree R (MonadExceptOf.throw e >>= f₁) (MonadExceptOf.throw e >>= f₂) :=
  fun _ _ related => ⟨rfl, related⟩

theorem bind {x₁ x₂ : ExceptT ε (StateM σ) α} {f₁ f₂ : α → ExceptT ε (StateM σ) β}
    (first : Agree R x₁ x₂) (rest : ∀ a, Agree R (f₁ a) (f₂ a)) : Agree R (x₁ >>= f₁) (x₂ >>= f₂) :=
  fun s₁ s₂ related => (first s₁ s₂ related).bind rest

/-- What follows may use that the first steps gave their value from some state. -/
theorem bind_of_yields {x₁ x₂ : ExceptT ε (StateM σ) α} {f₁ f₂ : α → ExceptT ε (StateM σ) β}
    (first : Agree R x₁ x₂) (rest : ∀ a, (∃ s, (x₁.run.run s).1 = .ok a) → Agree R (f₁ a) (f₂ a)) :
    Agree R (x₁ >>= f₁) (x₂ >>= f₂) := by
  intro s₁ s₂ related
  obtain ⟨same, related'⟩ := first s₁ s₂ related
  have yields : ∀ a, (x₁.run.run s₁).1 = .ok a → ∃ s, (x₁.run.run s).1 = .ok a :=
    fun a ran => ⟨s₁, ran⟩
  unfold AgreeFrom
  rw [run_bind, run_bind]
  revert same related' yields
  rcases x₁.run.run s₁ with ⟨_ | a, t₁⟩ <;> rcases x₂.run.run s₂ with ⟨_ | b, t₂⟩ <;>
    intro same related' yields
  · cases same
    exact ⟨rfl, related'⟩
  · cases same
  · cases same
  · cases same
    exact rest a (yields a rfl) t₁ t₂ related'

theorem map {x₁ x₂ : ExceptT ε (StateM σ) α} (f : α → β) (agree : Agree R x₁ x₂) :
    Agree R (f <$> x₁) (f <$> x₂) := by
  simp only [map_eq_pure_bind]
  exact bind agree fun a => pure (f a)

/-- Two computations that start by reading the state agree when they agree from each pair of
related states they may read. -/
theorem get_bind {f₁ f₂ : σ → ExceptT ε (StateM σ) α}
    (rest : ∀ s₁ s₂, R s₁ s₂ → AgreeFrom R (f₁ s₁) (f₂ s₂) s₁ s₂) :
    Agree R (get >>= f₁) (get >>= f₂) := by
  intro s₁ s₂ related
  unfold AgreeFrom
  rw [run_get_bind, run_get_bind]
  exact rest s₁ s₂ related

theorem forM {xs : List β} {f₁ f₂ : β → ExceptT ε (StateM σ) PUnit}
    (round : ∀ b ∈ xs, Agree R (f₁ b) (f₂ b)) : Agree R (xs.forM f₁) (xs.forM f₂) := by
  induction xs with
  | nil => exact pure PUnit.unit
  | cons b rest inductionHypothesis =>
    simp only [List.forM_eq_forM, List.forM_cons]
    exact bind (round b List.mem_cons_self) fun _ =>
      inductionHypothesis fun c member => round c (List.mem_cons_of_mem b member)

theorem mapM {xs : List β} {f₁ f₂ : β → ExceptT ε (StateM σ) α}
    (round : ∀ b ∈ xs, Agree R (f₁ b) (f₂ b)) : Agree R (xs.mapM f₁) (xs.mapM f₂) := by
  induction xs with
  | nil => exact pure []
  | cons b rest inductionHypothesis =>
    simp only [List.mapM_cons]
    exact bind (round b List.mem_cons_self) fun a =>
      bind (inductionHypothesis fun c member => round c (List.mem_cons_of_mem b member)) fun as =>
        pure (a :: as)

end Agree

end Lowering.Proofs
