import Lowering.Proofs.CacheTransparency

/-! # The counts of the body cache

A session's body cache counts its lookups, its hits and its inserts. A body is inserted only after
a lookup of its signature missed and its translation succeeded, so in a library that does not call
itself the counts stay consistent at every step of a session, however a pass ends:

* `BodyCache.Counted` — hits are at most the lookups, inserts and hits together are at most the
  lookups, and there is one entry per insert;
* `BodyCache.Tallied spare` — the invariant behind it: `spare` lookups more than inserts and hits,
  and one entry per insert; a miss adds a lookup to spare, and the insert after it uses it up;
* `bodySource_keepsCounts` — a call of a session's body source keeps the counts, and adds entries
  only for its own body and the bodies that rank below it, so the signature it missed is still
  missing when it inserts it;
* `convertedModel_counted` — the main statement, for every call of the session's body source and
  for the session's top-level translation, whether it succeeds or fails.
-/

namespace Lowering.Pass.BodyCache

open Lowering.Ir

/-- The counts of a cache are consistent: every hit and every insert follows a lookup of its own,
and every insert stored an entry of its own. -/
def Counted (c : BodyCache) : Prop :=
  c.stats.hits ≤ c.stats.lookups ∧ c.stats.inserts + c.stats.hits ≤ c.stats.lookups ∧
    c.size = c.stats.inserts

/-- The counts of a cache leave `spare` lookups over its inserts and hits, and every insert stored
an entry of its own. -/
def Tallied (spare : Nat) (c : BodyCache) : Prop :=
  c.stats.inserts + c.stats.hits + spare ≤ c.stats.lookups ∧ c.size = c.stats.inserts

variable {c : BodyCache} {sig : Signature} {m : Model} {spare : Nat}

@[simp] theorem entries_lookup : (c.lookup sig).2.entries = c.entries := rfl

@[simp] theorem lookups_lookup : (c.lookup sig).2.stats.lookups = c.stats.lookups + 1 := rfl

@[simp] theorem inserts_lookup : (c.lookup sig).2.stats.inserts = c.stats.inserts := rfl

theorem hits_lookup :
    (c.lookup sig).2.stats.hits = if (c.lookup sig).1.isSome then c.stats.hits + 1 else c.stats.hits :=
  rfl

@[simp] theorem lookups_insert : (c.insert sig m).stats.lookups = c.stats.lookups := rfl

@[simp] theorem hits_insert : (c.insert sig m).stats.hits = c.stats.hits := rfl

@[simp] theorem inserts_insert : (c.insert sig m).stats.inserts = c.stats.inserts + 1 := rfl

theorem counted_iff_tallied : c.Counted ↔ c.Tallied 0 := by
  unfold Counted Tallied
  omega

/-- A lookup that misses finds no entry of its signature. -/
theorem absent_of_lookup (missed : (c.lookup sig).1 = none) : ∀ e ∈ c.entries, e.1 ≠ sig := by
  intro e member same
  have none : c.entries.find? (·.1 == sig) = none := Option.map_eq_none_iff.mp missed
  have differs := List.find?_eq_none.mp none e member
  simp [same] at differs

/-- Inserting a signature the cache does not hold adds an entry. -/
theorem size_insert_of_absent (absent : ∀ e ∈ c.entries, e.1 ≠ sig) :
    (c.insert sig m).size = c.size + 1 := by
  have kept : c.entries.filter (·.1 != sig) = c.entries :=
    List.filter_eq_self.mpr fun e member => by simpa using absent e member
  simp [insert, size, kept]

theorem mem_insert {e : Signature × Model} (member : e ∈ (c.insert sig m).entries) :
    e ∈ c.entries ∨ e = (sig, m) := by
  rcases List.mem_append.mp member with kept | new
  · exact .inl (List.mem_filter.mp kept).1
  · exact .inr (List.mem_singleton.mp new)

namespace Tallied

theorem mono {spare' : Nat} (tallied : c.Tallied spare) (fewer : spare' ≤ spare) : c.Tallied spare' :=
  ⟨by have := tallied.1; omega, tallied.2⟩

/-- A lookup keeps the counts: a hit is counted with its lookup. -/
theorem lookup (tallied : c.Tallied spare) : (c.lookup sig).2.Tallied spare := by
  obtain ⟨counted, sized⟩ := tallied
  refine ⟨?_, sized⟩
  rw [hits_lookup, lookups_lookup, inserts_lookup]
  split <;> omega

/-- A lookup that misses leaves one more lookup to spare. -/
theorem lookup_miss (tallied : c.Tallied spare) (missed : (c.lookup sig).1 = none) :
    (c.lookup sig).2.Tallied (spare + 1) := by
  obtain ⟨counted, sized⟩ := tallied
  refine ⟨?_, sized⟩
  rw [hits_lookup, lookups_lookup, inserts_lookup, missed]
  simp only [Option.isSome_none, Bool.false_eq_true, if_false]
  omega

/-- Inserting a new signature uses up a lookup to spare and adds an entry. -/
theorem insert (tallied : c.Tallied (spare + 1)) (absent : ∀ e ∈ c.entries, e.1 ≠ sig) :
    (c.insert sig m).Tallied spare := by
  obtain ⟨counted, sized⟩ := tallied
  refine ⟨?_, ?_⟩
  · simp only [lookups_insert, hits_insert, inserts_insert]
    omega
  · rw [size_insert_of_absent absent, inserts_insert, sized]

end Tallied

end Lowering.Pass.BodyCache

namespace Lowering

open Lowering.Ir Lowering.Pass Lowering.Proofs Lowering.Translator

section Counting

variable {registry : Registry} {options : Options} {library : Source.Graph} {rank : String → Nat}

theorem bodySource_absent (depth : Nat) {identity : String} (absent : library.hasFunction identity = false)
    (inputs : List Handle) (g : Graph) (c : BodyCache) :
    bodySource registry options library depth identity inputs g c = (.ok none, c) := by
  cases depth <;> simp [bodySource, absent]

/-- What one call of a body source for `identity` keeps of the counts: the lookups to spare and an
entry per insert; and every entry it adds is of a body that ranks at most as `identity`. -/
def KeepsCounts (rank : String → Nat) (bodies : BodySource) (identity : String) : Prop :=
  ∀ inputs g c spare, BodyCache.Tallied spare c →
    BodyCache.Tallied spare (bodies identity inputs g c).2 ∧
      ∀ e ∈ (bodies identity inputs g c).2.entries, e ∈ c.entries ∨ rank e.1.identity ≤ rank identity

/-- In a ranked library, a call of the session's body source keeps the counts. A hit is counted
with its lookup. A miss leaves a lookup to spare while the body is lowered; that pass asks only
for bodies that rank lower, so it keeps the counts and adds no entry of the missed signature, and
the insert after it uses up the spare lookup on a new entry. -/
theorem bodySource_keepsCounts (ranked : Ranked registry library rank) :
    ∀ depth identity, (library.hasFunction identity = true → rank identity < depth) →
      KeepsCounts rank (bodySource registry options library depth) identity := by
  intro depth
  -- on the depth: a miss lowers the body on the body source one level less deep
  induction depth with
  | zero => exact fun _ _ _ _ _ _ tallied => ⟨tallied, fun _ member => .inl member⟩
  | succ depth inductionHypothesis =>
    intro identity asked inputs g c spare tallied
    cases present : library.hasFunction identity with
    | false =>
      rw [bodySource_absent _ present]
      exact ⟨tallied, fun _ member => .inl member⟩
    | true =>
    have below := asked present
    have tallied₁ : (c.lookup (Signature.ofCall identity inputs g)).2.Tallied spare := tallied.lookup
    have missed : (c.lookup (Signature.ofCall identity inputs g)).1 = none →
        (c.lookup (Signature.ofCall identity inputs g)).2.Tallied (spare + 1) :=
      tallied.lookup_miss
    have absent : (c.lookup (Signature.ofCall identity inputs g)).1 = none →
        ∀ e ∈ c.entries, e.1 ≠ Signature.ofCall identity inputs g :=
      BodyCache.absent_of_lookup
    have sameEntries : (c.lookup (Signature.ofCall identity inputs g)).2.entries = c.entries :=
      BodyCache.entries_lookup
    cases looked : c.lookup (Signature.ofCall identity inputs g) with
    | mk found c₁ =>
    rw [looked] at tallied₁ missed absent sameEntries
    dsimp only at tallied₁ missed absent sameEntries
    -- entries the lookup left in place are entries of `c`
    have kept : ∀ e ∈ c₁.entries, e ∈ c.entries ∨ rank e.1.identity ≤ rank identity :=
      fun e member => .inl (sameEntries ▸ member)
    cases found with
    | some m =>
      simp only [bodySource, present, looked, Bool.not_true, Bool.false_eq_true, if_false]
      exact ⟨tallied₁, kept⟩
    | none =>
    have missed := missed rfl
    have absent := absent rfl
    simp only [bodySource, present, looked, Bool.not_true, Bool.false_eq_true, if_false]
    cases found : library.bodyGraph? identity with
    | none => exact ⟨tallied₁, kept⟩
    | some body =>
    dsimp only
    cases pinned : body.specialize (Signature.ofCall identity inputs g).shapes
      (Signature.ofCall identity inputs g).types with
    | error e => exact ⟨tallied₁, kept⟩
    | ok src =>
    dsimp only
    -- the pass over the body keeps a lookup to spare and adds only bodies ranked lower
    let Lower (c' : BodyCache) : Prop :=
      c'.Tallied (spare + 1) ∧ ∀ e ∈ c'.entries, e ∈ c.entries ∨ rank e.1.identity < rank identity
    have lowered : Lower ((lowerGraph ⟨registry, options, library,
        bodySource registry options library depth⟩ src identity).run c₁).2 := by
      refine lowerGraph_keeps src identity ?_ ⟨missed, fun e member => .inl (sameEntries ▸ member)⟩
      rintro callee ⟨op, member, requested⟩ inputs' g' c' ⟨tallied', lower⟩
      cases present' : library.hasFunction callee with
      | false =>
        rw [bodySource_absent _ present']
        exact ⟨tallied', lower⟩
      | true =>
        have ranks := ranked.callee_lt found pinned member requested present'
        obtain ⟨tallied'', added⟩ :=
          inductionHypothesis callee (fun _ => by omega) inputs' g' c' (spare + 1) tallied'
        exact ⟨tallied'', fun e member' => (added e member').elim (lower e) fun le => .inr (by omega)⟩
    cases ran : (lowerGraph ⟨registry, options, library, bodySource registry options library depth⟩
      src identity).run c₁ with
    | mk outcome c₂ =>
    rw [ran] at lowered
    obtain ⟨tallied₂, lower₂⟩ := lowered
    cases outcome with
    | error e => exact ⟨tallied₂.mono (Nat.le_succ spare), fun e member => (lower₂ e member).imp_right Nat.le_of_lt⟩
    | ok M =>
    -- the missed signature is still missing: the pass added only bodies ranked lower
    have fresh : ∀ e ∈ c₂.entries, e.1 ≠ Signature.ofCall identity inputs g := by
      intro e member same
      rcases lower₂ e member with old | lower
      · exact absent e (sameEntries ▸ old) same
      · rw [same, Signature.identity_ofCall] at lower
        exact Nat.lt_irrefl _ lower
    refine ⟨tallied₂.insert fresh, fun e member => ?_⟩
    rcases BodyCache.mem_insert member with old | rfl
    · exact (lower₂ e old).imp_right Nat.le_of_lt
    · exact .inr (Nat.le_refl _)

end Counting

/-- In a session on a library that does not call itself, the body cache's counts stay consistent:
every call of the session's body source, at any depth and from any translator, keeps them, and so
does the session's translation of its top-level graph, whether it succeeds or fails. Hits are at
most the lookups, inserts and hits together are at most the lookups, and there is one entry per
insert, so no signature is inserted twice. -/
theorem convertedModel_counted (s : Session) (nonRecursive : NonRecursive s.registry s.library)
    (counted : s.cache.Counted) :
    (∀ identity inputs g (c : BodyCache), c.Counted → (s.env.bodies identity inputs g c).2.Counted) ∧
      s.convertedModel.2.cache.Counted := by
  obtain ⟨rank, ranked⟩ := nonRecursive
  -- every library body ranks below the session's depth
  have keeps : ∀ identity inputs g (c : BodyCache), c.Tallied 0 →
      (bodySource s.registry s.options s.library (s.library.functions.length + 1)
        identity inputs g c).2.Tallied 0 := by
    intro identity inputs g c tallied
    have keepsCounts : KeepsCounts rank
        (bodySource s.registry s.options s.library (s.library.functions.length + 1)) identity :=
      bodySource_keepsCounts ranked _ identity fun present => by
        have ranks := ranked.rank_lt_length present
        omega
    exact (keepsCounts inputs g c 0 tallied).1
  refine ⟨fun identity inputs g c counted' => BodyCache.counted_iff_tallied.mpr
    (keeps identity inputs g c (BodyCache.counted_iff_tallied.mp counted')), ?_⟩
  unfold Session.convertedModel Session.env
  split
  · exact counted
  · have lowered : BodyCache.Tallied 0 ((lowerGraph ⟨s.registry, s.options, s.library,
        bodySource s.registry s.options s.library (s.library.functions.length + 1)⟩ s.library
        s.options.modelName).run s.cache).2 :=
      lowerGraph_keeps s.library s.options.modelName
        (fun identity _ inputs g c tallied => keeps identity inputs g c tallied)
        (BodyCache.counted_iff_tallied.mp counted)
    cases ran : (lowerGraph ⟨s.registry, s.options, s.library,
        bodySource s.registry s.options s.library (s.library.functions.length + 1)⟩ s.library
        s.options.modelName).run s.cache with
    | mk outcome cache =>
    rw [ran] at lowered
    cases outcome with
    | error e => exact BodyCache.counted_iff_tallied.mpr lowered
    | ok M => exact BodyCache.counted_iff_tallied.mpr lowered

/-- A library whose top graph repeats the body `Step` twice through a translator that then gives
up: the body is looked up twice and translated once, and the translator fails after both. -/
def repeatThenGiveUp : Source.Graph where
  inputs := [{ name := "x", elementType := .f32, shape := ⟨some [.known 4]⟩ }]
  operations :=
    [{ name := "loop", opType := "Repeat", inputs := [{ producer := "x" }], attrs := [("fail_after", .bool true)] }]
  functions :=
    [("Step", { inputs := [{ name := "arg" }], operations := [{ name := "n", opType := "Neg", inputs := [{ producer := "arg" }] }] })]

/-- A session on `repeatThenGiveUp` whose `Repeat` operations repeat a body. -/
def repeatSession : Session where
  library := repeatThenGiveUp
  registry := [("Repeat", .repeatBody)]
  options := {}

/-- The library of `repeatThenGiveUp` does not call itself, and its session keeps its counts. -/
theorem convertedModel_counted_repeatThenGiveUp :
    NonRecursive repeatSession.registry repeatSession.library ∧ repeatSession.cache.Counted ∧
      ((∀ identity inputs g (c : Pass.BodyCache), c.Counted →
          (repeatSession.env.bodies identity inputs g c).2.Counted) ∧
        repeatSession.convertedModel.2.cache.Counted) := by
  have nonRecursive : NonRecursive repeatSession.registry repeatSession.library := by
    refine ⟨fun _ => 0, ?_⟩
    intro identity body found
    -- `Step` asks only for `Neg`, which is no body of the library
    by_cases step : identity = "Step"
    · subst step
      simp [repeatSession, repeatThenGiveUp, Source.Graph.bodyGraph?, Source.Graph.function?] at found
      simp [← found, bodyRequests, Source.Graph.hasFunction, repeatThenGiveUp, repeatSession]
    · simp [repeatSession, repeatThenGiveUp, Source.Graph.bodyGraph?, Source.Graph.function?,
        Ne.symm step] at found
  have empty : repeatSession.cache.Counted := by
    simp [Pass.BodyCache.Counted, Pass.BodyCache.size, repeatSession]
  exact ⟨nonRecursive, empty, convertedModel_counted _ nonRecursive empty⟩

end Lowering
