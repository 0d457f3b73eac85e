import Mathlib.Algebra.Group.Nat.Defs
import Lowering.Source.Edge

/-! # The texts of edges and declared outputs

An edge and a declared output are written as text, and the source graph is read from those texts.
This module gives each a grammar, written without the reader, and shows that the reader accepts
exactly the texts the grammar derives, and that writing reads back:

* `Edge.Spells` — `^producer` for a control edge; `producer`, `producer:I` or `producer:group:I`
  for a data edge, where `I` is any text of the index as a count. `Edge.edgeText_roundTrip`: a text
  is read as `e` exactly when `e` is well formed and the text spells it; a well-formed edge reads
  back from its written form, and so does every edge that was read.
* `Sink.Spells` — `name`, `name:I` for one output, `D:name` for the value feeding input slot `D`
  (digits only). `Sink.sinkText_roundTrip` says the same of declared outputs.

The two readers split differently: an edge at every colon, a declared output at the first one, and
a declared output whose left part is all digits names an input slot. So `12:34` is the slot 12 of
`34` and never the output 34 of `12`, which is why a well-formed output of an operation may not
have an all-digit name.

A count (`readCount?`) is an optional `+`, then ASCII digits with a value below `2^64`
(`readCount?_eq_some_iff`).
-/

namespace Lowering.Source

/-! ## Fields -/

/-- No piece of a split holds the separator. -/
theorem not_mem_of_mem_splitOn {c : Char} {l x : List Char} (member : x ∈ l.splitOn c) : c ∉ x := by
  induction l generalizing x with
  | nil =>
    rw [List.splitOn_nil, List.mem_singleton] at member
    subst member
    exact List.not_mem_nil
  | cons hd tl inductionHypothesis =>
    rw [List.splitOn_cons_eq_if_modifyHead] at member
    split at member
    · rcases List.mem_cons.mp member with rfl | later
      · exact List.not_mem_nil
      · exact inductionHypothesis later
    · rename_i differs
      -- the first piece of the tail grows by `hd`, which is not the separator
      obtain ⟨y, ys, split⟩ := List.exists_cons_of_ne_nil (List.splitOn_ne_nil c tl)
      rw [split, List.modifyHead_cons] at member
      rcases List.mem_cons.mp member with rfl | later
      · have rest : c ∉ y := inductionHypothesis (split ▸ List.mem_cons_self)
        simp only [List.mem_cons, not_or]
        exact ⟨fun same => differs (by simp [same]), rest⟩
      · exact inductionHypothesis (split ▸ List.mem_cons_of_mem y later)

theorem fields_ne_nil (s : String) : fields s ≠ [] := by
  simp [fields]

theorem colon_not_mem_of_mem_fields {s x : String} (member : x ∈ fields s) : ':' ∉ x.toList := by
  obtain ⟨piece, inSplit, rfl⟩ := List.mem_map.mp member
  rw [String.toList_ofList]
  exact not_mem_of_mem_splitOn inSplit

/-- Joining the fields with colons gives the text back. -/
theorem intercalate_fields (s : String) : ":".intercalate (fields s) = s := by
  apply String.toList_inj.mp
  simp [fields, String.toList_intercalate]

theorem fields_of_colonFree {s : String} (free : ':' ∉ s.toList) : fields s = [s] := by
  simp [fields, List.splitOn_eq_singleton free, String.ofList_toList]

/-- A colon after a colon-free text ends the first field. -/
theorem fields_append_colon {p : String} (free : ':' ∉ p.toList) (q : String) :
    fields (p ++ ":" ++ q) = p :: fields q := by
  have spelled : (p ++ ":" ++ q).toList = p.toList ++ ':' :: q.toList := by simp
  simp [fields, spelled, List.splitOn_append_cons_self_of_not_mem free, String.ofList_toList]

/-- A name as these texts write it: non-empty and without a colon. -/
def Name (x : String) : Prop := x ≠ "" ∧ ':' ∉ x.toList

/-! ## Counts -/

theorem digitsValue_eq_ofDigitChars (cs : List Char) : digitsValue cs = Nat.ofDigitChars 10 cs 0 := by
  simp only [digitsValue, Nat.ofDigitChars, Nat.mul_comm]
  rfl

/-- The count texts: an optional `+`, then at least one ASCII digit, with a value below `2^64`;
leading zeros are allowed. -/
theorem readCount?_eq_some_iff {i : String} {n : Nat} :
    readCount? i = some n ↔ ∃ sign digits, i.toList = sign ++ digits ∧ (sign = [] ∨ sign = ['+']) ∧
      digits ≠ [] ∧ (∀ c ∈ digits, c.isDigit = true) ∧ digitsValue digits = n ∧ n < 2 ^ 64 := by
  -- what becomes of the digits that follow the sign
  have accepted : ∀ digits, (if (digits.isEmpty || !digits.all Char.isDigit) = true then none
      else if digitsValue digits < Nat.pow 2 64 then some (digitsValue digits) else none) = some n ↔
      digits ≠ [] ∧ (∀ c ∈ digits, c.isDigit = true) ∧ digitsValue digits = n ∧ n < 2 ^ 64 := by
    intro digits
    have pow : Nat.pow 2 64 = 2 ^ 64 := rfl
    rw [pow]
    by_cases good : digits ≠ [] ∧ ∀ c ∈ digits, c.isDigit = true
    · have pass : (digits.isEmpty || !digits.all Char.isDigit) = false := by
        simpa [List.isEmpty_iff] using good
      rw [pass, if_neg Bool.false_ne_true]
      by_cases bound : digitsValue digits < 2 ^ 64
      · rw [if_pos bound, Option.some.injEq]
        constructor
        · rintro rfl
          exact ⟨good.1, good.2, rfl, bound⟩
        · rintro ⟨-, -, same, -⟩
          exact same
      · rw [if_neg bound]
        constructor
        · intro absurdity
          cases absurdity
        · rintro ⟨-, -, rfl, lt⟩
          exact absurd lt bound
    · have fail : (digits.isEmpty || !digits.all Char.isDigit) = true := by
        by_cases empty : digits = []
        · simp [empty]
        · simpa [List.isEmpty_iff, empty] using good
      rw [fail, if_pos rfl]
      constructor
      · intro absurdity
        cases absurdity
      · rintro ⟨nonempty, digit, -⟩
        exact absurd ⟨nonempty, digit⟩ good
  unfold readCount?
  dsimp only
  constructor
  · intro read
    split at read
    · rename_i rest signed
      exact ⟨['+'], rest, signed, .inr rfl, (accepted rest).mp read⟩
    · exact ⟨[], i.toList, rfl, .inl rfl, (accepted i.toList).mp read⟩
  · rintro ⟨sign, digits, spelled, signed, counted⟩
    rcases signed with rfl | rfl
    · rw [List.nil_append] at spelled
      split
      · -- an unsigned count starts with a digit, not with `+`
        rename_i rest plus
        obtain ⟨-, digit, -⟩ := counted
        exact absurd (digit '+' (by simp [← spelled, plus])) (by decide)
      · rw [spelled]
        exact (accepted digits).mpr counted
    · rw [spelled]
      exact (accepted digits).mpr counted

theorem lt_of_readCount? {i : String} {n : Nat} (read : readCount? i = some n) : n < 2 ^ 64 := by
  obtain ⟨-, -, -, -, -, -, -, bound⟩ := readCount?_eq_some_iff.mp read
  exact bound

theorem colon_not_mem_of_readCount? {i : String} {n : Nat} (read : readCount? i = some n) :
    ':' ∉ i.toList := by
  obtain ⟨sign, digits, spelled, signed, -, digit, -⟩ := readCount?_eq_some_iff.mp read
  rw [spelled, List.mem_append]
  rintro (inSign | inDigits)
  · rcases signed with rfl | rfl <;> simp at inSign
  · exact absurd (digit ':' inDigits) (by decide)

/-- A number below `2^64` reads back from its decimal text. -/
theorem readCount?_toString {n : Nat} (bound : n < 2 ^ 64) : readCount? (toString n) = some n :=
  readCount?_eq_some_iff.mpr ⟨[], Nat.toDigits 10 n, by simp, .inl rfl, Nat.toDigits_ne_nil,
    fun _ member => Nat.isDigit_of_mem_toDigits (by decide) (by decide) member,
    by rw [digitsValue_eq_ofDigitChars, Nat.ofDigitChars_ten_toDigits], bound⟩

theorem readCount?_of_allDigits {d : String} (nonempty : d ≠ "") (digits : allDigits d = true)
    (bound : digitsValue d.toList < 2 ^ 64) : readCount? d = some (digitsValue d.toList) :=
  readCount?_eq_some_iff.mpr ⟨[], d.toList, rfl, .inl rfl, by simpa using nonempty,
    by simpa [allDigits] using digits, rfl, bound⟩

/-- A count written in digits alone has the value of its digits. -/
theorem digitsValue_of_readCount? {d : String} {n : Nat} (digits : allDigits d = true)
    (read : readCount? d = some n) : digitsValue d.toList = n := by
  obtain ⟨sign, rest, spelled, signed, -, -, valued, -⟩ := readCount?_eq_some_iff.mp read
  rcases signed with rfl | rfl
  · simpa [spelled] using valued
  · exact absurd ((List.all_eq_true.mp digits) '+' (by simp [spelled])) (by decide)

theorem colon_not_mem_of_allDigits {d : String} (digits : allDigits d = true) : ':' ∉ d.toList :=
  fun member => absurd ((List.all_eq_true.mp digits) ':' member) (by decide)

theorem allDigits_toString (n : Nat) : allDigits (toString n) = true := by
  simpa [allDigits] using fun c member => Nat.isDigit_of_mem_toDigits (by decide) (by decide) member

/-! ## Edges -/

namespace Edge

/-- A producer as a data edge names it: a name that does not start with `^`, which would make the
edge a control edge. -/
def Producer (p : String) : Prop := Name p ∧ p.toList.head? ≠ some '^'

/-- The edges a text can stand for: a control edge has a non-empty producer, no group and index 0;
a data edge names a producer, possibly a group, and an index below `2^64`. -/
def WellFormed : Edge → Prop
  | ⟨p, g, i, true⟩ => p ≠ "" ∧ g = none ∧ i = 0
  | ⟨p, g, i, false⟩ => Producer p ∧ (∀ n ∈ g, Name n) ∧ i < 2 ^ 64

/-- The texts that spell an edge: `^producer` for a control edge; for a data edge the bare
producer (index 0, no group), or the producer, the group if there is one, and any count text of
the index, separated by colons. -/
inductive Spells : String → Edge → Prop
  | control (p : String) : Spells ("^" ++ p) ⟨p, none, 0, true⟩
  | bare (p : String) : Spells p ⟨p, none, 0, false⟩
  | indexed (p i : String) {n : Nat} : readCount? i = some n → Spells (p ++ ":" ++ i) ⟨p, none, n, false⟩
  | grouped (p g i : String) {n : Nat} : readCount? i = some n →
      Spells (p ++ ":" ++ g ++ ":" ++ i) ⟨p, some g, n, false⟩

theorem head?_append_colon {p : String} (nonempty : p ≠ "") (q : String) :
    (p ++ ":" ++ q).toList.head? = p.toList.head? := by
  obtain ⟨c, cs, spelled⟩ := List.exists_cons_of_ne_nil (mt String.toList_eq_nil_iff.mp nonempty)
  simp [spelled]

/-- A well-formed edge is read from each text that spells it. -/
theorem parse?_of_spells {s : String} {e : Edge} (wellFormed : e.WellFormed) (spelled : Spells s e) :
    parse? s = some e := by
  -- a data edge's text starts with its producer, so it is not read as a control edge
  have data : ∀ {t : String}, t.toList.head? ≠ some '^' → ∀ rest, t.toList ≠ '^' :: rest :=
    fun head rest caret => head (by simp [caret])
  cases spelled with
  | control p =>
    have caret : ("^" ++ p).toList = '^' :: p.toList := by simp
    obtain ⟨nonempty, -, -⟩ := wellFormed
    unfold parse?
    rw [caret]
    simp [String.ofList_toList, nonempty]
  | bare p =>
    obtain ⟨⟨⟨nonempty, free⟩, head⟩, -, -⟩ := wellFormed
    unfold parse?
    split
    · rename_i rest caret
      exact absurd caret (data head rest)
    · rw [fields_of_colonFree free]
      simp [nonempty]
  | indexed p i read =>
    obtain ⟨⟨⟨nonempty, free⟩, head⟩, -, -⟩ := wellFormed
    unfold parse?
    split
    · rename_i rest caret
      exact absurd caret (data (by rwa [head?_append_colon nonempty]) rest)
    · rw [fields_append_colon free, fields_of_colonFree (colon_not_mem_of_readCount? read)]
      simp [read, nonempty]
  | grouped p g i read =>
    obtain ⟨⟨⟨nonempty, free⟩, head⟩, group, -⟩ := wellFormed
    obtain ⟨groupNonempty, groupFree⟩ := group g rfl
    have nested : p ++ ":" ++ g ++ ":" ++ i = p ++ ":" ++ (g ++ ":" ++ i) := by
      simp only [String.append_assoc]
    rw [nested]
    unfold parse?
    split
    · rename_i rest caret
      exact absurd caret (data (by rwa [head?_append_colon nonempty]) rest)
    · rw [fields_append_colon free, fields_append_colon groupFree,
        fields_of_colonFree (colon_not_mem_of_readCount? read)]
      simp [read, nonempty, groupNonempty]

/-- A text that is read spells the edge read, and that edge is well formed. -/
theorem spells_of_parse? {s : String} {e : Edge} (read : parse? s = some e) :
    e.WellFormed ∧ Spells s e := by
  have whole := intercalate_fields s
  have free : ∀ x ∈ fields s, ':' ∉ x.toList := fun _ member => colon_not_mem_of_mem_fields member
  unfold parse? at read
  split at read
  · rename_i rest caret
    split at read
    · cases read
    · rename_i nonempty
      cases read
      have spelled : s = "^" ++ String.ofList rest := String.toList_inj.mp (by simp [caret])
      refine ⟨⟨fun empty => nonempty ?_, rfl, rfl⟩, spelled ▸ Spells.control _⟩
      simpa using congrArg String.toList empty
  · rename_i noCaret
    have head : s.toList.head? ≠ some '^' := by
      intro starts
      obtain ⟨rest, caret⟩ : ∃ rest, s.toList = '^' :: rest := by
        cases spelled : s.toList with
        | nil => simp [spelled] at starts
        | cons c rest => simp_all
      exact noCaret rest caret
    -- one, two or three fields: the producer, then the group if any, then the index
    split at read
    · rename_i p split
      rw [split, String.intercalate_singleton] at whole
      subst whole
      split at read
      · cases read
      · rename_i nonempty
        cases read
        exact ⟨⟨⟨⟨by simpa using nonempty, free _ (by simp [split])⟩, head⟩, by simp, by decide⟩,
          .bare _⟩
    · rename_i p i split
      rw [split, String.intercalate_cons_cons, String.intercalate_singleton] at whole
      subst whole
      split at read
      · rename_i n count
        split at read
        · cases read
        · rename_i nonempty
          cases read
          have named : p ≠ "" := by simpa using nonempty
          exact ⟨⟨⟨⟨named, free _ (by simp [split])⟩, by rwa [head?_append_colon named] at head⟩,
            by simp, lt_of_readCount? count⟩, .indexed p i count⟩
      · cases read
    · rename_i p g i split
      rw [split, String.intercalate_cons_cons, String.intercalate_cons_cons,
        String.intercalate_singleton] at whole
      subst whole
      split at read
      · cases read
      · rename_i grouped
        split at read
        · rename_i n count
          split at read
          · cases read
          · rename_i nonempty
            cases read
            have named : p ≠ "" := by simpa using nonempty
            have spelled : p ++ ":" ++ (g ++ ":" ++ i) = p ++ ":" ++ g ++ ":" ++ i := by
              simp only [String.append_assoc]
            refine ⟨⟨⟨⟨named, free _ (by simp [split])⟩, ?_⟩, ?_, lt_of_readCount? count⟩,
              spelled ▸ .grouped p g i count⟩
            · rwa [head?_append_colon named] at head
            · intro name member
              cases Option.mem_some_iff.mp member
              exact ⟨by simpa using grouped, free _ (by simp [split])⟩
        · cases read
    · cases read

theorem parse?_eq_some_iff {s : String} {e : Edge} : parse? s = some e ↔ e.WellFormed ∧ Spells s e :=
  ⟨spells_of_parse?, fun ⟨wellFormed, spelled⟩ => parse?_of_spells wellFormed spelled⟩

/-- The written form of a well-formed edge spells it. -/
theorem spells_render {e : Edge} (wellFormed : e.WellFormed) : Spells e.render e := by
  obtain ⟨p, g, i, control⟩ := e
  cases control with
  | true =>
    obtain ⟨-, rfl, rfl⟩ := wellFormed
    exact .control p
  | false =>
    obtain ⟨-, -, bound⟩ := wellFormed
    cases g with
    | none => exact .indexed p _ (readCount?_toString bound)
    | some g => exact .grouped p g _ (readCount?_toString bound)

/-- Reading an edge accepts exactly the texts that spell a well-formed edge. Writing a well-formed
edge spells it, so it reads back; and an edge that was read is written in a form that reads back to
it, so writing what was read and reading it again changes nothing. -/
theorem edgeText_roundTrip :
    (∀ s e, parse? s = some e ↔ e.WellFormed ∧ Spells s e) ∧
      (∀ e, e.WellFormed → parse? e.render = some e) ∧
      (∀ s e, parse? s = some e → parse? e.render = some e) := by
  have writes : ∀ e, e.WellFormed → parse? e.render = some e :=
    fun _ wellFormed => parse?_of_spells wellFormed (spells_render wellFormed)
  exact ⟨fun _ _ => parse?_eq_some_iff, writes,
    fun _ e read => writes e (spells_of_parse? read).1⟩

/-- A signed, zero-padded index is read, and the edge is written without them and read back. -/
theorem edgeText_roundTrip_padded :
    parse? "unique:idx:+01" = some ⟨"unique", some "idx", 1, false⟩ ∧
      parse? (render ⟨"unique", some "idx", 1, false⟩) = some ⟨"unique", some "idx", 1, false⟩ := by
  have read : parse? "unique:idx:+01" = some ⟨"unique", some "idx", 1, false⟩ := by decide
  exact ⟨read, edgeText_roundTrip.2.2 _ _ read⟩

end Edge

/-! ## Declared outputs -/

namespace Sink

/-- The declared outputs a text can stand for: the name is a name; a name followed by an output
index is not all digits, since such a text names an input slot; indices and slots are below
`2^64`. -/
def WellFormed : Sink → Prop
  | ⟨name, .all⟩ => Name name
  | ⟨name, .output p⟩ => Name name ∧ allDigits name = false ∧ p < 2 ^ 64
  | ⟨name, .feed i⟩ => Name name ∧ i < 2 ^ 64

/-- The texts that spell a declared output: the name alone for all outputs; the name and any count
text of the index for one output; the slot in digits alone and the name for the value feeding an
input slot. -/
inductive Spells : String → Sink → Prop
  | all (name : String) : Spells name ⟨name, .all⟩
  | output (name i : String) {p : Nat} : readCount? i = some p →
      Spells (name ++ ":" ++ i) ⟨name, .output p⟩
  | feed (d name : String) : d ≠ "" → allDigits d = true →
      Spells (d ++ ":" ++ name) ⟨name, .feed (digitsValue d.toList)⟩

/-- A well-formed declared output is read from each text that spells it. -/
theorem parse?_of_spells {s : String} {k : Sink} (wellFormed : k.WellFormed) (spelled : Spells s k) :
    parse? s = some k := by
  cases spelled with
  | all name =>
    obtain ⟨nonempty, free⟩ := wellFormed
    unfold parse?
    rw [fields_of_colonFree free]
    simp [nonempty, String.contains_char_eq, free]
  | output name i count =>
    obtain ⟨⟨nonempty, free⟩, numeric, -⟩ := wellFormed
    obtain ⟨x, xs, split⟩ := List.exists_cons_of_ne_nil (fields_ne_nil i)
    have joined : ":".intercalate (x :: xs) = i := split ▸ intercalate_fields i
    unfold parse?
    rw [fields_append_colon free, split]
    simp [joined, numeric, count, nonempty, String.contains_char_eq, free]
  | feed d name nonempty digits =>
    obtain ⟨⟨named, free⟩, bound⟩ := wellFormed
    obtain ⟨x, xs, split⟩ := List.exists_cons_of_ne_nil (fields_ne_nil name)
    have joined : ":".intercalate (x :: xs) = name := split ▸ intercalate_fields name
    unfold parse?
    rw [fields_append_colon (colon_not_mem_of_allDigits digits), split]
    simp [joined, digits, nonempty, readCount?_of_allDigits nonempty digits bound, named,
      String.contains_char_eq, free]

/-- A text that is read spells the declared output read, and that output is well formed. -/
theorem spells_of_parse? {s : String} {k : Sink} (read : parse? s = some k) :
    k.WellFormed ∧ Spells s k := by
  have whole := intercalate_fields s
  -- every reading ends with the check of the name
  have checked : ∀ k', (if (k'.name.isEmpty || k'.name.contains ':') = true then none else some k') =
      some k → k' = k ∧ Name k.name := by
    intro k' check
    split at check
    · cases check
    · rename_i named
      cases check
      exact ⟨rfl, by simpa [String.contains_char_eq, Name] using named⟩
  unfold parse? at read
  split at read
  · rename_i empty
    exact absurd empty (fields_ne_nil s)
  · dsimp only at read
    obtain ⟨rfl, name⟩ := checked ⟨s, .all⟩ read
    exact ⟨name, .all s⟩
  · -- split at the first colon: a slot and a name, or a name and an output index
    rename_i left rest single split
    have nonempty : rest ≠ [] := fun empty => single (empty ▸ rfl)
    rw [split, String.intercalate_cons_of_ne_nil nonempty] at whole
    subst whole
    dsimp only at read
    split at read
    · rename_i candidate found
      obtain ⟨rfl, name⟩ := checked candidate read
      split at found
      · rename_i numeric
        have digits : allDigits left = true := by simp_all
        cases count : readCount? left with
        | none => simp [count] at found
        | some n =>
          simp only [count, Option.map_some, Option.some.injEq] at found
          subst found
          have valued := digitsValue_of_readCount? digits count
          refine ⟨⟨name, lt_of_readCount? count⟩, ?_⟩
          rw [← valued]
          exact .feed left _ (by simp at numeric; exact numeric.1) digits
      · rename_i named
        cases count : readCount? (":".intercalate rest) with
        | none => simp [count] at found
        | some p =>
          simp only [count, Option.map_some, Option.some.injEq] at found
          subst found
          have letters : allDigits left = false := by simpa [name.1] using named
          exact ⟨⟨name, letters, lt_of_readCount? count⟩, .output left _ count⟩
    · cases read

theorem parse?_eq_some_iff {s : String} {k : Sink} : parse? s = some k ↔ k.WellFormed ∧ Spells s k :=
  ⟨spells_of_parse?, fun ⟨wellFormed, spelled⟩ => parse?_of_spells wellFormed spelled⟩

/-- The written form of a well-formed declared output spells it. -/
theorem spells_render {k : Sink} (wellFormed : k.WellFormed) : Spells k.render k := by
  obtain ⟨name, mode⟩ := k
  cases mode with
  | all => exact .all name
  | output p => exact .output name _ (readCount?_toString wellFormed.2.2)
  | feed i =>
    have valued : digitsValue (toString i).toList = i := by
      rw [digitsValue_eq_ofDigitChars]
      simp
    have spelled := Spells.feed (toString i) name (by simp) (allDigits_toString i)
    rwa [valued] at spelled

/-- Reading a declared output accepts exactly the texts that spell a well-formed one. Writing a
well-formed declared output spells it, so it reads back; and so does every declared output that
was read. -/
theorem sinkText_roundTrip :
    (∀ s k, parse? s = some k ↔ k.WellFormed ∧ Spells s k) ∧
      (∀ k, k.WellFormed → parse? k.render = some k) ∧
      (∀ s k, parse? s = some k → parse? k.render = some k) := by
  have writes : ∀ k, k.WellFormed → parse? k.render = some k :=
    fun _ wellFormed => parse?_of_spells wellFormed (spells_render wellFormed)
  exact ⟨fun _ _ => parse?_eq_some_iff, writes,
    fun _ k read => writes k (spells_of_parse? read).1⟩

/-- A slot text read with its leading zeros is written without them and read back. -/
theorem sinkText_roundTrip_slot :
    parse? "007:conv" = some ⟨"conv", .feed 7⟩ ∧
      parse? (render ⟨"conv", .feed 7⟩) = some ⟨"conv", .feed 7⟩ := by
  have read : parse? "007:conv" = some ⟨"conv", .feed 7⟩ := by
    simp only [parse?, String.contains_char_eq]
    decide
  exact ⟨read, sinkText_roundTrip.2.2 _ _ read⟩

/-- Two colon-separated numbers name an input slot of an operation, never an output. -/
example : parse? "12:34" = some ⟨"34", .feed 12⟩ := by
  simp only [parse?, String.contains_char_eq]
  decide

end Sink

end Lowering.Source
