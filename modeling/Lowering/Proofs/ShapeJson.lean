import Mathlib.Algebra.Group.Int.Defs
import Mathlib.Algebra.Group.Nat.Defs
import Lowering.Json.Reader.Tree
import Lowering.Json.Write
import Lowering.Session

/-! # Shapes in JSON

A shape is written as null when its rank is unknown, and otherwise as an array with one signed
64-bit integer per dimension: a known size as itself, an unknown dimension as `-1`; on reading,
any negative integer is an unknown dimension. A size is a count, and the shape of a constant is
read as unsigned 64-bit counts, so a size can reach `2^64 - 1`. Written as a signed 64-bit word,
a size stays itself only below `2^63`; from `2^63` on the word is negative and reads back as an
unknown dimension (and a size from `2^64` on, which no reader gives, wraps around).

* Reading values: `decodeTree_option_arr`, `decodeTree_listOf_arr` (each element on its own,
  `each_run`), `decodeTree_integer_ofInt`.
* `Dim.ofInt_toInt_eq_iff`, `Dim.ofInt_toInt_eq_displayJson_iff` — a dimension reads back, and is
  written as its display says, exactly when it fits in the signed range (`Dim.FitsInt64`).
* `shapeJson_faithful_iff` — the same for a whole shape.
* `frozenShape_reads_back_unknown` — a frozen input of size `2^63` carries that size into the
  tensors of the translated model, whose JSON writes it as `-2^63` and reads it back as unknown
  while the display shows `2^63`.
-/

namespace Lowering.Json

theorem decodeTree_map {α β : Type} (f : α → β) (read : TreeReader α) (v : Value) :
    decodeTree (f <$> read) v = (decodeTree read v).map f := by
  simp only [decodeTree, StateT.run_map]
  cases read.run (Focus.one (some v)) <;> rfl

theorem decodeTree_option_arr {α : Type} (read : TreeReader α) (xs : List Value) :
    decodeTree (Reader.option read) (.arr xs) = (decodeTree read (.arr xs)).map some := by
  simp only [decodeTree, Reader.option, TreeReader.option]
  show Except.map _ ((some <$> read).run _) = _
  rw [StateT.run_map]
  cases read.run (Focus.one (some (.arr xs))) <;> rfl

/-- Reading the remaining elements of an array reads each on its own: every element starts from
a state holding just that element, whatever the state before. -/
theorem each_run {α : Type} (read : TreeReader α) (total : Nat) (xs : List Value) (σ : Focus) :
    (TreeReader.each read total xs).run σ =
      (xs.mapM (decodeTree read)).map fun as => (as, Focus.items [] total) := by
  induction xs generalizing σ with
  | nil => rfl
  | cons x rest later =>
    simp only [TreeReader.each, List.mapM_cons, decodeTree, StateT.run_bind, StateT.run_set,
      pure_bind]
    cases read.run (Focus.one (some x)) with
    | error e => rfl
    | ok p =>
      simp only [later]
      cases List.mapM (decodeTree read) rest <;> rfl

theorem decodeTree_listOf_arr {α : Type} (read : TreeReader α) (xs : List Value) :
    decodeTree (listOf read) (.arr xs) = xs.mapM (decodeTree read) := by
  have elements : (TreeReader.elements read).run (Focus.items xs xs.length) =
      (xs.mapM (decodeTree read)).map fun as => (as, Focus.items [] xs.length) :=
    each_run read _ xs _
  simp only [decodeTree, listOf, Reader.container, TreeReader.container, TreeReader.take,
    Reader.elements, StateT.run_bind, pure_bind, StateT.run_get, StateT.run_set, StateT.run_pure,
    if_pos, elements]
  cases List.mapM (decodeTree read) xs <;> rfl

/-- An integer below `2^63` reads back as itself. -/
theorem decodeTree_integer_ofInt {i : Int} (upper : i < 2 ^ 63) :
    decodeTree integer (Value.ofInt i) = .ok i := by
  unfold Value.ofInt
  split
  · rfl
  · rename_i nonneg
    have bound : i.toNat < Nat.pow 2 63 := by
      have power : Nat.pow 2 63 = 2 ^ 63 := rfl
      omega
    simp only [decodeTree, integer, Reader.number, TreeReader.number, TreeReader.take,
      TreeReader.check]
    simp [bound]
    show Except.ok (max i 0) = Except.ok i
    exact congrArg Except.ok (by omega)

end Lowering.Json

namespace Lowering

open Lowering.Json

theorem wrapSigned64_eq (n : Int) :
    wrapSigned64 n = if n % 2 ^ 64 < 2 ^ 63 then n % 2 ^ 64 else n % 2 ^ 64 - 2 ^ 64 :=
  rfl

/-- The signed word of an integer lies in the signed 64-bit range. -/
theorem wrapSigned64_range (n : Int) : -2 ^ 63 ≤ wrapSigned64 n ∧ wrapSigned64 n < 2 ^ 63 := by
  rw [wrapSigned64_eq]
  split <;> omega

theorem wrapSigned64_of_lt {n : Nat} (bound : n < 2 ^ 63) : wrapSigned64 n = n := by
  rw [wrapSigned64_eq]
  split <;> omega

/-- A size is its own signed word exactly below `2^63`. -/
theorem wrapSigned64_eq_self_iff (n : Nat) : wrapSigned64 n = n ↔ n < 2 ^ 63 := by
  refine ⟨fun same => ?_, wrapSigned64_of_lt⟩
  have below := (wrapSigned64_range n).2
  omega

theorem Dim.ofInt_eq_known_iff {i : Int} {n : Nat} : Dim.ofInt i = .known n ↔ i = n := by
  unfold Dim.ofInt
  split
  · exact ⟨fun same => Dim.noConfusion same, fun same => by omega⟩
  · rename_i nonneg
    refine ⟨fun same => ?_, fun same => by rw [same, Int.toNat_natCast]⟩
    have sizes : i.toNat = n := Dim.known.inj same
    omega

theorem Json.Value.ofInt_eq_ofNat_iff {i : Int} {n : Nat} : Value.ofInt i = .ofNat n ↔ i = n := by
  unfold Value.ofInt Value.ofNat
  split
  · exact ⟨fun same => Value.noConfusion same fun same => Number.noConfusion same,
      fun same => by omega⟩
  · rename_i nonneg
    refine ⟨fun same => ?_, fun same => by rw [same, Int.toNat_natCast]⟩
    have sizes : i.toNat = n := Number.nat.inj (Value.num.inj same)
    omega

namespace Dim

/-- A dimension the JSON form keeps: unknown, or of a size below `2^63`. -/
def FitsInt64 : Dim → Prop
  | known n => n < 2 ^ 63
  | unknown => True

/-- The JSON the display of a dimension calls for: a known size as itself, an unknown dimension
as `-1`. -/
def displayJson : Dim → Value
  | known n => .ofNat n
  | unknown => .ofInt (-1)

/-- The text of `displayJson` is the display of the dimension, with `-1` for `?`. -/
theorem render_displayJson (d : Dim) :
    d.displayJson.render = if d.isStatic then d.render else "-1" := by
  cases d <;> rfl

theorem toInt_lt (d : Dim) : d.toInt < 2 ^ 63 := by
  cases d with
  | known n => exact (wrapSigned64_range n).2
  | unknown =>
    show (-1 : Int) < 2 ^ 63
    omega

/-- A dimension reads back from its word exactly when it fits. -/
theorem ofInt_toInt_eq_iff (d : Dim) : ofInt d.toInt = d ↔ d.FitsInt64 := by
  cases d with
  | known n => exact ofInt_eq_known_iff.trans (wrapSigned64_eq_self_iff n)
  | unknown => simp [toInt, ofInt, FitsInt64]

/-- A dimension is written as its display says exactly when it fits. -/
theorem ofInt_toInt_eq_displayJson_iff (d : Dim) :
    Value.ofInt d.toInt = d.displayJson ↔ d.FitsInt64 := by
  cases d with
  | known n => exact Value.ofInt_eq_ofNat_iff.trans (wrapSigned64_eq_self_iff n)
  | unknown => simp [toInt, displayJson, FitsInt64]

theorem decodeTree_read_toInt (d : Dim) :
    decodeTree Dim.read (Value.ofInt d.toInt) = .ok (ofInt d.toInt) := by
  rw [Dim.read, decodeTree_map, decodeTree_integer_ofInt d.toInt_lt]
  rfl

end Dim

namespace Shape

/-- Every known dimension is below `2^63`. -/
def FitsInt64 (s : Shape) : Prop := ∀ ds, s.dims = some ds → ∀ d ∈ ds, d.FitsInt64

/-- The JSON the display of a shape calls for: null for an unknown rank, else each dimension as
`Dim.displayJson` writes it. -/
def displayJson (s : Shape) : Value :=
  match s.dims with
  | none => .null
  | some ds => .arr (ds.map Dim.displayJson)

theorem mapM_decodeTree_dims (ds : List Dim) :
    (ds.map fun d => Value.ofInt d.toInt).mapM (decodeTree Dim.read) =
      .ok (ds.map fun d => Dim.ofInt d.toInt) := by
  induction ds with
  | nil => rfl
  | cons d ds later =>
    rw [List.map_cons, List.mapM_cons, Dim.decodeTree_read_toInt, later]
    rfl

/-- Reading a shape's JSON gives the shape with each dimension read back from its word. -/
theorem decodeTree_read_toJson (s : Shape) :
    decodeTree Shape.read s.toJson = .ok ⟨s.dims.map (·.map fun d => Dim.ofInt d.toInt)⟩ := by
  obtain ⟨_ | ds⟩ := s
  · rfl
  · rw [Shape.toJson, Shape.read, decodeTree_map, decodeTree_option_arr, decodeTree_listOf_arr,
      mapM_decodeTree_dims]
    rfl

end Shape

/-- The JSON form of a shape reads back as the shape, and writes each dimension as the display
does (a known size as itself, an unknown dimension as `-1`), exactly when every known size is
below `2^63`. -/
theorem shapeJson_faithful_iff (s : Shape) :
    (decodeTree Shape.read s.toJson = .ok s ∧ s.toJson = s.displayJson) ↔ s.FitsInt64 := by
  obtain ⟨_ | ds⟩ := s
  · rw [Shape.decodeTree_read_toJson]
    simp [Shape.FitsInt64, Shape.toJson, Shape.displayJson]
  · have readsBack : (ds.map fun d => Dim.ofInt d.toInt) = ds ↔ ∀ d ∈ ds, d.FitsInt64 := by
      have same := List.map_inj_left (f := fun d => Dim.ofInt d.toInt) (g := id) (l := ds)
      rw [List.map_id] at same
      rw [same]
      exact forall₂_congr fun d _ => Dim.ofInt_toInt_eq_iff d
    have written : (ds.map fun d => Value.ofInt d.toInt) = ds.map Dim.displayJson ↔
        ∀ d ∈ ds, d.FitsInt64 := by
      rw [List.map_inj_left]
      exact forall₂_congr fun d _ => Dim.ofInt_toInt_eq_displayJson_iff d
    rw [Shape.decodeTree_read_toJson]
    simp only [Shape.toJson, Shape.displayJson, Shape.FitsInt64, Option.map_some,
      Except.ok.injEq, Shape.mk.injEq, Option.some.injEq, Value.arr.injEq, forall_eq', readsBack,
      written, and_self]

/-- A graph with one frozen input `c`, a constant with one dimension of size `2^63`, declared as
its output. -/
def wideConstantGraph : Source.Graph where
  inputs := [{ name := "c", value := some ⟨.f32, [2 ^ 63], []⟩ }]
  outputs := [⟨"c", .all⟩]

/-- The constant `c` (node 0) and the result that reads it (node 1) carry the size `2^63`, which
the display shows as it is and the JSON writes as `-2^63`, read back as an unknown dimension. -/
theorem frozenShape_reads_back_unknown :
    ((Session.convertedModel ⟨wideConstantGraph, [], {}, {}, none⟩).1.toOption.map fun M =>
      ((M.graph.tensor ⟨0, 0⟩).shape, (M.graph.tensor ⟨1, 0⟩).shape,
        (M.graph.tensor ⟨1, 0⟩).shape.render, (M.graph.tensor ⟨1, 0⟩).shape.toJson.render,
        (decodeTree Shape.read (M.graph.tensor ⟨1, 0⟩).shape.toJson).toOption)) =
      some (⟨some [.known (2 ^ 63)]⟩, ⟨some [.known (2 ^ 63)]⟩, "[9223372036854775808]",
        "[-9223372036854775808]", some ⟨some [.unknown]⟩) := by
  decide +kernel

end Lowering
