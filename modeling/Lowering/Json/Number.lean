import Lowering.Decimal.Shortest
import Lowering.Json.Value

/-! # Number text

How numbers are written and how a decimal text becomes a float:

* `FloatLayout.json` — the one layout of float text, used in answers and in messages: the
  shortest digits, positional while the decimal point falls within sixteen places of the first
  digit or at most five zeros after it, an integral value keeping `.0`, else `d.ddde+x` or
  `d.ddde-x`;
* `Number.render` — integers in decimal, floats in that layout;
* `scaleByTen` — a decimal significand and exponent turned into a float the way a JSON reader
  computes it: the significand rounded to a float, then one multiplication or division by a
  rounded power of ten (two roundings, so not always the nearest float).
-/

namespace Lowering.Json

open Lowering.Decimal

/-- Where float text switches between positional and exponent notation. With `point` the
position of the decimal point counted from the first significant digit, the text is positional
when `low < point ≤ high`, and in exponent notation (with `mark`, and a `+` before a
non-negative exponent when `plus`) otherwise. -/
structure FloatLayout where
  low : Int
  high : Int
  mark : String
  plus : Bool

/-- Float text in answers and messages: positional from `0.00001` up to below `10^16`,
exponent notation beyond (`1e+16`, `1.5e-7`), and `.0` after an integral value. -/
def FloatLayout.json : FloatLayout := ⟨-5, 16, "e", true⟩

/-- `n` zeros. -/
def zeros (n : Nat) : String := String.ofList (List.replicate n '0')

/-- Writes `±digits * 10^exp` in the layout; `digits` carries no trailing zero. -/
def FloatLayout.write (l : FloatLayout) (negative : Bool) (d : Scientific) : String :=
  let sign := if negative then "-" else ""
  if d.digits = 0 then sign ++ "0.0"
  else
    let ds := toString d.digits
    let len : Int := ds.length
    let point := len + d.exp
    let body :=
      if 0 ≤ d.exp ∧ point ≤ l.high then ds ++ zeros d.exp.toNat ++ ".0"
      else if 0 < point ∧ point ≤ l.high then
        String.ofList (ds.toList.take point.toNat) ++ "." ++ String.ofList (ds.toList.drop point.toNat)
      else if l.low < point ∧ point ≤ 0 then "0." ++ zeros (-point).toNat ++ ds
      else
        let mantissa :=
          if ds.length = 1 then ds
          else String.ofList (ds.toList.take 1) ++ "." ++ String.ofList (ds.toList.drop 1)
        let expSign := if l.plus && 0 ≤ point - 1 then "+" else ""
        mantissa ++ l.mark ++ expSign ++ toString (point - 1)
    sign ++ body

/-- Float text in the JSON layout; non-finite values, which no reader produces, are written
`NaN`, `inf` and `-inf`. -/
def floatText (f : Float) : String :=
  match Binary.ofFloat? f with
  | some b => FloatLayout.json.write b.negative b.shortest
  | none => if f.isNaN then "NaN" else if f < 0 then "-inf" else "inf"

/-- Integers in decimal, floats in the JSON layout. -/
def Number.render : Number → String
  | .nat n => toString n
  | .neg i => toString i
  | .float f => floatText f

/-- `10^e` rounded to a float. -/
def powTen (e : Nat) : Float := Float.ofScientific 1 false e

/-- Scales `f` by `10^e`, one rounded power of ten at a time: a single step when `|e| ≤ 308`,
otherwise division by `10^308` until it is. `none` when the result overflows.

The intuition: a reader keeps at most twenty significant digits, so an exponent beyond 308
either overflows or only shrinks the value, which reaches zero after a few divisions. -/
def scaleByTen (f : Float) (e : Int) : Option Float :=
  if e.natAbs ≤ 308 then
    if 0 ≤ e then
      let g := f * powTen e.toNat
      if g.isInf then none else some g
    else some (f / powTen e.natAbs)
  else if f == 0 then some f
  else if 0 ≤ e then none
  else scaleByTen (f / powTen 308) (e + 308)
termination_by e.natAbs
decreasing_by omega

/-- The float a reader computes for `±significand * 10^exp`; `none` when it overflows. -/
def fromParts (positive : Bool) (significand : Nat) (exp : Int) : Option Float :=
  (scaleByTen (Float.ofNat significand) exp).map fun f => if positive then f else -f

end Lowering.Json
