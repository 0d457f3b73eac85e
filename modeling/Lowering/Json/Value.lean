/-! # JSON values

The dynamic values that attributes carry and that requests and answers are made of:

* `Number` — a number as a reader classifies it: an unsigned integer below `2^64`, a negative
  integer at or above `-2^63`, or else the float the reader computed;
* `Value` — null, booleans, numbers, strings, arrays and objects;
* `Fields` — the members of an object, kept sorted by key with each key once, so that the last
  write of a key wins and members are listed in key order.
-/

namespace Lowering.Json

/-- A JSON number, classified the way a reader stores it. -/
inductive Number where
  /-- A non-negative integer below `2^64`. -/
  | nat (n : Nat)
  /-- A negative integer at or above `-2^63`. -/
  | neg (i : Int)
  /-- Every other number, as a binary64 value. -/
  | float (f : Float)
  deriving Repr, Inhabited

/-- A JSON value. Object members are kept sorted by key (see `Fields`). -/
inductive Value where
  | null
  | bool (b : Bool)
  | num (n : Number)
  | str (s : String)
  | arr (items : List Value)
  | obj (fields : List (String × Value))
  deriving Repr, Inhabited

/-- Puts `v` under `k` in a list of pairs sorted by key with each key once, replacing an
earlier value of `k` and keeping the keys sorted. -/
def insertSorted (k : String) (v : α) : List (String × α) → List (String × α)
  | [] => [(k, v)]
  | (k', v') :: rest =>
    if k < k' then (k, v) :: (k', v') :: rest
    else if k = k' then (k, v) :: rest
    else (k', v') :: insertSorted k v rest

/-- The members of an object: sorted by key, each key once. -/
abbrev Fields := List (String × Value)

namespace Fields

/-- Puts `v` under `k`, replacing an earlier value of `k` and keeping the keys sorted. -/
def insert (k : String) (v : Value) (fs : Fields) : Fields := insertSorted k v fs

/-- The value under `k`, if any. -/
def find? (fs : Fields) (k : String) : Option Value :=
  (List.find? (·.1 == k) fs).map (·.2)

/-- Whether `k` has a value. -/
def contains (fs : Fields) (k : String) : Bool :=
  fs.any (·.1 == k)

/-- Builds the members of an object from pairs in reading order; a later pair of a key
replaces an earlier one. -/
def ofList (pairs : List (String × Value)) : Fields :=
  pairs.foldl (fun acc (k, v) => insert k v acc) []

end Fields

namespace Value

/-- An unsigned integer value. -/
def ofNat (n : Nat) : Value := .num (.nat n)

/-- An integer value, stored as unsigned when it is not negative. -/
def ofInt (i : Int) : Value :=
  if i < 0 then .num (.neg i) else .num (.nat i.toNat)

/-- An optional value; `none` is null. -/
def ofOption (f : α → Value) : Option α → Value
  | none => .null
  | some a => f a

/-- Member `k` of an object; `none` for a missing member or a value that is no object. -/
def field? (v : Value) (k : String) : Option Value :=
  match v with
  | .obj fs => Fields.find? fs k
  | _ => none

end Value

end Lowering.Json
