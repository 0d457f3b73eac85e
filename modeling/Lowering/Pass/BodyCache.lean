import Lowering.Ir.Model

/-! # The body cache

A session translates each body graph once per signature, the body's name together with the
shapes and element types of the values it is called with, and keeps the translated body.
The cache counts its lookups, its hits and its inserts.
-/

namespace Lowering.Pass

open Lowering.Ir

/-- What a translated body depends on: its name and the shapes and types of its arguments. -/
structure Signature where
  identity : String
  shapes : List Shape
  types : List ElementType
  deriving DecidableEq, Repr

/-- The signature of a call of `identity` on `inputs` of `g`. -/
def Signature.ofCall (identity : String) (inputs : List Handle) (g : Graph) : Signature :=
  ⟨identity, inputs.map fun h => (g.tensor h).shape, inputs.map fun h => (g.tensor h).elementType⟩

/-- How often the cache was asked, answered, and filled. -/
structure CacheStats where
  lookups : Nat := 0
  hits : Nat := 0
  inserts : Nat := 0
  deriving DecidableEq, Repr, Inhabited

/-- Translated bodies by signature. -/
structure BodyCache where
  entries : List (Signature × Model) := []
  stats : CacheStats := {}
  deriving Inhabited

namespace BodyCache

/-- The translated body of a signature, counting the lookup and, if found, the hit. -/
def lookup (c : BodyCache) (s : Signature) : Option Model × BodyCache :=
  let found := (c.entries.find? (·.1 == s)).map (·.2)
  let stats := { c.stats with
    lookups := c.stats.lookups + 1
    hits := if found.isSome then c.stats.hits + 1 else c.stats.hits }
  (found, { c with stats := stats })

/-- Stores a translated body, counting the insert; an entry of the same signature is replaced. -/
def insert (c : BodyCache) (s : Signature) (m : Model) : BodyCache :=
  { entries := (c.entries.filter (·.1 != s)) ++ [(s, m)]
    stats := { c.stats with inserts := c.stats.inserts + 1 } }

/-- The number of stored bodies. -/
def size (c : BodyCache) : Nat := c.entries.length

end BodyCache

end Lowering.Pass
