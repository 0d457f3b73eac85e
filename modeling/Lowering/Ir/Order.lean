import Lowering.Ir.Basic

/-! # Topological order of an IR graph

`Graph.topoOrder` lists the nodes so that every edge goes forward, or gives `none` when the
graph has a cycle (a node reading its own output counts). The order is the one a depth-first
search produces: roots are taken in index order, the successors of a node are visited in the
order of the edges' creation (by consumer index, then slot), and the order is the reverse of
the order in which nodes finish. Spliced copies of a body are created in this order, so it
fixes their indices.
-/

namespace Lowering.Ir

namespace Graph

/-- The consumers of every node, in the order edges were created: by consumer index, then by
input slot; a consumer reading a node twice is listed twice. -/
def successors (g : Graph) : Array (List Nat) :=
  let empty : Array (List Nat) := Array.replicate g.size []
  let withEdges := (List.range g.size).foldl (fun acc t =>
    (g.inputs t).foldl (fun acc h => acc.modify h.node (· ++ [t])) acc) empty
  withEdges

/-- Depth-first search from `x`: marks it, searches from each unmarked successor in turn, and
then puts `x` in front of the finished nodes. `fuel` bounds the depth of the search. -/
def search (succ : Array (List Nat)) : Nat → Nat → Array Bool × List Nat → Array Bool × List Nat
  | 0, _, st => st
  | fuel + 1, x, (seen, done) =>
    let seen := seen.set! x true
    let (seen, done) := (succ.getD x []).foldl (fun (seen, done) s =>
      if seen.getD s true then (seen, done) else search succ fuel s (seen, done)) (seen, done)
    (seen, x :: done)

/-- The nodes in reverse order of finishing a depth-first search that starts from every
unmarked node in index order. -/
def searchOrder (g : Graph) : List Nat :=
  let succ := g.successors
  let (_, done) := (List.range g.size).foldl (fun (seen, done) x =>
    if seen.getD x true then (seen, done) else search succ (g.size + 1) x (seen, done))
    (Array.replicate g.size false, [])
  done

/-- Whether every edge goes forward in `order`, a list of every node once. -/
def forwardIn (g : Graph) (order : List Nat) : Bool :=
  let rank : Array Nat := order.foldl (fun (r, i) x => (r.set! x i, i + 1))
    (Array.replicate g.size 0, 0) |>.1
  (List.range g.size).all fun t =>
    (g.inputs t).all fun h => h.node < g.size && rank.getD h.node 0 < rank.getD t 0

/-- A topological order of the nodes, or `none` when the graph has a cycle. -/
def topoOrder (g : Graph) : Option (List Nat) :=
  let order := g.searchOrder
  if g.forwardIn order then some order else none

end Graph

end Lowering.Ir
