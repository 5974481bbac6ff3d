import ChainArchive.Codec.PrefixCode

/-!
# Choosing code lengths

Frequent symbols get short codes. The two lightest groups of symbols are joined
until one is left; a symbol's length is the number of its group's joins. Lengths
above a limit are cut back, and shorter codes are lengthened to make room.
-/

namespace ChainArchive.Codec
set_option autoImplicit false

/-- A group of symbols: its weight and how deep each of them lies. -/
structure Group where
  weight : Nat
  depths : List Nat

/-- Puts a group behind all that are not heavier. -/
def insertGroup (g : Group) : List Group → List Group
  | [] => [g]
  | h :: rest => if h.weight ≤ g.weight then h :: insertGroup g rest else g :: h :: rest

/-- Joins the two lightest groups, that many times at most. -/
def joinGroups : Nat → List Group → List Group
  | fuel + 1, a :: b :: rest =>
    joinGroups fuel (insertGroup ⟨a.weight + b.weight, (a.depths ++ b.depths).map (· + 1)⟩ rest)
  | _, groups => groups

/-- The depths that weights in ascending order give, in no particular order. -/
def depthsOf (weights : List Nat) : List Nat :=
  match weights with
  | [] => []
  | [_] => [1]
  | _ => (joinGroups weights.length (weights.map fun w => ⟨w, [0]⟩)).flatMap (·.depths)

/-- Makes room for one longest code less: the deepest shorter code becomes two of one bit more. -/
def makeRoom (limit : Nat) (counts : Array Nat) : Array Nat :=
  let counts := counts.modify limit (· - 1)
  match ((List.range limit).drop 1).reverse.find? fun length => counts.getD length 0 != 0 with
  | some length => (counts.modify length (· - 1)).modify (length + 1) (· + 2)
  | none => counts

/-- How many codes there are of each length up to the limit. -/
def limitedCounts (limit : Nat) (depths : List Nat) : Array Nat :=
  let counts := depths.foldl (fun counts depth => counts.modify (min depth limit) (· + 1))
    (Array.replicate (limit + 1) 0)
  let space := ((List.range (limit + 1)).drop 1).foldl
    (fun sum length => sum + counts.getD length 0 * Nat.pow 2 (limit - length)) 0
  if depths.length ≤ 1 then counts
  else (List.range (space - Nat.pow 2 limit)).foldl (fun c _ => makeRoom limit c) counts

/-- The code length of each symbol, zero for a symbol that does not occur. -/
def chooseLengths (limit : Nat) (frequencies : Array Nat) : List Nat :=
  let used := (frequencies.toList.zipIdx.filter (0 < ·.1)).mergeSort fun a b => a.1 ≤ b.1
  let counts := limitedCounts limit (depthsOf (used.map (·.1)))
  let descending := ((List.range (limit + 1)).drop 1).reverse.flatMap fun length =>
    List.replicate (counts.getD length 0) length
  let assigned := (used.zip descending).foldl (fun lengths ((_, symbol), length) => lengths.set! symbol length)
    (Array.replicate frequencies.size 0)
  assigned.toList

end ChainArchive.Codec
