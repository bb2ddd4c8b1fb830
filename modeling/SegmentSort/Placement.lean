import SegmentSort.DoubleBuffer
import SegmentSort.Schedule

/-!
# Placement of passes

The passes over a segment move its items to and fro between the scratch and the output.
A `Placement` says to which of the two the first pass goes and where the last one ends:
a sort with a separate output has to end there, and a sort of a double buffer has to
leave the buffer that it starts from.  `Placement.hops` lists where each pass reads and
where it writes.
-/

namespace SegmentSort

/-- Where the items of a segment can be. -/
inductive Side where
  /-- The separate input, which is never written. -/
  | input
  /-- The temporary storage, or the current buffer of a double buffer. -/
  | scratch
  /-- The separate output, or the alternate buffer of a double buffer. -/
  | output
  deriving DecidableEq, Repr

/-- The side where a result location lies. -/
def ResultLocation.side : ResultLocation → Side
  | .primary => .scratch
  | .alternate => .output

/-- Where passes write. -/
structure Placement where
  /-- The first pass writes to the output. -/
  toOutput : Bool
  /-- Where the last pass leaves the result. -/
  result : ResultLocation
  deriving DecidableEq, Repr

/-- A pass over a segment, from one side to another. -/
structure Hop where
  source : Side
  target : Side
  pass : Pass
  deriving DecidableEq, Repr

namespace Placement

/-- The placement of a number of passes, with or without a double buffer. -/
def ofCount (passes : Nat) (doubleBuffer : Bool) : Placement :=
  let toOutput := doubleBuffer || (passes - 1) % 2 == 0
  { toOutput
    result := if (passes % 2 == 0) != toOutput then .alternate else .primary }

/-- Whether the pass with a number, counted from 0, writes to the output. -/
def writesOutput (p : Placement) (pass : Nat) : Bool :=
  p.toOutput != (pass % 2 == 1)

/-- Where the pass with a number writes. -/
def target (p : Placement) (pass : Nat) : Side :=
  if p.writesOutput pass then .output else .scratch

/-- The ways of passes, of which the first has the number `k` and reads from `source`.
Each later pass reads what the pass before it has written. -/
def hopsFrom (p : Placement) (source : Side) (k : Nat) : List Pass → List Hop
  | [] => []
  | pass :: rest => ⟨source, p.target k, pass⟩ :: hopsFrom p (p.target k) (k + 1) rest

/-- The ways of all passes, of which the first reads from `source`. -/
def hops (p : Placement) (source : Side) (passes : List Pass) : List Hop :=
  p.hopsFrom source 0 passes

end Placement

end SegmentSort
