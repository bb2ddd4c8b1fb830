import SegmentSort.Failure
import SegmentSort.SegmentView
import SegmentSort.Segments.Cut

/-!
# Operands of a sort

`Columns` are keys and the values that belong to them, at the same positions.  The
`Operands` of a sort are two such columns: an input and an output, or the current and the
alternate lists of double buffers.
-/

namespace SegmentSort

/-- Keys and values. -/
structure Columns (κ ν : Type) where
  keys : List κ
  values : List ν
  deriving DecidableEq, Repr

namespace Columns

variable {κ ν : Type}

/-- The keys, each with its value. -/
def items (c : Columns κ ν) : List (κ × ν) :=
  c.keys.zip c.values

/-- The keys of items, and their values. -/
def ofItems (l : List (κ × ν)) : Columns κ ν where
  keys := l.map (·.1)
  values := l.map (·.2)

end Columns

/-- What a sort reads and writes. -/
inductive Operands (κ ν : Type) where
  /-- The sort reads the input and writes the output. -/
  | separate (input output : Columns κ ν)
  /-- The sort reads the current lists and writes both. -/
  | doubleBuffer (current alternate : Columns κ ν)
  deriving DecidableEq, Repr

namespace Operands

variable {κ ν : Type}

/-- The number of keys. -/
def size : Operands κ ν → Nat
  | separate input _ => input.keys.length
  | doubleBuffer current _ => current.keys.length

/-- The caller provides the second buffer. -/
def isDoubleBuffer : Operands κ ν → Bool
  | separate .. => false
  | doubleBuffer .. => true

/-- The lists that have to be as long as the list of keys, with their lengths. -/
def lengths : Operands κ ν → List (Buffer × Nat)
  | separate input output =>
    [(.keysOutput, output.keys.length),
      (.valuesInput, input.values.length),
      (.valuesOutput, output.values.length)]
  | doubleBuffer current alternate =>
    [(.keysAlternate, alternate.keys.length),
      (.valuesCurrent, current.values.length),
      (.valuesAlternate, alternate.values.length)]

/-- All lists are as long as the list of keys. -/
def checkLengths (o : Operands κ ν) : Except SortError Unit :=
  match o.lengths.find? (·.2 ≠ o.size) with
  | some (buffer, actual) => .error (.lengthMismatch buffer o.size actual)
  | none => .ok ()

/-- A view of each segment.  `temporary` are the items in the temporary storage, which
serve as scratch where there is a separate output. -/
def views? (o : Operands κ ν) (temporary : List (κ × ν)) (m : SegmentMap) :
    Option (List (SegmentView (κ × ν))) :=
  match o with
  | separate input output => do
    let inputs := m.split input.items
    let scratches ← m.cut? temporary
    let outputs ← m.cut? output.items
    return (inputs.zip (scratches.zip outputs)).map fun (i, s, o) => ⟨some i, s, o⟩
  | doubleBuffer current alternate => do
    let scratches ← m.cut? current.items
    let outputs ← m.cut? alternate.items
    return (scratches.zip outputs).map fun (s, o) => ⟨none, s, o⟩

/-- The operands in which the items of each segment are those of its view. -/
def withViews (o : Operands κ ν) (m : SegmentMap) (views : List (SegmentView (κ × ν))) :
    Operands κ ν :=
  let scratches := views.map (·.scratch)
  let outputs := views.map (·.output)
  match o with
  | separate input output =>
    separate input (.ofItems (m.join outputs output.items))
  | doubleBuffer current alternate =>
    doubleBuffer (.ofItems (m.join scratches current.items))
      (.ofItems (m.join outputs alternate.items))

end Operands

end SegmentSort
