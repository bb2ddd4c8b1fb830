import SegmentSort.Sort.Run

/-!
# Sorting segments

The sorts of this library.  Each sorts every segment of an array of keys, in one
direction, by a range of the bits of the keys, and keeps the order of keys that agree on
these bits.  `sortKeys` and `sortPairs` read an input and write an output of the same
length; positions outside all segments are left alone.  `DoubleBuffer.sortKeys` and
`DoubleBuffer.sortPairs` sort in place, and make those lists current that hold the result.

A sort without temporary storage reports the size of the storage that it needs.
-/

namespace SegmentSort

/-- What a sort leaves and tells. -/
structure SortOutcome (β : Type) where
  /-- What the caller's buffers hold afterwards. -/
  buffers : β
  /-- The size of the storage that the call needs, if it asked for it. -/
  reportedSize : Option Nat
  events : List Event
  result : Except Failure Unit

namespace Run

variable {κ ν : Type}

/-- The columns of the output, or the alternate ones. -/
def outputColumns (r : Run κ ν) : Columns κ ν :=
  match r.operands with
  | .separate _ output => output
  | .doubleBuffer _ alternate => alternate

/-- The columns of the input, or the current ones. -/
def inputColumns (r : Run κ ν) : Columns κ ν :=
  match r.operands with
  | .separate input _ => input
  | .doubleBuffer current _ => current

/-- Where the result lies; the current lists, if nothing was sorted. -/
def location (r : Run κ ν) : ResultLocation :=
  match r.trace.result with
  | .ok (some location) => location
  | _ => .primary

/-- The outcome of a run that leaves some buffers. -/
def outcome {β : Type} (r : Run κ ν) (buffers : β) : SortOutcome β where
  buffers
  reportedSize := r.reportedSize
  events := r.trace.events
  result := r.trace.result.map fun _ => ()

end Run

variable {t : KeyType} {ν : Type} [Element ν]

/-- Sorts the keys and values of an input into an output. -/
def sortPairs (call : SortCall) (input output : Columns (Key t) ν) :
    SortOutcome (Columns (Key t) ν) :=
  let run := call.run (.separate input output)
  run.outcome run.outputColumns

/-- Sorts the keys of an input into an output. -/
def sortKeys (call : SortCall) (input output : List (Key t)) :
    SortOutcome (List (Key t)) :=
  let values := List.replicate input.length ()
  let run := call.run (.separate ⟨input, values⟩ ⟨output, values⟩)
  run.outcome run.outputColumns.keys

namespace DoubleBuffer

/-- Sorts keys and values of double buffers in place. -/
def sortPairs (call : SortCall) (keys : DoubleBuffer (Key t)) (values : DoubleBuffer ν) :
    SortOutcome (DoubleBuffer (Key t) × DoubleBuffer ν) :=
  let run :=
    call.run (.doubleBuffer ⟨keys.current, values.current⟩ ⟨keys.alternate, values.alternate⟩)
  let current := run.inputColumns
  let alternate := run.outputColumns
  run.outcome
    (run.location.apply (keys.withContents current.keys alternate.keys),
      run.location.apply (values.withContents current.values alternate.values))

/-- Sorts the keys of a double buffer in place. -/
def sortKeys (call : SortCall) (keys : DoubleBuffer (Key t)) :
    SortOutcome (DoubleBuffer (Key t)) :=
  let values := List.replicate keys.size ()
  let run := call.run (.doubleBuffer ⟨keys.current, values⟩ ⟨keys.alternate, values⟩)
  run.outcome
    (run.location.apply (keys.withContents run.inputColumns.keys run.outputColumns.keys))

end DoubleBuffer

end SegmentSort
