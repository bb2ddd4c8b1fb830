import SegmentSort.Launch
import SegmentSort.Placement

/-!
# Views of segments

A `SegmentView` holds the items of one segment on all sides that a sort touches.  A
`Kernel` sorts views: it has a name, and says how many worker groups it uses for them.
-/

namespace SegmentSort

/-- The items of a segment on each side. -/
structure SegmentView (α : Type) where
  /-- The separate input; without one, the data lie in the scratch. -/
  input : Option (List α)
  scratch : List α
  output : List α
  deriving DecidableEq, Repr

namespace SegmentView

variable {α : Type}

/-- The number of items. -/
def size (v : SegmentView α) : Nat :=
  v.output.length

/-- The side where the data lie before they are sorted. -/
def origin (v : SegmentView α) : Side :=
  if v.input.isSome then .input else .scratch

/-- The data before they are sorted. -/
def data (v : SegmentView α) : List α :=
  v.input.getD v.scratch

/-- The items at both ends of a way, if items can be moved on it: to the scratch or to the
output, from a side that exists, and not from one side to itself. -/
def ends? (v : SegmentView α) : (source target : Side) → Option (List α × List α)
  | .input, .output => v.input.map (·, v.output)
  | .input, .scratch => v.input.map (·, v.scratch)
  | .scratch, .output => some (v.scratch, v.output)
  | .output, .scratch => some (v.output, v.scratch)
  | _, _ => none

/-- Other items on a side that can be written. -/
def put (v : SegmentView α) (side : Side) (items : List α) : SegmentView α :=
  match side with
  | .input => v
  | .scratch => { v with scratch := items }
  | .output => { v with output := items }

end SegmentView

/-- A way to sort views of segments. -/
structure Kernel (α : Type) where
  name : String
  /-- The number of worker groups for a number of segments. -/
  groups : Nat → Nat
  /-- Sorts views on a stream, and records the launch if asked to. -/
  run : Stream → (debug : Bool) → List (SegmentView α) → Launched (SegmentView α)

/-- Sorts views, if there are any, and records that it does. -/
def Kernel.dispatch {α : Type} (kernel : Kernel α) (stream : Stream) (debug : Bool)
    (views : List (SegmentView α)) : Launched (SegmentView α) :=
  if views.isEmpty then
    { items := views, outcome := .ofExcept (.ok ()) }
  else
    let launched := kernel.run stream debug views
    { items := launched.items
      outcome := do
        Traced.emit (.dispatched kernel.name views.length (kernel.groups views.length))
        launched.outcome }

end SegmentSort
