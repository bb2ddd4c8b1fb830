import SegmentSort.RadixPasses
import SegmentSort.ShortSegments
import SegmentSort.Sort.Plan

/-!
# Running a sort

A sort runs in two stages.  `SortCall.prepare` cuts the operands into views of the
segments and classifies these; it may fail, but writes nothing.  `Work.dispatch` then
hands the views to kernels: the large ones to radix passes, the small ones to insertion
sorts, or all of them to radix passes if the segments are not classified.
`SortCall.run` puts the stages together.
-/

namespace SegmentSort

/-- The views of the segments, ready to be sorted. -/
inductive Work (α : Type) where
  /-- All segments take the same route. -/
  | uniform (views : List (SegmentView α))
  /-- The small segments have a route of their own.  `indices` names the segments of
  the large views, followed by those of the small ones. -/
  | classified (views : List (SegmentView α)) (classifier : Classifier)
    (indices : List UInt32) (large small : List (SegmentView α))

/-- Views with those of some segments replaced. -/
def replaceViews {α : Type} (views : List (SegmentView α))
    (sorted : List (UInt32 × SegmentView α)) : List (SegmentView α) :=
  (sorted.foldl (fun views (i, v) => views.setIfInBounds i.toNat v) views.toArray).toList

/-- The radix passes of a plan. -/
def Plan.radixPasses {α : Type} (plan : Plan) (code : α → Nat) : RadixPasses α where
  schedule := plan.schedule
  placement := plan.placement
  code

/-- The insertion sorts of a plan, for the segments that a classifier calls small. -/
def Plan.shortSort {α : Type} (plan : Plan) (code : α → Nat) (classifier : Classifier) :
    ShortSort α where
  beginBit := plan.beginBit
  endBit := plan.endBit
  code
  result := plan.placement.result
  perBlock := max (classifier.route.segmentsPerBlock?.getD 0) 1
  capacity := classifier.capacity

/-- Hands all views to their kernels.  The small segments wait for the large ones, and are
left as they are if one of these fails. -/
def Work.dispatch {α : Type} (work : Work α) (plan : Plan) (code : α → Nat)
    (stream : Stream) (debug : Bool) : Launched (SegmentView α) :=
  let passes := plan.radixPasses code
  match work with
  | .uniform views => (passes.kernel "segmented_sort").dispatch stream debug views
  | .classified views classifier indices large small =>
    let first := (passes.kernel "segmented_sort:large_segments").dispatch stream debug large
    let second : Launched (SegmentView α) :=
      match first.outcome.result with
      | .ok () => (plan.shortSort code classifier).kernel.dispatch stream debug small
      | .error _ => { items := small, outcome := .ofExcept (.ok ()) }
    { items := replaceViews views (indices.zip (first.items ++ second.items))
      outcome := do
        first.outcome
        second.outcome }

/-- A run of a sort: what it leaves, and what it tells. -/
structure Run (κ ν : Type) where
  operands : Operands κ ν
  /-- The size of the storage that the call needs, if it asked for it. -/
  reportedSize : Option Nat
  /-- Where the result lies, if anything was sorted. -/
  trace : Traced (Option ResultLocation)

namespace SortCall

variable {t : KeyType} {ν : Type} [Element ν]

/-- The items of the temporary storage that serve as scratch, and the storage without
them; double buffers need none. -/
def temporaryItems (operands : Operands (Key t) ν) (carved : Carved) :
    Except SortError (List (Key t × ν) × Carved) :=
  match operands with
  | .doubleBuffer .. => .ok ([], carved)
  | .separate .. => do
    let (keys, carved) := carved.requireRoom .keys (Key t) operands.size
    let keys := (← keys).read (Key t) operands.size
    let (values, carved) := carved.requireRoom .values ν operands.size
    let values := (← values).read ν operands.size
    return (keys.toList.zip values.toList, carved)

/-- The work on views, with the small ones told from the large ones. -/
def classifiedWork {α : Type} (call : SortCall) (plan : Plan) (classifier : Classifier)
    (carved : Carved) (views : List (SegmentView α)) : Traced (Work α) := do
  let (indices, carved) := carved.requireRoom .segmentIndices UInt32 call.segments.count
  let indices ← .ofExcept (reported indices)
  let (count, carved) := carved.requireRoom .largeSegmentCount UInt32 1
  let count ← .ofExcept (reported count)
  let (storage, _) := carved.take .partition
  let classification ←
    classifier.classify plan.partitioner (storage.getD (.zeroed 0)) call.segments
      (indices.read UInt32 call.segments.count) (count.read UInt32 1)[0] call.stream
      call.options.debug
  .emit (.classified classification.large.length classification.small.length)
  let slots := (views.map some).toArray
  let (large, slots) ← .ofExcept (reported (pick classification.large slots))
  let (small, _) ← .ofExcept (reported (pick classification.small slots))
  return .classified views classifier (classification.large ++ classification.small) large
    small

/-- The spans of the segments and the work on their views. -/
def prepare (call : SortCall) (plan : Plan) (operands : Operands (Key t) ν)
    (memory : Memory) : Traced (SegmentMap × Work (Key t × ν)) := do
  .emitIf call.options.debug (.started (plan.parameters call.segments.count))
  let map ← .ofExcept (reported (call.segments.resolve operands.size))
  let carved ← .ofExcept (reported (plan.layout.carve memory))
  let (temporary, carved) ← .ofExcept (reported (temporaryItems operands carved))
  let views ← .ofExcept (defined (operands.views? temporary map))
  match plan.classifier with
  | none => return (map, .uniform views)
  | some classifier =>
    let work ← call.classifiedWork plan classifier carved views
    return (map, work)

/-- The code by which a call sorts items. -/
def code (call : SortCall) (item : Key t × ν) : Nat :=
  item.1.sortCode call.direction

/-- Sorts the segments of the operands with the help of memory. -/
def execute (call : SortCall) (plan : Plan) (operands : Operands (Key t) ν)
    (memory : Memory) : Run (Key t) ν :=
  let prepared := call.prepare plan operands memory
  match prepared.result with
  | .error e =>
    { operands
      reportedSize := none
      trace := ⟨prepared.events, .error e⟩ }
  | .ok (map, work) =>
    let launched := work.dispatch plan call.code call.stream call.options.debug
    { operands := operands.withViews map launched.items
      reportedSize := none
      trace := do
        let _ ← prepared
        launched.outcome
        return some plan.placement.result }

/-- Answers a call: a query for the size of the storage, or a sort.  Where there are no
segments, nothing is done. -/
def run (call : SortCall) (operands : Operands (Key t) ν) : Run (Key t) ν :=
  match call.plan operands with
  | .error e =>
    { operands
      reportedSize := none
      trace := .ofExcept (.error e) }
  | .ok plan =>
    match call.storage with
    | none =>
      { operands
        reportedSize := some plan.layout.required
        trace := .ofExcept (.ok none) }
    | some memory =>
      if call.segments.count = 0 then
        { operands
          reportedSize := none
          trace := .ofExcept (.ok none) }
      else
        call.execute plan operands memory

end SortCall

end SegmentSort
