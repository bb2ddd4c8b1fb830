/-!
# Events

What a sort call tells about its course: the parameters of a call, the split of the
segments into long and short ones, the launches and their ends.  An event has a level
and a text; elapsed times are no part of it, and `<t>` stands in their place.
-/

namespace SegmentSort

/-- The importance of an event. -/
inductive Level where
  | info
  | debug
  deriving DecidableEq, Repr

/-- The word for a level. -/
def Level.name : Level → String
  | .info => "info"
  | .debug => "debug"

/-- The quantities that steer a call. -/
structure Parameters where
  beginBit : Nat
  endBit : Nat
  segments : Nat
  digitDifference : Nat
  storageSize : Nat
  longPasses : Nat
  shortPasses : Nat
  classified : Bool
  blockSize : Nat
  itemsPerThread : Nat
  deriving DecidableEq, Repr

/-- The parameters on one line. -/
def Parameters.text (p : Parameters) : String :=
  String.intercalate " " [
    s!"begin_bit={p.beginBit}",
    s!"end_bit={p.endBit}",
    s!"bits={p.endBit - p.beginBit}",
    s!"segments={p.segments}",
    s!"radix_bits_diff={p.digitDifference}",
    s!"storage_size={p.storageSize}",
    s!"iterations={p.longPasses + p.shortPasses}",
    s!"long_iterations={p.longPasses}",
    s!"short_iterations={p.shortPasses}",
    "do_partitioning=" ++ (if p.classified then "true" else "false"),
    s!"block_size={p.blockSize}",
    s!"items_per_thread={p.itemsPerThread}"]

/-- Something that happened in the course of a call. -/
inductive Event where
  /-- A call starts on its segments. -/
  | started (parameters : Parameters)
  /-- The segments have been split into long and short ones. -/
  | classified (large small : Nat)
  /-- Segments are handed to a kernel, in `groups` worker groups. -/
  | dispatched (kernel : String) (segments groups : Nat)
  /-- All worker groups of a kernel have finished. -/
  | finished (kernel : String) (groups : Nat)
  /-- A caller's own component has something to tell. -/
  | noted (level : Level) (text : String)
  deriving DecidableEq, Repr

/-- The level of an event. -/
def Event.level : Event → Level
  | .started _ => .info
  | .classified .. => .debug
  | .dispatched .. => .debug
  | .finished .. => .info
  | .noted level _ => level

/-- The text of an event. -/
def Event.text : Event → String
  | .started parameters => parameters.text
  | .classified large small => s!"classified {large} large and {small} small segments"
  | .dispatched kernel segments groups => s!"{kernel}: {segments} segments, grid {groups}"
  | .finished kernel groups => s!"{kernel}({groups}) <t> ms"
  | .noted _ text => text

end SegmentSort
