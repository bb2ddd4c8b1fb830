import SegmentSort.Storage.Region

/-!
# Failures

`SortError` has one constructor for each cause for which a call is refused or stopped,
and `SortError.message` words it.  `Failure` adds the operations that have no value at
all: a division by zero, a number that outgrows its word, an index past the end.
`reported` and `defined` turn the two narrower kinds of result into results that may
fail in either way.
-/

namespace SegmentSort

/-- A demand that a configuration does not meet. -/
inductive ConfigFault where
  | longDigit
  | shortDigit
  | sortKernel
  | warpSort
  deriving DecidableEq, Repr

/-- The demand, in words. -/
def ConfigFault.message : ConfigFault → String
  | .longDigit => "long_radix_bits must be in 1..=16"
  | .shortDigit => "short_radix_bits must be in 1..=long_radix_bits"
  | .sortKernel => "sort kernel dimensions must be non-zero"
  | .warpSort => "warp sort needs at least one non-empty logical warp per block"

/-- A list of elements whose length has to agree with another one. -/
inductive Buffer where
  | keysOutput
  | valuesInput
  | valuesOutput
  | keysAlternate
  | valuesCurrent
  | valuesAlternate
  | segmentIndices
  deriving DecidableEq, Repr

/-- The word for a buffer. -/
def Buffer.name : Buffer → String
  | .keysOutput => "keys_output"
  | .valuesInput => "values_input"
  | .valuesOutput => "values_output"
  | .keysAlternate => "keys_alternate"
  | .valuesCurrent => "values_current"
  | .valuesAlternate => "values_alternate"
  | .segmentIndices => "segment_indices"

/-- One of the two offsets that bound a segment. -/
inductive Bound where
  | lower
  | upper
  deriving DecidableEq, Repr

/-- The word for a bound. -/
def Bound.name : Bound → String
  | .lower => "begin"
  | .upper => "end"

/-- A cause for which a call is refused or stopped. -/
inductive SortError where
  /-- The selected bits are empty, reversed, or lie outside the key. -/
  | invalidBitRange (beginBit endBit keyBits : Nat)
  /-- Floating-point keys are sorted on part of their bits. -/
  | floatBitRange (keyBits : Nat)
  /-- The configuration breaks one of its demands. -/
  | invalidConfig (fault : ConfigFault)
  /-- Fewer bytes are provided than are required. -/
  | storageTooSmall (required provided : Nat)
  /-- A region starts at an address that its elements cannot have. -/
  | misalignedStorage (region : Region)
  /-- A buffer has not the length that it must have. -/
  | lengthMismatch (buffer : Buffer) (expected actual : Nat)
  /-- There are fewer offsets of one kind than segments. -/
  | offsetsTooShort (bound : Bound) (segments actual : Nat)
  /-- A segment is reversed, or ends past the end of the array. -/
  | segmentOutOfBounds (segment start stop length : Nat)
  /-- Two segments share a position. -/
  | overlappingSegments (first second : Nat)
  /-- A partition announces more long segments than there are segments. -/
  | excessLargeCount (large segments : Nat)
  /-- A partition names a segment that does not exist or was named before. -/
  | badSegmentIndex (index : Nat)
  /-- A partition fails for a reason of its own. -/
  | partitionFault (reason : String)
  /-- A segment is routed to the short-segment sort and does not fit it. -/
  | segmentOverCapacity (length capacity : Nat)
  /-- A worker group fails for a reason of its own. -/
  | deviceFault (kernel reason : String)
  deriving DecidableEq, Repr

/-- The name under which the short-segment sort is launched. -/
def shortSegmentKernel : String := "segmented_sort:small_segments"

/-- The cause, in words. -/
def SortError.message : SortError → String
  | .invalidBitRange b e bits =>
    s!"bit range [{b}, {e}) is invalid for a {bits}-bit key"
  | .floatBitRange bits =>
    s!"floating-point keys only support the full bit range [0, {bits})"
  | .invalidConfig fault =>
    "invalid configuration: " ++ fault.message
  | .storageTooSmall required provided =>
    s!"temporary storage holds {provided} bytes but {required} are required"
  | .misalignedStorage region =>
    "temporary storage region `" ++ region.name ++ "` is not aligned for its element type"
  | .lengthMismatch buffer expected actual =>
    "`" ++ buffer.name ++ s!"` holds {actual} elements, expected {expected}"
  | .offsetsTooShort bound segments actual =>
    s!"{segments} segments need {segments} " ++ bound.name ++ s!" offsets, got {actual}"
  | .segmentOutOfBounds segment start stop length =>
    s!"segment {segment} spans [{start}, {stop}) which is outside [0, {length})"
  | .overlappingSegments first second =>
    s!"segments {first} and {second} overlap"
  | .excessLargeCount large segments =>
    s!"segment partition failed: reported {large} large segments out of {segments}"
  | .badSegmentIndex index =>
    s!"segment partition failed: bad segment index {index}"
  | .partitionFault reason =>
    "segment partition failed: " ++ reason
  | .segmentOverCapacity length capacity =>
    "device fault in `" ++ shortSegmentKernel
      ++ s!"`: segment of {length} items exceeds warp capacity {capacity}"
  | .deviceFault kernel reason =>
    "device fault in `" ++ kernel ++ "`: " ++ reason

/-- What a computation yields in place of its result. -/
inductive Failure where
  /-- An operation is applied where it has no value. -/
  | undefined
  /-- The caller is told the cause. -/
  | reported (error : SortError)
  deriving DecidableEq, Repr

/-- A result, or the failure that reports its cause. -/
def reported {α : Type} : Except SortError α → Except Failure α
  | .ok a => .ok a
  | .error e => .error (.reported e)

/-- A value, or the failure of an operation that has none. -/
def defined {α : Type} : Option α → Except Failure α
  | some a => .ok a
  | none => .error .undefined

@[simp]
theorem reported_ok {α : Type} (a : α) :
  reported (.ok a) = .ok a
  := rfl

@[simp]
theorem reported_error {α : Type} (e : SortError) :
  (reported (.error e) : Except Failure α) = .error (.reported e)
  := rfl

@[simp]
theorem defined_some {α : Type} (a : α) :
  defined (some a) = .ok a
  := rfl

@[simp]
theorem defined_none {α : Type} :
  (defined none : Except Failure α) = .error .undefined
  := rfl

theorem reported_eq_ok_iff {α : Type} {x : Except SortError α} {a : α} :
  reported x = .ok a ↔ x = .ok a
  := by
  cases x <;> simp [reported]

theorem defined_eq_ok_iff {α : Type} {x : Option α} {a : α} :
  defined x = .ok a ↔ x = some a
  := by
  cases x <;> simp [defined]

end SegmentSort
