/-!
# Double buffers

A `DoubleBuffer` is a pair of lists, one of which is current: it holds the data.  A sort
moves the data to and fro between the two and may leave them in either;
`ResultLocation.apply` makes the one current that holds the result.
-/

namespace SegmentSort

/-- Two lists with the roles of a current and an alternate one. -/
structure DoubleBuffer (α : Type) where
  first : List α
  second : List α
  /-- The second list is the current one. -/
  swapped : Bool
  deriving DecidableEq, Repr

namespace DoubleBuffer

variable {α : Type}

/-- Two lists of which the first is current. -/
def ofLists (current alternate : List α) : DoubleBuffer α where
  first := current
  second := alternate
  swapped := false

/-- The list that holds the data. -/
def current (b : DoubleBuffer α) : List α :=
  if b.swapped then b.second else b.first

/-- The other list. -/
def alternate (b : DoubleBuffer α) : List α :=
  if b.swapped then b.first else b.second

/-- The number of items of the current list. -/
def size (b : DoubleBuffer α) : Nat :=
  b.current.length

/-- The number of the current list, counted from 0. -/
def selector (b : DoubleBuffer α) : Nat :=
  if b.swapped then 1 else 0

/-- The lists with their roles exchanged. -/
def swap (b : DoubleBuffer α) : DoubleBuffer α :=
  { b with swapped := !b.swapped }

/-- Other contents in the same roles. -/
def withContents (b : DoubleBuffer α) (current alternate : List α) : DoubleBuffer α :=
  if b.swapped then ⟨alternate, current, true⟩ else ⟨current, alternate, false⟩

/-- Another item at a position of the current list, if it has the position. -/
def set? (b : DoubleBuffer α) (i : Nat) (x : α) : Option (DoubleBuffer α) :=
  if i < b.size then some (b.withContents (b.current.set i x) b.alternate) else none

@[simp]
theorem current_swap (b : DoubleBuffer α) :
  b.swap.current = b.alternate
  := by
  rcases b with ⟨_, _, _ | _⟩ <;> rfl

@[simp]
theorem alternate_swap (b : DoubleBuffer α) :
  b.swap.alternate = b.current
  := by
  rcases b with ⟨_, _, _ | _⟩ <;> rfl

@[simp]
theorem swap_swap (b : DoubleBuffer α) :
  b.swap.swap = b
  := by
  rcases b with ⟨_, _, _ | _⟩ <;> rfl

@[simp]
theorem current_withContents (b : DoubleBuffer α) (current alternate : List α) :
  (b.withContents current alternate).current = current
  := by
  rcases b with ⟨_, _, _ | _⟩ <;> rfl

@[simp]
theorem alternate_withContents (b : DoubleBuffer α) (current alternate : List α) :
  (b.withContents current alternate).alternate = alternate
  := by
  rcases b with ⟨_, _, _ | _⟩ <;> rfl

@[simp]
theorem swapped_withContents (b : DoubleBuffer α) (current alternate : List α) :
  (b.withContents current alternate).swapped = b.swapped
  := by
  rcases b with ⟨_, _, _ | _⟩ <;> rfl

end DoubleBuffer

/-- Where a finished sort has left its result. -/
inductive ResultLocation where
  /-- The scratch: the buffer that is current during the sort of a double buffer. -/
  | primary
  /-- The output: the buffer that is alternate during the sort of a double buffer. -/
  | alternate
  deriving DecidableEq, Repr

/-- The double buffer whose current list is the one that holds the result. -/
def ResultLocation.apply {α : Type} (location : ResultLocation) (b : DoubleBuffer α) :
    DoubleBuffer α :=
  match location with
  | .primary => b
  | .alternate => b.swap

end SegmentSort
