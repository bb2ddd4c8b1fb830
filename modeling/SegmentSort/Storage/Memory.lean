import SegmentSort.Element
import SegmentSort.Failure

/-!
# Memory

A `Memory` is a run of bytes that starts at an address.  `Memory.room` are the bytes for
some values, if there are enough of them and the address suits the values; `Memory.read`
are the values for which the bytes stand.
-/

namespace SegmentSort

/-- A run of bytes and the address of its first one. -/
@[ext]
structure Memory where
  address : Nat
  bytes : List UInt8
  deriving DecidableEq, Repr

namespace Memory

/-- The number of bytes. -/
def size (m : Memory) : Nat :=
  m.bytes.length

/-- The first `n` bytes. -/
def take (m : Memory) (n : Nat) : Memory where
  address := m.address
  bytes := m.bytes.take n

/-- All but the first `n` bytes. -/
def drop (m : Memory) (n : Nat) : Memory where
  address := m.address + n
  bytes := m.bytes.drop n

/-- Equal bytes from an address on. -/
def filled (address size : Nat) (byte : UInt8) : Memory where
  address
  bytes := List.replicate size byte

/-- Zero bytes whose address suits elements of every type. -/
def zeroed (size : Nat) : Memory :=
  filled 0 size 0

/-- The address is one that values of type `α` can have. -/
def Aligned (m : Memory) (α : Type) [Element α] : Prop :=
  m.address % Element.alignment α = 0

instance (m : Memory) (α : Type) [Element α] : Decidable (m.Aligned α) :=
  inferInstanceAs (Decidable (_ = _))

/-- The bytes of the first `n` values of a region, if there are enough of them and the
address suits the values.  Where no bytes are needed, neither matters. -/
def room (m : Memory) (region : Region) (α : Type) [Element α] (n : Nat) :
    Except SortError Memory :=
  let required := n * Element.size α
  if 0 < required ∧ m.size < required then
    .error (.storageTooSmall required m.size)
  else if 0 < required ∧ ¬ m.Aligned α then
    .error (.misalignedStorage region)
  else
    .ok (m.take required)

/-- The first `n` values that are stored. -/
def read (m : Memory) (α : Type) [Element α] (n : Nat) : Vector α n :=
  ⟨(Element.ofBytesMany α n m.bytes).toArray, Element.length_ofBytesMany α n m.bytes⟩

end Memory

end SegmentSort
