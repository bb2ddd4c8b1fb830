/-!
# Elements in memory

`Element α` says how many bytes a value of `α` occupies, which addresses it may have,
and which value a run of bytes stands for.  Numbers are stored with the low byte first,
and a vector is stored as its entries, one after the other.
-/

namespace SegmentSort

/-- A type whose values are stored in a fixed number of bytes. -/
class Element (α : Type) where
  /-- The number of bytes of a value. -/
  size : Nat
  /-- The address of a value is a multiple of this number. -/
  alignment : Nat
  /-- The value for which `size` bytes stand. -/
  ofBytes : List UInt8 → α

/-- The number for which bytes stand, low byte first. -/
def littleEndian : List UInt8 → Nat
  | [] => 0
  | b :: bs => b.toNat + 256 * littleEndian bs

/-- The first `n` values stored in a run of bytes. -/
def Element.ofBytesMany (α : Type) [Element α] : Nat → List UInt8 → List α
  | 0, _ => []
  | n + 1, bs =>
    Element.ofBytes (bs.take (Element.size α))
      :: ofBytesMany α n (bs.drop (Element.size α))

@[simp]
theorem Element.length_ofBytesMany (α : Type) [Element α] (n : Nat) (bs : List UInt8) :
  (Element.ofBytesMany α n bs).length = n
  := by
  induction n generalizing bs with
  | zero => rfl
  | succ n ih => simp [ofBytesMany, ih]

instance : Element Unit where
  size := 0
  alignment := 1
  ofBytes _ := ()

instance : Element UInt8 where
  size := 1
  alignment := 1
  ofBytes bs := UInt8.ofNat (littleEndian bs)

instance : Element UInt16 where
  size := 2
  alignment := 2
  ofBytes bs := UInt16.ofNat (littleEndian bs)

instance : Element UInt32 where
  size := 4
  alignment := 4
  ofBytes bs := UInt32.ofNat (littleEndian bs)

instance : Element UInt64 where
  size := 8
  alignment := 8
  ofBytes bs := UInt64.ofNat (littleEndian bs)

instance (α : Type) [Element α] (n : Nat) : Element (Vector α n) where
  size := n * Element.size α
  alignment := Element.alignment α
  ofBytes bs :=
    ⟨(Element.ofBytesMany α n bs).toArray, Element.length_ofBytesMany α n bs⟩

end SegmentSort
