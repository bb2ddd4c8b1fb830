import SegmentSort.Element

/-!
# Keys

`KeyType` lists the ten types of fixed-width numbers by which one may sort, and a
`Key t` is the bit pattern of a number of type `t`.  `Key.code` maps a key to a natural
number below `2 ^ t.bits` that is ordered as the keys are, so that a sort may look at
bits alone; `Key.sortCode` turns the code round for a descending sort.  `Key.rank` is
the number by which keys are meant to be ordered.
-/

namespace SegmentSort

/-- The width of an integer. -/
inductive Width where
  | w8
  | w16
  | w32
  | w64
  deriving DecidableEq, Repr

/-- The number of bits. -/
def Width.bits : Width → Nat
  | .w8 => 8
  | .w16 => 16
  | .w32 => 32
  | .w64 => 64

/-- A type of keys. -/
inductive KeyType where
  /-- Natural numbers. -/
  | unsigned (width : Width)
  /-- Integers in two's complement. -/
  | signed (width : Width)
  /-- Binary floating-point numbers of 32 bits. -/
  | single
  /-- Binary floating-point numbers of 64 bits. -/
  | double
  deriving DecidableEq, Repr

namespace KeyType

/-- The number of bits of a key. -/
def bits : KeyType → Nat
  | unsigned w => w.bits
  | signed w => w.bits
  | single => 32
  | double => 64

/-- The key types whose keys are sorted by all their bits only. -/
def isFloat : KeyType → Bool
  | unsigned _ => false
  | signed _ => false
  | single => true
  | double => true

theorem bits_pos (t : KeyType) :
  0 < t.bits
  := by
  rcases t with (w | w | _ | _) <;> (try cases w) <;> decide

theorem bits_le (t : KeyType) :
  t.bits ≤ 64
  := by
  rcases t with (w | w | _ | _) <;> (try cases w) <;> decide

end KeyType

/-- A key: the bit pattern of a number of type `t`. -/
structure Key (t : KeyType) where
  pattern : BitVec t.bits
  deriving DecidableEq

instance (t : KeyType) : Element (Key t) where
  size := t.bits / 8
  alignment := t.bits / 8
  ofBytes bs := ⟨BitVec.ofNat _ (littleEndian bs)⟩

/-! ### Codes -/

/-- The code of an integer in two's complement: its sign bit is flipped, which moves the
negative numbers below the others. -/
def signedCode {n : Nat} (p : BitVec n) : BitVec n :=
  p ^^^ BitVec.intMin n

/-- The bit pattern without its sign bit. -/
def magnitude {n : Nat} (p : BitVec n) : BitVec n :=
  p &&& ~~~BitVec.intMin n

/-- The code of a floating-point number.  Both zeros count as the positive one.  The
patterns of negative numbers are complemented, which turns them round and puts them
below the others. -/
def floatCode {n : Nat} (p : BitVec n) : BitVec n :=
  let q := if magnitude p = 0 then 0 else p
  if q.msb then ~~~q else q ^^^ BitVec.intMin n

/-- The code of a key, as a bit pattern. -/
def Key.codePattern : {t : KeyType} → Key t → BitVec t.bits
  | .unsigned _, k => k.pattern
  | .signed _, k => signedCode k.pattern
  | .single, k => floatCode k.pattern
  | .double, k => floatCode k.pattern

/-- The code of a key: a natural number in the order of the keys. -/
def Key.code {t : KeyType} (k : Key t) : Nat :=
  k.codePattern.toNat

/-- The direction of a sort. -/
inductive Direction where
  | ascending
  | descending
  deriving DecidableEq, Repr

/-- A 64-bit code in the direction of a sort: complemented if the sort descends. -/
def Direction.turn : Direction → Nat → Nat
  | .ascending, n => n
  | .descending, n => UInt64.size - 1 - n

/-- The number by whose bits a sort in the direction `d` orders a key. -/
def Key.sortCode {t : KeyType} (d : Direction) (k : Key t) : Nat :=
  d.turn k.code

/-! ### The order of keys -/

/-- The signed magnitude of a floating-point pattern: the pattern without its sign bit,
negated if that bit is set.  Both zeros have the signed magnitude 0. -/
def signedMagnitude {n : Nat} (p : BitVec n) : Int :=
  if p.msb then -((magnitude p).toNat : Int) else (magnitude p).toNat

/-- The number by which keys are ordered: the value of an integer, and the signed
magnitude of a floating-point pattern. -/
def Key.rank : {t : KeyType} → Key t → Int
  | .unsigned _, k => k.pattern.toNat
  | .signed _, k => k.pattern.toInt
  | .single, k => signedMagnitude k.pattern
  | .double, k => signedMagnitude k.pattern

end SegmentSort
