import Mathlib.Algebra.Order.Ring.Nat
import SegmentSort.Key.Basic

/-!
# Codes are ordered as keys are

The code of an integer is its value, moved up by half of the number of patterns if the type has
negative numbers; that of a floating-point number is its signed magnitude moved up likewise, the
negative ones by one less, so that both zeros have the same code (`toNat_floatCode`).  Therefore
codes are in the order of the ranks, and only the two zeros of a floating-point type share a code.
Patterns that are no numbers lie beyond the infinities, in the order of what they carry
(`Key.codes_embed_order`).
-/

namespace SegmentSort

/-! ### Bit patterns -/

section

variable {n : Nat}

theorem toNat_magnitude (hn : 0 < n) (p : BitVec n) :
  (magnitude p).toNat = p.toNat % 2 ^ (n - 1)
  := by
  have htwice : 2 ^ n - 1 - 2 ^ (n - 1) = 2 ^ (n - 1) - 1 := by
    have hpow := Nat.two_pow_pred_add_two_pow_pred hn
    omega
  rw [magnitude, BitVec.toNat_and, BitVec.toNat_not, BitVec.toNat_intMin_of_pos hn, htwice,
    Nat.and_two_pow_sub_one_eq_mod]

theorem magnitude_lt (hn : 0 < n) (p : BitVec n) :
  (magnitude p).toNat < 2 ^ (n - 1)
  := by
  rw [toNat_magnitude hn]
  apply Nat.mod_lt _ (Nat.two_pow_pos _)

/-- The sign bit counts for half of the patterns. -/
theorem toNat_eq_add_magnitude (hn : 0 < n) (p : BitVec n) :
  p.toNat = (if p.msb then 2 ^ (n - 1) else 0) + (magnitude p).toNat
  := by
  have hpow := Nat.two_pow_pred_add_two_pow_pred hn
  have hlt := p.isLt
  rw [toNat_magnitude hn, BitVec.msb_eq_decide]
  by_cases hsign : 2 ^ (n - 1) ≤ p.toNat
  · rw [decide_eq_true hsign, if_pos rfl, Nat.mod_eq_sub_mod hsign, Nat.mod_eq_of_lt (by omega)]
    omega
  · rw [decide_eq_false hsign, if_neg Bool.false_ne_true, Nat.mod_eq_of_lt (by omega),
      Nat.zero_add]

/-- A pattern is determined by its sign bit and its magnitude. -/
theorem eq_of_magnitude_eq (hn : 0 < n) {p q : BitVec n} (hsign : p.msb = q.msb)
    (hmagnitude : (magnitude p).toNat = (magnitude q).toNat) :
  p = q
  := by
  apply BitVec.eq_of_toNat_eq
  rw [toNat_eq_add_magnitude hn p, toNat_eq_add_magnitude hn q, hsign, hmagnitude]

/-- Where the sign bit is flipped, it counts if it was not set before. -/
theorem toNat_signedCode (hn : 0 < n) (p : BitVec n) :
  (signedCode p).toNat = (if p.msb then 0 else 2 ^ (n - 1)) + (magnitude p).toNat
  := by
  have hmagnitude : (magnitude (signedCode p)).toNat = (magnitude p).toNat := by
    rw [toNat_magnitude hn, toNat_magnitude hn, signedCode, BitVec.toNat_xor,
      BitVec.toNat_intMin_of_pos hn, Nat.xor_mod_two_pow, Nat.mod_self, Nat.xor_zero]
  rw [toNat_eq_add_magnitude hn, hmagnitude, signedCode, BitVec.msb_xor, BitVec.msb_intMin,
    decide_eq_true hn]
  cases p.msb <;> rfl

/-- The code of an integer is its value, moved up by half of the number of patterns. -/
theorem toNat_signedCode_eq_toInt_add (hn : 0 < n) (p : BitVec n) :
  ((signedCode p).toNat : Int) = p.toInt + (2 ^ (n - 1) : Nat)
  := by
  have hpow := Nat.two_pow_pred_add_two_pow_pred hn
  have hsum := toNat_eq_add_magnitude hn p
  rw [BitVec.toInt_eq_msb_cond, toNat_signedCode hn]
  cases hsign : p.msb with
  | false =>
      rw [hsign] at hsum
      simp only [Bool.false_eq_true, if_false] at hsum ⊢
      omega
  | true =>
      rw [hsign] at hsum
      simp only [if_true] at hsum ⊢
      omega

/-- The code of a floating-point number is its signed magnitude, moved up by half of the number of
patterns, and one step down again if it is negative. -/
theorem toNat_floatCode (hn : 0 < n) (p : BitVec n) :
  ((floatCode p).toNat : Int)
    = signedMagnitude p + (2 ^ (n - 1) : Nat) - if signedMagnitude p < 0 then 1 else 0
  := by
  have hpow := Nat.two_pow_pred_add_two_pow_pred hn
  have hsum := toNat_eq_add_magnitude hn p
  have hlt := magnitude_lt hn p
  rw [floatCode, signedMagnitude]
  by_cases hzero : magnitude p = 0
  · have hhalf := Nat.mod_eq_of_lt (show 2 ^ (n - 1) < 2 ^ n by omega)
    simp [hzero, hhalf]
  · have hne : (magnitude p).toNat ≠ 0 := fun h => hzero (BitVec.eq_of_toNat_eq h)
    simp only [if_neg hzero]
    cases hsign : p.msb with
    | false =>
        have hcode := toNat_signedCode hn p
        rw [signedCode, hsign] at hcode
        simp only [Bool.false_eq_true, if_false] at hcode ⊢
        rw [hcode, if_neg (by omega)]
        omega
    | true =>
        rw [hsign] at hsum
        simp only [if_true] at hsum ⊢
        rw [BitVec.toNat_not, if_pos (by omega)]
        omega

theorem signedCode_lt_iff (hn : 0 < n) (p q : BitVec n) :
  (signedCode p).toNat < (signedCode q).toNat ↔ p.toInt < q.toInt
  := by
  have hp := toNat_signedCode_eq_toInt_add hn p
  have hq := toNat_signedCode_eq_toInt_add hn q
  omega

theorem floatCode_lt_iff (hn : 0 < n) (p q : BitVec n) :
  (floatCode p).toNat < (floatCode q).toNat ↔ signedMagnitude p < signedMagnitude q
  := by
  have hp := toNat_floatCode hn p
  have hq := toNat_floatCode hn q
  split at hp <;> split at hq <;> omega

/-- Patterns of the same signed magnitude are equal, unless both are zeros. -/
theorem signedMagnitude_eq_iff (hn : 0 < n) {p q : BitVec n} :
  signedMagnitude p = signedMagnitude q
    ↔ p = q ∨ (magnitude p).toNat = 0 ∧ (magnitude q).toNat = 0
  := by
  constructor
  · intro h
    by_cases hzeros : (magnitude p).toNat = 0 ∧ (magnitude q).toNat = 0
    · exact .inr hzeros
    left
    have hparts : p.msb = q.msb ∧ (magnitude p).toNat = (magnitude q).toNat := by
      rw [signedMagnitude, signedMagnitude] at h
      cases hp : p.msb <;> cases hq : q.msb <;> simp [hp, hq] at h ⊢ <;> omega
    apply eq_of_magnitude_eq hn hparts.1 hparts.2
  · rintro (rfl | ⟨hp, hq⟩)
    · rfl
    · rw [signedMagnitude, signedMagnitude, hp, hq]
      simp

end

/-! ### Floating-point formats -/

namespace KeyType

/-- The number of bits of the exponent of a floating-point number. -/
def exponentBits : KeyType → Nat
  | unsigned _ => 0
  | signed _ => 0
  | single => 8
  | double => 11

/-- The number of bits of the fraction of a floating-point number. -/
def fractionBits : KeyType → Nat
  | unsigned _ => 0
  | signed _ => 0
  | single => 23
  | double => 52

/-- The magnitude of the infinities: all bits of the exponent are set, and none of the fraction. -/
def infinity (t : KeyType) : Nat :=
  (2 ^ t.exponentBits - 1) * 2 ^ t.fractionBits

theorem infinity_pos {t : KeyType} (h : t.isFloat = true) :
  0 < t.infinity
  := by
  cases t with
  | unsigned w => cases h
  | signed w => cases h
  | single => decide
  | double => decide

end KeyType

/-- Where a floating-point pattern stands among the others. -/
inductive Band where
  | negativeNaN
  | negativeInfinity
  | number
  | positiveInfinity
  | positiveNaN
  deriving DecidableEq, Repr

/-- The number of bands below. -/
def Band.height : Band → Nat
  | negativeNaN => 0
  | negativeInfinity => 1
  | number => 2
  | positiveInfinity => 3
  | positiveNaN => 4

namespace Key

variable {t : KeyType}

/-- The bits of the exponent. -/
def exponent (k : Key t) : Nat :=
  k.pattern.toNat / 2 ^ t.fractionBits % 2 ^ t.exponentBits

/-- The bits of the fraction; those of a pattern that is no number are its payload. -/
def fraction (k : Key t) : Nat :=
  k.pattern.toNat % 2 ^ t.fractionBits

/-- The band of a floating-point pattern.  If all bits of the exponent are set, the fraction tells
infinities from patterns that are no numbers. -/
def band (k : Key t) : Band :=
  if k.exponent < 2 ^ t.exponentBits - 1 then
    .number
  else if k.fraction = 0 then
    if k.pattern.msb then .negativeInfinity else .positiveInfinity
  else
    if k.pattern.msb then .negativeNaN else .positiveNaN

/-- A floating-point zero of either sign. -/
def IsZero (k : Key t) : Prop :=
  k.exponent = 0 ∧ k.fraction = 0

theorem rank_of_isFloat (h : t.isFloat = true) (k : Key t) :
  k.rank = signedMagnitude k.pattern
  := by
  cases t with
  | unsigned w => cases h
  | signed w => cases h
  | single => rfl
  | double => rfl

/-- Exponent and fraction make up the magnitude. -/
theorem magnitude_pattern (h : t.isFloat = true) (k : Key t) :
  (magnitude k.pattern).toNat = k.exponent * 2 ^ t.fractionBits + k.fraction
  := by
  have hbits : t.bits - 1 = t.fractionBits + t.exponentBits := by
    cases t with
    | unsigned w => cases h
    | signed w => cases h
    | single => rfl
    | double => rfl
  rw [toNat_magnitude t.bits_pos, hbits, Nat.pow_add, Nat.mod_mul, exponent, fraction,
    Nat.mul_comm, Nat.add_comm]

theorem isZero_iff (h : t.isFloat = true) (k : Key t) :
  k.IsZero ↔ (magnitude k.pattern).toNat = 0
  := by
  have hpos := Nat.two_pow_pos t.fractionBits
  rw [magnitude_pattern h, IsZero, Nat.add_eq_zero_iff, Nat.mul_eq_zero]
  omega

/-- Every band has its own interval of ranks, and patterns that are no numbers are ranked by their
payloads. -/
theorem rank_of_band (h : t.isFloat = true) (k : Key t) :
  match k.band with
  | .negativeNaN => 0 < k.fraction ∧ k.rank = -(t.infinity + k.fraction : Nat)
  | .negativeInfinity => k.rank = -(t.infinity : Nat)
  | .number => -(t.infinity : Nat) < k.rank ∧ k.rank < t.infinity
  | .positiveInfinity => k.rank = t.infinity
  | .positiveNaN => 0 < k.fraction ∧ k.rank = (t.infinity + k.fraction : Nat)
  := by
  have hmagnitude := magnitude_pattern h k
  have hexponent : k.exponent < 2 ^ t.exponentBits := Nat.mod_lt _ (Nat.two_pow_pos _)
  have hfraction : k.fraction < 2 ^ t.fractionBits := Nat.mod_lt _ (Nat.two_pow_pos _)
  rw [rank_of_isFloat h, signedMagnitude, hmagnitude, band]
  by_cases hnumber : k.exponent < 2 ^ t.exponentBits - 1
  · have hlt : k.exponent * 2 ^ t.fractionBits + k.fraction < t.infinity := by
      rw [KeyType.infinity]
      apply Nat.lt_of_lt_of_le (Nat.add_lt_add_left hfraction _)
      rw [← Nat.succ_mul]
      apply Nat.mul_le_mul_right _ hnumber
    rw [if_pos hnumber]
    dsimp only
    split <;> omega
  · have heq : k.exponent = 2 ^ t.exponentBits - 1 := by omega
    rw [if_neg hnumber, heq, ← KeyType.infinity]
    by_cases hzero : k.fraction = 0
    · rw [if_pos hzero, hzero, Nat.add_zero]
      cases k.pattern.msb <;> rfl
    · rw [if_neg hzero]
      have hpos := Nat.pos_of_ne_zero hzero
      cases k.pattern.msb <;> exact ⟨hpos, rfl⟩

/-- The bands follow each other in the order of their heights. -/
theorem rank_of_height (h : t.isFloat = true) (k : Key t) :
  k.band.height = 0 ∧ k.rank < -(t.infinity : Nat)
    ∨ k.band.height = 1 ∧ k.rank = -(t.infinity : Nat)
    ∨ k.band.height = 2 ∧ -(t.infinity : Nat) < k.rank ∧ k.rank < t.infinity
    ∨ k.band.height = 3 ∧ k.rank = t.infinity
    ∨ k.band.height = 4 ∧ t.infinity < k.rank
  := by
  have hrank := rank_of_band h k
  cases hband : k.band <;> rw [hband] at hrank <;> simp [Band.height] <;> omega

/-! ### Codes -/

/-- Codes are in the order of the ranks. -/
theorem code_lt_iff (a b : Key t) :
  a.code < b.code ↔ a.rank < b.rank
  := by
  cases t with
  | unsigned w => exact Int.ofNat_lt.symm
  | signed w => apply signedCode_lt_iff (KeyType.signed w).bits_pos
  | single => apply floatCode_lt_iff KeyType.single.bits_pos
  | double => apply floatCode_lt_iff KeyType.double.bits_pos

/-- Keys of the same rank are equal, unless they are zeros of a floating-point type. -/
theorem rank_eq_iff {a b : Key t} :
  a.rank = b.rank ↔ a = b ∨ t.isFloat = true ∧ a.IsZero ∧ b.IsZero
  := by
  have heq : a = b ↔ a.pattern = b.pattern := by
    rcases a with ⟨p⟩
    rcases b with ⟨q⟩
    rw [mk.injEq]
  rw [heq]
  by_cases hfloat : t.isFloat = true
  · rw [rank_of_isFloat hfloat, rank_of_isFloat hfloat, isZero_iff hfloat, isZero_iff hfloat,
      signedMagnitude_eq_iff t.bits_pos, and_iff_right hfloat]
  · rw [or_iff_left fun h => hfloat h.1]
    cases t with
    | unsigned w => exact Int.ofNat_inj.trans BitVec.toNat_inj
    | signed w => exact BitVec.toInt_inj
    | single => cases hfloat rfl
    | double => cases hfloat rfl

/-- The codes of two keys are ordered as the keys are: by value if these are integers, and by
signed magnitude if they are floating-point patterns. -/
structure EncodesOrder (a b : Key t) : Prop where
  bound : a.code < 2 ^ t.bits
  lt_iff : a.code < b.code ↔ a.rank < b.rank
  eq_iff : a.code = b.code ↔ a = b ∨ t.isFloat = true ∧ a.IsZero ∧ b.IsZero
  /-- Negative patterns that are no numbers come first, then the numbers between the infinities,
  and then the positive patterns that are no numbers. -/
  bands : t.isFloat = true → a.band.height < b.band.height → a.code < b.code
  positivePayloads : t.isFloat = true → a.band = .positiveNaN → b.band = .positiveNaN →
    (a.code < b.code ↔ a.fraction < b.fraction)
  negativePayloads : t.isFloat = true → a.band = .negativeNaN → b.band = .negativeNaN →
    (a.code < b.code ↔ b.fraction < a.fraction)

/-- The codes of all keys are in the order of the keys. -/
theorem codes_embed_order (t : KeyType) (a b : Key t) :
  a.EncodesOrder b
  := by
  constructor
  case bound => apply a.codePattern.isLt
  case lt_iff => apply code_lt_iff
  case eq_iff =>
    rw [← rank_eq_iff]
    have hlt := code_lt_iff a b
    have hgt := code_lt_iff b a
    omega
  case bands =>
    intro hfloat hheight
    have ha := rank_of_height hfloat a
    have hb := rank_of_height hfloat b
    have hinfinity := KeyType.infinity_pos hfloat
    rw [code_lt_iff]
    omega
  case positivePayloads =>
    intro hfloat hbandA hbandB
    have ha := rank_of_band hfloat a
    have hb := rank_of_band hfloat b
    rw [hbandA] at ha
    rw [hbandB] at hb
    rw [code_lt_iff, ha.2, hb.2]
    omega
  case negativePayloads =>
    intro hfloat hbandA hbandB
    have ha := rank_of_band hfloat a
    have hb := rank_of_band hfloat b
    rw [hbandA] at ha
    rw [hbandB] at hb
    rw [code_lt_iff, ha.2, hb.2]
    omega

/-- The zeros of either sign share a code, and a negative pattern that is no number comes before the
negative infinity. -/
example :
  (⟨0x80000000⟩ : Key .single).code = (⟨0⟩ : Key .single).code
    ∧ (⟨0xFFC00000⟩ : Key .single).code < (⟨0xFF800000⟩ : Key .single).code
  := by decide

end Key

end SegmentSort
