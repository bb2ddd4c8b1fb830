import SegmentSort.Proofs.Offsets
import SegmentSort.Workload.Shape

/-!
# Offsets of workloads

The offsets of a workload are the sums of the lengths drawn so far, so they start at zero and
ascend.  If no number that is drawn exceeds its bound, their differences are lengths as the shape
allows them, and they describe segments which are resolved in the array that they cover
(`SegmentShape.drawn_offsets_describe_segments`).  Uniform numbers do not exceed their bounds, from
whatever source they are drawn (`randomUpTo_le`).
-/

namespace SegmentSort

/-! ### Uniform numbers -/

section Uniform

variable {σ : Type}

/-- Where a second word is drawn, the quotient is so small that its successor is below the
range. -/
theorem quotient_succ_lt {bound range x : Nat} (hx : x < bound)
    (hlow : bound - range < x * range % bound) :
  x * range / bound + 1 < range
  := by
  have hdiv := Nat.div_add_mod (x * range) bound
  have hle : (x + 1) * range ≤ bound * range := Nat.mul_le_mul_right range hx
  rw [Nat.succ_mul] at hle
  apply Nat.lt_of_mul_lt_mul_left (a := bound)
  rw [Nat.mul_succ]
  omega

/-- A number from 0 to `max` is at most `max`, if all words are below the bound. -/
theorem uniformUpTo_le {bound : Nat} {draw : σ → Nat × σ} (hdraw : ∀ s, (draw s).1 < bound)
    (max : Nat) (s : σ) :
  (uniformUpTo bound draw max s).1 ≤ max
  := by
  have hrange : (max + 1) % bound ≤ max + 1 := Nat.mod_le _ _
  have hx := hdraw s
  rcases hword : draw s with ⟨x, s'⟩
  simp only [hword] at hx
  simp only [uniformUpTo, hword]
  split
  · rename_i hzero
    have hbound := Nat.le_of_dvd (Nat.succ_pos max) (Nat.dvd_of_mod_eq_zero hzero)
    omega
  · rename_i hpos
    have hlt : x * ((max + 1) % bound) / bound < (max + 1) % bound :=
      Nat.div_lt_of_lt_mul (Nat.mul_lt_mul_of_pos_right hx (Nat.pos_of_ne_zero hpos))
    split
    · rename_i hlow
      have hsucc := quotient_succ_lt hx hlow
      split
      · omega
      · omega
    · omega

theorem randomUpTo_le [RandomSource σ] (max : Nat) (s : σ) :
  (randomUpTo max s).1 ≤ max
  := by
  apply uniformUpTo_le
  intro s
  apply UInt32.toNat_lt_size

end Uniform

namespace SegmentShape

variable {σ : Type}

/-- The lengths that the segment with an index may have. -/
def Allows (shape : SegmentShape) (i n : Nat) : Prop :=
  match shape with
  | fixed length => n = length
  | uniform max => n ≤ max
  | skewed shortMax longLength longEvery =>
    if longEvery ≠ 0 ∧ longEvery ∣ i then n = longLength else n ≤ shortMax

/-- The lengths that are drawn for segments from the one with index `i` on. -/
def lengthsFrom (draw : Nat → σ → Nat × σ) (shape : SegmentShape) :
    (segments i : Nat) → σ → List Nat
  | 0, _, _ => []
  | segments + 1, i, s =>
    let (length, s) := shape.length draw i s
    length :: shape.lengthsFrom draw segments (i + 1) s

/-- The lengths that are drawn for some segments. -/
def lengths (draw : Nat → σ → Nat × σ) (shape : SegmentShape) (segments : Nat) (s : σ) :
    List Nat :=
  shape.lengthsFrom draw segments 0 s

/-- Offsets describe segments of a shape, which are resolved in the array that they cover. -/
structure Describes (shape : SegmentShape) (segments : Nat) (offsets : List Nat) : Prop where
  length : offsets.length = segments + 1
  zero : offsets[0]? = some 0
  ordered : offsets.Pairwise (· ≤ ·)
  allowed : ∀ i start stop, offsets[i]? = some start → offsets[i + 1]? = some stop →
    shape.Allows i (stop - start)
  count : (Segments.ofOffsets offsets.toArray).count = segments
  resolved : ∃ last m, offsets.getLast? = some last
    ∧ (Segments.ofOffsets offsets.toArray).resolve last = .ok m

variable {shape : SegmentShape} {draw : Nat → σ → Nat × σ}

/-! ### Lengths -/

/-- A length that is drawn is one that the shape allows. -/
theorem allows_length (hdraw : ∀ max s, (draw max s).1 ≤ max) (shape : SegmentShape) (i : Nat)
    (s : σ) :
  shape.Allows i (shape.length draw i s).1
  := by
  cases shape with
  | fixed length => rfl
  | uniform max => apply hdraw
  | skewed shortMax longLength longEvery =>
      rw [Allows, length]
      simp only [Nat.dvd_iff_mod_eq_zero]
      split
      · rfl
      · apply hdraw

theorem length_lengthsFrom (draw : Nat → σ → Nat × σ) (shape : SegmentShape) (segments : Nat) :
    ∀ (i : Nat) (s : σ), (shape.lengthsFrom draw segments i s).length = segments := by
  induction segments with
  | zero =>
      intro i s
      rfl
  | succ segments ih =>
      intro i s
      rw [lengthsFrom, List.length_cons, ih]

/-- All lengths that are drawn are allowed. -/
theorem allows_of_lengthsFrom (hdraw : ∀ max s, (draw max s).1 ≤ max) {n : Nat}
    (segments : Nat) :
    ∀ (i k : Nat) (s : σ), (shape.lengthsFrom draw segments i s)[k]? = some n →
      shape.Allows (i + k) n := by
  induction segments with
  | zero =>
      rintro i k s ⟨⟩
  | succ segments ih =>
      intro i k s h
      rw [lengthsFrom] at h
      cases k with
      | zero =>
          obtain rfl := Option.some.inj h
          apply allows_length hdraw
      | succ k =>
          rw [← Nat.succ_add_eq_add_succ]
          apply ih (i + 1) k _ h

/-! ### Offsets -/

/-- The offsets are the sums of the lengths that are drawn, up to each segment. -/
theorem eq_scanl_of_offsetsFrom? (segments : Nat) :
    ∀ {i start : Nat} {s s' : σ} {offsets : List Nat},
      shape.offsetsFrom? draw segments i start s = some (offsets, s') →
        offsets = (shape.lengthsFrom draw segments i s).scanl (· + ·) start := by
  induction segments with
  | zero =>
      intro i start s s' offsets h
      obtain ⟨rfl, -⟩ := Prod.mk.inj (Option.some.inj h)
      rfl
  | succ segments ih =>
      intro i start s s' offsets h
      rw [offsetsFrom?] at h
      simp only [Option.bind_eq_bind, Option.bind_eq_some_iff, inWord?_eq_some_iff] at h
      obtain ⟨stop, ⟨-, rfl⟩, ⟨later, s''⟩, hlater, hoffsets⟩ := h
      obtain ⟨rfl, -⟩ := Prod.mk.inj (Option.some.inj hoffsets)
      rw [ih hlater, lengthsFrom, List.scanl_cons]

/-- There are offsets precisely if the last one of them fits a word. -/
theorem exists_offsetsFrom?_iff (draw : Nat → σ → Nat × σ) (shape : SegmentShape)
    (segments : Nat) :
    ∀ (i start : Nat) (s : σ), start < wordBound →
      ((∃ r, shape.offsetsFrom? draw segments i start s = some r)
        ↔ start + (shape.lengthsFrom draw segments i s).sum < wordBound) := by
  induction segments with
  | zero =>
      intro i start s hstart
      exact ⟨fun _ => hstart, fun _ => ⟨_, rfl⟩⟩
  | succ segments ih =>
      intro i start s hstart
      rw [offsetsFrom?, lengthsFrom, List.sum_cons, ← Nat.add_assoc]
      simp only [Option.bind_eq_bind, Option.bind_eq_some_iff, inWord?_eq_some_iff]
      constructor
      · rintro ⟨r, stop, ⟨hstop, rfl⟩, later, hlater, -⟩
        apply (ih _ _ _ hstop).mp ⟨later, hlater⟩
      · intro hsum
        -- The last offset is the largest one, so none before it fails to fit.
        have hstop := Nat.lt_of_le_of_lt (Nat.le_add_right _ _) hsum
        obtain ⟨later, hlater⟩ := (ih _ _ _ hstop).mpr hsum
        exact ⟨_, _, ⟨hstop, rfl⟩, later, hlater, rfl⟩

/-- Sums of allowed lengths describe segments. -/
theorem describes_scanl (hdraw : ∀ max s, (draw max s).1 ≤ max) (segments : Nat) (s : σ) :
  shape.Describes segments ((shape.lengths draw segments s).scanl (· + ·) 0)
  := by
  have hlength := shape.length_lengthsFrom draw segments 0 s
  have hordered : ((shape.lengths draw segments s).scanl (· + ·) 0).Pairwise (· ≤ ·) := by
    rw [← List.isChain_iff_pairwise, List.isChain_iff_getElem]
    intro i hi
    rw [List.getElem_succ_scanl]
    apply Nat.le_add_right
  constructor
  case length => rw [List.length_scanl, lengths, hlength]
  case zero => apply List.getElem?_scanl_zero
  case ordered => apply hordered
  case allowed =>
    intro i start stop hstart hstop
    rw [List.getElem?_succ_scanl, hstart, Option.bind_some, Option.map_eq_some_iff] at hstop
    obtain ⟨n, hn, rfl⟩ := hstop
    have hallows := allows_of_lengthsFrom hdraw segments 0 i s hn
    rwa [Nat.add_sub_cancel_left, ← Nat.zero_add i]
  case count =>
    rw [Segments.ofOffsets, List.size_toArray, List.length_scanl, lengths, hlength]
    rfl
  case resolved =>
    have hlast := List.getLast?_scanl (f := (· + ·)) (b := 0) (l := shape.lengths draw segments s)
    have hascend : Segments.Ascend ((shape.lengths draw segments s).scanl (· + ·) 0).toArray
        ((shape.lengths draw segments s).foldl (· + ·) 0) := by
      constructor
      · apply hordered
      · intro stop hstop
        rw [List.back?_toArray, hlast] at hstop
        apply Nat.le_of_eq (Option.some.inj hstop).symm
    obtain ⟨m, hm⟩ := Segments.exists_resolve_ofOffsets_iff.mpr (.inr hascend)
    exact ⟨_, m, hlast, hm⟩

/-- There are offsets precisely if the lengths of all segments together fit a word. -/
theorem exists_offsets?_iff (draw : Nat → σ → Nat × σ) (shape : SegmentShape) (segments : Nat)
    (s : σ) :
  (∃ r, shape.offsets? draw segments s = some r)
    ↔ (shape.lengths draw segments s).sum < wordBound
  := by
  have hiff := shape.exists_offsetsFrom?_iff draw segments 0 0 s (by decide)
  rwa [Nat.zero_add] at hiff

/-- Offsets that are drawn describe the segments. -/
theorem describes_of_offsets? (hdraw : ∀ max s, (draw max s).1 ≤ max) {segments : Nat}
    {s s' : σ} {offsets : List Nat} (h : shape.offsets? draw segments s = some (offsets, s')) :
  shape.Describes segments offsets
  := by
  rw [eq_scanl_of_offsetsFrom? segments h]
  apply describes_scanl hdraw

/-- Whatever draws numbers that are at most their bounds, offsets are drawn precisely if the
lengths of all segments together fit a word, and then they describe the segments. -/
theorem drawn_offsets_describe_segments {draw : Nat → σ → Nat × σ}
    (hdraw : ∀ max s, (draw max s).1 ≤ max) (shape : SegmentShape) (segments : Nat) (s : σ) :
  ((∃ r, shape.offsets? draw segments s = some r)
      ↔ (shape.lengths draw segments s).sum < wordBound)
    ∧ ∀ offsets s', shape.offsets? draw segments s = some (offsets, s') →
      shape.Describes segments offsets
  := by
  use shape.exists_offsets?_iff draw segments s
  intro offsets s' h
  apply describes_of_offsets? hdraw h

/-- Random sources draw such numbers. -/
theorem random_offsets_describe_segments [RandomSource σ] (shape : SegmentShape)
    (segments : Nat) (s : σ) :
  ((∃ r, shape.randomOffsets? segments s = some r)
      ↔ (shape.lengths randomUpTo segments s).sum < wordBound)
    ∧ ∀ offsets s', shape.randomOffsets? segments s = some (offsets, s') →
      shape.Describes segments offsets
  := by
  use shape.exists_offsets?_iff randomUpTo segments s
  intro offsets s' h
  apply describes_of_offsets? randomUpTo_le h

/-- Three words.  As a number from 0 to 5, the first one is so close to the next quotient that the
second one is drawn as well. -/
def sampleSource : Replay :=
  .ofWords #[0x2aaaaaaa, 0xc0000000, 0x40000000]

/-- Every other one of five segments is long, and the short ones have one item each. -/
theorem describes_sample :
  (skewed 5 9 2).offsets? randomUpTo 5 sampleSource
      = some ([0, 9, 10, 19, 20, 29], { sampleSource with drawn := 3 })
    ∧ (skewed 5 9 2).Describes 5 [0, 9, 10, 19, 20, 29]
  := by
  have hoffsets : (skewed 5 9 2).offsets? randomUpTo 5 sampleSource
      = some ([0, 9, 10, 19, 20, 29], { sampleSource with drawn := 3 }) := by
    cbv
  exact ⟨hoffsets, (drawn_offsets_describe_segments randomUpTo_le _ _ _).2 _ _ hoffsets⟩

/-- The second offset is the largest number of a word, and the third one would not fit. -/
example :
    (fixed 4294967295).randomOffsets? 1 sampleSource = some ([0, 4294967295], sampleSource)
      ∧ (fixed 4294967295).randomOffsets? 2 sampleSource = none := by
  decide

end SegmentShape

end SegmentSort
