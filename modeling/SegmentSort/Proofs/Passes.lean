import SegmentSort.Proofs.Schedule

/-!
# How a schedule divides its bits

The passes of a schedule are its digits, laid side by side, of which only the last one is cut
off.  They are neither empty nor too wide, and no division into digits that are not wider than
long ones has fewer of them (`Schedule.schedules_divide_bits`).
-/

namespace SegmentSort

/-- Passes of some width at most do not tile more bits than they have altogether. -/
theorem Pass.Tiles.le_add_mul {e width : Nat} {passes : List Pass} :
    ∀ {b : Nat}, Pass.Tiles b passes e → (∀ p ∈ passes, p.width ≤ width) →
      e ≤ b + passes.length * width := by
  induction passes with
  | nil =>
      rintro b rfl -
      apply Nat.le_add_right
  | cons p rest ih =>
      rintro b ⟨-, hrest⟩ hwidth
      have hp := hwidth p List.mem_cons_self
      have hle := ih hrest fun q hq => hwidth q (List.mem_cons_of_mem p hq)
      rw [List.length_cons, Nat.succ_mul]
      omega

/-- The full width of a digit of a kind. -/
def DigitKind.bits (long short : Nat) : DigitKind → Nat
  | .long => long
  | .short => short

namespace Schedule

/-! ### Digits that are placed -/

variable {e : Nat}

/-- Digits go to the end of those before them. -/
theorem place_append (later : List (DigitKind × Nat)) (digits : List (DigitKind × Nat)) :
    ∀ b, place e b (digits ++ later)
      = place e b digits ++ place e (b + (digits.map Prod.snd).sum) later := by
  induction digits with
  | nil =>
      intro b
      rfl
  | cons d rest ih =>
      intro b
      rw [List.cons_append, place, ih, place, List.map_cons, List.sum_cons, ← Nat.add_assoc]
      rfl

theorem map_kind_place (digits : List (DigitKind × Nat)) :
    ∀ b, (place e b digits).map (·.kind) = digits.map Prod.fst := by
  induction digits with
  | nil =>
      intro b
      rfl
  | cons d rest ih =>
      intro b
      rw [place, List.map_cons, List.map_cons, ih]

/-- A pass is no wider than its digit, and does not reach beyond the last bit. -/
theorem width_le_of_mem_place {p : Pass} (digits : List (DigitKind × Nat)) :
    ∀ b, p ∈ place e b digits → p.width ≤ e - b ∧ ∃ d ∈ digits, p.width ≤ d.2 := by
  induction digits with
  | nil =>
      rintro b ⟨⟩
  | cons d rest ih =>
      intro b hp
      rcases List.mem_cons.mp hp with rfl | hp
      · exact ⟨Nat.min_le_right _ _, d, List.mem_cons_self, Nat.min_le_left _ _⟩
      · obtain ⟨hwithin, d', hd', hwidth⟩ := ih _ hp
        exact ⟨by omega, d', List.mem_cons_of_mem d hd', hwidth⟩

/-- Digits that do not reach beyond the last bit keep their widths. -/
theorem mem_of_mem_place {p : Pass} (digits : List (DigitKind × Nat)) :
    ∀ b, b + (digits.map Prod.snd).sum ≤ e → p ∈ place e b digits →
      (p.kind, p.width) ∈ digits := by
  induction digits with
  | nil =>
      rintro b - ⟨⟩
  | cons d rest ih =>
      intro b hle hp
      rw [List.map_cons, List.sum_cons] at hle
      rcases List.mem_cons.mp hp with rfl | hp
      · rw [Nat.min_eq_left (by omega)]
        apply List.mem_cons_self
      · apply List.mem_cons_of_mem d (ih _ (by omega) hp)

/-! ### The passes of a schedule -/

variable {b long short : Nat} {s : Schedule}

theorem reach_eq (s : Schedule) :
  s.reach = s.beginBit + (s.digits.map Prod.snd).sum
  := by
  rw [digits, List.map_append, List.sum_append, sum_replicate_digits, sum_replicate_digits,
    ← Nat.add_assoc]
  rfl

/-- The digits have the widths of their kinds. -/
theorem snd_eq_bits_of_mem_digits {d : DigitKind × Nat} (h : d ∈ s.digits) :
  d.2 = d.1.bits s.longBits s.shortBits
  := by
  rcases List.mem_append.mp h with h | h
  · rw [List.eq_of_mem_replicate h, DigitKind.bits]
  · rw [List.eq_of_mem_replicate h, DigitKind.bits]

theorem map_fst_digits (s : Schedule) :
  s.digits.map Prod.fst
    = List.replicate s.longPasses .long ++ List.replicate s.shortPasses .short
  := by
  rw [digits, List.map_append, List.map_replicate, List.map_replicate]

/-- A schedule divides the bits from `b` to `e` into digits of `long` bits followed by digits of
`short` bits, and with as few passes as long digits allow. -/
structure Divides (s : Schedule) (b e long short : Nat) : Prop where
  count : s.count = ceilDiv (e - b) long
  length : s.passes.length = s.count
  maxWidth : s.maxWidth = min long (e - b)
  tiles : Pass.Tiles b s.passes e
  width : ∀ p ∈ s.passes, 1 ≤ p.width ∧ p.width ≤ s.maxWidth
  /-- Only the last pass may be cut off. -/
  full : ∀ p ∈ s.passes.dropLast, p.width = p.kind.bits long short
  kinds : s.passes.map (·.kind)
    = List.replicate s.longPasses .long ++ List.replicate s.shortPasses .short
  fewest : ∀ passes, Pass.Tiles b passes e → (∀ p ∈ passes, p.width ≤ long) →
    s.count ≤ passes.length

/-- No division into digits of at most `long` bits has fewer passes. -/
theorem count_le_length (h : new? b e long short = some s) {passes : List Pass}
    (htiles : Pass.Tiles b passes e) (hwidth : ∀ p ∈ passes, p.width ≤ long) :
  s.count ≤ passes.length
  := by
  obtain ⟨-, hlong, -⟩ := new?_eq_some h
  have hle := htiles.le_add_mul hwidth
  rw [count_eq_ceilDiv h, ceilDiv_le_iff hlong]
  omega

/-- The digits of a schedule end before the bits that a word can number do. -/
theorem reach_lt_wordBound (hbits : b < e) (hle : short ≤ long) (hword : e + long ≤ wordBound)
    (h : new? b e long short = some s) :
  s.reach < wordBound
  := by
  obtain ⟨-, -, hb, -, hl, hs, -⟩ := new?_eq_some h
  obtain ⟨init, last, hdigits, hinit, -⟩ := exists_digits_eq_append hbits h
  have hlast : last ∈ s.digits := by
    rw [hdigits]
    apply List.mem_append_right _ List.mem_cons_self
  have hwidth := snd_eq_bits_of_mem_digits hlast
  rw [reach_eq, hb, hdigits, List.map_append, List.sum_append, List.map_singleton,
    List.sum_singleton, hwidth, hl, hs]
  cases last.1 with
  | long =>
      rw [DigitKind.bits]
      omega
  | short =>
      rw [DigitKind.bits]
      omega

theorem passes?_eq_some (hbits : b < e) (hle : short ≤ long) (hword : e + long ≤ wordBound)
    (h : new? b e long short = some s) :
  s.passes? = some s.passes
  := by
  rw [passes?, inWord?_eq_some_iff.mpr ⟨reach_lt_wordBound hbits hle hword h, rfl⟩]
  rfl

/-- All passes but the last one are digits that are not cut off, and something is left of the
last one. -/
theorem exists_passes_eq_append (hbits : b < e) (h : new? b e long short = some s) :
  ∃ init last, s.passes = init ++ [last] ∧ (∀ p ∈ init, (p.kind, p.width) ∈ s.digits)
    ∧ ∃ d ∈ s.digits, ∃ rest, 0 < rest ∧ last.width = min d.2 rest
  := by
  obtain ⟨-, -, hb, he, -⟩ := new?_eq_some h
  obtain ⟨init, last, hdigits, hinit, -⟩ := exists_digits_eq_append hbits h
  refine ⟨place e b init,
    ⟨b + (init.map Prod.snd).sum, min last.2 (e - (b + (init.map Prod.snd).sum)), last.1⟩,
    ?_, ?_, last, ?_, _, ?_, rfl⟩
  · rw [passes, hdigits, hb, he, place_append]
    rfl
  · intro p hp
    rw [hdigits]
    apply List.mem_append_left _ (mem_of_mem_place init b (Nat.le_of_lt hinit) hp)
  · rw [hdigits]
    apply List.mem_append_right _ List.mem_cons_self
  · omega

/-- The passes are neither empty nor wider than the bound on their widths, and all but the last
one have the widths of their kinds. -/
theorem width_passes (hbits : b < e) (hshort : 0 < short) (hle : short ≤ long)
    (h : new? b e long short = some s) :
  (∀ p ∈ s.passes, 1 ≤ p.width ∧ p.width ≤ s.maxWidth)
    ∧ ∀ p ∈ s.passes.dropLast, p.width = p.kind.bits long short
  := by
  obtain ⟨-, hlong, hb, he, hl, hs, -⟩ := new?_eq_some h
  have hdigit : ∀ d ∈ s.digits, d.2 = d.1.bits long short ∧ 0 < d.2 ∧ d.2 ≤ long := by
    intro d hd
    have hbits := snd_eq_bits_of_mem_digits hd
    rw [hl, hs] at hbits
    rw [hbits]
    cases d.1 with
    | long => exact ⟨rfl, hlong, Nat.le_refl long⟩
    | short => exact ⟨rfl, hshort, hle⟩
  obtain ⟨init, last, hpasses, hinit, d, hd, rest, hrest, hlast⟩ := exists_passes_eq_append hbits h
  refine ⟨?_, ?_⟩
  · intro p hp
    constructor
    · rw [hpasses] at hp
      rcases List.mem_append.mp hp with hp | hp
      · apply (hdigit _ (hinit p hp)).2.1
      · obtain rfl := List.mem_singleton.mp hp
        have hpos := (hdigit d hd).2.1
        omega
    · obtain ⟨hwithin, d', hd', hwidth⟩ := width_le_of_mem_place _ _ hp
      have hwide := (hdigit d' hd').2.2
      rw [maxWidth, hl]
      apply Nat.le_min_of_le_of_le (hwidth.trans hwide) hwithin
  · intro p hp
    rw [hpasses, List.dropLast_concat] at hp
    apply (hdigit _ (hinit p hp)).1

/-- Between two bits there is always a schedule, unless its numbers outgrow a word, and it
divides the bits. -/
theorem schedules_divide_bits (b e long short : Nat) (hbits : b < e) (hshort : 0 < short)
    (hle : short ≤ long) (hword : e + long < wordBound) :
  ∃ s, new? b e long short = some s ∧ s.passes? = some s.passes ∧ s.Divides b e long short
  := by
  obtain ⟨s, hs⟩ :=
    exists_new?_eq_some hbits (Nat.lt_of_lt_of_le hshort hle) hle (by omega)
  obtain ⟨hwidth, hfull⟩ := width_passes hbits hshort hle hs
  refine ⟨s, hs, passes?_eq_some hbits hle (Nat.le_of_lt hword) hs, ?_⟩
  constructor
  case count => apply count_eq_ceilDiv hs
  case length => apply s.length_passes
  case maxWidth =>
    obtain ⟨-, -, hb, he, hl, -⟩ := new?_eq_some hs
    rw [maxWidth, hb, he, hl]
  case tiles => apply tiles_passes hbits hs
  case width => apply hwidth
  case full => apply hfull
  case kinds => rw [passes, map_kind_place, map_fst_digits]
  case fewest =>
    intro passes htiles hle
    apply count_le_length hs htiles hle

/-- Four digits of seven bits, and what is left of one of five. -/
theorem divides_sample :
  new? 5 37 7 5 = some ⟨5, 37, 7, 5, 4, 1⟩
    ∧ Divides ⟨5, 37, 7, 5, 4, 1⟩ 5 37 7 5
    ∧ (⟨5, 37, 7, 5, 4, 1⟩ : Schedule).passes
      = [⟨5, 7, .long⟩, ⟨12, 7, .long⟩, ⟨19, 7, .long⟩, ⟨26, 7, .long⟩, ⟨33, 4, .short⟩]
  := by
  obtain ⟨s, hs, -, hdivides⟩ :=
    schedules_divide_bits 5 37 7 5 (by decide) (by decide) (by decide) (by decide)
  obtain rfl : s = ⟨5, 37, 7, 5, 4, 1⟩ := Option.some.inj (hs.symm.trans rfl)
  exact ⟨hs, hdivides, rfl⟩

end Schedule

end SegmentSort
