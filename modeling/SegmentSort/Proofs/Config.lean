import SegmentSort.Proofs.Passes
import SegmentSort.Proofs.Plan
import SegmentSort.Sort.Run

/-!
# Numbers derived from configurations

All numbers that are derived from a valid configuration are what they are in whole numbers, with
one exception: the capacity of a logical warp, which a valid configuration may let outgrow its word
(`derived_numbers_are_exact`, `capacity_outgrows_word`).

The configurations that are chosen for the sizes of keys and values are valid, and wider items get
fewer of them to a thread, as long as the width of an item fits a word (`tuned_for_sizes`,
`forSizes?_loses_width`).
-/

namespace SegmentSort

namespace Schedule

variable {b e long short : Nat} {s : Schedule}

/-- A digit ends no later than the last one would, were it not cut off. -/
theorem bit_add_le_of_mem_place {p : Pass} (digits : List (DigitKind × Nat)) :
    ∀ b, p ∈ place e b digits →
      ∃ d ∈ digits, d.1 = p.kind ∧ p.bit + d.2 ≤ b + (digits.map Prod.snd).sum := by
  induction digits with
  | nil =>
      rintro b ⟨⟩
  | cons d rest ih =>
      intro b hp
      rw [List.map_cons, List.sum_cons]
      rcases List.mem_cons.mp hp with rfl | hp
      · refine ⟨d, List.mem_cons_self, rfl, ?_⟩
        dsimp only
        omega
      · obtain ⟨d', hd', hkind, hle⟩ := ih _ hp
        exact ⟨d', List.mem_cons_of_mem d hd', hkind, by omega⟩

/-- The digit of a pass, in its full width, ends within the reach of the schedule. -/
theorem bit_add_bits_le_reach {p : Pass} (hp : p ∈ s.passes) :
  p.bit + p.kind.bits s.longBits s.shortBits ≤ s.reach
  := by
  obtain ⟨d, hd, hkind, hle⟩ := bit_add_le_of_mem_place s.digits s.beginBit hp
  rw [reach_eq, ← hkind, ← snd_eq_bits_of_mem_digits hd]
  apply hle

/-- The numbers of a schedule are computed as they are in whole numbers: those on the way to it, and
the bits at which its digits end. -/
structure Exact (b e long short : Nat) : Prop where
  difference : minus? long short = some (long - short)
  /-- The bits that long digits cover fit a word, -/
  covered : inWord? (long * ceilDiv (e - b) long) = some (long * ceilDiv (e - b) long)
  /-- and they are no fewer than there are. -/
  spare : minus? (long * ceilDiv (e - b) long) (e - b)
    = some (long * ceilDiv (e - b) long - (e - b))
  /-- No more digits are made short than there are, -/
  shortDigits_le : shortDigits (e - b) long short ≤ ceilDiv (e - b) long
  /-- and none is if this saves no bits: nothing is divided by zero. -/
  shorter : 0 < shortDigits (e - b) long short → 0 < long - short
  schedule : ∃ s, new? b e long short = some s
    ∧ s.shortPasses = shortDigits (e - b) long short
    ∧ s.longPasses = ceilDiv (e - b) long - shortDigits (e - b) long short
    ∧ s.passes? = some s.passes
    ∧ ∀ p ∈ s.passes,
      inWord? (p.bit + p.kind.bits long short) = some (p.bit + p.kind.bits long short)

theorem shortDigits_le_ceilDiv (bits long short : Nat) :
  shortDigits bits long short ≤ ceilDiv bits long
  := by
  rw [shortDigits]
  split
  · apply Nat.zero_le
  · apply Nat.min_le_left

theorem shorter_of_shortDigits_pos {bits : Nat} (hle : short ≤ long)
    (h : 0 < shortDigits bits long short) :
  0 < long - short
  := by
  rw [shortDigits] at h
  split at h
  · cases h
  · omega

/-- Bits and digits that fit a word together have an exact schedule. -/
theorem exact_of_word (hbits : b < e) (hlong : 0 < long) (hshort : short ≤ long)
    (hword : e + long ≤ wordBound) :
  Exact b e long short
  := by
  obtain ⟨hcover, hneed⟩ := ceilDiv_bounds hlong (e - b)
  have hcovered : long * ceilDiv (e - b) long < wordBound := by omega
  constructor
  case difference => apply minus?_eq_some_iff.mpr (Nat.add_sub_cancel' hshort).symm
  case covered => apply inWord?_eq_some_iff.mpr ⟨hcovered, rfl⟩
  case spare => apply minus?_eq_some_iff.mpr (Nat.add_sub_cancel' hcover).symm
  case shortDigits_le => apply shortDigits_le_ceilDiv
  case shorter => apply shorter_of_shortDigits_pos hshort
  case schedule =>
    have hnew := new?_eq_of_word (Nat.le_of_lt hbits) hlong hshort hcovered
    refine ⟨_, hnew, rfl, rfl, passes?_eq_some hbits hshort hword hnew, ?_⟩
    intro p hp
    have hreach := reach_lt_wordBound hbits hshort hword hnew
    apply inWord?_eq_some_iff.mpr ⟨Nat.lt_of_le_of_lt (bit_add_bits_le_reach hp) hreach, rfl⟩

end Schedule

/-! ### Valid configurations -/

/-- The logical warps of a valid configuration are not empty, and they fit their blocks. -/
theorem Config.warpSort_of_validate {c : Config} (h : c.validate = .ok ()) {w : WarpSort}
    (hw : w ∈ c.warpSort) :
  0 < w.warpSize ∧ 0 < w.itemsPerThread ∧ w.warpSize ≤ w.blockSize
  := by
  rw [validate] at h
  split at h
  · cases h
  · split at h
    · cases h
    · split at h
      · cases h
      · split at h
        · cases h
        · rename_i hwarp
          rw [Option.mem_def.mp hw, Option.any_some, decide_eq_true_eq] at hwarp
          omega

namespace WarpSort

/-- The number of segments of a block is computed as it is, and it is not zero. -/
structure ExactBlocks (w : WarpSort) : Prop where
  warpSize : w.warpSize ≠ 0
  perBlock : w.segmentsPerBlock? = some (w.blockSize / w.warpSize)
  pos : 1 ≤ w.blockSize / w.warpSize
  /-- The insertion sorts take as many segments to a block. -/
  shortSort : ∀ {α : Type} (plan : Plan) (code : α → Nat) (classifier : Classifier),
    classifier.route = w → (plan.shortSort code classifier).perBlock = w.blockSize / w.warpSize

theorem exactBlocks {w : WarpSort} (hpos : 0 < w.warpSize) (hle : w.warpSize ≤ w.blockSize) :
  w.ExactBlocks
  := by
  have hperBlock : w.segmentsPerBlock? = some (w.blockSize / w.warpSize) :=
    if_neg (Nat.ne_of_gt hpos)
  have hone : 1 ≤ w.blockSize / w.warpSize := Nat.div_pos hle hpos
  refine ⟨Nat.ne_of_gt hpos, hperBlock, hone, ?_⟩
  rintro α plan code classifier rfl
  rw [Plan.shortSort, hperBlock, Option.getD_some]
  apply Nat.max_eq_left hone

end WarpSort

/-- The capacity of a logical warp is computed as it is, and whatever tells short segments from long
ones goes by it. -/
structure Config.ExactCapacity (c : Config) (w : WarpSort) : Prop where
  capacity : w.capacity? = some (w.warpSize * w.itemsPerThread)
  classifier : ∀ segments, c.classifier? segments
    = .ok (if w.isWorthwhile segments then some ⟨w, w.warpSize * w.itemsPerThread⟩ else none)
  /-- So do the insertion sorts. -/
  shortSort : ∀ {α : Type} (plan : Plan) (code : α → Nat) (segments : Nat)
    (classifier : Classifier), c.classifier? segments = .ok (some classifier) →
    (plan.shortSort code classifier).capacity = w.warpSize * w.itemsPerThread

theorem Config.exactCapacity_iff {c : Config} {w : WarpSort} (hw : w ∈ c.warpSort) :
  c.ExactCapacity w ↔ w.warpSize * w.itemsPerThread < wordBound
  := by
  constructor
  · intro h
    apply (inWord?_eq_some_iff.mp h.capacity).1
  · intro hlt
    have hcapacity : w.capacity? = some (w.warpSize * w.itemsPerThread) :=
      inWord?_eq_some_iff.mpr ⟨hlt, rfl⟩
    have hclassifier : ∀ segments, c.classifier? segments = .ok
        (if w.isWorthwhile segments then some ⟨w, w.warpSize * w.itemsPerThread⟩ else none) := by
      intro segments
      rw [Config.classifier?, Option.mem_def.mp hw]
      simp only [hcapacity, defined_some, ok_bind]
      rfl
    refine ⟨hcapacity, hclassifier, ?_⟩
    intro α plan code segments classifier h
    rw [hclassifier] at h
    obtain ⟨-, hsome⟩ := Option.ite_none_right_eq_some.mp (Except.ok.inj h)
    obtain rfl := Option.some.inj hsome
    rfl

/-- The numbers that are derived from a valid configuration and the bits of a key are what they are
in whole numbers, apart from the capacity of a logical warp: this is so precisely if it fits a
word. -/
theorem derived_numbers_are_exact (c : Config) (hvalid : c.validate = .ok ()) (b e : Nat)
    (hbits : b < e) (hkey : e ≤ 64) :
  Schedule.Exact b e c.longBits c.shortBits
    ∧ ∀ w ∈ c.warpSort, w.ExactBlocks
      ∧ (c.ExactCapacity w ↔ w.warpSize * w.itemsPerThread < wordBound)
  := by
  obtain ⟨hlong, hmax, -, hshort⟩ := Config.digits_of_validate hvalid
  constructor
  · have hword : 64 + maxDigitBits ≤ wordBound := by decide
    apply Schedule.exact_of_word hbits hlong hshort (by omega)
  · intro w hw
    obtain ⟨hpos, -, hle⟩ := Config.warpSort_of_validate hvalid hw
    exact ⟨WarpSort.exactBlocks hpos hle, Config.exactCapacity_iff hw⟩

/-- A warp whose capacity is the largest number of a word. -/
def WarpSort.widest : WarpSort where
  warpSize := 65535
  itemsPerThread := 65537
  blockSize := 65536
  threshold := 0

/-- The schedule of most bits of a key, and the capacity of the widest warps. -/
theorem derived_numbers_sample :
  ((Config.tuned 7 6 15).withWarpSort (some .widest)).validate = .ok ()
    ∧ Schedule.new? 3 64 7 6 = some ⟨3, 64, 7, 6, 7, 2⟩
    ∧ WarpSort.widest.capacity? = some 4294967295
    ∧ WarpSort.widest.segmentsPerBlock? = some 1
  := by
  have hvalid : ((Config.tuned 7 6 15).withWarpSort (some .widest)).validate = .ok () := rfl
  obtain ⟨hschedule, hwarp⟩ := derived_numbers_are_exact _ hvalid 3 64 (by decide) (by decide)
  obtain ⟨hblocks, hcapacity⟩ := hwarp .widest rfl
  obtain ⟨s, hs, -⟩ := hschedule.schedule
  obtain rfl : s = ⟨3, 64, 7, 6, 7, 2⟩ := Option.some.inj (hs.symm.trans rfl)
  exact ⟨hvalid, hs, (hcapacity.mpr (by decide)).capacity, hblocks.perBlock⟩

/-- A valid configuration whose warps have a capacity that no word holds, so that no segments can be
classified, however many there are. -/
theorem capacity_outgrows_word :
  ((Config.tuned 7 6 15).withWarpSort (some ⟨65536, 65536, 65536, 0⟩)).validate = .ok ()
    ∧ WarpSort.capacity? ⟨65536, 65536, 65536, 0⟩ ≠ some (65536 * 65536)
    ∧ ∀ segments, ((Config.tuned 7 6 15).withWarpSort
      (some ⟨65536, 65536, 65536, 0⟩)).classifier? segments = .error .undefined
  := by
  refine ⟨rfl, by decide, ?_⟩
  intro segments
  rfl

/-! ### Configurations for the sizes of keys and values -/

namespace Config

/-- The width of an item in units of 4 bytes. -/
def itemWidth (keySize valueSize : Nat) : Nat :=
  ceilDiv (max keySize valueSize) 4

/-- The configuration for items of a width with wide values. -/
def wide (width : Nat) : Config where
  longBits := 7
  shortBits := 6
  kernel := ⟨256, max (15 / width) 1⟩
  warpSort := none

variable {keySize valueSize : Nat}

theorem forSizes?_of_wide (h : 8 < valueSize) :
  forSizes? keySize valueSize = if itemWidth keySize valueSize % wordBound = 0 then none
    else some (wide (itemWidth keySize valueSize % wordBound))
  := if_pos h

theorem forSizes?_of_narrow (h : ¬ 8 < valueSize) :
  forSizes? keySize valueSize = some (forKeySize keySize)
  := if_neg h

/-- Values are wide if they alone have more than two units. -/
theorem three_le_itemWidth (h : 8 < valueSize) :
  3 ≤ itemWidth keySize valueSize
  := by
  have hcover := le_ceilDiv_mul (n := max keySize valueSize) (show 0 < 4 by decide)
  have hmax := Nat.le_max_right keySize valueSize
  rw [itemWidth]
  omega

/-- There is a configuration for wide values if the width of an item fits a word. -/
theorem forSizes?_eq_wide (h : 8 < valueSize) (hword : itemWidth keySize valueSize < wordBound) :
  forSizes? keySize valueSize = some (wide (itemWidth keySize valueSize))
  := by
  have hwidth : 3 ≤ itemWidth keySize valueSize := three_le_itemWidth h
  rw [forSizes?_of_wide h, Nat.mod_eq_of_lt hword, if_neg (by omega)]

theorem validate_wide (width : Nat) :
  (wide width).validate = .ok ()
  := by
  have hitems : ¬ max (15 / width) 1 = 0 := by omega
  simp [validate, wide, maxDigitBits, hitems]

theorem validate_forKeySize (keySize : Nat) :
  (forKeySize keySize).validate = .ok ()
  := by
  unfold forKeySize
  split <;> rfl

/-- Whatever is chosen for the sizes of keys and values is valid. -/
theorem validate_of_forSizes? {c : Config} (h : forSizes? keySize valueSize = some c) :
  c.validate = .ok ()
  := by
  by_cases hwide : 8 < valueSize
  · rw [forSizes?_of_wide hwide] at h
    split at h
    · cases h
    · obtain rfl := Option.some.inj h
      apply validate_wide
  · rw [forSizes?_of_narrow hwide] at h
    obtain rfl := Option.some.inj h
    apply validate_forKeySize

/-- A thread gets one wide item, or no more than have 15 units altogether. -/
theorem itemsPerThread_wide (width : Nat) :
  (wide width).kernel.itemsPerThread = 1 ∨ (wide width).kernel.itemsPerThread * width ≤ 15
  := by
  change max (15 / width) 1 = 1 ∨ max (15 / width) 1 * width ≤ 15
  rcases Nat.le_total (15 / width) 1 with hle | hle
  · left
    apply Nat.max_eq_right hle
  · right
    rw [Nat.max_eq_left hle]
    apply Nat.div_mul_le_self

/-- Wider items get no more of them to a thread. -/
theorem itemsPerThread_wide_le {width width' : Nat} (hpos : 0 < width') (hle : width' ≤ width) :
  (wide width).kernel.itemsPerThread ≤ (wide width').kernel.itemsPerThread
  := by
  have hdiv : 15 / width ≤ 15 / width' := Nat.div_le_div_left hle hpos
  change max (15 / width) 1 ≤ max (15 / width') 1
  omega

theorem five_le_itemsPerThread (keySize : Nat) :
  5 ≤ (forKeySize keySize).kernel.itemsPerThread
  := by
  unfold forKeySize
  split <;> decide

/-- There is a configuration, unless values are wide and the low word of the width of an item is
zero. -/
theorem exists_forSizes?_iff :
  (∃ c, forSizes? keySize valueSize = some c)
    ↔ ¬ (8 < valueSize ∧ wordBound ∣ itemWidth keySize valueSize)
  := by
  by_cases hwide : 8 < valueSize
  · rw [forSizes?_of_wide hwide, and_iff_right hwide, Nat.dvd_iff_mod_eq_zero]
    split
    · rename_i hzero
      simp [hzero]
    · rename_i hpos
      simp [hpos]
  · rw [forSizes?_of_narrow hwide]
    exact iff_of_true ⟨_, rfl⟩ fun h => hwide h.1

/-- A thread does not get more wide items, if their width fits a word, than it gets of items that
are no wider. -/
theorem itemsPerThread_le (hwide : 8 < valueSize) (hword : itemWidth keySize valueSize < wordBound)
    {keySize' valueSize' : Nat} (hle : max keySize' valueSize' ≤ max keySize valueSize)
    {c c' : Config} (hc : forSizes? keySize valueSize = some c)
    (hc' : forSizes? keySize' valueSize' = some c') :
  c.kernel.itemsPerThread ≤ c'.kernel.itemsPerThread
  := by
  rw [forSizes?_eq_wide hwide hword] at hc
  obtain rfl := Option.some.inj hc
  by_cases hwide' : 8 < valueSize'
  · have hwidth : itemWidth keySize' valueSize' ≤ itemWidth keySize valueSize := by
      apply (ceilDiv_le_iff (by decide)).mpr
      apply hle.trans (le_ceilDiv_mul (by decide))
    have hpos : 0 < itemWidth keySize' valueSize' :=
      Nat.lt_of_lt_of_le (by decide) (three_le_itemWidth hwide')
    rw [forSizes?_eq_wide hwide' (Nat.lt_of_le_of_lt hwidth hword)] at hc'
    obtain rfl := Option.some.inj hc'
    apply itemsPerThread_wide_le hpos hwidth
  · rw [forSizes?_of_narrow hwide'] at hc'
    obtain rfl := Option.some.inj hc'
    have hfive : (wide (itemWidth keySize valueSize)).kernel.itemsPerThread ≤ 5 :=
      itemsPerThread_wide_le (by decide) (three_le_itemWidth hwide)
    apply hfive.trans (five_le_itemsPerThread keySize')

/-- The configuration for the sizes of keys and values: when there is one, and how many items it
gives to a thread. -/
structure Tuned (keySize valueSize : Nat) : Prop where
  valid : ∀ c, forSizes? keySize valueSize = some c → c.validate = .ok ()
  /-- There is one, unless values are wide and the low word of the width of an item is zero. -/
  exists_iff : (∃ c, forSizes? keySize valueSize = some c)
    ↔ ¬ (8 < valueSize ∧ wordBound ∣ itemWidth keySize valueSize)
  /-- Wide items, if their width fits a word, get few of them to a thread, -/
  few : 8 < valueSize → itemWidth keySize valueSize < wordBound →
    ∃ c, forSizes? keySize valueSize = some c ∧ (c.kernel.itemsPerThread = 1
      ∨ c.kernel.itemsPerThread * itemWidth keySize valueSize ≤ 15)
  /-- and no more than narrower items get. -/
  le : 8 < valueSize → itemWidth keySize valueSize < wordBound →
    ∀ keySize' valueSize' c c', max keySize' valueSize' ≤ max keySize valueSize →
      forSizes? keySize valueSize = some c → forSizes? keySize' valueSize' = some c' →
      c.kernel.itemsPerThread ≤ c'.kernel.itemsPerThread

end Config

/-- Configurations for the sizes of keys and values are valid, and there is one for all sizes whose
items have a width that fits a word; of these, wider ones with wide values do not get more items to
a thread. -/
theorem tuned_for_sizes (keySize valueSize : Nat) :
  Config.Tuned keySize valueSize
  := by
  constructor
  case valid =>
    intro c
    apply Config.validate_of_forSizes?
  case exists_iff => apply Config.exists_forSizes?_iff
  case few =>
    intro hwide hword
    exact ⟨_, Config.forSizes?_eq_wide hwide hword, Config.itemsPerThread_wide _⟩
  case le =>
    intro hwide hword keySize' valueSize' c c' hle
    apply Config.itemsPerThread_le hwide hword hle

/-- Items whose width no word holds: for some there is no configuration, and others get as many
items to a thread as keys of 4 bytes do. -/
theorem forSizes?_loses_width :
  Config.forSizes? 4 17179869184 = none
    ∧ ∃ c, Config.forSizes? 4 17179869188 = some c ∧ ¬ (c.kernel.itemsPerThread = 1
      ∨ c.kernel.itemsPerThread * Config.itemWidth 4 17179869188 ≤ 15)
  := by
  refine ⟨rfl, _, rfl, ?_⟩
  decide

end SegmentSort
