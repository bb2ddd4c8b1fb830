import Mathlib.Algebra.Order.Ring.Nat
import Mathlib.Tactic.Use
import SegmentSort.Key.Digit
import SegmentSort.Proofs.StableSort
import SegmentSort.Schedule

/-!
# The digits of a schedule

The passes of a schedule tile its bits: the first one starts at the lowest bit, each other
one where the pass before it ends, and the last one ends at the highest bit
(`Schedule.tiles_passes`).  A number of `masked` bits consists of a lower and a higher part
(`masked_add`), so stable sorts by the digits of passes that tile some bits are, one after
the other, a single stable sort by these bits (`sortByPasses_eq_stableSort`).
-/

namespace SegmentSort

/-! ### Digits side by side -/

theorem digit_eq_div_mod (n bit width : Nat) :
  digit n bit width = n / 2 ^ bit % 2 ^ width
  := by
  rw [digit, Nat.one_shiftLeft, Nat.shiftRight_eq_div_pow]

theorem digit_lt (n bit width : Nat) :
  digit n bit width < 2 ^ width
  := by
  rw [digit_eq_div_mod]
  apply Nat.mod_lt _ (Nat.two_pow_pos width)

/-- A digit of `w + w'` bits consists of a digit of `w` bits and one of `w'` bits above
it. -/
theorem digit_add (n bit w w' : Nat) :
  digit n bit (w + w') = digit n bit w + 2 ^ w * digit n (bit + w) w'
  := by
  rw [digit_eq_div_mod, digit_eq_div_mod, digit_eq_div_mod, Nat.pow_add, Nat.mod_mul,
    Nat.div_div_eq_div_mul, ← Nat.pow_add]

/-- The bits up to `m`, and a digit that starts at `m`, are the bits up to the end of the
digit. -/
theorem masked_add (n : Nat) {b m : Nat} (h : b ≤ m) (w : Nat) :
  masked n b (m + w) = masked n b m + 2 ^ (m - b) * digit n m w
  := by
  rw [masked, masked, Nat.sub_add_comm h, digit_add, Nat.add_sub_cancel' h]

theorem masked_lt (n b e : Nat) :
  masked n b e < 2 ^ (e - b)
  := digit_lt n b (e - b)

theorem masked_self (n b : Nat) :
  masked n b b = 0
  := by
  have h := masked_lt n b b
  rw [Nat.sub_self, Nat.pow_zero] at h
  omega

/-! ### Passes that tile bits -/

/-- The passes lie side by side, from one bit to another. -/
def Pass.Tiles : Nat → List Pass → Nat → Prop
  | b, [], e => b = e
  | b, p :: rest, e => p.bit = b ∧ Tiles (b + p.width) rest e

variable {α : Type}

/-- The list sorted by the digits of passes, one pass after the other. -/
def sortByPasses (code : α → Nat) (l : List α) (passes : List Pass) : List α :=
  passes.foldl (fun l p => stableSort (fun a => digit (code a) p.bit p.width) l) l

theorem sortByPasses_append_singleton (code : α → Nat) (l : List α) (passes : List Pass)
    (p : Pass) :
  sortByPasses code l (passes ++ [p])
    = stableSort (fun a => digit (code a) p.bit p.width) (sortByPasses code l passes)
  := List.foldl_append

theorem sortByPasses_perm (code : α → Nat) (l : List α) (passes : List Pass) :
  (sortByPasses code l passes).Perm l
  := by
  induction passes generalizing l with
  | nil => rfl
  | cons p rest ih => apply (ih _).trans (stableSort_perm _ l)

/-- Passes that tile the bits from `m` to `e` turn a sort by the bits up to `m` into a sort
by the bits up to `e`. -/
theorem sortByPasses_stableSort (code : α → Nat) (l : List α) {b e : Nat} {passes : List Pass} :
    ∀ {m : Nat}, b ≤ m → Pass.Tiles m passes e →
      sortByPasses code (stableSort (fun a => masked (code a) b m) l) passes
        = stableSort (fun a => masked (code a) b e) l := by
  induction passes with
  | nil =>
      rintro m - rfl
      rfl
  | cons p rest ih =>
      rintro m hbm ⟨rfl, hrest⟩
      have hsort := stableSort_stableSort (fun a => masked (code a) b p.bit)
        (fun a => digit (code a) p.bit p.width) fun a (_ : a ∈ l) => masked_lt (code a) b p.bit
      simp only [← masked_add _ hbm] at hsort
      rw [sortByPasses, List.foldl_cons, hsort]
      apply ih (Nat.le_add_right_of_le hbm) hrest

/-- Sorts by the digits of passes that tile some bits are a single sort by these bits. -/
theorem sortByPasses_eq_stableSort (code : α → Nat) (l : List α) {b e : Nat}
    {passes : List Pass} (h : Pass.Tiles b passes e) :
  sortByPasses code l passes = stableSort (fun a => masked (code a) b e) l
  := by
  have hnone : stableSort (fun a => masked (code a) b b) l = l := by
    apply stableSort_of_pairwise
    apply List.pairwise_of_forall
    intro x y
    rw [masked_self, masked_self]
  have hsort := sortByPasses_stableSort code l (Nat.le_refl b) h
  rwa [hnone] at hsort

/-! ### The passes of a schedule -/

namespace Schedule

/-- Digits that cover the bits up to `e`, but not without the last one, tile these bits once
they have been cut off. -/
theorem tiles_place {e : Nat} {last : DigitKind × Nat} (init : List (DigitKind × Nat)) :
    ∀ {b : Nat}, b + (init.map Prod.snd).sum ≤ e → e ≤ b + (init.map Prod.snd).sum + last.2 →
      Pass.Tiles b (place e b (init ++ [last])) e := by
  induction init with
  | nil =>
      intro b hle hcover
      simp only [List.map_nil, List.sum_nil, Nat.add_zero] at hle hcover
      use rfl
      change b + min last.2 (e - b) = e
      omega
  | cons d rest ih =>
      intro b hle hcover
      simp only [List.map_cons, List.sum_cons] at hle hcover
      use rfl
      have hwidth : min d.2 (e - b) = d.2 := by omega
      change Pass.Tiles (b + min d.2 (e - b)) _ e
      rw [hwidth]
      apply ih
      · omega
      · omega

/-- The bounds on the number of short digits: they give up no more bits than there are to
spare, and one more than is needed is never spent on them. -/
theorem shortCount?_bounds {bits long short count k : Nat}
    (hcover : bits ≤ long * count) (hneed : long * count < bits + long)
    (h : shortCount? bits long short count = some k) :
  short ≤ long ∧ k ≤ count ∧ bits + k * (long - short) ≤ long * count
    ∧ (0 < k → long * count < bits + k * (long - short) + short)
  := by
  rw [shortCount?] at h
  simp only [Option.bind_eq_bind, Option.bind_eq_some_iff, minus?_eq_some_iff] at h
  obtain ⟨difference, rfl, h⟩ := h
  rw [Nat.add_sub_cancel_left]
  split at h
  · rename_i hzero
    obtain rfl := Option.some.inj h
    omega
  · rename_i hpos
    simp only [Option.bind_eq_some_iff, inWord?_eq_some_iff, minus?_eq_some_iff] at h
    obtain ⟨covered, ⟨-, rfl⟩, spare, hspare, hk⟩ := h
    obtain rfl := Option.some.inj hk
    have hdiv := Nat.div_mul_le_self spare difference
    have hlt := Nat.lt_div_mul_add (a := spare) (Nat.pos_of_ne_zero hpos)
    have hle : min count (spare / difference) * difference ≤ spare / difference * difference :=
      Nat.mul_le_mul_right difference (Nat.min_le_right _ _)
    refine ⟨Nat.le_add_right _ _, Nat.min_le_left _ _, by omega, ?_⟩
    intro hmin
    have hone : difference ≤ min count (spare / difference) * difference :=
      Nat.le_mul_of_pos_left _ hmin
    omega

/-- What a schedule is made of. -/
theorem new?_eq_some {b e long short : Nat} {s : Schedule}
    (h : new? b e long short = some s) :
  b ≤ e ∧ 0 < long ∧ s.beginBit = b ∧ s.endBit = e ∧ s.longBits = long ∧ s.shortBits = short
    ∧ s.longPasses = ceilDiv (e - b) long - s.shortPasses
    ∧ shortCount? (e - b) long short (ceilDiv (e - b) long) = some s.shortPasses
  := by
  rw [new?] at h
  simp only [Option.bind_eq_bind, Option.bind_eq_some_iff, minus?_eq_some_iff] at h
  obtain ⟨bits, rfl, h⟩ := h
  split at h
  · simp at h
  · rename_i hlong
    obtain ⟨k, hk, hs⟩ := Option.bind_eq_some_iff.mp h
    obtain rfl := Option.some.inj hs
    rw [Nat.add_sub_cancel_left]
    exact ⟨Nat.le_add_right _ _, Nat.pos_of_ne_zero hlong, rfl, rfl, rfl, rfl, rfl, hk⟩

variable {b e long short : Nat} {s : Schedule}

/-- The long digits suffice to cover the bits, and none of them is superfluous. -/
theorem ceilDiv_bounds (hlong : 0 < long) (bits : Nat) :
  bits ≤ long * ceilDiv bits long ∧ long * ceilDiv bits long < bits + long
  := by
  rw [Nat.mul_comm]
  exact ⟨le_ceilDiv_mul hlong, ceilDiv_mul_lt hlong⟩

/-- The number of short digits, where none of the numbers on the way has to fit a word. -/
def shortDigits (bits long short : Nat) : Nat :=
  if long = short then 0
  else min (ceilDiv bits long) ((long * ceilDiv bits long - bits) / (long - short))

/-- The bits that long digits cover are the only number that may outgrow its word. -/
theorem shortCount?_eq_shortDigits {bits : Nat} (hlong : 0 < long) (hshort : short ≤ long)
    (hword : long * ceilDiv bits long < wordBound) :
  shortCount? bits long short (ceilDiv bits long) = some (shortDigits bits long short)
  := by
  obtain ⟨difference, rfl⟩ := Nat.exists_eq_add_of_le hshort
  have hdifference : minus? (short + difference) short = some difference :=
    minus?_eq_some_iff.mpr rfl
  have hcovered := inWord?_eq_some_iff.mpr ⟨hword, rfl⟩
  have hspare := minus?_eq_some_iff.mpr (Nat.add_sub_cancel' (ceilDiv_bounds hlong bits).1).symm
  rw [shortCount?, hdifference, shortDigits]
  simp only [Option.bind_eq_bind, Option.bind_some, hcovered, hspare, Nat.add_sub_cancel_left,
    Nat.add_eq_left]
  split <;> rfl

/-- Unless it does, the schedule is the one that whole numbers yield. -/
theorem new?_eq_of_word (hbits : b ≤ e) (hlong : 0 < long) (hshort : short ≤ long)
    (hword : long * ceilDiv (e - b) long < wordBound) :
  new? b e long short = some {
    beginBit := b
    endBit := e
    longBits := long
    shortBits := short
    longPasses := ceilDiv (e - b) long - shortDigits (e - b) long short
    shortPasses := shortDigits (e - b) long short }
  := by
  have hminus : minus? e b = some (e - b) :=
    minus?_eq_some_iff.mpr (Nat.add_sub_cancel' hbits).symm
  rw [new?, hminus]
  simp only [Option.bind_eq_bind, Option.bind_some, if_neg (Nat.ne_of_gt hlong),
    shortCount?_eq_shortDigits hlong hshort hword]
  rfl

/-- A number of bits and digits whose bits fit a word always yield a schedule. -/
theorem exists_new?_eq_some (hbits : b < e) (hlong : 0 < long) (hshort : short ≤ long)
    (hword : e - b + long ≤ wordBound) :
  ∃ s, new? b e long short = some s
  := by
  have hcovered := Nat.lt_of_lt_of_le (ceilDiv_bounds hlong (e - b)).2 hword
  exact ⟨_, new?_eq_of_word (Nat.le_of_lt hbits) hlong hshort hcovered⟩

/-- A schedule has as many passes as long digits are needed for its bits. -/
theorem count_eq_ceilDiv (h : new? b e long short = some s) :
  s.count = ceilDiv (e - b) long
  := by
  obtain ⟨-, hlong, -, -, -, -, hlongPasses, hk⟩ := new?_eq_some h
  obtain ⟨hcover, hneed⟩ := ceilDiv_bounds hlong (e - b)
  obtain ⟨-, hle, -, -⟩ := shortCount?_bounds hcover hneed hk
  rw [count, hlongPasses, Nat.sub_add_cancel hle]

theorem sum_replicate_digits (k width : Nat) (kind : DigitKind) :
  ((List.replicate k (kind, width)).map Prod.snd).sum = k * width
  := by
  rw [List.map_replicate, List.sum_replicate_nat]

/-- There is at least one pass if there is a bit. -/
theorem exists_count_eq_succ (hbits : b < e) (htiles : Pass.Tiles b s.passes e) :
  ∃ n, s.count = n + 1
  := by
  apply Nat.exists_eq_succ_of_ne_zero
  intro hzero
  rw [← length_passes] at hzero
  rw [List.length_eq_zero_iff.mp hzero] at htiles
  exact Nat.ne_of_lt hbits htiles

/-- The digits have as many bits as there are, but would not without the last one of them. -/
theorem covers_of_new? (h : new? b e long short = some s) :
  e - b ≤ s.longPasses * long + s.shortPasses * short
    ∧ s.longPasses * long + s.shortPasses * short
      < e - b + if s.shortPasses = 0 then long else short
  := by
  obtain ⟨-, hlong, -, -, -, -, hlongPasses, hk⟩ := new?_eq_some h
  obtain ⟨hcover, hneed⟩ := ceilDiv_bounds hlong (e - b)
  obtain ⟨hle, hcount, hspare, hlast⟩ := shortCount?_bounds hcover hneed hk
  obtain ⟨difference, rfl⟩ := Nat.exists_eq_add_of_le hle
  obtain ⟨m, hm⟩ := Nat.exists_eq_add_of_le hcount
  rw [hm, Nat.add_sub_cancel_left] at hlongPasses
  rw [hm, Nat.add_sub_cancel_left, Nat.mul_comm (short + difference), Nat.add_mul,
    Nat.mul_add s.shortPasses] at hspare hlast
  rw [hm, Nat.mul_comm (short + difference), Nat.add_mul, Nat.mul_add s.shortPasses] at hneed
  rw [hlongPasses]
  refine ⟨by omega, ?_⟩
  split
  · rename_i hzero
    rw [hzero] at hneed ⊢
    omega
  · rename_i hpos
    have hlast := hlast (Nat.pos_of_ne_zero hpos)
    omega

/-- The digits of a schedule cover its bits, and those before the last one do not. -/
theorem exists_digits_eq_append (hbits : b < e) (h : new? b e long short = some s) :
  ∃ init last, s.digits = init ++ [last] ∧ b + (init.map Prod.snd).sum < e
    ∧ e ≤ b + (init.map Prod.snd).sum + last.2
  := by
  obtain ⟨-, -, -, -, hl, hs, -⟩ := new?_eq_some h
  obtain ⟨hcover, hneed⟩ := covers_of_new? h
  rw [digits, hl, hs]
  cases hshort : s.shortPasses with
  | zero =>
      rw [hshort, if_pos rfl] at hneed
      rw [hshort] at hcover
      obtain ⟨m, hm⟩ : ∃ m, s.longPasses = m + 1 :=
        Nat.exists_eq_succ_of_ne_zero fun hzero => by
          rw [hzero] at hcover
          omega
      rw [hm, Nat.succ_mul] at hcover hneed
      refine ⟨List.replicate m (.long, long), (.long, long), ?_, ?_, ?_⟩
      · rw [hm, List.replicate_zero, List.append_nil, List.replicate_succ']
      · rw [sum_replicate_digits]
        omega
      · rw [sum_replicate_digits]
        dsimp only
        omega
  | succ k =>
      rw [hshort, if_neg (Nat.succ_ne_zero k), Nat.succ_mul] at hneed
      rw [hshort, Nat.succ_mul] at hcover
      refine ⟨List.replicate s.longPasses (.long, long) ++ List.replicate k (.short, short),
        (.short, short), ?_, ?_, ?_⟩
      · rw [List.replicate_succ' (n := k), List.append_assoc]
      · rw [List.map_append, List.sum_append, sum_replicate_digits, sum_replicate_digits]
        omega
      · rw [List.map_append, List.sum_append, sum_replicate_digits, sum_replicate_digits]
        dsimp only
        omega

/-- The passes of a schedule tile its bits. -/
theorem tiles_passes (hbits : b < e) (h : new? b e long short = some s) :
  Pass.Tiles b s.passes e
  := by
  obtain ⟨-, -, hb, he, -⟩ := new?_eq_some h
  obtain ⟨init, last, hdigits, hinit, hcover⟩ := exists_digits_eq_append hbits h
  rw [passes, hdigits, hb, he]
  apply tiles_place init (Nat.le_of_lt hinit) hcover

end Schedule

end SegmentSort
