import Mathlib.Data.List.Basic
import Mathlib.Order.Basic
import SegmentSort.StableSort

/-!
# The theory of stable sorting

A list is the stable sort of another one if it ascends by rank and if, for every rank, it
has the same items of that rank in the same order: `eq_stableSort`.  From this follow the
equations by which the algorithms of this library sort.  A sort by one rank after a sort
by another is a single sort by both (`stableSort_stableSort`); a sort falls apart into the
lower items, those of one rank, and the higher ones (`stableSort_eq_append`); and a sort
takes in one more item before the items that rank higher (`stableSort_append_singleton`).
-/

namespace SegmentSort

variable {α β : Type}

/-- A stable sort ascends by rank. -/
theorem stableSort_pairwise (rank : α → Nat) (l : List α) :
  (stableSort rank l).Pairwise (rank · ≤ rank ·)
  := by
  have h := @List.pairwise_mergeSort α (fun a b => decide (rank a ≤ rank b))
    (fun a b c => by simp only [decide_eq_true_eq]; omega)
    (fun a b => by simp only [Bool.or_eq_true, decide_eq_true_eq]; omega) l
  simpa only [stableSort, decide_eq_true_eq] using h

/-- A stable sort keeps the items of each rank in their order. -/
theorem filter_stableSort (rank : α → Nat) (l : List α) (r : Nat) :
  (stableSort rank l).filter (rank · = r) = l.filter (rank · = r)
  := by
  have hconst : (l.filter (rank · = r)).Pairwise fun a b => decide (rank a ≤ rank b) = true := by
    apply List.pairwise_of_forall_mem_list
    intro a ha b hb
    have ha' := (List.mem_filter.mp ha).2
    have hb' := (List.mem_filter.mp hb).2
    simp only [decide_eq_true_eq] at ha' hb' ⊢
    omega
  have hsub : (l.filter (rank · = r)).Sublist (stableSort rank l) := by
    apply List.sublist_mergeSort _ _ hconst List.filter_sublist
    · intro a b c
      simp only [decide_eq_true_eq]
      omega
    · intro a b
      simp only [Bool.or_eq_true, decide_eq_true_eq]
      omega
  have hsub' := hsub.filter (rank · = r)
  simp only [List.filter_filter, Bool.and_self] at hsub'
  symm
  apply hsub'.eq_of_length
  apply ((stableSort_perm rank l).filter _).length_eq.symm

/-- Two lists that ascend by rank are equal if they have the same items of each rank in the
same order. -/
theorem eq_of_filter_eq {rank : α → Nat} :
    ∀ {l m : List α}, l.Pairwise (rank · ≤ rank ·) → m.Pairwise (rank · ≤ rank ·) →
      (∀ r, l.filter (rank · = r) = m.filter (rank · = r)) → l = m
  | [], [], _, _, _ => rfl
  | [], b :: _, _, _, h => by simpa using h (rank b)
  | a :: _, [], _, _, h => by simpa using h (rank a)
  | a :: l, b :: m, hl, hm, h => by
      obtain ⟨ha, hl'⟩ := List.pairwise_cons.mp hl
      obtain ⟨hb, hm'⟩ := List.pairwise_cons.mp hm
      have hab : rank a ≤ rank b := by
        have hmem : b ∈ (a :: l).filter (rank · = rank b) := by simp [h]
        rcases List.mem_cons.mp (List.mem_filter.mp hmem).1 with heq | hmem'
        · apply Nat.le_of_eq
          rw [heq]
        · apply ha b hmem'
      have hba : rank b ≤ rank a := by
        have hmem : a ∈ (b :: m).filter (rank · = rank a) := by simp [← h]
        rcases List.mem_cons.mp (List.mem_filter.mp hmem).1 with heq | hmem'
        · apply Nat.le_of_eq
          rw [heq]
        · apply hb a hmem'
      have hrank : rank a = rank b := by omega
      have hhead := h (rank b)
      simp only [hrank, decide_true, List.filter_cons_of_pos, List.cons.injEq] at hhead
      obtain ⟨rfl, -⟩ := hhead
      congr 1
      apply eq_of_filter_eq hl' hm'
      intro r
      have hr := h r
      by_cases har : rank a = r
      · simpa [har] using hr
      · simpa [har] using hr

/-- A list that ascends by rank, and has the items of each rank in the order of `l`, is the
stable sort of `l`. -/
theorem eq_stableSort {rank : α → Nat} {l m : List α}
    (hm : m.Pairwise (rank · ≤ rank ·))
    (h : ∀ r, m.filter (rank · = r) = l.filter (rank · = r)) :
  m = stableSort rank l
  := by
  apply eq_of_filter_eq hm (stableSort_pairwise rank l)
  intro r
  rw [h, filter_stableSort]

/-- A list is a stable sort of another one: it has the same items by ascending rank, and those of
equal rank in their old order. -/
structure IsStableSort (rank : α → Nat) (l m : List α) : Prop where
  perm : m.Perm l
  ascends : m.Pairwise (rank · ≤ rank ·)
  order : ∀ r, m.filter (rank · = r) = l.filter (rank · = r)

/-- A list has one stable sort. -/
theorem isStableSort_iff {rank : α → Nat} {l m : List α} :
  IsStableSort rank l m ↔ m = stableSort rank l
  := by
  constructor
  · intro h
    apply eq_stableSort h.ascends h.order
  · rintro rfl
    exact ⟨stableSort_perm rank l, stableSort_pairwise rank l, filter_stableSort rank l⟩

/-- A list that ascends by rank is its own stable sort. -/
theorem stableSort_of_pairwise {rank : α → Nat} {l : List α}
    (h : l.Pairwise (rank · ≤ rank ·)) :
  stableSort rank l = l
  := (eq_stableSort h fun _ => rfl).symm

theorem mem_stableSort {rank : α → Nat} {l : List α} {a : α} :
  a ∈ stableSort rank l ↔ a ∈ l
  := (stableSort_perm rank l).mem_iff

/-- Sorting commutes with a map that keeps ranks. -/
theorem map_stableSort (f : α → β) (rank : β → Nat) (l : List α) :
  (stableSort (fun a => rank (f a)) l).map f = stableSort rank (l.map f)
  := by
  apply eq_stableSort
  · rw [List.pairwise_map]
    apply stableSort_pairwise
  · intro r
    have h := filter_stableSort (fun a => rank (f a)) l r
    rw [List.filter_map, List.filter_map]
    apply congrArg (List.map f) h

/-! ### Two sorts in a row -/

/-- A list that ascends by `high`, and by `low` among the items of equal `high`, ascends by
both. -/
theorem pairwise_add_mul {low high : α → Nat} {m : Nat} {l : List α}
    (hlow : ∀ a ∈ l, low a < m) (hhigh : l.Pairwise (high · ≤ high ·))
    (hgroups : ∀ r, (l.filter (high · = r)).Pairwise (low · ≤ low ·)) :
  l.Pairwise fun a b => low a + m * high a ≤ low b + m * high b
  := by
  rw [List.pairwise_iff_forall_sublist] at hhigh ⊢
  intro a b hab
  rcases Nat.lt_or_eq_of_le (hhigh hab) with hlt | heq
  · have ha := hlow a (hab.subset (by simp))
    have hmul := Nat.mul_le_mul_left m (Nat.succ_le_of_lt hlt)
    rw [Nat.mul_succ] at hmul
    omega
  · have hsub := hab.filter (high · = high b)
    simp only [heq, decide_true, List.filter_cons_of_pos, List.filter_nil] at hsub
    have hle := List.pairwise_iff_forall_sublist.mp (hgroups (high b)) hsub
    rw [heq]
    omega

/-- The items with given values of `low` and of `high`, found by both at once. -/
theorem filter_add_mul {low high : α → Nat} {m : Nat} {l : List α}
    (hlow : ∀ a ∈ l, low a < m) (r : Nat) :
  l.filter (fun a => low a + m * high a = r)
    = (l.filter (high · = r / m)).filter (low · = r % m)
  := by
  rw [List.filter_filter]
  apply List.filter_congr
  intro a ha
  have hlt := hlow a ha
  have hpos : 0 < m := by omega
  rw [← Bool.decide_and, decide_eq_decide]
  constructor
  · rintro rfl
    constructor
    · rw [Nat.add_mul_mod_self_left, Nat.mod_eq_of_lt hlt]
    · rw [Nat.add_mul_div_left _ _ hpos, Nat.div_eq_of_lt hlt, Nat.zero_add]
  · rintro ⟨hl, hh⟩
    rw [hl, hh]
    apply Nat.mod_add_div

/-- A sort by `low` and then by `high` is a single sort by both. -/
theorem stableSort_stableSort (low high : α → Nat) {m : Nat} {l : List α}
    (hlow : ∀ a ∈ l, low a < m) :
  stableSort high (stableSort low l) = stableSort (fun a => low a + m * high a) l
  := by
  have hlow' : ∀ a ∈ stableSort high (stableSort low l), low a < m := by
    intro a ha
    apply hlow a (mem_stableSort.mp (mem_stableSort.mp ha))
  apply eq_stableSort
  · apply pairwise_add_mul hlow' (stableSort_pairwise high _)
    intro r
    rw [filter_stableSort]
    apply (stableSort_pairwise low l).filter
  · intro r
    have hcomm : ∀ l' : List α, (l'.filter (high · = r / m)).filter (low · = r % m)
        = (l'.filter (low · = r % m)).filter (high · = r / m) := by
      intro l'
      rw [List.filter_filter, List.filter_filter]
      simp only [Bool.and_comm]
    rw [filter_add_mul hlow', filter_add_mul hlow, filter_stableSort, hcomm, filter_stableSort,
      hcomm]

/-! ### Sorting around one rank -/

/-- A part of the items that is given by ranks has the items of a rank either all or not
at all. -/
theorem filter_filter_rank (rank : α → Nat) (p : Nat → Bool) (l : List α) (r : Nat) :
  (l.filter fun a => p (rank a)).filter (rank · = r)
    = if p r then l.filter (rank · = r) else []
  := by
  rw [List.filter_filter]
  split
  · rename_i hp
    apply List.filter_congr
    intro a _
    by_cases h : rank a = r
    · simp [h, hp]
    · simp [h]
  · rename_i hp
    rw [List.filter_eq_nil_iff]
    intro a _ h
    simp only [Bool.and_eq_true, decide_eq_true_eq] at h
    rw [h.1] at h
    apply hp h.2

/-- Sorting commutes with choosing items by rank. -/
theorem filter_rank_stableSort (rank : α → Nat) (p : Nat → Bool) (l : List α) :
  (stableSort rank l).filter (fun a => p (rank a))
    = stableSort rank (l.filter fun a => p (rank a))
  := by
  apply eq_stableSort
  · apply (stableSort_pairwise rank l).filter
  · intro r
    rw [filter_filter_rank, filter_filter_rank, filter_stableSort]

/-- A sort consists of the lower items, of those of one rank, and of the higher ones. -/
theorem stableSort_eq_append (rank : α → Nat) (l : List α) (d : Nat) :
  stableSort rank l
    = stableSort rank (l.filter (rank · < d)) ++ l.filter (rank · = d)
      ++ stableSort rank (l.filter (d < rank ·))
  := by
  have hlow := filter_rank_stableSort rank (· < d) l
  have hhigh := filter_rank_stableSort rank (d < ·) l
  have hmid := filter_stableSort rank l d
  rw [← hlow, ← hhigh, ← hmid]
  symm
  apply eq_stableSort
  · rw [List.pairwise_append, List.pairwise_append]
    have hsorted := stableSort_pairwise rank l
    refine ⟨⟨hsorted.filter _, hsorted.filter _, ?_⟩, hsorted.filter _, ?_⟩
    · intro a ha b hb
      have ha' := (List.mem_filter.mp ha).2
      have hb' := (List.mem_filter.mp hb).2
      simp only [decide_eq_true_eq] at ha' hb'
      omega
    · intro a ha b hb
      have hb' := (List.mem_filter.mp hb).2
      rcases List.mem_append.mp ha with ha | ha
      · have ha' := (List.mem_filter.mp ha).2
        simp only [decide_eq_true_eq] at ha' hb'
        omega
      · have ha' := (List.mem_filter.mp ha).2
        simp only [decide_eq_true_eq] at ha' hb'
        omega
  · intro r
    rw [List.filter_append, List.filter_append, filter_filter_rank rank (· < d),
      filter_filter_rank rank (· = d), filter_filter_rank rank (d < ·), filter_stableSort]
    rcases Nat.lt_trichotomy r d with h | h | h
    · simp [h, Nat.ne_of_lt h, Nat.not_lt_of_gt h]
    · simp [h]
    · simp [h, Nat.ne_of_gt h, Nat.not_lt_of_gt h]

/-- A sort takes in one more item between the items that rank no higher and those that rank
higher. -/
theorem stableSort_append_singleton (rank : α → Nat) (l : List α) (a : α) :
  stableSort rank (l ++ [a])
    = (stableSort rank l).filter (rank · ≤ rank a)
      ++ a :: (stableSort rank l).filter (rank a < rank ·)
  := by
  have hsorted := stableSort_pairwise rank l
  symm
  apply eq_stableSort
  · rw [List.pairwise_append, List.pairwise_cons]
    refine ⟨hsorted.filter _, ⟨?_, hsorted.filter _⟩, ?_⟩
    · intro b hb
      have hb' := (List.mem_filter.mp hb).2
      simp only [decide_eq_true_eq] at hb'
      omega
    · intro b hb c hc
      have hb' := (List.mem_filter.mp hb).2
      simp only [decide_eq_true_eq] at hb'
      rcases List.mem_cons.mp hc with rfl | hc
      · apply hb'
      · have hc' := (List.mem_filter.mp hc).2
        simp only [decide_eq_true_eq] at hc'
        omega
  · intro r
    rw [List.filter_append, List.filter_cons, List.filter_append,
      filter_filter_rank rank (· ≤ rank a), filter_filter_rank rank (rank a < ·),
      filter_stableSort]
    rcases Nat.lt_trichotomy r (rank a) with h | h | h
    · simp [Nat.le_of_lt h, Nat.ne_of_gt h, Nat.not_lt_of_gt h]
    · simp [h]
    · simp [h, Nat.ne_of_lt h, Nat.not_le_of_gt h]

end SegmentSort
