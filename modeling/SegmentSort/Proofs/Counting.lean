import Mathlib.Algebra.Order.Ring.Nat
import Mathlib.Data.List.Count
import Mathlib.Data.List.Nodup
import Mathlib.Logic.Function.Basic
import SegmentSort.Counting
import SegmentSort.Proofs.StableSort

/-!
# Counting passes sort stably

The counters of a pass are `Counters.table n f`, one counter `f d` for each digit `d` below
`n`.  Once the items have been tallied, `f d` is the number of items of digit `d`
(`tally?_table`); `starts` turns it into the number of items of lower digits
(`starts_table`); and while items are sent to their places, it is that number and the
number of items of digit `d` that have been sent already.  Hence the place of an item is
the one where the stable sort has it (`places?_table`).  Since no two items go to the same
place, a pass writes every place once, and leaves the stable sort: `scatter?_eq_some`.
-/

namespace SegmentSort

variable {α β : Type}

/-! ### Tables of counters -/

/-- The counters whose contents are the values of a function below `n`. -/
def Counters.table (n : Nat) (f : Nat → Nat) : Array Nat :=
  Array.ofFn fun d : Fin n => f d

namespace Counters

@[simp]
theorem size_table (n : Nat) (f : Nat → Nat) :
  (table n f).size = n
  := by
  simp [table]

theorem getElem?_table {n : Nat} (f : Nat → Nat) {d : Nat} (h : d < n) :
  (table n f)[d]? = some (f d)
  := by
  simp [table, h]

/-- Writing a counter updates the function. -/
theorem writeAt?_table {n : Nat} (f : Nat → Nat) {d : Nat} (h : d < n) (x : Nat) :
  writeAt? (table n f) d x = some (table n (Function.update f d x))
  := by
  rw [writeAt?, dif_pos (by simpa using h)]
  congr 1
  apply Array.ext
  · simp
  · intro i hi hi'
    rw [Array.getElem_set]
    by_cases hdi : d = i
    · simp [table, hdi]
    · simp [table, hdi, Function.update_of_ne (Ne.symm hdi)]

theorem clearCounters_eq_table (counters : Array Nat) (n : Nat) :
  clearCounters counters n = table n fun _ => 0
  := by
  apply Array.ext
  · simp [clearCounters]
  · intro i hi hi'
    simp [clearCounters, table]

/-- After a tally, every counter has grown by the number of items of its digit. -/
theorem tally?_table {n : Nat} {digitOf : α → Nat} {l : List α} (f : Nat → Nat)
    (h : ∀ a ∈ l, digitOf a < n) :
  tally? digitOf l (table n f) = some (table n fun d => f d + l.countP (digitOf · = d))
  := by
  induction l generalizing f with
  | nil => simp [tally?]
  | cons a l ih =>
      have ha : digitOf a < n := h a (by simp)
      rw [tally?, getElem?_table f ha]
      simp only [Option.bind_eq_bind, Option.bind_some]
      rw [writeAt?_table f ha, Option.bind_some, ih _ fun b hb => h b (by simp [hb])]
      congr 2
      funext d
      rw [List.countP_cons]
      by_cases hd : digitOf a = d
      · simp [hd]
        omega
      · simp [hd, Function.update_of_ne (Ne.symm hd)]

/-- Accumulating replaces the counters from `i` on by the sums `g` of those before them,
provided that `g` grows by `f` at each step. -/
theorem accumulate_table {n : Nat} {f g : Nat → Nat} (h : ∀ d, g (d + 1) = g d + f d)
    (i : Nat) :
  accumulate (table n fun d => if d < i then g d else f d) i (g i) = table n g
  := by
  by_cases hi : i < n
  · have hwrite : (table n fun d => if d < i then g d else f d).set i (g i) (by simpa using hi)
        = table n fun d => if d < i + 1 then g d else f d := by
      apply Array.ext
      · simp
      · intro j hj hj'
        rw [Array.getElem_set]
        by_cases hij : i = j
        · simp [table, hij]
        · have hlt : j < i ↔ j < i + 1 := by omega
          simp [table, hij, hlt]
    have hsize : i < (table n fun d => if d < i then g d else f d).size := by simpa using hi
    have hread : (table n fun d => if d < i then g d else f d)[i] = f i := by
      simp [table]
    rw [accumulate, dif_pos (by simpa using hi), hwrite, hread]
    dsimp only
    rw [← h i]
    apply accumulate_table h (i + 1)
  · rw [accumulate, dif_neg (by simpa using hi)]
    apply Array.ext
    · simp
    · intro j hj hj'
      have hlt : j < i := by
        simp only [size_table] at hj
        omega
      simp [table, hlt]
termination_by n - i

theorem starts_table {n : Nat} {f g : Nat → Nat} (hzero : g 0 = 0)
    (h : ∀ d, g (d + 1) = g d + f d) :
  starts (table n f) = table n g
  := by
  have hacc := accumulate_table (n := n) h 0
  simpa [starts, hzero] using hacc

end Counters

/-! ### The places of items -/

/-- An item of digit `d` stands, in the stable sort, after all items of lower digits and
those of digit `d` that come before it. -/
theorem getElem?_stableSort (rank : α → Nat) (sent rest : List α) (a : α) :
  (stableSort rank (sent ++ a :: rest))[
      (sent ++ a :: rest).countP (rank · < rank a) + sent.countP (rank · = rank a)]?
    = some a
  := by
  rw [stableSort_eq_append rank _ (rank a), List.append_assoc, List.countP_eq_length_filter,
    List.getElem?_append_right (by simp), length_stableSort, Nat.add_sub_cancel_left,
    List.filter_append, List.filter_cons_of_pos (by simp), List.countP_eq_length_filter]
  simp

/-- The places of the items that are left, where each counter holds the number of items of
lower digits and the number of items of its digit that have been sent. -/
theorem places?_table {n : Nat} {digitOf : α → Nat} (rest : List α) :
    ∀ sent : List α, (∀ a ∈ rest, digitOf a < n) →
      ∃ places counters,
        places? digitOf rest
            (Counters.table n fun d =>
              (sent ++ rest).countP (digitOf · < d) + sent.countP (digitOf · = d))
          = some (places, counters)
        ∧ places.map (fun p => (stableSort digitOf (sent ++ rest))[p]?) = rest.map some := by
  induction rest with
  | nil =>
      intro sent _
      exact ⟨[], _, rfl, rfl⟩
  | cons a rest ih =>
      intro sent h
      have ha : digitOf a < n := h a (by simp)
      obtain ⟨places, counters, hplaces, hsorted⟩ := ih (sent ++ [a]) fun b hb => h b (by simp [hb])
      rw [List.append_assoc, List.singleton_append] at hplaces hsorted
      use ((sent ++ a :: rest).countP (digitOf · < digitOf a)
        + sent.countP (digitOf · = digitOf a)) :: places, counters
      constructor
      · rw [places?, Counters.getElem?_table _ ha]
        simp only [Option.bind_eq_bind, Option.bind_some]
        rw [Counters.writeAt?_table _ ha, Option.bind_some]
        have hcounters : (Function.update (fun d =>
              (sent ++ a :: rest).countP (digitOf · < d) + sent.countP (digitOf · = d)) (digitOf a)
              ((sent ++ a :: rest).countP (digitOf · < digitOf a)
                + sent.countP (digitOf · = digitOf a) + 1))
            = fun d => (sent ++ a :: rest).countP (digitOf · < d)
                + (sent ++ [a]).countP (digitOf · = d) := by
          funext d
          rw [@List.countP_append _ _ sent [a], List.countP_singleton]
          by_cases hd : digitOf a = d
          · subst hd
            simp
            omega
          · simp [hd, Function.update_of_ne (Ne.symm hd)]
        rw [hcounters, hplaces]
        rfl
      · rw [List.map_cons, List.map_cons, getElem?_stableSort, hsorted]

/-- The items of lower digits than `d + 1` are those of lower digits than `d`, and those of
digit `d`. -/
theorem countP_lt_succ (digitOf : α → Nat) (l : List α) (d : Nat) :
  l.countP (digitOf · < d + 1) = l.countP (digitOf · < d) + l.countP (digitOf · = d)
  := by
  induction l with
  | nil => rfl
  | cons a l ih =>
      simp only [List.countP_cons, ih, decide_eq_true_eq]
      split <;> split <;> split <;> omega

/-- Once the items have been counted, the items of each digit start after those of lower ones. -/
theorem exists_starts_eq_table {digitOf : α → Nat} {width : Nat} {l : List α}
    (h : ∀ a ∈ l, digitOf a < 2 ^ width) (counters : Array Nat) :
  ∃ counts, tally? digitOf l (clearCounters counters (1 <<< width)) = some counts
    ∧ starts counts = Counters.table (2 ^ width) fun d => l.countP (digitOf · < d)
  := by
  use Counters.table (2 ^ width) fun d => l.countP (digitOf · = d)
  constructor
  · rw [Nat.one_shiftLeft, Counters.clearCounters_eq_table, Counters.tally?_table _ h]
    simp only [Nat.zero_add]
  · apply Counters.starts_table
    · simp
    · apply countP_lt_succ

/-- Every item is sent to the place where it stands in the stable sort. -/
theorem destinations?_eq_some {digitOf : α → Nat} {width : Nat} {l : List α}
    (h : ∀ a ∈ l, digitOf a < 2 ^ width) (counters : Array Nat) :
  ∃ places counters', destinations? digitOf width l counters = some (places, counters')
    ∧ places.map (fun p => (stableSort digitOf l)[p]?) = l.map some
  := by
  obtain ⟨counts, hcounts, hstarts⟩ := exists_starts_eq_table h counters
  obtain ⟨places, counters', hplaces, hsorted⟩ := places?_table l [] h
  use places, counters'
  constructor
  · rw [destinations?, hcounts]
    simp only [Option.bind_eq_bind, Option.bind_some]
    rw [hstarts]
    simpa using hplaces
  · apply hsorted

/-! ### No two items go to the same place -/

theorem tally?_map (digitOf : β → Nat) (f : α → β) (l : List α) (counters : Array Nat) :
  tally? digitOf (l.map f) counters = tally? (fun a => digitOf (f a)) l counters
  := by
  induction l generalizing counters with
  | nil => rfl
  | cons a l ih =>
      rw [List.map_cons, tally?, tally?]
      simp only [ih]

theorem places?_map (digitOf : β → Nat) (f : α → β) (l : List α) (counters : Array Nat) :
  places? digitOf (l.map f) counters = places? (fun a => digitOf (f a)) l counters
  := by
  induction l generalizing counters with
  | nil => rfl
  | cons a l ih =>
      rw [List.map_cons, places?, places?]
      simp only [ih]

/-- The places depend on the digits of the items only. -/
theorem destinations?_map (digitOf : β → Nat) (f : α → β) (width : Nat) (l : List α)
    (counters : Array Nat) :
  destinations? digitOf width (l.map f) counters
    = destinations? (fun a => digitOf (f a)) width l counters
  := by
  rw [destinations?, destinations?]
  simp only [tally?_map, places?_map]

/-- Among the items and their numbers no two are equal, so the places, at which the sort
of these has them, differ. -/
theorem nodup_of_destinations? {digitOf : α → Nat} {width : Nat} {l : List α}
    (h : ∀ a ∈ l, digitOf a < 2 ^ width) {counters counters' : Array Nat} {places : List Nat}
    (hplaces : destinations? digitOf width l counters = some (places, counters')) :
  places.Nodup
  := by
  have hzip : ∀ a ∈ l.zipIdx, digitOf a.1 < 2 ^ width := fun a ha =>
    h a.1 (List.fst_mem_of_mem_zipIdx ha)
  obtain ⟨places', _, hplaces', hsorted⟩ := destinations?_eq_some hzip counters
  rw [← destinations?_map digitOf Prod.fst, List.zipIdx_map_fst, hplaces] at hplaces'
  obtain ⟨rfl, -⟩ := Prod.mk.inj (Option.some.inj hplaces')
  apply List.Nodup.of_map
  rw [hsorted]
  apply List.Nodup.map (fun _ _ => Option.some.inj)
  apply List.Nodup.of_map Prod.snd
  rw [List.zipIdx_map_snd]
  apply List.nodup_range' 1 Nat.one_pos

/-- The places of a list of items are all its positions, each of them once. -/
theorem destinations?_perm_range {digitOf : α → Nat} {width : Nat} {l : List α}
    (h : ∀ a ∈ l, digitOf a < 2 ^ width) {counters counters' : Array Nat} {places : List Nat}
    (hplaces : destinations? digitOf width l counters = some (places, counters')) :
  places.Perm (List.range l.length)
  := by
  obtain ⟨_, _, hplaces', hsorted⟩ := destinations?_eq_some h counters
  rw [hplaces] at hplaces'
  obtain ⟨rfl, -⟩ := Prod.mk.inj (Option.some.inj hplaces')
  have hlength : places.length = l.length := by simpa using congrArg List.length hsorted
  apply (List.subperm_of_subset (nodup_of_destinations? h hplaces) _).perm_of_length_le
  · simp [hlength]
  · intro p hp
    have hmem : (stableSort digitOf l)[p]? ∈ l.map some := by
      rw [← hsorted]
      apply List.mem_map_of_mem hp
    obtain ⟨a, -, ha⟩ := List.mem_map.mp hmem
    obtain ⟨hlt, -⟩ := List.getElem?_eq_some_iff.mp ha.symm
    simpa using hlt

/-! ### A pass -/

/-- Items written at the positions at which a list has them turn the positions into those of
the list. -/
theorem writeAll?_eq_some {s : List α} (writes : List (Nat × α)) :
    ∀ target : Array α, target.size = s.length → (∀ x ∈ writes, s[x.1]? = some x.2) →
      ∃ r, writeAll? writes target = some r ∧ r.size = s.length
        ∧ ∀ p, r[p]? = if p ∈ writes.map (·.1) then s[p]? else target[p]? := by
  induction writes with
  | nil =>
      intro target hsize _
      use target, rfl, hsize
      simp
  | cons x writes ih =>
      obtain ⟨i, a⟩ := x
      intro target hsize h
      have ha : s[i]? = some a := h (i, a) (by simp)
      have hi : i < target.size := by
        rw [hsize]
        apply (List.getElem?_eq_some_iff.mp ha).1
      obtain ⟨r, hr, hrsize, hread⟩ := ih (target.set i a) (by simpa using hsize)
        fun x hx => h x (by simp [hx])
      use r
      constructor
      · rw [writeAll?, writeAt?, dif_pos hi]
        apply hr
      · use hrsize
        intro p
        rw [hread, Array.getElem?_set]
        by_cases hpi : i = p
        · subst hpi
          simp [ha]
        · have hmem : p ∈ ((i, a) :: writes).map (·.1) ↔ p ∈ writes.map (·.1) := by
            rw [List.map_cons, List.mem_cons, or_iff_right (Ne.symm hpi)]
          rw [if_neg hpi, if_congr hmem rfl rfl]

/-- Where a list has items at some positions, it has each of them at its position. -/
theorem getElem?_of_mem_zip {s l : List α} {places : List Nat}
    (h : places.map (fun p => s[p]?) = l.map some) :
  ∀ x ∈ places.zip l, s[x.1]? = some x.2
  := by
  rintro ⟨p, a⟩ hx
  obtain ⟨i, hi, hx⟩ := List.mem_iff_getElem.mp hx
  obtain ⟨rfl, rfl⟩ := Prod.mk.inj (List.getElem_zip.symm.trans hx)
  have hget := congrArg (·[i]?) h
  simp only [List.length_zip] at hi
  simpa [List.getElem?_eq_getElem (show i < places.length by omega),
    List.getElem?_eq_getElem (show i < l.length by omega)] using hget

/-- A pass over items whose digits fit leaves the stable sort of the source by their digits,
whatever the target and the counters held before. -/
theorem scatter?_eq_some {digitOf : α → Nat} {width : Nat} {source target : List α}
    (h : ∀ a ∈ source, digitOf a < 2 ^ width) (hlength : source.length = target.length)
    (counters : Array Nat) :
  ∃ counters', scatter? digitOf width source target counters
    = some (stableSort digitOf source, counters')
  := by
  obtain ⟨places, counters', hplaces, hsorted⟩ := destinations?_eq_some h counters
  have hrange := destinations?_perm_range h hplaces
  have hplength : places.length = source.length := by simpa using hrange.length_eq
  obtain ⟨r, hr, hrsize, hread⟩ := writeAll?_eq_some (s := stableSort digitOf source)
    (places.zip source) target.toArray (by simp [hlength]) (getElem?_of_mem_zip hsorted)
  use counters'
  rw [scatter?, hplaces]
  simp only [Option.bind_eq_bind, Option.bind_some]
  rw [hr, Option.bind_some]
  congr 2
  apply List.ext_getElem?
  intro p
  rw [Array.getElem?_toList, hread, List.map_fst_zip (Nat.le_of_eq hplength)]
  split
  · rfl
  · rename_i hp
    rw [hrange.mem_iff, List.mem_range, Nat.not_lt] at hp
    rw [List.getElem?_eq_none (by simpa using hp)]
    simpa [hlength] using hp

end SegmentSort
