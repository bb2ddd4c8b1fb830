import Mathlib.Data.List.Permutation
import SegmentSort.Key.Basic
import SegmentSort.Proofs.Counting
import SegmentSort.Proofs.Operands
import SegmentSort.Proofs.Schedule

/-!
# A counting pass, item by item

A pass may as well send each item off as soon as its place is known (`send?`): this makes no
difference to the whole (`scatter?_eq_scatterPart?`), and shows what a pass has done when it has
come to some item.  Every counter then holds the number of items of lower digits and the number of
items of its digit that have been sent; the items that have been sent stand where the stable sort
has them; and the other places are as they were (`Scattered`).  Hence a pass by a digit of the keys
writes every place once, and leaves the stable sort by this digit (`digit_passes_sort_stably`).
-/

namespace SegmentSort

variable {α : Type}

/-- An item goes to the place that the counter of its digit tells, and the counter moves on. -/
def send? (digitOf : α → Nat) (state : Array Nat × Array α) (a : α) :
    Option (Array Nat × Array α) := do
  let place ← state.1[digitOf a]?
  let target ← writeAt? state.2 place a
  let counters ← writeAt? state.1 (digitOf a) (place + 1)
  return (counters, target)

/-- A pass that counts all items of its source, and sends some of them. -/
def scatterPart? (digitOf : α → Nat) (width : Nat) (source sent target : List α)
    (counters : Array Nat) : Option (Array Nat × Array α) := do
  let counts ← tally? digitOf source (clearCounters counters (1 <<< width))
  sent.foldlM (send? digitOf) (starts counts, target.toArray)

/-! ### Places first, or one item at a time -/

/-- Items that are sent one at a time go to their places. -/
theorem foldlM_send? (digitOf : α → Nat) (l : List α) :
    ∀ (counters : Array Nat) (target : Array α),
      l.foldlM (send? digitOf) (counters, target) = (do
        let (places, counters) ← places? digitOf l counters
        let target ← writeAll? (places.zip l) target
        return (counters, target)) := by
  induction l with
  | nil =>
      intro counters target
      rfl
  | cons a l ih =>
      intro counters target
      rw [List.foldlM_cons, send?, places?]
      simp only [Option.bind_eq_bind]
      cases counters[digitOf a]? with
      | none => rfl
      | some place =>
          simp only [Option.bind_some]
          cases writeAt? counters (digitOf a) (place + 1) with
          | none => cases writeAt? target place a <;> rfl
          | some counters' =>
              simp only [Option.bind_some, Option.bind_assoc, pure, List.zip_cons_cons, writeAll?]
              cases writeAt? target place a with
              | none => simp
              | some target' => simp [ih]

theorem scatter?_eq_scatterPart? (digitOf : α → Nat) (width : Nat) (source target : List α)
    (counters : Array Nat) :
  scatter? digitOf width source target counters
    = (scatterPart? digitOf width source source target counters).map fun state =>
      (state.2.toList, state.1)
  := by
  rw [scatter?, destinations?, scatterPart?]
  simp only [Option.bind_eq_bind, foldlM_send?]
  cases tally? digitOf source (clearCounters counters (1 <<< width)) with
  | none => rfl
  | some counts =>
      simp only [Option.bind_some]
      cases places? digitOf source (starts counts) with
      | none => rfl
      | some r =>
          simp only [Option.bind_some]
          cases writeAll? (r.1.zip source) target.toArray <;> rfl

/-! ### What a pass has done so far -/

theorem places?_append (digitOf : α → Nat) (later : List α) (l : List α) :
    ∀ counters : Array Nat, places? digitOf (l ++ later) counters = (do
      let (front, counters) ← places? digitOf l counters
      let (back, counters) ← places? digitOf later counters
      return (front ++ back, counters)) := by
  induction l with
  | nil =>
      intro counters
      simp [places?]
  | cons a l ih =>
      intro counters
      rw [List.cons_append, places?, places?]
      simp only [ih, Option.bind_eq_bind, Option.bind_assoc, Option.pure_def, Option.bind_some,
        List.cons_append]

/-- Sending items moves the counters on as counting them does. -/
theorem map_snd_places? (digitOf : α → Nat) (l : List α) :
    ∀ counters : Array Nat, (places? digitOf l counters).map (·.2) = tally? digitOf l counters := by
  induction l with
  | nil =>
      intro counters
      rfl
  | cons a l ih =>
      intro counters
      rw [places?, tally?]
      simp only [← ih, Option.bind_eq_bind, Option.map_eq_bind, Function.comp_def, Option.pure_def,
        Option.bind_assoc, Option.bind_some]

theorem length_places? {digitOf : α → Nat} (l : List α) :
    ∀ {counters counters' : Array Nat} {places : List Nat},
      places? digitOf l counters = some (places, counters') → places.length = l.length := by
  induction l with
  | nil =>
      intro counters counters' places h
      obtain ⟨rfl, -⟩ := Prod.mk.inj (Option.some.inj h)
      rfl
  | cons a l ih =>
      intro counters counters' places h
      rw [places?] at h
      simp only [Option.bind_eq_bind, Option.bind_eq_some_iff] at h
      obtain ⟨place, -, counters'', -, ⟨rest, _⟩, hrest, h⟩ := h
      obtain ⟨rfl, -⟩ := Prod.mk.inj (Option.some.inj h)
      rw [List.length_cons, List.length_cons, ih hrest]

/-- The counters of a pass by digits below `2 ^ width` that has sent some items of its source: each
of them holds the number of items of lower digits and of those of its digit that have been sent. -/
def Counters.moved (digitOf : α → Nat) (width : Nat) (source sent : List α) : Array Nat :=
  table (2 ^ width) fun d => source.countP (digitOf · < d) + sent.countP (digitOf · = d)

/-- What a pass has done when it has sent some items of its source to the first of some places. -/
structure Scattered (digitOf : α → Nat) (width : Nat) (source target : List α) (places : List Nat)
    (sent : List α) (state : Array Nat × Array α) : Prop where
  /-- Every counter tells where the next item of its digit goes. -/
  counters : state.1 = Counters.moved digitOf width source sent
  size : state.2.size = target.length
  /-- The places that have been written hold what the stable sort has there. -/
  get : ∀ p, state.2[p]? = if p ∈ places.take sent.length then (stableSort digitOf source)[p]?
    else target[p]?

section

variable {digitOf : α → Nat} {width : Nat} {sent rest target : List α}
  {counters counters' : Array Nat} {places : List Nat}

/-- The first items go to the first places, and the others go on from the counters that these have
moved on. -/
theorem exists_places_eq_append (h : ∀ a ∈ sent ++ rest, digitOf a < 2 ^ width)
    (hplaces : destinations? digitOf width (sent ++ rest) counters = some (places, counters')) :
  ∃ front back, places = front ++ back ∧ front.length = sent.length
    ∧ places? digitOf sent (Counters.moved digitOf width (sent ++ rest) [])
      = some (front, Counters.moved digitOf width (sent ++ rest) sent)
    ∧ places? digitOf rest (Counters.moved digitOf width (sent ++ rest) sent)
      = some (back, counters')
  := by
  obtain ⟨counts, hcounts, hstarts⟩ := exists_starts_eq_table h counters
  rw [destinations?, hcounts] at hplaces
  simp only [Option.bind_eq_bind, Option.bind_some] at hplaces
  rw [hstarts, places?_append] at hplaces
  simp only [Option.bind_eq_bind, Option.bind_eq_some_iff] at hplaces
  obtain ⟨⟨front, moved⟩, hfront, ⟨back, left⟩, hback, hpair⟩ := hplaces
  obtain ⟨rfl, rfl⟩ := Prod.mk.inj (Option.some.inj hpair)
  have hmoved := map_snd_places? digitOf sent
    (Counters.table (2 ^ width) fun d => (sent ++ rest).countP (digitOf · < d))
  rw [hfront, Counters.tally?_table _ fun a ha => h a (List.mem_append_left rest ha)] at hmoved
  obtain rfl := Option.some.inj hmoved
  exact ⟨front, back, rfl, length_places? sent hfront, hfront, hback⟩

/-- An item goes to the place after those of all items of lower digits, and of the items of its
digit that are sent before. -/
theorem getElem?_places {a : α} (h : ∀ b ∈ sent ++ a :: rest, digitOf b < 2 ^ width)
    (hplaces : destinations? digitOf width (sent ++ a :: rest) counters
      = some (places, counters')) :
  places[sent.length]? = some ((sent ++ a :: rest).countP (digitOf · < digitOf a)
    + sent.countP (digitOf · = digitOf a))
  := by
  obtain ⟨front, back, rfl, hfront, -, hback⟩ := exists_places_eq_append h hplaces
  rw [Counters.moved, places?, Counters.getElem?_table _ (h a (by simp))] at hback
  simp only [Option.bind_eq_bind, Option.bind_some, Option.bind_eq_some_iff] at hback
  obtain ⟨_, -, _, -, hpair⟩ := hback
  obtain ⟨rfl, -⟩ := Prod.mk.inj (Option.some.inj hpair)
  rw [← hfront, List.getElem?_append_right (Nat.le_refl _), Nat.sub_self]
  rfl

/-- A pass comes as far as any of its items. -/
theorem exists_scattered (h : ∀ a ∈ sent ++ rest, digitOf a < 2 ^ width)
    (hlength : (sent ++ rest).length = target.length)
    (hplaces : destinations? digitOf width (sent ++ rest) counters = some (places, counters'))
    (hsorted : places.map (fun p => (stableSort digitOf (sent ++ rest))[p]?)
      = (sent ++ rest).map some) :
  ∃ state, scatterPart? digitOf width (sent ++ rest) sent target counters = some state
    ∧ Scattered digitOf width (sent ++ rest) target places sent state
  := by
  obtain ⟨front, back, rfl, hfront, hsent, -⟩ := exists_places_eq_append h hplaces
  have hstand : ∀ x ∈ front.zip sent, (stableSort digitOf (sent ++ rest))[x.1]? = some x.2 := by
    intro x hx
    apply getElem?_of_mem_zip hsorted
    rw [List.zip_append hfront]
    apply List.mem_append_left _ hx
  obtain ⟨filled, hfilled, hsize, hget⟩ := writeAll?_eq_some (front.zip sent) target.toArray
    (by simp [← hlength]) hstand
  obtain ⟨counts, hcounts, hstarts⟩ := exists_starts_eq_table h counters
  use (Counters.moved digitOf width (sent ++ rest) sent, filled)
  constructor
  · change starts counts = Counters.moved digitOf width (sent ++ rest) [] at hstarts
    rw [scatterPart?, hcounts]
    simp only [Option.bind_eq_bind, Option.bind_some]
    rw [hstarts, foldlM_send?, hsent]
    simp only [Option.bind_eq_bind, Option.bind_some, hfilled]
    rfl
  · constructor
    case counters => rfl
    case size => rw [hsize, length_stableSort, hlength]
    case get =>
      intro p
      rw [hget, List.map_fst_zip (Nat.le_of_eq hfront), ← hfront, List.take_left,
        List.getElem?_toArray]

end

/-! ### A whole pass -/

/-- A pass distributes the items of a source over a target: it sends each of them to a place of its
own until all places have been written, and leaves the stable sort. -/
structure Distributes (digitOf : α → Nat) (width : Nat) (source target : List α)
    (counters : Array Nat) : Prop where
  /-- Every item has a counter. -/
  digit_lt : ∀ a ∈ source, digitOf a < 2 ^ width
  /-- It makes no difference to the pass that the items are sent one at a time. -/
  whole : scatter? digitOf width source target counters
    = (scatterPart? digitOf width source source target counters).map fun state =>
      (state.2.toList, state.1)
  /-- The items go to some places, one after the other, and every position of the target is one of
  these places, once. -/
  places : ∃ places : List Nat, places.Perm (List.range target.length)
    ∧ (∀ sent a rest, source = sent ++ a :: rest → places[sent.length]?
      = some (source.countP (digitOf · < digitOf a) + sent.countP (digitOf · = digitOf a)))
    ∧ ∀ sent rest, source = sent ++ rest → ∃ state,
      scatterPart? digitOf width source sent target counters = some state
        ∧ Scattered digitOf width source target places sent state
  sorted : ∃ counters',
    scatter? digitOf width source target counters = some (stableSort digitOf source, counters')

/-- A pass over items whose digits fit distributes them. -/
theorem distributes_of_digit_lt {digitOf : α → Nat} {width : Nat} {source target : List α}
    (h : ∀ a ∈ source, digitOf a < 2 ^ width) (hlength : source.length = target.length)
    (counters : Array Nat) :
  Distributes digitOf width source target counters
  := by
  constructor
  case digit_lt => apply h
  case whole => apply scatter?_eq_scatterPart?
  case sorted => apply scatter?_eq_some h hlength counters
  case places =>
    obtain ⟨places, counters', hplaces, hsorted⟩ := destinations?_eq_some h counters
    refine ⟨places, hlength ▸ destinations?_perm_range h hplaces, ?_, ?_⟩
    · rintro sent a rest rfl
      apply getElem?_places h hplaces
    · rintro sent rest rfl
      apply exists_scattered h hlength hplaces hsorted

variable {t : KeyType} {ν : Type}

/-- A pass by a digit of the keys of even columns distributes them and their values, in either
direction, whatever the target and the counters hold. -/
theorem digit_passes_sort_stably (d : Direction) (bit width : Nat)
    (source target : Columns (Key t) ν) (hsource : source.Even) (htarget : target.Even)
    (hlength : source.keys.length = target.keys.length) (counters : Array Nat) :
  Distributes (fun a : Key t × ν => digit (a.1.sortCode d) bit width) width source.items
    target.items counters
  := by
  apply distributes_of_digit_lt
  · intro a _
    apply digit_lt
  · rw [hsource.length_items, htarget.length_items, hlength]

/-- Four keys with their positions; two of the keys agree in their lowest two bits. -/
def Columns.fourKeys : Columns (Key (.unsigned .w8)) Nat where
  keys := [⟨1⟩, ⟨7⟩, ⟨2⟩, ⟨3⟩]
  values := [0, 1, 2, 3]

/-- Downwards, the keys that agree come first, and keep their order. -/
theorem digit_passes_sample :
  Columns.fourKeys.Even
    ∧ ∃ counters', scatter? (fun a => digit (a.1.sortCode .descending) 0 2) 2
        Columns.fourKeys.items Columns.fourKeys.items #[9]
      = some ([(⟨7⟩, 1), (⟨3⟩, 3), (⟨2⟩, 2), (⟨1⟩, 0)], counters')
  := by
  have heven : Columns.fourKeys.Even := rfl
  obtain ⟨counters', h⟩ := (digit_passes_sort_stably .descending 0 2 Columns.fourKeys
    Columns.fourKeys heven heven rfl #[9]).sorted
  use heven, counters'
  rw [h]
  apply congrArg fun sorted => some (sorted, counters')
  cbv

end SegmentSort
