import SegmentSort.Proofs.Cut
import SegmentSort.Proofs.SegmentView
import SegmentSort.Sort.Operands

/-!
# Operands before and after a sort

The columns of operands are those where the data lie before a sort, and the output or the
alternate ones (`Operands.columns`).  If all lists are equally long and the segments fit,
then there is a view of every segment that shows its data (`Operands.views?_eq_some`), and
what a sort leaves in the views is afterwards found at the places of the segments
(`Operands.slice_withViews`).
-/

namespace SegmentSort

variable {κ ν : Type}

namespace Columns

/-- There are as many keys as values. -/
def Even (c : Columns κ ν) : Prop :=
  c.values.length = c.keys.length

theorem Even.length_items {c : Columns κ ν} (h : c.Even) :
  c.items.length = c.keys.length
  := by
  rw [items, List.length_zip, h, Nat.min_self]

theorem Even.map_items {c : Columns κ ν} (h : c.Even) :
  c.items.map Prod.fst = c.keys
  := List.map_fst_zip (Nat.le_of_eq h.symm)

theorem Even.map_snd_items {c : Columns κ ν} (h : c.Even) :
  c.items.map Prod.snd = c.values
  := List.map_snd_zip (Nat.le_of_eq h)

/-- Even columns are known from their items. -/
theorem Even.ofItems_items {c : Columns κ ν} (h : c.Even) :
  ofItems c.items = c
  := by
  rw [ofItems, h.map_items, h.map_snd_items]

@[simp]
theorem items_ofItems (l : List (κ × ν)) :
  (ofItems l).items = l
  := (List.zip_of_prod rfl rfl).symm

theorem even_ofItems (l : List (κ × ν)) :
  (ofItems l).Even
  := by
  rw [Even, ofItems, List.length_map, List.length_map]

end Columns

namespace Operands

/-- The columns where the data lie before a sort, and the output or the alternate ones. -/
def columns : Operands κ ν → ResultLocation → Columns κ ν
  | separate input _, .primary => input
  | separate _ output, .alternate => output
  | doubleBuffer current _, .primary => current
  | doubleBuffer _ alternate, .alternate => alternate

/-- The items that are sorted. -/
def data (o : Operands κ ν) : List (κ × ν) :=
  (o.columns .primary).items

variable {o : Operands κ ν} {m : SegmentMap}

theorem length_columns_primary (o : Operands κ ν) :
  (o.columns .primary).keys.length = o.size
  := by
  cases o <;> rfl

/-- The check compares the other three lists with the keys. -/
theorem forall_mem_lengths_iff :
  (∀ p ∈ o.lengths, p.2 = o.size)
    ↔ (o.columns .alternate).keys.length = o.size ∧ (o.columns .primary).values.length = o.size
      ∧ (o.columns .alternate).values.length = o.size
  := by
  cases o <;> simp [lengths, columns]

/-- The check succeeds precisely if all columns are even and equally long. -/
theorem checkLengths_eq_ok_iff :
  o.checkLengths = .ok ()
    ↔ ∀ location, (o.columns location).keys.length = o.size ∧ (o.columns location).Even
  := by
  have hfind : o.checkLengths = .ok () ↔ ∀ p ∈ o.lengths, p.2 = o.size := by
    rw [checkLengths]
    split
    · rename_i buffer actual hfound
      have hne := List.find?_some hfound
      simp only [ne_eq, decide_eq_true_eq] at hne
      constructor
      · rintro ⟨⟩
      · intro hall
        cases hne (hall (buffer, actual) (List.mem_of_find?_eq_some hfound))
    · rename_i hnone
      rw [List.find?_eq_none] at hnone
      simpa using hnone
  rw [hfind, forall_mem_lengths_iff]
  constructor
  · rintro ⟨hkeys, hprimary, halternate⟩ (_ | _)
    · exact ⟨o.length_columns_primary, hprimary.trans o.length_columns_primary.symm⟩
    · exact ⟨hkeys, halternate.trans hkeys.symm⟩
  · intro hall
    obtain ⟨hkeys, halternate⟩ := hall .alternate
    exact ⟨hkeys, (hall .primary).2.trans o.length_columns_primary, halternate.trans hkeys⟩

/-- With a separate output, the check compares the lengths of all four lists. -/
theorem checkLengths_separate_iff {input output : Columns κ ν} :
  (separate input output).checkLengths = .ok ()
    ↔ input.Even ∧ output.Even ∧ output.keys.length = input.keys.length
  := by
  rw [checkLengths_eq_ok_iff]
  constructor
  · intro h
    exact ⟨(h .primary).2, (h .alternate).2, (h .alternate).1⟩
  · rintro ⟨hinput, houtput, hlength⟩ (_ | _)
    · exact ⟨rfl, hinput⟩
    · exact ⟨hlength, houtput⟩

theorem length_items_columns (h : o.checkLengths = .ok ()) (location : ResultLocation) :
  (o.columns location).items.length = o.size
  := by
  obtain ⟨hkeys, heven⟩ := checkLengths_eq_ok_iff.mp h location
  rw [heven.length_items, hkeys]

/-! ### Views -/

/-- The view of a span shows its data, in as many items on every side as the span has. -/
structure Shows (o : Operands κ ν) (s : Span) (v : SegmentView (κ × ν)) : Prop where
  balanced : v.Balanced
  size : v.size = s.length
  data : v.data = s.slice o.data
  mode : v.input.isNone = o.isDoubleBuffer

/-- The lists of the operands and the temporary items, if there have to be any, are equally
long, and segments lie within them and apart from each other. -/
structure Ready (o : Operands κ ν) (temporary : List (κ × ν)) (m : SegmentMap) : Prop where
  lengths : o.checkLengths = .ok ()
  temporary : o.isDoubleBuffer = false → temporary.length = o.size
  fits : m.Fits o.size

/-- The view of a span. -/
def view (o : Operands κ ν) (temporary : List (κ × ν)) (s : Span) : SegmentView (κ × ν) :=
  match o with
  | separate input output => ⟨some (s.slice input.items), s.slice temporary, s.slice output.items⟩
  | doubleBuffer current alternate => ⟨none, s.slice current.items, s.slice alternate.items⟩

variable {temporary : List (κ × ν)}

/-- Every segment has its view. -/
theorem views?_eq_some (h : o.Ready temporary m) :
  o.views? temporary m = some (m.spans.map (o.view temporary))
  := by
  have hcut : ∀ l : List (κ × ν), l.length = o.size → m.cut? l = some (m.split l) := by
    intro l hl
    apply SegmentMap.cut?_eq_some
    rw [hl]
    apply h.fits
  have hprimary := hcut _ (length_items_columns h.lengths .primary)
  have halternate := hcut _ (length_items_columns h.lengths .alternate)
  cases o with
  | separate input output =>
      have hscratch := hcut temporary (h.temporary rfl)
      simp only [columns] at halternate
      simp only [views?, hscratch, halternate, SegmentMap.split_eq_map, Option.bind_eq_bind,
        Option.bind_some, List.zip_map', List.map_map]
      rfl
  | doubleBuffer current alternate =>
      simp only [columns] at hprimary halternate
      simp only [views?, hprimary, halternate, SegmentMap.split_eq_map, Option.bind_eq_bind,
        Option.bind_some, List.zip_map', List.map_map]
      rfl

/-- Every view shows its segment. -/
theorem shows_view (h : o.Ready temporary m) {s : Span} (hs : s ∈ m.spans) :
  o.Shows s (o.view temporary s)
  := by
  have hslice : ∀ l : List (κ × ν), l.length = o.size → (s.slice l).length = s.length := by
    intro l hl
    apply Span.length_slice
    rw [hl]
    apply (h.fits.bounds s hs).2
  have hprimary := hslice _ (length_items_columns h.lengths .primary)
  have halternate := hslice _ (length_items_columns h.lengths .alternate)
  cases o with
  | separate input output =>
      refine ⟨⟨?_, ?_⟩, halternate, rfl, rfl⟩
      · apply (hslice temporary (h.temporary rfl)).trans halternate.symm
      · rintro _ ⟨⟩
        apply hprimary.trans halternate.symm
  | doubleBuffer current alternate =>
      refine ⟨⟨?_, ?_⟩, halternate, rfl, rfl⟩
      · apply hprimary.trans halternate.symm
      · rintro _ ⟨⟩

/-! ### Operands afterwards -/

variable {items : List (SegmentView (κ × ν))}

/-- What is written to a location are the sides of the views, each at the place of its
segment. -/
theorem columns_withViews {location : ResultLocation}
    (hlocation : o.isDoubleBuffer = true ∨ location = .alternate) :
  (o.withViews m items).columns location
    = .ofItems (m.join (items.map (·.get location.side)) (o.columns location).items)
  := by
  cases o with
  | separate input output =>
      cases location with
      | primary =>
          rcases hlocation with h | h
          · cases h
          · cases h
      | alternate => rfl
  | doubleBuffer current alternate =>
      cases location <;> rfl

/-- What a sort leaves on one side of the views has the lengths of their segments. -/
theorem matches_of_kept (h : o.Ready temporary m)
    (hkept : List.Forall₂ (fun s w => (o.view temporary s).Kept w) m.spans items)
    (location : ResultLocation) :
  m.Matches (items.map (·.get location.side))
  := by
  rw [SegmentMap.Matches, List.forall₂_map_right_iff]
  apply forall₂_imp_of_mem hkept
  intro s hs w hw
  have hshows := shows_view h hs
  rw [hw.length_get, hshows.balanced.length_get, hshows.size]

/-- What a sort leaves in the views is found at the places of their segments. -/
theorem slice_withViews (h : o.Ready temporary m)
    (hkept : List.Forall₂ (fun s w => (o.view temporary s).Kept w) m.spans items)
    {location : ResultLocation}
    (hlocation : o.isDoubleBuffer = true ∨ location = .alternate) :
  ((o.withViews m items).columns location).items.length = o.size
    ∧ List.Forall₂
      (fun s w => s.slice ((o.withViews m items).columns location).items = w.get location.side)
      m.spans items
  := by
  have hlength := length_items_columns h.lengths location
  have hmatches := matches_of_kept h hkept location
  have hfits := h.fits
  rw [← hlength] at hfits
  rw [columns_withViews hlocation, Columns.items_ofItems, SegmentMap.length_join hmatches hfits]
  use hlength
  have hsplit := SegmentMap.split_join hmatches _ hfits
  rw [SegmentMap.split_eq_map, ← List.forall₂_eq_eq_eq] at hsplit
  rwa [List.forall₂_map_left_iff, List.forall₂_map_right_iff] at hsplit

/-- A position outside of all segments keeps its key and its value. -/
theorem getElem?_withViews_of_outside (h : o.Ready temporary m)
    (hkept : List.Forall₂ (fun s w => (o.view temporary s).Kept w) m.spans items) {p : Nat}
    (hp : ∀ s ∈ m.spans, ¬ (s.start ≤ p ∧ p < s.stop)) (location : ResultLocation) :
  ((o.withViews m items).columns location).keys[p]? = (o.columns location).keys[p]?
    ∧ ((o.withViews m items).columns location).values[p]? = (o.columns location).values[p]?
  := by
  by_cases hlocation : o.isDoubleBuffer = true ∨ location = .alternate
  · have hfits := h.fits
    rw [← length_items_columns h.lengths location] at hfits
    have hitem := SegmentMap.getElem?_join_of_outside (matches_of_kept h hkept location) hfits hp
    have heven := (checkLengths_eq_ok_iff.mp h.lengths location).2
    rw [columns_withViews hlocation, Columns.ofItems]
    dsimp only
    rw [List.getElem?_map, List.getElem?_map, hitem, ← List.getElem?_map, ← List.getElem?_map]
    constructor
    · exact congrArg (·[p]?) heven.map_items
    · exact congrArg (·[p]?) heven.map_snd_items
  · -- The input of a sort with a separate output is not written.
    cases o with
    | separate input output =>
        cases location with
        | primary => exact ⟨rfl, rfl⟩
        | alternate => cases hlocation (.inr rfl)
    | doubleBuffer current alternate => cases hlocation (.inl rfl)

/-- What holds of the sides of the views holds of the segments. -/
theorem forall_slice_withViews (h : o.Ready temporary m)
    (hkept : List.Forall₂ (fun s w => (o.view temporary s).Kept w) m.spans items)
    {location : ResultLocation}
    (hlocation : o.isDoubleBuffer = true ∨ location = .alternate)
    {R : Span → List (κ × ν) → Prop}
    (hR : List.Forall₂ (fun s w => R s (w.get location.side)) m.spans items) :
  ∀ s ∈ m.spans, R s (s.slice ((o.withViews m items).columns location).items)
  := by
  obtain ⟨-, hslices⟩ := slice_withViews h hkept hlocation
  have hall : List.Forall₂
      (fun s _ => R s (s.slice ((o.withViews m items).columns location).items) ∧ True)
      m.spans items := by
    apply List.Forall₂.mp _ hslices hR
    intro s w hslice hw
    rw [hslice]
    exact ⟨hw, trivial⟩
  apply ((List.forall₂_and_left _ _).mp hall).1

end Operands

end SegmentSort
