import Mathlib.Data.List.Forall2
import Mathlib.Tactic.Use
import SegmentSort.SegmentView
import SegmentSort.StableSort

/-!
# What a sort does to a view

A view is `Balanced` if all its sides have the same number of items.  Two relations between
a view before and after a sort say what the sorts of this library do to it: `Kept`, that the
data have at most been permuted where they lay, which holds even of a sort that is stopped
half-way, and `Sorted`, that moreover the stable sort of the data lies where it should.
What becomes of several views of which some may be too long for their sort is `Tried`.
-/

namespace SegmentSort

variable {α : Type}

namespace SegmentView

/-- The items on a side; none, if the side does not exist. -/
def get (v : SegmentView α) : Side → List α
  | .input => v.input.getD []
  | .scratch => v.scratch
  | .output => v.output

/-- All sides have the same number of items. -/
structure Balanced (v : SegmentView α) : Prop where
  scratch : v.scratch.length = v.size
  input : ∀ l ∈ v.input, l.length = v.size

theorem get_origin (v : SegmentView α) :
  v.get v.origin = v.data
  := by
  rcases v with ⟨_ | _, _, _⟩ <;> rfl

theorem isSome_of_origin {v : SegmentView α} (h : v.origin = .input) :
  v.input.isSome
  := by
  rcases v with ⟨_ | _, _, _⟩
  · cases h
  · rfl

theorem Balanced.length_data {v : SegmentView α} (h : v.Balanced) :
  v.data.length = v.size
  := by
  rcases v with ⟨_ | input, scratch, output⟩
  · apply h.scratch
  · apply h.input input rfl

theorem Balanced.length_get {v : SegmentView α} (h : v.Balanced) (location : ResultLocation) :
  (v.get location.side).length = v.size
  := by
  cases location with
  | primary => apply h.scratch
  | alternate => rfl

@[simp]
theorem input_put (v : SegmentView α) (side : Side) (items : List α) :
  (v.put side items).input = v.input
  := by
  cases side <;> rfl

theorem get_put_self (v : SegmentView α) {side : Side} (h : side ≠ .input) (items : List α) :
  (v.put side items).get side = items
  := by
  cases side with
  | input => cases h rfl
  | scratch => rfl
  | output => rfl

theorem get_put_of_ne (v : SegmentView α) {side other : Side} (h : other ≠ side)
    (items : List α) :
  (v.put side items).get other = v.get other
  := by
  cases side <;> cases other <;> first | rfl | cases h rfl

/-- Items can be moved between two different sides, to one that can be written. -/
theorem ends?_eq_some (v : SegmentView α) {source target : Side}
    (hsource : source = .input → v.input.isSome) (htarget : target ≠ .input)
    (hne : source ≠ target) :
  v.ends? source target = some (v.get source, v.get target)
  := by
  rcases v with ⟨input, scratch, output⟩
  cases source with
  | input =>
      obtain ⟨l, rfl⟩ := Option.isSome_iff_exists.mp (hsource rfl)
      cases target with
      | input => cases hne rfl
      | scratch => rfl
      | output => rfl
  | scratch =>
      cases target with
      | input => cases htarget rfl
      | scratch => cases hne rfl
      | output => rfl
  | output =>
      cases target with
      | input => cases htarget rfl
      | scratch => rfl
      | output => cases hne rfl

/-! ### Views before and after -/

/-- `w` has the sides of `v`, and the data of `v` in some order. -/
structure Kept (v w : SegmentView α) : Prop where
  input : w.input = v.input
  scratch : w.scratch.length = v.scratch.length
  output : w.output.length = v.output.length
  data : w.data.Perm v.data

/-- The data of `v` lie in `w` where they should, stably sorted. -/
structure Sorted (rank : α → Nat) (location : ResultLocation) (v w : SegmentView α) : Prop
    extends Kept v w where
  result : w.get location.side = stableSort rank v.data

theorem Kept.refl (v : SegmentView α) :
  Kept v v
  := ⟨rfl, rfl, rfl, .refl _⟩

theorem Kept.length_get {v w : SegmentView α} (h : v.Kept w) (side : Side) :
  (w.get side).length = (v.get side).length
  := by
  cases side with
  | input => exact congrArg (fun input => (input.getD []).length) h.input
  | scratch => apply h.scratch
  | output => apply h.output

/-- An empty view is sorted. -/
theorem Sorted.of_empty {v : SegmentView α} (hv : v.Balanced) (h : v.size = 0)
    (rank : α → Nat) (location : ResultLocation) :
  Sorted rank location v v
  := by
  have hdata : v.data = [] := by
    rw [← List.length_eq_zero_iff, hv.length_data, h]
  have hscratch : v.scratch = [] := by
    rw [← List.length_eq_zero_iff, hv.scratch, h]
  have houtput : v.output = [] := List.length_eq_zero_iff.mp h
  have hresult : stableSort rank v.data = [] := by
    rw [hdata, ← List.length_eq_zero_iff, length_stableSort, List.length_nil]
  use Kept.refl v
  rw [hresult]
  cases location with
  | primary => apply hscratch
  | alternate => apply houtput

/-- An empty view holds its sorted data wherever these should lie. -/
theorem put_of_empty {v : SegmentView α} (hv : v.Balanced) (h : v.size = 0)
    (rank : α → Nat) (location : ResultLocation) :
  v.put location.side (stableSort rank v.data) = v
  := by
  have hresult := (Sorted.of_empty hv h rank location).result
  rw [← hresult]
  cases location <;> rfl

/-- A view is sorted once the stable sort of its data has been put where it should lie. -/
theorem Sorted.put {v : SegmentView α} (hv : v.Balanced) (rank : α → Nat)
    (location : ResultLocation) :
  Sorted rank location v (v.put location.side (stableSort rank v.data))
  := by
  have hlength : (stableSort rank v.data).length = v.size := by
    rw [length_stableSort, hv.length_data]
  rcases v with ⟨input, scratch, output⟩
  cases location with
  | primary =>
      refine ⟨⟨rfl, hlength.trans hv.scratch.symm, rfl, ?_⟩, rfl⟩
      cases input with
      | none => apply stableSort_perm
      | some l => rfl
  | alternate =>
      refine ⟨⟨rfl, rfl, hlength, ?_⟩, rfl⟩
      rfl

/-! ### Several views -/

/-- What becomes of several views, if those in `short` have to fit a capacity: all are
sorted if all in `short` fit, and else one that does not fit is reported.  In either case
the data are kept. -/
structure Tried (rank : α → Nat) (location : ResultLocation) (capacity : Nat)
    (short views items : List (SegmentView α)) (result : Except Failure Unit) : Prop where
  kept : List.Forall₂ Kept views items
  sorted : (∀ v ∈ short, v.size ≤ capacity) →
    result = .ok () ∧ List.Forall₂ (Sorted rank location) views items
  failed : (∃ v ∈ short, capacity < v.size) → ∃ v ∈ short, capacity < v.size
    ∧ result = .error (.reported (.segmentOverCapacity v.size capacity))

variable {rank : α → Nat} {location : ResultLocation} {capacity : Nat}
  {short views items : List (SegmentView α)} {result : Except Failure Unit}

/-- Views of which all are sorted are tried, if no capacity is asked for. -/
theorem Tried.of_sorted (hok : result = .ok ())
    (hsorted : List.Forall₂ (Sorted rank location) views items) :
  Tried rank location capacity [] views items result
  where
  kept := hsorted.imp fun _ _ h => h.toKept
  sorted _ := ⟨hok, hsorted⟩
  failed := by
    rintro ⟨v, ⟨⟩, -⟩

/-- Only a segment that does not fit fails a sort. -/
theorem Tried.result_eq_ok_iff (h : Tried rank location capacity short views items result) :
  result = .ok () ↔ ∀ v ∈ short, v.size ≤ capacity
  := by
  constructor
  · intro hok v hv
    apply Nat.le_of_not_lt
    intro hlong
    obtain ⟨w, -, -, herror⟩ := h.failed ⟨v, hv, hlong⟩
    rw [hok] at herror
    cases herror
  · intro hfits
    exact (h.sorted hfits).1

end SegmentView

namespace Kernel

variable {κ : Kernel α} {stream : Stream} {debug : Bool} {views : List (SegmentView α)}

theorem items_dispatch (h : views ≠ []) :
  (κ.dispatch stream debug views).items = (κ.run stream debug views).items
  := by
  rw [dispatch, if_neg (by rwa [List.isEmpty_iff])]

theorem result_dispatch (h : views ≠ []) :
  (κ.dispatch stream debug views).outcome.result = (κ.run stream debug views).outcome.result
  := by
  rw [dispatch, if_neg (by rwa [List.isEmpty_iff])]
  apply Traced.result_bind

/-- The number of worker groups is recorded first. -/
theorem events_dispatch (h : views ≠ []) :
  (κ.dispatch stream debug views).outcome.events
    = .dispatched κ.name views.length (κ.groups views.length)
      :: (κ.run stream debug views).outcome.events
  := by
  rw [dispatch, if_neg (by rwa [List.isEmpty_iff])]
  rfl

end Kernel

end SegmentSort
