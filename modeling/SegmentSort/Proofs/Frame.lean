import SegmentSort.Proofs.Outcome

/-!
# Positions outside of the segments

Whatever becomes of a sort, no list that it writes is changed at a position that lies in none of
the segments (`agreeOutside_of_sort`); and nothing is written at all unless the segments are well
formed.  A double buffer is swapped as a whole, though, after an odd number of passes.  Outside
of the segments, its current list then shows what the alternate one held before
(`showsOutside_of_sort_ok`).
-/

namespace SegmentSort

namespace Segments

variable {α : Type}

/-- A position lies in none of the segments. -/
def Outside (s : Segments) (p : Nat) : Prop :=
  ∀ i < s.count, ∀ a, s.span? i = some a → ¬ (a.start ≤ p ∧ p < a.stop)

/-- Two lists hold the same at all positions outside of the segments. -/
def AgreeOutside (s : Segments) (before after : List α) : Prop :=
  ∀ p, s.Outside p → after[p]? = before[p]?

/-- Both lists of a double buffer hold the same outside of the segments as those of another
one. -/
structure BuffersAgree (s : Segments) (before after : DoubleBuffer α) : Prop where
  first : s.AgreeOutside before.first after.first
  second : s.AgreeOutside before.second after.second

variable {s : Segments}

theorem not_mem_of_outside {p : Nat} (h : s.Outside p) :
  ∀ a ∈ s.spans, ¬ (a.start ≤ p ∧ p < a.stop)
  := by
  intro a ha
  obtain ⟨i, hi, hspan⟩ := mem_spans_iff.mp ha
  apply h i hi a hspan

/-- Roles do not matter for what the lists of a double buffer hold. -/
theorem BuffersAgree.of_contents {b : DoubleBuffer α} {current alternate : List α}
    (hcurrent : s.AgreeOutside b.current current)
    (halternate : s.AgreeOutside b.alternate alternate) (location : ResultLocation) :
  s.BuffersAgree b (location.apply (b.withContents current alternate))
  := by
  rcases b with ⟨first, second, swapped⟩
  cases swapped with
  | false => cases location <;> exact ⟨hcurrent, halternate⟩
  | true => cases location <;> exact ⟨halternate, hcurrent⟩

end Segments

namespace SortCall

variable {t : KeyType} {ν : Type} [Element ν] {call : SortCall} {operands : Operands (Key t) ν}

/-- A run changes no list outside of the segments. -/
theorem run_outside (call : SortCall) (operands : Operands (Key t) ν)
    (location : ResultLocation) :
  call.segments.AgreeOutside (operands.columns location).keys
      ((call.run operands).operands.columns location).keys
    ∧ call.segments.AgreeOutside (operands.columns location).values
      ((call.run operands).operands.columns location).values
  := by
  rcases call.run_cases operands with ⟨hoperands, -⟩ |
    ⟨-, plan, map, work, hplan, hprepared, hoperands, -⟩
  · rw [hoperands]
    exact ⟨fun _ _ => rfl, fun _ _ => rfl⟩
  · obtain ⟨temporary, hready, -, hkept⟩ := hprepared.kept hplan
    obtain ⟨-, rfl, -⟩ := Segments.resolve_eq_ok_iff.mp hprepared.resolved
    have hagree : ∀ p, call.segments.Outside p → _ := fun p hp =>
      Operands.getElem?_withViews_of_outside hready hkept (Segments.not_mem_of_outside hp) location
    rw [hoperands]
    exact ⟨fun p hp => (hagree p hp).1, fun p hp => (hagree p hp).2⟩

/-- A run on segments that are not well formed leaves its operands as they are. -/
theorem run_of_not_wellFormed (h : ¬ call.segments.WellFormed operands.size) :
  (call.run operands).operands = operands ∧ (call.run operands).location = .primary
  := by
  rcases call.run_cases operands with ⟨hoperands, hlocation, -⟩ |
    ⟨-, plan, map, work, -, hprepared, -⟩
  · exact ⟨hoperands, hlocation⟩
  · cases h (Segments.exists_resolve_iff.mp ⟨map, hprepared.resolved⟩)

/-- A sort on segments that are not well formed changes no buffer. -/
theorem Yields.of_not_wellFormed {β σ : Type} {selectors : β → σ} {unchanged : β}
    {outcome : SortOutcome β} (h : call.Yields operands selectors unchanged outcome)
    (hsegments : ¬ call.segments.WellFormed operands.size) :
  outcome.buffers = unchanged
  := by
  obtain ⟨hoperands, hlocation⟩ := run_of_not_wellFormed hsegments
  apply h.buffers hoperands hlocation

end SortCall

open DoubleBuffer (operands pairs units)

theorem DoubleBuffer.buffersAgree_sortPairs {t : KeyType} {ν : Type} [Element ν]
    (call : SortCall) (keys : DoubleBuffer (Key t)) (values : DoubleBuffer ν) :
  call.segments.BuffersAgree keys (sortPairs call keys values).buffers.1
    ∧ call.segments.BuffersAgree values (sortPairs call keys values).buffers.2
  := by
  rw [buffers_sortPairs call keys values rfl]
  have hprimary := call.run_outside (operands keys values) .primary
  have halternate := call.run_outside (operands keys values) .alternate
  constructor
  · apply Segments.BuffersAgree.of_contents hprimary.1 halternate.1
  · apply Segments.BuffersAgree.of_contents hprimary.2 halternate.2

/-- No sort changes a list at a position outside of the segments, whatever becomes of it; and if
the segments are not well formed, it changes nothing. -/
theorem agreeOutside_of_sort (t : KeyType) (ν : Type) [Element ν] (call : SortCall) :
  (∀ input output : Columns (Key t) ν,
    call.segments.AgreeOutside output.keys (sortPairs call input output).buffers.keys
      ∧ call.segments.AgreeOutside output.values (sortPairs call input output).buffers.values
      ∧ (¬ call.segments.WellFormed input.keys.length →
        (sortPairs call input output).buffers = output))
  ∧ (∀ input output : List (Key t),
    call.segments.AgreeOutside output (sortKeys call input output).buffers
      ∧ (¬ call.segments.WellFormed input.length → (sortKeys call input output).buffers = output))
  ∧ (∀ (keys : DoubleBuffer (Key t)) (values : DoubleBuffer ν),
    call.segments.BuffersAgree keys (DoubleBuffer.sortPairs call keys values).buffers.1
      ∧ call.segments.BuffersAgree values (DoubleBuffer.sortPairs call keys values).buffers.2
      ∧ (¬ call.segments.WellFormed keys.size →
        (DoubleBuffer.sortPairs call keys values).buffers = (keys, values)))
  ∧ ∀ keys : DoubleBuffer (Key t),
    call.segments.BuffersAgree keys (DoubleBuffer.sortKeys call keys).buffers
      ∧ (¬ call.segments.WellFormed keys.size →
        (DoubleBuffer.sortKeys call keys).buffers = keys)
  := by
  refine ⟨?_, ?_, ?_, ?_⟩
  · intro input output
    have hagree := call.run_outside (.separate input output) .alternate
    rw [← Run.outputColumns_eq] at hagree
    exact ⟨hagree.1, hagree.2, (yields_sortPairs call input output).of_not_wellFormed⟩
  · intro input output
    have hagree := call.run_outside (keyOperands input output) .alternate
    rw [← Run.outputColumns_eq] at hagree
    exact ⟨hagree.1, (yields_sortKeys call input output).of_not_wellFormed⟩
  · intro keys values
    obtain ⟨hkeys, hvalues⟩ := DoubleBuffer.buffersAgree_sortPairs call keys values
    exact ⟨hkeys, hvalues, (DoubleBuffer.yields_sortPairs call keys values).of_not_wellFormed⟩
  · intro keys
    rw [(DoubleBuffer.sortKeys_eq call keys).2]
    use (DoubleBuffer.buffersAgree_sortPairs call keys keys.units).1
    intro hsegments
    rw [← (DoubleBuffer.sortKeys_eq call keys).2]
    apply (DoubleBuffer.yields_sortKeys call keys).of_not_wellFormed hsegments

/-- The sample with a segment that does not reach beyond the second key. -/
def SortCall.gapSample : SortCall :=
  { SortCall.sample with segments := ⟨1, #[0], #[2]⟩ }

/-- The items of the sample from the last one to the first one. -/
def Columns.reversedSample : Columns (Key (.unsigned .w8)) UInt8 where
  keys := Columns.sample.keys.reverse
  values := Columns.sample.values.reverse

set_option maxRecDepth 20000 in
/-- The first two keys are sorted; the fourth one is outside of the segment, and stays. -/
theorem agreeOutside_sample :
  (sortPairs SortCall.gapSample Columns.sample Columns.reversedSample).result = .ok ()
    ∧ (sortPairs SortCall.gapSample Columns.sample Columns.reversedSample).buffers.keys.take 2
      = [⟨6⟩, ⟨1⟩]
    ∧ (sortPairs SortCall.gapSample Columns.sample Columns.reversedSample).buffers.keys[3]?
      = Columns.reversedSample.keys[3]?
    ∧ (sortPairs SortCall.gapSample Columns.sample Columns.reversedSample).buffers.values[3]?
      = Columns.reversedSample.values[3]?
  := by
  have houtside : SortCall.gapSample.segments.Outside 3 := by
    intro i hi a ha
    obtain rfl : i = 0 := Nat.lt_one_iff.mp hi
    obtain rfl := Option.some.inj ha
    decide
  obtain ⟨hkeys, hvalues, -⟩ := (agreeOutside_of_sort _ _ SortCall.gapSample).1 Columns.sample
    Columns.reversedSample
  exact ⟨by cbv, by cbv, hkeys 3 houtside, hvalues 3 houtside⟩

/-! ### What a double buffer shows outside of the segments -/

namespace SortCall

variable {t : KeyType} {ν : Type} [Element ν] {call : SortCall} {operands : Operands (Key t) ν}

/-- Outside of the segments, a double buffer shows the same after a sort that succeeds as before
if the sort does nothing or takes an even number of passes.  If it takes an odd number, the
buffer shows what its alternate list held. -/
structure ShowsOutside {α : Type} (call : SortCall) (passes : Option Nat)
    (before after : DoubleBuffer α) : Prop where
  idle : call.storage = none ∨ call.segments.count = 0 →
    call.segments.AgreeOutside before.current after.current
  even : ∀ n, passes = some n → n % 2 = 0 →
    call.segments.AgreeOutside before.current after.current
  odd : call.storage ≠ none → call.segments.count ≠ 0 → ∀ n, passes = some n → n % 2 = 1 →
    call.segments.AgreeOutside before.alternate after.current

/-- A run on double buffers that succeeds tells the alternate lists precisely if it sorts with an
odd number of passes. -/
theorem location_eq_alternate_iff (hdouble : operands.isDoubleBuffer = true)
    (h : (call.run operands).trace.result.map (fun _ => ()) = .ok ()) {n : Nat}
    (hn : call.passes? t ν = some n) :
  (call.run operands).location = .alternate
    ↔ call.storage ≠ none ∧ call.segments.count ≠ 0 ∧ n % 2 = 1
  := by
  by_cases hidle : call.storage = none ∨ call.segments.count = 0
  · rw [location_eq_primary (hidle.imp_right .inl)]
    constructor
    · rintro ⟨⟩
    · rintro ⟨hstorage, hcount, -⟩
      rcases hidle with hnone | hzero
      · cases hstorage hnone
      · cases hcount hzero
  · rw [not_or] at hidle
    obtain ⟨location, hlocation⟩ := exists_location h hidle.1 hidle.2
    obtain ⟨⟨plan, hplan, rfl⟩, -⟩ := run_sorted hlocation
    rw [hplan.passes?] at hn
    obtain rfl := Option.some.inj hn
    rw [Run.location, hlocation]
    dsimp only
    rw [hplan.location_eq_alternate_iff hdouble]
    exact ⟨fun hodd => ⟨hidle.1, hidle.2, hodd⟩, fun hall => hall.2.2⟩

/-- What a double buffer shows is decided by the location that the run tells. -/
theorem ShowsOutside.of_agree {α : Type} {before after : DoubleBuffer α}
    (hdouble : operands.isDoubleBuffer = true)
    (h : (call.run operands).trace.result.map (fun _ => ()) = .ok ())
    (hagree : call.segments.AgreeOutside
      ((call.run operands).location.apply before).current after.current) :
  call.ShowsOutside (call.passes? t ν) before after
  := by
  constructor
  · intro hidle
    rwa [location_eq_primary (hidle.imp_right .inl)] at hagree
  · intro n hn heven
    cases hlocation : (call.run operands).location with
    | primary => rwa [hlocation] at hagree
    | alternate =>
        obtain ⟨-, -, hodd⟩ := (location_eq_alternate_iff hdouble h hn).mp hlocation
        omega
  · intro hstorage hcount n hn hodd
    rwa [(location_eq_alternate_iff hdouble h hn).mpr ⟨hstorage, hcount, hodd⟩,
      ResultLocation.current_apply] at hagree

end SortCall

namespace DoubleBuffer

variable {t : KeyType} {ν : Type}

/-- The columns at a location are what would be current if the result lay there. -/
theorem columns_operands (keys : DoubleBuffer (Key t)) (values : DoubleBuffer ν)
    (location : ResultLocation) :
  (operands keys values).columns location
    = ⟨(location.apply keys).current, (location.apply values).current⟩
  := by
  rw [ResultLocation.current_apply, ResultLocation.current_apply]
  cases location <;> rfl

theorem showsOutside_sortPairs [Element ν] {call : SortCall} {keys : DoubleBuffer (Key t)}
    {values : DoubleBuffer ν} (h : (sortPairs call keys values).result = .ok ()) :
  call.ShowsOutside (call.passes? t ν) keys (sortPairs call keys values).buffers.1
    ∧ call.ShowsOutside (call.passes? t ν) values (sortPairs call keys values).buffers.2
  := by
  rw [result_sortPairs] at h
  have hagree := call.run_outside (operands keys values) (call.run (operands keys values)).location
  rw [← keys_sortPairs, ← values_sortPairs, columns_operands] at hagree
  exact ⟨.of_agree rfl h hagree.1, .of_agree rfl h hagree.2⟩

end DoubleBuffer

/-- Outside of the segments, double buffers are not sorted, but swapped like the rest of the
lists: after an odd number of passes, they show what the alternate lists held. -/
theorem showsOutside_of_sort_ok (t : KeyType) (ν : Type) [Element ν] (call : SortCall) :
  (∀ (keys : DoubleBuffer (Key t)) (values : DoubleBuffer ν),
    (DoubleBuffer.sortPairs call keys values).result = .ok () →
    call.ShowsOutside (call.passes? t ν) keys (DoubleBuffer.sortPairs call keys values).buffers.1
      ∧ call.ShowsOutside (call.passes? t ν) values
        (DoubleBuffer.sortPairs call keys values).buffers.2)
  ∧ ∀ keys : DoubleBuffer (Key t), (DoubleBuffer.sortKeys call keys).result = .ok () →
    call.ShowsOutside (call.passes? t Unit) keys (DoubleBuffer.sortKeys call keys).buffers
  := by
  constructor
  · intro keys values
    apply DoubleBuffer.showsOutside_sortPairs
  · intro keys h
    rw [(DoubleBuffer.sortKeys_eq call keys).1] at h
    rw [(DoubleBuffer.sortKeys_eq call keys).2]
    apply (DoubleBuffer.showsOutside_sortPairs h).1

/-- A sort of the first two of three keys by one pass. -/
def SortCall.swappingSample : SortCall where
  storage := some (.zeroed 4)
  segments := ⟨1, #[0], #[2]⟩
  options := { SortOptions.standard.withBits 0 2 with config := some ⟨2, 1, ⟨1, 1⟩, none⟩ }
  direction := .ascending
  stream := .sequential 1

/-- Three keys of 8 bits, and an alternate list that holds something else. -/
def DoubleBuffer.threeKeys : DoubleBuffer (Key (.unsigned .w8)) :=
  .ofLists [⟨3⟩, ⟨1⟩, ⟨2⟩] [⟨7⟩, ⟨7⟩, ⟨7⟩]

set_option maxRecDepth 20000 in
/-- Since one is an odd number of passes, the sample shows what the alternate list held. -/
theorem showsOutside_sample :
  (DoubleBuffer.sortKeys SortCall.swappingSample DoubleBuffer.threeKeys).result = .ok ()
    ∧ SortCall.swappingSample.ShowsOutside
      (SortCall.swappingSample.passes? (.unsigned .w8) Unit) DoubleBuffer.threeKeys
      (DoubleBuffer.sortKeys SortCall.swappingSample DoubleBuffer.threeKeys).buffers
  := by
  have hok : (DoubleBuffer.sortKeys SortCall.swappingSample DoubleBuffer.threeKeys).result
      = .ok () := by
    cbv
  use hok
  apply (showsOutside_of_sort_ok _ Unit SortCall.swappingSample).2 _ hok

set_option maxRecDepth 20000 in
/-- The third key lies outside of the segment, but it is no longer in the current list. -/
theorem current_ne_outside :
  (DoubleBuffer.sortKeys SortCall.swappingSample DoubleBuffer.threeKeys).result = .ok ()
    ∧ SortCall.swappingSample.segments.Outside 2
    ∧ DoubleBuffer.threeKeys.current[2]? = some ⟨2⟩
    ∧ (DoubleBuffer.sortKeys SortCall.swappingSample DoubleBuffer.threeKeys).buffers.current[2]?
      = some ⟨7⟩
  := by
  refine ⟨by cbv, ?_, rfl, by cbv⟩
  intro i hi a ha
  obtain rfl : i = 0 := Nat.lt_one_iff.mp hi
  obtain rfl := Option.some.inj ha
  decide

end SegmentSort
