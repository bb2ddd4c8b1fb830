import SegmentSort.Proofs.Prepare
import SegmentSort.Sort

/-!
# What a run leaves

A run leaves its operands as they are, unless it comes to hand its work to the kernels
(`SortCall.run_cases`).  If it succeeds then, every segment is sorted at the location that it
tells (`SortCall.run_sorted`); and whether it succeeds or not, every segment of a double
buffer holds the same items as before where the caller reads it (`SortCall.run_perm`).
-/

namespace SegmentSort

/-- Every segment lies within a list, and in another list it is sorted. -/
def Segments.SortedIn {α : Type} (segments : Segments) (rank : α → Nat) (before after : List α) :
    Prop :=
  ∀ i < segments.count, ∃ s, segments.span? i = some s ∧ s.start ≤ s.stop
    ∧ s.stop ≤ before.length ∧ s.slice after = stableSort rank (s.slice before)

namespace Segments.SortedIn

variable {α : Type} {segments : Segments} {rank : α → Nat} {before after after' : List α}

theorem slice (h : segments.SortedIn rank before after) :
  ∀ s ∈ segments.spans, s.slice after = stableSort rank (s.slice before)
  := by
  intro s hs
  obtain ⟨i, hi, hspan⟩ := Segments.mem_spans_iff.mp hs
  obtain ⟨s', hspan', -, -, hsorted⟩ := h i hi
  rw [hspan] at hspan'
  obtain rfl := Option.some.inj hspan'
  apply hsorted

/-- There is one way only to sort the segments. -/
theorem slice_eq (h : segments.SortedIn rank before after)
    (h' : segments.SortedIn rank before after') :
  ∀ s ∈ segments.spans, s.slice after' = s.slice after
  := by
  intro s hs
  rw [h.slice s hs, h'.slice s hs]

theorem perm (h : segments.SortedIn rank before after) :
  ∀ s ∈ segments.spans, (s.slice after).Perm (s.slice before)
  := by
  intro s hs
  rw [h.slice s hs]
  apply stableSort_perm

/-- What is sorted by something that items have in common with others is sorted as these. -/
theorem map {β : Type} {rank : β → Nat} (f : α → β)
    (h : segments.SortedIn (fun a => rank (f a)) before after) :
  segments.SortedIn rank (before.map f) (after.map f)
  := by
  intro i hi
  obtain ⟨s, hspan, hle, hstop, hsorted⟩ := h i hi
  refine ⟨s, hspan, hle, ?_, ?_⟩
  · rwa [List.length_map]
  · rw [← Span.map_slice, ← Span.map_slice, hsorted, map_stableSort]

end Segments.SortedIn

namespace SortCall

variable {t : KeyType} {ν : Type} [Element ν]

/-- The number by which a call sorts keys: the selected bits of their code in the direction
of the sort. -/
def rank (call : SortCall) (k : Key t) : Nat :=
  masked (k.sortCode call.direction) call.options.beginBit (call.options.endBit.getD t.bits)

variable {call : SortCall} {operands : Operands (Key t) ν} {plan : Plan}

/-- A result that does not lie where the data lay before belongs to a double buffer. -/
theorem Planned.location (h : call.Planned operands plan) :
  operands.isDoubleBuffer = true ∨ plan.placement.result = .alternate
  := by
  obtain ⟨n, hn⟩ := Schedule.exists_count_eq_succ h.beginBit_lt_endBit h.tiles
  cases hmode : operands.isDoubleBuffer with
  | true => exact .inl rfl
  | false =>
      right
      rw [h.placement, hn, hmode, Placement.result_ofCount_false]

/-- What the kernels leave of prepared work. -/
def launched (call : SortCall) (plan : Plan) (work : Work (Key t × ν)) :
    Launched (SegmentView (Key t × ν)) :=
  work.dispatch plan call.code call.stream call.options.debug

variable {map : SegmentMap} {work : Work (Key t × ν)}

/-- The operands are ready for the segments, and the work is on the views of these. -/
theorem Prepared.ready (h : call.Prepared operands map work)
    (hplan : call.Planned operands plan) :
  ∃ temporary, operands.Ready temporary map
    ∧ work.views = map.spans.map (operands.view temporary)
  := by
  obtain ⟨temporary, htemporary, hviews⟩ := h.views
  obtain ⟨-, -, hfits⟩ := Segments.resolve_eq_ok_iff.mp h.resolved
  exact ⟨temporary, ⟨hplan.lengths, htemporary, hfits⟩, hviews⟩

/-- Prepared work is sorted by the ranks of the call, unless a segment is too long for the
insertion sorts. -/
theorem Prepared.tried (h : call.Prepared operands map work)
    (hplan : call.Planned operands plan) :
  SegmentView.Tried (fun a => call.rank a.1) plan.placement.result work.capacity work.short
    work.views (call.launched plan work).items (call.launched plan work).outcome.result
  := by
  obtain ⟨temporary, hready, hviews⟩ := h.ready hplan
  obtain ⟨hbegin, hend, hbits, -⟩ := SortOptions.bitRange_eq_ok hplan.bits
  have htried := work.tried_dispatch h.whole hbits hplan.tiles (by
    intro v hv
    rw [hviews] at hv
    obtain ⟨s, hs, rfl⟩ := List.mem_map.mp hv
    have hshows := Operands.shows_view hready hs
    refine ⟨hshows.balanced, ?_⟩
    rw [hplan.placement, hshows.mode]) call.code call.stream call.options.debug
  rw [hbegin, hend] at htried
  apply htried

/-- The kernels keep the views of all segments. -/
theorem Prepared.kept (h : call.Prepared operands map work)
    (hplan : call.Planned operands plan) :
  ∃ temporary, operands.Ready temporary map
    ∧ work.views = map.spans.map (operands.view temporary)
    ∧ List.Forall₂ (fun s w => (operands.view temporary s).Kept w) map.spans
      (call.launched plan work).items
  := by
  obtain ⟨temporary, hready, hviews⟩ := h.ready hplan
  have hkept := (h.tried hplan).kept
  rw [hviews, List.forall₂_map_left_iff] at hkept
  exact ⟨temporary, hready, hviews, hkept⟩

/-- The kernels keep the number of items. -/
theorem Prepared.length_items (h : call.Prepared operands map work)
    (hplan : call.Planned operands plan) {location : ResultLocation}
    (hlocation : operands.isDoubleBuffer = true ∨ location = .alternate) :
  ((operands.withViews map (call.launched plan work).items).columns location).items.length
    = operands.data.length
  := by
  obtain ⟨temporary, hready, -, hkept⟩ := h.kept hplan
  rw [(Operands.slice_withViews hready hkept hlocation).1, Operands.data,
    Operands.length_items_columns hplan.lengths]

/-- If the kernels succeed, every segment is sorted at the location of the result. -/
theorem Prepared.sorted (h : call.Prepared operands map work)
    (hplan : call.Planned operands plan)
    (hok : (call.launched plan work).outcome.result = .ok ()) :
  call.segments.SortedIn (fun a => call.rank a.1) operands.data
    ((operands.withViews map (call.launched plan work).items).columns plan.placement.result).items
  := by
  obtain ⟨temporary, hready, hviews, hkept⟩ := h.kept hplan
  obtain ⟨hoffsets, rfl, hfits⟩ := Segments.resolve_eq_ok_iff.mp h.resolved
  have htried := h.tried hplan
  obtain ⟨-, hsorted⟩ := htried.sorted (htried.result_eq_ok_iff.mp hok)
  rw [hviews, List.forall₂_map_left_iff] at hsorted
  have hslices := Operands.forall_slice_withViews hready hkept hplan.location
    (R := fun s l => l = stableSort (fun a => call.rank a.1) (s.slice operands.data)) (by
      apply forall₂_imp_of_mem hsorted
      intro s hs w hw
      rw [hw.result, (Operands.shows_view hready hs).data])
  intro i hi
  have hspan := call.segments.getElem?_spans i
  rw [if_pos hi] at hspan
  have hget : i < call.segments.spans.length := by rwa [Segments.length_spans hoffsets]
  rw [List.getElem?_eq_getElem hget] at hspan
  have hmem := List.getElem_mem hget
  obtain ⟨hle, hstop⟩ := hfits.bounds _ hmem
  refine ⟨_, hspan.symm, hle, ?_, hslices _ hmem⟩
  rwa [Operands.data, Operands.length_items_columns hplan.lengths]

/-- Whatever the kernels do, every segment of a double buffer keeps its items in the current
lists. -/
theorem Prepared.perm (h : call.Prepared operands map work)
    (hplan : call.Planned operands plan) (hdouble : operands.isDoubleBuffer = true) :
  ∀ s ∈ map.spans,
    (s.slice ((operands.withViews map (call.launched plan work).items).columns .primary).items).Perm
      (s.slice operands.data)
  := by
  obtain ⟨temporary, hready, -, hkept⟩ := h.kept hplan
  apply Operands.forall_slice_withViews hready hkept (.inl hdouble)
    (R := fun s l => l.Perm (s.slice operands.data))
  apply forall₂_imp_of_mem hkept
  intro s hs w hw
  have hshows := Operands.shows_view hready hs
  have hdata : w.data = w.scratch := by
    have hmode := hshows.mode
    rw [hdouble, Option.isNone_iff_eq_none, ← hw.input] at hmode
    rw [SegmentView.data, hmode]
    rfl
  have hperm := hw.data
  rw [hdata, hshows.data] at hperm
  apply hperm

/-! ### Whole runs -/

/-- A call that has no plan fails. -/
theorem run_of_plan_error {e : Failure} (hplan : call.plan operands = .error e) :
  call.run operands = ⟨operands, none, .ofExcept (.error e)⟩
  := by
  rw [run, hplan]

/-- A call without storage reports the size that its plan requires. -/
theorem run_of_no_storage (hplan : call.plan operands = .ok plan) (hstorage : call.storage = none) :
  call.run operands = ⟨operands, some plan.layout.required, .ofExcept (.ok none)⟩
  := by
  rw [run, hplan]
  dsimp only
  rw [hstorage]

/-- A call without segments does nothing. -/
theorem run_of_no_segments {memory : Memory} (hplan : call.plan operands = .ok plan)
    (hstorage : call.storage = some memory) (hcount : call.segments.count = 0) :
  call.run operands = ⟨operands, none, .ofExcept (.ok none)⟩
  := by
  rw [run, hplan]
  dsimp only
  rw [hstorage]
  apply if_pos hcount

/-- A call with storage and segments that is planned is executed. -/
theorem run_eq_execute {memory : Memory} (hplan : call.plan operands = .ok plan)
    (hstorage : call.storage = some memory) (hcount : call.segments.count ≠ 0) :
  call.run operands = call.execute plan operands memory
  := by
  rw [run, hplan]
  dsimp only
  rw [hstorage]
  apply if_neg hcount

/-- A sort that cannot be prepared writes nothing. -/
theorem execute_of_error {memory : Memory} {e : Failure}
    (h : (call.prepare plan operands memory).result = .error e) :
  (call.execute plan operands memory).operands = operands
    ∧ (call.execute plan operands memory).trace.result = .error e
  := by
  rw [execute, h]
  exact ⟨rfl, rfl⟩

/-- A sort that is prepared hands its work to the kernels. -/
theorem execute_of_ok {memory : Memory}
    (h : (call.prepare plan operands memory).result = .ok (map, work)) :
  (call.execute plan operands memory).operands
      = operands.withViews map (call.launched plan work).items
    ∧ (call.execute plan operands memory).trace.result
      = (call.launched plan work).outcome.result.map fun _ => some plan.placement.result
  := by
  have hexecute : call.execute plan operands memory = {
      operands := operands.withViews map (call.launched plan work).items
      reportedSize := none
      trace := do
        let _ ← call.prepare plan operands memory
        (call.launched plan work).outcome
        return some plan.placement.result } := by
    rw [execute, h]
    rfl
  rw [hexecute]
  use rfl
  rw [Traced.result_bind, h]
  change ((call.launched plan work).outcome >>= _).result = _
  rw [Traced.result_bind]
  cases (call.launched plan work).outcome.result <;> rfl

/-- Work is sorted without fail if all segments take the same route. -/
theorem result_run_of_uniform {memory : Memory} (hplan : call.plan operands = .ok plan)
    (hstorage : call.storage = some memory) (hcount : call.segments.count ≠ 0)
    {views : List (SegmentView (Key t × ν))}
    (h : (call.prepare plan operands memory).result = .ok (map, .uniform views)) :
  (call.run operands).trace.result = .ok (some plan.placement.result)
  := by
  have hplanned := planned_of_plan hplan
  have hsorted := ((prepared_of_prepare hplanned h).tried hplanned).sorted (by rintro v ⟨⟩)
  rw [run_eq_execute hplan hstorage hcount, (execute_of_ok h).2, hsorted.1]
  rfl

/-- A run fails or does nothing and leaves its operands as they are, or its preparation
succeeds. -/
theorem run_prepares (call : SortCall) (operands : Operands (Key t) ν) :
  ((call.run operands).operands = operands ∧ (call.run operands).location = .primary
    ∧ ((∃ e, (call.run operands).trace.result = .error e)
      ∨ (call.run operands).trace.result = .ok none
        ∧ (call.storage = none ∨ call.segments.count = 0)))
  ∨ ∃ plan memory map work, call.plan operands = .ok plan ∧ call.storage = some memory
    ∧ call.segments.count ≠ 0 ∧ (call.prepare plan operands memory).result = .ok (map, work)
  := by
  cases hplan : call.plan operands with
  | error e =>
      left
      rw [run_of_plan_error hplan]
      exact ⟨rfl, rfl, .inl ⟨e, rfl⟩⟩
  | ok plan =>
      cases hstorage : call.storage with
      | none =>
          left
          rw [run_of_no_storage hplan hstorage]
          exact ⟨rfl, rfl, .inr ⟨rfl, .inl rfl⟩⟩
      | some memory =>
          by_cases hcount : call.segments.count = 0
          · left
            rw [run_of_no_segments hplan hstorage hcount]
            exact ⟨rfl, rfl, .inr ⟨rfl, .inr hcount⟩⟩
          · cases hprepare : (call.prepare plan operands memory).result with
            | error e =>
                left
                obtain ⟨hoperands, hresult⟩ := execute_of_error hprepare
                rw [run_eq_execute hplan hstorage hcount, Run.location, hresult]
                exact ⟨hoperands, rfl, .inl ⟨e, rfl⟩⟩
            | ok prepared =>
                right
                exact ⟨plan, memory, prepared.1, prepared.2, rfl, rfl, hcount, hprepare⟩

/-- A run fails or does nothing and leaves its operands as they are, or it hands prepared
work to the kernels. -/
theorem run_cases (call : SortCall) (operands : Operands (Key t) ν) :
  ((call.run operands).operands = operands ∧ (call.run operands).location = .primary
    ∧ ((∃ e, (call.run operands).trace.result = .error e)
      ∨ (call.run operands).trace.result = .ok none
        ∧ (call.storage = none ∨ call.segments.count = 0)))
  ∨ (call.storage ≠ none ∧ call.segments.count ≠ 0)
    ∧ ∃ plan map work, call.Planned operands plan ∧ call.Prepared operands map work
    ∧ (call.run operands).operands = operands.withViews map (call.launched plan work).items
    ∧ (call.run operands).trace.result
      = (call.launched plan work).outcome.result.map fun _ => some plan.placement.result
  := by
  rcases call.run_prepares operands with hidle |
    ⟨plan, memory, map, work, hplan, hstorage, hcount, hprepare⟩
  · left
    apply hidle
  · right
    have hplanned := planned_of_plan hplan
    rw [run_eq_execute hplan hstorage hcount, hstorage]
    refine ⟨⟨?_, hcount⟩, plan, map, work, hplanned, prepared_of_prepare hplanned hprepare,
      execute_of_ok hprepare⟩
    rintro ⟨⟩

/-- A run that tells a location has sorted every segment there. -/
theorem run_sorted {location : ResultLocation}
    (h : (call.run operands).trace.result = .ok (some location)) :
  (∃ plan, call.Planned operands plan ∧ location = plan.placement.result)
    ∧ call.segments.SortedIn (fun a => call.rank a.1) operands.data
      ((call.run operands).operands.columns location).items
    ∧ ((call.run operands).operands.columns location).Even
  := by
  rcases call.run_cases operands with ⟨-, -, ⟨e, he⟩ | ⟨hnone, -⟩⟩ |
    ⟨-, plan, map, work, hplan, hprepared, hoperands, hresult⟩
  · rw [h] at he
    cases he
  · rw [h] at hnone
    cases hnone
  · rw [hresult] at h
    cases hlaunched : (call.launched plan work).outcome.result with
    | error e =>
        rw [hlaunched] at h
        cases h
    | ok =>
        rw [hlaunched] at h
        obtain rfl := Option.some.inj (Except.ok.inj h)
        rw [hoperands]
        use ⟨plan, hplan, rfl⟩
        use hprepared.sorted hplan hlaunched
        rw [Operands.columns_withViews hplan.location]
        apply Columns.even_ofItems

/-- A sort that succeeds tells a location, unless there was nothing to sort. -/
theorem exists_location (h : (call.run operands).trace.result.map (fun _ => ()) = .ok ())
    (hstorage : call.storage ≠ none) (hcount : call.segments.count ≠ 0) :
  ∃ location, (call.run operands).trace.result = .ok (some location)
  := by
  rcases call.run_cases operands with ⟨-, -, ⟨e, he⟩ | ⟨-, hnone | hzero⟩⟩ |
    ⟨-, plan, map, work, -, -, -, hresult⟩
  · rw [he] at h
    cases h
  · cases hstorage hnone
  · cases hcount hzero
  · rw [hresult] at h ⊢
    cases hlaunched : (call.launched plan work).outcome.result with
    | error e =>
        rw [hlaunched] at h
        cases h
    | ok => exact ⟨_, rfl⟩

/-- A run that does nothing or fails tells no location. -/
theorem location_eq_primary (h : call.storage = none ∨ call.segments.count = 0
      ∨ (call.run operands).trace.result.map (fun _ => ()) ≠ .ok ()) :
  (call.run operands).location = .primary
  := by
  rcases call.run_cases operands with ⟨-, hlocation, -⟩ |
    ⟨⟨hstorage, hcount⟩, plan, map, work, -, -, -, hresult⟩
  · apply hlocation
  · rcases h with hnone | hzero | hfailed
    · cases hstorage hnone
    · cases hcount hzero
    · rw [hresult] at hfailed
      rw [Run.location, hresult]
      cases hlaunched : (call.launched plan work).outcome.result with
      | error e => rfl
      | ok =>
          rw [hlaunched] at hfailed
          cases hfailed rfl

/-- Where the caller of a double buffer reads, every segment holds the items that it held
before the run.  If the segments cover the lists, so do the lists. -/
theorem run_perm (call : SortCall) (hdouble : operands.isDoubleBuffer = true) :
  (∀ s ∈ call.segments.spans,
      (s.slice ((call.run operands).operands.columns (call.run operands).location).items).Perm
        (s.slice operands.data))
    ∧ (SegmentMap.Covers ⟨call.segments.spans⟩ operands.data.length →
      ((call.run operands).operands.columns (call.run operands).location).items.Perm
        operands.data)
  := by
  rcases call.run_cases operands with ⟨hoperands, hlocation, -⟩ |
    ⟨-, plan, map, work, hplan, hprepared, hoperands, hresult⟩
  · rw [hoperands, hlocation]
    exact ⟨fun _ _ => .refl _, fun _ => .refl _⟩
  · obtain ⟨-, rfl, hfits⟩ := Segments.resolve_eq_ok_iff.mp hprepared.resolved
    have hslices : ∀ s ∈ call.segments.spans,
        (s.slice ((call.run operands).operands.columns (call.run operands).location).items).Perm
          (s.slice operands.data) := by
      rw [Run.location, hoperands, hresult]
      cases hlaunched : (call.launched plan work).outcome.result with
      | error e => apply hprepared.perm hplan hdouble
      | ok => apply (hprepared.sorted hplan hlaunched).perm
    use hslices
    intro hcovers
    rw [← Operands.length_items_columns hplan.lengths .primary] at hfits
    apply hfits.perm_of_slices hcovers _ hslices
    rw [hoperands]
    apply hprepared.length_items hplan (.inl hdouble)

/-- Where the caller of a double buffer reads, there are as many keys as values if there were
before the run. -/
theorem run_even (call : SortCall) (hdouble : operands.isDoubleBuffer = true)
    (heven : (operands.columns .primary).Even) :
  ((call.run operands).operands.columns (call.run operands).location).Even
  := by
  rcases call.run_cases operands with ⟨hoperands, hlocation, -⟩ |
    ⟨-, plan, map, work, -, -, hoperands, -⟩
  · rw [hoperands, hlocation]
    apply heven
  · rw [hoperands, Operands.columns_withViews (.inl hdouble)]
    apply Columns.even_ofItems

end SortCall

end SegmentSort
