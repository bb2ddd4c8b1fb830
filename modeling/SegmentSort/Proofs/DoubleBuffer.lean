import SegmentSort.Proofs.Sort

/-!
# Sorts of double buffers

If a sort of double buffers succeeds, every segment is sorted where the buffers are current
afterwards, and the buffers have been swapped precisely if the number of passes is odd
(`DoubleBuffer.current_sortedIn_of_sort_ok`).  If it fails, the buffers are not swapped,
although some segments may have been sorted by then; but in any case every segment holds the
same keys and values as before, and so do the buffers, after any number of calls, if their
segments cover them (`DoubleBuffer.perm_of_sorts`).
-/

namespace SegmentSort

namespace ResultLocation

variable {α : Type}

/-- The list that is current once a location has been applied. -/
theorem current_apply (location : ResultLocation) (b : DoubleBuffer α) :
  (location.apply b).current
    = match location with
      | .primary => b.current
      | .alternate => b.alternate
  := by
  cases location with
  | primary => rfl
  | alternate => apply DoubleBuffer.current_swap

theorem swapped_apply (location : ResultLocation) (b : DoubleBuffer α) :
  (location.apply b).swapped ≠ b.swapped ↔ location = .alternate
  := by
  cases location with
  | primary => simp [apply]
  | alternate => simp [apply, DoubleBuffer.swap]

end ResultLocation

namespace SortCall

/-- The number of passes that a call takes, if there is a configuration for it. -/
def passes? (call : SortCall) (t : KeyType) (ν : Type) [Element ν] : Option Nat :=
  (call.config? (Key t) ν).map fun config =>
    ceilDiv (call.options.endBit.getD t.bits - call.options.beginBit) config.longBits

variable {t : KeyType} {ν : Type} [Element ν] {call : SortCall} {operands : Operands (Key t) ν}
  {plan : Plan}

theorem Planned.passes? (h : call.Planned operands plan) :
  call.passes? t ν = some plan.schedule.count
  := by
  obtain ⟨hbegin, hend, -, -⟩ := SortOptions.bitRange_eq_ok h.bits
  rw [SortCall.passes?, h.config, h.count_eq_ceilDiv, hbegin, hend]
  rfl

/-- The result of a sort of double buffers lies in the alternate lists precisely if the number
of passes is odd. -/
theorem Planned.location_eq_alternate_iff (h : call.Planned operands plan)
    (hdouble : operands.isDoubleBuffer = true) :
  plan.placement.result = .alternate ↔ plan.schedule.count % 2 = 1
  := by
  rw [h.placement, hdouble, Placement.result_ofCount_true]
  split
  · rename_i hodd
    simp [hodd]
  · rename_i heven
    simp [heven]

end SortCall

namespace DoubleBuffer

/-- The current keys, each with its current value. -/
def pairs {κ ν : Type} (keys : DoubleBuffer κ) (values : DoubleBuffer ν) : List (κ × ν) :=
  keys.current.zip values.current

variable {t : KeyType} {ν : Type}

/-- The operands of a sort of double buffers. -/
def operands (keys : DoubleBuffer (Key t)) (values : DoubleBuffer ν) : Operands (Key t) ν :=
  .doubleBuffer ⟨keys.current, values.current⟩ ⟨keys.alternate, values.alternate⟩

variable [Element ν] (call : SortCall) (keys : DoubleBuffer (Key t)) (values : DoubleBuffer ν)

theorem result_sortPairs :
  (sortPairs call keys values).result
    = (call.run (operands keys values)).trace.result.map fun _ => ()
  := rfl

/-- The buffers after a sort, by what the run leaves and where it says that the result lies. -/
theorem buffers_sortPairs {run : Run (Key t) ν} (hrun : call.run (operands keys values) = run) :
  (sortPairs call keys values).buffers
    = (run.location.apply (keys.withContents (run.operands.columns .primary).keys
        (run.operands.columns .alternate).keys),
      run.location.apply (values.withContents (run.operands.columns .primary).values
        (run.operands.columns .alternate).values))
  := by
  rw [← hrun, ← Run.inputColumns_eq, ← Run.outputColumns_eq]
  rfl

theorem withContents_self {α : Type} (b : DoubleBuffer α) :
  b.withContents b.current b.alternate = b
  := by
  rcases b with ⟨_, _, _ | _⟩ <;> rfl

/-- A run that leaves its operands as they are changes no buffer. -/
theorem buffers_sortPairs_eq
    (hoperands : (call.run (operands keys values)).operands = operands keys values)
    (hlocation : (call.run (operands keys values)).location = .primary) :
  (sortPairs call keys values).buffers = (keys, values)
  := by
  rw [buffers_sortPairs call keys values rfl, hlocation, hoperands]
  exact Prod.ext keys.withContents_self values.withContents_self

/-- What a caller reads afterwards lies where the run says. -/
theorem pairs_sortPairs :
  pairs (sortPairs call keys values).buffers.1 (sortPairs call keys values).buffers.2
    = ((call.run (operands keys values)).operands.columns
      (call.run (operands keys values)).location).items
  := by
  generalize hrun : call.run (operands keys values) = run
  rw [buffers_sortPairs call keys values hrun, pairs, ResultLocation.current_apply,
    ResultLocation.current_apply]
  cases run.location with
  | primary =>
      dsimp only
      rw [current_withContents, current_withContents]
      rfl
  | alternate =>
      dsimp only
      rw [alternate_withContents, alternate_withContents]
      rfl

/-- The same for the keys alone. -/
theorem keys_sortPairs :
  (sortPairs call keys values).buffers.1.current
    = ((call.run (operands keys values)).operands.columns
      (call.run (operands keys values)).location).keys
  := by
  generalize hrun : call.run (operands keys values) = run
  rw [buffers_sortPairs call keys values hrun, ResultLocation.current_apply]
  cases run.location with
  | primary => apply current_withContents
  | alternate => apply alternate_withContents

/-- The same for the values alone. -/
theorem values_sortPairs :
  (sortPairs call keys values).buffers.2.current
    = ((call.run (operands keys values)).operands.columns
      (call.run (operands keys values)).location).values
  := by
  generalize hrun : call.run (operands keys values) = run
  rw [buffers_sortPairs call keys values hrun, ResultLocation.current_apply]
  cases run.location with
  | primary => apply current_withContents
  | alternate => apply alternate_withContents

/-- The buffers are swapped precisely if the run says that the result lies in the alternate
lists. -/
theorem swapped_sortPairs :
  ((sortPairs call keys values).buffers.1.swapped ≠ keys.swapped
      ↔ (call.run (operands keys values)).location = .alternate)
    ∧ ((sortPairs call keys values).buffers.2.swapped ≠ values.swapped
      ↔ (call.run (operands keys values)).location = .alternate)
  := by
  generalize hrun : call.run (operands keys values) = run
  rw [buffers_sortPairs call keys values hrun]
  constructor
  · have h := run.location.swapped_apply (keys.withContents (run.operands.columns .primary).keys
      (run.operands.columns .alternate).keys)
    rwa [swapped_withContents] at h
  · have h := run.location.swapped_apply (values.withContents
      (run.operands.columns .primary).values (run.operands.columns .alternate).values)
    rwa [swapped_withContents] at h

/-- A sort of pairs that succeeds has sorted every segment, and swapped both buffers if it took
an odd number of passes. -/
theorem sortPairs_ok {call : SortCall} {keys : DoubleBuffer (Key t)} {values : DoubleBuffer ν}
    (hstorage : call.storage ≠ none) (hcount : call.segments.count ≠ 0)
    (h : (sortPairs call keys values).result = .ok ()) :
  call.segments.SortedIn (fun a => call.rank a.1) (pairs keys values)
      (pairs (sortPairs call keys values).buffers.1 (sortPairs call keys values).buffers.2)
    ∧ ∃ n, call.passes? t ν = some n
      ∧ ((sortPairs call keys values).buffers.1.swapped ≠ keys.swapped ↔ n % 2 = 1)
      ∧ ((sortPairs call keys values).buffers.2.swapped ≠ values.swapped ↔ n % 2 = 1)
  := by
  rw [result_sortPairs] at h
  obtain ⟨location, hlocation⟩ := SortCall.exists_location h hstorage hcount
  obtain ⟨⟨plan, hplan, rfl⟩, hsorted, -⟩ := SortCall.run_sorted hlocation
  have hrun : (call.run (operands keys values)).location = plan.placement.result := by
    rw [Run.location, hlocation]
  obtain ⟨hkeys, hvalues⟩ := swapped_sortPairs call keys values
  rw [hrun, hplan.location_eq_alternate_iff rfl] at hkeys hvalues
  rw [← hrun, ← pairs_sortPairs] at hsorted
  exact ⟨hsorted, _, hplan.passes?, hkeys, hvalues⟩

/-- A sort that does nothing or fails swaps no buffer. -/
theorem swapped_sortPairs_eq {call : SortCall} {keys : DoubleBuffer (Key t)}
    {values : DoubleBuffer ν}
    (h : call.storage = none ∨ call.segments.count = 0
      ∨ (sortPairs call keys values).result ≠ .ok ()) :
  (sortPairs call keys values).buffers.1.swapped = keys.swapped
    ∧ (sortPairs call keys values).buffers.2.swapped = values.swapped
  := by
  rw [result_sortPairs] at h
  have hlocation : (call.run (operands keys values)).location ≠ .alternate := by
    rw [SortCall.location_eq_primary h]
    rintro ⟨⟩
  obtain ⟨hkeys, hvalues⟩ := swapped_sortPairs call keys values
  constructor
  · by_contra hne
    apply hlocation (hkeys.mp hne)
  · by_contra hne
    apply hlocation (hvalues.mp hne)

/-! ### Keys alone -/

/-- Values that say nothing, as many as there are keys. -/
def units {κ : Type} (keys : DoubleBuffer κ) : DoubleBuffer Unit :=
  .ofLists (List.replicate keys.size ()) (List.replicate keys.size ())

/-- A sort of keys is a sort of pairs with values that say nothing. -/
theorem sortKeys_eq :
  (sortKeys call keys).result = (sortPairs call keys keys.units).result
    ∧ (sortKeys call keys).buffers = (sortPairs call keys keys.units).buffers.1
  := ⟨rfl, rfl⟩

theorem even_units :
  ((operands keys keys.units).columns .primary).Even
  := List.length_replicate

theorem map_pairs_units :
  (pairs keys keys.units).map Prod.fst = keys.current
  := (even_units keys).map_items

/-- The sorted keys are those of the sorted pairs. -/
theorem map_pairs_sortPairs :
  (pairs (sortPairs call keys keys.units).buffers.1
      (sortPairs call keys keys.units).buffers.2).map Prod.fst
    = (sortKeys call keys).buffers.current
  := by
  rw [pairs_sortPairs, (sortKeys_eq call keys).2, keys_sortPairs]
  apply (SortCall.run_even call rfl (even_units keys)).map_items

/-- A sort of keys that succeeds has sorted every segment, and swapped the buffer if it took
an odd number of passes. -/
theorem sortKeys_ok {call : SortCall} {keys : DoubleBuffer (Key t)}
    (hstorage : call.storage ≠ none) (hcount : call.segments.count ≠ 0)
    (h : (sortKeys call keys).result = .ok ()) :
  call.segments.SortedIn call.rank keys.current (sortKeys call keys).buffers.current
    ∧ ∃ n, call.passes? t Unit = some n
      ∧ ((sortKeys call keys).buffers.swapped ≠ keys.swapped ↔ n % 2 = 1)
  := by
  obtain ⟨hresult, hbuffers⟩ := sortKeys_eq call keys
  rw [hresult] at h
  obtain ⟨hsorted, n, hn, hswapped, -⟩ := sortPairs_ok hstorage hcount h
  have hkeys := hsorted.map Prod.fst
  rw [map_pairs_units, map_pairs_sortPairs] at hkeys
  rw [← hbuffers] at hswapped
  exact ⟨hkeys, n, hn, hswapped⟩

/-! ### What double buffers hold after a sort -/

/-- If a sort of double buffers with at least one segment and with temporary storage succeeds,
every segment of the current lists is the stable sort of what it was, by the bits that the
options select, and a buffer has been swapped precisely if the number of passes is odd.  A
call that asks for a size, has no segments or fails swaps no buffer. -/
theorem current_sortedIn_of_sort_ok (t : KeyType) (ν : Type) [Element ν] (call : SortCall) :
  (call.storage ≠ none → call.segments.count ≠ 0 →
    (∀ (keys : DoubleBuffer (Key t)) (values : DoubleBuffer ν),
      (sortPairs call keys values).result = .ok () →
      call.segments.SortedIn (fun a => call.rank a.1) (pairs keys values)
          (pairs (sortPairs call keys values).buffers.1 (sortPairs call keys values).buffers.2)
        ∧ ∃ n, call.passes? t ν = some n
          ∧ ((sortPairs call keys values).buffers.1.swapped ≠ keys.swapped ↔ n % 2 = 1)
          ∧ ((sortPairs call keys values).buffers.2.swapped ≠ values.swapped ↔ n % 2 = 1))
    ∧ ∀ keys : DoubleBuffer (Key t), (sortKeys call keys).result = .ok () →
      call.segments.SortedIn call.rank keys.current (sortKeys call keys).buffers.current
        ∧ ∃ n, call.passes? t Unit = some n
          ∧ ((sortKeys call keys).buffers.swapped ≠ keys.swapped ↔ n % 2 = 1))
  ∧ (∀ (keys : DoubleBuffer (Key t)) (values : DoubleBuffer ν),
    call.storage = none ∨ call.segments.count = 0 ∨ (sortPairs call keys values).result ≠ .ok () →
    (sortPairs call keys values).buffers.1.swapped = keys.swapped
      ∧ (sortPairs call keys values).buffers.2.swapped = values.swapped)
  ∧ ∀ keys : DoubleBuffer (Key t),
    call.storage = none ∨ call.segments.count = 0 ∨ (sortKeys call keys).result ≠ .ok () →
    (sortKeys call keys).buffers.swapped = keys.swapped
  := by
  refine ⟨?_, fun keys values => swapped_sortPairs_eq, ?_⟩
  · intro hstorage hcount
    constructor
    · intro keys values
      apply sortPairs_ok hstorage hcount
    · intro keys
      apply sortKeys_ok hstorage hcount
  · intro keys h
    obtain ⟨hresult, hbuffers⟩ := sortKeys_eq call keys
    rw [hresult] at h
    rw [hbuffers]
    apply (swapped_sortPairs_eq h).1

/-- Double buffers of which the second list of each is current. -/
def sampleKeys : DoubleBuffer (Key (.unsigned .w8)) where
  first := Columns.sample.keys.reverse
  second := Columns.sample.keys
  swapped := true

/-- The values that belong to the sample keys. -/
def sampleValues : DoubleBuffer UInt8 where
  first := Columns.sample.values
  second := Columns.sample.values.reverse
  swapped := false

set_option maxRecDepth 20000 in
/-- The sample is sorted by one pass, which swaps both buffers. -/
theorem current_sortedIn_sample :
  (sortPairs SortCall.sample sampleKeys sampleValues).result = .ok ()
    ∧ SortCall.sample.segments.SortedIn (fun a => SortCall.sample.rank a.1)
      (pairs sampleKeys sampleValues)
      (pairs (sortPairs SortCall.sample sampleKeys sampleValues).buffers.1
        (sortPairs SortCall.sample sampleKeys sampleValues).buffers.2)
  := by
  have hok : (sortPairs SortCall.sample sampleKeys sampleValues).result = .ok () := by
    cbv
  use hok
  have hstorage : SortCall.sample.storage ≠ none := by rintro ⟨⟩
  have hcount : SortCall.sample.segments.count ≠ 0 := by decide
  apply (((current_sortedIn_of_sort_ok _ _ SortCall.sample).1 hstorage hcount).1 _ _ hok).1

/-! ### No item is lost -/

/-- In every segment, the pairs afterwards are those before. -/
theorem perm_sortPairs :
  (∀ s ∈ call.segments.spans,
    (s.slice (pairs (sortPairs call keys values).buffers.1
      (sortPairs call keys values).buffers.2)).Perm (s.slice (pairs keys values)))
  ∧ (SegmentMap.Covers ⟨call.segments.spans⟩ (pairs keys values).length →
    (pairs (sortPairs call keys values).buffers.1 (sortPairs call keys values).buffers.2).Perm
      (pairs keys values))
  := by
  rw [pairs_sortPairs]
  apply SortCall.run_perm call rfl

/-- The same for the keys alone. -/
theorem perm_sortKeys :
  ∀ s ∈ call.segments.spans,
    (s.slice (sortKeys call keys).buffers.current).Perm (s.slice keys.current)
  := by
  intro s hs
  have hperm := ((perm_sortPairs call keys keys.units).1 s hs).map Prod.fst
  rwa [Span.map_slice, Span.map_slice, map_pairs_sortPairs, map_pairs_units] at hperm

/-- Calls for sorts of pairs, one after the other, whatever becomes of each of them. -/
def sorts (buffers : DoubleBuffer (Key t) × DoubleBuffer ν) (calls : List SortCall) :
    DoubleBuffer (Key t) × DoubleBuffer ν :=
  calls.foldl (fun buffers call => (sortPairs call buffers.1 buffers.2).buffers) buffers

theorem perm_sorts (calls : List SortCall) :
    ∀ buffers : DoubleBuffer (Key t) × DoubleBuffer ν,
      (∀ call ∈ calls, SegmentMap.Covers ⟨call.segments.spans⟩
        (pairs buffers.1 buffers.2).length) →
      (pairs (sorts buffers calls).1 (sorts buffers calls).2).Perm (pairs buffers.1 buffers.2) := by
  induction calls with
  | nil =>
      intro buffers _
      rfl
  | cons call calls ih =>
      intro buffers hcovers
      have hfirst := (perm_sortPairs call buffers.1 buffers.2).2 (hcovers call List.mem_cons_self)
      have hlater := ih (sortPairs call buffers.1 buffers.2).buffers (by
        intro call' hcall'
        rw [hfirst.length_eq]
        apply hcovers call' (List.mem_cons_of_mem call hcall'))
      apply hlater.trans hfirst

/-- Whatever becomes of a sort of double buffers, in every segment the current keys, or the
current keys with their values, are those before the call in some order.  So the whole lists
hold the same pairs, after any number of calls, if the segments of each call cover them. -/
theorem perm_of_sorts (t : KeyType) (ν : Type) [Element ν] :
  (∀ (call : SortCall) (keys : DoubleBuffer (Key t)) (values : DoubleBuffer ν),
    ∀ i < call.segments.count, ∀ s, call.segments.span? i = some s →
      (s.slice (pairs (sortPairs call keys values).buffers.1
        (sortPairs call keys values).buffers.2)).Perm (s.slice (pairs keys values)))
  ∧ (∀ (call : SortCall) (keys : DoubleBuffer (Key t)),
    ∀ i < call.segments.count, ∀ s, call.segments.span? i = some s →
      (s.slice (sortKeys call keys).buffers.current).Perm (s.slice keys.current))
  ∧ ∀ (calls : List SortCall) (keys : DoubleBuffer (Key t)) (values : DoubleBuffer ν),
    (∀ call ∈ calls, ∀ j < keys.size, ∃ i < call.segments.count, ∃ s,
      call.segments.span? i = some s ∧ s.start ≤ j ∧ j < s.stop) →
    (pairs (sorts (keys, values) calls).1 (sorts (keys, values) calls).2).Perm
      (pairs keys values)
  := by
  refine ⟨?_, ?_, ?_⟩
  · intro call keys values i hi s hspan
    apply (perm_sortPairs call keys values).1 s
    apply Segments.mem_spans_iff.mpr ⟨i, hi, hspan⟩
  · intro call keys i hi s hspan
    apply perm_sortKeys call keys s
    apply Segments.mem_spans_iff.mpr ⟨i, hi, hspan⟩
  · intro calls keys values hcovers
    apply perm_sorts calls (keys, values)
    intro call hcall j hj
    have hsize : j < keys.size := by
      rw [pairs, List.length_zip] at hj
      exact Nat.lt_of_lt_of_le hj (Nat.min_le_left _ _)
    obtain ⟨i, hi, s, hspan, hin⟩ := hcovers call hcall j hsize
    use s, Segments.mem_spans_iff.mpr ⟨i, hi, hspan⟩

/-- The sample, and then a query for the size of the storage. -/
theorem perm_sample :
  let calls : List SortCall := [SortCall.sample, { SortCall.sample with storage := none }]
  (pairs (sorts (sampleKeys, sampleValues) calls).1
      (sorts (sampleKeys, sampleValues) calls).2).Perm (pairs sampleKeys sampleValues)
  := by
  intro calls
  apply (perm_of_sorts _ _).2.2 calls
  intro call hcall j hj
  have hsegments : call.segments = .ofOffsets #[0, 3, 5] := by
    rcases List.mem_cons.mp hcall with rfl | hcall
    · rfl
    · rw [List.mem_singleton.mp hcall]
      rfl
  rw [hsegments]
  change j < 5 at hj
  rcases Nat.lt_or_ge j 3 with hlow | hhigh
  · exact ⟨0, by decide, ⟨0, 3⟩, rfl, Nat.zero_le j, hlow⟩
  · exact ⟨1, by decide, ⟨3, 5⟩, rfl, hhigh, hj⟩

end DoubleBuffer

end SegmentSort
