import Mathlib
import SegmentSort.Proofs.Run

/-!
# Sorts with a separate output

If a sort with a separate output succeeds, then every segment of the output is the stable
sort of the segment of the input (`sortedIn_of_sort_ok`).  What it is sorted by are the
selected bits of the keys in the direction of the sort; neither the configuration nor the
partitioner nor the order in which worker groups run plays a part in it.
-/

namespace SegmentSort

namespace Run

variable {κ ν : Type}

theorem outputColumns_eq (r : Run κ ν) :
  r.outputColumns = r.operands.columns .alternate
  := by
  rw [outputColumns]
  cases r.operands <;> rfl

theorem inputColumns_eq (r : Run κ ν) :
  r.inputColumns = r.operands.columns .primary
  := by
  rw [inputColumns]
  cases r.operands <;> rfl

end Run

variable {t : KeyType} {ν : Type} [Element ν]

/-- A sort of pairs that succeeds has sorted every segment of the output. -/
theorem sortPairs_ok {call : SortCall} {input output : Columns (Key t) ν}
    (hstorage : call.storage ≠ none) (h : (sortPairs call input output).result = .ok ()) :
  call.segments.SortedIn (fun a => call.rank a.1) input.items
      (sortPairs call input output).buffers.items
    ∧ (call.segments.count ≠ 0 → (sortPairs call input output).buffers.Even)
  := by
  by_cases hcount : call.segments.count = 0
  · constructor
    · intro i hi
      omega
    · intro hne
      cases hne hcount
  · obtain ⟨location, hlocation⟩ := SortCall.exists_location h hstorage hcount
    obtain ⟨⟨plan, hplan, rfl⟩, hsorted, heven⟩ := SortCall.run_sorted hlocation
    have halternate : plan.placement.result = .alternate := by
      rcases hplan.location with hdouble | halternate
      · cases hdouble
      · apply halternate
    rw [halternate, ← Run.outputColumns_eq] at hsorted heven
    exact ⟨hsorted, fun _ => heven⟩

/-- So has a sort of keys, which is a sort of pairs with values that say nothing. -/
theorem sortKeys_ok {call : SortCall} {input output : List (Key t)}
    (hstorage : call.storage ≠ none) (h : (sortKeys call input output).result = .ok ()) :
  call.segments.SortedIn call.rank input (sortKeys call input output).buffers
  := by
  intro i hi
  let values : List Unit := List.replicate input.length ()
  have hinput : Columns.Even ⟨input, values⟩ := List.length_replicate
  have hpairs : (sortPairs call ⟨input, values⟩ ⟨output, values⟩).result = .ok () := h
  obtain ⟨hsorted, heven⟩ := sortPairs_ok hstorage hpairs
  have hkeys := hsorted.map Prod.fst
  rw [hinput.map_items, (heven (by omega)).map_items] at hkeys
  apply hkeys i hi

/-- If a sort with a separate output and with temporary storage succeeds, then every segment
of the output is the stable sort of that segment of the input, by the bits that the options
select.  Two calls that succeed on one input and agree in the segments, the direction and the
bits therefore leave the same segments, however else they differ. -/
theorem sortedIn_of_sort_ok (t : KeyType) (ν : Type) [Element ν] (call : SortCall)
    (memory : Memory) (hstorage : call.storage = some memory) :
  (∀ input output : Columns (Key t) ν, (sortPairs call input output).result = .ok () →
    call.segments.SortedIn (fun a => call.rank a.1) input.items
      (sortPairs call input output).buffers.items)
  ∧ (∀ input output : List (Key t), (sortKeys call input output).result = .ok () →
    call.segments.SortedIn call.rank input (sortKeys call input output).buffers)
  ∧ ∀ (call' : SortCall) (memory' : Memory) (input output output' : Columns (Key t) ν),
    call'.storage = some memory' → call'.segments = call.segments →
      call'.direction = call.direction → call'.options.beginBit = call.options.beginBit →
      call'.options.endBit = call.options.endBit →
      (sortPairs call input output).result = .ok () →
      (sortPairs call' input output').result = .ok () →
      ∀ s ∈ call.segments.spans, s.slice (sortPairs call' input output').buffers.items
        = s.slice (sortPairs call input output).buffers.items
  := by
  have hsome : ∀ {call : SortCall} {memory : Memory},
      call.storage = some memory → call.storage ≠ none := by
    intro call memory h
    rw [h]
    rintro ⟨⟩
  refine ⟨fun input output h => (sortPairs_ok (hsome hstorage) h).1,
    fun input output => sortKeys_ok (hsome hstorage), ?_⟩
  intro call' memory' input output output' hstorage' hsegments hdirection hbegin hend h h'
  have hrank : (fun a : Key t × ν => call'.rank a.1) = fun a => call.rank a.1 := by
    funext a
    rw [SortCall.rank, SortCall.rank, hdirection, hbegin, hend]
  have hsorted' := (sortPairs_ok (hsome hstorage') h').1
  rw [hsegments, hrank] at hsorted'
  apply (sortPairs_ok (hsome hstorage) h).1.slice_eq hsorted'

/-- A descending sort of two segments by the two lowest bits of the keys. -/
def SortCall.sample : SortCall where
  storage := some (.zeroed 512)
  segments := .ofOffsets #[0, 3, 5]
  options := { SortOptions.standard.withBits 0 2 with config := some ⟨2, 1, ⟨1, 1⟩, none⟩ }
  direction := .descending
  stream := .sequential 1

/-- Keys of 8 bits with numbers as values. -/
def Columns.sample : Columns (Key (.unsigned .w8)) UInt8 where
  keys := [⟨1⟩, ⟨6⟩, ⟨2⟩, ⟨0⟩, ⟨3⟩]
  values := [10, 20, 30, 40, 50]

set_option maxRecDepth 20000 in
/-- The sample is sorted. -/
theorem sortedIn_sample :
  (sortPairs SortCall.sample Columns.sample Columns.sample).result = .ok ()
    ∧ SortCall.sample.segments.SortedIn (fun a => SortCall.sample.rank a.1) Columns.sample.items
      (sortPairs SortCall.sample Columns.sample Columns.sample).buffers.items
  := by
  have hok : (sortPairs SortCall.sample Columns.sample Columns.sample).result = .ok () := by
    cbv
  use hok
  apply (sortedIn_of_sort_ok _ _ SortCall.sample (.zeroed 512) rfl).1 _ _ hok

end SegmentSort
