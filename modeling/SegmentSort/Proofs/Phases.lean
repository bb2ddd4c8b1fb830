import SegmentSort.Proofs.Outcome
import SegmentSort.Proofs.Partition
import SegmentSort.Proofs.Partitioner
import SegmentSort.Proofs.Refusals
import SegmentSort.Proofs.Storage

/-!
# The two phases of a sort

A caller first asks for the size of the storage and then sorts with storage of that size.  Both
phases follow one plan, so a query that fails foretells how the sort fails.  If the query
succeeds and the segments are partitioned by tiles, then whatever the sort takes from the storage
is there: the temporary items (`SortCall.temporaryItems_ok`), the slots for the indices and their
count, and the counters of the tiles (`SortCall.request_ok`).  The reply of the tiles leaves to
the insertion sorts only segments that fit these (`TiledPartition.valid_partition`).  So all that
can still be wrong are the segments (`phasesAgree_of_tiled`).
-/

namespace SegmentSort

theorem alignment_key_dvd (t : KeyType) :
  Element.alignment (Key t) ∣ 16
  := by
  rcases t with (w | w | _ | _) <;> (try cases w) <;> decide

/-- Tiles that have their counters reply with a partition of all segments, of which none that is
selected is left to the insertion sorts. -/
theorem TiledPartition.valid_partition (p : TiledPartition) {n : Nat} (hword : n < wordBound)
    {request : PartitionRequest n} (hsegments : request.segments = n) {counters : List UInt32}
    (hcounters : p.counters request = .ok counters) :
  (p.partition request).Valid
    ∧ ∀ i ∈ (p.partition request).indices.toList.drop (p.partition request).count.toNat,
      request.selected i.toNat = false
  := by
  have hpartition := p.partition_ok (by rwa [hsegments]) hcounters
  rw [hsegments] at hpartition
  obtain ⟨hok, hcount, hindices⟩ := hpartition
  have hslots : request.indices.toList.drop n = [] := by
    apply List.drop_eq_nil_of_le
    rw [Vector.length_toList]
  rw [hslots, List.append_nil] at hindices
  have hmapped : (p.partition request).indices.toList.map UInt32.toNat
      = separate request.selected n := by
    rw [hindices, map_toNat_separate request.selected hword]
  refine ⟨⟨hok, ?_, ?_⟩, ?_⟩
  · rw [hcount]
    have hle := List.countP_le_length (p := request.selected) (l := List.range n)
    rwa [List.length_range] at hle
  · rw [hmapped]
    apply separate_perm
  · intro i hi
    have hmem := List.mem_map_of_mem (f := UInt32.toNat) hi
    rw [List.map_drop, hmapped, hcount, separate, List.countP_eq_length_filter, List.drop_left,
      List.mem_filter, Bool.not_eq_true'] at hmem
    apply hmem.2

namespace SortCall

variable {t : KeyType} {ν : Type} [Element ν] {call : SortCall} {operands : Operands (Key t) ν}
  {plan : Plan}

/-! ### What a sort takes from the storage -/

/-- To classify the segments, tiles are given the bytes that they ask for. -/
theorem bytes_of_tiled {p : TiledPartition} (hpartitioner : call.partitioner = p.partitioner)
    {classifier : Classifier} {bytes : Option Nat}
    (hbytes : call.partitionBytes (some classifier) = .ok bytes) :
  bytes = some (p.storageBytes call.segments.count)
  := by
  rw [partitionBytes, hpartitioner] at hbytes
  exact (Except.ok.inj hbytes).symm

/-- Storage that the layout of a plan does not exceed is cut into the regions that the call needs
storage for. -/
theorem holds_of_plan (h : call.plan operands = .ok plan) {memory : Memory}
    (hsize : plan.layout.total ≤ memory.size) :
  ∃ carved bytes, plan.layout.carve memory = .ok carved
    ∧ call.partitionBytes plan.classifier = .ok bytes
    ∧ ∀ p ∈ (call.storageRequest operands bytes).regions, carved.Holds memory.address p.1 p.2
  := by
  obtain ⟨bytes, hbytes, hlayout⟩ := layout_of_plan h
  rw [hlayout] at hsize ⊢
  obtain ⟨carved, hcarved, hholds⟩ := Layout.holds_carve _ hsize
  exact ⟨carved, bytes, hcarved, hbytes, hholds⟩

variable {carved : Carved} {base : Nat}

/-- The regions for temporary keys and values are there, one after the other. -/
theorem roomAt_items {input output : Columns (Key t) ν} {bytes : Option Nat}
    (hvalues : Element.alignment ν ∣ 16)
    (hholds : ∀ p ∈ (call.storageRequest (.separate input output) bytes).regions,
      carved.Holds base p.1 p.2) :
  carved.RoomAt base .keys (Key t) input.keys.length
    ∧ (carved.take .keys).2.RoomAt base .values ν input.keys.length
  := by
  have hstorage : 16 ∣ storageAlignment := by decide
  have hkeysHolds : carved.Holds base .keys _ := hholds (.keys, _) List.mem_cons_self
  have hvaluesHolds : carved.Holds base .values _ :=
    hholds (.values, _) (List.mem_cons_of_mem _ List.mem_cons_self)
  constructor
  · apply hkeysHolds.roomAt (Key t) (le_alignSize _) ((alignment_key_dvd t).trans hstorage)
  · have hvaluesLater := hvaluesHolds.take (show Region.values ≠ .keys by decide)
    apply hvaluesLater.roomAt ν (le_alignSize _) (hvalues.trans hstorage)

/-- Temporary items have their room unless keys or values are misplaced at the address of the
storage, and the regions for the classification stay. -/
theorem temporaryItems_ok {bytes : Option Nat} (hvalues : Element.alignment ν ∣ 16)
    (hkeysPlaced : operands.isDoubleBuffer = false → ¬ Element.Misplaced (Key t) operands.size base)
    (hvaluesPlaced : operands.isDoubleBuffer = false → ¬ Element.Misplaced ν operands.size base)
    (hholds : ∀ p ∈ (call.storageRequest operands bytes).regions, carved.Holds base p.1 p.2) :
  ∃ temporary rest, temporaryItems operands carved = .ok (temporary, rest)
    ∧ ∀ p ∈ (call.storageRequest operands bytes).classificationRegions, rest.Holds base p.1 p.2
  := by
  have hclassification := (List.forall_mem_append.mp hholds).2
  cases operands with
  | doubleBuffer current alternate => exact ⟨[], carved, rfl, hclassification⟩
  | separate input output =>
      obtain ⟨hkeysRoom, hvaluesRoom⟩ := roomAt_items hvalues hholds
      obtain ⟨keys, hkeys⟩ := hkeysRoom.ok (hkeysPlaced rfl)
      obtain ⟨values, hvalues⟩ := hvaluesRoom.ok (hvaluesPlaced rfl)
      refine ⟨(keys.read (Key t) input.keys.length).toList.zip
        (values.read ν input.keys.length).toList, ((carved.take .keys).2.take .values).2, ?_, ?_⟩
      · simp only [temporaryItems, Operands.size, hkeys, hvalues, ok_bind]
        rfl
      · intro p hp
        obtain ⟨hneKeys, hneValues⟩ := StorageRequest.ne_of_mem_classificationRegions hp
        apply ((hclassification p hp).take hneKeys).take hneValues

/-- The slots for the indices and for the count have their room, and the partitioner gets the
bytes that it asked for. -/
theorem request_ok {bytes : Nat} (hbase : Element.alignment UInt32 ∣ base)
    (hholds : ∀ p ∈ (call.storageRequest operands (some bytes)).classificationRegions,
      carved.Holds base p.1 p.2) (classifier : Classifier) :
  ∃ request, call.request classifier carved = .ok request
    ∧ request.segments = call.segments.count
    ∧ request.selected = classifier.isLarge call.segments
    ∧ request.storage.size = bytes ∧ request.storage.Aligned UInt32
  := by
  have hwordStorage : Element.alignment UInt32 ∣ storageAlignment := by decide
  have hplaced : ∀ n, ¬ Element.Misplaced UInt32 n base := by
    rintro n ⟨-, hnot⟩
    apply hnot hbase
  have hindices : carved.Holds base .segmentIndices _ := hholds (_, _) List.mem_cons_self
  have hcount : carved.Holds base .largeSegmentCount _ :=
    hholds (_, _) (List.mem_cons_of_mem _ List.mem_cons_self)
  have hpartition : carved.Holds base .partition bytes :=
    hholds (_, _) (List.mem_cons_of_mem _ (List.mem_cons_of_mem _ List.mem_cons_self))
  obtain ⟨indices, hindicesRoom⟩ := (hindices.roomAt UInt32 (n := call.segments.count)
    (le_alignSize _) hwordStorage).ok (hplaced _)
  have hcountLater := hcount.take (show Region.largeSegmentCount ≠ .segmentIndices by decide)
  obtain ⟨count, hcountRoom⟩ := (hcountLater.roomAt UInt32 (n := 1)
    (by rw [Nat.one_mul]; exact le_alignSize _) hwordStorage).ok (hplaced _)
  have hpartitionLater :=
    (hpartition.take (show Region.partition ≠ .segmentIndices by decide)).take
      (show Region.partition ≠ .largeSegmentCount by decide)
  obtain ⟨storage, hlookup, hsize, haddress⟩ := hpartitionLater
  have htake : (((carved.take .segmentIndices).2.take .largeSegmentCount).2.take .partition).1
      = some storage := hlookup
  refine ⟨{
      storage
      segments := call.segments.count
      selected := classifier.isLarge call.segments
      indices := indices.read UInt32 call.segments.count
      count := (count.read UInt32 1).get 0
      stream := call.stream
      debug := call.options.debug }, ?_, rfl, rfl, hsize, ?_⟩
  · simp only [request, hindicesRoom, hcountRoom, ok_bind, htake]
    rfl
  · apply Nat.mod_eq_zero_of_dvd
    apply (haddress.dvd_iff hwordStorage).mpr hbase

/-! ### The sort with storage -/

/-- A planned call has segments to sort and storage of the size that it needs, at an address that
suits whatever is to be stored. -/
structure Supplied (call : SortCall) (operands : Operands (Key t) ν) (plan : Plan)
    (memory : Memory) : Prop where
  planned : call.plan operands = .ok plan
  storage : call.storage = some memory
  count : call.segments.count ≠ 0
  size : plan.layout.total ≤ memory.size
  alignment : Element.alignment ν ∣ 16
  keys : operands.isDoubleBuffer = false
    → ¬ Element.Misplaced (Key t) operands.size memory.address
  values : operands.isDoubleBuffer = false → ¬ Element.Misplaced ν operands.size memory.address
  words : plan.classifier.isSome → Element.alignment UInt32 ∣ memory.address

variable {memory : Memory} {map : SegmentMap}

/-- If the segments are well formed, they and the temporary items are ready, and a partitioner
can be asked. -/
theorem Supplied.ready (h : call.Supplied operands plan memory)
    (hmap : call.segments.resolve operands.size = .ok map) :
  ∃ carved temporary rest bytes, plan.layout.carve memory = .ok carved
    ∧ temporaryItems operands carved = .ok (temporary, rest)
    ∧ operands.Ready temporary map
    ∧ call.partitionBytes plan.classifier = .ok bytes
    ∧ ∀ p ∈ (call.storageRequest operands bytes).classificationRegions,
      rest.Holds memory.address p.1 p.2
  := by
  obtain ⟨carved, bytes, hcarved, hbytes, hholds⟩ := holds_of_plan h.planned h.size
  obtain ⟨temporary, rest, htemporary, hrest⟩ :=
    temporaryItems_ok h.alignment h.keys h.values hholds
  have hready := (planned_of_plan h.planned).ready hmap htemporary
  exact ⟨carved, temporary, rest, bytes, hcarved, htemporary, hready, hbytes, hrest⟩

/-- The call is refused if the segments are. -/
theorem Supplied.refused (h : call.Supplied operands plan memory) {e : SortError}
    (hmap : call.segments.resolve operands.size = .error e) :
  (call.run operands).trace.result = .error (.reported e)
  := by
  have hprepare : (call.prepare plan operands memory).result = .error (.reported e) := by
    rw [result_prepare, hmap]
    rfl
  rw [run_eq_execute h.planned h.storage h.count, (execute_of_error hprepare).2]

/-- It succeeds if the segments are not to be classified. -/
theorem Supplied.uniform (h : call.Supplied operands plan memory)
    (hmap : call.segments.resolve operands.size = .ok map) (hclassifier : plan.classifier = none) :
  (call.run operands).trace.result.map (fun _ => ()) = .ok ()
  := by
  obtain ⟨carved, temporary, rest, bytes, hcarved, htemporary, hready, -, -⟩ := h.ready hmap
  have hprepare : (call.prepare plan operands memory).result
      = .ok (map, .uniform (map.spans.map (operands.view temporary))) := by
    simp only [result_prepare, hmap, hcarved, htemporary, Operands.views?_eq_some hready,
      hclassifier, reported_ok, defined_some, ok_bind]
    rfl
  rw [result_run_of_uniform h.planned h.storage h.count hprepare]
  rfl

/-- So it does if they are partitioned by tiles. -/
theorem Supplied.tiled (h : call.Supplied operands plan memory)
    (hmap : call.segments.resolve operands.size = .ok map) {classifier : Classifier}
    (hclassifier : plan.classifier = some classifier) {p : TiledPartition}
    (hpartitioner : call.partitioner = p.partitioner) :
  (call.run operands).trace.result.map (fun _ => ()) = .ok ()
  := by
  obtain ⟨carved, temporary, rest, bytes, hcarved, htemporary, hready, hbytes, hrest⟩ :=
    h.ready hmap
  have hword := (planned_of_plan h.planned).lt_wordBound hclassifier
  rw [hclassifier] at hbytes
  obtain rfl := bytes_of_tiled hpartitioner hbytes
  obtain ⟨request, hrequest, hsegments, hselected, hroom, haligned⟩ :=
    request_ok (h.words (by rw [hclassifier]; rfl)) hrest classifier
  have hconsult :=
    consult_eq_ok h.planned h.storage h.count hclassifier hmap hcarved htemporary hrequest
  have hcounters := p.counters_eq_ok_iff.mpr
    ⟨Nat.le_of_eq (by rw [hsegments, hroom]), Nat.le_of_eq hsegments, haligned, rfl⟩
  obtain ⟨hvalid, hsmall⟩ := p.valid_partition hword hsegments hcounters
  have hreply : call.partitioner.partition request = p.partition request := by
    rw [hpartitioner]
    rfl
  rcases run_of_consult hconsult hreply with
    ⟨e, hrefused, -⟩ | ⟨-, ⟨-, hok⟩ | ⟨length, ⟨i, hi, hlength⟩, hlong, -⟩⟩
  · cases hrefused.not_valid hvalid
  · apply hok
  · -- A segment that is left to the insertion sorts has not been selected, so it fits.
    have hfits := hsmall i hi
    rw [hselected, Classifier.isLarge, hlength] at hfits
    cases of_decide_eq_false hfits hlong

/-- With tiles to partition the segments, the call ends as the segments are resolved. -/
theorem Supplied.result_eq_resolve (h : call.Supplied operands plan memory) {p : TiledPartition}
    (hpartitioner : call.partitioner = p.partitioner) :
  (call.run operands).trace.result.map (fun _ => ())
    = reported ((call.segments.resolve operands.size).map fun _ => ())
  := by
  cases hmap : call.segments.resolve operands.size with
  | error e =>
      rw [h.refused hmap]
      rfl
  | ok map =>
      cases hclassifier : plan.classifier with
      | none => apply h.uniform hmap hclassifier
      | some classifier => apply h.tiled hmap hclassifier hpartitioner

/-! ### Both phases -/

/-- The call without storage, which asks for the size. -/
def query (call : SortCall) : SortCall :=
  { call with storage := none }

/-- The call with storage. -/
def withStorage (call : SortCall) (memory : Memory) : SortCall :=
  { call with storage := some memory }

/-- With storage of the size that a query reports, a call ends as its segments are resolved, if
there are any. -/
theorem result_run_withStorage (hplan : call.plan operands = .ok plan)
    (hvalues : Element.alignment ν ∣ 16) {p : TiledPartition}
    (hpartitioner : call.partitioner = p.partitioner)
    (hsize : plan.layout.required ≤ memory.size) (hbase : 16 ∣ memory.address) :
  ((call.withStorage memory).run operands).trace.result.map (fun _ => ())
    = if call.segments.count = 0 then .ok () else
      reported ((call.segments.resolve operands.size).map fun _ => ())
  := by
  split
  · rename_i hcount
    have hplan' : (call.withStorage memory).plan operands = .ok plan := hplan
    rw [run_of_no_segments hplan' rfl hcount]
    rfl
  · rename_i hcount
    have hword : Element.alignment UInt32 ∣ 16 := by decide
    have hsupplied : (call.withStorage memory).Supplied operands plan memory :=
      ⟨hplan, rfl, hcount, plan.layout.total_le_required.trans hsize, hvalues,
        fun _ hkeys => hkeys.2 ((alignment_key_dvd t).trans hbase),
        fun _ hmisplaced => hmisplaced.2 (hvalues.trans hbase), fun _ => hword.trans hbase⟩
    apply hsupplied.result_eq_resolve hpartitioner

end SortCall

/-- The query of a call for the size of the storage and the sort with storage agree, for
segments of arrays of a length. -/
structure PhasesAgree {β : Type} (segments : Segments) (length : Nat) (unchanged : β)
    (query : SortOutcome β) (sort : Memory → SortOutcome β) : Prop where
  /-- The query changes no buffer. -/
  buffers : query.buffers = unchanged
  /-- It reports a size precisely if it succeeds. -/
  size : query.result = .ok () ↔ ∃ size, query.reportedSize = some size
  /-- With storage of that size, the sort succeeds precisely if there is no segment or all of
  them are well formed. -/
  ok_iff : ∀ size memory, query.reportedSize = some size → size ≤ memory.size →
    16 ∣ memory.address →
    ((sort memory).result = .ok () ↔ segments.count = 0 ∨ segments.WellFormed length)
  /-- It fails only for a cause that lies in the segments. -/
  refused : ∀ size memory e, query.reportedSize = some size → size ≤ memory.size →
    16 ∣ memory.address → (sort memory).result = .error e →
    ∃ cause, e = .reported cause ∧ cause.OfSegments
  /-- If the query fails, the sort fails likewise, whatever the storage is. -/
  failed : ∀ e memory, query.result = .error e → (sort memory).result = .error e

section

variable {t : KeyType} {ν : Type} [Element ν] {call : SortCall} {operands : Operands (Key t) ν}
  {β σ : Type} {selectors : β → σ} {unchanged : β} {query : SortOutcome β}
  {sort : Memory → SortOutcome β}

/-- A call without a plan fails in both phases. -/
theorem PhasesAgree.of_plan_error {e : Failure} (hplan : call.plan operands = .error e)
    (hquery : call.query.Yields operands selectors unchanged query)
    (hsort : ∀ memory, (call.withStorage memory).Yields operands selectors unchanged
      (sort memory)) :
  PhasesAgree call.segments operands.size unchanged query sort
  := by
  obtain ⟨hresult, hreported, -, hbuffers⟩ := hquery
  have hqueryPlan : call.query.plan operands = .error e := hplan
  rw [SortCall.run_of_plan_error hqueryPlan] at hresult hreported hbuffers
  constructor
  · apply hbuffers rfl rfl
  · rw [hresult, hreported]
    constructor
    · rintro ⟨⟩
    · rintro ⟨size, ⟨⟩⟩
  · intro size memory hsize
    rw [hreported] at hsize
    cases hsize
  · intro size memory e hsize
    rw [hreported] at hsize
    cases hsize
  · intro e' memory he
    rw [hresult] at he
    obtain rfl := Except.error.inj he
    have hsortPlan : (call.withStorage memory).plan operands = .error e := hplan
    rw [(hsort memory).result, SortCall.run_of_plan_error hsortPlan]
    rfl

/-- A call with a plan reports a size, and with storage of that size it ends as its segments are
resolved. -/
theorem PhasesAgree.of_plan {plan : Plan} (hplan : call.plan operands = .ok plan)
    (hvalues : Element.alignment ν ∣ 16) {p : TiledPartition}
    (hpartitioner : call.partitioner = p.partitioner)
    (hquery : call.query.Yields operands selectors unchanged query)
    (hsort : ∀ memory, (call.withStorage memory).Yields operands selectors unchanged
      (sort memory)) :
  PhasesAgree call.segments operands.size unchanged query sort
  := by
  obtain ⟨hresult, hreported, -, hbuffers⟩ := hquery
  have hqueryPlan : call.query.plan operands = .ok plan := hplan
  rw [SortCall.run_of_no_storage hqueryPlan rfl] at hresult hreported hbuffers
  constructor
  · apply hbuffers rfl rfl
  · rw [hresult, hreported]
    exact ⟨fun _ => ⟨_, rfl⟩, fun _ => rfl⟩
  · intro size memory hsize hroom hbase
    rw [hreported] at hsize
    obtain rfl := Option.some.inj hsize
    rw [(hsort memory).result,
      SortCall.result_run_withStorage hplan hvalues hpartitioner hroom hbase,
      ← Segments.exists_resolve_iff]
    split
    · rename_i hcount
      exact ⟨fun _ => .inl hcount, fun _ => rfl⟩
    · rename_i hcount
      rw [reported_map_eq_ok_iff, or_iff_right hcount]
  · intro size memory e hsize hroom hbase he
    rw [hreported] at hsize
    obtain rfl := Option.some.inj hsize
    rw [(hsort memory).result,
      SortCall.result_run_withStorage hplan hvalues hpartitioner hroom hbase] at he
    split at he
    · cases he
    · obtain ⟨cause, hcause, rfl⟩ := reported_map_eq_error_iff.mp he
      exact ⟨cause, rfl, Segments.ofSegments_of_resolve hcause⟩
  · intro e memory he
    rw [hresult] at he
    cases he

/-- The phases of a sort agree because those of its runs do. -/
theorem PhasesAgree.of_yields (hvalues : Element.alignment ν ∣ 16) {p : TiledPartition}
    (hpartitioner : call.partitioner = p.partitioner)
    (hquery : call.query.Yields operands selectors unchanged query)
    (hsort : ∀ memory, (call.withStorage memory).Yields operands selectors unchanged
      (sort memory)) :
  PhasesAgree call.segments operands.size unchanged query sort
  := by
  cases hplan : call.plan operands with
  | error e => apply PhasesAgree.of_plan_error hplan hquery hsort
  | ok plan => apply PhasesAgree.of_plan hplan hvalues hpartitioner hquery hsort

end

/-- Where segments are partitioned by tiles, the phases of all four sorts agree, for keys of any
type and for values of any type that is aligned to at most 16 bytes. -/
theorem phasesAgree_of_tiled (t : KeyType) (ν : Type) [Element ν]
    (hvalues : Element.alignment ν ∣ 16) (call : SortCall) (p : TiledPartition)
    (hpartitioner : call.partitioner = p.partitioner) :
  (∀ input output : Columns (Key t) ν,
    PhasesAgree call.segments input.keys.length output (sortPairs call.query input output)
      fun memory => sortPairs (call.withStorage memory) input output)
  ∧ (∀ input output : List (Key t),
    PhasesAgree call.segments input.length output (sortKeys call.query input output)
      fun memory => sortKeys (call.withStorage memory) input output)
  ∧ (∀ (keys : DoubleBuffer (Key t)) (values : DoubleBuffer ν),
    PhasesAgree call.segments keys.size (keys, values)
      (DoubleBuffer.sortPairs call.query keys values)
      fun memory => DoubleBuffer.sortPairs (call.withStorage memory) keys values)
  ∧ ∀ keys : DoubleBuffer (Key t),
    PhasesAgree call.segments keys.size keys (DoubleBuffer.sortKeys call.query keys)
      fun memory => DoubleBuffer.sortKeys (call.withStorage memory) keys
  := by
  have hunits : Element.alignment Unit ∣ 16 := by decide
  refine ⟨?_, ?_, ?_, ?_⟩
  · intro input output
    apply PhasesAgree.of_yields hvalues hpartitioner (yields_sortPairs call.query input output)
    intro memory
    apply yields_sortPairs
  · intro input output
    apply PhasesAgree.of_yields hunits hpartitioner (yields_sortKeys call.query input output)
    intro memory
    apply yields_sortKeys
  · intro keys values
    apply PhasesAgree.of_yields hvalues hpartitioner
      (DoubleBuffer.yields_sortPairs call.query keys values)
    intro memory
    apply DoubleBuffer.yields_sortPairs
  · intro keys
    apply PhasesAgree.of_yields hunits hpartitioner (DoubleBuffer.yields_sortKeys call.query keys)
    intro memory
    apply DoubleBuffer.yields_sortKeys

/-- The sample, of which one segment has to be told from the other by tiles of size 1. -/
def SortCall.tiledSample : SortCall :=
  { SortCall.sample with
    options := { SortOptions.standard with
      config := some ⟨2, 1, ⟨1, 1⟩, some ⟨2, 1, 2, 0⟩⟩
      partitioner := some (TiledPartition.ofTile 1).partitioner } }

/-- Since the segments of the sample are well formed, it succeeds with the storage that it asks
for. -/
theorem phasesAgree_sample :
  (sortPairs SortCall.tiledSample.query Columns.sample Columns.sample).reportedSize = some 1032
    ∧ (sortPairs (SortCall.tiledSample.withStorage (.filled 16 1032 7)) Columns.sample
      Columns.sample).result = .ok ()
  := by
  have hsize : (sortPairs SortCall.tiledSample.query Columns.sample Columns.sample).reportedSize
      = some 1032 := by
    rfl
  use hsize
  have hagree := (phasesAgree_of_tiled (.unsigned .w8) UInt8 (by decide) SortCall.tiledSample
    (TiledPartition.ofTile 1) rfl).1 Columns.sample Columns.sample
  apply (hagree.ok_iff 1032 (.filled 16 1032 7) hsize _ (Nat.dvd_refl 16)).mpr
  · right
    apply Segments.exists_resolve_iff.mp
    use ⟨[⟨0, 3⟩, ⟨3, 5⟩]⟩
    apply Segments.resolve_eq_ok_iff.mpr
    exact ⟨by decide, rfl, by decide, by decide⟩
  · apply Nat.le_of_eq
    apply List.length_replicate.symm

end SegmentSort
