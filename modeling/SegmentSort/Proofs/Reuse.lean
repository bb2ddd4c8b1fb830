import SegmentSort.Proofs.Supply

/-!
# Storage that is used again

The regions of a call grow with the numbers of its items and segments, and regions are only added
when there are enough segments to classify them, so a larger call with the same configuration and
tiles asks for no fewer bytes (`Layout.required_le_required`).  What is asked for when no storage
is needed is no exception, since all other sizes exceed it (`Layout.storageAlignment_le_total`).

A call whose layout fits in its storage finds every region as large as it needs it.  So it fails
only because of its segments or of the address of the storage (`SortCall.cause_of_error`), and
storage for the larger call serves the smaller one as well (`storage_serves_smaller_calls`).
-/

namespace SegmentSort

theorem ceilDiv_le_ceilDiv {n n' : Nat} (h : n ≤ n') (d : Nat) :
  ceilDiv n d ≤ ceilDiv n' d
  := by
  apply Nat.div_le_div_right
  apply Nat.sub_le_sub_right
  apply Nat.add_le_add_right h

theorem alignSize_le_alignSize {size size' : Nat} (h : size ≤ size') :
  alignSize size ≤ alignSize size'
  := Nat.mul_le_mul_right _ (ceilDiv_le_ceilDiv h _)

theorem TiledPartition.storageBytes_le_storageBytes (p : TiledPartition) {segments segments' : Nat}
    (h : segments ≤ segments') :
  p.storageBytes segments ≤ p.storageBytes segments'
  := Nat.mul_le_mul_right _ (ceilDiv_le_ceilDiv h _)

/-! ### Layouts of larger requests -/

/-- A request is for no more than another one: for items of the same sizes in the same mode, but not
for more of them, nor for more segments.  If it has the segments classified, so has the other. -/
structure StorageRequest.AtMost (r r' : StorageRequest) : Prop where
  keySize : r.keySize = r'.keySize
  valueSize : r.valueSize = r'.valueSize
  count : r.count ≤ r'.count
  segments : r.segments ≤ r'.segments
  doubleBuffer : r.doubleBuffer = r'.doubleBuffer
  partitionBytes : ∀ bytes ∈ r.partitionBytes, ∃ bytes' ∈ r'.partitionBytes, bytes ≤ bytes'

namespace StorageRequest

/-- The number of bytes of some regions. -/
def bytes (rs : List (Region × Nat)) : Nat :=
  (rs.map (·.2)).sum

variable {r r' : StorageRequest}

theorem AtMost.itemBytes_le (h : r.AtMost r') :
  bytes r.itemRegions ≤ bytes r'.itemRegions
  := by
  have hkeys := alignSize_le_alignSize (Nat.mul_le_mul h.count (Nat.le_of_eq h.keySize))
  have hvalues := alignSize_le_alignSize (Nat.mul_le_mul h.count (Nat.le_of_eq h.valueSize))
  rw [itemRegions, itemRegions, h.doubleBuffer]
  split
  · apply Nat.le_refl
  · apply Nat.add_le_add hkeys
    apply Nat.add_le_add_right hvalues

theorem AtMost.classificationBytes_le (h : r.AtMost r') :
  bytes r.classificationRegions ≤ bytes r'.classificationRegions
  := by
  cases hbytes : r.partitionBytes with
  | none =>
      rw [classificationRegions, hbytes]
      apply Nat.zero_le
  | some n =>
      obtain ⟨n', hbytes', hle⟩ := h.partitionBytes n hbytes
      rw [classificationRegions, classificationRegions, hbytes, Option.mem_def.mp hbytes']
      apply Nat.add_le_add
      · apply alignSize_le_alignSize (Nat.mul_le_mul_right _ h.segments)
      · apply Nat.add_le_add_left
        apply Nat.add_le_add_right hle

theorem storageAlignment_dvd_itemBytes (r : StorageRequest) :
  storageAlignment ∣ bytes r.itemRegions
  := by
  rw [itemRegions]
  split
  · apply Nat.dvd_zero
  · apply Nat.dvd_add (dvd_alignSize (r.count * r.keySize))
    apply Nat.dvd_add (dvd_alignSize (r.count * r.valueSize)) (Nat.dvd_zero _)

end StorageRequest

namespace Layout

variable {r r' : StorageRequest}

theorem total_ofRequest (r : StorageRequest) :
  (ofRequest r).total
    = StorageRequest.bytes r.itemRegions + StorageRequest.bytes r.classificationRegions
  := by
  change (r.regions.map (·.2)).sum = _
  rw [StorageRequest.regions, List.map_append, List.sum_append]
  rfl

theorem total_le_total (h : r.AtMost r') :
  (ofRequest r).total ≤ (ofRequest r').total
  := by
  rw [total_ofRequest, total_ofRequest]
  apply Nat.add_le_add h.itemBytes_le h.classificationBytes_le

/-- A layout that covers anything covers no less than the storage alignment. -/
theorem storageAlignment_le_total (h : (ofRequest r).total ≠ 0) :
  storageAlignment ≤ (ofRequest r).total
  := by
  rw [total_ofRequest] at h ⊢
  cases hbytes : r.partitionBytes with
  | none =>
      have hzero : StorageRequest.bytes r.classificationRegions = 0 := by
        rw [StorageRequest.classificationRegions, hbytes]
        rfl
      rw [hzero, Nat.add_zero] at h ⊢
      apply Nat.le_of_dvd (Nat.pos_of_ne_zero h) r.storageAlignment_dvd_itemBytes
  | some bytes =>
      apply Nat.le_add_left_of_le
      rw [StorageRequest.classificationRegions, hbytes]
      -- the region for the number of large segments has as many bytes
      apply Nat.le_add_left_of_le
      apply Nat.le_add_right

/-- What a caller is asked for grows with the request, even if one of the calls needs no storage. -/
theorem required_le_required (h : r.AtMost r') :
  (ofRequest r).required ≤ (ofRequest r').required
  := by
  have hle := total_le_total h
  have hempty : emptyStorageSize ≤ storageAlignment := by decide
  rw [required, required]
  split
  · split
    · apply Nat.le_refl
    · rename_i hne
      apply hempty.trans (storageAlignment_le_total hne)
  · rw [if_neg (by omega)]
    apply hle

end Layout

/-! ### Sizes that are reported -/

/-- Segments are classified if they would be if there were fewer of them. -/
theorem Config.classifier?_of_le {c : Config} {n n' : Nat} (hle : n ≤ n') (hword : n' < wordBound)
    {classifier : Classifier} (h : c.classifier? n = .ok (some classifier)) :
  c.classifier? n' = .ok (some classifier)
  := by
  rw [classifier?] at h ⊢
  cases hroute : c.warpSort with
  | none =>
      rw [hroute] at h
      cases h
  | some route =>
      rw [hroute] at h
      obtain ⟨capacity, hcapacity, h⟩ := bind_eq_ok_iff.mp h
      obtain ⟨hworthwhile, hsome⟩ := Option.ite_none_right_eq_some.mp (Except.ok.inj h)
      have hworthwhile' : route.isWorthwhile n' = true := by
        rw [WarpSort.isWorthwhile, decide_eq_true_iff] at hworthwhile ⊢
        exact ⟨hworthwhile.1.trans hle, hword⟩
      apply bind_eq_ok_iff.mpr ⟨capacity, hcapacity, _⟩
      rw [if_pos hworthwhile', hsome]
      rfl

/-- A call chooses the same configuration as another one and does not have more segments, whose
number fits a word.  Both leave it to the same tiles to partition them. -/
structure SortCall.AtMost (call larger : SortCall) (p : TiledPartition) : Prop where
  config : call.options.config = larger.options.config
  tiles : call.partitioner = p.partitioner
  tilesLarger : larger.partitioner = p.partitioner
  segments : call.segments.count ≤ larger.segments.count
  word : larger.segments.count < wordBound

namespace SortCall

variable {t : KeyType} {ν : Type} [Element ν] {call larger : SortCall} {p : TiledPartition}
  {operands operands' : Operands (Key t) ν} {plan plan' : Plan}

/-- Then it needs storage for no more, if it does not have more items either. -/
theorem AtMost.storageRequest (h : call.AtMost larger p) (hplan : call.Planned operands plan)
    (hplan' : larger.Planned operands' plan')
    (hmode : operands.isDoubleBuffer = operands'.isDoubleBuffer)
    (hsize : operands.size ≤ operands'.size) {bytes bytes' : Option Nat}
    (hbytes : call.partitionBytes plan.classifier = .ok bytes)
    (hbytes' : larger.partitionBytes plan'.classifier = .ok bytes') :
  (call.storageRequest operands bytes).AtMost (larger.storageRequest operands' bytes')
  := by
  constructor
  case keySize => rfl
  case valueSize => rfl
  case count => apply hsize
  case segments => apply h.segments
  case doubleBuffer => apply hmode
  case partitionBytes =>
    have hconfig : plan.config = plan'.config := by
      apply Option.some.inj
      rw [← hplan.config, ← hplan'.config, config?, config?, h.config]
    intro n hn
    cases hclassifier : plan.classifier with
    | none =>
        rw [hclassifier] at hbytes
        obtain rfl := Except.ok.inj hbytes
        cases hn
    | some classifier =>
        have hclassifier' : plan'.classifier = some classifier := by
          apply Except.ok.inj
          rw [← hplan'.classifier, ← hconfig]
          apply Config.classifier?_of_le h.segments h.word
          rw [hplan.classifier, hclassifier]
        rw [hclassifier] at hbytes
        rw [hclassifier'] at hbytes'
        obtain rfl := bytes_of_tiled h.tiles hbytes
        obtain rfl := bytes_of_tiled h.tilesLarger hbytes'
        obtain rfl := Option.some.inj hn
        exact ⟨_, rfl, p.storageBytes_le_storageBytes h.segments⟩

/-- Nor does it ask for more bytes. -/
theorem AtMost.required_le (h : call.AtMost larger p) (hplan : call.plan operands = .ok plan)
    (hplan' : larger.plan operands' = .ok plan')
    (hmode : operands.isDoubleBuffer = operands'.isDoubleBuffer)
    (hsize : operands.size ≤ operands'.size) :
  plan.layout.required ≤ plan'.layout.required
  := by
  obtain ⟨bytes, hbytes, hlayout⟩ := layout_of_plan hplan
  obtain ⟨bytes', hbytes', hlayout'⟩ := layout_of_plan hplan'
  rw [hlayout, hlayout']
  apply Layout.required_le_required
  apply h.storageRequest (planned_of_plan hplan) (planned_of_plan hplan') hmode hsize hbytes hbytes'

/-- A size that is reported is what a plan requires. -/
theorem exists_plan_of_query {size : Nat}
    (h : (call.query.run operands).reportedSize = some size) :
  ∃ plan, call.plan operands = .ok plan ∧ size = plan.layout.required
  := by
  cases hplan : call.query.plan operands with
  | error e =>
      rw [run_of_plan_error hplan] at h
      cases h
  | ok plan =>
      rw [run_of_no_storage hplan rfl] at h
      exact ⟨plan, hplan, (Option.some.inj h).symm⟩

end SortCall

/-! ### Storage with enough bytes -/

/-- The cause lies in the address of the storage. -/
inductive SortError.OfAddress : SortError → Prop
  | misaligned (region : Region) :
      OfAddress (.misalignedStorage region)

/-- Enough bytes are refused only for their address. -/
theorem Memory.ofAddress_of_room {m : Memory} {region : Region} {α : Type} [Element α] {n : Nat}
    {e : SortError} (hsize : n * Element.size α ≤ m.size) (h : m.room region α n = .error e) :
  e.OfAddress
  := by
  rw [room, if_neg fun hsmall => Nat.not_lt_of_ge hsize hsmall.2] at h
  split at h
  · obtain rfl := Except.error.inj h
    apply SortError.OfAddress.misaligned
  · cases h

/-- Tiles that are given the bytes that they have asked for partition the segments, unless the
address of their counters does not suit. -/
theorem TiledPartition.valid_or_misaligned (p : TiledPartition) {n : Nat} (hword : n < wordBound)
    {request : PartitionRequest n} (hsegments : request.segments = n)
    (hsize : request.storage.size = p.storageBytes n) :
  (p.partition request).Valid
    ∨ (p.partition request).trace.result = .error (.reported (.misalignedStorage .partition))
  := by
  by_cases haligned : request.storage.Aligned UInt32
  · left
    apply (p.valid_iff hword hsegments hsize).mpr haligned
  · right
    have hcounters : p.counters request = .error (.misalignedStorage .partition) := by
      simp only [counters, hsegments, hsize, Nat.lt_irrefl, if_false, if_pos haligned]
    apply (p.partition_of_error hcounters).1

namespace SortCall

variable {t : KeyType} {ν : Type} [Element ν] {call : SortCall} {operands : Operands (Key t) ν}
  {plan : Plan} {memory : Memory} {e : SortError}

/-- Temporary items are refused room only for the address of the storage. -/
theorem ofAddress_of_temporaryItems {c : Carved} {bytes : Option Nat}
    (hsizes : c.sizes = (call.storageRequest operands bytes).regions)
    (h : temporaryItems operands c = .error e) :
  e.OfAddress
  := by
  cases operands with
  | doubleBuffer current alternate => cases h
  | separate input output =>
      obtain ⟨keys, rest, rfl, hkeys, hsizes⟩ := Carved.exists_eq_cons hsizes
      obtain ⟨values, rest, rfl, hvalues, -⟩ := Carved.exists_eq_cons hsizes
      simp only [temporaryItems, Carved.requireRoom_cons, bind_eq_error_iff] at h
      rcases h with h | ⟨-, -, h | ⟨-, -, ⟨⟩⟩⟩
      · apply Memory.ofAddress_of_room ((le_alignSize _).trans (Nat.le_of_eq hkeys.symm)) h
      · apply Memory.ofAddress_of_room ((le_alignSize _).trans (Nat.le_of_eq hvalues.symm)) h

/-- So are the indices of the segments and the number of large ones. -/
theorem ofAddress_of_request {c : Carved} {bytes : Nat}
    (hsizes : c.sizes = (call.storageRequest operands (some bytes)).classificationRegions)
    {classifier : Classifier} (h : call.request classifier c = .error e) :
  e.OfAddress
  := by
  obtain ⟨indices, rest, rfl, hindices, hsizes⟩ := Carved.exists_eq_cons hsizes
  obtain ⟨count, rest, rfl, hcount, -⟩ := Carved.exists_eq_cons hsizes
  simp only [SortCall.request, Carved.requireRoom_cons, bind_eq_error_iff] at h
  rcases h with h | ⟨-, -, h | ⟨-, -, ⟨⟩⟩⟩
  · apply Memory.ofAddress_of_room ((le_alignSize _).trans (Nat.le_of_eq hindices.symm)) h
  · apply Memory.ofAddress_of_room _ h
    rw [hcount, Nat.one_mul]
    apply le_alignSize

/-- With tiles to partition the segments, only the address of the storage keeps the work from
following. -/
theorem ofAddress_of_work (hplan : call.Planned operands plan) {p : TiledPartition}
    (hpartitioner : call.partitioner = p.partitioner) {classifier : Classifier}
    (hclassifier : plan.classifier = some classifier) {rest : Carved}
    (hsizes : rest.sizes = (call.storageRequest operands
      (some (p.storageBytes call.segments.count))).classificationRegions)
    {request : PartitionRequest call.segments.count}
    (hrequest : call.request classifier rest = .ok request)
    {views : List (SegmentView (Key t × ν))} (hviews : views.length = call.segments.count)
    {e : Failure}
    (h : workOf classifier views (plan.partitioner.partition request) = .error e) :
  ∃ cause, e = .reported cause ∧ cause.OfAddress
  := by
  have hword := hplan.lt_wordBound hclassifier
  rw [hplan.partitioner, hpartitioner] at h
  rcases p.valid_or_misaligned hword (request_eq_ok hrequest).1 (size_of_request hsizes hrequest)
    with hvalid | hmisaligned
  · obtain ⟨work, hwork⟩ := (exists_workOf_iff classifier hviews _).mpr hvalid
    cases hwork.symm.trans h
  · rw [workOf] at h
    change ((p.partition request).trace.result >>= _) = _ at h
    rw [hmisaligned] at h
    obtain rfl := Except.error.inj h
    exact ⟨_, rfl, .misaligned .partition⟩

/-- With tiles to partition the segments and enough bytes, the preparation fails only for causes
that lie in the segments or in the address of the storage. -/
theorem cause_of_prepare (hplan : call.plan operands = .ok plan) {p : TiledPartition}
    (hpartitioner : call.partitioner = p.partitioner) (hsize : plan.layout.total ≤ memory.size)
    {e : Failure} (h : (call.prepare plan operands memory).result = .error e) :
  ∃ cause, e = .reported cause ∧ (cause.OfSegments ∨ cause.OfAddress)
  := by
  have hplanned := planned_of_plan hplan
  obtain ⟨bytes, hbytes, hlayout⟩ := layout_of_plan hplan
  obtain ⟨carved, hcarved⟩ : ∃ carved, plan.layout.carve memory = .ok carved :=
    ⟨_, Layout.carve_eq_ok_iff.mpr ⟨hsize, rfl⟩⟩
  have hsizes : carved.sizes = (call.storageRequest operands bytes).regions := by
    rw [hlayout] at hcarved
    apply Layout.sizes_of_carve hcarved
  simp only [result_prepare, hcarved, reported_ok, ok_bind, bind_eq_error_iff,
    reported_eq_error_iff, reported_eq_ok_iff] at h
  rcases h with ⟨cause, hcause, rfl⟩ |
    ⟨map, hmap, ⟨cause, hcause, rfl⟩ | ⟨⟨temporary, rest⟩, htemporary, h⟩⟩
  · exact ⟨cause, rfl, .inl (Segments.ofSegments_of_resolve hcause)⟩
  · exact ⟨cause, rfl, .inr (ofAddress_of_temporaryItems hsizes hcause)⟩
  · have hlength : (map.spans.map (operands.view temporary)).length = call.segments.count := by
      rw [List.length_map, Segments.length_of_resolve hmap]
    rw [Operands.views?_eq_some (hplanned.ready hmap htemporary), defined_some] at h
    obtain ⟨views, hsome, h⟩ := h.resolve_left (by rintro ⟨⟩)
    obtain rfl := Except.ok.inj hsome
    cases hclassifier : plan.classifier with
    | none =>
        rw [hclassifier] at h
        cases h
    | some classifier =>
        rw [hclassifier] at hbytes h
        obtain rfl := bytes_of_tiled hpartitioner hbytes
        have hrest := sizes_of_temporaryItems hsizes htemporary
        simp only [bind_eq_error_iff, reported_eq_error_iff, reported_eq_ok_iff] at h
        rcases h with ⟨cause, hcause, rfl⟩ | ⟨request, hrequest, hwork | ⟨-, -, ⟨⟩⟩⟩
        · exact ⟨cause, rfl, .inr (ofAddress_of_request hrest hcause)⟩
        · obtain ⟨cause, rfl, haddress⟩ :=
            ofAddress_of_work hplanned hpartitioner hclassifier hrest hrequest hlength hwork
          exact ⟨cause, rfl, .inr haddress⟩

/-- So does the whole call. -/
theorem cause_of_error (hplan : call.plan operands = .ok plan)
    (hstorage : call.storage = some memory) {p : TiledPartition}
    (hpartitioner : call.partitioner = p.partitioner) (hsize : plan.layout.total ≤ memory.size)
    {e : Failure} (h : (call.run operands).trace.result.map (fun _ => ()) = .error e) :
  ∃ cause, e = .reported cause ∧ (cause.OfSegments ∨ cause.OfAddress)
  := by
  by_cases hcount : call.segments.count = 0
  · rw [run_of_no_segments hplan hstorage hcount] at h
    cases h
  · rw [run_eq_execute hplan hstorage hcount] at h
    cases hprepare : (call.prepare plan operands memory).result with
    | error e' =>
        rw [(execute_of_error hprepare).2] at h
        obtain rfl := Except.error.inj h
        apply cause_of_prepare hplan hpartitioner hsize hprepare
    | ok prepared =>
        rw [(execute_of_ok hprepare).2, result_launched_of_not_oversize hplan hstorage hcount
          hprepare (not_oversize_of_tiled hpartitioner)] at h
        cases h

end SortCall

/-! ### Storage of larger calls -/

/-- Storage of the size that the query of a larger call reports serves a sort, whose own query
reports a size, too.  It is a sort of segments of an array of a length. -/
structure Serves {β : Type} (ν : Type) [Element ν] (segments : Segments) (length : Nat)
    (query larger : SortOutcome β) (sort : Memory → SortOutcome β) : Prop where
  /-- The size is no less than what the sort itself asks for. -/
  le : ∀ size size', query.reportedSize = some size → larger.reportedSize = some size' →
    size ≤ size'
  /-- The sort does not find the storage too small, at whatever address it is, -/
  enough : ∀ size size' memory, query.reportedSize = some size →
    larger.reportedSize = some size' → size' ≤ memory.size →
    ∀ required provided,
      (sort memory).result ≠ .error (.reported (.storageTooSmall required provided))
  /-- and at an address that suits keys and values, it succeeds precisely if there is no segment or
  all of them are well formed. -/
  ok_iff : ∀ size size' memory, query.reportedSize = some size →
    larger.reportedSize = some size' → size' ≤ memory.size →
    Element.alignment ν ∣ 16 → 16 ∣ memory.address →
    ((sort memory).result = .ok () ↔ segments.count = 0 ∨ segments.WellFormed length)

/-- Storage for the run of a larger call serves a sort that does the run of a smaller one. -/
theorem Serves.of_yields {t : KeyType} {ν : Type} [Element ν] {call larger : SortCall}
    {p : TiledPartition} (h : call.AtMost larger p) {operands operands' : Operands (Key t) ν}
    {β σ : Type} {selectors : β → σ} {unchanged unchanged' : β} {query query' : SortOutcome β}
    {sort : Memory → SortOutcome β}
    (hquery : call.query.Yields operands selectors unchanged query)
    (hlarger : larger.query.Yields operands' selectors unchanged' query')
    (hmode : operands.isDoubleBuffer = operands'.isDoubleBuffer)
    (hsize : operands.size ≤ operands'.size)
    (hsort : ∀ memory, (call.withStorage memory).Yields operands selectors unchanged
      (sort memory)) :
  Serves ν call.segments operands.size query query' sort
  := by
  have hle : ∀ size size', query.reportedSize = some size → query'.reportedSize = some size' →
      ∃ plan, call.plan operands = .ok plan ∧ size = plan.layout.required ∧ size ≤ size' := by
    intro size size' hreported hreported'
    rw [hquery.reportedSize] at hreported
    rw [hlarger.reportedSize] at hreported'
    obtain ⟨plan, hplan, rfl⟩ := SortCall.exists_plan_of_query hreported
    obtain ⟨plan', hplan', rfl⟩ := SortCall.exists_plan_of_query hreported'
    exact ⟨plan, hplan, rfl, h.required_le hplan hplan' hmode hsize⟩
  constructor
  case le =>
    intro size size' hreported hreported'
    obtain ⟨-, -, -, hle⟩ := hle size size' hreported hreported'
    apply hle
  case enough =>
    intro size size' memory hreported hreported' hroom required provided hresult
    obtain ⟨plan, hplan, rfl, hle⟩ := hle size size' hreported hreported'
    have hplan' : (call.withStorage memory).plan operands = .ok plan := hplan
    rw [(hsort memory).result] at hresult
    obtain ⟨cause, hcause, hsegments | haddress⟩ := SortCall.cause_of_error hplan' rfl h.tiles
      (plan.layout.total_le_required.trans (hle.trans hroom)) hresult
    · obtain rfl := Failure.reported.inj hcause
      cases hsegments
    · obtain rfl := Failure.reported.inj hcause
      cases haddress
  case ok_iff =>
    intro size size' memory hreported hreported' hroom hvalues
    obtain ⟨-, -, -, hle⟩ := hle size size' hreported hreported'
    apply (PhasesAgree.of_yields hvalues h.tiles hquery hsort).ok_iff size memory hreported
      (hle.trans hroom)

/-- Storage of the size that a call asks for serves all calls that have neither more items nor more
segments, if they choose the same configuration and partition the segments by the same tiles.  This
holds for each of the four sorts. -/
theorem storage_serves_smaller_calls (t : KeyType) (ν : Type) [Element ν] (call larger : SortCall)
    (p : TiledPartition) (h : call.AtMost larger p) :
  (∀ input output input' output' : Columns (Key t) ν, input.keys.length ≤ input'.keys.length →
    Serves ν call.segments input.keys.length (sortPairs call.query input output)
      (sortPairs larger.query input' output')
      fun memory => sortPairs (call.withStorage memory) input output)
  ∧ (∀ input output input' output' : List (Key t), input.length ≤ input'.length →
    Serves Unit call.segments input.length (sortKeys call.query input output)
      (sortKeys larger.query input' output')
      fun memory => sortKeys (call.withStorage memory) input output)
  ∧ (∀ (keys keys' : DoubleBuffer (Key t)) (values values' : DoubleBuffer ν),
    keys.size ≤ keys'.size →
    Serves ν call.segments keys.size (DoubleBuffer.sortPairs call.query keys values)
      (DoubleBuffer.sortPairs larger.query keys' values')
      fun memory => DoubleBuffer.sortPairs (call.withStorage memory) keys values)
  ∧ ∀ keys keys' : DoubleBuffer (Key t), keys.size ≤ keys'.size →
    Serves Unit call.segments keys.size (DoubleBuffer.sortKeys call.query keys)
      (DoubleBuffer.sortKeys larger.query keys')
      fun memory => DoubleBuffer.sortKeys (call.withStorage memory) keys
  := by
  refine ⟨?_, ?_, ?_, ?_⟩
  · intro input output input' output' hsize
    apply Serves.of_yields h (yields_sortPairs call.query input output)
      (yields_sortPairs larger.query input' output') rfl hsize
    intro memory
    apply yields_sortPairs
  · intro input output input' output' hsize
    apply Serves.of_yields h (yields_sortKeys call.query input output)
      (yields_sortKeys larger.query input' output') rfl hsize
    intro memory
    apply yields_sortKeys
  · intro keys keys' values values' hsize
    apply Serves.of_yields h (DoubleBuffer.yields_sortPairs call.query keys values)
      (DoubleBuffer.yields_sortPairs larger.query keys' values') rfl hsize
    intro memory
    apply DoubleBuffer.yields_sortPairs
  · intro keys keys' hsize
    apply Serves.of_yields h (DoubleBuffer.yields_sortKeys call.query keys)
      (DoubleBuffer.yields_sortKeys larger.query keys') rfl hsize
    intro memory
    apply DoubleBuffer.yields_sortKeys

/-- The sample with other segments, which are classified only if there are two of them. -/
def SortCall.thresholdSample (offsets : Array Nat) : SortCall :=
  { SortCall.tiledSample with
    segments := .ofOffsets offsets
    options := { SortCall.tiledSample.options with
      config := some ⟨2, 1, ⟨1, 1⟩, some ⟨2, 1, 2, 2⟩⟩ } }

open DoubleBuffer (sampleKeys) in
/-- To sort one segment of a double buffer, no storage is needed.  What is needed for two segments,
which are classified, serves as well. -/
theorem serves_sample :
  (DoubleBuffer.sortKeys (SortCall.thresholdSample #[0, 3]).query sampleKeys).reportedSize = some 4
    ∧ (DoubleBuffer.sortKeys (SortCall.thresholdSample #[0, 3, 5]).query sampleKeys).reportedSize
      = some 520
    ∧ (DoubleBuffer.sortKeys ((SortCall.thresholdSample #[0, 3]).withStorage (.filled 16 520 7))
      sampleKeys).result = .ok ()
  := by
  have hone : (DoubleBuffer.sortKeys (SortCall.thresholdSample #[0, 3]).query
      sampleKeys).reportedSize = some 4 := by
    rfl
  have htwo : (DoubleBuffer.sortKeys (SortCall.thresholdSample #[0, 3, 5]).query
      sampleKeys).reportedSize = some 520 := by
    rfl
  have hmost : (SortCall.thresholdSample #[0, 3]).AtMost (SortCall.thresholdSample #[0, 3, 5])
      (TiledPartition.ofTile 1) :=
    ⟨rfl, rfl, rfl, by decide, by decide⟩
  have hserves := (storage_serves_smaller_calls (.unsigned .w8) Unit _ _ _ hmost).2.2.2
    sampleKeys sampleKeys (Nat.le_refl _)
  use hone, htwo
  apply (hserves.ok_iff 4 520 (.filled 16 520 7) hone htwo _ (by decide) (Nat.dvd_refl 16)).mpr
  · right
    apply Segments.exists_resolve_iff.mp
    use ⟨[⟨0, 3⟩]⟩
    apply Segments.resolve_eq_ok_iff.mpr
    exact ⟨by decide, rfl, by decide, by decide⟩
  · apply Nat.le_of_eq
    apply List.length_replicate.symm

end SegmentSort
