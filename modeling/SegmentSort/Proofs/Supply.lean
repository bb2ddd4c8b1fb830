import SegmentSort.Proofs.Streams

/-!
# Storage that suffices

Memory suits a layout if it is large enough and if all parts of the layout that hold anything lie
at addresses that suit what they hold (`Layout.Suits`).  With tiles to partition the segments,
nothing else can go wrong once there is a plan: a call with storage and segments succeeds precisely
if the segments are well formed and the storage suits the layout (`SortCall.result_run_iff`).
Whether there is a plan does not depend on the segments then (`SortCall.admissible_of_plan`).
-/

namespace SegmentSort

/-- The alignment of what a region holds, where keys are of type `κ` and values of type `ν`. -/
def Region.alignment (κ ν : Type) [Element κ] [Element ν] : Region → Nat
  | .keys => Element.alignment κ
  | .values => Element.alignment ν
  | _ => Element.alignment UInt32

/-- Memory is large enough for a layout, and the address of every part that has any bytes suits
what it holds. -/
structure Layout.Suits (l : Layout) (κ ν : Type) [Element κ] [Element ν] (m : Memory) : Prop where
  size : l.total ≤ m.size
  address : ∀ e ∈ l.extents, e.bytes ≠ 0 → e.region.alignment κ ν ∣ m.address + e.offset

/-- Values have room in a region of their size, precisely if the address suits them or if they need
no bytes. -/
theorem Memory.exists_room_iff (m : Memory) (region : Region) (α : Type) [Element α] (n : Nat)
    (hsize : m.size = alignSize (n * Element.size α)) :
  (∃ room, m.room region α n = .ok room) ↔ (m.size ≠ 0 → Element.alignment α ∣ m.address)
  := by
  have hle := le_alignSize (n * Element.size α)
  simp only [room_eq_ok_iff, exists_and_left, exists_eq, and_true]
  rw [← alignSize_eq_zero_iff, ← hsize, Decidable.or_iff_not_imp_left]
  constructor
  · intro h hne
    apply Nat.dvd_of_mod_eq_zero (h hne).2
  · intro h hne
    exact ⟨by rwa [hsize], Nat.mod_eq_zero_of_dvd (h hne)⟩

/-! ### The parts of a storage -/

namespace Carved

/-- The regions that have not been handed out yet, with their sizes. -/
def sizes (c : Carved) : List (Region × Nat) :=
  c.regions.map fun r => (r.1, r.2.size)

/-- The address of every such region that has any bytes suits what it holds. -/
def Suited (c : Carved) (κ ν : Type) [Element κ] [Element ν] : Prop :=
  ∀ r ∈ c.regions, r.2.size ≠ 0 → r.1.alignment κ ν ∣ r.2.address

/-- A region in front of others. -/
def cons (region : Region) (m : Memory) (rest : Carved) : Carved :=
  ⟨(region, m) :: rest.regions⟩

/-- The region in front is handed out. -/
theorem take_cons (region : Region) (m : Memory) (rest : Carved) :
  (cons region m rest).take region = (some m, rest)
  := by
  rw [take, cons, List.lookup_cons_self]
  simp only [decide_true, List.eraseP_cons_of_pos]

theorem requireRoom_cons (region : Region) (m : Memory) (rest : Carved) (α : Type) [Element α]
    (n : Nat) :
  (cons region m rest).requireRoom region α n = (m.room region α n, rest)
  := by
  rw [requireRoom, takeRoom, take_cons]
  dsimp only
  cases m.room region α n <;> rfl

theorem exists_eq_cons {c : Carved} {region : Region} {bytes : Nat} {rs : List (Region × Nat)}
    (h : c.sizes = (region, bytes) :: rs) :
  ∃ m rest, c = cons region m rest ∧ m.size = bytes ∧ rest.sizes = rs
  := by
  rcases c with ⟨regions⟩
  obtain ⟨⟨region', m⟩, rest, rfl, hfirst, hrest⟩ := List.map_eq_cons_iff.mp h
  obtain ⟨rfl, rfl⟩ := Prod.mk.inj hfirst
  exact ⟨m, ⟨rest⟩, rfl, rfl, hrest⟩

theorem suited_cons_iff {κ ν : Type} [Element κ] [Element ν] {region : Region} {m : Memory}
    {rest : Carved} :
  (cons region m rest).Suited κ ν
    ↔ (m.size ≠ 0 → region.alignment κ ν ∣ m.address) ∧ rest.Suited κ ν
  := List.forall_mem_cons

end Carved

/-- Memory is carved into regions of the sizes that are asked for. -/
theorem Layout.sizes_of_carve {r : StorageRequest} {m : Memory} {c : Carved}
    (h : (ofRequest r).carve m = .ok c) :
  c.sizes = r.regions
  := by
  obtain ⟨hsize, rfl⟩ := carve_eq_ok_iff.mp h
  rw [Carved.sizes, cut_extents, List.map_map, ← map_extents]
  apply List.map_congr_left
  intro e he
  apply congrArg (e.region, ·)
  apply size_part hsize he

/-- Memory suits a layout precisely if it can be carved into suited regions. -/
theorem Layout.suits_iff {r : StorageRequest} {κ ν : Type} [Element κ] [Element ν] {m : Memory} :
  (ofRequest r).Suits κ ν m ↔ ∃ c, (ofRequest r).carve m = .ok c ∧ c.Suited κ ν
  := by
  have hsuited : (ofRequest r).total ≤ m.size →
      (Carved.Suited ⟨Carved.cut (ofRequest r).extents m⟩ κ ν
        ↔ ∀ e ∈ (ofRequest r).extents, e.bytes ≠ 0 →
          e.region.alignment κ ν ∣ m.address + e.offset) := by
    intro hsize
    rw [Carved.Suited, cut_extents, List.forall_mem_map]
    apply forall₂_congr
    intro e he
    rw [size_part hsize he]
    rfl
  constructor
  · intro h
    exact ⟨_, carve_eq_ok_iff.mpr ⟨h.size, rfl⟩, (hsuited h.size).mpr h.address⟩
  · rintro ⟨c, hcarve, hc⟩
    obtain ⟨hsize, rfl⟩ := carve_eq_ok_iff.mp hcarve
    exact ⟨hsize, (hsuited hsize).mp hc⟩

/-- Memory of the size that a caller is asked for suits a layout, if its address suits keys and
values of at most 16 bytes. -/
theorem Layout.suits_of_required {r : StorageRequest} {κ ν : Type} [Element κ] [Element ν]
    {m : Memory} (hkeys : Element.alignment κ ∣ 16) (hvalues : Element.alignment ν ∣ 16)
    (hsize : (ofRequest r).required ≤ m.size) (hbase : 16 ∣ m.address) :
  (ofRequest r).Suits κ ν m
  where
  size := (ofRequest r).total_le_required.trans hsize
  address := by
    intro e he _
    have hword : Element.alignment UInt32 ∣ 16 := by decide
    have halignment : e.region.alignment κ ν ∣ 16 := by
      cases e.region with
      | keys => apply hkeys
      | values => apply hvalues
      | segmentIndices => apply hword
      | largeSegmentCount => apply hword
      | partition => apply hword
    apply halignment.trans
    apply Nat.dvd_add hbase
    apply Nat.dvd_trans _ (storageAlignment_dvd_offset he)
    decide

/-- Tiles that are given the bytes that they have asked for reply with a partition precisely if
their counters are aligned. -/
theorem TiledPartition.valid_iff (p : TiledPartition) {n : Nat} (hword : n < wordBound)
    {request : PartitionRequest n} (hsegments : request.segments = n)
    (hsize : request.storage.size = p.storageBytes n) :
  (p.partition request).Valid ↔ request.storage.Aligned UInt32
  := by
  constructor
  · intro hvalid
    obtain ⟨counters, hcounters⟩ := p.exists_counters hvalid.ok
    apply (p.counters_eq_ok_iff.mp hcounters).2.2.1
  · intro haligned
    have hcounters := p.counters_eq_ok_iff.mpr
      ⟨Nat.le_of_eq (by rw [hsegments, hsize]), Nat.le_of_eq hsegments, haligned, rfl⟩
    apply (p.valid_partition hword hsegments hcounters).1

/-- Where there are segments, there are tiles, and each has a counter. -/
theorem TiledPartition.storageBytes_ne_zero (p : TiledPartition) {n : Nat} (hn : n ≠ 0) :
  p.storageBytes n ≠ 0
  := by
  have hle := le_ceilDiv_mul (n := n) p.tile_pos
  intro hzero
  rw [storageBytes, tiles] at hzero
  rcases Nat.mul_eq_zero.mp hzero with htiles | hsize
  · rw [htiles, Nat.zero_mul] at hle
    omega
  · cases hsize

namespace SortCall

variable {t : KeyType} {ν : Type} [Element ν] {call : SortCall} {operands : Operands (Key t) ν}
  {plan : Plan} {memory : Memory}

/-! ### What a sort takes from suited storage -/

/-- Once temporary items have been given room, the regions for the classification are left. -/
theorem sizes_of_temporaryItems {c rest : Carved} {bytes : Option Nat}
    (hsizes : c.sizes = (call.storageRequest operands bytes).regions)
    {temporary : List (Key t × ν)} (h : temporaryItems operands c = .ok (temporary, rest)) :
  rest.sizes = (call.storageRequest operands bytes).classificationRegions
  := by
  cases operands with
  | doubleBuffer current alternate =>
      obtain ⟨-, rfl⟩ := Prod.mk.inj (Except.ok.inj h)
      exact hsizes
  | separate input output =>
      obtain ⟨keys, rest', rfl, -, hsizes⟩ := Carved.exists_eq_cons hsizes
      obtain ⟨values, rest', rfl, -, hsizes⟩ := Carved.exists_eq_cons hsizes
      simp only [temporaryItems, Carved.requireRoom_cons, bind_eq_ok_iff] at h
      obtain ⟨keysRoom, -, valuesRoom, -, hpair⟩ := h
      obtain ⟨-, rfl⟩ := Prod.mk.inj (Except.ok.inj hpair)
      exact hsizes

/-- Regions are suited precisely if temporary items have room in them and those that are left are
suited. -/
theorem suited_iff_temporaryItems {c : Carved} {bytes : Option Nat}
    (hsizes : c.sizes = (call.storageRequest operands bytes).regions) :
  c.Suited (Key t) ν
    ↔ ∃ temporary rest, temporaryItems operands c = .ok (temporary, rest)
      ∧ rest.Suited (Key t) ν
  := by
  cases operands with
  | doubleBuffer current alternate =>
      constructor
      · intro hsuited
        exact ⟨[], c, rfl, hsuited⟩
      · rintro ⟨temporary, rest, h, hsuited⟩
        obtain ⟨-, rfl⟩ := Prod.mk.inj (Except.ok.inj h)
        exact hsuited
  | separate input output =>
      obtain ⟨keys, rest, rfl, hkeys, hsizes⟩ := Carved.exists_eq_cons hsizes
      obtain ⟨values, rest, rfl, hvalues, -⟩ := Carved.exists_eq_cons hsizes
      rw [Carved.suited_cons_iff, Carved.suited_cons_iff]
      simp only [temporaryItems, Carved.requireRoom_cons, Operands.size]
      constructor
      · rintro ⟨hkeysAddress, hvaluesAddress, hsuited⟩
        obtain ⟨keysRoom, hkeysRoom⟩ :=
          (keys.exists_room_iff .keys (Key t) input.keys.length hkeys).mpr hkeysAddress
        obtain ⟨valuesRoom, hvaluesRoom⟩ :=
          (values.exists_room_iff .values ν input.keys.length hvalues).mpr hvaluesAddress
        simp only [hkeysRoom, hvaluesRoom, ok_bind]
        exact ⟨_, rest, rfl, hsuited⟩
      · rintro ⟨temporary, rest', h, hsuited⟩
        simp only [bind_eq_ok_iff] at h
        obtain ⟨keysRoom, hkeysRoom, valuesRoom, hvaluesRoom, hpair⟩ := h
        obtain ⟨-, rfl⟩ := Prod.mk.inj (Except.ok.inj hpair)
        exact ⟨(keys.exists_room_iff .keys (Key t) input.keys.length hkeys).mp ⟨_, hkeysRoom⟩,
          (values.exists_room_iff .values ν input.keys.length hvalues).mp ⟨_, hvaluesRoom⟩, hsuited⟩

/-- A partitioner can be asked, with an aligned storage, precisely if the regions for the
classification are suited. -/
theorem suited_iff_request {c : Carved} {bytes : Nat} (hbytes : bytes ≠ 0)
    (hsizes : c.sizes = (call.storageRequest operands (some bytes)).classificationRegions)
    (classifier : Classifier) :
  c.Suited (Key t) ν
    ↔ ∃ request, call.request classifier c = .ok request ∧ request.storage.Aligned UInt32
  := by
  obtain ⟨indices, rest, rfl, hindices, hsizes⟩ := Carved.exists_eq_cons hsizes
  obtain ⟨count, rest, rfl, hone, hsizes⟩ := Carved.exists_eq_cons hsizes
  obtain ⟨storage, rest, rfl, hstorage, hsizes⟩ := Carved.exists_eq_cons hsizes
  have hindicesRoom := indices.exists_room_iff .segmentIndices UInt32 call.segments.count hindices
  have hcountRoom := count.exists_room_iff .largeSegmentCount UInt32 1 (by rw [hone, Nat.one_mul])
  have hrest : rest.Suited (Key t) ν := by
    have hnil : rest.regions = [] := List.map_eq_nil_iff.mp hsizes
    rw [Carved.Suited, hnil]
    apply List.forall_mem_nil
  rw [Carved.suited_cons_iff, Carved.suited_cons_iff, Carved.suited_cons_iff, hstorage]
  simp only [SortCall.request, Carved.requireRoom_cons, Carved.take_cons]
  constructor
  · rintro ⟨hindicesAddress, hcountAddress, haddress, -⟩
    obtain ⟨indicesRoom, hindicesRoom⟩ := hindicesRoom.mpr hindicesAddress
    obtain ⟨countRoom, hcountRoom⟩ := hcountRoom.mpr hcountAddress
    simp only [hindicesRoom, hcountRoom, ok_bind]
    exact ⟨_, rfl, Nat.mod_eq_zero_of_dvd (haddress hbytes)⟩
  · rintro ⟨request, h, haligned⟩
    simp only [bind_eq_ok_iff] at h
    obtain ⟨indicesRoom, hindicesRoom', countRoom, hcountRoom', hrequest⟩ := h
    obtain rfl := Except.ok.inj hrequest
    refine ⟨hindicesRoom.mp ⟨indicesRoom, hindicesRoom'⟩,
      hcountRoom.mp ⟨countRoom, hcountRoom'⟩, ?_, hrest⟩
    intro _
    apply Nat.dvd_of_mod_eq_zero haligned

/-- Where a partitioner is asked, it has been given the bytes that it asked for. -/
theorem size_of_request {c : Carved} {bytes : Nat}
    (hsizes : c.sizes = (call.storageRequest operands (some bytes)).classificationRegions)
    {classifier : Classifier} {request : PartitionRequest call.segments.count}
    (h : call.request classifier c = .ok request) :
  request.storage.size = bytes
  := by
  obtain ⟨indices, rest, rfl, -, hsizes⟩ := Carved.exists_eq_cons hsizes
  obtain ⟨count, rest, rfl, -, hsizes⟩ := Carved.exists_eq_cons hsizes
  obtain ⟨storage, rest, rfl, hstorage, -⟩ := Carved.exists_eq_cons hsizes
  simp only [SortCall.request, Carved.requireRoom_cons, Carved.take_cons, bind_eq_ok_iff] at h
  obtain ⟨indicesRoom, -, countRoom, -, hrequest⟩ := h
  obtain rfl := Except.ok.inj hrequest
  apply hstorage

/-- With tiles to partition the segments, work follows from views of all of them precisely if the
regions for the classification are suited. -/
theorem exists_work_iff (hplan : call.Planned operands plan) (hcount : call.segments.count ≠ 0)
    {p : TiledPartition} (hpartitioner : call.partitioner = p.partitioner) {bytes : Option Nat}
    (hbytes : call.partitionBytes plan.classifier = .ok bytes) {rest : Carved}
    (hsizes : rest.sizes = (call.storageRequest operands bytes).classificationRegions)
    (map : SegmentMap) {views : List (SegmentView (Key t × ν))}
    (hviews : views.length = call.segments.count) :
  (∃ prepared, (match plan.classifier with
    | none => return (map, .uniform views)
    | some classifier => do
      let request ← reported (call.request classifier rest)
      let work ← workOf classifier views (plan.partitioner.partition request)
      return (map, work) : Except Failure (SegmentMap × Work (Key t × ν))) = .ok prepared)
    ↔ rest.Suited (Key t) ν
  := by
  cases hclassifier : plan.classifier with
  | none =>
      rw [hclassifier] at hbytes
      obtain rfl := Except.ok.inj hbytes
      have hnil : rest.regions = [] := List.map_eq_nil_iff.mp hsizes
      rw [Carved.Suited, hnil]
      exact ⟨fun _ => List.forall_mem_nil _, fun _ => ⟨_, rfl⟩⟩
  | some classifier =>
      rw [hclassifier] at hbytes
      obtain rfl := bytes_of_tiled hpartitioner hbytes
      have hvalid : ∀ request, call.request classifier rest = .ok request →
          ((plan.partitioner.partition request).Valid ↔ request.storage.Aligned UInt32) := by
        intro request hrequest
        rw [hplan.partitioner, hpartitioner]
        apply p.valid_iff (hplan.lt_wordBound hclassifier) (request_eq_ok hrequest).1
          (size_of_request hsizes hrequest)
      rw [suited_iff_request (p.storageBytes_ne_zero hcount) hsizes classifier]
      simp only [bind_eq_ok_iff, reported_eq_ok_iff]
      constructor
      · rintro ⟨prepared, request, hrequest, work, hwork, -⟩
        use request, hrequest
        rw [← hvalid request hrequest, ← exists_workOf_iff classifier hviews]
        exact ⟨work, hwork⟩
      · rintro ⟨request, hrequest, haligned⟩
        rw [← hvalid request hrequest, ← exists_workOf_iff classifier hviews] at haligned
        obtain ⟨work, hwork⟩ := haligned
        exact ⟨_, request, hrequest, work, hwork, rfl⟩

/-- With tiles to partition the segments, the work is prepared precisely if the segments are well
formed and the storage suits the layout. -/
theorem exists_prepare_iff (hplan : call.plan operands = .ok plan)
    (hcount : call.segments.count ≠ 0) {p : TiledPartition}
    (hpartitioner : call.partitioner = p.partitioner) :
  (∃ prepared, (call.prepare plan operands memory).result = .ok prepared)
    ↔ call.segments.WellFormed operands.size ∧ plan.layout.Suits (Key t) ν memory
  := by
  have hplanned := planned_of_plan hplan
  obtain ⟨bytes, hbytes, hlayout⟩ := layout_of_plan hplan
  rw [← Segments.exists_resolve_iff, hlayout, Layout.suits_iff, ← hlayout]
  simp only [result_prepare, bind_eq_ok_iff, reported_eq_ok_iff, defined_eq_ok_iff]
  have hregions : ∀ carved, plan.layout.carve memory = .ok carved →
      carved.sizes = (call.storageRequest operands bytes).regions := by
    intro carved hcarved
    rw [hlayout] at hcarved
    apply Layout.sizes_of_carve hcarved
  have hviews : ∀ map temporary carved rest, call.segments.resolve operands.size = .ok map →
      temporaryItems operands carved = .ok (temporary, rest) →
      operands.views? temporary map = some (map.spans.map (operands.view temporary))
        ∧ (map.spans.map (operands.view temporary)).length = call.segments.count := by
    intro map temporary carved rest hmap htemporary
    use Operands.views?_eq_some (hplanned.ready hmap htemporary)
    rw [List.length_map, Segments.length_of_resolve hmap]
  constructor
  · rintro ⟨prepared, map, hmap, carved, hcarved, ⟨temporary, rest⟩, htemporary, views, hsome, h⟩
    use ⟨map, hmap⟩, carved, hcarved
    have hsizes := sizes_of_temporaryItems (hregions carved hcarved) htemporary
    obtain ⟨hviews, hlength⟩ := hviews map temporary carved rest hmap htemporary
    obtain rfl := Option.some.inj (hsome.symm.trans hviews)
    apply (suited_iff_temporaryItems (hregions carved hcarved)).mpr ⟨temporary, rest, htemporary, _⟩
    apply (exists_work_iff hplanned hcount hpartitioner hbytes hsizes map hlength).mp ⟨prepared, h⟩
  · rintro ⟨⟨map, hmap⟩, carved, hcarved, hsuited⟩
    obtain ⟨temporary, rest, htemporary, hrest⟩ :=
      (suited_iff_temporaryItems (hregions carved hcarved)).mp hsuited
    have hsizes := sizes_of_temporaryItems (hregions carved hcarved) htemporary
    obtain ⟨hviews, hlength⟩ := hviews map temporary carved rest hmap htemporary
    obtain ⟨prepared, h⟩ :=
      (exists_work_iff hplanned hcount hpartitioner hbytes hsizes map hlength).mpr hrest
    exact ⟨prepared, map, hmap, carved, hcarved, (temporary, rest), htemporary, _, hviews, h⟩

/-- With tiles to partition the segments, a call with storage and segments that has a plan succeeds
precisely if the segments are well formed and the storage suits the layout. -/
theorem result_run_iff (hplan : call.plan operands = .ok plan)
    (hstorage : call.storage = some memory) (hcount : call.segments.count ≠ 0)
    {p : TiledPartition} (hpartitioner : call.partitioner = p.partitioner) :
  (call.run operands).trace.result.map (fun _ => ()) = .ok ()
    ↔ call.segments.WellFormed operands.size ∧ plan.layout.Suits (Key t) ν memory
  := by
  rw [← exists_prepare_iff hplan hcount hpartitioner, run_eq_execute hplan hstorage hcount]
  cases hprepare : (call.prepare plan operands memory).result with
  | error e =>
      rw [(execute_of_error hprepare).2]
      constructor
      · rintro ⟨⟩
      · rintro ⟨prepared, ⟨⟩⟩
  | ok prepared =>
      rw [(execute_of_ok hprepare).2, result_launched_of_not_oversize hplan hstorage hcount hprepare
        (not_oversize_of_tiled hpartitioner)]
      exact ⟨fun _ => ⟨prepared, rfl⟩, fun _ => rfl⟩

/-! ### Calls that succeed -/

/-- With tiles to partition the segments, a call that has a plan is admissible. -/
theorem admissible_of_plan (hplan : call.plan operands = .ok plan) {p : TiledPartition}
    (hpartitioner : call.partitioner = p.partitioner) :
  call.Admissible operands plan.config
  := by
  have hplanned := planned_of_plan hplan
  refine ⟨⟨hplanned.config, hplanned.valid, ⟨_, hplanned.bits⟩, hplanned.lengths⟩, ?_, ?_⟩
  · intro route hroute
    have hclassifier := hplanned.classifier
    rw [Config.classifier?, Option.mem_def.mp hroute] at hclassifier
    obtain ⟨capacity, hcapacity, -⟩ := bind_eq_ok_iff.mp hclassifier
    apply (inWord?_eq_some_iff.mp (defined_eq_ok_iff.mp hcapacity)).1
  · intro route _ _
    rw [hpartitioner]
    exact ⟨_, rfl⟩

/-- Then a call with the same options is admissible, too, whatever its segments are. -/
theorem Admissible.of_options {config : Config} (h : call.Admissible operands config)
    {call' : SortCall} (hoptions : call'.options = call.options) {p : TiledPartition}
    (hpartitioner : call.partitioner = p.partitioner) {operands' : Operands (Key t) ν}
    (hlengths : operands'.checkLengths = .ok ()) :
  call'.Admissible operands' config
  := by
  refine ⟨⟨?_, h.valid, ?_, hlengths⟩, h.capacity, ?_⟩
  · rw [config?, hoptions]
    apply h.chosen
  · rw [hoptions]
    apply h.bits
  · intro route _ _
    have htiled : call'.partitioner = p.partitioner := by
      rw [partitioner, hoptions]
      apply hpartitioner
    rw [htiled]
    exact ⟨_, rfl⟩

/-- Of the segments a plan depends on their number only, and of the operands on their lengths. -/
theorem plan_congr {call' : SortCall} (hoptions : call'.options = call.options)
    (hcount : call'.segments.count = call.segments.count) {operands' : Operands (Key t) ν}
    (hmode : operands'.isDoubleBuffer = operands.isDoubleBuffer)
    (hsize : operands'.size = operands.size)
    (hlengths : operands'.checkLengths = operands.checkLengths) :
  call'.plan operands' = call.plan operands
  := by
  simp only [SortCall.plan, storageRequest, config?, partitionBytes, partitioner, hoptions, hcount,
    hmode, hsize, hlengths]

/-- A call has storage that suits its plan. -/
def Stocked (call : SortCall) (operands : Operands (Key t) ν) : Prop :=
  ∃ memory, call.storage = some memory
    ∧ ∀ plan, call.plan operands = .ok plan → plan.layout.Suits (Key t) ν memory

/-- Storage of the size that a query reports suffices, if its address suits keys and values. -/
theorem stocked_of_query (hvalues : Element.alignment ν ∣ 16)
    (hstorage : call.storage = some memory) {size : Nat}
    (hquery : (call.query.run operands).reportedSize = some size) (hsize : size ≤ memory.size)
    (hbase : 16 ∣ memory.address) :
  call.Stocked operands
  := by
  use memory, hstorage
  intro plan hplan
  have hqueryPlan : call.query.plan operands = .ok plan := hplan
  rw [run_of_no_storage hqueryPlan rfl] at hquery
  obtain rfl := Option.some.inj hquery
  obtain ⟨bytes, -, hlayout⟩ := layout_of_plan hplan
  rw [hlayout] at hsize ⊢
  apply Layout.suits_of_required (alignment_key_dvd t) hvalues hsize hbase

/-- There is nothing that a call could fail for: it is admissible, its segments are partitioned by
tiles and well formed, and its storage suffices. -/
structure Provided (call : SortCall) (operands : Operands (Key t) ν) : Prop where
  admissible : ∃ config, call.Admissible operands config
  tiled : ∃ p : TiledPartition, call.partitioner = p.partitioner
  stocked : call.Stocked operands
  segments : call.segments.WellFormed operands.size

theorem Provided.lengths (h : call.Provided operands) :
  operands.checkLengths = .ok ()
  := by
  obtain ⟨config, hadmissible⟩ := h.admissible
  apply hadmissible.lengths

theorem Provided.result_run (h : call.Provided operands) :
  (call.run operands).trace.result.map (fun _ => ()) = .ok ()
  := by
  obtain ⟨⟨config, hadmissible⟩, ⟨p, hpartitioner⟩, ⟨memory, hstorage, hsuits⟩, hsegments⟩ := h
  obtain ⟨plan, hplan⟩ := hadmissible.exists_plan
  by_cases hcount : call.segments.count = 0
  · rw [run_of_no_segments hplan hstorage hcount]
    rfl
  · apply (result_run_iff hplan hstorage hcount hpartitioner).mpr ⟨hsegments, hsuits plan hplan⟩

/-- It does not matter which keys and values it is, nor what the buffers hold that are written. -/
theorem Provided.congr (h : call.Provided operands) (operands' : Operands (Key t) ν)
    (hmode : operands'.isDoubleBuffer = operands.isDoubleBuffer)
    (hsize : operands'.size = operands.size) (hlengths : operands'.checkLengths = .ok ()) :
  call.Provided operands'
  := by
  obtain ⟨⟨config, hadmissible⟩, ⟨p, hpartitioner⟩, ⟨memory, hstorage, hsuits⟩, hsegments⟩ := h
  refine ⟨⟨config, hadmissible.of_options rfl hpartitioner hlengths⟩, ⟨p, hpartitioner⟩,
    ⟨memory, hstorage, ?_⟩, ?_⟩
  · intro plan hplan
    apply hsuits plan
    rw [← hplan]
    apply plan_congr
    · rfl
    · rfl
    · rw [hmode]
    · rw [hsize]
    · rw [hlengths, hadmissible.lengths]
  · rwa [hsize]

/-- A run keeps the lengths of its operands. -/
theorem lengths_run (call : SortCall) (h : operands.checkLengths = .ok ()) :
  (call.run operands).operands.isDoubleBuffer = operands.isDoubleBuffer
    ∧ (call.run operands).operands.size = operands.size
    ∧ (call.run operands).operands.checkLengths = .ok ()
  := by
  rcases call.run_cases operands with ⟨hoperands, -⟩ |
    ⟨-, plan, map, work, hplan, hprepared, hoperands, -⟩
  · rw [hoperands]
    exact ⟨rfl, rfl, h⟩
  · rw [hoperands]
    have hcolumns : ∀ location, operands.isDoubleBuffer = true ∨ location = .alternate →
        ((operands.withViews map (call.launched plan work).items).columns location).keys.length
            = operands.size
          ∧ ((operands.withViews map (call.launched plan work).items).columns location).Even := by
      intro location hlocation
      have heven : ((operands.withViews map
          (call.launched plan work).items).columns location).Even := by
        rw [Operands.columns_withViews hlocation]
        apply Columns.even_ofItems
      rw [← heven.length_items, hprepared.length_items hplan hlocation]
      exact ⟨Operands.length_items_columns h .primary, heven⟩
    have hprimary := Operands.checkLengths_eq_ok_iff.mp h .primary
    rw [Operands.checkLengths_eq_ok_iff]
    cases operands with
    | separate input output =>
        refine ⟨rfl, rfl, ?_⟩
        rintro (_ | _)
        · apply hprimary
        · apply hcolumns .alternate (.inr rfl)
    | doubleBuffer current alternate =>
        have hsize := (hcolumns .primary (.inl rfl)).1
        refine ⟨rfl, hsize, ?_⟩
        intro location
        obtain ⟨hlength, heven⟩ := hcolumns location (.inl rfl)
        exact ⟨hlength.trans hsize.symm, heven⟩

end SortCall

end SegmentSort
