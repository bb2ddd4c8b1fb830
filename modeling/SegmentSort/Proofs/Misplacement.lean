import SegmentSort.Proofs.Phases

/-!
# Storage at an address that does not suit

A sort takes from its storage room for the keys, for the values and for the indices of the
segments, in this order.  The addresses of the regions agree with that of the storage modulo the
storage alignment, so this address alone decides for which of them there is no room
(`SortCall.temporaryItems_misplaced`, `SortCall.request_misplaced`).  Once a call has passed the
checks that come before, it names the first such region if there is one, and succeeds if there is
none (`misplacement_is_reported`).
-/

namespace SegmentSort

theorem size_key_pos (t : KeyType) :
  0 < Element.size (Key t)
  := by
  rcases t with (w | w | _ | _) <;> (try cases w) <;> decide

/-- Whether values are misplaced depends on the address modulo 16 only. -/
theorem Element.misplaced_iff {α : Type} [Element α] {n address k : Nat}
    (halignment : alignment α ∣ 16) (hk : address ≡ k [MOD 16]) :
  Misplaced α n address ↔ 0 < n ∧ 0 < size α ∧ ¬ alignment α ∣ k
  := by
  rw [Misplaced, hk.dvd_iff halignment, Nat.pos_iff_ne_zero, Nat.mul_ne_zero_iff, and_assoc,
    Nat.pos_iff_ne_zero, Nat.pos_iff_ne_zero]

/-- A result names the first of three regions that is misplaced, and there is no other cause to
report misaligned storage. -/
structure ReportsMisplacement (atKeys atValues atIndices : Prop) (result : Except Failure Unit) :
    Prop where
  iff : (∃ region, result = .error (.reported (.misalignedStorage region)))
    ↔ atKeys ∨ atValues ∨ atIndices
  keys : atKeys → result = .error (.reported (.misalignedStorage .keys))
  values : ¬ atKeys → atValues → result = .error (.reported (.misalignedStorage .values))
  indices : ¬ atKeys → ¬ atValues → atIndices →
    result = .error (.reported (.misalignedStorage .segmentIndices))
  ok : ¬ atKeys → ¬ atValues → ¬ atIndices → result = .ok ()

namespace ReportsMisplacement

variable {atKeys atValues atIndices : Prop} {result : Except Failure Unit}

/-- The first misplaced region is the only cause if a sort succeeds without one. -/
theorem of_first (hkeys : atKeys → result = .error (.reported (.misalignedStorage .keys)))
    (hvalues : ¬ atKeys → atValues → result = .error (.reported (.misalignedStorage .values)))
    (hindices : ¬ atKeys → ¬ atValues → atIndices →
      result = .error (.reported (.misalignedStorage .segmentIndices)))
    (hok : ¬ atKeys → ¬ atValues → ¬ atIndices → result = .ok ()) :
  ReportsMisplacement atKeys atValues atIndices result
  := by
  refine ⟨?_, hkeys, hvalues, hindices, hok⟩
  constructor
  · rintro ⟨region, hregion⟩
    by_contra hnone
    rw [not_or, not_or] at hnone
    rw [hok hnone.1 hnone.2.1 hnone.2.2] at hregion
    cases hregion
  · intro h
    by_cases hatKeys : atKeys
    · exact ⟨_, hkeys hatKeys⟩
    · by_cases hatValues : atValues
      · exact ⟨_, hvalues hatKeys hatValues⟩
      · exact ⟨_, hindices hatKeys hatValues ((h.resolve_left hatKeys).resolve_left hatValues)⟩

/-- The conditions may be put in other words. -/
theorem congr {atKeys' atValues' atIndices' : Prop}
    (h : ReportsMisplacement atKeys atValues atIndices result) (hkeys : atKeys ↔ atKeys')
    (hvalues : atValues ↔ atValues') (hindices : atIndices ↔ atIndices') :
  ReportsMisplacement atKeys' atValues' atIndices' result
  := by
  rwa [← hkeys, ← hvalues, ← hindices]

end ReportsMisplacement

namespace SortCall

variable {t : KeyType} {ν : Type} [Element ν] {call : SortCall} {operands : Operands (Key t) ν}
  {plan : Plan} {carved : Carved} {base : Nat}

/-! ### The first region without room -/

/-- Temporary items have no room where keys are misplaced, nor where values are. -/
theorem temporaryItems_misplaced {bytes : Option Nat} (hvalues : Element.alignment ν ∣ 16)
    (hseparate : operands.isDoubleBuffer = false)
    (hholds : ∀ p ∈ (call.storageRequest operands bytes).regions, carved.Holds base p.1 p.2) :
  (Element.Misplaced (Key t) operands.size base
      → temporaryItems operands carved = .error (.misalignedStorage .keys))
    ∧ (¬ Element.Misplaced (Key t) operands.size base → Element.Misplaced ν operands.size base
      → temporaryItems operands carved = .error (.misalignedStorage .values))
  := by
  cases operands with
  | doubleBuffer current alternate => cases hseparate
  | separate input output =>
      obtain ⟨hkeysRoom, hvaluesRoom⟩ := roomAt_items hvalues hholds
      constructor
      · intro hmisplaced
        rw [temporaryItems, Operands.size, hkeysRoom.misplaced hmisplaced]
        rfl
      · intro hplaced hmisplaced
        obtain ⟨keys, hkeys⟩ := hkeysRoom.ok hplaced
        rw [temporaryItems, Operands.size, hkeys]
        simp only [ok_bind]
        rw [hvaluesRoom.misplaced hmisplaced]
        rfl

/-- Indices of segments have no room where words are misplaced, so no partitioner is asked. -/
theorem request_misplaced {bytes : Nat} (hcount : call.segments.count ≠ 0)
    (hbase : ¬ Element.alignment UInt32 ∣ base)
    (hholds : ∀ p ∈ (call.storageRequest operands (some bytes)).classificationRegions,
      carved.Holds base p.1 p.2) (classifier : Classifier) :
  call.request classifier carved = .error (.misalignedStorage .segmentIndices)
  := by
  have hindices : carved.Holds base .segmentIndices _ := hholds (_, _) List.mem_cons_self
  have hmisplaced : Element.Misplaced UInt32 call.segments.count base :=
    ⟨Nat.mul_pos (Nat.pos_of_ne_zero hcount) (by decide), hbase⟩
  have hroom := hindices.roomAt UInt32 (n := call.segments.count) (le_alignSize _) (by decide)
  rw [request, hroom.misplaced hmisplaced]
  rfl

/-! ### A sort that comes as far as its storage -/

/-- A call for some segments passes the checks that come before it takes anything from its storage,
and leaves it to tiles to partition the segments. -/
structure Passes (call : SortCall) (operands : Operands (Key t) ν) (plan : Plan)
    (memory : Memory) : Prop where
  planned : call.plan operands = .ok plan
  storage : call.storage = some memory
  count : call.segments.count ≠ 0
  partitioner : ∃ p : TiledPartition, call.partitioner = p.partitioner
  segments : call.segments.WellFormed operands.size
  size : plan.layout.total ≤ memory.size

variable {memory : Memory}

/-- An error of the preparation is that of the call. -/
theorem Passes.result_of_prepare (h : call.Passes operands plan memory) {e : Failure}
    (hprepare : (call.prepare plan operands memory).result = .error e) :
  (call.run operands).trace.result.map (fun _ => ()) = .error e
  := by
  rw [run_eq_execute h.planned h.storage h.count, (execute_of_error hprepare).2]
  rfl

/-- Without room for temporary items, the call fails as they do. -/
theorem Passes.result_of_temporaryItems (h : call.Passes operands plan memory) {map : SegmentMap}
    (hmap : call.segments.resolve operands.size = .ok map)
    (hcarved : plan.layout.carve memory = .ok carved) {e : SortError}
    (he : temporaryItems operands carved = .error e) :
  (call.run operands).trace.result.map (fun _ => ()) = .error (.reported e)
  := by
  apply h.result_of_prepare
  simp only [result_prepare, hmap, hcarved, he, reported_ok, ok_bind]
  rfl

/-- Without room for the indices of the segments, a call that classifies them fails. -/
theorem Passes.result_of_request (h : call.Passes operands plan memory) {map : SegmentMap}
    (hmap : call.segments.resolve operands.size = .ok map)
    (hcarved : plan.layout.carve memory = .ok carved) {temporary : List (Key t × ν)}
    {rest : Carved} (htemporary : temporaryItems operands carved = .ok (temporary, rest))
    {classifier : Classifier} (hclassifier : plan.classifier = some classifier) {e : SortError}
    (he : call.request classifier rest = .error e) :
  (call.run operands).trace.result.map (fun _ => ()) = .error (.reported e)
  := by
  have hready := (planned_of_plan h.planned).ready hmap htemporary
  apply h.result_of_prepare
  simp only [result_prepare, hmap, hcarved, htemporary, Operands.views?_eq_some hready,
    hclassifier, he, reported_ok, defined_some, ok_bind]
  rfl

/-- A call that comes as far as its storage ends as the address of the storage decides. -/
theorem Passes.reportsMisplacement (h : call.Passes operands plan memory)
    (hvalues : Element.alignment ν ∣ 16) :
  ReportsMisplacement
    (operands.isDoubleBuffer = false ∧ Element.Misplaced (Key t) operands.size memory.address)
    (operands.isDoubleBuffer = false ∧ Element.Misplaced ν operands.size memory.address)
    (plan.classifier.isSome ∧ ¬ Element.alignment UInt32 ∣ memory.address)
    ((call.run operands).trace.result.map fun _ => ())
  := by
  obtain ⟨map, hmap⟩ := Segments.exists_resolve_iff.mpr h.segments
  obtain ⟨carved, bytes, hcarved, hbytes, hholds⟩ := holds_of_plan h.planned h.size
  obtain ⟨p, hpartitioner⟩ := h.partitioner
  apply ReportsMisplacement.of_first
  · rintro ⟨hseparate, hmisplaced⟩
    apply h.result_of_temporaryItems hmap hcarved
    apply (temporaryItems_misplaced hvalues hseparate hholds).1 hmisplaced
  · rintro hkeys ⟨hseparate, hmisplaced⟩
    apply h.result_of_temporaryItems hmap hcarved
    apply (temporaryItems_misplaced hvalues hseparate hholds).2 _ hmisplaced
    intro hatKeys
    apply hkeys ⟨hseparate, hatKeys⟩
  · rintro hkeys hvaluesPlaced ⟨hclassified, hmisplaced⟩
    rw [not_and] at hkeys hvaluesPlaced
    obtain ⟨classifier, hclassifier⟩ := Option.isSome_iff_exists.mp hclassified
    obtain ⟨temporary, rest, htemporary, hrest⟩ :=
      temporaryItems_ok hvalues hkeys hvaluesPlaced hholds
    rw [hclassifier] at hbytes
    obtain rfl := bytes_of_tiled hpartitioner hbytes
    apply h.result_of_request hmap hcarved htemporary hclassifier
    apply request_misplaced h.count hmisplaced hrest
  · intro hkeys hvaluesPlaced hindices
    rw [not_and] at hkeys hvaluesPlaced
    rw [not_and, not_not] at hindices
    have hsupplied : call.Supplied operands plan memory :=
      ⟨h.planned, h.storage, h.count, h.size, hvalues, hkeys, hvaluesPlaced, hindices⟩
    rw [hsupplied.result_eq_resolve hpartitioner, hmap]
    rfl

end SortCall

/-! ### All sorts -/

section

variable {t : KeyType} {ν : Type} [Element ν] {call : SortCall} {plan : Plan} {memory : Memory}
  {k : Nat}

/-- Indices are words, which are at multiples of 4. -/
theorem indices_misplaced_iff (hk : memory.address ≡ k [MOD 16]) :
  (plan.classifier.isSome ∧ ¬ Element.alignment UInt32 ∣ memory.address)
    ↔ (plan.classifier.isSome ∧ ¬ 4 ∣ k)
  := by
  rw [hk.dvd_iff (show Element.alignment UInt32 ∣ 16 by decide)]
  rfl

/-- A sort from one list of items into another one needs room for keys and values. -/
theorem SortCall.Passes.reportsMisplacement_separate {input output : Columns (Key t) ν}
    (h : call.Passes (.separate input output) plan memory) (hvalues : Element.alignment ν ∣ 16)
    (hk : memory.address ≡ k [MOD 16]) :
  ReportsMisplacement (0 < input.keys.length ∧ ¬ Element.alignment (Key t) ∣ k)
    (0 < input.keys.length ∧ 0 < Element.size ν ∧ ¬ Element.alignment ν ∣ k)
    (plan.classifier.isSome ∧ ¬ 4 ∣ k)
    ((call.run (.separate input output)).trace.result.map fun _ => ())
  := by
  have hseparate : (Operands.separate input output).isDoubleBuffer = false := rfl
  apply (h.reportsMisplacement hvalues).congr
  · rw [Element.misplaced_iff (alignment_key_dvd t) hk, and_iff_right hseparate]
    apply and_congr_right
    intro _
    apply and_iff_right (size_key_pos t)
  · rw [Element.misplaced_iff hvalues hk, and_iff_right hseparate]
    rfl
  · apply indices_misplaced_iff hk

/-- A sort within double buffers needs room for the classification only. -/
theorem SortCall.Passes.reportsMisplacement_doubleBuffer {current alternate : Columns (Key t) ν}
    (h : call.Passes (.doubleBuffer current alternate) plan memory)
    (hvalues : Element.alignment ν ∣ 16) (hk : memory.address ≡ k [MOD 16]) :
  ReportsMisplacement False False (plan.classifier.isSome ∧ ¬ 4 ∣ k)
    ((call.run (.doubleBuffer current alternate)).trace.result.map fun _ => ())
  := by
  apply (h.reportsMisplacement hvalues).congr
  · apply iff_of_false _ not_false
    rintro ⟨⟨⟩, -⟩
  · apply iff_of_false _ not_false
    rintro ⟨⟨⟩, -⟩
  · apply indices_misplaced_iff hk

end

/-- Misaligned storage is reported precisely if the address of the storage does not suit what is
to be stored, and then the region is named that comes first.  Keys and values are stored by the
sorts from one list into another one, if there are any, and indices by those that classify the
segments. -/
theorem misplacement_is_reported (t : KeyType) (ν : Type) [Element ν]
    (hvalues : Element.alignment ν ∣ 16) (call : SortCall) (plan : Plan) (memory : Memory) (k : Nat)
    (hk : memory.address ≡ k [MOD 16]) :
  (∀ input output : Columns (Key t) ν, call.Passes (.separate input output) plan memory →
    ReportsMisplacement (0 < input.keys.length ∧ ¬ Element.alignment (Key t) ∣ k)
      (0 < input.keys.length ∧ 0 < Element.size ν ∧ ¬ Element.alignment ν ∣ k)
      (plan.classifier.isSome ∧ ¬ 4 ∣ k) (sortPairs call input output).result)
  ∧ (∀ input output : List (Key t), call.Passes (keyOperands input output) plan memory →
    ReportsMisplacement (0 < input.length ∧ ¬ Element.alignment (Key t) ∣ k) False
      (plan.classifier.isSome ∧ ¬ 4 ∣ k) (sortKeys call input output).result)
  ∧ (∀ (keys : DoubleBuffer (Key t)) (values : DoubleBuffer ν),
    call.Passes (DoubleBuffer.operands keys values) plan memory →
    ReportsMisplacement False False (plan.classifier.isSome ∧ ¬ 4 ∣ k)
      (DoubleBuffer.sortPairs call keys values).result)
  ∧ ∀ keys : DoubleBuffer (Key t),
    call.Passes (DoubleBuffer.operands keys keys.units) plan memory →
    ReportsMisplacement False False (plan.classifier.isSome ∧ ¬ 4 ∣ k)
      (DoubleBuffer.sortKeys call keys).result
  := by
  have hunits : Element.alignment Unit ∣ 16 := by decide
  refine ⟨?_, ?_, ?_, ?_⟩
  · intro input output h
    rw [(yields_sortPairs call input output).result]
    apply h.reportsMisplacement_separate hvalues hk
  · intro input output h
    rw [(yields_sortKeys call input output).result]
    apply (h.reportsMisplacement_separate hunits hk).congr Iff.rfl _ Iff.rfl
    -- values that say nothing have no bytes
    apply iff_of_false _ not_false
    rintro ⟨-, hsize, -⟩
    apply Nat.lt_irrefl 0 hsize
  · intro keys values h
    rw [(DoubleBuffer.yields_sortPairs call keys values).result]
    apply h.reportsMisplacement_doubleBuffer hvalues hk
  · intro keys h
    rw [(DoubleBuffer.yields_sortKeys call keys).result]
    apply h.reportsMisplacement_doubleBuffer hunits hk

/-- Storage at an odd address suits keys and values of one byte, but not the indices by which the
segments of the sample are classified. -/
theorem reportsMisplacement_sample :
  ∃ plan, (SortCall.tiledSample.withStorage (.filled 17 1032 7)).Passes
      (.separate Columns.sample Columns.sample) plan (.filled 17 1032 7)
    ∧ (sortPairs (SortCall.tiledSample.withStorage (.filled 17 1032 7)) Columns.sample
      Columns.sample).result = .error (.reported (.misalignedStorage .segmentIndices))
  := by
  obtain ⟨plan, hplan, hclassifier, htotal⟩ : ∃ plan,
      (SortCall.tiledSample.withStorage (.filled 17 1032 7)).plan
        (.separate Columns.sample Columns.sample) = .ok plan
      ∧ plan.classifier.isSome ∧ plan.layout.total = 1032 := ⟨_, rfl, rfl, rfl⟩
  have hpasses : (SortCall.tiledSample.withStorage (.filled 17 1032 7)).Passes
      (.separate Columns.sample Columns.sample) plan (.filled 17 1032 7) := by
    constructor
    case planned => apply hplan
    case storage => rfl
    case count => decide
    case partitioner => exact ⟨TiledPartition.ofTile 1, rfl⟩
    case segments =>
      apply Segments.exists_resolve_iff.mp
      use ⟨[⟨0, 3⟩, ⟨3, 5⟩]⟩
      apply Segments.resolve_eq_ok_iff.mpr
      exact ⟨by decide, rfl, by decide, by decide⟩
    case size =>
      rw [htotal]
      apply Nat.le_of_eq
      apply List.length_replicate.symm
  have hreports := (misplacement_is_reported (.unsigned .w8) UInt8 (by decide) _ plan _ 1
    (by decide)).1 Columns.sample Columns.sample hpasses
  refine ⟨plan, hpasses, hreports.indices ?_ ?_ ⟨hclassifier, by decide⟩⟩
  · decide
  · decide

end SegmentSort
