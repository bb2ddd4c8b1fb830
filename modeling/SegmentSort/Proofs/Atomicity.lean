import SegmentSort.Proofs.Outcome
import SegmentSort.Proofs.Partitioner

/-!
# Failures leave the caller's buffers alone

A sort that fails has written nothing, unless it fails because a segment that is left to the
insertion sorts exceeds their capacity (`SortCall.Oversize`): other segments may have been sorted
by then.  Everything else that can go wrong is found out before the work is handed to the kernels
(`SortCall.run_of_error`).  The lists that are current stay so in any case, and no size is
reported (`atomic_of_sort`).

A call without segments sorts nothing, but it is planned like any other one, with the storage that
it would need.  So it can fail although its configuration, its bits and its lengths are right
(`failed_of_no_segments`).
-/

namespace SegmentSort

namespace SortCall

variable {t : KeyType} {ν : Type} [Element ν] {call : SortCall} {operands : Operands (Key t) ν}
  {plan : Plan}

/-- The failure of the insertion sorts at a segment that exceeds their capacity and that a valid
reply of the partitioner leaves to them. -/
def Oversize (call : SortCall) (operands : Operands (Key t) ν) (e : Failure) : Prop :=
  ∃ classifier request length, call.consult operands = .ok (some (classifier, request))
    ∧ (call.partitioner.partition request).Valid
    ∧ (call.partitioner.partition request).Small call.segments length
    ∧ classifier.capacity < length
    ∧ e = .reported (.segmentOverCapacity length classifier.capacity)

/-- Work that is prepared is uniform, or a partitioner has been asked. -/
theorem consult_of_prepare (hplan : call.plan operands = .ok plan) {memory : Memory}
    (hstorage : call.storage = some memory) (hcount : call.segments.count ≠ 0)
    {map : SegmentMap} {work : Work (Key t × ν)}
    (h : (call.prepare plan operands memory).result = .ok (map, work)) :
  (∃ views, work = .uniform views)
    ∨ ∃ classifier request, call.consult operands = .ok (some (classifier, request))
  := by
  simp only [result_prepare, bind_eq_ok_iff, reported_eq_ok_iff, defined_eq_ok_iff] at h
  obtain ⟨map', hmap, carved, hcarved, ⟨temporary, rest⟩, htemporary, views, -, h⟩ := h
  cases hclassifier : plan.classifier with
  | none =>
      left
      rw [hclassifier] at h
      exact ⟨views, (Prod.mk.inj (Except.ok.inj h)).2.symm⟩
  | some classifier =>
      right
      rw [hclassifier] at h
      simp only [bind_eq_ok_iff, reported_eq_ok_iff] at h
      obtain ⟨request, hrequest, -⟩ := h
      use classifier, request
      apply consult_eq_ok hplan hstorage hcount hclassifier hmap hcarved htemporary hrequest

/-- A run that fails leaves its operands as they are, unless a segment exceeds the capacity of
the insertion sorts. -/
theorem run_of_error {e : Failure} (h : (call.run operands).trace.result = .error e) :
  (call.run operands).operands = operands ∨ call.Oversize operands e
  := by
  rcases call.run_prepares operands with ⟨hoperands, -⟩ |
    ⟨plan, memory, map, work, hplan, hstorage, hcount, hprepare⟩
  · left
    apply hoperands
  · rcases consult_of_prepare hplan hstorage hcount hprepare with ⟨views, rfl⟩ |
      ⟨classifier, request, hconsult⟩
    · rw [result_run_of_uniform hplan hstorage hcount hprepare] at h
      cases h
    · rcases run_of_consult hconsult rfl with ⟨-, -, hoperands, -⟩ |
        ⟨hvalid, ⟨-, hok⟩ | ⟨length, hsmall, hlong, herror⟩⟩
      · left
        apply hoperands
      · rw [h] at hok
        cases hok
      · right
        rw [h] at herror
        exact ⟨classifier, request, length, hconsult, hvalid, hsmall, hlong,
          Except.error.inj herror⟩

theorem reportedSize_execute (memory : Memory) :
  (call.execute plan operands memory).reportedSize = none
  := by
  rw [execute]
  dsimp only
  split <;> rfl

/-- Only a query that succeeds reports a size. -/
theorem reportedSize_run (call : SortCall) (operands : Operands (Key t) ν) :
  (call.run operands).reportedSize = none
    ∨ call.storage = none ∧ (call.run operands).trace.result = .ok none
  := by
  cases hplan : call.plan operands with
  | error e =>
      left
      rw [run_of_plan_error hplan]
  | ok plan =>
      cases hstorage : call.storage with
      | none =>
          right
          rw [run_of_no_storage hplan hstorage]
          exact ⟨rfl, rfl⟩
      | some memory =>
          left
          by_cases hcount : call.segments.count = 0
          · rw [run_of_no_segments hplan hstorage hcount]
          · rw [run_eq_execute hplan hstorage hcount, reportedSize_execute]

/-- A call with storage and without segments does nothing, successfully if it is admissible. -/
theorem result_run_of_zero (hstorage : call.storage ≠ none) (hcount : call.segments.count = 0)
    {config : Config} (h : call.Admissible operands config) :
  (call.run operands).trace.result = .ok none
  := by
  obtain ⟨plan, hplan⟩ := h.exists_plan
  obtain ⟨memory, hmemory⟩ := Option.ne_none_iff_exists'.mp hstorage
  rw [run_of_no_segments hplan hmemory hcount]
  rfl

/-- A call does not change what its caller holds, unless it sorts. -/
structure Atomic {β σ : Type} (call : SortCall) (operands : Operands (Key t) ν)
    (selectors : β → σ) (unchanged : β) (outcome : SortOutcome β) : Prop where
  /-- If the call fails, it reports no size, and the same lists are current as before.  No
  buffer is changed, unless a segment exceeds the capacity of the insertion sorts. -/
  failed : ∀ e, outcome.result = .error e →
    outcome.reportedSize = none ∧ selectors outcome.buffers = selectors unchanged
      ∧ (outcome.buffers = unchanged ∨ call.Oversize operands e)
  /-- A query for the size changes no buffer. -/
  query : call.storage = none → outcome.buffers = unchanged
  /-- Neither does a call with storage and without segments; it reports no size, and it succeeds
  if it is admissible and no size overflows. -/
  idle : call.storage ≠ none → call.segments.count = 0 →
    outcome.buffers = unchanged ∧ outcome.reportedSize = none
      ∧ ∀ config, call.Admissible operands config → call.Addressable operands config →
        outcome.result = .ok ()

/-- A sort is atomic because its run is. -/
theorem Atomic.of_yields {β σ : Type} {selectors : β → σ} {unchanged : β}
    {outcome : SortOutcome β} (h : call.Yields operands selectors unchanged outcome) :
  call.Atomic operands selectors unchanged outcome
  := by
  have hidle : call.storage = none ∨ call.segments.count = 0 → outcome.buffers = unchanged := by
    intro hnothing
    rcases call.run_cases operands with ⟨hoperands, hlocation, -⟩ | ⟨⟨hstorage, hcount⟩, -⟩
    · apply h.buffers hoperands hlocation
    · rcases hnothing with hnone | hzero
      · cases hstorage hnone
      · cases hcount hzero
  constructor
  · intro e he
    rw [h.result] at he
    have herror := map_eq_error_iff.mp he
    have hlocation : (call.run operands).location = .primary := by
      rw [Run.location, herror]
    refine ⟨?_, h.selectors hlocation, ?_⟩
    · rw [h.reportedSize]
      rcases call.reportedSize_run operands with hnone | ⟨-, hok⟩
      · apply hnone
      · rw [herror] at hok
        cases hok
    · rcases run_of_error herror with hoperands | hoversize
      · left
        apply h.buffers hoperands hlocation
      · right
        apply hoversize
  · intro hstorage
    apply hidle (.inl hstorage)
  · intro hstorage hcount
    refine ⟨hidle (.inr hcount), ?_, ?_⟩
    · rw [h.reportedSize]
      rcases call.reportedSize_run operands with hnone | ⟨hquery, -⟩
      · apply hnone
      · cases hstorage hquery
    · intro config hadmissible _
      rw [h.result, result_run_of_zero hstorage hcount hadmissible]
      rfl

end SortCall

open DoubleBuffer (operands selectors)

/-- All four sorts are atomic, whatever the partitioner and the storage are. -/
theorem atomic_of_sort (t : KeyType) (ν : Type) [Element ν] (call : SortCall) :
  (∀ input output : Columns (Key t) ν,
    call.Atomic (.separate input output) (fun _ => ()) output (sortPairs call input output))
  ∧ (∀ input output : List (Key t),
    call.Atomic (keyOperands input output) (fun _ => ()) output (sortKeys call input output))
  ∧ (∀ (keys : DoubleBuffer (Key t)) (values : DoubleBuffer ν),
    call.Atomic (operands keys values) selectors (keys, values)
      (DoubleBuffer.sortPairs call keys values))
  ∧ ∀ keys : DoubleBuffer (Key t),
    call.Atomic (operands keys keys.units) DoubleBuffer.selector keys
      (DoubleBuffer.sortKeys call keys)
  := by
  refine ⟨?_, ?_, ?_, ?_⟩
  · intro input output
    apply SortCall.Atomic.of_yields (yields_sortPairs call input output)
  · intro input output
    apply SortCall.Atomic.of_yields (yields_sortKeys call input output)
  · intro keys values
    apply SortCall.Atomic.of_yields (DoubleBuffer.yields_sortPairs call keys values)
  · intro keys
    apply SortCall.Atomic.of_yields (DoubleBuffer.yields_sortKeys call keys)

/-- A configuration that has segments classified however few they are. -/
def Config.eager (warpSize itemsPerThread blockSize : Nat) : Config where
  longBits := 8
  shortBits := 7
  kernel := ⟨256, 10⟩
  warpSort := some ⟨warpSize, itemsPerThread, blockSize, 0⟩

/-- A call with storage and without segments. -/
def SortCall.idleSample (config : Config) (partitioner : Option Partitioner) : SortCall where
  storage := some ⟨0, []⟩
  segments := ⟨0, #[], #[]⟩
  options := { SortOptions.standard with config := some config, partitioner }
  direction := .ascending
  stream := .sequential 1

/-- Keys of 8 bits with an output of the same length. -/
def Operands.keySample : Operands (Key (.unsigned .w8)) Unit :=
  keyOperands [⟨3⟩, ⟨1⟩] [⟨9⟩, ⟨9⟩]

/-- With tiles to partition the segments, it succeeds. -/
theorem atomic_sample :
  (SortCall.idleSample (.eager 8 8 256) none).Admissible Operands.keySample (.eager 8 8 256)
    ∧ (SortCall.idleSample (.eager 8 8 256) none).Addressable Operands.keySample
      (.eager 8 8 256)
    ∧ (sortKeys (SortCall.idleSample (.eager 8 8 256) none)
        [(⟨3⟩ : Key (.unsigned .w8)), ⟨1⟩] [⟨9⟩, ⟨9⟩]).result = .ok ()
  := by
  have hadmissible :
      (SortCall.idleSample (.eager 8 8 256) none).Admissible Operands.keySample
        (.eager 8 8 256) := by
    refine ⟨⟨rfl, rfl, ⟨_, rfl⟩, rfl⟩, ?_, ?_⟩
    · rintro route ⟨⟩
      decide
    · rintro route ⟨⟩ _
      exact ⟨_, rfl⟩
  have haddressable :
      (SortCall.idleSample (.eager 8 8 256) none).Addressable Operands.keySample
        (.eager 8 8 256) := by
    rintro classifier bytes ⟨⟩ ⟨⟩
    exact ⟨_, Layout.ofRequest?_eq_some_iff.mpr ⟨by decide, rfl⟩⟩
  use hadmissible, haddressable
  have hatomic := (atomic_of_sort (.unsigned .w8) Unit
    (SortCall.idleSample (.eager 8 8 256) none)).2.1 [⟨3⟩, ⟨1⟩] [⟨9⟩, ⟨9⟩]
  have hstorage : (SortCall.idleSample (.eager 8 8 256) none).storage ≠ none := by
    rintro ⟨⟩
  apply (hatomic.idle hstorage rfl).2.2 _ hadmissible haddressable

/-- A partitioner that leaves all segments as they are listed, with a size of its own. -/
def Partitioner.ofSize (storageSize : Except SortError Nat) : Partitioner where
  storageSize _ := storageSize
  partition request := {
    indices := request.indices
    count := request.count
    trace := pure () }

/-- It does not suffice that a call without segments passes the checks: it fails if the
partitioner is asked for a size and has none, or if the capacity outgrows its word; and if the
partitioner asks for all the bytes there can be, there are none left for the other regions. -/
theorem failed_of_no_segments :
  ((SortCall.idleSample (.eager 8 8 256)
        (some (.ofSize (.error (.partitionFault "sizing failed"))))).Checked Operands.keySample
      (.eager 8 8 256)
    ∧ (sortKeys (SortCall.idleSample (.eager 8 8 256)
          (some (.ofSize (.error (.partitionFault "sizing failed")))))
        [(⟨3⟩ : Key (.unsigned .w8)), ⟨1⟩] [⟨9⟩, ⟨9⟩]).result
      = .error (.reported (.partitionFault "sizing failed")))
  ∧ ((SortCall.idleSample (.eager 65536 65536 65536) none).Checked Operands.keySample
      (.eager 65536 65536 65536)
    ∧ (sortKeys (SortCall.idleSample (.eager 65536 65536 65536) none)
        [(⟨3⟩ : Key (.unsigned .w8)), ⟨1⟩] [⟨9⟩, ⟨9⟩]).result = .error .undefined)
  ∧ (SortCall.idleSample (.eager 8 8 256) (some (.ofSize (.ok (sizeBound - 1))))).Admissible
      Operands.keySample (.eager 8 8 256)
    ∧ ¬ (SortCall.idleSample (.eager 8 8 256)
        (some (.ofSize (.ok (sizeBound - 1))))).Addressable Operands.keySample (.eager 8 8 256)
  := by
  refine ⟨⟨⟨rfl, rfl, ⟨_, rfl⟩, rfl⟩, rfl⟩, ⟨⟨rfl, rfl, ⟨_, rfl⟩, rfl⟩, ?_⟩,
    ⟨⟨rfl, rfl, ⟨_, rfl⟩, rfl⟩, ?_, ?_⟩, ?_⟩
  · decide
  · rintro route ⟨⟩
    decide
  · rintro route ⟨⟩ _
    exact ⟨_, rfl⟩
  · intro haddressable
    obtain ⟨layout, hlayout⟩ := haddressable _ (some (sizeBound - 1)) rfl rfl
    rw [Layout.ofRequest?_eq_some_iff] at hlayout
    have htotal : ¬ (Layout.ofRequest ((SortCall.idleSample (.eager 8 8 256)
        (some (.ofSize (.ok (sizeBound - 1))))).storageRequest Operands.keySample
          (some (sizeBound - 1)))).total < sizeBound := by
      decide
    apply htotal hlayout.1

end SegmentSort
