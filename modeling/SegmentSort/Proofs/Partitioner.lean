import SegmentSort.Proofs.DoubleBuffer

/-!
# Sorts with any partitioner

A partitioner may reply whatever it likes.  A sort that comes to consult it succeeds
precisely if the reply is a permutation of all segments, of which those that the counter
leaves to the insertion sorts fit these; and then it has sorted every segment.  Otherwise it
says what is wrong, and if the reply is no permutation, nothing has been written by then
(`answered_of_consult`).
-/

namespace SegmentSort

/-- A reply leaves a segment of some length to the insertion sorts. -/
def PartitionReply.Small {n : Nat} (reply : PartitionReply n) (segments : Segments)
    (length : Nat) : Prop :=
  ∃ i ∈ reply.indices.toList.drop reply.count.toNat, segments.length? i.toNat = some length

namespace SortCall

variable {t : KeyType} {ν : Type} [Element ν]

/-- The classifier of a call and what it asks its partitioner, if the call passes all checks
and its segments are to be classified. -/
def consult (call : SortCall) (operands : Operands (Key t) ν) :
    Except Failure (Option (Classifier × PartitionRequest call.segments.count)) := do
  let plan ← call.plan operands
  match call.storage, plan.classifier with
  | some memory, some classifier =>
    if call.segments.count = 0 then
      return none
    else
      let _ ← reported (call.segments.resolve operands.size)
      let carved ← reported (plan.layout.carve memory)
      let (_, carved) ← reported (temporaryItems operands carved)
      let request ← reported (call.request classifier carved)
      return some (classifier, request)
  | _, _ => return none

variable {call : SortCall} {operands : Operands (Key t) ν} {classifier : Classifier}
  {request : PartitionRequest call.segments.count}

/-- A call with storage and segments that comes as far as its request consults its partitioner. -/
theorem consult_eq_ok {plan : Plan} (hplan : call.plan operands = .ok plan) {memory : Memory}
    (hstorage : call.storage = some memory) (hcount : call.segments.count ≠ 0)
    (hclassifier : plan.classifier = some classifier) {map : SegmentMap}
    (hmap : call.segments.resolve operands.size = .ok map) {carved rest : Carved}
    (hcarved : plan.layout.carve memory = .ok carved) {temporary : List (Key t × ν)}
    (htemporary : temporaryItems operands carved = .ok (temporary, rest))
    (hrequest : call.request classifier rest = .ok request) :
  call.consult operands = .ok (some (classifier, request))
  := by
  simp only [consult, hplan, ok_bind, hstorage, hclassifier, if_neg hcount, hmap, hcarved,
    htemporary, hrequest, reported_ok]
  rfl

/-- The reply decides how the preparation ends. -/
theorem prepare_of_consult (h : call.consult operands = .ok (some (classifier, request))) :
  ∃ plan memory map temporary,
    call.plan operands = .ok plan ∧ call.storage = some memory ∧ call.segments.count ≠ 0
    ∧ call.segments.resolve operands.size = .ok map
    ∧ operands.Ready temporary map
    ∧ (call.prepare plan operands memory).result
      = (workOf classifier (map.spans.map (operands.view temporary))
          (call.partitioner.partition request)).map fun work => (map, work)
  := by
  simp only [consult, bind_eq_ok_iff] at h
  obtain ⟨plan, hplan, h⟩ := h
  split at h
  · rename_i memory classifier' hstorage hclassifier
    split at h
    · cases h
    · rename_i hcount
      simp only [bind_eq_ok_iff, reported_eq_ok_iff] at h
      obtain ⟨map, hmap, carved, hcarved, ⟨temporary, carved'⟩, htemporary, request', hrequest,
        hpair⟩ := h
      obtain ⟨rfl, rfl⟩ := Prod.mk.inj (Option.some.inj (Except.ok.inj hpair))
      have hplanned := planned_of_plan hplan
      have hready := hplanned.ready hmap htemporary
      refine ⟨plan, memory, map, temporary, hplan, hstorage, hcount, hmap, hready, ?_⟩
      have hviews := Operands.views?_eq_some hready
      rw [result_prepare, hmap]
      change (reported (plan.layout.carve memory) >>= _) = _
      rw [hcarved]
      change (reported (temporaryItems operands carved) >>= _) = _
      rw [htemporary]
      change (defined (operands.views? temporary map) >>= _) = _
      rw [hviews, hclassifier, ← hplanned.partitioner]
      change (reported (call.request classifier' carved') >>= _) = _
      rw [hrequest]
      change (workOf _ _ _ >>= _) = _
      cases workOf classifier' (map.spans.map (operands.view temporary))
        (plan.partitioner.partition request') <;> rfl
  · cases h

omit [Element ν] in
/-- The views that a valid reply leaves to the insertion sorts are those of its small
segments. -/
theorem exists_small_iff {reply : PartitionReply call.segments.count} (hvalid : reply.Valid)
    {temporary : List (Key t × ν)} (hready : operands.Ready temporary ⟨call.segments.spans⟩)
    {small : List (SegmentView (Key t × ν))}
    (hsmall : small.map some = (reply.indices.toList.drop reply.count.toNat).map
      ((call.segments.spans.map (operands.view temporary))[·.toNat]?))
    (length : Nat) :
  (∃ v ∈ small, v.size = length) ↔ reply.Small call.segments length
  := by
  have hget : ∀ i ∈ reply.indices.toList.drop reply.count.toNat,
      (call.segments.spans.map (operands.view temporary))[i.toNat]?
        = (call.segments.span? i.toNat).map (operands.view temporary) := by
    intro i hi
    have hlt := (Proper.of_perm_range hvalid.perm).lt i (List.mem_of_mem_drop hi)
    rw [List.getElem?_map, Segments.getElem?_spans_of_lt _ hlt]
  have hsize : ∀ i ∈ reply.indices.toList.drop reply.count.toNat, ∀ s,
      call.segments.span? i.toNat = some s → (operands.view temporary s).size = s.length := by
    intro i hi s hspan
    have hlt := (Proper.of_perm_range hvalid.perm).lt i (List.mem_of_mem_drop hi)
    have hmem : s ∈ call.segments.spans := Segments.mem_spans_iff.mpr ⟨i.toNat, hlt, hspan⟩
    apply (Operands.shows_view hready hmem).size
  constructor
  · rintro ⟨v, hv, rfl⟩
    have hsome : some v ∈ small.map some := List.mem_map_of_mem hv
    rw [hsmall] at hsome
    obtain ⟨i, hi, hview⟩ := List.mem_map.mp hsome
    rw [hget i hi] at hview
    obtain ⟨s, hspan, rfl⟩ := Option.map_eq_some_iff.mp hview
    use i, hi
    rw [Segments.length?_eq_map, hspan, hsize i hi s hspan]
    rfl
  · rintro ⟨i, hi, hlength⟩
    rw [Segments.length?_eq_map] at hlength
    obtain ⟨s, hspan, rfl⟩ := Option.map_eq_some_iff.mp hlength
    have hsome : some (operands.view temporary s) ∈ small.map some := by
      rw [hsmall]
      apply List.mem_map.mpr
      use i, hi
      rw [hget i hi, hspan]
      rfl
    obtain ⟨v, hv, hview⟩ := List.mem_map.mp hsome
    obtain rfl := Option.some.inj hview
    exact ⟨_, hv, hsize i hi s hspan⟩

/-- The reply decides how the run ends. -/
theorem run_of_consult (h : call.consult operands = .ok (some (classifier, request)))
    {reply : PartitionReply call.segments.count}
    (hreply : call.partitioner.partition request = reply) :
  (∃ e, reply.Refused e ∧ (call.run operands).operands = operands
    ∧ (call.run operands).trace.result = .error e)
  ∨ reply.Valid
    ∧ (((∀ length, reply.Small call.segments length → length ≤ classifier.capacity)
        ∧ (call.run operands).trace.result.map (fun _ => ()) = .ok ())
      ∨ ∃ length, reply.Small call.segments length ∧ classifier.capacity < length
        ∧ (call.run operands).trace.result
          = .error (.reported (.segmentOverCapacity length classifier.capacity)))
  := by
  obtain ⟨plan, memory, map, temporary, hplan, hstorage, hcount, hmap, hready, hprepare⟩ :=
    prepare_of_consult h
  have hplanned := planned_of_plan hplan
  obtain ⟨hoffsets, rfl, -⟩ := Segments.resolve_eq_ok_iff.mp hmap
  have hviews : (call.segments.spans.map (operands.view temporary)).length
      = call.segments.count := by
    rw [List.length_map, Segments.length_spans hoffsets]
  rw [hreply] at hprepare
  rw [run_eq_execute hplan hstorage hcount]
  rcases workOf_cases classifier hviews reply with
    ⟨hvalid, large, small, hwork, hlarge, hsmall⟩ | ⟨e, hrefused, hwork⟩
  · right
    use hvalid
    rw [hwork] at hprepare
    have htried := (prepared_of_prepare hplanned hprepare).tried hplanned
    have hlengths := exists_small_iff hvalid hready hsmall
    rw [(execute_of_ok hprepare).2]
    by_cases hfit : ∀ v ∈ small, v.size ≤ classifier.capacity
    · left
      constructor
      · intro length hlength
        obtain ⟨v, hv, rfl⟩ := (hlengths length).mpr hlength
        apply hfit v hv
      · rw [(htried.sorted hfit).1]
        rfl
    · right
      push Not at hfit
      obtain ⟨v, hv, hlong, herror⟩ := htried.failed hfit
      use v.size, (hlengths v.size).mp ⟨v, hv, rfl⟩, hlong
      rw [herror]
      rfl
  · left
    rw [hwork] at hprepare
    exact ⟨e, hrefused, execute_of_error hprepare⟩

/-! ### Answers -/

/-- What a call answers to a reply.  It succeeds if the reply is valid and the small segments
fit the insertion sorts, and then `after` is `before` with every segment sorted.  A reply that
is not valid is refused, and the buffers are left unchanged; and if a small segment does not
fit, such a one is reported. -/
structure Answered {α β : Type} (call : SortCall) (classifier : Classifier)
    (reply : PartitionReply call.segments.count) (outcome : SortOutcome β) (unchanged : β)
    (rank : α → Nat) (before after : List α) : Prop where
  ok_iff : outcome.result = .ok ()
    ↔ reply.Valid ∧ ∀ length, reply.Small call.segments length → length ≤ classifier.capacity
  sorted : outcome.result = .ok () → call.segments.SortedIn rank before after
  refused : ¬ reply.Valid →
    outcome.buffers = unchanged ∧ ∃ e, reply.Refused e ∧ outcome.result = .error e
  oversize : reply.Valid → outcome.result ≠ .ok () →
    ∃ length, reply.Small call.segments length ∧ classifier.capacity < length
      ∧ outcome.result = .error (.reported (.segmentOverCapacity length classifier.capacity))

/-- A sort answers as its run does. -/
theorem Answered.of_run {α β : Type}
    (h : call.consult operands = .ok (some (classifier, request))) {outcome : SortOutcome β}
    {unchanged : β} {rank : α → Nat} {before after : List α}
    (hresult : outcome.result = (call.run operands).trace.result.map fun _ => ())
    (hunchanged : (call.run operands).operands = operands →
      (call.run operands).location = .primary → outcome.buffers = unchanged)
    (hsorted : call.storage ≠ none → call.segments.count ≠ 0 → outcome.result = .ok () →
      call.segments.SortedIn rank before after) :
  call.Answered classifier (call.partitioner.partition request) outcome unchanged rank before
    after
  := by
  obtain ⟨plan, memory, -, -, -, hstorage, hcount, -⟩ := prepare_of_consult h
  have hsome : call.storage ≠ none := by
    rw [hstorage]
    rintro ⟨⟩
  rcases run_of_consult h rfl with ⟨e, hrefused, hoperands, herror⟩ |
    ⟨hvalid, ⟨hfits, hok⟩ | ⟨length, hsmall, hlong, herror⟩⟩
  · rw [herror] at hresult
    constructor
    · constructor
      · intro hok
        rw [hresult] at hok
        cases hok
      · rintro ⟨hvalid, -⟩
        cases hrefused.not_valid hvalid
    · apply hsorted hsome hcount
    · intro _
      refine ⟨hunchanged hoperands ?_, e, hrefused, hresult⟩
      rw [Run.location, herror]
    · intro hvalid
      cases hrefused.not_valid hvalid
  · rw [hok] at hresult
    constructor
    · exact ⟨fun _ => ⟨hvalid, hfits⟩, fun _ => hresult⟩
    · apply hsorted hsome hcount
    · intro hinvalid
      cases hinvalid hvalid
    · intro _ hfailed
      cases hfailed hresult
  · rw [herror] at hresult
    constructor
    · constructor
      · intro hok
        rw [hresult] at hok
        cases hok
      · rintro ⟨-, hfits⟩
        have hle := hfits length hsmall
        omega
    · apply hsorted hsome hcount
    · intro hinvalid
      cases hinvalid hvalid
    · intro _ _
      exact ⟨length, hsmall, hlong, hresult⟩

end SortCall

open DoubleBuffer (operands pairs units sampleKeys sampleValues)

/-- A sort that comes to consult its partitioner answers the reply as it should, whatever the
partitioner is; and no work that is handed to the kernels has a segment twice. -/
theorem answered_of_consult (t : KeyType) (ν : Type) [Element ν] (call : SortCall)
    (classifier : Classifier) (request : PartitionRequest call.segments.count)
    (reply : PartitionReply call.segments.count)
    (hreply : call.partitioner.partition request = reply) :
  (∀ input output : Columns (Key t) ν,
    call.consult (.separate input output) = .ok (some (classifier, request)) →
    call.Answered classifier reply (sortPairs call input output) output
      (fun a => call.rank a.1) input.items (sortPairs call input output).buffers.items)
  ∧ (∀ input output : List (Key t),
    call.consult (.separate ⟨input, List.replicate input.length ()⟩
      ⟨output, List.replicate input.length ()⟩) = .ok (some (classifier, request)) →
    call.Answered classifier reply (sortKeys call input output) output
      call.rank input (sortKeys call input output).buffers)
  ∧ (∀ (keys : DoubleBuffer (Key t)) (values : DoubleBuffer ν),
    call.consult (operands keys values) = .ok (some (classifier, request)) →
    call.Answered classifier reply (DoubleBuffer.sortPairs call keys values) (keys, values)
      (fun a => call.rank a.1) (pairs keys values)
      (pairs (DoubleBuffer.sortPairs call keys values).buffers.1
        (DoubleBuffer.sortPairs call keys values).buffers.2))
  ∧ (∀ keys : DoubleBuffer (Key t),
    call.consult (operands keys (units keys)) = .ok (some (classifier, request)) →
    call.Answered classifier reply (DoubleBuffer.sortKeys call keys) keys
      call.rank keys.current (DoubleBuffer.sortKeys call keys).buffers.current)
  ∧ ∀ (operands : Operands (Key t) ν) (plan : Plan) (memory : Memory) (map : SegmentMap)
      (work : Work (Key t × ν)), call.plan operands = .ok plan →
    (call.prepare plan operands memory).result = .ok (map, work) → work.Whole
  := by
  subst hreply
  refine ⟨?_, ?_, ?_, ?_, ?_⟩
  · intro input output h
    apply SortCall.Answered.of_run h rfl
    · intro hoperands _
      change (call.run _).outputColumns = _
      rw [Run.outputColumns_eq, hoperands]
      rfl
    · intro hstorage _ hok
      apply (sortPairs_ok hstorage hok).1
  · intro input output h
    apply SortCall.Answered.of_run h rfl
    · intro hoperands _
      change (call.run _).outputColumns.keys = _
      rw [Run.outputColumns_eq, hoperands]
      rfl
    · intro hstorage _ hok
      apply sortKeys_ok hstorage hok
  · intro keys values h
    apply SortCall.Answered.of_run h rfl
    · apply DoubleBuffer.buffers_sortPairs_eq
    · intro hstorage hcount hok
      apply (DoubleBuffer.sortPairs_ok hstorage hcount hok).1
  · intro keys h
    apply SortCall.Answered.of_run h rfl
    · intro hoperands hlocation
      rw [(DoubleBuffer.sortKeys_eq call keys).2,
        DoubleBuffer.buffers_sortPairs_eq call keys keys.units hoperands hlocation]
    · intro hstorage hcount hok
      apply (DoubleBuffer.sortKeys_ok hstorage hcount hok).1
  · intro operands plan memory map work hplan hprepare
    apply (SortCall.prepared_of_prepare (SortCall.planned_of_plan hplan) hprepare).whole

/-- A partitioner that names the segments in descending order and counts one of them as
large, however long they are. -/
def Partitioner.descending : Partitioner where
  storageSize _ := .ok 0
  partition {slots} _ := {
    indices := Vector.ofFn fun i => UInt32.ofNat (slots - 1 - i)
    count := 1
    trace := pure () }

/-- The sample, of which all segments fit the insertion sorts, with this partitioner. -/
def SortCall.descendingSample : SortCall :=
  { SortCall.sample with
    options := { SortOptions.standard with
      config := some ⟨2, 1, ⟨1, 1⟩, some ⟨3, 1, 3, 0⟩⟩
      partitioner := some .descending } }

/-- What it asks its partitioner. -/
def SortCall.descendingRequest : PartitionRequest SortCall.descendingSample.segments.count where
  storage := ⟨512, []⟩
  segments := 2
  selected := Classifier.isLarge ⟨⟨3, 1, 3, 0⟩, 3⟩ SortCall.descendingSample.segments
  indices := .replicate _ 0
  count := 0
  stream := .sequential 1
  debug := false

set_option maxRecDepth 20000 in
/-- The reply has nothing to do with the lengths of the segments, but the sort succeeds. -/
theorem answered_sample :
  SortCall.descendingSample.Answered ⟨⟨3, 1, 3, 0⟩, 3⟩
    (Partitioner.descending.partition SortCall.descendingRequest)
    (DoubleBuffer.sortPairs SortCall.descendingSample sampleKeys sampleValues)
    (sampleKeys, sampleValues) (fun a => SortCall.descendingSample.rank a.1)
    (pairs sampleKeys sampleValues)
    (pairs (DoubleBuffer.sortPairs SortCall.descendingSample sampleKeys sampleValues).buffers.1
      (DoubleBuffer.sortPairs SortCall.descendingSample sampleKeys sampleValues).buffers.2)
  ∧ (DoubleBuffer.sortPairs SortCall.descendingSample sampleKeys sampleValues).result = .ok ()
  := by
  constructor
  · apply (answered_of_consult _ _ SortCall.descendingSample _ SortCall.descendingRequest _
      rfl).2.2.1 sampleKeys sampleValues
    cbv
  · cbv

end SegmentSort
