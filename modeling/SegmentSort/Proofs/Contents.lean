import SegmentSort.Proofs.BitRanges
import SegmentSort.Proofs.Outline

/-!
# What storage holds does not matter

A sort gets its temporary storage as it is, whatever has been left there.  Two runs of a call on
storages of the same outline are prepared alike (`SortCall.matched_prepare`), and end alike
(`SortCall.run_rerun`).  What is read from the storage before it has been written, namely the slots
and the counters of a partition, and the items in the scratch, does not come to light in the end.
Hence the four sorts leave and tell the same whatever their storage holds, how far it exceeds the
plan, and whether or not they record what they do (`sorts_ignore_contents`).
-/

namespace SegmentSort

/-! ### Records -/

/-- Two launches leave the same items and end in the same way, whatever they record. -/
structure Launched.Alike {ω : Type} (l l' : Launched ω) : Prop where
  items : l'.items = l.items
  result : l'.outcome.result = l.outcome.result

theorem Launched.Alike.refl {ω : Type} (l : Launched ω) :
  l.Alike l
  := ⟨rfl, rfl⟩

theorem Stream.launch_alike {σ ω : Type} (stream : Stream) (kernel : String) (fresh : σ)
    (body : σ → ω → GroupRun σ ω) (work : List ω) (debug debug' : Bool) :
  (stream.launch kernel debug fresh body work).Alike (stream.launch kernel debug' fresh body work)
  := by
  use rfl
  rw [launch, launch]
  dsimp only
  split
  · rw [Traced.result_emitIf, Traced.result_emitIf]
  · rfl

section

variable {α : Type}

/-- What a kernel leaves and how it ends does not depend on whether it is recorded. -/
def Kernel.IgnoresDebug (κ : Kernel α) : Prop :=
  ∀ (stream : Stream) (debug debug' : Bool) (views : List (SegmentView α)),
    (κ.run stream debug views).Alike (κ.run stream debug' views)

theorem Kernel.IgnoresDebug.dispatch {κ : Kernel α} (h : κ.IgnoresDebug) (stream : Stream)
    (debug debug' : Bool) (views : List (SegmentView α)) :
  (κ.dispatch stream debug views).Alike (κ.dispatch stream debug' views)
  := by
  by_cases hempty : views = []
  · subst hempty
    apply Launched.Alike.refl
  · obtain ⟨hitems, hresult⟩ := h stream debug debug' views
    constructor
    · rw [items_dispatch hempty, items_dispatch hempty, hitems]
    · rw [result_dispatch hempty, result_dispatch hempty, hresult]

theorem RadixPasses.ignoresDebug_kernel (r : RadixPasses α) (name : String) :
  (r.kernel name).IgnoresDebug
  := fun stream debug debug' views => stream.launch_alike name #[] r.group views debug debug'

theorem ShortSort.ignoresDebug_kernel (s : ShortSort α) :
  s.kernel.IgnoresDebug
  := by
  intro stream debug debug' views
  obtain ⟨hitems, hresult⟩ :=
    stream.launch_alike shortSegmentKernel #[] s.group (blocksOf s.perBlock views) debug debug'
  exact ⟨congrArg List.flatten hitems, hresult⟩

/-- Work is done alike, whether or not it is recorded. -/
theorem Work.dispatch_alike (work : Work α) (plan : Plan) (code : α → Nat) (stream : Stream)
    (debug debug' : Bool) :
  (work.dispatch plan code stream debug).Alike (work.dispatch plan code stream debug')
  := by
  cases work with
  | uniform views => apply ((plan.radixPasses code).ignoresDebug_kernel _).dispatch
  | classified views classifier indices large small =>
      obtain ⟨hitems, hresult⟩ := ((plan.radixPasses code).ignoresDebug_kernel
        "segmented_sort:large_segments").dispatch stream debug debug' large
      obtain ⟨hitems', hresult'⟩ :=
        (plan.shortSort code classifier).ignoresDebug_kernel.dispatch stream debug debug' small
      constructor
      · rw [dispatch, dispatch]
        dsimp only
        rw [hitems, hresult]
        split
        · rw [hitems']
        · rfl
      · rw [dispatch, dispatch]
        dsimp only
        rw [Traced.result_bind, Traced.result_bind, hresult]
        split
        · rw [hresult']
        · rfl

end

/-- The scratch plays no part in the views of a double buffer. -/
theorem Operands.view_of_doubleBuffer {κ ν : Type} {o : Operands κ ν}
    (h : o.isDoubleBuffer = true) (temporary temporary' : List (κ × ν)) :
  o.view temporary' = o.view temporary
  := by
  cases o with
  | separate input output => cases h
  | doubleBuffer current alternate => rfl

/-! ### Calls -/

namespace SortCall

/-- The call with other storage, and with or without records of what it does. -/
def rerun (call : SortCall) (storage : Option Memory) (debug : Bool) : SortCall :=
  { call with
    storage
    options := { call.options with debug } }

/-- The call in a direction. -/
def toward (call : SortCall) (direction : Direction) : SortCall :=
  { call with direction }

variable {t : KeyType} {ν : Type} [Element ν]

/-- Some storage can take the place of that of a call. -/
def Accepts (call : SortCall) (operands : Operands (Key t) ν) (storage : Option Memory) : Prop :=
  Option.Rel (fun m m' => ∀ plan, call.plan operands = .ok plan →
    m.Interchangeable plan.layout.total m') call.storage storage

variable {call : SortCall} {operands operands' : Operands (Key t) ν} {plan : Plan}
  {storage : Option Memory}

theorem Accepts.eq_none_iff (h : call.Accepts operands storage) :
  storage = none ↔ call.storage = none
  := by
  rw [Accepts] at h
  generalize call.storage = before at h ⊢
  cases h with
  | some _ => simp
  | none => simp

/-- Operands of the same kind and size get scratch from storages of the same outline alike. -/
theorem matched_temporaryItems (hmode : operands'.isDoubleBuffer = operands.isDoubleBuffer)
    (hsize : operands'.size = operands.size) {c c' : Carved} (h : c'.outline = c.outline) :
  Matched (fun a b => b.2.outline = a.2.outline) (temporaryItems operands c)
    (temporaryItems operands' c')
  := by
  cases operands with
  | doubleBuffer current alternate =>
      cases operands' with
      | separate input output => cases hmode
      | doubleBuffer current' alternate' => exact .ok h
  | separate input output =>
      cases operands' with
      | doubleBuffer current' alternate' => cases hmode
      | separate input' output' =>
          obtain ⟨hkeys, hrest⟩ :=
            Carved.matched_requireRoom h .keys (Key t) (Operands.separate input output).size
          obtain ⟨hvalues, hrest⟩ :=
            Carved.matched_requireRoom hrest .values ν (Operands.separate input output).size
          rw [temporaryItems, temporaryItems, hsize]
          apply hkeys.bind
          intro keys keys' _ _ _
          apply hvalues.bind
          intro values values' _ _ _
          exact .ok hrest

/-- Operands that have got their scratch can be viewed. -/
theorem views?_of_temporaryItems (hlengths : operands.checkLengths = .ok ()) {c rest : Carved}
    {temporary : List (Key t × ν)} (htemporary : temporaryItems operands c = .ok (temporary, rest))
    {map : SegmentMap} (hfits : map.Fits operands.size) :
  operands.views? temporary map = some (map.spans.map (operands.view temporary))
  := Operands.views?_eq_some ⟨hlengths, length_temporaryItems htemporary, hfits⟩

/-- Partitioners are asked alike. -/
theorem matched_request (classifier : Classifier) (debug : Bool) (direction : Direction)
    {c c' : Carved} (h : c'.outline = c.outline) :
  Matched PartitionRequest.Alike (call.request classifier c)
    (((call.rerun storage debug).toward direction).request classifier c')
  := by
  obtain ⟨hindices, hrest⟩ :=
    Carved.matched_requireRoom h .segmentIndices UInt32 call.segments.count
  obtain ⟨hcount, hrest⟩ := Carved.matched_requireRoom hrest .largeSegmentCount UInt32 1
  rw [request, request]
  apply hindices.bind
  intro indices indices' _ _ _
  apply hcount.bind
  intro count count' _ _ _
  apply Matched.ok
  refine ⟨?_, rfl, rfl⟩
  apply Carved.outline_take_getD hrest

/-- With tiles to partition the segments, sorts of operands of the same kind and size are prepared
alike; and if they sort the same double buffer, then they have the same work. -/
theorem matched_prepare {p : TiledPartition} (hpartitioner : call.partitioner = p.partitioner)
    (hplan : call.plan operands = .ok plan) (storage : Option Memory) (debug : Bool)
    (direction : Direction) (hmode : operands'.isDoubleBuffer = operands.isDoubleBuffer)
    (hsize : operands'.size = operands.size) (hlengths : operands'.checkLengths = .ok ())
    {memory memory' : Memory} (hmemory : memory.Interchangeable plan.layout.total memory') :
  Matched (fun prepared prepared' => prepared'.1 = prepared.1
      ∧ (operands' = operands → operands.isDoubleBuffer = true → prepared'.2 = prepared.2))
    (call.prepare plan operands memory).result
    (((call.rerun storage debug).toward direction).prepare plan operands' memory').result
  := by
  have hplanned := planned_of_plan hplan
  obtain ⟨bytes, -, hlayout⟩ := layout_of_plan hplan
  rw [result_prepare, result_prepare, hsize]
  apply (Matched.refl (reported (call.segments.resolve operands.size))).bind
  rintro map map' hmap hmap' rfl
  obtain ⟨hoffsets, rfl, hfits⟩ := Segments.resolve_eq_ok_iff.mp (reported_eq_ok_iff.mp hmap)
  rw [hlayout] at hmemory ⊢
  apply (Layout.matched_carve hmemory).reported.bind
  intro carved carved' _ _ hcarved
  apply (matched_temporaryItems hmode hsize hcarved).reported.bind
  rintro ⟨temporary, rest⟩ ⟨temporary', rest'⟩ htemporary htemporary' hrest
  dsimp only at hrest ⊢
  rw [reported_eq_ok_iff] at htemporary htemporary'
  rw [views?_of_temporaryItems hplanned.lengths htemporary hfits,
    views?_of_temporaryItems hlengths htemporary' (by rwa [hsize])]
  simp only [defined_some, ok_bind]
  cases hclassifier : plan.classifier with
  | none =>
      apply Matched.ok
      use rfl
      intro heq hdouble
      rw [heq, Operands.view_of_doubleBuffer hdouble temporary temporary']
  | some classifier =>
      apply (matched_request classifier debug direction hrest).reported.bind
      intro request request' hrequest _ halike
      have hreply := p.alike_partition (hplanned.lt_wordBound hclassifier)
        (request_eq_ok (reported_eq_ok_iff.mp hrequest)).1 halike
      rw [hplanned.partitioner, hpartitioner]
      have hlength : ∀ view : Span → SegmentView (Key t × ν),
          (call.segments.spans.map view).length = call.segments.count := by
        intro view
        rw [List.length_map, Segments.length_spans hoffsets]
      apply (matched_workOf classifier (hlength _) (hlength _) hreply).bind
      intro work work' _ _ hwork
      apply Matched.ok
      use rfl
      intro heq hdouble
      apply hwork
      rw [heq, Operands.view_of_doubleBuffer hdouble temporary temporary']

/-- A plan does not depend on storage, direction and records. -/
theorem plan_rerun (call : SortCall) (storage : Option Memory) (debug : Bool)
    (direction : Direction) (hmode : operands'.isDoubleBuffer = operands.isDoubleBuffer)
    (hsize : operands'.size = operands.size)
    (hlengths : operands'.checkLengths = operands.checkLengths) :
  ((call.rerun storage debug).toward direction).plan operands' = call.plan operands
  := by
  have hplan : (call.rerun storage debug).plan operands = call.plan operands := rfl
  rw [← hplan]
  apply plan_congr rfl rfl hmode hsize hlengths

/-- Sorts that are prepared alike also end alike. -/
theorem execute_rerun {p : TiledPartition} (hpartitioner : call.partitioner = p.partitioner)
    (hplan : call.plan operands = .ok plan) {memory memory' : Memory}
    (hmemory : call.storage = some memory) (hcount : call.segments.count ≠ 0)
    (debug : Bool) (direction : Direction)
    (hmode : operands'.isDoubleBuffer = operands.isDoubleBuffer)
    (hsize : operands'.size = operands.size) (hlengths : operands'.checkLengths = .ok ())
    (hstorage : memory.Interchangeable plan.layout.total memory') :
  (((call.rerun (some memory') debug).toward direction).execute plan operands' memory').trace.result
      = (call.execute plan operands memory).trace.result
    ∧ (direction = call.direction → operands' = operands → operands.isDoubleBuffer = true →
      (((call.rerun (some memory') debug).toward direction).execute plan operands'
          memory').operands
        = (call.execute plan operands memory).operands)
  := by
  have hplan' := call.plan_rerun (some memory') debug direction hmode hsize
    (hlengths.trans (planned_of_plan hplan).lengths.symm)
  rw [hplan] at hplan'
  have hmatched := matched_prepare hpartitioner hplan (some memory') debug direction hmode hsize
    hlengths hstorage
  rcases hmatched.cases with ⟨e, hprepare, hprepare'⟩ |
    ⟨⟨map, work⟩, ⟨map', work'⟩, hprepare, hprepare', rfl, hwork⟩
  · obtain ⟨hoperands, hresult⟩ := execute_of_error hprepare
    obtain ⟨hoperands', hresult'⟩ := execute_of_error hprepare'
    rw [hoperands, hoperands', hresult, hresult']
    exact ⟨rfl, fun _ h _ => h⟩
  · obtain ⟨hoperands, hresult⟩ := execute_of_ok hprepare
    obtain ⟨hoperands', hresult'⟩ := execute_of_ok hprepare'
    have hok := result_launched_of_not_oversize hplan hmemory hcount hprepare
      (not_oversize_of_tiled hpartitioner)
    have hok' := result_launched_of_not_oversize hplan' rfl hcount hprepare'
      (not_oversize_of_tiled hpartitioner)
    rw [hresult, hresult', hok, hok', hoperands, hoperands']
    use rfl
    rintro rfl rfl hdouble
    obtain rfl := hwork rfl hdouble
    apply congrArg (operands'.withViews map')
    apply (Work.dispatch_alike _ plan call.code call.stream call.options.debug debug).items

/-- With tiles to partition the segments, a run ends in the same way on any storage that can take
the place of the one it has, with any operands of the same kind and size, and in any direction. If
it sorts the same double buffer in the same direction, then it also leaves the same there. -/
theorem run_rerun {p : TiledPartition} (hpartitioner : call.partitioner = p.partitioner)
    (hstorage : call.Accepts operands storage) (debug : Bool) (direction : Direction)
    (operands' : Operands (Key t) ν) (hmode : operands'.isDoubleBuffer = operands.isDoubleBuffer)
    (hsize : operands'.size = operands.size)
    (hlengths : operands'.checkLengths = operands.checkLengths) :
  (((call.rerun storage debug).toward direction).run operands').trace.result
      = (call.run operands).trace.result
    ∧ (((call.rerun storage debug).toward direction).run operands').reportedSize
      = (call.run operands).reportedSize
    ∧ (direction = call.direction → operands' = operands → operands.isDoubleBuffer = true →
      (((call.rerun storage debug).toward direction).run operands').operands
        = (call.run operands).operands)
  := by
  have hplan' := call.plan_rerun storage debug direction hmode hsize hlengths
  cases hplan : call.plan operands with
  | error e =>
      rw [hplan] at hplan'
      rw [run_of_plan_error hplan, run_of_plan_error hplan']
      exact ⟨rfl, rfl, fun _ h _ => h⟩
  | ok plan =>
      rw [hplan] at hplan'
      rw [Accepts] at hstorage
      cases hmemory : call.storage with
      | none =>
          rw [hmemory] at hstorage
          cases hstorage
          rw [run_of_no_storage hplan hmemory, run_of_no_storage hplan' rfl]
          exact ⟨rfl, rfl, fun _ h _ => h⟩
      | some memory =>
          rw [hmemory] at hstorage
          cases hstorage with
          | some hstorage =>
              rename_i memory'
              have hmemory' : ((call.rerun (some memory') debug).toward direction).storage
                  = some memory' := rfl
              by_cases hcount : call.segments.count = 0
              · rw [run_of_no_segments hplan hmemory hcount,
                  run_of_no_segments hplan' hmemory' hcount]
                exact ⟨rfl, rfl, fun _ h _ => h⟩
              · rw [run_eq_execute hplan hmemory hcount, run_eq_execute hplan' hmemory' hcount,
                  reportedSize_execute, reportedSize_execute]
                obtain ⟨hresult, hoperands⟩ := execute_rerun hpartitioner hplan hmemory hcount
                  debug direction hmode hsize (hlengths.trans (planned_of_plan hplan).lengths)
                  (hstorage plan hplan)
                exact ⟨hresult, rfl, hoperands⟩

end SortCall

/-! ### Sorts -/

/-- Two outcomes are the same, apart from what has been recorded. -/
structure SortOutcome.Alike {β : Type} (o o' : SortOutcome β) : Prop where
  buffers : o'.buffers = o.buffers
  reportedSize : o'.reportedSize = o.reportedSize
  result : o'.result = o.result

/-- Two runs are the same, apart from what has been recorded. -/
structure Run.Alike {κ ν : Type} (r r' : Run κ ν) : Prop where
  operands : r'.operands = r.operands
  reportedSize : r'.reportedSize = r.reportedSize
  result : r'.trace.result = r.trace.result

/-- What a caller gets from runs that are alike is alike, if it does not depend on the records. -/
theorem Run.Alike.outcome {κ ν β : Type} {r r' : Run κ ν} (h : r.Alike r') (buffers : Run κ ν → β)
    (hbuffers : ∀ operands reportedSize events events' result,
      buffers ⟨operands, reportedSize, ⟨events', result⟩⟩
        = buffers ⟨operands, reportedSize, ⟨events, result⟩⟩) :
  (r.outcome (buffers r)).Alike (r'.outcome (buffers r'))
  := by
  obtain ⟨operands, reportedSize, events, result⟩ := r
  obtain ⟨operands', reportedSize', events', result'⟩ := r'
  obtain ⟨hoperands, hreportedSize, hresult⟩ := h
  dsimp only at hoperands hreportedSize hresult
  subst hoperands hreportedSize hresult
  exact ⟨hbuffers _ _ _ _ _, rfl, rfl⟩

/-- Operands of the same lengths are checked alike. -/
theorem Operands.checkLengths_congr {κ ν : Type} {o o' : Operands κ ν} (hsize : o'.size = o.size)
    (hlengths : o'.lengths = o.lengths) :
  o'.checkLengths = o.checkLengths
  := by
  rw [checkLengths, checkLengths, hsize, hlengths]

section

variable {t : KeyType} {ν : Type} [Element ν] {call : SortCall} {p : TiledPartition}
  {storage : Option Memory}

/-- A sort with a separate output tells the same whatever the output has held, and leaves the same
in its segments. -/
theorem sortPairs_rerun (hpartitioner : call.partitioner = p.partitioner)
    {input output : Columns (Key t) ν}
    (hstorage : call.Accepts (.separate input output) storage) (debug : Bool)
    (output' : Columns (Key t) ν) (hkeys : output'.keys.length = output.keys.length)
    (hvalues : output'.values.length = output.values.length) :
  (sortPairs (call.rerun storage debug) input output').result
      = (sortPairs call input output).result
    ∧ (call.storage ≠ none → (sortPairs call input output).result = .ok () →
      Columns.AgreeOn call.segments.spans (sortPairs call input output).buffers
        (sortPairs (call.rerun storage debug) input output').buffers)
  := by
  have hlengths : (Operands.separate input output').checkLengths
      = (Operands.separate input output).checkLengths := by
    apply Operands.checkLengths_congr
    · rfl
    · rw [Operands.lengths, Operands.lengths, hkeys, hvalues]
  have hresult : (sortPairs (call.rerun storage debug) input output').result
      = (sortPairs call input output).result :=
    congrArg (·.map fun _ => ()) (SortCall.run_rerun hpartitioner hstorage debug call.direction
      (.separate input output') rfl rfl hlengths).1
  use hresult
  intro hsome hok
  have hok' := hresult.trans hok
  have hsome' : (call.rerun storage debug).storage ≠ none :=
    fun hnone => hsome (hstorage.eq_none_iff.mp hnone)
  apply (even_sortPairs hok).agreeOn (even_sortPairs hok')
  apply (sortPairs_ok hsome hok).1.slice_eq (sortPairs_ok hsome' hok').1

/-- If the output has held the same, it also holds the same in the end. -/
theorem buffers_sortPairs_rerun (hpartitioner : call.partitioner = p.partitioner)
    {input output : Columns (Key t) ν}
    (hstorage : call.Accepts (.separate input output) storage) (debug : Bool) :
  (sortPairs (call.rerun storage debug) input output).buffers
    = (sortPairs call input output).buffers
  := by
  have hatomic := SortCall.Atomic.of_yields (yields_sortPairs call input output)
  have hatomic' :=
    SortCall.Atomic.of_yields (yields_sortPairs (call.rerun storage debug) input output)
  have hresult := (sortPairs_rerun hpartitioner hstorage debug output rfl rfl).1
  cases hsort : (sortPairs call input output).result with
  | error e =>
      rw [hsort] at hresult
      have hpartitioner' : (call.rerun storage debug).partitioner = p.partitioner := hpartitioner
      rw [(hatomic.failed e hsort).2.2.resolve_right
          (SortCall.not_oversize_of_tiled hpartitioner e),
        (hatomic'.failed e hresult).2.2.resolve_right
          (SortCall.not_oversize_of_tiled hpartitioner' e)]
  | ok =>
      rw [hsort] at hresult
      by_cases hnone : call.storage = none
      · rw [hatomic.query hnone, hatomic'.query (hstorage.eq_none_iff.mpr hnone)]
      · rw [← (even_sortPairs hsort).ofItems_items, ← (even_sortPairs hresult).ofItems_items]
        apply congrArg Columns.ofItems
        apply (sortsInto_sortPairs hnone hsort).unique
        apply sortsInto_sortPairs (fun h => hnone (hstorage.eq_none_iff.mp h)) hresult

/-- Whatever the storage holds, however far it exceeds the plan, and whether or not something is
recorded, a run leaves and tells the same. -/
theorem SortCall.run_alike (hpartitioner : call.partitioner = p.partitioner)
    {operands : Operands (Key t) ν} (hstorage : call.Accepts operands storage) (debug : Bool) :
  (call.run operands).Alike ((call.rerun storage debug).run operands)
  := by
  obtain ⟨hresult, hreportedSize, hoperands⟩ :=
    run_rerun hpartitioner hstorage debug call.direction operands rfl rfl rfl
  refine ⟨?_, hreportedSize, hresult⟩
  cases operands with
  | separate input output =>
      rw [operands_run_separate, operands_run_separate,
        buffers_sortPairs_rerun hpartitioner hstorage debug]
  | doubleBuffer current alternate => apply hoperands rfl rfl rfl

end

open DoubleBuffer (operands)

/-- With tiles to partition the segments, all four sorts leave and tell the same, apart from what
they record, whatever their storage holds, however far it exceeds the plan, and whether or not they
record anything.  For a separate output it does not even matter for the segments what the output
has held. -/
theorem sorts_ignore_contents (t : KeyType) (ν : Type) [Element ν] (call : SortCall)
    (p : TiledPartition) (hpartitioner : call.partitioner = p.partitioner)
    (storage : Option Memory) (debug : Bool) :
  (∀ input output : Columns (Key t) ν, call.Accepts (.separate input output) storage →
    (sortPairs call input output).Alike (sortPairs (call.rerun storage debug) input output)
    ∧ ∀ output' : Columns (Key t) ν, output'.keys.length = output.keys.length →
      output'.values.length = output.values.length →
      (sortPairs (call.rerun storage debug) input output').result
          = (sortPairs call input output).result
        ∧ (call.storage ≠ none → (sortPairs call input output).result = .ok () →
          Columns.AgreeOn call.segments.spans (sortPairs call input output).buffers
            (sortPairs (call.rerun storage debug) input output').buffers))
  ∧ (∀ input output : List (Key t), call.Accepts (keyOperands input output) storage →
    (sortKeys call input output).Alike (sortKeys (call.rerun storage debug) input output)
    ∧ ∀ output' : List (Key t), output'.length = output.length →
      (sortKeys (call.rerun storage debug) input output').result
          = (sortKeys call input output).result
        ∧ (call.storage ≠ none → (sortKeys call input output).result = .ok () →
          ∀ s ∈ call.segments.spans, s.slice (sortKeys (call.rerun storage debug) input
            output').buffers = s.slice (sortKeys call input output).buffers))
  ∧ (∀ (keys : DoubleBuffer (Key t)) (values : DoubleBuffer ν),
    call.Accepts (operands keys values) storage →
    (DoubleBuffer.sortPairs call keys values).Alike
      (DoubleBuffer.sortPairs (call.rerun storage debug) keys values))
  ∧ ∀ keys : DoubleBuffer (Key t), call.Accepts (operands keys keys.units) storage →
    (DoubleBuffer.sortKeys call keys).Alike
      (DoubleBuffer.sortKeys (call.rerun storage debug) keys)
  := by
  have halike {ν : Type} [Element ν] {operands : Operands (Key t) ν}
      (hstorage : call.Accepts operands storage) :=
    SortCall.run_alike hpartitioner hstorage debug
  refine ⟨?_, ?_, ?_, ?_⟩
  · intro input output hstorage
    use (halike hstorage).outcome Run.outputColumns fun _ _ _ _ _ => rfl
    exact sortPairs_rerun hpartitioner hstorage debug
  · intro input output hstorage
    use (halike hstorage).outcome (fun run => run.outputColumns.keys) fun _ _ _ _ _ => rfl
    intro output' hkeys
    obtain ⟨hresult, hagree⟩ := sortPairs_rerun hpartitioner hstorage debug
      ⟨output', List.replicate input.length ()⟩ hkeys rfl
    exact ⟨hresult, fun hsome hok s hs => (hagree hsome hok s hs).1⟩
  · intro keys values hstorage
    exact (halike hstorage).outcome (fun run =>
      (run.location.apply (keys.withContents run.inputColumns.keys run.outputColumns.keys),
        run.location.apply (values.withContents run.inputColumns.values run.outputColumns.values)))
      fun _ _ _ _ _ => rfl
  · intro keys hstorage
    exact (halike hstorage).outcome (fun run =>
      run.location.apply (keys.withContents run.inputColumns.keys run.outputColumns.keys))
      fun _ _ _ _ _ => rfl

/-- The storage of the sample holds something else, has eight bytes more, and the launches are
recorded. -/
theorem accepts_sample :
  (SortCall.tiledSample.withStorage (.filled 16 1032 7)).Accepts
    (.separate Columns.sample Columns.sample) (some (.filled 16 1040 255))
  := by
  apply Option.Rel.some
  intro plan hplan
  have htotal : ((SortCall.tiledSample.withStorage (.filled 16 1032 7)).plan
      (.separate Columns.sample Columns.sample)).map (·.layout.total) = .ok 1032 := by
    rfl
  rw [hplan] at htotal
  have hplanned : plan.layout.total = 1032 := Except.ok.inj htotal
  use rfl
  right
  rw [hplanned, Memory.size, Memory.size, Memory.filled, Memory.filled, List.length_replicate,
    List.length_replicate]
  decide

set_option maxRecDepth 20000 in
/-- The sample leaves and tells the same on it; and on columns of zeros, it leaves the same in its
segments. -/
theorem ignored_sample :
  (sortPairs (SortCall.tiledSample.withStorage (.filled 16 1032 7)) Columns.sample
      Columns.sample).result = .ok ()
    ∧ (sortPairs (SortCall.tiledSample.withStorage (.filled 16 1032 7)) Columns.sample
        Columns.sample).Alike
      (sortPairs ((SortCall.tiledSample.withStorage (.filled 16 1032 7)).rerun
        (some (.filled 16 1040 255)) true) Columns.sample Columns.sample)
    ∧ Columns.AgreeOn SortCall.tiledSample.segments.spans
      (sortPairs (SortCall.tiledSample.withStorage (.filled 16 1032 7)) Columns.sample
        Columns.sample).buffers
      (sortPairs ((SortCall.tiledSample.withStorage (.filled 16 1032 7)).rerun
        (some (.filled 16 1040 255)) true) Columns.sample
        ⟨List.replicate 5 ⟨0⟩, List.replicate 5 0⟩).buffers
  := by
  have hok : (sortPairs (SortCall.tiledSample.withStorage (.filled 16 1032 7)) Columns.sample
      Columns.sample).result = .ok () := by
    cbv
  obtain ⟨halike, hagree⟩ := (sorts_ignore_contents (.unsigned .w8) UInt8
    (SortCall.tiledSample.withStorage (.filled 16 1032 7)) (TiledPartition.ofTile 1) rfl
    (some (.filled 16 1040 255)) true).1 Columns.sample Columns.sample accepts_sample
  refine ⟨hok, halike, ?_⟩
  apply (hagree ⟨List.replicate 5 ⟨0⟩, List.replicate 5 0⟩ rfl rfl).2 _ hok
  rintro ⟨⟩

end SegmentSort
