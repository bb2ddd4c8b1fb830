import SegmentSort.Proofs.Atomicity
import SegmentSort.Proofs.Phases

/-!
# Streams do not matter

A worker hands the workspace that one group has left on to its next group, so a launch could
depend on who runs which group and when.  It does not if the groups are `Oblivious`: if what they
leave of their items does not depend on the workspace.  Such a launch ends in the same way on all
streams if it succeeds on one of them (`Oblivious.launch_eq`).  Counting passes clear the counters,
and insertion sorts clear the stage, so the groups of both kernels are oblivious; and so are those
of a tiled partition, which therefore `IgnoresStream`.  Hence a sort leaves and tells the same on
all streams (`sorts_ignore_streams`).
-/

namespace SegmentSort

variable {σ ω : Type}

/-- What a group does with its item does not depend on the workspace in which it runs. -/
structure Oblivious (body : σ → ω → GroupRun σ ω) : Prop where
  item : ∀ s s' a, (body s a).item = (body s' a).item
  result : ∀ s s' a, (body s a).result = (body s' a).result

namespace Oblivious

variable {body : σ → ω → GroupRun σ ω} (h : Oblivious body) (kernel : String) (debug : Bool)
  (fresh : σ) {work : List ω} {stream : Stream}

include h

/-- If a launch succeeds, then so do all its groups, in any workspace. -/
theorem result_of_launch_ok
    (hok : (stream.launch kernel debug fresh body work).outcome.result = .ok ()) :
  ∀ a ∈ work, ∀ s, (body s a).result = .ok ()
  := by
  intro a ha s
  by_contra hne
  apply stream.launch_ne_ok kernel debug fresh body work ha _ hok
  intro s'
  rwa [h.result s' s]

/-- A launch that succeeds on one stream does the same on every other one. -/
theorem launch_eq (hok : (stream.launch kernel debug fresh body work).outcome.result = .ok ())
    (other : Stream) :
  other.launch kernel debug fresh body work = stream.launch kernel debug fresh body work
  := by
  have hmap : ∀ stream : Stream,
      (stream.launch kernel debug fresh body work).items = work.map (fun a => (body fresh a).item)
        ∧ (stream.launch kernel debug fresh body work).outcome.result = .ok () := by
    intro stream
    apply stream.launch_eq_map kernel debug fresh body work
    intro a ha s
    exact ⟨h.result_of_launch_ok kernel debug fresh hok a ha s, h.item s fresh a⟩
  have houtcome : (other.launch kernel debug fresh body work).outcome
      = (stream.launch kernel debug fresh body work).outcome := by
    rw [other.outcome_launch, stream.outcome_launch, (hmap other).2, (hmap stream).2]
  have hitems := (hmap other).1.trans (hmap stream).1.symm
  generalize other.launch kernel debug fresh body work = x at *
  generalize stream.launch kernel debug fresh body work = y at *
  cases x
  cases y
  congr

variable (work) in
/-- If there is only one way to fail, then launches record the same on all streams, whether they
succeed or not. -/
theorem outcome_launch_eq {e : Failure}
    (hfailure : ∀ a s, (body s a).result = .ok () ∨ (body s a).result = .error e)
    (stream other : Stream) :
  (other.launch kernel debug fresh body work).outcome
    = (stream.launch kernel debug fresh body work).outcome
  := by
  have herror : ∀ stream : Stream, ∀ e',
      (stream.launch kernel debug fresh body work).outcome.result = .error e' → e' = e := by
    intro stream e' he'
    obtain ⟨a, -, s, hs⟩ := stream.launch_error kernel debug fresh body work he'
    rcases hfailure a s with hok | hfailed
    · rw [hs] at hok
      cases hok
    · rw [hs] at hfailed
      exact Except.error.inj hfailed
  cases hresult : (stream.launch kernel debug fresh body work).outcome.result with
  | ok => rw [h.launch_eq kernel debug fresh hresult other]
  | error e₁ =>
      cases hresult' : (other.launch kernel debug fresh body work).outcome.result with
      | ok =>
          rw [h.launch_eq kernel debug fresh hresult' stream, hresult'] at hresult
          cases hresult
      | error e₂ =>
          rw [other.outcome_launch, stream.outcome_launch, hresult, hresult',
            herror stream e₁ hresult, herror other e₂ hresult']

end Oblivious

/-! ### Kernels -/

namespace Kernel

variable {α : Type}

/-- What a kernel does on one stream it does on all, if it succeeds. -/
def Steady (κ : Kernel α) : Prop :=
  ∀ (stream other : Stream) (debug : Bool) (views : List (SegmentView α)),
    (κ.run stream debug views).outcome.result = .ok () →
    κ.run other debug views = κ.run stream debug views

/-- A kernel succeeds on every stream, and leaves and records the same on all of them. -/
structure Determined (κ : Kernel α) (debug : Bool) (views : List (SegmentView α)) : Prop where
  ok : ∀ stream, (κ.dispatch stream debug views).outcome.result = .ok ()
  same : ∀ stream other, κ.dispatch other debug views = κ.dispatch stream debug views

variable {κ : Kernel α} {stream : Stream} {debug : Bool} {views : List (SegmentView α)}

theorem Steady.dispatch_eq (h : κ.Steady)
    (hok : (κ.dispatch stream debug views).outcome.result = .ok ()) (other : Stream) :
  κ.dispatch other debug views = κ.dispatch stream debug views
  := by
  by_cases hempty : views = []
  · subst hempty
    rfl
  · rw [result_dispatch hempty] at hok
    rw [dispatch, dispatch, h stream other debug views hok]

theorem Steady.determined (h : κ.Steady)
    (hok : ∀ stream, (κ.dispatch stream debug views).outcome.result = .ok ()) :
  κ.Determined debug views
  := ⟨hok, fun stream => h.dispatch_eq (hok stream)⟩

end Kernel

/-! ### Radix passes -/

section

variable {α : Type}

/-- What is left of the counters before a pass does not matter. -/
theorem scatter?_congr (digitOf : α → Nat) (width : Nat) (source target : List α)
    (counters counters' : Array Nat) :
  scatter? digitOf width source target counters = scatter? digitOf width source target counters'
  := by
  rw [scatter?, scatter?, destinations?, destinations?, Counters.clearCounters_eq_table,
    Counters.clearCounters_eq_table]

namespace RadixPasses

variable (r : RadixPasses α) (v : SegmentView α)

theorem hop?_congr (counters counters' : Array Nat) (hop : Hop) :
  r.hop? (v, counters) hop = r.hop? (v, counters') hop
  := by
  rw [hop?, hop?]
  simp only [scatter?_congr _ _ _ _ counters counters']

theorem sortSegment?_congr (counters counters' : Array Nat) :
  (r.sortSegment? v counters).map (·.1) = (r.sortSegment? v counters').map (·.1)
  := by
  rw [sortSegment?, sortSegment?]
  split
  · rfl
  · cases r.hops v with
    | nil => rfl
    | cons hop hops => rw [List.foldlM_cons, List.foldlM_cons, r.hop?_congr v counters counters']

theorem oblivious_group :
  Oblivious r.group
  := by
  have hgroup : ∀ counters v,
      (r.group counters v).item = ((r.sortSegment? v counters).map (·.1)).getD v
        ∧ (r.group counters v).result
          = match (r.sortSegment? v counters).map (·.1) with
            | some _ => .ok ()
            | none => .error .undefined := by
    intro counters v
    rw [group]
    cases r.sortSegment? v counters with
    | none => exact ⟨rfl, rfl⟩
    | some sorted => exact ⟨rfl, rfl⟩
  constructor
  · intro counters counters' v
    rw [(hgroup counters v).1, (hgroup counters' v).1, r.sortSegment?_congr v counters counters']
  · intro counters counters' v
    rw [(hgroup counters v).2, (hgroup counters' v).2, r.sortSegment?_congr v counters counters']

theorem steady_kernel (name : String) :
  (r.kernel name).Steady
  := by
  intro stream other debug views hok
  apply r.oblivious_group.launch_eq name debug #[] hok

/-- Views with data where the first pass does not write are sorted alike on all streams. -/
theorem determined_kernel (name : String) (debug : Bool) {views : List (SegmentView α)}
    (hviews : ∀ v ∈ views, v.Balanced ∧ v.origin ≠ r.placement.target 0) :
  (r.kernel name).Determined debug views
  := by
  apply (r.steady_kernel name).determined
  intro stream
  by_cases hempty : views = []
  · subst hempty
    rfl
  · rw [Kernel.result_dispatch hempty]
    apply stream.launch_ok_of_forall
    intro v hv counters
    obtain ⟨hbalanced, hsource⟩ := hviews v hv
    obtain ⟨w, counters', -, hpasses⟩ := foldlM_hop? hbalanced hsource counters r.schedule.passes
    rw [group, sortSegment?]
    split
    · rename_i hsort
      rfl
    · rename_i hsort
      split at hsort
      · cases hsort
      · rw [hops, hpasses] at hsort
        cases hsort

end RadixPasses

/-! ### Short sorts -/

namespace ShortSort

variable (s : ShortSort α)

/-- What is left on the stage does not matter. -/
theorem throughStage?_congr (v : SegmentView α) (staged staged' : Array (Nat × α)) :
  s.throughStage? v staged = s.throughStage? v staged'
  := by
  have hstage : s.stage staged v.data = s.stage staged' v.data := by
    simp [stage]
  rw [throughStage?, throughStage?, hstage]

theorem sortSegment_congr (v : SegmentView α) (staged staged' : Array (Nat × α)) :
  (s.sortSegment v staged).map (·.1) = (s.sortSegment v staged').map (·.1)
  := by
  rw [sortSegment, sortSegment, s.throughStage?_congr v staged staged']
  split
  · rfl
  · split
    · rfl
    · rfl

theorem group_cons (v : SegmentView α) (rest : List (SegmentView α)) (staged : Array (Nat × α)) :
  (∃ w staged', s.sortSegment v staged = .ok (w, staged')
      ∧ (s.group staged (v :: rest)).item = w :: (s.group staged' rest).item
      ∧ (s.group staged (v :: rest)).result = (s.group staged' rest).result)
    ∨ ∃ e, s.sortSegment v staged = .error e ∧ (s.group staged (v :: rest)).item = v :: rest
      ∧ (s.group staged (v :: rest)).result = .error e
  := by
  rw [group]
  cases hsort : s.sortSegment v staged with
  | error e =>
      right
      exact ⟨e, rfl, rfl, rfl⟩
  | ok sorted =>
      left
      exact ⟨sorted.1, sorted.2, rfl, rfl, rfl⟩

/-- A group does with each segment of its block what it would do with any stage. -/
theorem group_congr (block : List (SegmentView α)) :
    ∀ staged staged' : Array (Nat × α),
      (s.group staged block).item = (s.group staged' block).item
        ∧ (s.group staged block).result = (s.group staged' block).result := by
  induction block with
  | nil =>
      intro staged staged'
      exact ⟨rfl, rfl⟩
  | cons v rest ih =>
      intro staged staged'
      have hsort := s.sortSegment_congr v staged staged'
      rcases s.group_cons v rest staged with ⟨w, later, hw, hitem, hresult⟩ |
        ⟨e, he, hitem, hresult⟩
      · rcases s.group_cons v rest staged' with
          ⟨w', later', hw', hitem', hresult'⟩ | ⟨e', he', -⟩
        · rw [hw, hw'] at hsort
          obtain rfl : w = w' := Except.ok.inj hsort
          rw [hitem, hresult, hitem', hresult', (ih later later').1, (ih later later').2]
          exact ⟨rfl, rfl⟩
        · rw [hw, he'] at hsort
          cases hsort
      · rcases s.group_cons v rest staged' with ⟨w', later', hw', -⟩ | ⟨e', he', hitem', hresult'⟩
        · rw [he, hw'] at hsort
          cases hsort
        · rw [he, he'] at hsort
          obtain rfl : e = e' := Except.error.inj hsort
          rw [hitem, hresult, hitem', hresult']
          exact ⟨rfl, rfl⟩

theorem oblivious_group :
  Oblivious s.group
  := by
  constructor
  · intro staged staged' block
    apply (s.group_congr block staged staged').1
  · intro staged staged' block
    apply (s.group_congr block staged staged').2

theorem steady_kernel :
  s.kernel.Steady
  := by
  intro stream other debug views hok
  have hlaunch := s.oblivious_group.launch_eq shortSegmentKernel debug #[] hok other
  change Launched.mk _ _ = Launched.mk _ _
  rw [hlaunch]

/-- Views that fit a logical warp are sorted alike on all streams. -/
theorem determined_kernel (hperBlock : 0 < s.perBlock) (debug : Bool)
    {views : List (SegmentView α)} (hviews : ∀ v ∈ views, v.Balanced ∧ v.size ≤ s.capacity) :
  s.kernel.Determined debug views
  := by
  apply s.steady_kernel.determined
  intro stream
  have htried := tried_dispatch (s := s) hperBlock stream debug fun v hv => (hviews v hv).1
  apply htried.result_eq_ok_iff.mpr
  intro v hv
  apply (hviews v hv).2

end ShortSort

/-- Work that is sorted on one stream is sorted alike on every other one. -/
theorem Work.dispatch_eq {work : Work α} {plan : Plan} {code : α → Nat} {stream : Stream}
    {debug : Bool} (hok : (work.dispatch plan code stream debug).outcome.result = .ok ())
    (other : Stream) :
  work.dispatch plan code other debug = work.dispatch plan code stream debug
  := by
  cases work with
  | uniform views =>
      apply ((plan.radixPasses code).steady_kernel "segmented_sort").dispatch_eq hok
  | classified views classifier indices large small =>
      have hfirst : (((plan.radixPasses code).kernel "segmented_sort:large_segments").dispatch
          stream debug large).outcome.result = .ok () := by
        cases hresult : (((plan.radixPasses code).kernel
          "segmented_sort:large_segments").dispatch stream debug large).outcome.result with
        | ok => rfl
        | error e =>
            rw [dispatch] at hok
            dsimp only at hok
            rw [Traced.result_bind, hresult] at hok
            cases hok
      have hlarge :=
        ((plan.radixPasses code).steady_kernel "segmented_sort:large_segments").dispatch_eq hfirst
          other
      have hsecond : ((plan.shortSort code classifier).kernel.dispatch stream debug
          small).outcome.result = .ok () := by
        rw [← (dispatch_classified views indices rfl rfl hfirst).2, hok]
      have hsmall := (plan.shortSort code classifier).steady_kernel.dispatch_eq hsecond other
      rw [dispatch, dispatch, hlarge, hfirst]
      dsimp only
      rw [hsmall]

end

/-! ### Partitions -/

/-- A partitioner leaves and records the same on all streams. -/
def Partitioner.IgnoresStream (p : Partitioner) : Prop :=
  ∀ {slots : Nat} (r : PartitionRequest slots) (stream : Stream),
    p.partition { r with stream } = p.partition r

namespace TiledPartition

variable (p : TiledPartition)

theorem oblivious_countGroup (segments : Nat) (selected : Nat → Bool) :
  Oblivious (p.countGroup segments selected)
  := ⟨fun _ _ _ => rfl, fun _ _ _ => rfl⟩

theorem oblivious_scatterGroup (selected : Nat → Bool) :
  Oblivious (scatterGroup selected)
  := ⟨fun _ _ _ => rfl, fun _ _ _ => rfl⟩

/-- Counting always succeeds, so it does the same on all streams. -/
theorem launch_countGroup_eq (segments : Nat) (selected : Nat → Bool) (debug : Bool)
    (work : List (UInt32 × Nat)) (stream other : Stream) :
  other.launch "partition:count_tiles" debug () (p.countGroup segments selected) work
    = stream.launch "partition:count_tiles" debug () (p.countGroup segments selected) work
  := by
  apply (p.oblivious_countGroup segments selected).launch_eq
  apply stream.launch_ok_of_forall
  intro _ _ _
  rfl

/-- Writing the windows records the same on all streams, and where it succeeds, it also leaves
the same. -/
theorem launch_scatterGroup_eq {β : Type} (selected : Nat → Bool) (debug : Bool)
    (work : List Window) (f : List Window → β) (stream other : Stream) :
  (do
    (other.launch "partition:scatter" debug () (scatterGroup selected) work).outcome
    return f (other.launch "partition:scatter" debug () (scatterGroup selected) work).items
    : Traced β)
  = do
    (stream.launch "partition:scatter" debug () (scatterGroup selected) work).outcome
    return f (stream.launch "partition:scatter" debug () (scatterGroup selected) work).items
  := by
  have hfailure : ∀ w s, (scatterGroup selected s w).result = .ok ()
      ∨ (scatterGroup selected s w).result = .error .undefined := by
    intro w s
    rw [scatterGroup]
    split
    · left
      rfl
    · right
      rfl
  have houtcome := (oblivious_scatterGroup selected).outcome_launch_eq "partition:scatter" debug ()
    work hfailure stream other
  cases hresult : (stream.launch "partition:scatter" debug () (scatterGroup selected)
    work).outcome.result with
  | ok =>
      rw [(oblivious_scatterGroup selected).launch_eq "partition:scatter" debug () hresult other]
  | error e =>
      rw [houtcome]
      change Traced.bind _ _ = Traced.bind _ _
      rw [Traced.bind, Traced.bind, hresult]

theorem ignoresStream_partitioner :
  p.partitioner.IgnoresStream
  := by
  intro slots r stream
  have harrange : p.arrange { r with stream } = p.arrange r := by
    rw [arrange, arrange]
    dsimp only
    have hcounters : p.counters { r with stream } = p.counters r := rfl
    rw [hcounters]
    congr 1
    funext counters
    rw [p.launch_countGroup_eq _ _ _ _ r.stream stream]
    congr 1
    funext _
    congr 1
    funext halves
    congr 1
    funext windows
    apply launch_scatterGroup_eq r.selected r.debug windows
      (fun items => (items.flatMap (·.picked) ++ items.flatMap (·.rest), _)) r.stream stream
  change p.partition { r with stream } = p.partition r
  rw [partition, partition, harrange]

end TiledPartition

/-! ### Sorts -/

namespace SortCall

/-- The call on another stream. -/
def onStream (call : SortCall) (stream : Stream) : SortCall :=
  { call with stream }

variable {t : KeyType} {ν : Type} [Element ν] {call : SortCall} {operands : Operands (Key t) ν}
  {plan : Plan} {memory : Memory}

theorem classifiedWork_onStream {α : Type} (hpartitioner : plan.partitioner.IgnoresStream)
    (classifier : Classifier) (carved : Carved) (views : List (SegmentView α)) (stream : Stream) :
  (call.onStream stream).classifiedWork plan classifier carved views
    = call.classifiedWork plan classifier carved views
  := by
  have hclassify : ∀ (storage : Memory) (indices : Vector UInt32 call.segments.count)
      (count : UInt32),
      classifier.classify plan.partitioner storage call.segments indices count stream
        call.options.debug
      = classifier.classify plan.partitioner storage call.segments indices count call.stream
        call.options.debug := by
    intro storage indices count
    have hreply := hpartitioner {
      storage
      segments := call.segments.count
      selected := classifier.isLarge call.segments
      indices
      count
      stream := call.stream
      debug := call.options.debug } stream
    rw [Classifier.classify, Classifier.classify]
    dsimp only at hreply ⊢
    rw [hreply]
  rw [classifiedWork, classifiedWork]
  simp only [onStream, hclassify]

theorem prepare_onStream (hpartitioner : plan.partitioner.IgnoresStream) (stream : Stream) :
  (call.onStream stream).prepare plan operands memory = call.prepare plan operands memory
  := by
  rw [prepare, prepare]
  simp only [classifiedWork_onStream hpartitioner]
  rfl

/-- If the work is prepared, then the partitioner has replied with a partition. -/
theorem valid_of_prepare {classifier : Classifier}
    {request : PartitionRequest call.segments.count}
    (hconsult : call.consult operands = .ok (some (classifier, request)))
    (hplan : call.plan operands = .ok plan) (hstorage : call.storage = some memory)
    {prepared : SegmentMap × Work (Key t × ν)}
    (h : (call.prepare plan operands memory).result = .ok prepared) :
  (call.partitioner.partition request).Valid
  := by
  obtain ⟨plan', memory', map, temporary, hplan', hstorage', -, hmap, hready, hprepare⟩ :=
    prepare_of_consult hconsult
  obtain rfl := Except.ok.inj (hplan.symm.trans hplan')
  obtain rfl := Option.some.inj (hstorage.symm.trans hstorage')
  obtain ⟨hoffsets, rfl, -⟩ := Segments.resolve_eq_ok_iff.mp hmap
  have hviews : (call.segments.spans.map (operands.view temporary)).length
      = call.segments.count := by
    rw [List.length_map, Segments.length_spans hoffsets]
  apply (exists_workOf_iff classifier hviews _).mp
  rw [hprepare] at h
  cases hwork : workOf classifier (call.segments.spans.map (operands.view temporary))
    (call.partitioner.partition request) with
  | ok work => exact ⟨work, rfl⟩
  | error e =>
      rw [hwork] at h
      cases h

/-- The kernels do not fail, unless a segment exceeds the capacity of the insertion sorts. -/
theorem result_launched_of_not_oversize (hplan : call.plan operands = .ok plan)
    (hstorage : call.storage = some memory) (hcount : call.segments.count ≠ 0)
    {map : SegmentMap} {work : Work (Key t × ν)}
    (hprepare : (call.prepare plan operands memory).result = .ok (map, work))
    (hfits : ∀ e, ¬ call.Oversize operands e) :
  (call.launched plan work).outcome.result = .ok ()
  := by
  have hresult := (execute_of_ok hprepare).2
  rw [← run_eq_execute hplan hstorage hcount] at hresult
  cases hlaunched : (call.launched plan work).outcome.result with
  | ok => rfl
  | error e =>
      rw [hlaunched] at hresult
      change _ = Except.error e at hresult
      rcases consult_of_prepare hplan hstorage hcount hprepare with ⟨views, rfl⟩ |
        ⟨classifier, request, hconsult⟩
      · rw [result_run_of_uniform hplan hstorage hcount hprepare] at hresult
        cases hresult
      · rcases run_of_consult hconsult rfl with ⟨e', hrefused, -⟩ |
          ⟨hvalid, ⟨-, hok⟩ | ⟨length, hsmall, hlong, -⟩⟩
        · cases hrefused.not_valid (valid_of_prepare hconsult hplan hstorage hprepare)
        · rw [hresult] at hok
          cases hok
        · cases hfits _ ⟨classifier, request, length, hconsult, hvalid, hsmall, hlong, rfl⟩

/-- A run is the same on all streams if the partition is, and if no segment exceeds the capacity of
the insertion sorts. -/
theorem run_onStream (hpartitioner : call.partitioner.IgnoresStream)
    (hfits : ∀ e, ¬ call.Oversize operands e) (stream : Stream) :
  (call.onStream stream).run operands = call.run operands
  := by
  cases hplan : call.plan operands with
  | error e =>
      have hplan' : (call.onStream stream).plan operands = .error e := hplan
      rw [run_of_plan_error hplan, run_of_plan_error hplan']
  | ok plan =>
      have hplan' : (call.onStream stream).plan operands = .ok plan := hplan
      cases hstorage : call.storage with
      | none =>
          have hstorage' : (call.onStream stream).storage = none := hstorage
          rw [run_of_no_storage hplan hstorage, run_of_no_storage hplan' hstorage']
      | some memory =>
          have hstorage' : (call.onStream stream).storage = some memory := hstorage
          by_cases hcount : call.segments.count = 0
          · rw [run_of_no_segments hplan hstorage hcount,
              run_of_no_segments hplan' hstorage' hcount]
          · rw [run_eq_execute hplan hstorage hcount, run_eq_execute hplan' hstorage' hcount]
            rw [← (planned_of_plan hplan).partitioner] at hpartitioner
            rw [execute, execute, prepare_onStream hpartitioner]
            dsimp only
            split
            · rfl
            · rename_i map work hprepare
              have hok := result_launched_of_not_oversize hplan hstorage hcount hprepare hfits
              change Run.mk _ _ _ = Run.mk _ _ _
              rw [show work.dispatch plan (call.onStream stream).code (call.onStream stream).stream
                (call.onStream stream).options.debug
                = work.dispatch plan call.code call.stream call.options.debug from
                Work.dispatch_eq hok stream]

theorem request_eq_ok {classifier : Classifier} {carved : Carved}
    {request : PartitionRequest call.segments.count}
    (h : call.request classifier carved = .ok request) :
  request.segments = call.segments.count ∧ request.selected = classifier.isLarge call.segments
  := by
  simp only [SortCall.request, bind_eq_ok_iff] at h
  obtain ⟨indices, -, count, -, hrequest⟩ := h
  obtain rfl := Except.ok.inj hrequest
  exact ⟨rfl, rfl⟩

/-- A partitioner is asked about all segments, of which there are not too many for a word. -/
theorem request_of_consult {classifier : Classifier}
    {request : PartitionRequest call.segments.count}
    (h : call.consult operands = .ok (some (classifier, request))) :
  call.segments.count < wordBound ∧ request.segments = call.segments.count
    ∧ request.selected = classifier.isLarge call.segments
  := by
  simp only [consult, bind_eq_ok_iff] at h
  obtain ⟨plan, hplan, h⟩ := h
  split at h
  · rename_i memory classifier' hstorage hclassifier
    split at h
    · cases h
    · simp only [bind_eq_ok_iff, reported_eq_ok_iff] at h
      obtain ⟨map, -, carved, -, ⟨temporary, rest⟩, -, request', hrequest, hpair⟩ := h
      obtain ⟨rfl, rfl⟩ := Prod.mk.inj (Option.some.inj (Except.ok.inj hpair))
      exact ⟨(planned_of_plan hplan).lt_wordBound hclassifier, request_eq_ok hrequest⟩
  · cases h

/-- With tiles to partition the segments, no segment exceeds the capacity of the insertion
sorts. -/
theorem not_oversize_of_tiled {p : TiledPartition} (hpartitioner : call.partitioner = p.partitioner)
    (e : Failure) :
  ¬ call.Oversize operands e
  := by
  rintro ⟨classifier, request, length, hconsult, hvalid, ⟨i, hi, hlength⟩, hlong, -⟩
  obtain ⟨hword, hsegments, hselected⟩ := request_of_consult hconsult
  have hreply : call.partitioner.partition request = p.partition request := by
    rw [hpartitioner]
    rfl
  rw [hreply] at hvalid hi
  obtain ⟨counters, hcounters⟩ := p.exists_counters hvalid.ok
  have hsmall := (p.valid_partition hword hsegments hcounters).2 i hi
  rw [hselected, Classifier.isLarge, hlength] at hsmall
  cases of_decide_eq_false hsmall hlong

/-- With tiles to partition the segments, a run is the same on all streams. -/
theorem run_onStream_of_tiled {p : TiledPartition}
    (hpartitioner : call.partitioner = p.partitioner) (stream : Stream) :
  (call.onStream stream).run operands = call.run operands
  := by
  apply run_onStream _ (not_oversize_of_tiled hpartitioner)
  rw [hpartitioner]
  exact p.ignoresStream_partitioner

end SortCall

open DoubleBuffer (operands sampleKeys sampleValues)

/-- Neither kernel depends on who runs its groups and when: a group does the same with its items
in any workspace; and a kernel succeeds, and leaves the same on all sides of its views, on every
stream, unless a view exceeds the capacity of the insertion sorts.  Hence a run does not depend on
the stream, if its partitioner does not and if no segment exceeds that capacity; and with tiles to
partition the segments, all four sorts leave the same buffers and tell the same on every stream. -/
theorem sorts_ignore_streams :
  (∀ (α : Type) (r : RadixPasses α), Oblivious r.group ∧
    ∀ (name : String) (debug : Bool) (views : List (SegmentView α)),
      (∀ v ∈ views, v.Balanced ∧ v.origin ≠ r.placement.target 0) →
      (r.kernel name).Determined debug views)
  ∧ (∀ (α : Type) (s : ShortSort α), Oblivious s.group ∧
    ∀ (debug : Bool) (views : List (SegmentView α)), 0 < s.perBlock →
      (∀ v ∈ views, v.Balanced ∧ v.size ≤ s.capacity) → s.kernel.Determined debug views)
  ∧ ∀ (t : KeyType) (ν : Type) [Element ν] (call : SortCall),
    (∀ operands : Operands (Key t) ν, call.partitioner.IgnoresStream →
      (∀ e, ¬ call.Oversize operands e) →
      ∀ stream, (call.onStream stream).run operands = call.run operands)
    ∧ ∀ p : TiledPartition, call.partitioner = p.partitioner → ∀ stream : Stream,
      (∀ input output : Columns (Key t) ν,
        sortPairs (call.onStream stream) input output = sortPairs call input output)
      ∧ (∀ input output : List (Key t),
        sortKeys (call.onStream stream) input output = sortKeys call input output)
      ∧ (∀ (keys : DoubleBuffer (Key t)) (values : DoubleBuffer ν),
        DoubleBuffer.sortPairs (call.onStream stream) keys values
          = DoubleBuffer.sortPairs call keys values)
      ∧ ∀ keys : DoubleBuffer (Key t),
        DoubleBuffer.sortKeys (call.onStream stream) keys = DoubleBuffer.sortKeys call keys
  := by
  refine ⟨?_, ?_, ?_⟩
  · intro α r
    use r.oblivious_group
    intro name debug views
    apply r.determined_kernel
  · intro α s
    use s.oblivious_group
    intro debug views hperBlock
    apply s.determined_kernel hperBlock
  · intro t ν _ call
    constructor
    · intro operands hpartitioner hfits
      apply SortCall.run_onStream hpartitioner hfits
    · intro p hpartitioner stream
      refine ⟨?_, ?_, ?_, ?_⟩
      · intro input output
        rw [sortPairs, sortPairs, SortCall.run_onStream_of_tiled hpartitioner]
      · intro input output
        rw [sortKeys, sortKeys, SortCall.run_onStream_of_tiled hpartitioner]
      · intro keys values
        rw [DoubleBuffer.sortPairs, DoubleBuffer.sortPairs,
          SortCall.run_onStream_of_tiled hpartitioner]
      · intro keys
        rw [DoubleBuffer.sortKeys, DoubleBuffer.sortKeys,
          SortCall.run_onStream_of_tiled hpartitioner]

/-- Two workers take turns, from the last group to the first. -/
def Stream.backwards : Stream where
  threads := 2
  assignment _ groups := {
    order := (List.finRange groups).reverse
    worker g := g % 2
    drain := 0
    complete := List.reverse_perm _ }

/-- Two views with data in the scratch. -/
def SegmentView.samples : List (SegmentView Nat) :=
  [⟨none, [3, 1, 2], [0, 0, 0]⟩, ⟨none, [1, 0], [0, 0]⟩]

theorem SegmentView.balanced_samples :
  ∀ v ∈ samples, v.Balanced
  := by
  intro v hv
  rcases List.mem_pair.mp hv with rfl | rfl
  · use rfl
    rintro l ⟨⟩
  · use rfl
    rintro l ⟨⟩

/-- Two passes of one bit. -/
def RadixPasses.sample : RadixPasses Nat where
  schedule := ⟨0, 2, 1, 1, 2, 0⟩
  placement := .ofCount 2 true
  code := id

/-- Insertion sorts by the same bits. -/
def ShortSort.sample : ShortSort Nat where
  beginBit := 0
  endBit := 2
  code := id
  result := .primary
  perBlock := 1
  capacity := 3

set_option maxRecDepth 20000 in
/-- The views are sorted on this stream as on all others; and the samples leave on it what they
leave on their own, whether the partitioner lists the segments in descending order or by tiles. -/
theorem backwards_sample :
  (RadixPasses.sample.kernel "segmented_sort").Determined true SegmentView.samples
    ∧ ShortSort.sample.kernel.Determined true SegmentView.samples
    ∧ (SortCall.descendingSample.onStream .backwards).run (operands sampleKeys sampleValues)
      = SortCall.descendingSample.run (operands sampleKeys sampleValues)
    ∧ sortPairs ((SortCall.tiledSample.withStorage (.filled 16 1032 7)).onStream .backwards)
        Columns.sample Columns.sample
      = sortPairs (SortCall.tiledSample.withStorage (.filled 16 1032 7)) Columns.sample
        Columns.sample
    ∧ (sortPairs (SortCall.tiledSample.withStorage (.filled 16 1032 7)) Columns.sample
      Columns.sample).result = .ok ()
  := by
  refine ⟨?_, ?_, ?_, ?_, ?_⟩
  · apply (sorts_ignore_streams.1 Nat RadixPasses.sample).2
    intro v hv
    use SegmentView.balanced_samples v hv
    revert v
    decide
  · apply (sorts_ignore_streams.2.1 Nat ShortSort.sample).2
    · decide
    · intro v hv
      use SegmentView.balanced_samples v hv
      revert v
      decide
  · apply (sorts_ignore_streams.2.2 (.unsigned .w8) UInt8 SortCall.descendingSample).1
    · intro slots r stream
      rfl
    · rintro e ⟨classifier, request, length, hconsult, -, ⟨i, hi, hlength⟩, hlong, -⟩
      have hsample : SortCall.descendingSample.consult (operands sampleKeys sampleValues)
          = .ok (some (⟨⟨3, 1, 3, 0⟩, 3⟩, SortCall.descendingRequest)) := by
        cbv
      rw [hsample] at hconsult
      obtain ⟨rfl, rfl⟩ := Prod.mk.inj (Option.some.inj (Except.ok.inj hconsult))
      have hlengths : (SortCall.descendingSample.partitioner.partition
          SortCall.descendingRequest).indices.toList.map
            (SortCall.descendingSample.segments.length? ·.toNat) = [some 2, some 3] := by
        rfl
      have hmem : some length ∈ [some 2, some 3] := by
        rw [← hlengths, ← hlength]
        apply List.mem_map_of_mem (List.mem_of_mem_drop hi)
      rcases List.mem_pair.mp hmem with heq | heq
      · obtain rfl := Option.some.inj heq
        cases Nat.not_lt_of_ge (show 2 ≤ 3 by decide) hlong
      · obtain rfl := Option.some.inj heq
        cases Nat.lt_irrefl 3 hlong
  · apply ((sorts_ignore_streams.2.2 (.unsigned .w8) UInt8
      (SortCall.tiledSample.withStorage (.filled 16 1032 7))).2
      (TiledPartition.ofTile 1) rfl .backwards).1
  · cbv

end SegmentSort
