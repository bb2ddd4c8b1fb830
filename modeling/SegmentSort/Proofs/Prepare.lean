import SegmentSort.Proofs.Dispatch
import SegmentSort.Proofs.Operands
import SegmentSort.Proofs.Plan

/-!
# Preparing a sort

A sort that is prepared has resolved its segments, and its work is whole
(`SortCall.prepared_of_prepare`).  This holds whatever a partitioner replies to the request
of a call: `workOf` says which work follows from a reply, and `workOf_cases` that a reply
that is not a permutation of the segments is refused.
-/

namespace SegmentSort

/-! ### Replies of partitioners -/

namespace PartitionReply

variable {n : Nat}

/-- A partition of the segments: their indices in some order, of which the counter cuts off
some as large. -/
structure Valid (reply : PartitionReply n) : Prop where
  ok : reply.trace.result = .ok ()
  count : reply.count.toNat ≤ n
  perm : (reply.indices.toList.map UInt32.toNat).Perm (List.range n)

/-- The failure with which a reply is refused. -/
inductive Refused (reply : PartitionReply n) : Failure → Prop
  | failed {e : Failure} (h : reply.trace.result = .error e) : Refused reply e
  | excess (hok : reply.trace.result = .ok ()) (hcount : n < reply.count.toNat) :
      Refused reply (.reported (.excessLargeCount reply.count.toNat n))
  | improper {i : UInt32} (hok : reply.trace.result = .ok ()) (hcount : reply.count.toNat ≤ n)
      (hi : FirstImproper n reply.indices.toList i) :
      Refused reply (.reported (.badSegmentIndex i.toNat))

variable {reply : PartitionReply n}

theorem Refused.not_valid {e : Failure} (h : reply.Refused e) :
  ¬ reply.Valid
  := by
  intro hvalid
  cases h with
  | failed h =>
      rw [hvalid.ok] at h
      cases h
  | excess _ hcount =>
      have hle := hvalid.count
      omega
  | improper _ _ hi =>
      apply hi.not_proper
      apply Proper.of_perm_range hvalid.perm

end PartitionReply

variable {α : Type}

/-- The work that follows from the reply of a partitioner. -/
def workOf {n : Nat} (classifier : Classifier) (views : List (SegmentView α))
    (reply : PartitionReply n) : Except Failure (Work α) := do
  reply.trace.result
  let large := reply.count.toNat
  if n < large then
    .error (.reported (.excessLargeCount large n))
  else
    let front := reply.indices.toList.take large
    let back := reply.indices.toList.drop large
    let (large, slots) ← reported (pick front (views.map some).toArray)
    let (small, _) ← reported (pick back slots)
    return .classified views classifier (front ++ back) large small

/-- The work that follows from a valid reply is whole, and other replies are refused. -/
theorem workOf_cases {n : Nat} (classifier : Classifier) {views : List (SegmentView α)}
    (hviews : views.length = n) (reply : PartitionReply n) :
  (reply.Valid ∧ ∃ large small, workOf classifier views reply
      = .ok (.classified views classifier reply.indices.toList large small)
    ∧ large.map some
      = (reply.indices.toList.take reply.count.toNat).map (views[·.toNat]?)
    ∧ small.map some
      = (reply.indices.toList.drop reply.count.toNat).map (views[·.toNat]?))
  ∨ ∃ e, reply.Refused e ∧ workOf classifier views reply = .error e
  := by
  subst hviews
  rw [workOf]
  cases hresult : reply.trace.result with
  | error e =>
      right
      exact ⟨e, .failed hresult, rfl⟩
  | ok =>
      change (_ ∧ ∃ large small, ite _ _ _ = _ ∧ _) ∨ ∃ e, _ ∧ ite _ _ _ = _
      rcases Nat.lt_or_ge views.length reply.count.toNat with hexcess | hcount
      · right
        refine ⟨_, .excess hresult hexcess, ?_⟩
        rw [if_pos hexcess]
      · rw [if_neg (Nat.not_lt_of_ge hcount)]
        have hall := List.take_append_drop reply.count.toNat reply.indices.toList
        rcases pick_pick_cases views (reply.indices.toList.take reply.count.toNat)
          (reply.indices.toList.drop reply.count.toNat) with
          ⟨hproper, large, slots, small, slots', hlarge, hsmall, hlargeViews, hsmallViews⟩ |
          ⟨i, hi, hpick⟩
        · left
          rw [hall] at hproper
          refine ⟨⟨hresult, hcount, hproper.perm_range ?_⟩, large, small, ?_, hlargeViews,
            hsmallViews⟩
          · rw [Vector.length_toList]
          · rw [hlarge, reported_ok, hall]
            change (reported (pick _ slots) >>= _) = _
            rw [hsmall]
            rfl
        · right
          rw [hall] at hi
          refine ⟨_, .improper hresult hcount hi, ?_⟩
          rcases hpick with hlarge | ⟨large, slots, hlarge, hsmall⟩
          · rw [hlarge]
            rfl
          · rw [hlarge, reported_ok]
            change (reported (pick _ slots) >>= _) = _
            rw [hsmall]
            rfl

/-- Work follows from a reply precisely if it is valid. -/
theorem exists_workOf_iff {n : Nat} (classifier : Classifier) {views : List (SegmentView α)}
    (hviews : views.length = n) (reply : PartitionReply n) :
  (∃ work, workOf classifier views reply = .ok work) ↔ reply.Valid
  := by
  rcases workOf_cases classifier hviews reply with
    ⟨hvalid, large, small, hwork, -⟩ | ⟨e, hrefused, herror⟩
  · exact ⟨fun _ => hvalid, fun _ => ⟨_, hwork⟩⟩
  · constructor
    · rintro ⟨work, hwork⟩
      rw [herror] at hwork
      cases hwork
    · intro hvalid
      cases hrefused.not_valid hvalid

namespace SortCall

/-- What a call asks its partitioner, with what is left of the storage. -/
def request (call : SortCall) (classifier : Classifier) (carved : Carved) :
    Except SortError (PartitionRequest call.segments.count) := do
  let (indices, carved) := carved.requireRoom .segmentIndices UInt32 call.segments.count
  let indices ← indices
  let (count, carved) := carved.requireRoom .largeSegmentCount UInt32 1
  let count ← count
  let (storage, _) := carved.take .partition
  return {
    storage := storage.getD (.zeroed 0)
    segments := call.segments.count
    selected := classifier.isLarge call.segments
    indices := indices.read UInt32 call.segments.count
    count := (count.read UInt32 1).get 0
    stream := call.stream
    debug := call.options.debug }

/-- The work depends on the partitioner through its reply only. -/
theorem result_classifiedWork (call : SortCall) (plan : Plan) (classifier : Classifier)
    (carved : Carved) (views : List (SegmentView α)) :
  (call.classifiedWork plan classifier carved views).result = (do
    let request ← reported (call.request classifier carved)
    workOf classifier views (plan.partitioner.partition request))
  := by
  rw [classifiedWork, request]
  rcases carved.requireRoom .segmentIndices UInt32 call.segments.count with ⟨indices, carved⟩
  dsimp only
  rcases carved.requireRoom .largeSegmentCount UInt32 1 with ⟨count, carved⟩
  cases indices with
  | error e => rfl
  | ok indices =>
      cases count with
      | error e => rfl
      | ok count =>
          change (classifier.classify _ _ _ _ ((count.read UInt32 1).get 0) _ _ >>= _).result
            = workOf classifier views _
          rw [Traced.result_bind, classifier.result_classify _ _ _ _ _ _ _ rfl, workOf,
            bind_assoc]
          generalize plan.partitioner.partition _ = reply
          congr 1
          funext _
          dsimp only
          split
          · rfl
          · simp only [Traced.result_bind, Traced.result_emit, Traced.result_ofExcept]
            rfl

variable {t : KeyType} {ν : Type} [Element ν] {call : SortCall}
  {operands : Operands (Key t) ν} {plan : Plan}

/-- There are as many temporary items as keys. -/
theorem length_temporaryItems {carved carved' : Carved} {temporary : List (Key t × ν)}
    (h : temporaryItems operands carved = .ok (temporary, carved'))
    (hseparate : operands.isDoubleBuffer = false) :
  temporary.length = operands.size
  := by
  cases operands with
  | doubleBuffer current alternate => cases hseparate
  | separate input output =>
      simp only [temporaryItems, bind_eq_ok_iff] at h
      obtain ⟨keys, -, values, -, hitems⟩ := h
      obtain ⟨rfl, -⟩ := Prod.mk.inj (Except.ok.inj hitems)
      rw [List.length_zip, Vector.length_toList, Vector.length_toList, Nat.min_self]

/-- Operands whose segments are resolved and whose temporary items have got their room are ready. -/
theorem Planned.ready (h : call.Planned operands plan) {map : SegmentMap}
    (hmap : call.segments.resolve operands.size = .ok map) {carved rest : Carved}
    {temporary : List (Key t × ν)} (htemporary : temporaryItems operands carved
      = .ok (temporary, rest)) :
  operands.Ready temporary map
  := ⟨h.lengths, length_temporaryItems htemporary, (Segments.resolve_eq_ok_iff.mp hmap).2.2⟩

/-- The result of the preparation, step by step. -/
theorem result_prepare (memory : Memory) :
  (call.prepare plan operands memory).result = (do
    let map ← reported (call.segments.resolve operands.size)
    let carved ← reported (plan.layout.carve memory)
    let (temporary, carved) ← reported (temporaryItems operands carved)
    let views ← defined (operands.views? temporary map)
    match plan.classifier with
    | none => return (map, .uniform views)
    | some classifier =>
      let request ← reported (call.request classifier carved)
      let work ← workOf classifier views (plan.partitioner.partition request)
      return (map, work))
  := by
  rw [prepare]
  simp only [Traced.result_bind, Traced.result_emitIf, Traced.result_ofExcept]
  cases plan.classifier with
  | none => rfl
  | some classifier =>
      simp only [Traced.result_bind, result_classifiedWork, bind_assoc]
      rfl

/-- What a call has prepared. -/
structure Prepared (call : SortCall) (operands : Operands (Key t) ν) (map : SegmentMap)
    (work : Work (Key t × ν)) : Prop where
  resolved : call.segments.resolve operands.size = .ok map
  views : ∃ temporary : List (Key t × ν),
    (operands.isDoubleBuffer = false → temporary.length = operands.size)
      ∧ work.views = map.spans.map (operands.view temporary)
  whole : work.Whole

/-- A sort that is prepared has whole work. -/
theorem prepared_of_prepare (hplan : call.Planned operands plan) {memory : Memory}
    {map : SegmentMap} {work : Work (Key t × ν)}
    (h : (call.prepare plan operands memory).result = .ok (map, work)) :
  call.Prepared operands map work
  := by
  simp only [result_prepare, bind_eq_ok_iff, reported_eq_ok_iff, defined_eq_ok_iff] at h
  obtain ⟨map', hmap, carved, -, ⟨temporary, carved'⟩, htemporary, views, hviews, h⟩ := h
  have hlength := length_temporaryItems htemporary
  rw [Operands.views?_eq_some (hplan.ready hmap htemporary)] at hviews
  obtain rfl := Option.some.inj hviews
  cases hclassifier : plan.classifier with
  | none =>
      rw [hclassifier] at h
      obtain ⟨rfl, rfl⟩ := Prod.mk.inj (Except.ok.inj h)
      exact ⟨hmap, ⟨temporary, hlength, rfl⟩, trivial⟩
  | some classifier =>
      rw [hclassifier] at h
      simp only [bind_eq_ok_iff, reported_eq_ok_iff] at h
      obtain ⟨request, -, work', hwork, hpair⟩ := h
      obtain ⟨rfl, rfl⟩ := Prod.mk.inj (Except.ok.inj hpair)
      have hviews : (map'.spans.map (operands.view temporary)).length = call.segments.count := by
        rw [List.length_map, Segments.length_of_resolve hmap]
      rcases workOf_cases classifier hviews (plan.partitioner.partition request) with
        ⟨hvalid, large, small, hvalidWork, hlarge, hsmall⟩ | ⟨e, -, herror⟩
      · rw [hwork] at hvalidWork
        obtain rfl := Except.ok.inj hvalidWork
        refine ⟨hmap, ⟨temporary, hlength, rfl⟩, ?_, ?_⟩
        · rw [hviews]
          apply hvalid.perm
        · rw [List.map_append, hlarge, hsmall, ← List.map_append, List.take_append_drop]
      · rw [hwork] at herror
        cases herror

end SortCall

end SegmentSort
