import SegmentSort.Proofs.Frame
import SegmentSort.Proofs.Supply

/-!
# Segments are independent

A sort with a separate output replaces some spans of the output, and there is one way only to do so
(`SortsInto.unique`).  Spans that share no position can therefore be replaced by one call or by
several ones, in any order (`SortsInto.append`).  With tiles to partition the segments and storage
that suffices, all these calls succeed if the one call does, whether or not they classify their
segments; so it does not matter in which order segments are listed, nor how they are divided among
calls (`sorts_segments_independently`).
-/

namespace SegmentSort

/-! ### Sorting some spans -/

namespace Span

variable {α : Type} {s : Span} {l m : List α}

/-- Lists that agree at the positions of a span have the same items there. -/
theorem slice_congr (h : ∀ i, s.start ≤ i → i < s.stop → l[i]? = m[i]?) :
  s.slice l = s.slice m
  := by
  apply List.ext_getElem?
  intro k
  rw [getElem?_slice, getElem?_slice]
  split
  · rename_i hk
    rw [length] at hk
    apply h
    · omega
    · omega
  · rfl

theorem getElem?_eq_of_slice_eq (h : s.slice l = s.slice m) {i : Nat} (hstart : s.start ≤ i)
    (hstop : i < s.stop) :
  l[i]? = m[i]?
  := by
  have hget := congrArg (·[i - s.start]?) h
  have hlt : i - s.start < s.length := by
    rw [length]
    omega
  simpa only [getElem?_slice, if_pos hlt, Nat.add_sub_cancel' hstart] using hget

end Span

/-- `after` is `before` with some spans replaced by those of `source`, stably sorted. -/
structure SortsInto {α : Type} (spans : List Span) (rank : α → Nat)
    (source before after : List α) : Prop where
  inside : ∀ s ∈ spans, s.slice after = stableSort rank (s.slice source)
  outside : ∀ i, (∀ s ∈ spans, ¬ (s.start ≤ i ∧ i < s.stop)) → after[i]? = before[i]?

namespace SortsInto

variable {α : Type} {spans spans' : List Span} {rank : α → Nat}
  {source before mid after after' : List α}

theorem nil (rank : α → Nat) (source before : List α) :
  SortsInto [] rank source before before
  where
  inside := by
    rintro s ⟨⟩
  outside _ _ := rfl

/-- Which spans are replaced does not depend on how they are listed. -/
theorem of_perm (h : SortsInto spans rank source before after) (hperm : spans'.Perm spans) :
  SortsInto spans' rank source before after
  where
  inside s hs := h.inside s (hperm.mem_iff.mp hs)
  outside i hi := h.outside i fun s hs => hi s (hperm.mem_iff.mpr hs)

/-- Spans are replaced together if they are replaced one after the other, provided that the later
ones share no position with the earlier ones. -/
theorem append (h : SortsInto spans rank source before mid)
    (h' : SortsInto spans' rank source mid after)
    (hapart : ∀ s ∈ spans, ∀ s' ∈ spans', s.Apart s') :
  SortsInto (spans ++ spans') rank source before after
  where
  inside := by
    intro s hs
    rcases List.mem_append.mp hs with hs | hs
    · rw [← h.inside s hs]
      apply Span.slice_congr
      intro i hstart hstop
      apply h'.outside
      rintro s' hs' ⟨hstart', hstop'⟩
      rcases hapart s hs s' hs' with hle | hle | hle | hle
      · omega
      · omega
      · omega
      · omega
    · apply h'.inside s hs
  outside := by
    intro i hi
    rw [h'.outside i fun s hs => hi s (List.mem_append_right _ hs),
      h.outside i fun s hs => hi s (List.mem_append_left _ hs)]

/-- There is one way only to replace the spans. -/
theorem unique (h : SortsInto spans rank source before after)
    (h' : SortsInto spans rank source before after') :
  after' = after
  := by
  apply List.ext_getElem?
  intro i
  by_cases hi : ∀ s ∈ spans, ¬ (s.start ≤ i ∧ i < s.stop)
  · rw [h.outside i hi, h'.outside i hi]
  · push Not at hi
    obtain ⟨s, hs, hstart, hstop⟩ := hi
    apply Span.getElem?_eq_of_slice_eq _ hstart hstop
    rw [h.inside s hs, h'.inside s hs]

end SortsInto

namespace SegmentMap

/-- Spans fit an array together if some of them do, and the others do, and none of these shares a
position with one of those. -/
theorem fits_append_iff {spans spans' : List Span} {length : Nat} :
  Fits ⟨spans ++ spans'⟩ length
    ↔ Fits ⟨spans⟩ length ∧ Fits ⟨spans'⟩ length ∧ ∀ s ∈ spans, ∀ s' ∈ spans', s.Apart s'
  := by
  constructor
  · rintro ⟨hbounds, hapart⟩
    obtain ⟨hspans, hspans', hcross⟩ := List.pairwise_append.mp hapart
    obtain ⟨hbounds, hbounds'⟩ := List.forall_mem_append.mp hbounds
    exact ⟨⟨hbounds, hspans⟩, ⟨hbounds', hspans'⟩, hcross⟩
  · rintro ⟨⟨hbounds, hspans⟩, ⟨hbounds', hspans'⟩, hcross⟩
    exact ⟨List.forall_mem_append.mpr ⟨hbounds, hbounds'⟩,
      List.pairwise_append.mpr ⟨hspans, hspans', hcross⟩⟩

theorem Fits.of_perm {spans spans' : List Span} {length : Nat} (h : Fits ⟨spans⟩ length)
    (hperm : spans'.Perm spans) :
  Fits ⟨spans'⟩ length
  where
  bounds s hs := h.bounds s (hperm.mem_iff.mp hs)
  apart := (hperm.pairwise_iff Span.Apart.symm).mpr h.apart

end SegmentMap

/-! ### What a sort leaves in the output -/

namespace SortCall

variable {t : KeyType} {ν : Type} [Element ν] {call : SortCall} {operands : Operands (Key t) ν}

/-- The call with other segments. -/
def withSegments (call : SortCall) (segments : Segments) : SortCall :=
  { call with segments }

/-- A call that succeeds has a plan. -/
theorem exists_plan_of_ok (h : (call.run operands).trace.result.map (fun _ => ()) = .ok ()) :
  ∃ plan, call.plan operands = .ok plan
  := by
  cases hplan : call.plan operands with
  | ok plan => exact ⟨plan, rfl⟩
  | error e =>
      rw [run_of_plan_error hplan] at h
      cases h

/-- Storage that suits a call suits it with as many other segments. -/
theorem stocked_withSegments {plan : Plan} {memory : Memory}
    (hplan : call.plan operands = .ok plan) (hstorage : call.storage = some memory)
    (hsuits : plan.layout.Suits (Key t) ν memory) {segments : Segments}
    (hcount : segments.count = call.segments.count) :
  (call.withSegments segments).Stocked operands
  := by
  have hsame : (call.withSegments segments).plan operands = call.plan operands := by
    apply plan_congr
    · rfl
    · apply hcount
    all_goals rfl
  use memory, hstorage
  intro plan' hplan'
  rw [hsame, hplan] at hplan'
  obtain rfl := Except.ok.inj hplan'
  apply hsuits

/-- If a call with storage succeeds, then its segments fit the operands. -/
theorem fits_of_ok (hstorage : call.storage ≠ none)
    (h : (call.run operands).trace.result.map (fun _ => ()) = .ok ()) :
  SegmentMap.Fits ⟨call.segments.spans⟩ operands.size
  := by
  rcases call.run_cases operands with ⟨-, -, ⟨e, he⟩ | ⟨-, hnone | hzero⟩⟩ |
    ⟨-, plan, map, work, -, hprepared, -⟩
  · rw [he] at h
    cases h
  · cases hstorage hnone
  · have hnil : call.segments.spans = [] := by
      rw [Segments.spans, hzero]
      rfl
    rw [hnil]
    exact ⟨List.forall_mem_nil _, List.Pairwise.nil⟩
  · obtain ⟨-, rfl, hfits⟩ := Segments.resolve_eq_ok_iff.mp hprepared.resolved
    apply hfits

end SortCall

section

variable {t : KeyType} {ν : Type} [Element ν] {call : SortCall} {input output : Columns (Key t) ν}

/-- A sort with a separate output leaves its input as it is. -/
theorem operands_run_separate (call : SortCall) (input output : Columns (Key t) ν) :
  (call.run (.separate input output)).operands
    = .separate input (sortPairs call input output).buffers
  := by
  change _ = Operands.separate input (call.run _).outputColumns
  rw [Run.outputColumns_eq]
  rcases call.run_cases (.separate input output) with ⟨hoperands, -⟩ |
    ⟨-, plan, map, work, -, -, hoperands, -⟩
  · rw [hoperands]
    rfl
  · rw [hoperands]
    rfl

/-- The output has as many keys and as many values after a sort as before. -/
theorem checkLengths_sortPairs (call : SortCall)
    (h : (Operands.separate input output).checkLengths = .ok ()) :
  (Operands.separate input (sortPairs call input output).buffers).checkLengths = .ok ()
  := by
  rw [← operands_run_separate]
  apply (call.lengths_run h).2.2

/-- A sort that succeeds leaves as many keys as values. -/
theorem even_sortPairs (h : (sortPairs call input output).result = .ok ()) :
  (sortPairs call input output).buffers.Even
  := by
  obtain ⟨plan, hplan⟩ := SortCall.exists_plan_of_ok h
  have hlengths := checkLengths_sortPairs call (SortCall.planned_of_plan hplan).lengths
  apply (Operands.checkLengths_separate_iff.mp hlengths).2.1

/-- A sort that succeeds replaces its segments in the output. -/
theorem sortsInto_sortPairs (hstorage : call.storage ≠ none)
    (h : (sortPairs call input output).result = .ok ()) :
  SortsInto call.segments.spans (fun a => call.rank a.1) input.items output.items
    (sortPairs call input output).buffers.items
  where
  inside := (sortPairs_ok hstorage h).1.slice
  outside := by
    intro i hi
    have hagree := call.run_outside (.separate input output) .alternate
    rw [← Run.outputColumns_eq] at hagree
    have houtside : call.segments.Outside i := by
      intro k hk s hs
      apply hi s (Segments.mem_spans_iff.mpr ⟨k, hk, hs⟩)
    have hkeys : (sortPairs call input output).buffers.keys[i]? = output.keys[i]? :=
      hagree.1 i houtside
    have hvalues : (sortPairs call input output).buffers.values[i]? = output.values[i]? :=
      hagree.2 i houtside
    simp only [Columns.items, List.zip, List.getElem?_zipWith, hkeys, hvalues]

/-! ### Several calls -/

/-- A call sorts as another one does, some other segments, all of which have their bounds. -/
structure SortCall.PartOf (part call : SortCall) : Prop where
  options : part.options = call.options
  direction : part.direction = call.direction
  complete : part.segments.checkOffsets = .ok ()

theorem SortCall.PartOf.rank_eq {part : SortCall} (h : part.PartOf call) (k : Key t) :
  part.rank k = call.rank k
  := by
  rw [SortCall.rank, SortCall.rank, h.options, h.direction]

/-- A part that has storage is provided with all that it needs, if its segments fit. -/
theorem SortCall.PartOf.provided {part : SortCall} (h : part.PartOf call) {p : TiledPartition}
    (hpartitioner : call.partitioner = p.partitioner) {config : Config}
    (hadmissible : call.Admissible (.separate input output) config)
    (hstocked : part.Stocked (.separate input output))
    (hfits : SegmentMap.Fits ⟨part.segments.spans⟩ input.keys.length) :
  part.Provided (.separate input output)
  where
  admissible := ⟨config, hadmissible.of_options h.options hpartitioner hadmissible.lengths⟩
  tiled := by
    use p
    rw [SortCall.partitioner, h.options]
    apply hpartitioner
  stocked := hstocked
  segments := by
    apply Segments.exists_resolve_iff.mp
    exact ⟨_, Segments.resolve_eq_ok_iff.mpr
      ⟨Segments.checkOffsets_eq_ok_iff.mp h.complete, rfl, hfits⟩⟩

/-- Parts of a call that follow each other succeed, and replace all their segments in the output, if
these fit together. -/
theorem exists_leads {p : TiledPartition} (hpartitioner : call.partitioner = p.partitioner)
    {config : Config} (hadmissible : call.Admissible (.separate input output) config)
    (parts : List SortCall) :
    ∀ mid, (Operands.separate input mid).checkLengths = .ok () →
      (∀ part ∈ parts, part.PartOf call ∧ part.Stocked (.separate input output)) →
      SegmentMap.Fits ⟨parts.flatMap (·.segments.spans)⟩ input.keys.length →
      ∃ after, Leads (fun part => sortPairs part input) mid parts after
        ∧ (Operands.separate input after).checkLengths = .ok ()
        ∧ SortsInto (parts.flatMap (·.segments.spans)) (fun a => call.rank a.1) input.items
          mid.items after.items := by
  induction parts with
  | nil =>
      intro mid hmid _ _
      exact ⟨mid, .nil mid, hmid, .nil _ _ _⟩
  | cons part parts ih =>
      intro mid hmid hparts hfits
      rw [List.flatMap_cons] at hfits ⊢
      obtain ⟨hfirst, hrest, hapart⟩ := SegmentMap.fits_append_iff.mp hfits
      obtain ⟨⟨hpart, hstocked⟩, hparts⟩ := List.forall_mem_cons.mp hparts
      have hprovided := hpart.provided hpartitioner hadmissible hstocked hfirst
      have hok : (sortPairs part input mid).result = .ok () :=
        (hprovided.congr (.separate input mid) rfl rfl hmid).result_run
      obtain ⟨memory, hmemory, -⟩ := hstocked
      have hsorted := sortsInto_sortPairs (hmemory.trans_ne (Option.some_ne_none memory)) hok
      simp only [hpart.rank_eq] at hsorted
      obtain ⟨after, hleads, hafter, hlater⟩ := ih _ (checkLengths_sortPairs part hmid) hparts hrest
      exact ⟨after, .cons hok hleads, hafter, hsorted.append hlater hapart⟩

/-- If a call succeeds, then its segments can be divided among parts of it. -/
theorem leads_of_ok {p : TiledPartition} (hpartitioner : call.partitioner = p.partitioner)
    (hstorage : call.storage ≠ none) (h : (sortPairs call input output).result = .ok ())
    (parts : List SortCall)
    (hparts : ∀ part ∈ parts, part.PartOf call ∧ part.Stocked (.separate input output))
    (hperm : (parts.flatMap (·.segments.spans)).Perm call.segments.spans) :
  Leads (fun part => sortPairs part input) output parts (sortPairs call input output).buffers
  := by
  obtain ⟨plan, hplan⟩ := SortCall.exists_plan_of_ok h
  have hadmissible := SortCall.admissible_of_plan hplan hpartitioner
  have hfits := (SortCall.fits_of_ok hstorage h).of_perm hperm
  obtain ⟨after, hleads, hafter, hsorted⟩ :=
    exists_leads hpartitioner hadmissible parts output hadmissible.lengths hparts hfits
  obtain ⟨-, heven, -⟩ := Operands.checkLengths_separate_iff.mp hafter
  have heq : (sortPairs call input output).buffers = after := by
    rw [← (even_sortPairs h).ofItems_items, ← heven.ofItems_items]
    apply congrArg Columns.ofItems
    apply hsorted.unique ((sortsInto_sortPairs hstorage h).of_perm hperm)
  rwa [heq]

/-- If a call succeeds, then so does it with its segments listed in another order, and leaves the
same. -/
theorem sortPairs_of_perm {p : TiledPartition} (hpartitioner : call.partitioner = p.partitioner)
    (h : (sortPairs call input output).result = .ok ()) {segments : Segments}
    (hcomplete : segments.checkOffsets = .ok ())
    (hperm : segments.spans.Perm call.segments.spans) :
  (sortPairs (call.withSegments segments) input output).result = .ok ()
    ∧ (sortPairs (call.withSegments segments) input output).buffers
      = (sortPairs call input output).buffers
  := by
  obtain ⟨plan, hplan⟩ := SortCall.exists_plan_of_ok h
  have hadmissible := SortCall.admissible_of_plan hplan hpartitioner
  have hpart : (call.withSegments segments).PartOf call := ⟨rfl, rfl, hcomplete⟩
  obtain ⟨plan', hplan'⟩ :=
    (hadmissible.of_options hpart.options hpartitioner hadmissible.lengths).exists_plan
  have hlength : segments.count = call.segments.spans.length := by
    rw [← hperm.length_eq, Segments.length_spans (Segments.checkOffsets_eq_ok_iff.mp hcomplete)]
  cases hstorage : call.storage with
  | none =>
      have hstorage' : (call.withSegments segments).storage = none := hstorage
      rw [sortPairs, sortPairs, SortCall.run_of_no_storage hplan hstorage,
        SortCall.run_of_no_storage hplan' hstorage']
      exact ⟨rfl, rfl⟩
  | some memory =>
      have hstorage' : (call.withSegments segments).storage = some memory := hstorage
      by_cases hcount : call.segments.count = 0
      · have hcount' : (call.withSegments segments).segments.count = 0 := by
          rw [SortCall.withSegments, hlength, Segments.spans, hcount]
          rfl
        rw [sortPairs, sortPairs, SortCall.run_of_no_segments hplan hstorage hcount,
          SortCall.run_of_no_segments hplan' hstorage' hcount']
        exact ⟨rfl, rfl⟩
      · obtain ⟨hsegments, hsuits⟩ :=
          (SortCall.result_run_iff hplan hstorage hcount hpartitioner).mp h
        have hsameCount := hlength.trans (Segments.length_spans hsegments.offsets)
        have hstocked := SortCall.stocked_withSegments hplan hstorage hsuits hsameCount
        have hsome := hstorage.trans_ne (Option.some_ne_none memory)
        have hleads := leads_of_ok hpartitioner hsome h [call.withSegments segments]
          (List.forall_mem_singleton.mpr ⟨hpart, hstocked⟩) (by
            rw [List.flatMap_singleton]
            apply hperm)
        apply leads_singleton_iff.mp hleads

/-! ### Sorts of keys -/

/-- A sort of keys is a sort of pairs with values that say nothing. -/
theorem sortKeys_eq (call : SortCall) (input : List (Key t)) {output : Columns (Key t) Unit}
    (h : (Operands.separate ⟨input, List.replicate input.length ()⟩ output).checkLengths = .ok ()) :
  (sortKeys call input output.keys).result
      = (sortPairs call ⟨input, List.replicate input.length ()⟩ output).result
    ∧ (sortKeys call input output.keys).buffers
      = (sortPairs call ⟨input, List.replicate input.length ()⟩ output).buffers.keys
  := by
  obtain ⟨-, hvalues, hkeys⟩ := Operands.checkLengths_separate_iff.mp h
  have hunits : output = ⟨output.keys, List.replicate input.length ()⟩ := by
    rcases output with ⟨keys, values⟩
    have hlength : values.length = input.length := hvalues.trans hkeys
    rw [Columns.mk.injEq]
    use rfl
    exact List.eq_replicate_iff.mpr ⟨hlength, fun _ _ => rfl⟩
  rw [hunits]
  exact ⟨rfl, rfl⟩

/-- Sorts of keys follow each other as sorts of pairs do. -/
theorem leads_sortKeys {input : List (Key t)} {output after : Columns (Key t) Unit}
    {calls : List SortCall}
    (h : Leads (fun call => sortPairs call ⟨input, List.replicate input.length ()⟩) output calls
      after)
    (hlengths : (Operands.separate ⟨input, List.replicate input.length ()⟩ output).checkLengths
      = .ok ()) :
  Leads (fun call => sortKeys call input) output.keys calls after.keys
  := by
  apply h.map (P := fun output =>
    (Operands.separate ⟨input, List.replicate input.length ()⟩ output).checkLengths = .ok ())
    Columns.keys _ hlengths
  intro call b hb hok
  obtain ⟨hresult, hbuffers⟩ := sortKeys_eq call input hb
  refine ⟨checkLengths_sortPairs call hb, ?_, hbuffers⟩
  rw [hresult]
  apply hok

end

/-- With tiles to partition the segments, it does not matter for a sort with a separate output in
which order its segments are listed; nor how they are divided among calls on the same input and
output, in whatever order these follow each other, provided that their storage suffices. -/
theorem sorts_segments_independently (t : KeyType) (ν : Type) [Element ν] (call : SortCall)
    (p : TiledPartition) (hpartitioner : call.partitioner = p.partitioner) :
  (∀ input output : Columns (Key t) ν, (sortPairs call input output).result = .ok () →
    (∀ segments, segments.checkOffsets = .ok () → segments.spans.Perm call.segments.spans →
      (sortPairs (call.withSegments segments) input output).result = .ok ()
        ∧ (sortPairs (call.withSegments segments) input output).buffers
          = (sortPairs call input output).buffers)
    ∧ (call.storage ≠ none → ∀ parts : List SortCall,
      (∀ part ∈ parts, part.PartOf call ∧ part.Stocked (.separate input output)) →
      (parts.flatMap (·.segments.spans)).Perm call.segments.spans →
      Leads (fun part => sortPairs part input) output parts (sortPairs call input output).buffers))
  ∧ ∀ input output : List (Key t), (sortKeys call input output).result = .ok () →
    (∀ segments, segments.checkOffsets = .ok () → segments.spans.Perm call.segments.spans →
      (sortKeys (call.withSegments segments) input output).result = .ok ()
        ∧ (sortKeys (call.withSegments segments) input output).buffers
          = (sortKeys call input output).buffers)
    ∧ (call.storage ≠ none → ∀ parts : List SortCall,
      (∀ part ∈ parts, part.PartOf call ∧ part.Stocked (keyOperands input output)) →
      (parts.flatMap (·.segments.spans)).Perm call.segments.spans →
      Leads (fun part => sortKeys part input) output parts (sortKeys call input output).buffers)
  := by
  constructor
  · intro input output h
    constructor
    · intro segments hcomplete hperm
      apply sortPairs_of_perm hpartitioner h hcomplete hperm
    · intro hstorage parts hparts hperm
      apply leads_of_ok hpartitioner hstorage h parts hparts hperm
  · intro input output h
    let values := List.replicate input.length ()
    have hpairs : (sortPairs call ⟨input, values⟩ ⟨output, values⟩).result = .ok () := h
    constructor
    · intro segments hcomplete hperm
      obtain ⟨hok, hbuffers⟩ := sortPairs_of_perm hpartitioner hpairs hcomplete hperm
      exact ⟨hok, congrArg Columns.keys hbuffers⟩
    · intro hstorage parts hparts hperm
      obtain ⟨plan, hplan⟩ := SortCall.exists_plan_of_ok hpairs
      apply leads_sortKeys (leads_of_ok hpartitioner hstorage hpairs parts hparts hperm)
        (SortCall.planned_of_plan hplan).lengths

/-- The sample that is partitioned by tiles, with storage of the size that it needs.  It has its
segments classified if there are at least two of them. -/
def SortCall.splitSample : SortCall :=
  { SortCall.sample with
    storage := some (.filled 16 1032 7)
    options := { SortOptions.standard with
      config := some ⟨2, 1, ⟨1, 1⟩, some ⟨2, 1, 2, 2⟩⟩
      partitioner := some (TiledPartition.ofTile 1).partitioner } }

/-- A part of it for one segment. -/
def SortCall.splitPart (start stop : Nat) : SortCall :=
  SortCall.splitSample.withSegments ⟨1, #[start], #[stop]⟩

set_option maxRecDepth 20000 in
/-- Its segments may be listed in the other order, or be sorted by one call for each, although
these calls do not have them classified. -/
theorem independent_sample :
  (sortPairs (SortCall.splitSample.withSegments ⟨2, #[3, 0], #[5, 3]⟩) Columns.sample
      Columns.sample).buffers
    = (sortPairs SortCall.splitSample Columns.sample Columns.sample).buffers
  ∧ Leads (fun part => sortPairs part Columns.sample) Columns.sample
      [SortCall.splitPart 3 5, SortCall.splitPart 0 3]
      (sortPairs SortCall.splitSample Columns.sample Columns.sample).buffers
  ∧ (SortCall.splitSample.plan (.separate Columns.sample Columns.sample)).map
      (·.classifier.isSome) = .ok true
  ∧ ((SortCall.splitPart 3 5).plan (.separate Columns.sample Columns.sample)).map
      (·.classifier.isSome) = .ok false
  := by
  have hok : (sortPairs SortCall.splitSample Columns.sample Columns.sample).result = .ok () := by
    cbv
  have hindependent := (sorts_segments_independently (.unsigned .w8) UInt8 SortCall.splitSample
    (TiledPartition.ofTile 1) rfl).1 Columns.sample Columns.sample hok
  refine ⟨?_, ?_, rfl, rfl⟩
  · apply (hindependent.1 _ rfl _).2
    decide
  · apply hindependent.2
    · rintro ⟨⟩
    · intro part hpart
      have hquery : (part.query.run (.separate Columns.sample Columns.sample)).reportedSize
          = some 512 := by
        rcases List.mem_pair.mp hpart with rfl | rfl
        · rfl
        · rfl
      rcases List.mem_pair.mp hpart with rfl | rfl
      · use ⟨rfl, rfl, rfl⟩
        apply SortCall.stocked_of_query (by decide) rfl hquery (by decide) (by decide)
      · use ⟨rfl, rfl, rfl⟩
        apply SortCall.stocked_of_query (by decide) rfl hquery (by decide) (by decide)
    · decide

end SegmentSort
