import SegmentSort.Proofs.Classification
import SegmentSort.Proofs.Cut
import SegmentSort.Proofs.RadixPasses
import SegmentSort.Proofs.ShortSegments
import SegmentSort.Sort.Run

/-!
# Handing views to kernels

Work is whole if every segment is handed to precisely one kernel (`Work.Whole`).  Both
kernels leave the stable sort by the same ranks on the same side, so it does not matter which
of them a segment goes to: whole work is sorted, unless a segment is handed to the insertion
sorts that does not fit these (`Work.tried_dispatch`).
-/

namespace SegmentSort

variable {α : Type}

/-! ### Writing views back -/

section

variable {views picked items : List (SegmentView α)} {sorted : List (UInt32 × SegmentView α)}
  {indices : List UInt32}

theorem replaceViews_eq_setMany :
  replaceViews views sorted
    = (setMany views.toArray (sorted.map fun p => (p.1.toNat, p.2))).toList
  := by
  rw [replaceViews, setMany, List.foldl_map]

theorem length_replaceViews :
  (replaceViews views sorted).length = views.length
  := by
  rw [replaceViews_eq_setMany, Array.length_toList, size_setMany, List.size_toArray]

/-- A view takes the place of its index, if no other one has the same index. -/
theorem getElem?_replaceViews (hnodup : (sorted.map (·.1.toNat)).Nodup) {i : UInt32}
    {v : SegmentView α} (hv : (i, v) ∈ sorted) (hi : i.toNat < views.length) :
  (replaceViews views sorted)[i.toNat]? = some v
  := by
  rw [replaceViews_eq_setMany, Array.getElem?_toList]
  apply getElem?_setMany_of_mem
  · rw [List.map_map]
    apply hnodup
  · apply List.mem_map_of_mem hv
  · rwa [List.size_toArray]

/-- Items that belong to views by their indices take the places of these views. -/
theorem forall₂_replaceViews {R : SegmentView α → SegmentView α → Prop}
    (hindices : (indices.map UInt32.toNat).Perm (List.range views.length))
    (hpicked : picked.map some = indices.map (views[·.toNat]?))
    (hitems : List.Forall₂ R picked items) :
  List.Forall₂ R views (replaceViews views (indices.zip items))
  := by
  have hlength : indices.length = picked.length := by
    simpa using (congrArg List.length hpicked).symm
  have hnodup : ((indices.zip items).map (·.1.toNat)).Nodup := by
    have hle : indices.length ≤ items.length := Nat.le_of_eq (hlength.trans hitems.length_eq)
    have hkeys : (indices.zip items).map (·.1.toNat) = indices.map UInt32.toNat := by
      conv =>
        rhs
        rw [← List.map_fst_zip hle, List.map_map]
      rfl
    rw [hkeys, hindices.nodup_iff]
    apply List.nodup_range
  apply List.forall₂_iff_get.mpr
  use length_replaceViews.symm
  intro j hj hj'
  have hmem : j ∈ indices.map UInt32.toNat := by
    rw [hindices.mem_iff, List.mem_range]
    apply hj
  obtain ⟨k, hk, rfl⟩ := List.mem_iff_getElem.mp hmem
  rw [List.length_map] at hk
  have hkpicked : k < picked.length := by rwa [← hlength]
  have hkitems : k < items.length := by rwa [← hitems.length_eq]
  rw [List.get_eq_getElem, List.get_eq_getElem]
  simp only [List.getElem_map] at hj ⊢
  have hview : picked[k] = views[indices[k].toNat] := by
    have h := congrArg (·[k]?) hpicked
    simp only [List.getElem?_map, List.getElem?_eq_getElem hkpicked,
      List.getElem?_eq_getElem hk, Option.map_some, List.getElem?_eq_getElem hj] at h
    apply Option.some.inj (Option.some.inj h)
  have hzip : (indices[k], items[k]) ∈ indices.zip items := by
    have hkzip : k < (indices.zip items).length := by
      rw [List.length_zip]
      omega
    rw [← @List.getElem_zip _ _ indices items k hkzip]
    apply List.getElem_mem
  have hitem := getElem?_replaceViews hnodup hzip hj
  rw [← hview, (List.getElem?_eq_some_iff.mp hitem).2]
  apply (List.forall₂_iff_get.mp hitems).2 k hkpicked hkitems

end

/-! ### Work -/

namespace Work

/-- The views of all segments. -/
def views : Work α → List (SegmentView α)
  | uniform views => views
  | classified views .. => views

/-- The views that are handed to insertion sorts. -/
def short : Work α → List (SegmentView α)
  | uniform _ => []
  | classified _ _ _ _ small => small

/-- The number of items that insertion sorts can take. -/
def capacity : Work α → Nat
  | uniform _ => 0
  | classified _ classifier .. => classifier.capacity

/-- Every segment is handed to precisely one kernel. -/
def Whole : Work α → Prop
  | uniform _ => True
  | classified views _ indices large small =>
    (indices.map UInt32.toNat).Perm (List.range views.length)
      ∧ (large ++ small).map some = indices.map (views[·.toNat]?)

section

variable {views large small : List (SegmentView α)} {classifier : Classifier}
  {indices : List UInt32} {plan : Plan} {code : α → Nat} {stream : Stream} {debug : Bool}

/-- A view that is handed to a kernel is the view of a segment. -/
theorem Whole.mem (h : (classified views classifier indices large small).Whole) :
  ∀ v ∈ large ++ small, v ∈ views
  := by
  intro v hv
  have hsome : some v ∈ indices.map (views[·.toNat]?) := by
    rw [← h.2]
    apply List.mem_map_of_mem hv
  obtain ⟨i, -, hi⟩ := List.mem_map.mp hsome
  apply List.mem_of_getElem? hi

variable (views indices) in
/-- Once the large views are sorted, it is the turn of the small ones. -/
theorem dispatch_classified {first second : Launched (SegmentView α)}
    (hfirst : ((plan.radixPasses code).kernel "segmented_sort:large_segments").dispatch stream
      debug large = first)
    (hsecond : (plan.shortSort code classifier).kernel.dispatch stream debug small = second)
    (hok : first.outcome.result = .ok ()) :
  ((classified views classifier indices large small).dispatch plan code stream debug).items
      = replaceViews views (indices.zip (first.items ++ second.items))
    ∧ ((classified views classifier indices large small).dispatch plan code stream
      debug).outcome.result = second.outcome.result
  := by
  rw [dispatch, hfirst, hsecond]
  dsimp only
  rw [hok, Traced.result_bind, hok]
  exact ⟨rfl, rfl⟩

end

/-- Whole work is sorted, if the views that are handed to insertion sorts fit these. -/
theorem tried_dispatch (work : Work α) (hwhole : work.Whole) {plan : Plan}
    (hbits : plan.beginBit < plan.endBit)
    (htiles : Pass.Tiles plan.beginBit plan.schedule.passes plan.endBit)
    (hviews : ∀ v ∈ work.views,
      v.Balanced ∧ plan.placement = .ofCount plan.schedule.count v.input.isNone)
    (code : α → Nat) (stream : Stream) (debug : Bool) :
  SegmentView.Tried (fun a => masked (code a) plan.beginBit plan.endBit) plan.placement.result
    work.capacity work.short work.views (work.dispatch plan code stream debug).items
    (work.dispatch plan code stream debug).outcome.result
  := by
  cases work with
  | uniform views =>
      obtain ⟨hok, hsorted⟩ := (plan.radixPasses code).sorted_dispatch hbits htiles
        "segmented_sort" stream debug hviews
      exact .of_sorted hok hsorted
  | classified views classifier indices large small =>
      obtain ⟨hok, hlarge⟩ := (plan.radixPasses code).sorted_dispatch hbits htiles
        "segmented_sort:large_segments" stream debug fun v hv =>
          hviews v (hwhole.mem v (List.mem_append_left small hv))
      have hperBlock : 0 < (plan.shortSort code classifier).perBlock :=
        Nat.le_max_right _ 1
      have hsmall := ShortSort.tried_dispatch (s := plan.shortSort code classifier) hperBlock
        stream debug fun v hv => (hviews v (hwhole.mem v (List.mem_append_right large hv))).1
      obtain ⟨hitems, hresult⟩ := dispatch_classified views indices rfl rfl hok
      obtain ⟨hindices, hpicked⟩ := hwhole
      rw [hresult, hitems]
      constructor
      · apply forall₂_replaceViews hindices hpicked
        apply List.rel_append (hlarge.imp fun _ _ h => h.toKept) hsmall.kept
      · intro hfits
        obtain ⟨hsmallOk, hsmallSorted⟩ := hsmall.sorted hfits
        use hsmallOk
        apply forall₂_replaceViews hindices hpicked
        apply List.rel_append hlarge hsmallSorted
      · apply hsmall.failed

end Work

end SegmentSort
