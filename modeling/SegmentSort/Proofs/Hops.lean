import SegmentSort.Proofs.RadixPasses

/-!
# The ways of passes

The passes over a view alternate between its sides.  The first one reads the side where the data
lie, and each other one the side that the pass before it has written, so no pass reads the side
that it writes, only the first one reads a separate input, and the last one writes the side of the
result.  Therefore a pass can always move the items, whatever has become of the view before it, and
a pass that is run does what its way says: it puts on its target what it makes of its source, and
leaves the other sides as they are (`RadixPasses.Moves`, `RadixPasses.passes_alternate_sides`).
-/

namespace SegmentSort

/-- The way of a pass leads from the side that it reads to the one that it writes. -/
theorem Placement.getElem?_hopsFrom (p : Placement) (source : Side) (passes : List Pass) :
    ∀ k i : Nat, (p.hopsFrom (p.reads source k) k passes)[i]?
      = passes[i]?.map fun pass => ⟨p.reads source (k + i), p.target (k + i), pass⟩ := by
  induction passes with
  | nil =>
      intro k i
      rfl
  | cons pass rest ih =>
      intro k i
      rw [hopsFrom]
      cases i with
      | zero => rfl
      | succ i =>
          have hlater := ih (k + 1) i
          rw [Nat.add_right_comm] at hlater
          apply hlater

/-- The ways of the first of some passes are the first of their ways. -/
theorem Placement.take_hopsFrom (p : Placement) (passes : List Pass) :
    ∀ (source : Side) (k n : Nat),
      (p.hopsFrom source k passes).take n = p.hopsFrom source k (passes.take n) := by
  induction passes with
  | nil =>
      intro source k n
      rw [hopsFrom, List.take_nil, List.take_nil, hopsFrom]
  | cons pass rest ih =>
      intro source k n
      cases n with
      | zero => rfl
      | succ n => rw [hopsFrom, List.take_succ_cons, List.take_succ_cons, hopsFrom, ih]

namespace RadixPasses

variable {α : Type}

/-- The digit by which a pass sorts. -/
def digitOf (r : RadixPasses α) (pass : Pass) (a : α) : Nat :=
  digit (r.code a) pass.bit pass.width

/-- What a pass does on its way: it scatters the items of its source over its target, and leaves
the other sides as they are. -/
structure Moves (r : RadixPasses α) (hop : Hop) (before after : SegmentView α × Array Nat) :
    Prop where
  /-- What lies on the target is made of what lay on the source. -/
  scattered : scatter? (r.digitOf hop.pass) hop.pass.width (before.1.get hop.source)
    (before.1.get hop.target) before.2 = some (after.1.get hop.target, after.2)
  input : after.1.input = before.1.input
  others : ∀ side, side ≠ hop.target → after.1.get side = before.1.get side

/-- The passes over a view alternate between its sides. -/
structure Alternates (r : RadixPasses α) (v : SegmentView α) : Prop where
  passes : (r.hops v).map (·.pass) = r.schedule.passes
  /-- A view that has items is sorted by these passes, one after the other. -/
  run : v.size ≠ 0 → ∀ counters,
    r.sortSegment? v counters = (r.hops v).foldlM r.hop? (v, counters)
  apart : ∀ hop ∈ r.hops v, hop.source ≠ hop.target
  first : ∀ hop ∈ (r.hops v)[0]?, hop.source = v.origin
  /-- Only the first pass reads a separate input. -/
  input : ∀ k, ∀ hop ∈ (r.hops v)[k]?, hop.source = .input → k = 0
  /-- Each pass reads what the pass before it has written. -/
  linked : ∀ k, ∀ hop ∈ (r.hops v)[k]?, ∀ next ∈ (r.hops v)[k + 1]?, next.source = hop.target
  last : ∃ hop, (r.hops v)[r.schedule.count - 1]? = some hop
    ∧ hop.target = r.placement.result.side
  separate : v.input.isSome → r.placement.result = .alternate
  /-- Whatever has become of the view before a pass, the pass can move the items. -/
  handled : ∀ k counters w counters',
    ((r.hops v).take k).foldlM r.hop? (v, counters) = some (w, counters') →
    ∀ hop ∈ (r.hops v)[k]?,
      w.ends? hop.source hop.target = some (w.get hop.source, w.get hop.target)
  /-- A pass that is run moves the items from its source to its target, and does nothing else. -/
  moves : ∀ k counters state state',
    ((r.hops v).take k).foldlM r.hop? (v, counters) = some state →
    ∀ hop ∈ (r.hops v)[k]?, r.hop? state hop = some state' → r.Moves hop state state'
  /-- If all sides have the same number of items, then each pass is run, and leaves on its target
  the items of its source, stably sorted by its digit. -/
  sorts : v.Balanced → ∀ counters k, ∀ hop ∈ (r.hops v)[k]?, ∃ state state',
    ((r.hops v).take k).foldlM r.hop? (v, counters) = some state
      ∧ r.hop? state hop = some state'
      ∧ state'.1.get hop.target = stableSort (r.digitOf hop.pass) (state.1.get hop.source)
  /-- If all sides have the same number of items, then all passes are run. -/
  completes : v.Balanced → ∀ counters,
    ∃ state, (r.hops v).foldlM r.hop? (v, counters) = some state

variable {r : RadixPasses α} {v : SegmentView α}

theorem getElem?_hops (r : RadixPasses α) (v : SegmentView α) (k : Nat) :
  (r.hops v)[k]?
    = r.schedule.passes[k]?.map fun pass =>
      ⟨r.placement.reads v.origin k, r.placement.target k, pass⟩
  := by
  have hget := r.placement.getElem?_hopsFrom v.origin r.schedule.passes 0 k
  rwa [Nat.zero_add] at hget

/-- There is one way for each pass of the schedule. -/
theorem map_pass_hops (r : RadixPasses α) (v : SegmentView α) :
  (r.hops v).map (·.pass) = r.schedule.passes
  := by
  apply List.ext_getElem?
  intro k
  rw [List.getElem?_map, getElem?_hops]
  cases r.schedule.passes[k]? with
  | none => rfl
  | some pass => rfl

/-- Each way is that of the pass with its number. -/
theorem exists_pass_of_mem {k : Nat} {hop : Hop} (h : hop ∈ (r.hops v)[k]?) :
  ∃ pass, r.schedule.passes[k]? = some pass
    ∧ hop = ⟨r.placement.reads v.origin k, r.placement.target k, pass⟩
  := by
  rw [getElem?_hops, Option.mem_def, Option.map_eq_some_iff] at h
  obtain ⟨pass, hpass, rfl⟩ := h
  exact ⟨pass, hpass, rfl⟩

/-- The way of a pass. -/
theorem ways_of_mem {k : Nat} {hop : Hop} (h : hop ∈ (r.hops v)[k]?) :
  hop.source = r.placement.reads v.origin k ∧ hop.target = r.placement.target k
  := by
  obtain ⟨pass, -, rfl⟩ := exists_pass_of_mem h
  exact ⟨rfl, rfl⟩

/-- A pass that can move the items from its source to its target moves them. -/
theorem Moves.of_hop? {state state' : SegmentView α × Array Nat} {hop : Hop}
    (hends : state.1.ends? hop.source hop.target
      = some (state.1.get hop.source, state.1.get hop.target))
    (htarget : hop.target ≠ .input) (h : r.hop? state hop = some state') :
  r.Moves hop state state'
  := by
  rw [RadixPasses.hop?] at h
  simp only [hends, Option.bind_eq_bind, Option.bind_some, Option.bind_eq_some_iff] at h
  obtain ⟨⟨sorted, counters⟩, hscatter, hstate⟩ := h
  obtain rfl := Option.some.inj hstate
  constructor
  case scattered =>
    rw [SegmentView.get_put_self _ htarget]
    apply hscatter
  case input => apply SegmentView.input_put
  case others =>
    intro side hside
    apply SegmentView.get_put_of_ne _ hside

/-- A pass does not touch a separate input. -/
theorem input_hop? {state state' : SegmentView α × Array Nat} {hop : Hop}
    (h : r.hop? state hop = some state') :
  state'.1.input = state.1.input
  := by
  rw [RadixPasses.hop?] at h
  simp only [Option.bind_eq_bind, Option.bind_eq_some_iff] at h
  obtain ⟨ends, -, sorted, -, hstate⟩ := h
  obtain rfl := Option.some.inj hstate
  apply SegmentView.input_put

/-- Nor do some passes one after the other. -/
theorem input_foldlM_hop? (hops : List Hop) :
    ∀ {state state' : SegmentView α × Array Nat}, hops.foldlM r.hop? state = some state' →
      state'.1.input = state.1.input := by
  induction hops with
  | nil =>
      intro state state' h
      obtain rfl := Option.some.inj h
      rfl
  | cons hop rest ih =>
      intro state state' h
      rw [List.foldlM_cons, Option.bind_eq_bind, Option.bind_eq_some_iff] at h
      obtain ⟨middle, hhop, hrest⟩ := h
      rw [ih hrest, input_hop? hhop]

/-- Whatever some passes have made of a view, the pass after them can move the items. -/
theorem ends?_of_foldlM_hop? (hsource : v.origin ≠ r.placement.target 0) {k : Nat}
    {counters : Array Nat} {state : SegmentView α × Array Nat}
    (hrun : ((r.hops v).take k).foldlM r.hop? (v, counters) = some state) {hop : Hop}
    (hhop : hop ∈ (r.hops v)[k]?) :
  state.1.ends? hop.source hop.target = some (state.1.get hop.source, state.1.get hop.target)
  := by
  obtain ⟨hreads, htarget⟩ := ways_of_mem hhop
  have hinput := input_foldlM_hop? _ hrun
  rw [hreads, htarget]
  apply SegmentView.ends?_eq_some _ _ (r.placement.target_ne_input k)
    (Placement.reads_ne_target hsource k)
  intro hread
  rw [hinput]
  apply SegmentView.isSome_of_origin
  rw [Placement.eq_zero_of_reads hread] at hread
  apply hread

/-- Each pass over a view whose sides have the same number of items is run, and sorts what it
reads. -/
theorem sorts_of_balanced (hv : v.Balanced) (hsource : v.origin ≠ r.placement.target 0)
    (counters : Array Nat) {k : Nat} {hop : Hop} (hhop : hop ∈ (r.hops v)[k]?) :
  ∃ state state', ((r.hops v).take k).foldlM r.hop? (v, counters) = some state
    ∧ r.hop? state hop = some state'
    ∧ state'.1.get hop.target = stableSort (r.digitOf hop.pass) (state.1.get hop.source)
  := by
  obtain ⟨pass, hpass, rfl⟩ := exists_pass_of_mem hhop
  obtain ⟨hlt, -⟩ := List.getElem?_eq_some_iff.mp hpass
  have hlength : (r.schedule.passes.take k).length = k := by
    rw [List.length_take]
    apply Nat.min_eq_left (Nat.le_of_lt hlt)
  -- The passes before this one leave on its source what it sorts, and it leaves the same, sorted by
  -- one more digit.
  obtain ⟨w, moved, hw, hrun⟩ := foldlM_hop? hv hsource counters (r.schedule.passes.take k)
  obtain ⟨w', moved', hw', hstep⟩ := hw.hop? hv hsource pass moved
  have hbefore := hw.latest
  have hafter := hw'.latest
  rw [hlength] at hbefore hstep
  rw [List.length_append, List.length_singleton, hlength, Placement.reads,
    sortByPasses_append_singleton, ← hbefore] at hafter
  refine ⟨(w, moved), (w', moved'), ?_, hstep, hafter⟩
  rw [hops, Placement.hops, Placement.take_hopsFrom]
  apply hrun

/-- Passes that are placed by their number alternate between the sides of a view. -/
theorem passes_alternate_sides (r : RadixPasses α) (v : SegmentView α)
    (hcount : 0 < r.schedule.count)
    (hplacement : r.placement = .ofCount r.schedule.count v.input.isNone) :
  r.Alternates v
  := by
  have hsource := origin_ne_target hplacement
  obtain ⟨n, hn⟩ : ∃ n, r.schedule.count = n + 1 :=
    Nat.exists_eq_succ_of_ne_zero (Nat.ne_of_gt hcount)
  constructor
  case passes => apply r.map_pass_hops
  case run =>
    intro hsize counters
    rw [sortSegment?, if_neg hsize]
  case apart =>
    intro hop hhop
    obtain ⟨k, hk⟩ := List.mem_iff_getElem?.mp hhop
    obtain ⟨hreads, htarget⟩ := ways_of_mem hk
    rw [hreads, htarget]
    apply Placement.reads_ne_target hsource
  case first =>
    intro hop hhop
    apply (ways_of_mem hhop).1
  case input =>
    intro k hop hhop hinput
    rw [(ways_of_mem hhop).1] at hinput
    apply Placement.eq_zero_of_reads hinput
  case linked =>
    intro k hop hhop next hnext
    rw [(ways_of_mem hnext).1, (ways_of_mem hhop).2]
    rfl
  case last =>
    have hlength : n < (r.hops v).length := by
      rw [← List.length_map (·.pass), r.map_pass_hops, Schedule.length_passes, hn]
      apply Nat.lt_succ_self
    have hget := List.getElem?_eq_getElem hlength
    refine ⟨_, by rw [hn, Nat.add_sub_cancel, hget], ?_⟩
    rw [(ways_of_mem hget).2, hplacement, hn]
    apply Placement.target_ofCount
  case separate =>
    intro hinput
    have hmode : v.input.isNone = false := by
      rw [Option.isNone_eq_false_iff]
      apply hinput
    rw [hplacement, hn, hmode]
    apply Placement.result_ofCount_false
  case handled =>
    intro k counters w counters' hrun hop hhop
    apply ends?_of_foldlM_hop? hsource hrun hhop
  case moves =>
    intro k counters state state' hrun hop hhop hstep
    apply Moves.of_hop? (ends?_of_foldlM_hop? hsource hrun hhop) _ hstep
    rw [(ways_of_mem hhop).2]
    apply r.placement.target_ne_input
  case sorts =>
    intro hv counters k hop hhop
    apply sorts_of_balanced hv hsource counters hhop
  case completes =>
    intro hv counters
    obtain ⟨w, counters', -, hrun⟩ := foldlM_hop? hv hsource counters r.schedule.passes
    exact ⟨_, hrun⟩

/-- Four passes of one bit each. -/
def fourPasses (doubleBuffer : Bool) : RadixPasses Nat where
  schedule := ⟨0, 4, 1, 1, 4, 0⟩
  placement := .ofCount 4 doubleBuffer
  code n := n

/-- Two items of a separate input, or of a double buffer. -/
def twoItems (input : Option (List Nat)) : SegmentView Nat where
  input
  scratch := [9, 4]
  output := [0, 0]

/-- With a separate output, four passes go to the scratch first, and with a double buffer they
leave it first and come back to it.  In the end, one side holds the items sorted by four bits, and
the other one holds them sorted by three bits, as the last pass has read them. -/
theorem alternates_sample :
  (fourPasses false).Alternates (twoItems (some [3, 8]))
    ∧ ((fourPasses false).hops (twoItems (some [3, 8]))).map (fun hop => (hop.source, hop.target))
      = [(.input, .scratch), (.scratch, .output), (.output, .scratch), (.scratch, .output)]
    ∧ (((fourPasses false).hops (twoItems (some [3, 8]))).foldlM (fourPasses false).hop?
        (twoItems (some [3, 8]), #[])).map (·.1)
      = some { input := some [3, 8], scratch := [8, 3], output := [3, 8] }
    ∧ (fourPasses true).Alternates (twoItems none)
    ∧ ((fourPasses true).hops (twoItems none)).map (fun hop => (hop.source, hop.target))
      = [(.scratch, .output), (.output, .scratch), (.scratch, .output), (.output, .scratch)]
    ∧ (((fourPasses true).hops (twoItems none)).foldlM (fourPasses true).hop?
        (twoItems none, #[])).map (·.1)
      = some { input := none, scratch := [4, 9], output := [9, 4] }
  := by
  refine ⟨?_, rfl, by cbv, ?_, rfl, by cbv⟩
  · apply passes_alternate_sides (fourPasses false) _ (by decide) rfl
  · apply passes_alternate_sides (fourPasses true) _ (by decide) rfl

end RadixPasses

end SegmentSort
