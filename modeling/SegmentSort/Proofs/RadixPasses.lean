import Mathlib.Data.List.Induction
import SegmentSort.Proofs.Counting
import SegmentSort.Proofs.Launch
import SegmentSort.Proofs.Schedule
import SegmentSort.Proofs.SegmentView
import SegmentSort.RadixPasses

/-!
# Radix passes sort a view

Every pass reads what the pass before it has written, and writes the other one of scratch
and output.  After some passes the side that the next pass would read therefore holds the
data sorted by all the digits so far, and the side that it would write holds them sorted by
all but the last of these, or else has not been written at all (`RadixPasses.Ran`).  Since
the passes of a schedule tile its bits, and the last one writes the side of the result, a
view is sorted by the bits of the schedule: `RadixPasses.sortSegment?_eq_some`.
-/

namespace SegmentSort

/-! ### Where passes read and write -/

namespace Placement

/-- The side from which the pass with a number reads, if the first one reads from
`source`. -/
def reads (p : Placement) (source : Side) : Nat → Side
  | 0 => source
  | k + 1 => p.target k

theorem target_ne_input (p : Placement) (k : Nat) :
  p.target k ≠ .input
  := by
  rw [target]
  split
  · rintro ⟨⟩
  · rintro ⟨⟩

theorem writesOutput_succ (p : Placement) (k : Nat) :
  p.writesOutput (k + 1) = !p.writesOutput k
  := by
  rw [writesOutput, writesOutput]
  rcases Nat.mod_two_eq_zero_or_one k with h | h
  · have h' : (k + 1) % 2 = 1 := by omega
    rw [h, h']
    cases p.toOutput <;> rfl
  · have h' : (k + 1) % 2 = 0 := by omega
    rw [h, h']
    cases p.toOutput <;> rfl

theorem target_succ_ne (p : Placement) (k : Nat) :
  p.target (k + 1) ≠ p.target k
  := by
  rw [target, target, writesOutput_succ]
  cases p.writesOutput k <;> rintro ⟨⟩

theorem target_add_two (p : Placement) (k : Nat) :
  p.target (k + 2) = p.target k
  := by
  rw [target, target, writesOutput_succ, writesOutput_succ, Bool.not_not]

/-- No pass reads the side that it writes. -/
theorem reads_ne_target {p : Placement} {source : Side} (h : source ≠ p.target 0) :
    ∀ k, p.reads source k ≠ p.target k
  | 0 => h
  | k + 1 => (p.target_succ_ne k).symm

/-- Only the first pass can read a separate input. -/
theorem eq_zero_of_reads {p : Placement} {source : Side} :
    ∀ {k : Nat}, p.reads source k = .input → k = 0
  | 0, _ => rfl
  | k + 1, h => by cases p.target_ne_input k h

/-- The way of one more pass after some passes. -/
theorem hopsFrom_append_singleton (p : Placement) (source : Side) (last : Pass)
    (passes : List Pass) (k : Nat) :
  p.hopsFrom (p.reads source k) k (passes ++ [last])
    = p.hopsFrom (p.reads source k) k passes
      ++ [⟨p.reads source (k + passes.length), p.target (k + passes.length), last⟩]
  := by
  induction passes generalizing k with
  | nil => rfl
  | cons pass passes ih =>
      have hlater := ih (k + 1)
      rw [Nat.add_right_comm, Nat.add_assoc] at hlater
      rw [List.cons_append, hopsFrom, hopsFrom, List.cons_append, List.length_cons]
      congr 1

/-- Of the sides that can be written, each pass writes the one and the next pass the
other. -/
theorem eq_target_or_eq_target_succ (p : Placement) {side : Side} (h : side ≠ .input) (k : Nat) :
  side = p.target k ∨ side = p.target (k + 1)
  := by
  rw [target, target, writesOutput_succ]
  cases side with
  | input => cases h rfl
  | scratch => cases p.writesOutput k <;> simp
  | output => cases p.writesOutput k <;> simp

/-- The last one of some passes writes the side of the result. -/
theorem target_ofCount (n : Nat) (doubleBuffer : Bool) :
  (ofCount (n + 1) doubleBuffer).target n = (ofCount (n + 1) doubleBuffer).result.side
  := by
  rw [target, writesOutput, ofCount]
  simp only [Nat.add_sub_cancel]
  rcases Nat.mod_two_eq_zero_or_one n with h | h
  · have h' : (n + 1) % 2 = 1 := by omega
    rw [h, h']
    cases doubleBuffer <;> rfl
  · have h' : (n + 1) % 2 = 0 := by omega
    rw [h, h']
    cases doubleBuffer <;> rfl

/-- With a separate output, the result lies there. -/
theorem result_ofCount_false (n : Nat) :
  (ofCount (n + 1) false).result = .alternate
  := by
  rw [ofCount, Nat.add_sub_cancel]
  rcases Nat.mod_two_eq_zero_or_one n with h | h
  · have h' : (n + 1) % 2 = 1 := by omega
    rw [h, h']
    rfl
  · have h' : (n + 1) % 2 = 0 := by omega
    rw [h, h']
    rfl

/-- In a double buffer, the result lies in the alternate lists after an odd number of
passes. -/
theorem result_ofCount_true (n : Nat) :
  (ofCount n true).result = if n % 2 = 1 then .alternate else .primary
  := by
  rw [ofCount]
  rcases Nat.mod_two_eq_zero_or_one n with h | h
  · rw [h]
    rfl
  · rw [h]
    rfl

end Placement

namespace RadixPasses

variable {α : Type}

/-! ### One pass after another -/

/-- What a view `v` has become after some passes. -/
structure Ran (r : RadixPasses α) (v : SegmentView α) (passes : List Pass)
    (w : SegmentView α) : Prop where
  input : w.input = v.input
  length : ∀ side, side ≠ .input → (w.get side).length = v.size
  /-- The side to read next holds the data sorted by all digits so far. -/
  latest : w.get (r.placement.reads v.origin passes.length) = sortByPasses r.code v.data passes
  /-- A side that no pass has written is as it was. -/
  untouched : ∀ side, (∀ k < passes.length, side ≠ r.placement.target k) → w.get side = v.get side
  /-- The side to write next holds what the last pass but one has left. -/
  former : 2 ≤ passes.length →
    w.get (r.placement.target passes.length) = sortByPasses r.code v.data passes.dropLast

variable {r : RadixPasses α} {v w : SegmentView α}

theorem Ran.nil (hv : v.Balanced) :
  r.Ran v [] v
  where
  input := rfl
  length := by
    rintro (_ | _ | _) hside
    · cases hside rfl
    · apply hv.scratch
    · rfl
  latest := v.get_origin
  untouched _ _ := rfl
  former h := by simp at h

/-- The pass after some passes can move the items. -/
theorem Ran.ends? {passes : List Pass} (h : r.Ran v passes w)
    (hsource : v.origin ≠ r.placement.target 0) :
  w.ends? (r.placement.reads v.origin passes.length) (r.placement.target passes.length)
    = some (sortByPasses r.code v.data passes, w.get (r.placement.target passes.length))
  := by
  rw [← h.latest]
  apply w.ends?_eq_some _ (r.placement.target_ne_input _)
    (Placement.reads_ne_target hsource passes.length)
  intro hreads
  rw [h.input]
  apply SegmentView.isSome_of_origin
  rw [Placement.eq_zero_of_reads hreads] at hreads
  apply hreads

/-- What one more pass writes. -/
theorem Ran.put {passes : List Pass} (hv : v.Balanced) (h : r.Ran v passes w) (pass : Pass) :
  r.Ran v (passes ++ [pass])
    (w.put (r.placement.target passes.length) (sortByPasses r.code v.data (passes ++ [pass])))
  where
  input := by rw [SegmentView.input_put, h.input]
  length := by
    intro side hside
    by_cases heq : side = r.placement.target passes.length
    · rw [heq, w.get_put_self (r.placement.target_ne_input _),
        (sortByPasses_perm _ _ _).length_eq, hv.length_data]
    · rw [w.get_put_of_ne heq, h.length side hside]
  latest := by
    rw [List.length_append, List.length_singleton]
    apply w.get_put_self (r.placement.target_ne_input _)
  untouched := by
    intro side hside
    rw [List.length_append, List.length_singleton] at hside
    rw [w.get_put_of_ne (hside _ (Nat.lt_succ_self _))]
    apply h.untouched
    intro k hk
    apply hside k (Nat.lt_succ_of_lt hk)
  former := by
    intro hle
    rw [List.length_append, List.length_singleton] at hle ⊢
    rw [w.get_put_of_ne (r.placement.target_succ_ne _), List.dropLast_concat, ← h.latest]
    obtain ⟨n, hn⟩ : ∃ n, passes.length = n + 1 := ⟨passes.length - 1, by omega⟩
    rw [hn, r.placement.target_add_two]
    rfl

/-- One more pass leaves the data sorted by one more digit. -/
theorem Ran.hop? {passes : List Pass} (hv : v.Balanced) (h : r.Ran v passes w)
    (hsource : v.origin ≠ r.placement.target 0) (pass : Pass) (counters : Array Nat) :
  ∃ w' counters', r.Ran v (passes ++ [pass]) w'
    ∧ r.hop? (w, counters)
        ⟨r.placement.reads v.origin passes.length, r.placement.target passes.length, pass⟩
      = some (w', counters')
  := by
  have hlength : (sortByPasses r.code v.data passes).length
      = (w.get (r.placement.target passes.length)).length := by
    rw [h.length _ (r.placement.target_ne_input _), (sortByPasses_perm _ _ _).length_eq,
      hv.length_data]
  have hdigit : ∀ a ∈ sortByPasses r.code v.data passes,
      digit (r.code a) pass.bit pass.width < 2 ^ pass.width := fun a _ => digit_lt _ _ _
  obtain ⟨counters', hscatter⟩ := scatter?_eq_some hdigit hlength counters
  refine ⟨_, counters', h.put hv pass, ?_⟩
  rw [RadixPasses.hop?]
  simp only [h.ends? hsource, Option.bind_eq_bind, Option.bind_some, hscatter,
    sortByPasses_append_singleton]
  rfl

/-- All passes, one after the other. -/
theorem foldlM_hop? (hv : v.Balanced) (hsource : v.origin ≠ r.placement.target 0)
    (counters : Array Nat) (passes : List Pass) :
  ∃ w counters', r.Ran v passes w
    ∧ (r.placement.hops v.origin passes).foldlM r.hop? (v, counters) = some (w, counters')
  := by
  induction passes using List.reverseRec with
  | nil => exact ⟨v, counters, Ran.nil hv, rfl⟩
  | append_singleton passes pass ih =>
      obtain ⟨w, counters₁, hw, hrun⟩ := ih
      obtain ⟨w', counters₂, hw', hhop⟩ := hw.hop? hv hsource pass counters₁
      have hhops := r.placement.hopsFrom_append_singleton v.origin pass passes 0
      rw [Nat.zero_add] at hhops
      use w', counters₂, hw'
      rw [Placement.hops] at hrun ⊢
      rw [Placement.reads] at hhops
      rw [hhops, List.foldlM_append, hrun]
      simpa using hhop

/-! ### A segment -/

/-- The first pass does not write the side where the data lie. -/
theorem origin_ne_target {n : Nat} (hplacement : r.placement = .ofCount n v.input.isNone) :
  v.origin ≠ r.placement.target 0
  := by
  rw [SegmentView.origin]
  cases hinput : v.input with
  | none =>
      rw [hplacement, hinput]
      rintro ⟨⟩
  | some l => exact (r.placement.target_ne_input 0).symm

/-- The data are permuted at most, where they lay. -/
theorem Ran.data_perm {passes : List Pass} (h : r.Ran v passes w)
    (hsource : v.origin ≠ r.placement.target 0) :
  w.data.Perm v.data
  := by
  cases hinput : v.input with
  | some l =>
      have hdata : w.data = v.data := by
        rw [SegmentView.data, SegmentView.data, h.input, hinput]
        rfl
      rw [hdata]
  | none =>
      have horigin : v.origin = .scratch := by
        rw [SegmentView.origin, hinput]
        rfl
      have hdata : w.data = w.get .scratch := by
        rw [SegmentView.data, h.input, hinput]
        rfl
      rw [horigin] at hsource
      rw [hdata]
      have hlatest := h.latest
      cases hn : passes.length with
      | zero =>
          rw [hn, horigin] at hlatest
          rw [show w.get .scratch = _ from hlatest]
          apply sortByPasses_perm
      | succ n =>
          rw [hn] at hlatest
          have hinput : Side.scratch ≠ .input := by rintro ⟨⟩
          rcases r.placement.eq_target_or_eq_target_succ hinput n with heq | heq
          · rw [heq, show w.get (r.placement.target n) = _ from hlatest]
            apply sortByPasses_perm
          · cases n with
            | zero =>
                have hscratch := h.untouched .scratch fun k hk => by
                  obtain rfl : k = 0 := by omega
                  apply hsource
                rw [hscratch, ← horigin, v.get_origin]
            | succ n =>
                have hformer := h.former (by omega)
                rw [hn, ← heq] at hformer
                rw [hformer]
                apply sortByPasses_perm

theorem Ran.kept {passes : List Pass} (hv : v.Balanced) (h : r.Ran v passes w)
    (hsource : v.origin ≠ r.placement.target 0) :
  v.Kept w
  where
  input := h.input
  scratch := by
    rw [hv.scratch]
    apply h.length .scratch
    rintro ⟨⟩
  output := by
    apply h.length .output
    rintro ⟨⟩
  data := h.data_perm hsource

/-- The passes of a schedule sort a view by the bits of the schedule. -/
theorem sortSegment?_eq_some {b e : Nat} (hv : v.Balanced) (hbits : b < e)
    (htiles : Pass.Tiles b r.schedule.passes e)
    (hplacement : r.placement = .ofCount r.schedule.count v.input.isNone)
    (counters : Array Nat) :
  ∃ w counters', r.sortSegment? v counters = some (w, counters')
    ∧ v.Sorted (fun a => masked (r.code a) b e) r.placement.result w
  := by
  rw [sortSegment?]
  split
  · rename_i hempty
    use v, counters, rfl
    apply SegmentView.Sorted.of_empty hv hempty
  · obtain ⟨w, counters', hw, hrun⟩ :=
      foldlM_hop? hv (origin_ne_target hplacement) counters r.schedule.passes
    use w, counters', hrun, hw.kept hv (origin_ne_target hplacement)
    obtain ⟨n, hn⟩ := Schedule.exists_count_eq_succ hbits htiles
    have hlatest := hw.latest
    rw [Schedule.length_passes, hn, Placement.reads, hplacement, hn, Placement.target_ofCount,
      sortByPasses_eq_stableSort _ _ htiles] at hlatest
    rw [hplacement, hn, hlatest]

/-- All views that are handed to radix passes are sorted, whatever the order in which their
groups run. -/
theorem sorted_dispatch {b e : Nat} (hbits : b < e) (htiles : Pass.Tiles b r.schedule.passes e)
    (name : String) (stream : Stream) (debug : Bool) {views : List (SegmentView α)}
    (hviews : ∀ v ∈ views,
      v.Balanced ∧ r.placement = .ofCount r.schedule.count v.input.isNone) :
  ((r.kernel name).dispatch stream debug views).outcome.result = .ok ()
    ∧ List.Forall₂ (SegmentView.Sorted (fun a => masked (r.code a) b e) r.placement.result) views
      ((r.kernel name).dispatch stream debug views).items
  := by
  have hgroup : ∀ v ∈ views, ∀ counters, (r.group counters v).result = .ok ()
      ∧ v.Sorted (fun a => masked (r.code a) b e) r.placement.result (r.group counters v).item := by
    intro v hv counters
    obtain ⟨hbalanced, hplacement⟩ := hviews v hv
    obtain ⟨w, counters', hsort, hsorted⟩ :=
      sortSegment?_eq_some hbalanced hbits htiles hplacement counters
    rw [group, hsort]
    exact ⟨rfl, hsorted⟩
  by_cases hempty : views = []
  · rw [hempty]
    exact ⟨rfl, .nil⟩
  · rw [Kernel.items_dispatch hempty, Kernel.result_dispatch hempty]
    have hok := stream.launch_ok_of_forall name debug #[] r.group views
      fun v hv counters => (hgroup v hv counters).1
    use hok
    apply stream.launch_ok name debug #[] r.group views hok
    intro v hv counters _
    apply (hgroup v hv counters).2

end RadixPasses

end SegmentSort
