import Mathlib.Data.List.Forall2
import Mathlib.Data.List.FinRange
import SegmentSort.Launch

/-!
# What a launch does to its items

Whoever runs the groups of a launch, and in whatever order, a group runs at most once, on
the item that it was launched with.  `Progress.Ran` says so of a launch under way, of which
some groups have run; a step adds one group to these (`Progress.Ran.step`).  At the end of a
launch, an item is what its group has left, or as it was if the group has not run.  All
groups have run, without a failure, if the launch succeeds (`Stream.launch_ok`), and if it
fails, it does so with the failure of one of them (`Stream.launch_error`).
-/

namespace SegmentSort

variable {σ ω : Type}

namespace Progress

variable {groups : Nat}

/-- The groups `done` have run, and no others. -/
structure Ran (body : σ → ω → GroupRun σ ω) (work : Vector ω groups)
    (done : List (Fin groups)) (p : Progress groups σ ω) : Prop where
  pending : ∀ g, g ∉ done → p.items.get g = work.get g
  finished : ∀ g ∈ done, ∃ s, p.items.get g = (body s (work.get g)).item
    ∧ (p.failure = none → (body s (work.get g)).result = .ok ())
  failed : ∀ e, p.failure = some e → ∃ g ∈ done, ∃ s, (body s (work.get g)).result = .error e

variable {fresh : σ} {body : σ → ω → GroupRun σ ω} {worker : Fin groups → Nat}
  {work : Vector ω groups} {done : List (Fin groups)} {p : Progress groups σ ω}

/-- The workspace in which a group runs. -/
def workspaceOf (p : Progress groups σ ω) (fresh : σ) (worker : Fin groups → Nat)
    (g : Fin groups) : σ :=
  (p.workspaces.lookup (worker g)).getD fresh

theorem items_step_self (g : Fin groups) :
  (p.step fresh body worker g).items.get g
    = (body (p.workspaceOf fresh worker g) (p.items.get g)).item
  := Vector.getElem_set_self g.isLt

theorem items_step_of_ne {g g' : Fin groups} (h : g' ≠ g) :
  (p.step fresh body worker g).items.get g' = p.items.get g'
  := Vector.getElem_set_ne g.isLt g'.isLt fun heq => h (Fin.ext heq).symm

theorem failure_step (g : Fin groups) :
  (p.step fresh body worker g).failure
    = p.failure.or
        (match (body (p.workspaceOf fresh worker g) (p.items.get g)).result with
        | .ok () => none
        | .error e => some e)
  := rfl

variable (fresh worker)

/-- One more group runs. -/
theorem Ran.step (h : Ran body work done p) {g : Fin groups} (hg : g ∉ done) :
  Ran body work (g :: done) (p.step fresh body worker g)
  := by
  have hpending := h.pending g hg
  constructor
  · intro g' hg'
    rw [List.mem_cons, not_or] at hg'
    rw [items_step_of_ne hg'.1, h.pending g' hg'.2]
  · intro g' hg'
    rw [failure_step, Option.or_eq_none_iff]
    rcases List.mem_cons.mp hg' with rfl | hdone
    · use p.workspaceOf fresh worker g'
      rw [items_step_self, hpending]
      use rfl
      rintro ⟨-, hresult⟩
      split at hresult
      · rename_i hok
        apply hok
      · cases hresult
    · have hne : g' ≠ g := by
        rintro rfl
        apply hg hdone
      obtain ⟨s, hitem, hok⟩ := h.finished g' hdone
      use s
      rw [items_step_of_ne hne, hitem]
      use rfl
      rintro ⟨hnone, -⟩
      apply hok hnone
  · intro e he
    rw [failure_step, Option.or_eq_some_iff] at he
    rcases he with he | ⟨-, he⟩
    · obtain ⟨g', hg', hfailed⟩ := h.failed e he
      use g', List.mem_cons_of_mem g hg'
    · use g, List.mem_cons_self, p.workspaceOf fresh worker g
      rw [hpending] at he
      split at he
      · cases he
      · rename_i hresult
        obtain rfl := Option.some.inj he
        apply hresult

/-- More groups run, whatever has failed. -/
theorem Ran.foldl_step (order : List (Fin groups)) :
    ∀ {done : List (Fin groups)} {p : Progress groups σ ω}, Ran body work done p →
      (order ++ done).Nodup → Ran body work (order.reverse ++ done)
        (order.foldl (Progress.step fresh body worker) p) := by
  induction order with
  | nil =>
      intro done p h _
      apply h
  | cons g order ih =>
      intro done p h hnodup
      obtain ⟨hg, hnodup⟩ := List.nodup_cons.mp hnodup
      rw [List.reverse_cons, List.append_assoc, List.singleton_append, List.foldl_cons]
      apply ih (h.step fresh worker fun hdone => hg (List.mem_append_right order hdone))
      rw [List.nodup_middle, List.nodup_cons]
      exact ⟨hg, hnodup⟩

/-- A failure stays. -/
theorem failure_foldl_step (order : List (Fin groups)) {e : Failure} :
    ∀ {p : Progress groups σ ω}, p.failure = some e →
      (order.foldl (Progress.step fresh body worker) p).failure = some e := by
  induction order with
  | nil =>
      intro p h
      apply h
  | cons g order ih =>
      intro p h
      rw [List.foldl_cons]
      apply ih
      rw [failure_step, h, Option.some_or]

/-- All groups run, or only some of them if one fails. -/
theorem Ran.run (drain : Nat) (order : List (Fin groups)) :
    ∀ {done : List (Fin groups)} {p : Progress groups σ ω}, Ran body work done p →
      (order ++ done).Nodup →
      ∃ done', Ran body work done' (p.run fresh body worker drain order)
        ∧ ((p.run fresh body worker drain order).failure = none →
          ∀ g ∈ order ++ done, g ∈ done') := by
  induction order with
  | nil =>
      intro done p h _
      exact ⟨done, h, fun _ _ => id⟩
  | cons g order ih =>
      intro done p h hnodup
      obtain ⟨hg, hnodup⟩ := List.nodup_cons.mp hnodup
      have hstep := h.step fresh worker fun hdone => hg (List.mem_append_right order hdone)
      have hnodup' : (order ++ g :: done).Nodup := by
        rw [List.nodup_middle, List.nodup_cons]
        exact ⟨hg, hnodup⟩
      rw [Progress.run]
      split
      · obtain ⟨done', hran, hall⟩ := ih hstep hnodup'
        use done', hran
        intro hnone g' hg'
        apply hall hnone
        rw [List.perm_middle.mem_iff]
        apply hg'
      · rename_i hfailed
        rw [Option.isNone_iff_eq_none] at hfailed
        obtain ⟨e, he⟩ := Option.ne_none_iff_exists'.mp hfailed
        refine ⟨_, hstep.foldl_step fresh worker (order.take drain) ?_, ?_⟩
        · apply List.Nodup.sublist _ hnodup'
          apply (List.take_sublist drain order).append_right
        · rw [failure_foldl_step fresh worker _ he]
          rintro ⟨⟩

end Progress

/-! ### Whole launches -/

namespace Stream

variable (stream : Stream) (kernel : String) (debug : Bool) (fresh : σ)
  (body : σ → ω → GroupRun σ ω) (work : List ω)

/-- At the end of a launch some groups have run: all of them, if it succeeds. -/
theorem launch_ran :
  ∃ (done : List (Fin work.length)) (p : Progress work.length σ ω),
    p.Ran body ⟨work.toArray, List.size_toArray⟩ done
    ∧ (stream.launch kernel debug fresh body work).items = p.items.toList
    ∧ ((p.failure = none ∧ (∀ g, g ∈ done)
        ∧ (stream.launch kernel debug fresh body work).outcome.result = .ok ())
      ∨ ∃ e, p.failure = some e
        ∧ (stream.launch kernel debug fresh body work).outcome.result = .error e)
  := by
  let assignment := stream.assignment kernel work.length
  have hstart : Progress.Ran body ⟨work.toArray, List.size_toArray⟩ []
      { items := ⟨work.toArray, List.size_toArray⟩, workspaces := [], failure := none } := by
    constructor
    · intro g _
      rfl
    · rintro g ⟨⟩
    · rintro e ⟨⟩
  have hnodup : (assignment.order ++ []).Nodup := by
    rw [List.append_nil, assignment.complete.nodup_iff]
    apply List.nodup_finRange
  obtain ⟨done, hran, hall⟩ := hstart.run fresh assignment.worker assignment.drain _ hnodup
  refine ⟨done, _, hran, rfl, ?_⟩
  rw [launch]
  dsimp only
  split
  · rename_i hnone
    left
    use hnone
    constructor
    · intro g
      apply hall hnone
      rw [List.append_nil, assignment.complete.mem_iff]
      apply List.mem_finRange
    · apply Traced.result_emitIf
  · rename_i e he
    right
    use e, he
    rfl

/-- What a launch records depends on its result only. -/
theorem outcome_launch :
  (stream.launch kernel debug fresh body work).outcome
    = match (stream.launch kernel debug fresh body work).outcome.result with
      | .ok () => .emitIf debug (.finished kernel work.length)
      | .error e => .ofExcept (.error e)
  := by
  rw [launch]
  dsimp only
  split
  · rw [Traced.result_emitIf]
  · rfl

/-- The number of groups is recorded when all of them have finished, if this is asked for. -/
theorem events_launch :
  (stream.launch kernel debug fresh body work).outcome.events
    = match (stream.launch kernel debug fresh body work).outcome.result with
      | .ok () => if debug then [.finished kernel work.length] else []
      | .error _ => []
  := by
  rw [outcome_launch]
  cases (stream.launch kernel debug fresh body work).outcome.result with
  | ok => cases debug <;> rfl
  | error e => rfl

/-- What holds of the items before a launch, and of those that a group leaves, holds after
the launch. -/
theorem forall₂_launch {R : ω → ω → Prop} (hsame : ∀ a ∈ work, R a a)
    (hrun : ∀ a ∈ work, ∀ s, R a (body s a).item) :
  List.Forall₂ R work (stream.launch kernel debug fresh body work).items
  := by
  obtain ⟨done, p, hran, hitems, -⟩ := stream.launch_ran kernel debug fresh body work
  rw [hitems, List.forall₂_iff_get]
  use by simp
  intro i hi hi'
  have hmem : work[i] ∈ work := List.getElem_mem hi
  change R work[i] p.items[i]
  by_cases hg : (⟨i, hi⟩ : Fin work.length) ∈ done
  · obtain ⟨s, hitem, -⟩ := hran.finished _ hg
    rw [show p.items[i] = _ from hitem]
    apply hrun _ hmem
  · rw [show p.items[i] = _ from hran.pending _ hg]
    apply hsame _ hmem

/-- If a launch succeeds, then all groups have run, without a failure: what holds of the
items that such groups leave holds after the launch. -/
theorem launch_ok {R : ω → ω → Prop}
    (h : (stream.launch kernel debug fresh body work).outcome.result = .ok ())
    (hrun : ∀ a ∈ work, ∀ s, (body s a).result = .ok () → R a (body s a).item) :
  List.Forall₂ R work (stream.launch kernel debug fresh body work).items
  := by
  obtain ⟨done, p, hran, hitems, ⟨hnone, hall, -⟩ | ⟨e, -, hresult⟩⟩ :=
    stream.launch_ran kernel debug fresh body work
  · rw [hitems, List.forall₂_iff_get]
    use by simp
    intro i hi hi'
    obtain ⟨s, hitem, hok⟩ := hran.finished ⟨i, hi⟩ (hall _)
    change R work[i] p.items[i]
    rw [show p.items[i] = _ from hitem]
    apply hrun _ (List.getElem_mem hi) s (hok hnone)
  · rw [hresult] at h
    cases h

/-- A launch with a group that is bound to fail does not succeed. -/
theorem launch_ne_ok {a : ω} (ha : a ∈ work) (h : ∀ s, (body s a).result ≠ .ok ()) :
  (stream.launch kernel debug fresh body work).outcome.result ≠ .ok ()
  := by
  obtain ⟨done, p, hran, -, ⟨hnone, hall, -⟩ | ⟨e, -, hresult⟩⟩ :=
    stream.launch_ran kernel debug fresh body work
  · obtain ⟨i, hi, rfl⟩ := List.mem_iff_getElem.mp ha
    obtain ⟨s, -, hok⟩ := hran.finished ⟨i, hi⟩ (hall _)
    cases h s (hok hnone)
  · rw [hresult]
    rintro ⟨⟩

/-- If a launch fails, then a group has failed in the same way. -/
theorem launch_error {e : Failure}
    (h : (stream.launch kernel debug fresh body work).outcome.result = .error e) :
  ∃ a ∈ work, ∃ s, (body s a).result = .error e
  := by
  obtain ⟨done, p, hran, -, ⟨-, -, hresult⟩ | ⟨e', he, hresult⟩⟩ :=
    stream.launch_ran kernel debug fresh body work
  · rw [hresult] at h
    cases h
  · rw [hresult] at h
    obtain rfl := Except.error.inj h
    obtain ⟨g, -, s, hfailed⟩ := hran.failed _ he
    exact ⟨work[g], List.getElem_mem g.isLt, s, hfailed⟩

/-- A launch succeeds if no group can fail. -/
theorem launch_ok_of_forall (h : ∀ a ∈ work, ∀ s, (body s a).result = .ok ()) :
  (stream.launch kernel debug fresh body work).outcome.result = .ok ()
  := by
  cases hresult : (stream.launch kernel debug fresh body work).outcome.result with
  | ok => rfl
  | error e =>
      obtain ⟨a, ha, s, hfailed⟩ := stream.launch_error kernel debug fresh body work hresult
      rw [h a ha s] at hfailed
      cases hfailed

/-- If every group succeeds, and what it leaves depends on its item only, then the launch
succeeds and leaves that of every item. -/
theorem launch_eq_map {f : ω → ω}
    (h : ∀ a ∈ work, ∀ s, (body s a).result = .ok () ∧ (body s a).item = f a) :
  (stream.launch kernel debug fresh body work).items = work.map f
    ∧ (stream.launch kernel debug fresh body work).outcome.result = .ok ()
  := by
  have hok := stream.launch_ok_of_forall kernel debug fresh body work
    fun a ha s => (h a ha s).1
  refine ⟨?_, hok⟩
  symm
  rw [← List.forall₂_eq_eq_eq, List.forall₂_map_left_iff]
  apply stream.launch_ok kernel debug fresh body work hok
  intro a ha s _
  apply (h a ha s).2.symm

end Stream

end SegmentSort
