import SegmentSort.Proofs.DoubleBuffer

/-!
# What the sorts have in common

Each of the four sorts does a run on the operands that it makes of the caller's buffers, and
tells what the run tells (`SortCall.Yields`).  If the run leaves its operands as they are and
tells no location, the buffers are left as they are.  Where calls follow each other, each on the
buffers that the one before has left, `Leads` says that all of them succeed; what each of them
keeps, all of them keep (`Leads.keeps`).
-/

namespace SegmentSort

variable {t : KeyType} {ν : Type} [Element ν]

/-- An outcome is what the run of a call on some operands yields.  `unchanged` are the buffers
before the call, and `selectors` reads from buffers which lists are current. -/
structure SortCall.Yields {β σ : Type} (call : SortCall) (operands : Operands (Key t) ν)
    (selectors : β → σ) (unchanged : β) (outcome : SortOutcome β) : Prop where
  result : outcome.result = (call.run operands).trace.result.map fun _ => ()
  reportedSize : outcome.reportedSize = (call.run operands).reportedSize
  selectors : (call.run operands).location = .primary →
    selectors outcome.buffers = selectors unchanged
  buffers : (call.run operands).operands = operands → (call.run operands).location = .primary →
    outcome.buffers = unchanged

theorem yields_sortPairs (call : SortCall) (input output : Columns (Key t) ν) :
  call.Yields (.separate input output) (fun _ => ()) output (sortPairs call input output)
  where
  result := rfl
  reportedSize := rfl
  selectors _ := rfl
  buffers hoperands _ := by
    change (call.run _).outputColumns = _
    rw [Run.outputColumns_eq, hoperands]
    rfl

/-- The operands of a sort of keys: the values say nothing. -/
def keyOperands (input output : List (Key t)) : Operands (Key t) Unit :=
  .separate ⟨input, List.replicate input.length ()⟩ ⟨output, List.replicate input.length ()⟩

theorem yields_sortKeys (call : SortCall) (input output : List (Key t)) :
  call.Yields (keyOperands input output) (fun _ => ()) output (sortKeys call input output)
  where
  result := rfl
  reportedSize := rfl
  selectors _ := rfl
  buffers hoperands _ := by
    change (call.run (keyOperands input output)).outputColumns.keys = _
    rw [Run.outputColumns_eq, hoperands]
    rfl

namespace DoubleBuffer

@[simp]
theorem selector_withContents {α : Type} (b : DoubleBuffer α) (current alternate : List α) :
  (b.withContents current alternate).selector = b.selector
  := by
  rw [selector, selector, swapped_withContents]

/-- Which lists of two buffers are current. -/
def selectors {α β : Type} (buffers : DoubleBuffer α × DoubleBuffer β) : Nat × Nat :=
  (buffers.1.selector, buffers.2.selector)

theorem yields_sortPairs (call : SortCall) (keys : DoubleBuffer (Key t))
    (values : DoubleBuffer ν) :
  call.Yields (operands keys values) selectors (keys, values) (sortPairs call keys values)
  where
  result := rfl
  reportedSize := rfl
  selectors hlocation := by
    rw [buffers_sortPairs call keys values rfl, hlocation]
    apply Prod.ext
    · apply selector_withContents
    · apply selector_withContents
  buffers := buffers_sortPairs_eq call keys values

theorem yields_sortKeys (call : SortCall) (keys : DoubleBuffer (Key t)) :
  call.Yields (operands keys keys.units) selector keys (sortKeys call keys)
  where
  result := rfl
  reportedSize := rfl
  selectors hlocation := by
    rw [(sortKeys_eq call keys).2]
    apply congrArg Prod.fst ((yields_sortPairs call keys keys.units).selectors hlocation)
  buffers hoperands hlocation := by
    rw [(sortKeys_eq call keys).2, buffers_sortPairs_eq call keys keys.units hoperands hlocation]

end DoubleBuffer

/-! ### One call after another -/

/-- Calls one after the other lead from some buffers to others, and each of them succeeds. -/
inductive Leads {β : Type} (sort : SortCall → β → SortOutcome β) : β → List SortCall → β → Prop
  | nil (b : β) : Leads sort b [] b
  | cons {call : SortCall} {calls : List SortCall} {b b' : β}
      (hok : (sort call b).result = .ok ()) (hrest : Leads sort (sort call b).buffers calls b') :
      Leads sort b (call :: calls) b'

variable {β γ : Type} {sort : SortCall → β → SortOutcome β} {calls : List SortCall} {b b' : β}

theorem leads_singleton_iff {call : SortCall} :
  Leads sort b [call] b' ↔ (sort call b).result = .ok () ∧ (sort call b).buffers = b'
  := by
  constructor
  · intro h
    generalize hcalls : [call] = calls at h
    cases h with
    | nil => cases hcalls
    | cons hok hrest =>
        obtain ⟨rfl, rfl⟩ := List.cons_eq_cons.mp hcalls
        cases hrest
        exact ⟨hok, rfl⟩
  · rintro ⟨hok, rfl⟩
    apply Leads.cons hok (Leads.nil _)

/-- What every call that succeeds keeps holds at the end if it holds at the start. -/
theorem Leads.keeps {P : β → Prop}
    (hstep : ∀ call ∈ calls, ∀ b, P b → (sort call b).result = .ok () → P (sort call b).buffers)
    (h : Leads sort b calls b') (hb : P b) :
  P b'
  := by
  induction h with
  | nil b => apply hb
  | cons hok _ ih =>
      apply ih
      · intro call hcall
        apply hstep call (List.mem_cons_of_mem _ hcall)
      · apply hstep _ List.mem_cons_self _ hb hok

/-- If another sort follows each step on what `f` reads off the buffers, it follows all of them. -/
theorem Leads.map {sort' : SortCall → γ → SortOutcome γ} {P : β → Prop} (f : β → γ)
    (hstep : ∀ call b, P b → (sort call b).result = .ok () → P (sort call b).buffers
      ∧ (sort' call (f b)).result = .ok () ∧ (sort' call (f b)).buffers = f (sort call b).buffers)
    (h : Leads sort b calls b') (hb : P b) :
  Leads sort' (f b) calls (f b')
  := by
  induction h with
  | nil b => apply Leads.nil
  | cons hok _ ih =>
      obtain ⟨hkept, hok', hbuffers⟩ := hstep _ _ hb hok
      apply Leads.cons hok'
      rw [hbuffers]
      apply ih hkept

end SegmentSort
