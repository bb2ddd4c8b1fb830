import SegmentSort.Event
import SegmentSort.Failure

/-!
# Traced computations

`Traced α` is a computation that records events and then yields an `α` or fails.  In a
sequence the events follow each other, and the first failure ends the sequence: what
was recorded up to it stays recorded.
-/

namespace SegmentSort

/-- The events of a computation, in order, and its result. -/
structure Traced (α : Type) where
  events : List Event
  result : Except Failure α

namespace Traced

/-- A result, without events. -/
def ofExcept {α : Type} (x : Except Failure α) : Traced α :=
  ⟨[], x⟩

/-- One event. -/
def emit (e : Event) : Traced Unit :=
  ⟨[e], .ok ()⟩

/-- One event, if it is asked for. -/
def emitIf (asked : Bool) (e : Event) : Traced Unit :=
  if asked then emit e else ofExcept (.ok ())

/-- One computation after another. -/
protected def bind {α β : Type} (x : Traced α) (f : α → Traced β) : Traced β :=
  match x.result with
  | .ok a => ⟨x.events ++ (f a).events, (f a).result⟩
  | .error e => ⟨x.events, .error e⟩

instance : Monad Traced where
  pure a := ofExcept (.ok a)
  bind := Traced.bind

@[simp]
theorem result_pure {α : Type} (a : α) :
  (pure a : Traced α).result = .ok a
  := rfl

@[simp]
theorem events_pure {α : Type} (a : α) :
  (pure a : Traced α).events = []
  := rfl

@[simp]
theorem result_ofExcept {α : Type} (x : Except Failure α) :
  (ofExcept x).result = x
  := rfl

@[simp]
theorem events_ofExcept {α : Type} (x : Except Failure α) :
  (ofExcept x).events = []
  := rfl

@[simp]
theorem result_emit (e : Event) :
  (emit e).result = .ok ()
  := rfl

@[simp]
theorem result_emitIf (asked : Bool) (e : Event) :
  (emitIf asked e).result = .ok ()
  := by
  cases asked <;> rfl

/-- The result of a sequence does not depend on its events. -/
theorem result_bind {α β : Type} (x : Traced α) (f : α → Traced β) :
  (x >>= f).result = x.result >>= fun a => (f a).result
  := by
  change (Traced.bind x f).result = _
  unfold Traced.bind
  cases x.result <;> rfl

instance : LawfulMonad Traced :=
  LawfulMonad.mk' Traced
    (by
      intro α x
      change Traced.bind x (fun a => ofExcept (.ok a)) = x
      rcases x with ⟨events, result⟩
      cases result <;> simp [Traced.bind, ofExcept])
    (by
      intro α β a f
      change Traced.bind (ofExcept (.ok a)) f = f a
      simp [Traced.bind, ofExcept])
    (by
      intro α β γ x f g
      change Traced.bind (Traced.bind x f) g
        = Traced.bind x (fun a => Traced.bind (f a) g)
      rcases x with ⟨events, result⟩
      cases result with
      | error e => rfl
      | ok a =>
        simp only [Traced.bind]
        cases (f a).result <;> simp)

end Traced

end SegmentSort
