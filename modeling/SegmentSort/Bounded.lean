/-!
# Access within bounds

Lists and arrays are cut and written at positions that may lie outside of them.  Each
operation here has a value only if all positions that it needs exist.
-/

namespace SegmentSort

/-- The first `n` items of a list and the others, if there are as many as `n`. -/
def splitAt? {α : Type} (l : List α) (n : Nat) : Option (List α × List α) :=
  let front := l.take n
  if front.length = n then some (front, l.drop n) else none

theorem splitAt?_eq_some_iff {α : Type} {l front back : List α} {n : Nat} :
  splitAt? l n = some (front, back) ↔ l = front ++ back ∧ front.length = n
  := by
  unfold splitAt?
  constructor
  · intro h
    dsimp only at h
    split at h
    · rename_i hn
      simp only [Option.some.injEq, Prod.mk.injEq] at h
      obtain ⟨rfl, rfl⟩ := h
      simp [hn]
    · simp at h
  · rintro ⟨rfl, rfl⟩
    simp

/-- An array with another item at a position, if it has the position. -/
def writeAt? {α : Type} (a : Array α) (i : Nat) (x : α) : Option (Array α) :=
  if h : i < a.size then some (a.set i x) else none

/-- An array with other items at some positions, written one after the other. -/
def writeAll? {α : Type} : List (Nat × α) → Array α → Option (Array α)
  | [], a => some a
  | (i, x) :: rest, a => do writeAll? rest (← writeAt? a i x)

/-- A list whose first items are replaced by others, if there are as many. -/
def overwrite? {α : Type} (l items : List α) : Option (List α) :=
  (splitAt? l items.length).map fun (_, back) => items ++ back

/-- A list whose items from a position on are replaced by others. -/
def splice {α : Type} (l : List α) (start : Nat) (items : List α) : List α :=
  l.take start ++ items ++ l.drop (start + items.length)

end SegmentSort
