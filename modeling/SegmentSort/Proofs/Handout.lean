import Mathlib.Data.List.Perm.Basic
import SegmentSort.Proofs.Layout

/-!
# Every region is handed out once

A carved storage is asked for regions by calls, which name a region and possibly the values for
which there has to be room (`Carved.Call`).  The first call that names a region gets the piece that
the layout has planned, and every later one finds it gone, whatever other regions have been asked
for in between (`Carved.Distinct.lookup_after`).  The answers do not depend on where the remaining
regions are kept either: they are the same if the last one is moved to the place of the one that is
handed out (`Carved.Distinct.call_afterSwapping`).
-/

namespace SegmentSort

/-! ### Values in a piece of memory -/

/-- The values of which a run of bytes consists stand one after the other. -/
theorem Element.getElem_ofBytesMany (α : Type) [Element α] (n : Nat) (bytes : List UInt8) {k : Nat}
    (hk : k < (ofBytesMany α n bytes).length) :
  (ofBytesMany α n bytes)[k] = ofBytes ((bytes.drop (k * size α)).take (size α))
  := by
  induction n generalizing bytes k with
  | zero => cases hk
  | succ n ih =>
      cases k with
      | zero =>
          rw [Nat.zero_mul]
          rfl
      | succ k =>
          rw [Nat.succ_mul k, Nat.add_comm (k * size α), ← List.drop_drop]
          apply ih

namespace Memory

/-- A piece of memory is viewed as its first `n` values of a type, provided that these need no
bytes, or that there are enough bytes at an address that suits them. -/
structure Views (m : Memory) (region : Region) (α : Type) [Element α] (n : Nat) : Prop where
  ok_iff : (∃ room, m.room region α n = .ok room)
    ↔ Element.size α = 0 ∨ n = 0 ∨ (n * Element.size α ≤ m.size ∧ m.Aligned α)
  /-- The values are those for which the bytes stand. -/
  values : ∀ room, m.room region α n = .ok room → room = m.take (n * Element.size α)
    ∧ ∀ k (hk : k < n), (room.read α n)[k]
      = Element.ofBytes ((m.bytes.drop (k * Element.size α)).take (Element.size α))
  refused : ∀ e, m.room region α n = .error e →
    (e = .storageTooSmall (n * Element.size α) m.size ∧ m.size < n * Element.size α)
      ∨ (e = .misalignedStorage region ∧ ¬ m.Aligned α)

theorem views (m : Memory) (region : Region) (α : Type) [Element α] (n : Nat) :
  m.Views region α n
  where
  ok_iff := by
    simp only [room_eq_ok_iff, exists_and_left, exists_eq, and_true]
    rw [Nat.mul_eq_zero, or_comm (a := n = 0), or_assoc]
  values room hroom := by
    obtain ⟨-, rfl⟩ := room_eq_ok_iff.mp hroom
    use rfl
    intro k hk
    have hwithin : (k + 1) * Element.size α ≤ n * Element.size α := by
      apply Nat.mul_le_mul_right _ hk
    rw [Nat.succ_mul] at hwithin
    apply (Element.getElem_ofBytesMany α n _ _).trans
    change Element.ofBytes (((m.bytes.take (n * Element.size α)).drop (k * Element.size α)).take _)
      = _
    rw [ List.drop_take, List.take_take, Nat.min_eq_left (Nat.le_sub_of_add_le' hwithin)]
  refused e he := by
    rw [room] at he
    split at he
    · rename_i hsmall
      obtain rfl := Except.error.inj he
      exact .inl ⟨rfl, hsmall.2⟩
    · split at he
      · rename_i hmisaligned
        obtain rfl := Except.error.inj he
        exact .inr ⟨rfl, hmisaligned.2⟩
      · cases he

end Memory

namespace Carved

/-! ### Calls -/

/-- A call that asks a storage for a region. -/
inductive Call : Type 1
  | take (region : Region)
  | takeRoom (region : Region) (α : Type) [Element α] (n : Nat)
  | requireRoom (region : Region) (α : Type) [Element α] (n : Nat)

/-- The region that a call names. -/
def Call.region : Call → Region
  | .take region => region
  | @Call.takeRoom region _ _ _ => region
  | @Call.requireRoom region _ _ _ => region

/-- The answer to a call, and the storage after it. -/
def call (c : Carved) : Call → Except SortError (Option Memory) × Carved
  | .take region => (.ok (c.take region).1, (c.take region).2)
  | @Call.takeRoom region α _ n => c.takeRoom region α n
  | @Call.requireRoom region α _ n =>
    ((c.requireRoom region α n).1.map some, (c.requireRoom region α n).2)

/-- The storage after some calls, one after the other. -/
def after (c : Carved) (calls : List Call) : Carved :=
  calls.foldl (fun c k => (c.call k).2) c

/-- What a call answers, depending on what is there of its region. -/
def Call.answer : Call → Option Memory → Except SortError (Option Memory)
  | .take _, piece => .ok piece
  | @Call.takeRoom _ _ _ _, none => .ok none
  | @Call.takeRoom region α _ n, some m => (m.room region α n).map some
  | @Call.requireRoom _ α _ n, none => .error (.storageTooSmall (n * Element.size α) 0)
  | @Call.requireRoom region α _ n, some m => (m.room region α n).map some

/-- Every call takes out its region, even if there is no room in it. -/
theorem call_eq (c : Carved) (k : Call) :
  c.call k = (k.answer (c.take k.region).1, (c.take k.region).2)
  := by
  cases k with
  | take region => rfl
  | takeRoom region α n =>
      rw [call, Carved.takeRoom, Call.region]
      rcases c.take region with ⟨piece, rest⟩
      cases piece <;> rfl
  | requireRoom region α n =>
      rw [call, requireRoom_eq, Call.region]
      rcases c.take region with ⟨piece, rest⟩
      cases piece <;> rfl

/-- A storage hands out a piece of memory for a region. -/
structure Gives (c : Carved) (region : Region) (piece : Memory) : Prop where
  take : (c.take region).1 = some piece
  takeRoom : ∀ (α : Type) [Element α] (n : Nat),
    (c.takeRoom region α n).1 = (piece.room region α n).map some
  requireRoom : ∀ (α : Type) [Element α] (n : Nat),
    (c.requireRoom region α n).1 = piece.room region α n

/-- A storage has nothing to hand out for a region. -/
structure Lacks (c : Carved) (region : Region) : Prop where
  take : (c.take region).1 = none
  takeRoom : ∀ (α : Type) [Element α] (n : Nat), (c.takeRoom region α n).1 = .ok none
  requireRoom : ∀ (α : Type) [Element α] (n : Nat),
    (c.requireRoom region α n).1 = .error (.storageTooSmall (n * Element.size α) 0)

variable {c : Carved} {region : Region}

theorem gives_of_lookup {piece : Memory} (h : c.regions.lookup region = some piece) :
  c.Gives region piece
  where
  take := h
  takeRoom α _ n := by
    rw [Carved.takeRoom, Carved.take, h]
  requireRoom α _ n := by
    rw [requireRoom_eq, Carved.take, h]

theorem lacks_of_lookup (h : c.regions.lookup region = none) :
  c.Lacks region
  where
  take := h
  takeRoom α _ n := by
    rw [Carved.takeRoom, Carved.take, h]
  requireRoom α _ n := by
    rw [requireRoom_eq, Carved.take, h]

/-! ### What is there after some calls -/

/-- No region is there twice. -/
def Distinct (c : Carved) : Prop :=
  (c.regions.map (·.1)).Nodup

theorem Distinct.take (h : c.Distinct) (region : Region) :
  (c.take region).2.Distinct
  := by
  apply List.Nodup.sublist _ h
  apply List.eraseP_sublist.map

/-- A region is gone once it has been handed out, and the others stay. -/
theorem Distinct.lookup_take (h : c.Distinct) (region other : Region) :
  (c.take other).2.regions.lookup region
    = if region = other then none else c.regions.lookup region
  := by
  split
  · rename_i heq
    subst heq
    rcases c with ⟨regions⟩
    change (regions.map (·.1)).Nodup at h
    change (regions.eraseP (·.1 = region)).lookup region = none
    induction regions with
    | nil => rfl
    | cons p rest ih =>
        rw [List.map_cons, List.nodup_cons] at h
        rcases eq_or_ne region p.1 with rfl | hne
        · rw [List.eraseP_cons, decide_eq_true rfl, cond_true, List.lookup_eq_none_iff]
          intro q hq
          rw [bne_iff_ne]
          intro heq
          apply h.1
          rw [heq]
          apply List.mem_map_of_mem hq
        · rw [List.eraseP_cons, decide_eq_false hne.symm, cond_false, List.lookup_cons,
            beq_false_of_ne hne]
          apply ih h.2
  · rename_i hne
    apply lookup_take_of_ne c hne

/-- After some calls, the regions are there that none of them has named. -/
theorem Distinct.lookup_after (h : c.Distinct) (calls : List Call) (region : Region) :
  (c.after calls).regions.lookup region
    = if region ∈ calls.map Call.region then none else c.regions.lookup region
  := by
  induction calls generalizing c with
  | nil => rfl
  | cons k calls ih =>
      have hstep : c.after (k :: calls) = (c.take k.region).2.after calls := by
        rw [after, List.foldl_cons, call_eq]
        rfl
      rw [hstep, ih (h.take k.region), h.lookup_take, List.map_cons]
      by_cases hk : region = k.region
      · rw [if_pos hk, ite_self, if_pos (List.mem_cons.mpr (.inl hk))]
      · rw [if_neg hk]
        simp only [List.mem_cons, hk, false_or]

/-- What is answered to a call depends on the earlier calls for its region only. -/
theorem Distinct.call_after_filter (h : c.Distinct) (calls : List Call) (k : Call) :
  ((c.after calls).call k).1
    = ((c.after (calls.filter fun k' => k'.region = k.region)).call k).1
  := by
  have hmem : k.region ∈ calls.map Call.region
      ↔ k.region ∈ (calls.filter fun k' => k'.region = k.region).map Call.region := by
    rw [List.mem_map, List.mem_map]
    apply exists_congr
    intro k'
    rw [List.mem_filter, decide_eq_true_eq, and_assoc, and_self]
  rw [call_eq, call_eq, Carved.take, Carved.take, h.lookup_after, h.lookup_after]
  simp only [hmem]

/-! ### Regions that change their places -/

/-- A list without the item at a position, to which the last item is moved instead. -/
def swapRemove {α : Type} (l : List α) (i : Nat) : List α :=
  match l.getLast? with
  | none => []
  | some last => (l.set i last).dropLast

theorem swapRemove_perm {α : Type} {l : List α} {i : Nat} (h : i < l.length) :
  (swapRemove l i).Perm (l.eraseIdx i)
  := by
  rcases l.eq_nil_or_concat' with rfl | ⟨front, last, rfl⟩
  · cases h
  · rw [swapRemove, List.getLast?_concat]
    dsimp only
    rw [List.length_append, List.length_singleton] at h
    rcases Nat.lt_or_ge i front.length with hlt | hge
    · rw [List.set_append_left i last hlt, List.dropLast_concat,
        List.eraseIdx_append_of_lt_length hlt]
      apply (List.set_perm_cons_eraseIdx hlt last).trans
      apply (List.perm_append_singleton last _).symm
    · obtain rfl : i = front.length := by omega
      rw [List.set_append_right _ _ (Nat.le_refl _), Nat.sub_self, List.set_cons_zero,
        List.dropLast_concat, List.eraseIdx_append_of_length_le (Nat.le_refl _), Nat.sub_self,
        List.eraseIdx_cons_zero, List.append_nil]

/-- A region, if it is still there, and what remains without it.  The last region is moved to the
place of the one that is handed out. -/
def takeSwapping (c : Carved) (region : Region) : Option Memory × Carved :=
  match c.regions.findIdx? (·.1 = region) with
  | none => (none, c)
  | some i => ((c.regions[i]?).map (·.2), ⟨swapRemove c.regions i⟩)

/-- The answer to a call, and the storage after it, if regions change their places. -/
def callSwapping (c : Carved) (k : Call) : Except SortError (Option Memory) × Carved :=
  (k.answer (c.takeSwapping k.region).1, (c.takeSwapping k.region).2)

/-- The storage after some calls, if regions change their places. -/
def afterSwapping (c : Carved) (calls : List Call) : Carved :=
  calls.foldl (fun c k => (c.callSwapping k).2) c

/-- The same regions are there, at any places. -/
def Permuted (c c' : Carved) : Prop :=
  c'.regions.Perm c.regions

/-- A region is found at any place, and the same regions remain. -/
theorem Distinct.takeSwapping (h : c.Distinct) {c' : Carved} (hperm : c.Permuted c')
    (region : Region) :
  (c'.takeSwapping region).1 = (c.take region).1
    ∧ (c.take region).2.Permuted (c'.takeSwapping region).2
  := by
  have hregions : (c'.regions.map (·.1)).Perm (c.regions.map (·.1)) := hperm.map _
  have hdistinct : c'.Distinct := hregions.nodup_iff.mpr h
  have herase : (c'.regions.eraseP (·.1 = region)).Perm (c.regions.eraseP (·.1 = region)) := by
    apply List.Perm.eraseP _ _ hperm
    apply (List.pairwise_map.mp hdistinct).imp
    intro p q hne hp hq
    rw [decide_eq_true_eq] at hp hq
    apply hne (hp.trans hq.symm)
  rw [List.eraseP_eq_eraseIdx] at herase
  rw [Carved.takeSwapping]
  split at herase
  · rename_i hnone
    rw [hnone]
    refine ⟨?_, herase⟩
    symm
    apply List.lookup_eq_none_iff.mpr
    intro p hp
    have hp' := List.findIdx?_eq_none_iff.mp hnone p (hperm.mem_iff.mpr hp)
    rw [decide_eq_false_iff_not] at hp'
    rw [bne_iff_ne]
    apply Ne.symm hp'
  · rename_i i hsome
    obtain ⟨hi, hregion, -⟩ := List.findIdx?_eq_some_iff_getElem.mp hsome
    rw [decide_eq_true_eq] at hregion
    rw [hsome]
    refine ⟨?_, (swapRemove_perm hi).trans herase⟩
    dsimp only
    rw [List.getElem?_eq_getElem hi, Option.map_some]
    symm
    apply (lookup_eq_some_iff_mem h).mpr
    rw [← hregion, ← hperm.mem_iff]
    apply List.getElem_mem

theorem Distinct.permuted_after (h : c.Distinct) {c' : Carved} (hperm : c.Permuted c')
    (calls : List Call) :
  (c.after calls).Permuted (c'.afterSwapping calls) ∧ (c.after calls).Distinct
  := by
  induction calls generalizing c c' with
  | nil => exact ⟨hperm, h⟩
  | cons k calls ih =>
      rw [after, afterSwapping, List.foldl_cons, List.foldl_cons, call_eq]
      apply ih (h.take k.region) (h.takeSwapping hperm k.region).2

/-- Calls are answered alike if regions change their places. -/
theorem Distinct.call_afterSwapping (h : c.Distinct) (calls : List Call) (k : Call) :
  ((c.afterSwapping calls).callSwapping k).1 = ((c.after calls).call k).1
  := by
  obtain ⟨hperm, hdistinct⟩ := h.permuted_after (List.Perm.refl _) calls
  rw [callSwapping, call_eq, (hdistinct.takeSwapping hperm k.region).1]

end Carved

/-! ### What a carved storage hands out -/

namespace Layout

open Carved

/-- The regions of a layout are handed out once each, out of a storage that has been carved from
memory. -/
structure HandsOutOnce (l : Layout) (m : Memory) (c : Carved) : Prop where
  /-- A region that no call has named is the part of the memory at its place. -/
  first : ∀ calls : List Call, ∀ e ∈ l.extents, (∀ k ∈ calls, k.region ≠ e.region) →
    (c.after calls).Gives e.region (m.part e)
  /-- A region that some call has named is gone, whatever has been the answer to it. -/
  later : ∀ calls : List Call, ∀ k ∈ calls, (c.after calls).Lacks k.region
  /-- A region that the layout does not have is not there in the first place. -/
  absent : ∀ calls : List Call, ∀ region ∉ l.extents.map Extent.region,
    (c.after calls).Lacks region
  /-- Calls for other regions do not change the answer to a call. -/
  apart : ∀ (calls : List Call) (k : Call), ((c.after calls).call k).1
    = ((c.after (calls.filter fun k' => k'.region = k.region)).call k).1
  /-- Neither does it matter where the remaining regions are kept. -/
  swapping : ∀ (calls : List Call) (k : Call),
    ((c.afterSwapping calls).callSwapping k).1 = ((c.after calls).call k).1
  views : ∀ e ∈ l.extents, ∀ (α : Type) [Element α] (n : Nat), (m.part e).Views e.region α n

/-- Every region of a carved storage is handed out once, to the first call that names it. -/
theorem regions_are_handed_out_once {r : StorageRequest} {m : Memory} {c : Carved}
    (hcarve : (ofRequest r).carve m = .ok c) :
  (ofRequest r).HandsOutOnce m c
  := by
  have hdistinct : c.Distinct := by
    obtain ⟨-, rfl⟩ := carve_eq_ok_iff.mp hcarve
    rw [Distinct, cut_extents]
    apply nodup_pieces
  constructor
  case first =>
    intro calls e he hcalls
    apply gives_of_lookup
    rw [hdistinct.lookup_after, if_neg]
    · apply take_of_carve hcarve he
    · intro hmem
      obtain ⟨k, hk, heq⟩ := List.mem_map.mp hmem
      apply hcalls k hk heq
  case later =>
    intro calls k hk
    apply lacks_of_lookup
    rw [hdistinct.lookup_after, if_pos (List.mem_map_of_mem hk)]
  case absent =>
    intro calls region hregion
    apply lacks_of_lookup
    rw [hdistinct.lookup_after]
    have hnone : c.regions.lookup region = none :=
      (carvesAsPlanned_ofRequest m).other c hcarve region hregion
    rw [hnone, ite_self]
  case apart => apply hdistinct.call_after_filter
  case swapping => apply hdistinct.call_afterSwapping
  case views =>
    intro e _ α _ n
    apply Memory.views

/-- At an odd address there is no room for a key of two bytes.  The region is gone nevertheless,
while that for values without bytes still has room for any number of them. -/
theorem handsOutOnce_sample :
  ∃ c, (ofRequest ⟨2, 0, 1, 1, false, none⟩).carve (.filled 1 256 7) = .ok c
    ∧ (ofRequest ⟨2, 0, 1, 1, false, none⟩).HandsOutOnce (.filled 1 256 7) c
    ∧ (c.call (.requireRoom .keys UInt16 1)).1 = .error (.misalignedStorage .keys)
    ∧ ((c.after [.requireRoom .keys UInt16 1]).call (.take .keys)).1 = .ok none
    ∧ ((c.after [.requireRoom .keys UInt16 1]).call (.takeRoom .values Unit 7)).1
      = .ok (some ⟨257, []⟩)
  := by
  have hcarve : (ofRequest ⟨2, 0, 1, 1, false, none⟩).carve (.filled 1 256 7)
      = .ok ⟨[(.keys, .filled 1 256 7), (.values, ⟨257, []⟩)]⟩ := by
    decide +kernel
  refine ⟨_, hcarve, regions_are_handed_out_once hcarve, ?_, ?_, ?_⟩ <;> decide +kernel

end Layout

end SegmentSort
