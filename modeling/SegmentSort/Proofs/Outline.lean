import SegmentSort.Proofs.Streams

/-!
# Storages of the same outline

The outline of memory are its address and its size.  Whether memory can be carved into regions and
values have room in them depends on the outline only, and so does whether tiles can partition the
segments; what they reply does not depend on the storage at all (`TiledPartition.alike_partition`).
So computations on storages of the same outline fail alike, or succeed in both cases, and what is
left of the storages has the same outline again (`Matched`).
-/

namespace SegmentSort

/-! ### Results side by side -/

/-- Two computations fail alike, or both succeed, with values that are related. -/
inductive Matched {ε α β : Type} (R : α → β → Prop) : Except ε α → Except ε β → Prop
  | ok {a : α} {b : β} (h : R a b) : Matched R (.ok a) (.ok b)
  | error (e : ε) : Matched R (.error e) (.error e)

namespace Matched

variable {ε α β α' β' : Type} {R : α → β → Prop} {S : α' → β' → Prop}

theorem refl (x : Except ε α) :
  Matched (fun a b => b = a) x x
  := by
  cases x with
  | error e => exact .error e
  | ok a => exact .ok rfl

/-- Matched computations go on alike if what follows their values does. -/
theorem bind {x : Except ε α} {y : Except ε β} {f : α → Except ε α'} {g : β → Except ε β'}
    (h : Matched R x y)
    (hnext : ∀ a b, x = .ok a → y = .ok b → R a b → Matched S (f a) (g b)) :
  Matched S (x >>= f) (y >>= g)
  := by
  cases h with
  | ok h => apply hnext _ _ rfl rfl h
  | error e => exact .error e

/-- Matched computations have the same error, or values that are related. -/
theorem cases {x : Except ε α} {y : Except ε β} (h : Matched R x y) :
  (∃ e, x = .error e ∧ y = .error e) ∨ ∃ a b, x = .ok a ∧ y = .ok b ∧ R a b
  := by
  cases h with
  | ok h => exact .inr ⟨_, _, rfl, rfl, h⟩
  | error e => exact .inl ⟨e, rfl, rfl⟩

theorem reported {x : Except SortError α} {y : Except SortError β} (h : Matched R x y) :
  Matched R (SegmentSort.reported x) (SegmentSort.reported y)
  := by
  cases h with
  | ok h => exact .ok h
  | error e => exact .error _

end Matched

/-! ### Outlines of memory -/

namespace Memory

/-- The address and the size, without what is held. -/
def outline (m : Memory) : Nat × Nat :=
  (m.address, m.size)

theorem outline_take (m : Memory) (n : Nat) :
  (m.take n).outline = (m.outline.1, min n m.outline.2)
  := by
  rw [outline, size, take, List.length_take]
  rfl

theorem outline_drop (m : Memory) (n : Nat) :
  (m.drop n).outline = (m.outline.1 + n, m.outline.2 - n)
  := by
  rw [outline, size, drop, List.length_drop]
  rfl

/-- Whether there is room for values depends on the outline only. -/
theorem matched_room {m m' : Memory} (h : m'.outline = m.outline) (region : Region) (α : Type)
    [Element α] (n : Nat) :
  Matched (fun room room' => room'.outline = room.outline) (m.room region α n)
    (m'.room region α n)
  := by
  have htake := outline_take m (n * Element.size α)
  rw [← h, ← outline_take] at htake
  obtain ⟨haddress, hsize⟩ := Prod.mk.inj h
  have haligned : m'.Aligned α ↔ m.Aligned α := by
    rw [Aligned, Aligned, haddress]
  simp only [room, hsize, haligned]
  split
  · exact .error _
  · split
    · exact .error _
    · exact .ok htake.symm

/-- Two memories start at the same address, and have the same size unless both have at least a
number of bytes. -/
def Interchangeable (bytes : Nat) (m m' : Memory) : Prop :=
  m'.address = m.address ∧ (m'.size = m.size ∨ bytes ≤ m.size ∧ bytes ≤ m'.size)

end Memory

namespace Carved

/-- The regions that have not been handed out yet, with their outlines. -/
def outline (c : Carved) : List (Region × Nat × Nat) :=
  c.regions.map fun r => (r.1, r.2.outline)

theorem outline_take (c : Carved) (region : Region) :
  (c.take region).1.map Memory.outline = c.outline.lookup region
    ∧ (c.take region).2.outline = c.outline.eraseP (·.1 = region)
  := by
  constructor
  · change (c.regions.lookup region).map Memory.outline
      = (c.regions.map fun r => (r.1, r.2.outline)).lookup region
    induction c.regions with
    | nil => rfl
    | cons r rest ih =>
        rw [List.map_cons, List.lookup_cons, List.lookup_cons, ← ih]
        split <;> rfl
  · rw [outline, outline, List.eraseP_map]
    rfl

/-- A region that need not be there is replaced alike if it is not. -/
theorem outline_take_getD {c c' : Carved} (h : c'.outline = c.outline) (region : Region)
    (m : Memory) :
  ((c'.take region).1.getD m).outline = ((c.take region).1.getD m).outline
  := by
  have hgetD : ∀ o : Option Memory, (o.getD m).outline = (o.map Memory.outline).getD m.outline := by
    intro o
    cases o <;> rfl
  rw [hgetD, hgetD, (c'.outline_take region).1, (c.outline_take region).1, h]

variable {c c' : Carved}

/-- What is handed out, and what remains, has the same outline. -/
theorem matched_requireRoom (h : c'.outline = c.outline) (region : Region) (α : Type) [Element α]
    (n : Nat) :
  Matched (fun room room' => room'.outline = room.outline) (c.requireRoom region α n).1
      (c'.requireRoom region α n).1
    ∧ (c'.requireRoom region α n).2.outline = (c.requireRoom region α n).2.outline
  := by
  obtain ⟨hfirst, hrest⟩ := c.outline_take region
  rw [← h] at hfirst hrest
  obtain ⟨hfirst', hrest'⟩ := c'.outline_take region
  rw [← hfirst'] at hfirst
  rw [requireRoom_eq, requireRoom_eq]
  use ?_, hrest'.trans hrest.symm
  dsimp only
  cases htake : (c.take region).1 with
  | none =>
      rw [htake] at hfirst
      rw [Option.map_eq_none_iff.mp hfirst.symm]
      exact .error _
  | some m =>
      rw [htake] at hfirst
      obtain ⟨m', htake', hm⟩ := Option.map_eq_some_iff.mp hfirst.symm
      rw [htake']
      apply Memory.matched_room hm

end Carved

/-- The parts of memories that are interchangeable for a layout have the same outlines. -/
theorem Layout.outline_part {r : StorageRequest} {m m' : Memory}
    (h : m.Interchangeable (ofRequest r).total m') {e : Extent}
    (he : e ∈ (ofRequest r).extents) :
  (m'.part e).outline = (m.part e).outline
  := by
  obtain ⟨haddress, hsize⟩ := h
  have hstop := ((tiles_ofRequest r).bounds e he).2
  rw [Memory.part, Memory.part, Memory.outline_take, Memory.outline_take, Memory.outline_drop,
    Memory.outline_drop, Memory.outline, Memory.outline, haddress]
  apply congrArg (m.address + e.offset, ·)
  dsimp only
  omega

/-- Memories that are interchangeable for a layout are carved alike. -/
theorem Layout.matched_carve {r : StorageRequest} {m m' : Memory}
    (h : m.Interchangeable (ofRequest r).total m') :
  Matched (fun c c' => c'.outline = c.outline) ((ofRequest r).carve m) ((ofRequest r).carve m')
  := by
  have hcut : Carved.outline ⟨Carved.cut (ofRequest r).extents m'⟩
      = Carved.outline ⟨Carved.cut (ofRequest r).extents m⟩ := by
    rw [Carved.outline, Carved.outline, cut_extents, cut_extents, List.map_map, List.map_map]
    apply List.map_congr_left
    intro e he
    apply congrArg (e.region, ·)
    apply outline_part h he
  obtain ⟨-, hsize⟩ := h
  rw [carve, carve]
  split
  · rename_i hsmall
    obtain hsize | hlarge := hsize
    · rw [hsize, if_pos hsmall]
      exact .error _
    · omega
  · rename_i hsmall
    rw [if_neg (by omega)]
    exact .ok hcut

/-! ### Partitions -/

/-- Two requests ask for the same, with storages of the same outline. -/
structure PartitionRequest.Alike {n : Nat} (r r' : PartitionRequest n) : Prop where
  storage : r'.storage.outline = r.storage.outline
  segments : r'.segments = r.segments
  selected : r'.selected = r.selected

/-- Two replies fail alike, or they are the same partition. -/
inductive PartitionReply.Alike {n : Nat} (reply reply' : PartitionReply n) : Prop
  | failed {e : Failure} (h : reply.trace.result = .error e) (h' : reply'.trace.result = .error e)
  | valid (h : reply.Valid) (h' : reply'.Valid) (hindices : reply'.indices = reply.indices)
      (hcount : reply'.count = reply.count)

namespace TiledPartition

variable (p : TiledPartition) {n : Nat} {r r' : PartitionRequest n}

theorem matched_counters (h : r.Alike r') :
  Matched (fun _ _ => True) (p.counters r) (p.counters r')
  := by
  obtain ⟨haddress, hsize⟩ := Prod.mk.inj h.storage
  have haligned : r'.storage.Aligned UInt32 ↔ r.storage.Aligned UInt32 := by
    rw [Memory.Aligned, Memory.Aligned, haddress]
  simp only [counters, h.segments, hsize, haligned]
  split
  · exact .error _
  · split
    · exact .error _
    · split
      · exact .error _
      · exact .ok trivial

/-- Tiles reply alike to requests that are alike, whatever the counters and the slots hold. -/
theorem alike_partition (hword : n < wordBound) (hsegments : r.segments = n) (h : r.Alike r') :
  (p.partition r).Alike (p.partition r')
  := by
  have hsegments' := h.segments.trans hsegments
  rcases (p.matched_counters h).cases with ⟨e, hcounters, hcounters'⟩ |
    ⟨counters, counters', hcounters, hcounters', -⟩
  · exact .failed (p.partition_of_error hcounters).1 (p.partition_of_error hcounters').1
  · obtain ⟨-, hcount, hindices⟩ := p.partition_ok (by rwa [hsegments]) hcounters
    obtain ⟨-, hcount', hindices'⟩ := p.partition_ok (by rwa [hsegments']) hcounters'
    have hslots : ∀ indices : Vector UInt32 n, indices.toList.drop n = [] := by
      intro indices
      apply List.drop_eq_nil_of_le
      rw [Vector.length_toList]
    apply PartitionReply.Alike.valid (p.valid_partition hword hsegments hcounters).1
      (p.valid_partition hword hsegments' hcounters').1
    · apply Vector.toList_inj.mp
      rw [hindices, hindices', h.selected, hsegments, hsegments', hslots, hslots]
    · apply UInt32.toNat_inj.mp
      rw [hcount, hcount', h.selected, h.segments]

end TiledPartition

/-- The same work follows from replies that are alike; if the views are not the same, then at
least it follows from both or from neither. -/
theorem matched_workOf {α : Type} {n : Nat} (classifier : Classifier)
    {views views' : List (SegmentView α)} (hviews : views.length = n) (hviews' : views'.length = n)
    {reply reply' : PartitionReply n} (h : reply.Alike reply') :
  Matched (fun work work' => views' = views → work' = work) (workOf classifier views reply)
    (workOf classifier views' reply')
  := by
  cases h with
  | failed h h' =>
      rw [workOf, workOf, h, h']
      exact .error _
  | valid h h' hindices hcount =>
      obtain ⟨work, hwork⟩ := (exists_workOf_iff classifier hviews reply).mpr h
      obtain ⟨work', hwork'⟩ := (exists_workOf_iff classifier hviews' reply').mpr h'
      rw [hwork, hwork']
      apply Matched.ok
      rintro rfl
      rw [workOf, h'.ok, hindices, hcount, ← h.ok, ← workOf, hwork] at hwork'
      exact (Except.ok.inj hwork').symm

end SegmentSort
