import SegmentSort.Proofs.Independence

/-!
# Ranges of bits

The number formed by some bits consists of those formed by the lower and by the higher ones of
them (`masked_split`).  Since sorts are stable, a sort by the lower bits and then one by the higher
ones leave what a single sort by all of them leaves (`bit_ranges_compose`), however the three are
configured.  What is sorted by some bits is sorted by the higher ones of them, too, so a sort by
these changes nothing any more, nor do any number of such sorts (`resorts_change_nothing`), although
each of them may swap the buffers.
-/

namespace SegmentSort

/-! ### Lower and higher bits -/

/-- Bits consist of lower and of higher ones. -/
theorem masked_split (n : Nat) {b m e : Nat} (hbm : b ≤ m) (hme : m ≤ e) :
  masked n b e = masked n b m + 2 ^ (m - b) * masked n m e
  := by
  have hall := masked_add n hbm (e - m)
  have hhigh := masked_add n (Nat.le_refl m) (e - m)
  rw [masked_self, Nat.sub_self, Nat.pow_zero, Nat.one_mul, Nat.zero_add] at hhigh
  rw [Nat.add_sub_cancel' hme] at hall hhigh
  rw [hall, hhigh]

/-- The higher bits are those above the lower ones. -/
theorem masked_div (n : Nat) {b m e : Nat} (hbm : b ≤ m) (hme : m ≤ e) :
  masked n b e / 2 ^ (m - b) = masked n m e
  := by
  rw [masked_split n hbm hme, Nat.add_mul_div_left _ _ (Nat.two_pow_pos _),
    Nat.div_eq_of_lt (masked_lt n b m), Nat.zero_add]

/-- Numbers that are in order by some bits are in order by the higher ones of them. -/
theorem masked_le_masked {n n' b m e : Nat} (hbm : b ≤ m) (h : masked n b e ≤ masked n' b e) :
  masked n m e ≤ masked n' m e
  := by
  rcases Nat.le_total m e with hme | hem
  · rw [← masked_div n hbm hme, ← masked_div n' hbm hme]
    apply Nat.div_le_div_right h
  · -- There are no higher bits.
    have hlt := masked_lt n m e
    rw [Nat.sub_eq_zero_of_le hem, Nat.pow_zero, Nat.lt_one_iff] at hlt
    rw [hlt]
    apply Nat.zero_le

namespace Segments.SortedIn

variable {α : Type} {segments : Segments} {low high : α → Nat} {before mid after : List α}

/-- Segments that are sorted by low digits and then by high ones are sorted by both. -/
theorem trans {m : Nat} (h : segments.SortedIn low before mid)
    (h' : segments.SortedIn high mid after) (hlow : ∀ a, low a < m) :
  segments.SortedIn (fun a => low a + m * high a) before after
  := by
  intro i hi
  obtain ⟨s, hspan, hle, hstop, hmid⟩ := h i hi
  obtain ⟨s', hspan', -, -, hafter⟩ := h' i hi
  rw [hspan] at hspan'
  obtain rfl := Option.some.inj hspan'
  refine ⟨s, hspan, hle, hstop, ?_⟩
  rw [hafter, hmid, stableSort_stableSort low high fun a _ => hlow a]

/-- Segments that are sorted by something that determines the order by something else stay as they
are if they are sorted by the latter. -/
theorem absorb (h : segments.SortedIn low before mid)
    (hmono : ∀ a b, low a ≤ low b → high a ≤ high b) {start : List α}
    (h' : segments.SortedIn high start after)
    (hstart : ∀ s ∈ segments.spans, s.slice start = s.slice mid) :
  ∀ s ∈ segments.spans, s.slice after = s.slice mid
  := by
  intro s hs
  rw [h'.slice s hs, hstart s hs]
  apply stableSort_of_pairwise
  rw [h.slice s hs]
  apply (stableSort_pairwise low _).imp
  apply hmono

end Segments.SortedIn

/-! ### Columns that agree -/

namespace Columns

variable {κ ν : Type} {spans : List Span} {c d : Columns κ ν}

/-- Two columns hold the same keys and the same values in some spans. -/
def AgreeOn (spans : List Span) (c d : Columns κ ν) : Prop :=
  ∀ s ∈ spans, s.slice d.keys = s.slice c.keys ∧ s.slice d.values = s.slice c.values

/-- Even columns agree where their items do. -/
theorem Even.agreeOn (hc : c.Even) (hd : d.Even)
    (h : ∀ s ∈ spans, s.slice d.items = s.slice c.items) :
  AgreeOn spans c d
  := by
  intro s hs
  rw [← hc.map_items, ← hd.map_items, ← hc.map_snd_items, ← hd.map_snd_items, ← Span.map_slice,
    ← Span.map_slice, ← Span.map_slice, ← Span.map_slice, h s hs]
  exact ⟨rfl, rfl⟩

end Columns

/-! ### Calls on ranges of bits -/

namespace SortCall

/-- A call sorts keys of a type by the bits from `b` up to `e`. -/
structure OnBits (call : SortCall) (t : KeyType) (b e : Nat) : Prop where
  beginBit : call.options.beginBit = b
  endBit : call.options.endBit.getD t.bits = e

/-- A call sorts the segments of another one, in the same direction. -/
structure Alike (call other : SortCall) : Prop where
  segments : call.segments = other.segments
  direction : call.direction = other.direction

/-- Of three calls with storage that sort the same segments in the same direction, the first two
sort by the lower and by the higher ones of the bits of the third. -/
structure Divided (t : KeyType) (b m e : Nat) (low high full : SortCall) : Prop where
  below : b < m
  above : m < e
  lowBits : low.OnBits t b m
  highBits : high.OnBits t m e
  fullBits : full.OnBits t b e
  lowAlike : low.Alike full
  highAlike : high.Alike full
  storage : low.storage ≠ none ∧ high.storage ≠ none ∧ full.storage ≠ none

variable {t : KeyType} {b m e : Nat} {low high full : SortCall}

theorem OnBits.rank_eq {call : SortCall} (h : call.OnBits t b e) (k : Key t) :
  call.rank k = masked (k.sortCode call.direction) b e
  := by
  rw [rank, h.beginBit, h.endBit]

theorem Divided.rank_eq (h : Divided t b m e low high full) (k : Key t) :
  full.rank k = low.rank k + 2 ^ (m - b) * high.rank k
  := by
  rw [h.lowBits.rank_eq, h.highBits.rank_eq, h.fullBits.rank_eq, h.lowAlike.direction,
    h.highAlike.direction]
  apply masked_split _ (Nat.le_of_lt h.below) (Nat.le_of_lt h.above)

/-- Segments that are sorted by the ranks of the first call and then by those of the second one are
what the third one makes of them. -/
theorem Divided.slice_eq (h : Divided t b m e low high full) {α : Type} (key : α → Key t)
    {before mid after after' : List α}
    (hlow : low.segments.SortedIn (fun a => low.rank (key a)) before mid)
    (hhigh : high.segments.SortedIn (fun a => high.rank (key a)) mid after')
    (hfull : full.segments.SortedIn (fun a => full.rank (key a)) before after) :
  ∀ s ∈ full.segments.spans, s.slice after' = s.slice after
  := by
  rw [h.lowAlike.segments] at hlow
  rw [h.highAlike.segments] at hhigh
  simp only [h.rank_eq] at hfull
  apply hfull.slice_eq
  apply hlow.trans hhigh
  intro a
  rw [h.lowBits.rank_eq]
  apply masked_lt

end SortCall

/-- A sort after another one agrees with a third one, if all of them succeed; and they do so if
they are provided with all that they need. -/
structure Composed {β : Type} (provided : Prop) (agree : β → β → Prop)
    (low high full : SortOutcome β) : Prop where
  agree : low.result = .ok () → high.result = .ok () → full.result = .ok () →
    agree full.buffers high.buffers
  ok : provided → low.result = .ok () ∧ high.result = .ok () ∧ full.result = .ok ()

variable {t : KeyType} {ν : Type} [Element ν] {b m e : Nat} {low high full : SortCall}

/-! ### Sorts with a separate output -/

theorem composed_sortPairs (h : SortCall.Divided t b m e low high full)
    (input mid output output' : Columns (Key t) ν) :
  Composed (low.Provided (.separate input mid) ∧ high.Provided (.separate input output)
      ∧ full.Provided (.separate input output'))
    (Columns.AgreeOn full.segments.spans) (sortPairs low input mid)
    (sortPairs high (sortPairs low input mid).buffers output) (sortPairs full input output')
  where
  agree := by
    intro hlow hhigh hfull
    obtain ⟨hlowStorage, hhighStorage, hfullStorage⟩ := h.storage
    apply (even_sortPairs hfull).agreeOn (even_sortPairs hhigh)
    apply h.slice_eq Prod.fst (sortPairs_ok hlowStorage hlow).1 (sortPairs_ok hhighStorage hhigh).1
      (sortPairs_ok hfullStorage hfull).1
  ok := by
    rintro ⟨hlow, hhigh, hfull⟩
    have hmid := Operands.checkLengths_separate_iff.mp (checkLengths_sortPairs low hlow.lengths)
    have houtput := Operands.checkLengths_separate_iff.mp hhigh.lengths
    refine ⟨hlow.result_run, ?_, hfull.result_run⟩
    apply (hhigh.congr (.separate (sortPairs low input mid).buffers output) rfl hmid.2.2
      _).result_run
    apply Operands.checkLengths_separate_iff.mpr
    exact ⟨hmid.2.1, houtput.2.1, houtput.2.2.trans hmid.2.2.symm⟩

theorem composed_sortKeys (h : SortCall.Divided t b m e low high full)
    (input mid output output' : List (Key t)) :
  Composed (low.Provided (keyOperands input mid) ∧ high.Provided (keyOperands input output)
      ∧ full.Provided (keyOperands input output'))
    (fun l l' => ∀ s ∈ full.segments.spans, s.slice l' = s.slice l) (sortKeys low input mid)
    (sortKeys high (sortKeys low input mid).buffers output) (sortKeys full input output')
  where
  agree := by
    intro hlow hhigh hfull
    obtain ⟨hlowStorage, hhighStorage, hfullStorage⟩ := h.storage
    apply h.slice_eq id (sortKeys_ok hlowStorage hlow) (sortKeys_ok hhighStorage hhigh)
      (sortKeys_ok hfullStorage hfull)
  ok := by
    rintro ⟨hlow, hhigh, hfull⟩
    -- The values that the second call adds are as many as its keys, which are as many as before.
    have hmid : (sortKeys low input mid).buffers.length = input.length :=
      (Operands.checkLengths_separate_iff.mp (checkLengths_sortPairs low hlow.lengths)).2.2
    have houtput : output.length = input.length :=
      (Operands.checkLengths_separate_iff.mp hhigh.lengths).2.2
    refine ⟨hlow.result_run, ?_, hfull.result_run⟩
    apply (hhigh.congr (keyOperands (sortKeys low input mid).buffers output) rfl hmid _).result_run
    apply Operands.checkLengths_separate_iff.mpr
    refine ⟨List.length_replicate, ?_, houtput.trans hmid.symm⟩
    rw [Columns.Even, List.length_replicate, hmid, houtput]

/-! ### Sorts of double buffers -/

namespace DoubleBuffer

/-- The lists of two buffers that are current. -/
def currentColumns {κ ν : Type} (buffers : DoubleBuffer κ × DoubleBuffer ν) : Columns κ ν where
  keys := buffers.1.current
  values := buffers.2.current

variable {call : SortCall} {keys : DoubleBuffer (Key t)} {values : DoubleBuffer ν}

theorem currentColumns_sortPairs (call : SortCall) (keys : DoubleBuffer (Key t))
    (values : DoubleBuffer ν) :
  currentColumns (sortPairs call keys values).buffers
    = (call.run (operands keys values)).operands.columns
      (call.run (operands keys values)).location
  := by
  rw [currentColumns, keys_sortPairs, values_sortPairs]

/-- A sort that succeeds leaves as many current keys as current values. -/
theorem even_sortPairs (h : (sortPairs call keys values).result = .ok ()) :
  (currentColumns (sortPairs call keys values).buffers).Even
  := by
  obtain ⟨plan, hplan⟩ := SortCall.exists_plan_of_ok h
  have hlengths := (SortCall.planned_of_plan hplan).lengths
  rw [currentColumns_sortPairs]
  apply call.run_even rfl (Operands.checkLengths_eq_ok_iff.mp hlengths .primary).2

/-- The lists that a sort leaves are those of its run, perhaps in exchanged roles. -/
theorem exists_columns_sortPairs (call : SortCall) (keys : DoubleBuffer (Key t))
    (values : DoubleBuffer ν) (location : ResultLocation) :
  ∃ location', (operands (sortPairs call keys values).buffers.1
      (sortPairs call keys values).buffers.2).columns location
    = (call.run (operands keys values)).operands.columns location'
  := by
  generalize hrun : call.run (operands keys values) = run
  rw [buffers_sortPairs call keys values hrun, columns_operands]
  -- Only a result in the alternate lists exchanges the roles.
  cases run.location with
  | primary =>
      use location
      cases location <;> simp [ResultLocation.apply]
  | alternate =>
      cases location with
      | primary =>
          use .alternate
          simp [ResultLocation.apply]
      | alternate =>
          use .primary
          simp [ResultLocation.apply]

/-- The lists keep their lengths. -/
theorem lengths_sortPairs (call : SortCall)
    (h : (operands keys values).checkLengths = .ok ()) :
  (operands (sortPairs call keys values).buffers.1 (sortPairs call keys values).buffers.2).size
      = (operands keys values).size
    ∧ (operands (sortPairs call keys values).buffers.1
      (sortPairs call keys values).buffers.2).checkLengths = .ok ()
  := by
  obtain ⟨-, hsize, hlengths⟩ := call.lengths_run h
  rw [Operands.checkLengths_eq_ok_iff, hsize] at hlengths
  have hcolumns : ∀ location, ((operands (sortPairs call keys values).buffers.1
      (sortPairs call keys values).buffers.2).columns location).keys.length
        = (operands keys values).size
      ∧ ((operands (sortPairs call keys values).buffers.1
        (sortPairs call keys values).buffers.2).columns location).Even := by
    intro location
    obtain ⟨location', hcolumns⟩ := exists_columns_sortPairs call keys values location
    rw [hcolumns]
    apply hlengths
  have hprimary := (hcolumns .primary).1
  rw [Operands.length_columns_primary] at hprimary
  use hprimary
  rw [Operands.checkLengths_eq_ok_iff, hprimary]
  apply hcolumns

omit [Element ν] in
/-- Values that say nothing are as many as there are keys in each list. -/
theorem checkLengths_units (h : (operands keys values).checkLengths = .ok ()) :
  (operands keys keys.units).checkLengths = .ok ()
  := by
  have halternate := (Operands.checkLengths_eq_ok_iff.mp h .alternate).1
  rw [Operands.checkLengths_eq_ok_iff]
  rintro (_ | _)
  · exact ⟨rfl, even_units keys⟩
  · use halternate
    apply List.length_replicate.trans halternate.symm

/-- A sort of pairs that succeeds has sorted every segment, if there are any. -/
theorem sortedIn_sortPairs (hstorage : call.storage ≠ none)
    (h : (sortPairs call keys values).result = .ok ()) :
  call.segments.SortedIn (fun a => call.rank a.1) (currentColumns (keys, values)).items
    (currentColumns (sortPairs call keys values).buffers).items
  := by
  intro i hi
  apply (sortPairs_ok hstorage (Nat.ne_zero_of_lt hi) h).1 i hi

/-- The same for a sort of keys. -/
theorem sortedIn_sortKeys (hstorage : call.storage ≠ none)
    (h : (sortKeys call keys).result = .ok ()) :
  call.segments.SortedIn call.rank keys.current (sortKeys call keys).buffers.current
  := by
  intro i hi
  apply (sortKeys_ok hstorage (Nat.ne_zero_of_lt hi) h).1 i hi

theorem composed_sortPairs (h : SortCall.Divided t b m e low high full)
    (keys : DoubleBuffer (Key t)) (values : DoubleBuffer ν) :
  Composed (low.Provided (operands keys values) ∧ high.Provided (operands keys values)
      ∧ full.Provided (operands keys values))
    (fun buffers buffers' => Columns.AgreeOn full.segments.spans (currentColumns buffers)
      (currentColumns buffers'))
    (sortPairs low keys values)
    (sortPairs high (sortPairs low keys values).buffers.1 (sortPairs low keys values).buffers.2)
    (sortPairs full keys values)
  where
  agree := by
    intro hlow hhigh hfull
    obtain ⟨hlowStorage, hhighStorage, hfullStorage⟩ := h.storage
    apply (even_sortPairs hfull).agreeOn (even_sortPairs hhigh)
    apply h.slice_eq Prod.fst (sortedIn_sortPairs hlowStorage hlow)
      (sortedIn_sortPairs hhighStorage hhigh) (sortedIn_sortPairs hfullStorage hfull)
  ok := by
    rintro ⟨hlow, hhigh, hfull⟩
    obtain ⟨hsize, hlengths⟩ := lengths_sortPairs low hlow.lengths
    refine ⟨hlow.result_run, ?_, hfull.result_run⟩
    apply (hhigh.congr (operands (sortPairs low keys values).buffers.1
      (sortPairs low keys values).buffers.2) rfl hsize hlengths).result_run

theorem composed_sortKeys (h : SortCall.Divided t b m e low high full)
    (keys : DoubleBuffer (Key t)) :
  Composed (low.Provided (operands keys keys.units) ∧ high.Provided (operands keys keys.units)
      ∧ full.Provided (operands keys keys.units))
    (fun buffer buffer' => ∀ s ∈ full.segments.spans,
      s.slice buffer'.current = s.slice buffer.current)
    (sortKeys low keys) (sortKeys high (sortKeys low keys).buffers) (sortKeys full keys)
  where
  agree := by
    intro hlow hhigh hfull
    obtain ⟨hlowStorage, hhighStorage, hfullStorage⟩ := h.storage
    apply h.slice_eq id (sortedIn_sortKeys hlowStorage hlow)
      (sortedIn_sortKeys hhighStorage hhigh) (sortedIn_sortKeys hfullStorage hfull)
  ok := by
    rintro ⟨hlow, hhigh, hfull⟩
    obtain ⟨hsize, hlengths⟩ := lengths_sortPairs low hlow.lengths
    refine ⟨hlow.result_run, ?_, hfull.result_run⟩
    apply (hhigh.congr (operands _ (sortKeys low keys).buffers.units) rfl hsize _).result_run
    apply checkLengths_units hlengths

end DoubleBuffer

open DoubleBuffer (operands units currentColumns)

/-- Of three calls with storage that sort the same segments in the same direction, let the first two
sort by the lower and by the higher ones of the bits of the third.  Then the second one, called with
what the first one leaves, leaves the same keys and values in every segment as the third one does,
be it in a separate output or where double buffers are current, and however each of the calls is
configured; and all of them succeed if they are provided with all that they need. -/
theorem bit_ranges_compose (t : KeyType) (ν : Type) [Element ν] (b m e : Nat)
    (low high full : SortCall) (h : SortCall.Divided t b m e low high full) :
  (∀ input mid output output' : Columns (Key t) ν,
    Composed (low.Provided (.separate input mid) ∧ high.Provided (.separate input output)
        ∧ full.Provided (.separate input output'))
      (Columns.AgreeOn full.segments.spans) (sortPairs low input mid)
      (sortPairs high (sortPairs low input mid).buffers output) (sortPairs full input output'))
  ∧ (∀ input mid output output' : List (Key t),
    Composed (low.Provided (keyOperands input mid) ∧ high.Provided (keyOperands input output)
        ∧ full.Provided (keyOperands input output'))
      (fun l l' => ∀ s ∈ full.segments.spans, s.slice l' = s.slice l) (sortKeys low input mid)
      (sortKeys high (sortKeys low input mid).buffers output) (sortKeys full input output'))
  ∧ (∀ (keys : DoubleBuffer (Key t)) (values : DoubleBuffer ν),
    Composed (low.Provided (operands keys values) ∧ high.Provided (operands keys values)
        ∧ full.Provided (operands keys values))
      (fun buffers buffers' => Columns.AgreeOn full.segments.spans (currentColumns buffers)
        (currentColumns buffers'))
      (DoubleBuffer.sortPairs low keys values)
      (DoubleBuffer.sortPairs high (DoubleBuffer.sortPairs low keys values).buffers.1
        (DoubleBuffer.sortPairs low keys values).buffers.2)
      (DoubleBuffer.sortPairs full keys values))
  ∧ ∀ keys : DoubleBuffer (Key t),
    Composed (low.Provided (operands keys keys.units) ∧ high.Provided (operands keys keys.units)
        ∧ full.Provided (operands keys keys.units))
      (fun buffer buffer' => ∀ s ∈ full.segments.spans,
        s.slice buffer'.current = s.slice buffer.current)
      (DoubleBuffer.sortKeys low keys)
      (DoubleBuffer.sortKeys high (DoubleBuffer.sortKeys low keys).buffers)
      (DoubleBuffer.sortKeys full keys)
  := by
  refine ⟨?_, ?_, ?_, ?_⟩
  · apply composed_sortPairs h
  · apply composed_sortKeys h
  · apply DoubleBuffer.composed_sortPairs h
  · apply DoubleBuffer.composed_sortKeys h

/-- The call with another range of bits. -/
def SortCall.withBits (call : SortCall) (beginBit endBit : Nat) : SortCall :=
  { call with options := call.options.withBits beginBit endBit }

/-- The sample by all bits of the keys, divided into a sort by the lowest bit and one by the others
that has its segments classified. -/
theorem SortCall.divided_sample :
  Divided (.unsigned .w8) 0 1 8 (sample.withBits 0 1) (splitSample.withBits 1 8)
    (sample.withBits 0 8)
  where
  below := by decide
  above := by decide
  lowBits := ⟨rfl, rfl⟩
  highBits := ⟨rfl, rfl⟩
  fullBits := ⟨rfl, rfl⟩
  lowAlike := ⟨rfl, rfl⟩
  highAlike := ⟨rfl, rfl⟩
  storage := by
    refine ⟨?_, ?_, ?_⟩
    · rintro ⟨⟩
    · rintro ⟨⟩
    · rintro ⟨⟩

set_option maxRecDepth 20000 in
/-- The three calls succeed, since they have storage of the sizes that they ask for. -/
theorem composed_sample :
  ∃ buffers, Leads (fun call input => sortPairs call input Columns.sample) Columns.sample
      [SortCall.sample.withBits 0 1, SortCall.splitSample.withBits 1 8] buffers
    ∧ Columns.AgreeOn SortCall.sample.segments.spans
      (sortPairs (SortCall.sample.withBits 0 8) Columns.sample Columns.sample).buffers buffers
  := by
  have hcomposed := (bit_ranges_compose (.unsigned .w8) UInt8 0 1 8 _ _ _
    SortCall.divided_sample).1 Columns.sample Columns.sample Columns.sample Columns.sample
  have hprovided : ∀ call : SortCall, call = SortCall.sample.withBits 0 1
      ∨ call = SortCall.splitSample.withBits 1 8 ∨ call = SortCall.sample.withBits 0 8 →
      call.Provided (.separate Columns.sample Columns.sample) := by
    have hsegments : SortCall.sample.segments.WellFormed Columns.sample.keys.length :=
      Segments.exists_resolve_iff.mp ⟨_, Segments.resolve_eq_ok_iff.mpr
        ⟨by decide, rfl, by decide, by decide⟩⟩
    rintro call (rfl | rfl | rfl)
    · exact ⟨⟨_, SortCall.admissible_of_plan rfl rfl⟩, ⟨_, rfl⟩,
        SortCall.stocked_of_query (by decide) rfl rfl (by decide) (by decide), hsegments⟩
    · exact ⟨⟨_, SortCall.admissible_of_plan rfl rfl⟩, ⟨_, rfl⟩,
        SortCall.stocked_of_query (by decide) rfl rfl (by decide) (by decide), hsegments⟩
    · exact ⟨⟨_, SortCall.admissible_of_plan rfl rfl⟩, ⟨_, rfl⟩,
        SortCall.stocked_of_query (by decide) rfl rfl (by decide) (by decide), hsegments⟩
  obtain ⟨hlow, hhigh, hfull⟩ := hcomposed.ok ⟨hprovided _ (.inl rfl),
    hprovided _ (.inr (.inl rfl)), hprovided _ (.inr (.inr rfl))⟩
  exact ⟨_, .cons hlow (.cons hhigh (.nil _)), hcomposed.agree hlow hhigh hfull⟩

/-! ### Sorts by higher bits afterwards -/

/-- A call sorts the segments of another one once more, in the same direction, by the higher ones
of its bits. -/
structure SortCall.Resorts (t : KeyType) (call first : SortCall) : Prop where
  alike : call.Alike first
  beginBit : first.options.beginBit ≤ call.options.beginBit
  endBit : call.options.endBit.getD t.bits = first.options.endBit.getD t.bits

/-- Keys that are in order by the bits of the first call are so by those of the later one. -/
theorem SortCall.Resorts.rank_le {first : SortCall} {call : SortCall} (h : call.Resorts t first)
    {k l : Key t} (hle : first.rank k ≤ first.rank l) :
  call.rank k ≤ call.rank l
  := by
  rw [SortCall.rank, SortCall.rank] at hle ⊢
  rw [h.alike.direction, h.endBit]
  apply masked_le_masked h.beginBit hle

/-- A call that sorts once more leaves the segments as they are. -/
theorem SortCall.Resorts.slice_eq {first call : SortCall} (h : call.Resorts t first) {α : Type}
    (key : α → Key t) {before mid start after : List α}
    (hfirst : first.segments.SortedIn (fun a => first.rank (key a)) before mid)
    (hlater : call.segments.SortedIn (fun a => call.rank (key a)) start after)
    (hstart : ∀ s ∈ first.segments.spans, s.slice start = s.slice mid) :
  ∀ s ∈ first.segments.spans, s.slice after = s.slice mid
  := by
  rw [h.alike.segments] at hlater
  apply hfirst.absorb _ hlater hstart
  intro a b
  apply h.rank_le

namespace DoubleBuffer

variable {first : SortCall} {later : List SortCall}

theorem absorbed_sortPairs (hstorage : first.storage ≠ none)
    (hlater : ∀ call ∈ later, call.Resorts t first) (keys : DoubleBuffer (Key t))
    (values : DoubleBuffer ν) (h : (sortPairs first keys values).result = .ok ())
    {b : DoubleBuffer (Key t) × DoubleBuffer ν}
    (hleads : Leads (fun call b => sortPairs call b.1 b.2) (sortPairs first keys values).buffers
      later b) :
  Columns.AgreeOn first.segments.spans (currentColumns (sortPairs first keys values).buffers)
    (currentColumns b)
  := by
  have hsorted := sortedIn_sortPairs hstorage h
  have heven := even_sortPairs h
  have hkept : (currentColumns b).Even ∧ ∀ s ∈ first.segments.spans,
      s.slice (currentColumns b).items
        = s.slice (currentColumns (sortPairs first keys values).buffers).items := by
    apply hleads.keeps (P := fun b => (currentColumns b).Even ∧ ∀ s ∈ first.segments.spans,
      s.slice (currentColumns b).items
        = s.slice (currentColumns (sortPairs first keys values).buffers).items) _
      ⟨heven, fun _ _ => rfl⟩
    rintro call hcall b ⟨hb, hslices⟩ hok
    use even_sortPairs hok
    -- A query leaves the buffers as they are; any other call finds the segments in order.
    by_cases hquery : call.storage = none
    · rw [(SortCall.Atomic.of_yields (yields_sortPairs call b.1 b.2)).query hquery]
      apply hslices
    · apply (hlater call hcall).slice_eq Prod.fst hsorted (sortedIn_sortPairs hquery hok) hslices
  apply heven.agreeOn hkept.1 hkept.2

theorem absorbed_sortKeys (hstorage : first.storage ≠ none)
    (hlater : ∀ call ∈ later, call.Resorts t first) (keys : DoubleBuffer (Key t))
    (h : (sortKeys first keys).result = .ok ()) {b : DoubleBuffer (Key t)}
    (hleads : Leads sortKeys (sortKeys first keys).buffers later b) :
  ∀ s ∈ first.segments.spans, s.slice b.current = s.slice (sortKeys first keys).buffers.current
  := by
  have hsorted := sortedIn_sortKeys hstorage h
  apply hleads.keeps (P := fun b => ∀ s ∈ first.segments.spans,
    s.slice b.current = s.slice (sortKeys first keys).buffers.current) _ fun _ _ => rfl
  intro call hcall b hslices hok
  by_cases hquery : call.storage = none
  · rw [(SortCall.Atomic.of_yields (yields_sortKeys call b)).query hquery]
    apply hslices
  · apply (hlater call hcall).slice_eq id hsorted (sortedIn_sortKeys hquery hok) hslices

end DoubleBuffer

/-- After a sort of double buffers that succeeds, any number of sorts of the same segments in the
same direction by higher ones of its bits, if they succeed, change no key and no value in any
segment where the buffers are current, however they are configured. -/
theorem resorts_change_nothing (t : KeyType) (ν : Type) [Element ν] (first : SortCall)
    (hstorage : first.storage ≠ none) (later : List SortCall)
    (hlater : ∀ call ∈ later, call.Resorts t first) :
  (∀ (keys : DoubleBuffer (Key t)) (values : DoubleBuffer ν),
    (DoubleBuffer.sortPairs first keys values).result = .ok () →
    ∀ b, Leads (fun call b => DoubleBuffer.sortPairs call b.1 b.2)
        (DoubleBuffer.sortPairs first keys values).buffers later b →
      Columns.AgreeOn first.segments.spans
        (currentColumns (DoubleBuffer.sortPairs first keys values).buffers) (currentColumns b))
  ∧ ∀ keys : DoubleBuffer (Key t), (DoubleBuffer.sortKeys first keys).result = .ok () →
    ∀ b, Leads DoubleBuffer.sortKeys (DoubleBuffer.sortKeys first keys).buffers later b →
      ∀ s ∈ first.segments.spans,
        s.slice b.current = s.slice (DoubleBuffer.sortKeys first keys).buffers.current
  := by
  constructor
  · intro keys values h b
    apply DoubleBuffer.absorbed_sortPairs hstorage hlater keys values h
  · intro keys h b
    apply DoubleBuffer.absorbed_sortKeys hstorage hlater keys h

/-- The sample sorted once more by one bit, which swaps the buffers, and then by both bits, with its
segments classified. -/
theorem SortCall.resorts_sample :
  ∀ call ∈ [sample.withBits 1 2, splitSample.withBits 0 2], call.Resorts (.unsigned .w8) sample
  := by
  intro call hcall
  rcases List.mem_pair.mp hcall with rfl | rfl
  · exact ⟨⟨rfl, rfl⟩, by decide, rfl⟩
  · exact ⟨⟨rfl, rfl⟩, by decide, rfl⟩

set_option maxRecDepth 20000 in
/-- The sorts succeed; and the last one leaves the buffers with the segments as the first one has
left them. -/
theorem absorbed_sample :
  ∃ b, Leads (fun call b => DoubleBuffer.sortPairs call b.1 b.2)
      (DoubleBuffer.sortPairs SortCall.sample DoubleBuffer.sampleKeys
        DoubleBuffer.sampleValues).buffers
      [SortCall.sample.withBits 1 2, SortCall.splitSample.withBits 0 2] b
    ∧ Columns.AgreeOn SortCall.sample.segments.spans
      (currentColumns (DoubleBuffer.sortPairs SortCall.sample DoubleBuffer.sampleKeys
        DoubleBuffer.sampleValues).buffers) (currentColumns b)
  := by
  have hok : (DoubleBuffer.sortPairs SortCall.sample DoubleBuffer.sampleKeys
      DoubleBuffer.sampleValues).result = .ok () := by
    cbv
  have hleads : ∃ b, Leads (fun call b => DoubleBuffer.sortPairs call b.1 b.2)
      (DoubleBuffer.sortPairs SortCall.sample DoubleBuffer.sampleKeys
        DoubleBuffer.sampleValues).buffers
      [SortCall.sample.withBits 1 2, SortCall.splitSample.withBits 0 2] b :=
    ⟨_, .cons (by cbv) (.cons (by cbv) (.nil _))⟩
  obtain ⟨b, hleads⟩ := hleads
  have hstorage : SortCall.sample.storage ≠ none := by
    rintro ⟨⟩
  use b, hleads
  apply (resorts_change_nothing (.unsigned .w8) UInt8 SortCall.sample hstorage _
    SortCall.resorts_sample).1 _ _ hok b hleads

end SegmentSort
