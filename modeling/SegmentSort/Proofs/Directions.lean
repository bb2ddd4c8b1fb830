import SegmentSort.Proofs.Contents

/-!
# Descending sorts mirror ascending ones

A descending sort complements the codes of the keys, so that the selected bits of a code count down
from the greatest number of as many bits (`masked_complement`).  A stable sort by such a rank is the
stable sort by the rank itself, of the reversed list and reversed again (`stableSort_mirror`).  So a
descending sort leaves in every segment the reverse of what an ascending sort makes of the data if
the segment has been flipped before; and where no two keys of a segment agree on the selected bits,
it does not matter whether it has (`descending_mirrors_ascending`).
-/

namespace SegmentSort

/-! ### Ranks that count down -/

/-- The selected bits of a complemented number. -/
theorem masked_complement {n b e : Nat} (hn : n < 2 ^ 64) (he : e ≤ 64) :
  masked (2 ^ 64 - 1 - n) b e + masked n b e = 2 ^ (e - b) - 1
  := by
  have hlt := masked_lt n b e
  have hcomplement : masked (2 ^ 64 - (n + 1)) b e = 2 ^ (e - b) - (masked n b e + 1) := by
    -- The bits that are selected lie within the 64 that are complemented.
    apply Nat.eq_of_testBit_eq
    intro i
    rw [Nat.testBit_two_pow_sub_succ hlt, masked, masked, digit, digit, Nat.one_shiftLeft,
      Nat.testBit_mod_two_pow, Nat.testBit_mod_two_pow, Nat.testBit_shiftRight,
      Nat.testBit_shiftRight, Nat.testBit_two_pow_sub_succ hn]
    by_cases hi : i < e - b
    · have hbit : b + i < 64 := by omega
      simp [hi, hbit]
    · simp [hi]
  rw [Nat.sub_sub, Nat.add_comm 1 n, hcomplement]
  omega

theorem Key.code_lt {t : KeyType} (k : Key t) :
  k.code < 2 ^ 64
  := Nat.lt_of_lt_of_le k.codePattern.isLt (Nat.pow_le_pow_right (by decide) t.bits_le)

section

variable {α : Type} {rank rank' : α → Nat} {m : Nat}

/-- A stable sort by a rank that counts down from `m` is the reverse of the stable sort of the
reversed list. -/
theorem stableSort_mirror (hsum : ∀ a, rank' a + rank a = m) (l : List α) :
  stableSort rank' l = (stableSort rank l.reverse).reverse
  := by
  symm
  apply eq_stableSort
  · rw [List.pairwise_reverse]
    apply (stableSort_pairwise rank l.reverse).imp
    intro a b hab
    have ha := hsum a
    have hb := hsum b
    omega
  · -- Those of rank `r` here have rank `m - r` there, and there are none above `m`.
    intro r
    by_cases hr : r ≤ m
    · have hranks : ∀ l : List α, l.filter (rank' · = r) = l.filter (rank · = m - r) := by
        intro l
        apply List.filter_congr
        intro a _
        have ha := hsum a
        apply decide_eq_decide.mpr
        omega
      rw [hranks, hranks, List.filter_reverse, filter_stableSort, List.filter_reverse,
        List.reverse_reverse]
    · have hnone : ∀ l : List α, l.filter (rank' · = r) = [] := by
        intro l
        apply List.filter_eq_nil_iff.mpr
        intro a _
        have ha := hsum a
        rw [decide_eq_true_iff]
        omega
      rw [hnone, hnone]

/-- Where all ranks differ, it does not matter in which order the items were. -/
theorem stableSort_reverse {l : List α} (h : (l.map rank).Nodup) :
  stableSort rank l.reverse = stableSort rank l
  := by
  apply eq_stableSort (stableSort_pairwise rank l.reverse)
  intro r
  rw [filter_stableSort, List.filter_reverse]
  have hnodup : ((l.filter (rank · = r)).map rank).Nodup :=
    h.sublist (List.filter_sublist.map rank)
  have hrank : ∀ a ∈ l.filter (rank · = r), rank a = r := by
    intro a ha
    apply of_decide_eq_true (List.mem_filter.mp ha).2
  -- of each rank there is one item at most
  rcases hfilter : l.filter (rank · = r) with _ | ⟨a, _ | ⟨b, rest⟩⟩
  · rfl
  · rfl
  · rw [hfilter] at hnodup hrank
    have hne := (List.nodup_cons.mp hnodup).1
    rw [hrank a List.mem_cons_self, List.map_cons, hrank b (by simp)] at hne
    cases hne List.mem_cons_self

end

/-! ### Segments that are flipped -/

section

variable {α β : Type}

/-- A list with the items of each one of some spans in the opposite order. -/
def flipSpans (spans : List Span) (l : List α) : List α :=
  spans.foldl (fun l s => splice l s.start (s.slice l).reverse) l

theorem length_splice_reverse (s : Span) (l : List α) :
  (splice l s.start (s.slice l).reverse).length = l.length
  := by
  rw [splice, Span.slice, List.length_append, List.length_append, List.length_reverse,
    List.length_take, List.length_take, List.length_drop, List.length_drop]
  omega

@[simp]
theorem length_flipSpans (spans : List Span) (l : List α) :
  (flipSpans spans l).length = l.length
  := by
  induction spans generalizing l with
  | nil => rfl
  | cons s spans ih =>
      rw [flipSpans, List.foldl_cons]
      apply (ih _).trans (length_splice_reverse s l)

theorem map_flipSpans (f : α → β) (spans : List Span) (l : List α) :
  (flipSpans spans l).map f = flipSpans spans (l.map f)
  := by
  induction spans generalizing l with
  | nil => rfl
  | cons s spans ih =>
      rw [flipSpans, flipSpans, List.foldl_cons, List.foldl_cons]
      apply (ih _).trans
      rw [flipSpans, splice, splice, List.map_append, List.map_append, List.map_take, List.map_drop,
        List.map_reverse, Span.map_slice, List.length_reverse, List.length_reverse,
        ← Span.map_slice, List.length_map]

/-- What is apart from all spans stays as it is, and every span is flipped. -/
theorem slice_flipSpans (spans : List Span) :
    ∀ l : List α, SegmentMap.Fits ⟨spans⟩ l.length →
      (∀ t : Span, (∀ s ∈ spans, s.Apart t) → t.slice (flipSpans spans l) = t.slice l)
        ∧ ∀ s ∈ spans, s.slice (flipSpans spans l) = (s.slice l).reverse := by
  induction spans with
  | nil =>
      intro l _
      use fun _ _ => rfl
      rintro s ⟨⟩
  | cons s spans ih =>
      intro l hfits
      obtain ⟨hle, hstop⟩ := hfits.bounds s List.mem_cons_self
      have hlength : (s.slice l).reverse.length = s.length := by
        rw [List.length_reverse, Span.length_slice hstop]
      obtain ⟨hapart, hflipped⟩ := ih (splice l s.start (s.slice l).reverse) (by
        rw [length_splice_reverse]
        apply hfits.tail)
      rw [flipSpans, List.foldl_cons]
      constructor
      · intro t ht
        apply (hapart t fun s' hs' => ht s' (List.mem_cons_of_mem s hs')).trans
        apply slice_splice_of_apart (ht s List.mem_cons_self) hle hstop hlength
      · -- The other spans are apart from the first one, and do not touch it again.
        intro t ht
        rcases List.mem_cons.mp ht with rfl | ht
        · apply (hapart t fun s' hs' => (List.rel_of_pairwise_cons hfits.apart hs').symm).trans
          apply slice_splice_self (by omega) hlength
        · apply (hflipped t ht).trans
          rw [slice_splice_of_apart (List.rel_of_pairwise_cons hfits.apart ht) hle hstop hlength]

end

namespace Columns

variable {κ ν : Type}

/-- Columns with the keys and the values of each one of some spans in the opposite order. -/
def flip (spans : List Span) (c : Columns κ ν) : Columns κ ν where
  keys := flipSpans spans c.keys
  values := flipSpans spans c.values

/-- Keys are flipped together with their values. -/
theorem Even.items_flip {c : Columns κ ν} (h : c.Even) (spans : List Span) :
  (c.flip spans).items = flipSpans spans c.items
  := by
  have hflip : c.flip spans = ofItems (flipSpans spans c.items) := by
    rw [ofItems, map_flipSpans, map_flipSpans, h.map_items, h.map_snd_items]
    rfl
  rw [hflip, items_ofItems]

/-- On a span, the second ones of two columns hold the reverse of what the first ones hold. -/
def Reversed (s : Span) (c d : Columns κ ν) : Prop :=
  s.slice d.keys = (s.slice c.keys).reverse ∧ s.slice d.values = (s.slice c.values).reverse

/-- Even columns are reversed where their items are. -/
theorem Even.reversed {c d : Columns κ ν} (hc : c.Even) (hd : d.Even) {s : Span}
    (h : s.slice d.items = (s.slice c.items).reverse) :
  Reversed s c d
  := by
  rw [Reversed, ← hc.map_items, ← hd.map_items, ← hc.map_snd_items, ← hd.map_snd_items,
    ← Span.map_slice, ← Span.map_slice, ← Span.map_slice, ← Span.map_slice, h, List.map_reverse,
    List.map_reverse]
  exact ⟨rfl, rfl⟩

end Columns

/-! ### Calls in either direction -/

namespace SortCall

variable {t : KeyType} {ν : Type} [Element ν] {call : SortCall}
  {operands operands' : Operands (Key t) ν}

/-- Operands of the same kind and size leave the same storage when they have got their scratch. -/
theorem exists_temporaryItems (hmode : operands'.isDoubleBuffer = operands.isDoubleBuffer)
    (hsize : operands'.size = operands.size) {c rest : Carved} {temporary : List (Key t × ν)}
    (h : temporaryItems operands c = .ok (temporary, rest)) :
  ∃ temporary', temporaryItems operands' c = .ok (temporary', rest)
  := by
  cases operands with
  | doubleBuffer current alternate =>
      cases operands' with
      | separate input output => cases hmode
      | doubleBuffer current' alternate' =>
          obtain ⟨-, rfl⟩ := Prod.mk.inj (Except.ok.inj h)
          exact ⟨[], rfl⟩
  | separate input output =>
      cases operands' with
      | doubleBuffer current' alternate' => cases hmode
      | separate input' output' =>
          simp only [temporaryItems, bind_eq_ok_iff] at h
          obtain ⟨keys, hkeys, values, hvalues, hpair⟩ := h
          obtain ⟨-, rfl⟩ := Prod.mk.inj (Except.ok.inj hpair)
          simp only [temporaryItems, hsize, hkeys, hvalues, ok_bind]
          exact ⟨_, rfl⟩

/-- A call has resolved its segments and carved its storage, and there remains some of it for the
partitioner. -/
structure Furnished (call : SortCall) (operands : Operands (Key t) ν) (plan : Plan)
    (memory : Memory) (rest : Carved) : Prop where
  planned : call.plan operands = .ok plan
  storage : call.storage = some memory
  count : call.segments.count ≠ 0
  resolved : ∃ map, call.segments.resolve operands.size = .ok map
  carved : ∃ carved temporary, plan.layout.carve memory = .ok carved
    ∧ temporaryItems operands carved = .ok (temporary, rest)

namespace Furnished

variable {plan : Plan} {memory : Memory} {rest : Carved}

/-- So is a call in another direction, and with other operands. -/
theorem toward (h : call.Furnished operands plan memory rest) {direction : Direction}
    (hmode : operands'.isDoubleBuffer = operands.isDoubleBuffer)
    (hsize : operands'.size = operands.size)
    (hplan : (call.toward direction).plan operands' = .ok plan) :
  (call.toward direction).Furnished operands' plan memory rest
  := by
  obtain ⟨-, hstorage, hcount, ⟨map, hmap⟩, carved, temporary, hcarved, htemporary⟩ := h
  obtain ⟨temporary', htemporary'⟩ := exists_temporaryItems hmode hsize htemporary
  refine ⟨hplan, hstorage, hcount, ⟨map, ?_⟩, carved, temporary', hcarved, htemporary'⟩
  rw [hsize]
  apply hmap

/-- Where all segments take the same route, nothing more can fail. -/
theorem run_ok_of_uniform (h : call.Furnished operands plan memory rest)
    (hclassifier : plan.classifier = none) :
  (call.run operands).trace.result.map (fun _ => ()) = .ok ()
  := by
  obtain ⟨hplan, hstorage, hcount, ⟨map, hmap⟩, carved, temporary, hcarved, htemporary⟩ := h
  have hviews := views?_of_temporaryItems (planned_of_plan hplan).lengths htemporary
    (Segments.resolve_eq_ok_iff.mp hmap).2.2
  have hprepare : (call.prepare plan operands memory).result
      = .ok (map, .uniform (map.spans.map (operands.view temporary))) := by
    simp only [result_prepare, hmap, hcarved, htemporary, hviews, hclassifier, reported_ok,
      defined_some, ok_bind]
    rfl
  rw [result_run_of_uniform hplan hstorage hcount hprepare]
  rfl

/-- Where there is a classifier, the partitioner is asked with what remains. -/
theorem consult (h : call.Furnished operands plan memory rest) {classifier : Classifier}
    (hclassifier : plan.classifier = some classifier)
    {request : PartitionRequest call.segments.count}
    (hrequest : call.request classifier rest = .ok request) :
  call.consult operands = .ok (some (classifier, request))
  := by
  obtain ⟨hplan, hstorage, hcount, ⟨map, hmap⟩, carved, temporary, hcarved, htemporary⟩ := h
  apply consult_eq_ok hplan hstorage hcount hclassifier hmap hcarved htemporary hrequest

end Furnished

/-- A call with storage and segments that succeeds is furnished with all it needs. -/
theorem exists_furnished {plan : Plan} (hplan : call.plan operands = .ok plan) {memory : Memory}
    (hstorage : call.storage = some memory) (hcount : call.segments.count ≠ 0)
    (h : (call.run operands).trace.result.map (fun _ => ()) = .ok ()) :
  ∃ rest, call.Furnished operands plan memory rest
    ∧ ∀ classifier, plan.classifier = some classifier →
      ∃ request, call.request classifier rest = .ok request
  := by
  cases hprepare : (call.prepare plan operands memory).result with
  | error e =>
      rw [run_eq_execute hplan hstorage hcount, (execute_of_error hprepare).2] at h
      cases h
  | ok prepared =>
      simp only [result_prepare, bind_eq_ok_iff, reported_eq_ok_iff, defined_eq_ok_iff] at hprepare
      obtain ⟨map, hmap, carved, hcarved, ⟨temporary, rest⟩, htemporary, views, -, hwork⟩ :=
        hprepare
      use rest, ⟨hplan, hstorage, hcount, ⟨map, hmap⟩, carved, temporary, hcarved, htemporary⟩
      intro classifier hclassifier
      rw [hclassifier] at hwork
      simp only [bind_eq_ok_iff, reported_eq_ok_iff] at hwork
      obtain ⟨request, hrequest, -⟩ := hwork
      exact ⟨request, hrequest⟩

/-- A sort that succeeds with the reply of its partitioner also does so in the other direction, and
with other operands, if it asks the same. -/
theorem run_of_same_consult {direction : Direction} {classifier : Classifier}
    {request : PartitionRequest call.segments.count}
    (hconsult : call.consult operands = .ok (some (classifier, request)))
    (hconsult' : (call.toward direction).consult operands' = .ok (some (classifier, request)))
    (h : (call.run operands).trace.result.map (fun _ => ()) = .ok ()) :
  ((call.toward direction).run operands').trace.result.map (fun _ => ()) = .ok ()
  := by
  rcases run_of_consult hconsult rfl with ⟨e, -, -, herror⟩ |
    ⟨hvalid, ⟨hfits, -⟩ | ⟨length, -, -, herror⟩⟩
  · rw [herror] at h
    cases h
  · rcases run_of_consult hconsult' rfl with ⟨e, hrefused, -⟩ |
      ⟨-, ⟨-, hok⟩ | ⟨length, hsmall, hlong, -⟩⟩
    · cases hrefused.not_valid hvalid
    · apply hok
    · have hle := hfits length hsmall
      omega
  · rw [herror] at h
    cases h

/-- A sort that succeeds also does so in the other direction, and with any operands of the same kind
and size. -/
theorem run_toward_of_ok (direction : Direction)
    (hmode : operands'.isDoubleBuffer = operands.isDoubleBuffer)
    (hsize : operands'.size = operands.size)
    (hlengths : operands'.checkLengths = operands.checkLengths)
    (h : (call.run operands).trace.result.map (fun _ => ()) = .ok ()) :
  ((call.toward direction).run operands').trace.result.map (fun _ => ()) = .ok ()
  := by
  obtain ⟨plan, hplan⟩ := exists_plan_of_ok h
  have hplan' : (call.toward direction).plan operands' = .ok plan := by
    rw [← hplan]
    apply call.plan_rerun call.storage call.options.debug direction hmode hsize hlengths
  cases hstorage : call.storage with
  | none =>
      rw [run_of_no_storage hplan' hstorage]
      rfl
  | some memory =>
      by_cases hcount : call.segments.count = 0
      · rw [run_of_no_segments hplan' hstorage hcount]
        rfl
      · obtain ⟨rest, hfurnished, hrequests⟩ := exists_furnished hplan hstorage hcount h
        have hfurnished' := hfurnished.toward hmode hsize hplan'
        cases hclassifier : plan.classifier with
        | none => apply hfurnished'.run_ok_of_uniform hclassifier
        | some classifier =>
            obtain ⟨request, hrequest⟩ := hrequests classifier hclassifier
            have hconsult := hfurnished.consult hclassifier hrequest
            have hconsult' := hfurnished'.consult hclassifier hrequest
            apply run_of_same_consult hconsult hconsult' h

/-- Whether a sort succeeds depends neither on the direction nor on the keys and values. -/
theorem run_toward_ok_iff (call : SortCall) (direction : Direction)
    {operands operands' : Operands (Key t) ν}
    (hmode : operands'.isDoubleBuffer = operands.isDoubleBuffer)
    (hsize : operands'.size = operands.size) (hlengths : operands'.lengths = operands.lengths) :
  ((call.toward direction).run operands').trace.result.map (fun _ => ()) = .ok ()
    ↔ (call.run operands).trace.result.map (fun _ => ()) = .ok ()
  := by
  have hchecks := Operands.checkLengths_congr hsize hlengths
  constructor
  · apply run_toward_of_ok call.direction hmode.symm hsize.symm hchecks.symm
  · apply run_toward_of_ok direction hmode hsize hchecks

/-- The number by which a descending sort orders a key and the one by which an ascending sort does
add up to the greatest number of as many bits. -/
theorem rank_descending_add_ascending {b e : Nat} (hbits : call.options.bitRange t = .ok (b, e))
    (k : Key t) :
  (call.toward .descending).rank k + (call.toward .ascending).rank k = 2 ^ (e - b) - 1
  := by
  obtain ⟨rfl, rfl, -, hle⟩ := SortOptions.bitRange_eq_ok hbits
  apply masked_complement k.code_lt (hle.trans t.bits_le)

/-- No two keys of a segment agree on the selected bits. -/
def Distinct (call : SortCall) (keys : List (Key t)) (s : Span) : Prop :=
  ((s.slice keys).map (call.toward .ascending).rank).Nodup

/-- What a descending sort makes of a segment is the reverse of what an ascending sort makes of the
flipped segment; and of what it makes of the segment itself, if no two keys agree. -/
theorem mirror_of_sortedIn (call : SortCall) {α : Type} (key : α → Key t) {b e : Nat}
    (hbits : call.options.bitRange t = .ok (b, e)) {before down flipped up : List α}
    (hfits : SegmentMap.Fits ⟨call.segments.spans⟩ before.length)
    (hdown : call.segments.SortedIn (fun a => (call.toward .descending).rank (key a)) before down)
    (hflipped : call.segments.SortedIn (fun a => (call.toward .ascending).rank (key a))
      (flipSpans call.segments.spans before) flipped)
    (hup : call.segments.SortedIn (fun a => (call.toward .ascending).rank (key a)) before up) :
  ∀ s ∈ call.segments.spans, s.slice down = (s.slice flipped).reverse
    ∧ (call.Distinct (before.map key) s → s.slice down = (s.slice up).reverse)
  := by
  intro s hs
  have hmirror := stableSort_mirror
    (fun a => rank_descending_add_ascending hbits (key a)) (s.slice before)
  rw [hdown.slice s hs, hmirror, hflipped.slice s hs, hup.slice s hs,
    (slice_flipSpans _ before hfits).2 s hs]
  use rfl
  intro hdistinct
  rw [Distinct, ← Span.map_slice, List.map_map] at hdistinct
  exact congrArg List.reverse (stableSort_reverse hdistinct)

omit [Element ν] in
/-- The same for keys with their values. -/
theorem reversed_of_sortedIn (call : SortCall) {b e : Nat}
    (hbits : call.options.bitRange t = .ok (b, e))
    {before down flipped up : Columns (Key t) ν} (hbefore : before.Even) (hdown : down.Even)
    (hflipped : flipped.Even) (hup : up.Even)
    (hfits : SegmentMap.Fits ⟨call.segments.spans⟩ before.keys.length)
    (hdownSorted : call.segments.SortedIn (fun a => (call.toward .descending).rank a.1)
      before.items down.items)
    (hflippedSorted : call.segments.SortedIn (fun a => (call.toward .ascending).rank a.1)
      (before.flip call.segments.spans).items flipped.items)
    (hupSorted : call.segments.SortedIn (fun a => (call.toward .ascending).rank a.1)
      before.items up.items) :
  ∀ s ∈ call.segments.spans, Columns.Reversed s flipped down
    ∧ (call.Distinct before.keys s → Columns.Reversed s up down)
  := by
  intro s hs
  rw [hbefore.items_flip] at hflippedSorted
  rw [← hbefore.length_items] at hfits
  obtain ⟨hreversed, hdistinct⟩ :=
    call.mirror_of_sortedIn Prod.fst hbits hfits hdownSorted hflippedSorted hupSorted s hs
  rw [hbefore.map_items] at hdistinct
  exact ⟨hflipped.reversed hdown hreversed, fun h => hup.reversed hdown (hdistinct h)⟩

end SortCall

/-- A descending sort mirrors an ascending one of flipped segments, and one of the segments as they
are where all keys are distinct. -/
structure Mirrors {β : Type} (call : SortCall) (reversed : Span → β → β → Prop)
    (distinct : Span → Prop) (down flipped up : SortOutcome β) : Prop where
  /-- The three sorts succeed or fail together. -/
  flipped_ok_iff : flipped.result = .ok () ↔ down.result = .ok ()
  up_ok_iff : up.result = .ok () ↔ down.result = .ok ()
  /-- In every segment, the one leaves the reverse of what the other leaves. -/
  reversed : call.storage ≠ none → down.result = .ok () → ∀ s ∈ call.segments.spans,
    reversed s flipped.buffers down.buffers ∧ (distinct s → reversed s up.buffers down.buffers)

section

variable {t : KeyType} {ν : Type} [Element ν] (call : SortCall)

/-! ### Sorts with a separate output -/

theorem mirrors_sortPairs (input output : Columns (Key t) ν) :
  Mirrors call Columns.Reversed (call.Distinct input.keys)
    (sortPairs (call.toward .descending) input output)
    (sortPairs (call.toward .ascending) (input.flip call.segments.spans) output)
    (sortPairs (call.toward .ascending) input output)
  := by
  have hflippedIff :
      (sortPairs (call.toward .ascending) (input.flip call.segments.spans) output).result = .ok ()
        ↔ (sortPairs (call.toward .descending) input output).result = .ok () := by
    apply (call.toward .descending).run_toward_ok_iff .ascending
    · rfl
    · apply length_flipSpans
    · rw [Operands.lengths, Columns.flip, length_flipSpans]
      rfl
  have hupIff : (sortPairs (call.toward .ascending) input output).result = .ok ()
      ↔ (sortPairs (call.toward .descending) input output).result = .ok () := by
    apply (call.toward .descending).run_toward_ok_iff .ascending rfl rfl rfl
  refine ⟨hflippedIff, hupIff, ?_⟩
  intro hstorage hdown
  have hflipped := hflippedIff.mpr hdown
  have hup := hupIff.mpr hdown
  have hascending : (call.toward .ascending).storage ≠ none := hstorage
  have hdescending : (call.toward .descending).storage ≠ none := hstorage
  obtain ⟨plan, hplan⟩ := SortCall.exists_plan_of_ok hdown
  have hplanned := SortCall.planned_of_plan hplan
  apply call.reversed_of_sortedIn hplanned.bits
    (Operands.checkLengths_separate_iff.mp hplanned.lengths).1 (even_sortPairs hdown)
    (even_sortPairs hflipped) (even_sortPairs hup) (SortCall.fits_of_ok hdescending hdown)
    (sortPairs_ok hdescending hdown).1 (sortPairs_ok hascending hflipped).1
    (sortPairs_ok hascending hup).1

theorem mirrors_sortKeys (input output : List (Key t)) :
  Mirrors call (fun s l l' => s.slice l' = (s.slice l).reverse) (call.Distinct input)
    (sortKeys (call.toward .descending) input output)
    (sortKeys (call.toward .ascending) (flipSpans call.segments.spans input) output)
    (sortKeys (call.toward .ascending) input output)
  := by
  have hlength := length_flipSpans call.segments.spans input
  have hflippedIff :
      (sortKeys (call.toward .ascending) (flipSpans call.segments.spans input) output).result
          = .ok ()
        ↔ (sortKeys (call.toward .descending) input output).result = .ok () := by
    apply (call.toward .descending).run_toward_ok_iff .ascending
    · rfl
    · apply hlength
    · rw [Operands.lengths, hlength]
      rfl
  have hupIff : (sortKeys (call.toward .ascending) input output).result = .ok ()
      ↔ (sortKeys (call.toward .descending) input output).result = .ok () := by
    apply (call.toward .descending).run_toward_ok_iff .ascending rfl rfl rfl
  refine ⟨hflippedIff, hupIff, ?_⟩
  intro hstorage hdown
  have hascending : (call.toward .ascending).storage ≠ none := hstorage
  have hdescending : (call.toward .descending).storage ≠ none := hstorage
  obtain ⟨plan, hplan⟩ := SortCall.exists_plan_of_ok hdown
  have hmirror := call.mirror_of_sortedIn id (SortCall.planned_of_plan hplan).bits
    (SortCall.fits_of_ok hdescending hdown) (sortKeys_ok hdescending hdown)
    (sortKeys_ok hascending (hflippedIff.mpr hdown)) (sortKeys_ok hascending (hupIff.mpr hdown))
  rwa [List.map_id] at hmirror

/-! ### Sorts of double buffers -/

namespace DoubleBuffer

/-- A buffer of which the current list has the items of each one of some spans in the opposite
order. -/
def flip {α : Type} (spans : List Span) (b : DoubleBuffer α) : DoubleBuffer α :=
  b.withContents (flipSpans spans b.current) b.alternate

@[simp]
theorem current_flip {α : Type} (spans : List Span) (b : DoubleBuffer α) :
  (b.flip spans).current = flipSpans spans b.current
  := current_withContents _ _ _

@[simp]
theorem alternate_flip {α : Type} (spans : List Span) (b : DoubleBuffer α) :
  (b.flip spans).alternate = b.alternate
  := alternate_withContents _ _ _

omit [Element ν] in
theorem currentColumns_flip (spans : List Span) (keys : DoubleBuffer (Key t))
    (values : DoubleBuffer ν) :
  currentColumns (keys.flip spans, values.flip spans) = (currentColumns (keys, values)).flip spans
  := by
  rw [currentColumns, current_flip, current_flip]
  rfl

theorem units_flip {κ : Type} (spans : List Span) (b : DoubleBuffer κ) :
  (b.flip spans).units = b.units
  := by
  rw [units, size, current_flip, length_flipSpans]
  rfl

/-- A sort of a flipped buffer succeeds if one of the buffer as it is does. -/
theorem flip_ok_iff (spans : List Span) (keys : DoubleBuffer (Key t))
    {values values' : DoubleBuffer ν} (hcurrent : values'.current.length = values.current.length)
    (halternate : values'.alternate.length = values.alternate.length) :
  (sortPairs (call.toward .ascending) (keys.flip spans) values').result = .ok ()
    ↔ (sortPairs (call.toward .descending) keys values).result = .ok ()
  := by
  rw [result_sortPairs, result_sortPairs]
  apply (call.toward .descending).run_toward_ok_iff .ascending
  · rfl
  · rw [operands, Operands.size, current_flip, length_flipSpans]
    rfl
  · rw [operands, operands, Operands.lengths, Operands.lengths, alternate_flip, hcurrent,
      halternate]

theorem mirrors_sortPairs (keys : DoubleBuffer (Key t)) (values : DoubleBuffer ν) :
  Mirrors call (fun s b b' => Columns.Reversed s (currentColumns b) (currentColumns b'))
    (call.Distinct keys.current)
    (sortPairs (call.toward .descending) keys values)
    (sortPairs (call.toward .ascending) (keys.flip call.segments.spans)
      (values.flip call.segments.spans))
    (sortPairs (call.toward .ascending) keys values)
  := by
  have hflippedIff :
      (sortPairs (call.toward .ascending) (keys.flip call.segments.spans)
          (values.flip call.segments.spans)).result = .ok ()
        ↔ (sortPairs (call.toward .descending) keys values).result = .ok () := by
    apply flip_ok_iff
    · rw [current_flip, length_flipSpans]
    · rw [alternate_flip]
  have hupIff : (sortPairs (call.toward .ascending) keys values).result = .ok ()
      ↔ (sortPairs (call.toward .descending) keys values).result = .ok () := by
    apply (call.toward .descending).run_toward_ok_iff .ascending rfl rfl rfl
  refine ⟨hflippedIff, hupIff, ?_⟩
  intro hstorage hdown
  have hflipped := hflippedIff.mpr hdown
  have hup := hupIff.mpr hdown
  have hascending : (call.toward .ascending).storage ≠ none := hstorage
  have hdescending : (call.toward .descending).storage ≠ none := hstorage
  obtain ⟨plan, hplan⟩ := SortCall.exists_plan_of_ok hdown
  have hplanned := SortCall.planned_of_plan hplan
  have hdownSorted := sortedIn_sortPairs hdescending hdown
  have hflippedSorted := sortedIn_sortPairs hascending hflipped
  have hupSorted := sortedIn_sortPairs hascending hup
  rw [currentColumns_flip] at hflippedSorted
  have heven : (currentColumns (keys, values)).Even :=
    (Operands.checkLengths_eq_ok_iff.mp hplanned.lengths .primary).2
  have hfits : SegmentMap.Fits ⟨call.segments.spans⟩ (currentColumns (keys, values)).keys.length :=
    SortCall.fits_of_ok hdescending hdown
  exact call.reversed_of_sortedIn hplanned.bits heven (even_sortPairs hdown)
    (even_sortPairs hflipped) (even_sortPairs hup) hfits hdownSorted hflippedSorted hupSorted

theorem mirrors_sortKeys (keys : DoubleBuffer (Key t)) :
  Mirrors call (fun s b b' => s.slice b'.current = (s.slice b.current).reverse)
    (call.Distinct keys.current)
    (sortKeys (call.toward .descending) keys)
    (sortKeys (call.toward .ascending) (keys.flip call.segments.spans))
    (sortKeys (call.toward .ascending) keys)
  := by
  have hflippedIff :
      (sortKeys (call.toward .ascending) (keys.flip call.segments.spans)).result = .ok ()
        ↔ (sortKeys (call.toward .descending) keys).result = .ok () := by
    rw [(sortKeys_eq _ _).1, (sortKeys_eq _ _).1, units_flip]
    apply flip_ok_iff call call.segments.spans keys rfl rfl
  have hupIff : (sortKeys (call.toward .ascending) keys).result = .ok ()
      ↔ (sortKeys (call.toward .descending) keys).result = .ok () := by
    apply (call.toward .descending).run_toward_ok_iff .ascending rfl rfl rfl
  refine ⟨hflippedIff, hupIff, ?_⟩
  intro hstorage hdown
  have hascending : (call.toward .ascending).storage ≠ none := hstorage
  have hdescending : (call.toward .descending).storage ≠ none := hstorage
  obtain ⟨plan, hplan⟩ := SortCall.exists_plan_of_ok hdown
  have hsorted := sortedIn_sortKeys hascending (hflippedIff.mpr hdown)
  rw [current_flip] at hsorted
  have hmirror := call.mirror_of_sortedIn id (SortCall.planned_of_plan hplan).bits
    (SortCall.fits_of_ok hdescending hdown) (sortedIn_sortKeys hdescending hdown) hsorted
    (sortedIn_sortKeys hascending (hupIff.mpr hdown))
  rwa [List.map_id] at hmirror

end DoubleBuffer

end

open DoubleBuffer (currentColumns)

/-- A descending sort leaves in every segment the reverse of what an ascending one makes of the keys
and values with that segment flipped; and where no two keys of a segment agree on the selected bits,
also the reverse of what an ascending one makes of the keys and values themselves.  This holds of
all four sorts, and the one succeeds if the others do. -/
theorem descending_mirrors_ascending (t : KeyType) (ν : Type) [Element ν] (call : SortCall) :
  (∀ input output : Columns (Key t) ν,
    Mirrors call Columns.Reversed (call.Distinct input.keys)
      (sortPairs (call.toward .descending) input output)
      (sortPairs (call.toward .ascending) (input.flip call.segments.spans) output)
      (sortPairs (call.toward .ascending) input output))
  ∧ (∀ input output : List (Key t),
    Mirrors call (fun s l l' => s.slice l' = (s.slice l).reverse) (call.Distinct input)
      (sortKeys (call.toward .descending) input output)
      (sortKeys (call.toward .ascending) (flipSpans call.segments.spans input) output)
      (sortKeys (call.toward .ascending) input output))
  ∧ (∀ (keys : DoubleBuffer (Key t)) (values : DoubleBuffer ν),
    Mirrors call (fun s b b' => Columns.Reversed s (currentColumns b) (currentColumns b'))
      (call.Distinct keys.current)
      (DoubleBuffer.sortPairs (call.toward .descending) keys values)
      (DoubleBuffer.sortPairs (call.toward .ascending) (keys.flip call.segments.spans)
        (values.flip call.segments.spans))
      (DoubleBuffer.sortPairs (call.toward .ascending) keys values))
  ∧ ∀ keys : DoubleBuffer (Key t),
    Mirrors call (fun s b b' => s.slice b'.current = (s.slice b.current).reverse)
      (call.Distinct keys.current)
      (DoubleBuffer.sortKeys (call.toward .descending) keys)
      (DoubleBuffer.sortKeys (call.toward .ascending) (keys.flip call.segments.spans))
      (DoubleBuffer.sortKeys (call.toward .ascending) keys)
  :=
  ⟨mirrors_sortPairs call, mirrors_sortKeys call, DoubleBuffer.mirrors_sortPairs call,
    DoubleBuffer.mirrors_sortKeys call⟩

set_option maxRecDepth 20000 in
/-- In the sample, the second segment has distinct keys, although the first one has not. -/
theorem mirrors_sample :
  (sortPairs SortCall.sample Columns.sample Columns.sample).result = .ok ()
    ∧ Columns.Reversed ⟨0, 3⟩
      (sortPairs (SortCall.sample.toward .ascending)
        (Columns.sample.flip SortCall.sample.segments.spans) Columns.sample).buffers
      (sortPairs SortCall.sample Columns.sample Columns.sample).buffers
    ∧ Columns.Reversed ⟨3, 5⟩
      (sortPairs (SortCall.sample.toward .ascending) Columns.sample Columns.sample).buffers
      (sortPairs SortCall.sample Columns.sample Columns.sample).buffers
  := by
  have hok : (sortPairs SortCall.sample Columns.sample Columns.sample).result = .ok () := by
    cbv
  have hstorage : SortCall.sample.storage ≠ none := by rintro ⟨⟩
  have hmirrors := (descending_mirrors_ascending (.unsigned .w8) UInt8 SortCall.sample).1
    Columns.sample Columns.sample
  have hspans : SortCall.sample.segments.spans = [⟨0, 3⟩, ⟨3, 5⟩] := rfl
  have hreversed := hmirrors.reversed hstorage hok
  rw [hspans] at hreversed
  refine ⟨hok, (hreversed ⟨0, 3⟩ (by simp)).1, (hreversed ⟨3, 5⟩ (by simp)).2 ?_⟩
  rw [SortCall.Distinct]
  decide

end SegmentSort
