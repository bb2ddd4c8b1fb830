import SegmentSort.Proofs.Schedule
import SegmentSort.Proofs.Segments
import SegmentSort.Proofs.Storage
import SegmentSort.Sort.Plan

/-!
# What a plan says

A call that is planned has passed all checks (`SortCall.Planned`).  In particular its bits
are those that the options ask for, there is at least one of them, and the passes of its
schedule tile them; their number depends on the bits and on the width of long digits only.

There is a plan for every call that is `Admissible`.  Plans do not bound the sizes of storage;
whether these fit 64 bits is said by `Addressable`, where it matters.
-/

namespace SegmentSort

/-- The bits of a sort are those that are asked for. -/
theorem SortOptions.bitRange_eq_ok {o : SortOptions} {t : KeyType} {b e : Nat}
    (h : o.bitRange t = .ok (b, e)) :
  b = o.beginBit ∧ e = o.endBit.getD t.bits ∧ b < e ∧ e ≤ t.bits
  := by
  rw [bitRange] at h
  split at h
  · cases h
  · rename_i hrange
    split at h
    · cases h
    · obtain ⟨rfl, rfl⟩ := Prod.mk.inj (Except.ok.inj h)
      exact ⟨rfl, rfl, by omega, by omega⟩

/-- The digits of a valid configuration. -/
theorem Config.digits_of_validate {c : Config} (h : c.validate = .ok ()) :
  0 < c.longBits ∧ c.longBits ≤ maxDigitBits ∧ 0 < c.shortBits ∧ c.shortBits ≤ c.longBits
  := by
  rw [validate] at h
  split at h
  · cases h
  · split at h
    · cases h
    · omega

/-- Segments are classified only if their number fits a word. -/
theorem Config.lt_wordBound_of_classifier? {c : Config} {segments : Nat} {classifier : Classifier}
    (h : c.classifier? segments = .ok (some classifier)) :
  segments < wordBound
  := by
  rw [classifier?] at h
  split at h
  · cases h
  · obtain ⟨capacity, -, h⟩ := bind_eq_ok_iff.mp h
    have hsome := Except.ok.inj h
    split at hsome
    · rename_i hworthwhile
      rw [WarpSort.isWorthwhile, decide_eq_true_iff] at hworthwhile
      apply hworthwhile.2
    · cases hsome

namespace SortCall

variable {t : KeyType} {ν : Type} [Element ν]

/-- What a plan owes to its call. -/
structure Planned (call : SortCall) (operands : Operands (Key t) ν) (plan : Plan) : Prop where
  config : call.config? (Key t) ν = some plan.config
  valid : plan.config.validate = .ok ()
  bits : call.options.bitRange t = .ok (plan.beginBit, plan.endBit)
  lengths : operands.checkLengths = .ok ()
  schedule : Schedule.new? plan.beginBit plan.endBit plan.config.longBits plan.config.shortBits
    = some plan.schedule
  placement : plan.placement = .ofCount plan.schedule.count operands.isDoubleBuffer
  classifier : plan.config.classifier? call.segments.count = .ok plan.classifier
  partitioner : plan.partitioner = call.partitioner

variable {call : SortCall} {operands : Operands (Key t) ν} {plan : Plan}

theorem planned_of_plan (h : call.plan operands = .ok plan) :
  call.Planned operands plan
  := by
  simp only [SortCall.plan, bind_eq_ok_iff, defined_eq_ok_iff, reported_eq_ok_iff] at h
  obtain ⟨config, hconfig, ⟨⟩, hvalid, ⟨b, e⟩, hbits, ⟨⟩, hlengths, schedule, hschedule,
    classifier, hclassifier, bytes, -, hplan⟩ := h
  obtain rfl := Except.ok.inj hplan
  exact ⟨hconfig, hvalid, hbits, hlengths, hschedule, rfl, hclassifier, rfl⟩

/-- The layout of a plan is that of its call. -/
theorem layout_of_plan (h : call.plan operands = .ok plan) :
  ∃ bytes, call.partitionBytes plan.classifier = .ok bytes
    ∧ plan.layout = .ofRequest (call.storageRequest operands bytes)
  := by
  simp only [SortCall.plan, bind_eq_ok_iff, reported_eq_ok_iff] at h
  obtain ⟨config, -, ⟨⟩, -, ⟨b, e⟩, -, ⟨⟩, -, schedule, -, classifier, -, bytes, hbytes, hplan⟩ := h
  obtain rfl := Except.ok.inj hplan
  exact ⟨bytes, hbytes, rfl⟩

namespace Planned

theorem beginBit_lt_endBit (h : call.Planned operands plan) :
  plan.beginBit < plan.endBit
  := (SortOptions.bitRange_eq_ok h.bits).2.2.1

theorem tiles (h : call.Planned operands plan) :
  Pass.Tiles plan.beginBit plan.schedule.passes plan.endBit
  := Schedule.tiles_passes h.beginBit_lt_endBit h.schedule

/-- If its segments are classified, their number fits a word. -/
theorem lt_wordBound (h : call.Planned operands plan) {classifier : Classifier}
    (hclassifier : plan.classifier = some classifier) :
  call.segments.count < wordBound
  := by
  apply Config.lt_wordBound_of_classifier?
  rw [h.classifier, hclassifier]

/-- The number of passes. -/
theorem count_eq_ceilDiv (h : call.Planned operands plan) :
  plan.schedule.count = ceilDiv (plan.endBit - plan.beginBit) plan.config.longBits
  := Schedule.count_eq_ceilDiv h.schedule

end Planned

/-- A configuration for a call is valid, and so are the bits and the lengths of the operands. -/
structure Checked (call : SortCall) (operands : Operands (Key t) ν) (config : Config) : Prop where
  chosen : call.config? (Key t) ν = some config
  valid : config.validate = .ok ()
  bits : ∃ range, call.options.bitRange t = .ok range
  lengths : operands.checkLengths = .ok ()

/-- Moreover, the capacity of a logical warp fits a word, and if the segments are to be
classified, the partitioner tells how many bytes it needs. -/
structure Admissible (call : SortCall) (operands : Operands (Key t) ν) (config : Config) : Prop
    extends call.Checked operands config where
  capacity : ∀ route ∈ config.warpSort, route.warpSize * route.itemsPerThread < wordBound
  bytes : ∀ route ∈ config.warpSort, route.isWorthwhile call.segments.count = true →
    ∃ bytes, call.partitioner.storageSize call.segments.count = .ok bytes

/-- There is a plan for an admissible call. -/
theorem Admissible.exists_plan {config : Config} (h : call.Admissible operands config) :
  ∃ plan, call.plan operands = .ok plan
  := by
  obtain ⟨⟨b, e⟩, hbits⟩ := h.bits
  obtain ⟨-, -, hlt, hle⟩ := SortOptions.bitRange_eq_ok hbits
  obtain ⟨hlong, hmax, -, hshort⟩ := Config.digits_of_validate h.valid
  have hword : e - b + config.longBits ≤ wordBound := by
    have hkey := t.bits_le
    rw [maxDigitBits] at hmax
    rw [wordBound, UInt32.size]
    omega
  obtain ⟨schedule, hschedule⟩ := Schedule.exists_new?_eq_some hlt hlong hshort hword
  have hclassifier : ∃ classifier bytes,
      config.classifier? call.segments.count = .ok classifier
        ∧ call.partitionBytes classifier = .ok bytes := by
    rw [Config.classifier?]
    cases hroute : config.warpSort with
    | none => exact ⟨none, none, rfl, rfl⟩
    | some route =>
        have hcapacity : route.capacity? = some (route.warpSize * route.itemsPerThread) :=
          inWord?_eq_some_iff.mpr ⟨h.capacity route hroute, rfl⟩
        dsimp only
        rw [hcapacity, defined_some, ok_bind]
        cases hworthwhile : route.isWorthwhile call.segments.count with
        | false => exact ⟨none, none, rfl, rfl⟩
        | true =>
            obtain ⟨bytes, hbytes⟩ := h.bytes route hroute hworthwhile
            refine ⟨some ⟨route, _⟩, some bytes, rfl, ?_⟩
            rw [partitionBytes, hbytes]
            rfl
  obtain ⟨classifier, bytes, hclassifier, hbytes⟩ := hclassifier
  simp only [SortCall.plan, h.chosen, h.valid, hbits, h.lengths, hschedule, hclassifier, hbytes,
    defined_some, reported_ok, ok_bind]
  exact ⟨_, rfl⟩

/-- No size overflows where the storage of a call is laid out in 64 bits. -/
def Addressable (call : SortCall) (operands : Operands (Key t) ν) (config : Config) : Prop :=
  ∀ classifier bytes, config.classifier? call.segments.count = .ok classifier →
    call.partitionBytes classifier = .ok bytes →
    ∃ layout, Layout.ofRequest? (call.storageRequest operands bytes) = some layout

/-- It comes down to the layout of the plan. -/
theorem addressable_iff (h : call.plan operands = .ok plan) :
  call.Addressable operands plan.config ↔ plan.layout.total < sizeBound
  := by
  obtain ⟨bytes, hbytes, hlayout⟩ := layout_of_plan h
  have hclassifier := (planned_of_plan h).classifier
  rw [hlayout]
  constructor
  · intro haddressable
    obtain ⟨layout, hlayout⟩ := haddressable _ _ hclassifier hbytes
    apply (Layout.ofRequest?_eq_some_iff.mp hlayout).1
  · intro htotal classifier bytes' hclassifier' hbytes'
    obtain rfl := Except.ok.inj (hclassifier.symm.trans hclassifier')
    obtain rfl := Except.ok.inj (hbytes.symm.trans hbytes')
    exact ⟨_, Layout.ofRequest?_eq_some_iff.mpr ⟨htotal, rfl⟩⟩

end SortCall

end SegmentSort
