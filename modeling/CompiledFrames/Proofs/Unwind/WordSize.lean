import CompiledFrames.Proofs.Unwind.Progress

/-!
# Frames and the size of a word

How large a frame is follows from the shape of compiled code, whose words have eight bytes. Where the
return address lies in the frame follows from the calling convention, which has a word size of its
own. Nothing ties the two together. With the word size of riscv64 the slot of the return address is
the last word of the frame; with another one the unwinder reads some other word, inside the frame or
beyond its end, and the saved frame pointer is not the one behind that word. The distance of the slot
is a checked product, so a word size that is large enough stops the computation.

## Main definitions

* `Unwinder.slotDistance`: the bytes between the address of a frame and its return address
* `Unwinder.unwoundFrom`: a frame with its return address, as reported under any convention

## Main results

* `Unwinder.step_of_allocated`, `Unwinder.step_of_overflow`: the step of an allocated frame under any
  convention
* `Unwinder.returnSlot_ends_frame_iff`: when the return address is the last word of the frame, and
  when its distance overflows
-/

namespace CompiledFrames

namespace Unwinder

variable {u : Unwinder} {m : CompiledMethod} {frame : LiveFrame} {pc framePointer : Address}
  {unwound : UnwoundFrame}

/-! ## Frames under any convention -/

/-- The bytes between the address of a frame of a method and the slot of its return address. -/
def slotDistance (u : Unwinder) (m : CompiledMethod) : Nat :=
  m.metadata.frameSlots.toNat * u.convention.wordSize.toNat

/-- The frame of `m` at `cfa` with this return address, as it is reported. -/
def unwoundFrom (u : Unwinder) (m : CompiledMethod) (pc cfa returnAddress : Address)
    (stackPointer : UInt64) : UnwoundFrame :=
  ({ cfa, pc } : UnwoundFrame)
    |>.save u.convention.framePointer (cfa + m.frameSize).val
    |>.save u.convention.returnAddress (u.callSite returnAddress).val
    |>.save u.convention.programCounter (u.callSite returnAddress).val
    |>.save u.convention.stackPointer stackPointer

/-- Where no register has two roles, the caller has the end of the frame as its frame pointer, and
the return address or what stands for it. -/
theorem saved?_unwoundFrom (u : Unwinder) (m : CompiledMethod) (pc cfa returnAddress : Address)
    (stackPointer : UInt64)
    (hroles : [u.convention.framePointer, u.convention.returnAddress, u.convention.programCounter,
      u.convention.stackPointer].Nodup) :
    (u.unwoundFrom m pc cfa returnAddress stackPointer).saved? u.convention.framePointer =
        some (cfa + m.frameSize).val ∧
      (u.unwoundFrom m pc cfa returnAddress stackPointer).saved? u.convention.returnAddress =
        some (u.callSite returnAddress).val := by
  simp only [List.nodup_cons, List.mem_cons, List.not_mem_nil, or_false, not_or] at hroles
  obtain ⟨⟨hra, hpc, hsp⟩, ⟨hpc', hsp'⟩, -⟩ := hroles
  unfold unwoundFrom
  constructor
  · rw [UnwoundFrame.saved?_save_of_ne _ hsp, UnwoundFrame.saved?_save_of_ne _ hpc,
      UnwoundFrame.saved?_save_of_ne _ hra, UnwoundFrame.saved?_save_self]
  · rw [UnwoundFrame.saved?_save_of_ne _ hsp', UnwoundFrame.saved?_save_of_ne _ hpc',
      UnwoundFrame.saved?_save_self]

section Step

variable (hm : u.registry.lookup? pc = some m) (hpc : frame.read .pc = .ok pc.val)
  (hfp : frame.read u.convention.framePointer = .ok framePointer.val)
  (hstate : u.frameState m pc ≠ .preAlloc)
include hm hpc hfp hstate

/-- An allocated frame is located at its slot, whichever state it is in. -/
theorem step_of_fromSlot :
    u.step frame = do
      let (cfa, returnAddress) ←
        locate.fromSlot u m ((u.frameState m pc).frameAddress m framePointer)
      let stackPointer ← Checked.ofExcept (frame.read u.convention.stackPointer)
      return some (m, u.unwoundFrom m pc cfa returnAddress stackPointer) := by
  have hlocate : u.locate m frame (u.frameState m pc) framePointer =
      locate.fromSlot u m ((u.frameState m pc).frameAddress m framePointer) := by
    cases hs : u.frameState m pc with
    | preAlloc => exact absurd hs hstate
    | epilogue => rfl
    | body => rfl
  unfold step unwindMethod
  simp only [hpc, hfp, Checked.ofExcept_ok, Except.ok_bind, hm, hlocate, bind_assoc]
  rfl

/-- **An allocated frame** has its return address in the slot, if the distance of the slot fits a
machine word. -/
theorem step_of_allocated (hfits : u.slotDistance m < 0x10000000000000000) :
    u.step frame = Checked.ofExcept (do
      let cfa := (u.frameState m pc).frameAddress m framePointer
      let word ← u.memory.readU64 (cfa + u.slotDistance m)
      let stackPointer ← frame.read u.convention.stackPointer
      return some (m, u.unwoundFrom m pc cfa ⟨word⟩ stackPointer)) := by
  have hoffset : u.convention.slotOffset m.metadata.frameSlots = .ok (u.slotDistance m) :=
    if_pos hfits
  rw [step_of_fromSlot hm hpc hfp hstate, locate.fromSlot, hoffset]
  simp only [Except.mapError_ok, Except.ok_bind]
  cases u.memory.readU64
      ((u.frameState m pc).frameAddress m framePointer + u.slotDistance m) with
  | error e => rfl
  | ok word => cases frame.read u.convention.stackPointer <;> rfl

/-- **An overflow** of the distance of the slot stops the step. -/
theorem step_of_overflow (hover : 0x10000000000000000 ≤ u.slotDistance m) :
    u.step frame = .error (.trap .mulOverflow) := by
  have hoffset : u.convention.slotOffset m.metadata.frameSlots = .error .mulOverflow :=
    if_neg (Nat.not_lt.mpr hover)
  rw [step_of_fromSlot hm hpc hfp hstate, locate.fromSlot, hoffset]
  rfl

end Step

/-! ## The last word of a frame -/

/-- A slot at this distance is followed by the end of the frame just when as many words of the
convention as the frame has are as long as the frame, up to whole rounds of the address space. -/
theorem slot_add_wordSize_eq_iff (u : Unwinder) (m : CompiledMethod) (cfa : Address) :
    cfa + u.slotDistance m + u.convention.wordSize.toNat = cfa + m.frameSize ↔
      (m.metadata.frameSlots.toNat + 1) * u.convention.wordSize.toNat % 0x10000000000000000 =
        (m.metadata.frameSlots.toNat + 1) * 8 := by
  have hslots := m.metadata.frameSlots.toNat_lt
  have hsize : m.frameSize % 0x10000000000000000 = (m.metadata.frameSlots.toNat + 1) * 8 := by
    rw [m.frameSize_eq]
    omega
  rw [Address.add_add, Address.add_eq_add_iff, hsize, slotDistance,
    Nat.add_one_mul _ u.convention.wordSize.toNat]

/-- Words of less than `2 ^ 32` bytes do so only if they have eight. -/
theorem wordSize_eq_of_lt (u : Unwinder) (m : CompiledMethod)
    (hlt : u.convention.wordSize.toNat < 0x100000000) :
    (m.metadata.frameSlots.toNat + 1) * u.convention.wordSize.toNat % 0x10000000000000000 =
        (m.metadata.frameSlots.toNat + 1) * 8 ↔ u.convention.wordSize = 8 := by
  have hslots := m.metadata.frameSlots.toNat_lt
  have hproduct : (m.metadata.frameSlots.toNat + 1) * u.convention.wordSize.toNat <
      0x10000000000000000 :=
    Nat.lt_of_le_of_lt (Nat.mul_le_mul_right _ hslots) (by omega)
  rw [Nat.mod_eq_of_lt hproduct, Nat.mul_right_inj (Nat.succ_ne_zero _), ← UInt64.toNat_inj]
  rfl

/-- **The return address in its frame**, for an allocated frame under any convention. The size of the
frame never overflows. The distance of the slot does just when the step ends in a trap. Else the step
reads the return address in the slot, and the saved frame pointer is the end of the frame. The slot
is the last word before that end just when the words of the convention fill the frame, up to whole
rounds of the address space; of the word sizes below `2 ^ 32` this is true of eight bytes alone. -/
theorem returnSlot_ends_frame_iff (hm : u.registry.lookup? pc = some m)
    (hpc : frame.read .pc = .ok pc.val)
    (hfp : frame.read u.convention.framePointer = .ok framePointer.val)
    (hstate : u.frameState m pc ≠ .preAlloc) :
    m.frameSize < 0x10000000000000000 ∧
    ((∃ t, u.step frame = .error (.trap t)) ↔ 0x10000000000000000 ≤ u.slotDistance m) ∧
    ∀ unwound, u.step frame = .ok (some (m, unwound)) → ∃ word,
      unwound.cfa = (u.frameState m pc).frameAddress m framePointer ∧
      u.memory.readU64 (unwound.cfa + u.slotDistance m) = .ok word ∧
      ([u.convention.framePointer, u.convention.returnAddress, u.convention.programCounter,
          u.convention.stackPointer].Nodup →
        unwound.saved? u.convention.framePointer = some (unwound.cfa + m.frameSize).val ∧
        unwound.saved? u.convention.returnAddress = some (u.callSite ⟨word⟩).val) ∧
      (unwound.cfa + u.slotDistance m + u.convention.wordSize.toNat =
          unwound.cfa + m.frameSize ↔
        (m.metadata.frameSlots.toNat + 1) * u.convention.wordSize.toNat % 0x10000000000000000 =
          (m.metadata.frameSlots.toNat + 1) * 8) ∧
      (u.convention.wordSize.toNat < 0x100000000 →
        (unwound.cfa + u.slotDistance m + u.convention.wordSize.toNat =
          unwound.cfa + m.frameSize ↔ u.convention.wordSize = 8)) := by
  have hsize := m.frameSize_le
  refine ⟨by omega, ⟨?_, fun hover => ⟨_, step_of_overflow hm hpc hfp hstate hover⟩⟩, ?_⟩
  · rintro ⟨t, htrap⟩
    by_contra hfits
    rw [step_of_allocated hm hpc hfp hstate (Nat.not_le.mp hfits)] at htrap
    exact Checked.untrapped_ofExcept _ t htrap
  · intro unwound hstep
    rcases Nat.lt_or_ge (u.slotDistance m) 0x10000000000000000 with hfits | hover
    · rw [step_of_allocated hm hpc hfp hstate hfits] at hstep
      obtain ⟨word, hword, hstep⟩ := Except.bind_eq_ok.mp (Checked.ofExcept_eq_ok.mp hstep)
      obtain ⟨stackPointer, -, hstep⟩ := Except.bind_eq_ok.mp hstep
      obtain ⟨-, rfl⟩ := Prod.mk.inj (Option.some.inj (Except.ok.inj hstep))
      refine ⟨word, rfl, hword, u.saved?_unwoundFrom m pc _ _ _, u.slot_add_wordSize_eq_iff m _,
        fun hlt => ?_⟩
      rw [slot_add_wordSize_eq_iff, u.wordSize_eq_of_lt m hlt]
    · rw [step_of_overflow hm hpc hfp hstate hover] at hstep
      cases hstep

/-- The unwinder of the sample method with words of another size. -/
def unwinderOfWords (wordSize : UInt64) : Unwinder :=
  { sampleUnwinder with convention := { CallingConvention.riscv64 with wordSize } }

theorem read_framePointer_unwinderOfWords (wordSize : UInt64) :
    (sampleRegisters 0x4020 0x7fe0 0x1).live.read
      (unwinderOfWords wordSize).convention.framePointer = .ok (Address.mk 0x7fe0).val := rfl

theorem step_unwinderOfWords_sixteen :
    (unwinderOfWords 16).step (sampleRegisters 0x4020 0x7fe0 0x1).live =
      .ok (some (sampleMethod,
        (unwinderOfWords 16).unwoundFrom sampleMethod ⟨0x4020⟩ ⟨0x7fe0⟩ ⟨0⟩ 0x3ffff000)) := rfl

/-- With words of sixteen bytes the return address is read sixteen bytes behind the frame, and with
words of `2 ^ 63` bytes the distance of the slot overflows. -/
theorem returnSlot_ends_frame_sample :
    (∃ unwound, (unwinderOfWords 16).step (sampleRegisters 0x4020 0x7fe0 0x1).live =
        .ok (some (sampleMethod, unwound)) ∧
      unwound.saved? .s11 = some 0x8000 ∧
      unwound.cfa + (unwinderOfWords 16).slotDistance sampleMethod = ⟨0x8010⟩ ∧
      ¬ unwound.cfa + (unwinderOfWords 16).slotDistance sampleMethod + 16 =
        unwound.cfa + sampleMethod.frameSize) ∧
    ∃ t, (unwinderOfWords 0x8000000000000000).step
      (sampleRegisters 0x4020 0x7fe0 0x1).live = .error (.trap t) := by
  obtain ⟨-, -, hread⟩ := returnSlot_ends_frame_iff (m := sampleMethod) rfl rfl
    (read_framePointer_unwinderOfWords 16) (by decide)
  obtain ⟨word, -, -, hsaved, -, hwords⟩ := hread _ step_unwinderOfWords_sixteen
  obtain ⟨-, htrap, -⟩ := returnSlot_ends_frame_iff (m := sampleMethod) rfl rfl
    (read_framePointer_unwinderOfWords 0x8000000000000000) (by decide)
  refine ⟨⟨_, step_unwinderOfWords_sixteen, (hsaved (by decide)).1, rfl, ?_⟩,
    htrap.mpr (by decide)⟩
  exact fun hlast => absurd ((hwords (by decide)).mp hlast) (by decide)

/-- The return address is not always in the last word of its frame. -/
theorem not_returnSlot_ends_frame :
    ¬ ∀ (u : Unwinder) (m : CompiledMethod) (frame : LiveFrame) (pc framePointer : Address),
      u.registry.lookup? pc = some m → frame.read .pc = .ok pc.val →
      frame.read u.convention.framePointer = .ok framePointer.val →
      u.frameState m pc ≠ .preAlloc →
      (∀ t, u.step frame ≠ .error (.trap t)) ∧
      ∀ unwound, u.step frame = .ok (some (m, unwound)) →
        unwound.cfa + u.slotDistance m + u.convention.wordSize.toNat =
          unwound.cfa + m.frameSize := by
  intro h
  obtain ⟨-, hlast⟩ := h (unwinderOfWords 16) sampleMethod _ ⟨0x4020⟩ _ rfl rfl
    (read_framePointer_unwinderOfWords 16) (by decide)
  exact absurd (hlast _ step_unwinderOfWords_sixteen) (by decide)

end Unwinder

end CompiledFrames
