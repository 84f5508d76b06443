import CompiledFrames.Unwind.Unwinder

/-!
# One frame, unwound on riscv64

What one step of the unwinder gives under the calling convention of riscv64. The state of a frame
decides where the frame lies and where its return address is read; all else follows from these two.

## Main definitions

* `LiveFrame.Reads`: the registers that every step asks for, with their values
* `Unwinder.unwoundAt`: a frame with its return address, as the unwinder reports it

## Main results

* `CompiledMethod.slot_eq`: the slot of the return address is the last word of the frame
* `step_of_preAlloc`, `step_of_body`, `step_of_epilogue`: the step in each state of the frame
-/

namespace CompiledFrames

/-! ## The size of a frame -/

namespace CompiledMethod

theorem frameSize_eq (m : CompiledMethod) :
    m.frameSize = m.metadata.frameSlots.toNat * 8 + 8 := by
  unfold frameSize
  cases m.shape
  rfl

theorem frameSize_pos (m : CompiledMethod) : 0 < m.frameSize := by
  rw [frameSize_eq]
  omega

theorem frameSize_le (m : CompiledMethod) : m.frameSize ≤ 0x800000000 := by
  have h := m.metadata.frameSlots.toNat_lt
  rw [frameSize_eq]
  omega

/-- The slot that follows all slots of a frame is the last word of the frame. -/
theorem slot_eq (m : CompiledMethod) (cfa : Address) :
    cfa + m.metadata.frameSlots.toNat * 8 = cfa + m.frameSize - 8 := by
  rw [frameSize_eq, ← Address.add_add, Address.add_sub_cancel]

/-- A frame does not reach around all of memory. -/
theorem add_frameSize_ne (m : CompiledMethod) (a : Address) : a + m.frameSize ≠ a := by
  have hle := m.frameSize_le
  exact a.add_ne_self m.frameSize_pos (by omega)

/-- Two frames on top of each other do not reach around all of memory. -/
theorem add_frameSize_add_ne (m : CompiledMethod) (a : Address) :
    a + m.frameSize + m.frameSize ≠ a := by
  have hpos := m.frameSize_pos
  have hle := m.frameSize_le
  rw [Address.add_add]
  exact a.add_ne_self (by omega) (by omega)

/-- The frame above an address is not the one below it. -/
theorem add_frameSize_ne_sub (m : CompiledMethod) (a : Address) :
    a + m.frameSize ≠ a - m.frameSize := by
  intro h
  apply m.add_frameSize_add_ne a
  rw [h, Address.sub_add_cancel]

end CompiledMethod

/-- On riscv64 the slots of a frame never overflow a machine word. -/
theorem CallingConvention.slotOffset_riscv64 (slots : UInt32) :
    CallingConvention.riscv64.slotOffset slots = .ok (slots.toNat * 8) := by
  have h := slots.toNat_lt
  have hw : CallingConvention.riscv64.wordSize.toNat = 8 := rfl
  unfold slotOffset
  rw [hw, if_pos (by omega)]

/-! ## The frame and its state -/

/-- A frame at `pc` whose registers hold these stack pointers of compiled and of native code. -/
structure LiveFrame.Reads (frame : LiveFrame) (pc framePointer : Address) (stackPointer : UInt64) :
    Prop where
  pc : frame.read .pc = .ok pc.val
  framePointer : frame.read .s11 = .ok framePointer.val
  stackPointer : frame.read .sp = .ok stackPointer

/-- The frame that has all of the registers answers with their values. -/
theorem Registers.reads_live (registers : Registers) :
    registers.live.Reads registers.pc ⟨registers.get .s11⟩ (registers.get .sp) :=
  ⟨rfl, rfl, rfl⟩

namespace Unwinder

variable {u : Unwinder} {m : CompiledMethod} {pc : Address}

theorem frameState_of_lt (h : pc < m.landmarks.frameAllocated) :
    u.frameState m pc = .preAlloc := by
  unfold frameState
  rw [if_pos h]

theorem frameState_of_return (h : m.landmarks.frameAllocated ≤ pc)
    (hnext : u.memory.readBytes (pc + m.shape.instructionWidth) 4 =
      .ok m.shape.returnInstruction) :
    u.frameState m pc = .epilogue := by
  unfold frameState
  rw [if_neg (Address.not_lt.mpr h), hnext]
  simp [CodeShape.isReturn]

theorem frameState_of_not_return (h : m.landmarks.frameAllocated ≤ pc)
    (hnext : u.memory.readBytes (pc + m.shape.instructionWidth) 4 ≠
      .ok m.shape.returnInstruction) :
    u.frameState m pc = .body := by
  unfold frameState
  rw [if_neg (Address.not_lt.mpr h)]
  cases hread : u.memory.readBytes (pc + m.shape.instructionWidth) 4 with
  | error e => rfl
  | ok bytes =>
    have hb : bytes ≠ m.shape.returnInstruction := fun e => hnext (by rw [hread, e])
    simp [CodeShape.isReturn, hb]

/-- A frame is taken for one that is not allocated just below the place of the allocation. -/
theorem frameState_eq_preAlloc_iff :
    u.frameState m pc = .preAlloc ↔ pc < m.landmarks.frameAllocated := by
  refine ⟨fun h => Decidable.byContradiction fun hpc => ?_, frameState_of_lt⟩
  rw [Address.not_lt] at hpc
  by_cases hnext : u.memory.readBytes (pc + m.shape.instructionWidth) 4 =
      .ok m.shape.returnInstruction
  · rw [frameState_of_return hpc hnext] at h
    cases h
  · rw [frameState_of_not_return hpc hnext] at h
    cases h

/-! ## The step -/

/-- The frame of `m` at `cfa` with this return address, as it is reported on riscv64. -/
def unwoundAt (u : Unwinder) (m : CompiledMethod) (pc cfa returnAddress : Address)
    (stackPointer : UInt64) : UnwoundFrame where
  cfa := cfa
  pc := pc
  saved :=
    [(.s11, (cfa + m.frameSize).val), (.ra, (u.callSite returnAddress).val),
      (.pc, (u.callSite returnAddress).val), (.sp, stackPointer)]

variable {frame : LiveFrame} {framePointer cfa : Address} {stackPointer : UInt64}

theorem step_of_lookup?_eq_none {frame : LiveFrame} {framePointer : Address}
    {stackPointer : UInt64} (hf : frame.Reads pc framePointer stackPointer)
    (hm : u.registry.lookup? pc = none) : u.step frame = .ok none := by
  unfold step
  rw [hf.pc, Checked.ofExcept_ok, Except.ok_bind]
  simp only [hm]
  rfl

/-- Of a frame that is located, the step reports address and return address. -/
theorem step_of_locate (hc : u.convention = .riscv64) (hm : u.registry.lookup? pc = some m)
    (hf : frame.Reads pc framePointer stackPointer) :
    u.step frame =
      (u.locate m frame (u.frameState m pc) framePointer).map fun (cfa, returnAddress) =>
        some (m, u.unwoundAt m pc cfa returnAddress stackPointer) := by
  have hfp : frame.read u.convention.framePointer = .ok framePointer.val := by
    rw [hc]
    exact hf.framePointer
  have hsp : frame.read u.convention.stackPointer = .ok stackPointer := by
    rw [hc]
    exact hf.stackPointer
  unfold step unwindMethod
  simp only [hf.pc, hfp, hsp, Checked.ofExcept_ok, bind, Except.bind, pure, Except.pure, hm]
  cases u.locate m frame (u.frameState m pc) framePointer with
  | error e => rfl
  | ok located => simp only [hc]; rfl

/-- A frame whose return address is in its slot is located as soon as the slot can be read. -/
theorem fromSlot_eq (hc : u.convention = .riscv64) (cfa : Address) :
    locate.fromSlot u m cfa =
      Checked.ofExcept
        ((u.memory.readU64 (cfa + m.frameSize - 8)).map fun word => (cfa, Address.mk word)) := by
  unfold locate.fromSlot
  rw [hc, CallingConvention.slotOffset_riscv64, ← m.slot_eq]
  show (Checked.ofExcept (u.memory.readU64 (cfa + m.metadata.frameSlots.toNat * 8)) >>= fun word =>
    pure (cfa, Address.mk word)) = _
  cases u.memory.readU64 (cfa + m.metadata.frameSlots.toNat * 8) <;> rfl

/-- Before the frame is allocated it is going to lie below the frame pointer, and the return address
is in its register. -/
theorem step_of_preAlloc (hc : u.convention = .riscv64) (hm : u.registry.lookup? pc = some m)
    (hf : frame.Reads pc framePointer stackPointer) (hs : u.frameState m pc = .preAlloc)
    {returnAddress : Address} (hra : frame.read .ra = .ok returnAddress.val) :
    u.step frame = .ok (some
      (m, u.unwoundAt m pc (framePointer - m.frameSize) returnAddress stackPointer)) := by
  have hra' : frame.read u.convention.returnAddress = .ok returnAddress.val := by
    rw [hc]
    exact hra
  rw [step_of_locate hc hm hf, hs]
  simp only [locate, hra', Checked.ofExcept_ok, bind, Except.bind, pure, Except.pure, Except.map]

/-- In the body the frame lies at the frame pointer. -/
theorem step_of_body (hc : u.convention = .riscv64) (hm : u.registry.lookup? pc = some m)
    (hf : frame.Reads pc framePointer stackPointer) (hs : u.frameState m pc = .body) :
    u.step frame =
      Checked.ofExcept ((u.memory.readU64 (framePointer + m.frameSize - 8)).map fun word =>
        some (m, u.unwoundAt m pc framePointer ⟨word⟩ stackPointer)) := by
  rw [step_of_locate hc hm hf, hs]
  simp only [locate, fromSlot_eq hc]
  cases u.memory.readU64 (framePointer + m.frameSize - 8) <;> rfl

/-- With the return as the instruction after the next, the frame is taken to lie above the frame
pointer. -/
theorem step_of_epilogue (hc : u.convention = .riscv64) (hm : u.registry.lookup? pc = some m)
    (hf : frame.Reads pc framePointer stackPointer) (hs : u.frameState m pc = .epilogue) :
    u.step frame =
      Checked.ofExcept
        ((u.memory.readU64 (framePointer + m.frameSize + m.frameSize - 8)).map fun word =>
          some (m, u.unwoundAt m pc (framePointer + m.frameSize) ⟨word⟩ stackPointer)) := by
  rw [step_of_locate hc hm hf, hs]
  simp only [locate, fromSlot_eq hc]
  cases u.memory.readU64 (framePointer + m.frameSize + m.frameSize - 8) <;> rfl

end Unwinder

end CompiledFrames
