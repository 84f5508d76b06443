import CompiledFrames.MemoryImage
import CompiledFrames.Proofs.Unwind.Step

/-!
# Setup and teardown of a frame

A compiled method stores its return address right below the frame pointer that it was entered with,
and then moves the frame pointer down by the size of the frame; before a return it moves it up again
and reloads the return address. So a frame has one address and one caller throughout, though its
registers say so in different ways.

The unwinder keeps to this while the frame is set up. While it is torn down it looks on the wrong
side of the frame pointer: it takes the frame to lie above it, where the frames of callers are.

## Main results

* `setup_identifies_frame`: before and after the allocation the unwinder reports the same frame
* `teardown_misses_frame`: in an epilogue it never reports the frame that the body had
-/

namespace CompiledFrames

namespace Unwinder

variable {u : Unwinder} {m : CompiledMethod}

/-! ## A method at work -/

/-- A method with one parameter and three slots. -/
def sampleMethod : CompiledMethod where
  metadata :=
    { start := ⟨0x4000⟩, stop := ⟨0x4040⟩, frameSlots := 3, paramSlots := 1, className := ⟨0⟩
      methodName := ⟨0⟩, signature := ⟨0⟩, linkedMethod := ⟨0⟩ }
  names := ⟨"Foo", "bar", "()V"⟩
  bytecodes := ∅
  lines := none
  shape := .riscv64

/-- The method with the return of its epilogue in memory and a stack on which it was entered with
frame pointer `0x8000` and return address `0x6000`. -/
def sampleUnwinder : Unwinder where
  convention := .riscv64
  registry := ⟨[sampleMethod]⟩
  memory :=
    MemoryImage.toMemory
      (({} : MemoryImage)
        |>.map ⟨0x4034⟩ [0x67, 0x80, 0x00, 0x00]
        |>.map ⟨0x7ff8⟩ (0x00 :: 0x60 :: List.replicate 70 0x00))
  symbols := {}

/-- The method of `sampleUnwinder` with symbols that make its caller a trampoline. -/
def reentrantUnwinder : Unwinder :=
  { sampleUnwinder with
    symbols := (({} : SymbolTable)
      |>.addSymbol "lib/default/libj9jit29.so" ⟨"returnFromJITI", ⟨0x6000⟩, 0x40⟩
      |>.addSymbol "lib/default/libj9vm29.so" ⟨"cInterpreter", ⟨0x9000⟩, 0x1000⟩) }

/-- Registers at a place of the method. -/
def sampleRegisters (pc framePointer returnAddress : UInt64) : Registers :=
  ({} : Registers).setAll
    [(.pc, pc), (.s11, framePointer), (.ra, returnAddress), (.sp, 0x3ffff000)]

/-! ## The windows -/

/-- **The setup window.** Entered with frame pointer `entry` and return address `returnAddress`, a
method has the same frame and the same caller before its frame is allocated, when the return address
is still in its register, as after it, when the slot below `entry` holds it. -/
theorem setup_identifies_frame {before after : LiveFrame} {pc₁ pc₂ entry : Address}
    {returnAddress stackPointer : UInt64} (hc : u.convention = .riscv64)
    (hm₁ : u.registry.lookup? pc₁ = some m) (hm₂ : u.registry.lookup? pc₂ = some m)
    (hpc₁ : pc₁ < m.landmarks.frameAllocated) (hpc₂ : m.landmarks.frameAllocated ≤ pc₂)
    (hnext : u.memory.readBytes (pc₂ + m.shape.instructionWidth) 4 ≠
      .ok m.shape.returnInstruction)
    (hbefore : before.Reads pc₁ entry stackPointer)
    (hra : before.read .ra = .ok returnAddress)
    (hafter : after.Reads pc₂ (entry - m.frameSize) stackPointer)
    (hslot : u.memory.readU64 (entry - 8) = .ok returnAddress) :
    ∃ saved,
      u.step before = .ok (some (m, ⟨entry - m.frameSize, pc₁, saved⟩)) ∧
      u.step after = .ok (some (m, ⟨entry - m.frameSize, pc₂, saved⟩)) ∧
      saved =
        [(.s11, entry.val), (.ra, (u.callSite ⟨returnAddress⟩).val),
          (.pc, (u.callSite ⟨returnAddress⟩).val), (.sp, stackPointer)] := by
  have hup : entry - m.frameSize + m.frameSize = entry := Address.sub_add_cancel entry m.frameSize
  refine ⟨_, ?_, ?_, rfl⟩
  · have hs : u.frameState m pc₁ = .preAlloc := frameState_of_lt hpc₁
    have hra' : before.read .ra = .ok (Address.mk returnAddress).val := hra
    rw [step_of_preAlloc hc hm₁ hbefore hs hra']
    simp only [unwoundAt, hup]
  · have hs : u.frameState m pc₂ = .body := frameState_of_not_return hpc₂ hnext
    rw [step_of_body hc hm₂ hafter hs, hup, hslot]
    simp only [unwoundAt, hup, Except.map, Checked.ofExcept_ok]

/-- In both windows the method returns into the trampoline, and is called by the interpreter. -/
theorem setup_identifies_sample :
    reentrantUnwinder.isTrampoline ⟨0x6000⟩ = true ∧
      ∃ saved,
        reentrantUnwinder.step (sampleRegisters 0x4004 0x8000 0x6000).live =
          .ok (some (sampleMethod, ⟨⟨0x7fe0⟩, ⟨0x4004⟩, saved⟩)) ∧
        reentrantUnwinder.step (sampleRegisters 0x4020 0x7fe0 0x1).live =
          .ok (some (sampleMethod, ⟨⟨0x7fe0⟩, ⟨0x4020⟩, saved⟩)) ∧
        saved = [(.s11, 0x8000), (.ra, 0x9032), (.pc, 0x9032), (.sp, 0x3ffff000)] := by
  have hbefore : (sampleRegisters 0x4004 0x8000 0x6000).live.Reads ⟨0x4004⟩ ⟨0x8000⟩ 0x3ffff000 :=
    Registers.reads_live _
  have hafter : (sampleRegisters 0x4020 0x7fe0 0x1).live.Reads ⟨0x4020⟩
      ((⟨0x8000⟩ : Address) - sampleMethod.frameSize) 0x3ffff000 := Registers.reads_live _
  have hra : (sampleRegisters 0x4004 0x8000 0x6000).live.read .ra = .ok 0x6000 := rfl
  have hnext : reentrantUnwinder.memory.readBytes ((⟨0x4020⟩ : Address) + 4) 4 ≠
      .ok sampleMethod.shape.returnInstruction := nofun
  obtain ⟨saved, hstep, hstep', hsaved⟩ := setup_identifies_frame (u := reentrantUnwinder)
    rfl rfl rfl (by decide) (by decide) hnext hbefore hra hafter rfl
  exact ⟨rfl, saved, hstep, hstep', hsaved.trans rfl⟩

/-- **The teardown window.** When an epilogue has destroyed the frame of a method that was entered
with frame pointer `entry`, the frame is taken to lie as far above `entry` as it lay below. So the
step reads a word of the callers' frames, and reports neither the address that the frame had nor the
frame pointer that its caller has. -/
theorem teardown_misses_frame {frame : LiveFrame} {pc entry : Address} {stackPointer : UInt64}
    (hc : u.convention = .riscv64) (hm : u.registry.lookup? pc = some m)
    (hpc : m.landmarks.frameAllocated ≤ pc)
    (hnext : u.memory.readBytes (pc + m.shape.instructionWidth) 4 = .ok m.shape.returnInstruction)
    (hf : frame.Reads pc entry stackPointer) :
    u.step frame =
      Checked.ofExcept
        ((u.memory.readU64 (entry + m.frameSize + m.frameSize - 8)).map fun word =>
          some (m, u.unwoundAt m pc (entry + m.frameSize) ⟨word⟩ stackPointer)) ∧
    ∀ unwound, u.step frame = .ok (some (m, unwound)) →
      unwound.cfa ≠ entry - m.frameSize ∧ unwound.saved? .s11 ≠ some entry.val := by
  have hs : u.frameState m pc = .epilogue := frameState_of_return hpc hnext
  have hstep := step_of_epilogue hc hm hf hs
  refine ⟨hstep, fun unwound h => ?_⟩
  rw [hstep] at h
  cases hw : u.memory.readU64 (entry + m.frameSize + m.frameSize - 8) with
  | error e => simp [hw, Except.map] at h
  | ok word =>
    simp only [hw, Except.map, Checked.ofExcept_ok, Except.ok.injEq, Option.some.injEq,
      Prod.mk.injEq, true_and] at h
    subst h
    refine ⟨m.add_frameSize_ne_sub entry, fun h => m.add_frameSize_add_ne entry ?_⟩
    have hval : (entry + m.frameSize + m.frameSize).val = entry.val := by
      simpa [unwoundAt, UnwoundFrame.saved?] using h
    exact congrArg Address.mk hval

theorem teardown_misses_sample :
    sampleUnwinder.step (sampleRegisters 0x4030 0x8000 0x1).live =
      Checked.ofExcept
        ((sampleUnwinder.memory.readU64 ⟨0x8038⟩).map fun word =>
          some (sampleMethod, sampleUnwinder.unwoundAt sampleMethod ⟨0x4030⟩ ⟨0x8020⟩ ⟨word⟩
            0x3ffff000)) ∧
    ∀ unwound, sampleUnwinder.step (sampleRegisters 0x4030 0x8000 0x1).live =
        .ok (some (sampleMethod, unwound)) →
      unwound.cfa ≠ ⟨0x7fe0⟩ ∧ unwound.saved? .s11 ≠ some 0x8000 := by
  have hf : (sampleRegisters 0x4030 0x8000 0x1).live.Reads ⟨0x4030⟩ ⟨0x8000⟩ 0x3ffff000 :=
    Registers.reads_live _
  exact teardown_misses_frame rfl rfl (by decide) rfl hf

/-- An epilogue is not unwound to the frame of the body and the return address below the frame
pointer. -/
theorem not_teardown_finds_frame :
    ¬ ∀ (u : Unwinder) (m : CompiledMethod) (frame : LiveFrame) (pc entry : Address)
        (returnAddress stackPointer : UInt64), u.convention = .riscv64 →
      u.registry.lookup? pc = some m → m.landmarks.frameAllocated ≤ pc →
      u.memory.readBytes (pc + m.shape.instructionWidth) 4 = .ok m.shape.returnInstruction →
      frame.Reads pc entry stackPointer → u.memory.readU64 (entry - 8) = .ok returnAddress →
      u.step frame = .ok (some
        (m, u.unwoundAt m pc (entry - m.frameSize) ⟨returnAddress⟩ stackPointer)) := by
  intro h
  have hf : (sampleRegisters 0x4030 0x8000 0x1).live.Reads ⟨0x4030⟩ ⟨0x8000⟩ 0x3ffff000 :=
    Registers.reads_live _
  have hstep := h sampleUnwinder sampleMethod _ _ _ 0x6000 _ rfl rfl (by decide) rfl hf rfl
  have hreal : sampleUnwinder.step (sampleRegisters 0x4030 0x8000 0x1).live =
      .ok (some (sampleMethod, sampleUnwinder.unwoundAt sampleMethod ⟨0x4030⟩ ⟨0x8020⟩ ⟨0⟩
        0x3ffff000)) := rfl
  rw [hreal] at hstep
  have hcfa : (⟨0x8020⟩ : Address) = (⟨0x8000⟩ : Address) - sampleMethod.frameSize := by
    simp only [unwoundAt, Except.ok.injEq, Option.some.injEq, Prod.mk.injEq, true_and,
      UnwoundFrame.mk.injEq] at hstep
    exact hstep.1
  exact absurd hcfa (by decide)

end Unwinder

end CompiledFrames
