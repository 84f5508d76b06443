import Mathlib.Algebra.GroupWithZero.Nat
import CompiledFrames.Proofs.Unwind.Shape

/-!
# What a walk carries along

On the way out through some frames hardly any register changes. Place and return address register
take the same value at each frame, and the frame pointer moves up by what the state of the frame says.
The native stack pointer is handed on with the value that it has, and nothing touches the others. The
frame pointer is known in the end as well: it has moved by the sum over all frames, modulo `2 ^ 64`.

## Main results

* `Unwinder.setAll_unwoundAt_sp`: a step sets three registers
* `Unwinder.exists_frames_of_registersOut`: the frame pointer after some steps
* `Session.registersOut_changes`: what changes on the way out
-/

namespace CompiledFrames

namespace Unwinder

variable {u : Unwinder} {m : CompiledMethod} {registers outer : Registers} {unwound : UnwoundFrame}
  {n : Nat}

/-- **A step sets three registers**, since the native stack pointer has its value already. -/
theorem setAll_unwoundAt_sp (pc cfa returnAddress : Address) :
    registers.setAll (u.unwoundAt m pc cfa returnAddress (registers.get .sp)).saved =
      ((registers.set .s11 (cfa + m.frameSize).val).set .ra (u.callSite returnAddress).val).set
        .pc (u.callSite returnAddress).val := by
  have hsp : registers.get .sp =
      (((registers.set .s11 (cfa + m.frameSize).val).set .ra (u.callSite returnAddress).val).set
        .pc (u.callSite returnAddress).val).get .sp := by
    rw [Registers.get_set_of_ne _ _ (by decide), Registers.get_set_of_ne _ _ (by decide),
      Registers.get_set_of_ne _ _ (by decide)]
  rw [setAll_unwoundAt, hsp, Registers.set_get]

/-- A step leaves all registers as they are but place, return address and frame pointer. -/
theorem get_setAll_of_attempt (hc : u.convention = .riscv64)
    (h : u.attempt registers = .ok (some (m, unwound))) {r : RegisterId} (hpc : r ≠ .pc)
    (hra : r ≠ .ra) (hs11 : r ≠ .s11) :
    (registers.setAll unwound.saved).get r = registers.get r := by
  obtain ⟨returnAddress, rfl, -⟩ := unwoundAt_of_attempt hc h
  rw [setAll_unwoundAt_sp, Registers.get_set_of_ne _ _ hpc.symm, Registers.get_set_of_ne _ _ hra.symm,
    Registers.get_set_of_ne _ _ hs11.symm]

/-- A step moves the frame pointer up by what the state of the frame says. -/
theorem framePointer_setAll_of_attempt (hc : u.convention = .riscv64)
    (h : u.attempt registers = .ok (some (m, unwound))) :
    (registers.setAll unwound.saved).framePointer =
      registers.framePointer + (u.frameState m registers.pc).rise m := by
  obtain ⟨returnAddress, rfl, -⟩ := unwoundAt_of_attempt hc h
  rw [framePointer_setAll_unwoundAt, FrameState.frameAddress_add]

theorem get_of_registersOut (hc : u.convention = .riscv64)
    (h : u.registersOut n registers = .ok (some outer)) {r : RegisterId} (hpc : r ≠ .pc)
    (hra : r ≠ .ra) (hs11 : r ≠ .s11) : outer.get r = registers.get r := by
  induction n generalizing registers with
  | zero => rw [eq_of_registersOut_zero h]
  | succ n ih =>
    obtain ⟨m, unwound, hattempt, hrest⟩ := exists_attempt_of_registersOut h
    rw [ih hrest, get_setAll_of_attempt hc hattempt hpc hra hs11]

/-- **The frame pointer after some steps** is the first one and what each frame adds to it. -/
theorem exists_frames_of_registersOut (hc : u.convention = .riscv64)
    (h : u.registersOut n registers = .ok (some outer)) :
    ∃ frames : List (CompiledMethod × FrameState), frames.length = n ∧
      (∀ i m state, frames[i]? = some (m, state) → ∃ inner,
        u.registersOut i registers = .ok (some inner) ∧ u.registry.lookup? inner.pc = some m ∧
        u.frameState m inner.pc = state) ∧
      outer.framePointer =
        registers.framePointer + (frames.map fun (m, state) => state.rise m).sum := by
  induction n generalizing registers with
  | zero =>
    obtain rfl := eq_of_registersOut_zero h
    exact ⟨[], rfl, nofun, (Address.add_zero _).symm⟩
  | succ n ih =>
    obtain ⟨m, unwound, hattempt, hrest⟩ := exists_attempt_of_registersOut h
    obtain ⟨frames, hlength, hframes, hsum⟩ := ih hrest
    refine ⟨(m, u.frameState m registers.pc) :: frames, congrArg Nat.succ hlength, ?_, ?_⟩
    · intro i m' state hi
      cases i with
      | zero =>
        obtain ⟨rfl, rfl⟩ := Prod.mk.inj (Option.some.inj hi)
        exact ⟨registers, rfl, lookup?_of_attempt hattempt, rfl⟩
      | succ i =>
        rw [registersOut_succ_of_some hattempt]
        exact hframes i m' state hi
    · rw [hsum, framePointer_setAll_of_attempt hc hattempt, Address.add_add, List.map_cons,
        List.sum_cons]

end Unwinder

namespace Session

/-- **On the way out** on riscv64 only place, return address and frame pointer change. Behind the
first frame the return address register holds the place. The frame pointer has moved up by the sum
over the frames on the way: nothing for one that is not allocated yet, the size of the frame for one
in the body, and twice that for one in an epilogue. -/
theorem registersOut_changes (session : Session) (hc : session.settings.convention = .riscv64)
    {registers outer : Registers} {n : Nat}
    (h : session.registersOut registers n = .ok (some outer)) :
    (∀ r, r ≠ .pc → r ≠ .ra → r ≠ .s11 → outer.get r = registers.get r) ∧
    (1 ≤ n → outer.get .ra = outer.get .pc) ∧
    ∃ frames : List (CompiledMethod × FrameState), frames.length = n ∧
      (∀ i m state, frames[i]? = some (m, state) → ∃ inner,
        session.registersOut registers i = .ok (some inner) ∧
        session.methodAt? inner.pc = some m ∧ session.unwinder.frameState m inner.pc = state) ∧
      outer.framePointer =
        registers.framePointer + (frames.map fun (m, state) => state.rise m).sum := by
  refine ⟨fun r hpc hra hs11 => Unwinder.get_of_registersOut hc h hpc hra hs11, fun hpos => ?_,
    Unwinder.exists_frames_of_registersOut hc h⟩
  obtain ⟨n, rfl⟩ := Nat.exists_eq_add_of_le' hpos
  exact Unwinder.of_registersOut_succ (P := fun outer => outer.get .ra = outer.get .pc)
    (fun _ _ _ hattempt => (Unwinder.settled_setAll hc hattempt).1) h

/-- A method that is called before its frame is allocated, from a place in its epilogue. -/
theorem registersOut_changes_sample :
    ∃ outer, sample.registersOut (Unwinder.sampleRegisters 0x4004 0x8000 0x4030) 2 =
        .ok (some outer) ∧
      outer.get .sp = 0x3ffff000 ∧ outer.get .ra = outer.get .pc ∧
      outer.framePointer = ⟨0x8040⟩ ∧
      ∃ frames : List (CompiledMethod × FrameState),
        (⟨0x8040⟩ : Address) =
          (⟨0x8000⟩ : Address) + (frames.map fun (m, state) => state.rise m).sum ∧
        frames.length = 2 := by
  have hout : sample.registersOut (Unwinder.sampleRegisters 0x4004 0x8000 0x4030) 2 =
      .ok (some (Unwinder.sampleRegisters 0 0x8040 0)) := by decide +kernel
  obtain ⟨hkept, hra, frames, hlength, -, hsum⟩ := registersOut_changes sample rfl hout
  have hend : (Unwinder.sampleRegisters 0 0x8040 0).framePointer = ⟨0x8040⟩ := rfl
  rw [hend] at hsum
  exact ⟨_, hout, hkept .sp (by decide) (by decide) (by decide), hra (by decide), hend, frames, hsum,
    hlength⟩

end Session

end CompiledFrames
