import CompiledFrames.Proofs.Unwind.Shape

/-!
# Trampolines are never callers

Compiled code that the interpreter called returns into a trampoline, which is no caller anyone wants
to see. The unwinder puts the place in the interpreter where compiled code is called into its place,
for a return address from a register as well as for one from a slot. So a walk shows no trampoline
behind its first frame, provided that the interpreter is known and that the place of the call is in
no trampoline itself.

## Main definitions

* `Unwinder.Reenters`: the place in the interpreter where compiled code is called, in no trampoline

## Main results

* `Unwinder.Reenters.callSite_eq`: a return address is kept, or it is the call in the interpreter
* `Unwinder.Reenters.isTrampoline_pc`: registers behind the first frame are at no trampoline
* `Unwinder.backtrace_avoids_trampolines`: no trampoline is the place of a caller or returned to
-/

namespace CompiledFrames

namespace Unwinder

variable {u : Unwinder} {interpreter : Address} {m : CompiledMethod} {registers : Registers}
  {unwound : UnwoundFrame}

/-- The interpreter is known, and the place where it calls compiled code is in no trampoline. -/
structure Reenters (u : Unwinder) (interpreter : Address) : Prop where
  known : u.symbols.global? u.convention.interpreterSymbol = some interpreter
  outside : u.isTrampoline (interpreter + u.convention.reentryOffset.toNat) = false

namespace Reenters

/-- **A return address** in a trampoline stands for the call in the interpreter, any other one for
itself. -/
theorem callSite_eq (h : u.Reenters interpreter) (a : Address) :
    u.callSite a =
      if u.isTrampoline a then interpreter + u.convention.reentryOffset.toNat else a := by
  unfold callSite
  rw [h.known]

theorem isTrampoline_callSite (h : u.Reenters interpreter) (a : Address) :
    u.isTrampoline (u.callSite a) = false := by
  rw [h.callSite_eq]
  split_ifs with htrampoline
  · exact h.outside
  · exact Bool.eq_false_iff.mpr htrampoline

theorem isTrampoline_caller (h : u.Reenters interpreter) (hc : u.convention = .riscv64)
    (hattempt : u.attempt registers = .ok (some (m, unwound))) :
    u.isTrampoline (registers.setAll unwound.saved).pc = false := by
  obtain ⟨returnAddress, rfl, -⟩ := unwoundAt_of_attempt hc hattempt
  rw [pc_setAll_unwoundAt]
  exact h.isTrampoline_callSite returnAddress

/-- **Behind the first frame** all registers are at places outside the trampolines. -/
theorem isTrampoline_pc (h : u.Reenters interpreter) (hc : u.convention = .riscv64) {n : Nat}
    {outer : Registers} (hout : u.registersOut (n + 1) registers = .ok (some outer)) :
    u.isTrampoline outer.pc = false :=
  of_registersOut_succ (P := fun outer => u.isTrampoline outer.pc = false)
    (fun _ _ _ hattempt => h.isTrampoline_caller hc hattempt) hout

end Reenters

/-- **No trampoline is a caller** on riscv64, if the interpreter is known and the place where it
calls compiled code is in no trampoline. Every frame of a backtrace but the first is at a place
outside the trampolines. Compiled code has read its return address from the register, or from its
slot once the frame is allocated; it shows that address as it is, or the call in the interpreter if
the address is in a trampoline, and thus never a trampoline. -/
theorem backtrace_avoids_trampolines (hc : u.convention = .riscv64)
    (hreenters : u.Reenters interpreter) (registers : Registers) (limit : Nat) :
    ∃ frames, u.backtrace registers limit = .ok frames ∧
      ∀ k frame, frames[k]? = some frame →
        (1 ≤ k → u.isTrampoline frame.pc = false) ∧
        (frame.isCompiled = true → ∃ m inner cfa returnAddress,
          u.registry.lookup? frame.pc = some m ∧
          u.registersOut k registers = .ok (some inner) ∧ frame.cfa? = some cfa ∧
          (u.frameState m frame.pc = .preAlloc → returnAddress = ⟨inner.get .ra⟩) ∧
          (u.frameState m frame.pc ≠ .preAlloc →
            u.memory.readU64 (cfa + m.metadata.frameSlots.toNat * 8) = .ok returnAddress.val) ∧
          frame.returnAddress? = some
            (if u.isTrampoline returnAddress then interpreter + u.convention.reentryOffset.toNat
              else returnAddress) ∧
          ∀ shown, frame.returnAddress? = some shown → u.isTrampoline shown = false) := by
  obtain ⟨frames, hframes⟩ := (slotsFit_riscv64 hc).exists_walk limit 0 registers
  refine ⟨frames, hframes, fun k frame hk => ?_⟩
  obtain ⟨inner, hinner, hpresents, -⟩ := exists_registersOut hframes hk
  refine ⟨fun hpos => ?_, fun hcompiled => ?_⟩
  · obtain ⟨n, rfl⟩ := Nat.exists_eq_add_of_le' hpos
    rw [hpresents.pc]
    exact hreenters.isTrampoline_pc hc hinner
  · obtain ⟨m, unwound, hattempt, rfl⟩ := hpresents.exists_attempt hcompiled
    have hshown : (u.compiledFrame (0 + k) inner.pc m unwound).returnAddress? =
        some (inner.setAll unwound.saved).pc := returnAddress?_compiledFrame hc hattempt
    obtain ⟨returnAddress, hunwound, hregister, hslot⟩ := unwoundAt_of_attempt hc hattempt
    refine ⟨m, inner, unwound.cfa, returnAddress, lookup?_of_attempt hattempt, hinner, rfl,
      hregister, hslot, ?_, fun shown hsame => ?_⟩
    · rw [hshown, hunwound, pc_setAll_unwoundAt, hreenters.callSite_eq]
    · rw [hshown] at hsame
      rw [← Option.some.inj hsame]
      exact hreenters.isTrampoline_caller hc hattempt

/-- The walk of the reentrant method goes over a frame that returns into the trampoline. -/
theorem backtrace_avoids_trampolines_sample :
    reentrantUnwinder.isTrampoline ⟨0x6000⟩ = true ∧
      ∃ frames, reentrantUnwinder.backtrace (sampleRegisters 0x4004 0x7fe0 0x4020) 16 =
          .ok frames ∧
        frames.map (·.returnAddress?) = [some ⟨0x4020⟩, some ⟨0x9032⟩, none] ∧
        ∀ k frame, frames[k]? = some frame → 1 ≤ k →
          reentrantUnwinder.isTrampoline frame.pc = false := by
  have hreenters : reentrantUnwinder.Reenters ⟨0x9000⟩ := ⟨rfl, rfl⟩
  obtain ⟨frames, hframes, hall⟩ := backtrace_avoids_trampolines rfl hreenters
    (sampleRegisters 0x4004 0x7fe0 0x4020) 16
  have hreturns : (reentrantUnwinder.backtrace (sampleRegisters 0x4004 0x7fe0 0x4020) 16).map
      (·.map (·.returnAddress?)) = .ok [some ⟨0x4020⟩, some ⟨0x9032⟩, none] := rfl
  rw [hframes] at hreturns
  exact ⟨rfl, frames, hframes, Except.ok.inj hreturns, fun k frame hk => (hall k frame hk).1⟩

end Unwinder

end CompiledFrames
