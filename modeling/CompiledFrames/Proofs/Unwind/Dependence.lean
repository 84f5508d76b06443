import CompiledFrames.Proofs.Unwind.Shape

/-!
# What a walk depends on

On riscv64 a walk looks at few registers: at the place, at the stack pointer of compiled code, and at
the return address register as long as the frame is not allocated. The other registers are passed on
to the caller as they are, and the walk compares all of them when it asks whether it has moved. They
do not count there either. A frame that is allocated always moves the stack pointer of compiled code,
and of one that is not, the return address register is among the registers that count.

## Main definitions

* `Unwinder.Alike`: registers that agree where a walk looks at them
* `Unwinder.located?`: the method at a place, with the address of its frame and the place to which
  it returns

## Main results

* `Unwinder.attempt_eq`: a step is what is located, and the native stack pointer
* `Unwinder.Alike.exists_attempt`: what a step shows of registers that are alike
* `Unwinder.Walks.of_alike`: registers that are alike have the same walks
* `Unwinder.backtrace_of_alike`: registers that are alike have the same backtrace
-/

namespace CompiledFrames

namespace Unwinder

variable {u : Unwinder} {a b registers : Registers} {m : CompiledMethod}
  {pc cfa returnAddress : Address}

/-! ## What is located -/

/-- The method at the place of some registers, with the address of its frame and the place to which
it returns. -/
def located? (u : Unwinder) (registers : Registers) :
    Option (CompiledMethod × Address × Address) :=
  (u.registry.lookup? registers.pc).bind fun m =>
    (u.locate m registers.live (u.frameState m registers.pc)
      registers.framePointer).toOption.map fun located => (m, located)

/-- **A step on riscv64** is what is located, with the native stack pointer as it was. -/
theorem attempt_eq (hc : u.convention = .riscv64) (registers : Registers) :
    u.attempt registers = .ok ((u.located? registers).map fun (m, cfa, returnAddress) =>
      (m, u.unwoundAt m registers.pc cfa returnAddress (registers.get .sp))) := by
  have huntrapped := (slotsFit_riscv64 hc).step registers.live
  unfold attempt located?
  cases hm : u.registry.lookup? registers.pc with
  | none =>
    rw [step_of_lookup?_eq_none registers.reads_live hm]
    rfl
  | some m =>
    rw [step_of_locate hc hm registers.reads_live] at huntrapped ⊢
    rw [Option.bind_some]
    unfold Registers.framePointer
    cases hlocate : u.locate m registers.live (u.frameState m registers.pc)
        ⟨registers.get .s11⟩ with
    | ok located => rfl
    | error failure =>
      rw [hlocate] at huntrapped
      cases failure with
      | error e => rfl
      | trap t => exact absurd rfl (huntrapped t)

theorem located?_of_attempt_eq_none (hc : u.convention = .riscv64)
    (h : u.attempt registers = .ok none) : u.located? registers = none := by
  rw [attempt_eq hc] at h
  exact Option.map_eq_none_iff.mp (Except.ok.inj h)

theorem exists_located?_of_attempt (hc : u.convention = .riscv64) {unwound : UnwoundFrame}
    (h : u.attempt registers = .ok (some (m, unwound))) :
    ∃ cfa returnAddress, u.located? registers = some (m, cfa, returnAddress) ∧
      unwound = u.unwoundAt m registers.pc cfa returnAddress (registers.get .sp) := by
  rw [attempt_eq hc] at h
  obtain ⟨⟨m, cfa, returnAddress⟩, hlocated, hpair⟩ :=
    Option.map_eq_some_iff.mp (Except.ok.inj h)
  obtain ⟨rfl, rfl⟩ := Prod.mk.inj hpair
  exact ⟨cfa, returnAddress, hlocated, rfl⟩

theorem lookup?_of_located? (h : u.located? registers = some (m, cfa, returnAddress)) :
    u.registry.lookup? registers.pc = some m := by
  obtain ⟨found, hfound, hlocated⟩ := Option.bind_eq_some_iff.mp h
  obtain ⟨located, -, hpair⟩ := Option.map_eq_some_iff.mp hlocated
  obtain ⟨rfl, -⟩ := Prod.mk.inj hpair
  exact hfound

theorem cfa_of_located? (hc : u.convention = .riscv64)
    (h : u.located? registers = some (m, cfa, returnAddress)) :
    cfa = (u.frameState m registers.pc).frameAddress m registers.framePointer := by
  have hattempt := attempt_eq hc registers
  rw [h, Option.map_some] at hattempt
  obtain ⟨_, hunwound, -⟩ := unwoundAt_of_attempt hc hattempt
  exact congrArg UnwoundFrame.cfa hunwound

/-! ## Registers that count -/

/-- Registers with the same place and the same stack pointer of compiled code, and with the same
return address register if the place is in a method that has not allocated its frame. -/
structure Alike (u : Unwinder) (a b : Registers) : Prop where
  pc : a.pc = b.pc
  framePointer : a.framePointer = b.framePointer
  returnAddress : ∀ m ∈ u.registry.methods, m.metadata.Contains a.pc →
    a.pc < m.landmarks.frameAllocated → a.get .ra = b.get .ra

namespace Alike

theorem returnAddress_of_lookup? (h : u.Alike a b) (hm : u.registry.lookup? a.pc = some m)
    (hpre : u.frameState m a.pc = .preAlloc) : a.get .ra = b.get .ra :=
  h.returnAddress m (Registry.mem_of_lookup? hm) (Registry.contains_of_lookup? hm)
    (frameState_eq_preAlloc_iff.mp hpre)

/-- Registers that are alike locate the same frame. -/
theorem located?_eq (hc : u.convention = .riscv64) (h : u.Alike a b) :
    u.located? a = u.located? b := by
  unfold located?
  rw [← h.pc, ← h.framePointer]
  cases hm : u.registry.lookup? a.pc with
  | none => rfl
  | some m =>
    rw [Option.bind_some, Option.bind_some]
    cases hs : u.frameState m a.pc with
    | preAlloc =>
      have hra : a.live.read u.convention.returnAddress = b.live.read u.convention.returnAddress := by
        rw [hc]
        exact congrArg Except.ok (h.returnAddress_of_lookup? hm hs)
      simp only [locate, hra]
    | epilogue => rfl
    | body => rfl

end Alike

/-! ## Steps that change nothing -/

namespace Alike

/-- Of registers that are alike, a step changes all or none. -/
theorem setAll_eq_self_iff (hc : u.convention = .riscv64) (h : u.Alike a b)
    (hlocated : u.located? a = some (m, cfa, returnAddress)) :
    a.setAll (u.unwoundAt m a.pc cfa returnAddress (a.get .sp)).saved = a ↔
      b.setAll (u.unwoundAt m b.pc cfa returnAddress (b.get .sp)).saved = b := by
  rw [setAll_unwoundAt_eq_self_iff, setAll_unwoundAt_eq_self_iff, ← h.pc, ← h.framePointer]
  refine and_congr_right fun hframePointer => ?_
  -- a frame that ends at the frame pointer is not allocated, so the return address register counts
  rw [cfa_of_located? hc hlocated] at hframePointer
  have hpre := FrameState.frameAddress_add_eq_iff.mp hframePointer
  rw [h.returnAddress_of_lookup? (lookup?_of_located? hlocated) hpre]

/-- The callers of a frame are alike, whatever the other registers hold. -/
theorem caller (u : Unwinder) (m : CompiledMethod) (a b : Registers)
    (pc pc' cfa returnAddress : Address) (stackPointer stackPointer' : UInt64) :
    u.Alike (a.setAll (u.unwoundAt m pc cfa returnAddress stackPointer).saved)
      (b.setAll (u.unwoundAt m pc' cfa returnAddress stackPointer').saved) where
  pc := rfl
  framePointer := by rw [framePointer_setAll_unwoundAt, framePointer_setAll_unwoundAt]
  returnAddress := by
    intro _ _ _ _
    rw [ra_setAll_unwoundAt, ra_setAll_unwoundAt]

end Alike

/-! ## Walks -/

/-- The frame that is shown of compiled code does not depend on the native stack pointer. -/
theorem compiledFrame_unwoundAt (hc : u.convention = .riscv64) (index : Nat)
    (stackPointer stackPointer' : UInt64) :
    u.compiledFrame index pc m (u.unwoundAt m pc cfa returnAddress stackPointer) =
      u.compiledFrame index pc m (u.unwoundAt m pc cfa returnAddress stackPointer') := by
  unfold compiledFrame
  rw [hc]
  rfl

namespace Alike

variable {unwound : UnwoundFrame}

theorem attempt_eq_none (hc : u.convention = .riscv64) (h : u.Alike a b)
    (hattempt : u.attempt a = .ok none) : u.attempt b = .ok none := by
  have hlocated := located?_of_attempt_eq_none hc hattempt
  rw [h.located?_eq hc] at hlocated
  rw [attempt_eq hc, hlocated]
  rfl

/-- **One frame, twice.** From registers that are alike a step shows the same frame, and it changes
all registers or none; the callers are alike again. -/
theorem exists_attempt (hc : u.convention = .riscv64) (h : u.Alike a b)
    (hattempt : u.attempt a = .ok (some (m, unwound))) :
    ∃ unwound', u.attempt b = .ok (some (m, unwound')) ∧
      (∀ index, u.compiledFrame index a.pc m unwound = u.compiledFrame index b.pc m unwound') ∧
      (a.setAll unwound.saved = a ↔ b.setAll unwound'.saved = b) ∧
      u.Alike (a.setAll unwound.saved) (b.setAll unwound'.saved) := by
  obtain ⟨cfa, returnAddress, hlocated, rfl⟩ := exists_located?_of_attempt hc hattempt
  refine ⟨u.unwoundAt m b.pc cfa returnAddress (b.get .sp), ?_, ?_, ?_, caller ..⟩
  · rw [attempt_eq hc, ← h.located?_eq hc, hlocated]
    rfl
  · intro index
    rw [h.pc]
    exact compiledFrame_unwoundAt hc index _ _
  · exact h.setAll_eq_self_iff hc hlocated

end Alike

/-- **Walks from registers that are alike** have the same frames. -/
theorem Walks.of_alike (hc : u.convention = .riscv64) {limit index : Nat}
    {frames : List StackFrame} (h : u.Walks limit index a frames) (hab : u.Alike a b) :
    u.Walks limit index b frames := by
  induction h generalizing b with
  | limit => exact .limit
  | zero hpc => exact .zero (hab.pc ▸ hpc)
  | unknown hpc hattempt =>
    rw [hab.pc] at hpc ⊢
    exact .unknown hpc (hab.attempt_eq_none hc hattempt)
  | stuck hpc hattempt hstays =>
    obtain ⟨unwound', hattempt', hframe, hiff, -⟩ := hab.exists_attempt hc hattempt
    rw [hframe]
    rw [hab.pc] at hpc
    exact .stuck hpc hattempt' (hiff.mp hstays)
  | next hpc hattempt hmoves hrest ih =>
    obtain ⟨unwound', hattempt', hframe, hiff, hcallers⟩ := hab.exists_attempt hc hattempt
    rw [hframe]
    rw [hab.pc] at hpc
    exact .next hpc hattempt' (fun hstays => hmoves (hiff.mpr hstays)) (ih hcallers)

/-- **A backtrace depends on few registers.** On riscv64, registers with the same place and the same
stack pointer of compiled code have the same backtrace, if they also have the same return address
register where the place is in a method that has not allocated its frame. -/
theorem backtrace_of_alike (hc : u.convention = .riscv64) (h : u.Alike a b) (limit : Nat) :
    ∃ frames, u.backtrace a limit = .ok frames ∧ u.backtrace b limit = .ok frames := by
  obtain ⟨frames, hframes⟩ := (slotsFit_riscv64 hc).exists_walk limit 0 a
  exact ⟨frames, hframes, ((walk_eq_ok_iff.mp hframes).of_alike hc h).walk_eq⟩

/-- In the body of a method neither the return address register counts nor the native stack pointer
nor any other register. -/
theorem backtrace_of_alike_sample :
    ∃ frames, reentrantUnwinder.backtrace (sampleRegisters 0x4020 0x7fe0 0x1) 16 = .ok frames ∧
      reentrantUnwinder.backtrace
        (({} : Registers).setAll [(.pc, 0x4020), (.s11, 0x7fe0), (.ra, 0xdead), (.sp, 0x10),
          (.general 10, 0x7)]) 16 = .ok frames ∧
      frames.map (·.pc) = [⟨0x4020⟩, ⟨0x9032⟩] := by
  have hplaces : (reentrantUnwinder.backtrace (sampleRegisters 0x4020 0x7fe0 0x1) 16).map
      (·.map (·.pc)) = .ok [⟨0x4020⟩, ⟨0x9032⟩] := rfl
  have halike : reentrantUnwinder.Alike (sampleRegisters 0x4020 0x7fe0 0x1)
      (({} : Registers).setAll [(.pc, 0x4020), (.s11, 0x7fe0), (.ra, 0xdead), (.sp, 0x10),
        (.general 10, 0x7)]) := by
    refine ⟨rfl, rfl, ?_⟩
    intro m hm _ hpre
    obtain rfl := List.mem_singleton.mp hm
    exact absurd hpre (by decide)
  obtain ⟨frames, hframes, hframes'⟩ := backtrace_of_alike rfl halike 16
  rw [hframes] at hplaces
  exact ⟨frames, hframes, hframes', Except.ok.inj hplaces⟩

end Unwinder

end CompiledFrames
