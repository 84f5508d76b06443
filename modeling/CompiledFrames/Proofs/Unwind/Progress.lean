import CompiledFrames.Proofs.Unwind.Walk

/-!
# Walks on riscv64 never repeat a frame

A walk only compares the registers of a frame with those of the next one, so it would not notice if
it went round through two frames. It does not go round. The frame pointer never comes down again,
and it moves up at every frame but those whose frame is not allocated yet. Such a frame has the
caller that the return address register says, and the step leaves place and register of the caller
alike; so if the caller is not allocated yet either, the next step changes nothing and the walk is
over.

The one way to show a frame twice is a return address in a trampoline: it stands for the place in
the interpreter where compiled code is called. That this place is in no compiled method is an
assumption on the registry.

## Main definitions

* `FrameState.frameAddress`: where a frame lies, from its state and the frame pointer
* `FrameState.rise`: how far a frame moves the frame pointer up
* `Unwinder.Settled`: the return address register holds the place, and that is no trampoline
* `Unwinder.ReentryOutside`: compiled methods do not contain the call in the interpreter

## Main results

* `FrameState.frameAddress_add`: the end of a frame, from the frame pointer
* `Unwinder.unwoundAt_of_attempt`: all that a step on riscv64 can do
* `Unwinder.setAll_unwoundAt_eq_self_iff`: when a step changes no register
* `Unwinder.framePointer_of_attempt`, `Unwinder.framePointer_of_registersOut`: how far the frame
  pointer moves in one step, and in some
* `Unwinder.identity_ne_of_registersOut`: two frames of one walk differ
* `Unwinder.backtrace_never_repeats`: the frames of a backtrace and its frame pointers
-/

namespace CompiledFrames

/-- The stack pointer of compiled code on riscv64. -/
def Registers.framePointer (registers : Registers) : Address :=
  ⟨registers.get .s11⟩

/-! ## Where frames lie -/

/-- Where a frame of a method lies on riscv64. -/
def FrameState.frameAddress (m : CompiledMethod) (framePointer : Address) : FrameState → Address
  | preAlloc => framePointer - m.frameSize
  | epilogue => framePointer + m.frameSize
  | body => framePointer

/-- How far unwinding a frame of a method moves the frame pointer up. -/
def FrameState.rise (m : CompiledMethod) : FrameState → Nat
  | preAlloc => 0
  | epilogue => 2 * m.frameSize
  | body => m.frameSize

theorem FrameState.frameAddress_inj {m : CompiledMethod} {a b : Address} {state : FrameState}
    (h : state.frameAddress m a = state.frameAddress m b) : a = b := by
  cases state with
  | preAlloc =>
    have hup := congrArg (fun address : Address => address + m.frameSize) h
    simpa only [frameAddress, Address.sub_add_cancel] using hup
  | epilogue =>
    have hdown := congrArg (fun address : Address => address - m.frameSize) h
    simpa only [frameAddress, Address.add_sub_cancel] using hdown
  | body => exact h

theorem FrameState.rise_le (m : CompiledMethod) (state : FrameState) :
    state.rise m ≤ 2 * m.frameSize := by
  cases state with
  | preAlloc => exact Nat.zero_le _
  | epilogue => exact Nat.le_refl _
  | body => exact Nat.le_mul_of_pos_left _ Nat.two_pos

theorem FrameState.le_rise {m : CompiledMethod} {state : FrameState} (h : state ≠ .preAlloc) :
    m.frameSize ≤ state.rise m := by
  cases state with
  | preAlloc => exact absurd rfl h
  | epilogue => exact Nat.le_mul_of_pos_left _ Nat.two_pos
  | body => exact Nat.le_refl _

/-- **The end of a frame** lies above the frame pointer by what its state says. -/
theorem FrameState.frameAddress_add (m : CompiledMethod) (framePointer : Address)
    (state : FrameState) :
    state.frameAddress m framePointer + m.frameSize = framePointer + state.rise m := by
  cases state with
  | preAlloc => rw [frameAddress, rise, Address.sub_add_cancel, Address.add_zero]
  | epilogue => rw [frameAddress, rise, Address.add_add, Nat.two_mul]
  | body => rfl

/-- A frame ends at the frame pointer just when it is not allocated yet. -/
theorem FrameState.frameAddress_add_eq_iff {m : CompiledMethod} {framePointer : Address}
    {state : FrameState} :
    state.frameAddress m framePointer + m.frameSize = framePointer ↔ state = .preAlloc := by
  rw [frameAddress_add]
  cases state with
  | preAlloc => exact iff_of_true (Address.add_zero _) rfl
  | epilogue =>
    rw [rise, Nat.two_mul, ← Address.add_add]
    exact iff_of_false (m.add_frameSize_add_ne framePointer) nofun
  | body => exact iff_of_false (m.add_frameSize_ne framePointer) nofun

/-- As long as nothing wraps around, the end of a frame is at most two frames above the frame
pointer and never below it; it is one frame above it or more once the frame is allocated. -/
theorem FrameState.toNat_frameAddress_add {m : CompiledMethod} {framePointer : Address}
    (state : FrameState) (hroom : framePointer.toNat + 2 * m.frameSize < 0x10000000000000000) :
    framePointer.toNat ≤ (state.frameAddress m framePointer + m.frameSize).toNat ∧
    (state.frameAddress m framePointer + m.frameSize).toNat ≤
      framePointer.toNat + 2 * m.frameSize ∧
    (state ≠ .preAlloc →
      framePointer.toNat + m.frameSize ≤
        (state.frameAddress m framePointer + m.frameSize).toNat) := by
  have hle : state.rise m ≤ 2 * m.frameSize := rise_le m state
  have hge : state ≠ .preAlloc → m.frameSize ≤ state.rise m := le_rise
  rw [frameAddress_add, Address.toNat_add, Nat.mod_eq_of_lt (by omega)]
  exact ⟨Nat.le_add_right _ _, Nat.add_le_add_left hle _,
    fun hstate => Nat.add_le_add_left (hge hstate) _⟩

namespace Unwinder

variable {u : Unwinder} {m : CompiledMethod} {registers : Registers} {unwound : UnwoundFrame}

/-! ## Return addresses -/

/-- The place where the interpreter calls compiled code is in no compiled method. -/
def ReentryOutside (u : Unwinder) : Prop :=
  ∀ interpreter, u.symbols.global? u.convention.interpreterSymbol = some interpreter →
    ∀ m ∈ u.registry.methods,
      ¬ m.metadata.Contains (interpreter + u.convention.reentryOffset.toNat)

/-- A return address that is not kept stands for the call in the interpreter. -/
theorem callSite_eq_or (u : Unwinder) (a : Address) :
    u.callSite a = a ∨ ∃ interpreter,
      u.symbols.global? u.convention.interpreterSymbol = some interpreter ∧
      u.callSite a = interpreter + u.convention.reentryOffset.toNat := by
  unfold callSite
  by_cases htrampoline : u.isTrampoline a
  · rw [if_pos htrampoline]
    cases hglobal : u.symbols.global? u.convention.interpreterSymbol with
    | none => exact .inl rfl
    | some interpreter => exact .inr ⟨interpreter, rfl, rfl⟩
  · exact .inl (if_neg htrampoline)

theorem callSite_callSite (u : Unwinder) (a : Address) :
    u.callSite (u.callSite a) = u.callSite a := by
  rcases u.callSite_eq_or a with hkept | ⟨interpreter, hglobal, hcall⟩
  · rw [hkept, hkept]
  · rcases u.callSite_eq_or (u.callSite a) with hkept | ⟨interpreter', hglobal', hcall'⟩
    · exact hkept
    · obtain rfl : interpreter = interpreter' := Option.some.inj (hglobal.symm.trans hglobal')
      rw [hcall', hcall]

/-! ## One step -/

/-- From its allocation on, a frame has the return address in its last word. -/
theorem step_of_ne_preAlloc {frame : LiveFrame} {pc framePointer : Address} {stackPointer : UInt64}
    (hc : u.convention = .riscv64) (hm : u.registry.lookup? pc = some m)
    (hf : frame.Reads pc framePointer stackPointer) (hs : u.frameState m pc ≠ .preAlloc) :
    u.step frame =
      Checked.ofExcept
        ((u.memory.readU64
          ((u.frameState m pc).frameAddress m framePointer + m.frameSize - 8)).map fun word =>
            some (m, u.unwoundAt m pc ((u.frameState m pc).frameAddress m framePointer) ⟨word⟩
              stackPointer)) := by
  cases hstate : u.frameState m pc with
  | preAlloc => exact absurd hstate hs
  | epilogue => exact step_of_epilogue hc hm hf hstate
  | body => exact step_of_body hc hm hf hstate

/-- **A step on riscv64.** The state of the frame decides where it lies. Before the allocation the
return address is the one in the register, and from then on the one in the slot of the frame. -/
theorem unwoundAt_of_attempt (hc : u.convention = .riscv64)
    (h : u.attempt registers = .ok (some (m, unwound))) :
    ∃ returnAddress,
      unwound = u.unwoundAt m registers.pc
        ((u.frameState m registers.pc).frameAddress m registers.framePointer) returnAddress
        (registers.get .sp) ∧
      (u.frameState m registers.pc = .preAlloc → returnAddress = ⟨registers.get .ra⟩) ∧
      (u.frameState m registers.pc ≠ .preAlloc →
        u.memory.readU64 (unwound.cfa + m.metadata.frameSlots.toNat * 8) =
          .ok returnAddress.val) := by
  have hm := lookup?_of_attempt h
  have hstep := step_of_attempt h
  have hreads := registers.reads_live
  by_cases hs : u.frameState m registers.pc = .preAlloc
  · have hra : registers.live.read .ra = .ok (Address.mk (registers.get .ra)).val := rfl
    rw [step_of_preAlloc hc hm hreads hs hra] at hstep
    obtain ⟨-, rfl⟩ := Prod.mk.inj (Option.some.inj (Except.ok.inj hstep))
    rw [hs]
    exact ⟨_, rfl, fun _ => rfl, fun h => absurd rfl h⟩
  · rw [step_of_ne_preAlloc hc hm hreads hs] at hstep
    obtain ⟨word, hword, hpair⟩ := Except.map_eq_ok.mp (Checked.ofExcept_eq_ok.mp hstep)
    obtain ⟨-, rfl⟩ := Prod.mk.inj (Option.some.inj hpair)
    rw [← m.slot_eq] at hword
    exact ⟨_, rfl, fun h => absurd h hs, fun _ => hword⟩

section Caller

variable (u : Unwinder) (m : CompiledMethod) (registers : Registers)
  (pc cfa returnAddress : Address) (stackPointer : UInt64)

theorem setAll_unwoundAt :
    registers.setAll (u.unwoundAt m pc cfa returnAddress stackPointer).saved =
      (((registers.set .s11 (cfa + m.frameSize).val).set .ra (u.callSite returnAddress).val).set
        .pc (u.callSite returnAddress).val).set .sp stackPointer := rfl

theorem framePointer_setAll_unwoundAt :
    (registers.setAll (u.unwoundAt m pc cfa returnAddress stackPointer).saved).framePointer =
      cfa + m.frameSize := by
  rw [setAll_unwoundAt, Registers.framePointer, Registers.get_set_of_ne _ _ (by decide),
    Registers.get_set_of_ne _ _ (by decide), Registers.get_set_of_ne _ _ (by decide),
    RegisterId.s11, Registers.get_set_general _ _ (by decide) (by decide)]

theorem ra_setAll_unwoundAt :
    (registers.setAll (u.unwoundAt m pc cfa returnAddress stackPointer).saved).get .ra =
      (u.callSite returnAddress).val := by
  rw [setAll_unwoundAt, Registers.get_set_of_ne _ _ (by decide),
    Registers.get_set_of_ne _ _ (by decide), RegisterId.ra,
    Registers.get_set_general _ _ (by decide) (by decide)]

theorem pc_setAll_unwoundAt :
    (registers.setAll (u.unwoundAt m pc cfa returnAddress stackPointer).saved).pc =
      u.callSite returnAddress := rfl

end Caller

/-- **A step changes no register** just when the frame ends at the frame pointer, and the caller is
at the place to which the return address register leads and at the place of the frame itself. -/
theorem setAll_unwoundAt_eq_self_iff {pc cfa returnAddress : Address} :
    registers.setAll (u.unwoundAt m pc cfa returnAddress (registers.get .sp)).saved = registers ↔
      cfa + m.frameSize = registers.framePointer ∧
        (u.callSite returnAddress).val = registers.get .ra ∧
        u.callSite returnAddress = registers.pc := by
  constructor
  · intro h
    have hframePointer := congrArg Registers.framePointer h
    have hra := congrArg (Registers.get · .ra) h
    have hpc := congrArg Registers.pc h
    rw [framePointer_setAll_unwoundAt] at hframePointer
    rw [pc_setAll_unwoundAt] at hpc
    exact ⟨hframePointer, (ra_setAll_unwoundAt ..).symm.trans hra, hpc⟩
  · rintro ⟨hframePointer, hra, hpc⟩
    have hs11 : registers.framePointer.val = registers.get .s11 := rfl
    have hplace : registers.pc.val = registers.get .pc := rfl
    rw [setAll_unwoundAt, hframePointer, hs11, Registers.set_get, hra, Registers.set_get, ← hra, hpc,
      hplace, Registers.set_get, Registers.set_get]

/-- **The frame pointer in one step** never goes down and up by two frames at most; it goes up at
least by a frame once the frame is allocated. -/
theorem framePointer_of_attempt (hc : u.convention = .riscv64)
    (h : u.attempt registers = .ok (some (m, unwound)))
    (hroom : registers.framePointer.toNat + 2 * m.frameSize < 0x10000000000000000) :
    registers.framePointer.toNat ≤ (registers.setAll unwound.saved).framePointer.toNat ∧
    (registers.setAll unwound.saved).framePointer.toNat ≤
      registers.framePointer.toNat + 2 * m.frameSize ∧
    (u.frameState m registers.pc ≠ .preAlloc →
      registers.framePointer.toNat + m.frameSize ≤
        (registers.setAll unwound.saved).framePointer.toNat) := by
  obtain ⟨returnAddress, rfl, -⟩ := unwoundAt_of_attempt hc h
  rw [framePointer_setAll_unwoundAt]
  exact FrameState.toNat_frameAddress_add _ hroom

/-- The return address register holds the place, which no trampoline stands for. -/
def Settled (u : Unwinder) (registers : Registers) : Prop :=
  registers.get .ra = registers.pc.val ∧ u.callSite registers.pc = registers.pc

theorem settled_setAll (hc : u.convention = .riscv64)
    (h : u.attempt registers = .ok (some (m, unwound))) :
    u.Settled (registers.setAll unwound.saved) := by
  obtain ⟨returnAddress, rfl, -⟩ := unwoundAt_of_attempt hc h
  rw [Settled, ra_setAll_unwoundAt, pc_setAll_unwoundAt]
  exact ⟨rfl, u.callSite_callSite returnAddress⟩

/-- A frame that is not allocated yet leaves settled registers as they are. -/
theorem setAll_eq_of_settled (hc : u.convention = .riscv64)
    (h : u.attempt registers = .ok (some (m, unwound)))
    (hpre : u.frameState m registers.pc = .preAlloc) (hsettled : u.Settled registers) :
    registers.setAll unwound.saved = registers := by
  obtain ⟨returnAddress, rfl, hra, -⟩ := unwoundAt_of_attempt hc h
  have hcaller : u.callSite returnAddress = registers.pc := by
    rw [hra hpre, hsettled.1]
    exact hsettled.2
  rw [hpre, setAll_unwoundAt_eq_self_iff, FrameState.frameAddress, Address.sub_add_cancel, hcaller]
  exact ⟨rfl, hsettled.1.symm, rfl⟩

/-- A frame that is not allocated yet and returns to its own place has settled registers, since no
method contains the call in the interpreter. -/
theorem settled_of_pc_eq (hc : u.convention = .riscv64) (houtside : u.ReentryOutside)
    (h : u.attempt registers = .ok (some (m, unwound)))
    (hpre : u.frameState m registers.pc = .preAlloc)
    (hpc : (registers.setAll unwound.saved).pc = registers.pc) : u.Settled registers := by
  have hm := lookup?_of_attempt h
  obtain ⟨returnAddress, rfl, hra, -⟩ := unwoundAt_of_attempt hc h
  have hcaller : u.callSite ⟨registers.get .ra⟩ = registers.pc := by
    rw [← hra hpre]
    exact hpc
  rcases u.callSite_eq_or ⟨registers.get .ra⟩ with hkept | ⟨interpreter, hglobal, hcall⟩
  · have hplace : Address.mk (registers.get .ra) = registers.pc := hkept.symm.trans hcaller
    exact ⟨congrArg Address.val hplace, by rw [← hplace, hkept]⟩
  · have hcontains := Registry.contains_of_lookup? hm
    rw [← hcaller, hcall] at hcontains
    exact absurd hcontains (houtside interpreter hglobal m (Registry.mem_of_lookup? hm))

/-! ## Some steps -/

section Steps

variable {largest n : Nat} {outer : Registers}

/-- Room for some steps is room for the first one, and it leaves room for the others. -/
theorem room_of_attempt (hc : u.convention = .riscv64)
    (hsize : ∀ m ∈ u.registry.methods, m.frameSize ≤ largest)
    (h : u.attempt registers = .ok (some (m, unwound)))
    (hroom : registers.framePointer.toNat + 2 * (n + 1) * largest < 0x10000000000000000) :
    registers.framePointer.toNat + 2 * m.frameSize < 0x10000000000000000 ∧
      (registers.setAll unwound.saved).framePointer.toNat + 2 * n * largest ≤
        registers.framePointer.toNat + 2 * (n + 1) * largest := by
  have hm := hsize m (Registry.mem_of_lookup? (lookup?_of_attempt h))
  have hsplit : 2 * (n + 1) * largest = 2 * n * largest + 2 * largest := by
    rw [Nat.mul_succ, Nat.add_mul]
  have hfirst : registers.framePointer.toNat + 2 * m.frameSize < 0x10000000000000000 := by omega
  obtain ⟨-, hbound, -⟩ := framePointer_of_attempt hc h hfirst
  exact ⟨hfirst, by omega⟩

/-- **The frame pointer in some steps** never goes down, and goes up by two frames a step at most.
-/
theorem framePointer_of_registersOut (hc : u.convention = .riscv64)
    (hsize : ∀ m ∈ u.registry.methods, m.frameSize ≤ largest)
    (h : u.registersOut n registers = .ok (some outer))
    (hroom : registers.framePointer.toNat + 2 * n * largest < 0x10000000000000000) :
    registers.framePointer.toNat ≤ outer.framePointer.toNat ∧
      outer.framePointer.toNat ≤ registers.framePointer.toNat + 2 * n * largest := by
  induction n generalizing registers with
  | zero =>
    obtain rfl := eq_of_registersOut_zero h
    exact ⟨Nat.le_refl _, Nat.le_add_right _ _⟩
  | succ n ih =>
    obtain ⟨m, unwound, hattempt, hrest⟩ := exists_attempt_of_registersOut h
    obtain ⟨hfirst, hothers⟩ := room_of_attempt hc hsize hattempt hroom
    obtain ⟨hup, -⟩ := framePointer_of_attempt hc hattempt hfirst
    obtain ⟨hup', hbound'⟩ := ih hrest (Nat.lt_of_le_of_lt hothers hroom)
    exact ⟨Nat.le_trans hup hup', Nat.le_trans hbound' hothers⟩

/-- Room for all steps of a walk is, after some of them, room for those that are left. -/
theorem room_of_registersOut (hc : u.convention = .riscv64)
    (hsize : ∀ m ∈ u.registry.methods, m.frameSize ≤ largest)
    (h : u.registersOut n registers = .ok (some outer)) {limit k : Nat} (hle : n + k ≤ limit)
    (hroom : registers.framePointer.toNat + 2 * limit * largest < 0x10000000000000000) :
    outer.framePointer.toNat + 2 * k * largest < 0x10000000000000000 := by
  have hsteps : 2 * n * largest + 2 * k * largest ≤ 2 * limit * largest := by
    rw [← Nat.add_mul]
    exact Nat.mul_le_mul_right largest (by omega)
  obtain ⟨-, hbound⟩ := framePointer_of_registersOut hc hsize h (by omega)
  omega

/-- A frame from which some steps lead to a frame with the same frame pointer is not allocated yet.
-/
theorem preAlloc_of_framePointer_eq (hc : u.convention = .riscv64)
    (hsize : ∀ m ∈ u.registry.methods, m.frameSize ≤ largest)
    (hattempt : u.attempt registers = .ok (some (m, unwound)))
    (hout : u.registersOut n (registers.setAll unwound.saved) = .ok (some outer))
    (hroom : registers.framePointer.toNat + 2 * (n + 1) * largest < 0x10000000000000000)
    (hsame : outer.framePointer = registers.framePointer) :
    u.frameState m registers.pc = .preAlloc ∧
      (registers.setAll unwound.saved).framePointer = registers.framePointer := by
  obtain ⟨hfirst, hothers⟩ := room_of_attempt hc hsize hattempt hroom
  obtain ⟨hup, -, hgrows⟩ := framePointer_of_attempt hc hattempt hfirst
  obtain ⟨hup', -⟩ :=
    framePointer_of_registersOut hc hsize hout (Nat.lt_of_le_of_lt hothers hroom)
  rw [hsame] at hup'
  refine ⟨?_, Address.ext_toNat (Nat.le_antisymm hup' hup)⟩
  by_contra hs
  have hpos := m.frameSize_pos
  have hgrown := hgrows hs
  omega

/-- **Two frames differ.** A frame, and one that is reached from its caller in some steps, have
different addresses or different places, if each step before the second one changes the registers.
-/
theorem identity_ne_of_registersOut (hc : u.convention = .riscv64) (houtside : u.ReentryOutside)
    (hsize : ∀ m ∈ u.registry.methods, m.frameSize ≤ largest)
    {m' : CompiledMethod} {unwound' : UnwoundFrame}
    (hattempt : u.attempt registers = .ok (some (m, unwound)))
    (hmoves : registers.setAll unwound.saved ≠ registers)
    (hcaller : ∀ m₁ unwound₁, 0 < n →
      u.attempt (registers.setAll unwound.saved) = .ok (some (m₁, unwound₁)) →
      (registers.setAll unwound.saved).setAll unwound₁.saved ≠ registers.setAll unwound.saved)
    (hout : u.registersOut n (registers.setAll unwound.saved) = .ok (some outer))
    (hattempt' : u.attempt outer = .ok (some (m', unwound')))
    (hroom : registers.framePointer.toNat + 2 * (n + 1) * largest < 0x10000000000000000) :
    ¬ (unwound.cfa = unwound'.cfa ∧ registers.pc = outer.pc) := by
  rintro ⟨hcfa, hpc⟩
  have hlook := lookup?_of_attempt hattempt
  have hlook' := lookup?_of_attempt hattempt'
  obtain rfl : m = m' := by
    rw [hpc, hlook'] at hlook
    exact (Option.some.inj hlook).symm
  -- the same place has the same state, so the same address has the same frame pointer
  have hsame : outer.framePointer = registers.framePointer := by
    obtain ⟨ra, rfl, -⟩ := unwoundAt_of_attempt hc hattempt
    obtain ⟨ra', rfl, -⟩ := unwoundAt_of_attempt hc hattempt'
    rw [← hpc] at hcfa
    exact (FrameState.frameAddress_inj hcfa).symm
  obtain ⟨hpre, hstays⟩ := preAlloc_of_framePointer_eq hc hsize hattempt hout hroom hsame
  cases n with
  | zero =>
    obtain rfl := eq_of_registersOut_zero hout
    have hsettled := settled_of_pc_eq hc houtside hattempt hpre hpc.symm
    exact hmoves (setAll_eq_of_settled hc hattempt hpre hsettled)
  | succ n =>
    -- the caller comes between the two, at the same frame pointer and settled by the first step
    obtain ⟨m₁, unwound₁, hattempt₁, hout₁⟩ := exists_attempt_of_registersOut hout
    have hothers := (room_of_attempt hc hsize hattempt hroom).2
    obtain ⟨hpre₁, -⟩ := preAlloc_of_framePointer_eq hc hsize hattempt₁ hout₁
      (Nat.lt_of_le_of_lt hothers hroom) (hsame.trans hstays.symm)
    exact hcaller m₁ unwound₁ (Nat.succ_pos n) hattempt₁
      (setAll_eq_of_settled hc hattempt₁ hpre₁ (settled_setAll hc hattempt))

end Steps

/-! ## The walk -/

section Walk

variable {largest limit : Nat} {frames : List StackFrame}

/-- On riscv64 no frame has more slots than fit a machine word. -/
theorem slotsFit_riscv64 (hc : u.convention = .riscv64) : u.SlotsFit := by
  intro m _
  rw [hc]
  exact ⟨_, CallingConvention.slotOffset_riscv64 _⟩

theorem identity_ne_of_walk (hc : u.convention = .riscv64) (houtside : u.ReentryOutside)
    (hsize : ∀ m ∈ u.registry.methods, m.frameSize ≤ largest)
    (hroom : registers.framePointer.toNat + 2 * limit * largest < 0x10000000000000000)
    (h : u.walk limit 0 registers = .ok frames) {i j : Nat} {inner outer : StackFrame}
    (hij : i < j) (hi : frames[i]? = some inner) (hj : frames[j]? = some outer)
    (hinner : inner.isCompiled = true) (houter : outer.isCompiled = true) :
    (inner.cfa?, inner.pc) ≠ (outer.cfa?, outer.pc) := by
  have hlimit := length_le_of_walk h
  have hlong : j < frames.length := (List.getElem?_eq_some_iff.mp hj).1
  obtain ⟨first, hfirst, hpresents, hmoves⟩ := exists_registersOut h hi
  obtain ⟨last, hlast, hpresents', -⟩ := exists_registersOut h hj
  obtain ⟨m, unwound, hattempt, rfl⟩ := hpresents.exists_attempt hinner
  obtain ⟨m', unwound', hattempt', rfl⟩ := hpresents'.exists_attempt houter
  obtain ⟨n, rfl⟩ := Nat.exists_eq_add_of_le hij
  have hcaller := registersOut_succ_of_registersOut hfirst hattempt
  have hout : u.registersOut n (first.setAll unwound.saved) = .ok (some last) := by
    rw [← registersOut_add hcaller]
    exact hlast
  have hroom' : first.framePointer.toNat + 2 * (n + 1) * largest < 0x10000000000000000 :=
    room_of_registersOut hc hsize hfirst (by omega) hroom
  refine fun hsame => identity_ne_of_registersOut hc houtside hsize hattempt
    (hmoves (by omega) m unwound hattempt) ?_ hout hattempt' hroom' ?_
  · intro m₁ unwound₁ hpos hattempt₁
    have hnext : i + 1 < frames.length := by omega
    obtain ⟨second, hsecond, -, hmoves₁⟩ :=
      exists_registersOut h (List.getElem?_eq_getElem hnext)
    obtain rfl : second = first.setAll unwound.saved :=
      Option.some.inj (Except.ok.inj (hsecond.symm.trans hcaller))
    exact hmoves₁ (by omega) m₁ unwound₁ hattempt₁
  · obtain ⟨hcfa, hpc⟩ := Prod.mk.inj hsame
    exact ⟨Option.some.inj hcfa, hpc⟩

/-- **No frame is shown twice.** On riscv64, with the call in the interpreter outside all compiled
methods and room above the frame pointer for two frames a step, there is a backtrace. Its compiled
frames differ in address or place. From each of them to its caller the frame pointer does not go
down, and it goes up by a word at least unless the frame is not allocated yet. -/
theorem backtrace_never_repeats (hc : u.convention = .riscv64) (houtside : u.ReentryOutside)
    (hsize : ∀ m ∈ u.registry.methods, m.frameSize ≤ largest)
    (hroom : registers.framePointer.toNat + 2 * limit * largest < 0x10000000000000000) :
    ∃ frames, u.backtrace registers limit = .ok frames ∧
      (frames.filter (·.isCompiled)).Pairwise
        (fun inner outer => (inner.cfa?, inner.pc) ≠ (outer.cfa?, outer.pc)) ∧
      ∀ i frame, frames[i]? = some frame → frame.isCompiled = true →
        ∃ m inner outer, u.registry.lookup? frame.pc = some m ∧
          u.registersOut i registers = .ok (some inner) ∧
          u.registersOut (i + 1) registers = .ok (some outer) ∧
          inner.framePointer.toNat ≤ outer.framePointer.toNat ∧
          (u.frameState m frame.pc ≠ .preAlloc →
            inner.framePointer.toNat + 8 ≤ outer.framePointer.toNat) := by
  obtain ⟨frames, hframes⟩ := (slotsFit_riscv64 hc).exists_walk limit 0 registers
  refine ⟨frames, hframes, ?_, fun i frame hi hcompiled => ?_⟩
  · rw [List.pairwise_filter, List.pairwise_iff_getElem]
    intro i j hi hj hij hinner houter
    exact identity_ne_of_walk hc houtside hsize hroom hframes hij (List.getElem?_eq_getElem hi)
      (List.getElem?_eq_getElem hj) hinner houter
  · have hlimit := length_le_of_walk hframes
    have hlong : i < frames.length := (List.getElem?_eq_some_iff.mp hi).1
    obtain ⟨inner, hinner, hpresents, -⟩ := exists_registersOut hframes hi
    obtain ⟨m, unwound, hattempt, rfl⟩ := hpresents.exists_attempt hcompiled
    have hm := lookup?_of_attempt hattempt
    have hroom' : inner.framePointer.toNat + 2 * (0 + 1) * largest < 0x10000000000000000 :=
      room_of_registersOut hc hsize hinner (by omega) hroom
    have hfirst := (room_of_attempt hc hsize hattempt hroom').1
    obtain ⟨hup, -, hgrows⟩ := framePointer_of_attempt hc hattempt hfirst
    refine ⟨m, inner, _, hm, hinner, registersOut_succ_of_registersOut hinner hattempt, hup,
      fun hs => ?_⟩
    have hword := m.frameSize_eq
    have hgrown := hgrows hs
    omega

theorem backtrace_never_repeats_sample :
    ∃ frames, reentrantUnwinder.backtrace (sampleRegisters 0x4004 0x7fe0 0x4020) 16 = .ok frames ∧
      frames.map (·.pc) = [⟨0x4004⟩, ⟨0x4020⟩, ⟨0x9032⟩] ∧
      (frames.filter (·.isCompiled)).Pairwise
        (fun inner outer => (inner.cfa?, inner.pc) ≠ (outer.cfa?, outer.pc)) := by
  have houtside : reentrantUnwinder.ReentryOutside := by
    intro interpreter hglobal m hm
    obtain rfl : (⟨0x9000⟩ : Address) = interpreter := Option.some.inj hglobal
    obtain rfl := List.mem_singleton.mp hm
    decide
  have hsize : ∀ m ∈ reentrantUnwinder.registry.methods, m.frameSize ≤ 0x20 := by
    intro m hm
    obtain rfl := List.mem_singleton.mp hm
    decide
  have hroom : (sampleRegisters 0x4004 0x7fe0 0x4020).framePointer.toNat + 2 * 16 * 0x20 <
      0x10000000000000000 := by decide
  obtain ⟨frames, hframes, hpairwise, -⟩ := backtrace_never_repeats rfl houtside hsize hroom
  have hplaces : (reentrantUnwinder.backtrace (sampleRegisters 0x4004 0x7fe0 0x4020) 16).map
      (·.map (·.pc)) = .ok [⟨0x4004⟩, ⟨0x4020⟩, ⟨0x9032⟩] := rfl
  rw [hframes] at hplaces
  exact ⟨frames, hframes, Except.ok.inj hplaces, hpairwise⟩

end Walk

end Unwinder

end CompiledFrames
