import CompiledFrames.Session
import CompiledFrames.Proofs.Method.Registry
import CompiledFrames.Proofs.Unwind.Windows

/-!
# The walk and its single frames

A backtrace walks the stack in one go; the registers of one frame and what unwinding it gives are
found by another walk, which counts its steps and knows no other end. Both go the same way: the
frame with number `i` of a backtrace is the one that is `i` frames out, and a frame that the
backtrace cannot unwind is the last that can be reached at all.

## Main definitions

* `Unwinder.Presents`: the frame that a backtrace has for registers
* `Unwinder.SlotsFit`: no frame has more slots than fit a machine word, so that nothing traps

## Main results

* `Unwinder.walk_succ_eq_ok`: what one frame adds to a walk
* `Unwinder.exists_registersOut`: what registers each frame of a walk has, and that they change
* `Session.backtrace_agrees`: a backtrace and the requests for single frames agree
-/

namespace CompiledFrames

/-! ## Computations without traps -/

/-- A computation that does not end in a trap. -/
def Checked.Untrapped {α : Type} (x : Checked α) : Prop :=
  ∀ t, x ≠ .error (.trap t)

namespace Checked

variable {α β : Type}

theorem untrapped_ok (a : α) : Untrapped (.ok a) := nofun

theorem untrapped_ofExcept (x : Except Error α) : Untrapped (ofExcept x) := by
  cases x <;> exact nofun

theorem Untrapped.bind {x : Checked α} {f : α → Checked β} (hx : Untrapped x)
    (hf : ∀ a, Untrapped (f a)) : Untrapped (x >>= f) := by
  cases x with
  | ok a => exact hf a
  | error failure =>
    intro t h
    exact hx t (congrArg Except.error (Except.error.inj h))

end Checked

namespace Unwinder

variable {u : Unwinder}

/-- The slots of every frame of a registered method fit a machine word. -/
def SlotsFit (u : Unwinder) : Prop :=
  ∀ m ∈ u.registry.methods, ∃ offset, u.convention.slotOffset m.metadata.frameSlots = .ok offset

theorem SlotsFit.unwindMethod (h : u.SlotsFit) {m : CompiledMethod} (hm : m ∈ u.registry.methods)
    (frame : LiveFrame) (pc : Address) : Checked.Untrapped (u.unwindMethod m frame pc) := by
  have hslot (cfa : Address) : Checked.Untrapped (locate.fromSlot u m cfa) := by
    obtain ⟨offset, hoffset⟩ := h m hm
    unfold locate.fromSlot
    rw [hoffset]
    exact (Checked.untrapped_ofExcept _).bind fun _ => Checked.untrapped_ok _
  have hlocate (state : FrameState) (framePointer : Address) :
      Checked.Untrapped (u.locate m frame state framePointer) := by
    cases state with
    | preAlloc => exact (Checked.untrapped_ofExcept _).bind fun _ => Checked.untrapped_ok _
    | epilogue => exact hslot _
    | body => exact hslot _
  exact (Checked.untrapped_ofExcept _).bind fun _ => (hlocate _ _).bind fun _ =>
    (Checked.untrapped_ofExcept _).bind fun _ => Checked.untrapped_ok _

theorem SlotsFit.step (h : u.SlotsFit) (frame : LiveFrame) : Checked.Untrapped (u.step frame) := by
  refine (Checked.untrapped_ofExcept _).bind fun pc => ?_
  cases hm : u.registry.lookup? ⟨pc⟩ with
  | none =>
    simp only [hm]
    exact Checked.untrapped_ok _
  | some m =>
    simp only [hm]
    exact (h.unwindMethod (Registry.mem_of_lookup? hm) frame _).bind fun _ =>
      Checked.untrapped_ok _

theorem SlotsFit.exists_attempt (h : u.SlotsFit) (registers : Registers) :
    ∃ result, u.attempt registers = .ok result := by
  unfold attempt
  cases hstep : u.step registers.live with
  | ok result => exact ⟨result, rfl⟩
  | error failure =>
    cases failure with
    | error e => exact ⟨none, rfl⟩
    | trap t => exact absurd hstep (h.step registers.live t)

/-! ## One frame -/

variable {registers : Registers} {m : CompiledMethod} {unwound : UnwoundFrame}

theorem unwind_of_attempt {result : Option (CompiledMethod × UnwoundFrame)}
    (h : u.attempt registers = .ok result) :
    u.unwind registers = .ok (result.map (·.2)) := by
  unfold unwind
  rw [h, Except.map_ok]

theorem exists_attempt_of_unwind (h : u.unwind registers = .ok (some unwound)) :
    ∃ m, u.attempt registers = .ok (some (m, unwound)) := by
  obtain ⟨result, hresult, hunwound⟩ := Except.map_eq_ok.mp h
  obtain ⟨⟨m, unwound⟩, rfl, rfl⟩ := Option.map_eq_some_iff.mp hunwound
  exact ⟨m, hresult⟩

theorem step_of_attempt (h : u.attempt registers = .ok (some (m, unwound))) :
    u.step registers.live = .ok (some (m, unwound)) := by
  unfold attempt at h
  cases hstep : u.step registers.live with
  | ok result =>
    rw [hstep] at h
    obtain rfl := Except.ok.inj h
    rfl
  | error failure =>
    rw [hstep] at h
    cases failure <;> nomatch h

/-- Only the method at the place of the registers is ever unwound. -/
theorem unwindMethod_of_attempt (h : u.attempt registers = .ok (some (m, unwound))) :
    u.registry.lookup? registers.pc = some m ∧
      u.unwindMethod m registers.live registers.pc = .ok unwound := by
  have hstep := step_of_attempt h
  unfold step at hstep
  obtain ⟨pc, hpc, hstep⟩ := Except.bind_eq_ok.mp hstep
  obtain rfl : registers.pc.val = pc := Except.ok.inj hpc
  cases hm : u.registry.lookup? registers.pc with
  | none =>
    simp only [hm] at hstep
    nomatch hstep
  | some found =>
    simp only [hm] at hstep
    obtain ⟨frame, hframe, hstep⟩ := Except.bind_eq_ok.mp hstep
    obtain ⟨rfl, rfl⟩ := Prod.mk.inj (Option.some.inj (Except.ok.inj hstep))
    exact ⟨rfl, hframe⟩

theorem lookup?_of_attempt (h : u.attempt registers = .ok (some (m, unwound))) :
    u.registry.lookup? registers.pc = some m :=
  (unwindMethod_of_attempt h).1

theorem pc_of_attempt (h : u.attempt registers = .ok (some (m, unwound))) :
    unwound.pc = registers.pc := by
  have hunwind := (unwindMethod_of_attempt h).2
  unfold unwindMethod at hunwind
  obtain ⟨framePointer, -, hunwind⟩ := Except.bind_eq_ok.mp hunwind
  obtain ⟨⟨cfa, returnAddress⟩, -, hunwind⟩ := Except.bind_eq_ok.mp hunwind
  obtain ⟨stackPointer, -, hunwind⟩ := Except.bind_eq_ok.mp hunwind
  obtain rfl := Except.ok.inj hunwind
  rfl

/-- The frame that a backtrace has for registers, with its number. -/
inductive Presents (u : Unwinder) (index : Nat) (registers : Registers) : StackFrame → Prop
  | compiled {m : CompiledMethod} {unwound : UnwoundFrame}
      (h : u.attempt registers = .ok (some (m, unwound))) :
      Presents u index registers (u.compiledFrame index registers.pc m unwound)
  | unknown (h : u.attempt registers = .ok none) :
      Presents u index registers (u.unknownFrame index registers.pc)

theorem Presents.exists_attempt {index : Nat} {frame : StackFrame}
    (h : u.Presents index registers frame) (hcompiled : frame.isCompiled = true) :
    ∃ m unwound, u.attempt registers = .ok (some (m, unwound)) ∧
      frame = u.compiledFrame index registers.pc m unwound := by
  cases h with
  | compiled hattempt => exact ⟨_, _, hattempt, rfl⟩
  | unknown => nomatch hcompiled

theorem Presents.pc {index : Nat} {frame : StackFrame} (h : u.Presents index registers frame) :
    frame.pc = registers.pc := by
  cases h <;> rfl

/-! ## The way out -/

section Out

variable {n : Nat} {outer : Registers}

theorem registersOut_succ_of_some (h : u.attempt registers = .ok (some (m, unwound))) (n : Nat) :
    u.registersOut (n + 1) registers = u.registersOut n (registers.setAll unwound.saved) := by
  rw [registersOut, unwind_of_attempt h]
  rfl

theorem registersOut_succ_of_none (h : u.attempt registers = .ok none) (n : Nat) :
    u.registersOut (n + 1) registers = .ok none := by
  rw [registersOut, unwind_of_attempt h]
  rfl

theorem eq_of_registersOut_zero (h : u.registersOut 0 registers = .ok (some outer)) :
    registers = outer :=
  Option.some.inj (Except.ok.inj h)

/-- What is reached beyond a frame is reached from the caller of that frame. -/
theorem exists_attempt_of_registersOut
    (h : u.registersOut (n + 1) registers = .ok (some outer)) :
    ∃ m unwound, u.attempt registers = .ok (some (m, unwound)) ∧
      u.registersOut n (registers.setAll unwound.saved) = .ok (some outer) := by
  rw [registersOut] at h
  obtain ⟨result, hresult, h⟩ := Except.bind_eq_ok.mp h
  cases result with
  | none => nomatch h
  | some unwound =>
    obtain ⟨m, hattempt⟩ := exists_attempt_of_unwind hresult
    exact ⟨m, unwound, hattempt, h⟩

/-- Going out some frames and then some more. -/
theorem registersOut_add (h : u.registersOut n registers = .ok (some outer)) (k : Nat) :
    u.registersOut (n + k) registers = u.registersOut k outer := by
  induction n generalizing registers with
  | zero =>
    obtain rfl := eq_of_registersOut_zero h
    rw [Nat.zero_add]
  | succ n ih =>
    obtain ⟨m, unwound, hattempt, hrest⟩ := exists_attempt_of_registersOut h
    rw [Nat.succ_add, registersOut_succ_of_some hattempt]
    exact ih hrest

theorem registersOut_succ_of_registersOut (h : u.registersOut n registers = .ok (some outer))
    (hattempt : u.attempt outer = .ok (some (m, unwound))) :
    u.registersOut (n + 1) registers = .ok (some (outer.setAll unwound.saved)) := by
  rw [registersOut_add h 1, registersOut_succ_of_some hattempt]
  rfl

/-- What is true of the caller of every frame is true of all registers that are further out. -/
theorem of_registersOut_succ {P : Registers → Prop}
    (hcaller : ∀ registers m unwound, u.attempt registers = .ok (some (m, unwound)) →
      P (registers.setAll unwound.saved))
    (h : u.registersOut (n + 1) registers = .ok (some outer)) : P outer := by
  induction n generalizing registers with
  | zero =>
    obtain ⟨m, unwound, hattempt, hrest⟩ := exists_attempt_of_registersOut h
    rw [← eq_of_registersOut_zero hrest]
    exact hcaller registers m unwound hattempt
  | succ n ih =>
    obtain ⟨m, unwound, hattempt, hrest⟩ := exists_attempt_of_registersOut h
    exact ih hrest

end Out

/-! ## The walk -/

section Walk

variable {limit index i : Nat} {frames : List StackFrame} {frame : StackFrame}

/-- **One frame of a walk.** A walk that may take a frame is over at address zero; otherwise it
begins with the frame of its registers, and goes on from the caller only if that changes them. -/
theorem walk_succ_eq_ok (h : u.walk (limit + 1) index registers = .ok frames) :
    frames = [] ∨ ∃ frame rest, frames = frame :: rest ∧ u.Presents index registers frame ∧
      (rest = [] ∨ ∃ m unwound, u.attempt registers = .ok (some (m, unwound)) ∧
        registers.setAll unwound.saved ≠ registers ∧
        u.walk limit (index + 1) (registers.setAll unwound.saved) = .ok rest) := by
  rw [walk] at h
  by_cases hzero : registers.pc = ⟨0⟩
  · rw [if_pos hzero] at h
    exact .inl (Except.ok.inj h).symm
  rw [if_neg hzero] at h
  obtain ⟨result, hresult, h⟩ := Except.bind_eq_ok.mp h
  refine .inr ?_
  match result with
  | none =>
    obtain rfl := Except.ok.inj h
    exact ⟨_, [], rfl, .unknown hresult, .inl rfl⟩
  | some (m, unwound) =>
    by_cases hsame : registers.setAll unwound.saved = registers
    · simp only [if_pos hsame] at h
      obtain rfl := Except.ok.inj h
      exact ⟨_, [], rfl, .compiled hresult, .inl rfl⟩
    · simp only [if_neg hsame] at h
      obtain ⟨rest, hrest, h⟩ := Except.bind_eq_ok.mp h
      obtain rfl := Except.ok.inj h
      exact ⟨_, rest, rfl, .compiled hresult, .inr ⟨m, unwound, hresult, hsame, hrest⟩⟩

theorem length_le_of_walk (h : u.walk limit index registers = .ok frames) :
    frames.length ≤ limit := by
  induction limit generalizing index registers frames with
  | zero =>
    obtain rfl := Except.ok.inj h
    exact Nat.le_refl 0
  | succ limit ih =>
    rcases walk_succ_eq_ok h with rfl | ⟨frame, rest, rfl, -, rfl | ⟨m, unwound, -, -, hrest⟩⟩
    · exact Nat.zero_le _
    · exact Nat.succ_le_succ (Nat.zero_le _)
    · exact Nat.succ_le_succ (ih hrest)

/-- **The frames of a walk.** The frame with number `i` is the one for the registers that are `i`
frames out; if it is not the last one, then its caller has other registers. -/
theorem exists_registersOut (h : u.walk limit index registers = .ok frames)
    (hi : frames[i]? = some frame) :
    ∃ outer, u.registersOut i registers = .ok (some outer) ∧ u.Presents (index + i) outer frame ∧
      (i + 1 < frames.length → ∀ m unwound, u.attempt outer = .ok (some (m, unwound)) →
        outer.setAll unwound.saved ≠ outer) := by
  -- the frames after the first are a walk from its caller, which is one frame less far in
  induction limit generalizing index registers frames i with
  | zero =>
    obtain rfl := Except.ok.inj h
    nomatch hi
  | succ limit ih =>
    rcases walk_succ_eq_ok h with rfl | ⟨first, rest, rfl, hfirst, hrest⟩
    · nomatch hi
    cases i with
    | zero =>
      obtain rfl : first = frame := Option.some.inj hi
      refine ⟨registers, rfl, hfirst, fun hlong m' unwound' hattempt' => ?_⟩
      rcases hrest with rfl | ⟨m, unwound, hattempt, hmoves, -⟩
      · exact absurd hlong (Nat.lt_irrefl 1)
      · rw [hattempt'] at hattempt
        obtain ⟨-, rfl⟩ := Prod.mk.inj (Option.some.inj (Except.ok.inj hattempt))
        exact hmoves
    | succ i =>
      rcases hrest with rfl | ⟨m, unwound, hattempt, -, hwalk⟩
      · nomatch hi
      obtain ⟨outer, hout, hpresents, hmoves⟩ := ih hwalk hi
      refine ⟨outer, ?_, ?_, fun hlong => hmoves (Nat.lt_of_succ_lt_succ hlong)⟩
      · rw [registersOut_succ_of_some hattempt]
        exact hout
      · rw [Nat.add_comm i 1, ← Nat.add_assoc]
        exact hpresents

/-- A walk that cannot trap gives some frames. -/
theorem SlotsFit.exists_walk (hfit : u.SlotsFit) (limit index : Nat) (registers : Registers) :
    ∃ frames, u.walk limit index registers = .ok frames := by
  induction limit generalizing index registers with
  | zero => exact ⟨[], rfl⟩
  | succ limit ih =>
    rw [walk]
    by_cases hzero : registers.pc = ⟨0⟩
    · exact ⟨[], if_pos hzero⟩
    rw [if_neg hzero]
    obtain ⟨result, hresult⟩ := hfit.exists_attempt registers
    rw [hresult]
    match result with
    | none => exact ⟨_, rfl⟩
    | some (m, unwound) =>
      rw [Except.ok_bind]
      by_cases hsame : registers.setAll unwound.saved = registers
      · exact ⟨_, if_pos hsame⟩
      · obtain ⟨rest, hrest⟩ := ih (index + 1) (registers.setAll unwound.saved)
        simp only [if_neg hsame, hrest]
        exact ⟨_, rfl⟩

end Walk

end Unwinder

/-! ## Sessions -/

namespace Session

/-- **A backtrace agrees with its single frames.** A session has a backtrace unless some frame has
more slots than fit a machine word. The registers of each of its frames can be had and are at the
place of the frame. Compiled code is unwound to the address, the place and the return address that
the backtrace has for it; any other frame is not unwound, and nothing beyond it can be reached. -/
theorem backtrace_agrees (session : Session) (registers : Registers) :
    (session.unwinder.SlotsFit → ∃ frames, session.backtrace registers = .ok frames) ∧
    ∀ frames, session.backtrace registers = .ok frames → ∀ i frame, frames[i]? = some frame →
      (∃ outer, session.registersOut registers i = .ok (some outer) ∧ outer.pc = frame.pc) ∧
      (frame.isCompiled = true → ∃ unwound,
        session.unwindOut registers i = .ok (some unwound) ∧
        frame.cfa? = some unwound.cfa ∧ unwound.pc = frame.pc ∧
        (unwound.saved? session.settings.convention.returnAddress).map Address.mk =
          frame.returnAddress?) ∧
      (frame.isCompiled = false →
        session.unwindOut registers i = .ok none ∧
        ∀ j, i < j → session.registersOut registers j = .ok none) := by
  refine ⟨fun hfit => hfit.exists_walk _ _ _, fun frames h i frame hi => ?_⟩
  obtain ⟨outer, hout, hpresents, -⟩ := Unwinder.exists_registersOut h hi
  have hunwind : session.unwindOut registers i = session.unwinder.unwind outer := by
    rw [unwindOut, Unwinder.unwindOut, hout]
    rfl
  refine ⟨⟨outer, hout, hpresents.pc.symm⟩, fun hcompiled => ?_, fun hunknown => ?_⟩
  · obtain ⟨m, unwound, hattempt, rfl⟩ := hpresents.exists_attempt hcompiled
    refine ⟨unwound, ?_, rfl, Unwinder.pc_of_attempt hattempt, rfl⟩
    rw [hunwind, Unwinder.unwind_of_attempt hattempt]
    rfl
  · cases hpresents with
    | compiled hattempt => nomatch hunknown
    | unknown hattempt =>
      refine ⟨?_, fun j hj => ?_⟩
      · rw [hunwind, Unwinder.unwind_of_attempt hattempt]
        rfl
      · obtain ⟨k, rfl⟩ := Nat.exists_eq_add_of_lt hj
        rw [Nat.add_assoc, registersOut, Unwinder.registersOut_add hout]
        exact Unwinder.registersOut_succ_of_none hattempt k

/-- A session stopped in the body of its only method, with native code as the caller. -/
def sample : Session where
  settings := {}
  shape := .riscv64
  registry := Unwinder.sampleUnwinder.registry
  memory := Unwinder.sampleUnwinder.memory
  symbols := {}

theorem backtrace_agrees_sample :
    sample.unwinder.SlotsFit ∧
    sample.backtrace (Unwinder.sampleRegisters 0x4020 0x7fe0 0x1) = .ok
      [⟨0, ⟨0x4020⟩, .compiled ⟨0x7fe0⟩ (some ⟨0x6000⟩) "Foo.bar()V" ⟨"Foo.java", none⟩⟩,
        ⟨1, ⟨0x6000⟩, .unknown none⟩] ∧
    (∃ unwound, sample.unwindOut (Unwinder.sampleRegisters 0x4020 0x7fe0 0x1) 0 =
        .ok (some unwound) ∧ unwound.cfa = ⟨0x7fe0⟩ ∧ unwound.pc = ⟨0x4020⟩ ∧
      (unwound.saved? .ra).map Address.mk = some ⟨0x6000⟩) ∧
    ∀ j, 1 < j → sample.registersOut (Unwinder.sampleRegisters 0x4020 0x7fe0 0x1) j =
      .ok none := by
  have hfit : sample.unwinder.SlotsFit := fun _ _ => ⟨_, CallingConvention.slotOffset_riscv64 _⟩
  obtain ⟨hexists, hagree⟩ :=
    backtrace_agrees sample (Unwinder.sampleRegisters 0x4020 0x7fe0 0x1)
  obtain ⟨frames, hframes⟩ := hexists hfit
  have hshown : sample.backtrace (Unwinder.sampleRegisters 0x4020 0x7fe0 0x1) = .ok
      [⟨0, ⟨0x4020⟩, .compiled ⟨0x7fe0⟩ (some ⟨0x6000⟩) "Foo.bar()V" ⟨"Foo.java", none⟩⟩,
        ⟨1, ⟨0x6000⟩, .unknown none⟩] := rfl
  obtain rfl := Except.ok.inj (hshown.symm.trans hframes)
  obtain ⟨-, hcompiled, -⟩ := hagree _ hframes 0 _ rfl
  obtain ⟨-, -, hunknown⟩ := hagree _ hframes 1 _ rfl
  obtain ⟨unwound, hunwound, hcfa, hpc, hra⟩ := hcompiled rfl
  exact ⟨hfit, hframes, ⟨unwound, hunwound, (Option.some.inj hcfa).symm, hpc, hra⟩,
    (hunknown rfl).2⟩

end Session

end CompiledFrames
