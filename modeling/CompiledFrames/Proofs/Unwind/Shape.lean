import Mathlib.Data.List.Chain
import CompiledFrames.Proofs.Unwind.Progress

/-!
# The shape of a walk

A walk ends in one of four ways: the limit is reached, the place is address zero, the frame is not
unwound, or unwinding it changes no register. Else it shows the frame and goes on from the caller.
The ways are the constructors of a relation between registers and frames, so that what is true of
all walks is an induction with one case for each way.

## Main definitions

* `Unwinder.Walks`: a walk and its frames, by the ways in which it goes on or ends

## Main results

* `Unwinder.walk_eq_ok_iff`: the frames that the unwinder computes are those of the relation
* `Unwinder.Walks.take`: under a lower limit a walk has the same first frames
* `Unwinder.Walks.isChain`: each frame but the last is compiled code that returns to the next one
* `Unwinder.Walks.stop_of_getLast?`: why a walk ends with compiled code
* `Unwinder.backtrace_shape`: the shape of a backtrace
-/

namespace CompiledFrames

namespace Unwinder

variable {u : Unwinder} {limit index : Nat} {registers : Registers} {frames : List StackFrame}

/-! ## The ways of a walk -/

/-- A walk from some registers, with its limit, the number of its first frame and its frames. -/
inductive Walks (u : Unwinder) : (limit index : Nat) → Registers → List StackFrame → Prop
  /-- No more frames are wanted. -/
  | limit {index : Nat} {registers : Registers} : Walks u 0 index registers []
  /-- No frame executes address zero. -/
  | zero {limit index : Nat} {registers : Registers} (hpc : registers.pc = ⟨0⟩) :
      Walks u (limit + 1) index registers []
  /-- The frame is not unwound. -/
  | unknown {limit index : Nat} {registers : Registers} (hpc : registers.pc ≠ ⟨0⟩)
      (hattempt : u.attempt registers = .ok none) :
      Walks u (limit + 1) index registers [u.unknownFrame index registers.pc]
  /-- The caller has the registers of the frame. -/
  | stuck {limit index : Nat} {registers : Registers} {m : CompiledMethod}
      {unwound : UnwoundFrame} (hpc : registers.pc ≠ ⟨0⟩)
      (hattempt : u.attempt registers = .ok (some (m, unwound)))
      (hstays : registers.setAll unwound.saved = registers) :
      Walks u (limit + 1) index registers [u.compiledFrame index registers.pc m unwound]
  /-- The walk goes on from the caller. -/
  | next {limit index : Nat} {registers : Registers} {m : CompiledMethod}
      {unwound : UnwoundFrame} {rest : List StackFrame} (hpc : registers.pc ≠ ⟨0⟩)
      (hattempt : u.attempt registers = .ok (some (m, unwound)))
      (hmoves : registers.setAll unwound.saved ≠ registers)
      (hrest : Walks u limit (index + 1) (registers.setAll unwound.saved) rest) :
      Walks u (limit + 1) index registers (u.compiledFrame index registers.pc m unwound :: rest)

theorem walks_of_walk (h : u.walk limit index registers = .ok frames) :
    u.Walks limit index registers frames := by
  induction limit generalizing index registers frames with
  | zero =>
    obtain rfl := Except.ok.inj h
    exact .limit
  | succ limit ih =>
    rw [walk] at h
    by_cases hzero : registers.pc = ⟨0⟩
    · rw [if_pos hzero] at h
      obtain rfl := Except.ok.inj h
      exact .zero hzero
    rw [if_neg hzero] at h
    obtain ⟨result, hattempt, h⟩ := Except.bind_eq_ok.mp h
    rcases result with - | ⟨m, unwound⟩
    · obtain rfl := Except.ok.inj h
      exact .unknown hzero hattempt
    · by_cases hstays : registers.setAll unwound.saved = registers
      · simp only [if_pos hstays] at h
        obtain rfl := Except.ok.inj h
        exact .stuck hzero hattempt hstays
      · simp only [if_neg hstays] at h
        obtain ⟨rest, hrest, h⟩ := Except.bind_eq_ok.mp h
        obtain rfl := Except.ok.inj h
        exact .next hzero hattempt hstays (ih hrest)

theorem Walks.walk_eq (h : u.Walks limit index registers frames) :
    u.walk limit index registers = .ok frames := by
  induction h with
  | limit => rfl
  | zero hpc => rw [walk, if_pos hpc]
  | unknown hpc hattempt =>
    rw [walk, if_neg hpc, hattempt]
    rfl
  | stuck hpc hattempt hstays =>
    rw [walk, if_neg hpc, hattempt, Except.ok_bind]
    exact if_pos hstays
  | next hpc hattempt hmoves hrest ih =>
    rw [walk, if_neg hpc, hattempt, Except.ok_bind]
    simp only [if_neg hmoves, ih]
    rfl

/-- **The walks of the unwinder** are those which go on and end in the ways of the relation. -/
theorem walk_eq_ok_iff :
    u.walk limit index registers = .ok frames ↔ u.Walks limit index registers frames :=
  ⟨walks_of_walk, Walks.walk_eq⟩

namespace Walks

/-! ## The first frames -/

/-- **A lower limit** cuts a walk short and changes none of its frames. -/
theorem take (h : u.Walks limit index registers frames) {fewer : Nat} (hle : fewer ≤ limit) :
    u.Walks fewer index registers (frames.take fewer) := by
  induction h generalizing fewer with
  | limit =>
    obtain rfl := Nat.le_zero.mp hle
    exact .limit
  | zero hpc =>
    rcases fewer with - | fewer
    · exact .limit
    · exact .zero hpc
  | unknown hpc hattempt =>
    rcases fewer with - | fewer
    · exact .limit
    · rw [List.take_succ_cons, List.take_nil]
      exact .unknown hpc hattempt
  | stuck hpc hattempt hstays =>
    rcases fewer with - | fewer
    · exact .limit
    · rw [List.take_succ_cons, List.take_nil]
      exact .stuck hpc hattempt hstays
  | next hpc hattempt hmoves hrest ih =>
    rcases fewer with - | fewer
    · exact .limit
    · rw [List.take_succ_cons]
      exact .next hpc hattempt hmoves (ih (Nat.le_of_succ_le_succ hle))

/-- There are no frames just when none is wanted or the place is address zero. -/
theorem eq_nil_iff (h : u.Walks limit index registers frames) :
    frames = [] ↔ limit = 0 ∨ registers.pc = ⟨0⟩ := by
  cases h with
  | limit => simp
  | zero hpc => simp [hpc]
  | unknown hpc => simp [hpc]
  | stuck hpc => simp [hpc]
  | next hpc => simp [hpc]

theorem pc_of_head? (h : u.Walks limit index registers frames) {first : StackFrame}
    (hfirst : first ∈ frames.head?) : first.pc = registers.pc := by
  cases h with
  | limit => cases hfirst
  | zero => cases hfirst
  | unknown =>
    obtain rfl := Option.some.inj hfirst
    rfl
  | stuck =>
    obtain rfl := Option.some.inj hfirst
    rfl
  | next =>
    obtain rfl := Option.some.inj hfirst
    rfl

theorem pc_ne_zero (h : u.Walks limit index registers frames) :
    ∀ frame ∈ frames, frame.pc ≠ ⟨0⟩ := by
  induction h with
  | limit => exact nofun
  | zero => exact nofun
  | unknown hpc => exact List.forall_mem_singleton.mpr hpc
  | stuck hpc => exact List.forall_mem_singleton.mpr hpc
  | next hpc hattempt hmoves hrest ih => exact List.forall_mem_cons.mpr ⟨hpc, ih⟩

end Walks

/-! ## Neighbours -/

section Neighbours

variable {m : CompiledMethod} {unwound : UnwoundFrame}

/-- On riscv64 a frame shows the place of its caller as its return address. -/
theorem returnAddress?_compiledFrame (hc : u.convention = .riscv64)
    (h : u.attempt registers = .ok (some (m, unwound))) :
    (u.compiledFrame index registers.pc m unwound).returnAddress? =
      some (registers.setAll unwound.saved).pc := by
  obtain ⟨returnAddress, rfl, -⟩ := unwoundAt_of_attempt hc h
  rw [pc_setAll_unwoundAt]
  simp only [compiledFrame, StackFrame.returnAddress?, hc]
  rfl

/-- **Neighbours in a walk**: the inner one is compiled code, and it returns to the outer one. -/
theorem Walks.isChain (hc : u.convention = .riscv64) (h : u.Walks limit index registers frames) :
    frames.IsChain fun inner outer =>
      inner.isCompiled = true ∧ inner.returnAddress? = some outer.pc := by
  induction h with
  | limit => exact List.isChain_nil
  | zero => exact List.isChain_nil
  | unknown => exact List.isChain_singleton _
  | stuck => exact List.isChain_singleton _
  | next hpc hattempt hmoves hrest ih =>
    refine List.isChain_cons.mpr ⟨?_, ih⟩
    intro outer houter
    refine ⟨rfl, ?_⟩
    rw [returnAddress?_compiledFrame hc hattempt, hrest.pc_of_head? houter]

/-- **Why a walk ends with compiled code**: no more frames are wanted, the last one returns to
address zero, or its caller has the same registers. -/
theorem Walks.stop_of_getLast? (hc : u.convention = .riscv64)
    (h : u.Walks limit index registers frames) {last : StackFrame}
    (hlast : frames.getLast? = some last) (hcompiled : last.isCompiled = true) :
    frames.length = limit ∨ last.returnAddress? = some ⟨0⟩ ∨
      ∃ n inner m unwound, n + 1 = frames.length ∧
        u.registersOut n registers = .ok (some inner) ∧
        u.attempt inner = .ok (some (m, unwound)) ∧ inner.setAll unwound.saved = inner := by
  induction h with
  | limit => cases hlast
  | zero => cases hlast
  | unknown =>
    obtain rfl := Option.some.inj hlast
    cases hcompiled
  | stuck hpc hattempt hstays => exact .inr (.inr ⟨0, _, _, _, rfl, rfl, hattempt, hstays⟩)
  | @next limit index registers m unwound rest hpc hattempt hmoves hrest ih =>
    rcases rest with - | ⟨second, others⟩
    · rw [List.getLast?_singleton] at hlast
      obtain rfl := Option.some.inj hlast
      rw [returnAddress?_compiledFrame hc hattempt]
      rcases hrest.eq_nil_iff.mp rfl with rfl | hzero
      · exact .inl rfl
      · exact .inr (.inl (congrArg some hzero))
    · rw [List.getLast?_cons_cons] at hlast
      rcases ih hlast with hlength | hzero | ⟨n, inner, m', unwound', hn, hinner, hattempt', hstays⟩
      · exact .inl (congrArg Nat.succ hlength)
      · exact .inr (.inl hzero)
      · refine .inr (.inr ⟨n + 1, inner, m', unwound', congrArg Nat.succ hn, ?_, hattempt', hstays⟩)
        rw [registersOut_succ_of_some hattempt, hinner]

end Neighbours

/-! ## Backtraces -/

/-- A frame of a walk is a compiled one of the method at its place, or an unknown one. -/
theorem Presents.exists_method {frame : StackFrame} (h : u.Presents index registers frame)
    (hcompiled : frame.isCompiled = true) :
    ∃ m ∈ u.registry.methods, m.metadata.Contains frame.pc ∧ frame.function? = some m.name ∧
      frame.location? = some (m.locationAt frame.pc) := by
  obtain ⟨m, unwound, hattempt, rfl⟩ := h.exists_attempt hcompiled
  have hm := lookup?_of_attempt hattempt
  exact ⟨m, Registry.mem_of_lookup? hm, Registry.contains_of_lookup? hm, rfl, rfl⟩

/-- **The shape of a backtrace** on riscv64. A lower limit gives the first frames of a higher one.
The frames are numbered from zero, the frame with number `k` is at the place of the registers that
are `k` frames out, and that is never address zero. A frame that is not compiled code is the last
one and has neither address nor return address. Compiled code belongs to a registered method, whose
name and source location it shows. Each frame returns to the next one. The last frame is compiled
code only if the limit is reached, it returns to address zero, or unwinding it changes nothing. -/
theorem backtrace_shape (hc : u.convention = .riscv64) (registers : Registers) (limit : Nat) :
    ∃ frames, u.backtrace registers limit = .ok frames ∧
      (∀ fewer ≤ limit, u.backtrace registers fewer = .ok (frames.take fewer)) ∧
      (frames = [] ↔ limit = 0 ∨ registers.pc = ⟨0⟩) ∧
      (∀ k frame, frames[k]? = some frame →
        frame.index = k ∧ frame.pc ≠ ⟨0⟩ ∧
        (∃ outer, u.registersOut k registers = .ok (some outer) ∧ frame.pc = outer.pc) ∧
        (frame.isCompiled = false →
          k + 1 = frames.length ∧ frame.cfa? = none ∧ frame.returnAddress? = none) ∧
        (frame.isCompiled = true → ∃ m ∈ u.registry.methods, m.metadata.Contains frame.pc ∧
          frame.function? = some m.name ∧ frame.location? = some (m.locationAt frame.pc)) ∧
        ∀ next, frames[k + 1]? = some next → frame.returnAddress? = some next.pc) ∧
      ∀ last, frames.getLast? = some last → last.isCompiled = true →
        frames.length = limit ∨ last.returnAddress? = some ⟨0⟩ ∨
          ∃ n inner m unwound, n + 1 = frames.length ∧
            u.registersOut n registers = .ok (some inner) ∧
            u.attempt inner = .ok (some (m, unwound)) ∧ inner.setAll unwound.saved = inner := by
  obtain ⟨frames, hframes⟩ := (slotsFit_riscv64 hc).exists_walk limit 0 registers
  have hwalks : u.Walks limit 0 registers frames := walk_eq_ok_iff.mp hframes
  refine ⟨frames, hframes, ?_, hwalks.eq_nil_iff, ?_, ?_⟩
  · intro fewer hfewer
    exact (hwalks.take hfewer).walk_eq
  · intro k frame hk
    obtain ⟨outer, houter, hpresents, -⟩ := exists_registersOut hframes hk
    rw [Nat.zero_add] at hpresents
    have hneighbours : ∀ next, frames[k + 1]? = some next →
        frame.isCompiled = true ∧ frame.returnAddress? = some next.pc := by
      intro next hnext
      obtain ⟨hlong, rfl⟩ := List.getElem?_eq_some_iff.mp hnext
      obtain ⟨-, rfl⟩ := List.getElem?_eq_some_iff.mp hk
      exact List.isChain_iff_getElem.mp (hwalks.isChain hc) k hlong
    refine ⟨?_, hwalks.pc_ne_zero frame (List.mem_of_getElem? hk), ⟨outer, houter, hpresents.pc⟩, ?_,
      hpresents.exists_method, fun next hnext => (hneighbours next hnext).2⟩
    · cases hpresents <;> rfl
    · intro hunknown
      refine ⟨?_, ?_⟩
      · have hlong := (List.getElem?_eq_some_iff.mp hk).1
        by_contra hlast
        have hnext := List.getElem?_eq_getElem (l := frames) (i := k + 1) (by omega)
        rw [(hneighbours _ hnext).1] at hunknown
        cases hunknown
      · cases hpresents with
        | compiled => cases hunknown
        | unknown => exact ⟨rfl, rfl⟩
  · intro last hlast hcompiled
    exact hwalks.stop_of_getLast? hc hlast hcompiled

/-- The walk of the reentrant method ends in the interpreter, and it is cut short by a limit. -/
theorem backtrace_shape_sample :
    ∃ frames, reentrantUnwinder.backtrace (sampleRegisters 0x4004 0x7fe0 0x4020) 16 = .ok frames ∧
      frames.map (·.pc) = [⟨0x4004⟩, ⟨0x4020⟩, ⟨0x9032⟩] ∧
      reentrantUnwinder.backtrace (sampleRegisters 0x4004 0x7fe0 0x4020) 2 =
        .ok (frames.take 2) := by
  obtain ⟨frames, hframes, htake, -⟩ :=
    backtrace_shape (u := reentrantUnwinder) rfl (sampleRegisters 0x4004 0x7fe0 0x4020) 16
  have hplaces : (reentrantUnwinder.backtrace (sampleRegisters 0x4004 0x7fe0 0x4020) 16).map
      (·.map (·.pc)) = .ok [⟨0x4004⟩, ⟨0x4020⟩, ⟨0x9032⟩] := rfl
  rw [hframes] at hplaces
  exact ⟨frames, hframes, Except.ok.inj hplaces, htake 2 (by decide)⟩

end Unwinder

end CompiledFrames
