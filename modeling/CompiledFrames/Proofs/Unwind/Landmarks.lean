import CompiledFrames.Proofs.Method.Lines
import CompiledFrames.Proofs.Unwind.Windows

/-!
# Two classifications of a place

How far the prologue of a method has come is told from its landmarks alone. Where in its life a frame
is follows from one of the landmarks, and past that from the bytes of an instruction. The two have to
split the places of a method at the same point, the allocation of the frame: otherwise a place could
be before the allocation by the one and in the body by the other.

They do so whatever the code is, as long as the landmarks come one after the other. Landmarks are
counted modulo `2 ^ 64` like all places. If a method begins so late that they wrap around between its
two entries and the allocation, the two disagree.

## Main definitions

* `Landmarks.Ordered`: landmarks that come one after the other
* `Landmarks.first`: the first place in a state of the prologue

## Main results

* `Landmarks.Ordered.le_stateAt_iff`: how far the prologue has come at a place
* `CompiledMethod.ordered_landmarks`: landmarks that do not wrap around are ordered
* `Unwinder.forall_agree_iff`: which landmarks split all places at the same point
* `Unwinder.classifications_agree`: landmarks, states of the prologue and states of the frame
-/

namespace CompiledFrames

/-! ## States of the prologue -/

namespace Landmarks

variable {l : Landmarks} {p q pc : Address}

/-- Landmarks that come one after the other. There may be no parameters to load, and the body follows
the check of the stack limit. -/
structure Ordered (l : Landmarks) : Prop where
  entry_le : l.entry ≤ l.jitEntry
  jitEntry_lt : l.jitEntry < l.frameAllocated
  frameAllocated_lt : l.frameAllocated < l.stackChecked
  stackChecked_eq : l.stackChecked = l.frameBuilt

/-- The landmarks in a list. -/
def places (l : Landmarks) : List Address :=
  [l.entry, l.jitEntry, l.frameAllocated, l.stackChecked, l.frameBuilt]

/-- The first place in a state of the prologue. What is before the method counts as its entry. -/
def first (l : Landmarks) : PrologueState → Address
  | .entry => ⟨0⟩
  | .jitEntry => l.jitEntry
  | .frameAllocated => l.frameAllocated
  | .frameBuilt => l.frameBuilt

theorem rank_stateAt (l : Landmarks) (pc : Address) :
    (l.stateAt pc).rank =
      if pc < l.jitEntry then 0
      else if pc < l.frameAllocated then 1
      else if pc < l.frameBuilt then 2
      else 3 := by
  unfold stateAt
  split_ifs <;> rfl

/-- **How far the prologue has come**: it has reached a state just at the places from the first one
in that state on. -/
theorem Ordered.le_stateAt_iff (h : l.Ordered) (s : PrologueState) :
    s ≤ l.stateAt pc ↔ l.first s ≤ pc := by
  have hallocated := Address.lt_iff.mp h.jitEntry_lt
  have hbuilt := Address.lt_iff.mp (h.stackChecked_eq ▸ h.frameAllocated_lt)
  show s.rank ≤ (l.stateAt pc).rank ↔ _
  simp only [rank_stateAt, Address.lt_iff, Address.le_iff]
  cases s with
  | entry => exact iff_of_true (Nat.zero_le _) (Nat.zero_le _)
  | jitEntry => simp only [PrologueState.rank, first]; split_ifs <;> omega
  | frameAllocated => simp only [PrologueState.rank, first]; split_ifs <;> omega
  | frameBuilt => simp only [PrologueState.rank, first]; split_ifs <;> omega

/-- The prologue does not go back. -/
theorem Ordered.stateAt_mono (h : l.Ordered) (hpq : p ≤ q) : l.stateAt p ≤ l.stateAt q := by
  have hp : l.first (l.stateAt p) ≤ p := (h.le_stateAt_iff _).mp (Nat.le_refl _)
  exact (h.le_stateAt_iff _).mpr (Address.le_trans hp hpq)

/-- In the first two states of the prologue are the places before one of the landmarks that end
them. -/
theorem stateAt_eq_entry_or_jitEntry_iff :
    l.stateAt pc = .entry ∨ l.stateAt pc = .jitEntry ↔ pc < l.jitEntry ∨ pc < l.frameAllocated := by
  unfold stateAt
  split_ifs <;> simp [*]

end Landmarks

/-! ## Landmarks of a method -/

namespace CompiledMethod

variable {m : CompiledMethod} {a : Address}

/-- Places of instructions have the same remainder by four as the start, also where they have wrapped
around. -/
theorem toNat_instructionAt_mod (m : CompiledMethod) (n : Nat) :
    (m.instructionAt n).toNat % 4 = m.start.toNat % 4 := by
  rw [toNat_instructionAt]
  omega

theorem jitEntry_eq (m : CompiledMethod) :
    m.landmarks.jitEntry = m.instructionAt m.metadata.paramSlots.toNat := rfl

/-- The frame is allocated two instructions after the loads of the parameters. -/
theorem frameAllocated_eq (m : CompiledMethod) :
    m.landmarks.frameAllocated = m.instructionAt (m.metadata.paramSlots.toNat + 2) := by
  show m.start + _ + _ = _
  rw [instructionAt, Address.add_add, Nat.add_mul]

/-- Every landmark is the place of an instruction. -/
theorem exists_instructionAt_of_mem_places (ha : a ∈ m.landmarks.places) :
    ∃ n, a = m.instructionAt n := by
  have hbuilt := m.frameBuilt_eq
  simp only [Landmarks.places, List.mem_cons, List.not_mem_nil, or_false] at ha
  rcases ha with rfl | rfl | rfl | rfl | rfl
  · exact ⟨0, m.instructionAt_zero.symm⟩
  · exact ⟨_, m.jitEntry_eq⟩
  · exact ⟨_, m.frameAllocated_eq⟩
  · exact ⟨_, hbuilt⟩
  · exact ⟨_, hbuilt⟩

/-- **Landmarks that do not wrap around** come one after the other. -/
theorem ordered_landmarks
    (hfits : m.start.toNat + 4 * m.metadata.paramSlots.toNat + 16 < 0x10000000000000000) :
    m.landmarks.Ordered := by
  have hjit : m.landmarks.jitEntry.toNat = m.start.toNat + 4 * m.metadata.paramSlots.toNat := by
    rw [jitEntry_eq, toNat_instructionAt_of_fits (by omega)]
  have hallocated : m.landmarks.frameAllocated.toNat =
      m.start.toNat + 4 * (m.metadata.paramSlots.toNat + 2) := by
    rw [frameAllocated_eq, toNat_instructionAt_of_fits (by omega)]
  have hbuilt : m.landmarks.frameBuilt.toNat =
      m.start.toNat + 4 * (m.metadata.paramSlots.toNat + 4) := by
    rw [frameBuilt_eq, toNat_instructionAt_of_fits (by omega)]
  refine ⟨?_, ?_, ?_, rfl⟩
  · show m.start ≤ m.landmarks.jitEntry
    rw [Address.le_iff, hjit]
    omega
  · rw [Address.lt_iff, hjit, hallocated]
    omega
  · show m.landmarks.frameAllocated < m.landmarks.frameBuilt
    rw [Address.lt_iff, hallocated, hbuilt]
    omega

end CompiledMethod

/-! ## States of the frame -/

namespace Unwinder

/-- The two classifications split all places at the same point just if the entry for calls is not
after the allocation of the frame. -/
theorem forall_agree_iff (u : Unwinder) (m : CompiledMethod) :
    (∀ pc, u.frameState m pc = .preAlloc ↔
        m.landmarks.stateAt pc = .entry ∨ m.landmarks.stateAt pc = .jitEntry) ↔
      m.landmarks.jitEntry ≤ m.landmarks.frameAllocated := by
  simp only [frameState_eq_preAlloc_iff, Landmarks.stateAt_eq_entry_or_jitEntry_iff]
  constructor
  · intro h
    rw [← Address.not_lt]
    exact fun hlt => Address.lt_irrefl _ ((h _).mpr (.inl hlt))
  · intro h pc
    rw [Address.le_iff] at h
    simp only [Address.lt_iff]
    omega

/-- **The two classifications agree.** If the landmarks of a method do not wrap around, they come one
after the other, with the remainder by four that the start has, and the prologue never goes back.
Whatever is in memory, the frame is taken for one that is not allocated just in the first two states
of the prologue: so in none of the others before the allocation, and in one of them from there on. -/
theorem classifications_agree (u : Unwinder) (m : CompiledMethod)
    (hfits : m.start.toNat + 4 * m.metadata.paramSlots.toNat + 16 < 0x10000000000000000) :
    m.landmarks.entry = m.start ∧ m.landmarks.Ordered ∧
    (∀ a ∈ m.landmarks.places, a.toNat % 4 = m.start.toNat % 4) ∧
    (∀ p q, p ≤ q → m.landmarks.stateAt p ≤ m.landmarks.stateAt q) ∧
    ∀ pc,
      (u.frameState m pc = .preAlloc ↔
        m.landmarks.stateAt pc = .entry ∨ m.landmarks.stateAt pc = .jitEntry) ∧
      (pc < m.landmarks.frameAllocated →
        u.frameState m pc ≠ .epilogue ∧ u.frameState m pc ≠ .body) ∧
      (m.landmarks.frameAllocated ≤ pc → u.frameState m pc ≠ .preAlloc) := by
  have hordered := CompiledMethod.ordered_landmarks hfits
  refine ⟨rfl, hordered, fun a ha => ?_, fun p q => hordered.stateAt_mono, fun pc => ⟨?_, ?_, ?_⟩⟩
  · obtain ⟨n, rfl⟩ := CompiledMethod.exists_instructionAt_of_mem_places ha
    exact m.toNat_instructionAt_mod n
  · exact (u.forall_agree_iff m).mpr (Address.le_of_lt hordered.jitEntry_lt) pc
  · intro hpc
    rw [frameState_of_lt hpc]
    exact ⟨nofun, nofun⟩
  · intro hpc hstate
    exact Address.not_lt.mpr hpc (frameState_eq_preAlloc_iff.mp hstate)

/-- A method without parameters, as close to the end of memory as its prologue fits. -/
def topmostMethod : CompiledMethod :=
  { sampleMethod with
    metadata :=
      { sampleMethod.metadata with
        start := ⟨0xffffffffffffffec⟩, stop := ⟨0xffffffffffffffff⟩, paramSlots := 0 } }

/-- An unwinder with returns for all instructions of the topmost method. -/
def unwinderOfReturns : Unwinder :=
  { sampleUnwinder with
    memory :=
      MemoryImage.toMemory
        (({} : MemoryImage)
          |>.map ⟨0xffffffffffffffec⟩
            (List.replicate 5 CodeShape.riscv64.returnInstruction).flatten) }

/-- Without parameters no place of a method is in its entry state; and a return after the next
instruction counts only from the allocation on. -/
theorem classifications_agree_topmost :
    topmostMethod.landmarks.Ordered ∧
    (∀ pc, topmostMethod.start ≤ pc → .jitEntry ≤ topmostMethod.landmarks.stateAt pc) ∧
    unwinderOfReturns.frameState topmostMethod ⟨0xfffffffffffffff0⟩ = .preAlloc ∧
    unwinderOfReturns.frameState topmostMethod ⟨0xfffffffffffffff4⟩ = .epilogue := by
  obtain ⟨-, hordered, -, hmono, hstates⟩ :=
    classifications_agree unwinderOfReturns topmostMethod (by decide)
  refine ⟨hordered, fun pc hpc => ?_, (hstates _).1.mpr (.inr rfl), rfl⟩
  have hstart : topmostMethod.landmarks.stateAt topmostMethod.start = .jitEntry := rfl
  rw [← hstart]
  exact hmono _ _ hpc

end Unwinder

end CompiledFrames
