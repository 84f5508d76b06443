import CompiledFrames.BytecodeTable
import CompiledFrames.Proofs.FloorMap

/-!
# The bytecode table of a method

The table leaves out the instructions whose index holds already. What holds at an address is all the
same the index of the last instruction of code at or before it.

## Main results

* `BytecodeTable.extend_cons`: one instruction is added, or the entry before it still holds
* `BytecodeTable.held?_extend`: what holds at an address after some more code
* `BytecodeTable.held?_ofInstructions`: what holds at an address of a method
* `BytecodeTable.error_of_ofInstructions`: why instructions give no table
-/

namespace CompiledFrames.BytecodeTable

variable {instructions : List Instruction} {previous : Option UInt32} {table : BytecodeTable}

/-- The last instruction at or before an address. -/
def lastAt? (instructions : List Instruction) (pc : Address) : Option Instruction :=
  (instructions.filter (·.pc ≤ pc)).getLast?

theorem lastAt?_cons (instruction : Instruction) (rest : List Instruction) (pc : Address) :
    lastAt? (instruction :: rest) pc =
      (lastAt? rest pc).or (if instruction.pc ≤ pc then some instruction else none) := by
  have happ : instruction :: rest = [instruction] ++ rest := rfl
  unfold lastAt?
  rw [happ, List.filter_append, List.getLast?_append]
  congr 1
  by_cases hle : instruction.pc ≤ pc <;> simp [hle]

theorem lastAt?_eq_none_iff {pc : Address} :
    lastAt? instructions pc = none ↔ ∀ instruction ∈ instructions, pc < instruction.pc := by
  unfold lastAt?
  rw [List.getLast?_eq_none_iff, List.filter_eq_nil_iff]
  simp only [decide_eq_true_eq, Address.not_le]

/-- The entry before code that lies above the table still holds there. -/
theorem held?_of_forall_le {pc : Address} (h : ∀ entry ∈ table.toList, entry.1 ≤ pc) :
    table.held? pc = table.toList.getLast?.map (·.2) := by
  have hall : table.toList.filter (·.1 ≤ pc) = table.toList := by
    rw [List.filter_eq_self]
    intro entry hentry
    rw [decide_eq_true_eq]
    exact h entry hentry
  unfold FloorMap.held?
  rw [hall]

/-- One instruction that lies above the table can be added, and from then on its index holds. -/
theorem extend_cons {instruction : Instruction}
    (habove : ∀ entry ∈ table.toList, entry.1 < instruction.pc)
    (hprevious : previous = table.toList.getLast?.map (·.2)) :
    ∃ next : BytecodeTable,
      (∀ rest, extend (instruction :: rest) previous table =
        extend rest (some instruction.bytecodeIndex) next) ∧
      some instruction.bytecodeIndex = next.toList.getLast?.map (·.2) ∧
      (∀ entry ∈ next.toList, entry.1 ≤ instruction.pc) ∧
      ∀ pc, next.held? pc =
        if instruction.pc ≤ pc then some instruction.bytecodeIndex else table.held? pc := by
  have hbelow : ∀ entry ∈ table.toList, entry.1 ≤ instruction.pc := fun entry hentry =>
    Address.le_of_lt (habove entry hentry)
  by_cases hsame : previous = some instruction.bytecodeIndex
  · refine ⟨table, fun rest => ?_, by rw [← hsame, hprevious], hbelow, fun pc => ?_⟩
    · rw [extend, if_pos hsame, hsame]
    · by_cases hle : instruction.pc ≤ pc
      · have hall : ∀ entry ∈ table.toList, entry.1 ≤ pc := fun entry hentry =>
          Address.le_trans (Address.le_of_lt (habove entry hentry)) hle
        rw [held?_of_forall_le hall, ← hprevious, hsame, if_pos hle]
      · rw [if_neg hle]
  · have haccept : ∀ entry ∈ table.toList, ¬ instruction.pc ≤ entry.1 := fun entry hentry =>
      Address.not_le.mpr (habove entry hentry)
    obtain ⟨next, hput⟩ := FloorMap.put_of_forall_not_le instruction.bytecodeIndex haccept
    have hkeys : ∀ entry ∈ next.toList, entry.1 ≤ instruction.pc :=
      FloorMap.forall_key_of_put (p := (· ≤ instruction.pc)) hput hbelow (Address.le_refl _)
    refine ⟨next, fun rest => ?_, ?_, hkeys, FloorMap.held?_of_put hput⟩
    · rw [extend, if_neg hsame, hput, Except.ok_bind]
    · rw [FloorMap.toList_of_put hput, List.getLast?_concat]
      rfl

/-- **Code that lies above the table can be added**, and from then on the index of its last
instruction at or before an address holds there. -/
theorem held?_extend (hpcs : instructions.Pairwise (·.pc < ·.pc))
    (habove : ∀ entry ∈ table.toList, ∀ instruction ∈ instructions, entry.1 < instruction.pc)
    (hprevious : previous = table.toList.getLast?.map (·.2)) :
    ∃ table', extend instructions previous table = .ok table' ∧
      ∀ pc, table'.held? pc =
        ((lastAt? instructions pc).map (·.bytecodeIndex)).or (table.held? pc) := by
  induction instructions generalizing previous table with
  | nil => exact ⟨table, rfl, fun pc => rfl⟩
  | cons instruction rest ih =>
    obtain ⟨hfirst, hrest⟩ := List.pairwise_cons.mp hpcs
    obtain ⟨next, hstep, hlast, hkeys, hnext⟩ :=
      extend_cons (fun entry hentry => habove entry hentry _ List.mem_cons_self) hprevious
    obtain ⟨table', hextend, hheld⟩ := ih hrest
      (fun entry hentry later hlater =>
        Address.lt_of_le_of_lt (hkeys entry hentry) (hfirst later hlater)) hlast
    refine ⟨table', (hstep rest).trans hextend, fun pc => ?_⟩
    rw [hheld, hnext, lastAt?_cons]
    by_cases hle : instruction.pc ≤ pc
    · cases lastAt? rest pc <;> simp [hle]
    · cases lastAt? rest pc <;> simp [hle]

/-- **The table of a method** whose code is in rising order: at each address the index of the last
instruction at or before it holds. -/
theorem held?_ofInstructions (hcode : codeOf instructions ≠ [])
    (hpcs : (codeOf instructions).Pairwise (·.pc < ·.pc)) :
    ∃ table, ofInstructions instructions = .ok table ∧
      ∀ pc, table.held? pc = (lastAt? (codeOf instructions) pc).map (·.bytecodeIndex) := by
  have habove : ∀ entry ∈ (∅ : BytecodeTable).toList, ∀ instruction ∈ codeOf instructions,
      entry.1 < instruction.pc := nofun
  obtain ⟨table, hextend, hheld⟩ := held?_extend hpcs habove rfl
  have hheld' (pc : Address) :
      table.held? pc = (lastAt? (codeOf instructions) pc).map (·.bytecodeIndex) := by
    rw [hheld, FloorMap.held?_empty, Option.or_none]
  refine ⟨table, ?_, hheld'⟩
  have hsome : table.isEmpty = false := by
    obtain ⟨first, rest, hfirst⟩ := List.exists_cons_of_ne_nil hcode
    have hat := hheld' first.pc
    rw [hfirst, lastAt?_cons, if_pos (Address.le_refl _)] at hat
    cases hlatest : table.latest with
    | nil =>
      have hnone : table.held? first.pc = none := by simp [FloorMap.held?, FloorMap.toList, hlatest]
      rw [hnone] at hat
      cases hlast : lastAt? rest first.pc <;> simp [hlast] at hat
    | cons entry entries => simp [FloorMap.isEmpty, hlatest]
  unfold ofInstructions
  have hextend' : extend (codeOf instructions) none ∅ = .ok table := hextend
  rw [hextend', Except.ok_bind, hsome]
  rfl

/-! ## Instructions without a table -/

theorem exists_keyOrder_of_extend {e : Error} (h : extend instructions previous table = .error e) :
    ∃ key last, e = .keyOrder key last := by
  induction instructions generalizing previous table with
  | nil => cases h
  | cons instruction rest ih =>
    unfold extend at h
    split_ifs at h
    · exact ih h
    · rcases Except.bind_eq_error.mp h with hput | ⟨next, -, hrest⟩
      · exact ⟨_, FloorMap.exists_keyOrder_of_put hput⟩
      · exact ih hrest

/-- Instructions give no table if none is code, or if the addresses of code do not rise. -/
theorem error_of_ofInstructions {e : Error} (h : ofInstructions instructions = .error e) :
    (∃ reason, e = .invalidArgument reason) ∨ ∃ key last, e = .keyOrder key last := by
  rcases Except.bind_eq_error.mp h with hextend | ⟨table, -, hempty⟩
  · exact .inr (exists_keyOrder_of_extend hextend)
  · by_cases hnone : table.isEmpty
    · rw [if_pos hnone] at hempty
      exact .inl ⟨_, (Except.error.inj hempty).symm⟩
    · rw [if_neg hnone] at hempty
      cases hempty

end CompiledFrames.BytecodeTable
