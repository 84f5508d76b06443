import CompiledFrames.Proofs.BytecodeTable.Boundaries

/-!
# The entries of a bytecode table

The table of a method keeps an instruction of code only where the index changes: its entries are the
instructions with all repetitions of an index taken out. So neighbours have different indices, and no
entry can be left out: at its own address the one before it would hold instead, or none at all.

## Main definitions

* `BytecodeTable.Irredundant`: without any one of its entries a table is another one to look-ups

## Main results

* `BytecodeTable.irredundant_of_isChain`: no entry can be left out where neighbours differ
* `BytecodeTable.get_ofInstructions`: when there is a table, its look-ups and its entries
-/

namespace CompiledFrames.BytecodeTable

variable {instructions : List Instruction} {table : BytecodeTable}

/-! ## No entry can be left out -/

/-- Without any one of its entries a table has another look-up somewhere. -/
def Irredundant (table : BytecodeTable) : Prop :=
  ∀ before entry after, table.toList = before ++ entry :: after →
    ∀ other : BytecodeTable, other.toList = before ++ after → ∃ pc, other.get pc ≠ table.get pc

/-- No entry of a table can be left out if the addresses rise and neighbours differ. -/
theorem irredundant_of_isChain (hpcs : table.toList.Pairwise (·.1 < ·.1))
    (hchain : table.toList.IsChain (·.2 ≠ ·.2)) : table.Irredundant := by
  intro before entry after hsplit other hother
  rw [hsplit] at hpcs hchain
  obtain ⟨-, htail, hacross⟩ := List.pairwise_append.mp hpcs
  have hbefore : before.filter (·.1 ≤ entry.1) = before := by
    refine List.filter_eq_self.mpr fun earlier hearlier => decide_eq_true ?_
    exact Address.le_of_lt (hacross earlier hearlier entry List.mem_cons_self)
  have hafter : after.filter (·.1 ≤ entry.1) = [] := by
    refine List.filter_eq_nil_iff.mpr fun later hlater => ?_
    rw [decide_eq_true_eq, Address.not_le]
    exact (List.pairwise_cons.mp htail).1 later hlater
  have hheld : table.held? entry.1 = some entry.2 := by
    unfold FloorMap.held?
    rw [hsplit, List.filter_append, hbefore, List.filter_cons_of_pos (by simp),
      hafter, List.getLast?_concat]
    rfl
  have hheldOther : other.held? entry.1 = before.getLast?.map (·.2) := by
    unfold FloorMap.held?
    rw [hother, List.filter_append, hbefore, hafter, List.append_nil]
  refine ⟨entry.1, ?_⟩
  rw [FloorMap.get_eq, FloorMap.get_eq, hheld, hheldOther]
  cases hlast : before.getLast? with
  | none => exact nofun
  | some earlier =>
    have hdiffers : earlier.2 ≠ entry.2 :=
      (List.isChain_append.mp hchain).2.2 earlier hlast entry rfl
    exact fun h => hdiffers (Except.ok.inj h)

/-! ## What is not code -/

/-- The first instruction can be any other one, and pseudo instructions can be left out. -/
theorem codeOf_cons_filter (descriptor first : Instruction) (rest : List Instruction) :
    codeOf (descriptor :: rest.filter (!·.isPseudo)) = codeOf (first :: rest) := by
  show (rest.filter (!·.isPseudo)).filter (!·.isPseudo) = rest.filter (!·.isPseudo)
  rw [List.filter_filter]
  simp only [Bool.and_self]

/-! ## The table of a method -/

/-- **The table of a method** whose code is in rising order. It is missing just when there is no
code. At each address the index of the last instruction of code at or before it is found, and none
just when all code is above. Neighbouring entries have different indices, each entry is an
instruction of code, and none of them can be left out. The first instruction and pseudo instructions
do not matter. -/
theorem get_ofInstructions (hpcs : (codeOf instructions).Pairwise (·.pc < ·.pc)) :
    (ofInstructions instructions =
        .error (.invalidArgument "compiled method has no real instructions") ↔
      codeOf instructions = []) ∧
    (codeOf instructions ≠ [] → ∃ table, ofInstructions instructions = .ok table ∧
      (∀ pc instruction, lastAt? (codeOf instructions) pc = some instruction →
        table.get pc = .ok instruction.bytecodeIndex) ∧
      (∀ pc, (∃ what, table.get pc = .error (.notFound what)) ↔
        ∀ instruction ∈ codeOf instructions, pc < instruction.pc) ∧
      table.toList.IsChain (·.2 ≠ ·.2) ∧
      (∀ entry ∈ table.toList, ∃ instruction ∈ codeOf instructions, instruction.entry = entry) ∧
      table.Irredundant) ∧
    ∀ descriptor first rest, instructions = first :: rest →
      ofInstructions (descriptor :: rest.filter (!·.isPseudo)) = ofInstructions instructions := by
  refine ⟨⟨fun herror => ?_, fun hnone => ?_⟩, fun hcode => ?_, ?_⟩
  · by_contra hcode
    obtain ⟨table, htable, -⟩ := held?_ofInstructions hcode hpcs
    rw [htable] at herror
    cases herror
  · unfold ofInstructions
    rw [hnone]
    rfl
  · obtain ⟨table, htable, hheld⟩ := held?_ofInstructions hcode hpcs
    have hentries := toList_of_ofInstructions htable
    have hsublist := boundaries_sublist instructions
    have hchain := isChain_boundaries instructions
    rw [← hentries] at hsublist hchain
    have hcodeRise : ((codeOf instructions).map Instruction.entry).Pairwise (·.1 < ·.1) :=
      List.pairwise_map.mpr hpcs
    have hrise : table.toList.Pairwise (·.1 < ·.1) := hcodeRise.sublist hsublist
    refine ⟨table, htable, ?_, ?_, hchain, ?_, irredundant_of_isChain hrise hchain⟩
    · intro pc instruction hlast
      rw [FloorMap.get_eq_ok_iff, hheld, hlast]
      rfl
    · intro pc
      rw [FloorMap.get_eq_notFound_iff, hheld, Option.map_eq_none_iff, lastAt?_eq_none_iff]
    · intro entry hentry
      exact List.mem_map.mp (hsublist.subset hentry)
  · rintro descriptor first rest rfl
    unfold ofInstructions
    rw [codeOf_cons_filter]

/-- A label with an index of its own between instructions of one bytecode, which is taken up again at
the end. -/
def sampleInstructions : List Instruction :=
  [⟨⟨96⟩, 4, 0⟩, ⟨⟨100⟩, 4, 3⟩, ⟨⟨104⟩, 0, 9⟩, ⟨⟨104⟩, 4, 3⟩, ⟨⟨108⟩, 4, 4⟩, ⟨⟨112⟩, 4, 3⟩]

theorem get_ofInstructions_sample :
    ∃ table, ofInstructions sampleInstructions = .ok table ∧
      table.toList = [(⟨100⟩, 3), (⟨108⟩, 4), (⟨112⟩, 3)] ∧
      table.get ⟨104⟩ = .ok 3 ∧
      (∃ what, table.get ⟨99⟩ = .error (.notFound what)) ∧ table.Irredundant := by
  have hpcs : (codeOf sampleInstructions).Pairwise (·.pc < ·.pc) := by decide
  obtain ⟨-, hsome, -⟩ := get_ofInstructions hpcs
  obtain ⟨table, htable, hget, hnone, -, -, hneeded⟩ := hsome (by decide)
  have hlist : (ofInstructions sampleInstructions).map FloorMap.toList =
      .ok [(⟨100⟩, 3), (⟨108⟩, 4), (⟨112⟩, 3)] := rfl
  rw [htable] at hlist
  exact ⟨table, htable, Except.ok.inj hlist, hget ⟨104⟩ ⟨⟨104⟩, 4, 3⟩ rfl,
    (hnone ⟨99⟩).mpr (by decide), hneeded⟩

end CompiledFrames.BytecodeTable
