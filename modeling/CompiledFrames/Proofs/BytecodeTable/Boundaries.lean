import Mathlib.Data.List.Destutter
import CompiledFrames.Proofs.BytecodeTable

/-!
# Instructions out of order

The bytecode table of a method has an entry for each instruction of code at which the index changes.
Only there is the address compared with the one before: the entries are refused unless they rise.
Whether other instructions go back is not looked at, so that some go back unnoticed, and are found
under the index of another bytecode then.

## Main definitions

* `Instruction.entry`: the address of an instruction with its index
* `BytecodeTable.boundariesAfter`, `BytecodeTable.boundaries`: the entries of instructions at which
  the index changes

## Main results

* `BytecodeTable.extend_cases`: some more code is added or refused
* `BytecodeTable.ofInstructions_cases`: the entries of the table of a method, or why there is none
* `BytecodeTable.refused_iff_boundaries`: which instructions are refused, and what is found of those
  that are not
-/

namespace CompiledFrames

/-- The address of an instruction with its index. -/
def Instruction.entry (instruction : Instruction) : Address × UInt32 :=
  (instruction.pc, instruction.bytecodeIndex)

namespace BytecodeTable

variable {code instructions : List Instruction} {table : BytecodeTable}
  {last : Address × UInt32}

/-! ## Changes of the index -/

/-- An entry, and behind it those of some more code at which the index changes. -/
def boundariesAfter (last : Address × UInt32) (code : List Instruction) :
    List (Address × UInt32) :=
  (code.map Instruction.entry).destutter' (·.2 ≠ ·.2) last

/-- The entries of instructions of code at which the index changes. -/
def boundaries (instructions : List Instruction) : List (Address × UInt32) :=
  ((codeOf instructions).map Instruction.entry).destutter (·.2 ≠ ·.2)

theorem boundariesAfter_of_eq {instruction : Instruction}
    (h : last.2 = instruction.bytecodeIndex) :
    boundariesAfter last (instruction :: code) = boundariesAfter last code :=
  List.destutter'_cons_neg _ fun hne => hne h

theorem boundariesAfter_of_ne {instruction : Instruction}
    (h : last.2 ≠ instruction.bytecodeIndex) :
    boundariesAfter last (instruction :: code) =
      last :: boundariesAfter instruction.entry code :=
  List.destutter'_cons_pos _ h

theorem boundaries_of_cons {first : Instruction} (h : codeOf instructions = first :: code) :
    boundaries instructions = boundariesAfter first.entry code := by
  rw [boundaries, h]
  rfl

theorem boundaries_sublist (instructions : List Instruction) :
    (boundaries instructions).Sublist ((codeOf instructions).map Instruction.entry) :=
  List.destutter_sublist _ _

theorem isChain_boundaries (instructions : List Instruction) :
    (boundaries instructions).IsChain (·.2 ≠ ·.2) :=
  List.isChain_destutter _ _

/-- An entry comes before those behind it. -/
theorem exists_boundariesAfter_eq (last : Address × UInt32) (code : List Instruction) :
    ∃ later, boundariesAfter last code = last :: later := by
  induction code with
  | nil => exact ⟨[], rfl⟩
  | cons instruction rest ih =>
    by_cases hsame : last.2 = instruction.bytecodeIndex
    · rw [boundariesAfter_of_eq hsame]
      exact ih
    · exact ⟨_, boundariesAfter_of_ne hsame⟩

/-! ## Adding code -/

/-- Of some entries, the first one that is not above the one before, and the error for it. -/
def Falls (entries : List (Address × UInt32)) (e : Error) : Prop :=
  ∃ kept before after later, entries = kept ++ before :: after :: later ∧
    (kept ++ [before]).IsChain (·.1 < ·.1) ∧ after.1 ≤ before.1 ∧
    e = .keyOrder after.1.keyText before.1.keyText

theorem Falls.not_isChain {entries : List (Address × UInt32)} {e : Error}
    (h : Falls entries e) : ¬ entries.IsChain (·.1 < ·.1) := by
  obtain ⟨kept, before, after, later, rfl, -, hle, -⟩ := h
  intro hchain
  have hlt := (List.isChain_append_cons_cons.mp hchain).2.1
  exact Address.not_lt.mpr hle hlt

theorem Falls.cons {entries : List (Address × UInt32)} {entry : Address × UInt32} {e : Error}
    (h : Falls (entry :: entries) e) (hlast : last.1 < entry.1) :
    Falls (last :: entry :: entries) e := by
  obtain ⟨kept, before, after, later, heq, hchain, hle, rfl⟩ := h
  refine ⟨last :: kept, before, after, later, by rw [heq, List.cons_append], ?_, hle, rfl⟩
  cases kept with
  | nil =>
    obtain ⟨rfl, -⟩ := List.cons.inj heq
    exact List.isChain_cons_cons.mpr ⟨hlast, List.isChain_singleton _⟩
  | cons first kept =>
    obtain ⟨rfl, -⟩ := List.cons.inj heq
    exact List.isChain_cons_cons.mpr ⟨hlast, hchain⟩

/-- **Some more code**, whatever its order. The entries at which the index changes are added to the
last one if they rise, and the first one that does not is refused. -/
theorem extend_cases (code : List Instruction) {kept : List (Address × UInt32)}
    (htable : table.toList = kept ++ [last]) :
    ((boundariesAfter last code).IsChain (·.1 < ·.1) ∧
      ∃ table', extend code (some last.2) table = .ok table' ∧
        table'.toList = kept ++ boundariesAfter last code) ∨
    ∃ e, extend code (some last.2) table = .error e ∧ Falls (boundariesAfter last code) e := by
  -- the last entry goes with the index before the instructions to come
  induction code generalizing kept last table with
  | nil =>
    exact .inl ⟨List.isChain_singleton last, table, rfl, htable⟩
  | cons instruction rest ih =>
    by_cases hsame : last.2 = instruction.bytecodeIndex
    · rw [extend, if_pos (congrArg some hsame), boundariesAfter_of_eq hsame]
      exact ih htable
    · rw [extend, if_neg fun h => hsame (Option.some.inj h), boundariesAfter_of_ne hsame]
      obtain ⟨later, hlater⟩ := exists_boundariesAfter_eq instruction.entry rest
      have hput := FloorMap.put_of_toList htable instruction.pc instruction.bytecodeIndex
      by_cases hle : instruction.pc ≤ last.1
      · rw [if_pos hle] at hput
        refine .inr ⟨_, Except.bind_eq_error.mpr (.inl hput), [], last, instruction.entry, later,
          by rw [hlater, List.nil_append], List.isChain_singleton last, hle, rfl⟩
      · have hlt : last.1 < instruction.entry.1 := Address.not_le.mp hle
        rw [if_neg hle] at hput
        have hnext : FloorMap.toList ⟨instruction.entry :: table.latest⟩ =
            kept ++ [last] ++ [instruction.entry] := by
          rw [← htable]
          exact FloorMap.toList_of_put hput
        rw [hput, Except.ok_bind]
        rcases ih hnext with ⟨hchain, table', hextend, hlist⟩ | ⟨e, hextend, hfalls⟩
        · refine .inl ⟨?_, table', hextend, ?_⟩
          · rw [hlater] at hchain ⊢
            exact List.isChain_cons_cons.mpr ⟨hlt, hchain⟩
          · rw [hlist, List.append_assoc, List.singleton_append]
        · rw [hlater] at hfalls ⊢
          exact .inr ⟨e, hextend, hfalls.cons hlt⟩

/-- **The table of a method**, whatever the order of its code: there is none without code, it has the
entries at which the index changes if they rise, and otherwise the first one that does not is
refused. -/
theorem ofInstructions_cases (instructions : List Instruction) :
    (codeOf instructions = [] ∧ ofInstructions instructions =
      .error (.invalidArgument "compiled method has no real instructions")) ∨
    ((boundaries instructions).IsChain (·.1 < ·.1) ∧
      ∃ table, ofInstructions instructions = .ok table ∧
        table.toList = boundaries instructions) ∨
    ∃ e, ofInstructions instructions = .error e ∧ Falls (boundaries instructions) e := by
  cases hcode : codeOf instructions with
  | nil =>
    refine .inl ⟨rfl, ?_⟩
    unfold ofInstructions
    rw [hcode]
    rfl
  | cons first rest =>
    rw [boundaries_of_cons hcode]
    have hsingle : ∃ single : BytecodeTable, single.toList = [] ++ [first.entry] ∧
        extend (first :: rest) none ∅ = extend rest (some first.entry.2) single :=
      ⟨⟨[first.entry]⟩, rfl, rfl⟩
    obtain ⟨single, hentries, hstep⟩ := hsingle
    obtain ⟨later, hlater⟩ := exists_boundariesAfter_eq first.entry rest
    unfold ofInstructions
    rw [hcode]
    rcases extend_cases rest hentries with
      ⟨hchain, table, hextend, hlist⟩ | ⟨e, hextend, hfalls⟩
    · rw [List.nil_append] at hlist
      have hsome : table.isEmpty = false := by
        rw [FloorMap.isEmpty, List.isEmpty_eq_false_iff]
        intro hnone
        rw [FloorMap.toList, hnone, hlater] at hlist
        cases hlist
      refine .inr (.inl ⟨hchain, table, ?_, hlist⟩)
      have hok : extend (first :: rest) none ∅ = .ok table := hstep.trans hextend
      rw [hok, Except.ok_bind, hsome]
      rfl
    · exact .inr (.inr ⟨e, Except.bind_eq_error.mpr (.inl (hstep.trans hextend)), hfalls⟩)

/-- The entries of the table of a method are those at which the index changes. -/
theorem toList_of_ofInstructions (h : ofInstructions instructions = .ok table) :
    table.toList = boundaries instructions := by
  rcases ofInstructions_cases instructions with ⟨-, herror⟩ | ⟨-, table', htable, hlist⟩ |
    ⟨e, herror, -⟩
  · rw [herror] at h
    cases h
  · rw [htable] at h
    obtain rfl := Except.ok.inj h
    exact hlist
  · rw [herror] at h
    cases h

/-- Entries that rise from neighbour to neighbour rise throughout. -/
theorem isChain_iff_pairwise {entries : List (Address × UInt32)} :
    entries.IsChain (·.1 < ·.1) ↔ entries.Pairwise (·.1 < ·.1) := by
  let below (entry other : Address × UInt32) : Prop := entry.1 < other.1
  have : Trans below below below :=
    ⟨fun h h' => Address.lt_of_le_of_lt (Address.le_of_lt h) h'⟩
  exact List.isChain_iff_pairwise (R := below)

/-- Instructions are refused for their order just when the entries do not rise. -/
theorem exists_keyOrder_iff :
    (∃ key kept, ofInstructions instructions = .error (.keyOrder key kept)) ↔
      ¬ (boundaries instructions).Pairwise (·.1 < ·.1) := by
  rw [← isChain_iff_pairwise]
  rcases ofInstructions_cases instructions with ⟨hcode, herror⟩ | ⟨hchain, table, htable, -⟩ |
    ⟨e, herror, hfalls⟩
  · have hnone : boundaries instructions = [] := by
      rw [boundaries, hcode]
      rfl
    rw [herror, hnone]
    simp
  · rw [htable]
    simp [hchain]
  · refine ⟨fun _ => hfalls.not_isChain, fun _ => ?_⟩
    obtain ⟨_, before, after, _, -, -, -, rfl⟩ := hfalls
    exact ⟨_, _, herror⟩

/-- Instructions are accepted just when some are code and the entries rise. -/
theorem exists_table_iff :
    (∃ table, ofInstructions instructions = .ok table) ↔
      codeOf instructions ≠ [] ∧ (boundaries instructions).Pairwise (·.1 < ·.1) := by
  rw [← isChain_iff_pairwise]
  rcases ofInstructions_cases instructions with ⟨hcode, herror⟩ | ⟨hchain, table, htable, hlist⟩ |
    ⟨e, herror, hfalls⟩
  · simp [herror, hcode]
  · refine ⟨fun _ => ⟨fun hnone => ?_, hchain⟩, fun _ => ⟨table, htable⟩⟩
    unfold ofInstructions at htable
    rw [hnone] at htable
    cases htable
  · rw [herror]
    exact ⟨nofun, fun ⟨_, hchain⟩ => absurd hchain hfalls.not_isChain⟩

/-! ## Look-ups -/

/-- The index of the last entry at or before an address. -/
def indexAt? (entries : List (Address × UInt32)) (pc : Address) : Option UInt32 :=
  (entries.filter (·.1 ≤ pc)).getLast?.map (·.2)

theorem indexAt?_cons (entry : Address × UInt32) (entries : List (Address × UInt32))
    (pc : Address) :
    indexAt? (entry :: entries) pc =
      (indexAt? entries pc).or (if entry.1 ≤ pc then some entry.2 else none) := by
  unfold indexAt?
  by_cases hle : entry.1 ≤ pc
  · rw [List.filter_cons_of_pos (by simpa using hle), List.getLast?_cons, if_pos hle]
    cases (entries.filter (·.1 ≤ pc)).getLast? <;> rfl
  · rw [List.filter_cons_of_neg (by simpa using hle), if_neg hle, Option.or_none]

theorem indexAt?_map_entry (code : List Instruction) (pc : Address) :
    indexAt? (code.map Instruction.entry) pc = (lastAt? code pc).map (·.bytecodeIndex) := by
  unfold indexAt? lastAt?
  rw [List.filter_map, List.getLast?_map, Option.map_map]
  rfl

/-- An entry is found at an address just when it is the last one at or before it. -/
theorem get_eq_ok_iff_indexAt? (h : ofInstructions instructions = .ok table) {pc : Address}
    {index : UInt32} :
    table.get pc = .ok index ↔ indexAt? (boundaries instructions) pc = some index := by
  rw [FloorMap.get_eq_ok_iff, FloorMap.held?, toList_of_ofInstructions h, indexAt?]

/-- Where no instruction goes back, leaving out those that repeat an index changes no look-up. -/
theorem indexAt?_boundariesAfter (pc : Address)
    (h : (last :: code.map Instruction.entry).Pairwise (·.1 ≤ ·.1)) :
    indexAt? (boundariesAfter last code) pc =
      indexAt? (last :: code.map Instruction.entry) pc := by
  induction code generalizing last with
  | nil => rfl
  | cons instruction rest ih =>
    obtain ⟨hlast, hrest⟩ := List.pairwise_cons.mp h
    obtain ⟨hfirst, hlater⟩ := List.pairwise_cons.mp hrest
    by_cases hsame : last.2 = instruction.bytecodeIndex
    · have hskip : (last :: rest.map Instruction.entry).Pairwise (·.1 ≤ ·.1) :=
        List.pairwise_cons.mpr ⟨fun entry hentry => hlast entry (List.mem_cons_of_mem _ hentry),
          hlater⟩
      rw [boundariesAfter_of_eq hsame, ih hskip, indexAt?_cons, List.map_cons, indexAt?_cons,
        indexAt?_cons, Option.or_assoc]
      congr 1
      by_cases hle : instruction.entry.1 ≤ pc
      · have hle' : last.1 ≤ pc := by
          have hbefore := hlast instruction.entry List.mem_cons_self
          rw [Address.le_iff] at hbefore hle ⊢
          exact Nat.le_trans hbefore hle
        rw [if_pos hle, if_pos hle', hsame]
        rfl
      · rw [if_neg hle, Option.none_or]
    · rw [boundariesAfter_of_ne hsame, indexAt?_cons, ih hrest, List.map_cons,
        indexAt?_cons last]

/-- In code that does not go back, an address that no other instruction has is found under the index
of its instruction. -/
theorem get_of_pairwise_le (h : ofInstructions instructions = .ok table)
    (hpcs : (codeOf instructions).Pairwise (·.pc ≤ ·.pc)) {before after : List Instruction}
    {instruction : Instruction} (hcode : codeOf instructions = before ++ instruction :: after)
    (halone : ∀ other ∈ before ++ after, other.pc ≠ instruction.pc) :
    table.get instruction.pc = .ok instruction.bytecodeIndex := by
  have hindex : indexAt? (boundaries instructions) instruction.pc =
      indexAt? ((codeOf instructions).map Instruction.entry) instruction.pc := by
    cases hlist : codeOf instructions with
    | nil =>
      rw [boundaries, hlist]
      rfl
    | cons first rest =>
      rw [hlist] at hpcs
      have hsorted : ((first :: rest).map Instruction.entry).Pairwise (·.1 ≤ ·.1) :=
        List.pairwise_map.mpr hpcs
      rw [boundaries_of_cons hlist]
      exact indexAt?_boundariesAfter instruction.pc hsorted
  have hafter : after.filter (·.pc ≤ instruction.pc) = [] := by
    rw [hcode] at hpcs
    refine List.filter_eq_nil_iff.mpr fun other hother => ?_
    have hle := (List.pairwise_cons.mp (List.pairwise_append.mp hpcs).2.1).1 other hother
    have hne := halone other (List.mem_append_right _ hother)
    rw [decide_eq_true_eq, Address.le_iff]
    intro hge
    exact hne (Address.ext_toNat (Nat.le_antisymm hge (Address.le_iff.mp hle)))
  have hlast : lastAt? (codeOf instructions) instruction.pc = some instruction := by
    unfold lastAt?
    rw [hcode, List.filter_append, List.filter_cons_of_pos (by simp), hafter,
      List.getLast?_concat]
  rw [get_eq_ok_iff_indexAt? h, hindex, indexAt?_map_entry, hlast]
  rfl

/-- **Which instructions are refused**, and what is found of the others. Instructions are refused for
their order just when the entries at which the index changes do not rise; if they do, there is a
table as soon as there is code. The address of an instruction is found under its own index just when
the last of those entries at or before it has that index. That is so for each address that no other
instruction has, as long as no instruction goes back. -/
theorem refused_iff_boundaries (instructions : List Instruction) :
    ((∃ key kept, ofInstructions instructions = .error (.keyOrder key kept)) ↔
      ¬ (boundaries instructions).Pairwise (·.1 < ·.1)) ∧
    ((∃ table, ofInstructions instructions = .ok table) ↔
      codeOf instructions ≠ [] ∧ (boundaries instructions).Pairwise (·.1 < ·.1)) ∧
    ∀ table, ofInstructions instructions = .ok table →
      (∀ instruction ∈ codeOf instructions,
        table.get instruction.pc = .ok instruction.bytecodeIndex ↔
          indexAt? (boundaries instructions) instruction.pc = some instruction.bytecodeIndex) ∧
      ((codeOf instructions).Pairwise (·.pc ≤ ·.pc) → ∀ before instruction after,
        codeOf instructions = before ++ instruction :: after →
        (∀ other ∈ before ++ after, other.pc ≠ instruction.pc) →
        table.get instruction.pc = .ok instruction.bytecodeIndex) := by
  refine ⟨exists_keyOrder_iff, exists_table_iff, fun table htable => ⟨?_, ?_⟩⟩
  · intro instruction _
    exact get_eq_ok_iff_indexAt? htable
  · intro hpcs before instruction after hcode halone
    exact get_of_pairwise_le htable hpcs hcode halone

/-- One bytecode up to an instruction at 120, and then another one from an instruction at 110 on. -/
def turningBack : List Instruction :=
  [⟨⟨96⟩, 4, 0⟩, ⟨⟨100⟩, 4, 5⟩, ⟨⟨120⟩, 4, 5⟩, ⟨⟨110⟩, 4, 6⟩]

/-- At 120 the index of the instruction at 110 is found. -/
theorem refused_iff_boundaries_sample :
    ∃ table, ofInstructions turningBack = .ok table ∧
      (table.get ⟨100⟩ = .ok 5 ↔ indexAt? (boundaries turningBack) ⟨100⟩ = some 5) ∧
      (table.get ⟨120⟩ = .ok 5 ↔ indexAt? (boundaries turningBack) ⟨120⟩ = some 5) ∧
      indexAt? (boundaries turningBack) ⟨100⟩ = some 5 ∧
      indexAt? (boundaries turningBack) ⟨120⟩ = some 6 := by
  obtain ⟨-, haccepted, hfound⟩ := refused_iff_boundaries turningBack
  obtain ⟨table, htable⟩ := haccepted.mpr ⟨by decide, by decide⟩
  exact ⟨table, htable, (hfound table htable).1 ⟨⟨100⟩, 4, 5⟩ (by decide),
    (hfound table htable).1 ⟨⟨120⟩, 4, 5⟩ (by decide), by decide, by decide⟩

/-- **Some instructions go back unnoticed**: it is false that instructions are refused as soon as one
of code is below one before it, and false that with a table each address that no other instruction
has is found under the index of its instruction. -/
theorem not_refused_of_backwards :
    (¬ ∀ (instructions : List Instruction) (earlier later : Instruction),
      [earlier, later].Sublist (codeOf instructions) → later.pc < earlier.pc →
        ∃ e, ofInstructions instructions = .error e) ∧
    ¬ ∀ (instructions : List Instruction) (table : BytecodeTable),
      ofInstructions instructions = .ok table → ∀ before instruction after,
        codeOf instructions = before ++ instruction :: after →
        (∀ other ∈ before ++ after, other.pc ≠ instruction.pc) →
        table.get instruction.pc = .ok instruction.bytecodeIndex := by
  have htable : ofInstructions turningBack = .ok ⟨[(⟨110⟩, 6), (⟨100⟩, 5)]⟩ := rfl
  constructor
  · intro h
    obtain ⟨e, herror⟩ := h turningBack ⟨⟨120⟩, 4, 5⟩ ⟨⟨110⟩, 4, 6⟩ (by decide) (by decide)
    rw [htable] at herror
    cases herror
  · intro h
    have hget := h turningBack _ htable [⟨⟨100⟩, 4, 5⟩] ⟨⟨120⟩, 4, 5⟩ [⟨⟨110⟩, 4, 6⟩] rfl
      (by decide)
    exact absurd hget (by decide)

end BytecodeTable

end CompiledFrames
