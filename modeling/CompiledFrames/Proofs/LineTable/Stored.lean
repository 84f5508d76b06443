import CompiledFrames.Proofs.LineTable.Encoding

/-!
# Stored debug information

The bytes of debug information, as the runtime lays them out: a head that counts the entries of the
line table in one of two ways, the entries, and the descriptions of variables, which are not read.

## Main definitions

* `CountForm`: the two ways to count, with the bits and bytes that they leave open
* `StoredLines`: a line table with its head, `StoredLines.bytes` its bytes
* `StoredLines.lastAt?`: the position that a bytecode index belongs to

## Main results

* `DebugInfo.read_of_shows`: a head in memory is read
* `StoredLines.lineCount_head`, `StoredLines.table?_head`: the head says how many entries there are
  and where they begin
* `StoredLines.read_of_shows`, `StoredLines.held?_of_shows`: the line table that memory has is read,
  and what it says of each bytecode index
-/

namespace CompiledFrames

/-- How a head counts the entries. -/
inductive CountForm where
  /-- In fifteen bits; those above them do not matter. -/
  | short (upper : UInt16)
  /-- In thirty-one bits; there is one more byte before the table. -/
  | long (gap : UInt8)

namespace CountForm

/-- The least number of entries that is too large for a form. -/
def limit : CountForm → Nat
  | short _ => 0x8000
  | long _ => 0x80000000

/-- The word that counts `n` entries. -/
def word : CountForm → (n : Nat) → Nat
  | short upper, n => upper.toNat * 0x10000 + n * 2
  | long _, n => n * 2 + 1

/-- What is between head and table. -/
def gap : CountForm → List UInt8
  | short _ => []
  | long gap => [gap]

theorem word_lt (form : CountForm) {n : Nat} (h : n < form.limit) : form.word n < 0x100000000 := by
  cases form with
  | short upper =>
    have hupper := upper.toNat_lt
    simp only [limit] at h
    simp only [word]
    omega
  | long _ =>
    simp only [limit] at h
    simp only [word]
    omega

theorem word_pos (form : CountForm) {n : Nat} (h : 0 < n) : 0 < form.word n := by
  cases form with
  | short upper =>
    simp only [word]
    omega
  | long _ => exact Nat.succ_pos _

end CountForm

/-- The three words of a head are read. -/
theorem DebugInfo.read_of_shows {memory : Memory} {a : Address}
    {variablesOffset rawCount variableCount : UInt32} {rest : List UInt8}
    (h : memory.Shows a (littleBytes 4 variablesOffset.toNat ++
      (littleBytes 4 rawCount.toNat ++ (littleBytes 4 variableCount.toNat ++ rest)))) :
    read memory a = .ok ⟨a, variablesOffset, rawCount, variableCount⟩ := by
  have hvariables : memory.readU32 a = .ok variablesOffset := h.left.readU32
  have hcount : memory.readU32 (a + 4) = .ok rawCount := by
    have hword := h.right.left.readU32
    rwa [length_littleBytes] at hword
  have hlast : memory.readU32 (a + 8) = .ok variableCount := by
    have hword := h.right.right.left.readU32
    rwa [length_littleBytes, length_littleBytes, Address.add_add] at hword
  unfold read
  rw [hvariables, Except.ok_bind, hcount, Except.ok_bind, hlast, Except.ok_bind]
  rfl

/-- A line table with its head. There is one position at least, and the positions rise and fit. -/
structure StoredLines where
  variablesOffset : UInt32
  variableCount : UInt32
  form : CountForm
  positions : List LinePosition
  entries : List UInt8
  /-- What follows the entries. -/
  rest : List UInt8
  positions_ne_nil : positions ≠ []
  length_lt : positions.length < form.limit
  fits : ∀ position ∈ positions, position.Fits
  rising : positions.Pairwise (·.location < ·.location)
  encode?_eq : LineTable.encode? .start positions = some entries

namespace StoredLines

/-- The bytes of the debug information. -/
def bytes (lines : StoredLines) : List UInt8 :=
  littleBytes 4 lines.variablesOffset.toNat ++
    (littleBytes 4 (lines.form.word lines.positions.length) ++
      (littleBytes 4 lines.variableCount.toNat ++
        (lines.form.gap ++ (lines.entries ++ lines.rest))))

/-- The last position at or below a bytecode index. -/
def lastAt? (lines : StoredLines) (b : Nat) : Option LinePosition :=
  (lines.positions.filter (·.location ≤ b)).getLast?

/-- The head that is read at an address. -/
def head (lines : StoredLines) (a : Address) : DebugInfo where
  address := a
  variablesOffset := lines.variablesOffset
  rawCount := UInt32.ofNat (lines.form.word lines.positions.length)
  variableCount := lines.variableCount

/-- Line three from the first bytecode on, line five from the one with index four. -/
def sample : StoredLines where
  variablesOffset := 0
  variableCount := 0
  form := .short 0
  positions := [⟨3, 0⟩, ⟨5, 4⟩]
  entries := [0x03, 0x12]
  rest := []
  positions_ne_nil := nofun
  length_lt := by decide
  fits := by decide
  rising := by decide
  encode?_eq := rfl

variable {lines : StoredLines} {memory : Memory} {a : Address}

/-- Only below the first position there is none to find. -/
theorem lastAt?_eq_none_iff {b : Nat} :
    lines.lastAt? b = none ↔ ∀ first ∈ lines.positions.head?, b < first.location := by
  have hrising := lines.rising
  unfold lastAt?
  rw [List.getLast?_eq_none_iff, List.filter_eq_nil_iff]
  simp only [decide_eq_true_eq, Nat.not_le]
  cases hpositions : lines.positions with
  | nil => simp
  | cons first rest =>
    rw [hpositions] at hrising
    obtain ⟨hfirst, _⟩ := List.pairwise_cons.mp hrising
    constructor
    · intro hall position hposition
      obtain rfl := Option.some.inj hposition
      exact hall first List.mem_cons_self
    · intro hbelow position hposition
      have hb := hbelow first rfl
      rcases List.mem_cons.mp hposition with rfl | hrest
      · exact hb
      · exact Nat.lt_trans hb (hfirst position hrest)

theorem toNat_rawCount_head :
    (lines.head a).rawCount.toNat = lines.form.word lines.positions.length :=
  UInt32.toNat_ofNat_of_lt' (lines.form.word_lt lines.length_lt)

/-- Either way the head counts the entries. -/
theorem lineCount_head : (lines.head a).lineCount = lines.positions.length := by
  have hlt := lines.length_lt
  unfold DebugInfo.lineCount DebugInfo.isOdd
  rw [toNat_rawCount_head]
  cases hform : lines.form with
  | short upper =>
    rw [hform, CountForm.limit] at hlt
    have heven : (upper.toNat * 0x10000 + lines.positions.length * 2) % 2 ≠ 1 := by omega
    simp only [CountForm.word, heven, decide_false, Bool.false_eq_true, if_false]
    omega
  | long gap =>
    have hodd : (lines.positions.length * 2 + 1) % 2 = 1 := by omega
    simp only [CountForm.word, hodd, decide_true, if_true]
    omega

/-- The entries begin behind the head and the gap. -/
theorem table?_head :
    (lines.head a).table? = some (a + (12 + lines.form.gap.length)) := by
  have hpos : 0 < lines.positions.length := List.length_pos_iff.mpr lines.positions_ne_nil
  have hcount : (lines.head a).rawCount.toNat = lines.form.word lines.positions.length :=
    toNat_rawCount_head
  have hzero : (lines.head a).rawCount ≠ 0 := by
    intro h
    rw [h] at hcount
    exact absurd hcount (Nat.ne_of_lt (lines.form.word_pos hpos))
  unfold DebugInfo.table? DebugInfo.size DebugInfo.isOdd
  rw [if_neg hzero, hcount]
  cases lines.form with
  | short upper =>
    have heven : (upper.toNat * 0x10000 + lines.positions.length * 2) % 2 ≠ 1 := by omega
    simp only [CountForm.word, heven, decide_false, Bool.false_eq_true, if_false]
    rfl
  | long gap =>
    have hodd : (lines.positions.length * 2 + 1) % 2 = 1 := by omega
    simp only [CountForm.word, hodd, decide_true, if_true]
    rfl

theorem readHead_of_shows (h : memory.Shows a lines.bytes) :
    DebugInfo.read memory a = .ok (lines.head a) := by
  unfold bytes at h
  rw [← toNat_rawCount_head (a := a)] at h
  exact DebugInfo.read_of_shows h

/-- **The line table that memory has is read**: its entries are the positions, in their order. -/
theorem read_of_shows (h : memory.Shows a lines.bytes) (method : String) :
    ∃ table, LineTable.read memory (lines.head a) method = .ok (some table) ∧
      table.toList = lines.positions.map fun position => (position.location, position.line) := by
  have hentries : memory.Shows (a + (12 + lines.form.gap.length)) lines.entries := by
    have hright := h.right.right.right.right.left
    simp only [length_littleBytes, Address.add_add] at hright
    exact hright
  exact LineTable.read_of_encode table?_head lineCount_head lines.encode?_eq hentries lines.fits
    lines.rising method

/-- At each bytecode index the line of the last position at or below it holds. -/
theorem held?_of_shows (h : memory.Shows a lines.bytes) (method : String) :
    ∃ table, LineTable.read memory (lines.head a) method = .ok (some table) ∧
      ∀ b, table.held? b = (lines.lastAt? b).map (·.line) := by
  obtain ⟨table, hread, hlist⟩ := read_of_shows h method
  exact ⟨table, hread, LineTable.held?_of_toList hlist⟩

end StoredLines

end CompiledFrames
