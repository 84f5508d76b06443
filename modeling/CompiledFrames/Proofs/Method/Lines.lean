import CompiledFrames.Method.Compiled
import CompiledFrames.Proofs.Ordered

/-!
# Listing the lines of a method

The lines of a method are listed by a loop over its instructions: as long as the place of the next
instruction is below the end of the method, its row is added, if its line is known, and the place
moves on by the width of an instruction. Places are counted modulo `2 ^ 64`. If the end of a method
is among the last places of all, the loop steps over it, and as the width divides `2 ^ 64`, over and
over again.

## Main definitions

* `CompiledMethod.listed?`: the listing after some steps of the loop
* `CompiledMethod.EndsAfter`: the loop comes to its end after some steps
* `CompiledMethod.instructionAt`, `CompiledMethod.rowsBefore`: the instructions of a method, and the
  rows of the first ones

## Main results

* `CompiledMethod.listed?_eq_some_iff`: what is listed after some steps
* `CompiledMethod.listing_ends_iff`: which listings come to their end, and after how many steps
* `CompiledMethod.lineRows_lists`: the rows of a listing
-/

namespace CompiledFrames

theorem CodeShape.instructionWidth_eq (shape : CodeShape) : shape.instructionWidth = 4 := by
  cases shape
  rfl

namespace CompiledMethod

variable {m : CompiledMethod} {lines : LineTable} {listing : LineListing} {row : LineRow}
  {pc : Address} {n : Nat}

/-! ## Instructions -/

/-- The place of an instruction, counted from the start of the method. -/
def instructionAt (m : CompiledMethod) (n : Nat) : Address :=
  m.start + n * m.shape.instructionWidth

/-- The number of instructions from the start of a method up to its end, of which the last one may
be cut off. -/
def instructionCount (m : CompiledMethod) : Nat :=
  (m.stop.toNat - m.start.toNat + 3) / 4

theorem toNat_instructionAt (m : CompiledMethod) (n : Nat) :
    (m.instructionAt n).toNat = (m.start.toNat + 4 * n) % 0x10000000000000000 := by
  rw [instructionAt, Address.toNat_add, CodeShape.instructionWidth_eq, Nat.mul_comm]

@[simp] theorem instructionAt_zero (m : CompiledMethod) : m.instructionAt 0 = m.start := by
  rw [instructionAt, Nat.zero_mul, Address.add_zero]

theorem instructionAt_succ (m : CompiledMethod) (n : Nat) :
    m.instructionAt (n + 1) = m.instructionAt n + m.shape.instructionWidth := by
  rw [instructionAt, instructionAt, Address.add_add, Nat.succ_mul]

/-- The body begins four instructions after the loads of the parameters. -/
theorem frameBuilt_eq (m : CompiledMethod) :
    m.landmarks.frameBuilt = m.instructionAt (m.metadata.paramSlots.toNat + 4) := by
  show m.start + _ + _ + _ = _
  rw [instructionAt, Address.add_add, Address.add_add, CodeShape.instructionWidth_eq]
  congr 1
  omega

theorem toNat_instructionAt_of_fits (h : m.start.toNat + 4 * n < 0x10000000000000000) :
    (m.instructionAt n).toNat = m.start.toNat + 4 * n := by
  rw [toNat_instructionAt, Nat.mod_eq_of_lt h]

/-- Up to the end of a method, places of instructions do not wrap around. -/
theorem toNat_instructionAt_of_lt (h : n < m.instructionCount) :
    (m.instructionAt n).toNat = m.start.toNat + 4 * n := by
  have hstop := m.stop.toNat_lt
  unfold instructionCount at h
  exact toNat_instructionAt_of_fits (by omega)

theorem instructionAt_lt_stop (h : n < m.instructionCount) : m.instructionAt n < m.stop := by
  rw [Address.lt_iff, toNat_instructionAt_of_lt h]
  unfold instructionCount at h
  omega

/-! ## Rows -/

/-- The rows of the first instructions of a method. -/
def rowsBefore (m : CompiledMethod) (n : Nat) : List LineRow :=
  (List.range n).filterMap fun k => m.lineRow? (m.instructionAt k)

theorem rowsBefore_succ (m : CompiledMethod) (n : Nat) :
    m.rowsBefore (n + 1) = m.rowsBefore n ++ (m.lineRow? (m.instructionAt n)).toList := by
  rw [rowsBefore, List.range_succ, List.filterMap_append, ← rowsBefore]
  cases hrow : m.lineRow? (m.instructionAt n) with
  | none => simp [hrow]
  | some row => simp [hrow]

/-- What is in the row of an instruction. -/
theorem lineRow?_eq_some_iff :
    m.lineRow? pc = some row ↔ row.pc = pc ∧ m.lineAt pc = .ok row.line ∧
      (row.isStatement ↔ m.landmarks.frameBuilt ≤ pc) ∧
      (row.isPrologueEnd ↔ pc = m.landmarks.frameBuilt) := by
  have hflag (flag : Bool) (p : Prop) [Decidable p] : decide p = flag ↔ (flag ↔ p) := by
    rw [Bool.eq_iff_iff, decide_eq_true_eq]
    exact iff_comm
  obtain ⟨line', pc', isStatement, isPrologueEnd⟩ := row
  unfold lineRow?
  cases m.lineAt pc with
  | error e => simp [Except.toOption]
  | ok line =>
    simp only [Except.toOption, Option.map_some, Option.some.injEq, LineRow.mk.injEq,
      Except.ok.injEq, hflag]
    constructor
    · rintro ⟨hline, hpc, hflags⟩
      exact ⟨hpc.symm, hline, hflags⟩
    · rintro ⟨hpc, hline, hflags⟩
      exact ⟨hline, hpc.symm, hflags⟩

theorem mem_rowsBefore_iff :
    row ∈ m.rowsBefore n ↔ ∃ k < n, m.lineRow? (m.instructionAt k) = some row := by
  simp [rowsBefore, List.mem_filterMap]

/-- The rows up to the end of a method are those of all its instructions. -/
theorem mem_rowsBefore_instructionCount_iff :
    row ∈ m.rowsBefore m.instructionCount ↔
      (∃ k, row.pc.toNat = m.start.toNat + 4 * k) ∧ row.pc < m.stop ∧
        m.lineRow? row.pc = some row := by
  rw [mem_rowsBefore_iff]
  constructor
  · rintro ⟨k, hk, hrow⟩
    have hpc := (lineRow?_eq_some_iff.mp hrow).1
    rw [hpc]
    exact ⟨⟨k, toNat_instructionAt_of_lt hk⟩, instructionAt_lt_stop hk, hrow⟩
  · rintro ⟨⟨k, hpc⟩, hstop, hrow⟩
    have hk : k < m.instructionCount := by
      rw [Address.lt_iff, hpc] at hstop
      unfold instructionCount
      omega
    have hplace : m.instructionAt k = row.pc :=
      Address.ext_toNat ((toNat_instructionAt_of_lt hk).trans hpc.symm)
    exact ⟨k, hk, by rw [hplace, hrow]⟩

theorem pairwise_rowsBefore (m : CompiledMethod) :
    (m.rowsBefore m.instructionCount).Pairwise (·.pc < ·.pc) := by
  refine List.pairwise_filterMap.mpr (List.pairwise_lt_range.imp_of_mem ?_)
  intro k l _ hl hlt row hrow row' hrow'
  have hl := List.mem_range.mp hl
  rw [(lineRow?_eq_some_iff.mp hrow).1, (lineRow?_eq_some_iff.mp hrow').1, Address.lt_iff,
    toNat_instructionAt_of_lt (Nat.lt_trans hlt hl), toNat_instructionAt_of_lt hl]
  omega

/-- The body begins in one row at most. -/
theorem filter_isPrologueEnd_of_mem (hrow : row ∈ m.rowsBefore m.instructionCount)
    (hend : row.isPrologueEnd) :
    (m.rowsBefore m.instructionCount).filter (·.isPrologueEnd) = [row] := by
  have hfound : ∀ other ∈ m.rowsBefore m.instructionCount, other.isPrologueEnd →
      m.lineRow? m.landmarks.frameBuilt = some other := by
    intro other hother hend
    obtain ⟨-, -, hother⟩ := mem_rowsBefore_instructionCount_iff.mp hother
    rw [← (lineRow?_eq_some_iff.mp hother).2.2.2.mp hend]
    exact hother
  refine filter_eq_singleton (pairwise_rowsBefore m) ?_ hrow hend fun other hother hend' => ?_
  · intro row hlt
    exact Nat.lt_irrefl _ (Address.lt_iff.mp hlt)
  · exact Option.some.inj ((hfound other hother hend').symm.trans (hfound row hrow hend))

/-- The body begins nowhere but in the method, at an instruction whose line is known. -/
theorem contains_of_isPrologueEnd (hrow : row ∈ m.rowsBefore m.instructionCount)
    (hend : row.isPrologueEnd) :
    m.metadata.Contains m.landmarks.frameBuilt ∧
      m.lineAt m.landmarks.frameBuilt = .ok row.line := by
  obtain ⟨⟨k, hk⟩, hstop, hrow⟩ := mem_rowsBefore_instructionCount_iff.mp hrow
  obtain ⟨-, hline, -, hends⟩ := lineRow?_eq_some_iff.mp hrow
  have hstart : m.start ≤ row.pc := by
    rw [Address.le_iff, hk]
    omega
  rw [← hends.mp hend]
  exact ⟨⟨hstart, hstop⟩, hline⟩

/-- In a method whose body has a line where it begins, there is a row for that. -/
theorem mem_rowsBefore_frameBuilt {line : Int}
    (hinside : m.metadata.Contains m.landmarks.frameBuilt)
    (hline : m.lineAt m.landmarks.frameBuilt = .ok line) :
    ⟨line, m.landmarks.frameBuilt, true, true⟩ ∈ m.rowsBefore m.instructionCount := by
  have hrow : m.lineRow? m.landmarks.frameBuilt =
      some ⟨line, m.landmarks.frameBuilt, true, true⟩ :=
    lineRow?_eq_some_iff.mpr
      ⟨rfl, hline, iff_of_true rfl (Address.le_refl _), iff_of_true rfl rfl⟩
  have hplace : m.landmarks.frameBuilt.toNat =
      m.start.toNat + 4 * (m.metadata.paramSlots.toNat + 4) := by
    have hstart : m.start.toNat ≤ m.landmarks.frameBuilt.toNat := Address.le_iff.mp hinside.1
    have hslots := m.metadata.paramSlots.toNat_lt
    have hlt := m.start.toNat_lt
    rw [frameBuilt_eq, toNat_instructionAt] at hstart ⊢
    omega
  exact mem_rowsBefore_instructionCount_iff.mpr ⟨⟨_, hplace⟩, hinside.2, hrow⟩

/-! ## The loop -/

/-- The listing after some steps of the loop, if it goes on so long. -/
def listed? (m : CompiledMethod) : Nat → Option LineListing
  | 0 => some ⟨m.start, []⟩
  | n + 1 => m.listed? n >>= m.listNext?

/-- The loop comes to its end after `n` steps. -/
def EndsAfter (m : CompiledMethod) (n : Nat) : Prop :=
  ∃ listing, m.listed? n = some listing ∧ m.listNext? listing = none

theorem listNext?_eq_none_iff : m.listNext? listing = none ↔ m.stop ≤ listing.pc := by
  unfold listNext?
  split
  case isTrue h => simpa [Address.not_le] using h
  case isFalse h => simpa [Address.not_lt] using h

/-- What a step of the loop adds. -/
theorem listNext?_eq_some_iff {next : LineListing} :
    m.listNext? listing = some next ↔ listing.pc < m.stop ∧
      next = ⟨listing.pc + m.shape.instructionWidth,
        (m.lineRow? listing.pc).toList ++ listing.rows⟩ := by
  unfold listNext?
  split
  case isTrue h => simp [h, eq_comm]
  case isFalse h => simp [h]

/-- What is listed after some steps: the rows of as many instructions. -/
theorem listed?_eq_some_iff :
    m.listed? n = some listing ↔ (∀ k < n, m.instructionAt k < m.stop) ∧
      listing = ⟨m.instructionAt n, (m.rowsBefore n).reverse⟩ := by
  induction n generalizing listing with
  | zero => simp [listed?, rowsBefore, eq_comm]
  | succ n ih =>
    have hnext : (m.rowsBefore (n + 1)).reverse =
        (m.lineRow? (m.instructionAt n)).toList ++ (m.rowsBefore n).reverse := by
      rw [rowsBefore_succ, List.reverse_append]
      congr 1
      cases m.lineRow? (m.instructionAt n) <;> rfl
    rw [hnext, instructionAt_succ]
    constructor
    · intro h
      obtain ⟨before, hbefore, hstep⟩ := Option.bind_eq_some_iff.mp h
      obtain ⟨hbelow, rfl⟩ := ih.mp hbefore
      obtain ⟨hlt, rfl⟩ := listNext?_eq_some_iff.mp hstep
      exact ⟨Nat.forall_lt_succ_right.mpr ⟨hbelow, hlt⟩, rfl⟩
    · rintro ⟨hbelow, rfl⟩
      obtain ⟨hbelow, hlt⟩ := Nat.forall_lt_succ_right.mp hbelow
      exact Option.bind_eq_some_iff.mpr
        ⟨_, ih.mpr ⟨hbelow, rfl⟩, listNext?_eq_some_iff.mpr ⟨hlt, rfl⟩⟩

/-- The loop comes to its end at the first instruction that is not below the end of the method. -/
theorem endsAfter_iff :
    m.EndsAfter n ↔ (∀ k < n, m.instructionAt k < m.stop) ∧ m.stop ≤ m.instructionAt n := by
  constructor
  · rintro ⟨listing, hlisted, hnone⟩
    obtain ⟨hbelow, rfl⟩ := listed?_eq_some_iff.mp hlisted
    exact ⟨hbelow, listNext?_eq_none_iff.mp hnone⟩
  · rintro ⟨hbelow, hstop⟩
    exact ⟨_, listed?_eq_some_iff.mpr ⟨hbelow, rfl⟩, listNext?_eq_none_iff.mpr hstop⟩

theorem EndsAfter.unique {n' : Nat} (h : m.EndsAfter n) (h' : m.EndsAfter n') : n = n' := by
  obtain ⟨hbelow, hstop⟩ := endsAfter_iff.mp h
  obtain ⟨hbelow', hstop'⟩ := endsAfter_iff.mp h'
  rcases Nat.lt_trichotomy n n' with hlt | heq | hlt
  · exact absurd (hbelow' n hlt) (Address.not_lt.mpr hstop)
  · exact heq
  · exact absurd (hbelow n' hlt) (Address.not_lt.mpr hstop')

/-- Where the loop has come to, it goes on. -/
theorem listAll_of_listed? (h : m.listed? n = some listing) :
    m.listAll ⟨m.start, []⟩ = m.listAll listing := by
  induction n generalizing listing with
  | zero => rw [Option.some.inj h]
  | succ n ih =>
    obtain ⟨before, hbefore, hstep⟩ := Option.bind_eq_some_iff.mp h
    rw [ih hbefore, listAll_eq, hstep]

/-- The rows of a listing that comes to its end. -/
theorem lineRows_of_endsAfter (h : m.EndsAfter n) (hlines : m.lines = some lines) :
    m.lineRows = .ok (m.rowsBefore n) := by
  obtain ⟨listing, hlisted, hnone⟩ := h
  unfold lineRows
  rw [hlines, listAll_of_listed? hlisted, listAll_eq, hnone,
    (listed?_eq_some_iff.mp hlisted).2, List.reverse_reverse]

/-- If the loop does not step over the end of a method, it comes to its end there. -/
theorem endsAfter_instructionCount
    (h : m.stop.toNat + 4 ≤ 0x10000000000000000 + m.start.toNat % 4) :
    m.EndsAfter m.instructionCount := by
  refine endsAfter_iff.mpr ⟨fun k hk => instructionAt_lt_stop hk, ?_⟩
  -- modulo four a place is like the start, so the first one past the end is before the wrap
  have hstart := m.start.toNat_lt
  rw [Address.le_iff, toNat_instructionAt]
  unfold instructionCount
  omega

/-- If the last places before the wrap are in a method, all places that the loop comes to are. -/
theorem instructionAt_lt_of_over
    (h : 0x10000000000000000 + m.start.toNat % 4 < m.stop.toNat + 4) (n : Nat) :
    m.instructionAt n < m.stop := by
  rw [Address.lt_iff, toNat_instructionAt]
  omega

theorem exists_endsAfter_iff :
    (∃ n, m.EndsAfter n) ↔ m.stop.toNat + 4 ≤ 0x10000000000000000 + m.start.toNat % 4 := by
  constructor
  · rintro ⟨n, hends⟩
    refine Nat.le_of_not_lt fun hover => ?_
    exact Address.not_lt.mpr (endsAfter_iff.mp hends).2 (instructionAt_lt_of_over hover n)
  · intro h
    exact ⟨_, endsAfter_instructionCount h⟩

/-- **Which listings come to their end**, and after how many steps. A listing comes to its end just
when the end of the method is no further than the last place before the wrap that the loop comes to.
Then the loop takes a step for each instruction of the method, and the rows of these are the answer.
Otherwise it takes any number of steps and lists the rows of as many places, over and over again. -/
theorem listing_ends_iff (m : CompiledMethod) :
    ((∃ n, m.EndsAfter n) ↔ m.stop.toNat + 4 ≤ 0x10000000000000000 + m.start.toNat % 4) ∧
    (∀ n, m.EndsAfter n → n = (m.stop.toNat - m.start.toNat + 3) / 4 ∧
      ∀ lines, m.lines = some lines → m.lineRows = .ok (m.rowsBefore n)) ∧
    ((¬ ∃ n, m.EndsAfter n) → ∀ n,
      m.listed? n = some ⟨m.instructionAt n, (m.rowsBefore n).reverse⟩) := by
  refine ⟨exists_endsAfter_iff, fun n hends => ⟨?_, fun lines => lineRows_of_endsAfter hends⟩, ?_⟩
  · exact hends.unique (endsAfter_instructionCount (exists_endsAfter_iff.mp ⟨n, hends⟩))
  · intro hnever n
    rw [exists_endsAfter_iff, Nat.not_le] at hnever
    exact listed?_eq_some_iff.mpr ⟨fun k _ => instructionAt_lt_of_over hnever k, rfl⟩

/-- Eight instructions with one parameter slot, the last one cut off; all but the first one are from
line 3. -/
def cutOff : CompiledMethod where
  metadata := ⟨⟨0x4000⟩, ⟨0x401e⟩, 1, 1, ⟨0x5000⟩, ⟨0x5005⟩, ⟨0x500a⟩, ⟨0x500f⟩⟩
  names := ⟨"Foo", "bar", "()V"⟩
  bytecodes := ⟨[(⟨0x4004⟩, 0)]⟩
  lines := some ⟨[(0, 3)]⟩
  shape := .riscv64

/-- The last eight instructions before the wrap, up to the last place of all. -/
def brimful : CompiledMethod where
  metadata :=
    ⟨⟨0xffffffffffffffe0⟩, ⟨0xffffffffffffffff⟩, 1, 0, ⟨0x5000⟩, ⟨0x5005⟩, ⟨0x500a⟩, ⟨0x500f⟩⟩
  names := ⟨"Foo", "bar", "()V"⟩
  bytecodes := ⟨[(⟨0xffffffffffffffdc⟩, 0)]⟩
  lines := some ⟨[(0, 3)]⟩
  shape := .riscv64

/-- The one listing comes to its end after eight steps, the other one has wrapped around after nine. -/
theorem listing_ends_cutOff :
    cutOff.EndsAfter 8 ∧ cutOff.lineRows = .ok (cutOff.rowsBefore 8) ∧
      brimful.listed? 9 = some ⟨⟨4⟩, (brimful.rowsBefore 9).reverse⟩ := by
  obtain ⟨hends, hrows, -⟩ := listing_ends_iff cutOff
  obtain ⟨n, hn⟩ := hends.mpr (by decide)
  obtain ⟨hcount, hlines⟩ := hrows n hn
  obtain rfl : n = 8 := hcount.trans (by decide)
  obtain ⟨hends', -, hnever⟩ := listing_ends_iff brimful
  exact ⟨hn, hlines _ rfl, hnever (fun h => absurd (hends'.mp h) (by decide)) 9⟩

/-- **Some listings never come to their end**: it is false that each method that has lines is listed
after a step for each instruction up to its end. -/
theorem not_listing_ends :
    ¬ ∀ m : CompiledMethod, m.lines.isSome →
      ∃ n ≤ (m.stop.toNat - m.start.toNat + 3) / 4, m.EndsAfter n := by
  intro h
  obtain ⟨n, -, hends⟩ := h brimful rfl
  exact absurd (exists_endsAfter_iff.mp ⟨n, hends⟩) (by decide)

/-- **Each instruction is listed once**, with its flags. Of a method that has its end at least four
places before the wrap, the rows are those of the instructions whose line is known, in the order of
their addresses. They belong to the body from its first instruction on, and there the body begins, in
that row alone. -/
theorem lineRows_lists (m : CompiledMethod) (hlines : m.lines = some lines)
    (hstop : m.stop.toNat ≤ 0xfffffffffffffffc) :
    ∃ n rows, m.EndsAfter n ∧ m.lineRows = .ok rows ∧ rows.Pairwise (·.pc < ·.pc) ∧
      (∀ row, row ∈ rows ↔
        (∃ k, row.pc.toNat = m.start.toNat + 4 * k) ∧ row.pc < m.stop ∧
          m.lineAt row.pc = .ok row.line ∧
          (row.isStatement ↔ m.landmarks.frameBuilt ≤ row.pc) ∧
          (row.isPrologueEnd ↔ row.pc = m.landmarks.frameBuilt)) ∧
      (∀ line, m.metadata.Contains m.landmarks.frameBuilt →
        m.lineAt m.landmarks.frameBuilt = .ok line →
        rows.filter (·.isPrologueEnd) = [⟨line, m.landmarks.frameBuilt, true, true⟩]) ∧
      (¬ (m.metadata.Contains m.landmarks.frameBuilt ∧
          ∃ line, m.lineAt m.landmarks.frameBuilt = .ok line) →
        rows.filter (·.isPrologueEnd) = []) := by
  have hends : m.EndsAfter m.instructionCount := endsAfter_instructionCount (by omega)
  refine ⟨_, _, hends, lineRows_of_endsAfter hends hlines, pairwise_rowsBefore m, ?_, ?_, ?_⟩
  · intro row
    rw [mem_rowsBefore_instructionCount_iff, lineRow?_eq_some_iff]
    simp only [true_and]
  · intro line hinside hline
    exact filter_isPrologueEnd_of_mem (mem_rowsBefore_frameBuilt hinside hline) rfl
  · intro hnone
    refine List.filter_eq_nil_iff.mpr fun row hrow hend => hnone ?_
    obtain ⟨hinside, hline⟩ := contains_of_isPrologueEnd hrow hend
    exact ⟨hinside, row.line, hline⟩

/-- The body begins at the sixth instruction, and the row of the last one, though that is cut off, is
listed. -/
theorem lineRows_lists_cutOff :
    ∃ rows, cutOff.lineRows = .ok rows ∧
      rows.filter (·.isPrologueEnd) = [⟨3, ⟨0x4014⟩, true, true⟩] ∧
      ⟨3, ⟨0x401c⟩, true, false⟩ ∈ rows ∧ ∀ row ∈ rows, row.pc ≠ cutOff.start := by
  obtain ⟨_, rows, -, hrows, -, hmem, hend, -⟩ := lineRows_lists cutOff rfl (by decide)
  refine ⟨rows, hrows, hend 3 (by decide) rfl, ?_, ?_⟩
  · exact (hmem ⟨3, ⟨0x401c⟩, true, false⟩).mpr
      ⟨⟨7, by decide⟩, by decide, rfl, by decide, by decide⟩
  · intro row hrow heq
    obtain ⟨-, -, hline, -⟩ := (hmem row).mp hrow
    rw [heq] at hline
    cases hline

end CompiledMethod

end CompiledFrames
