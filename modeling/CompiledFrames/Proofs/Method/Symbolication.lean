import CompiledFrames.Method.Compiled
import CompiledFrames.Proofs.BytecodeTable
import CompiledFrames.Proofs.LineTable.Stored
import CompiledFrames.Proofs.Memory.Text
import CompiledFrames.Proofs.MethodRecord.Walk

/-!
# Lines of compiled methods

From the report of the compiler and the record in memory to the line at an address: the record leads
to the line table, and each of the two tables is a floor lookup. So a line is that of the last
position at or below the index of the last instruction at or before the address.

## Main definitions

* `Memory.ShowsMethod`: memory has all that the description of a method leads to

## Main results

* `CompiledMethod.build_of_shows`: a method is built with its names and its line table
* `CompiledMethod.lineAt_eq_ok_iff`, `CompiledMethod.lineAt_eq_notFound_iff`: the lookup of lines
* `CompiledMethod.lineAt_of_shows`: the line at each address of a method
-/

namespace CompiledFrames

/-- Memory has all that the description of a method leads to: its names, the linked method, and at
`a` the record, with a line table among its sections. -/
structure Memory.ShowsMethod (memory : Memory) (metadata : MethodMetadata) (names : MethodNames)
    (a : Address) (record : StoredRecord) (lines : StoredLines) : Prop where
  className : memory.ShowsText metadata.className names.className
  methodName : memory.ShowsText metadata.methodName names.methodName
  signature : memory.ShowsText metadata.signature names.signature
  /-- The first word of the linked method is the place of the bytecodes. -/
  linkedMethod :
    memory.Shows metadata.linkedMethod (littleBytes 8 (a + RecordHeader.size).val.toNat)
  recordBytes : memory.Shows a record.bytes
  debugInfo : record.stored? .debugInfo = some lines.bytes

variable {memory : Memory} {metadata : MethodMetadata} {names : MethodNames} {a : Address}
  {record : StoredRecord} {lines : StoredLines}

/-! ## Building -/

theorem MethodNames.read_of_shows (h : memory.ShowsMethod metadata names a record lines) :
    MethodNames.read memory metadata = .ok names := by
  unfold MethodNames.read
  rw [h.className.readText, Except.ok_bind, h.methodName.readText, Except.ok_bind,
    h.signature.readText, Except.ok_bind]
  rfl

theorem MethodMetadata.record_of_shows (h : memory.ShowsMethod metadata names a record lines) :
    metadata.record memory = .ok (record.toMethodRecord a) := by
  have hback : (⟨(a + RecordHeader.size).val⟩ : Address) - RecordHeader.size = a :=
    Address.add_sub_cancel a RecordHeader.size
  unfold MethodMetadata.record MethodRecord.ofBytecodes
  rw [h.linkedMethod.readU64, Except.ok_bind, hback]
  exact StoredRecord.read_of_shows h.recordBytes

theorem MethodRecord.debugInfo_of_shows (h : memory.ShowsMethod metadata names a record lines) :
    (record.toMethodRecord a).debugInfo memory =
      .ok (some (lines.head (a + record.offset .debugInfo))) := by
  have haddress : SectionLayout.address?
      ⟨a, SectionKind.inOrder.filterMap (record.placed? a)⟩ .debugInfo =
        some (a + record.offset .debugInfo) := by
    rw [StoredRecord.address?_placed, h.debugInfo]
    rfl
  have hhead : DebugInfo.read memory (a + record.offset .debugInfo) =
      .ok (lines.head (a + record.offset .debugInfo)) :=
    StoredLines.readHead_of_shows (StoredRecord.shows_section h.recordBytes h.debugInfo)
  unfold MethodRecord.debugInfo
  rw [StoredRecord.sections_eq h.recordBytes, Except.ok_bind, haddress]
  simp only [hhead, Except.mapError_ok, Except.ok_bind]
  rfl

namespace CompiledMethod

/-- A method is built with the names and the line table that memory has. -/
theorem build_of_shows (h : memory.ShowsMethod metadata names a record lines)
    (bytecodes : BytecodeTable) (shape : CodeShape) :
    ∃ table, build memory metadata bytecodes shape =
        .ok { metadata, names, bytecodes, lines := some table, shape } ∧
      ∀ b, table.held? b = (lines.lastAt? b).map (·.line) := by
  have hsection : memory.Shows (a + record.offset .debugInfo) lines.bytes :=
    StoredRecord.shows_section h.recordBytes h.debugInfo
  obtain ⟨table, hread, hheld⟩ := StoredLines.held?_of_shows hsection names.qualified
  refine ⟨table, ?_, hheld⟩
  unfold build
  simp only [MethodNames.read_of_shows h, MethodMetadata.record_of_shows h,
    MethodRecord.debugInfo_of_shows h, Checked.ofExcept_ok, Except.ok_bind, hread]
  rfl

/-- A method is built from the report of the compiler, with both of its tables. -/
theorem ofEvent_of_shows {event : CompileEvent} (shape : CodeShape)
    (h : memory.ShowsMethod event.metadata names a record lines)
    (hcode : BytecodeTable.codeOf event.instructions ≠ [])
    (hpcs : (BytecodeTable.codeOf event.instructions).Pairwise (·.pc < ·.pc)) :
    ∃ m table, ofEvent memory event shape = .ok m ∧ m.names = names ∧ m.lines = some table ∧
      (∀ pc, m.bytecodes.held? pc =
        (BytecodeTable.lastAt? (BytecodeTable.codeOf event.instructions) pc).map
          (·.bytecodeIndex)) ∧
      ∀ b, table.held? b = (lines.lastAt? b).map (·.line) := by
  obtain ⟨bytecodes, htable, hindex⟩ := BytecodeTable.held?_ofInstructions hcode hpcs
  obtain ⟨table, hbuild, hline⟩ := build_of_shows h bytecodes shape
  refine ⟨⟨event.metadata, names, bytecodes, some table, shape⟩, table, ?_, rfl, rfl, hindex, hline⟩
  unfold ofEvent
  rw [htable, Checked.ofExcept_ok, Except.ok_bind, hbuild]

/-! ## Lookup -/

variable {m : CompiledMethod} {lineTable : LineTable}

/-- Where there is code at or before an address, its line is that of the index of the code. -/
theorem lineAt_of_held? (hlines : m.lines = some lineTable) {pc : Address} {b : UInt32}
    (hb : m.bytecodes.held? pc = some b) : m.lineAt pc = lineTable.get b.toNat := by
  unfold lineAt
  rw [hlines]
  simp only [FloorMap.get_eq_ok_iff.mpr hb, Except.ok_bind]

/-- Before all code there is no line. -/
theorem lineAt_of_held?_eq_none (hlines : m.lines = some lineTable) {pc : Address}
    (hb : m.bytecodes.held? pc = none) : ∃ what, m.lineAt pc = .error (.notFound what) := by
  obtain ⟨what, hget⟩ := FloorMap.get_eq_notFound_iff.mpr hb
  refine ⟨what, ?_⟩
  unfold lineAt
  rw [hlines]
  simp only [hget, bind, Except.bind]

theorem lineAt_eq_ok_iff (hlines : m.lines = some lineTable) {pc : Address} {line : Int} :
    m.lineAt pc = .ok line ↔
      ∃ b, m.bytecodes.held? pc = some b ∧ lineTable.held? b.toNat = some line := by
  cases hb : m.bytecodes.held? pc with
  | none =>
    obtain ⟨what, hline⟩ := lineAt_of_held?_eq_none hlines hb
    simp [hline]
  | some b => simp [lineAt_of_held? hlines hb, FloorMap.get_eq_ok_iff]

theorem lineAt_eq_notFound_iff (hlines : m.lines = some lineTable) {pc : Address} :
    (∃ what, m.lineAt pc = .error (.notFound what)) ↔
      ∀ b, m.bytecodes.held? pc = some b → lineTable.held? b.toNat = none := by
  cases hb : m.bytecodes.held? pc with
  | none => exact iff_of_true (lineAt_of_held?_eq_none hlines hb) nofun
  | some b => simp [lineAt_of_held? hlines hb, FloorMap.get_eq_notFound_iff]

/-- **The line at each address of a method.** When the code that the compiler reports rises and
memory has names and record of the method, then the method is built, with its full name. At each
address it gives the line of the last position at or below the index of the last instruction at or
before the address. It gives none just when all code is behind the address, or when that index is
below the first position. -/
theorem lineAt_of_shows {event : CompileEvent} (shape : CodeShape)
    (h : memory.ShowsMethod event.metadata names a record lines)
    (hcode : BytecodeTable.codeOf event.instructions ≠ [])
    (hpcs : (BytecodeTable.codeOf event.instructions).Pairwise (·.pc < ·.pc)) :
    ∃ m, ofEvent memory event shape = .ok m ∧
      m.name = names.className ++ "." ++ names.methodName ++ names.signature ∧
      ∀ pc,
        (∀ line, m.lineAt pc = .ok line ↔
          ∃ instruction position,
            BytecodeTable.lastAt? (BytecodeTable.codeOf event.instructions) pc =
              some instruction ∧
            lines.lastAt? instruction.bytecodeIndex.toNat = some position ∧
            position.line = line) ∧
        ((∃ what, m.lineAt pc = .error (.notFound what)) ↔
          (∀ instruction ∈ BytecodeTable.codeOf event.instructions, pc < instruction.pc) ∨
          ∃ instruction,
            BytecodeTable.lastAt? (BytecodeTable.codeOf event.instructions) pc =
              some instruction ∧
            ∀ first ∈ lines.positions.head?,
              instruction.bytecodeIndex.toNat < first.location) := by
  obtain ⟨m, table, hbuild, hnames, hlines, hindex, hline⟩ := ofEvent_of_shows shape h hcode hpcs
  refine ⟨m, hbuild, ?_, fun pc => ⟨fun line => ?_, ?_⟩⟩
  · unfold name
    rw [hnames, MethodNames.qualified]
  · rw [lineAt_eq_ok_iff hlines]
    constructor
    · rintro ⟨b, hb, hl⟩
      rw [hindex, Option.map_eq_some_iff] at hb
      obtain ⟨instruction, hlast, rfl⟩ := hb
      rw [hline, Option.map_eq_some_iff] at hl
      obtain ⟨position, hposition, rfl⟩ := hl
      exact ⟨instruction, position, hlast, hposition, rfl⟩
    · rintro ⟨instruction, position, hlast, hposition, rfl⟩
      refine ⟨instruction.bytecodeIndex, ?_, ?_⟩
      · rw [hindex, hlast]
        rfl
      · rw [hline, hposition]
        rfl
  · rw [lineAt_eq_notFound_iff hlines]
    simp only [hindex, hline, Option.map_eq_none_iff, StoredLines.lastAt?_eq_none_iff]
    cases hlast : BytecodeTable.lastAt? (BytecodeTable.codeOf event.instructions) pc with
    | none =>
      exact ⟨fun _ => .inl (BytecodeTable.lastAt?_eq_none_iff.mp hlast), fun _ _ hb => nomatch hb⟩
    | some instruction =>
      constructor
      · intro hall
        exact .inr ⟨instruction, rfl, hall _ rfl⟩
      · rintro (hbehind | ⟨_, hother, hbelow⟩) b hb
        · rw [BytecodeTable.lastAt?_eq_none_iff.mpr hbehind] at hlast
          cases hlast
        · cases hother
          cases hb
          exact hbelow

/-- Three instructions after the descriptor, of two bytecodes. -/
def sampleEvent : CompileEvent where
  metadata :=
    { start := ⟨0x4000⟩, stop := ⟨0x4010⟩, frameSlots := 3, paramSlots := 1, className := ⟨0x5000⟩
      methodName := ⟨0x5005⟩, signature := ⟨0x500a⟩, linkedMethod := ⟨0x500f⟩ }
  instructions :=
    [⟨⟨0x3ffc⟩, 4, 0⟩, ⟨⟨0x4004⟩, 4, 0⟩, ⟨⟨0x4008⟩, 4, 0⟩, ⟨⟨0x400c⟩, 4, 4⟩]

/-- What memory has from `0x5000` on: names, linked method and record. -/
def sampleBytes : List UInt8 :=
  (littleBytes 2 3 ++ Utf8.encode "Foo") ++ ((littleBytes 2 3 ++ Utf8.encode "bar") ++
    ((littleBytes 2 3 ++ Utf8.encode "()V") ++
      (littleBytes 8 0x502b ++ StoredRecord.sample.bytes)))

theorem showsMethod_sample :
    (({} : MemoryImage).map ⟨0x5000⟩ sampleBytes).toMemory.ShowsMethod sampleEvent.metadata
      ⟨"Foo", "bar", "()V"⟩ ⟨0x5017⟩ StoredRecord.sample StoredLines.sample := by
  have hshows := (MemoryImage.holds_map_empty ⟨0x5000⟩ sampleBytes (by decide)).shows
  exact
    { className := ⟨by decide, hshows.left, nofun⟩
      methodName := ⟨by decide, hshows.right.left, nofun⟩
      signature := ⟨by decide, hshows.right.right.left, nofun⟩
      linkedMethod := hshows.right.right.right.left
      recordBytes := hshows.right.right.right.right
      debugInfo := rfl }

theorem lineAt_of_sample :
    ∃ memory m, ofEvent memory sampleEvent .riscv64 = .ok m ∧ m.name = "Foo.bar()V" ∧
      m.lineAt ⟨0x400a⟩ = .ok 3 ∧ m.lineAt ⟨0x400c⟩ = .ok 5 ∧
      ∃ what, m.lineAt ⟨0x4000⟩ = .error (.notFound what) := by
  obtain ⟨m, hbuild, hname, hline⟩ :=
    lineAt_of_shows .riscv64 showsMethod_sample (by decide) (by decide)
  refine ⟨_, m, hbuild, hname, ((hline ⟨0x400a⟩).1 3).mpr ?_, ((hline ⟨0x400c⟩).1 5).mpr ?_,
    (hline ⟨0x4000⟩).2.mpr (.inl (by decide))⟩
  · exact ⟨⟨⟨0x4008⟩, 4, 0⟩, ⟨3, 0⟩, rfl, rfl, rfl⟩
  · exact ⟨⟨⟨0x400c⟩, 4, 4⟩, ⟨5, 4⟩, rfl, rfl, rfl⟩

end CompiledMethod

end CompiledFrames
