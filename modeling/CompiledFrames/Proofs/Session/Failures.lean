import CompiledFrames.Proofs.LineTable.Range
import CompiledFrames.Proofs.MethodRecord.Probes
import CompiledFrames.Proofs.Session.Compiling

/-!
# Failures of building a method

Building a method reads its names and the head of its record, then the sections and the lines. The
first of these are reads without which nothing is known of the method, and if one of them fails its
memory fault is the answer. From there on a failure is put down to the record: it names the place of
the record if a section or the head of the debug information is missing, and the method if a line
entry is refused. There is no other kind of error.

## Main definitions

* `Fails`: a computation ends in an error
* `LineTable.RefusedAt`: the line entry that is refused, and the three reasons for it in words

## Main results

* `LineEntry.refusedAt_of_readAt`: an entry that is not read is reserved or out of reach
* `LineTable.refusedAt_of_readEntries`: a run of entries ends at one that is refused
* `MethodRecord.exists_fault_of_debugInfo`: what is wrong when the debug information is not found
* `CompiledMethod.exists_fault_iff`: when building ends in a memory fault
* `CompiledMethod.build_of_record`, `CompiledMethod.build_cases`: how it ends once names and record
  are known
* `CompiledMethod.build_failures`: all errors of building a method
-/

namespace CompiledFrames

/-! ## Computations that fail -/

/-- The computation ends in an error. -/
def Fails {ε α : Type} (x : Except ε α) : Prop :=
  ∃ e, x = .error e

section Fails

variable {ε α β : Type} {x : Except ε α} {f : α → Except ε β} {p : Prop}

theorem not_fails_ok (a : α) : ¬ Fails (.ok a : Except ε α) := by
  rintro ⟨e, h⟩
  cases h

theorem fails_bind_iff : Fails (x >>= f) ↔ Fails x ∨ ∃ a, x = .ok a ∧ Fails (f a) := by
  unfold Fails
  simp only [Except.bind_eq_error]
  constructor
  · rintro ⟨e, hx | ⟨a, hx, hf⟩⟩
    · exact .inl ⟨e, hx⟩
    · exact .inr ⟨a, hx, e, hf⟩
  · rintro (⟨e, hx⟩ | ⟨a, hx, e, hf⟩)
    · exact ⟨e, .inl hx⟩
    · exact ⟨e, .inr ⟨a, hx, hf⟩⟩

/-- Where the first part alone can fail, the whole fails with it. -/
theorem fails_bind_iff_left (h : ∀ a, ¬ Fails (f a)) : Fails (x >>= f) ↔ Fails x := by
  rw [fails_bind_iff]
  apply or_iff_left
  rintro ⟨a, -, hf⟩
  exact h a hf

/-- Where it does not matter to the second part what the first one gives, one of the two fails. -/
theorem fails_bind_iff_or (h : ∀ a, Fails (f a) ↔ p) : Fails (x >>= f) ↔ Fails x ∨ p := by
  rw [fails_bind_iff]
  simp only [h]
  cases x with
  | ok a => simp [not_fails_ok]
  | error e => simp [Fails]

end Fails

variable {memory : Memory} {metadata : MethodMetadata} {e : Error}

/-! ## Names and the head of the record -/

theorem Memory.onlyFaults_readText (a : Address) : memory.OnlyFaults (memory.readText a) := by
  apply (onlyFaults_readU16 a).bind
  intro length
  apply (onlyFaults_readBytes _ _).bind
  intro bytes
  exact onlyFaults_ok _

namespace MethodNames

theorem fails_read_iff : Fails (read memory metadata) ↔
    Fails (memory.readText metadata.className) ∨ Fails (memory.readText metadata.methodName) ∨
      Fails (memory.readText metadata.signature) := by
  apply fails_bind_iff_or
  intro className
  apply fails_bind_iff_or
  intro methodName
  exact fails_bind_iff_left fun _ => not_fails_ok _

theorem onlyFaults_read (metadata : MethodMetadata) :
    memory.OnlyFaults (read memory metadata) := by
  apply (Memory.onlyFaults_readText metadata.className).bind
  intro className
  apply (Memory.onlyFaults_readText metadata.methodName).bind
  intro methodName
  apply (Memory.onlyFaults_readText metadata.signature).bind
  intro signature
  exact Memory.onlyFaults_ok _

end MethodNames

theorem MethodRecord.fails_read_iff {a : Address} :
    Fails (MethodRecord.read memory a) ↔ Fails (memory.readBytes a RecordHeader.size) :=
  fails_bind_iff_left fun _ => not_fails_ok _

namespace MethodMetadata

theorem fails_record_iff : Fails (metadata.record memory) ↔
    Fails (memory.readU64 metadata.linkedMethod) ∨
      ∃ word, memory.readU64 metadata.linkedMethod = .ok word ∧
        Fails (memory.readBytes ((⟨word⟩ : Address) - RecordHeader.size) RecordHeader.size) := by
  unfold record MethodRecord.ofBytecodes
  rw [fails_bind_iff]
  simp only [MethodRecord.fails_read_iff]

theorem onlyFaults_record (metadata : MethodMetadata) :
    memory.OnlyFaults (metadata.record memory) := by
  apply (Memory.onlyFaults_readU64 metadata.linkedMethod).bind
  intro word
  apply (Memory.onlyFaults_readBytes _ RecordHeader.size).bind
  intro bytes
  exact Memory.onlyFaults_ok _

end MethodMetadata

/-! ## Sections and debug information -/

theorem DebugInfo.onlyFaults_read (a : Address) :
    memory.OnlyFaults (DebugInfo.read memory a) := by
  apply (Memory.onlyFaults_readU32 a).bind
  intro variablesOffset
  apply (Memory.onlyFaults_readU32 (a + 4)).bind
  intro rawCount
  apply (Memory.onlyFaults_readU32 (a + 8)).bind
  intro variableCount
  exact Memory.onlyFaults_ok _

/-- **Debug information that is not found**: a section on the way there, or its own head, has a part
of which nothing can be read. The error has the place of the record. -/
theorem MethodRecord.exists_fault_of_debugInfo {record : MethodRecord}
    (h : record.debugInfo memory = .error e) :
    ∃ kind a n, memory.window? a n = none ∧ e = record.unreadable kind (.memoryFault a n) := by
  rcases Except.bind_eq_error.mp h with hsections | ⟨layout, -, hhead⟩
  · obtain ⟨kind, -, a, cause, hread, rfl⟩ :=
      exists_read_of_walk (Except.map_eq_error.mp hsections)
    obtain ⟨b, n, rfl, hwindow⟩ := SectionKind.onlyFaults_read kind a cause hread
    exact ⟨kind, b, n, hwindow, rfl⟩
  · cases haddress : layout.address? .debugInfo with
    | none =>
      rw [haddress] at hhead
      cases hhead
    | some address =>
      rw [haddress] at hhead
      rcases Except.bind_eq_error.mp hhead with hfail | ⟨info, -, hinfo⟩
      · obtain ⟨cause, hread, rfl⟩ := Except.mapError_eq_error.mp hfail
        obtain ⟨b, n, rfl, hwindow⟩ := DebugInfo.onlyFaults_read address cause hread
        exact ⟨.debugInfo, b, n, hwindow, rfl⟩
      · cases hinfo

/-! ## Lines -/

/-- **The entry that is refused**, and in what words. With `i` entries to go before it, the reader is
at a place in memory and a position in the source. Each of these entries is read and moves on, with a
bytecode index that rises but for the first `free` of them. The last one begins with a reserved byte,
or one of its reads gives nothing, or its index stays where it is. -/
inductive LineTable.RefusedAt (memory : Memory) :
    (i : Nat) → Address → LinePosition → (free : Nat) → String → Prop where
  | reserved {cursor : Address} {position : LinePosition} {free n : Nat} {lead : UInt8}
      {rest : List UInt8} (hread : memory.readBytes cursor n = .ok (lead :: rest))
      (hlead : 0xc0 ≤ lead) :
      RefusedAt memory 0 cursor position free
        ("reserved line number encoding 0x" ++ Numeral.hexFilled 2 lead.toNat)
  | unreadable {cursor : Address} {position : LinePosition} {free n : Nat} (hsize : n = 1 ∨ n = 2)
      (hwindow : memory.window? cursor n = none) :
      RefusedAt memory 0 cursor position free
        ("Memory fault reading " ++ toString n ++ " bytes at " ++ cursor.text)
  | notRising {cursor : Address} {position : LinePosition} {distance : Int × Nat} {length : Nat}
      (hread : LineEntry.readAt memory cursor = .ok (distance, length)) (hsame : distance.2 = 0) :
      RefusedAt memory 0 cursor position 0
        ("Range map keys must increase: " ++ toString position.location ++ " inserted after " ++
          toString position.location)
  | later {i : Nat} {cursor : Address} {position : LinePosition} {free : Nat}
      {distance : Int × Nat} {length : Nat} {reason : String}
      (hread : LineEntry.readAt memory cursor = .ok (distance, length))
      (hfits : (position.after [distance]).Fits) (hrises : free = 0 → 1 ≤ distance.2)
      (hlater : RefusedAt memory i (cursor + length) (position.after [distance]) (free - 1) reason) :
      RefusedAt memory (i + 1) cursor position free reason

/-- The byte that is read is the only one of a read of one byte. -/
theorem Memory.readBytes_of_readU8 {a : Address} {b : UInt8} (h : memory.readU8 a = .ok b) :
    memory.readBytes a 1 = .ok [b] := by
  obtain ⟨number, hnumber, rfl⟩ := Except.map_eq_ok.mp h
  obtain ⟨bytes, hbytes, rfl⟩ := Except.map_eq_ok.mp hnumber
  obtain ⟨c, rfl⟩ := List.length_eq_one_iff.mp (length_of_readBytes hbytes)
  rw [hbytes, littleEndian_cons, littleEndian_nil, Nat.mul_zero, Nat.add_zero, UInt8.ofNat_toNat]

namespace LineEntry

variable {cursor : Address} {reason : String} {lead : UInt8} {problem : LineEntryProblem}

theorem reserved_of_length (h : length lead = .error problem) :
    problem = .reserved lead ∧ 0xc0 ≤ lead := by
  unfold length at h
  split_ifs at h with hshort hlong
  exact ⟨(Except.error.inj h).symm, UInt8.not_lt.mp hlong⟩

theorem length_eq_one_or_two {n : Nat} (h : length lead = .ok n) : n = 1 ∨ n = 2 := by
  unfold length at h
  split_ifs at h
  · exact .inl (Except.ok.inj h).symm
  · exact .inr (Except.ok.inj h).symm

/-- As many bytes as the first one asks for are never too few. So what is wrong with them can only be
that the first one is reserved, if it is another one than before. -/
theorem reserved_of_distances {entry : List UInt8} {n : Nat} (hlength : length lead = .ok n)
    (hread : memory.readU8 cursor = .ok lead) (hentry : memory.readBytes cursor n = .ok entry)
    (h : distances entry = .error problem) :
    ∃ other rest, entry = other :: rest ∧ problem = .reserved other ∧ 0xc0 ≤ other := by
  have hsize : entry.length = n := Memory.length_of_readBytes hentry
  unfold distances at h
  cases entry with
  | nil =>
    rcases length_eq_one_or_two hlength with rfl | rfl
    · cases hsize
    · cases hsize
  | cons other rest =>
    rcases Except.bind_eq_error.mp h with hother | ⟨n', hother, hrest⟩
    · obtain ⟨rfl, hle⟩ := reserved_of_length hother
      exact ⟨other, rest, rfl, rfl, hle⟩
    · split_ifs at hrest with hone
      · cases hrest
      · cases rest with
        | cons second rest => cases hrest
        | nil =>
          obtain rfl : n = 1 := hsize.symm
          rw [Memory.readBytes_of_readU8 hread] at hentry
          obtain ⟨rfl, -⟩ := List.cons.inj (Except.ok.inj hentry)
          rw [hlength] at hother
          exact absurd (Except.ok.inj hother).symm hone

/-- **An entry that is not read** begins with a reserved byte or is out of reach. -/
theorem refusedAt_of_readAt (h : readAt memory cursor = .error reason) (position : LinePosition)
    (free : Nat) : LineTable.RefusedAt memory 0 cursor position free reason := by
  rcases Except.bind_eq_error.mp h with hfail | ⟨lead, hlead, h⟩
  · obtain ⟨e, hread, rfl⟩ := Except.mapError_eq_error.mp hfail
    obtain ⟨rfl, hwindow⟩ := Memory.eq_memoryFault_of_map hread
    exact .unreadable (.inl rfl) hwindow
  rw [Except.mapError_eq_ok] at hlead
  rcases Except.bind_eq_error.mp h with hfail | ⟨n, hlength, h⟩
  · obtain ⟨problem, hlength, rfl⟩ := Except.mapError_eq_error.mp hfail
    obtain ⟨rfl, hle⟩ := reserved_of_length hlength
    exact .reserved (Memory.readBytes_of_readU8 hlead) hle
  rw [Except.mapError_eq_ok] at hlength
  rcases Except.bind_eq_error.mp h with hfail | ⟨entry, hentry, h⟩
  · obtain ⟨e, hfault, rfl⟩ := Except.mapError_eq_error.mp hfail
    obtain ⟨rfl, hwindow⟩ := Memory.eq_memoryFault_of_readBytes hfault
    exact .unreadable (length_eq_one_or_two hlength) hwindow
  rw [Except.mapError_eq_ok] at hentry
  rcases Except.bind_eq_error.mp h with hfail | ⟨distance, -, h⟩
  · obtain ⟨problem, hdistances, rfl⟩ := Except.mapError_eq_error.mp hfail
    obtain ⟨other, rest, rfl, rfl, hle⟩ :=
      reserved_of_distances hlength hlead hentry hdistances
    exact .reserved hentry hle
  · cases h

end LineEntry

namespace LineTable

variable {method : String} {cursor : Address} {position : LinePosition} {table : LineTable}

/-- The key that a table does not take is compared with the position at which it ends. -/
theorem EndsAt.eq_keyOrder_of_put (h : EndsAt table position 0) {location : Nat} {line : Int}
    (hput : table.put location line = .error e) :
    e = .keyOrder (toString location) (toString position.location) := by
  rcases h with ⟨-, hfree⟩ | ⟨-, last, hlast⟩
  · cases hfree
  · obtain ⟨rest, hlatest⟩ := List.head?_eq_some_iff.mp hlast
    unfold FloorMap.put at hput
    rw [hlatest] at hput
    dsimp only at hput
    split_ifs at hput
    exact (Except.error.inj hput).symm

/-- **A run of entries that ends in an error** ends at an entry that is refused. -/
theorem refusedAt_of_readEntries {count index free : Nat} (htable : EndsAt table position free)
    (h : readEntries memory method count index cursor position table = .error (.error e)) :
    ∃ i reason, i < count ∧ RefusedAt memory i cursor position free reason ∧
      e = .malformedRecord method
        ("line table entry " ++ toString (index + i) ++ ": " ++ reason) := by
  induction count generalizing index cursor position table free with
  | zero => cases h
  | succ count ih =>
    rw [readEntries_succ] at h
    cases hentry : LineEntry.readAt memory cursor with
    | error reason =>
      rw [hentry] at h
      cases h
      exact ⟨0, reason, by omega, LineEntry.refusedAt_of_readAt hentry position free, rfl⟩
    | ok entry =>
      obtain ⟨distance, length⟩ := entry
      simp only [hentry] at h
      split_ifs at h with hfits
      · rcases htable.put_cases distance with ⟨hrises, next, hput, hnext⟩ | ⟨hnot, cause, hput⟩
        · rw [hput] at h
          obtain ⟨i, reason, hi, hrefused, rfl⟩ := ih hnext h
          refine ⟨i + 1, reason, by omega, .later hentry hfits hrises hrefused, ?_⟩
          rw [Nat.add_assoc, Nat.add_comm 1 i]
        · obtain ⟨rfl, hzero⟩ := Classical.not_imp.mp hnot
          have hsame : distance.2 = 0 := by omega
          have hlocation : (position.after [distance]).location = position.location := by
            rw [LinePosition.after_singleton, hsame, Nat.add_zero]
          rw [hput] at h
          cases h
          rw [htable.eq_keyOrder_of_put hput, hlocation]
          exact ⟨0, _, by omega, .notRising hentry hsame, rfl⟩
      · cases h

/-- A line table that ends in an error has an entry that is refused. -/
theorem refusedAt_of_read {info : DebugInfo} (h : read memory info method = .error (.error e)) :
    ∃ cursor i reason, info.table? = some cursor ∧ i < info.lineCount ∧
      RefusedAt memory i cursor .start 1 reason ∧
      e = .malformedRecord method ("line table entry " ++ toString i ++ ": " ++ reason) := by
  unfold read at h
  cases htable : info.table? with
  | none =>
    rw [htable] at h
    cases h
  | some cursor =>
    rw [htable] at h
    obtain ⟨i, reason, hi, hrefused, rfl⟩ :=
      refusedAt_of_readEntries (.inl ⟨rfl, rfl⟩) (Except.map_eq_error.mp h)
    rw [Nat.zero_add]
    exact ⟨cursor, i, reason, rfl, hi, hrefused, rfl⟩

end LineTable

/-! ## Building -/

namespace CompiledMethod

variable {names : MethodNames} {record : MethodRecord}

theorem build_of_names_error (h : MethodNames.read memory metadata = .error e)
    (bytecodes : BytecodeTable) (shape : CodeShape) :
    build memory metadata bytecodes shape = .error (.error e) := by
  unfold build
  rw [h]
  rfl

theorem build_of_record_error (hnames : MethodNames.read memory metadata = .ok names)
    (h : metadata.record memory = .error e) (bytecodes : BytecodeTable) (shape : CodeShape) :
    build memory metadata bytecodes shape = .error (.error e) := by
  unfold build
  rw [hnames, h]
  rfl

/-- **Building a method** whose names and record are known: what is found of the debug information,
and then the lines, decide how it ends. -/
theorem build_of_record (hnames : MethodNames.read memory metadata = .ok names)
    (hrecord : metadata.record memory = .ok record) (bytecodes : BytecodeTable)
    (shape : CodeShape) :
    build memory metadata bytecodes shape =
      match record.debugInfo memory with
      | .error e => .error (.error e)
      | .ok none => .ok { metadata, names, bytecodes, lines := none, shape }
      | .ok (some info) =>
        (LineTable.read memory info names.qualified).map fun lines =>
          { metadata, names, bytecodes, lines, shape } := by
  unfold build
  simp only [hnames, hrecord, Checked.ofExcept_ok, Except.ok_bind]
  cases record.debugInfo memory with
  | error e => rfl
  | ok info =>
    cases info with
    | none => rfl
    | some info => rfl

/-- Memory faults are for names and for the head of the record only. -/
theorem exists_fault_iff (bytecodes : BytecodeTable) (shape : CodeShape) :
    (∃ a n, build memory metadata bytecodes shape = .error (.error (.memoryFault a n))) ↔
      Fails (MethodNames.read memory metadata) ∨ Fails (metadata.record memory) := by
  cases hnames : MethodNames.read memory metadata with
  | error e =>
    obtain ⟨a, n, rfl, -⟩ := MethodNames.onlyFaults_read metadata e hnames
    have hbuild := build_of_names_error hnames bytecodes shape
    exact ⟨fun _ => .inl ⟨_, rfl⟩, fun _ => ⟨a, n, hbuild⟩⟩
  | ok names =>
    rw [or_iff_right (not_fails_ok names)]
    cases hrecord : metadata.record memory with
    | error e =>
      obtain ⟨a, n, rfl, -⟩ := MethodMetadata.onlyFaults_record metadata e hrecord
      have hbuild := build_of_record_error hnames hrecord bytecodes shape
      exact ⟨fun _ => ⟨_, rfl⟩, fun _ => ⟨a, n, hbuild⟩⟩
    | ok record =>
      refine iff_of_false ?_ (not_fails_ok record)
      rintro ⟨a, n, hbuild⟩
      rw [build_of_record hnames hrecord] at hbuild
      split at hbuild
      · next hinfo =>
        obtain ⟨kind, b, l, -, rfl⟩ := MethodRecord.exists_fault_of_debugInfo hinfo
        cases hbuild
      · cases hbuild
      · obtain ⟨cursor, i, reason, -, -, -, hrefused⟩ :=
          LineTable.refusedAt_of_read (Except.map_eq_error.mp hbuild)
        cases hrefused

/-- Building ends in a memory fault, or names and record are known. -/
theorem exists_fault_or_record (memory : Memory) (metadata : MethodMetadata)
    (bytecodes : BytecodeTable) (shape : CodeShape) :
    (∃ a n, build memory metadata bytecodes shape = .error (.error (.memoryFault a n))) ∨
      ∃ names record, MethodNames.read memory metadata = .ok names ∧
        metadata.record memory = .ok record := by
  cases hnames : MethodNames.read memory metadata with
  | error e => exact .inl ((exists_fault_iff bytecodes shape).mpr (.inl ⟨e, hnames⟩))
  | ok names =>
    cases hrecord : metadata.record memory with
    | error e => exact .inl ((exists_fault_iff bytecodes shape).mpr (.inr ⟨e, hrecord⟩))
    | ok record => exact .inr ⟨names, record, rfl, rfl⟩

/-- Once names and record are known, a method is built unless a section, the head of the debug
information or a line entry is wrong. -/
theorem build_cases (h : memory.DecodesLines metadata)
    (hnames : MethodNames.read memory metadata = .ok names)
    (hrecord : metadata.record memory = .ok record) (bytecodes : BytecodeTable)
    (shape : CodeShape) :
    (∃ m, build memory metadata bytecodes shape = .ok m ∧ m.names = names ∧
      (record.debugInfo memory = .ok none ∧ m.lines = none ∨
        ∃ info, record.debugInfo memory = .ok (some info) ∧
          LineTable.read memory info names.qualified = .ok m.lines)) ∨
    (∃ kind a n, memory.window? a n = none ∧
      record.debugInfo memory = .error (record.unreadable kind (.memoryFault a n)) ∧
      build memory metadata bytecodes shape =
        .error (.error (record.unreadable kind (.memoryFault a n)))) ∨
    ∃ info cursor i reason, record.debugInfo memory = .ok (some info) ∧
      info.table? = some cursor ∧ i < info.lineCount ∧
      LineTable.RefusedAt memory i cursor .start 1 reason ∧
      build memory metadata bytecodes shape =
        .error (.error (.malformedRecord names.qualified
          ("line table entry " ++ toString i ++ ": " ++ reason))) := by
  rw [build_of_record hnames hrecord]
  cases hinfo : record.debugInfo memory with
  | error e =>
    obtain ⟨kind, a, n, hwindow, rfl⟩ := MethodRecord.exists_fault_of_debugInfo hinfo
    exact .inr (.inl ⟨kind, a, n, hwindow, rfl, rfl⟩)
  | ok info =>
    cases info with
    | none => exact .inl ⟨_, rfl, rfl, .inl ⟨rfl, rfl⟩⟩
    | some info =>
      dsimp only
      cases hlines : LineTable.read memory info names.qualified with
      | ok lines => exact .inl ⟨_, rfl, rfl, .inr ⟨info, rfl, hlines⟩⟩
      | error failure =>
        cases failure with
        | trap t => exact absurd hlines (h names record info hnames hrecord hinfo t)
        | error e =>
          obtain ⟨cursor, i, reason, htable, hi, hrefused, rfl⟩ :=
            LineTable.refusedAt_of_read hlines
          exact .inr (.inr ⟨info, cursor, i, reason, rfl, htable, hi, hrefused, rfl⟩)

/-- **All errors of building a method**, as long as its lines do not end in a trap. It is a memory
fault just when one of the names, the linked method or the head of the record cannot be read. In any
other case the method is built, or its record is malformed. The error then has the place of the
record if a section or the head of the debug information cannot be read, and the full name of the
method if a line entry is reserved, out of reach or not above the one before it. There is no other
error. -/
theorem build_failures (h : memory.DecodesLines metadata) (bytecodes : BytecodeTable)
    (shape : CodeShape) :
    ((∃ a n, build memory metadata bytecodes shape = .error (.error (.memoryFault a n))) ↔
      Fails (memory.readText metadata.className) ∨ Fails (memory.readText metadata.methodName) ∨
      Fails (memory.readText metadata.signature) ∨ Fails (memory.readU64 metadata.linkedMethod) ∨
      ∃ word, memory.readU64 metadata.linkedMethod = .ok word ∧
        Fails (memory.readBytes ((⟨word⟩ : Address) - RecordHeader.size) RecordHeader.size)) ∧
    ((∃ a n, build memory metadata bytecodes shape = .error (.error (.memoryFault a n))) ∨
      ∃ names record, MethodNames.read memory metadata = .ok names ∧
        metadata.record memory = .ok record ∧
        ((∃ m, build memory metadata bytecodes shape = .ok m ∧ m.names = names ∧
            (record.debugInfo memory = .ok none ∧ m.lines = none ∨
              ∃ info, record.debugInfo memory = .ok (some info) ∧
                LineTable.read memory info names.qualified = .ok m.lines)) ∨
          (∃ kind a n e, memory.window? a n = none ∧
            e = .malformedRecord ("method record at " ++ record.address.text)
              (SectionKind.name kind ++ " flagged present but unreadable: " ++
                (Error.memoryFault a n).message) ∧
            record.debugInfo memory = .error e ∧
            build memory metadata bytecodes shape = .error (.error e)) ∨
          ∃ info cursor i reason, record.debugInfo memory = .ok (some info) ∧
            info.table? = some cursor ∧ i < info.lineCount ∧
            LineTable.RefusedAt memory i cursor .start 1 reason ∧
            build memory metadata bytecodes shape =
              .error (.error (.malformedRecord names.qualified
                ("line table entry " ++ toString i ++ ": " ++ reason))))) ∧
    ∀ failure, build memory metadata bytecodes shape = .error failure →
      (∃ a n, failure = .error (.memoryFault a n)) ∨
        ∃ method reason, failure = .error (.malformedRecord method reason) := by
  constructor
  · rw [exists_fault_iff, MethodNames.fails_read_iff, MethodMetadata.fails_record_iff, or_assoc,
      or_assoc]
  rcases exists_fault_or_record memory metadata bytecodes shape with
    ⟨a, n, hbuild⟩ | ⟨names, record, hnames, hrecord⟩
  · refine ⟨.inl ⟨a, n, hbuild⟩, ?_⟩
    intro failure hfailure
    rw [hbuild] at hfailure
    exact .inl ⟨a, n, (Except.error.inj hfailure).symm⟩
  rcases build_cases h hnames hrecord bytecodes shape with
    ⟨m, hbuild, hparts⟩ | ⟨kind, a, n, hwindow, hinfo, hbuild⟩ | ⟨info, cursor, i, reason,
      hinfo, htable, hi, hrefused, hbuild⟩
  · refine ⟨.inr ⟨names, record, hnames, hrecord, .inl ⟨m, hbuild, hparts⟩⟩, ?_⟩
    intro failure hfailure
    rw [hbuild] at hfailure
    cases hfailure
  · refine ⟨.inr ⟨names, record, hnames, hrecord,
      .inr (.inl ⟨kind, a, n, _, hwindow, rfl, hinfo, hbuild⟩)⟩, ?_⟩
    intro failure hfailure
    rw [hbuild] at hfailure
    exact .inr ⟨_, _, (Except.error.inj hfailure).symm⟩
  · refine ⟨.inr ⟨names, record, hnames, hrecord,
      .inr (.inr ⟨info, cursor, i, reason, hinfo, htable, hi, hrefused, hbuild⟩)⟩, ?_⟩
    intro failure hfailure
    rw [hbuild] at hfailure
    exact .inr ⟨_, _, (Except.error.inj hfailure).symm⟩

/-- Memory with the record of a method, up to the last byte of its line table. -/
def cutMemory : Memory :=
  (({} : MemoryImage).map ⟨0x5000⟩ sampleBytes.dropLast).toMemory

/-- Without any memory building ends in a memory fault. Without the last byte of the line table it
ends in an error that names the method. -/
theorem build_failures_cut :
    (∃ a n, build .unreadable sampleEvent.metadata ∅ .riscv64 =
      .error (.error (.memoryFault a n))) ∧
    build cutMemory sampleEvent.metadata ∅ .riscv64 =
      .error (.error (.malformedRecord "Foo.bar()V"
        "line table entry 1: Memory fault reading 1 bytes at 0x0000000000005064")) ∧
    ∃ names record info cursor i reason,
      MethodNames.read cutMemory sampleEvent.metadata = .ok names ∧
      sampleEvent.metadata.record cutMemory = .ok record ∧
      record.debugInfo cutMemory = .ok (some info) ∧ info.table? = some cursor ∧
      i < info.lineCount ∧ LineTable.RefusedAt cutMemory i cursor .start 1 reason ∧
      "line table entry 1: Memory fault reading 1 bytes at 0x0000000000005064" =
        "line table entry " ++ toString i ++ ": " ++ reason := by
  have hcut : build cutMemory sampleEvent.metadata ∅ .riscv64 =
      .error (.error (.malformedRecord "Foo.bar()V"
        "line table entry 1: Memory fault reading 1 bytes at 0x0000000000005064")) := by
    decide +kernel
  have hnone : Memory.unreadable.DecodesLines sampleEvent.metadata := by
    intro names record info hnames
    cases hnames
  have hlines : cutMemory.DecodesLines sampleEvent.metadata := by
    apply (@untrapped_build_iff cutMemory sampleEvent.metadata ∅ .riscv64).mp
    intro t htrap
    rw [hcut] at htrap
    cases htrap
  obtain ⟨-, hcases, -⟩ := build_failures hlines ∅ .riscv64
  rw [hcut] at hcases
  refine ⟨(build_failures hnone ∅ .riscv64).1.mpr (.inl ⟨_, rfl⟩), hcut, ?_⟩
  rcases hcases with ⟨a, n, hfault⟩ | ⟨names, record, hnames, hrecord,
    ⟨m, hok, -⟩ | ⟨kind, a, n, e, -, rfl, -, hsection⟩ |
    ⟨info, cursor, i, reason, hinfo, htable, hi, hrefused, hentry⟩⟩
  · cases hfault
  · cases hok
  · have hmethod := (Error.malformedRecord.inj (Failure.error.inj (Except.error.inj hsection))).1
    have hlength := congrArg String.length hmethod
    rw [String.length_append] at hlength
    have hname : "Foo.bar()V".length = 10 := by decide
    have hplace : "method record at ".length = 17 := by decide
    omega
  · have hreason := (Error.malformedRecord.inj (Failure.error.inj (Except.error.inj hentry))).2
    exact ⟨names, record, info, cursor, i, reason, hnames, hrecord, hinfo, htable, hi, hrefused,
      hreason⟩

end CompiledMethod

end CompiledFrames
