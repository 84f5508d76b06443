import CompiledFrames.Proofs.Json.Tree
import CompiledFrames.Proofs.Memory.Segments
import CompiledFrames.Proofs.Snapshot.Document

/-!
# A snapshot is read back from its text

Reading a snapshot and writing it again may change its text: registers get the names of the calling
convention, those with no value are left out, and segments that others have discarded are gone. But
the text that is written describes the very snapshot that was read. For the registers this is a
matter of names, each of which is written for one register only. For memory it is a matter of order:
segments that are mapped from the bottom to the top and share no byte discard nothing and stay in
order.

## Main definitions

* `Registers.ZeroWired`: the register that is wired to zero holds nothing else

## Main results

* `mem_sortByName_iff`: sorting by name loses nothing if each name has one value
* `Registers.ofNamed_namedRegisters`: registers are read back from their names
* `MemoryImage.Orderly.ofSegments_segments`: segments of an orderly image are mapped to that image
* `Snapshot.ofText_toText`: a snapshot is read back from its text, in every lawful format
-/

namespace CompiledFrames

/-! ## Values by name -/

section Names

variable {α : Type} {name : String} {value : α} {entry : String × α}
  {values sorted : List (String × α)}

/-- Putting a value replaces those with the same name only. -/
theorem mem_putByName_iff (h : ∀ other ∈ sorted, other.1 = name → other = (name, value)) :
    entry ∈ putByName name value sorted ↔ entry = (name, value) ∨ entry ∈ sorted := by
  induction sorted with
  | nil => simp [putByName]
  | cons first rest ih =>
    obtain ⟨hfirst, hrest⟩ := List.forall_mem_cons.mp h
    obtain ⟨other, old⟩ := first
    unfold putByName
    split_ifs with hlt heq
    · exact List.mem_cons
    · rw [hfirst heq.symm, List.mem_cons, ← or_assoc, or_self]
    · rw [List.mem_cons, List.mem_cons, ih hrest, or_left_comm]

theorem mem_foldl_putByName_iff
    (h : ∀ a ∈ sorted ++ values, ∀ b ∈ sorted ++ values, a.1 = b.1 → a = b) :
    entry ∈ values.foldl (fun sorted (name, value) => putByName name value sorted) sorted ↔
      entry ∈ sorted ∨ entry ∈ values := by
  induction values generalizing sorted with
  | nil => simp
  | cons first rest ih =>
    have hput : ∀ other, other ∈ putByName first.1 first.2 sorted ↔
        other = first ∨ other ∈ sorted := by
      intro other
      refine mem_putByName_iff fun old hold hname => ?_
      exact h old (List.mem_append_left _ hold) first
        (List.mem_append_right _ List.mem_cons_self) hname
    rw [List.foldl_cons, ih, hput, List.mem_cons, or_assoc, or_left_comm]
    intro a ha b hb
    have hold : ∀ c ∈ putByName first.1 first.2 sorted ++ rest, c ∈ sorted ++ first :: rest := by
      intro c hc
      rw [List.mem_append, hput] at hc
      rw [List.mem_append, List.mem_cons]
      tauto
    exact h a (hold a ha) b (hold b hb)

/-- **Sorting by name loses nothing** if each name has one value. -/
theorem mem_sortByName_iff (h : ∀ a ∈ values, ∀ b ∈ values, a.1 = b.1 → a = b) :
    entry ∈ sortByName values ↔ entry ∈ values := by
  rw [sortByName, mem_foldl_putByName_iff h]
  simp

end Names

/-! ## Registers -/

/-- The name that is written for a register is read as that register. -/
theorem RegisterId.read_name : ∀ id ∈ Registers.ids, RegisterId.read id.name = .ok id := by
  decide +kernel

namespace Registers

variable {registers other first last : Registers} {id : RegisterId} {value : UInt64}
  {values : List (String × UInt64)}

/-- The names that are written tell registers apart. -/
theorem eq_of_name_eq {a b : RegisterId} (ha : a ∈ ids) (hb : b ∈ ids) (h : a.name = b.name) :
    a = b := by
  have hread := RegisterId.read_name a ha
  rw [h, RegisterId.read_name b hb] at hread
  exact (Except.ok.inj hread).symm

theorem mem_ids_iff : id ∈ ids ↔ id = .pc ∨ ∃ n < 32, id = .general (UInt8.ofNat n) := by
  simp [ids, eq_comm, or_comm]

/-- The register that is wired to zero holds nothing else. -/
def ZeroWired (registers : Registers) : Prop :=
  registers.general[0] = 0

theorem zeroWired_default : ({} : Registers).ZeroWired :=
  rfl

theorem ZeroWired.set (h : registers.ZeroWired) (id : RegisterId) (value : UInt64) :
    (registers.set id value).ZeroWired := by
  cases id with
  | pc => exact h
  | general index =>
    by_cases hzero : index = 0
    · rwa [Registers.set, if_pos hzero]
    · have hindex : index.toNat ≠ 0 := fun h0 => hzero (UInt8.toNat_inj.mp h0)
      rw [Registers.set, if_neg hzero]
      unfold ZeroWired
      rw [Vector.getElem_setIfInBounds_ne _ hindex]
      exact h

/-- Registers are what can be read of them. -/
theorem eq_of_get_eq (h : registers.ZeroWired) (h' : other.ZeroWired)
    (hget : ∀ id ∈ ids, registers.get id = other.get id) : registers = other := by
  have hpc : registers.pc = other.pc :=
    congrArg Address.mk (hget .pc (mem_ids_iff.mpr (.inl rfl)))
  have hgeneral : registers.general = other.general := by
    refine Vector.ext fun n hn => ?_
    by_cases hzero : n = 0
    · subst hzero
      exact h.trans h'.symm
    · have hindex : (UInt8.ofNat n).toNat = n := UInt8.toNat_ofNat_of_lt' (by show n < 256; omega)
      have hne : UInt8.ofNat n ≠ 0 := fun h0 => hzero (hindex.symm.trans (congrArg UInt8.toNat h0))
      have hsame := hget (.general (UInt8.ofNat n)) (mem_ids_iff.mpr (.inr ⟨n, hn, rfl⟩))
      simpa [get, hne, hindex, hn] using hsame
  cases registers
  cases other
  simp_all

/-- A register takes the value that it has elsewhere. -/
theorem get_set_get (hid : id ∈ ids) : (registers.set id (other.get id)).get id = other.get id := by
  rcases mem_ids_iff.mp hid with rfl | ⟨n, hn, rfl⟩
  · rfl
  · by_cases hzero : UInt8.ofNat n = 0
    · rw [hzero, get_zero, get_zero]
    · have hindex : (UInt8.ofNat n).toNat = n := UInt8.toNat_ofNat_of_lt' (by show n < 256; omega)
      exact get_set_general registers _ hzero (by omega)

/-! ### Named values -/

/-- The registers after setting named values, one after the other. -/
def setNamed (registers : Registers) (values : List (String × UInt64)) : Except Error Registers :=
  values.foldlM
    (fun registers (name, value) => return registers.set (← RegisterId.read name) value) registers

theorem setNamed_cons (name : String) (value : UInt64) (values : List (String × UInt64)) :
    registers.setNamed ((name, value) :: values) =
      RegisterId.read name >>= fun id => (registers.set id value).setNamed values := by
  rw [setNamed, List.foldlM_cons]
  dsimp only
  cases RegisterId.read name <;> rfl

/-- Whatever the names are, the register that is wired to zero stays as it is. -/
theorem ZeroWired.setNamed (h : registers.ZeroWired) (hset : registers.setNamed values = .ok last) :
    last.ZeroWired := by
  induction values generalizing registers with
  | nil =>
    obtain rfl := Except.ok.inj hset
    exact h
  | cons entry rest ih =>
    rw [setNamed_cons entry.1 entry.2] at hset
    obtain ⟨id, -, hrest⟩ := Except.bind_eq_ok.mp hset
    exact ih (h.set id entry.2) hrest

/-- If the named values are those of some registers, each register gets its value from there, or is
not named at all. -/
theorem exists_setNamed (h : ∀ entry ∈ values, ∃ id ∈ ids, entry = (id.name, other.get id)) :
    ∃ last, registers.setNamed values = .ok last ∧
      ∀ id ∈ ids, last.get id = other.get id ∨
        last.get id = registers.get id ∧ (id.name, other.get id) ∉ values := by
  induction values generalizing registers with
  | nil => exact ⟨registers, rfl, fun id _ => .inr ⟨rfl, List.not_mem_nil⟩⟩
  | cons entry rest ih =>
    obtain ⟨⟨first, hfirst, rfl⟩, hrest⟩ := List.forall_mem_cons.mp h
    obtain ⟨last, hset, hlast⟩ := @ih (registers.set first (other.get first)) hrest
    refine ⟨last, ?_, fun id hid => ?_⟩
    · rw [setNamed_cons, RegisterId.read_name first hfirst, Except.ok_bind, hset]
    · rcases hlast id hid with hget | ⟨hget, hnamed⟩
      · exact .inl hget
      by_cases hsame : id = first
      · subst hsame
        exact .inl (hget.trans (get_set_get hid))
      · refine .inr ⟨hget.trans (get_set_of_ne registers _ (Ne.symm hsame)), ?_⟩
        rw [List.mem_cons, not_or]
        exact ⟨fun heq => hsame (eq_of_name_eq hid hfirst (Prod.mk.inj heq).1), hnamed⟩

/-- A register that is not zero, under the name that is written for it. -/
def Names (registers : Registers) (entry : String × UInt64) : Prop :=
  ∃ id ∈ ids, entry = (id.name, registers.get id) ∧ registers.get id ≠ 0

/-- Two entries with the same name are about the same register. -/
theorem Names.eq_of_fst_eq {a b : String × UInt64} (ha : registers.Names a) (hb : registers.Names b)
    (h : a.1 = b.1) : a = b := by
  obtain ⟨id, hid, rfl, -⟩ := ha
  obtain ⟨id', hid', rfl, -⟩ := hb
  rw [eq_of_name_eq hid hid' h]

/-- What is written of registers, whether it is sorted again or not. -/
theorem mem_sortByName_namedRegisters_iff {snapshot : Snapshot} {entry : String × UInt64} :
    entry ∈ sortByName snapshot.namedRegisters ↔ snapshot.registers.Names entry := by
  have hnamed : ∀ entry, entry ∈ (ids.map fun id =>
      (id.name, snapshot.registers.get id)).filter (·.2 ≠ 0) ↔ snapshot.registers.Names entry := by
    intro entry
    rw [List.mem_filter, List.mem_map, decide_eq_true_eq]
    constructor
    · rintro ⟨⟨id, hid, rfl⟩, hne⟩
      exact ⟨id, hid, rfl, hne⟩
    · rintro ⟨id, hid, rfl, hne⟩
      exact ⟨⟨id, hid, rfl⟩, hne⟩
  have hsorted : ∀ entry, entry ∈ snapshot.namedRegisters ↔ snapshot.registers.Names entry := by
    intro entry
    rw [Snapshot.namedRegisters, mem_sortByName_iff, hnamed]
    exact fun a ha b hb => ((hnamed a).mp ha).eq_of_fst_eq ((hnamed b).mp hb)
  rw [mem_sortByName_iff, hsorted]
  exact fun a ha b hb => ((hsorted a).mp ha).eq_of_fst_eq ((hsorted b).mp hb)

theorem get_default (hid : id ∈ ids) : ({} : Registers).get id = 0 := by
  rcases mem_ids_iff.mp hid with rfl | ⟨n, hn, rfl⟩
  · rfl
  · have hmod : n % 256 = n := by omega
    simp [get, hmod, hn]

/-- **Registers are read back from their names**, though those that are zero are not named. -/
theorem ofNamed_namedRegisters {snapshot : Snapshot} (h : snapshot.registers.ZeroWired) :
    ofNamed (sortByName snapshot.namedRegisters) = .ok snapshot.registers := by
  obtain ⟨last, hset, hlast⟩ := @exists_setNamed {} snapshot.registers
    (sortByName snapshot.namedRegisters) fun entry hentry => by
      obtain ⟨id, hid, hsame, -⟩ := mem_sortByName_namedRegisters_iff.mp hentry
      exact ⟨id, hid, hsame⟩
  have hsame : last = snapshot.registers := by
    refine eq_of_get_eq (zeroWired_default.setNamed hset) h fun id hid => ?_
    rcases hlast id hid with hget | ⟨hget, hnamed⟩
    · exact hget
    · rw [hget, get_default hid]
      by_contra hne
      exact hnamed (mem_sortByName_namedRegisters_iff.mpr ⟨id, hid, rfl, Ne.symm hne⟩)
  rw [← hsame]
  exact hset

end Registers

/-! ## Memory -/

namespace MemoryImage

variable {image : MemoryImage} {s : Segment} {before after : List Segment}

/-- A segment behind all others comes last. -/
theorem insert_of_forall (hapart : ∀ t ∈ before, t.Apart s) (hbegins : ∀ t ∈ before, t.base < s.base) :
    (MemoryImage.mk before).insert s = ⟨before ++ [s]⟩ := by
  have hkept : before.filter (·.Apart s) = before := by
    rw [List.filter_eq_self]
    exact fun t ht => decide_eq_true (hapart t ht)
  have htake : before.takeWhile (·.base < s.base) = before := by
    rw [List.takeWhile_eq_self_iff]
    exact fun t ht => decide_eq_true (hbegins t ht)
  have hdrop : before.dropWhile (·.base < s.base) = [] := by
    rw [List.dropWhile_eq_nil_iff]
    exact fun t ht => decide_eq_true (hbegins t ht)
  simp only [MemoryImage.insert, hkept, htake, hdrop]

/-- **Segments of an orderly image** without empty ones are mapped to that image. -/
theorem Orderly.ofSegments_segments (h : image.Orderly) (hsolid : image.Solid) :
    ofSegments image.segments = image := by
  -- the segments that have been mapped already are those before the next one
  have hfold : ∀ after before, image.segments = before ++ after →
      after.foldl MemoryImage.insert ⟨before⟩ = image := by
    intro after
    induction after with
    | nil =>
      intro before hsegments
      rw [List.append_nil] at hsegments
      rw [List.foldl_nil, ← hsegments]
    | cons s rest ih =>
      intro before hsegments
      have hacross : ∀ t ∈ before, t.Apart s ∧ t.base < s.base := by
        intro t ht
        have hmem : t ∈ image.segments := hsegments ▸ List.mem_append_left _ ht
        have hapart := h.apart
        have hstop := h.pairwise_stop hsolid
        rw [hsegments] at hapart hstop
        refine ⟨(List.pairwise_append.mp hapart).2.2 t ht s List.mem_cons_self, ?_⟩
        have hbefore := (List.pairwise_append.mp hstop).2.2 t ht s List.mem_cons_self
        have hsome := hsolid t hmem
        rw [Address.lt_iff]
        omega
      rw [List.foldl_cons, insert_of_forall (fun t ht => (hacross t ht).1)
        fun t ht => (hacross t ht).2]
      exact ih (before ++ [s]) (by rw [hsegments, List.append_assoc, List.singleton_append])
  exact hfold image.segments [] rfl

end MemoryImage

/-! ## Snapshots -/

namespace Snapshot

variable {text : String} {snapshot : Snapshot} {format : DocumentFormat}

/-- A snapshot whose registers and memory could have been read is read back from what its document
says. -/
theorem ofFile_toFile (hregisters : snapshot.registers.ZeroWired)
    (hmemory : MemoryImage.ofSegments snapshot.memory.segments = snapshot.memory) :
    ofFile snapshot.toFile = .ok snapshot := by
  rw [ofFile, toFile, Registers.ofNamed_namedRegisters hregisters, Except.ok_bind, hmemory]
  rfl

/-- **A snapshot is read back from its text**, as long as it was read from a text whose segments have
bytes and end before memory does. In every format that reads back what it has written, the snapshot
can be written again, and what is read of that is the same in all its parts: the values of its
registers, the segments of its memory in their order, symbols, images and compile events. -/
theorem ofText_toText (hformat : format.Lawful) (h : ofText text format = .ok snapshot)
    (hsegments : ∀ file, format.decode Document.snapshotFile text = .ok file →
      ∀ s ∈ file.segments, s.Fits ∧ s.bytes.size ≠ 0) :
    ∃ written, snapshot.toText format = .ok written ∧ ofText written format = .ok snapshot := by
  obtain ⟨written, hwrite, hdecode⟩ := snapshot.exists_write_toDocument hformat
  refine ⟨written, by rw [toText, hwrite, Except.mapError_ok], ?_⟩
  rw [ofText, hdecode, Except.mapError_ok, Except.ok_bind]
  obtain ⟨file, hfile, hof⟩ := Except.bind_eq_ok.mp h
  obtain ⟨registers, hregisters, hof⟩ := Except.bind_eq_ok.mp hof
  obtain rfl := Except.ok.inj hof
  have hall := hsegments file (Except.mapError_eq_ok.mp hfile)
  have horderly := MemoryImage.orderly_ofSegments fun s hs => (hall s hs).1
  have hsolid : (MemoryImage.ofSegments file.segments).Solid :=
    (MemoryImage.orderly_empty.live_foldl_insert nofun hall).1
  exact ofFile_toFile (Registers.zeroWired_default.setNamed hregisters)
    (horderly.ofSegments_segments hsolid)

/-- A text with two names of one register, segments out of order and white space between digits. -/
def sampleText : String :=
  "\x7b\"architecture\":\"riscv64\",\"registers\":\x7b\"FP\":5,\"s0\":7\x7d," ++
    "\"memory\":[[8,\"0a +b\"],[4,\"ff\"]]\x7d"

/-- What `sampleText` describes. -/
def sampleFile : SnapshotFile where
  architecture := .riscv64
  registers := [("FP", 5), ("s0", 7)]
  segments := [⟨⟨8⟩, #[0x0a, 0x0b]⟩, ⟨⟨4⟩, #[0xff]⟩]

/-- The snapshot in `sampleText`. -/
def sample : Snapshot where
  architecture := .riscv64
  registers := Registers.set {} (.general 8) 7
  memory := ⟨[⟨⟨4⟩, #[0xff]⟩, ⟨⟨8⟩, #[0x0a, 0x0b]⟩]⟩
  listings := []
  images := []
  events := []

theorem toText_json (snapshot : Snapshot) : snapshot.toText .json = .ok snapshot.text := by
  rw [toText, DocumentFormat.write_json (@Document.plain_toDocument 0 snapshot)]
  rfl

/-- JSON is a lawful format, in which `sample` is read and written and read again. -/
theorem ofText_toText_sample :
    DocumentFormat.json.Lawful ∧ ofText sampleText .json = .ok sample ∧
      sample.toText .json = .ok sample.text ∧ ofText sample.text .json = .ok sample := by
  have hfile : DocumentFormat.json.decode Document.snapshotFile sampleText = .ok sampleFile := by
    decide +kernel
  have hread : ofText sampleText .json = .ok sample := by
    rw [ofText, hfile]
    decide +kernel
  obtain ⟨written, hwritten, hagain⟩ :=
    ofText_toText DocumentFormat.lawful_json hread fun file h => by
      obtain rfl := Except.ok.inj (hfile.symm.trans h)
      decide
  obtain rfl := Except.ok.inj (hwritten.symm.trans (toText_json sample))
  exact ⟨DocumentFormat.lawful_json, hread, hwritten, hagain⟩

end Snapshot

end CompiledFrames
