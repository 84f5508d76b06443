import CompiledFrames.LineTable.Basic
import CompiledFrames.Proofs.FloorMap
import CompiledFrames.Proofs.Memory.Holds

/-!
# Encoded line tables

A line table is written as the distances between the positions in it, from the start of the method
on. The reader adds the distances up again, so it finds the positions that were written, as long as
they rise and fit.

## Main definitions

* `LinePosition.Fits`: a position of which line and location fit into their words
* `LineTable.encode?`: the bytes of a list of positions

## Main results

* `LineEntry.distances_of_encode`: an entry holds the distances that it was written for
* `LineEntry.decode_of_encode`: an entry leads from a position to the one it was written for
* `LineTable.readEntries_of_shows`, `LineTable.read_of_encode`: the entries that memory has are read
-/

namespace CompiledFrames

/-! ## Entries -/

/-- Line and location fit into a signed and an unsigned word of thirty-two bits. -/
def LinePosition.Fits (position : LinePosition) : Prop :=
  -0x80000000 ≤ position.line ∧ position.line < 0x80000000 ∧ position.location < 0x100000000

instance (position : LinePosition) : Decidable position.Fits :=
  inferInstanceAs (Decidable (_ ∧ _ ∧ _))

theorem LinePosition.advance?_sub {position next : LinePosition} (hfits : next.Fits)
    (hle : position.location ≤ next.location) :
    position.advance? (next.line - position.line) (next.location - position.location) =
      some next := by
  have hline : position.line + (next.line - position.line) = next.line := by omega
  have hlocation : position.location + (next.location - position.location) = next.location := by
    omega
  unfold advance?
  rw [hline, hlocation]
  exact if_pos hfits

namespace LineEntry

theorem length_short {lead : UInt8} (h : lead.toNat < 0x80) : length lead = .ok 1 := by
  have hlt : lead < 0x80 := UInt8.lt_iff_toNat_lt.mpr h
  exact if_pos hlt

theorem length_long {lead : UInt8} (hlow : 0x80 ≤ lead.toNat) (hhigh : lead.toNat < 0xc0) :
    length lead = .ok 2 := by
  have hnot : ¬ lead < 0x80 := fun hlt => Nat.not_lt.mpr hlow (UInt8.lt_iff_toNat_lt.mp hlt)
  have hlt : lead < 0xc0 := UInt8.lt_iff_toNat_lt.mpr hhigh
  unfold length
  rw [if_neg hnot, if_pos hlt]

/-- Nine bits in two's complement stand for the number that they were written for. -/
theorem signedLines_emod {lines : Int} (hlow : -256 ≤ lines) (hhigh : lines ≤ 255) {code : Nat}
    (hcode : code % 512 = (lines % 512).toNat) : signedLines code = lines := by
  unfold signedLines
  split <;> omega

/-- **An entry holds its distances**: its first byte tells how long it is, and its bytes are the
distances that it was written for. -/
theorem distances_of_encode {lines : Int} {bytecodes : Nat} {entry : List UInt8}
    (h : encode? lines bytecodes = some entry) :
    ∃ lead rest, entry = lead :: rest ∧ length lead = .ok entry.length ∧
      distances entry = .ok (lines, bytecodes) := by
  unfold encode? at h
  split at h
  · cases h
  split at h
  · cases h
    have hlead : (UInt8.ofNat (bytecodes * 4 + lines.toNat)).toNat = bytecodes * 4 + lines.toNat :=
      UInt8.toNat_ofNat_of_lt' (by show _ < 256; omega)
    have hlength : length (UInt8.ofNat (bytecodes * 4 + lines.toNat)) = .ok 1 :=
      length_short (by omega)
    refine ⟨_, _, rfl, hlength, ?_⟩
    unfold distances
    simp only [hlength, Except.ok_bind, Except.pure_eq, if_true, hlead, Except.ok.injEq,
      Prod.mk.injEq]
    omega
  split at h
  · cases h
    generalize hcode : 0x8000 + bytecodes * 512 + (lines % 512).toNat = code
    have hlead : (UInt8.ofNat (code / 256)).toNat = code / 256 :=
      UInt8.toNat_ofNat_of_lt' (by show _ < 256; omega)
    have hsecond : (UInt8.ofNat (code % 256)).toNat = code % 256 :=
      UInt8.toNat_ofNat_of_lt' (by show _ < 256; omega)
    have hlength : length (UInt8.ofNat (code / 256)) = .ok 2 :=
      length_long (by omega) (by omega)
    have hjoin : code / 256 * 256 + code % 256 = code := by omega
    have hsigned : signedLines code = lines := signedLines_emod (by omega) (by omega) (by omega)
    refine ⟨_, _, rfl, hlength, ?_⟩
    unfold distances
    simp only [hlength, Except.ok_bind, Except.pure_eq, hlead, hsecond, hjoin]
    simp only [hsigned, Nat.reduceEqDiff, if_false, Except.ok.injEq, Prod.mk.injEq, true_and]
    omega
  · cases h

/-- An entry leads from a position to the one that it was written for. -/
theorem decode_of_encode {position next : LinePosition} {entry : List UInt8} (hfits : next.Fits)
    (hle : position.location ≤ next.location)
    (h : encode? (next.line - position.line) (next.location - position.location) = some entry) :
    decode entry position = .ok next := by
  obtain ⟨_, _, _, _, hdistances⟩ := distances_of_encode h
  unfold decode
  rw [hdistances, Except.ok_bind]
  simp only [LinePosition.advance?_sub hfits hle]
  rfl

end LineEntry

/-! ## Tables -/

namespace LineTable

/-- The bytes of the entries that lead from a position through others, if entries can. -/
def encode? : LinePosition → List LinePosition → Option (List UInt8)
  | _, [] => some []
  | position, next :: positions => do
    let entry ← LineEntry.encode? (next.line - position.line) (next.location - position.location)
    let entries ← encode? next positions
    return entry ++ entries

theorem encode?_cons_eq_some {position next : LinePosition} {positions : List LinePosition}
    {bytes : List UInt8} (h : encode? position (next :: positions) = some bytes) :
    ∃ entry entries,
      LineEntry.encode? (next.line - position.line) (next.location - position.location) =
        some entry ∧
      encode? next positions = some entries ∧ bytes = entry ++ entries := by
  unfold encode? at h
  obtain ⟨entry, hentry, h⟩ := Option.bind_eq_some_iff.mp h
  obtain ⟨entries, hentries, h⟩ := Option.bind_eq_some_iff.mp h
  exact ⟨entry, entries, hentry, hentries, (Option.some.inj h).symm⟩

variable {memory : Memory} {cursor : Address} {position : LinePosition}

/-- One entry that memory has is read. -/
theorem readEntry_of_shows {next : LinePosition} {entry : List UInt8} (fail : String → Failure)
    (hold : memory.Shows cursor entry) (hfits : next.Fits)
    (hle : position.location ≤ next.location)
    (hentry : LineEntry.encode? (next.line - position.line) (next.location - position.location) =
      some entry) :
    readEntry memory fail cursor position = .ok (next, entry.length) := by
  obtain ⟨lead, rest, hcons, hlength, _⟩ := LineEntry.distances_of_encode hentry
  have hne : entry ≠ [] := hcons ▸ List.cons_ne_nil lead rest
  have hlead : memory.readU8 cursor = .ok lead := by
    rw [hcons] at hold
    exact hold.readU8_head
  unfold readEntry
  rw [hlead, Except.mapError_ok, Except.ok_bind, hlength, Except.mapError_ok, Except.ok_bind,
    hold.readBytes hne, Except.mapError_ok, Except.ok_bind,
    LineEntry.decode_of_encode hfits hle hentry, Except.mapError_ok, Except.ok_bind]
  rfl

/-- **The entries that memory has are read**: positions that rise above the table are added to it.
-/
theorem readEntries_of_shows {positions : List LinePosition} {bytes : List UInt8}
    {table : LineTable} (method : String) (index : Nat)
    (hencode : encode? position positions = some bytes) (hold : memory.Shows cursor bytes)
    (hfits : ∀ next ∈ positions, next.Fits)
    (hfrom : ∀ next ∈ positions, position.location ≤ next.location)
    (hrising : positions.Pairwise (·.location < ·.location))
    (habove : ∀ entry ∈ table.toList, ∀ next ∈ positions, entry.1 < next.location) :
    ∃ table', readEntries memory method positions.length index cursor position table =
        .ok table' ∧
      table'.toList = table.toList ++ positions.map fun next => (next.location, next.line) := by
  -- the reader keeps cursor and position of the writer, and its table ends below what is to come
  induction positions generalizing bytes cursor position table index with
  | nil => exact ⟨table, rfl, (List.append_nil _).symm⟩
  | cons next positions ih =>
    obtain ⟨entry, entries, hentry, hentries, rfl⟩ := encode?_cons_eq_some hencode
    obtain ⟨hfirst, hrest⟩ := List.pairwise_cons.mp hrising
    have hread := readEntry_of_shows (entryFailure method index) hold.left
      (hfits next List.mem_cons_self) (hfrom next List.mem_cons_self) hentry
    have haccept : ∀ entry ∈ table.toList, ¬ next.location ≤ entry.1 := fun entry hmem =>
      Nat.not_le.mpr (habove entry hmem next List.mem_cons_self)
    obtain ⟨table₁, hput⟩ := FloorMap.put_of_forall_not_le next.line haccept
    have habove₁ : ∀ entry ∈ table₁.toList, ∀ later ∈ positions, entry.1 < later.location :=
      FloorMap.forall_key_of_put (p := fun key => ∀ later ∈ positions, key < later.location) hput
        (fun entry hmem later hlater =>
          habove entry hmem later (List.mem_cons_of_mem _ hlater)) hfirst
    obtain ⟨table', hentries', hlist'⟩ := ih (index + 1) hentries hold.right
      (fun later hlater => hfits later (List.mem_cons_of_mem _ hlater))
      (fun later hlater => Nat.le_of_lt (hfirst later hlater)) hrest habove₁
    refine ⟨table', ?_, ?_⟩
    · rw [List.length_cons, readEntries]
      simp only [hread, Except.ok_bind, hput, Except.mapError_ok, hentries']
    · rw [hlist', FloorMap.toList_of_put hput, List.append_assoc]
      rfl

/-- A table whose entries memory has where the head says is read. -/
theorem read_of_encode {info : DebugInfo} {positions : List LinePosition} {bytes : List UInt8}
    (htable : info.table? = some cursor) (hcount : info.lineCount = positions.length)
    (hencode : encode? .start positions = some bytes) (hold : memory.Shows cursor bytes)
    (hfits : ∀ next ∈ positions, next.Fits)
    (hrising : positions.Pairwise (·.location < ·.location)) (method : String) :
    ∃ table, read memory info method = .ok (some table) ∧
      table.toList = positions.map fun next => (next.location, next.line) := by
  have habove : ∀ entry ∈ (∅ : LineTable).toList, ∀ next ∈ positions,
      entry.1 < next.location := nofun
  obtain ⟨table, hread, hlist⟩ := readEntries_of_shows method 0 hencode hold hfits
    (fun _ _ => Nat.zero_le _) hrising habove
  refine ⟨table, ?_, hlist⟩
  unfold read
  rw [htable, hcount]
  simp only [hread, Except.map_ok]

/-- What holds at a bytecode index in the table of some positions: the line of the last one at or
below it. -/
theorem held?_of_toList {table : LineTable} {positions : List LinePosition}
    (h : table.toList = positions.map fun next => (next.location, next.line)) (b : Nat) :
    table.held? b = (positions.filter (·.location ≤ b)).getLast?.map (·.line) := by
  unfold FloorMap.held?
  rw [h, List.filter_map, List.getLast?_map, Option.map_map]
  rfl

end LineTable

end CompiledFrames
