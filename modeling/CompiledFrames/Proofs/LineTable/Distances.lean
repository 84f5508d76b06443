import Mathlib.Tactic.SplitIfs
import CompiledFrames.Proofs.LineTable.Stored
import CompiledFrames.Proofs.Memory.Image

/-!
# Line tables from distances

Whoever writes a line table has a list of distances. Each of them becomes an entry of one byte or of
two, and the entries follow each other without marks between them. The reader finds the ends of the
entries again, so it gives the running sums of the distances, whichever way the head counts the
entries and whatever follows them.

## Main definitions

* `LinePosition.trail`: the running sums of distances
* `LineTable.Encodes`: distances that rise and fit, with their entries
* `LineTable.ofPositions`: the table with an entry for each position

## Main results

* `LineEntry.isSome_encode?_iff`, `LineEntry.length_of_encode?`: the distances that have an entry,
  and how long it is
* `LineTable.read_of_distances`: the table of the running sums is read
-/

namespace CompiledFrames

/-! ## Running sums -/

/-- The positions that distances in lines and bytecodes lead to, one after the other. -/
def LinePosition.trail (position : LinePosition) : List (Int × Nat) → List LinePosition
  | [] => []
  | (lines, bytecodes) :: distances =>
    let next : LinePosition := ⟨position.line + lines, position.location + bytecodes⟩
    next :: next.trail distances

namespace LinePosition

variable {position : LinePosition} {distances : List (Int × Nat)}

@[simp] theorem length_trail : (position.trail distances).length = distances.length := by
  induction distances generalizing position with
  | nil => rfl
  | cons distance distances ih => simp [trail, ih]

/-- When each distance is at least one bytecode, the positions lie above the first one. -/
theorem lt_of_mem_trail (h : ∀ distance ∈ distances, 1 ≤ distance.2) {next : LinePosition}
    (hnext : next ∈ position.trail distances) : position.location < next.location := by
  induction distances generalizing position with
  | nil => cases hnext
  | cons distance distances ih =>
    obtain ⟨hfirst, hrest⟩ := List.forall_mem_cons.mp h
    rcases List.mem_cons.mp hnext with rfl | hlater
    · exact Nat.lt_add_of_pos_right hfirst
    · exact Nat.lt_of_le_of_lt (Nat.le_add_right _ _) (ih hrest hlater)

theorem pairwise_trail (h : ∀ distance ∈ distances.tail, 1 ≤ distance.2) :
    (position.trail distances).Pairwise (·.location < ·.location) := by
  induction distances generalizing position with
  | nil => exact List.Pairwise.nil
  | cons distance distances ih =>
    refine List.pairwise_cons.mpr ⟨fun later hlater => lt_of_mem_trail h hlater, ih ?_⟩
    exact fun later hlater => h later (List.mem_of_mem_tail hlater)

end LinePosition

/-! ## Entries -/

namespace LineEntry

variable {lines : Int} {bytecodes : Nat}

/-- The distances that have an entry. -/
theorem isSome_encode?_iff :
    (encode? lines bytecodes).isSome ↔ bytecodes ≤ 31 ∧ -256 ≤ lines ∧ lines ≤ 255 := by
  unfold encode?
  split_ifs with hfar hshort hlong
  · exact ⟨nofun, fun h => absurd h.1 (by omega)⟩
  · exact ⟨fun _ => by omega, fun _ => rfl⟩
  · exact ⟨fun _ => by omega, fun _ => rfl⟩
  · exact ⟨nofun, fun h => absurd h.2 hlong⟩

/-- Only the smallest distances forward have an entry of one byte. -/
theorem length_of_encode? {entry : List UInt8} (h : encode? lines bytecodes = some entry) :
    entry.length = if 0 ≤ lines ∧ lines ≤ 3 then 1 else 2 := by
  unfold encode? at h
  split_ifs at h with hfar hshort hlong
  · rw [if_pos hshort, ← Option.some.inj h, List.length_singleton]
  · rw [if_neg hshort, ← Option.some.inj h]
    rfl

end LineEntry

/-! ## Tables -/

/-- The bytes of debug information with `n` line entries, counted in one of the two forms. -/
def CountForm.bytes (form : CountForm) (variablesOffset variableCount : UInt32) (n : Nat)
    (entries : List UInt8) : List UInt8 :=
  littleBytes 4 variablesOffset.toNat ++
    (littleBytes 4 (form.word n) ++ (littleBytes 4 variableCount.toNat ++ (form.gap ++ entries)))

namespace LineTable

/-- Distances that make up a line table, with their entries: the bytecodes rise after the first
position, and all positions fit. -/
structure Encodes (distances : List (Int × Nat)) (entries : List (List UInt8)) : Prop where
  ne_nil : distances ≠ []
  encoded : distances.map (fun distance => LineEntry.encode? distance.1 distance.2) =
    entries.map some
  rising : ∀ distance ∈ distances.tail, 1 ≤ distance.2
  fits : ∀ position ∈ LinePosition.start.trail distances, position.Fits

/-- The table with an entry for each of some positions. -/
def ofPositions (positions : List LinePosition) : LineTable :=
  ⟨(positions.map fun position => (position.location, position.line)).reverse⟩

theorem eq_ofPositions {table : LineTable} {positions : List LinePosition}
    (h : table.toList = positions.map fun position => (position.location, position.line)) :
    table = ofPositions positions := by
  rw [ofPositions, ← h, FloorMap.toList, List.reverse_reverse]

variable {distances : List (Int × Nat)} {entries : List (List UInt8)}

/-- The entries of the distances lead through the running sums. -/
theorem encode?_trail {position : LinePosition}
    (h : distances.map (fun distance => LineEntry.encode? distance.1 distance.2) =
      entries.map some) :
    encode? position (position.trail distances) = some entries.flatten := by
  induction distances generalizing position entries with
  | nil =>
    obtain rfl : entries = [] := List.map_eq_nil_iff.mp h.symm
    rfl
  | cons distance distances ih =>
    obtain ⟨entry, entries, rfl, hentry, hrest⟩ := List.map_eq_cons_iff.mp h.symm
    have hlines : position.line + distance.1 - position.line = distance.1 := by omega
    have hbytecodes : position.location + distance.2 - position.location = distance.2 := by omega
    rw [LinePosition.trail, encode?]
    simp only [hlines, hbytecodes, ← hentry, ih hrest.symm, Option.bind_eq_bind, Option.bind_some,
      Option.pure_def, List.flatten_cons]

/-- The stored table of some distances. -/
def Encodes.stored (h : Encodes distances entries) (form : CountForm)
    (hcount : distances.length < form.limit) (variablesOffset variableCount : UInt32) :
    StoredLines where
  variablesOffset := variablesOffset
  variableCount := variableCount
  form := form
  positions := LinePosition.start.trail distances
  entries := entries.flatten
  rest := []
  positions_ne_nil := by
    rw [← List.length_pos_iff, LinePosition.length_trail, List.length_pos_iff]
    exact h.ne_nil
  length_lt := by rwa [LinePosition.length_trail]
  fits := h.fits
  rising := LinePosition.pairwise_trail h.rising
  encode?_eq := encode?_trail h.encoded

theorem Encodes.bytes_stored (h : Encodes distances entries) (form : CountForm)
    (hcount : distances.length < form.limit) (variablesOffset variableCount : UInt32) :
    (h.stored form hcount variablesOffset variableCount).bytes =
      form.bytes variablesOffset variableCount distances.length entries.flatten := by
  simp only [StoredLines.bytes, stored, CountForm.bytes, LinePosition.length_trail,
    List.append_nil]

/-- **The line table of some distances is read back.** One segment has a head that counts the
distances in either form, and behind it their entries one after the other; then the reader gives the
table of the running sums, wherever in memory that is and whatever follows. A pair of distances has
an entry just when its bytecodes take five bits and its lines nine, and the entry is one byte long
just when two bits do for the lines. -/
theorem read_of_distances :
    (∀ (distances : List (Int × Nat)) (entries : List (List UInt8)) (form : CountForm)
        (variablesOffset variableCount : UInt32) (image : MemoryImage) (a : Address)
        (method : String),
      Encodes distances entries → distances.length < form.limit →
      image.MapsAt a
        (form.bytes variablesOffset variableCount distances.length entries.flatten) →
      ∃ info, DebugInfo.read image.toMemory a = .ok info ∧
        LineTable.read image.toMemory info method =
          .ok (some (ofPositions (LinePosition.start.trail distances)))) ∧
    ∀ (lines : Int) (bytecodes : Nat),
      ((LineEntry.encode? lines bytecodes).isSome ↔
        bytecodes ≤ 31 ∧ -256 ≤ lines ∧ lines ≤ 255) ∧
      ∀ entry, LineEntry.encode? lines bytecodes = some entry →
        entry.length = if 0 ≤ lines ∧ lines ≤ 3 then 1 else 2 := by
  refine ⟨?_, fun lines bytecodes =>
    ⟨LineEntry.isSome_encode?_iff, fun entry => LineEntry.length_of_encode?⟩⟩
  intro distances entries form variablesOffset variableCount image a method h hcount hmap
  have hshows := hmap.shows
  rw [← h.bytes_stored form hcount] at hshows
  obtain ⟨table, hread, hlist⟩ := StoredLines.read_of_shows hshows method
  refine ⟨_, StoredLines.readHead_of_shows hshows, ?_⟩
  rw [hread, eq_ofPositions hlist]
  rfl

/-- Three positions, the last one in an earlier line than the one before. -/
def sampleDistances : List (Int × Nat) :=
  [(12, 0), (1, 4), (-2, 5)]

/-- Their entries, of two bytes, of one and of two. -/
def sampleEntries : List (List UInt8) :=
  [[0x80, 0x0c], [0x11], [0x8b, 0xfe]]

/-- In the long form at the very end of memory. -/
theorem read_of_sample :
    ∃ info,
      DebugInfo.read
          (({} : MemoryImage).map ⟨0xffffffffffffffee⟩
            ((CountForm.long 0).bytes 0 0 3 sampleEntries.flatten)).toMemory
          ⟨0xffffffffffffffee⟩ = .ok info ∧
      LineTable.read
          (({} : MemoryImage).map ⟨0xffffffffffffffee⟩
            ((CountForm.long 0).bytes 0 0 3 sampleEntries.flatten)).toMemory info "Foo.bar()V" =
        .ok (some (ofPositions [⟨12, 0⟩, ⟨13, 4⟩, ⟨11, 9⟩])) := by
  have hencodes : Encodes sampleDistances sampleEntries :=
    { ne_nil := nofun, encoded := rfl, rising := by decide, fits := by decide }
  exact read_of_distances.1 sampleDistances sampleEntries (.long 0) 0 0 _ _ "Foo.bar()V" hencodes
    (by decide) (MemoryImage.mapsAt_map_empty _ _ (by decide) (by decide))

end LineTable

end CompiledFrames
