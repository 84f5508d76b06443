import CompiledFrames.Proofs.LineTable.Range

/-!
# Canonical line tables

An entry of two bytes can hold distances for which one byte would do, so that a line table can be
written in more than one way. Writing a table that has been read takes the shortest entries. They
take up no more bytes than were read, and the reader cannot tell them from the ones before.

## Main definitions

* `LineTable.positions`: the positions of a table
* `LineTable.extent?`: how many bytes the next entries in memory take up

## Main results

* `LineEntry.exists_encode?_of_distances`: what an entry holds has a shortest entry
* `LineTable.exists_distances_of_readEntries`: what a run of entries adds to a table
* `LineTable.read_canonical`: a table that has been read is written and read again
-/

namespace CompiledFrames

/-! ## Entries -/

namespace LineEntry

variable {memory : Memory} {cursor : Address} {entry : List UInt8} {distance : Int × Nat} {n : Nat}

/-- Where one byte does not do for the lines, an entry has two. -/
theorem le_length_of_distances (h : distances entry = .ok distance) :
    (if 0 ≤ distance.1 ∧ distance.1 ≤ 3 then 1 else 2) ≤ entry.length := by
  unfold distances at h
  cases entry with
  | nil => cases h
  | cons lead rest =>
    obtain ⟨n, -, h⟩ := Except.bind_eq_ok.mp h
    split at h
    · obtain rfl := Except.ok.inj h
      rw [if_pos (by dsimp only; omega), List.length_cons]
      omega
    · cases rest with
      | nil => cases h
      | cons second rest =>
        rw [List.length_cons, List.length_cons]
        split_ifs <;> omega

/-- What an entry holds has a shortest entry. -/
theorem exists_encode?_of_distances (h : distances entry = .ok distance) :
    ∃ shortest, encode? distance.1 distance.2 = some shortest ∧
      shortest.length ≤ entry.length := by
  obtain ⟨hlow, hhigh, hbytecodes⟩ := bounds_of_distances h
  obtain ⟨shortest, hshortest⟩ :=
    Option.isSome_iff_exists.mp (isSome_encode?_iff.mpr ⟨hbytecodes, hlow, hhigh⟩)
  exact ⟨shortest, hshortest, length_of_encode? hshortest ▸ le_length_of_distances h⟩

/-- What memory has at an address has a shortest entry. -/
theorem exists_encode?_of_readAt (h : readAt memory cursor = .ok (distance, n)) :
    ∃ shortest, encode? distance.1 distance.2 = some shortest ∧ shortest.length ≤ n := by
  unfold readAt at h
  obtain ⟨_, -, h⟩ := Except.bind_eq_ok.mp h
  obtain ⟨_, -, h⟩ := Except.bind_eq_ok.mp h
  obtain ⟨entry, hentry, h⟩ := Except.bind_eq_ok.mp h
  obtain ⟨found, hfound, h⟩ := Except.bind_eq_ok.mp h
  obtain ⟨rfl, rfl⟩ := Prod.mk.inj (Except.ok.inj h)
  rw [← Memory.length_of_readBytes (Except.mapError_eq_ok.mp hentry)]
  exact exists_encode?_of_distances (Except.mapError_eq_ok.mp hfound)

end LineEntry

theorem DebugInfo.lineCount_lt (info : DebugInfo) :
    info.lineCount < 0x80000000 := by
  have hraw := info.rawCount.toNat_lt
  unfold DebugInfo.lineCount
  split_ifs <;> omega

namespace LineTable

variable {memory : Memory} {cursor : Address} {position : LinePosition}
  {distances : List (Int × Nat)} {count : Nat} {table table' : LineTable}

/-! ## Runs of entries -/

/-- The bytes that the next `count` entries take up, if there are as many. -/
def extent? (memory : Memory) : Address → (count : Nat) → Option Nat
  | _, 0 => some 0
  | cursor, count + 1 =>
    match LineEntry.readAt memory cursor with
    | .ok (_, length) => (extent? memory (cursor + length) count).map (length + ·)
    | .error _ => none

/-- Entries that follow each other in memory have shortest entries, which take up no more bytes. -/
theorem HasEntries.exists_shortest (h : HasEntries memory cursor distances) :
    ∃ (entries : List (List UInt8)) (consumed : Nat),
      distances.map (fun distance => LineEntry.encode? distance.1 distance.2) =
        entries.map some ∧
      extent? memory cursor distances.length = some consumed ∧
      entries.flatten.length ≤ consumed := by
  induction distances generalizing cursor with
  | nil => exact ⟨[], 0, rfl, rfl, Nat.le_refl _⟩
  | cons distance distances ih =>
    obtain ⟨length, hentry, hrest⟩ := h
    obtain ⟨shortest, hshortest, hshorter⟩ := LineEntry.exists_encode?_of_readAt hentry
    obtain ⟨entries, consumed, hentries, hextent, hle⟩ := ih hrest
    refine ⟨shortest :: entries, length + consumed, ?_, ?_, ?_⟩
    · rw [List.map_cons, List.map_cons, hshortest, hentries]
    · rw [List.length_cons, extent?, hentry]
      simp only [hextent, Option.map_some]
    · rw [List.flatten_cons, List.length_append]
      omega

/-- **What a run of entries adds to a table**: the running sums of their distances. After a position
in the table the bytecode index rises with each of them. -/
theorem exists_distances_of_readEntries {method : String} {index free : Nat}
    (hread : readEntries memory method count index cursor position table = .ok table')
    (htable : EndsAt table position free) :
    ∃ distances, distances.length = count ∧ HasEntries memory cursor distances ∧
      (∀ distance ∈ distances.drop free, 1 ≤ distance.2) ∧
      (∀ next ∈ position.trail distances, next.Fits) ∧
      table'.toList = table.toList ++
        (position.trail distances).map fun next => (next.location, next.line) := by
  -- the table always ends at the position, so it takes the next one just when the index has risen
  induction count generalizing index cursor position table free with
  | zero =>
    obtain rfl := Except.ok.inj hread
    exact ⟨[], rfl, trivial, by simp, nofun, (List.append_nil _).symm⟩
  | succ count ih =>
    rw [readEntries_succ] at hread
    cases hentry : LineEntry.readAt memory cursor with
    | error reason =>
      rw [hentry] at hread
      cases hread
    | ok entry =>
      obtain ⟨distance, length⟩ := entry
      rw [hentry] at hread
      dsimp only at hread
      split_ifs at hread with hfits
      rcases htable.put_cases distance with ⟨hrises, next, hput, hlast⟩ | ⟨-, e, hput⟩
      · rw [hput] at hread
        obtain ⟨distances, hlength, hrest, hrising, hlater, hlist⟩ := ih hread hlast
        refine ⟨distance :: distances, ?_, ⟨length, hentry, hrest⟩, ?_, ?_, ?_⟩
        · rw [List.length_cons, hlength]
        · cases free with
          | zero => exact List.forall_mem_cons.mpr ⟨hrises rfl, hrising⟩
          | succ free => exact hrising
        · exact List.forall_mem_cons.mpr ⟨hfits, hlater⟩
        · rw [hlist, FloorMap.toList_of_put hput, List.append_assoc]
          rfl
      · rw [hput] at hread
        cases hread

/-! ## Tables -/

/-- The positions of a table, in the order of their bytecode indices. -/
def positions (table : LineTable) : List LinePosition :=
  table.toList.map fun entry => ⟨entry.2, entry.1⟩

theorem positions_of_toList {positions : List LinePosition}
    (h : table.toList = positions.map fun next => (next.location, next.line)) :
    table.positions = positions := by
  rw [LineTable.positions, h, List.map_map]
  exact List.map_id _

/-- An entry has two bytes at most. -/
theorem length_of_encode {positions : List LinePosition} {bytes : List UInt8}
    (h : encode? position positions = some bytes) : bytes.length ≤ 2 * positions.length := by
  induction positions generalizing position bytes with
  | nil =>
    obtain rfl := Option.some.inj h
    exact Nat.zero_le _
  | cons next positions ih =>
    obtain ⟨entry, entries, hentry, hentries, rfl⟩ := encode?_cons_eq_some h
    have hshort := LineEntry.length_of_encode? hentry
    have hrest := ih hentries
    rw [List.length_append, List.length_cons]
    split_ifs at hshort <;> omega

/-- **A table that has been read is written and read again**. It has as many positions as the head
counts, and they rise. The distances from each one to the next have entries. Together these take up
no more bytes than the reader went over, and where the table was, the reader gives the same table
for them. -/
theorem read_canonical {info : DebugInfo} {method : String}
    (h : read memory info method = .ok (some table)) :
    ∃ cursor bytes consumed, info.table? = some cursor ∧
      table.positions.length = info.lineCount ∧
      table.positions.Pairwise (·.location < ·.location) ∧
      encode? .start table.positions = some bytes ∧
      extent? memory cursor info.lineCount = some consumed ∧ bytes.length ≤ consumed ∧
      (∀ (image : MemoryImage) (name : String), image.MapsAt cursor bytes →
        read image.toMemory info name = .ok (some table)) ∧
      (cursor.toNat + bytes.length ≤ 0x10000000000000000 →
        read (({} : MemoryImage).map cursor bytes).toMemory info method = .ok (some table)) := by
  unfold read at h
  cases htable : info.table? with
  | none =>
    rw [htable] at h
    cases h
  | some cursor =>
    rw [htable] at h
    obtain ⟨found, hread, hfound⟩ := Except.map_eq_ok.mp h
    obtain rfl := Option.some.inj hfound
    obtain ⟨distances, hcount, hentries, hdistances, hfits, hlist⟩ :=
      exists_distances_of_readEntries hread (.inl ⟨rfl, rfl⟩)
    obtain ⟨entries, consumed, hencoded, hextent, hle⟩ := hentries.exists_shortest
    have hpositions : found.positions = LinePosition.start.trail distances :=
      positions_of_toList hlist
    have hlength : found.positions.length = info.lineCount := by
      rw [hpositions, LinePosition.length_trail, hcount]
    have hrising : found.positions.Pairwise (·.location < ·.location) := by
      rw [hpositions]
      exact LinePosition.pairwise_trail (by rwa [← List.drop_one])
    have hencode : encode? .start found.positions = some entries.flatten := by
      rw [hpositions, encode?_trail hencoded]
    have hagain (memory' : Memory) (name : String) (hshows : memory'.Shows cursor entries.flatten) :
        read memory' info name = .ok (some found) := by
      rw [← hpositions] at hfits hlist
      obtain ⟨again, hread, hlist'⟩ :=
        read_of_encode htable hlength.symm hencode hshows hfits hrising name
      rw [hread, eq_ofPositions hlist', ← eq_ofPositions hlist]
    refine ⟨cursor, entries.flatten, consumed, rfl, hlength, hrising, hencode, hcount ▸ hextent,
      hle, fun image name hmap => hagain _ name hmap.shows, fun hend => hagain _ method ?_⟩
    have hshort := length_of_encode hencode
    have hfew := info.lineCount_lt
    exact (MemoryImage.mapsAt_map_empty cursor entries.flatten (by omega) hend).shows

/-- Line three and then line five, both in entries of two bytes. -/
def roomy : List UInt8 :=
  [0x80, 0x03, 0x88, 0x02]

/-- Two bytes take the place of four. -/
theorem read_canonical_sample :
    ∃ table, read (({} : MemoryImage).map ⟨0x200c⟩ roomy).toMemory ⟨⟨0x2000⟩, 0, 4, 0⟩ "Foo.bar()V" =
        .ok (some table) ∧
      encode? .start table.positions = some [0x03, 0x12] ∧
      read (({} : MemoryImage).map ⟨0x200c⟩ [0x03, 0x12]).toMemory ⟨⟨0x2000⟩, 0, 4, 0⟩
        "Foo.bar()V" = .ok (some table) := by
  have hread : read (({} : MemoryImage).map ⟨0x200c⟩ roomy).toMemory ⟨⟨0x2000⟩, 0, 4, 0⟩
      "Foo.bar()V" = .ok (some (ofPositions [⟨3, 0⟩, ⟨5, 4⟩])) := by rfl
  obtain ⟨cursor, bytes, consumed, htable, -, -, hencode, -, -, -, hagain⟩ := read_canonical hread
  obtain rfl : (⟨0x200c⟩ : Address) = cursor := Option.some.inj htable
  obtain rfl : [0x03, 0x12] = bytes := Option.some.inj hencode
  exact ⟨_, hread, hencode, hagain (by decide)⟩

end LineTable

end CompiledFrames
