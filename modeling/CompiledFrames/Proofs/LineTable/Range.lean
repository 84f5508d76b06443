import Mathlib.Algebra.BigOperators.Group.List.Basic
import CompiledFrames.Proofs.LineTable.Distances

/-!
# Line tables that leave their range

A line is a signed number of thirty-two bits and a bytecode index an unsigned one. The reader adds
up the distances of the entries and checks that the index rises; it does not check that the sums
fit, and where they do not it stops in a trap. An entry goes back 256 lines at most, so it takes more
than `2 ^ 23` entries to get there. The short form counts no further than to `2 ^ 15`, the long one
counts to `2 ^ 31`.

## Main definitions

* `LinePosition.after`: the position that distances lead to
* `LineTable.HasEntries`: the distances of entries that follow each other in memory
* `LineTable.LeavesRange`: entries that the reader comes to and whose sums do not fit

## Main results

* `LineTable.readEntry_eq`: an entry moves on, is refused or ends in a trap
* `LineTable.readEntries_eq_trap_iff`: when a run of entries ends in a trap
* `LineTable.not_leavesRange_of_le`: up to `2 ^ 23` entries never do
* `LineTable.read_outcomes`: how reading a line table can end
-/

namespace CompiledFrames

/-! ## Sums of distances -/

namespace LinePosition

variable {position next : LinePosition} {distance : Int × Nat} {distances : List (Int × Nat)}

/-- The position that distances in lines and bytecodes lead to in the end. -/
def after (position : LinePosition) : List (Int × Nat) → LinePosition
  | [] => position
  | distance :: rest =>
    after ⟨position.line + distance.1, position.location + distance.2⟩ rest

@[simp] theorem after_nil : position.after [] = position := rfl

theorem after_singleton : position.after [distance] =
    ⟨position.line + distance.1, position.location + distance.2⟩ := rfl

theorem after_cons :
    position.after (distance :: distances) = (position.after [distance]).after distances := rfl

theorem start_fits : start.Fits := by
  decide

/-- Moving on by one pair of distances takes that the position behind it fits. -/
theorem advance?_eq : position.advance? distance.1 distance.2 =
    if (position.after [distance]).Fits then some (position.after [distance]) else none := by
  rw [after_singleton]
  rfl

/-- Distances that are small do not lead far. -/
theorem after_bounds (origin : LinePosition) (h : ∀ distance ∈ distances,
    -256 ≤ distance.1 ∧ distance.1 ≤ 255 ∧ distance.2 ≤ 31) :
    origin.line - 256 * distances.length ≤ (origin.after distances).line ∧
      (origin.after distances).line ≤ origin.line + 255 * distances.length ∧
      (origin.after distances).location ≤ origin.location + 31 * distances.length := by
  induction distances generalizing origin with
  | nil => simp
  | cons distance distances ih =>
    obtain ⟨hfirst, hrest⟩ := List.forall_mem_cons.mp h
    have hnext := ih (origin.after [distance]) hrest
    rw [after_cons]
    simp only [after_singleton, List.length_cons] at hnext ⊢
    omega

end LinePosition

/-! ## Entries in memory -/

namespace LineEntry

/-- The distances and the length of the entry at an address, or what is wrong with it. -/
def readAt (memory : Memory) (cursor : Address) : Except String ((Int × Nat) × Nat) := do
  let lead ← (memory.readU8 cursor).mapError Error.message
  let length ← (length lead).mapError LineEntryProblem.message
  let entry ← (memory.readBytes cursor length).mapError Error.message
  let distance ← (distances entry).mapError LineEntryProblem.message
  return (distance, length)

theorem bounds_of_distances {entry : List UInt8} {distance : Int × Nat}
    (h : distances entry = .ok distance) :
    -256 ≤ distance.1 ∧ distance.1 ≤ 255 ∧ distance.2 ≤ 31 := by
  unfold distances at h
  cases entry with
  | nil => cases h
  | cons lead rest =>
    obtain ⟨n, -, h⟩ := Except.bind_eq_ok.mp h
    split at h
    · obtain rfl := Except.ok.inj h
      dsimp only
      omega
    · cases rest with
      | nil => cases h
      | cons second _ =>
        obtain rfl := Except.ok.inj h
        dsimp only
        unfold signedLines
        split <;> omega

/-- No entry goes far. -/
theorem bounds_of_readAt {memory : Memory} {cursor : Address} {distance : Int × Nat} {n : Nat}
    (h : readAt memory cursor = .ok (distance, n)) :
    -256 ≤ distance.1 ∧ distance.1 ≤ 255 ∧ distance.2 ≤ 31 := by
  unfold readAt at h
  obtain ⟨_, -, h⟩ := Except.bind_eq_ok.mp h
  obtain ⟨_, -, h⟩ := Except.bind_eq_ok.mp h
  obtain ⟨entry, -, h⟩ := Except.bind_eq_ok.mp h
  obtain ⟨found, hfound, h⟩ := Except.bind_eq_ok.mp h
  obtain ⟨rfl, -⟩ := Prod.mk.inj (Except.ok.inj h)
  exact bounds_of_distances (Except.mapError_eq_ok.mp hfound)

/-- Whether the sums fit is not a matter of the entry alone. -/
theorem length_ne_overflow (lead : UInt8) : length lead ≠ .error .overflow := by
  unfold length
  split_ifs <;> simp

theorem distances_ne_overflow (entry : List UInt8) : distances entry ≠ .error .overflow := by
  intro h
  unfold distances at h
  cases entry with
  | nil => cases h
  | cons lead rest =>
    rcases Except.bind_eq_error.mp h with h | ⟨n, -, h⟩
    · exact length_ne_overflow lead h
    · split at h
      · cases h
      · cases rest <;> cases h

end LineEntry

namespace LineTable

variable {memory : Memory} {cursor : Address} {position : LinePosition}
  {distances : List (Int × Nat)} {count : Nat} {table : LineTable} {t : Trap}

/-- Memory has entries with these distances from an address on, one behind the other. -/
def HasEntries (memory : Memory) : Address → List (Int × Nat) → Prop
  | _, [] => True
  | cursor, distance :: distances =>
    ∃ length, LineEntry.readAt memory cursor = .ok (distance, length) ∧
      HasEntries memory (cursor + length) distances

/-- Among the first `count` entries at an address, the reader comes to one behind which the position
does not fit. To get there the bytecode index has to rise with each entry before that one, but for
the first `free` of them. -/
def LeavesRange (memory : Memory) (cursor : Address) (position : LinePosition)
    (free count : Nat) : Prop :=
  ∃ distances : List (Int × Nat), distances.length ≤ count ∧
    HasEntries memory cursor distances ∧
    (∀ distance ∈ distances.dropLast.drop free, 1 ≤ distance.2) ∧
    ¬ (position.after distances).Fits

theorem HasEntries.bounds (h : HasEntries memory cursor distances) :
    ∀ distance ∈ distances, -256 ≤ distance.1 ∧ distance.1 ≤ 255 ∧ distance.2 ≤ 31 := by
  induction distances generalizing cursor with
  | nil => nofun
  | cons distance distances ih =>
    obtain ⟨length, hentry, hrest⟩ := h
    exact List.forall_mem_cons.mpr ⟨LineEntry.bounds_of_readAt hentry, ih hrest⟩

/-- **So many entries always fit**, whatever they are. -/
theorem not_leavesRange_of_le (free : Nat) (h : count ≤ 0x800000) :
    ¬ LeavesRange memory cursor .start free count := by
  rintro ⟨distances, hlength, hentries, -, hleaves⟩
  apply hleaves
  obtain ⟨hlow, hhigh, hlocation⟩ :=
    LinePosition.after_bounds .start hentries.bounds
  simp only [LinePosition.start] at hlow hhigh hlocation ⊢
  refine ⟨?_, ?_, ?_⟩ <;> omega

theorem not_leavesRange_zero (hfits : position.Fits) (free : Nat) :
    ¬ LeavesRange memory cursor position free 0 := by
  rintro ⟨distances, hlength, -, -, hleaves⟩
  obtain rfl : distances = [] := List.length_eq_zero_iff.mp (Nat.le_zero.mp hlength)
  rw [LinePosition.after_nil] at hleaves
  exact hleaves hfits

/-- The range is left at the first entry, or behind it. -/
theorem leavesRange_succ_iff (hfits : position.Fits) (free : Nat) :
    LeavesRange memory cursor position free (count + 1) ↔
      ∃ distance length, LineEntry.readAt memory cursor = .ok (distance, length) ∧
        (¬ (position.after [distance]).Fits ∨
          (free = 0 → 1 ≤ distance.2) ∧
            LeavesRange memory (cursor + length) (position.after [distance]) (free - 1) count) := by
  constructor
  · rintro ⟨distances, hlength, hentries, hrising, hleaves⟩
    cases distances with
    | nil =>
      rw [LinePosition.after_nil] at hleaves
      exact absurd hfits hleaves
    | cons distance distances =>
      obtain ⟨length, hentry, hrest⟩ := hentries
      refine ⟨distance, length, hentry, ?_⟩
      cases distances with
      | nil => exact .inl hleaves
      | cons other distances =>
        rw [LinePosition.after_cons] at hleaves
        rw [List.dropLast_cons_cons] at hrising
        refine .inr ⟨?_, other :: distances, Nat.le_of_succ_le_succ hlength, hrest, ?_, hleaves⟩
        · rintro rfl
          exact hrising distance List.mem_cons_self
        · cases free with
          | zero => exact fun later hlater => hrising later (List.mem_cons_of_mem _ hlater)
          | succ free => exact hrising
  · rintro ⟨distance, length, hentry, hleaves | ⟨hfirst, distances, hlength, hrest, hrising, hleaves⟩⟩
    · exact ⟨[distance], by simp, ⟨length, hentry, trivial⟩, by simp, hleaves⟩
    · refine ⟨distance :: distances, Nat.succ_le_succ hlength, ⟨length, hentry, hrest⟩, ?_, ?_⟩
      · cases distances with
        | nil => simp
        | cons other distances =>
          rw [List.dropLast_cons_cons]
          cases free with
          | zero => exact List.forall_mem_cons.mpr ⟨hfirst rfl, hrising⟩
          | succ free => exact hrising
      · rw [LinePosition.after_cons]
        exact hleaves

/-! ## Reading entries -/

/-- **One entry** is refused, moves on by its distances, or ends in a trap where they lead to a
position that does not fit. -/
theorem readEntry_eq (memory : Memory) (fail : String → Failure) (cursor : Address)
    (position : LinePosition) :
    readEntry memory fail cursor position =
      match LineEntry.readAt memory cursor with
      | .error reason => .error (fail reason)
      | .ok (distance, length) =>
        if (position.after [distance]).Fits then .ok (position.after [distance], length)
        else .error (.trap .addOverflow) := by
  unfold readEntry LineEntry.readAt
  cases memory.readU8 cursor with
  | error e => rfl
  | ok lead =>
    simp only [Except.mapError_ok, Except.ok_bind]
    cases hlength : LineEntry.length lead with
    | error problem =>
      cases problem with
      | overflow => exact absurd hlength (LineEntry.length_ne_overflow lead)
      | _ => rfl
    | ok length =>
      simp only [Except.mapError_ok, Except.ok_bind]
      cases memory.readBytes cursor length with
      | error e => rfl
      | ok entry =>
        simp only [Except.mapError_ok, Except.ok_bind, LineEntry.decode]
        cases hdistances : LineEntry.distances entry with
        | error problem =>
          cases problem with
          | overflow => exact absurd hdistances (LineEntry.distances_ne_overflow entry)
          | _ => rfl
        | ok distance =>
          simp only [Except.mapError_ok, Except.ok_bind, LinePosition.advance?_eq, Except.pure_eq]
          split_ifs <;> rfl

/-- Reading on by one entry. -/
theorem readEntries_succ (memory : Memory) (method : String) (count index : Nat) (cursor : Address)
    (position : LinePosition) (table : LineTable) :
    readEntries memory method (count + 1) index cursor position table =
      match LineEntry.readAt memory cursor with
      | .error reason => .error (entryFailure method index reason)
      | .ok (distance, length) =>
        if (position.after [distance]).Fits then
          match table.put (position.after [distance]).location (position.after [distance]).line with
          | .error e => .error (entryFailure method index e.message)
          | .ok next =>
            readEntries memory method count (index + 1) (cursor + length)
              (position.after [distance]) next
        else .error (.trap .addOverflow) := by
  rw [readEntries, readEntry_eq]
  cases LineEntry.readAt memory cursor with
  | error reason => rfl
  | ok entry =>
    dsimp only
    split_ifs
    · simp only [Except.ok_bind]
      cases table.put _ _ <;> rfl
    · rfl

/-- A table that ends at a position, or the empty table before the first one. -/
def EndsAt (table : LineTable) (position : LinePosition) (free : Nat) : Prop :=
  table.latest = [] ∧ free = 1 ∨
    free = 0 ∧ ∃ line, table.latest.head? = some (position.location, line)

/-- A table takes the position behind an entry just when the bytecode index has risen. -/
theorem EndsAt.put_cases {free : Nat} (h : EndsAt table position free) (distance : Int × Nat) :
    ((free = 0 → 1 ≤ distance.2) ∧
      ∃ next, table.put (position.after [distance]).location (position.after [distance]).line =
          .ok next ∧ EndsAt next (position.after [distance]) (free - 1)) ∨
    (¬ (free = 0 → 1 ≤ distance.2) ∧
      ∃ e, table.put (position.after [distance]).location (position.after [distance]).line =
        .error e) := by
  have hlocation : (position.after [distance]).location = position.location + distance.2 := by
    rw [LinePosition.after_singleton]
  unfold FloorMap.put
  rcases h with ⟨hempty, rfl⟩ | ⟨rfl, line, hlast⟩
  · rw [hempty]
    exact .inl ⟨nofun, _, rfl, .inr ⟨rfl, _, rfl⟩⟩
  · obtain ⟨rest, hlatest⟩ := List.head?_eq_some_iff.mp hlast
    rw [hlatest]
    dsimp only
    by_cases hrises : 1 ≤ distance.2
    · have hnot : ¬ (position.after [distance]).location ≤ position.location := by omega
      rw [if_neg hnot]
      exact .inl ⟨fun _ => hrises, _, rfl, .inr ⟨rfl, _, rfl⟩⟩
    · have hle : (position.after [distance]).location ≤ position.location := by omega
      rw [if_pos hle]
      exact .inr ⟨fun h => hrises (h rfl), _, rfl⟩

/-- **A run of entries ends in a trap** just when the reader comes to one that leaves the range. -/
theorem readEntries_eq_trap_iff {free : Nat} (method : String) (index : Nat)
    (hfits : position.Fits) (htable : EndsAt table position free) :
    readEntries memory method count index cursor position table = .error (.trap t) ↔
      t = .addOverflow ∧ LeavesRange memory cursor position free count := by
  -- position and table move on together, so that the table always ends at the position
  induction count generalizing index cursor position table free with
  | zero =>
    constructor
    · nofun
    · rintro ⟨-, hleaves⟩
      exact absurd hleaves (not_leavesRange_zero hfits free)
  | succ count ih =>
    rw [readEntries_succ, leavesRange_succ_iff hfits]
    cases hentry : LineEntry.readAt memory cursor with
    | error reason => simp [entryFailure]
    | ok entry =>
      obtain ⟨distance, length⟩ := entry
      simp only [Except.ok.injEq, Prod.mk.injEq, ↓existsAndEq, true_and]
      by_cases hnext : (position.after [distance]).Fits
      · rw [if_pos hnext, or_iff_right (not_not_intro hnext)]
        rcases htable.put_cases distance with ⟨hrises, next, hput, hlast⟩ | ⟨hnot, e, hput⟩
        · rw [hput, and_iff_right hrises]
          exact ih (index + 1) hnext hlast
        · rw [hput]
          constructor
          · nofun
          · rintro ⟨-, hrises, -⟩
            exact absurd hrises hnot
      · rw [if_neg hnext]
        constructor
        · intro htrap
          cases htrap
          exact ⟨rfl, .inl hnext⟩
        · rintro ⟨rfl, -⟩
          rfl

/-- However a run of entries ends, it gives a table, an error that names the method, or a trap. -/
theorem readEntries_cases (memory : Memory) (method : String) (count index : Nat)
    (cursor : Address) (position : LinePosition) (table : LineTable) :
    (∃ read, readEntries memory method count index cursor position table = .ok read) ∨
    (∃ reason, readEntries memory method count index cursor position table =
      .error (.error (.malformedRecord method reason))) ∨
    readEntries memory method count index cursor position table =
      .error (.trap .addOverflow) := by
  induction count generalizing index cursor position table with
  | zero => exact .inl ⟨table, rfl⟩
  | succ count ih =>
    rw [readEntries_succ]
    cases LineEntry.readAt memory cursor with
    | error reason => exact .inr (.inl ⟨_, rfl⟩)
    | ok entry =>
      dsimp only
      split_ifs
      · cases table.put _ _ with
        | error e => exact .inr (.inl ⟨_, rfl⟩)
        | ok next => exact ih _ _ _ _
      · exact .inr (.inr rfl)

/-! ## Reading tables -/

/-- **A line table ends in a trap** just when its entries leave the range. -/
theorem read_eq_trap_iff {info : DebugInfo} (method : String) :
    read memory info method = .error (.trap t) ↔
      t = .addOverflow ∧ ∃ cursor, info.table? = some cursor ∧
        LeavesRange memory cursor .start 1 info.lineCount := by
  unfold read
  cases info.table? with
  | none => simp
  | some cursor =>
    simp only [Option.some.injEq, exists_eq_left']
    rw [Except.map_eq_error]
    exact readEntries_eq_trap_iff method 0 LinePosition.start_fits (.inl ⟨rfl, rfl⟩)

/-- **How reading a line table can end**, for any memory and any head. There is no table, or the
reader gives one, or an error that names the method, or it ends in a trap. That happens just when
the entries leave the range before one of them is refused, and never with `2 ^ 23` of them or less.
-/
theorem read_outcomes (memory : Memory) (info : DebugInfo) (method : String) :
    (read memory info method = .ok none ∨
      (∃ table, read memory info method = .ok (some table)) ∨
      (∃ reason, read memory info method = .error (.error (.malformedRecord method reason))) ∨
      read memory info method = .error (.trap .addOverflow)) ∧
    (∀ t, read memory info method = .error (.trap t) ↔
      t = .addOverflow ∧ ∃ cursor, info.table? = some cursor ∧
        LeavesRange memory cursor .start 1 info.lineCount) ∧
    (info.lineCount ≤ 0x800000 → ∀ t, read memory info method ≠ .error (.trap t)) := by
  refine ⟨?_, fun t => read_eq_trap_iff method, ?_⟩
  · unfold read
    cases info.table? with
    | none => exact .inl rfl
    | some cursor =>
      dsimp only
      rcases readEntries_cases memory method info.lineCount 0 cursor .start ∅ with
        ⟨table, hread⟩ | ⟨reason, hread⟩ | hread
      · exact .inr (.inl ⟨table, by rw [hread, Except.map_ok]⟩)
      · exact .inr (.inr (.inl ⟨reason, Except.map_eq_error.mpr hread⟩))
      · exact .inr (.inr (.inr (Except.map_eq_error.mpr hread)))
  · intro hcount t hread
    obtain ⟨-, cursor, -, hleaves⟩ := (read_eq_trap_iff method).mp hread
    exact not_leavesRange_of_le 1 hcount hleaves

/-- Three entries in the long form are read without a trap. -/
theorem read_outcomes_sample :
    ∃ info,
      DebugInfo.read (({} : MemoryImage).map ⟨0x2000⟩
          ((CountForm.long 0).bytes 0 0 3 sampleEntries.flatten)).toMemory ⟨0x2000⟩ = .ok info ∧
      info.lineCount = 3 ∧
      ∀ t, read (({} : MemoryImage).map ⟨0x2000⟩
          ((CountForm.long 0).bytes 0 0 3 sampleEntries.flatten)).toMemory info "Foo.bar()V" ≠
        .error (.trap t) := by
  have hshows := (MemoryImage.holds_map_empty ⟨0x2000⟩
    ((CountForm.long 0).bytes 0 0 3 sampleEntries.flatten) (by decide)).shows
  have hcount : (⟨⟨0x2000⟩, 0, 7, 0⟩ : DebugInfo).lineCount = 3 := rfl
  refine ⟨⟨⟨0x2000⟩, 0, 7, 0⟩, DebugInfo.read_of_shows hshows, hcount, ?_⟩
  exact (read_outcomes _ ⟨⟨0x2000⟩, 0, 7, 0⟩ "Foo.bar()V").2.2 (by rw [hcount]; omega)

/-! ## Leaving the range -/

/-- The entry that goes on by one bytecode and as far back as an entry can. -/
def backwards : List UInt8 :=
  [0x83, 0x00]

theorem readAt_backwards (h : memory.Shows cursor backwards) :
    LineEntry.readAt memory cursor = .ok ((-256, 1), 2) := by
  have hlead : memory.readU8 cursor = .ok 0x83 := h.readU8_head
  have hbytes : memory.readBytes cursor 2 = .ok backwards := h.readBytes nofun
  have hlength : LineEntry.length 0x83 = .ok 2 := rfl
  have hencode : LineEntry.encode? (-256) 1 = some backwards := rfl
  obtain ⟨_, _, -, -, hdistance⟩ := LineEntry.distances_of_encode hencode
  unfold LineEntry.readAt
  simp only [hlead, hlength, hbytes, hdistance, Except.mapError_ok, Except.ok_bind, Except.pure_eq]

theorem hasEntries_backwards {n : Nat}
    (h : memory.Shows cursor (List.replicate n backwards).flatten) :
    HasEntries memory cursor (List.replicate n (-256, 1)) := by
  induction n generalizing cursor with
  | zero => trivial
  | succ n ih =>
    rw [List.replicate_succ, List.flatten_cons] at h
    exact ⟨2, readAt_backwards h.left, ih h.right⟩

theorem after_backwards (n : Nat) :
    position.after (List.replicate n (-256, 1)) =
      ⟨position.line - 256 * n, position.location + n⟩ := by
  induction n generalizing position with
  | zero => simp
  | succ n ih =>
    rw [List.replicate_succ, LinePosition.after_cons, ih, LinePosition.mk.injEq]
    simp only [LinePosition.after_singleton]
    omega

/-- Debug information with so many entries, each of them backwards. -/
def farBack (n : Nat) : List UInt8 :=
  (CountForm.long 0).bytes 0 0 n (List.replicate n backwards).flatten

theorem length_farBack (n : Nat) : (farBack n).length = 13 + 2 * n := by
  have hgap : (CountForm.long 0).gap.length = 1 := rfl
  have hentries : (List.replicate n backwards).flatten.length = 2 * n := by
    induction n with
    | zero => rfl
    | succ n ih =>
      rw [List.replicate_succ, List.flatten_cons, List.length_append, ih]
      simp only [backwards, List.length_cons, List.length_nil]
      omega
  simp only [farBack, CountForm.bytes, List.length_append, length_littleBytes, hgap, hentries]
  omega

/-- A process that has such debug information, with one entry more than always fit. -/
def farBackImage : MemoryImage :=
  ({} : MemoryImage).map ⟨0x10000⟩ (farBack 0x800001)

/-- **Record contents can stop the reader**: it is false that a line table that has been found in
memory is read without a trap. -/
theorem not_read_untrapped :
    ¬ ∀ (memory : Memory) (a : Address) (info : DebugInfo) (method : String),
      DebugInfo.read memory a = .ok info →
        ∀ t, LineTable.read memory info method ≠ .error (.trap t) := by
  intro h
  have hshows : farBackImage.toMemory.Shows ⟨0x10000⟩ (farBack 0x800001) := by
    refine (MemoryImage.holds_map_empty _ _ ?_).shows
    rw [length_farBack]
    have hbase : (⟨0x10000⟩ : Address).toNat = 0x10000 := rfl
    omega
  have hhead : DebugInfo.read farBackImage.toMemory ⟨0x10000⟩ =
      .ok ⟨⟨0x10000⟩, 0, 0x1000003, 0⟩ := DebugInfo.read_of_shows hshows
  have hentries : HasEntries farBackImage.toMemory ⟨0x1000d⟩
      (List.replicate 0x800001 (-256, 1)) := by
    have hright := hshows.right.right.right.right
    simp only [length_littleBytes, Address.add_add] at hright
    exact hasEntries_backwards hright
  apply h _ _ _ "Foo.bar()V" hhead .addOverflow
  refine (read_eq_trap_iff "Foo.bar()V").mpr ⟨rfl, ⟨0x1000d⟩, rfl, ?_⟩
  have hcount : (⟨⟨0x10000⟩, 0, 0x1000003, 0⟩ : DebugInfo).lineCount = 0x800001 := by
    decide +kernel
  refine ⟨List.replicate 0x800001 (-256, 1), ?_, hentries, ?_, ?_⟩
  · rw [List.length_replicate, hcount]
  · intro distance hdistance
    have hmem := List.dropLast_subset _ (List.mem_of_mem_drop hdistance)
    rw [List.eq_of_mem_replicate hmem]
  · rw [after_backwards]
    rintro ⟨hlow, -⟩
    simp only [LinePosition.start] at hlow
    omega

end LineTable

end CompiledFrames
