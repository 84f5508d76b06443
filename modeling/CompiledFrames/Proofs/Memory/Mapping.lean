import Mathlib.Data.List.Basic
import Mathlib.Data.List.Pairwise
import CompiledFrames.Proofs.Memory.Segments

/-!
# Reading after mapping

Bytes that have just been mapped can be read, and so can all bytes that could be read before and
that the new ones do not replace. For segments with bytes there is nothing more to say. An empty
segment shares no byte with any other and still takes part in mapping and in reading, and there are
two ways in which bytes get lost to one:

* an empty segment stays behind a new one with the same base, and is the one that reads ask;
* an empty segment that is mapped between two bytes of another one discards it.

Nothing else is lost, whatever has been mapped before.

## Main definitions

* `MemoryImage.EmptyAt`: an empty segment begins at an address

## Main results

* `MemoryImage.Orderly.holds_insert`, `MemoryImage.Orderly.window?_insert_of_emptyAt`: the bytes that
  are mapped, without and with an empty segment at their base
* `MemoryImage.Orderly.window?_insert_of_not_splits`, `MemoryImage.Orderly.window?_insert_of_splits`:
  the bytes of a segment that shares none with the new one
* `MemoryImage.readBytes_after_map`: what can be read after any segments and one more
-/

namespace CompiledFrames

instance : Std.Symm Segment.Apart :=
  ⟨fun _ _ => Segment.Apart.symm⟩

namespace MemoryImage

variable {image : MemoryImage} {s t old : Segment} {segments : List Segment} {a : Address} {n : Nat}
  {window : List UInt8}

/-- An empty segment begins at `a`. -/
def EmptyAt (image : MemoryImage) (a : Address) : Prop :=
  ∃ t ∈ image.segments, t.base = a ∧ t.bytes.size = 0

instance (image : MemoryImage) (a : Address) : Decidable (image.EmptyAt a) :=
  inferInstanceAs (Decidable (∃ t ∈ image.segments, t.base = a ∧ t.bytes.size = 0))

/-! ## The new bytes -/

/-- **What has been mapped is held**, unless it has bytes and an empty segment is at their base. -/
theorem Orderly.holds_insert (h : image.Orderly) (hs : s.Fits)
    (hbase : s.bytes.size = 0 ∨ ¬ image.EmptyAt s.base) :
    (image.insert s).toMemory.Holds s.base s.bytes.toList := by
  obtain ⟨before, after, hsegments, hkept, hbefore, hafter⟩ := h.exists_insert s
  have hbehind : ∀ t ∈ after, s.base.toNat + s.bytes.size ≤ t.base.toNat := by
    intro t ht
    obtain ⟨htmem, hapart⟩ := (mem_kept_iff hkept).mp (List.mem_append_right before ht)
    rw [Segment.apart_iff (h.fits t htmem) hs] at hapart
    have hle := Address.le_iff.mp (hafter t ht)
    rcases hbase with hempty | hnone
    · omega
    · by_contra hlt
      -- else it ends where the new one begins, and so it is empty and begins there as well
      apply hnone
      exact ⟨t, htmem, Address.ext_toNat (by omega), by omega⟩
  have hsplit : image.insert s = ⟨before ++ s :: after⟩ := congrArg MemoryImage.mk hsegments
  rw [hsplit]
  exact holds_of_segments (fun t ht => Address.le_of_lt (hbefore t ht))
    hbehind hs

/-- A segment that is stored behind a new one and begins inside it is empty. -/
theorem size_eq_zero_of_begins_inside (hs : s.Fits) (ht : t.Fits) (hapart : t.Apart s)
    (hafter : s.base ≤ t.base) (hinside : s.HasByte a) (hle : t.base ≤ a) : t.bytes.size = 0 := by
  obtain ⟨hlow, hhigh⟩ := hinside
  rw [Segment.apart_iff ht hs] at hapart
  rw [Address.le_iff] at hafter hle
  omega

/-- **With an empty segment at their base** the bytes of a new segment cannot be read. -/
theorem Orderly.window?_insert_of_emptyAt (h : image.Orderly) (hs : s.Fits)
    (hbase : image.EmptyAt s.base) (hin : s.Includes a n) (hn : 0 < n) :
    (image.insert s).window? a n = none := by
  obtain ⟨t, ht, htbase, hempty⟩ := hbase
  obtain ⟨before, after, hsegments, hkept, hbefore, hafter⟩ := h.exists_insert s
  have htafter : t ∈ after := by
    have hapart : t.Apart s := by
      rw [Segment.apart_iff (h.fits t ht) hs, htbase]
      omega
    rcases List.mem_append.mp ((mem_kept_iff hkept).mpr ⟨ht, hapart⟩) with htbefore | htafter
    · have hlt := hbefore t htbefore
      rw [htbase, Address.lt_iff] at hlt
      omega
    · exact htafter
  have hbegun : t ∈ after.filter (·.base ≤ a) := by
    rw [List.mem_filter, decide_eq_true_eq, htbase, Address.le_iff]
    exact ⟨htafter, hin.1⟩
  unfold window?
  rw [(h.insert hs).segmentFor?_eq, hsegments, List.filter_append, List.filter_cons,
    if_pos (decide_eq_true (Address.le_iff.mpr hin.1)), List.getLast?_append, List.getLast?_cons]
  cases hlast : (after.filter (·.base ≤ a)).getLast? with
  | none =>
    rw [List.getLast?_eq_none_iff.mp hlast] at hbegun
    cases hbegun
  | some last =>
    obtain ⟨hlastAfter, hle⟩ := List.mem_filter.mp (List.mem_of_getLast? hlast)
    obtain ⟨hlastMem, hlastApart⟩ := (mem_kept_iff hkept).mp (List.mem_append_right before hlastAfter)
    have hlastEmpty : last.bytes.size = 0 :=
      size_eq_zero_of_begins_inside hs (h.fits last hlastMem) hlastApart (hafter last hlastAfter)
        (hin.hasByte hn) (of_decide_eq_true hle)
    show last.window? a n = none
    rw [Option.eq_none_iff_forall_ne_some]
    intro bytes hw
    exact Segment.not_includes_of_empty hlastEmpty hn (Segment.window?_eq_some_iff.mp hw).1

/-! ## The old bytes -/

theorem mem_of_segmentFor? (h : image.segmentFor? a = some s) : s ∈ image.segments :=
  (List.takeWhile_sublist _).subset (List.mem_of_getLast? h)

/-- No two segments of an image have a byte at the same place. -/
theorem Orderly.eq_of_hasByte (h : image.Orderly) (hs : s ∈ image.segments)
    (ht : t ∈ image.segments) (hsa : s.HasByte a) (hta : t.HasByte a) : s = t := by
  by_contra hne
  have hapart : s.Apart t := h.apart.forall hs ht hne
  exact hapart.not_overlaps (h.fits s hs) (h.fits t ht) ⟨a, hsa, hta⟩

/-- A read of a segment that is apart from the new one asks it as before. -/
theorem Orderly.segmentFor?_insert_of_apart (h : image.Orderly) (hs : s.Fits)
    (hold : image.segmentFor? a = some old) (hbyte : old.HasByte a) (hapart : old.Apart s) :
    (image.insert s).segmentFor? a = some old := by
  obtain ⟨before, after, hsegments, hkept, hbefore, hafter⟩ := h.exists_insert s
  have hfits : old.Fits := h.fits old (mem_of_segmentFor? hold)
  have hlast : ((before ++ after).filter (·.base ≤ a)).getLast? = some old := by
    rw [h.segmentFor?_eq] at hold
    rw [← hkept, List.filter_comm]
    exact getLast?_filter_of_getLast? hold (decide_eq_true hapart)
  rw [(h.insert hs).segmentFor?_eq, hsegments, List.filter_append, List.filter_cons,
    List.getLast?_append]
  rw [List.filter_append, List.getLast?_append] at hlast
  cases hafterLast : (after.filter (·.base ≤ a)).getLast? with
  | some last =>
    rw [hafterLast, Option.some_or] at hlast
    obtain rfl := Option.some.inj hlast
    split_ifs
    · rw [List.getLast?_cons, hafterLast]
      rfl
    · rw [hafterLast]
      rfl
  | none =>
    rw [hafterLast, Option.none_or] at hlast
    have hlt := hbefore old (List.mem_filter.mp (List.mem_of_getLast? hlast)).1
    have hbehind : ¬ s.base ≤ a := by
      obtain ⟨hlow, hhigh⟩ := hbyte
      rw [Segment.apart_iff hfits hs] at hapart
      rw [Address.lt_iff] at hlt
      rw [Address.le_iff]
      omega
    rw [if_neg (by rwa [decide_eq_true_eq]), hafterLast, Option.none_or, hlast]

/-- **What could be read can still be read** of a segment that shares no byte with the new one,
unless the new one splits it. -/
theorem Orderly.window?_insert_of_not_splits (h : image.Orderly) (hs : s.Fits)
    (hold : image.segmentFor? a = some old) (hw : old.window? a n = some window) (hn : 0 < n)
    (hshare : ¬ old.Overlaps s) (hsplits : ¬ s.Splits old) :
    (image.insert s).window? a n = some window := by
  have hfits : old.Fits := h.fits old (mem_of_segmentFor? hold)
  have hbyte : old.HasByte a := (Segment.window?_eq_some_iff.mp hw).1.hasByte hn
  have hsome : old.bytes.size ≠ 0 := by
    obtain ⟨hlow, hhigh⟩ := hbyte
    omega
  have hapart : old.Apart s := (Segment.apart_or_splits hfits hs hsome hshare).resolve_right hsplits
  unfold window?
  rw [h.segmentFor?_insert_of_apart hs hold hbyte hapart]
  exact hw

/-- A segment that a new one splits is discarded, and no byte of it can be read. -/
theorem Orderly.window?_insert_of_splits (h : image.Orderly) (hs : s.Fits)
    (hold : image.segmentFor? a = some old) (hw : old.window? a n = some window) (hn : 0 < n)
    (hsplits : s.Splits old) : (image.insert s).window? a n = none := by
  have hmem : old ∈ image.segments := mem_of_segmentFor? hold
  have hbyte : old.HasByte a := (Segment.window?_eq_some_iff.mp hw).1.hasByte hn
  rw [Option.eq_none_iff_forall_ne_some]
  intro bytes hnew
  obtain ⟨t, ht, hin, -⟩ := exists_includes_of_window? hnew
  rcases mem_insert_iff.mp ht with rfl | ⟨ht, hapart⟩
  · exact Segment.not_includes_of_empty hsplits.1 hn hin
  · obtain rfl := h.eq_of_hasByte ht hmem (hin.hasByte hn) hbyte
    exact hsplits.not_apart (h.fits t hmem) hs hapart

/-! ## After any segments -/

/-- **Reading after mapping.** After any segments, empty ones among them, one more is mapped. Its
bytes are held, unless an empty segment is at their base; then not one of them can be read. What
could be read of a segment that shares no byte with the new one can still be read, unless the new
one is empty and splits that segment; then it cannot. -/
theorem readBytes_after_map (base : Address) (bytes : List UInt8)
    (hsegments : ∀ s ∈ segments, s.Fits) (himage : image = ofSegments segments)
    (hnew : base.toNat + bytes.length < 0x10000000000000000) :
    (bytes = [] ∨ ¬ image.EmptyAt base → ∀ i n, i + n ≤ bytes.length →
      (image.map base bytes).toMemory.readBytes (base + i) n = .ok ((bytes.drop i).take n)) ∧
    (image.EmptyAt base → ∀ i n, 0 < n → i + n ≤ bytes.length →
      (image.map base bytes).toMemory.readBytes (base + i) n =
        .error (.memoryFault (base + i) n)) ∧
    ∀ old a n window, image.segmentFor? a = some old → old.window? a n = some window → 0 < n →
      ¬ old.Overlaps ⟨base, bytes.toArray⟩ →
      (¬ Segment.Splits ⟨base, bytes.toArray⟩ old →
        (image.map base bytes).toMemory.readBytes a n = .ok window) ∧
      (Segment.Splits ⟨base, bytes.toArray⟩ old →
        (image.map base bytes).toMemory.readBytes a n = .error (.memoryFault a n)) := by
  have horderly : image.Orderly := himage ▸ orderly_ofSegments hsegments
  have hfits : Segment.Fits ⟨base, bytes.toArray⟩ := hnew
  refine ⟨?_, ?_, ?_⟩
  · intro hbase i n hin
    have hholds : (image.map base bytes).toMemory.Holds base bytes :=
      horderly.holds_insert hfits (hbase.imp_left fun hnil => by simp [hnil])
    exact Memory.readBytes_eq_ok_iff.mpr (hholds i n hin)
  · intro hbase i n hn hin
    have hincludes : Segment.Includes ⟨base, bytes.toArray⟩ (base + i) n := by
      have hnat : (base + i).toNat = base.toNat + i := by
        rw [Address.toNat_add]
        omega
      refine ⟨?_, ?_⟩
      · show base.toNat ≤ (base + i).toNat
        omega
      · show (base + i).toNat + n ≤ base.toNat + bytes.toArray.size
        rw [hnat, List.size_toArray]
        omega
    apply Memory.readBytes_eq_fault_iff.mpr
    exact horderly.window?_insert_of_emptyAt hfits hbase hincludes hn
  · intro old a n window hold hw hn hshare
    constructor
    · intro hsplits
      apply Memory.readBytes_eq_ok_iff.mpr
      exact horderly.window?_insert_of_not_splits hfits hold hw hn hshare hsplits
    · intro hsplits
      apply Memory.readBytes_eq_fault_iff.mpr
      exact horderly.window?_insert_of_splits hfits hold hw hn hsplits

/-- Five bytes, and an empty segment behind them. -/
def sampleWithEmpty : List Segment :=
  [⟨⟨0x200⟩, #[5, 6, 7, 8, 9]⟩, ⟨⟨0x300⟩, #[]⟩]

/-- The segment that is mapped at the base of the empty one cannot be read, the others can. -/
theorem readBytes_after_map_sample :
    ((ofSegments sampleWithEmpty).map ⟨0x2fe⟩ [1, 2, 3]).toMemory.readBytes
        (Address.mk 0x2fe + 1) 2 = .ok [2, 3] ∧
      ((ofSegments sampleWithEmpty).map ⟨0x300⟩ [1, 2]).toMemory.readBytes
        (Address.mk 0x300 + 0) 2 = .error (.memoryFault (Address.mk 0x300 + 0) 2) ∧
      ((ofSegments sampleWithEmpty).map ⟨0x300⟩ [1, 2]).toMemory.readBytes ⟨0x201⟩ 2 =
        .ok [6, 7] := by
  have hsegments : ∀ s ∈ sampleWithEmpty, s.Fits := by decide
  obtain ⟨hnew, -, -⟩ := readBytes_after_map ⟨0x2fe⟩ [1, 2, 3] hsegments rfl (by decide)
  obtain ⟨-, hshadowed, hold⟩ := readBytes_after_map ⟨0x300⟩ [1, 2] hsegments rfl (by decide)
  have hshare : ¬ Segment.Overlaps ⟨⟨0x200⟩, #[5, 6, 7, 8, 9]⟩ ⟨⟨0x300⟩, #[1, 2]⟩ :=
    Segment.Apart.not_overlaps (by decide) (by decide) (by decide)
  refine ⟨?_, ?_, ?_⟩
  · exact hnew (.inr (by decide)) 1 2 (by decide)
  · exact hshadowed (by decide) 0 2 (by decide) (by decide)
  · exact (hold _ ⟨0x201⟩ 2 _ rfl rfl (by decide) hshare).1 (by decide)

/-- Neither can all bytes be read that have just been mapped, nor all those that could be read
before and share no place with them. -/
theorem not_readBytes_after_map :
    (¬ ∀ (segments : List Segment) (base : Address) (bytes : List UInt8),
      (∀ s ∈ segments, s.Fits) → base.toNat + bytes.length < 0x10000000000000000 →
      ∀ i n, i + n ≤ bytes.length →
        ((ofSegments segments).map base bytes).toMemory.readBytes (base + i) n =
          .ok ((bytes.drop i).take n)) ∧
    ¬ ∀ (segments : List Segment) (base : Address) (bytes : List UInt8),
      (∀ s ∈ segments, s.Fits) → base.toNat + bytes.length < 0x10000000000000000 →
      ∀ old a n window, (ofSegments segments).segmentFor? a = some old →
        old.window? a n = some window → 0 < n → ¬ old.Overlaps ⟨base, bytes.toArray⟩ →
        ((ofSegments segments).map base bytes).toMemory.readBytes a n = .ok window := by
  constructor
  · intro h
    have hread := h sampleWithEmpty ⟨0x300⟩ [1, 2, 3, 4] (by decide) (by decide) 0 4 (by decide)
    have hreal : ((ofSegments sampleWithEmpty).map ⟨0x300⟩ [1, 2, 3, 4]).toMemory.readBytes
        (Address.mk 0x300 + 0) 4 = .error (.memoryFault (Address.mk 0x300 + 0) 4) := rfl
    rw [hreal] at hread
    cases hread
  · intro h
    have hread := h sampleWithEmpty ⟨0x202⟩ [] (by decide) (by decide) _ ⟨0x200⟩ 2 _ rfl rfl
      (by decide) (Segment.not_overlaps_of_empty rfl)
    have hreal : ((ofSegments sampleWithEmpty).map ⟨0x202⟩ []).toMemory.readBytes ⟨0x200⟩ 2 =
        .error (.memoryFault ⟨0x200⟩ 2) := rfl
    rw [hreal] at hread
    cases hread

end MemoryImage

end CompiledFrames
