import Mathlib.Data.List.TakeWhile
import CompiledFrames.MemoryImage
import CompiledFrames.Proofs.Memory.Holds

/-!
# What an image holds

A read of an image looks at the last segment that begins at or before its address. So an image holds
the bytes of each of its segments, as long as the segments before it do not begin after it and those
after it begin past its end.

## Main definitions

* `MemoryImage.MapsAt`: one segment has some bytes at an address, and reads of them look at it

## Main results

* `MemoryImage.holds_of_segments`: the bytes of a segment between others
* `MemoryImage.MapsAt.shows`: bytes that are mapped are read, up to the very end of memory
* `MemoryImage.holds_map_empty`: the bytes that were mapped into an empty image
-/

namespace CompiledFrames

/-- A segment has each of its windows that begins below the end of memory. -/
theorem Segment.window?_add {segment : Segment} {i n : Nat}
    (hend : segment.base.toNat + i < 0x10000000000000000) (hin : i + n ≤ segment.bytes.size) :
    segment.window? (segment.base + i) n = some ((segment.bytes.toList.drop i).take n) := by
  have hnat : (segment.base + i).toNat = segment.base.toNat + i := by
    rw [Address.toNat_add]
    omega
  have hle : segment.base ≤ segment.base + i := by
    rw [Address.le_iff, hnat]
    omega
  unfold window? Address.distance?
  rw [if_pos hle, hnat, Nat.add_sub_cancel_left]
  simp only [if_pos hin, Option.some.injEq]
  rw [Array.toList_extract, List.extract_eq_take_drop, Nat.add_sub_cancel_left]

/-- No byte can be read of any segment, at the place where it begins. -/
theorem Segment.window?_base_zero (segment : Segment) :
    segment.window? segment.base 0 = some [] := by
  simp [window?, Address.distance?]

namespace MemoryImage

variable {before after : List Segment} {segment : Segment}

/-- A read inside or at the end of `segment` looks at that segment, unless one of those after it
begins there already. -/
theorem segmentFor?_add {i : Nat} (hbefore : ∀ s ∈ before, s.base ≤ segment.base)
    (hend : segment.base.toNat + i < 0x10000000000000000) :
    (MemoryImage.mk (before ++ segment :: after)).segmentFor? (segment.base + i) =
      some ((after.takeWhile (·.base ≤ segment.base + i)).getLast?.getD segment) := by
  have hall : ∀ s ∈ before ++ [segment], decide (s.base ≤ segment.base + i) = true := by
    intro s hs
    rw [decide_eq_true_eq, Address.le_iff, Address.toNat_add]
    rcases List.mem_append.mp hs with hs | hs
    · have h := Address.le_iff.mp (hbefore s hs)
      omega
    · obtain rfl := List.mem_singleton.mp hs
      omega
  have hsplit : before ++ segment :: after = (before ++ [segment]) ++ after := by simp
  unfold segmentFor?
  rw [hsplit, List.takeWhile_append_of_pos hall, List.getLast?_append, List.getLast?_concat]
  cases (after.takeWhile (·.base ≤ segment.base + i)).getLast? <;> rfl

/-- **An image holds the bytes of a segment** that ends before the next one begins. -/
theorem holds_of_segments (hbefore : ∀ s ∈ before, s.base ≤ segment.base)
    (hafter : ∀ s ∈ after, segment.base.toNat + segment.bytes.size ≤ s.base.toNat)
    (hend : segment.base.toNat + segment.bytes.size < 0x10000000000000000) :
    (MemoryImage.mk (before ++ segment :: after)).toMemory.Holds segment.base
      segment.bytes.toList := by
  intro i n hin
  rw [Array.length_toList] at hin
  show ((MemoryImage.mk (before ++ segment :: after)).segmentFor? (segment.base + i)).bind _ = _
  rw [segmentFor?_add hbefore (by omega), Option.bind_some]
  have hwindow : segment.window? (segment.base + i) n =
      some ((segment.bytes.toList.drop i).take n) := Segment.window?_add (by omega) hin
  cases hlast : (after.takeWhile (·.base ≤ segment.base + i)).getLast? with
  | none => exact hwindow
  | some s =>
    have hmem := List.mem_of_getLast? hlast
    have hge := hafter s ((List.takeWhile_sublist _).subset hmem)
    have hle : s.base ≤ segment.base + i := by
      have hp := List.all_eq_true.mp List.all_takeWhile s hmem
      simpa using hp
    rw [Address.le_iff, Address.toNat_add] at hle
    have hbase : segment.base + i = s.base := by
      ext
      rw [Address.toNat_add]
      omega
    obtain rfl : n = 0 := by omega
    simp [hbase, Segment.window?_base_zero]

/-- An image into which nothing else is mapped holds the bytes that are. -/
theorem holds_map_empty (base : Address) (bytes : List UInt8)
    (hend : base.toNat + bytes.length < 0x10000000000000000) :
    (({} : MemoryImage).map base bytes).toMemory.Holds base bytes := by
  have h : (MemoryImage.mk ([] ++ ⟨base, bytes.toArray⟩ :: [])).toMemory.Holds base
      bytes.toArray.toList := holds_of_segments nofun nofun (by simpa using hend)
  rwa [List.toList_toArray] at h

/-! ## Bytes in one segment -/

theorem base_le_of_segmentFor? {image : MemoryImage} {a : Address}
    (h : image.segmentFor? a = some segment) : segment.base ≤ a := by
  have hle := List.mem_takeWhile_imp (List.mem_of_getLast? h)
  rwa [decide_eq_true_eq] at hle

/-- One segment has these bytes from an address on, wherever it begins, and a read at the place of
each of them looks at that segment. -/
def MapsAt (image : MemoryImage) (a : Address) (bytes : List UInt8) : Prop :=
  ∃ segment : Segment, ∃ offset : Nat, segment.bytes.size < 0x10000000000000000 ∧
    a.toNat = segment.base.toNat + offset ∧ bytes <+: segment.bytes.toList.drop offset ∧
    ∀ i < bytes.length, image.segmentFor? (a + i) = some segment

/-- Bytes in one segment do not run past the end of memory. -/
theorem MapsAt.toNat_add_lt {image : MemoryImage} {a : Address} {bytes : List UInt8}
    (h : image.MapsAt a bytes) {i : Nat} (hi : i < bytes.length) :
    a.toNat + i < 0x10000000000000000 := by
  obtain ⟨segment, offset, hsize, hplace, hbytes, hlook⟩ := h
  have hlength := hbytes.length_le
  rw [List.length_drop, segment.bytes.length_toList] at hlength
  have ha := a.toNat_lt
  by_contra hpast
  -- else one of the bytes is at address zero, so that the segment begins there and is too large
  have hzero := base_le_of_segmentFor? (hlook (0x10000000000000000 - a.toNat) (by omega))
  rw [Address.le_iff, Address.toNat_add] at hzero
  omega

/-- **Bytes that are mapped are read**: the image has each of their windows. -/
theorem MapsAt.shows {image : MemoryImage} {a : Address} {bytes : List UInt8}
    (h : image.MapsAt a bytes) : image.toMemory.Shows a bytes := by
  intro i n hi hin
  have hnat := h.toNat_add_lt hi
  obtain ⟨segment, offset, -, hplace, ⟨rest, hrest⟩, hlook⟩ := h
  have hsize : offset + bytes.length ≤ segment.bytes.size := by
    have hlength := congrArg List.length hrest
    rw [List.length_append, List.length_drop, segment.bytes.length_toList] at hlength
    omega
  have hadd : a + i = segment.base + (offset + i) := by
    ext
    rw [Address.toNat_add, Address.toNat_add, hplace, Nat.add_assoc]
  show (image.segmentFor? (a + i)).bind _ = _
  rw [hlook i hi, Option.bind_some, hadd, Segment.window?_add (by omega) (by omega),
    ← List.drop_drop, ← hrest, List.drop_append_of_le_length (by omega),
    List.take_append_of_le_length (by rw [List.length_drop]; omega)]

/-- The bytes of a segment that ends before the next one begins are mapped. -/
theorem mapsAt_of_segments (hbefore : ∀ s ∈ before, s.base ≤ segment.base)
    (hafter : ∀ s ∈ after, segment.base.toNat + segment.bytes.size ≤ s.base.toNat)
    (hsize : segment.bytes.size < 0x10000000000000000)
    (hend : segment.base.toNat + segment.bytes.size ≤ 0x10000000000000000) :
    (MemoryImage.mk (before ++ segment :: after)).MapsAt segment.base segment.bytes.toList := by
  refine ⟨segment, 0, hsize, rfl, List.prefix_rfl, fun i hi => ?_⟩
  rw [segment.bytes.length_toList] at hi
  have hnone : after.takeWhile (·.base ≤ segment.base + i) = [] := by
    cases after with
    | nil => rfl
    | cons s rest =>
      have hge := hafter s List.mem_cons_self
      refine List.takeWhile_cons_of_neg ?_
      rw [decide_eq_true_eq, Address.le_iff, Address.toNat_add]
      omega
  rw [segmentFor?_add hbefore (by omega), hnone]
  rfl

/-- Bytes that fit before the end of memory are mapped into an image without others. -/
theorem mapsAt_map_empty (base : Address) (bytes : List UInt8)
    (hsize : bytes.length < 0x10000000000000000)
    (hend : base.toNat + bytes.length ≤ 0x10000000000000000) :
    (({} : MemoryImage).map base bytes).MapsAt base bytes := by
  have h : (MemoryImage.mk ([] ++ ⟨base, bytes.toArray⟩ :: [])).MapsAt base
      bytes.toArray.toList :=
    mapsAt_of_segments nofun nofun (by simpa using hsize) (by simpa using hend)
  rwa [List.toList_toArray] at h

end MemoryImage

end CompiledFrames
