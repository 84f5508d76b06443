import Mathlib.Data.Set.Insert
import CompiledFrames.Proofs.Memory.Image
import CompiledFrames.Proofs.Ordered

/-!
# Segments over time

What an image has after some segments have been mapped. Its segments lie in the order of their bases
and no two of them share a byte. They are those of a plain account, in which each new segment first
discards all that share a byte with it. A read asks a single segment, and that is the only one which
can have the bytes.

All segments here end before memory does, so that the place after a segment is a number like any
other. The segments of an orderly image may be empty; that they are not is asked for only where it
matters.

## Main definitions

* `Segment.Overlaps`, `Segment.Includes`: two segments share a byte, a segment has a window
* `Segment.Splits`: an empty segment lies between two bytes of another one
* `MemoryImage.Orderly`: segments in the order of their bases, each one apart from the others
* `Segment.account`: the segments that are left when one more is mapped, without any order

## Main results

* `MemoryImage.Orderly.exists_insert`, `MemoryImage.Orderly.insert`: where mapping puts a segment,
  and that the image stays orderly
* `MemoryImage.Orderly.window?_of_includes`: a read finds the segment that has its window
* `MemoryImage.readBytes_ofSegments`: order, account and reads after any segments
-/

namespace CompiledFrames

/-! ## Places of segments -/

namespace Segment

variable {s t : Segment} {a : Address} {n : Nat} {bytes : List UInt8}

/-- The segment ends before memory does. -/
def Fits (s : Segment) : Prop :=
  s.base.toNat + s.bytes.size < 0x10000000000000000

/-- A byte of the segment is at `a`. -/
def HasByte (s : Segment) (a : Address) : Prop :=
  s.base.toNat ≤ a.toNat ∧ a.toNat < s.base.toNat + s.bytes.size

/-- There is a place at which both segments have a byte. -/
def Overlaps (s t : Segment) : Prop :=
  ∃ a, s.HasByte a ∧ t.HasByte a

/-- The segment is empty and lies between two bytes of `t`. -/
def Splits (s t : Segment) : Prop :=
  s.bytes.size = 0 ∧ t.base < s.base ∧ s.base < t.stop

/-- The segment has all of the `n` bytes from `a` on. -/
def Includes (s : Segment) (a : Address) (n : Nat) : Prop :=
  s.base.toNat ≤ a.toNat ∧ a.toNat + n ≤ s.base.toNat + s.bytes.size

instance (s : Segment) : Decidable s.Fits :=
  inferInstanceAs (Decidable (_ < _))

instance (s : Segment) (a : Address) : Decidable (s.HasByte a) :=
  inferInstanceAs (Decidable (_ ∧ _))

instance (s t : Segment) : Decidable (s.Splits t) :=
  inferInstanceAs (Decidable (_ ∧ _))

instance (s : Segment) (a : Address) (n : Nat) : Decidable (s.Includes a n) :=
  inferInstanceAs (Decidable (_ ∧ _))

/-- The `n` bytes from `a` on, for a segment that has them. -/
def part (s : Segment) (a : Address) (n : Nat) : List UInt8 :=
  (s.bytes.toList.drop (a.toNat - s.base.toNat)).take n

/-- The segments that are left when one more is mapped, which discards all that share a byte with
it. -/
def account (live : Set Segment) (s : Segment) : Set Segment :=
  insert s {old ∈ live | ¬ old.Overlaps s}

theorem Includes.hasByte (h : s.Includes a n) (hn : 0 < n) : s.HasByte a := by
  obtain ⟨hlow, hhigh⟩ := h
  exact ⟨hlow, by omega⟩

/-- An empty segment has no byte to give. -/
theorem not_includes_of_empty (hempty : s.bytes.size = 0) (hn : 0 < n) : ¬ s.Includes a n := by
  rintro ⟨hlow, hhigh⟩
  omega

theorem not_overlaps_of_empty (hempty : t.bytes.size = 0) : ¬ s.Overlaps t := by
  rintro ⟨a, -, hlow, hhigh⟩
  omega

theorem toNat_stop (h : s.Fits) : s.stop.toNat = s.base.toNat + s.bytes.size := by
  rw [stop, Address.toNat_add]
  exact Nat.mod_eq_of_lt h

theorem apart_iff (hs : s.Fits) (ht : t.Fits) :
    s.Apart t ↔ s.base.toNat + s.bytes.size ≤ t.base.toNat ∨
      t.base.toNat + t.bytes.size ≤ s.base.toNat := by
  rw [Apart, Address.le_iff, Address.le_iff, toNat_stop hs, toNat_stop ht]

theorem Apart.symm (h : s.Apart t) : t.Apart s :=
  Or.symm h

theorem Apart.not_overlaps (hs : s.Fits) (ht : t.Fits) (h : s.Apart t) : ¬ s.Overlaps t := by
  rintro ⟨a, ⟨hslow, hshigh⟩, htlow, hthigh⟩
  rcases (apart_iff hs ht).mp h with hbefore | hbehind
  · omega
  · omega

/-- A segment with bytes is apart from all with which it shares none, but for an empty one that lies
between two of its bytes. -/
theorem apart_or_splits (hs : s.Fits) (ht : t.Fits) (hsome : s.bytes.size ≠ 0)
    (h : ¬ s.Overlaps t) : s.Apart t ∨ t.Splits s := by
  rw [apart_iff hs ht, Splits, Address.lt_iff, Address.lt_iff, toNat_stop hs]
  by_cases hempty : t.bytes.size = 0
  · omega
  · left
    by_contra hboth
    rcases Nat.le_total s.base.toNat t.base.toNat with hle | hle
    · apply h
      exact ⟨t.base, ⟨by omega, by omega⟩, by omega, by omega⟩
    · apply h
      exact ⟨s.base, ⟨by omega, by omega⟩, by omega, by omega⟩

theorem Splits.not_apart (hs : s.Fits) (ht : t.Fits) (h : t.Splits s) : ¬ s.Apart t := by
  obtain ⟨hempty, hlow, hhigh⟩ := h
  rw [Address.lt_iff] at hlow hhigh
  rw [toNat_stop hs] at hhigh
  rw [apart_iff hs ht]
  omega

theorem apart_iff_not_overlaps (hs : s.Fits) (ht : t.Fits) (hsome : s.bytes.size ≠ 0)
    (htsome : t.bytes.size ≠ 0) : s.Apart t ↔ ¬ s.Overlaps t := by
  constructor
  · exact Apart.not_overlaps hs ht
  · intro h
    rcases apart_or_splits hs ht hsome h with hapart | hsplits
    · exact hapart
    · exact absurd hsplits.1 htsome

/-- A segment gives a window just when it has all of its bytes. -/
theorem window?_eq_some_iff : s.window? a n = some bytes ↔ s.Includes a n ∧ bytes = s.part a n := by
  unfold window? Address.distance? Includes part
  by_cases hle : s.base ≤ a
  · have hle' := Address.le_iff.mp hle
    rw [if_pos hle]
    by_cases hin : a.toNat - s.base.toNat + n ≤ s.bytes.size
    · simp only [if_pos hin, Option.some.injEq, Array.toList_extract, List.extract_eq_take_drop,
        Nat.add_sub_cancel_left]
      constructor
      · rintro rfl
        exact ⟨⟨hle', by omega⟩, rfl⟩
      · rintro ⟨-, rfl⟩
        rfl
    · simp only [if_neg hin, reduceCtorEq, false_iff]
      rintro ⟨⟨-, hin'⟩, -⟩
      omega
  · rw [Address.le_iff] at hle
    simp only [Address.le_iff, if_neg hle, reduceCtorEq, false_iff]
    rintro ⟨⟨hle', -⟩, -⟩
    exact hle hle'

end Segment

namespace MemoryImage

variable {image : MemoryImage} {s t : Segment} {segments : List Segment} {a : Address} {n : Nat}
  {bytes : List UInt8}

/-! ## Mapping -/

/-- The segments lie in the order of their bases, and of any two one ends before the other begins.
-/
structure Orderly (image : MemoryImage) : Prop where
  fits : ∀ s ∈ image.segments, s.Fits
  ordered : image.segments.Pairwise fun s t => s.base ≤ t.base
  apart : image.segments.Pairwise Segment.Apart

theorem orderly_empty : ({} : MemoryImage).Orderly :=
  ⟨nofun, List.Pairwise.nil, List.Pairwise.nil⟩

theorem mem_insert_iff :
    t ∈ (image.insert s).segments ↔ t = s ∨ t ∈ image.segments ∧ t.Apart s := by
  unfold insert
  rw [List.mem_append, List.mem_cons, or_left_comm, ← List.mem_append,
    List.takeWhile_append_dropWhile, List.mem_filter, decide_eq_true_eq]

/-- **Mapping a segment** keeps those apart from it, and puts it between the ones that begin before
it and the others. -/
theorem Orderly.exists_insert (h : image.Orderly) (s : Segment) :
    ∃ before after, (image.insert s).segments = before ++ s :: after ∧
      image.segments.filter (·.Apart s) = before ++ after ∧
      (∀ t ∈ before, t.base < s.base) ∧ ∀ t ∈ after, s.base ≤ t.base := by
  have hbegins : (image.segments.filter (·.Apart s)).Pairwise fun t u =>
      decide (u.base < s.base) → decide (t.base < s.base) := by
    refine (h.ordered.filter _).imp fun {t u} htu => ?_
    simp only [decide_eq_true_eq, Address.lt_iff, Address.le_iff] at htu ⊢
    omega
  refine ⟨_, _, rfl, List.takeWhile_append_dropWhile.symm, ?_, ?_⟩
  · intro t ht
    simpa using List.mem_takeWhile_imp ht
  · intro t ht
    rw [dropWhile_eq_filter hbegins] at ht
    simpa [Address.not_lt] using (List.mem_filter.mp ht).2

theorem mem_kept_iff {kept : List Segment}
    (h : image.segments.filter (·.Apart s) = kept) :
    t ∈ kept ↔ t ∈ image.segments ∧ t.Apart s := by
  rw [← h, List.mem_filter, decide_eq_true_eq]

/-- Mapping keeps an image orderly. -/
theorem Orderly.insert (h : image.Orderly) (hs : s.Fits) : (image.insert s).Orderly := by
  obtain ⟨before, after, hsegments, hkept, hbefore, hafter⟩ := h.exists_insert s
  have hordered : (before ++ after).Pairwise fun t u => t.base ≤ u.base :=
    hkept ▸ h.ordered.filter _
  have hapart : (before ++ after).Pairwise Segment.Apart := hkept ▸ h.apart.filter _
  refine ⟨?_, ?_, ?_⟩
  · intro t ht
    rcases mem_insert_iff.mp ht with rfl | ⟨ht, -⟩
    · exact hs
    · exact h.fits t ht
  · obtain ⟨hfirst, hlast, hacross⟩ := List.pairwise_append.mp hordered
    rw [hsegments, List.pairwise_append]
    refine ⟨hfirst, List.pairwise_cons.mpr ⟨hafter, hlast⟩, ?_⟩
    intro t ht u hu
    rcases List.mem_cons.mp hu with rfl | hu
    · exact Address.le_of_lt (hbefore t ht)
    · exact hacross t ht u hu
  · rw [hsegments, List.perm_middle.pairwise_iff Segment.Apart.symm, List.pairwise_cons]
    refine ⟨?_, hapart⟩
    intro t ht
    exact ((mem_kept_iff hkept).mp ht).2.symm

theorem Orderly.foldl_insert (h : image.Orderly) (hsegments : ∀ s ∈ segments, s.Fits) :
    (segments.foldl MemoryImage.insert image).Orderly := by
  induction segments generalizing image with
  | nil => exact h
  | cons s rest ih =>
    obtain ⟨hs, hrest⟩ := List.forall_mem_cons.mp hsegments
    exact ih (h.insert hs) hrest

/-- An image is orderly whatever has been mapped, as long as it ends before memory does. -/
theorem orderly_ofSegments (h : ∀ s ∈ segments, s.Fits) : (ofSegments segments).Orderly :=
  orderly_empty.foldl_insert h

/-! ## The account -/

/-- The segments of an image, without their order. -/
def live (image : MemoryImage) : Set Segment :=
  {s | s ∈ image.segments}

/-- No segment of the image is empty. -/
def Solid (image : MemoryImage) : Prop :=
  ∀ s ∈ image.segments, s.bytes.size ≠ 0

theorem Solid.insert (h : image.Solid) (hs : s.bytes.size ≠ 0) : (image.insert s).Solid := by
  intro t ht
  rcases mem_insert_iff.mp ht with rfl | ⟨ht, -⟩
  · exact hs
  · exact h t ht

/-- **Mapping a segment with bytes** changes the image as the account says. -/
theorem Orderly.live_insert (h : image.Orderly) (hsolid : image.Solid) (hs : s.Fits)
    (hsome : s.bytes.size ≠ 0) : (image.insert s).live = Segment.account image.live s := by
  ext t
  show t ∈ (image.insert s).segments ↔ t = s ∨ t ∈ image.segments ∧ ¬ t.Overlaps s
  rw [mem_insert_iff]
  refine or_congr_right (and_congr_right fun ht => ?_)
  exact Segment.apart_iff_not_overlaps (h.fits t ht) hs (hsolid t ht) hsome

/-- What mapping segments with bytes comes to, from any orderly image on. -/
theorem Orderly.live_foldl_insert (h : image.Orderly) (hsolid : image.Solid)
    (hsegments : ∀ s ∈ segments, s.Fits ∧ s.bytes.size ≠ 0) :
    (segments.foldl MemoryImage.insert image).Solid ∧
      (segments.foldl MemoryImage.insert image).live =
        segments.foldl Segment.account image.live := by
  induction segments generalizing image with
  | nil => exact ⟨hsolid, rfl⟩
  | cons s rest ih =>
    obtain ⟨⟨hs, hsome⟩, hrest⟩ := List.forall_mem_cons.mp hsegments
    rw [List.foldl_cons, List.foldl_cons, ← h.live_insert hsolid hs hsome]
    exact ih (h.insert hs) (hsolid.insert hsome) hrest

/-! ## Reads -/

/-- A read asks the last segment that begins at or before its address. -/
theorem Orderly.segmentFor?_eq (h : image.Orderly) (a : Address) :
    image.segmentFor? a = (image.segments.filter (·.base ≤ a)).getLast? := by
  unfold segmentFor?
  rw [takeWhile_eq_filter]
  refine h.ordered.imp fun {s t} hst => ?_
  simp only [decide_eq_true_eq, Address.le_iff] at hst ⊢
  omega

/-- Segments with bytes begin only where all earlier ones have ended. -/
theorem Orderly.pairwise_stop (h : image.Orderly) (hsolid : image.Solid) :
    image.segments.Pairwise fun s t => s.base.toNat + s.bytes.size ≤ t.base.toNat := by
  refine (h.ordered.and h.apart).imp_of_mem ?_
  rintro s t hs ht ⟨hle, hapart⟩
  have hsome := hsolid t ht
  rw [Address.le_iff] at hle
  rcases (Segment.apart_iff (h.fits s hs) (h.fits t ht)).mp hapart with hbefore | hbehind
  · exact hbefore
  · omega

/-- What a read gives is in one of the segments. -/
theorem exists_includes_of_window? (h : image.window? a n = some bytes) :
    ∃ s ∈ image.segments, s.Includes a n ∧ bytes = s.part a n := by
  obtain ⟨s, hs, hw⟩ := Option.bind_eq_some_iff.mp h
  have hmem : s ∈ image.segments :=
    (List.takeWhile_sublist _).subset (List.mem_of_getLast? hs)
  exact ⟨s, hmem, Segment.window?_eq_some_iff.mp hw⟩

/-- **A read finds its segment**: if one has all the bytes, they are what the read gives. -/
theorem Orderly.window?_of_includes (h : image.Orderly) (hsolid : image.Solid)
    (hs : s ∈ image.segments) (hin : s.Includes a n) : image.window? a n = some (s.part a n) := by
  have hbegun : s ∈ image.segments.filter (·.base ≤ a) := by
    rw [List.mem_filter, decide_eq_true_eq, Address.le_iff]
    exact ⟨hs, hin.1⟩
  unfold window?
  rw [h.segmentFor?_eq]
  cases hlast : (image.segments.filter (·.base ≤ a)).getLast? with
  | none =>
    rw [List.getLast?_eq_none_iff.mp hlast] at hbegun
    cases hbegun
  | some last =>
    rw [Option.bind_some, Segment.window?_eq_some_iff]
    rcases eq_or_rel_of_getLast? ((h.pairwise_stop hsolid).filter _) hbegun hlast with rfl | hbehind
    · exact ⟨hin, rfl⟩
    · -- a later segment is asked for no bytes only, where `s` ends and that one begins
      have hle := (List.mem_filter.mp (List.mem_of_getLast? hlast)).2
      rw [decide_eq_true_eq, Address.le_iff] at hle
      obtain ⟨hlow, hhigh⟩ := hin
      obtain rfl : n = 0 := by omega
      exact ⟨⟨hle, by omega⟩, by simp [Segment.part]⟩

/-- **An image after any segments** that have bytes and end before memory does. They lie in the
order of their bases and no two of them share a byte. They are those that the account gives. A read
gives the bytes of a segment that has all of them, and it fails just when there is none. -/
theorem readBytes_ofSegments (h : ∀ s ∈ segments, s.Fits ∧ s.bytes.size ≠ 0) :
    ((ofSegments segments).segments.Pairwise fun s t => s.base < t.base) ∧
    ((ofSegments segments).segments.Pairwise fun s t => ¬ s.Overlaps t) ∧
    (ofSegments segments).live = segments.foldl Segment.account ∅ ∧
    ∀ a n,
      (∀ s ∈ (ofSegments segments).segments, s.Includes a n →
        (ofSegments segments).toMemory.readBytes a n = .ok (s.part a n)) ∧
      ((ofSegments segments).toMemory.readBytes a n = .error (.memoryFault a n) ↔
        ∀ s ∈ (ofSegments segments).segments, ¬ s.Includes a n) := by
  have horderly : (ofSegments segments).Orderly := orderly_ofSegments fun s hs => (h s hs).1
  obtain ⟨hsolid, hlive⟩ : (ofSegments segments).Solid ∧
      (ofSegments segments).live = segments.foldl Segment.account ({} : MemoryImage).live :=
    orderly_empty.live_foldl_insert nofun h
  have hempty : ({} : MemoryImage).live = ∅ := by
    ext s
    simp [live]
  refine ⟨?_, ?_, ?_, ?_⟩
  · refine (horderly.pairwise_stop hsolid).imp_of_mem fun {s t} hs _ hst => ?_
    have hsome := hsolid s hs
    rw [Address.lt_iff]
    omega
  · refine horderly.apart.imp_of_mem fun {s t} hs ht hst => ?_
    exact hst.not_overlaps (horderly.fits s hs) (horderly.fits t ht)
  · rw [hlive, hempty]
  · intro a n
    constructor
    · intro s hs hin
      exact Memory.readBytes_eq_ok_iff.mpr (horderly.window?_of_includes hsolid hs hin)
    · rw [Memory.readBytes_eq_fault_iff]
      constructor
      · intro hnone s hs hin
        have hsome : (ofSegments segments).toMemory.window? a n = some (s.part a n) :=
          horderly.window?_of_includes hsolid hs hin
        rw [hnone] at hsome
        cases hsome
      · intro hall
        rw [Option.eq_none_iff_forall_ne_some]
        intro bytes hw
        obtain ⟨s, hs, hin, -⟩ := exists_includes_of_window? hw
        exact hall s hs hin

/-- The third segment discards the first one, and the last one begins where the third one ends. -/
def sampleSegments : List Segment :=
  [⟨⟨0x100⟩, #[1, 1, 1, 1, 1, 1, 1, 1]⟩, ⟨⟨0x200⟩, #[2, 2]⟩, ⟨⟨0x104⟩, #[3, 4, 5, 6]⟩,
    ⟨⟨0x108⟩, #[7, 8]⟩]

theorem readBytes_ofSegments_sample :
    (ofSegments sampleSegments).toMemory.readBytes ⟨0x105⟩ 2 = .ok [4, 5] ∧
      (ofSegments sampleSegments).toMemory.readBytes ⟨0x106⟩ 4 =
        .error (.memoryFault ⟨0x106⟩ 4) ∧
      ⟨⟨0x100⟩, #[1, 1, 1, 1, 1, 1, 1, 1]⟩ ∉ sampleSegments.foldl Segment.account ∅ := by
  have h : ∀ s ∈ sampleSegments, s.Fits ∧ s.bytes.size ≠ 0 := by decide
  have hsegments : (ofSegments sampleSegments).segments =
      [⟨⟨0x104⟩, #[3, 4, 5, 6]⟩, ⟨⟨0x108⟩, #[7, 8]⟩, ⟨⟨0x200⟩, #[2, 2]⟩] := by decide
  obtain ⟨-, -, hlive, hread⟩ := readBytes_ofSegments h
  refine ⟨?_, ?_, ?_⟩
  · exact (hread ⟨0x105⟩ 2).1 ⟨⟨0x104⟩, #[3, 4, 5, 6]⟩ (by simp [hsegments]) (by decide)
  · rw [(hread ⟨0x106⟩ 4).2, hsegments]
    decide
  · rw [← hlive]
    simp [live, hsegments]

end MemoryImage

end CompiledFrames
