import Mathlib.Data.List.Induction
import CompiledFrames.Proofs.Memory.Segments

/-!
# Segments that reach the end of memory

A segment may end with the last byte that there is. The place after that byte is the first place of
all, so that such a segment seems to end before every other one begins, and mapping takes it to be
apart from all. It is never discarded and discards nothing. Whether another segment is discarded is a
matter of the two alone, so that an image has the segments that no later one discards, and two of
these share a byte only where one of them reaches the end of memory.

## Main definitions

* `Segment.InMemory`, `Segment.ReachesEnd`: a segment does not go past the last byte, and has it
* `Segment.Discards`: mapping a segment discards another one
* `Segment.kept`: the segments that no later one discards

## Main results

* `Segment.not_apart_iff`: which segments mapping takes to meet
* `MemoryImage.perm_ofSegments`: the segments of an image are those that are kept
* `MemoryImage.overlaps_ofSegments`: when no two segments of an image share a byte, and when mapping
  discards an older one
-/

namespace CompiledFrames

namespace Segment

variable {s t : Segment} {segments : List Segment}

/-- The segment does not go past the last byte of memory, as no empty one does. -/
def InMemory (s : Segment) : Prop :=
  s.bytes.size ≠ 0 → s.base.toNat + s.bytes.size ≤ 0x10000000000000000

/-- The last byte of memory is in the segment. -/
def ReachesEnd (s : Segment) : Prop :=
  s.base.toNat + s.bytes.size = 0x10000000000000000

/-- Mapping `s` discards `t`: both end before memory does, and neither ends before the other begins.
-/
def Discards (s t : Segment) : Prop :=
  s.Fits ∧ t.Fits ∧ s.base.toNat < t.base.toNat + t.bytes.size ∧
    t.base.toNat < s.base.toNat + s.bytes.size

instance (s : Segment) : Decidable s.InMemory :=
  inferInstanceAs (Decidable (_ → _))

instance (s : Segment) : Decidable s.ReachesEnd :=
  inferInstanceAs (Decidable (_ = _))

instance (s t : Segment) : Decidable (s.Discards t) :=
  inferInstanceAs (Decidable (_ ∧ _))

/-- Of segments that are mapped one after the other, those that no later one discards. -/
def kept : List Segment → List Segment
  | [] => []
  | s :: later => if ∃ t ∈ later, t.Discards s then kept later else s :: kept later

theorem fits_or_reachesEnd (h : s.InMemory) : s.Fits ∨ s.ReachesEnd := by
  have hbase := s.base.toNat_lt
  unfold Fits ReachesEnd
  by_cases hempty : s.bytes.size = 0
  · omega
  · have hend := h hempty
    omega

theorem fits_iff_not_reachesEnd (h : s.InMemory) : s.Fits ↔ ¬ s.ReachesEnd := by
  rcases fits_or_reachesEnd h with hfits | hend
  · refine iff_of_true hfits ?_
    unfold Fits at hfits
    unfold ReachesEnd
    omega
  · refine iff_of_false ?_ (not_not_intro hend)
    unfold ReachesEnd at hend
    unfold Fits
    omega

/-- Behind the last byte of memory comes the first one. -/
theorem toNat_stop_of_reachesEnd (h : s.ReachesEnd) : s.stop.toNat = 0 := by
  rw [stop, Address.toNat_add, h, Nat.mod_self]

/-- A segment that reaches the end of memory is taken to be apart from all others. -/
theorem apart_of_reachesEnd (h : s.ReachesEnd ∨ t.ReachesEnd) : s.Apart t := by
  unfold Apart
  rw [Address.le_iff, Address.le_iff]
  rcases h with h | h
  · left
    rw [toNat_stop_of_reachesEnd h]
    exact Nat.zero_le _
  · right
    rw [toNat_stop_of_reachesEnd h]
    exact Nat.zero_le _

/-- **Which segments mapping takes to meet**: an older one that is not apart from the new one is
discarded. -/
theorem not_apart_iff (hs : s.InMemory) (ht : t.InMemory) : ¬ t.Apart s ↔ s.Discards t := by
  constructor
  · intro h
    have hfits : ∀ {u : Segment}, u.InMemory → ¬ u.ReachesEnd → u.Fits := fun hu hend =>
      (fits_iff_not_reachesEnd hu).mpr hend
    have hsfits : s.Fits := hfits hs fun hend => h (apart_of_reachesEnd (.inr hend))
    have htfits : t.Fits := hfits ht fun hend => h (apart_of_reachesEnd (.inl hend))
    rw [apart_iff htfits hsfits] at h
    exact ⟨hsfits, htfits, by omega, by omega⟩
  · rintro ⟨hsfits, htfits, hlow, hhigh⟩
    rw [apart_iff htfits hsfits]
    omega

/-- Segments that share a byte begin before each other's end. -/
theorem Overlaps.discards_iff (h : t.Overlaps s) (hs : s.InMemory) (ht : t.InMemory) :
    s.Discards t ↔ ¬ t.ReachesEnd ∧ ¬ s.ReachesEnd := by
  obtain ⟨a, ⟨htlow, hthigh⟩, hslow, hshigh⟩ := h
  rw [← fits_iff_not_reachesEnd hs, ← fits_iff_not_reachesEnd ht]
  constructor
  · rintro ⟨hsfits, htfits, -⟩
    exact ⟨htfits, hsfits⟩
  · rintro ⟨htfits, hsfits⟩
    exact ⟨hsfits, htfits, by omega, by omega⟩

theorem Overlaps.symm (h : s.Overlaps t) : t.Overlaps s := by
  obtain ⟨a, hs, ht⟩ := h
  exact ⟨a, ht, hs⟩

/-- Keeping the segments that are apart is leaving out those that are discarded. -/
theorem filter_apart (hs : s.InMemory) (h : ∀ t ∈ segments, t.InMemory) :
    segments.filter (·.Apart s) = segments.filter (¬ s.Discards ·) := by
  apply List.filter_congr
  intro t ht
  rw [decide_eq_decide, ← not_apart_iff hs (h t ht), not_not]

/-! ## Segments that are kept -/

theorem kept_subset : ∀ s ∈ kept segments, s ∈ segments := by
  induction segments with
  | nil => nofun
  | cons s later ih =>
    intro t ht
    rw [kept] at ht
    split_ifs at ht
    · exact List.mem_cons_of_mem _ (ih t ht)
    · rcases List.mem_cons.mp ht with rfl | ht
      · exact List.mem_cons_self
      · exact List.mem_cons_of_mem _ (ih t ht)

/-- One more segment is kept, and discards some of those that were. -/
theorem kept_concat (segments : List Segment) (s : Segment) :
    kept (segments ++ [s]) = (kept segments).filter (¬ s.Discards ·) ++ [s] := by
  induction segments with
  | nil => rfl
  | cons t later ih =>
    have hlater : (∃ u ∈ later ++ [s], u.Discards t) ↔
        (∃ u ∈ later, u.Discards t) ∨ s.Discards t := by
      simp [or_and_right, exists_or]
    rw [List.cons_append, kept, kept, ih]
    by_cases hdiscarded : ∃ u ∈ later, u.Discards t
    · rw [if_pos (hlater.mpr (.inl hdiscarded)), if_pos hdiscarded]
    · rw [if_neg hdiscarded]
      by_cases hlast : s.Discards t
      · rw [if_pos (hlater.mpr (.inr hlast)), List.filter_cons_of_neg (by simpa using hlast)]
      · rw [if_neg fun h => (hlater.mp h).elim hdiscarded hlast,
          List.filter_cons_of_pos (by simpa using hlast), List.cons_append]

/-- Of two segments that are kept the later one does not discard the other. -/
theorem pairwise_kept (segments : List Segment) :
    (kept segments).Pairwise fun s t => ¬ t.Discards s := by
  induction segments with
  | nil => exact List.Pairwise.nil
  | cons s later ih =>
    rw [kept]
    split_ifs with h
    · exact ih
    · refine List.pairwise_cons.mpr ⟨?_, ih⟩
      intro t ht hdiscards
      exact h ⟨t, kept_subset t ht, hdiscards⟩

end Segment

namespace MemoryImage

variable {image : MemoryImage} {s : Segment} {segments : List Segment}

/-- The segments of an image into which one more is mapped, whatever their order. -/
theorem perm_insert (image : MemoryImage) (s : Segment) :
    (image.insert s).segments.Perm (s :: image.segments.filter (·.Apart s)) := by
  unfold insert
  refine List.perm_middle.trans (List.Perm.cons s ?_)
  rw [List.takeWhile_append_dropWhile]

theorem mem_ofSegments (h : s ∈ (ofSegments segments).segments) : s ∈ segments := by
  induction segments using List.reverseRecOn with
  | nil => cases h
  | append_singleton segments t ih =>
    rw [ofSegments, List.foldl_append] at h
    rcases mem_insert_iff.mp h with rfl | ⟨hold, -⟩
    · exact List.mem_concat_self
    · exact List.mem_append_left _ (ih hold)

/-- **What an image has** after any segments: those that no later one discards. -/
theorem perm_ofSegments (h : ∀ s ∈ segments, s.InMemory) :
    (ofSegments segments).segments.Perm (Segment.kept segments) := by
  induction segments using List.reverseRecOn with
  | nil => exact List.Perm.nil
  | append_singleton segments s ih =>
    obtain ⟨hsegments, hs⟩ := List.forall_mem_append.mp h
    have hlast : s.InMemory := hs s List.mem_cons_self
    have hkept : ∀ t ∈ Segment.kept segments, t.InMemory := fun t ht =>
      hsegments t (Segment.kept_subset t ht)
    rw [ofSegments, List.foldl_append, Segment.kept_concat, ← Segment.filter_apart hlast hkept]
    refine (perm_insert _ s).trans ?_
    refine List.Perm.trans ?_ (List.perm_append_singleton s _).symm
    exact ((ih hsegments).filter _).cons s

/-- **Segments up to the end of memory.** After any segments, an image has just those that no later
one discards. No two of them share a byte just when no two do of which one reaches the end of
memory. When one more segment is mapped, it is put in and those that it discards are left out. So an
older segment that shares a byte with it is replaced as a whole just when neither of the two reaches
the end of memory. -/
theorem overlaps_ofSegments (h : ∀ s ∈ segments, s.InMemory) :
    (ofSegments segments).segments.Perm (Segment.kept segments) ∧
    ((ofSegments segments).segments.Pairwise (fun s t => ¬ s.Overlaps t) ↔
      (Segment.kept segments).Pairwise fun s t =>
        s.ReachesEnd ∨ t.ReachesEnd → ¬ s.Overlaps t) ∧
    ∀ new : Segment, new.InMemory →
      ((ofSegments segments).insert new).segments.Perm
          (new :: (ofSegments segments).segments.filter (¬ new.Discards ·)) ∧
        ∀ old ∈ (ofSegments segments).segments, old.Overlaps new →
          (new.Discards old ↔ ¬ old.ReachesEnd ∧ ¬ new.ReachesEnd) := by
  have hperm := perm_ofSegments h
  have hstored : ∀ s ∈ (ofSegments segments).segments, s.InMemory := fun s hs =>
    h s (mem_ofSegments hs)
  refine ⟨hperm, ?_, ?_⟩
  · rw [hperm.pairwise_iff fun {s t} hnot hshare => hnot hshare.symm]
    constructor
    · intro hall
      refine hall.imp ?_
      intro s t hnot _
      exact hnot
    · intro hend
      refine (hend.and (Segment.pairwise_kept segments)).imp_of_mem ?_
      rintro s t hs ht ⟨hnot, hkept⟩ hshare
      apply hkept
      rw [hshare.discards_iff (h t (Segment.kept_subset t ht)) (h s (Segment.kept_subset s hs)),
        ← not_or]
      exact fun hends => hnot hends hshare
  · intro new hnew
    constructor
    · rw [← Segment.filter_apart hnew hstored]
      exact perm_insert _ new
    · intro old hold hshare
      exact hshare.discards_iff hnew (hstored old hold)

/-- The second segment has the last byte of memory, and the third one discards the first. -/
def sampleToEnd : List Segment :=
  [⟨⟨0xffffffffffffffe8⟩, #[1, 1, 1, 1, 1, 1, 1, 1]⟩, ⟨⟨0xfffffffffffffffc⟩, #[2, 2, 2, 2]⟩,
    ⟨⟨0xffffffffffffffec⟩, #[3, 3, 3, 3, 3, 3, 3, 3]⟩]

/-- Up to the end of memory no two segments share a byte here; one that is mapped over the last one
does not replace it. -/
theorem overlaps_ofSegments_sample :
    ((ofSegments sampleToEnd).segments.Pairwise fun s t => ¬ s.Overlaps t) ∧
      (ofSegments sampleToEnd).segments.length = 2 ∧
      ¬ Segment.Discards ⟨⟨0xfffffffffffffffe⟩, #[4]⟩ ⟨⟨0xfffffffffffffffc⟩, #[2, 2, 2, 2]⟩ := by
  have h : ∀ s ∈ sampleToEnd, s.InMemory := by decide
  have hkept : Segment.kept sampleToEnd =
      [⟨⟨0xfffffffffffffffc⟩, #[2, 2, 2, 2]⟩,
        ⟨⟨0xffffffffffffffec⟩, #[3, 3, 3, 3, 3, 3, 3, 3]⟩] := by decide
  obtain ⟨hperm, hpairwise, hmap⟩ := overlaps_ofSegments h
  refine ⟨?_, ?_, ?_⟩
  · rw [hpairwise, hkept, List.pairwise_pair]
    rintro - ⟨a, ⟨hlow, -⟩, -, hhigh⟩
    exact absurd (Nat.lt_of_le_of_lt hlow hhigh) (by decide)
  · rw [hperm.length_eq, hkept]
    rfl
  · have hmem : ⟨⟨0xfffffffffffffffc⟩, #[2, 2, 2, 2]⟩ ∈ (ofSegments sampleToEnd).segments := by
      rw [hperm.mem_iff, hkept]
      exact List.mem_cons_self
    obtain ⟨-, hdiscards⟩ := hmap ⟨⟨0xfffffffffffffffe⟩, #[4]⟩ (by decide)
    rw [hdiscards _ hmem ⟨⟨0xfffffffffffffffe⟩, by decide, by decide⟩]
    exact fun h => h.1 (by decide)

/-- **Segments share bytes at the end of memory**: it is false that no two segments of an image share
a byte, and that mapping a segment replaces each older one that shares a byte with it. -/
theorem not_pairwise_ofSegments :
    (¬ ∀ segments : List Segment, (∀ s ∈ segments, s.InMemory) →
      (ofSegments segments).segments.Pairwise fun s t => ¬ s.Overlaps t) ∧
    ¬ ∀ (segments : List Segment) (new : Segment), (∀ s ∈ segments, s.InMemory) → new.InMemory →
      ∀ old ∈ (ofSegments segments).segments, old.Overlaps new →
        old ∉ ((ofSegments segments).insert new).segments := by
  constructor
  · intro h
    have hstored := h [⟨⟨0xfffffffffffffff0⟩, #[1, 1, 1, 1, 1, 1, 1, 1]⟩,
      ⟨⟨0xfffffffffffffff4⟩, #[2, 2, 2, 2, 2, 2, 2, 2, 2, 2, 2, 2]⟩] (by decide)
    have hshare := List.rel_of_pairwise_cons hstored List.mem_cons_self
    exact hshare ⟨⟨0xfffffffffffffff4⟩, by decide, by decide⟩
  · intro h
    have hreplaced := h [⟨⟨0xfffffffffffffff0⟩, #[1, 1, 1, 1, 1, 1, 1, 1, 1, 1, 1, 1, 1, 1, 1, 1]⟩]
      ⟨⟨0xfffffffffffffff8⟩, #[2, 2, 2, 2]⟩ (by decide) (by decide) _ List.mem_cons_self
      ⟨⟨0xfffffffffffffff8⟩, by decide, by decide⟩
    exact hreplaced (by decide)

end MemoryImage

end CompiledFrames
