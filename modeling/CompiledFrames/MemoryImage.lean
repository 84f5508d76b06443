import CompiledFrames.Memory

/-!
# Memory images

Memory captured as segments in address order. Mapping a segment drops the ones it meets. A read has
to lie in one segment; a window that runs from one segment into the next is not there, just as if a
page between them were missing.

## Main definitions

* `Segment` is a block of bytes with its place.
* `MemoryImage.map` puts a segment into an image.
* `MemoryImage.toMemory` is the read access that an image gives.
-/

namespace CompiledFrames

/-- A block of captured memory. -/
structure Segment where
  base : Address
  bytes : Array UInt8
deriving DecidableEq, Repr, Inhabited

namespace Segment

/-- The place after the last byte, which is the first place of all for a segment that reaches the
end of memory. -/
def stop (segment : Segment) : Address :=
  segment.base + segment.bytes.size

/-- The `n` bytes from an address on, if the segment has them. -/
def window? (segment : Segment) (a : Address) (n : Nat) : Option (List UInt8) :=
  match a.distance? segment.base with
  | some start =>
    if start + n ≤ segment.bytes.size then
      some (segment.bytes.extract start (start + n)).toList
    else none
  | none => none

theorem length_window? {segment : Segment} {a : Address} {n : Nat} {bytes : List UInt8}
    (h : segment.window? a n = some bytes) : bytes.length = n := by
  unfold window? at h
  split at h
  · split at h
    · cases h; simp; omega
    · cases h
  · cases h

/-- Whether a segment ends before `other` begins or begins after it ends. -/
def Apart (segment other : Segment) : Prop :=
  segment.stop ≤ other.base ∨ other.stop ≤ segment.base

instance (segment other : Segment) : Decidable (segment.Apart other) :=
  inferInstanceAs (Decidable (_ ∨ _))

end Segment

/-- Memory captured as segments, in the order of their bases. -/
structure MemoryImage where
  segments : List Segment := []
deriving DecidableEq, Repr, Inhabited

namespace MemoryImage

/-- The image with a segment put in, less the segments it meets. -/
def insert (image : MemoryImage) (segment : Segment) : MemoryImage :=
  let kept := image.segments.filter (·.Apart segment)
  ⟨kept.takeWhile (·.base < segment.base) ++ segment :: kept.dropWhile (·.base < segment.base)⟩

/-- The image with bytes mapped from an address on. -/
def map (image : MemoryImage) (base : Address) (bytes : List UInt8) : MemoryImage :=
  image.insert ⟨base, bytes.toArray⟩

/-- The image of segments mapped one after the other. -/
def ofSegments (segments : List Segment) : MemoryImage :=
  segments.foldl insert {}

/-- The last segment that begins at or before an address. -/
def segmentFor? (image : MemoryImage) (a : Address) : Option Segment :=
  (image.segments.takeWhile (·.base ≤ a)).getLast?

/-- The `n` bytes from an address on, if one segment has them. -/
def window? (image : MemoryImage) (a : Address) (n : Nat) : Option (List UInt8) :=
  (image.segmentFor? a).bind (·.window? a n)

/-- The read access that an image gives. -/
def toMemory (image : MemoryImage) : Memory where
  window? := image.window?
  length_window? h := by
    obtain ⟨segment, _, hw⟩ := Option.bind_eq_some_iff.1 h
    exact Segment.length_window? hw

end MemoryImage

end CompiledFrames
