import CompiledFrames.Proofs.Memory.Holds
import CompiledFrames.Proofs.Text.Utf8

/-!
# Texts in memory

A text in memory has its length before it. Reading replaces what is not well formed, so it gives the
text itself when the bytes are those that write the text.
-/

namespace CompiledFrames.Memory

/-- Memory has a text at an address: its length, which fits into two bytes, and its bytes. -/
structure ShowsText (memory : Memory) (a : Address) (text : String) : Prop where
  length_lt : (Utf8.encode text).length < 0x10000
  shows : memory.Shows a (littleBytes 2 (Utf8.encode text).length ++ Utf8.encode text)
  /-- Behind the length there is a place to read an empty text at. -/
  nothing : Utf8.encode text = [] → memory.window? (a + 2) 0 = some []

/-- A text that memory has is read. -/
theorem ShowsText.readText {memory : Memory} {a : Address} {text : String}
    (h : memory.ShowsText a text) : memory.readText a = .ok text := by
  have hlength : (UInt16.ofNat (Utf8.encode text).length).toNat = (Utf8.encode text).length :=
    UInt16.toNat_ofNat_of_lt' h.length_lt
  have hword : memory.readU16 a = .ok (UInt16.ofNat (Utf8.encode text).length) := by
    apply Shows.readU16
    rw [hlength]
    exact h.shows.left
  have hbytes : memory.readBytes (a + 2) (Utf8.encode text).length = .ok (Utf8.encode text) := by
    by_cases hempty : Utf8.encode text = []
    · rw [hempty, readBytes_eq_ok_iff]
      exact h.nothing hempty
    · have hright := h.shows.right.readBytes hempty
      rwa [length_littleBytes] at hright
  unfold Memory.readText
  rw [hword, Except.ok_bind, hlength, hbytes, Except.ok_bind, Utf8.decodeLossy_encode]
  rfl

end CompiledFrames.Memory
