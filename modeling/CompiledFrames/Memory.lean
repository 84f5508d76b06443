import CompiledFrames.Error
import CompiledFrames.Text.Utf8

/-!
# Memory

The memory of the inspected process, seen through reads of windows. A read gives all the bytes it
asks for or a memory fault; numbers lie in memory with their least byte first.

## Main definitions

* `Memory` is anything that answers reads of windows.
* `Memory.readBytes` and `Memory.readU8` to `Memory.readU64` read, or fail with a memory fault.
* `Memory.readText` reads a text that has its length before it.
-/

namespace CompiledFrames

/-- The number that bytes write, least byte first. -/
def littleEndian : List UInt8 → Nat
  | [] => 0
  | b :: rest => b.toNat + 256 * littleEndian rest

@[simp] theorem littleEndian_nil : littleEndian [] = 0 := rfl

/-- Read access to the memory of a process. A window that can be read has as many bytes as were
asked for. -/
structure Memory where
  /-- The `n` bytes from an address on, if all of them can be read. -/
  window? : Address → Nat → Option (List UInt8)
  length_window? : ∀ {a n bytes}, window? a n = some bytes → bytes.length = n

namespace Memory

/-- The memory of which no byte can be read. -/
def unreadable : Memory :=
  ⟨fun _ _ => none, nofun⟩

instance : Inhabited Memory := ⟨unreadable⟩

/-- The `n` bytes from an address on. -/
def readBytes (memory : Memory) (a : Address) (n : Nat) : Except Error (List UInt8) :=
  match memory.window? a n with
  | some bytes => .ok bytes
  | none => .error (.memoryFault a n)

/-- The number of `n` bytes at an address. -/
def readNat (memory : Memory) (a : Address) (n : Nat) : Except Error Nat :=
  (memory.readBytes a n).map littleEndian

/-- The byte at an address. -/
def readU8 (memory : Memory) (a : Address) : Except Error UInt8 :=
  (memory.readNat a 1).map UInt8.ofNat

/-- The number of two bytes at an address. -/
def readU16 (memory : Memory) (a : Address) : Except Error UInt16 :=
  (memory.readNat a 2).map UInt16.ofNat

/-- The number of four bytes at an address. -/
def readU32 (memory : Memory) (a : Address) : Except Error UInt32 :=
  (memory.readNat a 4).map UInt32.ofNat

/-- The number of eight bytes at an address. -/
def readU64 (memory : Memory) (a : Address) : Except Error UInt64 :=
  (memory.readNat a 8).map UInt64.ofNat

/-- The text at an address: two bytes with its length in bytes, then UTF-8 in which ill-formed parts
are replaced. -/
def readText (memory : Memory) (a : Address) : Except Error String := do
  let length ← memory.readU16 a
  let bytes ← memory.readBytes (a + 2) length.toNat
  return Utf8.decodeLossy bytes

theorem length_of_readBytes {memory : Memory} {a : Address} {n : Nat} {bytes : List UInt8}
    (h : memory.readBytes a n = .ok bytes) : bytes.length = n := by
  unfold readBytes at h
  split at h
  · next hw => cases h; exact memory.length_window? hw
  · cases h

end Memory

end CompiledFrames
