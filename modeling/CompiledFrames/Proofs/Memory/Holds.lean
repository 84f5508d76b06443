import Mathlib.Algebra.Group.Nat.Defs
import CompiledFrames.Memory

/-!
# What memory holds

Bytes that memory holds from an address on: every read of a window inside gives its part of them.
The statements on decoders take for their memory that it shows some bytes, which is a little less,
and nothing else, so that they apply to any kind of memory. What an image holds is in
`Proofs.Memory.Image`.

## Main definitions

* `littleBytes width n`: the number `n` written with `width` bytes
* `Memory.Holds`: the bytes from an address on
* `Memory.Shows`: the same without the empty window behind the bytes

## Main results

* `littleEndian_littleBytes`: what is written with enough bytes is read back
* `Memory.Shows.left`, `Memory.Shows.right`: parts of what memory shows are shown at their places
* `Memory.Shows.readU16` to `Memory.Shows.readU64`: a number that memory shows is read
-/

namespace CompiledFrames

/-! ## Numbers -/

/-- The `width` low bytes of a number, the least one first. -/
def littleBytes : (width n : Nat) → List UInt8
  | 0, _ => []
  | width + 1, n => UInt8.ofNat n :: littleBytes width (n / 256)

@[simp] theorem length_littleBytes (width n : Nat) : (littleBytes width n).length = width := by
  induction width generalizing n with
  | zero => rfl
  | succ width ih => simp [littleBytes, ih]

theorem littleEndian_cons (b : UInt8) (bytes : List UInt8) :
    littleEndian (b :: bytes) = b.toNat + 256 * littleEndian bytes := rfl

theorem littleEndian_littleBytes (width n : Nat) :
    littleEndian (littleBytes width n) = n % 256 ^ width := by
  induction width generalizing n with
  | zero => simp [littleBytes, Nat.mod_one]
  | succ width ih =>
    have hb : (UInt8.ofNat n).toNat = n % 256 := by simp
    rw [littleBytes, littleEndian_cons, ih, hb, Nat.pow_succ', Nat.mod_mul]

namespace Memory

/-! ## Reads -/

theorem readBytes_eq_ok_iff {memory : Memory} {a : Address} {n : Nat} {bytes : List UInt8} :
    memory.readBytes a n = .ok bytes ↔ memory.window? a n = some bytes := by
  unfold readBytes
  cases memory.window? a n <;> simp

theorem readBytes_eq_fault_iff {memory : Memory} {a : Address} {n : Nat} :
    memory.readBytes a n = .error (.memoryFault a n) ↔ memory.window? a n = none := by
  unfold readBytes
  cases memory.window? a n <;> simp

/-! ## Windows -/

/-- Memory has these bytes from an address on, and any window inside them can be read. -/
def Holds (memory : Memory) (a : Address) (bytes : List UInt8) : Prop :=
  ∀ i n, i + n ≤ bytes.length → memory.window? (a + i) n = some ((bytes.drop i).take n)

/-- Memory has these bytes from an address on, as far as windows that begin at one of them tell. The
empty window behind the last byte is left open, so that the bytes may end where memory ends. -/
def Shows (memory : Memory) (a : Address) (bytes : List UInt8) : Prop :=
  ∀ i n, i < bytes.length → i + n ≤ bytes.length →
    memory.window? (a + i) n = some ((bytes.drop i).take n)

variable {memory : Memory} {a : Address} {bytes xs ys : List UInt8}

theorem Holds.shows (h : memory.Holds a bytes) : memory.Shows a bytes :=
  fun i n _ hin => h i n hin

theorem Shows.left (h : memory.Shows a (xs ++ ys)) : memory.Shows a xs := by
  intro i n hi hin
  rw [h i n (by rw [List.length_append]; omega) (by rw [List.length_append]; omega),
    List.drop_append_of_le_length (by omega),
    List.take_append_of_le_length (by rw [List.length_drop]; omega)]

theorem Shows.right (h : memory.Shows a (xs ++ ys)) : memory.Shows (a + xs.length) ys := by
  intro i n hi hin
  rw [Address.add_add, h (xs.length + i) n (by rw [List.length_append]; omega)
    (by rw [List.length_append]; omega), ← List.drop_drop, List.drop_left]

/-! ## Bytes -/

theorem Shows.readBytes (h : memory.Shows a bytes) (hne : bytes ≠ []) :
    memory.readBytes a bytes.length = .ok bytes := by
  have hw := h 0 bytes.length (List.length_pos_iff.mpr hne) (by omega)
  rw [Address.add_zero, List.drop_zero, List.take_length] at hw
  unfold Memory.readBytes
  rw [hw]

theorem Shows.readNat (h : memory.Shows a bytes) (hne : bytes ≠ []) :
    memory.readNat a bytes.length = .ok (littleEndian bytes) := by
  unfold Memory.readNat
  rw [h.readBytes hne]
  rfl

theorem Shows.readU8_head {b : UInt8} (h : memory.Shows a (b :: bytes)) :
    memory.readU8 a = .ok b := by
  have hone : memory.Shows a [b] := by
    rw [← List.singleton_append] at h
    exact h.left
  have hread := hone.readNat (List.cons_ne_nil b [])
  rw [List.length_singleton, littleEndian_cons] at hread
  unfold Memory.readU8
  rw [hread]
  simp [Except.map]

/-- Any byte of those that memory shows can be read. -/
theorem Shows.readU8 (h : memory.Shows a bytes) {i : Nat} (hi : i < bytes.length) :
    memory.readU8 (a + i) = .ok bytes[i] := by
  have hsplit : bytes = bytes.take i ++ bytes[i] :: bytes.drop (i + 1) := by
    rw [← List.drop_eq_getElem_cons hi, List.take_append_drop]
  rw [hsplit] at h
  have hread := h.right.readU8_head
  rwa [List.length_take, Nat.min_eq_left (by omega)] at hread

/-! ## Words -/

/-- A number that memory has in `width` bytes, if it fits. -/
theorem Shows.readNat_littleBytes {width n : Nat} (hwidth : 0 < width)
    (h : memory.Shows a (littleBytes width n)) (hn : n < 256 ^ width) :
    memory.readNat a width = .ok n := by
  have hne : littleBytes width n ≠ [] := by
    rw [← List.length_pos_iff, length_littleBytes]
    exact hwidth
  have hread := h.readNat hne
  rw [length_littleBytes] at hread
  rw [hread, littleEndian_littleBytes, Nat.mod_eq_of_lt hn]

theorem Shows.readU16 {value : UInt16} (h : memory.Shows a (littleBytes 2 value.toNat)) :
    memory.readU16 a = .ok value := by
  unfold Memory.readU16
  rw [h.readNat_littleBytes (by decide) value.toNat_lt]
  simp [Except.map]

theorem Shows.readU32 {value : UInt32} (h : memory.Shows a (littleBytes 4 value.toNat)) :
    memory.readU32 a = .ok value := by
  unfold Memory.readU32
  rw [h.readNat_littleBytes (by decide) value.toNat_lt]
  simp [Except.map]

theorem Shows.readU64 {value : UInt64} (h : memory.Shows a (littleBytes 8 value.toNat)) :
    memory.readU64 a = .ok value := by
  unfold Memory.readU64
  rw [h.readNat_littleBytes (by decide) value.toNat_lt]
  simp [Except.map]

end Memory

end CompiledFrames
