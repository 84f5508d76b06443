import CompiledFrames.Text.Numeral
import CompiledFrames.Trap

/-!
# Addresses

Places in the memory of the inspected process. There are `2 ^ 64` of them and counting on from the
last one leads to the first, so adding and subtracting always succeed; the variants with a question
mark notice when the count passes an end.

## Main definitions

* `Address` is a place, ordered by its number `Address.toNat`.
* `a + n`, `a - n` and `Address.offset` wrap around; `Address.add?`, `Address.sub?` do not.
* `Address.distance?` is the way from one place up to another.
-/

namespace CompiledFrames

/-- A place in the memory of the inspected process. -/
structure Address where
  /-- The number of the place as a machine word. -/
  val : UInt64
deriving DecidableEq, Inhabited, Repr

namespace Address

/-- The number of the place. -/
def toNat (a : Address) : Nat :=
  a.val.toNat

/-- The place with number `n`, counted modulo `2 ^ 64`. -/
def ofNat (n : Nat) : Address :=
  ⟨UInt64.ofNat n⟩

instance : LE Address := ⟨fun a b => a.val ≤ b.val⟩

instance : LT Address := ⟨fun a b => a.val < b.val⟩

instance (a b : Address) : Decidable (a ≤ b) := inferInstanceAs (Decidable (a.val ≤ b.val))

instance (a b : Address) : Decidable (a < b) := inferInstanceAs (Decidable (a.val < b.val))

instance : HAdd Address Nat Address := ⟨fun a n => ⟨a.val + UInt64.ofNat n⟩⟩

instance : HSub Address Nat Address := ⟨fun a n => ⟨a.val - UInt64.ofNat n⟩⟩

@[ext] theorem ext_toNat {a b : Address} (h : a.toNat = b.toNat) : a = b := by
  cases a; cases b; simpa [toNat, UInt64.toNat_inj] using h

theorem le_iff {a b : Address} : a ≤ b ↔ a.toNat ≤ b.toNat :=
  UInt64.le_iff_toNat_le

theorem lt_iff {a b : Address} : a < b ↔ a.toNat < b.toNat :=
  UInt64.lt_iff_toNat_lt

theorem not_lt {a b : Address} : ¬ a < b ↔ b ≤ a := by
  rw [lt_iff, le_iff, Nat.not_lt]

theorem not_le {a b : Address} : ¬ a ≤ b ↔ b < a := by
  rw [lt_iff, le_iff, Nat.not_le]

theorem le_refl (a : Address) : a ≤ a :=
  le_iff.mpr (Nat.le_refl _)

theorem lt_irrefl (a : Address) : ¬ a < a := fun h =>
  Nat.lt_irrefl _ (lt_iff.mp h)

theorem le_of_lt {a b : Address} (h : a < b) : a ≤ b :=
  le_iff.mpr (Nat.le_of_lt (lt_iff.mp h))

theorem le_trans {a b c : Address} (h : a ≤ b) (h' : b ≤ c) : a ≤ c :=
  le_iff.mpr (Nat.le_trans (le_iff.mp h) (le_iff.mp h'))

theorem le_total (a b : Address) : a ≤ b ∨ b ≤ a := by
  rw [le_iff, le_iff]
  exact Nat.le_total a.toNat b.toNat

theorem le_antisymm {a b : Address} (h : a ≤ b) (h' : b ≤ a) : a = b :=
  ext_toNat (Nat.le_antisymm (le_iff.mp h) (le_iff.mp h'))

theorem lt_of_le_of_ne {a b : Address} (h : a ≤ b) (hne : a ≠ b) : a < b :=
  lt_iff.mpr (Nat.lt_of_le_of_ne (le_iff.mp h) fun heq => hne (ext_toNat heq))

theorem lt_of_le_of_lt {a b c : Address} (h : a ≤ b) (h' : b < c) : a < c :=
  lt_iff.mpr (Nat.lt_of_le_of_lt (le_iff.mp h) (lt_iff.mp h'))

instance : Std.IsLinearPreorder Address where
  le_refl := le_refl
  le_trans _ _ _ := le_trans
  le_total := le_total

theorem toNat_lt (a : Address) : a.toNat < 0x10000000000000000 :=
  a.val.toNat_lt

@[simp] theorem toNat_ofNat (n : Nat) : (ofNat n).toNat = n % 0x10000000000000000 := by
  simp [ofNat, toNat]

@[simp] theorem ofNat_toNat (a : Address) : ofNat a.toNat = a := by
  cases a; simp [ofNat, toNat]

theorem toNat_add (a : Address) (n : Nat) :
    (a + n).toNat = (a.toNat + n) % 0x10000000000000000 := by
  show (a.val + UInt64.ofNat n).toNat = _
  simp [toNat]

theorem add_add (a : Address) (m n : Nat) : a + m + n = a + (m + n) := by
  ext
  simp only [toNat_add]
  omega

/-- Two distances lead to the same place if they differ by whole rounds. -/
theorem add_eq_add_iff {a : Address} {m n : Nat} :
    a + m = a + n ↔ m % 0x10000000000000000 = n % 0x10000000000000000 := by
  constructor
  · intro h
    have hnat := congrArg toNat h
    rw [toNat_add, toNat_add] at hnat
    omega
  · intro h
    ext
    rw [toNat_add, toNat_add]
    omega

@[simp] theorem add_zero (a : Address) : a + 0 = a := by
  have := a.toNat_lt
  ext
  simp only [toNat_add]
  omega

/-- Fewer than `2 ^ 64` steps do not lead around to the same place. -/
theorem add_ne_self (a : Address) {n : Nat} (hpos : 0 < n) (hlt : n < 0x10000000000000000) :
    a + n ≠ a := by
  intro h
  have hnat := congrArg toNat h
  have ha := a.toNat_lt
  rw [toNat_add] at hnat
  omega

theorem add_sub_cancel (a : Address) (n : Nat) : a + n - n = a := by
  show Address.mk (a.val + UInt64.ofNat n - UInt64.ofNat n) = a
  rw [UInt64.add_sub_cancel]

theorem sub_add_cancel (a : Address) (n : Nat) : a - n + n = a := by
  show Address.mk (a.val - UInt64.ofNat n + UInt64.ofNat n) = a
  rw [UInt64.sub_add_cancel]

/-- The place `n` further on, unless that is past the last one. -/
def add? (a : Address) (n : Nat) : Option Address :=
  if a.toNat + n < 0x10000000000000000 then some (a + n) else none

/-- The place `n` before, unless that is below the first one. -/
def sub? (a : Address) (n : Nat) : Option Address :=
  if n ≤ a.toNat then some (a - n) else none

/-- The place at a signed distance, wrapping around. -/
def offset (a : Address) (displacement : Int) : Address :=
  ⟨a.val + UInt64.ofInt displacement⟩

/-- The number of steps from `base` up to `a`, if `a` is not below `base`. -/
def distance? (a base : Address) : Option Nat :=
  if base ≤ a then some (a.toNat - base.toNat) else none

/-- The first multiple of `align` at or after the place, wrapping around. -/
def alignUp (a : Address) (align : UInt64) : Except Trap Address :=
  if align ≠ 0 ∧ align &&& (align - 1) = 0 then
    .ok ⟨(a.val + (align - 1)) &&& ~~~(align - 1)⟩
  else .error .badAlignment

/-- The number of the place with sixteen hexadecimal digits. -/
def text (a : Address) : String :=
  "0x" ++ Numeral.hexFilled 16 a.toNat

/-- The number of the place with as many hexadecimal digits as it needs. -/
def shortText (a : Address) : String :=
  "0x" ++ Numeral.hex a.toNat

/-- The place named as a key: its decimal number, with the kind of key before it. -/
def keyText (a : Address) : String :=
  "Address(" ++ toString a.toNat ++ ")"

end Address

end CompiledFrames
