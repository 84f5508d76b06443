import CompiledFrames.Error
import CompiledFrames.Text.Blank

/-!
# Registers

The registers of a thread: the program counter and thirty-two general ones, of which the first is
wired to zero.

## Main definitions

* `RegisterId` names a register, `RegisterId.name` writes and `RegisterId.read` reads the name.
* `Registers` holds a value for each; `Registers.get` and `Registers.set` see to the zero register.
* `Registers.ofNamed` sets named registers one after the other.
-/

namespace CompiledFrames

/-- A register. General registers are counted up to thirty-one; a number above that names none. -/
inductive RegisterId where
  | pc
  | general (index : UInt8)
deriving DecidableEq, Repr

namespace RegisterId

/-- The return address register. -/
def ra : RegisterId := .general 1

/-- The stack pointer of native code. -/
def sp : RegisterId := .general 2

/-- The register in which compiled code keeps its own stack pointer. -/
def s11 : RegisterId := .general 27

/-- The names that the calling convention gives the general registers, in order. -/
def conventionNames : List String :=
  ["zero", "ra", "sp", "gp", "tp", "t0", "t1", "t2", "s0", "s1", "a0", "a1", "a2", "a3", "a4", "a5",
    "a6", "a7", "s2", "s3", "s4", "s5", "s6", "s7", "s8", "s9", "s10", "s11", "t3", "t4", "t5",
    "t6"]

/-- The name of a register. -/
def name : RegisterId → String
  | pc => "pc"
  | general index => conventionNames[index.toNat]?.getD "x?"

/-- The register of a name in lower case: `pc`, a name of the calling convention, `fp` for the frame
pointer of native code, or `x` and a number. -/
def ofName? (name : String) : Option RegisterId :=
  if name = "pc" then some pc
  else if name = "fp" then some (general 8)
  else
    match conventionNames.findIdx? (· == name) with
    | some index => some (general (UInt8.ofNat index))
    | none =>
      match name.toList with
      | 'x' :: number =>
        (Numeral.read? 10 32 (String.ofList number)).map fun n => general (UInt8.ofNat n)
      | _ => none

/-- The register that a person names: blanks around the name and the case of its letters do not
matter. ASCII letters are the only characters with a lower-case form that occurs in a name. -/
def read (text : String) : Except Error RegisterId :=
  match ofName? (Blank.trim text).toLower with
  | some register => .ok register
  | none => .error (.unknownRegister text)

end RegisterId

/-- The values of all registers. -/
structure Registers where
  /-- The program counter. -/
  pc : Address := ⟨0⟩
  /-- The general registers; the entry of the zero register is never read. -/
  general : Vector UInt64 32 := Vector.replicate 32 0
deriving DecidableEq, Repr, Inhabited

namespace Registers

/-- The value of a register. -/
def get (registers : Registers) : RegisterId → UInt64
  | .pc => registers.pc.val
  | .general index =>
    if index = 0 then 0 else registers.general[index.toNat]?.getD 0

/-- The registers with one of them set; the zero register keeps its value. -/
def set (registers : Registers) : RegisterId → UInt64 → Registers
  | .pc, value => { registers with pc := ⟨value⟩ }
  | .general index, value =>
    if index = 0 then registers
    else { registers with general := registers.general.setIfInBounds index.toNat value }

@[simp] theorem get_set_pc (registers : Registers) (value : UInt64) :
    (registers.set .pc value).get .pc = value := rfl

@[simp] theorem get_zero (registers : Registers) : registers.get (.general 0) = 0 := rfl

/-- Setting a register leaves all others as they are. -/
theorem get_set_of_ne (registers : Registers) {r s : RegisterId} (value : UInt64) (h : r ≠ s) :
    (registers.set r value).get s = registers.get s := by
  cases r with
  | pc => cases s with
    | pc => exact absurd rfl h
    | general j => rfl
  | general i =>
    by_cases h0 : i = 0
    · simp [set, h0]
    · cases s with
      | pc => simp [set, get, h0]
      | general j =>
        have hij : i.toNat ≠ j.toNat := fun e => h (by rw [UInt8.toNat_inj.1 e])
        simp [set, get, h0, hij]

/-- A general register other than the zero register takes the value it is set to. -/
theorem get_set_general (registers : Registers) {index : UInt8} (value : UInt64)
    (h0 : index ≠ 0) (h32 : index.toNat < 32) :
    (registers.set (.general index) value).get (.general index) = value := by
  simp [set, get, h0, h32]

/-- Setting a register to the value that it has changes nothing. -/
theorem set_get (registers : Registers) (r : RegisterId) :
    registers.set r (registers.get r) = registers := by
  cases r with
  | pc => rfl
  | general index =>
    by_cases h0 : index = 0
    · simp [set, h0]
    · have hsame : registers.general.setIfInBounds index.toNat
          (registers.general[index.toNat]?.getD 0) = registers.general := by
        ext k hk
        rw [Vector.getElem_setIfInBounds]
        split
        case isTrue hik => simp [hik, hk]
        case isFalse => rfl
      simp only [set, get, if_neg h0, hsame]

/-- The registers after setting some, one after the other. -/
def setAll (registers : Registers) (values : List (RegisterId × UInt64)) : Registers :=
  values.foldl (fun registers (register, value) => registers.set register value) registers

/-- The registers that named values describe; a later value replaces an earlier one. -/
def ofNamed (values : List (String × UInt64)) : Except Error Registers :=
  values.foldlM
    (fun registers (name, value) => return registers.set (← RegisterId.read name) value) {}

/-- All registers, general ones first. -/
def ids : List RegisterId :=
  (List.range 32).map (fun n => .general (UInt8.ofNat n)) ++ [.pc]

end Registers

end CompiledFrames
