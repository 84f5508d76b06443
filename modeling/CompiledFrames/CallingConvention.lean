import CompiledFrames.Prologue
import CompiledFrames.Register

/-!
# Calling conventions

What the unwinder has to know of a target: which registers play a part, and how to tell that
compiled code was called by the interpreter. Such code returns into a trampoline, a symbol of the
helper module with a certain beginning; the caller is the interpreter loop, at a fixed distance
from its symbol. Compiled code has a stack of its own, so its frame pointer is not the native
stack pointer.
-/

namespace CompiledFrames

/-- What the unwinder has to know of a target. -/
structure CallingConvention where
  architecture : Architecture
  /-- The register with the stack pointer of compiled code. -/
  framePointer : RegisterId
  returnAddress : RegisterId
  /-- The register with the native stack pointer. -/
  stackPointer : RegisterId
  programCounter : RegisterId
  /-- The bytes of a frame slot. -/
  wordSize : UInt64
  /-- How the names of trampolines begin. -/
  trampolineStart : String
  /-- How the name of the module of the trampolines ends. -/
  helperModule : String
  /-- The symbol of the interpreter loop. -/
  interpreterSymbol : String
  /-- The distance from there to the call of compiled code. -/
  reentryOffset : UInt64
deriving DecidableEq, Repr

namespace CallingConvention

/-- The convention on riscv64. -/
def riscv64 : CallingConvention where
  architecture := .riscv64
  framePointer := .s11
  returnAddress := .ra
  stackPointer := .sp
  programCounter := .pc
  wordSize := 8
  trampolineStart := "returnFromJIT"
  helperModule := "libj9jit29.so"
  interpreterSymbol := "cInterpreter"
  reentryOffset := 0x32

instance : Inhabited CallingConvention := ⟨riscv64⟩

/-- Whether a symbol is a trampoline from compiled code to the interpreter. -/
def isTrampoline (convention : CallingConvention) (name : String)
    (moduleName : Option String) : Bool :=
  convention.trampolineStart.toList.isPrefixOf name.toList &&
    moduleName.any fun m => convention.helperModule.toList.isSuffixOf m.toList

/-- The distance of the slot that follows `slots` slots, as a checked product of machine words. -/
def slotOffset (convention : CallingConvention) (slots : UInt32) : Except Trap Nat :=
  let offset := slots.toNat * convention.wordSize.toNat
  if offset < 0x10000000000000000 then .ok offset else .error .mulOverflow

end CallingConvention

end CompiledFrames
