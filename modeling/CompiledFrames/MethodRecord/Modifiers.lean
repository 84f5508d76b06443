/-!
# Modifiers

The two flag words of a method record. The low bits of the first are the access flags of a Java
method; its high bits, and the bits of the second word, announce which optional sections the record
has.

## Main definitions

* `Modifiers`, `ExtendedModifiers` are flag words without unknown bits.
* `Modifiers.keywords` lists the access keywords in source order.
-/

namespace CompiledFrames

/-- The first flag word of a method record, unknown bits left out. -/
structure Modifiers where
  bits : UInt32
deriving DecidableEq, Repr, Inhabited

/-- The second flag word of a method record, unknown bits left out. -/
structure ExtendedModifiers where
  bits : UInt32
deriving DecidableEq, Repr, Inhabited

namespace Modifiers

/-! ## Flags -/

def accPublic : UInt32 := 0x00000001
def accPrivate : UInt32 := 0x00000002
def accProtected : UInt32 := 0x00000004
def accStatic : UInt32 := 0x00000008
def accFinal : UInt32 := 0x00000010
def accSynchronized : UInt32 := 0x00000020
def accBridge : UInt32 := 0x00000040
def accVarargs : UInt32 := 0x00000080
def accNative : UInt32 := 0x00000100
def accAbstract : UInt32 := 0x00000400
def accStrict : UInt32 := 0x00000800
def accSynthetic : UInt32 := 0x00001000
def exceptionInfo : UInt32 := 0x00020000
def debugInfo : UInt32 := 0x00040000
def backwardBranches : UInt32 := 0x00200000
def methodParameters : UInt32 := 0x00800000
def genericSignature : UInt32 := 0x02000000
def extendedModifiers : UInt32 := 0x04000000
def stackMap : UInt32 := 0x10000000
def methodAnnotations : UInt32 := 0x20000000
def parameterAnnotations : UInt32 := 0x40000000
def defaultAnnotation : UInt32 := 0x80000000

/-- All known flags together. -/
def known : UInt32 :=
  [accPublic, accPrivate, accProtected, accStatic, accFinal, accSynchronized, accBridge, accVarargs,
    accNative, accAbstract, accStrict, accSynthetic, exceptionInfo, debugInfo, backwardBranches,
    methodParameters, genericSignature, extendedModifiers, stackMap, methodAnnotations,
    parameterAnnotations, defaultAnnotation].foldl (· ||| ·) 0

/-- The known flags of a word. -/
def ofWord (word : UInt32) : Modifiers :=
  ⟨word &&& known⟩

/-- Whether a flag is set. -/
def has (modifiers : Modifiers) (flag : UInt32) : Bool :=
  modifiers.bits &&& flag == flag

/-- The access keywords, in the order in which they are written before a method. -/
def keywords (modifiers : Modifiers) : List String :=
  [(accPublic, "public"), (accPrivate, "private"), (accProtected, "protected"),
    (accStatic, "static"), (accFinal, "final"), (accSynchronized, "synchronized"),
    (accNative, "native"), (accAbstract, "abstract")].filterMap fun (flag, keyword) =>
      if modifiers.has flag then some keyword else none

end Modifiers

namespace ExtendedModifiers

/-! ## Flags -/

def methodTypeAnnotations : UInt32 := 0x01
def codeTypeAnnotations : UInt32 := 0x02
def scopedAnnotation : UInt32 := 0x04

/-- No flag at all. -/
def none : ExtendedModifiers := ⟨0⟩

/-- The known flags of a word. -/
def ofWord (word : UInt32) : ExtendedModifiers :=
  ⟨word &&& (methodTypeAnnotations ||| codeTypeAnnotations ||| scopedAnnotation)⟩

/-- Whether a flag is set. -/
def has (modifiers : ExtendedModifiers) (flag : UInt32) : Bool :=
  modifiers.bits &&& flag == flag

@[simp] theorem has_none_methodTypeAnnotations : none.has methodTypeAnnotations = false := rfl

@[simp] theorem has_none_codeTypeAnnotations : none.has codeTypeAnnotations = false := rfl

end ExtendedModifiers

end CompiledFrames
