import CompiledFrames.Address

/-!
# Symbols

Names for places in native code. A symbol of size zero extends to the next one of its module. A
module keeps its symbols in the order of their addresses, and those at one address in the order in
which they came.

## Main definitions

* `Symbol.Covers` tells which places a symbol names.
* `SymbolModule.push` adds a symbol, `SymbolModule.lookup?` finds the one for a place.
* `NamedPlace` is what is known of a place in the end.
-/

namespace CompiledFrames

/-- A name for a place in native code. -/
structure Symbol where
  name : String
  address : Address
  /-- The bytes that the symbol names, zero if that is not known. -/
  size : UInt64
deriving DecidableEq, Repr, Inhabited

/-- Whether a place at or after the start of a symbol still belongs to it. -/
def Symbol.Covers (symbol : Symbol) (a : Address) : Prop :=
  symbol.size = 0 ∨ a < symbol.address + symbol.size.toNat

instance (symbol : Symbol) (a : Address) : Decidable (symbol.Covers a) :=
  inferInstanceAs (Decidable (_ ∨ _))

/-- The symbols of a loaded file. -/
structure SymbolModule where
  /-- The path or name of the file. -/
  name : String
  /-- The place of its first byte and the one after its last byte, if they are known. -/
  range : Option (Address × Address)
  /-- The symbols in the order of their addresses. -/
  symbols : List Symbol
deriving DecidableEq, Repr, Inhabited

namespace SymbolModule

/-- A module without symbols. -/
def empty (name : String) (range : Option (Address × Address)) : SymbolModule :=
  ⟨name, range, []⟩

/-- The module with one more symbol, after those which are not above it. -/
def push (m : SymbolModule) (symbol : Symbol) : SymbolModule :=
  { m with
    symbols := m.symbols.takeWhile (·.address ≤ symbol.address) ++
      symbol :: m.symbols.dropWhile (·.address ≤ symbol.address) }

/-- The module with more symbols, added one after the other. -/
def pushAll (m : SymbolModule) (symbols : List Symbol) : SymbolModule :=
  symbols.foldl push m

/-- Whether a place can belong to the module. -/
def Admits (m : SymbolModule) (a : Address) : Prop :=
  match m.range with
  | some (first, stop) => first ≤ a ∧ a < stop
  | none => True

instance (m : SymbolModule) (a : Address) : Decidable (m.Admits a) := by
  unfold Admits
  split <;> infer_instance

/-- The last symbol at or before a place, if the module admits the place and the symbol covers it.
-/
def lookup? (m : SymbolModule) (a : Address) : Option Symbol :=
  if m.Admits a then
    ((m.symbols.takeWhile (·.address ≤ a)).getLast?).filter (fun symbol => symbol.Covers a)
  else none

end SymbolModule

/-- A place with the symbol that names it. -/
structure NamedPlace where
  /-- The name of the symbol. -/
  name : String
  /-- The name of its module. -/
  moduleName : String
  /-- The place where the symbol begins. -/
  address : Address
  /-- The distance of the place from there. -/
  offset : Nat
deriving DecidableEq, Repr, Inhabited

/-- Whether the name of the module ends in some way. -/
def NamedPlace.inModule (symbol : NamedPlace) (ending : String) : Bool :=
  ending.toList.isSuffixOf symbol.moduleName.toList

/-- The name of the place: the symbol, and the distance from it. -/
def NamedPlace.text (symbol : NamedPlace) : String :=
  if symbol.offset = 0 then symbol.name
  else symbol.name ++ "+0x" ++ Numeral.hex symbol.offset

end CompiledFrames
