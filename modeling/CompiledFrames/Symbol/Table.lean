import CompiledFrames.Symbol.Basic

/-!
# Symbol tables

The symbols of all modules. A place is named by the closest symbol before it, among the modules that
know it; a name leads to the place of the first symbol that came with it.

## Main definitions

* `SymbolTable.addModule`, `SymbolTable.addSymbol` build a table.
* `SymbolTable.resolve?` names a place.
* `SymbolTable.global?` finds the place of a name.
-/

namespace CompiledFrames

/-- The symbols of all modules. -/
structure SymbolTable where
  modules : List SymbolModule := []
  /-- The names with their places, in the order in which they came. -/
  globals : List (String × Address) := []
deriving DecidableEq, Repr, Inhabited

namespace SymbolTable

/-- The number of symbols. -/
def size (table : SymbolTable) : Nat :=
  (table.modules.flatMap (·.symbols)).length

/-- The table with one more module. -/
def addModule (table : SymbolTable) (m : SymbolModule) : SymbolTable :=
  { modules := table.modules ++ [m]
    globals := table.globals ++ m.symbols.map fun symbol => (symbol.name, symbol.address) }

/-- The modules with a symbol in the first one of that name, or in a new one. -/
def pushInto (name : String) (symbol : Symbol) : List SymbolModule → List SymbolModule
  | [] => [(SymbolModule.empty name none).push symbol]
  | m :: rest =>
    if m.name = name then m.push symbol :: rest else m :: pushInto name symbol rest

/-- The table with one more symbol of a module. -/
def addSymbol (table : SymbolTable) (name : String) (symbol : Symbol) : SymbolTable :=
  { modules := pushInto name symbol table.modules
    globals := table.globals ++ [(symbol.name, symbol.address)] }

/-- The closer of two symbols to a place after both, the second one if they are equally close. -/
def closer (best : Option (SymbolModule × Symbol)) (next : SymbolModule × Symbol) :
    Option (SymbolModule × Symbol) :=
  match best with
  | none => some next
  | some found => if found.2.address ≤ next.2.address then some next else some found

/-- The modules that know a place, with the symbol they have for it. -/
def candidates (table : SymbolTable) (a : Address) : List (SymbolModule × Symbol) :=
  table.modules.filterMap fun m => (m.lookup? a).map fun symbol => (m, symbol)

/-- The closest symbol before a place. -/
def resolve? (table : SymbolTable) (a : Address) : Option NamedPlace :=
  ((table.candidates a).foldl closer none).map fun (m, symbol) =>
    { name := symbol.name
      moduleName := m.name
      address := symbol.address
      offset := a.toNat - symbol.address.toNat }

/-- The place of the first symbol that came with a name. -/
def global? (table : SymbolTable) (name : String) : Option Address :=
  (table.globals.find? (·.1 = name)).map (·.2)

end SymbolTable

end CompiledFrames
