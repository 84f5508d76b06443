import CompiledFrames.BinaryImage
import CompiledFrames.MemoryImage
import CompiledFrames.Session

/-!
# Snapshots

A stopped process that has been captured: the registers of its thread, its memory, the symbols that
are known, the images that have more of them, and what the compiler has reported.

## Main definitions

* `Snapshot` is a captured process.
* `Snapshot.symbolTable` collects the symbols, `Session.ofSnapshot` begins a session.
-/

namespace CompiledFrames

/-- The symbols of a module as a snapshot lists them. -/
structure SymbolListing where
  moduleName : String
  symbols : List Symbol
deriving DecidableEq, Repr, Inhabited

/-- The module that a listing describes. -/
def SymbolListing.toModule (listing : SymbolListing) : SymbolModule :=
  (SymbolModule.empty listing.moduleName none).pushAll listing.symbols

/-- A captured process. -/
structure Snapshot where
  architecture : Architecture
  registers : Registers
  memory : MemoryImage
  listings : List SymbolListing
  images : List BinaryImage
  events : List CompileEvent
deriving DecidableEq, Repr, Inhabited

/-- The files that images are in, by path. -/
abbrev Files :=
  String → Except FileProblem (Array UInt8)

namespace Snapshot

/-- The symbols of the listings and of all images that can be loaded. -/
def symbolTable (snapshot : Snapshot) (files : Files) (format : ObjectFormat := .elf) :
    SymbolTable :=
  let listed := snapshot.listings.map SymbolListing.toModule
  let loaded := snapshot.images.filterMap fun image => (image.load files format).toOption
  (listed ++ loaded).foldl SymbolTable.addModule {}

end Snapshot

/-- A session over a captured process, with the methods of its compile events. -/
def Session.ofSnapshot (snapshot : Snapshot) (files : Files) (settings : SessionSettings)
    (format : ObjectFormat := .elf) : Checked Session := do
  let session ← Checked.ofExcept (Session.create snapshot.architecture snapshot.memory.toMemory
    (snapshot.symbolTable files format) settings)
  let (_, filled) ← (session.compileAll snapshot.events).mapError Failure.trap
  return filled

end CompiledFrames
