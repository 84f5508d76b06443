/-!
# Architectures

The processor architectures a process can run on. Only one of them has a known shape of compiled
code (`CompiledFrames.Prologue`); the others are told apart so that they can be refused by name.
-/

namespace CompiledFrames

/-- A processor architecture. -/
inductive Architecture where
  | riscv64
  | arm64
  | x86_64
deriving DecidableEq, Repr, Inhabited

/-- A name that is no architecture. -/
structure UnknownArchitecture where
  name : String
deriving DecidableEq, Repr

/-- The text of the failure. -/
def UnknownArchitecture.message (e : UnknownArchitecture) : String :=
  "Unknown architecture: " ++ e.name

namespace Architecture

/-- The one name under which an architecture is written. -/
def name : Architecture → String
  | .riscv64 => "riscv64"
  | .arm64 => "arm64"
  | .x86_64 => "x86_64"

/-- The bytes of a pointer. -/
def pointerSize : Architecture → Nat
  | .riscv64 | .arm64 | .x86_64 => 8

/-- The architecture written exactly as `name` writes it. -/
def ofName? : String → Option Architecture
  | "riscv64" => some .riscv64
  | "arm64" => some .arm64
  | "x86_64" => some .x86_64
  | _ => none

/-- The architecture that a person names: some aliases count, and letters in either case. ASCII
letters are the only characters with a lower-case form that occurs in an alias. -/
def read (text : String) : Except UnknownArchitecture Architecture :=
  match text.toLower with
  | "riscv64" | "riscv:rv64" | "rv64" => .ok .riscv64
  | "arm64" | "aarch64" => .ok .arm64
  | "x86_64" | "x86-64" | "amd64" => .ok .x86_64
  | _ => .error ⟨text⟩

@[simp] theorem ofName?_name (a : Architecture) : ofName? a.name = some a := by
  cases a <;> rfl

end Architecture

end CompiledFrames
