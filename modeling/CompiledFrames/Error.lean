import CompiledFrames.Address
import CompiledFrames.Architecture
import CompiledFrames.Document.Problem

/-!
# Errors

Why an answer is missing. An error concerns one call or one method and whoever receives it can carry
on, with the exception of `Error.unsupportedTarget`, which says that there is nothing to carry on
with. A `Failure` is an error or a trap.

## Main definitions

* `Error` lists the causes and `Error.message` words them.
* `Failure` adds the traps, `Checked` is the computations which can fail in either way.
-/

namespace CompiledFrames

/-- Why a file gave no text or no bytes. -/
inductive FileProblem where
  | missing
  | notText
  | other (reason : String)
deriving DecidableEq, Repr

/-- The wording of a problem with a file. -/
def FileProblem.message : FileProblem → String
  | .missing => "No such file or directory (os error 2)"
  | .notText => "stream did not contain valid UTF-8"
  | .other reason => reason

/-- Why an answer is missing. -/
inductive Error where
  /-- There is no information on what was asked. -/
  | notFound (what : String)
  /-- A method record claims data that cannot be decoded. -/
  | malformedRecord (method reason : String)
  /-- Some of the `length` bytes at `address` cannot be read. -/
  | memoryFault (address : Address) (length : Nat)
  /-- No register of that name is available. -/
  | unknownRegister (name : String)
  /-- Nothing is known of compiled code for that architecture. -/
  | unsupportedTarget (architecture : Architecture)
  /-- A key is not above the last one of its map. -/
  | keyOrder (key last : String)
  /-- An argument makes no sense. -/
  | invalidArgument (reason : String)
  /-- A snapshot text is refused. -/
  | snapshot (problem : DocumentProblem)
  /-- A binary image is not well formed. -/
  | object
  /-- A file cannot be read. -/
  | file (problem : FileProblem)
deriving DecidableEq, Repr

namespace Error

/-- The wording of an error. -/
def message : Error → String
  | notFound what => "Not found: " ++ what
  | malformedRecord method reason => "Malformed record for " ++ method ++ ": " ++ reason
  | memoryFault address length =>
    "Memory fault reading " ++ toString length ++ " bytes at " ++ address.text
  | unknownRegister name => "Unknown register: " ++ name
  | unsupportedTarget architecture => "Unsupported target architecture: " ++ architecture.name
  | keyOrder key last => "Range map keys must increase: " ++ key ++ " inserted after " ++ last
  | invalidArgument reason => "Invalid argument: " ++ reason
  | snapshot problem => "Snapshot error: " ++ problem.message
  | object => "Object file error"
  | file problem => "IO error: " ++ problem.message

/-- Whether an error only says that there is no information. -/
def isNotFound : Error → Bool
  | notFound _ => true
  | _ => false

/-- Whether an error concerns no more than one call or one method. -/
def isRecoverable : Error → Bool
  | unsupportedTarget _ => false
  | _ => true

end Error

/-- Why a computation has no result: an error, or a trap. -/
inductive Failure where
  | error (e : Error)
  | trap (t : Trap)
deriving DecidableEq, Repr

/-- A computation that can end in an error or a trap. -/
abbrev Checked (α : Type) :=
  Except Failure α

/-- A computation without traps, as one that might have some. -/
def Checked.ofExcept {α : Type} (x : Except Error α) : Checked α :=
  x.mapError Failure.error

@[simp] theorem Checked.ofExcept_ok {α : Type} (a : α) :
    Checked.ofExcept (Except.ok a) = Except.ok a := rfl

@[simp] theorem Checked.ofExcept_error {α : Type} (e : Error) :
    Checked.ofExcept (Except.error e : Except Error α) = Except.error (.error e) := rfl

/-! ## Results -/

theorem Except.ok_bind {ε α β : Type} (x : α) (f : α → Except ε β) :
    (Except.ok x >>= f) = f x := rfl

theorem Except.map_ok {ε α β : Type} (x : α) (f : α → β) :
    (Except.ok x : Except ε α).map f = .ok (f x) := rfl

theorem Except.mapError_ok {ε ε' α : Type} (x : α) (f : ε → ε') :
    (Except.ok x : Except ε α).mapError f = .ok x := rfl

theorem Except.pure_eq {ε α : Type} (x : α) : (pure x : Except ε α) = .ok x := rfl

theorem Except.bind_eq_ok {ε α β : Type} {x : Except ε α} {f : α → Except ε β} {y : β} :
    (x >>= f) = .ok y ↔ ∃ a, x = .ok a ∧ f a = .ok y := by
  cases x with
  | error e => exact ⟨nofun, fun ⟨_, h, _⟩ => nomatch h⟩
  | ok a => exact ⟨fun h => ⟨a, rfl, h⟩, fun ⟨_, rfl, h⟩ => h⟩

theorem Except.bind_eq_error {ε α β : Type} {x : Except ε α} {f : α → Except ε β} {e : ε} :
    (x >>= f) = .error e ↔ x = .error e ∨ ∃ a, x = .ok a ∧ f a = .error e := by
  cases x with
  | error e' =>
    refine ⟨fun h => .inl (congrArg Except.error (Except.error.inj h)), ?_⟩
    rintro (h | ⟨_, hok, _⟩)
    · exact congrArg Except.error (Except.error.inj h)
    · cases hok
  | ok a => exact ⟨fun h => .inr ⟨a, rfl, h⟩, fun h => h.elim nofun fun ⟨_, rfl, h⟩ => h⟩

theorem Except.map_eq_ok {ε α β : Type} {x : Except ε α} {f : α → β} {y : β} :
    x.map f = .ok y ↔ ∃ a, x = .ok a ∧ f a = y := by
  cases x with
  | error e => exact ⟨nofun, fun ⟨_, h, _⟩ => nomatch h⟩
  | ok a =>
    refine ⟨fun h => ⟨a, rfl, Except.ok.inj h⟩, fun ⟨b, hb, hy⟩ => ?_⟩
    rw [hb, ← hy, Except.map_ok]

theorem Except.map_eq_error {ε α β : Type} {x : Except ε α} {f : α → β} {e : ε} :
    x.map f = .error e ↔ x = .error e := by
  cases x with
  | error e' =>
    exact ⟨fun h => congrArg Except.error (Except.error.inj h),
      fun h => congrArg Except.error (Except.error.inj h)⟩
  | ok a => exact ⟨nofun, nofun⟩

theorem Except.mapError_eq_ok {ε ε' α : Type} {x : Except ε α} {f : ε → ε'} {a : α} :
    x.mapError f = .ok a ↔ x = .ok a := by
  cases x with
  | error e => exact ⟨nofun, nofun⟩
  | ok b =>
    exact ⟨fun h => congrArg Except.ok (Except.ok.inj h),
      fun h => congrArg Except.ok (Except.ok.inj h)⟩

theorem Except.mapError_eq_error {ε ε' α : Type} {x : Except ε α} {f : ε → ε'} {e' : ε'} :
    x.mapError f = .error e' ↔ ∃ e, x = .error e ∧ f e = e' := by
  cases x with
  | error e =>
    refine ⟨fun h => ⟨e, rfl, Except.error.inj h⟩, fun ⟨_, he, hf⟩ => ?_⟩
    obtain rfl := Except.error.inj he
    exact congrArg Except.error hf
  | ok a => exact ⟨nofun, fun ⟨_, he, _⟩ => nomatch he⟩

theorem Checked.ofExcept_eq_ok {α : Type} {x : Except Error α} {a : α} :
    Checked.ofExcept x = .ok a ↔ x = .ok a :=
  Except.mapError_eq_ok

end CompiledFrames
