import CompiledFrames.Method.Compiled

/-!
# Registries

The compiled methods of a process by the place of their code. A method that is registered replaces
those whose code it overlaps, since the compiler has put it over them.

## Main definitions

* `Registry.register` adds a method and evicts the ones below its end that reach past its start.
* `Registry.lookup?` finds the method that an address belongs to.
* `Registry.reload` reads names and lines again; a method that cannot be read stays as it was.
-/

namespace CompiledFrames

/-- The compiled methods of a process, in the order of their starts. -/
structure Registry where
  methods : List CompiledMethod := []
deriving DecidableEq, Repr, Inhabited

namespace Registry

/-- The methods with one more, which replaces a method with the same start. -/
def insertByStart (m : CompiledMethod) : List CompiledMethod → List CompiledMethod
  | [] => [m]
  | other :: rest =>
    if m.start < other.start then m :: other :: rest
    else if m.start = other.start then m :: rest
    else other :: insertByStart m rest

/-- The methods without those that `m` evicts: going down from its end, as long as they reach past
its start. -/
def evict (m : CompiledMethod) (methods : List CompiledMethod) : List CompiledMethod :=
  let below := methods.takeWhile (·.start < m.stop)
  let above := methods.dropWhile (·.start < m.stop)
  (below.reverse.dropWhile fun other => m.start < other.stop).reverse ++ above

/-- The registry with one more method. -/
def register (registry : Registry) (m : CompiledMethod) : Registry :=
  ⟨insertByStart m (evict m registry.methods)⟩

/-- The method that an address belongs to. -/
def lookup? (registry : Registry) (pc : Address) : Option CompiledMethod :=
  ((registry.methods.takeWhile (·.start ≤ pc)).getLast?).filter fun m => m.metadata.Contains pc

/-- Names and lines of all methods read again, with the errors of those that stay as they were. -/
def reloadAll (memory : Memory) :
    List CompiledMethod → Except Trap (List CompiledMethod × List Error)
  | [] => .ok ([], [])
  | m :: rest =>
    match m.rebuild memory with
    | .error (.trap t) => .error t
    | .error (.error e) => (reloadAll memory rest).map fun (methods, errors) =>
      (m :: methods, e :: errors)
    | .ok rebuilt => (reloadAll memory rest).map fun (methods, errors) =>
      (rebuilt :: methods, errors)

/-- The registry with names and lines read again, and the errors of the methods that stay as they
were. -/
def reload (registry : Registry) (memory : Memory) : Except Trap (Registry × List Error) :=
  (reloadAll memory registry.methods).map fun (methods, errors) => (⟨methods⟩, errors)

end Registry

end CompiledFrames
