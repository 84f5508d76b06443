import Mathlib.Data.Set.Insert
import CompiledFrames.Proofs.Method.Registry

/-!
# Registries over time

What a registry has after some calls. Its methods are those of a plain account, in which each new
method first removes all that share an address with it; reading names and lines again changes
neither the places of methods nor their bytecode tables. A map from keys to methods that is treated
in the same way has each method under its own start, so that the list of a registry stands for it.

## Main definitions

* `RegistryCall`, `Registry.ofCalls`: calls, and the registry after some of them
* `RegistryCall.account`: what is known of the methods after a call, without any order
* `MethodMap.after`: what a call does to a map from keys to methods

## Main results

* `Registry.Tidy.after`, `Registry.Tidy.known_after`: one call keeps a registry tidy, and changes it
  as the account says
* `MethodMap.after_keyed`: the map has the methods of the registry, each under its start
* `Registry.lookup?_ofCalls`: order, keys, account and look-up after any calls
-/

namespace CompiledFrames

/-! ## Calls -/

/-- A call that changes a registry. -/
inductive RegistryCall where
  | register (m : CompiledMethod)
  | reload (memory : Memory)
  | clear

/-- What stays the same of a method when its names and lines are read again. -/
def CompiledMethod.known (m : CompiledMethod) : MethodMetadata × BytecodeTable :=
  (m.metadata, m.bytecodes)

/-- What is known of the methods after a call: a new one removes all that share an address with it.
-/
def RegistryCall.account (known : Set (MethodMetadata × BytecodeTable)) :
    RegistryCall → Set (MethodMetadata × BytecodeTable)
  | .register m => insert m.known {old ∈ known | ¬ old.1.Overlaps m.metadata}
  | .reload _ => known
  | .clear => ∅

/-- Building adds names and lines to what is given. -/
theorem CompiledMethod.eq_of_build {memory : Memory} {metadata : MethodMetadata}
    {bytecodes : BytecodeTable} {shape : CodeShape} {m : CompiledMethod}
    (h : build memory metadata bytecodes shape = .ok m) :
    m = { metadata, names := m.names, bytecodes, lines := m.lines, shape } := by
  unfold build at h
  obtain ⟨names, -, h⟩ := Except.bind_eq_ok.mp h
  obtain ⟨record, -, h⟩ := Except.bind_eq_ok.mp h
  obtain ⟨info, -, h⟩ := Except.bind_eq_ok.mp h
  cases info with
  | none =>
    obtain rfl := Except.ok.inj h
    rfl
  | some info =>
    obtain ⟨lines, -, h⟩ := Except.bind_eq_ok.mp h
    obtain rfl := Except.ok.inj h
    rfl

theorem CompiledMethod.known_of_rebuild {memory : Memory} {m rebuilt : CompiledMethod}
    (h : m.rebuild memory = .ok rebuilt) : rebuilt.known = m.known := by
  rw [eq_of_build h]
  rfl

namespace Registry

variable {registry : Registry} {call : RegistryCall} {calls : List RegistryCall}

/-- The registry after a call. A reload that ends in a trap gives none, and the one before is kept.
-/
def after (registry : Registry) : RegistryCall → Registry
  | .register m => registry.register m
  | .reload memory =>
    match registry.reload memory with
    | .ok (reloaded, _) => reloaded
    | .error _ => registry
  | .clear => {}

/-- The registry after some calls. -/
def ofCalls (calls : List RegistryCall) : Registry :=
  calls.foldl after {}

/-- What is known of the methods of a registry, without their order. -/
def known (registry : Registry) : Set (MethodMetadata × BytecodeTable) :=
  {method | method ∈ registry.methods.map (·.known)}

theorem mem_known_iff {method : MethodMetadata × BytecodeTable} :
    method ∈ registry.known ↔ ∃ m ∈ registry.methods, m.known = method :=
  List.mem_map

/-! ## Reading again -/

/-- Reading names and lines again keeps each method at its position. -/
theorem map_known_of_reloadAll {memory : Memory} {methods reloaded : List CompiledMethod}
    {errors : List Error} (h : reloadAll memory methods = .ok (reloaded, errors)) :
    reloaded.map (·.known) = methods.map (·.known) := by
  induction methods generalizing reloaded errors with
  | nil =>
    obtain ⟨rfl, -⟩ := Prod.mk.inj (Except.ok.inj h)
    rfl
  | cons m rest ih =>
    unfold reloadAll at h
    cases hrebuild : m.rebuild memory with
    | ok rebuilt =>
      rw [hrebuild] at h
      obtain ⟨⟨others, _⟩, hothers, hpair⟩ := Except.map_eq_ok.mp h
      obtain ⟨rfl, -⟩ := Prod.mk.inj hpair
      rw [List.map_cons, List.map_cons, ih hothers, CompiledMethod.known_of_rebuild hrebuild]
    | error failure =>
      rw [hrebuild] at h
      cases failure with
      | trap t => cases h
      | error e =>
        obtain ⟨⟨others, _⟩, hothers, hpair⟩ := Except.map_eq_ok.mp h
        obtain ⟨rfl, -⟩ := Prod.mk.inj hpair
        rw [List.map_cons, List.map_cons, ih hothers]

theorem map_known_after_reload (registry : Registry) (memory : Memory) :
    (registry.after (.reload memory)).methods.map (·.known) =
      registry.methods.map (·.known) := by
  cases h : registry.reload memory with
  | error t => simp only [after, h]
  | ok result =>
    obtain ⟨⟨methods, errors⟩, hmethods, rfl⟩ := Except.map_eq_ok.mp h
    simp only [after, h]
    exact map_known_of_reloadAll hmethods

/-- Whether a registry is tidy is a matter of what stays the same. -/
theorem tidy_iff_known :
    registry.Tidy ↔
      (∀ method ∈ registry.methods.map (·.known), method.1.start < method.1.stop) ∧
        (registry.methods.map (·.known)).Pairwise fun a b => a.1.stop ≤ b.1.start := by
  rw [List.forall_mem_map, List.pairwise_map]
  exact ⟨fun h => ⟨h.start_lt_stop, h.ordered⟩, fun h => ⟨h.1, h.2⟩⟩

/-! ## One call -/

/-- **A call keeps a registry tidy**, as long as the method that it registers has instructions. -/
theorem Tidy.after (h : registry.Tidy) (hcall : ∀ m, call = .register m → m.start < m.stop) :
    (registry.after call).Tidy := by
  cases call with
  | register m => exact h.register (hcall m rfl)
  | reload memory =>
    rw [tidy_iff_known, map_known_after_reload, ← tidy_iff_known]
    exact h
  | clear => exact tidy_empty

/-- **A call changes a registry** as the account says. -/
theorem Tidy.known_after (h : registry.Tidy)
    (hcall : ∀ m, call = .register m → m.start < m.stop) :
    (registry.after call).known = call.account registry.known := by
  cases call with
  | register m =>
    ext method
    have hmem : ∀ other, other ∈ (registry.register m).methods ↔
        other = m ∨ other ∈ registry.methods ∧ ¬ other.metadata.Overlaps m.metadata :=
      fun _ => h.mem_register_iff (hcall m rfl)
    simp only [mem_known_iff, RegistryCall.account, Registry.after, Set.mem_insert_iff, hmem]
    constructor
    · rintro ⟨other, rfl | ⟨hother, hapart⟩, rfl⟩
      · exact .inl rfl
      · exact .inr ⟨⟨other, hother, rfl⟩, hapart⟩
    · rintro (rfl | ⟨⟨other, hother, rfl⟩, hapart⟩)
      · exact ⟨m, .inl rfl, rfl⟩
      · exact ⟨other, .inr ⟨hother, hapart⟩, rfl⟩
  | reload memory =>
    unfold known
    rw [map_known_after_reload]
    rfl
  | clear =>
    ext method
    simp [mem_known_iff, Registry.after, RegistryCall.account]

/-- What calls keep, and what they change, from any tidy registry on. -/
theorem Tidy.foldl_after (h : registry.Tidy)
    (hcalls : ∀ m, RegistryCall.register m ∈ calls → m.start < m.stop) :
    (calls.foldl Registry.after registry).Tidy ∧
      (calls.foldl Registry.after registry).known =
        calls.foldl RegistryCall.account registry.known := by
  induction calls generalizing registry with
  | nil => exact ⟨h, rfl⟩
  | cons call calls ih =>
    have hcall : ∀ m, call = .register m → m.start < m.stop := fun m hm =>
      hcalls m (hm ▸ List.mem_cons_self)
    rw [List.foldl_cons, List.foldl_cons, ← h.known_after hcall]
    exact ih (h.after hcall) fun m hm => hcalls m (List.mem_cons_of_mem _ hm)

end Registry

/-! ## Keys -/

/-- Methods under keys. Replacing a method leaves its key as it is. -/
abbrev MethodMap :=
  List (Address × CompiledMethod)

namespace MethodMap

/-- The map with a method under a key, which replaces the one that was there. -/
def insert (key : Address) (m : CompiledMethod) : MethodMap → MethodMap
  | [] => [(key, m)]
  | entry :: rest =>
    if key < entry.1 then (key, m) :: entry :: rest
    else if key = entry.1 then (key, m) :: rest
    else entry :: insert key m rest

/-- The map with one more method under its start, less the keys that eviction finds. -/
def register (map : MethodMap) (m : CompiledMethod) : MethodMap :=
  let below := map.takeWhile (·.1 < m.stop)
  let above := map.dropWhile (·.1 < m.stop)
  insert m.start m ((below.reverse.dropWhile (m.start < ·.2.stop)).reverse ++ above)

/-- The map with names and lines of its methods read again, each under the key that it had. -/
def reload (memory : Memory) : MethodMap → Except Trap MethodMap
  | [] => .ok []
  | (key, m) :: rest =>
    match m.rebuild memory with
    | .error (.trap t) => .error t
    | .error (.error _) => (reload memory rest).map ((key, m) :: ·)
    | .ok rebuilt => (reload memory rest).map ((key, rebuilt) :: ·)

/-- The map after a call. -/
def after (map : MethodMap) : RegistryCall → MethodMap
  | .register m => map.register m
  | .reload memory =>
    match map.reload memory with
    | .ok reloaded => reloaded
    | .error _ => map
  | .clear => []

/-- The map after some calls. -/
def ofCalls (calls : List RegistryCall) : MethodMap :=
  calls.foldl after []

/-- Methods under their starts. -/
def keyed (methods : List CompiledMethod) : MethodMap :=
  methods.map fun m => (m.start, m)

variable {methods : List CompiledMethod} {m : CompiledMethod}

theorem keyed_insertByStart :
    keyed (Registry.insertByStart m methods) = insert m.start m (keyed methods) := by
  induction methods with
  | nil => rfl
  | cons first rest ih =>
    simp only [keyed, List.map_cons, Registry.insertByStart, insert] at ih ⊢
    split_ifs
    · rfl
    · rfl
    · rw [List.map_cons, ih]

theorem keyed_evict :
    keyed (Registry.evict m methods) =
      (((keyed methods).takeWhile (·.1 < m.stop)).reverse.dropWhile
        (m.start < ·.2.stop)).reverse ++ (keyed methods).dropWhile (·.1 < m.stop) := by
  simp only [keyed, Registry.evict, List.map_append, List.takeWhile_map, List.dropWhile_map,
    ← List.map_reverse, Function.comp_def]

theorem reload_keyed (memory : Memory) :
    reload memory (keyed methods) =
      (Registry.reloadAll memory methods).map fun (reloaded, _) => keyed reloaded := by
  induction methods with
  | nil => rfl
  | cons first rest ih =>
    have hcons : keyed (first :: rest) = (first.start, first) :: keyed rest := rfl
    rw [hcons, reload, Registry.reloadAll, ih]
    cases hrebuild : first.rebuild memory with
    | error failure =>
      cases failure with
      | trap t => rfl
      | error e => cases Registry.reloadAll memory rest <;> rfl
    | ok rebuilt =>
      have hstart : rebuilt.start = first.start :=
        congrArg (fun known => known.1.start) (CompiledMethod.known_of_rebuild hrebuild)
      cases Registry.reloadAll memory rest with
      | error t => rfl
      | ok result => simp only [Except.map_ok, keyed, List.map_cons, hstart]

/-- **A call does the same to a registry and to the map of its methods under their starts.** -/
theorem after_keyed (registry : Registry) (call : RegistryCall) :
    after (keyed registry.methods) call = keyed (registry.after call).methods := by
  cases call with
  | register m =>
    show insert m.start m _ = keyed (Registry.insertByStart m (Registry.evict m registry.methods))
    rw [keyed_insertByStart, keyed_evict]
  | reload memory =>
    simp only [after, Registry.after, Registry.reload, reload_keyed]
    cases Registry.reloadAll memory registry.methods <;> rfl
  | clear => rfl

theorem foldl_after_keyed (registry : Registry) (calls : List RegistryCall) :
    calls.foldl after (keyed registry.methods) =
      keyed (calls.foldl Registry.after registry).methods := by
  induction calls generalizing registry with
  | nil => rfl
  | cons call calls ih => rw [List.foldl_cons, List.foldl_cons, after_keyed, ih]

end MethodMap

namespace Registry

variable {calls : List RegistryCall}

/-- **A registry after any calls**, of which each one registers a method with instructions. No two
methods share an address, and a map has each under its own start. The methods are those that the
account gives, up to names and lines. The look-up finds the method that an address belongs to, and
none just when there is none. -/
theorem lookup?_ofCalls (h : ∀ m, RegistryCall.register m ∈ calls → m.start < m.stop) :
    ((ofCalls calls).methods.Pairwise fun a b => ¬ a.metadata.Overlaps b.metadata) ∧
    ((MethodMap.ofCalls calls).map (·.2) = (ofCalls calls).methods ∧
      ∀ entry ∈ MethodMap.ofCalls calls, entry.1 = entry.2.start) ∧
    (ofCalls calls).known = calls.foldl RegistryCall.account ∅ ∧
    ∀ pc,
      (∀ m, (ofCalls calls).lookup? pc = some m ↔
        m ∈ (ofCalls calls).methods ∧ m.metadata.Contains pc) ∧
      ((ofCalls calls).lookup? pc = none ↔
        ∀ m ∈ (ofCalls calls).methods, ¬ m.metadata.Contains pc) := by
  have htidy : (ofCalls calls).Tidy := (tidy_empty.foldl_after h).1
  have hknown : (ofCalls calls).known = calls.foldl RegistryCall.account ({} : Registry).known :=
    (tidy_empty.foldl_after h).2
  have hkeyed : MethodMap.ofCalls calls = MethodMap.keyed (ofCalls calls).methods :=
    MethodMap.foldl_after_keyed {} calls
  have hempty : ({} : Registry).known = ∅ := by
    ext method
    simp [mem_known_iff]
  refine ⟨htidy.pairwise_not_overlaps, ⟨?_, ?_⟩, ?_, fun pc => ⟨fun m => ?_, ?_⟩⟩
  · rw [hkeyed, MethodMap.keyed, List.map_map]
    exact List.map_id _
  · rw [hkeyed]
    exact List.forall_mem_map.mpr fun m _ => rfl
  · rw [hknown, hempty]
  · exact htidy.lookup?_eq_some_iff
  · rw [Option.eq_none_iff_forall_ne_some]
    refine forall_congr' fun m => ?_
    rw [ne_eq, htidy.lookup?_eq_some_iff, not_and]

/-- A method at some place, of which nothing else matters. -/
def sampleAt (start stop : UInt64) : CompiledMethod :=
  .withoutLines .unreadable
    { start := ⟨start⟩, stop := ⟨stop⟩, frameSlots := 2, paramSlots := 0, className := ⟨0⟩
      methodName := ⟨0⟩, signature := ⟨0⟩, linkedMethod := ⟨0⟩ } ∅ .riscv64

/-- Two methods side by side, one apart, and one over the border between the first two. -/
def sampleCalls : List RegistryCall :=
  [.register (sampleAt 0x1000 0x1040), .register (sampleAt 0x1040 0x1080),
    .register (sampleAt 0x1100 0x1140), .reload .unreadable, .register (sampleAt 0x1020 0x1060)]

theorem lookup?_ofCalls_sample :
    (ofCalls sampleCalls).lookup? ⟨0x105f⟩ = some (sampleAt 0x1020 0x1060) ∧
      (ofCalls sampleCalls).lookup? ⟨0x1010⟩ = none ∧
      (sampleAt 0x1000 0x1040).known ∉ sampleCalls.foldl RegistryCall.account ∅ := by
  have h : ∀ m, RegistryCall.register m ∈ sampleCalls → m.start < m.stop := by
    simp only [sampleCalls, List.mem_cons, RegistryCall.register.injEq, reduceCtorEq,
      List.not_mem_nil, or_false, false_or]
    rintro m (rfl | rfl | rfl | rfl) <;> decide
  have hmethods : (ofCalls sampleCalls).methods =
      [sampleAt 0x1020 0x1060, sampleAt 0x1100 0x1140] := rfl
  obtain ⟨-, -, hknown, hlook⟩ := lookup?_ofCalls h
  refine ⟨((hlook _).1 _).mpr ⟨?_, by decide⟩, (hlook _).2.mpr ?_, ?_⟩
  · rw [hmethods]
    exact List.mem_cons_self
  · rw [hmethods]
    decide
  · rw [← hknown, mem_known_iff, hmethods]
    decide

end Registry

end CompiledFrames
