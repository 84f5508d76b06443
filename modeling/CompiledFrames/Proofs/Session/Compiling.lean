import CompiledFrames.Proofs.Method.Calls
import CompiledFrames.Proofs.Method.Symbolication
import CompiledFrames.Proofs.Unwind.Walk

/-!
# Compile events over different memories

What memory has to do with the methods that are registered. Whether an event is registered is a
matter of its instructions alone, and memory gives a method no more than its names and its lines.
Two runs over the same events therefore differ in names and lines only, however different the two
memories are. Reading lines must not end in a trap, since nothing goes on after one.

The comparison erases names and lines. Registering a method looks at places only, so that it
commutes with the erasure, and what a run leaves is, after erasure, a function of the events.

## Main definitions

* `Memory.DecodesLines`: reading the lines of a method does not end in a trap
* `CompiledMethod.bare`, `Registry.bare`: what is left without names and lines
* `MethodOutline`: place, frame, landmarks and bytecode table of a method
* `CompileEvent.bareMethod?`: the method of an event as far as memory has no part in it
* `Session.compileEach`: the session after events of which none may fail

## Main results

* `Registry.bare_register`: registering and erasing commute
* `Session.compile_cases`: what one event does
* `Session.exists_compileAll`: what a run over any events does
* `Session.compileAll_of_memories`: failures, and two runs over different memories
-/

namespace CompiledFrames

/-! ## Memories that lines can be read from -/

/-- Reading the lines of a method, if it comes to that, does not end in a trap. -/
def Memory.DecodesLines (memory : Memory) (metadata : MethodMetadata) : Prop :=
  ∀ names record info, MethodNames.read memory metadata = .ok names →
    metadata.record memory = .ok record → record.debugInfo memory = .ok (some info) →
    Checked.Untrapped (LineTable.read memory info names.qualified)

/-- Only reading its lines can make building a method end in a trap. -/
theorem CompiledMethod.untrapped_build_iff {memory : Memory} {metadata : MethodMetadata}
    {bytecodes : BytecodeTable} {shape : CodeShape} :
    Checked.Untrapped (build memory metadata bytecodes shape) ↔ memory.DecodesLines metadata := by
  constructor
  · intro h names record info hnames hrecord hinfo t hlines
    apply h t
    unfold build
    simp only [hnames, hrecord, hinfo, hlines, Checked.ofExcept_ok, Except.ok_bind]
    rfl
  · intro h t hbuild
    unfold build at hbuild
    rcases Except.bind_eq_error.mp hbuild with hfail | ⟨names, hnames, hbuild⟩
    · exact Checked.untrapped_ofExcept _ t hfail
    rcases Except.bind_eq_error.mp hbuild with hfail | ⟨record, hrecord, hbuild⟩
    · exact Checked.untrapped_ofExcept _ t hfail
    rcases Except.bind_eq_error.mp hbuild with hfail | ⟨info, hinfo, hbuild⟩
    · exact Checked.untrapped_ofExcept _ t hfail
    rw [Checked.ofExcept_eq_ok] at hnames hrecord hinfo
    cases info with
    | none => cases hbuild
    | some info =>
      rcases Except.bind_eq_error.mp hbuild with hfail | ⟨lines, -, hbuild⟩
      · exact h names record info hnames hrecord hinfo t hfail
      · cases hbuild

/-! ## Methods without names and lines -/

/-- What is left of a method without its names and lines. -/
def CompiledMethod.bare (m : CompiledMethod) : CompiledMethod :=
  { m with names := default, lines := none }

/-- What a method is to unwinding and to the lookup of bytecodes. -/
structure MethodOutline where
  start : Address
  stop : Address
  frameSlots : UInt32
  paramSlots : UInt32
  /-- The bytes of the frame. -/
  frameSize : Nat
  landmarks : Landmarks
  bytecodes : BytecodeTable
deriving DecidableEq, Repr

/-- Place, frame, landmarks and bytecode table of a method. -/
def CompiledMethod.outline (m : CompiledMethod) : MethodOutline where
  start := m.start
  stop := m.stop
  frameSlots := m.metadata.frameSlots
  paramSlots := m.metadata.paramSlots
  frameSize := m.frameSize
  landmarks := m.landmarks
  bytecodes := m.bytecodes

/-- The outline has nothing to do with names and lines. -/
@[simp] theorem CompiledMethod.outline_bare (m : CompiledMethod) : m.bare.outline = m.outline :=
  rfl

namespace Registry

/-- The registry without names and lines. -/
def bare (registry : Registry) : Registry :=
  ⟨registry.methods.map (·.bare)⟩

theorem map_bare_insertByStart (m : CompiledMethod) (methods : List CompiledMethod) :
    (insertByStart m methods).map (·.bare) = insertByStart m.bare (methods.map (·.bare)) := by
  induction methods with
  | nil => rfl
  | cons first rest ih =>
    rw [List.map_cons, insertByStart, insertByStart]
    by_cases hlt : m.start < first.start
    · rw [if_pos hlt, if_pos (show m.bare.start < first.bare.start from hlt)]
      rfl
    rw [if_neg hlt, if_neg (show ¬ m.bare.start < first.bare.start from hlt)]
    by_cases heq : m.start = first.start
    · rw [if_pos heq, if_pos (show m.bare.start = first.bare.start from heq)]
      rfl
    · rw [if_neg heq, if_neg (show ¬ m.bare.start = first.bare.start from heq), List.map_cons, ih]

theorem map_bare_evict (m : CompiledMethod) (methods : List CompiledMethod) :
    (evict m methods).map (·.bare) = evict m.bare (methods.map (·.bare)) := by
  simp only [evict, List.map_append, List.takeWhile_map, List.dropWhile_map, ← List.map_reverse]
  rfl

/-- Registering looks at places only. -/
theorem bare_register (registry : Registry) (m : CompiledMethod) :
    (registry.register m).bare = registry.bare.register m.bare := by
  unfold bare register
  rw [map_bare_insertByStart, map_bare_evict]

/-- Registries that are the same without names and lines have methods with the same outlines. -/
theorem map_outline_of_bare {registry other : Registry} (h : registry.bare = other.bare) :
    registry.methods.map (·.outline) = other.methods.map (·.outline) := by
  have houtline : ∀ methods : List CompiledMethod,
      (methods.map (·.bare)).map (·.outline) = methods.map (·.outline) := by
    intro methods
    simp only [List.map_map, Function.comp_def, CompiledMethod.outline_bare]
  have hmethods : registry.methods.map (·.bare) = other.methods.map (·.bare) :=
    congrArg Registry.methods h
  rw [← houtline registry.methods, hmethods, houtline]

end Registry

/-! ## One event -/

namespace CompileEvent

/-- Whether the instructions of an event describe code. -/
def describesCode (event : CompileEvent) : Bool :=
  (BytecodeTable.ofInstructions event.instructions).isOk

/-- The method of an event as far as memory has no part in it. -/
def bareMethod? (event : CompileEvent) (shape : CodeShape) : Option CompiledMethod :=
  (BytecodeTable.ofInstructions event.instructions).toOption.map fun bytecodes =>
    { metadata := event.metadata, names := default, bytecodes, lines := none, shape }

theorem isSome_bareMethod? (event : CompileEvent) (shape : CodeShape) :
    (event.bareMethod? shape).isSome = event.describesCode := by
  unfold bareMethod? describesCode
  cases BytecodeTable.ofInstructions event.instructions <;> rfl

end CompileEvent

namespace Session

variable {session : Session} {event : CompileEvent}

/-- Memory has a part in the names and lines of a method only. -/
theorem exists_methodOf {metadata : MethodMetadata}
    (h : session.memory.DecodesLines metadata) (bytecodes : BytecodeTable) :
    ∃ m, session.methodOf metadata bytecodes = .ok m ∧
      m.bare = { metadata, names := default, bytecodes, lines := none, shape := session.shape } := by
  unfold methodOf
  cases hbuild : CompiledMethod.build session.memory metadata bytecodes session.shape with
  | ok m =>
    refine ⟨m, rfl, ?_⟩
    rw [CompiledMethod.eq_of_build hbuild]
    rfl
  | error failure =>
    cases failure with
    | error e =>
      exact ⟨_, rfl, rfl⟩
    | trap t => exact absurd hbuild (CompiledMethod.untrapped_build_iff.mpr h t)

/-- **One event.** Without code it fails, for the reason that its instructions give. Otherwise its
method is registered, of which memory has given names and lines at most. -/
theorem compile_cases (h : session.memory.DecodesLines event.metadata) :
    (∃ e, BytecodeTable.ofInstructions event.instructions = .error e ∧
      event.bareMethod? session.shape = none ∧
      session.compile event = .error (.error e)) ∨
    ∃ m, event.bareMethod? session.shape = some m.bare ∧
      session.compile event =
        .ok (m, { session with registry := session.registry.register m }) := by
  unfold compile CompileEvent.bareMethod?
  cases BytecodeTable.ofInstructions event.instructions with
  | error e => exact .inl ⟨e, rfl, rfl, rfl⟩
  | ok bytecodes =>
    obtain ⟨m, hmethod, hbare⟩ := exists_methodOf h bytecodes
    refine .inr ⟨m, ?_, ?_⟩
    · rw [hbare]
      rfl
    · simp only [Checked.ofExcept_ok, Except.ok_bind, hmethod, Except.mapError_ok]
      rfl

/-- An event fails just when its instructions give no table, and for the same reason. -/
theorem compile_eq_error_iff (h : session.memory.DecodesLines event.metadata) {failure : Failure} :
    session.compile event = .error failure ↔
      ∃ e, BytecodeTable.ofInstructions event.instructions = .error e ∧ failure = .error e := by
  rcases compile_cases h with ⟨e, htable, -, hcompile⟩ | ⟨m, hbare, hcompile⟩
  · rw [hcompile, htable]
    constructor
    · intro hfailure
      exact ⟨e, rfl, (Except.error.inj hfailure).symm⟩
    · rintro ⟨_, herror, rfl⟩
      rw [Except.error.inj herror]
  · rw [hcompile]
    constructor
    · intro hfailure
      cases hfailure
    · rintro ⟨e, htable, -⟩
      unfold CompileEvent.bareMethod? at hbare
      rw [htable] at hbare
      cases hbare

/-! ## Runs -/

/-- The session with the methods of all events, none of which may fail. -/
def compileEach (session : Session) (events : List CompileEvent) : Checked Session :=
  events.foldlM (fun session event => (session.compile event).map (·.2)) session

/-- **A run over any events** counts those that describe code, and does what these do on their own.
Without names and lines, the methods that it leaves are a matter of the events alone. -/
theorem exists_compileAll {events : List CompileEvent}
    (h : ∀ event ∈ events, session.memory.DecodesLines event.metadata) :
    ∃ last, session.compileAll events = .ok ((events.filter (·.describesCode)).length, last) ∧
      session.compileEach (events.filter (·.describesCode)) = .ok last ∧
      last.registry.bare = (events.filterMap (·.bareMethod? session.shape)).foldl Registry.register
        session.registry.bare := by
  -- the session changes on the way, but its memory and its shape do not
  induction events generalizing session with
  | nil => exact ⟨session, rfl, rfl, rfl⟩
  | cons event rest ih =>
    have hrest : ∀ event ∈ rest, session.memory.DecodesLines event.metadata := fun other hother =>
      h other (List.mem_cons_of_mem _ hother)
    rcases compile_cases (h event List.mem_cons_self) with
      ⟨e, -, hnone, hcompile⟩ | ⟨m, hbare, hcompile⟩
    · have hcode : ¬ event.describesCode := by
        rw [← event.isSome_bareMethod? session.shape, hnone]
        simp
      obtain ⟨last, hall, heach, hlast⟩ := ih hrest
      refine ⟨last, ?_, ?_, ?_⟩
      · rw [compileAll, hcompile, List.filter_cons_of_neg hcode]
        exact hall
      · rw [List.filter_cons_of_neg hcode]
        exact heach
      · rw [List.filterMap_cons, hnone]
        exact hlast
    · have hcode : event.describesCode := by
        rw [← event.isSome_bareMethod? session.shape, hbare]
        rfl
      obtain ⟨last, hall, heach, hlast⟩ :=
        @ih { session with registry := session.registry.register m } hrest
      refine ⟨last, ?_, ?_, ?_⟩
      · rw [compileAll, hcompile, List.filter_cons_of_pos hcode, List.length_cons]
        simp only [hall, Except.map_ok]
      · rw [List.filter_cons_of_pos hcode, compileEach, List.foldlM_cons, hcompile]
        exact heach
      · rw [List.filterMap_cons, hbare, hlast, Registry.bare_register]
        rfl

/-- **Registration does not depend on memory**, as long as no lines end in a trap. An event fails
just when its instructions give no table, with the error that says so, and whatever comes next goes
on from the same session. A run over any events counts those that describe code, and leaves what
registering only these leaves. After the same events over two memories, the methods are the same in
the same order, up to names and lines, and they are those that the events describe. -/
theorem compileAll_of_memories (session : Session) (events : List CompileEvent)
    {first second : Memory} (hfirst : ∀ event ∈ events, first.DecodesLines event.metadata)
    (hsecond : ∀ event ∈ events, second.DecodesLines event.metadata) :
    (∀ event ∈ events,
      (∀ failure, (session.withMemory first).compile event = .error failure ↔
        ∃ e, BytecodeTable.ofInstructions event.instructions = .error e ∧ failure = .error e) ∧
      ∀ e, BytecodeTable.ofInstructions event.instructions = .error e →
        ((∃ reason, e = .invalidArgument reason) ∨ ∃ key last, e = .keyOrder key last) ∧
        ∀ rest, (session.withMemory first).compileAll (event :: rest) =
          (session.withMemory first).compileAll rest) ∧
    ∃ firstLast secondLast : Session,
      ((session.withMemory first).compileAll events =
          .ok ((events.filter (·.describesCode)).length, firstLast) ∧
        (session.withMemory first).compileEach (events.filter (·.describesCode)) =
          .ok firstLast) ∧
      ((session.withMemory second).compileAll events =
          .ok ((events.filter (·.describesCode)).length, secondLast) ∧
        (session.withMemory second).compileEach (events.filter (·.describesCode)) =
          .ok secondLast) ∧
      firstLast.registry.methods.map (·.outline) = secondLast.registry.methods.map (·.outline) ∧
      firstLast.registry.bare = secondLast.registry.bare ∧
      firstLast.registry.bare = (events.filterMap (·.bareMethod? session.shape)).foldl
        Registry.register session.registry.bare := by
  constructor
  · intro event hevent
    have hfails : ∀ failure, (session.withMemory first).compile event = .error failure ↔
        ∃ e, BytecodeTable.ofInstructions event.instructions = .error e ∧ failure = .error e :=
      fun _ => compile_eq_error_iff (hfirst event hevent)
    refine ⟨hfails, ?_⟩
    intro e htable
    refine ⟨BytecodeTable.error_of_ofInstructions htable, ?_⟩
    intro rest
    have hcompile := (hfails (.error e)).mpr ⟨e, htable, rfl⟩
    rw [compileAll, hcompile]
  · obtain ⟨firstLast, hall, heach, hbare⟩ :=
      @exists_compileAll (session.withMemory first) events hfirst
    obtain ⟨secondLast, hall', heach', hbare'⟩ :=
      @exists_compileAll (session.withMemory second) events hsecond
    have hsame : firstLast.registry.bare = secondLast.registry.bare := hbare.trans hbare'.symm
    exact ⟨firstLast, secondLast, ⟨hall, heach⟩, ⟨hall', heach'⟩,
      Registry.map_outline_of_bare hsame, hsame, hbare⟩

/-- A method with code, and one without. -/
def sampleEvents : List CompileEvent :=
  [CompiledMethod.sampleEvent, { CompiledMethod.sampleEvent with instructions := [] }]

/-- Memory with names and record of the method. -/
def sampleMemory : Memory :=
  (({} : MemoryImage).map ⟨0x5000⟩ CompiledMethod.sampleBytes).toMemory

/-- What is registered of them: the method with code, whose frame takes up four words. -/
def sampleOutline : MethodOutline where
  start := ⟨0x4000⟩
  stop := ⟨0x4010⟩
  frameSlots := 3
  paramSlots := 1
  frameSize := 32
  landmarks := ⟨⟨0x4000⟩, ⟨0x4004⟩, ⟨0x400c⟩, ⟨0x4014⟩, ⟨0x4014⟩⟩
  bytecodes := ⟨[(⟨0x400c⟩, 4), (⟨0x4004⟩, 0)]⟩

/-- With the record of the method in memory or without it, the one method is registered. -/
theorem compileAll_of_memories_sample :
    ∃ firstLast secondLast : Session,
      (sample.withMemory sampleMemory).compileAll sampleEvents = .ok (1, firstLast) ∧
      (sample.withMemory .unreadable).compileAll sampleEvents = .ok (1, secondLast) ∧
      firstLast.registry.methods.map (·.outline) = [sampleOutline] ∧
      secondLast.registry.methods.map (·.outline) = [sampleOutline] ∧
      (sample.withMemory sampleMemory).compile
          { CompiledMethod.sampleEvent with instructions := [] } =
        .error (.error (.invalidArgument "compiled method has no real instructions")) := by
  have hmetadata : ∀ event ∈ sampleEvents,
      event.metadata = CompiledMethod.sampleEvent.metadata := by
    simp [sampleEvents]
  have hfirst : ∀ event ∈ sampleEvents, sampleMemory.DecodesLines event.metadata := by
    intro event hevent
    obtain ⟨table, hbuild, -⟩ :=
      CompiledMethod.build_of_shows CompiledMethod.showsMethod_sample ∅ .riscv64
    rw [hmetadata event hevent]
    apply CompiledMethod.untrapped_build_iff.mp
    unfold sampleMemory
    rw [hbuild]
    exact Checked.untrapped_ok _
  have hsecond : ∀ event ∈ sampleEvents, Memory.unreadable.DecodesLines event.metadata := by
    intro event _ names record info hnames
    cases hnames
  obtain ⟨hfails, firstLast, secondLast, ⟨hall, -⟩, ⟨hall', -⟩, houtline, -, hbare⟩ :=
    compileAll_of_memories sample sampleEvents hfirst hsecond
  have hregistered : firstLast.registry.methods.map (·.outline) = [sampleOutline] := by
    -- the outlines are those of the bare methods, which the events alone decide
    have hsame : firstLast.registry.methods.map (·.outline) =
        firstLast.registry.bare.methods.map (·.outline) := by
      simp only [Registry.bare, List.map_map, Function.comp_def, CompiledMethod.outline_bare]
    rw [hsame, hbare]
    rfl
  refine ⟨firstLast, secondLast, hall, hall', hregistered, houtline.symm.trans hregistered, ?_⟩
  exact ((hfails _ (List.mem_cons_of_mem _ List.mem_cons_self)).1 _).mpr ⟨_, rfl, rfl⟩

end Session

end CompiledFrames
