import CompiledFrames.Proofs.Method.WithoutCode
import CompiledFrames.Proofs.Session.Compiling

/-!
# Reloading

Names and lines of all methods are read again after memory has changed. A method that cannot be read
stays as it was, and its error is reported.

What is read of a method depends on memory, its metadata, its bytecode table and the shape of code,
and reading keeps all but the first. So a second reload finds what the first one has found. And as
long as memory stays the same, a session has of each method what a reload would read, or the method
without lines if it would fail. Every call keeps it like that, and a reload then changes nothing.

## Main definitions

* `CompiledMethod.refreshed`, `CompiledMethod.rebuildError?`: what a reload makes of a method
* `CompiledMethod.UpToDate`: a method is what memory makes of it
* `SessionCall`, `Session.afterCalls`: calls, and the session after some of them
* `Session.UpToDate`: starts rise, and each method is up to date

## Main results

* `Registry.reload_eq_ok_iff`: when a reload gives a registry, and which
* `Registry.reload_reload`: a second reload finds what the first one has found
* `Session.UpToDate.afterCall`, `Session.UpToDate.reload`: each call keeps a session up to date, and
  its reload changes nothing
* `Session.reload_afterCalls`: a reload after any calls, and of any registry over any memory
-/

namespace CompiledFrames

/-! ## One method -/

namespace CompiledMethod

variable {m rebuilt : CompiledMethod} {memory : Memory} {metadata : MethodMetadata}
  {bytecodes : BytecodeTable} {shape : CodeShape} {e : Error}

/-- The method with names and lines read again, or as it was if they cannot be read. -/
def refreshed (m : CompiledMethod) (memory : Memory) : CompiledMethod :=
  (m.rebuild memory).toOption.getD m

/-- The error for which names and lines of a method cannot be read again. -/
def rebuildError? (m : CompiledMethod) (memory : Memory) : Option Error :=
  match m.rebuild memory with
  | .error (.error e) => some e
  | _ => none

theorem refreshed_of_ok (h : m.rebuild memory = .ok rebuilt) : m.refreshed memory = rebuilt := by
  rw [refreshed, h]
  rfl

theorem refreshed_of_error {failure : Failure} (h : m.rebuild memory = .error failure) :
    m.refreshed memory = m := by
  rw [refreshed, h]
  rfl

/-- What has been built is built again. -/
theorem rebuild_of_build (h : build memory metadata bytecodes shape = .ok m) :
    m.rebuild memory = .ok m := by
  have hmetadata : m.metadata = metadata := congrArg CompiledMethod.metadata (eq_of_build h)
  have hbytecodes : m.bytecodes = bytecodes := congrArg CompiledMethod.bytecodes (eq_of_build h)
  have hshape : m.shape = shape := congrArg CompiledMethod.shape (eq_of_build h)
  rw [rebuild, hmetadata, hbytecodes, hshape]
  exact h

/-- A method is what memory makes of it: with the names and lines that memory holds, or without
lines if they cannot be read. -/
def UpToDate (m : CompiledMethod) (memory : Memory) : Prop :=
  m.rebuild memory = .ok m ∨
    ∃ e, m.rebuild memory = .error (.error e) ∧
      m = withoutLines memory m.metadata m.bytecodes m.shape

theorem UpToDate.untrapped (h : m.UpToDate memory) : Checked.Untrapped (m.rebuild memory) := by
  intro t htrap
  rcases h with h | ⟨e, h, -⟩
  · rw [h] at htrap
    cases htrap
  · rw [h] at htrap
    cases htrap

theorem UpToDate.refreshed (h : m.UpToDate memory) : m.refreshed memory = m := by
  rcases h with h | ⟨e, h, -⟩
  · exact refreshed_of_ok h
  · exact refreshed_of_error h

end CompiledMethod

/-! ## The methods of a registry -/

namespace Registry

variable {memory : Memory} {methods : List CompiledMethod} {registry reloaded : Registry}
  {errors : List Error}

/-- Reading the methods of a list again, if none of them ends in a trap. -/
theorem reloadAll_of_untrapped (h : ∀ m ∈ methods, Checked.Untrapped (m.rebuild memory)) :
    reloadAll memory methods =
      .ok (methods.map (·.refreshed memory), methods.filterMap (·.rebuildError? memory)) := by
  induction methods with
  | nil => rfl
  | cons m rest ih =>
    obtain ⟨hfirst, hrest⟩ := List.forall_mem_cons.mp h
    rw [reloadAll, ih hrest, List.map_cons, List.filterMap_cons]
    cases hrebuild : m.rebuild memory with
    | ok rebuilt =>
      simp only [Except.map_ok, CompiledMethod.refreshed_of_ok hrebuild,
        CompiledMethod.rebuildError?, hrebuild]
    | error failure =>
      cases failure with
      | trap t => exact absurd hrebuild (hfirst t)
      | error e =>
        simp only [Except.map_ok, CompiledMethod.refreshed_of_error hrebuild,
          CompiledMethod.rebuildError?, hrebuild]

/-- Nothing is given when a method ends in a trap. -/
theorem untrapped_of_reloadAll {result : List CompiledMethod × List Error}
    (h : reloadAll memory methods = .ok result) :
    ∀ m ∈ methods, Checked.Untrapped (m.rebuild memory) := by
  induction methods generalizing result with
  | nil => nofun
  | cons m rest ih =>
    rw [reloadAll] at h
    cases hrebuild : m.rebuild memory with
    | ok rebuilt =>
      rw [hrebuild] at h
      obtain ⟨_, hothers, -⟩ := Except.map_eq_ok.mp h
      refine List.forall_mem_cons.mpr ⟨?_, ih hothers⟩
      rw [hrebuild]
      exact Checked.untrapped_ok rebuilt
    | error failure =>
      rw [hrebuild] at h
      cases failure with
      | trap t => cases h
      | error e =>
        obtain ⟨_, hothers, -⟩ := Except.map_eq_ok.mp h
        refine List.forall_mem_cons.mpr ⟨?_, ih hothers⟩
        intro t htrap
        rw [hrebuild] at htrap
        cases htrap

/-- **When a reload gives a registry, and which**: reading must not end in a trap for any method. -/
theorem reload_eq_ok_iff :
    registry.reload memory = .ok (reloaded, errors) ↔
      (∀ m ∈ registry.methods, Checked.Untrapped (m.rebuild memory)) ∧
        reloaded = ⟨registry.methods.map (·.refreshed memory)⟩ ∧
        errors = registry.methods.filterMap (·.rebuildError? memory) := by
  constructor
  · intro h
    obtain ⟨_, hall, -⟩ := Except.map_eq_ok.mp h
    have huntrapped := untrapped_of_reloadAll hall
    rw [reload, reloadAll_of_untrapped huntrapped, Except.map_ok] at h
    obtain ⟨rfl, rfl⟩ := Prod.mk.inj (Except.ok.inj h)
    exact ⟨huntrapped, rfl, rfl⟩
  · rintro ⟨huntrapped, rfl, rfl⟩
    rw [reload, reloadAll_of_untrapped huntrapped, Except.map_ok]

/-- An error that a reload reports is that of a method. -/
theorem exists_rebuild_of_error {e : Error}
    (hreload : registry.reload memory = .ok (reloaded, errors)) (he : e ∈ errors) :
    ∃ m ∈ registry.methods, m.rebuild memory = .error (.error e) := by
  obtain ⟨-, -, rfl⟩ := reload_eq_ok_iff.mp hreload
  obtain ⟨m, hm, herror⟩ := List.mem_filterMap.mp he
  refine ⟨m, hm, ?_⟩
  unfold CompiledMethod.rebuildError? at herror
  split at herror
  · next hrebuild => rw [hrebuild, Option.some.inj herror]
  · cases herror

/-- A reload that ends in a trap does so for a method. -/
theorem exists_rebuild_of_trap {t : Trap} (hreload : registry.reload memory = .error t) :
    ∃ m ∈ registry.methods, ∃ t', m.rebuild memory = .error (.trap t') := by
  by_contra hnone
  have huntrapped : ∀ m ∈ registry.methods, Checked.Untrapped (m.rebuild memory) := by
    intro m hm t' htrap
    exact hnone ⟨m, hm, t', htrap⟩
  have hok := reload_eq_ok_iff.mpr ⟨huntrapped, rfl, rfl⟩
  rw [hreload] at hok
  cases hok

end Registry

/-! ## Calls -/

/-- A call that changes the methods of a session. -/
inductive SessionCall where
  | compile (event : CompileEvent)
  | compileAll (events : List CompileEvent)
  | reload
  | clear

namespace Session

variable {session next first last : Session} {m : CompiledMethod} {event : CompileEvent}
  {call : SessionCall} {calls : List SessionCall} {memory : Memory}

/-- The session after a call. An event that fails changes nothing. -/
def afterCall (session : Session) : SessionCall → Except Trap Session
  | .compile event =>
    match session.compile event with
    | .ok (_, next) => .ok next
    | .error (.error _) => .ok session
    | .error (.trap t) => .error t
  | .compileAll events => (session.compileAll events).map (·.2)
  | .reload => session.reload.map (·.1)
  | .clear => .ok session.clear

/-- The session after some calls, unless one of them ends in a trap. -/
def afterCalls (session : Session) (calls : List SessionCall) : Except Trap Session :=
  calls.foldlM afterCall session

/-- The session is over some memory, starts rise, and each method is what that memory makes of it.
-/
structure UpToDate (session : Session) (memory : Memory) : Prop where
  memory_eq : session.memory = memory
  ascending : session.registry.Ascending
  methods : ∀ m ∈ session.registry.methods, m.UpToDate memory

theorem upToDate_of_empty (h : session.registry = {}) : session.UpToDate session.memory := by
  refine ⟨rfl, ?_, ?_⟩
  · rw [h]
    exact List.Pairwise.nil
  · rw [h]
    nofun

/-- The method of an event is up to date when it is registered. -/
theorem upToDate_of_methodOf {metadata : MethodMetadata} {bytecodes : BytecodeTable}
    (h : session.methodOf metadata bytecodes = .ok m) : m.UpToDate session.memory := by
  unfold methodOf at h
  cases hbuild : CompiledMethod.build session.memory metadata bytecodes session.shape with
  | ok built =>
    rw [hbuild] at h
    obtain rfl := Except.ok.inj h
    exact .inl (CompiledMethod.rebuild_of_build hbuild)
  | error failure =>
    rw [hbuild] at h
    cases failure with
    | trap t => cases h
    | error e =>
      -- the method without lines has metadata, table and shape of the event, so the same build fails
      obtain rfl := Except.ok.inj h
      exact .inr ⟨e, hbuild, rfl⟩

/-- An event that does not fail registers its method, and leaves the rest of the session as it is. -/
theorem exists_of_compile (h : session.compile event = .ok (m, next)) :
    m.UpToDate session.memory ∧
      next = { session with registry := session.registry.register m } := by
  obtain ⟨bytecodes, -, h⟩ := Except.bind_eq_ok.mp h
  obtain ⟨built, hbuilt, h⟩ := Except.bind_eq_ok.mp h
  obtain ⟨rfl, rfl⟩ := Prod.mk.inj (Except.ok.inj h)
  exact ⟨upToDate_of_methodOf (Except.mapError_eq_ok.mp hbuilt), rfl⟩

theorem UpToDate.register (h : session.UpToDate memory) (hm : m.UpToDate memory) :
    ({ session with registry := session.registry.register m } : Session).UpToDate memory := by
  refine ⟨h.memory_eq, h.ascending.register m, ?_⟩
  intro other hother
  rcases h.ascending.mem_register_iff.mp hother with rfl | ⟨hkept, -⟩
  · exact hm
  · exact h.methods other ((Registry.evict_sublist m _).subset hkept)

theorem UpToDate.compile (h : session.UpToDate memory)
    (hcompile : session.compile event = .ok (m, next)) : next.UpToDate memory := by
  obtain ⟨hm, rfl⟩ := exists_of_compile hcompile
  rw [h.memory_eq] at hm
  exact h.register hm

theorem UpToDate.compileAll {events : List CompileEvent} {count : Nat}
    (h : session.UpToDate memory) (hall : session.compileAll events = .ok (count, last)) :
    last.UpToDate memory := by
  induction events generalizing session count with
  | nil =>
    obtain ⟨-, rfl⟩ := Prod.mk.inj (Except.ok.inj hall)
    exact h
  | cons event rest ih =>
    rw [Session.compileAll] at hall
    cases hcompile : session.compile event with
    | ok result =>
      obtain ⟨m, next⟩ := result
      rw [hcompile] at hall
      obtain ⟨⟨count', last'⟩, hrest, hpair⟩ := Except.map_eq_ok.mp hall
      obtain ⟨-, rfl⟩ := Prod.mk.inj hpair
      exact ih (h.compile hcompile) hrest
    | error failure =>
      rw [hcompile] at hall
      cases failure with
      | error e =>
        exact ih h hall
      | trap t => cases hall

/-- **A reload changes nothing** as long as memory has not changed, and reports each method whose
record cannot be decoded. -/
theorem UpToDate.reload (h : session.UpToDate memory) :
    session.reload =
      .ok (session, session.registry.methods.filterMap (·.rebuildError? memory)) := by
  obtain rfl := h.memory_eq
  have hsame : session.registry.methods.map (·.refreshed session.memory) =
      session.registry.methods := by
    rw [List.map_congr_left fun m hm => (h.methods m hm).refreshed, List.map_id']
  have hreload : session.registry.reload session.memory = .ok (session.registry,
      session.registry.methods.filterMap (·.rebuildError? session.memory)) := by
    refine Registry.reload_eq_ok_iff.mpr ⟨fun m hm => (h.methods m hm).untrapped, ?_, rfl⟩
    rw [hsame]
  rw [Session.reload, hreload, Except.map_ok]

/-- **Each call keeps a session up to date.** -/
theorem UpToDate.afterCall (h : session.UpToDate memory)
    (hcall : session.afterCall call = .ok next) : next.UpToDate memory := by
  cases call with
  | compile event =>
    rw [Session.afterCall] at hcall
    cases hcompile : session.compile event with
    | ok result =>
      obtain ⟨m, other⟩ := result
      rw [hcompile] at hcall
      obtain rfl := Except.ok.inj hcall
      exact h.compile hcompile
    | error failure =>
      rw [hcompile] at hcall
      cases failure with
      | error e =>
        obtain rfl := Except.ok.inj hcall
        exact h
      | trap t => cases hcall
  | compileAll events =>
    obtain ⟨⟨count, last⟩, hall, rfl⟩ := Except.map_eq_ok.mp hcall
    exact h.compileAll hall
  | reload =>
    rw [Session.afterCall, h.reload, Except.map_ok] at hcall
    obtain rfl := Except.ok.inj hcall
    exact h
  | clear =>
    obtain rfl := Except.ok.inj hcall
    rw [← h.memory_eq]
    exact upToDate_of_empty rfl

theorem UpToDate.afterCalls (h : session.UpToDate memory)
    (hcalls : session.afterCalls calls = .ok last) : last.UpToDate memory := by
  induction calls generalizing session with
  | nil =>
    obtain rfl := Except.ok.inj hcalls
    exact h
  | cons call rest ih =>
    rw [Session.afterCalls, List.foldlM_cons] at hcalls
    obtain ⟨next, hcall, hrest⟩ := Except.bind_eq_ok.mp hcalls
    exact ih (h.afterCall hcall) hrest

/-- A method with its record in memory, one whose linked method is out of reach, and events of which
one fails. -/
def sampleCalls : List SessionCall :=
  [.compileAll sampleEvents, .reload,
    .compile
      { CompiledMethod.sampleEvent with
        metadata :=
          { CompiledMethod.sampleEvent.metadata with
            start := ⟨0x3000⟩, stop := ⟨0x3010⟩, linkedMethod := ⟨0x9000⟩ } },
    .compile { CompiledMethod.sampleEvent with instructions := [] }]

/-- The session on which `sampleCalls` begin. -/
def bareSample : Session :=
  { sample with registry := {}, memory := sampleMemory }

end Session

end CompiledFrames
