import CompiledFrames.Proofs.LineTable.Range
import CompiledFrames.Proofs.Memory.Segments
import CompiledFrames.Proofs.Session.Reloading

/-!
# Memory that grows

What becomes of a method when more of the process can be read than before. Every reader asks for the
next bytes by what it has read so far and gives up at the first read that fails: none goes another
way instead. So what has been read of a smaller memory is read of a larger one, up to the whole
method. The converse fails, and so does the same for errors, which may turn into methods.

## Main definitions

* `LessDefined`: what is the result of one computation is that of another one
* `Memory.ExtendedBy`: each read that succeeds gives the same bytes in another memory

## Main results

* `MethodRecord.lessDefined_walk`: the walk over sections, whose steps depend on what it finds
* `LineTable.lessDefined_readEntries`: the entries of a line table, whose lengths do
* `CompiledMethod.lessDefined_build`: a method that can be built is built from more memory as well
* `Registry.getElem?_reload_of_extendedBy`: a reload over more memory keeps those methods
* `MemoryImage.Orderly.extendedBy_insert`: one more segment, apart from the others, is more memory
* `Session.reload_of_extendedBy`: building and reloading over more memory
-/

namespace CompiledFrames

/-! ## Computations with more results -/

/-- If the first computation has a result, the second one has the same. -/
def LessDefined {ε α : Type} (x y : Except ε α) : Prop :=
  ∀ a, x = .ok a → y = .ok a

namespace LessDefined

variable {ε ε' α β : Type} {x y : Except ε α} {f g : α → Except ε β}

theorem refl (x : Except ε α) : LessDefined x x :=
  fun _ h => h

theorem of_error (e : ε) (y : Except ε α) : LessDefined (.error e) y :=
  nofun

theorem bind (h : LessDefined x y) (hnext : ∀ a, LessDefined (f a) (g a)) :
    LessDefined (x >>= f) (y >>= g) := by
  intro b hb
  obtain ⟨a, hx, hf⟩ := Except.bind_eq_ok.mp hb
  exact Except.bind_eq_ok.mpr ⟨a, h a hx, hnext a b hf⟩

theorem map (h : LessDefined x y) (f : α → β) : LessDefined (x.map f) (y.map f) := by
  intro b hb
  obtain ⟨a, hx, hf⟩ := Except.map_eq_ok.mp hb
  exact Except.map_eq_ok.mpr ⟨a, h a hx, hf⟩

/-- How errors are reported does not matter, as only results are compared. -/
theorem mapError (h : LessDefined x y) (f g : ε → ε') :
    LessDefined (x.mapError f) (y.mapError g) := by
  intro a ha
  exact Except.mapError_eq_ok.mpr (h a (Except.mapError_eq_ok.mp ha))

theorem ite {c : Prop} [Decidable c] {z w : Except ε α} (hthen : LessDefined x y)
    (helse : LessDefined z w) : LessDefined (if c then x else z) (if c then y else w) := by
  by_cases hc : c
  · rw [if_pos hc, if_pos hc]
    exact hthen
  · rw [if_neg hc, if_neg hc]
    exact helse

end LessDefined

/-! ## Reads -/

/-- Each read that succeeds gives the same bytes in `more`. -/
def Memory.ExtendedBy (memory more : Memory) : Prop :=
  ∀ a n bytes, memory.readBytes a n = .ok bytes → more.readBytes a n = .ok bytes

namespace Memory.ExtendedBy

variable {memory more : Memory}

theorem readNat (h : memory.ExtendedBy more) (a : Address) (n : Nat) :
    LessDefined (memory.readNat a n) (more.readNat a n) :=
  LessDefined.map (h a n) littleEndian

theorem readU8 (h : memory.ExtendedBy more) (a : Address) :
    LessDefined (memory.readU8 a) (more.readU8 a) :=
  (h.readNat a 1).map _

theorem readU16 (h : memory.ExtendedBy more) (a : Address) :
    LessDefined (memory.readU16 a) (more.readU16 a) :=
  (h.readNat a 2).map _

theorem readU32 (h : memory.ExtendedBy more) (a : Address) :
    LessDefined (memory.readU32 a) (more.readU32 a) :=
  (h.readNat a 4).map _

theorem readU64 (h : memory.ExtendedBy more) (a : Address) :
    LessDefined (memory.readU64 a) (more.readU64 a) :=
  (h.readNat a 8).map _

theorem readText (h : memory.ExtendedBy more) (a : Address) :
    LessDefined (memory.readText a) (more.readText a) := by
  apply (h.readU16 a).bind
  intro length
  apply LessDefined.bind (h (a + 2) length.toNat)
  intro bytes
  exact .refl _

end Memory.ExtendedBy

variable {memory more : Memory}

/-! ## Names and records -/

theorem MethodNames.lessDefined_read (h : memory.ExtendedBy more) (metadata : MethodMetadata) :
    LessDefined (MethodNames.read memory metadata) (MethodNames.read more metadata) := by
  apply (h.readText metadata.className).bind
  intro className
  apply (h.readText metadata.methodName).bind
  intro methodName
  apply (h.readText metadata.signature).bind
  intro signature
  exact .refl _

theorem MethodRecord.lessDefined_read (h : memory.ExtendedBy more) (a : Address) :
    LessDefined (MethodRecord.read memory a) (MethodRecord.read more a) := by
  apply LessDefined.bind (h a RecordHeader.size)
  intro bytes
  exact .refl _

theorem MethodMetadata.lessDefined_record (h : memory.ExtendedBy more)
    (metadata : MethodMetadata) : LessDefined (metadata.record memory) (metadata.record more) := by
  apply (h.readU64 metadata.linkedMethod).bind
  intro bytecodes
  exact MethodRecord.lessDefined_read h _

/-! ## Sections -/

namespace SectionKind

theorem lessDefined_readBlock (h : memory.ExtendedBy more) (a : Address) :
    LessDefined (readBlock memory a) (readBlock more a) := by
  apply (h.readU32 a).bind
  intro length
  apply LessDefined.ite
  · exact (h.readU8 _).bind fun _ => .refl _
  · exact .refl _

theorem lessDefined_readExceptions (h : memory.ExtendedBy more) (a : Address) :
    LessDefined (readExceptions memory a) (readExceptions more a) := by
  apply (h.readU16 a).bind
  intro catchCount
  apply (h.readU16 (a + 2)).bind
  intro throwCount
  apply LessDefined.ite
  · exact (h.readU8 _).bind fun _ => .refl _
  · exact .refl _

theorem lessDefined_read (h : memory.ExtendedBy more) (kind : SectionKind) (a : Address) :
    LessDefined (kind.read memory a) (kind.read more a) := by
  cases kind with
  | extendedModifiers | genericSignature => exact (h.readU32 a).map _
  | exceptionInfo => exact lessDefined_readExceptions h a
  | methodAnnotations | parameterAnnotations | defaultAnnotation | methodTypeAnnotations
  | codeTypeAnnotations => exact lessDefined_readBlock h a
  | debugInfo => exact .refl _

end SectionKind

theorem DebugInfo.lessDefined_read (h : memory.ExtendedBy more) (a : Address) :
    LessDefined (DebugInfo.read memory a) (DebugInfo.read more a) := by
  apply (h.readU32 a).bind
  intro variablesOffset
  apply (h.readU32 (a + 4)).bind
  intro rawCount
  apply (h.readU32 (a + 8)).bind
  intro variableCount
  exact .refl _

namespace MethodRecord

/-- **The walk over sections** finds the same ones. Where a section lies and whether it is there at
all is known by those before it, on which both walks agree. -/
theorem lessDefined_walk (h : memory.ExtendedBy more) (record : MethodRecord)
    (kinds : List SectionKind) (cursor : Address) (extended : ExtendedModifiers) :
    LessDefined (record.walk memory kinds cursor extended)
      (record.walk more kinds cursor extended) := by
  induction kinds generalizing cursor extended with
  | nil => exact .refl _
  | cons kind kinds ih =>
    rw [walk, walk]
    apply LessDefined.ite
    · apply ((SectionKind.lessDefined_read h kind cursor).mapError _ _).bind
      intro content
      apply (ih _ _).bind
      intro rest
      exact .refl _
    · exact ih cursor extended

theorem lessDefined_debugInfo (h : memory.ExtendedBy more) (record : MethodRecord) :
    LessDefined (record.debugInfo memory) (record.debugInfo more) := by
  apply ((lessDefined_walk h record _ _ _).map _).bind
  intro layout
  cases layout.address? .debugInfo with
  | none => exact .refl _
  | some address =>
    apply ((DebugInfo.lessDefined_read h address).mapError _ _).bind
    intro info
    exact .refl _

end MethodRecord

/-! ## Lines -/

/-- One entry is read with the same length and the same distances. -/
theorem LineEntry.lessDefined_readAt (h : memory.ExtendedBy more) (cursor : Address) :
    LessDefined (LineEntry.readAt memory cursor) (LineEntry.readAt more cursor) := by
  apply ((h.readU8 cursor).mapError _ _).bind
  intro lead
  -- how long the entry is follows from its first byte, which both memories have
  apply (LessDefined.refl _).bind
  intro length
  apply (LessDefined.mapError (h cursor length) _ _).bind
  intro entry
  exact .refl _

namespace LineTable

/-- **The entries of a line table** are the same. Each one begins where the one before it ends. -/
theorem lessDefined_readEntries (h : memory.ExtendedBy more) (method : String)
    (count index : Nat) (cursor : Address) (position : LinePosition) (table : LineTable) :
    LessDefined (readEntries memory method count index cursor position table)
      (readEntries more method count index cursor position table) := by
  induction count generalizing index cursor position table with
  | zero => exact .refl _
  | succ count ih =>
    rw [readEntries_succ, readEntries_succ]
    cases hentry : LineEntry.readAt memory cursor with
    | error reason => exact .of_error _ _
    | ok entry =>
      rw [LineEntry.lessDefined_readAt h cursor entry hentry]
      obtain ⟨distance, length⟩ := entry
      apply LessDefined.ite
      · cases table.put _ _ with
        | error e => exact .refl _
        | ok next => exact ih _ _ _ _
      · exact .refl _

theorem lessDefined_read (h : memory.ExtendedBy more) (info : DebugInfo) (method : String) :
    LessDefined (read memory info method) (read more info method) := by
  unfold read
  cases info.table? with
  | none => exact .refl _
  | some cursor => exact (lessDefined_readEntries h method _ _ _ _ _).map some

end LineTable

/-! ## Methods -/

namespace CompiledMethod

/-- **A method that can be built** is built from more memory with the same names and lines. -/
theorem lessDefined_build (h : memory.ExtendedBy more) (metadata : MethodMetadata)
    (bytecodes : BytecodeTable) (shape : CodeShape) :
    LessDefined (build memory metadata bytecodes shape) (build more metadata bytecodes shape) := by
  apply ((MethodNames.lessDefined_read h metadata).mapError _ _).bind
  intro names
  apply ((MethodMetadata.lessDefined_record h metadata).mapError _ _).bind
  intro record
  apply ((MethodRecord.lessDefined_debugInfo h record).mapError _ _).bind
  intro info
  cases info with
  | none => exact .refl _
  | some info =>
    apply (LineTable.lessDefined_read h info names.qualified).bind
    intro lines
    exact .refl _

theorem lessDefined_rebuild (h : memory.ExtendedBy more) (m : CompiledMethod) :
    LessDefined (m.rebuild memory) (m.rebuild more) :=
  lessDefined_build h m.metadata m.bytecodes m.shape

/-- What goes wrong over more memory has gone wrong before. -/
theorem not_rebuild_of_error {m : CompiledMethod} {failure : Failure} (h : memory.ExtendedBy more)
    (herror : m.rebuild more = .error failure) : ∀ built, m.rebuild memory ≠ .ok built := by
  intro built hbuilt
  have hmore := lessDefined_rebuild h m built hbuilt
  rw [herror] at hmore
  cases hmore

end CompiledMethod

namespace Registry

variable {registry reloaded : Registry} {errors : List Error} {m built : CompiledMethod}

/-- **A reload over more memory** has at its place each method that can be built over less. -/
theorem getElem?_reload_of_extendedBy (h : memory.ExtendedBy more)
    (hreload : registry.reload more = .ok (reloaded, errors)) {i : Nat}
    (hm : registry.methods[i]? = some m) (hbuilt : m.rebuild memory = .ok built) :
    reloaded.methods[i]? = some built := by
  obtain ⟨-, rfl, -⟩ := reload_eq_ok_iff.mp hreload
  have hmore : m.refreshed more = built :=
    CompiledMethod.refreshed_of_ok (CompiledMethod.lessDefined_rebuild h m built hbuilt)
  rw [List.getElem?_map, hm, Option.map_some, hmore]

end Registry

/-! ## One segment more -/

namespace MemoryImage

variable {image : MemoryImage} {s : Segment}

/-- **One more segment** that shares no byte with the others is more memory. -/
theorem Orderly.extendedBy_insert (h : image.Orderly) (hsolid : image.Solid) (hs : s.Fits)
    (hsome : s.bytes.size ≠ 0) (hnew : ∀ t ∈ image.segments, ¬ t.Overlaps s) :
    image.toMemory.ExtendedBy (image.insert s).toMemory := by
  intro a n bytes hread
  rw [Memory.readBytes_eq_ok_iff] at hread ⊢
  obtain ⟨t, ht, hin, rfl⟩ := exists_includes_of_window? hread
  have hkept : t ∈ (image.insert s).segments := by
    rw [mem_insert_iff]
    refine .inr ⟨ht, ?_⟩
    exact (Segment.apart_iff_not_overlaps (h.fits t ht) hs (hsolid t ht) hsome).mpr (hnew t ht)
  exact (h.insert hs).window?_of_includes (hsolid.insert hsome) hkept hin

end MemoryImage

/-! ## Reloading -/

namespace Session

/-- **More memory loses no method.** Whatever can be built over a memory is built over one in which
each of its reads gives the same, and it is the same method, with its names, lines and landmarks. A
reload of any registry over the larger memory has each such method at its place. If it ends in a trap
or reports an error, that is for a method which could not be built before. After any calls on a
session without methods, the methods that could be built are those that it has, and they stay. One
more segment that shares no byte with the others makes a memory larger. -/
theorem reload_of_extendedBy :
    (∀ (memory more : Memory) (metadata : MethodMetadata) (bytecodes : BytecodeTable)
        (shape : CodeShape) (m : CompiledMethod), memory.ExtendedBy more →
      CompiledMethod.build memory metadata bytecodes shape = .ok m →
      CompiledMethod.build more metadata bytecodes shape = .ok m) ∧
    (∀ (registry : Registry) (memory more : Memory), memory.ExtendedBy more →
      (∀ t, registry.reload more = .error t →
        ∃ m ∈ registry.methods, (∃ t', m.rebuild more = .error (.trap t')) ∧
          ∀ built, m.rebuild memory ≠ .ok built) ∧
      ∀ reloaded errors, registry.reload more = .ok (reloaded, errors) →
        reloaded.methods.length = registry.methods.length ∧
        (∀ (i : Nat) (m built : CompiledMethod), registry.methods[i]? = some m →
          m.rebuild memory = .ok built → reloaded.methods[i]? = some built) ∧
        ∀ e ∈ errors, ∃ m ∈ registry.methods, m.rebuild more = .error (.error e) ∧
          ∀ built, m.rebuild memory ≠ .ok built) ∧
    (∀ (first last next : Session) (calls : List SessionCall) (more : Memory)
        (errors : List Error), first.registry = {} → first.afterCalls calls = .ok last →
      first.memory.ExtendedBy more → (last.withMemory more).reload = .ok (next, errors) →
      ∀ (i : Nat) (m built : CompiledMethod), last.registry.methods[i]? = some m →
        m.rebuild first.memory = .ok built → built = m ∧ next.registry.methods[i]? = some m) ∧
    ∀ (image : MemoryImage) (s : Segment), image.Orderly → image.Solid → s.Fits →
      s.bytes.size ≠ 0 → (∀ t ∈ image.segments, ¬ t.Overlaps s) →
      image.toMemory.ExtendedBy (image.insert s).toMemory := by
  refine ⟨?_, ?_, ?_, ?_⟩
  · intro memory more metadata bytecodes shape m hmore hbuild
    exact CompiledMethod.lessDefined_build hmore metadata bytecodes shape m hbuild
  · intro registry memory more hmore
    constructor
    · intro t hreload
      obtain ⟨m, hm, t', htrap⟩ := Registry.exists_rebuild_of_trap hreload
      exact ⟨m, hm, ⟨t', htrap⟩, CompiledMethod.not_rebuild_of_error hmore htrap⟩
    · intro reloaded errors hreload
      refine ⟨?_, ?_, ?_⟩
      · obtain ⟨-, rfl, -⟩ := Registry.reload_eq_ok_iff.mp hreload
        rw [List.length_map]
      · intro i m built hm hbuilt
        exact Registry.getElem?_reload_of_extendedBy hmore hreload hm hbuilt
      · intro e he
        obtain ⟨m, hm, herror⟩ := Registry.exists_rebuild_of_error hreload he
        exact ⟨m, hm, herror, CompiledMethod.not_rebuild_of_error hmore herror⟩
  · intro first last next calls more errors hempty hcalls hmore hreload i m built hm hbuilt
    have hlast : last.UpToDate first.memory := (upToDate_of_empty hempty).afterCalls hcalls
    have hsame : built = m := by
      rw [← CompiledMethod.refreshed_of_ok hbuilt]
      exact (hlast.methods m (List.mem_of_getElem? hm)).refreshed
    obtain ⟨⟨registry, reported⟩, hregistry, hpair⟩ := Except.map_eq_ok.mp hreload
    obtain ⟨rfl, -⟩ := Prod.mk.inj hpair
    refine ⟨hsame, ?_⟩
    rw [← hsame]
    exact Registry.getElem?_reload_of_extendedBy hmore hregistry hm hbuilt
  · intro image s h hsolid hs hsome hnew
    exact h.extendedBy_insert hsolid hs hsome hnew

/-- The image with the method that `sampleCalls` find. -/
def sampleImage : MemoryImage :=
  ({} : MemoryImage).map ⟨0x5000⟩ CompiledMethod.sampleBytes

/-- The linked method that is out of reach of `sampleCalls`. -/
def sampleLinked : Segment :=
  ⟨⟨0x9000⟩, (littleBytes 8 0x502b).toArray⟩

/-- With the linked method mapped, the one method gets its lines and the other one stays. -/
theorem reload_of_extendedBy_sample :
    ∃ last next errors m,
      bareSample.afterCalls sampleCalls = .ok last ∧
      (last.withMemory (sampleImage.insert sampleLinked).toMemory).reload = .ok (next, errors) ∧
      last.registry.methods.map (·.lines.isSome) = [false, true] ∧
      next.registry.methods.map (·.lines.isSome) = [true, true] ∧
      next.registry.methods.length = last.registry.methods.length ∧
      last.registry.methods[1]? = some m ∧ next.registry.methods[1]? = some m ∧
      m.rebuild (sampleImage.insert sampleLinked).toMemory = .ok m := by
  obtain ⟨hbuild, hregistry, hreload, hinsert⟩ := reload_of_extendedBy
  have hfits : (⟨⟨0x5000⟩, CompiledMethod.sampleBytes.toArray⟩ : Segment).Fits := by
    decide +kernel
  have hsolid : sampleImage.Solid := by
    intro s hs
    obtain rfl := List.mem_singleton.mp hs
    decide +kernel
  have hnew : ∀ s ∈ sampleImage.segments, ¬ s.Overlaps sampleLinked := by
    intro s hs
    obtain rfl := List.mem_singleton.mp hs
    exact Segment.Apart.not_overlaps hfits (by decide +kernel) (by decide +kernel)
  have hmore : sampleMemory.ExtendedBy (sampleImage.insert sampleLinked).toMemory :=
    hinsert sampleImage sampleLinked (MemoryImage.orderly_empty.insert hfits) hsolid
      (by decide +kernel) (by decide +kernel) hnew
  have hrun : (bareSample.afterCalls sampleCalls >>= fun last =>
      (last.withMemory (sampleImage.insert sampleLinked).toMemory).reload.map fun result =>
        (last.registry.methods.map (·.lines.isSome),
          result.1.registry.methods.map (·.lines.isSome))) =
      .ok ([false, true], [true, true]) := by
    decide +kernel
  obtain ⟨last, hcalls, hrun⟩ := Except.bind_eq_ok.mp hrun
  obtain ⟨⟨next, errors⟩, hnext, hlines⟩ := Except.map_eq_ok.mp hrun
  obtain ⟨hbefore, hafter⟩ := Prod.mk.inj hlines
  obtain ⟨m, hm, hsome⟩ : ∃ m, last.registry.methods[1]? = some m ∧ m.lines.isSome = true := by
    have hsecond := congrArg (·[1]?) hbefore
    rw [List.getElem?_map] at hsecond
    exact Option.map_eq_some_iff.mp hsecond
  have hrebuild : m.rebuild sampleMemory = .ok m := by
    have hlast : last.UpToDate sampleMemory := (upToDate_of_empty rfl).afterCalls hcalls
    rcases hlast.methods m (List.mem_of_getElem? hm) with hok | ⟨e, -, hwithout⟩
    · exact hok
    · rw [hwithout] at hsome
      cases hsome
  have hlength : next.registry.methods.length = last.registry.methods.length := by
    obtain ⟨⟨registry, reported⟩, hreloaded, hpair⟩ := Except.map_eq_ok.mp hnext
    obtain ⟨rfl, -⟩ := Prod.mk.inj hpair
    exact ((hregistry last.registry sampleMemory _ hmore).2 registry reported hreloaded).1
  obtain ⟨-, hstays⟩ :=
    hreload bareSample last next sampleCalls _ errors rfl hcalls hmore hnext 1 m m hm hrebuild
  exact ⟨last, next, errors, m, hcalls, hnext, hbefore, hafter, hlength, hm, hstays,
    hbuild sampleMemory _ m.metadata m.bytecodes m.shape m hmore hrebuild⟩

end Session

end CompiledFrames
