import Mathlib.Data.List.Forall2
import CompiledFrames.BinaryImage
import CompiledFrames.Proofs.Memory.Holds
import CompiledFrames.Proofs.Symbol.Resolution

/-!
# Relocation

An image that is loaded at another address has the same symbols at other places, all moved by one
distance. As long as nothing wraps around, two places compare as they did before, and this is all
that a module asks of them: where a new symbol goes, whether the module admits a place, which symbol
is the last one at or before it, and whether that one covers it. So the two modules are built in
step and answer in step.

## Main definitions

* `Address.Moved`, `Symbol.Moved`, `SymbolModule.Moved`: places, symbols and modules that belong to
  one another when all is moved
* `ObjectFile.FitsAt`: nothing of a file wraps around at a load address

## Main results

* `SymbolModule.Moved.push`, `SymbolModule.Moved.lookup?`: a module is built and asked in step
* `ObjectFile.definitions_moved`: the symbols of a file at two load addresses
* `BinaryImage.load_cases`: loading an image fails or not whatever the load address is
* `BinaryImage.load_relocated`: relocation commutes with looking symbols up
-/

namespace CompiledFrames

/-! ## Places -/

namespace Address

variable {first second a b c d : Address}

/-- Seen from `second`, the place `b` is where `a` is seen from `first`. -/
def Moved (first second a b : Address) : Prop :=
  (b.toNat : Int) - a.toNat = second.toNat - first.toNat

theorem Moved.le_iff (h : Moved first second a b) (h' : Moved first second c d) :
    a ≤ c ↔ b ≤ d := by
  unfold Moved at h h'
  rw [Address.le_iff, Address.le_iff]
  omega

theorem Moved.lt_iff (h : Moved first second a b) (h' : Moved first second c d) :
    a < c ↔ b < d := by
  rw [← Address.not_le, ← Address.not_le, h'.le_iff h]

theorem Moved.sub_eq (h : Moved first second a b) (h' : Moved first second c d) :
    a.toNat - c.toNat = b.toNat - d.toNat := by
  unfold Moved at h h'
  omega

theorem toNat_offset (a : Address) (n : Int) :
    ((a.offset n).toNat : Int) = (a.toNat + n) % 0x10000000000000000 := by
  have hn : (UInt64.ofInt n).toNat = (n % 0x10000000000000000).toNat := by
    have hlt : n % 0x10000000000000000 < 0x10000000000000000 := Int.emod_lt_of_pos n (by decide)
    simp [UInt64.ofInt, hlt]
  show ((a.val + UInt64.ofInt n).toNat : Int) = _
  rw [UInt64.toNat_add, hn, toNat]
  omega

/-- The places at one distance from both load addresses. -/
theorem moved_offset {n : Int}
    (h : 0 ≤ first.toNat + n) (hlt : first.toNat + n < 0x10000000000000000)
    (h' : 0 ≤ second.toNat + n) (hlt' : second.toNat + n < 0x10000000000000000) :
    Moved first second (first.offset n) (second.offset n) := by
  have hfirst := toNat_offset first n
  have hsecond := toNat_offset second n
  rw [Int.emod_eq_of_lt h hlt] at hfirst
  rw [Int.emod_eq_of_lt h' hlt'] at hsecond
  unfold Moved
  omega

end Address

/-! ## Symbols -/

variable {first second a b : Address}

/-- A symbol and the same symbol after a move, neither of them around the end. -/
structure Symbol.Moved (first second : Address) (symbol moved : Symbol) : Prop where
  name : moved.name = symbol.name
  size : moved.size = symbol.size
  address : Address.Moved first second symbol.address moved.address
  fits : symbol.Fits
  fits' : moved.Fits

theorem Symbol.Moved.covers_iff {symbol moved : Symbol} (h : symbol.Moved first second moved)
    (hplace : Address.Moved first second a b) : symbol.Covers a ↔ moved.Covers b := by
  have haddress := h.address
  rw [h.fits.covers_iff, h.fits'.covers_iff, h.size]
  refine or_congr_right ?_
  unfold Address.Moved at haddress hplace
  omega

/-! ## Modules -/

section Lists

variable {α β : Type} {R : α → β → Prop} {l : List α} {l' : List β} {p : α → Bool} {q : β → Bool}

theorem forall₂_takeWhile (h : List.Forall₂ R l l') (hpq : ∀ x y, R x y → p x = q y) :
    List.Forall₂ R (l.takeWhile p) (l'.takeWhile q) := by
  induction h with
  | nil => exact .nil
  | cons hxy _ ih =>
    simp only [List.takeWhile_cons, hpq _ _ hxy]
    split
    · exact .cons hxy ih
    · exact .nil

theorem forall₂_dropWhile (h : List.Forall₂ R l l') (hpq : ∀ x y, R x y → p x = q y) :
    List.Forall₂ R (l.dropWhile p) (l'.dropWhile q) := by
  induction h with
  | nil => exact .nil
  | cons hxy hrest ih =>
    simp only [List.dropWhile_cons, hpq _ _ hxy]
    split
    · exact ih
    · exact .cons hxy hrest

theorem forall₂_filterMap {γ : Type} {f : γ → Option α} {g : γ → Option β} {l : List γ}
    (h : ∀ x ∈ l, Option.Rel R (f x) (g x)) : List.Forall₂ R (l.filterMap f) (l.filterMap g) := by
  have hsame : List.Forall₂ (fun x y => x = y ∧ x ∈ l) l l :=
    List.forall₂_same.mpr fun x hx => ⟨rfl, hx⟩
  refine List.rel_filterMap ?_ hsame
  rintro x _ ⟨rfl, hx⟩
  exact h x hx

theorem rel_head? (h : List.Forall₂ R l l') : Option.Rel R l.head? l'.head? := by
  cases h with
  | nil => exact .none
  | cons hxy _ => exact .some hxy

theorem rel_getLast? (h : List.Forall₂ R l l') : Option.Rel R l.getLast? l'.getLast? := by
  rw [← List.head?_reverse, ← List.head?_reverse]
  exact rel_head? (List.forall₂_reverse_iff.mpr h)

theorem rel_filter {o : Option α} {o' : Option β} (h : Option.Rel R o o')
    (hpq : ∀ x y, R x y → p x = q y) : Option.Rel R (o.filter p) (o'.filter q) := by
  cases h with
  | none => exact .none
  | some hxy =>
    simp only [Option.filter_some, hpq _ _ hxy]
    split
    · exact .some hxy
    · exact .none

end Lists

/-- A module and the same module after a move. -/
structure SymbolModule.Moved (first second : Address) (m moved : SymbolModule) : Prop where
  range : Option.Rel (fun range range' => Address.Moved first second range.1 range'.1 ∧
    Address.Moved first second range.2 range'.2) m.range moved.range
  symbols : List.Forall₂ (Symbol.Moved first second) m.symbols moved.symbols

namespace SymbolModule

variable {m moved : SymbolModule}

theorem Moved.admits_iff (h : m.Moved first second moved) (hplace : Address.Moved first second a b) :
    m.Admits a ↔ moved.Admits b := by
  have hrange := h.range
  unfold Admits
  generalize m.range = range, moved.range = range' at hrange
  cases hrange with
  | none => rfl
  | some hends => exact and_congr (hends.1.le_iff hplace) (hplace.lt_iff hends.2)

/-- The same symbol is added at the same position. -/
theorem Moved.push (h : m.Moved first second moved) {symbol symbol' : Symbol}
    (hsymbol : symbol.Moved first second symbol') :
    (m.push symbol).Moved first second (moved.push symbol') where
  range := h.range
  symbols := by
    have hle : ∀ s t : Symbol, s.Moved first second t →
        decide (s.address ≤ symbol.address) = decide (t.address ≤ symbol'.address) :=
      fun s t hst => decide_eq_decide.mpr (hst.address.le_iff hsymbol.address)
    exact List.rel_append (forall₂_takeWhile h.symbols hle)
      (.cons hsymbol (forall₂_dropWhile h.symbols hle))

theorem Moved.pushAll (h : m.Moved first second moved) {symbols symbols' : List Symbol}
    (hsymbols : List.Forall₂ (Symbol.Moved first second) symbols symbols') :
    (m.pushAll symbols).Moved first second (moved.pushAll symbols') := by
  induction hsymbols generalizing m moved with
  | nil => exact h
  | cons hsymbol _ ih => exact ih (h.push hsymbol)

/-- **A module is asked in step**: at places that belong to one another it finds symbols that belong
to one another, or none. -/
theorem Moved.lookup? (h : m.Moved first second moved) (hplace : Address.Moved first second a b) :
    Option.Rel (Symbol.Moved first second) (m.lookup? a) (moved.lookup? b) := by
  have hle : ∀ s t : Symbol, s.Moved first second t →
      decide (s.address ≤ a) = decide (t.address ≤ b) :=
    fun s t hst => decide_eq_decide.mpr (hst.address.le_iff hplace)
  unfold SymbolModule.lookup?
  simp only [h.admits_iff hplace]
  split_ifs
  · exact rel_filter (rel_getLast? (forall₂_takeWhile h.symbols hle))
      fun s t hst => decide_eq_decide.mpr (hst.covers_iff hplace)
  · exact .none

end SymbolModule

/-! ## Files -/

namespace ObjectFile

variable {object : ObjectFile}

/-- Nothing of a file wraps around when its lowest segment is at `load`: not the end of the module,
and neither the place nor the end of a symbol that is used. -/
structure FitsAt (object : ObjectFile) (load : Address) : Prop where
  range : load.toNat + object.size < 0x10000000000000000
  symbols : ∀ symbol ∈ object.symbols ++ object.dynamicSymbols, symbol.IsUsed →
    ∀ name, symbol.name = some name → name ≠ "" →
      object.base ≤ load.toNat + symbol.address.toNat ∧
        load.toNat + symbol.address.toNat + symbol.size.toNat <
          object.base + 0x10000000000000000

/-- The place of a symbol after the move, if neither end of memory is in the way. -/
theorem toNat_relocated {load : Address} {value base : Nat} (hlow : base ≤ load.toNat + value)
    (hhigh : load.toNat + value < base + 0x10000000000000000) :
    (load + value - base : Address).toNat = load.toNat + value - base := by
  -- there is only one word that leads back to the place before the subtraction
  have hback := congrArg Address.toNat (Address.sub_add_cancel (load + value) base)
  have hlt := (load + value - base : Address).toNat_lt
  rw [Address.toNat_add, Address.toNat_add] at hback
  omega

theorem moved_symbol (name : String) {value base : Nat} {size : UInt64}
    (h : base ≤ first.toNat + value ∧
      first.toNat + value + size.toNat < base + 0x10000000000000000)
    (h' : base ≤ second.toNat + value ∧
      second.toNat + value + size.toNat < base + 0x10000000000000000) :
    (Symbol.mk name (first + value - base) size).Moved first second
      ⟨name, second + value - base, size⟩ := by
  have hplace := toNat_relocated h.1 (by omega)
  have hplace' := toNat_relocated h'.1 (by omega)
  refine ⟨rfl, rfl, ?_, ?_, ?_⟩
  · show ((second + value - base : Address).toNat : Int) - (first + value - base : Address).toNat = _
    omega
  · show (first + value - base : Address).toNat + size.toNat < 0x10000000000000000
    omega
  · show (second + value - base : Address).toNat + size.toNat < 0x10000000000000000
    omega

/-- **The symbols of a file** at two load addresses. -/
theorem definitions_moved (h : object.FitsAt first) (h' : object.FitsAt second) :
    List.Forall₂ (Symbol.Moved first second) (object.definitions first)
      (object.definitions second) := by
  unfold definitions
  refine forall₂_filterMap fun symbol hsymbol => ?_
  obtain ⟨hmem, hused⟩ := List.mem_filter.mp hsymbol
  have hused : symbol.IsUsed := of_decide_eq_true hused
  cases hname : symbol.name.filter (· ≠ "") with
  | none => exact .none
  | some name =>
    obtain ⟨hsome, hne⟩ := Option.filter_eq_some_iff.mp hname
    have hne : name ≠ "" := of_decide_eq_true hne
    exact .some (moved_symbol name (h.symbols symbol hmem hused name hsome hne)
      (h'.symbols symbol hmem hused name hsome hne))

end ObjectFile

/-! ## Images -/

namespace SymbolTable

/-- A table with one module resolves as the module does. -/
theorem resolve?_addModule (m : SymbolModule) (a : Address) :
    (({} : SymbolTable).addModule m).resolve? a =
      (m.lookup? a).map fun symbol =>
        ⟨symbol.name, m.name, symbol.address, a.toNat - symbol.address.toNat⟩ := by
  unfold resolve? candidates addModule
  cases hfound : m.lookup? a <;> simp [hfound, closer]

end SymbolTable

namespace BinaryImage

variable {files : String → Except FileProblem (Array UInt8)} {format : ObjectFormat}
  {file : Array UInt8} {object : ObjectFile}

theorem load_of_error (image : BinaryImage) {problem : FileProblem}
    (h : files image.path = .error problem) : image.load files format = .error (.file problem) := by
  unfold load
  rw [h]
  rfl

theorem load_of_ok (image : BinaryImage) (h : files image.path = .ok file) :
    image.load files format = image.ofFile file format := by
  unfold load
  rw [h]
  rfl

theorem ofFile_of_none (image : BinaryImage) (h : format.read file = none) :
    image.ofFile file format = .error .object := by
  simp only [ofFile, h]

theorem ofFile_of_some (image : BinaryImage) (h : format.read file = some object) :
    image.ofFile file format = image.ofObject object := by
  simp only [ofFile, h]

/-- **Loading an image** succeeds with the module of its file, or fails for a reason that does not
depend on the load address. -/
theorem load_cases (path : String) (files : String → Except FileProblem (Array UInt8))
    (format : ObjectFormat) :
    (∃ e, ∀ address, (BinaryImage.mk path address).load files format = .error e) ∨
      ∃ file object, files path = .ok file ∧ format.read file = some object ∧
        ∀ address, (BinaryImage.mk path address).load files format =
          .ok (moduleOf ⟨path, address⟩ object) := by
  cases hfile : files path with
  | error problem => exact .inl ⟨_, fun address => load_of_error ⟨path, address⟩ hfile⟩
  | ok file =>
    have hload (address : Address) :
        (BinaryImage.mk path address).load files format = ofFile ⟨path, address⟩ file format :=
      load_of_ok ⟨path, address⟩ hfile
    cases hobject : format.read file with
    | none =>
      exact .inl ⟨_, fun address => (hload address).trans (ofFile_of_none _ hobject)⟩
    | some object =>
      simp only [hload, ofFile_of_some _ hobject, ofObject]
      cases hmachine : object.machine with
      | other name => exact .inl ⟨_, fun _ => rfl⟩
      | known architecture =>
        cases architecture with
        | riscv64 => exact .inr ⟨file, object, rfl, hobject, fun _ => rfl⟩
        | arm64 | x86_64 => exact .inl ⟨_, fun _ => rfl⟩

/-- The module of a file at two load addresses. -/
theorem moduleOf_moved (path : String) (h : object.FitsAt first) (h' : object.FitsAt second) :
    (moduleOf ⟨path, first⟩ object).Moved first second (moduleOf ⟨path, second⟩ object) := by
  refine SymbolModule.Moved.pushAll ⟨?_, .nil⟩ (ObjectFile.definitions_moved h h')
  have hstart : Address.Moved first second first second := rfl
  have hstop : Address.Moved first second (first + object.size) (second + object.size) := by
    unfold Address.Moved
    rw [Address.toNat_add, Address.toNat_add, Nat.mod_eq_of_lt h.range, Nat.mod_eq_of_lt h'.range]
    omega
  simp only [SymbolModule.empty]
  split_ifs
  · exact .none
  · exact .some ⟨hstart, hstop⟩

/-- **Relocation commutes with looking symbols up**, however files are read. An image is loaded at
two addresses. Either both fail, with the same error, or both succeed. If nothing of the file wraps
around at either of them, the two modules have the same symbols in the same order, the addresses
differing by what the load addresses differ by; and at any distance from the load addresses that
leads out of memory in neither case, both find no symbol, or both find one with the same name and
offset. -/
theorem load_relocated (format : ObjectFormat) (path : String)
    (files : String → Except FileProblem (Array UInt8)) (first second : Address) :
    ((∃ e, (BinaryImage.mk path first).load files format = .error e ∧
        (BinaryImage.mk path second).load files format = .error e) ∨
      ∃ m moved, (BinaryImage.mk path first).load files format = .ok m ∧
        (BinaryImage.mk path second).load files format = .ok moved) ∧
    ∀ file object m moved, files path = .ok file → format.read file = some object →
      object.FitsAt first → object.FitsAt second →
      (BinaryImage.mk path first).load files format = .ok m →
      (BinaryImage.mk path second).load files format = .ok moved →
        List.Forall₂ (fun symbol symbol' => symbol'.name = symbol.name ∧
            symbol'.size = symbol.size ∧
            (symbol'.address.toNat : Int) - symbol.address.toNat = second.toNat - first.toNat)
          m.symbols moved.symbols ∧
        ∀ d : Int, 0 ≤ first.toNat + d → first.toNat + d < 0x10000000000000000 →
          0 ≤ second.toNat + d → second.toNat + d < 0x10000000000000000 →
            ((({} : SymbolTable).addModule m).resolve? (first.offset d)).map
                (fun place => (place.name, place.offset)) =
              ((({} : SymbolTable).addModule moved).resolve? (second.offset d)).map
                fun place => (place.name, place.offset) := by
  refine ⟨?_, ?_⟩
  · rcases load_cases path files format with ⟨e, hload⟩ | ⟨file, object, -, -, hload⟩
    · exact .inl ⟨e, hload first, hload second⟩
    · exact .inr ⟨_, _, hload first, hload second⟩
  · intro file object m moved hfile hobject hfits hfits' hm hmoved
    have hpair : m.Moved first second moved := by
      rcases load_cases path files format with
        ⟨e, hload⟩ | ⟨file', object', hfile', hobject', hload⟩
      · rw [hload] at hm
        cases hm
      · obtain rfl := Except.ok.inj (hfile.symm.trans hfile')
        obtain rfl := Option.some.inj (hobject.symm.trans hobject')
        obtain rfl := Except.ok.inj ((hload first).symm.trans hm)
        obtain rfl := Except.ok.inj ((hload second).symm.trans hmoved)
        exact moduleOf_moved path hfits hfits'
    refine ⟨hpair.symbols.imp fun symbol symbol' h => ⟨h.name, h.size, h.address⟩, ?_⟩
    intro d hlow hhigh hlow' hhigh'
    have hplace := Address.moved_offset hlow hhigh hlow' hhigh'
    rw [SymbolTable.resolve?_addModule, SymbolTable.resolve?_addModule, Option.map_map,
      Option.map_map]
    have hfound := hpair.lookup? hplace
    generalize m.lookup? (first.offset d) = found,
      moved.lookup? (second.offset d) = found' at hfound
    cases hfound with
    | none => rfl
    | some hsymbol =>
      exact congrArg some (Prod.ext hsymbol.name.symm (hplace.sub_eq hsymbol.address))

/-! ### A file with two symbols -/

/-- A record of numbers, the least byte of each number first. -/
def recordBytes (widths numbers : List Nat) : List UInt8 :=
  (widths.zip numbers).flatMap fun (width, n) => littleBytes width n

/-- A file with one segment, a function and, at the lowest place, data of unknown size. Behind the
headers come the names, the symbols and the sections. -/
def sampleFile : Array UInt8 :=
  ([0x7f, 0x45, 0x4c, 0x46, 2, 1, 1, 0, 0, 0, 0, 0, 0, 0, 0, 0] ++
    recordBytes (ElfHeader.widths .elf64) [3, 243, 1, 0, 64, 197, 0, 64, 56, 1, 64, 3, 1] ++
    recordBytes (ElfProgram.widths .elf64) [1, 5, 0, 0x1000, 0, 0, 0x200, 0] ++
    [0, 0x66, 0, 0x67, 0] ++
    recordBytes (ElfSymbol.widths .elf64) [0, 0, 0, 0, 0, 0] ++
    recordBytes (ElfSymbol.widths .elf64) [1, 0x12, 0, 1, 0x1010, 0x20] ++
    recordBytes (ElfSymbol.widths .elf64) [3, 0x11, 0, 1, 0x1000, 0] ++
    recordBytes (ElfSection.widths .elf64) [0, 0, 0, 0, 0, 0, 0, 0, 0, 0] ++
    recordBytes (ElfSection.widths .elf64) [0, 3, 0, 0, 120, 5, 0, 0, 1, 0] ++
    recordBytes (ElfSection.widths .elf64) [0, 2, 0, 0, 125, 72, 1, 1, 1, 24]).toArray

/-- What `sampleFile` says. -/
def sampleObject : ObjectFile where
  machine := .known .riscv64
  segments := [⟨⟨0x1000⟩, 0x200⟩]
  symbols := [⟨some "f", .code, true, ⟨0x1010⟩, 0x20⟩, ⟨some "g", .data, true, ⟨0x1000⟩, 0⟩]
  dynamicSymbols := []

theorem read_sampleFile : ObjectFormat.elf.read sampleFile = some sampleObject := by
  decide +kernel

theorem fitsAt_sampleObject {load : Address} (h : load.toNat < 0x80000000) :
    sampleObject.FitsAt load := by
  have hsize : sampleObject.size = 0x200 := by decide
  have hbase : sampleObject.base = 0x1000 := by decide
  have hplaces : ∀ symbol ∈ sampleObject.symbols ++ sampleObject.dynamicSymbols,
      0x1000 ≤ symbol.address.toNat ∧ symbol.address.toNat + symbol.size.toNat < 0x2000 := by
    decide
  refine ⟨by omega, fun symbol hsymbol _ _ _ _ => ?_⟩
  have hplace := hplaces symbol hsymbol
  omega

/-- Of an ELF file, at both load addresses the function is found eight bytes behind its start. -/
theorem load_relocated_sample :
    ObjectFormat.elf.read sampleFile = some sampleObject ∧
      sampleObject.FitsAt ⟨0x40000000⟩ ∧ sampleObject.FitsAt ⟨0x10⟩ ∧
      ∃ m moved : SymbolModule,
        (BinaryImage.mk "lib.so" ⟨0x40000000⟩).load (fun _ => .ok sampleFile) .elf = .ok m ∧
        (BinaryImage.mk "lib.so" ⟨0x10⟩).load (fun _ => .ok sampleFile) .elf = .ok moved ∧
        m.symbols.map (·.address) = [⟨0x40000000⟩, ⟨0x40000010⟩] ∧
        ((({} : SymbolTable).addModule m).resolve? ⟨0x40000018⟩).map
          (fun place => (place.name, place.offset)) = some ("f", 8) ∧
        ((({} : SymbolTable).addModule moved).resolve? ⟨0x28⟩).map
          (fun place => (place.name, place.offset)) = some ("f", 8) := by
  have hfits : sampleObject.FitsAt ⟨0x40000000⟩ := fitsAt_sampleObject (by decide)
  have hfits' : sampleObject.FitsAt ⟨0x10⟩ := fitsAt_sampleObject (by decide)
  have hload (address : Address) :
      (BinaryImage.mk "lib.so" address).load (fun _ => .ok sampleFile) .elf =
        .ok (moduleOf ⟨"lib.so", address⟩ sampleObject) :=
    (load_of_ok _ rfl).trans (ofFile_of_some _ read_sampleFile)
  obtain ⟨-, hmoved⟩ :=
    load_relocated .elf "lib.so" (fun _ => .ok sampleFile) ⟨0x40000000⟩ ⟨0x10⟩
  obtain ⟨-, hresolve⟩ := hmoved _ _ _ _ rfl read_sampleFile hfits hfits' (hload _) (hload _)
  have hfound : ((({} : SymbolTable).addModule
      (moduleOf ⟨"lib.so", ⟨0x40000000⟩⟩ sampleObject)).resolve? ⟨0x40000018⟩).map
        (fun place => (place.name, place.offset)) = some ("f", 8) := by
    decide +kernel
  refine ⟨read_sampleFile, hfits, hfits', _, _, hload _, hload _, by decide +kernel, hfound, ?_⟩
  exact (hresolve 0x18 (by decide) (by decide) (by decide) (by decide)).symm.trans hfound

end BinaryImage

end CompiledFrames
