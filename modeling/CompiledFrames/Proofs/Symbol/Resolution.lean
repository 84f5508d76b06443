import CompiledFrames.Proofs.Symbol.Calls

/-!
# Resolving places

Each module offers one symbol for a place, the last one at or before it, and among the modules those
that do not cover the place are passed over. Inside a module they are not: where symbols nest, or
share an address, a symbol that ends before the place can hide one that covers it. The place has no
name then, unless another module has one for it.

## Main definitions

* `Symbol.Fits`: the end of a symbol does not wrap around
* `Symbol.Spans`: a place lies inside a symbol whose size is known

## Main results

* `SymbolTable.resolve?_eq_none_iff`: a place without a name
* `SymbolModule.Ordered.exists_nearest?_of_spans`: what a module with a symbol around a place offers
* `SymbolTable.resolve?_ofCalls_of_spans`: when a place inside a symbol has a name
-/

namespace CompiledFrames

/-! ## Symbols -/

namespace Symbol

variable {symbol : Symbol} {a : Address}

/-- The end of the symbol is not past the last address. -/
def Fits (symbol : Symbol) : Prop :=
  symbol.address.toNat + symbol.size.toNat < 0x10000000000000000

instance (symbol : Symbol) : Decidable symbol.Fits :=
  inferInstanceAs (Decidable (_ < _))

/-- A place lies inside the symbol, whose size is known. -/
def Spans (symbol : Symbol) (a : Address) : Prop :=
  symbol.size ≠ 0 ∧ symbol.address ≤ a ∧ a.toNat < symbol.address.toNat + symbol.size.toNat

instance (symbol : Symbol) (a : Address) : Decidable (symbol.Spans a) :=
  inferInstanceAs (Decidable (_ ∧ _))

/-- A symbol whose end does not wrap around covers the places below its end, and all if its size is
not known. -/
theorem Fits.covers_iff (h : symbol.Fits) :
    symbol.Covers a ↔ symbol.size = 0 ∨ a.toNat < symbol.address.toNat + symbol.size.toNat := by
  have hend : (symbol.address + symbol.size.toNat).toNat =
      symbol.address.toNat + symbol.size.toNat := by
    rw [Address.toNat_add, Nat.mod_eq_of_lt h]
  unfold Covers
  rw [Address.lt_iff, hend]

/-- A symbol that begins at or before a place covers it if its size is not known or it spans it. -/
theorem Fits.covers_iff_spans (h : symbol.Fits) (hle : symbol.address ≤ a) :
    symbol.Covers a ↔ symbol.size = 0 ∨ symbol.Spans a := by
  rw [h.covers_iff]
  by_cases hsize : symbol.size = 0
  · exact iff_of_true (.inl hsize) (.inl hsize)
  · exact or_congr_right ⟨fun hlt => ⟨hsize, hle, hlt⟩, fun hspans => hspans.2.2⟩

end Symbol

/-! ## What a module offers -/

namespace SymbolModule

variable {m : SymbolModule} {symbol : Symbol} {a : Address}

/-- A module knows a place if the last symbol at or before it spans it or has no known size. -/
theorem Ordered.exists_lookup?_iff (h : m.Ordered) (hfits : ∀ s ∈ m.symbols, s.Fits) :
    (∃ found, m.lookup? a = some found) ↔
      m.Admits a ∧ ∃ near, m.nearest? a = some near ∧ (near.size = 0 ∨ near.Spans a) := by
  simp only [h.lookup?_eq_some_iff]
  rw [exists_and_left]
  refine and_congr_right fun _ => exists_congr fun near => and_congr_right fun hnear => ?_
  obtain ⟨hmem, hle⟩ := mem_and_le_of_nearest? hnear
  exact (hfits near hmem).covers_iff_spans hle

/-- A module with a symbol around a place offers one that spans the place too or has no known size,
or one that begins inside the symbol and ends before the place. -/
theorem Ordered.exists_nearest?_of_spans (h : m.Ordered) (hsymbol : symbol ∈ m.symbols)
    (hspans : symbol.Spans a) :
    ∃ near ∈ m.symbols, m.nearest? a = some near ∧ symbol.address ≤ near.address ∧
      ((near.size = 0 ∨ near.Spans a) ∨
        near.size ≠ 0 ∧ near.address.toNat + near.size.toNat ≤ a.toNat) := by
  obtain ⟨near, hnear, habove⟩ := h.exists_nearest? hsymbol hspans.2.1
  obtain ⟨hmem, hle⟩ := mem_and_le_of_nearest? hnear
  refine ⟨near, hmem, hnear, habove, ?_⟩
  by_cases hcovers : near.size = 0 ∨ near.Spans a
  · exact .inl hcovers
  · obtain ⟨hsize, hspans⟩ := not_or.mp hcovers
    exact .inr ⟨hsize, Nat.le_of_not_lt fun hlt => hspans ⟨hsize, hle, hlt⟩⟩

end SymbolModule

/-! ## What a table finds -/

namespace SymbolTable

variable {table : SymbolTable} {calls : List SymbolCall} {m : SymbolModule} {symbol : Symbol}
  {a : Address}

/-- The closest of some symbols is missing only if there are none. -/
theorem foldl_closer_eq_none_iff {found : List (SymbolModule × Symbol)}
    {best : Option (SymbolModule × Symbol)} :
    found.foldl closer best = none ↔ best = none ∧ found = [] := by
  induction found generalizing best with
  | nil => exact (and_iff_left rfl).symm
  | cons next rest ih =>
    have hsome : closer best next ≠ none := by
      cases best with
      | none => exact nofun
      | some first =>
        simp only [closer]
        split_ifs <;> exact nofun
    rw [List.foldl_cons, ih]
    exact iff_of_false (fun h => hsome h.1) nofun

/-- **A place without a name**: no module knows it. -/
theorem resolve?_eq_none_iff :
    table.resolve? a = none ↔ ∀ m ∈ table.modules, m.lookup? a = none := by
  unfold resolve? candidates
  rw [Option.map_eq_none_iff, foldl_closer_eq_none_iff, and_iff_right rfl,
    List.filterMap_eq_nil_iff]
  simp only [Option.map_eq_none_iff]

theorem exists_resolve?_iff :
    (∃ place, table.resolve? a = some place) ↔
      ∃ m ∈ table.modules, ∃ found, m.lookup? a = some found := by
  simp only [← Option.ne_none_iff_exists', ne_eq, resolve?_eq_none_iff, not_forall, exists_prop]

/-- **A place inside a symbol** of a module that admits it, in a table after any calls none of whose
symbols wraps around. It has a name just when the last symbol at or before it of some module that
admits it spans it or has no known size. Where it has none, that symbol of the module itself begins
inside the one around the place and ends before the place. -/
theorem resolve?_ofCalls_of_spans
    (hfits : ∀ call ∈ calls, ∀ symbol ∈ call.symbols, symbol.Fits)
    (hm : m ∈ (ofCalls calls).modules) (hadmits : m.Admits a)
    (hsymbol : symbol ∈ m.symbols) (hspans : symbol.Spans a) :
    ((∃ place, (ofCalls calls).resolve? a = some place) ↔
      ∃ other ∈ (ofCalls calls).modules, other.Admits a ∧
        ∃ near, other.nearest? a = some near ∧ (near.size = 0 ∨ near.Spans a)) ∧
    ((ofCalls calls).resolve? a = none →
      ∃ inner ∈ m.symbols, m.nearest? a = some inner ∧ symbol.address ≤ inner.address ∧
        inner.size ≠ 0 ∧ inner.address.toNat + inner.size.toNat ≤ a.toNat) := by
  have hordered : ∀ other ∈ (ofCalls calls).modules, other.Ordered :=
    fun other hother => ordered_of_mem_ofCalls hother
  have hfitsIn : ∀ other ∈ (ofCalls calls).modules, ∀ s ∈ other.symbols, s.Fits := by
    intro other hother s hs
    obtain ⟨call, hcall, hs⟩ := exists_call_of_mem_ofCalls hother hs
    exact hfits call hcall s hs
  refine ⟨?_, fun hnone => ?_⟩
  · rw [exists_resolve?_iff]
    exact exists_congr fun other => and_congr_right fun hother =>
      (hordered other hother).exists_lookup?_iff (hfitsIn other hother)
  · obtain ⟨near, hmem, hnear, habove, hcovers | ⟨hsize, hends⟩⟩ :=
      (hordered m hm).exists_nearest?_of_spans hsymbol hspans
    · obtain ⟨found, hfound⟩ := ((hordered m hm).exists_lookup?_iff (hfitsIn m hm)).mpr
        ⟨hadmits, near, hnear, hcovers⟩
      rw [resolve?_eq_none_iff.mp hnone m hm] at hfound
      cases hfound
    · exact ⟨near, hmem, hnear, habove, hsize, hends⟩

/-- A function that returns to the interpreter. -/
def sampleTrampoline : Symbol :=
  ⟨"returnFromJITI", ⟨0x5000⟩, 0x40⟩

/-- A label inside that function, eight bytes long. -/
def sampleLabel : Symbol :=
  ⟨"L_return", ⟨0x5010⟩, 8⟩

/-- The function with its label, and another one with a shorter entry at the same place. -/
def sampleCalls : List SymbolCall :=
  [.addSymbol "libj9jit29.so" sampleTrampoline, .addSymbol "libj9jit29.so" sampleLabel,
    .addModule "libj9vm29.so" (some (⟨0x9000⟩, ⟨0xa000⟩))
      [⟨"cInterpreter", ⟨0x9000⟩, 0x800⟩, ⟨"cInterpreterEntry", ⟨0x9000⟩, 0x10⟩]]

/-- The module of the function. -/
def sampleModule : SymbolModule :=
  ⟨"libj9jit29.so", none, [sampleTrampoline, sampleLabel]⟩

theorem sampleModule_mem : sampleModule ∈ (ofCalls sampleCalls).modules :=
  List.mem_cons_self

theorem resolve?_ofCalls_of_spans_sample :
    sampleTrampoline ∈ sampleModule.symbols ∧ sampleTrampoline.Spans ⟨0x5014⟩ ∧
      (∃ place, (ofCalls sampleCalls).resolve? ⟨0x5014⟩ = some place) ∧
      sampleTrampoline.Spans ⟨0x5020⟩ ∧ (ofCalls sampleCalls).resolve? ⟨0x5020⟩ = none ∧
      ∃ inner ∈ sampleModule.symbols, sampleModule.nearest? ⟨0x5020⟩ = some inner ∧
        sampleTrampoline.address ≤ inner.address ∧ inner.size ≠ 0 ∧
        inner.address.toNat + inner.size.toNat ≤ 0x5020 := by
  have hfits : ∀ call ∈ sampleCalls, ∀ symbol ∈ call.symbols, symbol.Fits := by decide
  have hmem : sampleTrampoline ∈ sampleModule.symbols := List.mem_cons_self
  have hlabel : sampleTrampoline.Spans ⟨0x5014⟩ := by decide
  have hbehind : sampleTrampoline.Spans ⟨0x5020⟩ := by decide
  have hnone : (ofCalls sampleCalls).resolve? ⟨0x5020⟩ = none := rfl
  obtain ⟨hfound, -⟩ := resolve?_ofCalls_of_spans hfits sampleModule_mem trivial hmem hlabel
  obtain ⟨-, hinner⟩ := resolve?_ofCalls_of_spans hfits sampleModule_mem trivial hmem hbehind
  refine ⟨hmem, hlabel, hfound.mpr ?_, hbehind, hnone, hinner hnone⟩
  exact ⟨sampleModule, sampleModule_mem, trivial, sampleLabel, rfl, .inr (by decide)⟩

/-- A place inside a symbol can lack a name: another symbol begins inside that one and ends before
the place. -/
theorem not_resolve?_of_spans :
    ¬ ∀ calls : List SymbolCall, (∀ call ∈ calls, ∀ symbol ∈ call.symbols, symbol.Fits) →
      ∀ m ∈ (ofCalls calls).modules, ∀ a, m.Admits a → ∀ symbol ∈ m.symbols, symbol.Spans a →
        ∃ place, (ofCalls calls).resolve? a = some place := by
  intro h
  obtain ⟨place, hplace⟩ := h sampleCalls (by decide) sampleModule sampleModule_mem ⟨0x5020⟩ trivial
    sampleTrampoline List.mem_cons_self (by decide)
  have hnone : (ofCalls sampleCalls).resolve? ⟨0x5020⟩ = none := rfl
  rw [hnone] at hplace
  cases hplace

end SymbolTable

end CompiledFrames
