import CompiledFrames.Proofs.Symbol.Scan

/-!
# Names bound once

A symbol table keeps its symbols in modules, where places are looked up, and beside them a list of
names with one address for each symbol that came. Both get the same symbols with each call: a name
is bound as soon as some module has a symbol of that name, and stays bound to the first of them,
whatever comes later.

Which one is the first is a question of order only inside a module that is added as a whole. Its
symbols count in the order in which it has stored them, and that is sorting them by address and
leaving those of one address in turn.

## Main definitions

* `SymbolCall.bound`: the symbols of a call in the order in which their names are bound

## Main results

* `eq_of_filter_eq`: a sorted list is known by its elements at each place
* `ModuleAccount.symbols_toModule`: a module stores its symbols sorted by address and in turn
* `SymbolTable.exists_mem_ofCalls_iff`: the modules have all symbols of the calls
* `SymbolTable.global?_ofCalls`: which names are bound, to which address, and for how long
-/

namespace CompiledFrames

/-! ## Sorting in turn -/

section Sorting

variable {α : Type} {place : α → Address} {l l' : List α} {first x : α}

theorem mem_iff_of_filter_eq
    (h : ∀ a, l.filter (place · = a) = l'.filter (place · = a)) : x ∈ l ↔ x ∈ l' := by
  have hiff : x ∈ l.filter (place · = place x) ↔ x ∈ l'.filter (place · = place x) := by
    rw [h]
  simpa using hiff

theorem first_le_of_mem (h : (first :: l).Pairwise (place · ≤ place ·)) (hx : x ∈ first :: l) :
    place first ≤ place x := by
  rcases List.mem_cons.mp hx with rfl | hx
  · exact Address.le_refl _
  · exact (List.pairwise_cons.mp h).1 x hx

/-- **Sorting in turn has one result**: a sorted list is known by its elements at each place. -/
theorem eq_of_filter_eq (h : l.Pairwise (place · ≤ place ·)) (h' : l'.Pairwise (place · ≤ place ·))
    (hturn : ∀ a, l.filter (place · = a) = l'.filter (place · = a)) : l = l' := by
  induction l generalizing l' with
  | nil =>
    cases l' with
    | nil => rfl
    | cons first' l' =>
      exact absurd ((mem_iff_of_filter_eq hturn).mpr List.mem_cons_self) List.not_mem_nil
  | cons first l ih =>
    cases l' with
    | nil => exact absurd ((mem_iff_of_filter_eq hturn).mp List.mem_cons_self) List.not_mem_nil
    | cons first' l' =>
      have hplace : place first = place first' :=
        Address.le_antisymm
          (first_le_of_mem h ((mem_iff_of_filter_eq hturn).mpr List.mem_cons_self))
          (first_le_of_mem h' ((mem_iff_of_filter_eq hturn).mp List.mem_cons_self))
      have hhead := hturn (place first)
      rw [List.filter_cons_of_pos (by simp), List.filter_cons_of_pos (by simp [hplace])] at hhead
      obtain ⟨rfl, -⟩ := List.cons.inj hhead
      refine congrArg _ (ih h.tail h'.tail fun a => ?_)
      have hall := hturn a
      simp only [List.filter_cons] at hall
      split_ifs at hall
      · exact (List.cons.inj hall).2
      · exact hall

variable (place) in
/-- The elements sorted by place, those of one place in turn. -/
def sortByPlace (l : List α) : List α :=
  l.mergeSort fun x y => place x ≤ place y

theorem perm_sortByPlace (l : List α) : (sortByPlace place l).Perm l :=
  List.mergeSort_perm l _

theorem decide_le_trans (x y z : α) (hxy : decide (place x ≤ place y) = true)
    (hyz : decide (place y ≤ place z) = true) : decide (place x ≤ place z) = true :=
  decide_eq_true (Address.le_trans (of_decide_eq_true hxy) (of_decide_eq_true hyz))

theorem decide_le_total (x y : α) :
    (decide (place x ≤ place y) || decide (place y ≤ place x)) = true := by
  simpa using Address.le_total (place x) (place y)

theorem pairwise_sortByPlace (l : List α) :
    (sortByPlace place l).Pairwise (place · ≤ place ·) :=
  (List.pairwise_mergeSort decide_le_trans decide_le_total l).imp of_decide_eq_true

theorem filter_sortByPlace (l : List α) (a : Address) :
    (sortByPlace place l).filter (place · = a) = l.filter (place · = a) := by
  have hsame : ∀ x ∈ l.filter (place · = a), place x = a := fun x hx =>
    of_decide_eq_true (List.mem_filter.mp hx).2
  have hsorted : (l.filter (place · = a)).Pairwise fun x y => decide (place x ≤ place y) = true := by
    refine List.pairwise_of_forall_mem_list fun x hx y hy => decide_eq_true ?_
    rw [hsame x hx, hsame y hy]
    exact Address.le_refl a
  -- elements in order stay in turn, so those of one place are found in turn in the sorted list
  have hsub : (l.filter (place · = a)).Sublist (sortByPlace place l) :=
    List.sublist_mergeSort decide_le_trans decide_le_total hsorted List.filter_sublist
  have hfilter := hsub.filter (place · = a)
  simp only [List.filter_filter, Bool.and_self] at hfilter
  exact (hfilter.eq_of_length ((perm_sortByPlace l).filter _).length_eq.symm).symm

end Sorting

namespace ModuleAccount

/-- **A module stores its symbols** sorted by address, those of one address in turn. -/
theorem symbols_toModule (account : ModuleAccount) :
    account.toModule.symbols = sortByPlace Symbol.address account.added := by
  have hstores := account.stores_toModule
  refine eq_of_filter_eq hstores.ordered (pairwise_sortByPlace _) fun a => ?_
  rw [hstores.inTurn, filter_sortByPlace]

end ModuleAccount

/-! ## Names and modules -/

/-- The symbols that a call brings, in the order in which their names are bound: those of a module
by address, and in turn at one address. -/
def SymbolCall.bound : SymbolCall → List Symbol
  | .addModule _ _ symbols => sortByPlace Symbol.address symbols
  | .addSymbol _ symbol => [symbol]

theorem SymbolCall.mem_bound_iff {call : SymbolCall} {symbol : Symbol} :
    symbol ∈ call.bound ↔ symbol ∈ call.symbols := by
  cases call with
  | addModule name range symbols => exact (perm_sortByPlace symbols).mem_iff
  | addSymbol name added => rfl

namespace SymbolTable

variable {table : SymbolTable} {call : SymbolCall} {calls : List SymbolCall}
  {modules : List SymbolModule} {name : String} {symbol added : Symbol} {a : Address}

/-- A symbol that is added on its own comes to those of the modules. -/
theorem exists_mem_pushInto_iff :
    (∃ m ∈ pushInto name added modules, symbol ∈ m.symbols) ↔
      symbol = added ∨ ∃ m ∈ modules, symbol ∈ m.symbols := by
  induction modules with
  | nil => simp [pushInto, SymbolModule.mem_push_iff, SymbolModule.empty]
  | cons m rest ih =>
    rw [pushInto]
    split_ifs with hname
    · simp only [List.exists_mem_cons_iff, SymbolModule.mem_push_iff, or_assoc]
    · simp only [List.exists_mem_cons_iff, ih]
      exact or_left_comm

/-- The symbols of a call come to those of the modules. -/
theorem exists_mem_after_iff :
    (∃ m ∈ (table.after call).modules, symbol ∈ m.symbols) ↔
      (∃ m ∈ table.modules, symbol ∈ m.symbols) ∨ symbol ∈ call.symbols := by
  cases call with
  | addModule name range symbols =>
    have hnew : symbol ∈ (ModuleAccount.toModule ⟨name, range, symbols⟩).symbols ↔
        symbol ∈ symbols := (ModuleAccount.stores_toModule _).perm.mem_iff
    rw [SymbolCall.symbols, ← hnew]
    simp only [after, addModule, List.mem_append, List.mem_singleton, or_and_right, exists_or,
      exists_eq_left]
    rfl
  | addSymbol name added =>
    rw [or_comm]
    refine exists_mem_pushInto_iff.trans (or_congr_left ?_)
    exact List.mem_singleton.symm

/-- The symbols of a call are bound behind those that came before. -/
theorem globals_after (table : SymbolTable) (call : SymbolCall) :
    (table.after call).globals =
      table.globals ++ call.bound.map fun symbol => (symbol.name, symbol.address) := by
  cases call with
  | addModule name range symbols =>
    have hstored := ModuleAccount.symbols_toModule ⟨name, range, symbols⟩
    rw [after, addModule, SymbolCall.bound, ← hstored]
    rfl
  | addSymbol name added => rfl

theorem ofCalls_concat (calls : List SymbolCall) (call : SymbolCall) :
    ofCalls (calls ++ [call]) = (ofCalls calls).after call := by
  rw [ofCalls, List.foldl_append]
  rfl

/-- **The modules of a table** have the symbols of the calls, and no others. -/
theorem exists_mem_ofCalls_iff :
    (∃ m ∈ (ofCalls calls).modules, symbol ∈ m.symbols) ↔ ∃ call ∈ calls, symbol ∈ call.symbols := by
  induction calls using List.reverseRecOn with
  | nil => simp [ofCalls]
  | append_singleton calls call ih =>
    rw [ofCalls_concat, exists_mem_after_iff, ih]
    simp only [List.mem_append, List.mem_singleton, or_and_right, exists_or, exists_eq_left]

theorem globals_ofCalls (calls : List SymbolCall) :
    (ofCalls calls).globals =
      (calls.flatMap SymbolCall.bound).map fun symbol => (symbol.name, symbol.address) := by
  induction calls using List.reverseRecOn with
  | nil => rfl
  | append_singleton calls call ih =>
    rw [ofCalls_concat, globals_after, ih, List.flatMap_append, List.map_append]
    simp

/-- A name leads to the first of all symbols that has it. -/
theorem global?_eq (calls : List SymbolCall) (name : String) :
    (ofCalls calls).global? name =
      ((calls.flatMap SymbolCall.bound).find? (·.name = name)).map (·.address) := by
  rw [global?, globals_ofCalls, List.find?_map, Option.map_map]
  rfl

theorem exists_global?_iff :
    (∃ a, (ofCalls calls).global? name = some a) ↔
      ∃ call ∈ calls, ∃ symbol ∈ call.symbols, symbol.name = name := by
  rw [← Option.isSome_iff_exists, global?_eq, Option.isSome_map, List.find?_isSome]
  simp only [List.mem_flatMap, SymbolCall.mem_bound_iff, decide_eq_true_eq]
  constructor
  · rintro ⟨symbol, ⟨call, hcall, hsymbol⟩, hname⟩
    exact ⟨call, hcall, symbol, hsymbol, hname⟩
  · rintro ⟨call, hcall, symbol, hsymbol, hname⟩
    exact ⟨symbol, ⟨call, hcall, hsymbol⟩, hname⟩

/-- **Names bound once**, in a table after any calls. A name is bound just when some module of the
table has a symbol of that name. It is bound to the address of the first symbol with that name, where
the symbols of a module that was added as a whole count as the module stores them: by address, and
in turn at one address. No later call changes the address of a bound name. -/
theorem global?_ofCalls (calls : List SymbolCall) (name : String) :
    ((∃ a, (ofCalls calls).global? name = some a) ↔
      ∃ m ∈ (ofCalls calls).modules, ∃ symbol ∈ m.symbols, symbol.name = name) ∧
    (ofCalls calls).global? name =
      ((calls.flatMap SymbolCall.bound).find? (·.name = name)).map (·.address) ∧
    (∀ moduleName range symbols,
      ((SymbolModule.empty moduleName range).pushAll symbols).symbols =
        (SymbolCall.addModule moduleName range symbols).bound) ∧
    ∀ a, (ofCalls calls).global? name = some a →
      ∀ later, (ofCalls (calls ++ later)).global? name = some a := by
  refine ⟨?_, global?_eq calls name, fun moduleName range symbols =>
    ModuleAccount.symbols_toModule ⟨moduleName, range, symbols⟩, fun a hbound later => ?_⟩
  · rw [exists_global?_iff]
    constructor
    · rintro ⟨call, hcall, symbol, hsymbol, hname⟩
      obtain ⟨m, hm, hstored⟩ := exists_mem_ofCalls_iff.mpr ⟨call, hcall, hsymbol⟩
      exact ⟨m, hm, symbol, hstored, hname⟩
    · rintro ⟨m, hm, symbol, hstored, hname⟩
      obtain ⟨call, hcall, hsymbol⟩ := exists_mem_ofCalls_iff.mp ⟨m, hm, hstored⟩
      exact ⟨call, hcall, symbol, hsymbol, hname⟩
  · rw [global?_eq] at hbound ⊢
    rw [List.flatMap_append, List.find?_append, Option.map_or, hbound]
    rfl

/-- A function that is named twice in a module, by a label pushed first and by the function itself
below, between symbols that are added on their own. -/
def sampleNamingCalls : List SymbolCall :=
  [.addSymbol "libj9jit29.so" sampleTrampoline,
    .addModule "libj9vm29.so" (some (⟨0x8000⟩, ⟨0xa000⟩))
      [⟨"cInterpreter", ⟨0x9100⟩, 0⟩, ⟨"returnFromJITI", ⟨0x8000⟩, 8⟩,
        ⟨"cInterpreter", ⟨0x9000⟩, 0x800⟩],
    .addSymbol "libj9vm29.so" ⟨"cInterpreter", ⟨0x100⟩, 0⟩]

/-- The lower one of the two symbols of the module is bound, and no later symbol changes that. -/
theorem global?_ofCalls_sample :
    (ofCalls sampleNamingCalls).global? "cInterpreter" = some ⟨0x9000⟩ ∧
      (∃ m ∈ (ofCalls sampleNamingCalls).modules, ∃ symbol ∈ m.symbols,
        symbol.name = "cInterpreter") ∧
      (ofCalls (sampleNamingCalls ++ [.addSymbol "libc.so.6" ⟨"cInterpreter", ⟨0x40⟩, 4⟩])).global?
        "cInterpreter" = some ⟨0x9000⟩ := by
  have hbound : (ofCalls sampleNamingCalls).global? "cInterpreter" = some ⟨0x9000⟩ := by decide
  obtain ⟨hiff, -, -, hlater⟩ := global?_ofCalls sampleNamingCalls "cInterpreter"
  exact ⟨hbound, hiff.mp ⟨_, hbound⟩, hlater _ hbound _⟩

end SymbolTable

end CompiledFrames
