import CompiledFrames.Proofs.Ordered
import CompiledFrames.Symbol.Table

/-!
# Symbol tables over time

What a symbol table has after some calls. Every module comes from an empty one by adding symbols of
the calls one after the other, whether they came with the module or on their own. So what adding a
symbol keeps is true of all modules: the symbols are in the order of their addresses, and each of
them was in some call.

## Main definitions

* `SymbolCall`, `SymbolTable.ofCalls`: calls, and the table after some of them
* `SymbolModule.Ordered`: the symbols of a module are in the order of their addresses
* `SymbolModule.nearest?`: the only symbol that a module offers for a place

## Main results

* `SymbolModule.Ordered.lookup?_eq_some_iff`: the look-up in a module
* `SymbolTable.forall_mem_ofCalls`: what is true of all modules of a table
* `SymbolTable.ordered_of_mem_ofCalls`, `SymbolTable.exists_call_of_mem_ofCalls`: the order and the
  origin of the symbols
-/

namespace CompiledFrames

/-! ## Modules -/

namespace SymbolModule

variable {m : SymbolModule} {symbol other near : Symbol} {symbols : List Symbol} {a : Address}

/-- The symbols are in the order of their addresses. -/
def Ordered (m : SymbolModule) : Prop :=
  m.symbols.Pairwise (·.address ≤ ·.address)

/-- The last symbol at or before a place. -/
def nearest? (m : SymbolModule) (a : Address) : Option Symbol :=
  (m.symbols.filter (·.address ≤ a)).getLast?

theorem ordered_empty (name : String) (range : Option (Address × Address)) :
    (empty name range).Ordered :=
  List.Pairwise.nil

theorem Ordered.pairwise_le (h : m.Ordered) (a : Address) :
    m.symbols.Pairwise fun s t => decide (t.address ≤ a) → decide (s.address ≤ a) := by
  refine h.imp fun {s t} hst ht => ?_
  rw [decide_eq_true_eq] at ht ⊢
  exact Address.le_trans hst ht

theorem mem_push_iff : other ∈ (m.push symbol).symbols ↔ other = symbol ∨ other ∈ m.symbols := by
  have hsplit : other ∈ m.symbols ↔ other ∈ m.symbols.takeWhile (·.address ≤ symbol.address) ∨
      other ∈ m.symbols.dropWhile (·.address ≤ symbol.address) := by
    rw [← List.mem_append, List.takeWhile_append_dropWhile]
  rw [push, List.mem_append, List.mem_cons, hsplit]
  exact or_left_comm

/-- Behind the first symbol above a place all are above it. -/
theorem Ordered.lt_of_mem_dropWhile (h : m.Ordered)
    (hother : other ∈ m.symbols.dropWhile (·.address ≤ a)) : a < other.address := by
  rw [dropWhile_eq_filter (h.pairwise_le a), List.mem_filter] at hother
  have hnot : ¬ other.address ≤ a := by simpa using hother.2
  exact Address.not_le.mp hnot

/-- A symbol is added behind those that are not above it and before those that are. -/
theorem Ordered.push (h : m.Ordered) (symbol : Symbol) : (m.push symbol).Ordered := by
  have hbelow : ∀ s ∈ m.symbols.takeWhile (·.address ≤ symbol.address),
      s.address ≤ symbol.address := by
    intro s hs
    rw [takeWhile_eq_filter (h.pairwise_le _), List.mem_filter] at hs
    exact of_decide_eq_true hs.2
  have habove : ∀ s ∈ m.symbols.dropWhile (·.address ≤ symbol.address),
      symbol.address ≤ s.address := fun s hs =>
    Address.le_of_lt (h.lt_of_mem_dropWhile hs)
  refine List.pairwise_append.mpr ⟨h.sublist (List.takeWhile_sublist _),
    List.pairwise_cons.mpr ⟨habove, h.sublist (List.dropWhile_sublist _)⟩, ?_⟩
  intro s hs t ht
  rcases List.mem_cons.mp ht with rfl | ht
  · exact hbelow s hs
  · exact Address.le_trans (hbelow s hs) (habove t ht)

theorem mem_and_le_of_nearest? (h : m.nearest? a = some near) :
    near ∈ m.symbols ∧ near.address ≤ a := by
  obtain ⟨hmem, hle⟩ := List.mem_filter.mp (List.mem_of_getLast? h)
  exact ⟨hmem, of_decide_eq_true hle⟩

/-- No symbol at or before a place is above the one that is offered for it. -/
theorem Ordered.exists_nearest? (h : m.Ordered) (hsymbol : symbol ∈ m.symbols)
    (hle : symbol.address ≤ a) :
    ∃ near, m.nearest? a = some near ∧ symbol.address ≤ near.address := by
  have hmem : symbol ∈ m.symbols.filter (·.address ≤ a) :=
    List.mem_filter.mpr ⟨hsymbol, decide_eq_true hle⟩
  have hlast := List.getLast?_eq_some_getLast (List.ne_nil_of_mem hmem)
  refine ⟨_, hlast, ?_⟩
  rcases eq_or_rel_of_getLast? (h.sublist List.filter_sublist) hmem hlast with heq | hrel
  · rw [← heq]
    exact Address.le_refl _
  · exact hrel

/-- **The look-up in a module**: the nearest symbol, if the module admits the place and the symbol
covers it. No other symbol is asked. -/
theorem Ordered.lookup?_eq_some_iff (h : m.Ordered) :
    m.lookup? a = some symbol ↔
      m.Admits a ∧ m.nearest? a = some symbol ∧ symbol.Covers a := by
  unfold lookup? nearest?
  -- the search stops at the first symbol above the place, and all later ones are above it as well
  rw [takeWhile_eq_filter (h.pairwise_le a)]
  split_ifs with hadmits
  · rw [Option.filter_eq_some_iff, decide_eq_true_eq]
    exact (and_iff_right hadmits).symm
  · exact ⟨nofun, fun hsome => absurd hsome.1 hadmits⟩

end SymbolModule

/-! ## Calls -/

/-- A call that changes a symbol table. -/
inductive SymbolCall where
  /-- A module with symbols, which were added to it in this order. -/
  | addModule (name : String) (range : Option (Address × Address)) (symbols : List Symbol)
  /-- A symbol of a module, which is new if the table has none of that name. -/
  | addSymbol (name : String) (symbol : Symbol)

/-- The symbols that a call brings. -/
def SymbolCall.symbols : SymbolCall → List Symbol
  | .addModule _ _ symbols => symbols
  | .addSymbol _ symbol => [symbol]

namespace SymbolTable

variable {table : SymbolTable} {call : SymbolCall} {calls : List SymbolCall} {m : SymbolModule}
  {modules : List SymbolModule} {name : String} {symbol : Symbol} {P : SymbolModule → Prop}

/-- The table after a call. -/
def after (table : SymbolTable) : SymbolCall → SymbolTable
  | .addModule name range symbols =>
    table.addModule ((SymbolModule.empty name range).pushAll symbols)
  | .addSymbol name symbol => table.addSymbol name symbol

/-- The table after some calls. -/
def ofCalls (calls : List SymbolCall) : SymbolTable :=
  calls.foldl after {}

/-- A symbol that is added on its own changes one module, or makes a new one. -/
theorem forall_mem_pushInto (hold : ∀ m ∈ modules, P m)
    (hempty : P (SymbolModule.empty name none)) (hpush : ∀ m, P m → P (m.push symbol)) :
    ∀ m ∈ pushInto name symbol modules, P m := by
  induction modules with
  | nil =>
    intro m hm
    rw [List.mem_singleton.mp hm]
    exact hpush _ hempty
  | cons first rest ih =>
    obtain ⟨hfirst, hrest⟩ := List.forall_mem_cons.mp hold
    unfold pushInto
    split_ifs with hname
    · exact List.forall_mem_cons.mpr ⟨hpush first hfirst, hrest⟩
    · exact List.forall_mem_cons.mpr ⟨hfirst, ih hrest⟩

/-- One call keeps what adding its symbols keeps. -/
theorem forall_mem_after (hold : ∀ m ∈ table.modules, P m)
    (hempty : ∀ name range, P (SymbolModule.empty name range))
    (hpush : ∀ m, ∀ symbol ∈ call.symbols, P m → P (m.push symbol)) :
    ∀ m ∈ (table.after call).modules, P m := by
  cases call with
  | addModule name range symbols =>
    have hnew : P ((SymbolModule.empty name range).pushAll symbols) := by
      refine List.foldlRecOn symbols SymbolModule.push (hempty name range) ?_
      intro m hm symbol hsymbol
      exact hpush m symbol hsymbol hm
    intro m hm
    rcases List.mem_append.mp hm with hm | hm
    · exact hold m hm
    · rw [List.mem_singleton.mp hm]
      exact hnew
  | addSymbol name symbol =>
    exact forall_mem_pushInto hold (hempty name none)
      fun m hm => hpush m symbol (List.mem_singleton_self symbol) hm

/-- **What is true of all modules of a table**: whatever is true of modules without symbols, and
stays true when a symbol of some call is added. -/
theorem forall_mem_ofCalls (hempty : ∀ name range, P (SymbolModule.empty name range))
    (hpush : ∀ m, ∀ call ∈ calls, ∀ symbol ∈ call.symbols, P m → P (m.push symbol)) :
    ∀ m ∈ (ofCalls calls).modules, P m := by
  have hnone : ∀ m ∈ ({} : SymbolTable).modules, P m := List.forall_mem_nil P
  refine List.foldlRecOn calls after (motive := fun table => ∀ m ∈ table.modules, P m) hnone ?_
  intro table hold call hcall
  exact forall_mem_after hold hempty fun m => hpush m call hcall

theorem ordered_of_mem_ofCalls (hm : m ∈ (ofCalls calls).modules) : m.Ordered :=
  forall_mem_ofCalls SymbolModule.ordered_empty
    (fun _ _ _ symbol _ hordered => hordered.push symbol) m hm

/-- Each symbol of a table was in some call. -/
theorem exists_call_of_mem_ofCalls (hm : m ∈ (ofCalls calls).modules)
    (hsymbol : symbol ∈ m.symbols) : ∃ call ∈ calls, symbol ∈ call.symbols := by
  refine forall_mem_ofCalls
    (P := fun m => ∀ symbol ∈ m.symbols, ∃ call ∈ calls, symbol ∈ call.symbols)
    (fun _ _ => nofun) ?_ m hm symbol hsymbol
  intro m call hcall added hadded hold other hother
  rcases SymbolModule.mem_push_iff.mp hother with rfl | hother
  · exact ⟨call, hcall, hadded⟩
  · exact hold other hother

end SymbolTable

end CompiledFrames
