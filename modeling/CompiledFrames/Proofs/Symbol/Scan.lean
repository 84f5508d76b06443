import Mathlib.Data.List.Forall2
import Mathlib.Data.List.Induction
import CompiledFrames.Proofs.Symbol.Resolution

/-!
# Resolving by a search through all symbols

A module keeps its symbols sorted and asks a single one of them for a place, and a table takes the
closest of the symbols that its modules offer. What that comes to can be said without any order:
of the symbols in the order in which they came, the last one of those with the greatest address at
or before the place, and the same once more among the modules.

The way there is an account of the calls, which only notes what came into which module. Each module
of a table is its account with the symbols added one after the other, so that what adding a symbol
keeps is known of it by induction on the account.

## Main definitions

* `IsLastGreatest`: the last one of the elements that are greatest
* `ModuleAccount`, `ModuleAccount.ofCalls`: the symbols of each module in the order of the calls
* `ModuleAccount.Keeps`: the symbol of a module for a place, if it covers the place
* `ModuleAccount.Closest`: the symbol for a place among those that the modules keep
* `SymbolModule.Stores`: a module has the symbols of an account, sorted and in turn

## Main results

* `ModuleAccount.stores_toModule`: adding symbols sorts them and keeps equal ones in turn
* `SymbolModule.Stores.nearest?_eq_some_iff`: the single symbol that is asked is the last greatest
* `SymbolTable.resolve?_ofCalls_eq_scan`: resolving is the search through all symbols
-/

namespace CompiledFrames

/-! ## The last greatest element -/

section LastGreatest

variable {α : Type} {place : α → Address} {l : List α} {x next : α}

/-- An element with the greatest place of all, and the last one of those. -/
def IsLastGreatest (place : α → Address) (l : List α) (x : α) : Prop :=
  ∃ before after, l = before ++ x :: after ∧
    (∀ y ∈ before, place y ≤ place x) ∧ ∀ y ∈ after, place y < place x

theorem IsLastGreatest.mem (h : IsLastGreatest place l x) : x ∈ l := by
  obtain ⟨before, after, rfl, -, -⟩ := h
  exact List.mem_append_right before List.mem_cons_self

theorem IsLastGreatest.le (h : IsLastGreatest place l x) {y : α} (hy : y ∈ l) :
    place y ≤ place x := by
  obtain ⟨before, after, rfl, hbefore, hafter⟩ := h
  rcases List.mem_append.mp hy with hy | hy
  · exact hbefore y hy
  · rcases List.mem_cons.mp hy with rfl | hy
    · exact Address.le_refl _
    · exact Address.le_of_lt (hafter y hy)

/-- Where the last greatest element is depends on the elements, and on the order of those with the
same place, but not on any other order. -/
theorem isLastGreatest_iff :
    IsLastGreatest place l x ↔
      (∀ y ∈ l, place y ≤ place x) ∧ (l.filter (place · = place x)).getLast? = some x := by
  constructor
  · intro h
    refine ⟨fun y hy => h.le hy, ?_⟩
    obtain ⟨before, after, rfl, -, hafter⟩ := h
    have hnone : after.filter (place · = place x) = [] := by
      refine List.filter_eq_nil_iff.mpr fun y hy hsame => ?_
      have hlt := hafter y hy
      rw [of_decide_eq_true hsame] at hlt
      exact Address.lt_irrefl _ hlt
    rw [List.filter_append, List.filter_cons_of_pos (by simp), hnone, List.getLast?_concat]
  · rintro ⟨hgreatest, hlast⟩
    obtain ⟨others, hothers⟩ := List.getLast?_eq_some_iff.mp hlast
    obtain ⟨first, second, rfl, -, hsecond⟩ := List.filter_eq_append_iff.mp hothers
    obtain ⟨lower, after, rfl, -, -, hnone⟩ := List.filter_eq_cons_iff.mp hsecond
    refine ⟨first ++ lower, after, (List.append_assoc ..).symm, fun y hy => hgreatest y ?_,
      fun y hy => ?_⟩
    · rcases List.mem_append.mp hy with hy | hy
      · exact List.mem_append_left _ hy
      · exact List.mem_append_right _ (List.mem_append_left _ hy)
    · have hle := hgreatest y
        (List.mem_append_right _ (List.mem_append_right _ (List.mem_cons_of_mem _ hy)))
      have hne : place y ≠ place x := by simpa using List.filter_eq_nil_iff.mp hnone y hy
      exact Address.lt_of_le_of_ne hle hne

/-- In a sorted list the last greatest element is the last one. -/
theorem getLast?_eq_some_iff_isLastGreatest (h : l.Pairwise (place · ≤ place ·)) :
    l.getLast? = some x ↔ IsLastGreatest place l x := by
  constructor
  · intro hlast
    obtain ⟨before, rfl⟩ := List.getLast?_eq_some_iff.mp hlast
    exact ⟨before, [], rfl, fun y hy => (List.pairwise_append.mp h).2.2 y hy x
      (List.mem_singleton_self x), nofun⟩
  · rintro ⟨before, after, rfl, -, hafter⟩
    rcases after with - | ⟨y, after⟩
    · exact List.getLast?_concat
    · have hrest := (List.pairwise_append.mp h).2.1
      have hle := (List.pairwise_cons.mp hrest).1 y List.mem_cons_self
      have hlt := hafter y List.mem_cons_self
      exact absurd hle (Address.not_le.mpr hlt)

theorem IsLastGreatest.unique (h : IsLastGreatest place l x) (h' : IsLastGreatest place l next) :
    x = next := by
  have hplace : place x = place next :=
    Address.le_antisymm (h'.le h.mem) (h.le h'.mem)
  obtain ⟨-, hlast⟩ := isLastGreatest_iff.mp h
  obtain ⟨-, hlast'⟩ := isLastGreatest_iff.mp h'
  rw [hplace, hlast'] at hlast
  exact (Option.some.inj hlast).symm

/-- An element that no other one is above is the last greatest one from the end on. -/
theorem isLastGreatest_concat_self (h : ∀ y ∈ l, place y ≤ place next) :
    IsLastGreatest place (l ++ [next]) next :=
  ⟨l, [], rfl, h, List.forall_mem_nil _⟩

/-- A lower element at the end does not count. -/
theorem IsLastGreatest.concat (h : IsLastGreatest place l x) (hlt : place next < place x) :
    IsLastGreatest place (l ++ [next]) x := by
  obtain ⟨before, after, rfl, hbefore, hafter⟩ := h
  refine ⟨before, after ++ [next], by rw [List.append_assoc, List.cons_append], hbefore, ?_⟩
  intro y hy
  rcases List.mem_append.mp hy with hy | hy
  · exact hafter y hy
  · rw [List.mem_singleton.mp hy]
    exact hlt

/-- The last greatest of the values that a list has, by the elements that have them. -/
theorem isLastGreatest_filterMap_iff {β : Type} {values : List β} {f : β → Option α} :
    IsLastGreatest place (values.filterMap f) x ↔
      ∃ before value after, values = before ++ value :: after ∧ f value = some x ∧
        (∀ other ∈ before, ∀ y, f other = some y → place y ≤ place x) ∧
        ∀ other ∈ after, ∀ y, f other = some y → place y < place x := by
  constructor
  · rintro ⟨lower, higher, hsplit, hlower, hhigher⟩
    obtain ⟨first, second, rfl, rfl, hsecond⟩ := List.filterMap_eq_append_iff.mp hsplit
    obtain ⟨skipped, value, after, rfl, hskipped, hvalue, rfl⟩ :=
      List.filterMap_eq_cons_iff.mp hsecond
    refine ⟨first ++ skipped, value, after, (List.append_assoc ..).symm, hvalue, ?_, ?_⟩
    · intro other hother y hy
      rcases List.mem_append.mp hother with hother | hother
      · exact hlower y (List.mem_filterMap.mpr ⟨other, hother, hy⟩)
      · rw [hskipped other hother] at hy
        cases hy
    · intro other hother y hy
      exact hhigher y (List.mem_filterMap.mpr ⟨other, hother, hy⟩)
  · rintro ⟨before, value, after, rfl, hvalue, hbefore, hafter⟩
    refine ⟨before.filterMap f, after.filterMap f, ?_, ?_, ?_⟩
    · rw [List.filterMap_append, List.filterMap_cons_some hvalue]
    · intro y hy
      obtain ⟨other, hother, hy⟩ := List.mem_filterMap.mp hy
      exact hbefore other hother y hy
    · intro y hy
      obtain ⟨other, hother, hy⟩ := List.mem_filterMap.mp hy
      exact hafter other hother y hy

end LastGreatest

namespace SymbolTable

variable {found : List (SymbolModule × Symbol)} {best : SymbolModule × Symbol}

theorem isLastGreatest_of_foldl_closer (h : found.foldl closer none = some best) :
    IsLastGreatest (·.2.address) found best := by
  -- the last candidate decides, so the induction takes the list from its end
  induction found using List.reverseRecOn generalizing best with
  | nil => cases h
  | append_singleton found next ih =>
    rw [List.foldl_append, List.foldl_cons, List.foldl_nil] at h
    cases hfound : found.foldl closer none with
    | none =>
      obtain ⟨-, rfl⟩ := foldl_closer_eq_none_iff.mp hfound
      rw [hfound] at h
      obtain rfl := Option.some.inj h
      exact isLastGreatest_concat_self (List.forall_mem_nil _)
    | some first =>
      have hfirst := ih hfound
      simp only [hfound, closer] at h
      split_ifs at h with hle
      · obtain rfl := Option.some.inj h
        exact isLastGreatest_concat_self fun y hy => Address.le_trans (hfirst.le hy) hle
      · obtain rfl := Option.some.inj h
        exact hfirst.concat (Address.not_le.mp hle)

/-- **The closest of some symbols** is the last greatest one. -/
theorem foldl_closer_eq_some_iff :
    found.foldl closer none = some best ↔ IsLastGreatest (·.2.address) found best := by
  refine ⟨isLastGreatest_of_foldl_closer, fun h => ?_⟩
  cases hfound : found.foldl closer none with
  | none =>
    obtain ⟨-, rfl⟩ := foldl_closer_eq_none_iff.mp hfound
    exact absurd h.mem List.not_mem_nil
  | some first => rw [(isLastGreatest_of_foldl_closer hfound).unique h]

end SymbolTable

/-! ## Accounts -/

/-- What calls say of a module: its name, its range, and its symbols in the order in which they
came. -/
structure ModuleAccount where
  name : String
  range : Option (Address × Address)
  added : List Symbol

namespace ModuleAccount

/-- The accounts with one more symbol, in the first one of that name or in a new one. -/
def addTo (name : String) (symbol : Symbol) : List ModuleAccount → List ModuleAccount
  | [] => [⟨name, none, [symbol]⟩]
  | account :: rest =>
    if account.name = name then { account with added := account.added ++ [symbol] } :: rest
    else account :: addTo name symbol rest

/-- The accounts after a call. -/
def after (accounts : List ModuleAccount) : SymbolCall → List ModuleAccount
  | .addModule name range symbols => accounts ++ [⟨name, range, symbols⟩]
  | .addSymbol name symbol => addTo name symbol accounts

/-- The accounts of some calls. -/
def ofCalls (calls : List SymbolCall) : List ModuleAccount :=
  calls.foldl after []

/-- A place is in the range of the module, if the range is known. -/
def Admits (account : ModuleAccount) (a : Address) : Prop :=
  ∀ first stop, account.range = some (first, stop) → first ≤ a ∧ a < stop

/-- The module has a symbol for a place: of those with the greatest address at or before the place
the one that came last, if its size is not known or the place is below its end. -/
structure Keeps (account : ModuleAccount) (a : Address) (symbol : Symbol) : Prop where
  admits : account.Admits a
  latest : IsLastGreatest (·.address) (account.added.filter (·.address ≤ a)) symbol
  covers : symbol.size = 0 ∨ a.toNat < symbol.address.toNat + symbol.size.toNat

/-- Of the symbols that the modules have for a place, the one with the greatest address, and the one
of the last module if there are several. -/
def Closest (accounts : List ModuleAccount) (a : Address) (account : ModuleAccount)
    (symbol : Symbol) : Prop :=
  ∃ before after, accounts = before ++ account :: after ∧ account.Keeps a symbol ∧
    (∀ earlier ∈ before, ∀ other, earlier.Keeps a other → other.address ≤ symbol.address) ∧
    ∀ later ∈ after, ∀ other, later.Keeps a other → other.address < symbol.address

theorem Closest.address_le {accounts : List ModuleAccount} {a : Address} {account : ModuleAccount}
    {symbol : Symbol} (h : Closest accounts a account symbol) : symbol.address ≤ a := by
  obtain ⟨_, _, _, hkeeps, _⟩ := h
  exact of_decide_eq_true (List.mem_filter.mp hkeeps.latest.mem).2

end ModuleAccount

/-! ## What a module stores -/

namespace SymbolModule

variable {m : SymbolModule} {account : ModuleAccount} {symbol : Symbol} {a : Address}

/-- A module has the symbols of an account, each as often as it was added, sorted by address and
those of one address in turn. -/
structure Stores (m : SymbolModule) (account : ModuleAccount) : Prop where
  name : m.name = account.name
  range : m.range = account.range
  perm : m.symbols.Perm account.added
  ordered : m.Ordered
  inTurn : ∀ place, m.symbols.filter (·.address = place) = account.added.filter (·.address = place)

/-- **Adding a symbol** sorts it in behind those with its address. -/
theorem Stores.push (h : m.Stores account) (symbol : Symbol) :
    (m.push symbol).Stores { account with added := account.added ++ [symbol] } where
  name := h.name
  range := h.range
  perm := by
    have hfront : (m.push symbol).symbols.Perm (symbol :: m.symbols) := by
      rw [SymbolModule.push]
      refine List.perm_middle.trans ?_
      rw [List.takeWhile_append_dropWhile]
    exact hfront.trans ((h.perm.cons symbol).trans (List.perm_append_singleton symbol _).symm)
  ordered := h.ordered.push symbol
  inTurn := by
    intro place
    have hsplit := congrArg (List.filter (·.address = place))
      (List.takeWhile_append_dropWhile (p := (·.address ≤ symbol.address)) (l := m.symbols))
    rw [h.inTurn place, List.filter_append] at hsplit
    rw [SymbolModule.push, List.filter_append, List.filter_append, ← hsplit, List.append_assoc]
    refine congrArg _ ?_
    by_cases hplace : symbol.address = place
    · have hnone : (m.symbols.dropWhile (·.address ≤ symbol.address)).filter
          (·.address = place) = [] := by
        refine List.filter_eq_nil_iff.mpr fun other hother hsame => ?_
        have hlt := h.ordered.lt_of_mem_dropWhile hother
        rw [of_decide_eq_true hsame, hplace] at hlt
        exact Address.lt_irrefl _ hlt
      rw [List.filter_cons_of_pos (by simpa using hplace),
        List.filter_cons_of_pos (by simpa using hplace), hnone]
      rfl
    · rw [List.filter_cons_of_neg (by simpa using hplace),
        List.filter_cons_of_neg (by simpa using hplace), List.filter_nil, List.append_nil]

theorem Stores.admits_iff (h : m.Stores account) : m.Admits a ↔ account.Admits a := by
  unfold Admits ModuleAccount.Admits
  rw [h.range]
  cases account.range with
  | none => exact iff_of_true trivial nofun
  | some range =>
    obtain ⟨first, stop⟩ := range
    constructor
    · rintro hrange _ _ ⟨⟩
      exact hrange
    · exact fun hrange => hrange first stop rfl

/-- **The symbol that a module is asked for** is the last greatest one of its account. -/
theorem Stores.nearest?_eq_some_iff (h : m.Stores account) :
    m.nearest? a = some symbol ↔
      IsLastGreatest (·.address) (account.added.filter (·.address ≤ a)) symbol := by
  have hmem : ∀ s, s ∈ m.symbols.filter (·.address ≤ a) ↔ s ∈ account.added.filter (·.address ≤ a) :=
    fun s => (h.perm.filter _).mem_iff
  have hturn : (m.symbols.filter (·.address ≤ a)).filter (·.address = symbol.address) =
      (account.added.filter (·.address ≤ a)).filter (·.address = symbol.address) := by
    rw [List.filter_comm, h.inTurn, List.filter_comm]
  rw [nearest?, getLast?_eq_some_iff_isLastGreatest (h.ordered.sublist List.filter_sublist),
    isLastGreatest_iff, isLastGreatest_iff, hturn]
  simp only [hmem]

/-- **The look-up in a module** finds what its account keeps. -/
theorem Stores.lookup?_eq_some_iff (h : m.Stores account) (hfits : ∀ s ∈ account.added, s.Fits) :
    m.lookup? a = some symbol ↔ account.Keeps a symbol := by
  rw [h.ordered.lookup?_eq_some_iff, h.admits_iff, h.nearest?_eq_some_iff]
  constructor
  · rintro ⟨hadmits, hlatest, hcovers⟩
    have hmem := (List.mem_filter.mp hlatest.mem).1
    exact ⟨hadmits, hlatest, (hfits symbol hmem).covers_iff.mp hcovers⟩
  · rintro ⟨hadmits, hlatest, hcovers⟩
    have hmem := (List.mem_filter.mp hlatest.mem).1
    exact ⟨hadmits, hlatest, (hfits symbol hmem).covers_iff.mpr hcovers⟩

end SymbolModule

/-! ## The modules of a table -/

namespace ModuleAccount

/-- The module with the symbols of an account, added in turn. -/
def toModule (account : ModuleAccount) : SymbolModule :=
  (SymbolModule.empty account.name account.range).pushAll account.added

theorem toModule_concat (name : String) (range : Option (Address × Address)) (added : List Symbol)
    (symbol : Symbol) :
    toModule ⟨name, range, added ++ [symbol]⟩ = (toModule ⟨name, range, added⟩).push symbol := by
  simp only [toModule, SymbolModule.pushAll, List.foldl_append, List.foldl_cons, List.foldl_nil]

/-- **A module that comes from an account** stores it. -/
theorem stores_toModule (account : ModuleAccount) : account.toModule.Stores account := by
  obtain ⟨name, range, added⟩ := account
  induction added using List.reverseRecOn with
  | nil => exact ⟨rfl, rfl, .nil, SymbolModule.ordered_empty name range, fun _ => rfl⟩
  | append_singleton added symbol ih =>
    rw [toModule_concat]
    exact ih.push symbol

theorem pushInto_map_toModule (name : String) (symbol : Symbol) (accounts : List ModuleAccount) :
    SymbolTable.pushInto name symbol (accounts.map toModule) =
      (addTo name symbol accounts).map toModule := by
  induction accounts with
  | nil => rfl
  | cons account rest ih =>
    rw [List.map_cons, SymbolTable.pushInto, addTo, account.stores_toModule.name]
    split_ifs with hsame
    · rw [List.map_cons, toModule_concat]
    · rw [List.map_cons, ih]

theorem modules_foldl_after {table : SymbolTable} {accounts : List ModuleAccount}
    (h : table.modules = accounts.map toModule) (calls : List SymbolCall) :
    (calls.foldl SymbolTable.after table).modules = (calls.foldl after accounts).map toModule := by
  induction calls generalizing table accounts with
  | nil => exact h
  | cons call calls ih =>
    refine ih ?_
    cases call with
    | addModule name range symbols =>
      rw [SymbolTable.after, SymbolTable.addModule, h, after, List.map_append]
      rfl
    | addSymbol name symbol =>
      rw [SymbolTable.after, SymbolTable.addSymbol, h, after, pushInto_map_toModule]

/-- **The modules of a table** are those of the accounts of its calls. -/
theorem modules_ofCalls (calls : List SymbolCall) :
    (SymbolTable.ofCalls calls).modules = (ofCalls calls).map toModule :=
  modules_foldl_after rfl calls

end ModuleAccount

/-! ## Resolving -/

namespace SymbolTable

variable {calls : List SymbolCall} {table : SymbolTable} {accounts : List ModuleAccount}
  {account : ModuleAccount} {symbol : Symbol} {a : Address} {place : NamedPlace}

/-- **The closest of the symbols** that the modules of some accounts offer for a place is that of the
accounts. -/
theorem foldl_closer_candidates_eq_some_iff
    (hmodules : table.modules = accounts.map ModuleAccount.toModule)
    (hfits : ∀ account ∈ accounts, ∀ symbol ∈ account.added, symbol.Fits) {m : SymbolModule} :
    (table.candidates a).foldl closer none = some (m, symbol) ↔
      ∃ account, account.toModule = m ∧ ModuleAccount.Closest accounts a account symbol := by
  -- a module offers what its account keeps, so positions among the offers are those of accounts
  have hoffers : ∀ account ∈ accounts, ∀ offer,
      (account.toModule.lookup? a).map (fun found => (account.toModule, found)) = some offer ↔
        ∃ found, account.Keeps a found ∧ (account.toModule, found) = offer := by
    intro account haccount offer
    rw [Option.map_eq_some_iff]
    exact exists_congr fun found => and_congr_left fun _ =>
      account.stores_toModule.lookup?_eq_some_iff (hfits account haccount)
  rw [foldl_closer_eq_some_iff, candidates, hmodules, List.filterMap_map,
    isLastGreatest_filterMap_iff]
  constructor
  · rintro ⟨before, account, after, rfl, hoffer, hbefore, hafter⟩
    obtain ⟨found, hkept, hpair⟩ :=
      (hoffers account (List.mem_append_right _ List.mem_cons_self) _).mp hoffer
    obtain ⟨rfl, rfl⟩ := Prod.mk.inj hpair
    refine ⟨account, rfl, before, after, rfl, hkept, ?_, ?_⟩
    · intro earlier hearlier other hother
      exact hbefore earlier hearlier _
        ((hoffers earlier (List.mem_append_left _ hearlier) _).mpr ⟨other, hother, rfl⟩)
    · intro later hlater other hother
      have hmem := List.mem_append_right before (List.mem_cons_of_mem account hlater)
      exact hafter later hlater _ ((hoffers later hmem _).mpr ⟨other, hother, rfl⟩)
  · rintro ⟨account, rfl, before, after, rfl, hkept, hbefore, hafter⟩
    refine ⟨before, account, after, rfl, ?_, ?_, ?_⟩
    · exact (hoffers account (List.mem_append_right _ List.mem_cons_self) _).mpr
        ⟨symbol, hkept, rfl⟩
    · intro earlier hearlier offer hoffer
      obtain ⟨other, hother, rfl⟩ :=
        (hoffers earlier (List.mem_append_left _ hearlier) _).mp hoffer
      exact hbefore earlier hearlier other hother
    · intro later hlater offer hoffer
      have hmem := List.mem_append_right before (List.mem_cons_of_mem account hlater)
      obtain ⟨other, hother, rfl⟩ := (hoffers later hmem _).mp hoffer
      exact hafter later hlater other hother

/-- The symbols of the accounts were all in some call. -/
theorem fits_of_mem_accounts (hfits : ∀ call ∈ calls, ∀ symbol ∈ call.symbols, symbol.Fits)
    (haccount : account ∈ ModuleAccount.ofCalls calls) (hsymbol : symbol ∈ account.added) :
    symbol.Fits := by
  have hm : account.toModule ∈ (ofCalls calls).modules := by
    rw [ModuleAccount.modules_ofCalls]
    exact List.mem_map_of_mem haccount
  obtain ⟨call, hcall, hin⟩ := exists_call_of_mem_ofCalls hm
    (account.stores_toModule.perm.mem_iff.mpr hsymbol)
  exact hfits call hcall symbol hin

/-- **Resolving is a search through all symbols**, in a table after any calls none of whose symbols
wraps around. Each module has the symbols that were added to it, none lost and none twice, sorted by
address and those of one address in turn. A place has no name just when no module keeps a symbol for
it. Otherwise its name is that of the closest symbol that a module keeps, with the module, the
address of the symbol and the distance from there. -/
theorem resolve?_ofCalls_eq_scan
    (hfits : ∀ call ∈ calls, ∀ symbol ∈ call.symbols, symbol.Fits) :
    List.Forall₂ SymbolModule.Stores (ofCalls calls).modules (ModuleAccount.ofCalls calls) ∧
    ∀ a,
      ((ofCalls calls).resolve? a = none ↔
        ∀ account ∈ ModuleAccount.ofCalls calls, ∀ symbol, ¬ account.Keeps a symbol) ∧
      ∀ place, (ofCalls calls).resolve? a = some place ↔
        ∃ account symbol, ModuleAccount.Closest (ModuleAccount.ofCalls calls) a account symbol ∧
          place.name = symbol.name ∧ place.moduleName = account.name ∧
          place.address = symbol.address ∧ symbol.address ≤ a ∧
          a.toNat = symbol.address.toNat + place.offset := by
  have hmodules := ModuleAccount.modules_ofCalls calls
  have hall : ∀ account ∈ ModuleAccount.ofCalls calls, ∀ symbol ∈ account.added, symbol.Fits :=
    fun _ haccount _ hsymbol => fits_of_mem_accounts hfits haccount hsymbol
  refine ⟨?_, fun a => ⟨?_, fun place => ?_⟩⟩
  · rw [hmodules, List.forall₂_map_left_iff]
    exact List.forall₂_same.mpr fun account _ => account.stores_toModule
  · rw [resolve?_eq_none_iff, hmodules, List.forall_mem_map]
    refine forall₂_congr fun account haccount => ?_
    rw [Option.eq_none_iff_forall_ne_some]
    exact forall_congr' fun symbol =>
      not_congr (account.stores_toModule.lookup?_eq_some_iff (hall account haccount))
  · rw [resolve?, Option.map_eq_some_iff]
    constructor
    · rintro ⟨⟨m, symbol⟩, hfound, rfl⟩
      obtain ⟨account, rfl, hclosest⟩ :=
        (foldl_closer_candidates_eq_some_iff hmodules hall).mp hfound
      have hle := hclosest.address_le
      refine ⟨account, symbol, hclosest, rfl, account.stores_toModule.name, rfl, hle, ?_⟩
      exact (Nat.add_sub_of_le (Address.le_iff.mp hle)).symm
    · rintro ⟨account, symbol, hclosest, hname, hmodule, haddress, -, hoffset⟩
      refine ⟨(account.toModule, symbol),
        (foldl_closer_candidates_eq_some_iff hmodules hall).mpr ⟨account, rfl, hclosest⟩, ?_⟩
      obtain ⟨name, moduleName, address, offset⟩ := place
      obtain rfl : name = symbol.name := hname
      obtain rfl : moduleName = account.toModule.name :=
        hmodule.trans account.stores_toModule.name.symm
      obtain rfl : address = symbol.address := haddress
      obtain rfl : offset = a.toNat - symbol.address.toNat :=
        (Nat.sub_eq_of_eq_add' hoffset).symm
      rfl

/-- The account of a module that got a label, the function around it, and a second label at the place
of the first one. -/
def sampleHelpers : ModuleAccount :=
  ⟨"libj9jit29.so", none,
    [sampleLabel, sampleTrampoline, ⟨"returnFromJITL", ⟨0x5010⟩, 0x10⟩]⟩

/-- The account of a module with a symbol at the same place. -/
def sampleLoop : ModuleAccount :=
  ⟨"libj9vm29.so", some (⟨0x5000⟩, ⟨0x6000⟩), [⟨"cInterpreter", ⟨0x5010⟩, 4⟩]⟩

/-- Calls with these accounts. -/
def sampleScanCalls : List SymbolCall :=
  [.addSymbol "libj9jit29.so" sampleLabel,
    .addModule "libj9vm29.so" sampleLoop.range sampleLoop.added,
    .addSymbol "libj9jit29.so" sampleTrampoline,
    .addSymbol "libj9jit29.so" ⟨"returnFromJITL", ⟨0x5010⟩, 0x10⟩]

/-- Of two symbols at one place the one of the later module gives the name, and behind both labels
the function around them does not. -/
theorem resolve?_ofCalls_eq_scan_sample :
    ModuleAccount.ofCalls sampleScanCalls = [sampleHelpers, sampleLoop] ∧
      (∃ m ∈ (ofCalls sampleScanCalls).modules, m.Stores sampleHelpers) ∧
      (ofCalls sampleScanCalls).resolve? ⟨0x5012⟩ =
        some ⟨"cInterpreter", "libj9vm29.so", ⟨0x5010⟩, 2⟩ ∧
      ∀ symbol, ¬ sampleHelpers.Keeps ⟨0x5024⟩ symbol := by
  have hfits : ∀ call ∈ sampleScanCalls, ∀ symbol ∈ call.symbols, symbol.Fits := by decide
  have haccounts : ModuleAccount.ofCalls sampleScanCalls = [sampleHelpers, sampleLoop] := rfl
  obtain ⟨hstores, hresolve⟩ := resolve?_ofCalls_eq_scan hfits
  rw [haccounts] at hstores hresolve
  refine ⟨haccounts, ?_, ?_, ?_⟩
  · obtain ⟨m, modules, hm, -, hmodules⟩ := List.forall₂_cons_right_iff.mp hstores
    rw [hmodules]
    exact ⟨m, List.mem_cons_self, hm⟩
  · have hnone : ∀ s ∈ sampleHelpers.added, s.address ≤ ⟨0x5010⟩ := by decide
    refine ((hresolve _).2 _).mpr ⟨sampleLoop, _,
      ⟨[sampleHelpers], [], rfl, ⟨?_, ⟨[], [], rfl, nofun, nofun⟩, .inr (by decide)⟩, ?_, nofun⟩,
      rfl, rfl, rfl, by decide, rfl⟩
    · rintro _ _ ⟨⟩
      decide
    · intro earlier hearlier other hother
      obtain rfl := List.mem_singleton.mp hearlier
      exact hnone other (List.mem_filter.mp hother.latest.mem).1
  · exact (hresolve ⟨0x5024⟩).1.mp rfl sampleHelpers List.mem_cons_self

end SymbolTable

end CompiledFrames
