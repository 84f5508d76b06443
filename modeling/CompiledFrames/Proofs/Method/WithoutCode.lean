import CompiledFrames.Proofs.Method.Calls

/-!
# Methods without code

Nothing keeps the compiler from reporting a method that does not end behind its start. No address
belongs to such a method, so it overlaps no other one. It takes part in eviction and in look-up all
the same, with two effects on the methods with code:

* going down from its end, eviction asks whether a method reaches past its start. The last method to
  start below its end is evicted if it does;
* once it is in the registry, it is the last method to start at or before its own start. A method
  with code around that place is no longer found from there on.

Where neither is the case, every look-up stays as it was.

## Main definitions

* `Registry.ofMethods`: the registry after some methods, with code or without
* `Registry.lastBelow?`: the method that eviction asks first

## Main results

* `Registry.Ascending.register`, `Registry.Ascending.mem_register_iff`: the starts in a registry
  always rise, and what is in it after a method is registered
* `Registry.Ascending.lookup?_eq_some_iff`: the look-up in a registry whose methods may lack code
* `Registry.lookup?_register_eq_iff`: when a method without code leaves all look-ups as they were
-/

namespace CompiledFrames

namespace Registry

variable {registry : Registry} {m other : CompiledMethod} {methods : List CompiledMethod}
  {pc : Address}

/-! ## Rising starts -/

/-- Each method starts behind the ones before it. -/
def Ascending (registry : Registry) : Prop :=
  registry.methods.Pairwise fun a b => a.start < b.start

/-- The registry after some methods have been registered, whatever their starts and ends are. -/
def ofMethods (methods : List CompiledMethod) : Registry :=
  methods.foldl register {}

/-- The method that eviction asks first: the last one to start below an address. -/
def lastBelow? (registry : Registry) (stop : Address) : Option CompiledMethod :=
  (registry.methods.takeWhile (·.start < stop)).getLast?

theorem evict_sublist (m : CompiledMethod) (methods : List CompiledMethod) :
    (evict m methods).Sublist methods := by
  have hbelow : ((methods.takeWhile (·.start < m.stop)).reverse.dropWhile
      (m.start < ·.stop)).reverse.Sublist (methods.takeWhile (·.start < m.stop)) := by
    rw [← List.reverse_sublist, List.reverse_reverse]
    exact List.dropWhile_sublist _
  have happend := hbelow.append (List.Sublist.refl (methods.dropWhile (·.start < m.stop)))
  rwa [List.takeWhile_append_dropWhile] at happend

/-- Insertion replaces a method with the same start. -/
theorem mem_insertByStart_iff_of_pairwise (h : methods.Pairwise fun a b => a.start < b.start) :
    other ∈ insertByStart m methods ↔ other = m ∨ other ∈ methods ∧ other.start ≠ m.start := by
  induction methods with
  | nil => simp [insertByStart]
  | cons first rest ih =>
    obtain ⟨hfirst, hrest⟩ := List.pairwise_cons.mp h
    unfold insertByStart
    split_ifs with hlt heq
    · rw [List.mem_cons]
      refine or_congr_right ⟨fun hother => ⟨hother, fun hsame => ?_⟩, And.left⟩
      rw [Address.lt_iff] at hlt
      rcases List.mem_cons.mp hother with rfl | hother
      · rw [hsame] at hlt
        omega
      · have hbehind := hfirst other hother
        rw [hsame, Address.lt_iff] at hbehind
        omega
    · rw [List.mem_cons, List.mem_cons]
      refine or_congr_right ⟨fun hother => ⟨.inr hother, fun hsame => ?_⟩, ?_⟩
      · have hbehind := hfirst other hother
        rw [hsame, heq, Address.lt_iff] at hbehind
        omega
      · rintro ⟨rfl | hother, hne⟩
        · exact absurd heq.symm hne
        · exact hother
    · rw [List.mem_cons, ih hrest, List.mem_cons]
      constructor
      · rintro (rfl | rfl | ⟨hother, hne⟩)
        · exact .inr ⟨.inl rfl, Ne.symm heq⟩
        · exact .inl rfl
        · exact .inr ⟨.inr hother, hne⟩
      · rintro (rfl | ⟨rfl | hother, hne⟩)
        · exact .inr (.inl rfl)
        · exact .inl rfl
        · exact .inr (.inr ⟨hother, hne⟩)

theorem pairwise_insertByStart (h : methods.Pairwise fun a b => a.start < b.start) :
    (insertByStart m methods).Pairwise fun a b => a.start < b.start := by
  induction methods with
  | nil => exact List.pairwise_singleton _ m
  | cons first rest ih =>
    obtain ⟨hfirst, hrest⟩ := List.pairwise_cons.mp h
    unfold insertByStart
    split_ifs with hlt heq
    · refine List.pairwise_cons.mpr ⟨?_, h⟩
      intro other hother
      rcases List.mem_cons.mp hother with rfl | hother
      · exact hlt
      · have hbehind := hfirst other hother
        rw [Address.lt_iff] at hlt hbehind ⊢
        omega
    · exact List.pairwise_cons.mpr ⟨fun other hother => heq ▸ hfirst other hother, hrest⟩
    · refine List.pairwise_cons.mpr ⟨?_, ih hrest⟩
      intro other hother
      rcases (mem_insertByStart_iff_of_pairwise hrest).mp hother with rfl | ⟨hother, -⟩
      · have hne : other.start.toNat ≠ first.start.toNat := fun h => heq (Address.ext_toNat h)
        rw [Address.lt_iff] at hlt ⊢
        omega
      · exact hfirst other hother

theorem Ascending.evict (h : registry.Ascending) (m : CompiledMethod) :
    (Registry.evict m registry.methods).Pairwise fun a b => a.start < b.start :=
  h.sublist (evict_sublist m registry.methods)

/-- Registering keeps the starts rising, also for a method without code. -/
theorem Ascending.register (h : registry.Ascending) (m : CompiledMethod) :
    (registry.register m).Ascending :=
  pairwise_insertByStart (h.evict m)

theorem Ascending.mem_register_iff (h : registry.Ascending) :
    other ∈ (registry.register m).methods ↔
      other = m ∨ other ∈ Registry.evict m registry.methods ∧ other.start ≠ m.start :=
  mem_insertByStart_iff_of_pairwise (h.evict m)

theorem ascending_ofMethods (methods : List CompiledMethod) : (ofMethods methods).Ascending := by
  have hfold : ∀ registry : Registry, registry.Ascending →
      (methods.foldl Registry.register registry).Ascending := by
    induction methods with
    | nil =>
      intro registry h
      exact h
    | cons m rest ih =>
      intro registry h
      exact ih (registry.register m) (h.register m)
  exact hfold {} List.Pairwise.nil

theorem Ascending.mem_takeWhile_iff (h : registry.Ascending) :
    other ∈ registry.methods.takeWhile (·.start ≤ pc) ↔
      other ∈ registry.methods ∧ other.start ≤ pc := by
  rw [takeWhile_eq_filter, List.mem_filter, decide_eq_true_eq]
  refine h.imp fun {a b} hab => ?_
  simp only [decide_eq_true_eq, Address.lt_iff, Address.le_iff] at hab ⊢
  omega

/-- The method that the look-up asks starts behind all others that start at or before the address.
-/
theorem Ascending.eq_or_start_lt (h : registry.Ascending) {last : CompiledMethod}
    (hlast : (registry.methods.takeWhile (·.start ≤ pc)).getLast? = some last)
    (hother : other ∈ registry.methods) (hle : other.start ≤ pc) :
    other = last ∨ other.start < last.start := by
  have hordered := h.sublist (List.takeWhile_sublist (p := (·.start ≤ pc)))
  exact eq_or_rel_of_getLast? hordered (h.mem_takeWhile_iff.mpr ⟨hother, hle⟩) hlast

/-- **The look-up** finds the last method to start at or before an address, if the address belongs
to it. -/
theorem Ascending.lookup?_eq_some_iff (h : registry.Ascending) :
    registry.lookup? pc = some m ↔
      m ∈ registry.methods ∧ m.metadata.Contains pc ∧
        ∀ other ∈ registry.methods, other.start ≤ pc → other.start ≤ m.start := by
  constructor
  · intro hlook
    refine ⟨mem_of_lookup? hlook, contains_of_lookup? hlook, ?_⟩
    intro other hother hle
    rcases h.eq_or_start_lt (Option.filter_eq_some_iff.mp hlook).1 hother hle with rfl | hlt
    · exact Address.le_refl _
    · exact Address.le_of_lt hlt
  · rintro ⟨hm, hcontains, hmax⟩
    refine Option.filter_eq_some_iff.mpr ⟨?_, decide_eq_true hcontains⟩
    have hin := h.mem_takeWhile_iff.mpr ⟨hm, hcontains.1⟩
    cases hfound : (registry.methods.takeWhile (·.start ≤ pc)).getLast? with
    | none =>
      rw [List.getLast?_eq_none_iff.mp hfound] at hin
      cases hin
    | some last =>
      rcases h.eq_or_start_lt hfound hm hcontains.1 with rfl | hlt
      · rfl
      · obtain ⟨hlast, hle⟩ := h.mem_takeWhile_iff.mp (List.mem_of_getLast? hfound)
        have hback := hmax last hlast hle
        rw [Address.lt_iff] at hlt
        rw [Address.le_iff] at hback
        omega

/-! ## What a method without code evicts -/

/-- Eviction takes nothing if the first method that it asks ends in time. -/
theorem evict_eq_self (h : ∀ last, registry.lastBelow? m.stop = some last → last.stop ≤ m.start) :
    Registry.evict m registry.methods = registry.methods := by
  have hkept : (registry.methods.takeWhile (·.start < m.stop)).reverse.dropWhile
      (m.start < ·.stop) = (registry.methods.takeWhile (·.start < m.stop)).reverse := by
    cases hlast : registry.lastBelow? m.stop with
    | none => rw [List.getLast?_eq_none_iff.mp hlast, List.reverse_nil, List.dropWhile_nil]
    | some last =>
      obtain ⟨before, hbefore⟩ := List.getLast?_eq_some_iff.mp hlast
      have hends : ¬ m.start < last.stop := by
        rw [Address.not_lt]
        exact h last hlast
      rw [hbefore, List.reverse_concat, List.dropWhile_cons_of_neg (by simpa using hends)]
  unfold Registry.evict
  simp only [hkept, List.reverse_reverse, List.takeWhile_append_dropWhile]

/-- Eviction takes the first method that it asks, if that one reaches past the start. -/
theorem Ascending.notMem_evict (h : registry.Ascending) {last : CompiledMethod}
    (hlast : registry.lastBelow? m.stop = some last) (hreach : m.start < last.stop) :
    last ∉ Registry.evict m registry.methods := by
  obtain ⟨before, hbefore⟩ := List.getLast?_eq_some_iff.mp hlast
  have hsplit : registry.methods =
      before ++ [last] ++ registry.methods.dropWhile (·.start < m.stop) := by
    rw [← hbefore, List.takeWhile_append_dropWhile]
  have hordered : (before ++ [last] ++ registry.methods.dropWhile (·.start < m.stop)).Pairwise
      fun a b => a.start < b.start := hsplit ▸ h
  obtain ⟨hfirst, -, hacross⟩ := List.pairwise_append.mp hordered
  obtain ⟨-, -, hfirstLast⟩ := List.pairwise_append.mp hfirst
  unfold Registry.evict
  simp only [hbefore, List.reverse_concat]
  rw [List.dropWhile_cons_of_pos (by simpa using hreach), List.mem_append, List.mem_reverse]
  rintro (hmem | hmem)
  · have hearlier := List.mem_reverse.mp ((List.dropWhile_sublist _).subset hmem)
    have hlt := hfirstLast last hearlier last (List.mem_singleton_self last)
    rw [Address.lt_iff] at hlt
    omega
  · have hlt := hacross last (List.mem_append_right before (List.mem_singleton_self last)) last hmem
    rw [Address.lt_iff] at hlt
    omega

/-! ## What a method without code hides -/

/-- No address belongs to a method that does not end behind its start. -/
theorem not_contains_of_stop_le (h : m.stop ≤ m.start) : ¬ m.metadata.Contains pc := by
  rintro ⟨hlow, hhigh⟩
  have hstart := Address.le_iff.mp hlow
  have hstop := Address.lt_iff.mp hhigh
  rw [Address.le_iff] at h
  exact absurd (Nat.lt_of_le_of_lt (Nat.le_trans h hstart) hstop) (Nat.lt_irrefl _)

/-- Nothing is found at the start of a method without code. -/
theorem Ascending.lookup?_register_start (h : registry.Ascending) (hm : m.stop ≤ m.start) :
    (registry.register m).lookup? m.start = none := by
  rw [Option.eq_none_iff_forall_ne_some]
  intro other hlook
  obtain ⟨hother, hcontains, hmax⟩ := (h.register m).lookup?_eq_some_iff.mp hlook
  have hmemM : m ∈ (registry.register m).methods := h.mem_register_iff.mpr (.inl rfl)
  have hle := hmax m hmemM (Address.le_refl _)
  rcases h.mem_register_iff.mp hother with rfl | ⟨-, hne⟩
  · exact not_contains_of_stop_le hm hcontains
  · have hge := hcontains.1
    rw [Address.le_iff] at hle hge
    exact hne (Address.ext_toNat (Nat.le_antisymm hge hle))

/-- A method that is found at some address is found at all earlier ones that belong to it. -/
theorem Ascending.lookup?_of_le (h : registry.Ascending) {earlier : Address}
    (hlook : registry.lookup? pc = some other) (hstart : other.start ≤ earlier)
    (hle : earlier ≤ pc) : registry.lookup? earlier = some other := by
  obtain ⟨hother, ⟨-, hstop⟩, hmax⟩ := h.lookup?_eq_some_iff.mp hlook
  refine h.lookup?_eq_some_iff.mpr ⟨hother, ⟨hstart, Address.lt_of_le_of_lt hle hstop⟩, ?_⟩
  intro another hanother hbegun
  rw [Address.le_iff] at hbegun hle
  exact hmax another hanother (Address.le_iff.mpr (Nat.le_trans hbegun hle))

/-- A method without code that evicts nothing and has a start at which nothing is found hides
nothing. -/
theorem Ascending.lookup?_register (h : registry.Ascending) (hm : m.stop ≤ m.start)
    (hevict : Registry.evict m registry.methods = registry.methods)
    (hnone : registry.lookup? m.start = none) (pc : Address) :
    (registry.register m).lookup? pc = registry.lookup? pc := by
  have hmem : ∀ other, other ∈ (registry.register m).methods ↔
      other = m ∨ other ∈ registry.methods ∧ other.start ≠ m.start := by
    intro other
    rw [h.mem_register_iff, hevict]
  refine Option.ext fun other => ?_
  constructor
  · intro hlook
    obtain ⟨hother, hcontains, hmax⟩ := (h.register m).lookup?_eq_some_iff.mp hlook
    rcases (hmem other).mp hother with rfl | ⟨hother, -⟩
    · exact absurd hcontains (not_contains_of_stop_le hm)
    · refine h.lookup?_eq_some_iff.mpr ⟨hother, hcontains, ?_⟩
      intro another hanother hbegun
      by_cases hsame : another.start = m.start
      · have hle := hmax m ((hmem m).mpr (.inl rfl)) (hsame ▸ hbegun)
        rwa [hsame]
      · exact hmax another ((hmem another).mpr (.inr ⟨hanother, hsame⟩)) hbegun
  · intro hlook
    obtain ⟨hother, hcontains, hmax⟩ := h.lookup?_eq_some_iff.mp hlook
    have hbehind : m.start ≤ pc → ¬ other.start ≤ m.start := by
      intro hbegun hle
      rw [h.lookup?_of_le hlook hle hbegun] at hnone
      cases hnone
    have hne : other.start ≠ m.start := by
      intro hsame
      exact hbehind (hsame ▸ hcontains.1) (hsame ▸ Address.le_refl _)
    refine (h.register m).lookup?_eq_some_iff.mpr
      ⟨(hmem other).mpr (.inr ⟨hother, hne⟩), hcontains, ?_⟩
    intro another hanother hbegun
    rcases (hmem another).mp hanother with rfl | ⟨hanother, -⟩
    · have hlt := Address.not_le.mp (hbehind hbegun)
      exact Address.le_of_lt hlt
    · exact hmax another hanother hbegun

/-- **A method without code**, registered after any others. All look-ups stay as they were just when
nothing was found at its start and the last method to start below its end does not reach past its
start. -/
theorem lookup?_register_eq_iff (methods : List CompiledMethod) (hm : m.stop ≤ m.start) :
    (∀ pc, ((ofMethods methods).register m).lookup? pc = (ofMethods methods).lookup? pc) ↔
      (ofMethods methods).lookup? m.start = none ∧
        ∀ last, (ofMethods methods).lastBelow? m.stop = some last → last.stop ≤ m.start := by
  have h : (ofMethods methods).Ascending := ascending_ofMethods methods
  constructor
  · intro hsame
    refine ⟨?_, ?_⟩
    · rw [← hsame, h.lookup?_register_start hm]
    · intro last hlast
      by_contra hreach
      rw [Address.not_le] at hreach
      have hmem := List.mem_of_getLast? hlast
      have hbelow : last.start < m.stop := by
        simpa using List.mem_takeWhile_imp hmem
      have hcode : last.start < last.stop := by
        rw [Address.lt_iff] at hbelow hreach ⊢
        rw [Address.le_iff] at hm
        omega
      have hfound : (ofMethods methods).lookup? last.start = some last :=
        h.lookup?_eq_some_iff.mpr ⟨(List.takeWhile_sublist _).subset hmem,
          ⟨Address.le_refl _, hcode⟩, fun _ _ hle => hle⟩
      rw [← hsame] at hfound
      rcases h.mem_register_iff.mp (mem_of_lookup? hfound) with rfl | ⟨hkept, -⟩
      · exact not_contains_of_stop_le hm (contains_of_lookup? hfound)
      · exact h.notMem_evict hlast hreach hkept
  · rintro ⟨hnone, hends⟩
    exact h.lookup?_register hm (evict_eq_self hends) hnone

/-- Two methods with code. -/
def sampleMethods : List CompiledMethod :=
  [sampleAt 0x1000 0x1040, sampleAt 0x2000 0x2040]

/-- A method without code between the two methods does no harm, one inside the second hides it. -/
theorem lookup?_register_eq_iff_sample :
    ((ofMethods sampleMethods).register (sampleAt 0x1800 0x1700)).lookup? ⟨0x2010⟩ =
        (ofMethods sampleMethods).lookup? ⟨0x2010⟩ ∧
      ¬ ∀ pc, ((ofMethods sampleMethods).register (sampleAt 0x2020 0x1f00)).lookup? pc =
        (ofMethods sampleMethods).lookup? pc := by
  constructor
  · refine (lookup?_register_eq_iff sampleMethods (by decide)).mpr ⟨rfl, ?_⟩ _
    intro last hlast
    have hfirst : (ofMethods sampleMethods).lastBelow? ⟨0x1700⟩ =
        some (sampleAt 0x1000 0x1040) := rfl
    obtain rfl := Option.some.inj (hfirst.symm.trans hlast)
    decide
  · rw [lookup?_register_eq_iff sampleMethods (by decide)]
    rintro ⟨hnone, -⟩
    have hsecond : (ofMethods sampleMethods).lookup? (sampleAt 0x2020 0x1f00).start =
        some (sampleAt 0x2000 0x2040) := rfl
    rw [hsecond] at hnone
    cases hnone

/-- A method without code can take another method out of the look-up, by eviction or by hiding it.
-/
theorem not_lookup?_register_eq :
    (¬ ∀ (methods : List CompiledMethod) (m : CompiledMethod), m.stop ≤ m.start →
      ∀ pc, ((ofMethods methods).register m).lookup? pc = (ofMethods methods).lookup? pc) ∧
    (ofMethods (sampleMethods ++ [sampleAt 0x1020 0x1020])).lookup? ⟨0x1010⟩ = none ∧
    (ofMethods (sampleMethods ++ [sampleAt 0x2020 0x1f00])).lookup? ⟨0x2030⟩ = none := by
  refine ⟨?_, rfl, rfl⟩
  intro h
  have hsame := h sampleMethods (sampleAt 0x1020 0x1020) (by decide) ⟨0x1010⟩
  have hbefore : (ofMethods sampleMethods).lookup? ⟨0x1010⟩ = some (sampleAt 0x1000 0x1040) := rfl
  have hafter : ((ofMethods sampleMethods).register (sampleAt 0x1020 0x1020)).lookup? ⟨0x1010⟩ =
      none := rfl
  rw [hbefore, hafter] at hsame
  cases hsame

end Registry

end CompiledFrames
