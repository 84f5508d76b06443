import Mathlib.Tactic.SplitIfs
import CompiledFrames.Method.Registry
import CompiledFrames.Proofs.Ordered

/-!
# Tidy registries

A registry is searched from one side only: registering goes down from the end of the new method and
stops at the first one that ends early enough, and the look-up asks a single method. Both are right
as long as the methods have instructions and lie in order, one ending before the next one starts.
Registering keeps it so, and it evicts just the methods that share an address with the new one.

## Main definitions

* `MethodMetadata.Overlaps`: two methods share an address
* `Registry.Tidy`: the methods have instructions and lie in order

## Main results

* `Registry.mem_register_iff`, `Registry.Tidy.register`: what is in a registry after a method is
  registered, and that it is tidy again
* `Registry.Tidy.lookup?_eq_some_iff`: the look-up finds the method that an address belongs to
-/

namespace CompiledFrames

/-! ## Overlaps -/

namespace MethodMetadata

variable {a b : MethodMetadata}

/-- There is an address that belongs to both methods. -/
def Overlaps (a b : MethodMetadata) : Prop :=
  ∃ pc, a.Contains pc ∧ b.Contains pc

/-- Methods with instructions share no address just when one of them ends before the other starts.
-/
theorem not_overlaps_iff (ha : a.start < a.stop) (hb : b.start < b.stop) :
    ¬ a.Overlaps b ↔ a.stop ≤ b.start ∨ b.stop ≤ a.start := by
  simp only [Overlaps, Contains, Address.le_iff, Address.lt_iff] at ha hb ⊢
  constructor
  · intro h
    by_contra hboth
    rcases Nat.le_total a.start.toNat b.start.toNat with hle | hle
    · exact h ⟨b.start, by omega⟩
    · exact h ⟨a.start, by omega⟩
  · rintro hapart ⟨pc, _, _⟩
    omega

end MethodMetadata

namespace Registry

variable {registry : Registry} {m other : CompiledMethod} {pc : Address}

/-! ## Order -/

/-- Each method has instructions, and each one ends before the next one starts. -/
structure Tidy (registry : Registry) : Prop where
  start_lt_stop : ∀ m ∈ registry.methods, m.start < m.stop
  ordered : registry.methods.Pairwise fun a b => a.stop ≤ b.start

theorem tidy_empty : ({} : Registry).Tidy :=
  ⟨nofun, List.Pairwise.nil⟩

theorem Tidy.pairwise_start (h : registry.Tidy) :
    registry.methods.Pairwise fun a b => a.start < b.start :=
  h.ordered.imp_of_mem fun ha _ hab => by
    have hlt := h.start_lt_stop _ ha
    rw [Address.lt_iff] at hlt ⊢
    rw [Address.le_iff] at hab
    omega

theorem Tidy.pairwise_stop (h : registry.Tidy) :
    registry.methods.Pairwise fun a b => a.stop < b.stop :=
  h.ordered.imp_of_mem fun _ hb hab => by
    have hlt := h.start_lt_stop _ hb
    rw [Address.lt_iff] at hlt ⊢
    rw [Address.le_iff] at hab
    omega

/-- No two methods share an address. -/
theorem Tidy.pairwise_not_overlaps (h : registry.Tidy) :
    registry.methods.Pairwise fun a b => ¬ a.metadata.Overlaps b.metadata :=
  h.ordered.imp_of_mem fun ha hb hab =>
    (MethodMetadata.not_overlaps_iff (h.start_lt_stop _ ha) (h.start_lt_stop _ hb)).mpr (.inl hab)

/-! ## Eviction and insertion -/

/-- **Eviction** goes down from the end of the new method as long as methods reach past its start.
What is left are all the methods that end before it or start behind it. -/
theorem Tidy.evict_eq_filter (h : registry.Tidy) (m : CompiledMethod) :
    evict m registry.methods =
      registry.methods.filter fun other => other.stop ≤ m.start ∨ m.stop ≤ other.start := by
  have hstarts : registry.methods.Pairwise fun a b =>
      decide (b.start < m.stop) → decide (a.start < m.stop) := by
    refine h.pairwise_start.imp fun hab => ?_
    simp only [decide_eq_true_eq, Address.lt_iff] at hab ⊢
    omega
  have hstops : (registry.methods.takeWhile (·.start < m.stop)).reverse.Pairwise fun a b =>
      decide (m.start < b.stop) → decide (m.start < a.stop) := by
    rw [List.pairwise_reverse]
    refine (h.pairwise_stop.sublist (List.takeWhile_sublist _)).imp fun hab => ?_
    simp only [decide_eq_true_eq, Address.lt_iff] at hab ⊢
    omega
  have hbelow : ((registry.methods.takeWhile (·.start < m.stop)).reverse.dropWhile
      (m.start < ·.stop)).reverse = (registry.methods.takeWhile (·.start < m.stop)).filter
        fun other => other.stop ≤ m.start ∨ m.stop ≤ other.start := by
    rw [dropWhile_eq_filter hstops, List.filter_reverse, List.reverse_reverse]
    refine List.filter_congr fun other hother => ?_
    have hstart := List.mem_takeWhile_imp hother
    simp only [decide_eq_true_eq, Address.lt_iff, Address.le_iff] at hstart ⊢
    simp only [← decide_not, decide_eq_decide]
    omega
  have habove : registry.methods.dropWhile (·.start < m.stop) =
      (registry.methods.dropWhile (·.start < m.stop)).filter
        fun other => other.stop ≤ m.start ∨ m.stop ≤ other.start := by
    rw [eq_comm, List.filter_eq_self, dropWhile_eq_filter hstarts]
    intro other hother
    have hstart := (List.mem_filter.mp hother).2
    simp only [Bool.not_eq_true', decide_eq_false_iff_not, Address.not_lt] at hstart
    simp [hstart]
  calc evict m registry.methods
      = ((registry.methods.takeWhile (·.start < m.stop)).reverse.dropWhile
          (m.start < ·.stop)).reverse ++ registry.methods.dropWhile (·.start < m.stop) := rfl
    _ = _ := by
        rw [hbelow, habove, ← List.filter_append, List.takeWhile_append_dropWhile]

theorem Tidy.mem_evict_iff (h : registry.Tidy) :
    other ∈ evict m registry.methods ↔
      other ∈ registry.methods ∧ (other.stop ≤ m.start ∨ m.stop ≤ other.start) := by
  rw [h.evict_eq_filter, List.mem_filter, decide_eq_true_eq]

theorem Tidy.evict (h : registry.Tidy) (m : CompiledMethod) :
    (Registry.mk (evict m registry.methods)).Tidy := by
  refine ⟨fun other hother => h.start_lt_stop other (h.mem_evict_iff.mp hother).1, ?_⟩
  rw [h.evict_eq_filter]
  exact h.ordered.filter _

theorem mem_insertByStart_iff {methods : List CompiledMethod}
    (h : ∀ other ∈ methods, m.start ≠ other.start) :
    other ∈ insertByStart m methods ↔ other = m ∨ other ∈ methods := by
  induction methods with
  | nil => simp [insertByStart]
  | cons first rest ih =>
    obtain ⟨hfirst, hrest⟩ := List.forall_mem_cons.mp h
    unfold insertByStart
    split_ifs with hlt
    · exact List.mem_cons
    · rw [List.mem_cons, ih hrest, List.mem_cons, or_left_comm]

/-- Methods with instructions of which one ends before the other starts have different starts. -/
theorem start_ne_of_apart (hm : m.start < m.stop) (hother : other.start < other.stop)
    (h : other.stop ≤ m.start ∨ m.stop ≤ other.start) : m.start ≠ other.start := by
  intro hsame
  simp only [Address.lt_iff, Address.le_iff, hsame] at hm hother h
  omega

/-- A method put among methods that end before it or start behind it lies in order with them. -/
theorem Tidy.insertByStart (h : registry.Tidy) (hm : m.start < m.stop)
    (hapart : ∀ other ∈ registry.methods, other.stop ≤ m.start ∨ m.stop ≤ other.start) :
    (Registry.mk (insertByStart m registry.methods)).Tidy := by
  obtain ⟨methods⟩ := registry
  obtain ⟨hsome, hordered⟩ := h
  have hne : ∀ other ∈ methods, m.start ≠ other.start := fun other hother =>
    start_ne_of_apart hm (hsome other hother) (hapart other hother)
  refine ⟨fun other hother => ?_, ?_⟩
  · rcases (mem_insertByStart_iff hne).mp hother with rfl | hother
    · exact hm
    · exact hsome other hother
  · induction methods with
    | nil => exact List.pairwise_singleton _ m
    | cons first rest ih =>
      obtain ⟨hfirst, hrest⟩ := List.pairwise_cons.mp hordered
      obtain ⟨hsomeFirst, hsomeRest⟩ := List.forall_mem_cons.mp hsome
      obtain ⟨hapartFirst, hapartRest⟩ := List.forall_mem_cons.mp hapart
      obtain ⟨hneFirst, hneRest⟩ := List.forall_mem_cons.mp hne
      simp only [Address.lt_iff, Address.le_iff] at hm hsomeFirst hapartFirst
      unfold Registry.insertByStart
      split_ifs with hlt
      · rw [Address.lt_iff] at hlt
        refine List.pairwise_cons.mpr ⟨fun other hother => ?_, hordered⟩
        rw [Address.le_iff]
        rcases List.mem_cons.mp hother with rfl | hother
        · omega
        · have hle := Address.le_iff.mp (hfirst other hother)
          omega
      · rw [Address.lt_iff] at hlt
        refine List.pairwise_cons.mpr ⟨fun other hother => ?_, ?_⟩
        · rcases (mem_insertByStart_iff hneRest).mp hother with rfl | hother
          · rw [Address.le_iff]
            omega
          · exact hfirst other hother
        · exact ih hapartRest hsomeRest hrest hneRest

/-! ## Registering -/

/-- **What is registered**: the new method, and the old ones that share no address with it. -/
theorem Tidy.mem_register_iff (h : registry.Tidy) (hm : m.start < m.stop) :
    other ∈ (registry.register m).methods ↔
      other = m ∨ other ∈ registry.methods ∧ ¬ other.metadata.Overlaps m.metadata := by
  have hne : ∀ kept ∈ Registry.evict m registry.methods, m.start ≠ kept.start :=
    fun kept hkept => start_ne_of_apart hm ((h.evict m).start_lt_stop kept hkept)
      (h.mem_evict_iff.mp hkept).2
  have hapart : other ∈ registry.methods →
      (¬ other.metadata.Overlaps m.metadata ↔ other.stop ≤ m.start ∨ m.stop ≤ other.start) :=
    fun hother => MethodMetadata.not_overlaps_iff (h.start_lt_stop other hother) hm
  unfold register
  rw [mem_insertByStart_iff hne, h.mem_evict_iff]
  exact or_congr_right (and_congr_right fun hother => (hapart hother).symm)

/-- Registering keeps a registry tidy. -/
theorem Tidy.register (h : registry.Tidy) (hm : m.start < m.stop) :
    (registry.register m).Tidy :=
  (h.evict m).insertByStart hm fun _ hother => (h.mem_evict_iff.mp hother).2

/-! ## Look-up -/

theorem mem_of_lookup? (h : registry.lookup? pc = some m) : m ∈ registry.methods := by
  have hlast := (Option.filter_eq_some_iff.mp h).1
  exact (List.takeWhile_sublist _).subset (List.mem_of_getLast? hlast)

theorem contains_of_lookup? (h : registry.lookup? pc = some m) : m.metadata.Contains pc := by
  have hcontains := (Option.filter_eq_some_iff.mp h).2
  rwa [decide_eq_true_eq] at hcontains

/-- **The look-up** finds the method that an address belongs to. -/
theorem Tidy.lookup?_eq_some_iff (h : registry.Tidy) :
    registry.lookup? pc = some m ↔ m ∈ registry.methods ∧ m.metadata.Contains pc := by
  refine ⟨fun hlook => ⟨mem_of_lookup? hlook, contains_of_lookup? hlook⟩, ?_⟩
  rintro ⟨hmem, hcontains⟩
  have hstarts : registry.methods.Pairwise fun a b =>
      decide (b.start ≤ pc) → decide (a.start ≤ pc) := by
    refine h.pairwise_start.imp fun hab => ?_
    simp only [decide_eq_true_eq, Address.lt_iff, Address.le_iff] at hab ⊢
    omega
  have hin : m ∈ registry.methods.takeWhile (·.start ≤ pc) := by
    rw [takeWhile_eq_filter hstarts, List.mem_filter, decide_eq_true_eq]
    exact ⟨hmem, hcontains.1⟩
  refine Option.filter_eq_some_iff.mpr ⟨?_, decide_eq_true hcontains⟩
  cases hlast : (registry.methods.takeWhile (·.start ≤ pc)).getLast? with
  | none => rw [List.getLast?_eq_none_iff.mp hlast] at hin; cases hin
  | some last =>
    have hordered := h.ordered.sublist (List.takeWhile_sublist (p := (·.start ≤ pc)))
    rcases eq_or_rel_of_getLast? hordered hin hlast with rfl | hbefore
    · rfl
    · have hstart := List.mem_takeWhile_imp (List.mem_of_getLast? hlast)
      have hstop := hcontains.2
      rw [decide_eq_true_eq, Address.le_iff] at hstart
      rw [Address.le_iff] at hbefore
      rw [Address.lt_iff] at hstop
      exact absurd (Nat.le_trans hbefore hstart) (Nat.not_le.mpr hstop)

end Registry

end CompiledFrames
