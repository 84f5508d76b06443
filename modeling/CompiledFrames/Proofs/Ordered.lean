import Mathlib.Data.List.TakeWhile

/-!
# Beginnings of ordered lists

Registries and images keep their entries in order and cut their lists at a place. Where a property
passes on to all earlier elements, the beginning that has it is all of the list that has it, so that
a cut is as good as a filter.
-/

namespace CompiledFrames

variable {α : Type} {p : α → Bool} {l : List α}

theorem takeWhile_eq_filter (h : l.Pairwise fun a b => p b → p a) :
    l.takeWhile p = l.filter p := by
  induction l with
  | nil => rfl
  | cons a l ih =>
    obtain ⟨hfirst, hrest⟩ := List.pairwise_cons.mp h
    by_cases ha : p a
    · rw [List.takeWhile_cons_of_pos ha, List.filter_cons_of_pos ha, ih hrest]
    · have hnone : l.filter p = [] := List.filter_eq_nil_iff.mpr fun b hb hpb =>
        ha (hfirst b hb hpb)
      rw [List.takeWhile_cons_of_neg ha, List.filter_cons_of_neg ha, hnone]

theorem dropWhile_eq_filter (h : l.Pairwise fun a b => p b → p a) :
    l.dropWhile p = l.filter (!p ·) := by
  induction l with
  | nil => rfl
  | cons a l ih =>
    obtain ⟨hfirst, hrest⟩ := List.pairwise_cons.mp h
    by_cases ha : p a
    · rw [List.dropWhile_cons_of_pos ha, List.filter_cons_of_neg (by simp [ha]), ih hrest]
    · have hall : l.filter (!p ·) = l := List.filter_eq_self.mpr fun b hb => by
        simpa using fun hpb => ha (hfirst b hb hpb)
      rw [List.dropWhile_cons_of_neg ha, List.filter_cons_of_pos (by simpa using ha), hall]

/-- In an ordered list all other elements come before the last one. -/
theorem eq_or_rel_of_getLast? {R : α → α → Prop} (h : l.Pairwise R) {a last : α} (ha : a ∈ l)
    (hlast : l.getLast? = some last) : a = last ∨ R a last := by
  obtain ⟨before, rfl⟩ := List.getLast?_eq_some_iff.mp hlast
  rcases List.mem_append.mp ha with hbefore | hlast
  · exact .inr ((List.pairwise_append.mp h).2.2 a hbefore last (List.mem_singleton_self last))
  · exact .inl (List.mem_singleton.mp hlast)

/-- In an ordered list that has no other such element, one that passes a filter is all that does. -/
theorem filter_eq_singleton {R : α → α → Prop} (h : l.Pairwise R) (hirrefl : ∀ a, ¬ R a a) {a : α}
    (ha : a ∈ l) (hpass : p a) (hall : ∀ b ∈ l, p b → b = a) : l.filter p = [a] := by
  have hmem : a ∈ l.filter p := List.mem_filter.mpr ⟨ha, hpass⟩
  have hsame : ∀ b ∈ l.filter p, b = a := fun b hb =>
    hall b (List.mem_filter.mp hb).1 (List.mem_filter.mp hb).2
  have hordered : (l.filter p).Pairwise R := h.filter p
  match hfiltered : l.filter p with
  | [] =>
    rw [hfiltered] at hmem
    cases hmem
  | [only] =>
    rw [hfiltered] at hmem
    rw [List.mem_singleton.mp hmem]
  | first :: second :: rest =>
    rw [hfiltered] at hsame hordered
    have hfirst := (List.pairwise_cons.mp hordered).1 second List.mem_cons_self
    rw [hsame first List.mem_cons_self,
      hsame second (List.mem_cons_of_mem _ List.mem_cons_self)] at hfirst
    exact absurd hfirst (hirrefl a)

/-- A last element that passes a filter is the last one of those that do. -/
theorem getLast?_filter_of_getLast? {last : α} (h : l.getLast? = some last) (hlast : p last) :
    (l.filter p).getLast? = some last := by
  obtain ⟨before, rfl⟩ := List.getLast?_eq_some_iff.mp h
  rw [List.filter_append, List.filter_cons_of_pos hlast, List.filter_nil, List.getLast?_concat]

end CompiledFrames
