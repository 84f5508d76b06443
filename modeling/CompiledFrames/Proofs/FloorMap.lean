import Mathlib.Tactic.SplitIfs
import CompiledFrames.FloorMap

/-!
# Floor lookup

A floor map finds, for each key, the last entry at or below it. As keys are put in rising order, a
key above all that are there is always accepted.

## Main definitions

* `FloorMap.held?`: the value that holds at a key, by the entries in key order

## Main results

* `FloorMap.get_eq_ok_iff`, `FloorMap.get_eq_notFound_iff`: the lookup gives what holds at a key,
  and fails just when nothing does
* `FloorMap.put_of_forall_not_le`: a key above all others is accepted
-/

namespace CompiledFrames.FloorMap

variable {κ ν : Type} [FloorKey κ] {map map' : FloorMap κ ν} {key : κ} {value : ν}

/-- The value that holds at a key: that of the last entry at or below it. -/
def held? (map : FloorMap κ ν) (key : κ) : Option ν :=
  (map.toList.filter (·.1 ≤ key)).getLast?.map (·.2)

theorem held?_empty : (∅ : FloorMap κ ν).held? key = none := rfl

theorem get_eq (map : FloorMap κ ν) (key : κ) :
    map.get key =
      match map.held? key with
      | some value => .ok value
      | none => .error (.notFound ("no range starts at or before " ++ FloorKey.keyText key)) := by
  unfold get held? toList
  rw [List.filter_reverse, List.getLast?_reverse, List.head?_filter]
  cases map.latest.find? fun entry => entry.1 ≤ key <;> rfl

theorem get_eq_ok_iff : map.get key = .ok value ↔ map.held? key = some value := by
  rw [get_eq]
  cases map.held? key <;> simp

theorem get_eq_notFound_iff :
    (∃ what, map.get key = .error (.notFound what)) ↔ map.held? key = none := by
  rw [get_eq]
  cases map.held? key <;> simp

/-- A key above all others is accepted. -/
theorem put_of_forall_not_le (value : ν) (h : ∀ entry ∈ map.toList, ¬ key ≤ entry.1) :
    ∃ map', map.put key value = .ok map' := by
  unfold put
  cases hlatest : map.latest with
  | nil => exact ⟨_, rfl⟩
  | cons last rest =>
    have hmem : last ∈ map.toList := by simp [toList, hlatest]
    exact ⟨_, if_neg (h last hmem)⟩

/-- Behind a last entry, a key is refused unless it is above that one. -/
theorem put_of_toList {before : List (κ × ν)} {last : κ × ν} (h : map.toList = before ++ [last])
    (key : κ) (value : ν) :
    map.put key value =
      if key ≤ last.1 then .error (.keyOrder (FloorKey.keyText key) (FloorKey.keyText last.1))
      else .ok ⟨(key, value) :: map.latest⟩ := by
  have hlatest : map.latest = last :: before.reverse := by
    rw [toList] at h
    rw [← List.reverse_reverse map.latest, h, List.reverse_concat]
  unfold put
  rw [hlatest]

/-- A key that is not accepted is not above the last one. -/
theorem exists_keyOrder_of_put {e : Error} (h : map.put key value = .error e) :
    ∃ last, e = .keyOrder (FloorKey.keyText key) last := by
  unfold put at h
  split at h
  · cases h
  · split_ifs at h
    exact ⟨_, (Except.error.inj h).symm⟩

/-- What is true of all keys and of the one that is put is true of all keys then. -/
theorem forall_key_of_put {p : κ → Prop} (h : map.put key value = .ok map')
    (hold : ∀ entry ∈ map.toList, p entry.1) (hnew : p key) :
    ∀ entry ∈ map'.toList, p entry.1 := by
  intro entry hentry
  rw [toList_of_put h] at hentry
  rcases List.mem_append.mp hentry with hmem | hmem
  · exact hold entry hmem
  · rw [List.mem_singleton.mp hmem]
    exact hnew

/-- From its key on, the entry that is put holds. -/
theorem held?_of_put (h : map.put key value = .ok map') (other : κ) :
    map'.held? other = if key ≤ other then some value else map.held? other := by
  unfold held?
  rw [toList_of_put h, List.filter_append]
  by_cases hle : key ≤ other
  · simp [hle]
  · simp [hle]

end CompiledFrames.FloorMap
