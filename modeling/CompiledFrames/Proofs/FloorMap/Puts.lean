import Mathlib.Data.List.Induction
import CompiledFrames.Proofs.FloorMap
import CompiledFrames.Proofs.Ordered

/-!
# Floor maps over time

What a floor map has after some puts, of which it may have refused a part. A put compares its key
with the last one alone; as all keys were put that way they rise, and a key above the last one is
above all of them. The same order makes the last entry at or below a key the greatest one.

Keys are compared with `≤` only, and what is used of it is that it is reflexive, transitive and
total. "Above" is said as "not at or below" throughout.

## Main definitions

* `FloorMap.Above`, `FloorMap.Rising`: a key above all keys of some entries, entries with rising keys
* `FloorMap.accepted`: the entries of some puts whose keys are above all accepted before them
* `FloorMap.ofPuts`: the map after some puts

## Main results

* `FloorMap.toList_ofPuts`: the map has the accepted entries
* `FloorMap.above_accepted_iff`: being above the accepted keys is being above all that were tried
* `FloorMap.Rising.held?_eq_some_iff`: what holds at a key is the value of the greatest entry
* `FloorMap.ofPuts_floor`: puts, entries, look-ups and whole lists
-/

namespace CompiledFrames.FloorMap

variable {κ ν : Type} [FloorKey κ]

/-! ## Accepted entries -/

/-- A key is above all keys of some entries. -/
def Above (entries : List (κ × ν)) (key : κ) : Prop :=
  ∀ entry ∈ entries, ¬ key ≤ entry.1

instance (entries : List (κ × ν)) (key : κ) : Decidable (Above entries key) :=
  inferInstanceAs (Decidable (∀ entry ∈ entries, ¬ key ≤ entry.1))

/-- Each key is above those before it. -/
def Rising (entries : List (κ × ν)) : Prop :=
  entries.Pairwise fun first second => ¬ second.1 ≤ first.1

/-- The entries that are accepted when all are put one after the other: those whose keys are above
all that were accepted before. -/
def accepted (puts : List (κ × ν)) : List (κ × ν) :=
  puts.foldl (fun before entry => if Above before entry.1 then before ++ [entry] else before) []

/-- The map after a put. One that is refused leaves it as it was. -/
def afterPut (map : FloorMap κ ν) (entry : κ × ν) : FloorMap κ ν :=
  match map.put entry.1 entry.2 with
  | .ok map' => map'
  | .error _ => map

/-- The map after some puts, the first of them into an empty one. -/
def ofPuts (puts : List (κ × ν)) : FloorMap κ ν :=
  puts.foldl afterPut ∅

variable {map map' : FloorMap κ ν} {entries puts : List (κ × ν)} {entry last : κ × ν} {key x : κ}
  {value : ν}

theorem accepted_concat (puts : List (κ × ν)) (entry : κ × ν) :
    accepted (puts ++ [entry]) =
      if Above (accepted puts) entry.1 then accepted puts ++ [entry] else accepted puts := by
  rw [accepted, List.foldl_append]
  rfl

theorem ofPuts_concat (puts : List (κ × ν)) (entry : κ × ν) :
    ofPuts (puts ++ [entry]) = (ofPuts puts).afterPut entry := by
  rw [ofPuts, List.foldl_append]
  rfl

theorem rising_concat_iff :
    Rising (entries ++ [entry]) ↔ Rising entries ∧ Above entries entry.1 := by
  simp [Rising, Above, List.pairwise_append]

theorem rising_accepted (puts : List (κ × ν)) : Rising (accepted puts) := by
  induction puts using List.reverseRecOn with
  | nil => exact List.Pairwise.nil
  | append_singleton puts entry ih =>
    rw [accepted_concat]
    split_ifs with habove
    · exact rising_concat_iff.mpr ⟨ih, habove⟩
    · exact ih

/-- A key above all of a map is put at its end. -/
theorem put_of_above (h : Above map.toList key) (value : ν) :
    map.put key value = .ok (map.afterPut (key, value)) ∧
      (map.afterPut (key, value)).toList = map.toList ++ [(key, value)] := by
  obtain ⟨map', hput⟩ := put_of_forall_not_le value h
  have hafter : map.afterPut (key, value) = map' := by
    simp only [afterPut, hput]
  rw [hafter]
  exact ⟨hput, toList_of_put hput⟩

theorem held?_eq_none_iff : map.held? x = none ↔ ∀ entry ∈ map.toList, ¬ entry.1 ≤ x := by
  simp [held?]

theorem ofList_append (before after : List (κ × ν)) :
    ofList (before ++ after) =
      ofList before >>= fun map => after.foldlM (fun map entry => map.put entry.1 entry.2) map := by
  rw [ofList, List.foldlM_append]
  rfl

section Order

variable [Std.IsLinearPreorder κ]

/-- A key above the last one of rising keys is above all of them. -/
theorem Rising.above_iff (h : Rising entries) (hlast : entries.getLast? = some last) :
    Above entries key ↔ ¬ key ≤ last.1 := by
  refine ⟨fun habove => habove last (List.mem_of_getLast? hlast), fun hnot entry hentry hle => ?_⟩
  rcases eq_or_rel_of_getLast? h hentry hlast with rfl | hbelow
  · exact hnot hle
  · have hlower : entry.1 ≤ last.1 := Std.le_total.resolve_right hbelow
    exact hnot (Std.le_trans hle hlower)

/-- A key that was refused does not matter later on: it is at or below an accepted one. -/
theorem above_accepted_iff : Above (accepted puts) key ↔ Above puts key := by
  induction puts using List.reverseRecOn with
  | nil => rfl
  | append_singleton puts entry ih =>
    have hconcat (entries : List (κ × ν)) :
        Above (entries ++ [entry]) key ↔ Above entries key ∧ ¬ key ≤ entry.1 := by
      simp [Above, or_imp, forall_and]
    rw [accepted_concat, hconcat, ← ih]
    split_ifs with hentry
    · exact hconcat _
    · -- what is at or below the refused key is not above the accepted entry that refused it
      refine ⟨fun habove => ⟨habove, fun hle => hentry fun other hother hbelow => ?_⟩, And.left⟩
      exact habove other hother (Std.le_trans hle hbelow)

/-! ## Puts -/

/-- A key that is not above all of a map with rising keys is refused, and the error names the last
one. -/
theorem Rising.put_of_not_above (h : Rising map.toList) (hkey : ¬ Above map.toList key)
    (value : ν) :
    map.afterPut (key, value) = map ∧ ∃ last, map.toList.getLast? = some last ∧
      map.put key value =
        .error (.keyOrder (FloorKey.keyText key) (FloorKey.keyText last.1)) := by
  cases hlast : map.toList.getLast? with
  | none =>
    rw [List.getLast?_eq_none_iff.mp hlast] at hkey
    exact absurd (List.forall_mem_nil _) hkey
  | some last =>
    obtain ⟨before, hconcat⟩ := List.getLast?_eq_some_iff.mp hlast
    have hle : key ≤ last.1 := by
      rw [h.above_iff hlast] at hkey
      exact not_not.mp hkey
    have hput := put_of_toList hconcat key value
    rw [if_pos hle] at hput
    refine ⟨?_, last, rfl, hput⟩
    simp only [afterPut, hput]

/-- **A map has the accepted entries** in the order of the puts, and no others. -/
theorem toList_ofPuts (puts : List (κ × ν)) : (ofPuts puts).toList = accepted puts := by
  induction puts using List.reverseRecOn with
  | nil => rfl
  | append_singleton puts entry ih =>
    rw [ofPuts_concat, accepted_concat, ← ih]
    split_ifs with habove
    · exact (put_of_above habove entry.2).2
    · have hrising : Rising (ofPuts puts).toList := ih ▸ rising_accepted puts
      rw [(hrising.put_of_not_above habove entry.2).1]

/-- One more put succeeds just when its key is above the accepted ones. -/
theorem put_ofPuts_eq_ok_iff :
    (ofPuts puts).put key value = .ok map ↔
      Above (accepted puts) key ∧ map = ofPuts (puts ++ [(key, value)]) := by
  have hrising : Rising (ofPuts puts).toList := toList_ofPuts puts ▸ rising_accepted puts
  rw [← toList_ofPuts, ofPuts_concat]
  by_cases habove : Above (ofPuts puts).toList key
  · rw [(put_of_above habove value).1, Except.ok.injEq, eq_comm, and_iff_right habove]
  · obtain ⟨-, last, -, hput⟩ := hrising.put_of_not_above habove value
    rw [hput]
    exact ⟨nofun, fun h => absurd h.1 habove⟩

/-! ## Look-ups -/

/-- **What holds at a key** is the value of the greatest entry at or below it. -/
theorem Rising.held?_eq_some_iff (h : Rising map.toList) :
    map.held? x = some value ↔
      ∃ entry ∈ map.toList, entry.1 ≤ x ∧ entry.2 = value ∧
        ∀ other ∈ map.toList, other.1 ≤ x → other.1 ≤ entry.1 := by
  have hfilter : Rising (map.toList.filter (·.1 ≤ x)) := h.sublist List.filter_sublist
  have hmem : ∀ entry, entry ∈ map.toList.filter (·.1 ≤ x) ↔ entry ∈ map.toList ∧ entry.1 ≤ x := by
    simp
  rw [held?, Option.map_eq_some_iff]
  constructor
  · rintro ⟨entry, hlast, hvalue⟩
    obtain ⟨hentry, hle⟩ := (hmem entry).mp (List.mem_of_getLast? hlast)
    refine ⟨entry, hentry, hle, hvalue, fun other hother hbelow => ?_⟩
    rcases eq_or_rel_of_getLast? hfilter ((hmem other).mpr ⟨hother, hbelow⟩) hlast with rfl | hrel
    · exact Std.le_refl other.1
    · exact Std.le_total.resolve_right hrel
  · rintro ⟨entry, hentry, hle, hvalue, hgreatest⟩
    have hin := (hmem entry).mpr ⟨hentry, hle⟩
    have hlast := List.getLast?_eq_some_getLast (List.ne_nil_of_mem hin)
    obtain ⟨hothers, hbelow⟩ := (hmem _).mp (List.mem_of_getLast? hlast)
    rcases eq_or_rel_of_getLast? hfilter hin hlast with heq | hrel
    · rw [heq] at hvalue
      exact ⟨_, hlast, hvalue⟩
    · exact absurd (hgreatest _ hothers hbelow) hrel

/-! ## Lists -/

/-- **A list gives a map** just when its keys rise, and then it is the map after all puts. -/
theorem ofList_eq_ok_iff : ofList entries = .ok map ↔ Rising entries ∧ map = ofPuts entries := by
  induction entries using List.reverseRecOn generalizing map with
  | nil =>
    refine ⟨fun h => ⟨List.Pairwise.nil, (Except.ok.inj h).symm⟩, ?_⟩
    rintro ⟨-, rfl⟩
    rfl
  | append_singleton entries entry ih =>
    have hput : ofList (entries ++ [entry]) = .ok map ↔
        Rising entries ∧ (ofPuts entries).put entry.1 entry.2 = .ok map := by
      simp only [ofList_append, List.foldlM_cons, List.foldlM_nil, bind_pure, Except.bind_eq_ok, ih]
      exact ⟨fun ⟨_, ⟨hrising, hbefore⟩, h⟩ => ⟨hrising, hbefore ▸ h⟩,
        fun ⟨hrising, h⟩ => ⟨_, ⟨hrising, rfl⟩, h⟩⟩
    rw [hput, put_ofPuts_eq_ok_iff, rising_concat_iff, above_accepted_iff, and_assoc]

/-- A list whose keys do not rise fails as the first put does that is refused. -/
theorem ofList_eq_error_iff {e : Error} :
    ofList entries = .error e ↔
      ∃ before entry after, entries = before ++ entry :: after ∧ Rising before ∧
        (ofPuts before).put entry.1 entry.2 = .error e := by
  constructor
  · intro h
    induction entries using List.reverseRecOn with
    | nil => cases h
    | append_singleton entries entry ih =>
      rw [ofList_append, Except.bind_eq_error] at h
      rcases h with h | ⟨map, hmap, h⟩
      · obtain ⟨before, refused, after, rfl, hrising, hput⟩ := ih h
        exact ⟨before, refused, after ++ [entry], by simp, hrising, hput⟩
      · obtain ⟨hrising, rfl⟩ := ofList_eq_ok_iff.mp hmap
        simp only [List.foldlM_cons, List.foldlM_nil, bind_pure] at h
        exact ⟨entries, entry, [], rfl, hrising, h⟩
  · rintro ⟨before, entry, after, rfl, hrising, hput⟩
    have hbefore : ofList before = .ok (ofPuts before) := ofList_eq_ok_iff.mpr ⟨hrising, rfl⟩
    rw [ofList_append, hbefore, Except.ok_bind, List.foldlM_cons, hput]
    rfl

/-- **Floor maps**, for any reflexive, transitive and total order of keys and after any puts into an
empty map. The next put succeeds just when its key is above all accepted ones; if it does not, the
error names the last accepted key and the map stays as it is. The map has all accepted entries in the
order of their keys. A look-up gives the value of the greatest accepted key at or below, and fails
just when there is none. The entries as a list give a map just when all their keys rise: the map
after all puts; otherwise it fails as the first put does that is refused. -/
theorem ofPuts_floor (puts : List (κ × ν)) :
    (∀ key value,
      (∀ map, (ofPuts puts).put key value = .ok map ↔
        Above (accepted puts) key ∧ map = ofPuts (puts ++ [(key, value)])) ∧
      (¬ Above (accepted puts) key → ofPuts (puts ++ [(key, value)]) = ofPuts puts ∧
        ∃ last, (accepted puts).getLast? = some last ∧ (ofPuts puts).put key value =
          .error (.keyOrder (FloorKey.keyText key) (FloorKey.keyText last.1)))) ∧
    (ofPuts puts).toList = accepted puts ∧ Rising (accepted puts) ∧
    (∀ x value, (ofPuts puts).get x = .ok value ↔
      ∃ entry ∈ accepted puts, entry.1 ≤ x ∧ entry.2 = value ∧
        ∀ other ∈ accepted puts, other.1 ≤ x → other.1 ≤ entry.1) ∧
    (∀ x, (∃ what, (ofPuts puts).get x = .error (.notFound what)) ↔
      ∀ entry ∈ accepted puts, ¬ entry.1 ≤ x) ∧
    (∀ map, ofList puts = .ok map ↔ Rising puts ∧ map = ofPuts puts) ∧
    ∀ e, ofList puts = .error e ↔
      ∃ before entry after, puts = before ++ entry :: after ∧ Rising before ∧
        (ofPuts before).put entry.1 entry.2 = .error e := by
  have hlist := toList_ofPuts puts
  have hrising : Rising (ofPuts puts).toList := hlist ▸ rising_accepted puts
  refine ⟨fun key value => ⟨fun map => put_ofPuts_eq_ok_iff, fun hnot => ?_⟩, hlist,
    rising_accepted puts, fun x value => ?_, fun x => ?_, fun map => ofList_eq_ok_iff,
    fun e => ofList_eq_error_iff⟩
  · rw [← hlist] at hnot ⊢
    rw [ofPuts_concat]
    exact hrising.put_of_not_above hnot value
  · rw [get_eq_ok_iff, hrising.held?_eq_some_iff, hlist]
  · rw [get_eq_notFound_iff, held?_eq_none_iff, hlist]

/-- Puts of bytecode indices, of which the second and the third are refused. -/
def samplePuts : List (Address × UInt32) :=
  [(⟨0x100⟩, 0), (⟨0x100⟩, 1), (⟨0xf0⟩, 2), (⟨0x108⟩, 5)]

/-- Two of four puts are accepted, a fifth one is not; and as a list the four puts fail with the
second one. -/
theorem ofPuts_floor_sample :
    (ofPuts samplePuts).toList = [(⟨0x100⟩, 0), (⟨0x108⟩, 5)] ∧
      (ofPuts samplePuts).get ⟨0x107⟩ = .ok 0 ∧
      (∃ what, (ofPuts samplePuts).get ⟨0xff⟩ = .error (.notFound what)) ∧
      ofPuts (samplePuts ++ [(⟨0x104⟩, 7)]) = ofPuts samplePuts ∧
      (ofPuts samplePuts).put ⟨0x104⟩ 7 =
        .error (.keyOrder (Address.keyText ⟨0x104⟩) (Address.keyText ⟨0x108⟩)) ∧
      ofList samplePuts =
        .error (.keyOrder (Address.keyText ⟨0x100⟩) (Address.keyText ⟨0x100⟩)) := by
  have haccepted : accepted samplePuts = [(⟨0x100⟩, 0), (⟨0x108⟩, 5)] := rfl
  obtain ⟨hput, hlist, -, hget, hnone, -, herror⟩ := ofPuts_floor samplePuts
  rw [haccepted] at hput hlist hget hnone
  obtain ⟨hsame, last, hlast, hrefused⟩ := (hput ⟨0x104⟩ 7).2 (by decide)
  obtain rfl := Option.some.inj hlast
  refine ⟨hlist, (hget _ _).mpr ?_, (hnone _).mpr (by decide), hsame, hrefused, (herror _).mpr ?_⟩
  · exact ⟨(⟨0x100⟩, 0), List.mem_cons_self, by decide, rfl, by decide⟩
  · exact ⟨[(⟨0x100⟩, 0)], (⟨0x100⟩, 1), _, rfl, List.pairwise_singleton _ _, rfl⟩

end Order

end CompiledFrames.FloorMap
