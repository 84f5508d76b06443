import CompiledFrames.Error

/-!
# Floor maps

A table of the keys at which a value begins to hold. Keys are put in rising order only, and a value
holds until the next key. So the value at a key is that of the greatest entry at or below it.

## Main definitions

* `FloorMap.put` adds an entry at the end, `FloorMap.get` is the floor lookup.
* `FloorMap.toList` shows the entries in key order.
* `FloorKey` is what a key needs: a decidable order and a name for messages.
-/

namespace CompiledFrames

/-- The keys of floor maps: they are ordered, and errors can name them. -/
class FloorKey (κ : Type) extends LE κ where
  /-- Whether one key is at or below another. -/
  decideLE : DecidableLE κ
  /-- The key as errors name it. -/
  keyText : κ → String

instance instDecidableLEKey {κ : Type} [FloorKey κ] : DecidableLE κ := FloorKey.decideLE

instance : FloorKey Address where
  decideLE := inferInstance
  keyText := Address.keyText

instance : FloorKey Nat where
  decideLE := inferInstance
  keyText := toString

instance : FloorKey Int where
  decideLE := inferInstance
  keyText := toString

/-- Values that hold from a key on, until the next key. -/
structure FloorMap (κ : Type) (ν : Type) where
  /-- The entries, the last one put first. -/
  latest : List (κ × ν)
deriving DecidableEq, Repr

namespace FloorMap

variable {κ ν : Type}

instance : EmptyCollection (FloorMap κ ν) := ⟨⟨[]⟩⟩

instance : Inhabited (FloorMap κ ν) := ⟨⟨[]⟩⟩

/-- The entries in key order. -/
def toList (map : FloorMap κ ν) : List (κ × ν) :=
  map.latest.reverse

/-- The number of entries. -/
def size (map : FloorMap κ ν) : Nat :=
  map.latest.length

/-- Whether there is no entry. -/
def isEmpty (map : FloorMap κ ν) : Bool :=
  map.latest.isEmpty

/-- The smallest key. -/
def firstKey? (map : FloorMap κ ν) : Option κ :=
  map.toList.head?.map (·.1)

@[simp] theorem toList_empty : (∅ : FloorMap κ ν).toList = [] := rfl

@[simp] theorem length_toList (map : FloorMap κ ν) : map.toList.length = map.size := by
  simp [toList, size]

variable [FloorKey κ]

/-- The map with one more entry, whose key has to be above all others. -/
def put (map : FloorMap κ ν) (key : κ) (value : ν) : Except Error (FloorMap κ ν) :=
  match map.latest with
  | [] => .ok ⟨[(key, value)]⟩
  | (last, _) :: _ =>
    if key ≤ last then .error (.keyOrder (FloorKey.keyText key) (FloorKey.keyText last))
    else .ok ⟨(key, value) :: map.latest⟩

/-- The value that holds at a key. -/
def get (map : FloorMap κ ν) (key : κ) : Except Error ν :=
  match map.latest.find? (fun entry => entry.1 ≤ key) with
  | some (_, value) => .ok value
  | none => .error (.notFound ("no range starts at or before " ++ FloorKey.keyText key))

/-- The map of entries whose keys rise. -/
def ofList (entries : List (κ × ν)) : Except Error (FloorMap κ ν) :=
  entries.foldlM (fun map (key, value) => map.put key value) ∅

/-- A successful `put` adds its entry at the end. -/
theorem toList_of_put {map map' : FloorMap κ ν} {key : κ} {value : ν}
    (h : map.put key value = .ok map') : map'.toList = map.toList ++ [(key, value)] := by
  unfold put at h
  split at h
  · next hnil => cases h; simp [toList, hnil]
  · split at h
    · cases h
    · cases h; simp [toList]

end FloorMap

end CompiledFrames
