import CompiledFrames.Proofs.Text.Hexadecimal
import CompiledFrames.Snapshot.Document

/-!
# Written snapshots are read back

Each value that a snapshot is made of is read again from the document that is written for it: numbers
and texts as they are, lists item by item, and records field by field, since they are written with
all their fields in the order of their declaration. Nothing is missing of such a document, so that it
is also read again from its text.

## Main results

* `RecordShape.record_ofFields`: a record with all its fields is read like the array of their values
* `Document.snapshotFile_toDocument`: what the document of a snapshot says
* `Document.plain_toDocument`: nothing is missing of the document of a snapshot
* `Document.decode_text`: what the text of a snapshot says
-/

namespace CompiledFrames

/-! ## Records -/

namespace RecordShape

variable {ρ : Type} {shape : RecordShape ρ}

/-- An object that has all fields in the order of their declaration is read like the array of their
values. -/
theorem readEntries_eq_readItems (hnodup : (shape.fields.map (·.name)).Nodup)
    (passed fields : List (RecordField ρ)) (hfields : shape.fields = passed ++ fields)
    (values : List (String × Document)) (hvalues : values.map (·.1) = fields.map (·.name))
    (given : Nat) (record : ρ) :
    shape.readEntries true (values.map fun (name, value) => (some name, value))
        (passed.map (·.name)).reverse record =
      shape.readItems true given fields (values.map (·.2)) record := by
  -- names that have been seen are those of the fields that have been passed, the last one first
  induction fields generalizing passed values given record with
  | nil =>
    obtain rfl : values = [] := List.map_eq_nil_iff.mp hvalues
    have hseen : shape.fields.find? (fun field => !field.isOptional &&
        !(passed.map (·.name)).reverse.contains field.name) = none := by
      rw [hfields, List.append_nil, List.find?_eq_none]
      intro field hfield
      simp only [List.contains_reverse, Bool.and_eq_true, Bool.not_eq_true', not_and,
        Bool.not_eq_false, List.contains_iff_mem]
      intro _
      exact List.mem_map_of_mem hfield
    rw [List.map_nil, readEntries, hseen]
    rfl
  | cons field fields ih =>
    obtain ⟨⟨name, value⟩, others, rfl⟩ : ∃ first others, values = first :: others :=
      List.exists_cons_of_ne_nil (by rintro rfl; cases hvalues)
    obtain ⟨rfl, hothers⟩ := List.cons.inj hvalues
    have hnew : field.name ∉ passed.map (·.name) := by
      rw [hfields, List.map_append, List.map_cons] at hnodup
      exact fun hpassed => (List.nodup_append.mp hnodup).2.2 _ hpassed _ List.mem_cons_self rfl
    have hfind : shape.fields.find? (·.name == field.name) = some field := by
      have hnone : passed.find? (·.name == field.name) = none := by
        rw [List.find?_eq_none]
        intro other hother hsame
        exact hnew (beq_iff_eq.mp hsame ▸ List.mem_map_of_mem hother)
      rw [hfields, List.find?_append, hnone, Option.none_or, List.find?_cons_of_pos (by simp)]
    have hseen : (passed.map (·.name)).reverse.contains field.name = false := by
      rw [List.contains_reverse, Bool.eq_false_iff, ne_eq, List.contains_iff_mem]
      exact hnew
    have hrest := ih (passed ++ [field]) (by simp [hfields]) others hothers (given + 1)
    rw [List.map_append, List.map_singleton, List.reverse_append, List.reverse_singleton,
      List.singleton_append] at hrest
    simp only [List.map_cons, readEntries, readItems, Document.key, Except.ok_bind, hfind, hseen,
      Bool.false_eq_true, if_false, hrest]

/-- A record that is written with all its fields is read like the array of their values. -/
theorem record_ofFields (hnodup : (shape.fields.map (·.name)).Nodup)
    {values : List (String × Document)} (hvalues : values.map (·.1) = shape.fields.map (·.name))
    (record : ρ) :
    Document.record shape record (.ofFields values) =
      shape.readItems true 0 shape.fields (values.map (·.2)) record :=
  readEntries_eq_readItems hnodup [] shape.fields rfl values hvalues 0 record

end RecordShape

namespace Document

/-! ## Values -/

theorem natural_ofNat {n bound : Nat} (wanted : String) (h : n < bound) :
    natural wanted bound (ofNat n) = .ok n := by
  simp only [ofNat, natural]
  rw [if_pos ⟨Int.natCast_nonneg n, Int.ofNat_lt.mpr h⟩, Int.toNat_natCast]

theorem word64_ofNat (n : UInt64) : word64 (ofNat n.toNat) = .ok n := by
  rw [word64, natural_ofNat _ n.toNat_lt, Except.map_ok, UInt64.ofNat_toNat]

theorem word32_ofNat (n : UInt32) : word32 (ofNat n.toNat) = .ok n := by
  rw [word32, natural_ofNat _ n.toNat_lt, Except.map_ok, UInt32.ofNat_toNat]

theorem address_ofNat (a : Address) : address (ofNat a.toNat) = .ok a := by
  show (word64 (ofNat a.val.toNat)).map Address.mk = .ok a
  rw [word64_ofNat, Except.map_ok]

theorem string_ofString (wanted value : String) : string wanted (ofString value) = .ok value :=
  rfl

theorem bytes_ofString (bytes : Array UInt8) :
    Document.bytes (ofString (HexBytes.encode bytes.toList)) = .ok bytes := by
  rw [Document.bytes, string_ofString, Except.ok_bind, HexBytes.decode_encode, Except.ok_bind]
  rfl

theorem architecture_ofString (a : Architecture) : architecture (ofString a.name) = .ok a := by
  cases a <;> rfl

/-- Values of which each one is read back are read back in their order. -/
theorem mapM_map_eq_ok {α β : Type} {read : β → Decoded α} {write : α → β}
    (h : ∀ a, read (write a) = .ok a) (values : List α) :
    (values.map write).mapM read = .ok values := by
  induction values with
  | nil => rfl
  | cons a rest ih =>
    rw [List.map_cons, List.mapM_cons, h, ih]
    rfl

theorem sequence_ofList {α : Type} {item : Document → Decoded α} {write : α → Document}
    (h : ∀ a, item (write a) = .ok a) (values : List α) :
    sequence item (ofList write values) = .ok values := by
  simp only [ofList, sequence, mapM_map_eq_ok h, Except.ok_bind, if_true]

theorem mapping_ofFields {α : Type} {item : Document → Decoded α} {write : α → Document}
    (h : ∀ a, item (write a) = .ok a) (values : List (String × α)) :
    mapping item (ofFields (values.map fun (name, a) => (name, write a))) = .ok values := by
  simp only [ofFields, mapping, List.map_map]
  rw [mapM_map_eq_ok]
  · rfl
  · intro entry
    simp only [Function.comp_apply, key, h, Except.ok_bind, Except.pure_eq]

/-! ## Records of a snapshot -/

theorem segment_ofSegment (s : Segment) : segment (ofSegment s) = .ok s := by
  rw [segment, ofSegment, RecordShape.record_ofFields (by decide) rfl]
  simp only [List.map_cons, List.map_nil, RecordShape.readItems, RecordField.of, address_ofNat,
    bytes_ofString, Except.map_ok, Except.ok_bind]
  rfl

theorem symbol_ofSymbol (s : Symbol) : symbol (ofSymbol s) = .ok s := by
  rw [symbol, ofSymbol, RecordShape.record_ofFields (by decide) rfl]
  simp only [List.map_cons, List.map_nil, RecordShape.readItems, RecordField.of, string_ofString,
    address_ofNat, word64_ofNat, Except.map_ok, Except.ok_bind]
  rfl

theorem listing_ofListing (l : SymbolListing) : listing (ofListing l) = .ok l := by
  rw [listing, ofListing, RecordShape.record_ofFields (by decide) rfl]
  simp only [List.map_cons, List.map_nil, RecordShape.readItems, RecordField.of, string_ofString,
    sequence_ofList symbol_ofSymbol, Except.map_ok, Except.ok_bind]
  rfl

theorem image_ofImage (i : BinaryImage) : image (ofImage i) = .ok i := by
  rw [image, ofImage, RecordShape.record_ofFields (by decide) rfl]
  simp only [List.map_cons, List.map_nil, RecordShape.readItems, RecordField.of, string_ofString,
    address_ofNat, Except.map_ok, Except.ok_bind]
  rfl

theorem metadata_ofMetadata (m : MethodMetadata) : metadata (ofMetadata m) = .ok m := by
  rw [metadata, ofMetadata, RecordShape.record_ofFields (by decide) rfl]
  simp only [List.map_cons, List.map_nil, RecordShape.readItems, RecordField.of, address_ofNat,
    word32_ofNat, Except.map_ok, Except.ok_bind]
  rfl

theorem instruction_ofInstruction (i : Instruction) : instruction (ofInstruction i) = .ok i := by
  rw [instruction, ofInstruction, RecordShape.record_ofFields (by decide) rfl]
  simp only [List.map_cons, List.map_nil, RecordShape.readItems, RecordField.of, address_ofNat,
    word32_ofNat, Except.map_ok, Except.ok_bind]
  rfl

theorem event_ofEvent (e : CompileEvent) : event (ofEvent e) = .ok e := by
  rw [event, ofEvent, RecordShape.record_ofFields (by decide) rfl]
  simp only [List.map_cons, List.map_nil, RecordShape.readItems, RecordField.of,
    metadata_ofMetadata, sequence_ofList instruction_ofInstruction, Except.map_ok, Except.ok_bind]
  rfl

end Document

/-- What the document of a snapshot says. Registers that it does not mention have no value in it. -/
def Snapshot.toFile (snapshot : Snapshot) : SnapshotFile where
  architecture := snapshot.architecture
  registers := sortByName snapshot.namedRegisters
  segments := snapshot.memory.segments
  listings := snapshot.listings
  images := snapshot.images
  events := snapshot.events

namespace Document

/-- **The document of a snapshot** says what the snapshot has. -/
theorem snapshotFile_toDocument (snapshot : Snapshot) :
    snapshotFile snapshot.toDocument = .ok snapshot.toFile := by
  rw [snapshotFile, Snapshot.toDocument, RecordShape.record_ofFields (by decide) rfl]
  simp only [List.map_cons, List.map_nil, RecordShape.readItems, RecordField.of,
    architecture_ofString, mapping_ofFields word64_ofNat, sequence_ofList segment_ofSegment,
    sequence_ofList listing_ofListing, sequence_ofList image_ofImage,
    sequence_ofList event_ofEvent, Except.map_ok, Except.ok_bind]
  rfl

/-! ## Plain documents -/

variable {depth : Nat}

@[simp] theorem plain_word64 (n : UInt64) : Plain depth (ofNat n.toNat) :=
  .number depth n.toNat_lt

@[simp] theorem plain_word32 (n : UInt32) : Plain depth (ofNat n.toNat) :=
  .number depth (Nat.lt_trans n.toNat_lt (by decide))

@[simp] theorem plain_address (a : Address) : Plain depth (ofNat a.toNat) :=
  plain_word64 a.val

@[simp] theorem plain_ofString (value : String) : Plain depth (ofString value) :=
  .text depth value

theorem plain_ofList {α : Type} {write : α → Document} (h : ∀ a, Plain depth (write a))
    (values : List α) : Plain (depth + 1) (ofList write values) :=
  .array (List.forall_mem_map.mpr fun a _ => h a)

theorem plain_ofFields {fields : List (String × Document)}
    (h : ∀ field ∈ fields, Plain depth field.2) : Plain (depth + 1) (ofFields fields) :=
  .object (List.forall_mem_map.mpr fun _ _ => rfl) (List.forall_mem_map.mpr h)

/-- Values under names, none of which is missing. -/
theorem plain_ofFields_map {α : Type} {write : α → Document} (h : ∀ a, Plain depth (write a))
    (values : List (String × α)) :
    Plain (depth + 1) (ofFields (values.map fun (name, a) => (name, write a))) :=
  plain_ofFields (List.forall_mem_map.mpr fun entry _ => h entry.2)

theorem plain_ofSegment (s : Segment) : Plain (depth + 1) (ofSegment s) :=
  plain_ofFields (by simp)

theorem plain_ofSymbol (s : Symbol) : Plain (depth + 1) (ofSymbol s) :=
  plain_ofFields (by simp)

theorem plain_ofListing (l : SymbolListing) : Plain (depth + 3) (ofListing l) :=
  plain_ofFields (by simp [plain_ofList plain_ofSymbol])

theorem plain_ofImage (i : BinaryImage) : Plain (depth + 1) (ofImage i) :=
  plain_ofFields (by simp)

theorem plain_ofMetadata (m : MethodMetadata) : Plain (depth + 1) (ofMetadata m) :=
  plain_ofFields (by simp)

theorem plain_ofInstruction (i : Instruction) : Plain (depth + 1) (ofInstruction i) :=
  plain_ofFields (by simp)

theorem plain_ofEvent (e : CompileEvent) : Plain (depth + 3) (ofEvent e) :=
  plain_ofFields (by simp [plain_ofMetadata, plain_ofList plain_ofInstruction])

/-- Nothing is missing of the document of a snapshot. -/
theorem plain_toDocument (snapshot : Snapshot) : Plain (depth + 5) snapshot.toDocument := by
  have hregisters := @plain_ofFields_map (depth + 3) UInt64 (fun value => ofNat value.toNat)
    plain_word64 snapshot.namedRegisters
  exact plain_ofFields (by simp [hregisters, plain_ofList plain_ofSegment,
    plain_ofList plain_ofListing, plain_ofList plain_ofImage, plain_ofList plain_ofEvent])

end Document

/-- **The text of a snapshot** can be written in every lawful format, and says what the snapshot has.
-/
theorem Snapshot.exists_write_toDocument (snapshot : Snapshot) {format : DocumentFormat}
    (hformat : format.Lawful) :
    ∃ text, format.write snapshot.toDocument = .ok text ∧
      format.decode Document.snapshotFile text = .ok snapshot.toFile := by
  obtain ⟨text, hwrite, hread⟩ :=
    hformat.read_write snapshot.toDocument (Document.plain_toDocument snapshot)
  refine ⟨text, hwrite, ?_⟩
  rw [DocumentFormat.decode, hread]
  dsimp only
  rw [Document.snapshotFile_toDocument]
  rfl

end CompiledFrames
