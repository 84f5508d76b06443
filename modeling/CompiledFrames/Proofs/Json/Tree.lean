import CompiledFrames.Proofs.Json.Layout

/-!
# Documents are read back from JSON

A document of which nothing is missing is read again from its JSON text. Its tokens have a mark
between any two values, so they are read back from their layout; and reading goes on behind each
value with what is open around it, so the tree is put together again from the inside.

## Main definitions

* `Document.ReadsBack`: a document is read from its tokens, whatever is around it

## Main results

* `Document.Plain.legible`: the tokens of a plain document can be read back
* `Document.Plain.readsBack`: a plain document is read from its tokens
* `DocumentFormat.lawful_json`: the format of JSON texts is lawful
-/

namespace CompiledFrames

/-! ## Tokens -/

namespace JsonToken

variable {mark : JsonToken} {before behind : List JsonToken}

theorem IsMark.isWritten (h : mark.IsMark) : mark.IsWritten := by
  cases mark with
  | beginArray | endArray | beginObject | endObject | comma | colon => trivial
  | null | bool _ | number _ | text _ | broken => exact absurd h id

theorem IsWritten.isBroken_eq (h : mark.IsWritten) : mark.isBroken = false := by
  cases mark with
  | text value =>
    obtain ⟨value, rfl⟩ := Option.isSome_iff_exists.mp h
    rfl
  | broken => exact absurd h id
  | _ => rfl

theorem legible_nil : Legible [] :=
  ⟨nofun, List.isChain_nil⟩

theorem legible_singleton (h : mark.IsWritten) : Legible [mark] :=
  ⟨List.forall_mem_singleton.mpr h, List.isChain_singleton mark⟩

/-- A mark may stand between any two parts. -/
theorem Legible.append_mark (h : Legible before) (mark : JsonToken) (hmark : mark.IsMark)
    (h' : Legible behind) : Legible (before ++ mark :: behind) := by
  refine ⟨?_, List.isChain_append.mpr ⟨h.apart, List.isChain_cons.mpr ⟨?_, h'.apart⟩, ?_⟩⟩
  · intro token htoken
    rcases List.mem_append.mp htoken with hbefore | hbehind
    · exact h.written token hbefore
    · rcases List.mem_cons.mp hbehind with rfl | hbehind
      · exact hmark.isWritten
      · exact h'.written token hbehind
  · intro token _
    exact .inl hmark
  · rintro token - _ ⟨⟩
    exact .inr hmark

end JsonToken

namespace Document

open JsonToken

variable {doc : Document} {depth : Nat} {items : List Document}
  {entries : List (Option String × Document)} {rest : List JsonToken} {outer : List Open}

theorem legible_itemTokens (h : ∀ item ∈ items, Legible item.tokens) :
    Legible (itemTokens items) := by
  induction items with
  | nil => exact legible_nil
  | cons item items ih =>
    obtain ⟨hitem, hitems⟩ := List.forall_mem_cons.mp h
    cases items with
    | nil => exact hitem
    | cons next more => exact hitem.append_mark .comma trivial (ih hitems)

theorem legible_entryTokens (hkeys : ∀ entry ∈ entries, entry.1.isSome)
    (h : ∀ entry ∈ entries, Legible entry.2.tokens) : Legible (entryTokens entries) := by
  induction entries with
  | nil => exact legible_nil
  | cons entry entries ih =>
    obtain ⟨key, value⟩ := entry
    obtain ⟨hkey, hkeys⟩ := List.forall_mem_cons.mp hkeys
    obtain ⟨hvalue, hentries⟩ := List.forall_mem_cons.mp h
    have hname : Legible [.text key] := legible_singleton (show key.isSome from hkey)
    have hentry := hname.append_mark .colon trivial hvalue
    cases entries with
    | nil => exact hentry
    | cons next more => exact hentry.append_mark .comma trivial (ih hkeys hentries)

/-- **The tokens of a plain document** can be read back. -/
theorem Plain.legible (h : doc.Plain depth) : Legible doc.tokens := by
  induction h with
  | null => exact legible_singleton trivial
  | bool _ value => exact legible_singleton trivial
  | @number _ n _ => exact legible_singleton ⟨n, rfl⟩
  | text _ value => exact legible_singleton rfl
  | array _ ih =>
    have hopen := legible_nil.append_mark .beginArray trivial (legible_itemTokens ih)
    exact hopen.append_mark .endArray trivial legible_nil
  | object hkeys _ ih =>
    have hopen := legible_nil.append_mark .beginObject trivial (legible_entryTokens hkeys ih)
    exact hopen.append_mark .endObject trivial legible_nil

/-! ## Trees -/

/-- The document is read from its tokens, and reading goes on behind it. -/
def ReadsBack (doc : Document) : Prop :=
  ∀ rest outer, readValue (doc.tokens ++ rest) outer = readBehind rest doc outer

/-- The items of an array begin with a token that does not end the array. -/
theorem Plain.exists_itemTokens (h : doc.Plain depth) (items : List Document) :
    ∃ first more, itemTokens (doc :: items) = first :: more ∧ first ≠ .endArray := by
  have hfirst : ∃ first more, doc.tokens = first :: more ∧ first ≠ .endArray := by
    cases h <;> exact ⟨_, _, rfl, nofun⟩
  obtain ⟨first, more, hdoc, hne⟩ := hfirst
  cases items with
  | nil => exact ⟨first, more, by rw [itemTokens, hdoc], hne⟩
  | cons next others =>
    refine ⟨first, more ++ .comma :: itemTokens (next :: others), ?_, hne⟩
    rw [itemTokens, hdoc, List.cons_append]
    nofun

/-- The items of an array are read up to its end. -/
theorem readValue_items {item : Document} (hitem : item.ReadsBack)
    (hitems : ∀ item ∈ items, item.ReadsBack) (seen : List Document) (rest : List JsonToken)
    (outer : List Open) :
    readValue (itemTokens (item :: items) ++ .endArray :: rest) (.array seen :: outer) =
      readBehind rest (.array (seen.reverse ++ item :: items) true) outer := by
  -- items that have been seen are kept from the last one to the first
  induction items generalizing item seen with
  | nil =>
    rw [itemTokens, hitem, readBehind, List.reverse_cons]
  | cons next more ih =>
    obtain ⟨hnext, hmore⟩ := List.forall_mem_cons.mp hitems
    have hread := ih hnext hmore (item :: seen)
    rw [itemTokens, List.append_assoc, List.cons_append, hitem, readBehind, hread,
      List.reverse_cons, List.append_assoc, List.singleton_append]
    nofun

/-- What comes behind an entry: a comma and the other entries, if there are any. -/
def tokensBehind : List (Option String × Document) → List JsonToken
  | [] => []
  | entries => .comma :: entryTokens entries

theorem entryTokens_cons (key : Option String) (value : Document)
    (entries : List (Option String × Document)) :
    entryTokens ((key, value) :: entries) =
      .text key :: .colon :: (value.tokens ++ tokensBehind entries) := by
  cases entries with
  | nil => simp only [entryTokens, tokensBehind, List.append_nil]
  | cons next more => simp only [entryTokens, tokensBehind, List.cons_append]

/-- The entries of an object are read up to its end, from the value of one of them on. -/
theorem readValue_entries (key : Option String) {value : Document} (hvalue : value.ReadsBack)
    (hentries : ∀ entry ∈ entries, entry.2.ReadsBack) (seen : List (Option String × Document))
    (rest : List JsonToken) (outer : List Open) :
    readValue (value.tokens ++ (tokensBehind entries ++ .endObject :: rest))
        (.object seen key :: outer) =
      readBehind rest (.object (seen.reverse ++ (key, value) :: entries) true) outer := by
  induction entries generalizing key value seen with
  | nil =>
    rw [hvalue, tokensBehind, List.nil_append, readBehind, List.reverse_cons]
  | cons next more ih =>
    obtain ⟨hnext, hmore⟩ := List.forall_mem_cons.mp hentries
    have hread := ih next.1 hnext hmore ((key, value) :: seen)
    rw [hvalue, tokensBehind, entryTokens_cons, List.cons_append, List.cons_append, List.cons_append,
      readBehind, List.append_assoc, hread, List.reverse_cons, List.append_assoc,
      List.singleton_append]
    nofun

/-- **A plain document is read from its tokens.** -/
theorem Plain.readsBack (h : doc.Plain depth) : doc.ReadsBack := by
  induction h with
  | null | bool | text =>
    intro rest outer
    rfl
  | @number _ n hn =>
    intro rest outer
    have htokens : (Document.number (.whole n)).tokens ++ rest = .number (.ofNat n) :: rest := rfl
    rw [htokens, readValue, NumberLiteral.value_ofNat hn]
  | @array _ items hitems ih =>
    intro rest outer
    cases items with
    | nil => rfl
    | cons item items =>
      obtain ⟨hitem, hitems'⟩ := List.forall_mem_cons.mp ih
      obtain ⟨first, more, hfirst, hne⟩ :=
        (hitems item List.mem_cons_self).exists_itemTokens items
      have hread := readValue_items hitem hitems' [] rest outer
      have htokens : (Document.array (item :: items) true).tokens ++ rest =
          .beginArray :: (itemTokens (item :: items) ++ .endArray :: rest) := by
        simp [tokens]
      -- the first token tells an item from the end of an empty array
      rw [hfirst, List.cons_append] at hread htokens
      rw [htokens, readValue, hread, List.reverse_nil, List.nil_append]
      intro _ hend
      exact absurd (List.cons.inj hend).1 hne
  | @object _ entries hkeys _ ih =>
    intro rest outer
    cases entries with
    | nil => rfl
    | cons entry entries =>
      obtain ⟨hvalue, hentries⟩ := List.forall_mem_cons.mp ih
      have hread := readValue_entries entry.1 hvalue hentries [] rest outer
      have htokens : (Document.object (entry :: entries) true).tokens ++ rest =
          .beginObject :: .text entry.1 :: .colon ::
            (entry.2.tokens ++ (tokensBehind entries ++ .endObject :: rest)) := by
        simp [tokens, entryTokens_cons entry.1 entry.2]
      rw [htokens, readValue, hread, List.reverse_nil, List.nil_append]

/-- Reading the tokens of a plain document leaves nothing over. -/
theorem Plain.ofTokens_tokens (h : doc.Plain depth) : ofTokens doc.tokens = (doc, []) := by
  have hread := h.readsBack [] []
  rw [List.append_nil] at hread
  rw [ofTokens, hread, readBehind]

end Document

/-! ## The format -/

namespace DocumentFormat

theorem read_json_layout {document : Document} {depth : Nat} (h : document.Plain depth) :
    json.read document.layout = (document, true) := by
  simp only [json, Document.layout, String.toList_ofList, JsonToken.scan_layout 0 h.legible,
    h.ofTokens_tokens, List.isEmpty_nil]

/-- Nothing of a plain document is broken. -/
theorem write_json {document : Document} {depth : Nat} (h : document.Plain depth) :
    json.write document = .ok document.layout := by
  have hwhole : document.tokens.any JsonToken.isBroken = false := by
    rw [List.any_eq_false]
    exact fun token htoken => by simp [(h.legible.written token htoken).isBroken_eq]
  simp only [json, hwhole, Bool.false_eq_true, if_false]

/-- **JSON is read back.** -/
theorem lawful_json : json.Lawful where
  read_write document h := ⟨document.layout, write_json h, read_json_layout h⟩

end DocumentFormat

end CompiledFrames
