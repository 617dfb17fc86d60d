import EntitySync.Library.Checks
import EntitySync.Library.MsgPackBytes

/-!
# What the readers of MessagePack values accept

The values that a reader finds inside a value were part of the same input, so their heads are
bounded like the heads of any value that was read from bytes, and each of them is read one level
further down. Hence what a struct or a sequence is made of can be written again.
-/

namespace MsgPack

variable {layout : FloatLayout}

/-- The value was read from bytes. -/
def Value.Bounded (layout : FloatLayout) (v : Value) : Prop := v.Heads (Head.Bounded layout)

theorem parse_bounded {input rest : List UInt8} {v : Value}
    (h : parse layout input = some (v, rest)) : v.Bounded layout :=
  yields_readValue _ _ _ _ h

theorem bounded_of_mem_items {items : List Value} (h : (Value.array items).Bounded layout) :
    items.length < 256 ^ 4 ∧ ∀ v ∈ items, v.Bounded layout := by
  rw [Value.Bounded, Value.Heads, headsItems_iff] at h
  exact h

theorem bounded_of_mem_entries {entries : List (Value × Value)}
    (h : (Value.map entries).Bounded layout) :
    entries.length < 256 ^ 4 ∧ ∀ e ∈ entries, e.1.Bounded layout ∧ e.2.Bounded layout := by
  rw [Value.Bounded, Value.Heads, headsEntries_iff] at h
  exact h

theorem enter_eq_ok {depth inner : Nat} (h : enter depth = .ok inner) :
    depth = inner + 1 ∧ 0 < inner := by
  match depth, h with
  | depth + 2, h =>
    cases h
    omega

/-! ## Structs -/

theorem mem_of_collect {names : List String} {depth : Nat} {entries : List (Value × Value)}
    {found fields : List (String × Value)} (h : collect names depth entries found = .ok fields)
    {field : String × Value} (hfield : field ∈ fields) :
    field ∈ found ∨ field.2 ∈ entries.map Prod.snd := by
  induction entries generalizing found with
  | nil =>
    cases h
    exact Or.inl hfield
  | cons e entries ih =>
    obtain ⟨key, v⟩ := e
    rw [collect, Checks.bind_eq_ok] at h
    obtain ⟨known, _, h⟩ := h
    cases known with
    | none =>
      obtain ⟨_, _, h⟩ := Checks.bind_eq_ok.mp h
      exact (ih h).imp_right (List.mem_cons_of_mem v)
    | some name =>
      dsimp only at h
      split at h
      · cases h
      · rcases ih h with hmem | hmem
        · rcases List.mem_append.mp hmem with hfound | hnew
          · exact Or.inl hfound
          · rw [List.mem_singleton.mp hnew]
            exact Or.inr List.mem_cons_self
        · exact Or.inr (List.mem_cons_of_mem v hmem)

theorem readFields_eq_ok {names : List String} {depth : Nat} {v : Value} {fields : Fields}
    (h : readFields names depth v = .ok fields) (hv : v.Bounded layout) :
    depth = fields.depth + 1 ∧ 0 < fields.depth ∧
      ∀ field ∈ fields.found, field.2.Bounded layout := by
  unfold readFields at h
  split at h
  next entries =>
    obtain ⟨inner, hinner, h⟩ := Checks.bind_eq_ok.mp h
    obtain ⟨found, hfound, h⟩ := Checks.bind_eq_ok.mp h
    cases h
    refine ⟨(enter_eq_ok hinner).1, (enter_eq_ok hinner).2, ?_⟩
    intro field hfield
    rcases mem_of_collect hfound hfield with hmem | hmem
    · cases hmem
    · obtain ⟨e, he, heq⟩ := List.mem_map.mp hmem
      exact heq ▸ ((bounded_of_mem_entries hv).2 e he).2
  next items =>
    obtain ⟨inner, hinner, h⟩ := Checks.bind_eq_ok.mp h
    split at h
    · cases h
      refine ⟨(enter_eq_ok hinner).1, (enter_eq_ok hinner).2, ?_⟩
      intro field hfield
      exact (bounded_of_mem_items hv).2 _ (List.of_mem_zip hfield).2
    · cases h
  next => cases h

theorem readVariant_content {names : List String} {name : String} {v content : Value}
    (h : readVariant names v = .ok (name, some content)) (hv : v.Bounded layout) :
    content.Bounded layout := by
  unfold readVariant at h
  split at h
  next key inner =>
    obtain ⟨known, _, h⟩ := Checks.bind_eq_ok.mp h
    cases known with
    | none => cases h
    | some found =>
      cases h
      exact ((bounded_of_mem_entries hv).2 (key, content) (by simp)).2
  · cases h
  · obtain ⟨known, _, h⟩ := Checks.bind_eq_ok.mp h
    cases known <;> cases h

section
variable {α : Type}

theorem required_eq_ok {fields : Fields} {name : String}
    {read : Nat → Value → Except DecodeError α} {x : α}
    (h : fields.required name read = .ok x)
    (hfields : ∀ field ∈ fields.found, field.2.Bounded layout) :
    ∃ v : Value, v.Bounded layout ∧ read fields.depth v = .ok x := by
  unfold Fields.required at h
  split at h
  · cases h
  next v hv =>
    obtain ⟨before, after, hfound, _⟩ := List.lookup_eq_some_iff.mp hv
    exact ⟨v, hfields (name, v) (by simp [hfound]), h⟩

/-! ## Sequences -/

/-- The items of an accepted sequence are one level below it, or they are bytes. -/
theorem readSeq_eq_ok {read : Nat → Value → Except DecodeError α} {depth : Nat} {v : Value}
    {xs : List α} (h : readSeq read depth v = .ok xs) (hv : v.Bounded layout) :
    xs.length < 256 ^ 4 ∧ ∀ x ∈ xs,
      (∃ inner item, depth = inner + 1 ∧ 0 < inner ∧ item.Bounded layout ∧
        read inner item = .ok x) ∨
      ∃ n < 256, read depth (.uint n) = .ok x := by
  unfold readSeq at h
  split at h
  next items =>
    obtain ⟨inner, hinner, h⟩ := Checks.bind_eq_ok.mp h
    have hitems := Checks.forall₂_of_mapM_eq_ok h
    refine ⟨hitems.length_eq ▸ (bounded_of_mem_items hv).1, ?_⟩
    intro x hx
    obtain ⟨item, hitem, hread⟩ := (Checks.mem_of_mapM_eq_ok h).1 x hx
    exact Or.inl ⟨inner, item, (enter_eq_ok hinner).1, (enter_eq_ok hinner).2,
      (bounded_of_mem_items hv).2 item hitem, hread⟩
  next raw =>
    have hitems := Checks.forall₂_of_mapM_eq_ok h
    refine ⟨?_, ?_⟩
    · rw [← hitems.length_eq, List.length_map]
      exact hv
    · intro x hx
      obtain ⟨item, hitem, hread⟩ := (Checks.mem_of_mapM_eq_ok h).1 x hx
      obtain ⟨b, _, rfl⟩ := List.mem_map.mp hitem
      exact Or.inr ⟨b.toNat, b.toNat_lt, hread⟩
  next => cases h

end

/-! ## Texts -/

theorem readString_eq_ok {v : Value} {s : String} (h : readString v = .ok s)
    (hv : v.Bounded layout) : (Value.str s).Fits layout := by
  unfold readString at h
  split at h
  · cases h
    exact hv
  next raw =>
    split at h
    next found hfound =>
      cases h
      rw [Value.Fits, Value.Heads, utf8_of_fromUTF8? hfound]
      exact hv
    · cases h
  · cases h

/-! ## Writing -/

theorem fits_str {s : String} (h : s.utf8ByteSize < 256 ^ 4) : (Value.str s).Fits layout := h

theorem fits_uint {n : Nat} (h : n < 256 ^ 8) : (Value.uint n).Fits layout := h

theorem fits_array {items : List Value} (hlength : items.length < 256 ^ 4)
    (h : ∀ v ∈ items, v.Fits layout) : (Value.array items).Fits layout := by
  rw [Value.Fits, Value.Heads, headsItems_iff]
  exact ⟨hlength, h⟩

theorem fits_map {entries : List (Value × Value)} (hlength : entries.length < 256 ^ 4)
    (h : ∀ e ∈ entries, e.1.Fits layout ∧ e.2.Fits layout) : (Value.map entries).Fits layout := by
  rw [Value.Fits, Value.Heads, headsEntries_iff]
  exact ⟨hlength, h⟩

theorem fits_writeVariant {name : String} {content : Value} (hname : (Value.str name).Fits layout)
    (hcontent : content.Fits layout) : (writeVariant name content).Fits layout := by
  refine fits_map (by simp) ?_
  intro e he
  rw [List.mem_singleton.mp he]
  exact ⟨hname, hcontent⟩

theorem fits_writeStruct {fields : List (String × Value)} (hlength : fields.length < 256 ^ 4)
    (h : ∀ field ∈ fields, (Value.str field.1).Fits layout ∧ field.2.Fits layout) :
    (writeStruct fields).Fits layout := by
  refine fits_map (by rwa [List.length_map]) ?_
  intro e he
  obtain ⟨field, hfield, rfl⟩ := List.mem_map.mp he
  exact h field hfield

end MsgPack
