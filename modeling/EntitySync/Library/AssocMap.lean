import Mathlib.Data.List.AList

/-!
# Finite maps with an iteration order

An association list without repeated keys is a finite map together with one order in which its
entries can be visited. Mathlib's `AList` provides lookup and insertion; this module adds the
operations that rewrite or drop entries in place.
-/

/-- A finite map and the order in which its entries are visited. -/
abbrev AssocMap (κ ν : Type*) := AList fun _ : κ => ν

namespace AssocMap

variable {κ ν μ : Type*}

/-! Statements about the result of a lookup are decided on that result, also where the values are
of a finite type that could be enumerated. -/

instance (priority := 1100) decidableForallLookup {p : ν → Prop} [DecidablePred p]
    (found : Option ν) : Decidable (∀ v ∈ found, p v) :=
  found.decidableForallMem

instance (priority := 1100) decidableExistsLookup {p : ν → Prop} [DecidablePred p]
    (found : Option ν) : Decidable (∃ v ∈ found, p v) :=
  found.decidableExistsMem

def values (m : AssocMap κ ν) : List ν := m.entries.map Sigma.snd

def mapVals (f : κ → ν → μ) (m : AssocMap κ ν) : AssocMap κ μ where
  entries := m.entries.map (.map id f)
  nodupKeys := m.nodupKeys.map₂ f m.entries

def retain (p : κ → ν → Bool) (m : AssocMap κ ν) : AssocMap κ ν where
  entries := m.entries.filter fun e => p e.1 e.2
  nodupKeys := List.NodupKeys.sublist List.filter_sublist m.nodupKeys

theorem mem_retain {p : κ → ν → Bool} {m : AssocMap κ ν} {e : (_ : κ) × ν} :
    e ∈ (retain p m).entries ↔ e ∈ m.entries ∧ p e.1 e.2 := by
  simp [retain, List.mem_filter]

/-- Every value comes first in some iteration order. -/
theorem exists_perm_first {m : AssocMap κ ν} {v : ν} (h : v ∈ values m) :
    ∃ order : AssocMap κ ν, order.entries.Perm m.entries ∧ ∃ rest, values order = v :: rest := by
  obtain ⟨e, he, rfl⟩ := List.mem_map.mp h
  obtain ⟨before, after, hsplit⟩ := List.append_of_mem he
  have hperm : (e :: (before ++ after)).Perm m.entries := by
    rw [hsplit]
    exact List.perm_middle.symm
  exact ⟨⟨e :: (before ++ after), (List.perm_nodupKeys hperm).mpr m.nodupKeys⟩, hperm, _, rfl⟩

section
variable [DecidableEq κ]

theorem mem_values_of_lookup {m : AssocMap κ ν} {k : κ} {v : ν} (h : m.lookup k = some v) :
    v ∈ values m :=
  List.mem_map.mpr ⟨⟨k, v⟩, AList.mem_lookup_iff.mp h, rfl⟩

theorem mem_values {m : AssocMap κ ν} {v : ν} : v ∈ values m ↔ ∃ k, m.lookup k = some v := by
  constructor
  · intro h
    obtain ⟨⟨k, w⟩, hk, rfl⟩ := List.mem_map.mp h
    exact ⟨k, AList.mem_lookup_iff.mpr hk⟩
  · rintro ⟨k, h⟩
    exact mem_values_of_lookup h

@[simp] theorem lookup_mapVals (f : κ → ν → μ) (m : AssocMap κ ν) (k : κ) :
    (mapVals f m).lookup k = (m.lookup k).map (f k) :=
  List.dlookup_map₂ k

theorem lookup_retain (p : κ → ν → Bool) (m : AssocMap κ ν) (k : κ) :
    (retain p m).lookup k = (m.lookup k).filter (p k) := by
  apply Option.ext
  intro v
  have hkept : v ∈ (retain p m).lookup k ↔ v ∈ m.lookup k ∧ p k v = true := by
    rw [AList.mem_lookup_iff, mem_retain, AList.mem_lookup_iff]
  rw [← Option.mem_def, hkept, Option.filter_eq_some_iff, Option.mem_def]

theorem length_le_insert (m : AssocMap κ ν) (k : κ) (v : ν) :
    m.entries.length ≤ (m.insert k v).entries.length := by
  rw [AList.entries_insert, List.length_cons, List.kerase, List.length_eraseP]
  split <;> omega

/-- The map of entries that arrive one by one: a later entry of a key replaces an earlier one. -/
def ofEntries (es : List (κ × ν)) : AssocMap κ ν :=
  es.foldr (fun e m => if e.1 ∈ m then m else m.insert e.1 e.2) ∅

theorem ofEntries_cons (e : κ × ν) (es : List (κ × ν)) :
    ofEntries (e :: es) =
      if e.1 ∈ ofEntries es then ofEntries es else (ofEntries es).insert e.1 e.2 :=
  rfl

theorem ofEntries_entries (m : AssocMap κ ν) :
    ofEntries (m.entries.map fun e => (e.1, e.2)) = m := by
  obtain ⟨entries, hnodup⟩ := m
  induction entries with
  | nil => rfl
  | cons e entries ih =>
    obtain ⟨hfresh, hrest⟩ := List.nodupKeys_cons.mp hnodup
    have hnotMem : e.1 ∉ (⟨entries, hrest⟩ : AssocMap κ ν) := hfresh
    rw [List.map_cons, ofEntries_cons, ih hrest, if_neg hnotMem]
    apply AList.ext
    exact AList.entries_insert_of_notMem hnotMem

theorem ofEntries_cases (es : List (κ × ν)) :
    (ofEntries es).entries.length ≤ es.length ∧ ∀ e ∈ (ofEntries es).entries, (e.1, e.2) ∈ es := by
  induction es with
  | nil => exact ⟨Nat.le_refl _, by simp [ofEntries]⟩
  | cons first es ih =>
    rw [ofEntries_cons]
    split
    · refine ⟨Nat.le_trans ih.1 (by simp), ?_⟩
      intro e he
      exact List.mem_cons_of_mem _ (ih.2 e he)
    next hfresh =>
      rw [AList.entries_insert_of_notMem hfresh]
      refine ⟨by simpa using ih.1, ?_⟩
      intro e he
      rcases List.mem_cons.mp he with rfl | he
      · exact List.mem_cons_self
      · exact List.mem_cons_of_mem _ (ih.2 e he)

/-- Maps that agree on every key have the same entries up to the iteration order. -/
theorem entries_perm_of_lookup {m n : AssocMap κ ν} (h : ∀ k, m.lookup k = n.lookup k) :
    m.entries.Perm n.entries := by
  refine List.lookup_ext m.nodupKeys n.nodupKeys ?_
  intro k v
  change v ∈ m.lookup k ↔ v ∈ n.lookup k
  rw [h k]

end

end AssocMap
