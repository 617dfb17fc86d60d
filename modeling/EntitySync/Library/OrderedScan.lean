import Mathlib.Data.List.Basic
import Mathlib.Data.List.Nodup
import Mathlib.Data.List.Perm.Basic
import Mathlib.Data.List.AList

/-!
# Range scans of an ordered map

`range t lo hi` lists the entries of `t` from `lo` (included) to `hi` (excluded) in key order. A
list of entries in strictly increasing key order is determined by its members, so a scan is
specified by saying which entries it holds.
-/

namespace OrderedScan

open Std

variable {κ ν : Type*} [Ord κ]

def Ordered (es : List (κ × ν)) : Prop := es.Pairwise fun a b => compare a.1 b.1 = .lt

def range (t : TreeMap κ ν) (lo hi : κ) : List (κ × ν) :=
  t.toList.filter fun e => (compare lo e.1).isLE && compare e.1 hi == .lt

theorem Ordered.append_singleton {es : List (κ × ν)} {e : κ × ν} (h : Ordered es)
    (hlast : ∀ a ∈ es, compare a.1 e.1 = .lt) : Ordered (es ++ [e]) := by
  refine List.pairwise_append.mpr ⟨h, List.pairwise_singleton _ _, ?_⟩
  intro a ha b hb
  obtain rfl := List.mem_singleton.mp hb
  exact hlast a ha

theorem Ordered.map {κ' ν' : Type*} [Ord κ'] {f : κ × ν → κ' × ν'} {es : List (κ × ν)}
    (h : Ordered es)
    (hf : ∀ a ∈ es, ∀ b ∈ es, compare a.1 b.1 = .lt → compare (f a).1 (f b).1 = .lt) :
    Ordered (es.map f) := by
  rw [Ordered, List.pairwise_map]
  exact h.imp_of_mem fun {a b} ha hb hlt => hf a ha b hb hlt

/-- The first `n` entries hold every entry that is not above one of them. -/
theorem Ordered.mem_take {es : List (κ × ν)} (h : Ordered es) {n : Nat} {e last : κ × ν}
    (he : e ∈ es) (hlast : last ∈ es.take n) (hle : compare last.1 e.1 ≠ .lt) : e ∈ es.take n := by
  rw [← List.take_append_drop n es] at h he
  cases List.mem_append.mp he with
  | inl htake => exact htake
  | inr hdrop => exact absurd ((List.pairwise_append.mp h).2.2 last hlast e hdrop) hle

/-- Insert an entry at its place in key order, or replace the value of its key. -/
def insertEntry (k : κ) (v : ν) : List (κ × ν) → List (κ × ν)
  | [] => [(k, v)]
  | (l, w) :: rest =>
    match compare k l with
    | .lt => (k, v) :: (l, w) :: rest
    | .eq => (l, v) :: rest
    | .gt => (l, w) :: insertEntry k v rest

theorem length_insertEntry_le (es : List (κ × ν)) (k : κ) (v : ν) :
    (insertEntry k v es).length ≤ es.length + 1 := by
  induction es with
  | nil => exact Nat.le_refl _
  | cons entry rest ih =>
    rw [insertEntry]
    split
    all_goals
      simp only [List.length_cons]
      omega

section
variable [OrientedOrd κ]

theorem insertEntry_last {es : List (κ × ν)} {k : κ} {v : ν}
    (h : ∀ e ∈ es, compare e.1 k = .lt) : insertEntry k v es = es ++ [(k, v)] := by
  induction es with
  | nil => rfl
  | cons e es ih =>
    have hgt : compare k e.1 = .gt := by
      rw [OrientedOrd.eq_swap, h e List.mem_cons_self]
      rfl
    rw [insertEntry, hgt]
    simp [ih fun a ha => h a (List.mem_cons_of_mem _ ha)]

/-- Entries that arrive in key order are kept in the order they arrive. -/
theorem foldl_insertEntry {acc es : List (κ × ν)} (h : Ordered (acc ++ es)) :
    es.foldl (fun m e => insertEntry e.1 e.2 m) acc = acc ++ es := by
  induction es generalizing acc with
  | nil => simp
  | cons e es ih =>
    have hlast : ∀ a ∈ acc, compare a.1 e.1 = .lt := by
      intro a ha
      exact (List.pairwise_append.mp h).2.2 a ha e List.mem_cons_self
    rw [List.foldl_cons, insertEntry_last hlast, ih (by simpa using h)]
    simp

end

section
variable [LawfulEqOrd κ]

theorem mem_of_mem_insertEntry {es : List (κ × ν)} {k : κ} {v : ν} {e : κ × ν}
    (h : e ∈ insertEntry k v es) : e = (k, v) ∨ e ∈ es := by
  induction es with
  | nil => exact Or.inl (List.mem_singleton.mp h)
  | cons entry rest ih =>
    obtain ⟨l, w⟩ := entry
    rw [insertEntry] at h
    split at h
    · exact List.mem_cons.mp h
    next heq =>
      rw [LawfulEqOrd.compare_eq_iff_eq.mp heq]
      exact (List.mem_cons.mp h).imp_right (List.mem_cons_of_mem _)
    · rcases List.mem_cons.mp h with rfl | hrest
      · exact Or.inr List.mem_cons_self
      · exact (ih hrest).imp_right (List.mem_cons_of_mem _)

variable [TransOrd κ]

theorem Ordered.insertEntry {es : List (κ × ν)} (h : Ordered es) (k : κ) (v : ν) :
    Ordered (insertEntry k v es) := by
  induction es with
  | nil => exact List.pairwise_singleton _ _
  | cons entry rest ih =>
    obtain ⟨l, w⟩ := entry
    obtain ⟨hfirst, hrest⟩ := List.pairwise_cons.mp h
    rw [OrderedScan.insertEntry]
    split
    next hlt =>
      refine List.pairwise_cons.mpr ⟨?_, h⟩
      intro e he
      rcases List.mem_cons.mp he with rfl | he
      · exact hlt
      · exact TransCmp.lt_trans hlt (hfirst e he)
    next heq =>
      exact List.pairwise_cons.mpr ⟨hfirst, hrest⟩
    next hgt =>
      refine List.pairwise_cons.mpr ⟨?_, ih hrest⟩
      intro e he
      rcases mem_of_mem_insertEntry he with rfl | he
      · exact OrientedCmp.gt_iff_lt.mp hgt
      · exact hfirst e he

theorem foldl_insertEntry_cases {acc : List (κ × ν)} (h : Ordered acc) (es : List (κ × ν)) :
    Ordered (es.foldl (fun m e => insertEntry e.1 e.2 m) acc) ∧
    (es.foldl (fun m e => insertEntry e.1 e.2 m) acc).length ≤ acc.length + es.length ∧
    ∀ e ∈ es.foldl (fun m e => insertEntry e.1 e.2 m) acc, e ∈ acc ∨ e ∈ es := by
  induction es generalizing acc with
  | nil => exact ⟨h, Nat.le_refl _, fun e he => Or.inl he⟩
  | cons first es ih =>
    obtain ⟨hordered, hlength, hmem⟩ := ih (h.insertEntry first.1 first.2)
    refine ⟨hordered, ?_, ?_⟩
    · have hfirst := length_insertEntry_le acc first.1 first.2
      rw [List.length_cons]
      exact Nat.le_trans hlength (by omega)
    · intro e he
      rcases hmem e he with hacc | hes
      · rcases mem_of_mem_insertEntry hacc with rfl | hacc
        · exact Or.inr List.mem_cons_self
        · exact Or.inl hacc
      · exact Or.inr (List.mem_cons_of_mem _ hes)

end

section
variable [TransOrd κ]

theorem ordered_toList (t : TreeMap κ ν) : Ordered t.toList := TreeMap.ordered_keys_toList

theorem ordered_range (t : TreeMap κ ν) (lo hi : κ) : Ordered (range t lo hi) :=
  (ordered_toList t).filter _

theorem Ordered.nodup {es : List (κ × ν)} (h : Ordered es) : es.Nodup := by
  refine List.Pairwise.imp ?_ h
  rintro a _ hlt rfl
  simp [ReflOrd.compare_self] at hlt

theorem Ordered.eq_of_mem_iff {xs ys : List (κ × ν)} (hx : Ordered xs) (hy : Ordered ys)
    (h : ∀ e, e ∈ xs ↔ e ∈ ys) : xs = ys := by
  have hperm : xs.Perm ys := (List.perm_ext_iff_of_nodup hx.nodup hy.nodup).mpr h
  refine hperm.eq_of_pairwise ?_ hx hy
  intro a b _ _ hab hba
  rw [OrientedOrd.eq_swap, hba] at hab
  cases hab

end

section
variable [TransOrd κ] [LawfulEqOrd κ]

theorem mem_range {t : TreeMap κ ν} {lo hi k : κ} {v : ν} :
    (k, v) ∈ range t lo hi ↔
      t[k]? = some v ∧ (compare lo k).isLE ∧ compare k hi = .lt := by
  rw [range, List.mem_filter, TreeMap.mem_toList_iff_getElem?_eq_some]
  simp

theorem range_filter {t u : TreeMap κ ν} {p : ν → Bool} (h : ∀ k : κ, u[k]? = t[k]?.filter p)
    (lo hi : κ) : range u lo hi = (range t lo hi).filter fun e => p e.2 := by
  apply (ordered_range u lo hi).eq_of_mem_iff ((ordered_range t lo hi).filter _)
  intro e
  rw [List.mem_filter]
  change (e.1, e.2) ∈ range u lo hi ↔ (e.1, e.2) ∈ range t lo hi ∧ _
  rw [mem_range, mem_range, h, Option.filter_eq_some_iff]
  simp only [and_assoc, and_comm, and_left_comm]

theorem toList_of_last {t u : TreeMap κ ν} {k : κ} {v : ν}
    (hlast : ∀ a w, t[a]? = some w → compare a k = .lt) (hself : u[k]? = some v)
    (hother : ∀ a, a ≠ k → u[a]? = t[a]?) : u.toList = t.toList ++ [(k, v)] := by
  have hbelow : ∀ e ∈ t.toList, compare e.1 (k, v).1 = .lt := by
    intro e he
    exact hlast e.1 e.2 (TreeMap.mem_toList_iff_getElem?_eq_some.mp he)
  refine (ordered_toList _).eq_of_mem_iff ((ordered_toList t).append_singleton hbelow) ?_
  intro e
  change (e.1, e.2) ∈ u.toList ↔ _
  rw [TreeMap.mem_toList_iff_getElem?_eq_some, List.mem_append, List.mem_singleton]
  by_cases hk : e.1 = k
  · have hnone : e ∉ t.toList := by
      intro he
      have hlt := hbelow e he
      rw [hk, ReflOrd.compare_self] at hlt
      cases hlt
    rw [hk, hself, Option.some.injEq]
    constructor
    · intro hv
      exact Or.inr (Prod.ext hk hv.symm)
    · intro he
      cases he with
      | inl hmem => exact absurd hmem hnone
      | inr heq => rw [heq]
  · rw [hother e.1 hk, ← TreeMap.mem_toList_iff_getElem?_eq_some]
    constructor
    · exact Or.inl
    · intro he
      cases he with
      | inl hmem => exact hmem
      | inr heq => exact absurd (congrArg Prod.fst heq) hk

theorem toList_insert_last {t : TreeMap κ ν} {k : κ} {v : ν}
    (h : ∀ a w, t[a]? = some w → compare a k = .lt) :
    (t.insert k v).toList = t.toList ++ [(k, v)] := by
  refine toList_of_last h TreeMap.getElem?_insert_self ?_
  intro a ha
  have hne : compare k a ≠ .eq := fun heq => ha (LawfulEqOrd.eq_of_compare heq).symm
  rw [TreeMap.getElem?_insert, if_neg hne]

end

end OrderedScan
