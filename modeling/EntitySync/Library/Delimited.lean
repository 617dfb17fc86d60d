import Mathlib.Data.List.Basic

/-!
# Delimited encodings

A value that never contains its closing delimiter can be read back from a longer text, also when
the text around it is arbitrary.
-/

namespace Delimited

variable {α : Type*}

theorem append_cons_inj {x y u v : List α} {a : α} (hx : a ∉ x) (hy : a ∉ y)
    (h : x ++ a :: u = y ++ a :: v) : x = y ∧ u = v := by
  induction x generalizing y with
  | nil =>
    cases y with
    | nil => simpa using h
    | cons d y =>
      have hd : a = d := by simpa using congrArg List.head? h
      exact absurd (hd ▸ List.mem_cons_self) hy
  | cons c x ih =>
    cases y with
    | nil =>
      have hc : c = a := by simpa using congrArg List.head? h
      exact absurd (hc ▸ List.mem_cons_self) hx
    | cons d y =>
      rw [List.cons_append, List.cons_append, List.cons.injEq] at h
      have hrest := ih (fun hmem => hx (List.mem_cons_of_mem _ hmem))
        (fun hmem => hy (List.mem_cons_of_mem _ hmem)) h.2
      exact ⟨by rw [h.1, hrest.1], hrest.2⟩

def field (opening : List α) (close : α) (e : List α × List α) : List α :=
  e.1 ++ (opening ++ (e.2 ++ [close]))

theorem intercalate_cons (sep x : List α) (xs : List (List α)) :
    sep.intercalate (x :: xs) = x ++ if xs = [] then [] else sep ++ sep.intercalate xs := by
  cases xs with
  | nil => simp [List.intercalate]
  | cons y ys => simp [List.intercalate, List.intersperse]

theorem intercalate_field_inj {sep opening : List α} {close : α} {xs ys : List (List α × List α)}
    (hnames : xs.map Prod.fst = ys.map Prod.fst)
    (hxs : ∀ e ∈ xs, close ∉ e.2) (hys : ∀ e ∈ ys, close ∉ e.2)
    (h : sep.intercalate (xs.map (field opening close)) =
      sep.intercalate (ys.map (field opening close))) : xs = ys := by
  induction xs generalizing ys with
  | nil =>
    cases ys with
    | nil => rfl
    | cons y ys => cases hnames
  | cons x xs ih =>
    cases ys with
    | nil => cases hnames
    | cons y ys =>
      rw [List.map_cons, List.map_cons, List.cons.injEq] at hnames
      have hlength : xs.length = ys.length := by simpa using congrArg List.length hnames.2
      rw [List.map_cons, List.map_cons, intercalate_cons, intercalate_cons] at h
      -- the names agree and the first closing delimiter ends the value on both sides
      simp only [field, hnames.1, List.append_assoc, List.append_cancel_left_eq,
        List.singleton_append] at h
      have hhead := append_cons_inj (hxs x List.mem_cons_self) (hys y List.mem_cons_self) h
      have htail : xs = ys := by
        cases xs with
        | nil => exact (List.length_eq_zero_iff.mp hlength.symm).symm
        | cons x' xs =>
          cases ys with
          | nil => cases hlength
          | cons y' ys =>
            refine ih hnames.2 (fun e he => hxs e (List.mem_cons_of_mem _ he))
              (fun e he => hys e (List.mem_cons_of_mem _ he)) ?_
            simpa using hhead.2
      rw [htail, Prod.ext hnames.1 hhead.1]

theorem flatMap_inj_of_length {β : Type*} {f : β → List α} {n : Nat} (hn : 0 < n)
    (hlength : ∀ b, (f b).length = n) (hinj : Function.Injective f) {xs ys : List β}
    (h : xs.flatMap f = ys.flatMap f) : xs = ys := by
  have hne (b : β) (bs : List β) : (b :: bs).flatMap f ≠ [] := by
    intro hnil
    have hzero := hlength b
    rw [List.flatMap_cons, List.append_eq_nil_iff] at hnil
    rw [hnil.1, List.length_nil] at hzero
    omega
  induction xs generalizing ys with
  | nil =>
    cases ys with
    | nil => rfl
    | cons y ys => exact absurd h.symm (hne y ys)
  | cons x xs ih =>
    cases ys with
    | nil => exact absurd h (hne x xs)
    | cons y ys =>
      rw [List.flatMap_cons, List.flatMap_cons] at h
      obtain ⟨hhead, htail⟩ := List.append_inj h (by rw [hlength, hlength])
      rw [hinj hhead, ih htail]

def record (sep term : α) (e : List α × List α) : List α := e.1 ++ sep :: (e.2 ++ [term])

/-- Read from the left: the first field ends at the first separator, the second one at the first
terminator after it. -/
theorem flatMap_record_inj_left {sep term : α} {xs ys : List (List α × List α)}
    (hxs : ∀ e ∈ xs, sep ∉ e.1 ∧ term ∉ e.2) (hys : ∀ e ∈ ys, sep ∉ e.1 ∧ term ∉ e.2)
    (h : xs.flatMap (record sep term) = ys.flatMap (record sep term)) : xs = ys := by
  induction xs generalizing ys with
  | nil =>
    cases ys with
    | nil => rfl
    | cons y ys => simp [record] at h
  | cons x xs ih =>
    cases ys with
    | nil => simp [record] at h
    | cons y ys =>
      rw [List.forall_mem_cons] at hxs hys
      simp only [List.flatMap_cons, record, List.append_assoc, List.cons_append,
        List.nil_append] at h
      have hfirst := append_cons_inj hxs.1.1 hys.1.1 h
      have hsecond := append_cons_inj hxs.1.2 hys.1.2 hfirst.2
      rw [Prod.ext hfirst.1 hsecond.1, ih hxs.2 hys.2 hsecond.2]

theorem append_inj_of_head {x y u v : List α} {a : α} (hx : a ∉ x) (hy : a ∉ y)
    (hu : ∀ c ∈ u.head?, c = a) (hv : ∀ c ∈ v.head?, c = a) (h : x ++ u = y ++ v) :
    x = y ∧ u = v := by
  cases u with
  | nil =>
    cases v with
    | nil => simpa using h
    | cons c v =>
      obtain rfl : c = a := hv c rfl
      simp only [List.append_nil] at h
      exact absurd (h ▸ List.mem_append_right _ List.mem_cons_self) hx
  | cons c u =>
    obtain rfl : c = a := hu c rfl
    cases v with
    | nil =>
      simp only [List.append_nil] at h
      exact absurd (h ▸ List.mem_append_right _ List.mem_cons_self) hy
    | cons d v =>
      obtain rfl : d = c := hv d rfl
      have hinj := append_cons_inj hx hy h
      exact ⟨hinj.1, by rw [hinj.2]⟩

private def mirrored (sep term : α) (e : List α × List α) : List α := term :: (e.2 ++ sep :: e.1)

private theorem flatMap_mirrored_inj {sep term : α} {xs ys : List (List α × List α)}
    (hxs : ∀ e ∈ xs, term ∉ e.1 ∧ sep ∉ e.2) (hys : ∀ e ∈ ys, term ∉ e.1 ∧ sep ∉ e.2)
    (h : xs.flatMap (mirrored sep term) = ys.flatMap (mirrored sep term)) : xs = ys := by
  have hhead (es : List (List α × List α)) :
      ∀ c ∈ (es.flatMap (mirrored sep term)).head?, c = term := by
    cases es with
    | nil => simp
    | cons e es => simp [mirrored]
  induction xs generalizing ys with
  | nil =>
    cases ys with
    | nil => rfl
    | cons y ys => simp [mirrored] at h
  | cons x xs ih =>
    cases ys with
    | nil => simp [mirrored] at h
    | cons y ys =>
      rw [List.forall_mem_cons] at hxs hys
      simp only [List.flatMap_cons, mirrored, List.append_assoc, List.cons_append,
        List.cons.injEq, true_and] at h
      have hsecond := append_cons_inj hxs.1.2 hys.1.2 h
      have hfirst := append_inj_of_head hxs.1.1 hys.1.1 (hhead xs) (hhead ys) hsecond.2
      rw [Prod.ext hfirst.1 hsecond.1, ih hxs.2 hys.2 hfirst.2]

/-- Read from the right: the second field starts after the last separator, and the first one after
the last terminator before it. -/
theorem flatMap_record_inj_right {sep term : α} {xs ys : List (List α × List α)}
    (hxs : ∀ e ∈ xs, term ∉ e.1 ∧ sep ∉ e.2) (hys : ∀ e ∈ ys, term ∉ e.1 ∧ sep ∉ e.2)
    (h : xs.flatMap (record sep term) = ys.flatMap (record sep term)) : xs = ys := by
  let mirror (e : List α × List α) : List α × List α := (e.1.reverse, e.2.reverse)
  have hmirror (es : List (List α × List α)) : (es.flatMap (record sep term)).reverse =
      (es.reverse.map mirror).flatMap (mirrored sep term) := by
    rw [List.reverse_flatMap, List.flatMap_map]
    apply List.flatMap_congr
    intro e _
    simp [record, mirrored, mirror]
  have hfields {es : List (List α × List α)} (hes : ∀ e ∈ es, term ∉ e.1 ∧ sep ∉ e.2) :
      ∀ e ∈ es.reverse.map mirror, term ∉ e.1 ∧ sep ∉ e.2 := by
    intro e he
    obtain ⟨f, hf, rfl⟩ := List.mem_map.mp he
    simpa [mirror] using hes f (List.mem_reverse.mp hf)
  have hinjective : Function.Injective mirror := by
    intro e f heq
    simpa [mirror, Prod.ext_iff] using heq
  have hrev := congrArg List.reverse h
  rw [hmirror, hmirror] at hrev
  have hsame := flatMap_mirrored_inj (hfields hxs) (hfields hys) hrev
  exact List.reverse_inj.mp (hinjective.list_map hsame)

/-- Elements up to and including the first one with the property `p`. -/
def Block (p : α → Prop) (l : List α) : Prop :=
  ∃ front last, l = front ++ [last] ∧ p last ∧ ∀ a ∈ front, ¬p a

theorem Block.append_inj {p : α → Prop} {x y u v : List α} (hx : Block p x) (hy : Block p y)
    (h : x ++ u = y ++ v) : x = y ∧ u = v := by
  obtain ⟨front, last, rfl, hlast, hfront⟩ := hx
  obtain ⟨front', last', rfl, hlast', hfront'⟩ := hy
  rw [List.append_assoc, List.append_assoc] at h
  induction front generalizing front' with
  | nil =>
    cases front' with
    | nil => simpa using h
    | cons a front' =>
      have ha : last = a := by simpa using congrArg List.head? h
      exact absurd (ha ▸ hlast) (hfront' a List.mem_cons_self)
  | cons a front ih =>
    cases front' with
    | nil =>
      have ha : a = last' := by simpa using congrArg List.head? h
      exact absurd (ha ▸ hlast') (hfront a List.mem_cons_self)
    | cons a' front' =>
      obtain ⟨rfl, htail⟩ := List.cons.inj h
      have hrest := ih (fun b hb => hfront b (List.mem_cons_of_mem _ hb)) front' htail
        (fun b hb => hfront' b (List.mem_cons_of_mem _ hb))
      exact ⟨congrArg (a :: ·) hrest.1, hrest.2⟩

theorem Block.ne_nil {p : α → Prop} {l : List α} (h : Block p l) : l ≠ [] := by
  obtain ⟨front, last, rfl, _⟩ := h
  simp

theorem flatten_inj_of_block {p : α → Prop} {xs ys : List (List α)} (hxs : ∀ x ∈ xs, Block p x)
    (hys : ∀ y ∈ ys, Block p y) (h : xs.flatten = ys.flatten) : xs = ys := by
  induction xs generalizing ys with
  | nil =>
    cases ys with
    | nil => rfl
    | cons y ys =>
      rw [List.forall_mem_cons] at hys
      simp [hys.1.ne_nil] at h
  | cons x xs ih =>
    rw [List.forall_mem_cons] at hxs
    cases ys with
    | nil => simp [hxs.1.ne_nil] at h
    | cons y ys =>
      rw [List.forall_mem_cons] at hys
      rw [List.flatten_cons, List.flatten_cons] at h
      obtain ⟨hhead, htail⟩ := hxs.1.append_inj hys.1 h
      rw [hhead, ih hxs.2 hys.2 htail]

/-! ### The first occurrence of a pattern -/

structure FirstAt (pattern l front back : List α) : Prop where
  eq : l = front ++ (pattern ++ back)
  first : ∀ front' back', l = front' ++ (pattern ++ back') → front.length ≤ front'.length

theorem FirstAt.unique {pattern l front back front' back' : List α}
    (h : FirstAt pattern l front back) (h' : FirstAt pattern l front' back') :
    front = front' ∧ back = back' := by
  have hlength : front.length = front'.length :=
    Nat.le_antisymm (h.first _ _ h'.eq) (h'.first _ _ h.eq)
  have hsplit := List.append_inj (h.eq.symm.trans h'.eq) hlength
  exact ⟨hsplit.1, List.append_cancel_left hsplit.2⟩

theorem firstAt_singleton {a : α} {x u : List α} (h : a ∉ x) :
    FirstAt [a] (x ++ a :: u) x u := by
  refine ⟨rfl, ?_⟩
  intro front' back' heq
  rw [List.singleton_append, List.append_eq_append_iff] at heq
  obtain ⟨more, hfront, _⟩ | ⟨more, hx, hmore⟩ := heq
  · simp [hfront]
  · cases more with
    | nil => simp [hx]
    | cons b more =>
      obtain rfl : a = b := (List.cons.inj hmore).1
      exact absurd (by simp [hx]) h

theorem FirstAt.notMem {a : α} {l front back : List α} (h : FirstAt [a] l front back) :
    a ∉ front := by
  intro hmem
  obtain ⟨x, y, rfl⟩ := List.append_of_mem hmem
  have hle := h.first x (y ++ a :: back) (by simp [h.eq])
  simp only [List.length_append, List.length_cons] at hle
  omega

theorem FirstAt.mem_back {pattern l front back front' back' : List α}
    (h : FirstAt pattern l front back) (h' : l = front' ++ (pattern ++ back')) {a : α}
    (ha : a ∈ back') : a ∈ back := by
  have hlength := congrArg List.length (h.eq.symm.trans h')
  have hle := h.first front' back' h'
  simp only [List.length_append] at hlength
  have hback : back <:+ l := ⟨front ++ pattern, by simp [h.eq]⟩
  have hback' : back' <:+ l := ⟨front' ++ pattern, by simp [h']⟩
  exact (List.suffix_of_suffix_length_le hback' hback (by omega)).mem ha

section SplitFirst

variable [DecidableEq α]

/-- What stands in front of the first occurrence of the pattern, and what stands behind it. -/
def splitFirst (pattern : List α) : List α → Option (List α × List α)
  | [] => if pattern = [] then some ([], []) else none
  | a :: l =>
    if pattern <+: a :: l then some ([], (a :: l).drop pattern.length)
    else (splitFirst pattern l).map fun s => (a :: s.1, s.2)

theorem firstAt_of_splitFirst {pattern l : List α} {s : List α × List α}
    (h : splitFirst pattern l = some s) : FirstAt pattern l s.1 s.2 := by
  induction l generalizing s with
  | nil =>
    rw [splitFirst] at h
    split at h
    next hpattern =>
      cases h
      exact ⟨by simp [hpattern], by simp⟩
    next => cases h
  | cons a l ih =>
    rw [splitFirst] at h
    split at h
    next hstarts =>
      cases h
      refine ⟨?_, by simp⟩
      obtain ⟨back, hback⟩ := hstarts
      simp [← hback]
    next hstarts =>
      obtain ⟨t, ht, rfl⟩ := Option.map_eq_some_iff.mp h
      have hfirst := ih ht
      refine ⟨by rw [hfirst.eq, List.cons_append, ← hfirst.eq], ?_⟩
      intro front' back' heq
      cases front' with
      | nil => exact absurd ⟨back', heq.symm⟩ hstarts
      | cons b front' =>
        rw [List.cons_append, List.cons.injEq] at heq
        have hle := hfirst.first front' back' heq.2
        simpa using hle

theorem splitFirst_eq_none {pattern l : List α} (h : splitFirst pattern l = none)
    (front back : List α) : l ≠ front ++ (pattern ++ back) := by
  induction l generalizing front with
  | nil =>
    rw [splitFirst] at h
    split at h
    · cases h
    next hpattern =>
      intro heq
      simp only [List.nil_eq, List.append_eq_nil_iff] at heq
      exact hpattern heq.2.1
  | cons a l ih =>
    rw [splitFirst] at h
    split at h
    · cases h
    next hstarts =>
      intro heq
      cases front with
      | nil => exact hstarts ⟨back, heq.symm⟩
      | cons b front =>
        rw [List.cons_append, List.cons.injEq] at heq
        exact ih (Option.map_eq_none_iff.mp h) front heq.2

theorem splitFirst_eq_some {pattern l front back : List α} :
    splitFirst pattern l = some (front, back) ↔ FirstAt pattern l front back := by
  constructor
  · exact firstAt_of_splitFirst
  · intro h
    cases hsplit : splitFirst pattern l with
    | none => exact absurd h.eq (splitFirst_eq_none hsplit front back)
    | some s =>
      have hsame := h.unique (firstAt_of_splitFirst hsplit)
      rw [hsame.1, hsame.2]

end SplitFirst

end Delimited
