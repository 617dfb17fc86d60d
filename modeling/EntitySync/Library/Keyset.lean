import EntitySync.Library.StepSystem
import Mathlib.Data.List.Sort

/-!
# Keyset pagination

A walk over rows that are read a page at a time. Every page sees the rows as they then are and
takes the first `n` of those beyond the last row taken before, in the order `r`; a page with fewer
rows ends the walk. The rows taken are in increasing order however the rows change in between, and
a row that all pages could see is among them.
-/

namespace Keyset

open StepSystem

variable {ρ : Type*}

def Before (r : ρ → ρ → Prop) (a b : ρ) : Prop := ¬r b a

def Distinct (r : ρ → ρ → Prop) (rows : List ρ) : Prop :=
  rows.Pairwise fun a b => ¬(r a b ∧ r b a)

/-- Not yet passed when `last` is the last row taken. -/
def Beyond (r : ρ → ρ → Prop) (last : Option ρ) (a : ρ) : Prop := ∀ l ∈ last, Before r l a

structure Walk (ρ : Type*) where
  taken : List ρ
  done : Bool

section
variable (r : ρ → ρ → Prop) [DecidableRel r]

instance (last : Option ρ) (a : ρ) : Decidable (Beyond r last a) :=
  inferInstanceAs (Decidable (∀ l ∈ last, ¬r a l))

def ahead (rows : List ρ) (last : Option ρ) : List ρ :=
  (rows.filter fun a => Beyond r last a).insertionSort r

def page (n : Nat) (rows : List ρ) (last : Option ρ) : List ρ := (ahead r rows last).take n

def step (n : Nat) (w : Walk ρ) (rows : List ρ) : Option (Walk ρ) :=
  if w.done then none
  else
    let new := page r n rows w.taken.getLast?
    some ⟨w.taken ++ new, decide (new.length < n)⟩

end

variable {r : ρ → ρ → Prop} [DecidableRel r] {n : Nat} {rows : List ρ} {last : Option ρ} {a : ρ}
  {w w' : Walk ρ}

theorem mem_ahead : a ∈ ahead r rows last ↔ a ∈ rows ∧ Beyond r last a := by
  simp [ahead]

theorem mem_of_mem_page (h : a ∈ page r n rows last) : a ∈ rows ∧ Beyond r last a :=
  mem_ahead.mp (List.mem_of_mem_take h)

/-- A short page shows every row beyond the last one. -/
theorem mem_page_of_short (hshort : (page r n rows last).length < n) (ha : a ∈ rows)
    (hbeyond : Beyond r last a) : a ∈ page r n rows last := by
  rw [page, List.length_take] at hshort
  rw [page, List.take_of_length_le (by omega)]
  exact mem_ahead.mpr ⟨ha, hbeyond⟩

theorem step_eq_some : step r n w rows = some w' ↔ w.done = false ∧
    w' = ⟨w.taken ++ page r n rows w.taken.getLast?,
      decide ((page r n rows w.taken.getLast?).length < n)⟩ := by
  cases hdone : w.done <;> simp [step, hdone, eq_comm]

theorem length_page_of_full (h : ¬(page r n rows last).length < n) :
    (page r n rows last).length = n := by
  rw [page, List.length_take] at h ⊢
  omega

private theorem not_done_of_run {states : List (List ρ)}
    (hrun : run (step r n) w states = some w') (hdone : w'.done = false) : w.done = false := by
  cases states with
  | nil =>
    obtain rfl : w = w' := by simpa using hrun
    exact hdone
  | cons rows states =>
    obtain ⟨u, hu, _⟩ := run_cons_eq_some.mp hrun
    exact (step_eq_some.mp hu).1

theorem length_taken {states : List (List ρ)} (hrun : run (step r n) w states = some w')
    (hdone : w'.done = false) : w'.taken.length = w.taken.length + n * states.length := by
  induction states generalizing w with
  | nil =>
    obtain rfl : w = w' := by simpa using hrun
    rfl
  | cons rows states ih =>
    obtain ⟨u, hu, hrun⟩ := run_cons_eq_some.mp hrun
    have hfull := not_done_of_run hrun hdone
    obtain ⟨_, rfl⟩ := step_eq_some.mp hu
    rw [ih hrun, List.length_append, length_page_of_full (of_decide_eq_false hfull),
      List.length_cons, Nat.mul_succ]
    omega

/-- A walk of which no part takes more than `bound` rows ends. -/
theorem exists_done (hn : 0 < n) (states : Nat → List ρ) (bound : Nat)
    (hbound : ∀ k w, run (step r n) ⟨[], false⟩ ((List.range k).map states) = some w →
      w.taken.length ≤ bound) :
    ∃ k w, run (step r n) ⟨[], false⟩ ((List.range k).map states) = some w ∧ w.done = true := by
  by_contra hnone
  have hruns (k : Nat) : ∃ w, run (step r n) ⟨[], false⟩ ((List.range k).map states) = some w := by
    induction k with
    | zero => exact ⟨_, rfl⟩
    | succ k ih =>
      obtain ⟨w, hw⟩ := ih
      have hdone : w.done = false := by
        rw [Bool.eq_false_iff]
        intro hdone
        exact hnone ⟨k, w, hw, hdone⟩
      obtain ⟨w', hw'⟩ : ∃ w', step r n w (states k) = some w' :=
        ⟨_, step_eq_some.mpr ⟨hdone, rfl⟩⟩
      refine ⟨w', ?_⟩
      rw [List.range_succ, List.map_append, run_append, hw, List.map_singleton, Option.bind_some,
        run_cons, hw']
      rfl
  obtain ⟨w, hw⟩ := hruns (bound + 1)
  have hdone : w.done = false := by
    rw [Bool.eq_false_iff]
    intro hdone
    exact hnone ⟨_, w, hw, hdone⟩
  have hlength := length_taken hw hdone
  have hle := hbound _ w hw
  rw [List.length_map, List.length_range] at hlength
  have hmul : bound + 1 ≤ n * (bound + 1) := Nat.le_mul_of_pos_left _ hn
  simp only [List.length_nil] at hlength
  omega

theorem forall_taken {P : ρ → Prop} {states : List (List ρ)}
    (h : ∀ rows ∈ states, ∀ a ∈ rows, P a)
    (hrun : run (step r n) ⟨[], false⟩ states = some w) : ∀ a ∈ w.taken, P a := by
  refine (meets_of_forall h).invariant (I := fun w => ∀ a ∈ w.taken, P a) ?_ (by simp) hrun
  intro w rows w' hw hrows hstep a ha
  obtain ⟨_, rfl⟩ := step_eq_some.mp hstep
  cases List.mem_append.mp ha with
  | inl hold => exact hw a hold
  | inr hnew => exact hrows a (mem_of_mem_page hnew).1

omit [DecidableRel r] in
theorem Before.rel [Std.Total r] {a b : ρ} (h : Before r a b) : r a b :=
  (total_of r a b).resolve_right h

section
variable [Std.Total r] [IsTrans ρ r]

omit [DecidableRel r] in
theorem Before.trans {a b c : ρ} (hab : Before r a b) (hbc : Before r b c) : Before r a c :=
  fun hca => hbc (trans_of r hca hab.rel)

theorem pairwise_before_insertionSort (h : Distinct r rows) :
    (rows.insertionSort r).Pairwise (Before r) := by
  have hdistinct : (rows.insertionSort r).Pairwise fun a b => ¬(r a b ∧ r b a) := by
    refine (List.perm_insertionSort r rows).symm.pairwise h ?_
    intro a b hab hba
    exact hab hba.symm
  refine (hdistinct.and (List.pairwise_insertionSort r rows)).imp ?_
  intro a b hab hba
  exact hab.1 ⟨hab.2, hba⟩

theorem pairwise_before_ahead (h : Distinct r rows) :
    (ahead r rows last).Pairwise (Before r) :=
  pairwise_before_insertionSort (h.filter _)

/-- No row of a page comes after its last one. -/
theorem rel_getLast_of_mem_page {l : ρ} (hl : (page r n rows last).getLast? = some l)
    (ha : a ∈ page r n rows last) : r a l := by
  have hsorted : (page r n rows last).Pairwise r :=
    (List.pairwise_insertionSort r _).sublist (List.take_sublist _ _)
  obtain ⟨front, hfront⟩ := List.getLast?_eq_some_iff.mp hl
  rw [hfront] at hsorted ha
  cases List.mem_append.mp ha with
  | inl hmem => exact (List.pairwise_append.mp hsorted).2.2 a hmem l (List.mem_singleton_self l)
  | inr hmem =>
    rw [List.mem_singleton.mp hmem]
    exact refl_of r l

theorem mem_page_of_not_before (h : Distinct r rows) {l : ρ} (hl : l ∈ page r n rows last)
    (ha : a ∈ rows) (hbeyond : Beyond r last a) (hle : ¬Before r l a) :
    a ∈ page r n rows last := by
  have hmem : a ∈ ahead r rows last := mem_ahead.mpr ⟨ha, hbeyond⟩
  have hsorted : (ahead r rows last).Pairwise (Before r) := pairwise_before_ahead h
  rw [← List.take_append_drop n (ahead r rows last)] at hmem hsorted
  cases List.mem_append.mp hmem with
  | inl htake => exact htake
  | inr hdrop => exact absurd ((List.pairwise_append.mp hsorted).2.2 l hl a hdrop) hle

theorem pairwise_before_step (hrows : Distinct r rows) (h : w.taken.Pairwise (Before r))
    (hstep : step r n w rows = some w') : w'.taken.Pairwise (Before r) := by
  obtain ⟨_, rfl⟩ := step_eq_some.mp hstep
  refine List.pairwise_append.mpr
    ⟨h, (pairwise_before_ahead hrows).sublist (List.take_sublist _ _), ?_⟩
  intro a ha b hb
  have hbeyond := (mem_of_mem_page hb).2
  cases hlast : w.taken.getLast? with
  | none =>
    rw [List.getLast?_eq_none_iff.mp hlast] at ha
    cases ha
  | some l =>
    have hlb : Before r l b := hbeyond l hlast
    obtain ⟨front, hfront⟩ := List.getLast?_eq_some_iff.mp hlast
    rw [hfront] at h ha
    cases List.mem_append.mp ha with
    | inl hmem =>
      have hal := (List.pairwise_append.mp h).2.2 a hmem l (List.mem_singleton_self l)
      exact hal.trans hlb
    | inr hmem =>
      rw [List.mem_singleton.mp hmem]
      exact hlb

/-- The rows at the place of `a` are not passed without one of them being taken. -/
def Pending (r : ρ → ρ → Prop) (Q : ρ → Prop) (w : Walk ρ) : Prop :=
  (∃ a ∈ w.taken, Q a) ∨ w.done = false ∧ ∀ a, Q a → Beyond r w.taken.getLast? a

theorem Pending.step {Q : ρ → Prop} (hn : 0 < n) (hQ : ∀ a b, Q a → Q b → r a b)
    (hrows : Distinct r rows) (hsees : ∃ a ∈ rows, Q a) (h : Pending r Q w)
    (hstep : step r n w rows = some w') : Pending r Q w' := by
  obtain ⟨_, rfl⟩ := step_eq_some.mp hstep
  rcases h with ⟨b, hb, hQb⟩ | ⟨_, hbeyond⟩
  · exact Or.inl ⟨b, List.mem_append_left _ hb, hQb⟩
  · obtain ⟨a, ha, hQa⟩ := hsees
    by_cases hshort : (page r n rows w.taken.getLast?).length < n
    · exact Or.inl ⟨a, List.mem_append_right _ (mem_page_of_short hshort ha (hbeyond a hQa)), hQa⟩
    · have hne : page r n rows w.taken.getLast? ≠ [] := by
        intro hnil
        rw [hnil] at hshort
        exact hshort hn
      have hlast := List.getLast?_eq_some_getLast hne
      have hmem := List.getLast_mem hne
      by_cases hbefore : Before r ((page r n rows w.taken.getLast?).getLast hne) a
      · refine Or.inr ⟨by simpa using hshort, ?_⟩
        intro b hQb l hl
        rw [List.getLast?_append, hlast, Option.some_or, Option.mem_some_iff] at hl
        rw [← hl]
        exact fun hbl => hbefore (trans_of r (hQ a b hQa hQb) hbl)
      · exact Or.inl ⟨a, List.mem_append_right _
          (mem_page_of_not_before hrows hmem ha (hbeyond a hQa) hbefore), hQa⟩

theorem pairwise_before_taken {states : List (List ρ)} (h : ∀ rows ∈ states, Distinct r rows)
    (hrun : run (step r n) ⟨[], false⟩ states = some w) : w.taken.Pairwise (Before r) :=
  (meets_of_forall h).invariant (I := fun w => w.taken.Pairwise (Before r))
    (fun _ _ _ hw hrows hstep => pairwise_before_step hrows hw hstep) List.Pairwise.nil hrun

/-- A place at which every page could see a row is not left out. -/
theorem exists_taken {Q : ρ → Prop} {states : List (List ρ)} (hn : 0 < n)
    (hQ : ∀ a b, Q a → Q b → r a b)
    (h : ∀ rows ∈ states, Distinct r rows ∧ ∃ a ∈ rows, Q a)
    (hrun : run (step r n) ⟨[], false⟩ states = some w) (hdone : w.done = true) :
    ∃ a ∈ w.taken, Q a := by
  have hinit : Pending r Q ⟨[], false⟩ := Or.inr ⟨rfl, fun _ _ l hl => by cases hl⟩
  have hpending : Pending r Q w := (meets_of_forall h).invariant
    (fun _ _ _ hw hrows hstep => hw.step hn hQ hrows.1 hrows.2 hstep) hinit hrun
  rcases hpending with htaken | ⟨hopen, _⟩
  · exact htaken
  · rw [hdone] at hopen
    cases hopen

omit [IsTrans ρ r] [DecidableRel r] in
theorem nodup_of_pairwise_before {l : List ρ} (h : l.Pairwise (Before r)) : l.Nodup := by
  refine h.imp ?_
  rintro a b hab rfl
  exact hab (refl_of r a)

/-- On rows that do not change, a finished walk has taken all of them in order. -/
theorem taken_eq_insertionSort {k : Nat} (hn : 0 < n) (h : Distinct r rows)
    (hrun : run (step r n) ⟨[], false⟩ (List.replicate k rows) = some w) (hdone : w.done = true) :
    w.taken = rows.insertionSort r := by
  have hdistinct : ∀ rows' ∈ List.replicate k rows, Distinct r rows' := by
    intro rows' hrows'
    rw [List.eq_of_mem_replicate hrows']
    exact h
  have htaken := pairwise_before_taken hdistinct hrun
  have hsorted := pairwise_before_insertionSort h
  have hmem (a : ρ) : a ∈ w.taken ↔ a ∈ rows.insertionSort r := by
    rw [List.mem_insertionSort]
    constructor
    · refine forall_taken (P := (· ∈ rows)) ?_ hrun a
      intro rows' hrows' b hb
      rwa [List.eq_of_mem_replicate hrows'] at hb
    · intro ha
      obtain ⟨b, hb, rfl⟩ := exists_taken (Q := (· = a)) hn
        (by rintro _ _ rfl rfl; exact refl_of r _)
        (by
          intro rows' hrows'
          rw [List.eq_of_mem_replicate hrows']
          exact ⟨h, a, ha, rfl⟩) hrun hdone
      exact hb
  have hperm : w.taken.Perm (rows.insertionSort r) :=
    (List.perm_ext_iff_of_nodup (nodup_of_pairwise_before htaken)
      (nodup_of_pairwise_before hsorted)).mpr hmem
  refine hperm.eq_of_pairwise ?_ htaken hsorted
  intro a b _ _ hab hba
  exact absurd hba.rel hab

end

end Keyset
