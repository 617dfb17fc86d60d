import EntitySync.Rules.Cache

/-!
# Counting a sweep

`sweep_expired_entries` reads the size of the cache, drops the expired entries, reads the size
again and subtracts. The `assign` calls of other tasks run between these steps, and each new key
they store makes the difference smaller by one.
-/

namespace EntitySync.Rules

open StepSystem

namespace BucketAssigner

def size (self : BucketAssigner) : Nat := self.cache.entries.length

def expiredCount (self : BucketAssigner) (now : Instant) : Nat :=
  (self.cache.entries.filter fun entry => !decide (now - entry.2.2 < self.cacheTtl)).length

theorem size_sweep (self : BucketAssigner) (now : Instant) :
    (self.sweepExpiredEntries now).2.size + self.expiredCount now = self.size := by
  simp only [size, expiredCount, sweepExpiredEntries, AssocMap.retain]
  exact (List.length_eq_length_filter_add _).symm

theorem sweepExpiredEntries_fst (self : BucketAssigner) (now : Instant) :
    (self.sweepExpiredEntries now).1 = self.expiredCount now := by
  have hsize := self.size_sweep now
  simp only [size, sweepExpiredEntries] at hsize ⊢
  omega

theorem size_resolve (self : BucketAssigner) (now : Instant) (db : String → Database)
    (claims : TokenClaims) : self.size ≤ (self.resolve now db claims).2.size := by
  rw [resolve]
  split
  next => exact Nat.le_refl _
  next => exact AssocMap.length_le_insert _ _ _

end BucketAssigner

/-- How far the running sweep is. `grown` is by how many entries the calls of other tasks have made
the cache larger since the first size was read. -/
inductive SweepStage where
  | idle
  | counted (before grown : Nat)
  | retained (before removed grown : Nat)

/-- What a sweep returned, `none` for an underflow, and how many entries it removed. -/
structure Swept where
  count : Option Nat
  removed : Nat
deriving DecidableEq

structure Sweeper where
  calls : Calls
  stage : SweepStage
  returned : List Swept

inductive SweeperAction where
  | call (a : CallAction)
  | count
  | retain
  | finish

def SweepStage.grow (n : Nat) : SweepStage → SweepStage
  | .idle => .idle
  | .counted before grown => .counted before (grown + n)
  | .retained before removed grown => .retained before removed (grown + n)

/-- `before - after` on `usize`. -/
def checkedSub (before after : Nat) : Option Nat :=
  if after ≤ before then some (before - after) else none

namespace Sweeper

def start (assigner : BucketAssigner) (clock : Clock) : Sweeper where
  calls := .start assigner clock
  stage := .idle
  returned := []

/-- The calls of other tasks are those of `Calls`, with the sweep taken apart. -/
def step (s : Sweeper) : SweeperAction → Option Sweeper
  | .call a =>
    if a.isSweep then none
    else (s.calls.step a).map fun calls =>
      { s with
        calls := calls
        stage := s.stage.grow (calls.assigner.size - s.calls.assigner.size) }
  | .count =>
    match s.stage with
    | .idle => some { s with stage := .counted s.calls.assigner.size 0 }
    | _ => none
  | .retain =>
    match s.stage with
    | .counted before grown =>
      let now := s.calls.clock.instant
      some { s with
        calls := { s.calls with assigner := (s.calls.assigner.sweepExpiredEntries now).2 }
        stage := .retained before (s.calls.assigner.expiredCount now) grown }
    | _ => none
  | .finish =>
    match s.stage with
    | .retained before removed _ =>
      some { s with
        stage := .idle
        returned := s.returned ++ [⟨checkedSub before s.calls.assigner.size, removed⟩] }
    | _ => none

def CountsExact (s : Sweeper) : Prop := ∀ r ∈ s.returned, r.count = some r.removed

/-- A sweep that ends has not seen the cache grow between its two sizes. -/
def Undisturbed (s : Sweeper) : SweeperAction → Prop
  | .finish => ∀ before removed grown, s.stage = .retained before removed grown → grown = 0
  | .call _ | .count | .retain => True

def Balanced (s : Sweeper) : Prop :=
  match s.stage with
  | .idle => True
  | .counted before grown => before + grown = s.calls.assigner.size
  | .retained before removed grown => before + grown = s.calls.assigner.size + removed

variable {s t : Sweeper}

theorem size_le_of_call {calls next : Calls} {a : CallAction} (ha : a.isSweep = false)
    (h : calls.step a = some next) : calls.assigner.size ≤ next.assigner.size := by
  cases a with
  | advance clock =>
    simp only [Calls.step] at h
    split at h <;> cases h
    exact Nat.le_refl _
  | assign claims =>
    cases h
    rw [calls.assigner_beginAssign claims]
  | resolve i db =>
    obtain ⟨claims, _, rfl⟩ := Option.map_eq_some_iff.mp h
    exact calls.assigner.size_resolve _ db claims
  | findAffectedBuckets entityType rowData =>
    cases h
    exact Nat.le_refl _
  | sweepExpiredEntries => cases ha

/-- What one step of the sweep or of the other tasks can do. -/
inductive Steps (s : Sweeper) : SweeperAction → Sweeper → Prop
  | call {a : CallAction} {calls : Calls} (hcall : s.calls.step a = some calls)
    (hsize : s.calls.assigner.size ≤ calls.assigner.size) :
    Steps s (.call a) { s with
      calls := calls
      stage := s.stage.grow (calls.assigner.size - s.calls.assigner.size) }
  | count (hstage : s.stage = .idle) :
    Steps s .count { s with stage := .counted s.calls.assigner.size 0 }
  | retain {before grown : Nat} (hstage : s.stage = .counted before grown) :
    Steps s .retain { s with
      calls := { s.calls with
        assigner := (s.calls.assigner.sweepExpiredEntries s.calls.clock.instant).2 }
      stage := .retained before (s.calls.assigner.expiredCount s.calls.clock.instant) grown }
  | finish {before removed grown : Nat} (hstage : s.stage = .retained before removed grown) :
    Steps s .finish { s with
      stage := .idle
      returned := s.returned ++ [⟨checkedSub before s.calls.assigner.size, removed⟩] }

theorem steps_of_step {a : SweeperAction} (h : s.step a = some t) : s.Steps a t := by
  cases a with
  | call a =>
    simp only [step] at h
    split at h
    next => cases h
    next hsweep =>
      obtain ⟨calls, hcalls, rfl⟩ := Option.map_eq_some_iff.mp h
      exact .call hcalls (size_le_of_call (Bool.eq_false_iff.mpr hsweep) hcalls)
  | count =>
    simp only [step] at h
    split at h
    next hstage =>
      cases h
      exact .count hstage
    next => cases h
  | retain =>
    simp only [step] at h
    split at h
    next hstage =>
      cases h
      exact .retain hstage
    next => cases h
  | finish =>
    simp only [step] at h
    split at h
    next hstage =>
      cases h
      exact .finish hstage
    next => cases h

theorem balanced_of_step (hs : s.Balanced) {a : SweeperAction} (h : s.step a = some t) :
    t.Balanced := by
  cases steps_of_step h with
  | @call a calls hcall hsize =>
    rw [Balanced] at hs ⊢
    cases hstage : s.stage with
    | idle => trivial
    | counted before grown =>
      rw [hstage] at hs
      simp only [SweepStage.grow]
      omega
    | retained before removed grown =>
      rw [hstage] at hs
      simp only [SweepStage.grow]
      omega
  | count hstage => exact Nat.add_zero _
  | retain hstage =>
    rw [Balanced, hstage] at hs
    have hsize := s.calls.assigner.size_sweep s.calls.clock.instant
    simp only [Balanced]
    omega
  | finish hstage => trivial

theorem checkedSub_eq_some {before after n : Nat} :
    checkedSub before after = some n ↔ before = after + n := by
  rw [checkedSub]
  split
  next hle =>
    rw [Option.some.injEq]
    omega
  next hlt =>
    constructor
    · intro h
      cases h
    · intro h
      omega

theorem countsExact_of_step (hs : s.Balanced) (hexact : s.CountsExact) {a : SweeperAction}
    (h : s.step a = some t) : t.CountsExact ↔ s.Undisturbed a := by
  cases steps_of_step h with
  | call | count | retain => exact iff_of_true hexact trivial
  | @finish before removed grown hstage =>
    rw [Balanced, hstage] at hs
    have hcount : checkedSub before s.calls.assigner.size = some removed ↔ grown = 0 := by
      rw [checkedSub_eq_some]
      omega
    simp only [Undisturbed, hstage, SweepStage.retained.injEq]
    constructor
    · rintro ht _ _ _ ⟨rfl, rfl, rfl⟩
      exact hcount.mp (ht _ (List.mem_append_right _ (List.mem_singleton_self _)))
    · intro hgrown r hr
      rcases List.mem_append.mp hr with hold | hnew
      · exact hexact r hold
      · obtain rfl := List.mem_singleton.mp hnew
        exact hcount.mpr (hgrown before removed grown ⟨rfl, rfl, rfl⟩)

/-- In every run, every sweep returns the number of entries it removed, without an underflow, if and
only if the cache does not grow between the two sizes of a sweep that ends. -/
theorem countsExact_iff (assigner : BucketAssigner) (clock : Clock) (as : List SweeperAction) :
    Always step CountsExact (start assigner clock) as ↔
      Meets step Undisturbed (start assigner clock) as := by
  apply always_iff_meets (J := fun s => s.Balanced ∧ s.CountsExact) (E := fun _ _ => True)
  · intro s hs
    exact hs.2
  · intro s a t hs _ hstep
    exact countsExact_of_step hs.1 hs.2 hstep
  · intro s a t hs _ hstep ht
    exact ⟨balanced_of_step hs.1 hstep, ht⟩
  · exact meets_of_forall fun _ _ => trivial
  · exact ⟨trivial, nofun⟩

/-- Without other calls in between, the three steps are `sweepExpiredEntries`. -/
theorem run_alone (assigner : BucketAssigner) (clock : Clock) :
    (run step (start assigner clock) [.count, .retain, .finish]).map
        (fun s => (s.calls.assigner, s.returned)) =
      some ((assigner.sweepExpiredEntries clock.instant).2,
        [⟨some (assigner.sweepExpiredEntries clock.instant).1,
          assigner.expiredCount clock.instant⟩]) := by
  have hsize := assigner.size_sweep clock.instant
  have hcount : checkedSub assigner.size (assigner.sweepExpiredEntries clock.instant).2.size =
      some (assigner.sweepExpiredEntries clock.instant).1 := by
    rw [checkedSub_eq_some, assigner.sweepExpiredEntries_fst]
    omega
  rw [← hcount]
  rfl

/-- One new user between the two sizes: nothing expired and the subtraction underflows; or one
entry expired, is removed, and the count is 0. -/
theorem sweep_miscounts :
    (run step (start ownerAssigner ⟨0, 0⟩)
      [.count, .retain, .call (.assign ⟨"bob", 9⟩), .call (.resolve 0 (answerUser "43")),
        .finish]).map returned = some [⟨none, 0⟩] ∧
    (run step (start (cachedOwner "alice") ⟨0, 0⟩)
      [.call (.assign ⟨"bob", 9⟩), .call (.advance ⟨1, 3600000000000⟩), .count, .retain,
        .call (.resolve 0 (answerUser "43")), .finish]).map returned = some [⟨some 0, 1⟩] ∧
    ¬Always step CountsExact (start ownerAssigner ⟨0, 0⟩)
      [.count, .retain, .call (.assign ⟨"bob", 9⟩), .call (.resolve 0 (answerUser "43")),
        .finish] := by
  refine ⟨rfl, rfl, ?_⟩
  intro h
  have hend := always_iff.mp h _ [] _ (List.append_nil _).symm rfl
  exact absurd (hend ⟨none, 0⟩ List.mem_cons_self) (by decide)

end Sweeper

end EntitySync.Rules
