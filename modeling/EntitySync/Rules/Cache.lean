import EntitySync.Library.StepSystem
import EntitySync.Rules.Assigner

/-!
# Runs of the assignment cache

Calls to one `BucketAssigner` in any order, with the clocks moving on and the answers of Postgres
changing in between. An `assign` that misses the cache waits for its queries, so other calls can
come before it inserts what it resolved; the entry's time is that of the insertion.
-/

namespace EntitySync.Rules

open Json (Value)
open StepSystem

namespace BucketAssigner

def liveEntry (self : BucketAssigner) (now : Instant) (key : CacheKey) :
    Option (List BucketAssignment × Instant) :=
  (self.cache.lookup key).filter fun entry => now - entry.2 < self.cacheTtl

theorem cacheLookup_eq (self : BucketAssigner) (now : Instant) (key : CacheKey) :
    self.cacheLookup now key = (self.liveEntry now key).map Prod.fst := by
  rw [cacheLookup, liveEntry]
  cases self.cache.lookup key with
  | none => rfl
  | some entry =>
    by_cases hlive : now - entry.2 < self.cacheTtl
    · simp [Option.filter, hlive]
    · simp [Option.filter, hlive]

theorem liveEntry_eq_some {self : BucketAssigner} {now : Instant} {key : CacheKey}
    {entry : List BucketAssignment × Instant} : self.liveEntry now key = some entry ↔
      self.cache.lookup key = some entry ∧ now - entry.2 < self.cacheTtl := by
  rw [liveEntry, Option.filter_eq_some_iff, decide_eq_true_eq]

theorem liveEntry_later (self : BucketAssigner) {now later : Instant} (h : now ≤ later)
    (key : CacheKey) : self.liveEntry later key =
      (self.liveEntry now key).filter fun entry => later - entry.2 < self.cacheTtl := by
  rw [liveEntry, liveEntry, Option.filter_filter]
  congr 1
  funext entry
  rw [← Bool.decide_and, decide_eq_decide]
  constructor
  · intro hlater
    exact ⟨lt_of_le_of_lt (Nat.sub_le_sub_right h _) hlater, hlater⟩
  · exact And.right

theorem liveEntry_sweep (self : BucketAssigner) (now : Instant) (key : CacheKey) :
    (self.sweepExpiredEntries now).2.liveEntry now key = self.liveEntry now key := by
  rw [liveEntry, sweepExpiredEntries]
  simp only
  rw [AssocMap.lookup_retain, Option.filter_filter, liveEntry]
  simp

/-- The affected buckets depend only on the live entries, up to their order. -/
theorem findAffectedBuckets_perm {a b : BucketAssigner} {now : Instant}
    (hlive : ∀ key, a.liveEntry now key = b.liveEntry now key) (entityType : String)
    (rowData : Value) :
    (a.findAffectedBuckets now entityType rowData).Perm
      (b.findAffectedBuckets now entityType rowData) := by
  have hentries (self : BucketAssigner) : self.liveAssignments now =
      (self.cache.retain fun _ entry => now - entry.2 < self.cacheTtl).entries.flatMap
        fun entry => entry.2.1 := by
    rw [liveAssignments, AssocMap.retain]
    simp only
    induction self.cache.entries with
    | nil => rfl
    | cons entry entries ih =>
      by_cases hentry : now - entry.2.2 < self.cacheTtl
      · rw [List.filter_cons_of_pos (by simp [hentry]), List.flatMap_cons, List.flatMap_cons,
          if_pos hentry, ih]
      · rw [List.filter_cons_of_neg (by simp [hentry]), List.flatMap_cons, if_neg hentry, ih,
          List.nil_append]
  have hperm : (a.liveAssignments now).Perm (b.liveAssignments now) := by
    rw [hentries, hentries]
    apply List.Perm.flatMap_right
    apply AssocMap.entries_perm_of_lookup
    intro key
    rw [AssocMap.lookup_retain, AssocMap.lookup_retain]
    exact hlive key
  rw [findAffectedBuckets_eq, findAffectedBuckets_eq]
  exact (hperm.filter _).map _

theorem liveEntry_insert {self next : BucketAssigner} {key : CacheKey}
    {entry : List BucketAssignment × Instant} (httl : next.cacheTtl = self.cacheTtl)
    (hcache : next.cache = self.cache.insert key entry) (now : Instant) (other : CacheKey) :
    next.liveEntry now other =
      if other = key then (some entry).filter fun e => now - e.2 < self.cacheTtl
      else self.liveEntry now other := by
  rw [liveEntry, liveEntry, httl, hcache]
  split
  next h => rw [h, AList.lookup_insert]
  next h => rw [AList.lookup_insert_ne h]

end BucketAssigner

inductive CallResult where
  | served (key : CacheKey) (assignments : List BucketAssignment) (now : Instant)
  | resolved (key : CacheKey) (assignments : List BucketAssignment) (insertedAt : Instant)
  | failed (claims : TokenClaims) (e : SyncError)
  | affected (buckets : List BucketId)

/-- The assigner, the clocks, the `assign` calls that wait for Postgres, and what the calls have
returned, the newest first. -/
structure Calls where
  assigner : BucketAssigner
  clock : Clock
  pending : List TokenClaims
  results : List CallResult

inductive CallAction where
  | advance (clock : Clock)
  | assign (claims : TokenClaims)
  /-- The queries of a waiting `assign` are answered. -/
  | resolve (i : Nat) (db : String → Database)
  | findAffectedBuckets (entityType : String) (rowData : Value)
  | sweepExpiredEntries

namespace Calls

def start (assigner : BucketAssigner) (clock : Clock) : Calls := ⟨assigner, clock, [], []⟩

def returns (s : Calls) (r : CallResult) : Calls := { s with results := r :: s.results }

def beginAssign (s : Calls) (claims : TokenClaims) : Calls :=
  match BucketAssigner.checkNotExpired claims s.clock.unixSecs with
  | .error e => s.returns (.failed claims e)
  | .ok () =>
    match s.assigner.cacheLookup s.clock.instant (s.assigner.cacheKey claims) with
    | some cached => s.returns (.served (s.assigner.cacheKey claims) cached s.clock.instant)
    | none => { s with pending := s.pending ++ [claims] }

def endAssign (s : Calls) (claims : TokenClaims) (db : String → Database) : Calls :=
  let outcome := s.assigner.resolve s.clock.instant db claims
  { s with assigner := outcome.2 }.returns
    (match outcome.1 with
    | .error e => .failed claims e
    | .ok assignments => .resolved (s.assigner.cacheKey claims) assignments s.clock.instant)

def step (s : Calls) : CallAction → Option Calls
  | .advance clock =>
    if s.clock.unixSecs ≤ clock.unixSecs ∧ s.clock.instant ≤ clock.instant then
      some { s with clock := clock }
    else none
  | .assign claims => some (s.beginAssign claims)
  | .resolve i db =>
    s.pending[i]?.map fun claims =>
      { s with pending := s.pending.eraseIdx i }.endAssign claims db
  | .findAffectedBuckets entityType rowData =>
    some (s.returns (.affected
      (s.assigner.findAffectedBuckets s.clock.instant entityType rowData)))
  | .sweepExpiredEntries =>
    some { s with assigner := (s.assigner.sweepExpiredEntries s.clock.instant).2 }

end Calls

def CallAction.isSweep : CallAction → Bool
  | .sweepExpiredEntries => true
  | _ => false

/-- The same answer; the order in which affected buckets are listed is that of the cache. -/
inductive CallResult.Same : CallResult → CallResult → Prop
  | refl (r : CallResult) : Same r r
  | affected {bs cs : List BucketId} (h : bs.Perm cs) : Same (.affected bs) (.affected cs)

theorem CallResult.same_of_same {rs qs ws : List CallResult} (hr : List.Forall₂ Same rs ws)
    (hq : List.Forall₂ Same qs ws) : List.Forall₂ Same rs qs := by
  induction hr generalizing qs with
  | nil =>
    cases hq
    exact .nil
  | cons hr _ ih =>
    cases hq with
    | cons hq hqs =>
      refine .cons ?_ (ih hqs)
      cases hr with
      | refl =>
        cases hq with
        | refl => exact .refl _
        | affected hperm => exact .affected hperm.symm
      | affected hperm =>
        cases hq with
        | refl => exact .affected hperm
        | affected hperm' => exact .affected (hperm.trans hperm'.symm)

structure Calls.Similar (s t : Calls) : Prop where
  ruleSet : s.assigner.ruleSet = t.assigner.ruleSet
  cacheTtl : s.assigner.cacheTtl = t.assigner.cacheTtl
  clock : s.clock = t.clock
  pending : s.pending = t.pending
  live : ∀ key, s.assigner.liveEntry s.clock.instant key =
    t.assigner.liveEntry s.clock.instant key
  results : List.Forall₂ CallResult.Same s.results t.results

/-- Every answer from the cache was resolved earlier for the same key, and inserted less than the
time to live before. -/
def Fresh (cacheTtl : Nat) : List CallResult → Prop
  | [] => True
  | .served key assignments now :: earlier =>
    (∃ insertedAt, .resolved key assignments insertedAt ∈ earlier ∧ insertedAt ≤ now ∧
      now - insertedAt < cacheTtl) ∧ Fresh cacheTtl earlier
  | _ :: earlier => Fresh cacheTtl earlier

namespace Calls

theorem similar_refl (s : Calls) : s.Similar s where
  ruleSet := rfl
  cacheTtl := rfl
  clock := rfl
  pending := rfl
  live _ := rfl
  results := by
    rw [List.forall₂_same]
    intro r _
    exact .refl r

variable {s t : Calls}

theorem Similar.cacheKey (h : s.Similar t) (claims : TokenClaims) :
    s.assigner.cacheKey claims = t.assigner.cacheKey claims := by
  rw [BucketAssigner.cacheKey, BucketAssigner.cacheKey, h.ruleSet]

theorem Similar.returns (h : s.Similar t) {r q : CallResult} (hr : r.Same q) :
    (s.returns r).Similar (t.returns q) :=
  { h with results := .cons hr h.results }

theorem Similar.beginAssign (h : s.Similar t) (claims : TokenClaims) :
    (s.beginAssign claims).Similar (t.beginAssign claims) := by
  have hlookup : t.assigner.cacheLookup t.clock.instant (t.assigner.cacheKey claims) =
      s.assigner.cacheLookup s.clock.instant (s.assigner.cacheKey claims) := by
    rw [BucketAssigner.cacheLookup_eq, BucketAssigner.cacheLookup_eq, h.live, h.clock, h.cacheKey]
  unfold Calls.beginAssign
  rw [hlookup, ← h.cacheKey, ← h.clock]
  split
  · exact h.returns (.refl _)
  · split
    · exact h.returns (.refl _)
    · exact { h with clock := rfl, pending := congrArg (· ++ [claims]) h.pending }

theorem Similar.insert (h : s.Similar t) {next next' : BucketAssigner} {key : CacheKey}
    {entry : List BucketAssignment × Instant} (hrules : next.ruleSet = s.assigner.ruleSet)
    (hrules' : next'.ruleSet = t.assigner.ruleSet) (httl : next.cacheTtl = s.assigner.cacheTtl)
    (httl' : next'.cacheTtl = t.assigner.cacheTtl)
    (hcache : next.cache = s.assigner.cache.insert key entry)
    (hcache' : next'.cache = t.assigner.cache.insert key entry) :
    { s with assigner := next }.Similar { t with assigner := next' } := by
  refine { h with ruleSet := ?_, cacheTtl := ?_, live := ?_ }
  · exact hrules.trans (h.ruleSet.trans hrules'.symm)
  · exact httl.trans (h.cacheTtl.trans httl'.symm)
  · intro other
    rw [BucketAssigner.liveEntry_insert httl hcache, BucketAssigner.liveEntry_insert httl' hcache',
      h.live, h.cacheTtl]

theorem endAssign_cases (s : Calls) (claims : TokenClaims) (db : String → Database) :
    (∃ e, resolveRules db claims s.assigner.ruleSet.rules.values = .error e ∧
      s.endAssign claims db = s.returns (.failed claims e)) ∨
    ∃ assignments next, resolveRules db claims s.assigner.ruleSet.rules.values = .ok assignments ∧
      s.endAssign claims db = { s with assigner := next }.returns
        (.resolved (s.assigner.cacheKey claims) assignments s.clock.instant) ∧
      next.ruleSet = s.assigner.ruleSet ∧ next.cacheTtl = s.assigner.cacheTtl ∧
      next.cache = s.assigner.cache.insert (s.assigner.cacheKey claims)
        (assignments, s.clock.instant) := by
  rw [endAssign]
  rcases s.assigner.resolve_cases s.clock.instant db claims with
    ⟨e, hrules, hres⟩ | ⟨as, next, hrules, hres, hnext⟩
  · exact .inl ⟨e, hrules, by rw [hres]⟩
  · exact .inr ⟨as, next, hrules, by rw [hres], hnext⟩

theorem Similar.endAssign (h : s.Similar t) (claims : TokenClaims) (db : String → Database) :
    (s.endAssign claims db).Similar (t.endAssign claims db) := by
  -- Both assigners run the rules of one rule set against the same answers.
  rcases s.endAssign_cases claims db with
    ⟨e, hs, hend⟩ | ⟨as, next, hs, hend, hrules, httl, hcache⟩ <;>
  rcases t.endAssign_cases claims db with
    ⟨e', ht, hend'⟩ | ⟨as', next', ht, hend', hrules', httl', hcache'⟩ <;>
  rw [h.ruleSet, ht] at hs <;> cases hs <;> rw [hend, hend']
  · exact h.returns (.refl _)
  · rw [← h.cacheKey, ← h.clock] at hcache'
    refine (h.insert hrules hrules' httl httl' hcache hcache').returns ?_
    rw [h.cacheKey, h.clock]
    exact .refl _

theorem Similar.advance (h : s.Similar t) {clock : Clock}
    (hle : s.clock.instant ≤ clock.instant) :
    { s with clock := clock }.Similar { t with clock := clock } := by
  refine { h with clock := rfl, live := ?_ }
  intro key
  simp only
  rw [s.assigner.liveEntry_later hle, t.assigner.liveEntry_later hle, h.live, h.cacheTtl]

theorem Similar.step (h : s.Similar t) (a : CallAction) (ha : a.isSweep = false) :
    Option.Rel Similar (s.step a) (t.step a) := by
  cases a with
  | advance clock =>
    simp only [Calls.step, ← h.clock]
    split
    next hle => exact .some (h.advance hle.2)
    next => exact .none
  | assign claims => exact .some (h.beginAssign claims)
  | resolve i db =>
    simp only [Calls.step, ← h.pending]
    cases s.pending[i]? with
    | none => exact .none
    | some claims =>
      refine .some (Similar.endAssign ?_ claims db)
      exact { h with pending := rfl }
  | findAffectedBuckets entityType rowData =>
    refine .some (h.returns (.affected ?_))
    rw [← h.clock]
    exact BucketAssigner.findAffectedBuckets_perm h.live entityType rowData
  | sweepExpiredEntries => cases ha

theorem Similar.sweep (h : s.Similar t) :
    { s with assigner := (s.assigner.sweepExpiredEntries s.clock.instant).2 }.Similar t := by
  refine { h with live := ?_ }
  intro key
  rw [← h.live]
  exact s.assigner.liveEntry_sweep s.clock.instant key

/-- Sweeps can be left out of a run. -/
theorem similar_run_filter (h : s.Similar t) (as : List CallAction) :
    Option.Rel Similar (run step s as) (run step t (as.filter (!·.isSweep))) := by
  refine rel_run_filter ?_ ?_ h as
  · intro s t a ha h
    cases a with
    | sweepExpiredEntries => exact ⟨_, rfl, h.sweep⟩
    | advance | assign | resolve | findAffectedBuckets => cases ha
  · intro s t a ha h
    exact h.step a (by simpa using ha)

/-- What is in the cache was resolved earlier, and nothing in it is from the future. -/
structure Recorded (cacheTtl : Nat) (s : Calls) : Prop where
  ttl : s.assigner.cacheTtl = cacheTtl
  cached : ∀ key entry, s.assigner.cache.lookup key = some entry →
    .resolved key entry.1 entry.2 ∈ s.results ∧ entry.2 ≤ s.clock.instant
  fresh : Fresh cacheTtl s.results

variable {cacheTtl : Nat}

theorem Recorded.returns (h : s.Recorded cacheTtl) {r : CallResult}
    (hr : Fresh cacheTtl s.results → Fresh cacheTtl (r :: s.results)) :
    (s.returns r).Recorded cacheTtl where
  ttl := h.ttl
  cached key entry hentry :=
    ⟨List.mem_cons_of_mem _ (h.cached key entry hentry).1, (h.cached key entry hentry).2⟩
  fresh := hr h.fresh

theorem Recorded.beginAssign (h : s.Recorded cacheTtl) (claims : TokenClaims) :
    (s.beginAssign claims).Recorded cacheTtl := by
  unfold Calls.beginAssign
  split
  · exact h.returns id
  · split
    next cached hcached =>
      rw [BucketAssigner.cacheLookup_eq, Option.map_eq_some_iff] at hcached
      obtain ⟨entry, hentry, rfl⟩ := hcached
      obtain ⟨hlookup, hlive⟩ := BucketAssigner.liveEntry_eq_some.mp hentry
      have hcached := h.cached _ entry hlookup
      rw [h.ttl] at hlive
      exact h.returns fun hfresh => ⟨⟨entry.2, hcached.1, hcached.2, hlive⟩, hfresh⟩
    next => exact { h with }

theorem Recorded.endAssign (h : s.Recorded cacheTtl) (claims : TokenClaims)
    (db : String → Database) : (s.endAssign claims db).Recorded cacheTtl := by
  rcases s.endAssign_cases claims db with
    ⟨e, hs, hend⟩ | ⟨as, next, hs, hend, hrules, httl, hcache⟩
  · rw [hend]
    exact h.returns id
  · rw [hend]
    refine ⟨httl.trans h.ttl, ?_, h.fresh⟩
    intro key entry hentry
    simp only [Calls.returns, hcache] at hentry ⊢
    by_cases hkey : key = s.assigner.cacheKey claims
    · rw [hkey, AList.lookup_insert] at hentry
      cases hentry
      rw [hkey]
      exact ⟨List.mem_cons_self, le_rfl⟩
    · rw [AList.lookup_insert_ne hkey] at hentry
      have hold := h.cached key entry hentry
      exact ⟨List.mem_cons_of_mem _ hold.1, hold.2⟩

theorem Recorded.step {a : CallAction} (h : s.Recorded cacheTtl) (hstep : s.step a = some t) :
    t.Recorded cacheTtl := by
  cases a with
  | advance clock =>
    simp only [Calls.step, Option.ite_none_right_eq_some, Option.some.injEq] at hstep
    obtain ⟨hle, rfl⟩ := hstep
    refine { h with cached := ?_ }
    intro key entry hentry
    have hold := h.cached key entry hentry
    exact ⟨hold.1, hold.2.trans hle.2⟩
  | assign claims =>
    cases hstep
    exact h.beginAssign claims
  | resolve i db =>
    obtain ⟨claims, hclaims, rfl⟩ := Option.map_eq_some_iff.mp hstep
    apply Recorded.endAssign
    exact { h with }
  | findAffectedBuckets entityType rowData =>
    cases hstep
    exact h.returns id
  | sweepExpiredEntries =>
    cases hstep
    refine { h with cached := ?_ }
    intro key entry hentry
    simp only [BucketAssigner.sweepExpiredEntries, AssocMap.lookup_retain,
      Option.filter_eq_some_iff] at hentry
    exact h.cached key entry hentry.1

theorem recorded_start {ruleSet : SyncRuleSet} {assigner : BucketAssigner}
    (hnew : BucketAssigner.new ruleSet cacheTtl = .ok assigner) (clock : Clock) :
    (start assigner clock).Recorded cacheTtl := by
  rw [BucketAssigner.new] at hnew
  split at hnew
  · cases hnew
  · cases hnew
    refine ⟨rfl, ?_, trivial⟩
    intro key entry hentry
    cases hentry

theorem assigner_of_failed {i : Nat} {db : String → Database} {claims : TokenClaims}
    {e : SyncError} (hstep : s.step (.resolve i db) = some t)
    (hfailed : t.results = .failed claims e :: s.results) : t.assigner = s.assigner := by
  obtain ⟨waiting, hwaiting, rfl⟩ := Option.map_eq_some_iff.mp hstep
  rcases endAssign_cases { s with pending := s.pending.eraseIdx i } waiting db with
    ⟨e, hs, hend⟩ | ⟨as, next, hs, hend, hnext⟩
  · rw [hend]
    rfl
  · rw [hend] at hfailed
    cases hfailed

theorem assigner_beginAssign (s : Calls) (claims : TokenClaims) :
    (s.beginAssign claims).assigner = s.assigner := by
  unfold beginAssign
  split
  · rfl
  · split <;> rfl

theorem beginAssign_of_expired {claims : TokenClaims} (h : claims.exp ≤ s.clock.unixSecs) :
    s.beginAssign claims = s.returns (.failed claims (.authError ("JWT expired: exp=" ++
      toString claims.exp ++ ", now=" ++ toString s.clock.unixSecs))) := by
  rw [beginAssign, BucketAssigner.checkNotExpired, if_pos h]

/-- Sweeps change no answer of any run, an answer from the cache was resolved for the same key
less than the time to live before, expired claims fail whatever is cached, and an `assign` that
fails leaves the cache alone. -/
theorem cache_transparent_and_fresh {ruleSet : SyncRuleSet} {assigner : BucketAssigner}
    (hnew : BucketAssigner.new ruleSet cacheTtl = .ok assigner) (clock : Clock) :
    (∀ as bs : List CallAction, as.filter (!·.isSweep) = bs.filter (!·.isSweep) →
      Option.Rel (fun t u => List.Forall₂ CallResult.Same t.results u.results)
        (run step (start assigner clock) as) (run step (start assigner clock) bs)) ∧
    ∀ (as : List CallAction) (t : Calls), run step (start assigner clock) as = some t →
      Fresh cacheTtl t.results ∧
      (∀ claims, claims.exp ≤ t.clock.unixSecs → ∃ message,
        t.step (.assign claims) = some (t.returns (.failed claims (.authError message)))) ∧
      (∀ claims u, t.step (.assign claims) = some u → u.assigner = t.assigner) ∧
      ∀ i db claims e u, t.step (.resolve i db) = some u →
        u.results = .failed claims e :: t.results → u.assigner = t.assigner := by
  constructor
  · intro as bs hfilter
    have has := similar_run_filter (similar_refl (start assigner clock)) as
    have hbs := similar_run_filter (similar_refl (start assigner clock)) bs
    rw [← hfilter] at hbs
    generalize run step (start assigner clock) as = t at has
    generalize run step (start assigner clock) bs = u at hbs
    generalize run step (start assigner clock) (as.filter _) = v at has hbs
    cases has with
    | none =>
      cases hbs
      exact .none
    | some h =>
      cases hbs with
      | some h' => exact .some (CallResult.same_of_same h.results h'.results)
  · intro as t hr
    have hrun := run_invariant (fun _ _ _ => Recorded.step) (recorded_start hnew clock) hr
    refine ⟨hrun.fresh, ?_, ?_, ?_⟩
    · intro claims hexp
      exact ⟨_, congrArg some (beginAssign_of_expired hexp)⟩
    · intro claims u hu
      cases hu
      exact t.assigner_beginAssign claims
    · intro i db claims e u hu hfailed
      exact assigner_of_failed hu hfailed

theorem new_ownerRules : BucketAssigner.new ownerRules 3600000000000 = .ok ownerAssigner := by
  rw [BucketAssigner.new]
  split
  next h =>
    rw [validate_ownerRules] at h
    cases h
  next => rfl

/-- Two calls for one user, with a sweep in between or without it. -/
theorem owner_answers_with_and_without_sweep :
    BucketAssigner.new ownerRules 3600000000000 = .ok ownerAssigner ∧
    Option.Rel (fun t u => List.Forall₂ CallResult.Same t.results u.results)
      (run step (start ownerAssigner ⟨0, 0⟩) [.assign ⟨"alice", 9⟩, .resolve 0 (answerUser "42"),
        .advance ⟨5, 5000000000⟩, .sweepExpiredEntries, .assign ⟨"alice", 9⟩])
      (run step (start ownerAssigner ⟨0, 0⟩) [.assign ⟨"alice", 9⟩, .resolve 0 (answerUser "42"),
        .advance ⟨5, 5000000000⟩, .assign ⟨"alice", 9⟩]) :=
  ⟨new_ownerRules, (cache_transparent_and_fresh new_ownerRules ⟨0, 0⟩).1 _ _ rfl⟩

end Calls

end EntitySync.Rules
