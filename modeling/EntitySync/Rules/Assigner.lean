import EntitySync.Rules.RuleSet
import Mathlib.Data.List.Sort
import Mathlib.Data.String.Basic

/-!
# Bucket assignment

`BucketAssigner` resolves the claims of a token to bucket assignments by running the parameter
queries of every rule, and keeps the result in a cache that the router matches rows against.
Postgres is the parameter `db`: what it answers to each query of a call. An assigner carries
the proofs that its rules passed validation and that everything in its cache was resolved from
them.
-/

namespace EntitySync.Rules

open Json (Value)

/-- `std::time::Instant` in nanoseconds since some origin. -/
abbrev Instant := Nat

structure Clock where
  unixSecs : Nat
  instant : Instant

/-- The first column of a parameter query's row, as `sqlx` decodes it. -/
inductive Column where
  | text (s : String)
  | bigint (n : Int)
  | unsupported (error : String)

def Column.toText : Column → Except String String
  | .text s => .ok s
  | .bigint n => .ok (toString n)
  | .unsupported error => .error error

/-- The answers to the queries of one `resolve_rule` call, given the position of the query in
the call, its text and the value bound to `$1`. -/
abbrev Database := Nat → String → String → Except String (Option Column)

structure ResolvedParameters where
  texts : HashMap String String
  json : HashMap String Value

def ResolvedParameters.insert (ps : ResolvedParameters) (name value : String) :
    ResolvedParameters where
  texts := ps.texts.insert name value
  json := ps.json.insert name (.string value)

/-- The parameter loop of `resolve_rule`; `none` when some query returns no row. -/
def resolveParameters (db : Database) (rule : SyncRule) (claims : TokenClaims) :
    Nat → List String → ResolvedParameters → Except SyncError (Option ResolvedParameters)
  | _, [], ps => .ok (some ps)
  | k, name :: names, ps =>
    match rule.parameterQueries.lookup name with
    | none => .error (.bucketAssignmentFailed ("rule '" ++ rule.id ++ "' declares parameter '" ++
        name ++ "' with no parameter_queries entry"))
    | some query =>
      match db k query claims.sub with
      | .error e => .error (.database e)
      | .ok none => .ok none
      | .ok (some column) =>
        match column.toText with
        | .error e => .error (.bucketAssignmentFailed ("rule '" ++ rule.id ++ "' parameter '" ++
            name ++ "' query returned an unsupported column type: " ++ e))
        | .ok value =>
          if validateSafeValue value then
            resolveParameters db rule claims (k + 1) names (ps.insert name value)
          else .error (.bucketAssignmentFailed ("rule '" ++ rule.id ++ "' parameter '" ++ name ++
            "' resolved to a value that failed the safe-value allowlist"))

def renderQueries (ruleId : String) (texts : HashMap String String) :
    List ((_ : String) × String) → HashMap String String →
      Except SyncError (HashMap String String)
  | [], rendered => .ok rendered
  | entry :: entries, rendered =>
    match substitute ruleId entry.2 texts with
    | .error e => .error (.bucketAssignmentFailed e.toText)
    | .ok query => renderQueries ruleId texts entries (rendered.insert entry.1 query)

def sortedEntries (resolved : HashMap String Value) : List ((_ : String) × Value) :=
  resolved.entries.insertionSort fun a b => a.1 ≤ b.1

def parameterKey (resolved : HashMap String Value) : String :=
  ",".intercalate ((sortedEntries resolved).map fun entry => entry.1 ++ "=" ++ entry.2.toText)

def partitionKey (ruleId : String) (resolved : HashMap String Value) : BucketId :=
  ⟨ruleId ++ ":" ++ parameterKey resolved⟩

def resolveRule (db : Database) (rule : SyncRule) (claims : TokenClaims) :
    Except SyncError (Option BucketAssignment) :=
  match resolveParameters db rule claims 0 rule.parameters ⟨∅, ∅⟩ with
  | .error e => .error e
  | .ok none => .ok none
  | .ok (some ps) =>
    match renderQueries rule.id ps.texts rule.dataQueries.entries ∅ with
    | .error e => .error e
    | .ok dataQueries =>
      .ok (some {
        bucketId := partitionKey rule.id ps.json
        ruleId := rule.id
        parameters := ps.json
        dataQueries := dataQueries })

/-- Some answers of Postgres make a rule of the set resolve to this assignment. -/
def ResolvedFrom (ruleSet : SyncRuleSet) (a : BucketAssignment) : Prop :=
  ∃ rule ∈ ruleSet.rules.values, ∃ db claims, resolveRule db rule claims = .ok (some a)

def resolveRules (db : String → Database) (claims : TokenClaims) :
    List SyncRule → Except SyncError (List BucketAssignment)
  | [] => .ok []
  | rule :: rules => do
    let resolved ← resolveRule (db rule.id) rule claims
    let others ← resolveRules db claims rules
    return resolved.toList ++ others

theorem resolveRules_resolved {db : String → Database} {claims : TokenClaims}
    {rules : List SyncRule} {as : List BucketAssignment}
    (h : resolveRules db claims rules = .ok as) :
    ∀ a ∈ as, ∃ rule ∈ rules, ∃ db claims, resolveRule db rule claims = .ok (some a) := by
  induction rules generalizing as with
  | nil =>
    cases h
    intro a ha
    cases ha
  | cons rule rules ih =>
    obtain ⟨resolved, hrule, h⟩ := Checks.bind_eq_ok.mp h
    obtain ⟨others, hothers, h⟩ := Checks.bind_eq_ok.mp h
    cases h
    intro a ha
    cases List.mem_append.mp ha with
    | inl ha =>
      rw [Option.mem_toList] at ha
      exact ⟨rule, List.mem_cons_self, db rule.id, claims, by rw [hrule, ha]⟩
    | inr ha =>
      obtain ⟨other, hmem, hother⟩ := ih hothers a ha
      exact ⟨other, List.mem_cons_of_mem _ hmem, hother⟩

theorem mem_resolveRules {db : String → Database} {claims : TokenClaims} {rules : List SyncRule}
    {as : List BucketAssignment} (h : resolveRules db claims rules = .ok as) {rule : SyncRule}
    (hrule : rule ∈ rules) {a : BucketAssignment}
    (ha : resolveRule (db rule.id) rule claims = .ok (some a)) : a ∈ as := by
  induction rules generalizing as with
  | nil => cases hrule
  | cons first rules ih =>
    obtain ⟨resolved, hfirst, h⟩ := Checks.bind_eq_ok.mp h
    obtain ⟨others, hothers, h⟩ := Checks.bind_eq_ok.mp h
    cases h
    cases List.mem_cons.mp hrule with
    | inl heq =>
      rw [← heq, ha, Except.ok.injEq] at hfirst
      simp [← hfirst]
    | inr hrest => exact List.mem_append_right _ (ih hothers hrest)

theorem isOk_resolveRules_iff {db : String → Database} {claims : TokenClaims}
    {rules : List SyncRule} : (resolveRules db claims rules).isOk ↔
      ∀ rule ∈ rules, (resolveRule (db rule.id) rule claims).isOk := by
  induction rules with
  | nil => simp [resolveRules]
  | cons rule rules ih =>
    rw [List.forall_mem_cons, ← ih, resolveRules]
    cases resolveRule (db rule.id) rule claims with
    | error e => simp [bind, Except.bind]
    | ok resolved =>
      cases resolveRules db claims rules with
      | error e => simp [bind, Except.bind]
      | ok others => simp [bind, Except.bind, pure, Except.pure]

structure CacheKey where
  sub : String
  ruleSetVersion : String
deriving DecidableEq

structure BucketAssigner where
  ruleSet : SyncRuleSet
  valid : validate ruleSet = .ok ()
  cache : HashMap CacheKey (List BucketAssignment × Instant)
  resolved : ∀ entry ∈ cache.entries, ∀ a ∈ entry.2.1, ResolvedFrom ruleSet a
  cacheTtl : Nat

namespace BucketAssigner

def new (ruleSet : SyncRuleSet) (cacheTtl : Nat) : Except ParseError BucketAssigner :=
  match h : validate ruleSet with
  | .error e => .error e
  | .ok () => .ok {
      ruleSet := ruleSet
      valid := h
      cache := ∅
      resolved := fun _ hmem => absurd hmem List.not_mem_nil
      cacheTtl := cacheTtl }

def cacheLookup (self : BucketAssigner) (now : Instant) (key : CacheKey) :
    Option (List BucketAssignment) :=
  match self.cache.lookup key with
  | none => none
  | some entry => if now - entry.2 < self.cacheTtl then some entry.1 else none

def checkNotExpired (claims : TokenClaims) (now : Nat) : Except SyncError Unit :=
  if claims.exp ≤ now then
    .error (.authError ("JWT expired: exp=" ++ toString claims.exp ++ ", now=" ++ toString now))
  else .ok ()

def cacheKey (self : BucketAssigner) (claims : TokenClaims) : CacheKey :=
  ⟨claims.sub, self.ruleSet.version⟩

/-- What `assign` does after a cache miss; `now` is when it inserts. -/
def resolve (self : BucketAssigner) (now : Instant) (db : String → Database)
    (claims : TokenClaims) : Except SyncError (List BucketAssignment) × BucketAssigner :=
  match h : resolveRules db claims self.ruleSet.rules.values with
  | .error e => (.error e, self)
  | .ok assignments => (.ok assignments, { self with
      cache := self.cache.insert (self.cacheKey claims) (assignments, now)
      resolved := by
        intro entry hentry a ha
        rw [AList.entries_insert] at hentry
        cases List.mem_cons.mp hentry with
        | inl heq =>
          rw [heq] at ha
          exact resolveRules_resolved h a ha
        | inr hold =>
          exact self.resolved entry ((List.kerase_sublist _ _).subset hold) a ha })

/-- `assign` together with the cache it leaves behind. -/
def assign (self : BucketAssigner) (clock : Clock) (db : String → Database)
    (claims : TokenClaims) : Except SyncError (List BucketAssignment) × BucketAssigner :=
  match checkNotExpired claims clock.unixSecs with
  | .error e => (.error e, self)
  | .ok () =>
    match self.cacheLookup clock.instant (self.cacheKey claims) with
    | some cached => (.ok cached, self)
    | none => self.resolve clock.instant db claims

theorem resolve_cases (self : BucketAssigner) (now : Instant) (db : String → Database)
    (claims : TokenClaims) :
    (∃ e, resolveRules db claims self.ruleSet.rules.values = .error e ∧
      self.resolve now db claims = (.error e, self)) ∨
    ∃ assignments next, resolveRules db claims self.ruleSet.rules.values = .ok assignments ∧
      self.resolve now db claims = (.ok assignments, next) ∧
      next.ruleSet = self.ruleSet ∧ next.cacheTtl = self.cacheTtl ∧
      next.cache = self.cache.insert (self.cacheKey claims) (assignments, now) := by
  rw [resolve]
  split
  next e h => exact .inl ⟨e, h, rfl⟩
  next assignments h => exact .inr ⟨assignments, _, h, rfl, rfl, rfl, rfl⟩

theorem resolve_fst (self : BucketAssigner) (now : Instant) (db : String → Database)
    (claims : TokenClaims) :
    (self.resolve now db claims).1 = resolveRules db claims self.ruleSet.rules.values := by
  rcases self.resolve_cases now db claims with ⟨e, hrules, h⟩ | ⟨assignments, next, hrules, h, _⟩
  · rw [h, hrules]
  · rw [h, hrules]

section
variable {self : BucketAssigner} {clock : Clock} {db : String → Database} {claims : TokenClaims}

theorem assign_of_expired (hexp : claims.exp ≤ clock.unixSecs) :
    ∃ e, self.assign clock db claims = (.error (.authError e), self) := by
  rw [assign, checkNotExpired, if_pos hexp]
  exact ⟨_, rfl⟩

theorem assign_of_hit (hexp : clock.unixSecs < claims.exp) {cached : List BucketAssignment}
    (hhit : self.cacheLookup clock.instant (self.cacheKey claims) = some cached) :
    self.assign clock db claims = (.ok cached, self) := by
  rw [assign, checkNotExpired, if_neg (Nat.not_le.mpr hexp)]
  simp only [hhit]

theorem assign_of_miss (hexp : clock.unixSecs < claims.exp)
    (hmiss : self.cacheLookup clock.instant (self.cacheKey claims) = none) :
    self.assign clock db claims = self.resolve clock.instant db claims := by
  rw [assign, checkNotExpired, if_neg (Nat.not_le.mpr hexp)]
  simp only [hmiss]

theorem mem_entries_of_cacheLookup {now : Instant} {key : CacheKey}
    {cached : List BucketAssignment} (h : self.cacheLookup now key = some cached) :
    ∃ insertedAt, ⟨key, cached, insertedAt⟩ ∈ self.cache.entries := by
  rw [cacheLookup] at h
  split at h
  · cases h
  next entry hentry =>
    split at h
    · cases h
      exact ⟨entry.2, AList.mem_lookup_iff.mp hentry⟩
    · cases h

/-- Whatever `assign` returns, from the cache or not, was resolved from the rules. -/
theorem assign_resolved {as : List BucketAssignment}
    (h : (self.assign clock db claims).1 = .ok as) : ∀ a ∈ as, ResolvedFrom self.ruleSet a := by
  by_cases hexp : claims.exp ≤ clock.unixSecs
  · obtain ⟨e, he⟩ := @assign_of_expired self clock db claims hexp
    rw [he] at h
    cases h
  · cases hlookup : self.cacheLookup clock.instant (self.cacheKey claims) with
    | some cached =>
      rw [assign_of_hit (Nat.lt_of_not_le hexp) hlookup] at h
      cases h
      obtain ⟨insertedAt, hmem⟩ := mem_entries_of_cacheLookup hlookup
      exact self.resolved _ hmem
    | none =>
      rw [assign_of_miss (Nat.lt_of_not_le hexp) hlookup, resolve_fst] at h
      exact resolveRules_resolved h

end

def Resolvable (self : BucketAssigner) (clock : Clock) (db : String → Database)
    (claims : TokenClaims) : Prop :=
  clock.unixSecs < claims.exp ∧
    ((self.cacheLookup clock.instant (self.cacheKey claims)).isSome ∨
      ∀ rule ∈ self.ruleSet.rules.values, (resolveRule (db rule.id) rule claims).isOk)

theorem isOk_assign_iff {self : BucketAssigner} {clock : Clock} {db : String → Database}
    {claims : TokenClaims} :
    (self.assign clock db claims).1.isOk ↔ self.Resolvable clock db claims := by
  rw [Resolvable, ← isOk_resolveRules_iff]
  by_cases hexp : claims.exp ≤ clock.unixSecs
  · obtain ⟨e, he⟩ := @assign_of_expired self clock db claims hexp
    simp [he, Nat.not_lt.mpr hexp]
  · rw [and_iff_right (Nat.lt_of_not_le hexp)]
    cases hlookup : self.cacheLookup clock.instant (self.cacheKey claims) with
    | some cached =>
      rw [assign_of_hit (Nat.lt_of_not_le hexp) hlookup]
      simp
    | none =>
      rw [assign_of_miss (Nat.lt_of_not_le hexp) hlookup, resolve_fst]
      simp

/-- `sweep_expired_entries`: the number of entries it dropped, and the cache without them. -/
def sweepExpiredEntries (self : BucketAssigner) (now : Instant) : Nat × BucketAssigner :=
  let kept := self.cache.retain fun _ entry => decide (now - entry.2 < self.cacheTtl)
  (self.cache.entries.length - kept.entries.length, { self with
    cache := kept
    resolved := fun entry hentry => self.resolved entry (AssocMap.mem_retain.mp hentry).1 })

end BucketAssigner

def jsonScalarsEqual (a b : Value) : Bool :=
  a.eq b || match a, b with
    | .string s, .number n | .number n, .string s => s == n.toText
    | _, _ => false

def rowMatchesAssignment (rowData : Value) (a : BucketAssignment) : Bool :=
  match rowData.asObject with
  | none => false
  | some row => a.parameters.values.any fun param =>
      row.any fun column => jsonScalarsEqual param column.2

/-- The buckets of the live cached assignments that the row matches, in the order in which the
cache is visited and with repetitions. -/
def BucketAssigner.findAffectedBuckets (self : BucketAssigner) (now : Instant)
    (entityType : String) (rowData : Value) : List BucketId :=
  self.cache.entries.flatMap fun entry =>
    if now - entry.2.2 ≥ self.cacheTtl then []
    else (entry.2.1.filter fun a =>
      decide (entityType ∈ a.dataQueries) && rowMatchesAssignment rowData a).map (·.bucketId)

def BucketAssigner.liveAssignments (self : BucketAssigner) (now : Instant) :
    List BucketAssignment :=
  self.cache.entries.flatMap fun entry =>
    if now - entry.2.2 < self.cacheTtl then entry.2.1 else []

theorem BucketAssigner.resolvedFrom_of_live {self : BucketAssigner} {now : Instant}
    {a : BucketAssignment} (h : a ∈ self.liveAssignments now) : ResolvedFrom self.ruleSet a := by
  obtain ⟨entry, hentry, ha⟩ := List.mem_flatMap.mp h
  split at ha
  · exact self.resolved entry hentry a ha
  · cases ha

/-- The router sees the live assignments with a data query for the entity type that match the
row. -/
theorem BucketAssigner.findAffectedBuckets_eq (self : BucketAssigner) (now : Instant)
    (entityType : String) (rowData : Value) :
    self.findAffectedBuckets now entityType rowData =
      ((self.liveAssignments now).filter fun a =>
        decide (entityType ∈ a.dataQueries) && rowMatchesAssignment rowData a).map
        (·.bucketId) := by
  rw [findAffectedBuckets, liveAssignments, List.filter_flatMap, List.map_flatMap]
  apply List.flatMap_congr
  intro entry _
  by_cases hlive : now - entry.2.2 < self.cacheTtl
  · rw [if_pos hlive, if_neg (Nat.not_le.mpr hlive)]
  · rw [if_neg hlive, if_pos (Nat.le_of_not_lt hlive)]
    rfl

theorem BucketAssigner.mem_findAffectedBuckets {self : BucketAssigner} {now : Instant}
    {entityType : String} {rowData : Value} {b : BucketId} :
    b ∈ self.findAffectedBuckets now entityType rowData ↔
      ∃ a ∈ self.liveAssignments now, entityType ∈ a.dataQueries ∧
        rowMatchesAssignment rowData a = true ∧ a.bucketId = b := by
  rw [findAffectedBuckets_eq]
  simp only [List.mem_map, List.mem_filter, Bool.and_eq_true, decide_eq_true_eq, and_assoc]

def ownerAssigner : BucketAssigner where
  ruleSet := ownerRules
  valid := validate_ownerRules
  cache := ∅
  resolved := fun _ hmem => absurd hmem List.not_mem_nil
  cacheTtl := 3600000000000

def answerUser (user : String) : String → Database := fun _ _ _ _ => .ok (some (.text user))

def ownerAssignment (user : String) : BucketAssignment :=
  let parameters := (∅ : HashMap String Value).insert "user_id" (.string user)
  { bucketId := partitionKey "user_entities" parameters
    ruleId := "user_entities"
    parameters := parameters
    dataQueries := (∅ : HashMap String String).insert "entities"
      ("SELECT * FROM entities WHERE owner_id = '" ++ user ++ "'") }

def cachedOwner (user : String) : BucketAssigner :=
  (ownerAssigner.assign ⟨0, 0⟩ (answerUser user) ⟨user, 1⟩).2

example : (ownerAssigner.assign ⟨0, 0⟩ (answerUser "42") ⟨"alice", 1⟩).1 =
    .ok [ownerAssignment "42"] := rfl

end EntitySync.Rules
