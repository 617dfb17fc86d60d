import EntitySync.Rules.Resolution

/-!
# The SQL that bucket assignment executes

`assign` again, together with the statements it sends to Postgres: their texts and the values bound
to their placeholders. Dropping the statements gives `assign` back.
-/

namespace EntitySync.Rules

/-- `sqlx::query(text)` with its bound values. -/
structure Statement where
  text : String
  bound : List String
deriving DecidableEq

abbrev Traced (α : Type) := List Statement × Except SyncError α

namespace Traced

def Alike {α : Type} (x y : Traced α) : Prop :=
  x.1.map Statement.text = y.1.map Statement.text ∧ x.2 = y.2

def andThen {α β : Type} (x : Traced α) (f : α → Traced β) : Traced β :=
  match x.2 with
  | .error e => (x.1, .error e)
  | .ok a => (x.1 ++ (f a).1, (f a).2)

theorem Alike.refl {α : Type} (x : Traced α) : x.Alike x := ⟨rfl, rfl⟩

theorem Alike.andThen {α β : Type} {x y : Traced α} (h : x.Alike y) {f g : α → Traced β}
    (hfg : ∀ a, (f a).Alike (g a)) : (x.andThen f).Alike (y.andThen g) := by
  rw [Traced.andThen, Traced.andThen, ← h.2]
  cases x.2 with
  | error e => exact ⟨h.1, rfl⟩
  | ok a => exact ⟨by simp [h.1, (hfg a).1], (hfg a).2⟩

theorem snd_andThen {α β : Type} (x : Traced α) (f : α → Traced β) :
    (x.andThen f).2 = x.2 >>= fun a => (f a).2 := by
  rw [andThen]
  cases x.2 with
  | error e => rfl
  | ok a => rfl

theorem forall_mem_andThen {α β : Type} {x : Traced α} {f : α → Traced β} {p : Statement → Prop}
    (hx : ∀ s ∈ x.1, p s) (hf : ∀ a, ∀ s ∈ (f a).1, p s) : ∀ s ∈ (x.andThen f).1, p s := by
  rw [andThen]
  cases x.2 with
  | error e => exact hx
  | ok a =>
    intro s hs
    cases List.mem_append.mp hs with
    | inl hmem => exact hx s hmem
    | inr hmem => exact hf a s hmem

end Traced

def checkedText (rule : SyncRule) (name : String) (column : Column) : Except SyncError String :=
  match column.toText with
  | .error e => .error (.bucketAssignmentFailed ("rule '" ++ rule.id ++ "' parameter '" ++
      name ++ "' query returned an unsupported column type: " ++ e))
  | .ok value =>
    if validateSafeValue value then .ok value
    else .error (.bucketAssignmentFailed ("rule '" ++ rule.id ++ "' parameter '" ++ name ++
      "' resolved to a value that failed the safe-value allowlist"))

/-- The parameter loop of `resolve_rule`; `.bind(&claims.sub)` is its only bound value. -/
def tracedParameters (db : Database) (rule : SyncRule) (claims : TokenClaims) :
    Nat → List String → ResolvedParameters → Traced (Option ResolvedParameters)
  | _, [], ps => ([], .ok (some ps))
  | k, name :: names, ps =>
    match rule.parameterQueries.lookup name with
    | none => ([], .error (.bucketAssignmentFailed ("rule '" ++ rule.id ++
        "' declares parameter '" ++ name ++ "' with no parameter_queries entry")))
    | some query =>
      Traced.andThen ([⟨query, [claims.sub]⟩], (db k query claims.sub).mapError .database)
        fun row => match row with
          | none => ([], .ok none)
          | some column => Traced.andThen ([], checkedText rule name column) fun value =>
              tracedParameters db rule claims (k + 1) names (ps.insert name value)

def tracedRule (db : Database) (rule : SyncRule) (claims : TokenClaims) :
    Traced (Option BucketAssignment) :=
  (tracedParameters db rule claims 0 rule.parameters ⟨∅, ∅⟩).andThen fun resolved =>
    ([], match resolved with
      | none => .ok none
      | some ps => (renderQueries rule.id ps.texts rule.dataQueries.entries ∅).map fun queries =>
          some ⟨partitionKey rule.id ps.json, rule.id, ps.json, queries⟩)

def tracedRules (db : String → Database) (claims : TokenClaims) :
    List SyncRule → Traced (List BucketAssignment)
  | [] => ([], .ok [])
  | rule :: rules =>
    (tracedRule (db rule.id) rule claims).andThen fun resolved =>
      (tracedRules db claims rules).andThen fun others => ([], .ok (resolved.toList ++ others))

/-- `assign`; claims that are expired or cached send nothing. -/
def BucketAssigner.tracedAssign (self : BucketAssigner) (clock : Clock) (db : String → Database)
    (claims : TokenClaims) : Traced (List BucketAssignment) :=
  if claims.exp ≤ clock.unixSecs then
    ([], .error (.authError ("JWT expired: exp=" ++ toString claims.exp ++ ", now=" ++
      toString clock.unixSecs)))
  else
    match self.cacheLookup clock.instant ⟨claims.sub, self.ruleSet.version⟩ with
    | some cached => ([], .ok cached)
    | none => tracedRules db claims self.ruleSet.rules.values

/-! ## Without the statements -/

theorem snd_tracedParameters {db : Database} {rule : SyncRule} {claims : TokenClaims} {k : Nat}
    {names : List String} {ps : ResolvedParameters} :
    (tracedParameters db rule claims k names ps).2 =
      resolveParameters db rule claims k names ps := by
  induction names generalizing k ps with
  | nil => rfl
  | cons name names ih =>
    rw [tracedParameters, resolveParameters]
    cases rule.parameterQueries.lookup name with
    | none => rfl
    | some query =>
      simp only [Traced.snd_andThen]
      cases db k query claims.sub with
      | error e => rfl
      | ok row =>
        cases row with
        | none => rfl
        | some column =>
          change (Traced.andThen _ _).2 = _
          simp only [Traced.snd_andThen, checkedText]
          cases column.toText with
          | error e => rfl
          | ok value =>
            cases hsafe : validateSafeValue value with
            | false => simp [hsafe, bind, Except.bind]
            | true => simpa [hsafe, bind, Except.bind] using ih

theorem snd_tracedRule {db : Database} {rule : SyncRule} {claims : TokenClaims} :
    (tracedRule db rule claims).2 = resolveRule db rule claims := by
  rw [tracedRule, Traced.snd_andThen, snd_tracedParameters, resolveRule]
  cases resolveParameters db rule claims 0 rule.parameters ⟨∅, ∅⟩ with
  | error e => rfl
  | ok resolved =>
    cases resolved with
    | none => rfl
    | some ps =>
      change Except.map _ (renderQueries rule.id ps.texts rule.dataQueries.entries ∅) = _
      cases hqueries : renderQueries rule.id ps.texts rule.dataQueries.entries ∅ with
      | error e => simp [hqueries, Except.map]
      | ok queries => simp [hqueries, Except.map]

theorem snd_tracedRules {db : String → Database} {claims : TokenClaims} {rules : List SyncRule} :
    (tracedRules db claims rules).2 = resolveRules db claims rules := by
  induction rules with
  | nil => rfl
  | cons rule rules ih =>
    rw [tracedRules, Traced.snd_andThen, snd_tracedRule, resolveRules]
    cases resolveRule (db rule.id) rule claims with
    | error e => rfl
    | ok resolved =>
      change (Traced.andThen _ _).2 = _
      rw [Traced.snd_andThen, ih]
      rfl

/-- The statements are those of `assign`. -/
theorem BucketAssigner.snd_tracedAssign {self : BucketAssigner} {clock : Clock}
    {db : String → Database} {claims : TokenClaims} :
    (self.tracedAssign clock db claims).2 = (self.assign clock db claims).1 := by
  rw [tracedAssign]
  by_cases hexp : claims.exp ≤ clock.unixSecs
  · rw [if_pos hexp, assign, checkNotExpired, if_pos hexp]
  · rw [if_neg hexp]
    cases hcached : self.cacheLookup clock.instant ⟨claims.sub, self.ruleSet.version⟩ with
    | none => rw [snd_tracedRules, assign_of_miss (Nat.lt_of_not_le hexp) hcached, resolve_fst]
    | some cached => rw [assign_of_hit (Nat.lt_of_not_le hexp) hcached]

/-! ## Two subjects -/

section
variable {claims claims' : TokenClaims}

theorem alike_tracedParameters {db : Database} {rule : SyncRule}
    (hdb : ∀ name query, rule.parameterQueries.lookup name = some query →
      ∀ k, db k query claims.sub = db k query claims'.sub)
    (k : Nat) (names : List String) (ps : ResolvedParameters) :
    (tracedParameters db rule claims k names ps).Alike
      (tracedParameters db rule claims' k names ps) := by
  induction names generalizing k ps with
  | nil => exact Traced.Alike.refl _
  | cons name names ih =>
    rw [tracedParameters, tracedParameters]
    cases hquery : rule.parameterQueries.lookup name with
    | none => exact Traced.Alike.refl _
    | some query =>
      simp only [← hdb name query hquery k]
      apply Traced.Alike.andThen
      · exact ⟨rfl, rfl⟩
      · intro row
        cases row with
        | none => exact Traced.Alike.refl _
        | some column =>
          apply Traced.Alike.andThen (Traced.Alike.refl _)
          intro value
          exact ih (k + 1) (ps.insert name value)

theorem alike_tracedRules {db : String → Database} {rules : List SyncRule}
    (hdb : ∀ rule ∈ rules, ∀ name query, rule.parameterQueries.lookup name = some query →
      ∀ k, db rule.id k query claims.sub = db rule.id k query claims'.sub) :
    (tracedRules db claims rules).Alike (tracedRules db claims' rules) := by
  induction rules with
  | nil => exact Traced.Alike.refl _
  | cons rule rules ih =>
    have hrule : (tracedRule (db rule.id) rule claims).Alike
        (tracedRule (db rule.id) rule claims') :=
      (alike_tracedParameters (hdb rule List.mem_cons_self) 0 _ _).andThen
        fun _ => Traced.Alike.refl _
    have hrest := ih fun other hother => hdb other (List.mem_cons_of_mem _ hother)
    exact hrule.andThen fun _ => hrest.andThen fun _ => Traced.Alike.refl _

/-- A statement of `assign`: a parameter query as the rule has it, with only the subject bound. -/
structure ParameterStatement (rules : List SyncRule) (sub : String) (s : Statement) : Prop where
  text : ∃ rule ∈ rules, s.text ∈ rule.parameterQueries.values
  bound : s.bound = [sub]

theorem parameterStatement_tracedParameters {rules : List SyncRule} {rule : SyncRule}
    (hrule : rule ∈ rules) (db : Database) (k : Nat) (names : List String)
    (ps : ResolvedParameters) :
    ∀ s ∈ (tracedParameters db rule claims k names ps).1,
      ParameterStatement rules claims.sub s := by
  induction names generalizing k ps with
  | nil => simp [tracedParameters]
  | cons name names ih =>
    rw [tracedParameters]
    cases hquery : rule.parameterQueries.lookup name with
    | none => simp
    | some query =>
      apply Traced.forall_mem_andThen
      · intro s hs
        rw [List.mem_singleton.mp hs]
        exact ⟨⟨rule, hrule, AssocMap.mem_values_of_lookup hquery⟩, rfl⟩
      · intro row
        cases row with
        | none => simp
        | some column =>
          have hnone : ∀ s ∈ ([] : List Statement), ParameterStatement rules claims.sub s := by simp
          exact Traced.forall_mem_andThen hnone fun value => ih (k + 1) (ps.insert name value)

theorem parameterStatement_tracedRules {rules all : List SyncRule} (hrules : rules ⊆ all)
    (db : String → Database) :
    ∀ s ∈ (tracedRules db claims rules).1, ParameterStatement all claims.sub s := by
  induction rules with
  | nil => simp [tracedRules]
  | cons rule rules ih =>
    obtain ⟨hrule, hrest⟩ := List.cons_subset.mp hrules
    rw [tracedRules]
    apply Traced.forall_mem_andThen
    · apply Traced.forall_mem_andThen
      · exact parameterStatement_tracedParameters hrule _ _ _ _
      · simp
    · intro resolved
      exact Traced.forall_mem_andThen (ih hrest) (by simp)

end

/-- The subject never enters the text of a statement: for claims that differ only in it and to
which Postgres gives the same rows, `assign` executes the same texts on a cache miss and returns
the same assignments. Every statement is a parameter query of the rules as it stands there, with
the subject as its only bound value. -/
theorem assign_independent_of_sub {self : BucketAssigner} {clock : Clock}
    {db : String → Database} {claims claims' : TokenClaims} (hexp : claims.exp = claims'.exp)
    (hmiss : self.cacheLookup clock.instant ⟨claims.sub, self.ruleSet.version⟩ = none)
    (hmiss' : self.cacheLookup clock.instant ⟨claims'.sub, self.ruleSet.version⟩ = none)
    (hdb : ∀ rule ∈ self.ruleSet.rules.values, ∀ name query,
      rule.parameterQueries.lookup name = some query →
        ∀ k, db rule.id k query claims.sub = db rule.id k query claims'.sub) :
    (self.tracedAssign clock db claims).1.map Statement.text =
      (self.tracedAssign clock db claims').1.map Statement.text ∧
    (self.assign clock db claims).1 = (self.assign clock db claims').1 ∧
    ∀ s ∈ (self.tracedAssign clock db claims).1,
      ParameterStatement self.ruleSet.rules.values claims.sub s := by
  have halike : (self.tracedAssign clock db claims).Alike (self.tracedAssign clock db claims') := by
    simp only [BucketAssigner.tracedAssign, hmiss, hmiss', ← hexp]
    split
    · exact Traced.Alike.refl _
    · exact alike_tracedRules hdb
  refine ⟨halike.1, ?_, ?_⟩
  · rw [← BucketAssigner.snd_tracedAssign, ← BucketAssigner.snd_tracedAssign]
    exact halike.2
  · simp only [BucketAssigner.tracedAssign, hmiss]
    split
    · simp
    · exact parameterStatement_tracedRules (List.Subset.refl _) db

/-- A subject that looks like SQL is bound, and the text stays that of the rule. -/
theorem assign_independent_of_sub_quote :
    (ownerAssigner.tracedAssign ⟨0, 0⟩ (answerUser "42") ⟨"alice", 1⟩).1 =
      [⟨"SELECT id FROM users WHERE auth_user_id = $1", ["alice"]⟩] ∧
    (ownerAssigner.tracedAssign ⟨0, 0⟩ (answerUser "42") ⟨"'; DROP TABLE users; --", 1⟩).1.map
      Statement.text = ["SELECT id FROM users WHERE auth_user_id = $1"] := by
  have hsame := @assign_independent_of_sub ownerAssigner ⟨0, 0⟩ (answerUser "42") ⟨"alice", 1⟩
    ⟨"'; DROP TABLE users; --", 1⟩ rfl rfl rfl fun _ _ _ _ _ _ => rfl
  exact ⟨rfl, hsame.1.symm⟩

end EntitySync.Rules
