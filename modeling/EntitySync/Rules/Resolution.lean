import EntitySync.Rules.BucketKey
import EntitySync.Rules.Substitution

/-!
# Resolution of accepted rules

What validation promises to `resolve_rule`: every declared parameter has a query and every
reference of a data query is a declared parameter. So the errors that are left come from Postgres.
-/

namespace EntitySync.Rules

open Json (Value)

/-- Each parameter query that the rule runs returns at most one row, with a column of a supported
type and a safe value. The queries are numbered by the position of their parameter. -/
def AnswersSafely (db : Database) (rule : SyncRule) (sub : String) : Prop :=
  ∀ k name query, rule.parameters[k]? = some name →
    rule.parameterQueries.lookup name = some query →
      db k query sub = .ok none ∨ ∃ column value, db k query sub = .ok (some column) ∧
        column.toText = .ok value ∧ validateSafeValue value = true

def NoRow (db : Database) (rule : SyncRule) (sub : String) : Prop :=
  ∃ k name query, rule.parameters[k]? = some name ∧
    rule.parameterQueries.lookup name = some query ∧ db k query sub = .ok none

/-- The loop over the parameters `names` from the `k`-th on: it stops without an assignment at the
first query without a row, or it gets through. -/
theorem resolveParameters_cases {db : Database} {rule : SyncRule} {claims : TokenClaims}
    {names : List String} {k : Nat}
    (hquery : ∀ name ∈ names, name ∈ rule.parameterQueries)
    (hdb : ∀ i name query, names[i]? = some name →
      rule.parameterQueries.lookup name = some query →
        db (k + i) query claims.sub = .ok none ∨ ∃ column value,
          db (k + i) query claims.sub = .ok (some column) ∧ column.toText = .ok value ∧
            validateSafeValue value = true) (ps : ResolvedParameters) :
    (resolveParameters db rule claims k names ps = .ok none ∧ ∃ i name query,
      names[i]? = some name ∧ rule.parameterQueries.lookup name = some query ∧
        db (k + i) query claims.sub = .ok none) ∨
    (∃ qs, resolveParameters db rule claims k names ps = .ok (some qs)) ∧
      ∀ i name query, names[i]? = some name → rule.parameterQueries.lookup name = some query →
        db (k + i) query claims.sub ≠ .ok none := by
  induction names generalizing k ps with
  | nil => exact Or.inr ⟨⟨ps, rfl⟩, by simp⟩
  | cons name names ih =>
    obtain ⟨query, hlookup⟩ := Option.isSome_iff_exists.mp
      (AList.lookup_isSome.mpr (hquery name List.mem_cons_self))
    have hnext (i : Nat) : k + 1 + i = k + (i + 1) := by omega
    obtain hnone | ⟨column, value, hrow, htext, hsafe⟩ := hdb 0 name query rfl hlookup
    · left
      refine ⟨?_, 0, name, query, rfl, hlookup, hnone⟩
      simp only [Nat.add_zero] at hnone
      simp [resolveParameters, hlookup, hnone]
    · have hloop : resolveParameters db rule claims k (name :: names) ps =
          resolveParameters db rule claims (k + 1) names (ps.insert name value) := by
        simp only [Nat.add_zero] at hrow
        simp [resolveParameters, hlookup, hrow, htext, hsafe]
      have hrest := ih (k := k + 1) (fun other hmem => hquery other (List.mem_cons_of_mem _ hmem))
        (fun i other q hother hq => by
          rw [hnext]
          exact hdb (i + 1) other q hother hq) (ps.insert name value)
      simp only [hnext] at hrest
      rw [hloop]
      obtain ⟨hstop, i, other, q, hother, hq, hempty⟩ | ⟨hthrough, hrows⟩ := hrest
      · exact Or.inl ⟨hstop, i + 1, other, q, hother, hq, hempty⟩
      · refine Or.inr ⟨hthrough, ?_⟩
        intro i other q hother hq
        cases i with
        | zero =>
          obtain rfl : name = other := by simpa using hother
          rw [hlookup, Option.some.injEq] at hq
          rw [← hq, hrow]
          simp
        | succ i => exact hrows i other q hother hq

theorem renderQueries_of_isOk {ruleId : String} {texts : HashMap String String}
    {entries : List ((_ : String) × String)} (hkeys : entries.NodupKeys)
    (hok : ∀ e ∈ entries, (substitute ruleId e.2 texts).isOk) (rendered : HashMap String String) :
    ∃ queries, renderQueries ruleId texts entries rendered = .ok queries ∧
      ∀ name text, queries.lookup name = some text ↔
        (∃ query, ⟨name, query⟩ ∈ entries ∧ substitute ruleId query texts = .ok text) ∨
          name ∉ entries.keys ∧ rendered.lookup name = some text := by
  induction entries generalizing rendered with
  | nil => exact ⟨rendered, rfl, by simp⟩
  | cons e entries ih =>
    obtain ⟨hfresh, hkeys⟩ := List.nodupKeys_cons.mp hkeys
    have hhead := hok e List.mem_cons_self
    cases hsub : substitute ruleId e.2 texts with
    | error err =>
      rw [hsub] at hhead
      cases hhead
    | ok own =>
      obtain ⟨queries, hqueries, hlookup⟩ :=
        ih hkeys (fun other hmem => hok other (List.mem_cons_of_mem _ hmem))
          (rendered.insert e.1 own)
      refine ⟨queries, by rw [renderQueries, hsub]; exact hqueries, ?_⟩
      intro name text
      rw [hlookup]
      by_cases hname : name = e.1
      · subst hname
        have hnot (query : String) : (⟨e.1, query⟩ : (_ : String) × String) ∉ entries := by
          intro hmem
          have hkey := List.mem_keys_of_mem hmem
          exact hfresh hkey
        have hself (query : String) :
            (⟨e.1, query⟩ : (_ : String) × String) ∈ e :: entries ↔ query = e.2 := by
          rw [List.mem_cons, or_iff_left (hnot query)]
          cases e
          simp
        simp [hnot, hself, hfresh, hsub, AList.lookup_insert, eq_comm]
      · have hother (query : String) :
            (⟨name, query⟩ : (_ : String) × String) ∈ e :: entries ↔ ⟨name, query⟩ ∈ entries := by
          rw [List.mem_cons, or_iff_right]
          intro heq
          exact hname (congrArg Sigma.fst heq)
        simp [hother, hname, AList.lookup_insert_ne hname]

theorem BucketAssigner.of_new {ruleSet : SyncRuleSet} {cacheTtl : Nat} {assigner : BucketAssigner}
    (h : BucketAssigner.new ruleSet cacheTtl = .ok assigner) :
    validate ruleSet = .ok () ∧ assigner.ruleSet = ruleSet ∧ assigner.cache = ∅ := by
  rw [BucketAssigner.new] at h
  split at h
  · cases h
  next hvalid =>
    cases h
    exact ⟨hvalid, rfl, rfl⟩

theorem BucketAssigner.exists_new {ruleSet : SyncRuleSet} (h : validate ruleSet = .ok ())
    (cacheTtl : Nat) : ∃ assigner, BucketAssigner.new ruleSet cacheTtl = .ok assigner := by
  rw [BucketAssigner.new]
  split
  next heq =>
    rw [h] at heq
    cases heq
  next => exact ⟨_, rfl⟩

theorem validRule_of_mem {ruleSet : SyncRuleSet} (h : validate ruleSet = .ok ()) {rule : SyncRule}
    (hrule : rule ∈ ruleSet.rules.values) : ValidRule rule.id rule := by
  obtain ⟨id, hlookup⟩ := AssocMap.mem_values.mp hrule
  rw [ruleSet.keyed id rule hlookup]
  exact validateRule_eq_ok.mp (validateRule_of_validate h hlookup)

theorem isOk_substitute_of_valid {id : String} {rule : SyncRule} (h : ValidRule id rule)
    {ps : ResolvedParameters} (hps : Progress rule.parameters ps) {name query : String}
    (hquery : rule.dataQueries.lookup name = some query) :
    (substitute rule.id query ps.texts).isOk := by
  apply isOk_substitute.mpr
  intro referenced hreferenced
  have hdeclared := h.declared name query hquery referenced hreferenced
  have hjson := AList.lookup_isSome.mpr ((hps.names referenced).mpr hdeclared)
  rw [hps.json, Option.isSome_map] at hjson
  obtain ⟨value, hvalue⟩ := Option.isSome_iff_exists.mp hjson
  exact ⟨value, hvalue, hps.safe referenced value hvalue⟩

theorem resolveRule_of_resolved {id : String} {rule : SyncRule} (hrule : ValidRule id rule)
    {db : Database} {claims : TokenClaims} {ps : ResolvedParameters}
    (hps : resolveParameters db rule claims 0 rule.parameters ⟨∅, ∅⟩ = .ok (some ps)) :
    ∃ a, resolveRule db rule claims = .ok (some a) ∧ a.parameters = ps.json ∧
      ∀ name text, a.dataQueries.lookup name = some text ↔
        ∃ query, rule.dataQueries.lookup name = some query ∧
          substitute rule.id query ps.texts = .ok text := by
  have hprogress := resolveParameters_progress hps progress_empty
  have hok (e : (_ : String) × String) (he : e ∈ rule.dataQueries.entries) :
      (substitute rule.id e.2 ps.texts).isOk :=
    isOk_substitute_of_valid hrule hprogress (AList.mem_lookup_iff.mpr he)
  obtain ⟨queries, hqueries, hlookup⟩ := renderQueries_of_isOk rule.dataQueries.nodupKeys hok ∅
  refine ⟨⟨partitionKey rule.id ps.json, rule.id, ps.json, queries⟩, ?_, rfl, ?_⟩
  · simp only [resolveRule, hps, hqueries]
  · intro name text
    rw [hlookup]
    simp [← AList.mem_lookup_iff]

/-- Every assignment has the data queries of its rule, rendered from the parameters that it
resolved. -/
theorem ResolvedFrom.exists_rendered {ruleSet : SyncRuleSet} (hvalid : validate ruleSet = .ok ())
    {a : BucketAssignment} (h : ResolvedFrom ruleSet a) :
    ∃ rule ∈ ruleSet.rules.values, ∃ ps, Progress rule.parameters ps ∧ a.ruleId = rule.id ∧
      a.parameters = ps.json ∧ ∀ name text, a.dataQueries.lookup name = some text ↔
        ∃ query, rule.dataQueries.lookup name = some query ∧
          substitute rule.id query ps.texts = .ok text := by
  obtain ⟨rule, hrule, db, claims, hresolve⟩ := h
  have hruleId := (resolveRule_resolution hresolve).ruleId
  cases hps : resolveParameters db rule claims 0 rule.parameters ⟨∅, ∅⟩ with
  | error e =>
    rw [resolveRule, hps] at hresolve
    cases hresolve
  | ok resolved =>
    cases resolved with
    | none =>
      rw [resolveRule, hps] at hresolve
      cases hresolve
    | some ps =>
      obtain ⟨b, hb, hparameters, hqueries⟩ :=
        resolveRule_of_resolved (validRule_of_mem hvalid hrule) hps
      rw [hb] at hresolve
      cases hresolve
      exact ⟨rule, hrule, ps, resolveParameters_progress hps progress_empty, hruleId, hparameters,
        hqueries⟩

theorem exists_assigned_of_answer {ruleSet : SyncRuleSet} {cacheTtl : Nat}
    {assigner : BucketAssigner} (hnew : BucketAssigner.new ruleSet cacheTtl = .ok assigner)
    {db : String → Database} {value : String} (hsafe : validateSafeValue value = true)
    (hdb : ∀ id k query sub, db id k query sub = .ok (some (.text value))) :
    ∃ as, (assigner.assign ⟨0, 0⟩ db ⟨"", 1⟩).1 = .ok as ∧
      ∀ rule ∈ ruleSet.rules.values, ∃ ps,
        resolveParameters (db rule.id) rule ⟨"", 1⟩ 0 rule.parameters ⟨∅, ∅⟩ = .ok (some ps) ∧
        ∃ a ∈ as, resolveRule (db rule.id) rule ⟨"", 1⟩ = .ok (some a) := by
  have hready := BucketAssigner.of_new hnew
  have hresolved (rule : SyncRule) (hrule : rule ∈ ruleSet.rules.values) : ∃ ps a,
      resolveParameters (db rule.id) rule ⟨"", 1⟩ 0 rule.parameters ⟨∅, ∅⟩ = .ok (some ps) ∧
        resolveRule (db rule.id) rule ⟨"", 1⟩ = .ok (some a) := by
    have hvalid := validRule_of_mem hready.1 hrule
    have hcases := @resolveParameters_cases (db rule.id) rule ⟨"", 1⟩ rule.parameters 0
      hvalid.hasQuery (fun _ _ _ _ _ => Or.inr ⟨_, value, hdb _ _ _ _, rfl, hsafe⟩) ⟨∅, ∅⟩
    obtain ⟨_, i, name, query, _, _, hnone⟩ | ⟨⟨ps, hps⟩, _⟩ := hcases
    · rw [hdb] at hnone
      cases hnone
    · obtain ⟨a, ha, _⟩ := resolveRule_of_resolved hvalid hps
      exact ⟨ps, a, hps, ha⟩
  have hmiss : assigner.cacheLookup 0 ⟨"", assigner.ruleSet.version⟩ = none := by
    simp [BucketAssigner.cacheLookup, hready.2.2]
  have hassign : (assigner.assign ⟨0, 0⟩ db ⟨"", 1⟩).1 =
      resolveRules db ⟨"", 1⟩ assigner.ruleSet.rules.values := by
    rw [BucketAssigner.assign_of_miss Nat.one_pos hmiss, BucketAssigner.resolve_fst]
  have hok : (resolveRules db ⟨"", 1⟩ assigner.ruleSet.rules.values).isOk := by
    rw [isOk_resolveRules_iff, hready.2.1]
    intro rule hrule
    obtain ⟨_, a, _, ha⟩ := hresolved rule hrule
    rw [ha]
    rfl
  cases has : resolveRules db ⟨"", 1⟩ assigner.ruleSet.rules.values with
  | error e =>
    rw [has] at hok
    cases hok
  | ok as =>
    refine ⟨as, hassign.trans has, ?_⟩
    intro rule hrule
    obtain ⟨ps, a, hps, ha⟩ := hresolved rule hrule
    rw [← hready.2.1] at hrule
    exact ⟨ps, hps, a, mem_resolveRules has hrule ha, ha⟩

/-- Validation makes the errors of resolution unreachable: where Postgres answers every parameter
query with at most one row and a safe value of a supported type, every declared parameter has its
query, every data query is rendered, and the rule resolves to no assignment exactly if some query
returned no row, and otherwise to one with a rendered query for each data query. -/
theorem resolveRule_total {ruleSet : SyncRuleSet} {cacheTtl : Nat} {assigner : BucketAssigner}
    (hnew : BucketAssigner.new ruleSet cacheTtl = .ok assigner) {rule : SyncRule}
    (hrule : rule ∈ ruleSet.rules.values) {db : Database} {claims : TokenClaims}
    (hdb : AnswersSafely db rule claims.sub) :
    (∀ name ∈ rule.parameters, (rule.parameterQueries.lookup name).isSome) ∧
    (∀ ps, resolveParameters db rule claims 0 rule.parameters ⟨∅, ∅⟩ = .ok (some ps) →
      ∀ name query, rule.dataQueries.lookup name = some query →
        (substitute rule.id query ps.texts).isOk) ∧
    (resolveRule db rule claims = .ok none ↔ NoRow db rule claims.sub) ∧
    (¬NoRow db rule claims.sub → ∃ ps a,
      resolveParameters db rule claims 0 rule.parameters ⟨∅, ∅⟩ = .ok (some ps) ∧
      resolveRule db rule claims = .ok (some a) ∧ a.parameters = ps.json ∧
      ∀ name text, a.dataQueries.lookup name = some text ↔
        ∃ query, rule.dataQueries.lookup name = some query ∧
          substitute rule.id query ps.texts = .ok text) := by
  have hvalid := validRule_of_mem (BucketAssigner.of_new hnew).1 hrule
  have hcases := resolveParameters_cases (k := 0) hvalid.hasQuery
    (by simp only [Nat.zero_add]; exact hdb) ⟨∅, ∅⟩
  simp only [Nat.zero_add] at hcases
  refine ⟨fun name hname => AList.lookup_isSome.mpr (hvalid.hasQuery name hname), ?_, ?_⟩
  · intro ps hps name query hquery
    exact isOk_substitute_of_valid hvalid (resolveParameters_progress hps progress_empty) hquery
  · obtain ⟨hstop, hnorow⟩ | ⟨⟨ps, hps⟩, hrows⟩ := hcases
    · have hnone : resolveRule db rule claims = .ok none := by simp only [resolveRule, hstop]
      exact ⟨iff_of_true hnone hnorow, fun h => absurd hnorow h⟩
    · obtain ⟨a, ha, hparameters, hqueries⟩ := resolveRule_of_resolved hvalid hps
      have hno : ¬NoRow db rule claims.sub := by
        intro h
        obtain ⟨k, name, query, hname, hquery, hempty⟩ := h
        exact hrows k name query hname hquery hempty
      refine ⟨?_, fun _ => ⟨ps, a, hps, ha, hparameters, hqueries⟩⟩
      rw [ha]
      simp [hno]

theorem resolveRule_total_owner : ∃ rule ∈ ownerRules.rules.values, ∃ a,
    resolveRule (answerUser "42" rule.id) rule ⟨"alice", 1⟩ = .ok (some a) := by
  have hnew : BucketAssigner.new ownerRules 3600000000000 = .ok ownerAssigner := rfl
  refine ⟨_, List.mem_cons_self, ?_⟩
  have htotal := @resolveRule_total _ _ _ hnew _ List.mem_cons_self
    (answerUser "42" "user_entities") ⟨"alice", 1⟩
    fun k name query _ _ => Or.inr ⟨.text "42", "42", rfl, rfl, by decide⟩
  obtain ⟨_, a, _, ha, _⟩ := htotal.2.2.2 (by simp [NoRow, answerUser])
  exact ⟨a, ha⟩

end EntitySync.Rules
