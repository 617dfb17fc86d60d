import EntitySync.Router.Router

/-!
# Soundness of row matching

The router matches a row against an assignment by comparing every resolved parameter with every
column. For a rule whose data query is `SELECT * FROM t WHERE c = {bucket_parameters.p}` this is
sound exactly when no other pair of column and parameter produces a match on its own.
-/

namespace EntitySync.Router

open Json (Value)
open Rules (BucketAssigner Instant ResolvedFrom)

def equalityQuery (t c p : String) : String :=
  "SELECT * FROM " ++ t ++ " WHERE " ++ c ++ " = \x7bbucket_parameters." ++ p ++ "\x7d"

/-- `a` was resolved from a rule whose data query named `t` is the equality of `c` with `p`. -/
def FiltersBy (ruleSet : Rules.SyncRuleSet) (a : BucketAssignment) (t c p : String) : Prop :=
  ResolvedFrom ruleSet a ∧ ∃ rule, ruleSet.rules.lookup a.ruleId = some rule ∧
    rule.dataQueries.lookup t = some (equalityQuery t c p)

def ColumnHolds (a : BucketAssignment) (row : Value) (c p : String) : Prop :=
  ∃ s v, a.parameters.lookup p = some (.string s) ∧ row.get c = some v ∧ v.scalarText = some s

/-- Some column `k` holds the value of some parameter `q`, other than `c` with `p`. -/
def StrayMatch (a : BucketAssignment) (row : Value) (c p : String) : Prop :=
  ∃ k q, (k, q) ≠ (c, p) ∧ ColumnHolds a row k q

/-- Every bucket returned for a row of `t`, and every bucket the router appends the row to, has a
data query that selects the row. -/
structure RoutesSoundly (assigner : BucketAssigner) (now : Instant) (t : String) (row : Value) :
    Prop where
  found : ∀ b ∈ assigner.findAffectedBuckets now t row, ∀ a c p,
    FiltersBy assigner.ruleSet a t c p → a.bucketId = b → ColumnHolds a row c p
  appended : ∀ envelope change, envelope.payload = some change → change.entityType = t →
    change.data = row → ∀ op ∈ routedOps assigner now envelope, ∀ a c p,
      FiltersBy assigner.ruleSet a t c p → a.bucketId = op.bucketId → ColumnHolds a row c p

theorem jsonScalarsEqual_string {s : String} {v : Value} :
    Rules.jsonScalarsEqual (.string s) v = true ↔ v.scalarText = some s := by
  cases v with
  | string s' => simpa [Rules.jsonScalarsEqual, Value.eq, Value.scalarText] using eq_comm
  | number n => simpa [Rules.jsonScalarsEqual, Value.eq, Value.scalarText] using eq_comm
  | null => simp [Rules.jsonScalarsEqual, Value.eq, Value.scalarText]
  | bool b => simp [Rules.jsonScalarsEqual, Value.eq, Value.scalarText]
  | array items => simp [Rules.jsonScalarsEqual, Value.eq, Value.scalarText]
  | object fields => simp [Rules.jsonScalarsEqual, Value.eq, Value.scalarText]

private theorem get_object_of_mem {fields : List (String × Value)}
    (hkeys : (fields.map Prod.fst).Nodup) {k : String} {v : Value} (h : (k, v) ∈ fields) :
    (Value.object fields).get k = some v := by
  induction fields with
  | nil => cases h
  | cons field fields ih =>
    rw [List.map_cons, List.nodup_cons] at hkeys
    change List.lookup k (field :: fields) = some v
    rw [List.lookup_cons]
    cases List.mem_cons.mp h with
    | inl heq => simp [← heq]
    | inr hmem =>
      have hne : k ≠ field.1 := by
        intro heq
        exact hkeys.1 (heq ▸ List.mem_map_of_mem hmem)
      rw [beq_false_of_ne hne]
      exact ih hkeys.2 hmem

private theorem mem_of_get_object {fields : List (String × Value)} {k : String} {v : Value}
    (h : (Value.object fields).get k = some v) : (k, v) ∈ fields := by
  change List.lookup k fields = some v at h
  rw [List.lookup_eq_some_iff] at h
  obtain ⟨before, after, heq, _⟩ := h
  rw [heq]
  exact List.mem_append_right _ List.mem_cons_self

theorem rowMatches_iff {ruleSet : Rules.SyncRuleSet} (hvalid : Rules.validate ruleSet = .ok ())
    {a : BucketAssignment} (ha : ResolvedFrom ruleSet a) {fields : List (String × Value)}
    (hkeys : (fields.map Prod.fst).Nodup) :
    Rules.rowMatchesAssignment (.object fields) a = true ↔
      ∃ k q, ColumnHolds a (.object fields) k q := by
  obtain ⟨rule, _, _, hres⟩ := ha.resolution hvalid
  simp only [Rules.rowMatchesAssignment, Value.asObject, List.any_eq_true]
  constructor
  · intro h
    obtain ⟨param, hparam, field, hfield, heq⟩ := h
    obtain ⟨q, hq⟩ := AssocMap.mem_values.mp hparam
    obtain ⟨s, rfl, _⟩ := hres.safe q param hq
    exact ⟨field.1, q, s, field.2, hq, get_object_of_mem hkeys hfield,
      jsonScalarsEqual_string.mp heq⟩
  · intro h
    obtain ⟨k, q, s, v, hq, hget, htext⟩ := h
    exact ⟨.string s, AssocMap.mem_values_of_lookup hq, (k, v), mem_of_get_object hget,
      jsonScalarsEqual_string.mpr htext⟩

/-- Two assignments with one partition key are filtered by the same columns and values. -/
private theorem FiltersBy.of_bucketId {assigner : BucketAssigner} {a b : BucketAssignment}
    {t c p : String} (ha : FiltersBy assigner.ruleSet a t c p)
    (hb : ResolvedFrom assigner.ruleSet b) (h : a.bucketId = b.bucketId) :
    FiltersBy assigner.ruleSet b t c p ∧
      ∀ row k q, ColumnHolds b row k q → ColumnHolds a row k q := by
  have hsame := ha.1.eq_of_bucketId assigner.valid hb h
  constructor
  · obtain ⟨rule, hrule, hquery⟩ := ha.2
    exact ⟨hb, rule, hsame.1 ▸ hrule, hquery⟩
  · intro row k q hrow
    obtain ⟨s, v, hq, hget, htext⟩ := hrow
    exact ⟨s, v, (hsame.2 q).trans hq, hget, htext⟩

/-- Routing of a row is sound exactly when every live assignment that a stray pair matches is
matched by its own column and parameter too. -/
theorem routesSoundly_iff (assigner : BucketAssigner) (now : Instant) (t : String)
    (fields : List (String × Value)) (hkeys : (fields.map Prod.fst).Nodup) :
    RoutesSoundly assigner now t (.object fields) ↔
      ∀ a ∈ assigner.liveAssignments now, ∀ c p, FiltersBy assigner.ruleSet a t c p →
        StrayMatch a (.object fields) c p → ColumnHolds a (.object fields) c p := by
  have hfound : (∀ b ∈ assigner.findAffectedBuckets now t (.object fields), ∀ a c p,
      FiltersBy assigner.ruleSet a t c p → a.bucketId = b →
        ColumnHolds a (.object fields) c p) ↔
      ∀ a ∈ assigner.liveAssignments now, ∀ c p, FiltersBy assigner.ruleSet a t c p →
        StrayMatch a (.object fields) c p → ColumnHolds a (.object fields) c p := by
    constructor
    · intro h a hlive c p hfilter hstray
      obtain ⟨k, q, _, hmatch⟩ := hstray
      refine h a.bucketId ?_ a c p hfilter rfl
      obtain ⟨rule, hrule, _, hres⟩ := hfilter.1.resolution assigner.valid
      obtain ⟨_, hrule', hquery⟩ := hfilter.2
      rw [hrule, Option.some.injEq] at hrule'
      have hname : t ∈ a.dataQueries := by
        rw [hres.queries, hrule', ← AList.lookup_isSome, hquery]
        rfl
      exact BucketAssigner.mem_findAffectedBuckets.mpr ⟨a, hlive, hname,
        (rowMatches_iff assigner.valid hfilter.1 hkeys).mpr ⟨k, q, hmatch⟩, rfl⟩
    · intro h b hb a c p hfilter hid
      obtain ⟨cached, hlive, _, hmatch, hbid⟩ := BucketAssigner.mem_findAffectedBuckets.mp hb
      have hcached := BucketAssigner.resolvedFrom_of_live hlive
      obtain ⟨hfilter', hback⟩ := hfilter.of_bucketId hcached (hid.trans hbid.symm)
      obtain ⟨k, q, hmatch⟩ := (rowMatches_iff assigner.valid hcached hkeys).mp hmatch
      apply hback
      by_cases hpair : (k, q) = (c, p)
      · cases hpair
        exact hmatch
      · exact h cached hlive c p hfilter' ⟨k, q, hpair, hmatch⟩
  rw [← hfound]
  refine ⟨fun h => h.found, fun h => ⟨h, ?_⟩⟩
  intro envelope change hpayload htype hdata op hop a c p hfilter hid
  obtain ⟨other, hother, hmem, _⟩ := mem_routedOps.mp hop
  rw [hpayload, Option.some.injEq] at hother
  rw [← hother, htype, hdata] at hmem
  exact h op.bucketId hmem a c p hfilter hid

private def foreignRow : List (String × Value) :=
  [("id", .string "a"), ("owner_id", .string "7")]

theorem routesSoundly_foreign_row :
    RoutesSoundly (Rules.cachedOwner "42") 0 "entities" (.object foreignRow) := by
  apply (routesSoundly_iff _ _ _ foreignRow (by decide)).mpr
  intro a hlive c p _ hstray
  cases List.mem_singleton.mp hlive
  obtain ⟨k, q, _, s, v, hq, hget, htext⟩ := hstray
  have hs : Value.string s = .string "42" := by
    have hmem : Value.string s ∈ [Value.string "42"] := AssocMap.mem_values_of_lookup hq
    exact List.mem_singleton.mp hmem
  cases hs
  have hcolumn : ∀ field ∈ foreignRow, field.2.scalarText ≠ some "42" := by decide
  exact absurd htext (hcolumn (k, v) (mem_of_get_object hget))

theorem filtersBy_owner42 : FiltersBy (Rules.cachedOwner "42").ruleSet
    (Rules.ownerAssignment "42") "entities" "owner_id" "user_id" :=
  ⟨⟨_, List.mem_cons_self, Rules.answerUser "42" "user_entities", ⟨"42", 1⟩, rfl⟩, _, rfl, rfl⟩

/-- A row of user 7 that names user 42 in another column is routed to user 42's bucket. -/
theorem editor_column_leaks_row : ¬RoutesSoundly (Rules.cachedOwner "42") 0 "entities"
    (.object (("editor_id", .string "42") :: foreignRow)) := by
  intro h
  rcases h.found (Rules.ownerAssignment "42").bucketId (by decide) _ _ _ filtersBy_owner42 rfl with
    ⟨s, v, hs, hget, htext⟩
  cases hs
  cases hget
  exact absurd htext (by decide)

end EntitySync.Router
