import EntitySync.Rules.Resolution

/-!
# Reference texts that are not references

The regexes of validation and of substitution see a reference only where the text between
`{bucket_parameters.` and the closing brace is a name over `[A-Za-z0-9_]`. Any other text there is
neither checked nor replaced, although parameter names are arbitrary.
-/

namespace EntitySync.Rules

/-- The text holds `{bucket_parameters.`, then any text, then a closing brace. -/
def HasOpenReference (text : List Char) : Prop :=
  ∃ before between after, text = before ++ (refOpen ++ (between ++ '\x7d' :: after))

/-- The same outside of the references that the regex finds: neither the opening nor the closing
brace belongs to one of them. -/
def LeavesOpen (ps : List Piece) : Prop :=
  ∃ front between back, ps = front ++ (refOpen.map .lit ++ (between ++ .lit '\x7d' :: back))

def NoReferenceLeft (ruleSet : SyncRuleSet) : Prop :=
  ∀ self : BucketAssigner, self.ruleSet = ruleSet → ∀ clock db claims as,
    (self.assign clock db claims).1 = .ok as → ∀ a ∈ as, ∀ name query,
      a.dataQueries.lookup name = some query → ¬HasOpenReference query.toList

theorem refOpen_eq_cons : refOpen = '\x7b' :: refOpen.tail := rfl

/-- Rendering leaves a reference text exactly where the template has one outside of its
references. -/
theorem hasOpenReference_render {values : HashMap String String} {ps : List Piece}
    (hsafe : SafeOn values ps) :
    HasOpenReference (ps.flatMap (renderPiece values)) ↔ LeavesOpen ps := by
  constructor
  · intro h
    obtain ⟨before, between, after, htext⟩ := h
    rw [refOpen_eq_cons, List.cons_append] at htext
    obtain ⟨front, tail, hps, _, htail⟩ :=
      exists_lit_of_render hsafe (by decide) (by decide) htext
    obtain ⟨rest, hrest, hrender⟩ := exists_lits_of_render quote_notMem_refOpen_tail htail
    have hsafeRest : SafeOn values rest := by
      rw [hps, hrest] at hsafe
      exact hsafe.append_right.tail.append_right
    obtain ⟨mid, back, hmid, _, _⟩ :=
      exists_lit_of_render hsafeRest (by decide) (by decide) hrender
    refine ⟨front, mid, back, ?_⟩
    rw [hps, hrest, hmid, refOpen_eq_cons, List.map_cons]
    rfl
  · intro h
    obtain ⟨front, mid, back, rfl⟩ := h
    refine ⟨front.flatMap (renderPiece values), mid.flatMap (renderPiece values),
      back.flatMap (renderPiece values), ?_⟩
    simp only [List.flatMap_append, List.flatMap_cons, render_map_lit]
    rfl

theorem hasOpenReference_substitute {bucketId query result : String}
    {values : HashMap String String} (h : substitute bucketId query values = .ok result) :
    HasOpenReference result.toList ↔ LeavesOpen (pieces 0 query.toList) := by
  obtain ⟨hresolved, rfl⟩ := substitute_eq_ok.mp h
  rw [String.toList_ofList]
  exact hasOpenReference_render (safeOn_of_resolved hresolved)

def answerZero : String → Database := fun _ _ _ _ => .ok (some (.text "0"))

theorem exists_assigned {ruleSet : SyncRuleSet} {cacheTtl : Nat} {assigner : BucketAssigner}
    (hnew : BucketAssigner.new ruleSet cacheTtl = .ok assigner) :
    ∃ as, (assigner.assign ⟨0, 0⟩ answerZero ⟨"", 1⟩).1 = .ok as ∧
      ∀ rule ∈ ruleSet.rules.values, ∃ a ∈ as, ∃ ps : ResolvedParameters,
        ∀ name query, rule.dataQueries.lookup name = some query → ∃ text,
          a.dataQueries.lookup name = some text ∧
            substitute rule.id query ps.texts = .ok text := by
  obtain ⟨as, has, hrules⟩ := @exists_assigned_of_answer _ _ _ hnew answerZero "0"
    (by decide) fun _ _ _ _ => rfl
  refine ⟨as, has, ?_⟩
  intro rule hrule
  obtain ⟨ps, hps, a, ha, hresolve⟩ := hrules rule hrule
  have hvalid := validRule_of_mem (BucketAssigner.of_new hnew).1 hrule
  refine ⟨a, ha, ps, ?_⟩
  intro name query hquery
  obtain ⟨b, hb, _, hqueries⟩ := resolveRule_of_resolved hvalid hps
  rw [hb] at hresolve
  cases hresolve
  have hok := isOk_substitute_of_valid hvalid
    (resolveParameters_progress hps progress_empty) hquery
  cases hsub : substitute rule.id query ps.texts with
  | error e =>
    rw [hsub] at hok
    cases hok
  | ok text => exact ⟨text, (hqueries name text).mpr ⟨query, hquery, hsub⟩, rfl⟩

/-- For an accepted rule set, no reference text survives in an assignment exactly if no data query
has one outside of the references that the regexes recognize. -/
theorem noReferenceLeft_iff {ruleSet : SyncRuleSet} {cacheTtl : Nat} {assigner : BucketAssigner}
    (hnew : BucketAssigner.new ruleSet cacheTtl = .ok assigner) :
    NoReferenceLeft ruleSet ↔ ∀ rule ∈ ruleSet.rules.values, ∀ name template,
      rule.dataQueries.lookup name = some template → ¬LeavesOpen (pieces 0 template.toList) := by
  constructor
  · intro h rule hrule name template htemplate hopen
    obtain ⟨as, has, hrules⟩ := exists_assigned hnew
    obtain ⟨a, ha, ps, hqueries⟩ := hrules rule hrule
    obtain ⟨text, htext, hsub⟩ := hqueries name template htemplate
    exact h assigner (BucketAssigner.of_new hnew).2.1 _ _ _ as has a ha name text htext
      ((hasOpenReference_substitute hsub).mpr hopen)
  · intro h self hself clock db claims as has a ha name query hquery hopen
    have hfrom := BucketAssigner.assign_resolved has a ha
    obtain ⟨rule, hrule, ps, _, _, _, hqueries⟩ := hfrom.exists_rendered self.valid
    obtain ⟨template, htemplate, hsub⟩ := (hqueries name query).mp hquery
    rw [hself] at hrule
    exact h rule hrule name template htemplate ((hasOpenReference_substitute hsub).mp hopen)

theorem noReferenceLeft_iff_owner : NoReferenceLeft ownerRules := by
  have hnew : BucketAssigner.new ownerRules 3600000000000 = .ok ownerAssigner := rfl
  refine (noReferenceLeft_iff hnew).mpr ?_
  intro rule hrule name template htemplate hopen
  obtain rfl := List.mem_singleton.mp hrule
  have hquery := AssocMap.mem_values_of_lookup htemplate
  obtain rfl := List.mem_singleton.mp hquery
  obtain ⟨front, between, back, hpieces⟩ := hopen
  have hbrace : Piece.lit '\x7b' ∈ pieces 0
      "SELECT * FROM entities WHERE owner_id = \x7bbucket_parameters.user_id\x7d".toList := by
    rw [hpieces, refOpen_eq_cons]
    simp
  exact absurd hbrace (by decide)

/-! A rule set whose author calls the parameter `user-id`. -/

private def hyphenQuery : String :=
  "SELECT * FROM entities WHERE owner_id = \x7bbucket_parameters.user-id\x7d"

private def hyphenDocument : RawDocument :=
  let bucket : RawBucket := {
    description := none
    parameters := some ["user-id"]
    parameterQueries := some ((∅ : HashMap String String).insert "user-id"
      "SELECT id FROM users WHERE auth_user_id = $1")
    data := some ((∅ : HashMap String String).insert "entities" hyphenQuery) }
  ⟨some "1", some ((∅ : HashMap String RawBucket).insert "user_entities" bucket)⟩

private def hyphenToml : String :=
  "version = \x221\x22\n[buckets.user_entities]\nparameters = [\x22user-id\x22]\n" ++
  "[buckets.user_entities.parameter_queries]\n" ++
  "user-id = \x22SELECT id FROM users WHERE auth_user_id = $1\x22\n" ++
  "[buckets.user_entities.data]\n" ++
  "entities = \x22" ++ hyphenQuery ++ "\x22\n"

private def parseHyphen (contents : String) : Except TomlError RawDocument :=
  if contents = hyphenToml then .ok hyphenDocument else .error ⟨"unknown document", none⟩

/-- The declared parameter is resolved, but the reference to it is neither checked nor replaced. -/
theorem hyphenated_reference_survives : ∃ ruleSet,
    parseSyncRulesStr parseHyphen hyphenToml = .ok ruleSet ∧
    (∃ assigner, BucketAssigner.new ruleSet 1 = .ok assigner ∧
      ∃ a, (assigner.assign ⟨0, 0⟩ (answerUser "42") ⟨"alice", 1⟩).1 = .ok [a] ∧
        a.parameters.lookup "user-id" = some (.string "42") ∧
        a.dataQueries.lookup "entities" = some hyphenQuery) ∧
    ¬NoReferenceLeft ruleSet := by
  have hsurvives : HasOpenReference hyphenQuery.toList :=
    ⟨"SELECT * FROM entities WHERE owner_id = ".toList, "user-id".toList, [], by decide⟩
  refine ⟨hyphenDocument.toRuleSet, ?_, ⟨_, rfl, _, rfl, rfl, rfl⟩, ?_⟩
  · simp [parseSyncRulesStr, parseHyphen]
  · intro h
    exact h ⟨hyphenDocument.toRuleSet, by decide, ∅, by simp, 1⟩ rfl ⟨0, 0⟩ (answerUser "42")
      ⟨"alice", 1⟩ _ rfl _ List.mem_cons_self "entities" _ rfl hsurvives

end EntitySync.Rules
