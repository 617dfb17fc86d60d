import EntitySync.Library.Checks
import EntitySync.Rules.Template

/-!
# Parsing and validation of `sync-rules.toml`

The TOML deserializer is a parameter; what this development models is the mapping of the raw
document to rules, with its defaults, and the semantic checks made on them.
-/

namespace EntitySync.Rules

/-- `toml::de::Error`: a message and, if known, the byte offset where its span starts. -/
structure TomlError where
  message : String
  spanStart : Option Nat

/-- `[buckets.<id>]` as deserialized; `none` stands for an absent key. -/
structure RawBucket where
  description : Option String
  parameters : Option (List String)
  parameterQueries : Option (HashMap String String)
  data : Option (HashMap String String)

structure RawDocument where
  version : Option String
  buckets : Option (HashMap String RawBucket)

def defaultVersion : String := "1"

structure SyncRuleSet where
  version : String
  rules : HashMap String SyncRule
  keyed : ∀ id rule, rules.lookup id = some rule → rule.id = id

def charsBefore : Nat → List Char → List Char
  | 0, _ | _, [] => []
  | offset + 1, c :: cs => c :: charsBefore (offset + 1 - c.utf8Size) cs

def offsetToLineCol (source : String) (offset : Nat) : Option Nat × Option Nat :=
  if source.utf8ByteSize < offset then (none, none)
  else
    let position := (charsBefore offset source.toList).foldl
      (fun position ch => if ch = '\n' then (position.1 + 1, 1) else (position.1, position.2 + 1))
      (1, 1)
    (some position.1, some position.2)

def ParseError.fromTomlError (err : TomlError) (source : String) : ParseError :=
  let position := (err.spanStart.map (offsetToLineCol source)).getD (none, none)
  .syntactic err.message position.1 position.2

def RawBucket.toRule (id : String) (bucket : RawBucket) : SyncRule where
  id := id
  description := bucket.description
  parameters := bucket.parameters.getD []
  parameterQueries := bucket.parameterQueries.getD ∅
  dataQueries := bucket.data.getD ∅

def RawDocument.toRuleSet (raw : RawDocument) : SyncRuleSet where
  version := raw.version.getD defaultVersion
  rules := (raw.buckets.getD ∅).mapVals RawBucket.toRule
  keyed := by
    intro id rule h
    rw [AssocMap.lookup_mapVals] at h
    obtain ⟨bucket, _, rfl⟩ := Option.map_eq_some_iff.mp h
    rfl

def parseSyncRulesStr (fromStr : String → Except TomlError RawDocument) (contents : String) :
    Except ParseError SyncRuleSet :=
  match fromStr contents with
  | .error err => .error (ParseError.fromTomlError err contents)
  | .ok raw => .ok raw.toRuleSet

/-- `^[a-z][a-z0-9_-]*$`. -/
def isBucketId : List Char → Bool
  | [] => false
  | c :: cs => c.isLower && cs.all fun d => d.isLower || d.isDigit || d == '_' || d == '-'

def validateBucketId (bucketId : String) : Except ParseError Unit :=
  if isBucketId bucketId.toList then .ok ()
  else .error (.validation bucketId
    ("bucket id '" ++ bucketId ++ "' must match [a-z][a-z0-9_-]*"))

def validateParametersHaveQueries (bucketId : String) (rule : SyncRule) :
    Except ParseError Unit :=
  rule.parameters.forM fun param =>
    if param ∈ rule.parameterQueries then .ok ()
    else .error (.validation bucketId
      ("parameter '" ++ param ++ "' has no corresponding entry in parameter_queries"))

/-- What `\$([0-9]+)` captures, from left to right. The digits of a match hold no `$`, so the
search may go on right behind its first character. -/
def placeholders : List Char → List String
  | [] => []
  | c :: cs =>
    let digits := cs.takeWhile Char.isDigit
    if c = '$' ∧ digits ≠ [] then String.ofList digits :: placeholders cs else placeholders cs

def validateParameterQueryPlaceholders (bucketId : String) (rule : SyncRule) :
    Except ParseError Unit :=
  rule.parameterQueries.entries.forM fun entry =>
    let found := placeholders entry.2.toList
    if found ≠ [] ∧ ∀ n ∈ found, n = "1" then .ok ()
    else .error (.validation bucketId
      ("parameter_queries." ++ entry.1 ++
        " must contain exactly the placeholder $1 and no other $N placeholders"))

def validateDataQueryReferences (bucketId : String) (rule : SyncRule) : Except ParseError Unit :=
  rule.dataQueries.entries.forM fun entry =>
    (references entry.2).forM fun referenced =>
      if referenced ∈ rule.parameters then .ok ()
      else .error (.validation bucketId
        ("data." ++ entry.1 ++ " references undeclared parameter 'bucket_parameters." ++
          referenced ++ "'"))

def validateRule (bucketId : String) (rule : SyncRule) : Except ParseError Unit := do
  validateBucketId bucketId
  validateParametersHaveQueries bucketId rule
  validateParameterQueryPlaceholders bucketId rule
  validateDataQueryReferences bucketId rule

def validate (ruleSet : SyncRuleSet) : Except ParseError Unit :=
  ruleSet.rules.entries.forM fun entry => validateRule entry.1 entry.2

def ownerRules : SyncRuleSet :=
  let bucket : RawBucket := {
    description := some "All entities owned by the authenticated user"
    parameters := some ["user_id"]
    parameterQueries := some ((∅ : HashMap String String).insert "user_id"
      "SELECT id FROM users WHERE auth_user_id = $1")
    data := some ((∅ : HashMap String String).insert "entities"
      "SELECT * FROM entities WHERE owner_id = \x7bbucket_parameters.user_id\x7d") }
  RawDocument.toRuleSet
    ⟨some "1", some ((∅ : HashMap String RawBucket).insert "user_entities" bucket)⟩

theorem validate_ownerRules : validate ownerRules = .ok () := by decide

theorem validateRule_of_validate {ruleSet : SyncRuleSet} (h : validate ruleSet = .ok ())
    {id : String} {rule : SyncRule} (hrule : ruleSet.rules.lookup id = some rule) :
    validateRule id rule = .ok () :=
  Checks.forM_eq_ok.mp h ⟨id, rule⟩ (AList.mem_lookup_iff.mp hrule)

structure ValidRule (id : String) (rule : SyncRule) : Prop where
  bucketId : isBucketId id.toList = true
  hasQuery : ∀ param ∈ rule.parameters, param ∈ rule.parameterQueries
  placeholder : ∀ name query, rule.parameterQueries.lookup name = some query →
    placeholders query.toList ≠ [] ∧ ∀ n ∈ placeholders query.toList, n = "1"
  declared : ∀ name query, rule.dataQueries.lookup name = some query →
    ∀ referenced ∈ references query, referenced ∈ rule.parameters

private theorem ite_error_eq_ok {ε : Type} {p : Prop} [Decidable p] {e : ε} :
    (if p then .ok () else .error e : Except ε Unit) = .ok () ↔ p := by
  by_cases hp : p <;> simp [hp]

theorem validateRule_eq_ok {id : String} {rule : SyncRule} :
    validateRule id rule = .ok () ↔ ValidRule id rule := by
  have hid : validateBucketId id = .ok () ↔ isBucketId id.toList = true := ite_error_eq_ok
  have hquery : validateParametersHaveQueries id rule = .ok () ↔
      ∀ param ∈ rule.parameters, param ∈ rule.parameterQueries := by
    rw [validateParametersHaveQueries, Checks.forM_eq_ok]
    simp only [ite_error_eq_ok]
  have hplaceholder : validateParameterQueryPlaceholders id rule = .ok () ↔
      ∀ name query, rule.parameterQueries.lookup name = some query →
        placeholders query.toList ≠ [] ∧ ∀ n ∈ placeholders query.toList, n = "1" := by
    rw [validateParameterQueryPlaceholders, Checks.forM_eq_ok]
    simp only [ite_error_eq_ok, Sigma.forall]
    simp only [← AList.mem_lookup_iff, Option.mem_def]
  have hdeclared : validateDataQueryReferences id rule = .ok () ↔
      ∀ name query, rule.dataQueries.lookup name = some query →
        ∀ referenced ∈ references query, referenced ∈ rule.parameters := by
    rw [validateDataQueryReferences, Checks.forM_eq_ok]
    simp only [Checks.forM_eq_ok, ite_error_eq_ok, Sigma.forall]
    simp only [← AList.mem_lookup_iff, Option.mem_def]
  rw [validateRule]
  simp only [Checks.bind_eq_ok, hdeclared, hplaceholder, hquery, hid]
  constructor
  · intro h
    obtain ⟨_, h1, _, h2, _, h3, h4⟩ := h
    exact ⟨h1, h2, h3, h4⟩
  · intro h
    exact ⟨(), h.bucketId, (), h.hasQuery, (), h.placeholder, h.declared⟩

theorem colon_notMem_of_isBucketId {cs : List Char} (h : isBucketId cs = true) : ':' ∉ cs := by
  cases cs with
  | nil => exact List.not_mem_nil
  | cons c cs =>
    intro hmem
    simp only [isBucketId, Bool.and_eq_true, List.all_eq_true] at h
    cases List.mem_cons.mp hmem with
    | inl heq =>
      rw [← heq] at h
      exact absurd h.1 (by decide)
    | inr hcs => exact absurd (h.2 ':' hcs) (by decide)

end EntitySync.Rules
