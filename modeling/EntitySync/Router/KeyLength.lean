import EntitySync.Oplog.Key
import EntitySync.Rules.Resolution
import Mathlib.Algebra.Order.BigOperators.Group.List
import Mathlib.Data.List.Dedup

/-!
# The length prefix of assigner-made buckets

A partition key holds the id of its rule, the name of every parameter and every value, in quotes.
Validation limits the characters of an id and the allowlist the length of a value, but nothing
limits how long an id or a name is or how many parameters a rule has. The longest key of a rule is
computed here from its names; the 2-byte prefix of the op log is exact where it fits.
-/

namespace EntitySync.Router

open Rules
open Json (Value)
open Oplog (idBytes maxBucketIdLen makeKey makeRangeStart makeBucketRangeEnd)

/-- The bytes of `name="value"` with a value of the greatest length that the allowlist admits. -/
def longestField (name : String) : Nat := name.utf8ByteSize + 131

/-- The bytes of the longest partition key of a rule: its id, the colon, one field for each of its
parameters and the commas between them. A name that is declared twice has one field. -/
def longestKey (rule : SyncRule) : Nat :=
  rule.id.utf8ByteSize + 1 + (rule.parameters.dedup.map longestField).sum +
    (rule.parameters.dedup.length - 1)

/-- The rules file parses to the rule set and `BucketAssigner::new` takes it. -/
def Accepted (fromStr : String → Except TomlError RawDocument) (contents : String)
    (ruleSet : SyncRuleSet) : Prop :=
  parseSyncRulesStr fromStr contents = .ok ruleSet ∧
    ∃ cacheTtl assigner, BucketAssigner.new ruleSet cacheTtl = .ok assigner

/-- An assigner of an accepted rules file gives out this id, with whatever is in its cache. -/
def Made (fromStr : String → Except TomlError RawDocument) (deployed : String → Prop)
    (b : BucketId) : Prop :=
  ∃ contents ruleSet, deployed contents ∧ Accepted fromStr contents ruleSet ∧
    ∃ self : BucketAssigner, self.ruleSet = ruleSet ∧ ∃ clock db claims as,
      (self.assign clock db claims).1 = .ok as ∧ ∃ a ∈ as, a.bucketId = b

def InScan (b : BucketId) (fromLsn : PgLsn) (key : List UInt8) : Prop :=
  (compare (makeRangeStart b fromLsn) key).isLE ∧ compare key (makeBucketRangeEnd b) = .lt

structure PrefixExact (made : BucketId → Prop) : Prop where
  bounded : ∀ b, made b → (idBytes b).length ≤ maxBucketIdLen
  exact : ∀ b, made b → (UInt16.ofNat (idBytes b).length).toNat = (idBytes b).length
  isolated : ∀ a b, made a → made b → a ≠ b → ∀ lsn fromLsn, ¬InScan b fromLsn (makeKey a lsn)

/-! ### Byte lengths -/

theorem length_idBytes (b : BucketId) : (idBytes b).length = b.val.utf8ByteSize := rfl

theorem idBytes_append (s t : String) : idBytes ⟨s ++ t⟩ = idBytes ⟨s⟩ ++ idBytes ⟨t⟩ := by
  simp [idBytes, String.toByteArray_append]

theorem utf8ByteSize_intercalate_comma (parts : List String) :
    (",".intercalate parts).utf8ByteSize =
      (parts.map String.utf8ByteSize).sum + (parts.length - 1) := by
  induction parts with
  | nil => simp
  | cons x parts ih =>
    cases parts with
    | nil => simp
    | cons y parts =>
      have hcomma : ",".utf8ByteSize = 1 := rfl
      rw [String.intercalate_cons_cons, String.utf8ByteSize_append, String.utf8ByteSize_append,
        hcomma, ih]
      simp only [List.map_cons, List.sum_cons, List.length_cons]
      omega

theorem utf8ByteSize_eq_length {s : String} (h : ∀ c ∈ s.toList, c.utf8Size = 1) :
    s.utf8ByteSize = s.toList.length := by
  have hchars (cs : List Char) (hcs : ∀ c ∈ cs, c.utf8Size = 1) :
      (String.ofList cs).utf8ByteSize = cs.length := by
    induction cs with
    | nil => rfl
    | cons c cs ih =>
      have hcons : String.ofList (c :: cs) = String.singleton c ++ String.ofList cs := by
        apply String.toList_injective
        simp
      rw [hcons, String.utf8ByteSize_append, String.utf8ByteSize_singleton,
        hcs c List.mem_cons_self, ih fun d hd => hcs d (List.mem_cons_of_mem _ hd),
        List.length_cons, Nat.add_comm]
  have hs := hchars s.toList h
  rwa [String.ofList_toList] at hs

theorem utf8Size_of_isSafeChar {c : Char} (h : isSafeChar c = true) : c.utf8Size = 1 := by
  rw [Char.utf8Size_eq_one_iff]
  simp only [isSafeChar, Bool.or_eq_true, beq_iff_eq] at h
  obtain (halpha | rfl) | rfl := h
  · have hranges := toNat_of_isAlphanum halpha
    apply UInt32.le_iff_toNat_le.mpr
    show c.toNat ≤ 127
    omega
  · decide
  · decide

theorem utf8ByteSize_of_safe {s : String} (h : validateSafeValue s = true) :
    s.utf8ByteSize = s.toList.length ∧ s.toList.length ≤ 128 := by
  simp only [validateSafeValue, Bool.and_eq_true, decide_eq_true_eq, List.all_eq_true] at h
  exact ⟨utf8ByteSize_eq_length fun c hc => utf8Size_of_isSafeChar (h.2 c hc), h.1.2⟩

theorem quote_of_safe {s : String} (h : validateSafeValue s = true) :
    Json.quote s = "\x22" ++ s ++ "\x22" := by
  simp only [validateSafeValue, Bool.and_eq_true, List.all_eq_true] at h
  apply String.toList_injective
  rw [Json.toList_quote_of_plain fun c hc => isSafeChar_plain (h.2 c hc)]
  simp

/-! ### The length of a partition key -/

def valueLength : Value → Nat
  | .string s => s.toList.length
  | _ => 0

def fieldLength (entry : (_ : String) × Value) : Nat :=
  entry.1.utf8ByteSize + 3 + valueLength entry.2

theorem utf8ByteSize_field {name s : String} (h : validateSafeValue s = true) :
    (name ++ "=" ++ (Value.string s).toText).utf8ByteSize = fieldLength ⟨name, .string s⟩ := by
  have hequals : "=".utf8ByteSize = 1 := rfl
  have hquote : "\x22".utf8ByteSize = 1 := rfl
  simp only [Value.toText, quote_of_safe h, String.utf8ByteSize_append, hequals, hquote,
    (utf8ByteSize_of_safe h).1, fieldLength, valueLength]
  omega

theorem length_bucketId {rule : SyncRule} {a : BucketAssignment} (h : Resolution rule a) :
    (idBytes a.bucketId).length = rule.id.utf8ByteSize + 1 +
      (a.parameters.entries.map fieldLength).sum + (a.parameters.entries.length - 1) := by
  have hperm := sortedEntries_perm a.parameters
  have hfields : ((sortedEntries a.parameters).map fun entry =>
      entry.1 ++ "=" ++ entry.2.toText).map String.utf8ByteSize =
        (sortedEntries a.parameters).map fieldLength := by
    rw [List.map_map]
    apply List.map_congr_left
    intro entry hentry
    have hlookup := AList.mem_lookup_iff.mpr (hperm.mem_iff.mp hentry)
    obtain ⟨s, hs, hsafe⟩ := h.safe entry.1 entry.2 hlookup
    have hfield := @utf8ByteSize_field entry.1 s hsafe
    rw [← hs] at hfield
    exact hfield
  have hcolon : ":".utf8ByteSize = 1 := rfl
  rw [h.bucketId, length_idBytes, partitionKey, parameterKey]
  simp only [String.utf8ByteSize_append, utf8ByteSize_intercalate_comma, hfields, hcolon,
    List.length_map]
  rw [(hperm.map fieldLength).sum_eq, hperm.length_eq]
  omega

theorem keys_perm_dedup {rule : SyncRule} {a : BucketAssignment} (h : Resolution rule a) :
    a.parameters.keys.Perm rule.parameters.dedup := by
  apply (List.perm_ext_iff_of_nodup a.parameters.keys_nodup (List.nodup_dedup _)).mpr
  intro name
  rw [List.mem_dedup, ← h.names, AList.mem_keys]

theorem longestKey_eq {rule : SyncRule} {a : BucketAssignment} (h : Resolution rule a) :
    longestKey rule = rule.id.utf8ByteSize + 1 +
      (a.parameters.entries.map fun entry => longestField entry.1).sum +
        (a.parameters.entries.length - 1) := by
  have hperm := keys_perm_dedup h
  have hsum := (hperm.map longestField).sum_eq
  have hcount := hperm.length_eq
  rw [AList.keys, List.keys, List.map_map] at hsum
  rw [AList.keys, List.keys, List.length_map] at hcount
  rw [longestKey, ← hsum, ← hcount]
  rfl

/-- Where every value has the greatest length, the key has it too. -/
theorem length_eq_longestKey {rule : SyncRule} {a : BucketAssignment} (h : Resolution rule a)
    (hlong : ∀ entry ∈ a.parameters.entries, valueLength entry.2 = 128) :
    (idBytes a.bucketId).length = longestKey rule := by
  have hfields : a.parameters.entries.map fieldLength =
      a.parameters.entries.map fun entry => longestField entry.1 := by
    apply List.map_congr_left
    intro entry hentry
    rw [fieldLength, hlong entry hentry, longestField]
  rw [length_bucketId h, longestKey_eq h, hfields]

theorem length_le_longestKey {rule : SyncRule} {a : BucketAssignment} (h : Resolution rule a) :
    (idBytes a.bucketId).length ≤ longestKey rule := by
  have hfields : (a.parameters.entries.map fieldLength).sum ≤
      (a.parameters.entries.map fun entry => longestField entry.1).sum := by
    apply List.sum_le_sum
    intro entry hentry
    obtain ⟨s, hs, hsafe⟩ := h.safe entry.1 entry.2 (AList.mem_lookup_iff.mpr hentry)
    have hshort := (utf8ByteSize_of_safe hsafe).2
    simp only [fieldLength, hs, valueLength, longestField]
    omega
  rw [length_bucketId h, longestKey_eq h]
  omega

/-! ### Keys that are made -/

theorem resolveParameters_answer {db : Database} {rule : SyncRule} {claims : TokenClaims}
    {value : String} (hdb : ∀ k query sub, db k query sub = .ok (some (.text value))) {k : Nat}
    {names : List String} {ps qs : ResolvedParameters}
    (h : resolveParameters db rule claims k names ps = .ok (some qs))
    (hps : ∀ name v, ps.json.lookup name = some v → v = .string value) :
    ∀ name v, qs.json.lookup name = some v → v = .string value := by
  induction names generalizing k ps with
  | nil =>
    cases h
    exact hps
  | cons name names ih =>
    rw [resolveParameters] at h
    split at h
    · cases h
    · simp only [hdb, Column.toText] at h
      split at h
      next =>
        apply ih h
        intro other v hv
        by_cases heq : other = name
        · subst heq
          simp only [ResolvedParameters.insert, AList.lookup_insert, Option.some.injEq] at hv
          exact hv.symm
        · simp only [ResolvedParameters.insert, AList.lookup_insert_ne heq] at hv
          exact hps other v hv
      next => cases h

variable {fromStr : String → Except TomlError RawDocument} {deployed : String → Prop}

/-- Every rule of an accepted file has keys with any safe value for its parameters. -/
theorem exists_made {contents : String} {ruleSet : SyncRuleSet} (hcontents : deployed contents)
    (haccepted : Accepted fromStr contents ruleSet) {rule : SyncRule}
    (hrule : rule ∈ ruleSet.rules.values) {value : String}
    (hsafe : validateSafeValue value = true) :
    ∃ a, Made fromStr deployed a.bucketId ∧ Resolution rule a ∧
      ∀ entry ∈ a.parameters.entries, entry.2 = .string value := by
  obtain ⟨cacheTtl, assigner, hnew⟩ := haccepted.2
  obtain ⟨as, has, hrules⟩ := @exists_assigned_of_answer _ _ _ hnew (answerUser value) value
    hsafe fun _ _ _ _ => rfl
  obtain ⟨ps, hps, a, ha, hresolve⟩ := hrules rule hrule
  have hvalues := @resolveParameters_answer _ _ _ value (fun _ _ _ => rfl) _ _ _ _ hps (by simp)
  have hparameters : a.parameters = ps.json := by
    obtain ⟨b, hb, hparameters, _⟩ := resolveRule_of_resolved
      (validRule_of_mem (BucketAssigner.of_new hnew).1 hrule) hps
    rw [hb] at hresolve
    cases hresolve
    exact hparameters
  refine ⟨a, ⟨contents, ruleSet, hcontents, haccepted, assigner,
    (BucketAssigner.of_new hnew).2.1, _, _, _, as, has, a, ha, rfl⟩,
    resolveRule_resolution hresolve, ?_⟩
  intro entry hentry
  rw [hparameters] at hentry
  exact hvalues entry.1 entry.2 (AList.mem_lookup_iff.mpr hentry)

theorem length_replicated (n : Nat) (c : Char) :
    (String.ofList (List.replicate n c)).toList.length = n := by
  rw [String.toList_ofList, List.length_replicate]

theorem validateSafeValue_replicated {n : Nat} (hpos : 1 ≤ n) (hle : n ≤ 128) :
    validateSafeValue (String.ofList (List.replicate n 'a')) = true := by
  have hchars : (String.ofList (List.replicate n 'a')).toList.all isSafeChar = true := by
    rw [String.toList_ofList, List.all_eq_true]
    intro c hc
    rw [List.eq_of_mem_replicate hc]
    decide
  rw [validateSafeValue, length_replicated, hchars]
  simp [hpos, hle]

theorem exists_made_longest {contents : String} {ruleSet : SyncRuleSet}
    (hcontents : deployed contents) (haccepted : Accepted fromStr contents ruleSet)
    {rule : SyncRule} (hrule : rule ∈ ruleSet.rules.values) :
    ∃ b, Made fromStr deployed b ∧ (idBytes b).length = longestKey rule := by
  obtain ⟨a, hmade, hres, hvalues⟩ := @exists_made _ _ _ _ hcontents haccepted _ hrule
    _ (validateSafeValue_replicated (n := 128) (by decide) le_rfl)
  refine ⟨a.bucketId, hmade, length_eq_longestKey hres ?_⟩
  intro entry hentry
  rw [hvalues entry hentry]
  exact length_replicated 128 'a'

theorem Made.exists_rule {b : BucketId} (h : Made fromStr deployed b) :
    ∃ contents ruleSet, deployed contents ∧ Accepted fromStr contents ruleSet ∧
      ∃ rule ∈ ruleSet.rules.values, (idBytes b).length ≤ longestKey rule := by
  obtain ⟨contents, ruleSet, hcontents, haccepted, self, hself, clock, db, claims, as, has, a, ha,
    rfl⟩ := h
  obtain ⟨rule, hrule, _, _, hresolve⟩ := BucketAssigner.assign_resolved has a ha
  rw [hself] at hrule
  exact ⟨contents, ruleSet, hcontents, haccepted, rule, hrule,
    length_le_longestKey (resolveRule_resolution hresolve)⟩

/-- The length prefix is exact for every bucket id that assigners of the deployed rules files make,
and their scans are isolated, exactly if the longest key of every rule of every accepted file fits
the prefix. -/
theorem prefixExact_iff :
    PrefixExact (Made fromStr deployed) ↔
      ∀ contents ruleSet, deployed contents → Accepted fromStr contents ruleSet →
        ∀ rule ∈ ruleSet.rules.values, longestKey rule ≤ maxBucketIdLen := by
  constructor
  · intro h contents ruleSet hcontents haccepted rule hrule
    obtain ⟨b, hb, hlength⟩ := exists_made_longest hcontents haccepted hrule
    rw [← hlength]
    exact h.bounded b hb
  · intro h
    have hbounded (b : BucketId) (hb : Made fromStr deployed b) :
        (idBytes b).length ≤ maxBucketIdLen := by
      obtain ⟨contents, ruleSet, hcontents, haccepted, rule, hrule, hlength⟩ := hb.exists_rule
      exact hlength.trans (h contents ruleSet hcontents haccepted rule hrule)
    refine ⟨hbounded, fun b hb => Oplog.lengthPrefix_toNat (hbounded b hb), ?_⟩
    intro a b ha hb hne lsn fromLsn hscan
    exact hne ((Oplog.makeKey_mem_range (hbounded a ha) (hbounded b hb)).mp hscan).1

/-! Two versions of a rules file: in the second one, bucket `a` has a parameter. -/

private def allEntities : HashMap String String :=
  (∅ : HashMap String String).insert "entities" "SELECT * FROM entities"

private def narrowDocument : RawDocument :=
  ⟨none, some ((∅ : HashMap String RawBucket).insert "a" ⟨none, none, none, some allEntities⟩)⟩

private def wideDocument (name : String) : RawDocument :=
  ⟨none, some ((∅ : HashMap String RawBucket).insert "a" {
    description := none
    parameters := some [name]
    parameterQueries := some ((∅ : HashMap String String).insert name
      "SELECT id FROM users WHERE auth_user_id = $1")
    data := some allEntities })⟩

private def narrowToml : String := "[buckets.a.data]\nentities = \x22SELECT * FROM entities\x22\n"

private def wideToml (name : String) : String :=
  narrowToml ++ "[buckets.a]\nparameters = [\x22" ++ name ++ "\x22]\n" ++
  "[buckets.a.parameter_queries]\n" ++ name ++
  " = \x22SELECT id FROM users WHERE auth_user_id = $1\x22\n"

private def parseVersions (name contents : String) : Except TomlError RawDocument :=
  if contents = narrowToml then .ok narrowDocument
  else if contents = wideToml name then .ok (wideDocument name)
  else .error ⟨"unknown document", none⟩

private theorem narrowToml_ne_wideToml (name : String) : wideToml name ≠ narrowToml := by
  intro h
  have hsize := congrArg String.utf8ByteSize h
  have hheader : "[buckets.a]\nparameters = [\x22".utf8ByteSize = 27 := rfl
  simp only [wideToml, String.utf8ByteSize_append, hheader] at hsize
  omega

private theorem narrow_made (name : String) :
    Made (parseVersions name) (fun _ => True) ⟨"a:"⟩ := by
  have hparsed : parseSyncRulesStr (parseVersions name) narrowToml =
      .ok narrowDocument.toRuleSet := by
    simp [parseSyncRulesStr, parseVersions]
  exact ⟨narrowToml, _, trivial, ⟨hparsed, 1, _, rfl⟩,
    ⟨narrowDocument.toRuleSet, by decide, ∅, by simp, 1⟩, rfl, ⟨0, 0⟩, answerUser "0", ⟨"", 1⟩, _,
    rfl, _, List.mem_cons_self, rfl⟩

private theorem validate_wide (name : String) :
    validate (wideDocument name).toRuleSet = .ok () := by
  apply Checks.forM_eq_ok.mpr
  intro entry hentry
  obtain rfl := List.mem_singleton.mp hentry
  apply validateRule_eq_ok.mpr
  have hid : isBucketId "a".toList = true := by decide
  refine ⟨hid, ?_, ?_, ?_⟩
  · intro param hparam
    obtain rfl := List.mem_singleton.mp hparam
    exact (AList.mem_insert _).mpr (Or.inl rfl)
  · intro param query hquery
    obtain rfl := List.mem_singleton.mp (AssocMap.mem_values_of_lookup hquery)
    have hplaceholders : placeholders "SELECT id FROM users WHERE auth_user_id = $1".toList =
        ["1"] := by decide
    rw [hplaceholders]
    simp
  · intro param query hquery
    obtain rfl := List.mem_singleton.mp (AssocMap.mem_values_of_lookup hquery)
    have hreferences : references "SELECT * FROM entities" = [] := by decide
    rw [hreferences]
    simp

private theorem wide_made (name : String) :
    Made (parseVersions name) (fun _ => True) ⟨"a:" ++ name ++ "=\x220\x22"⟩ := by
  have hparsed : parseSyncRulesStr (parseVersions name) (wideToml name) =
      .ok (wideDocument name).toRuleSet := by
    simp [parseSyncRulesStr, parseVersions, narrowToml_ne_wideToml]
  obtain ⟨assigner, hnew⟩ := BucketAssigner.exists_new (validate_wide name) 1
  obtain ⟨a, hmade, hres, hvalues⟩ := @exists_made (parseVersions name) (fun _ => True) _ _ trivial
    ⟨hparsed, 1, _, hnew⟩ _ List.mem_cons_self "0" (by decide)
  have hentries : a.parameters.entries = [⟨name, .string "0"⟩] := by
    have hkeys : a.parameters.entries.map Sigma.fst = [name] := by
      exact List.perm_singleton.mp (keys_perm_dedup hres)
    obtain ⟨entry, hentry, hname⟩ := List.map_eq_singleton_iff.mp hkeys
    rw [hentry]
    have hvalue := hvalues entry (by simp [hentry])
    rw [← hname, ← hvalue]
  have hkey : parameterKey a.parameters = name ++ "=" ++ "\x220\x22" := by
    rw [parameterKey, sortedEntries, hentries]
    simp [String.intercalate_singleton]
    rfl
  have htext : "a" ++ ":" ++ (name ++ "=" ++ "\x220\x22") = "a:" ++ name ++ "=\x220\x22" := by
    apply String.toList_injective
    simp
  rw [hres.bucketId, partitionKey, hkey] at hmade
  exact htext ▸ hmade

/-- An id that starts with the bytes of `a:` has its keys among those of `a:` when the prefix
says 2. -/
private theorem inScan_narrow {b : BucketId} {rest : List UInt8}
    (hbytes : idBytes b = [97, 58, 112] ++ rest)
    (hcast : (UInt16.ofNat (idBytes b).length).toNat = 2) (lsn : PgLsn) :
    InScan ⟨"a:"⟩ 0 (makeKey b lsn) := by
  have hstart : makeRangeStart ⟨"a:"⟩ 0 = [0, 2, 97, 58, 0, 0, 0, 0, 0, 0, 0, 0] := by decide
  have hend : makeBucketRangeEnd ⟨"a:"⟩ =
      [0, 2, 97, 58, 255, 255, 255, 255, 255, 255, 255, 255] := by decide
  have htwo : BigEndian.bytes 2 2 = [0, 2] := by decide
  rw [InScan, hstart, hend, makeKey, hcast, htwo, hbytes]
  exact ⟨rfl, rfl⟩

private def wideName (n : Nat) : String := "p" ++ String.ofList (List.replicate n 'p')

private def wideId (n : Nat) : BucketId := ⟨"a:" ++ wideName n ++ "=\x220\x22"⟩

private theorem length_wideId (n : Nat) : (idBytes (wideId n)).length = n + 7 := by
  have hreplicated : (String.ofList (List.replicate n 'p')).utf8ByteSize = n := by
    rw [utf8ByteSize_eq_length, length_replicated]
    intro c hc
    rw [String.toList_ofList] at hc
    rw [List.eq_of_mem_replicate hc]
    decide
  have hopening : "a:".utf8ByteSize = 2 := rfl
  have hfirst : "p".utf8ByteSize = 1 := rfl
  have hvalue : "=\x220\x22".utf8ByteSize = 4 := rfl
  rw [length_idBytes, wideId, wideName]
  simp only [String.utf8ByteSize_append, hreplicated, hopening, hfirst, hvalue]
  omega

private theorem idBytes_wideId (n : Nat) : ∃ rest, idBytes (wideId n) = [97, 58, 112] ++ rest := by
  have htext : "a:" ++ wideName n ++ "=\x220\x22" =
      "a:p" ++ (String.ofList (List.replicate n 'p') ++ "=\x220\x22") := by
    apply String.toList_injective
    simp [wideName]
  rw [wideId, htext, idBytes_append]
  exact ⟨_, rfl⟩

private theorem wideId_ne (n : Nat) : wideId n ≠ ⟨"a:"⟩ := by
  intro h
  have hlength := length_wideId n
  have htwo : (idBytes ⟨"a:"⟩).length = 2 := rfl
  rw [h, htwo] at hlength
  omega

/-- A parameter name of 65532 characters passes validation. The id made from it has 65538 bytes and
the prefix 2, so its keys lie in the scan range of the bucket that `a` was before. -/
theorem wide_name_enters_scan : ∃ fromStr wide, Made fromStr (fun _ => True) ⟨"a:"⟩ ∧
    Made fromStr (fun _ => True) wide ∧ wide ≠ ⟨"a:"⟩ ∧ (idBytes wide).length = 65538 ∧
    (UInt16.ofNat (idBytes wide).length).toNat = 2 ∧ InScan ⟨"a:"⟩ 0 (makeKey wide 7) ∧
    ¬PrefixExact (Made fromStr fun _ => True) := by
  have hlength := length_wideId 65531
  have hcast : (UInt16.ofNat (idBytes (wideId 65531)).length).toNat = 2 := by
    rw [hlength]
    rfl
  have hmade := wide_made (wideName 65531)
  obtain ⟨rest, hbytes⟩ := idBytes_wideId 65531
  refine ⟨_, wideId 65531, narrow_made _, hmade, wideId_ne 65531, hlength, hcast,
    inScan_narrow hbytes hcast 7, ?_⟩
  intro h
  have hfits : (idBytes (wideId 65531)).length ≤ maxBucketIdLen := h.bounded _ hmade
  rw [hlength] at hfits
  exact absurd hfits (by decide)

end EntitySync.Router
