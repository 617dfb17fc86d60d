import EntitySync.Library.Delimited
import EntitySync.Rules.Assigner

/-!
# Partition keys identify tenants

A partition key reads `rule:name="value",name="value"` with the parameters in name order. Rule
ids contain no colon, one rule always resolves the same set of names, and the value allowlist
excludes the quote, so the key determines the rule and the values although the names are
arbitrary strings.
-/

namespace EntitySync.Rules

open Json (Value)

structure Resolution (rule : SyncRule) (a : BucketAssignment) : Prop where
  ruleId : a.ruleId = rule.id
  bucketId : a.bucketId = partitionKey rule.id a.parameters
  names : ∀ name, name ∈ a.parameters ↔ name ∈ rule.parameters
  safe : ∀ name v, a.parameters.lookup name = some v →
    ∃ s, v = .string s ∧ validateSafeValue s = true
  queries : ∀ name, name ∈ a.dataQueries ↔ name ∈ rule.dataQueries

/-- The loop invariant of the parameter loop after the names `done`. -/
structure Progress (done : List String) (ps : ResolvedParameters) : Prop where
  names : ∀ name, name ∈ ps.json ↔ name ∈ done
  json : ∀ name, ps.json.lookup name = (ps.texts.lookup name).map .string
  safe : ∀ name value, ps.texts.lookup name = some value → validateSafeValue value = true

theorem progress_empty : Progress [] ⟨∅, ∅⟩ := ⟨by simp, by simp, by simp⟩

theorem Progress.insert {done : List String} {ps : ResolvedParameters} (h : Progress done ps)
    (name : String) {value : String} (hvalue : validateSafeValue value = true) :
    Progress (done ++ [name]) (ps.insert name value) := by
  constructor
  · intro other
    rw [ResolvedParameters.insert, AList.mem_insert, h.names, List.mem_append,
      List.mem_singleton, or_comm]
  · intro other
    by_cases heq : other = name
    · subst heq
      simp [ResolvedParameters.insert]
    · simpa [ResolvedParameters.insert, AList.lookup_insert_ne heq] using h.json other
  · intro other v hv
    by_cases heq : other = name
    · subst heq
      rw [ResolvedParameters.insert, AList.lookup_insert, Option.some.injEq] at hv
      exact hv ▸ hvalue
    · rw [ResolvedParameters.insert, AList.lookup_insert_ne heq] at hv
      exact h.safe other v hv

theorem Progress.exists_string {done : List String} {ps : ResolvedParameters}
    (h : Progress done ps) {name : String} {v : Value} (hv : ps.json.lookup name = some v) :
    ∃ s, v = .string s ∧ validateSafeValue s = true := by
  rw [h.json, Option.map_eq_some_iff] at hv
  obtain ⟨s, hs, rfl⟩ := hv
  exact ⟨s, rfl, h.safe name s hs⟩

theorem resolveParameters_progress {db : Database} {rule : SyncRule} {claims : TokenClaims}
    {k : Nat} {names done : List String} {ps qs : ResolvedParameters}
    (h : resolveParameters db rule claims k names ps = .ok (some qs))
    (hps : Progress done ps) : Progress (done ++ names) qs := by
  induction names generalizing k done ps with
  | nil =>
    cases h
    rwa [List.append_nil]
  | cons name names ih =>
    rw [resolveParameters] at h
    split at h
    · cases h
    · split at h
      · cases h
      · cases h
      · split at h
        · cases h
        · split at h
          next hvalue =>
            rw [List.append_cons]
            exact ih h (hps.insert name hvalue)
          next => cases h

private theorem mem_renderQueries {ruleId : String} {texts : HashMap String String}
    {entries : List ((_ : String) × String)} {rendered queries : HashMap String String}
    (h : renderQueries ruleId texts entries rendered = .ok queries) (name : String) :
    name ∈ queries ↔ name ∈ rendered ∨ name ∈ entries.map Sigma.fst := by
  induction entries generalizing rendered with
  | nil =>
    cases h
    simp
  | cons entry entries ih =>
    rw [renderQueries] at h
    split at h
    · cases h
    · rw [ih h, AList.mem_insert, List.map_cons, List.mem_cons]
      tauto

theorem resolveRule_resolution {db : Database} {rule : SyncRule} {claims : TokenClaims}
    {a : BucketAssignment} (h : resolveRule db rule claims = .ok (some a)) :
    Resolution rule a := by
  rw [resolveRule] at h
  split at h
  · cases h
  · cases h
  next ps hps =>
    split at h
    · cases h
    next queries hqueries =>
      cases h
      have hdone := resolveParameters_progress hps progress_empty
      refine ⟨rfl, rfl, hdone.names, fun name v => hdone.exists_string, ?_⟩
      intro name
      have hmem := mem_renderQueries hqueries name
      simpa [AList.mem_keys, AList.keys, List.keys] using hmem

theorem ResolvedFrom.resolution {ruleSet : SyncRuleSet} (hvalid : validate ruleSet = .ok ())
    {a : BucketAssignment} (h : ResolvedFrom ruleSet a) :
    ∃ rule, ruleSet.rules.lookup a.ruleId = some rule ∧ ValidRule a.ruleId rule ∧
      Resolution rule a := by
  obtain ⟨rule, hmem, db, claims, hresolve⟩ := h
  have hres := resolveRule_resolution hresolve
  obtain ⟨id, hlookup⟩ := AssocMap.mem_values.mp hmem
  have hid : a.ruleId = id := hres.ruleId.trans (ruleSet.keyed id rule hlookup)
  rw [hid]
  exact ⟨rule, hlookup, validateRule_eq_ok.mp (validateRule_of_validate hvalid hlookup), hres⟩

theorem sortedEntries_perm (m : HashMap String Value) : (sortedEntries m).Perm m.entries :=
  List.perm_insertionSort _ _

private theorem sortedEntries_sorted (m : HashMap String Value) :
    ((sortedEntries m).map Sigma.fst).Pairwise (· ≤ ·) := by
  rw [List.pairwise_map]
  have htotal : Std.Total fun a b : (_ : String) × Value => a.1 ≤ b.1 :=
    ⟨fun a b => le_total a.1 b.1⟩
  have htrans : IsTrans ((_ : String) × Value) fun a b => a.1 ≤ b.1 :=
    ⟨fun a b c => le_trans⟩
  exact List.pairwise_insertionSort _ _

private theorem sortedNames_eq {m n : HashMap String Value} (h : ∀ name, name ∈ m ↔ name ∈ n) :
    (sortedEntries m).map Sigma.fst = (sortedEntries n).map Sigma.fst := by
  have hkeys : m.keys.Perm n.keys :=
    (List.perm_ext_iff_of_nodup m.keys_nodup n.keys_nodup).mpr h
  have hperm : ((sortedEntries m).map Sigma.fst).Perm ((sortedEntries n).map Sigma.fst) :=
    ((sortedEntries_perm m).map _).trans (hkeys.trans ((sortedEntries_perm n).map _).symm)
  exact hperm.eq_of_pairwise (fun _ _ _ _ => le_antisymm) (sortedEntries_sorted m)
    (sortedEntries_sorted n)

private theorem sortedEntries_eq {m n : HashMap String Value}
    (h : m.entries.Perm n.entries) : sortedEntries m = sortedEntries n := by
  have hperm := ((sortedEntries_perm m).trans h).trans (sortedEntries_perm n).symm
  have hsorted (l : HashMap String Value) :
      (sortedEntries l).Pairwise fun a b => a.1 ≤ b.1 :=
    List.pairwise_map.mp (sortedEntries_sorted l)
  refine hperm.eq_of_pairwise ?_ (hsorted m) (hsorted n)
  intro a b ha hb hab hba
  have hname : a.1 = b.1 := le_antisymm hab hba
  have hma : m.lookup a.1 = some a.2 :=
    AList.mem_lookup_iff.mpr ((sortedEntries_perm m).mem_iff.mp ha)
  have hnb : n.lookup b.1 = some b.2 :=
    AList.mem_lookup_iff.mpr ((sortedEntries_perm n).mem_iff.mp hb)
  rw [AList.perm_lookup h, hname, hnb, Option.some.injEq] at hma
  exact Sigma.ext hname (heq_of_eq hma.symm)

private def valueChars : Value → List Char
  | .string s => s.toList
  | _ => []

private def entryChars (entry : (_ : String) × Value) : List Char × List Char :=
  (entry.1.toList, valueChars entry.2)

private def AllSafe (m : HashMap String Value) : Prop :=
  ∀ name v, m.lookup name = some v → ∃ s, v = .string s ∧ validateSafeValue s = true

private theorem AllSafe.entry {m : HashMap String Value} (h : AllSafe m)
    {entry : (_ : String) × Value} (hentry : entry ∈ sortedEntries m) :
    ∃ s, entry.2 = .string s ∧ ∀ c ∈ s.toList, isSafeChar c = true := by
  have hlookup : m.lookup entry.1 = some entry.2 :=
    AList.mem_lookup_iff.mpr ((sortedEntries_perm m).mem_iff.mp hentry)
  obtain ⟨s, hs, hsafe⟩ := h entry.1 entry.2 hlookup
  rw [validateSafeValue, Bool.and_eq_true, List.all_eq_true] at hsafe
  exact ⟨s, hs, hsafe.2⟩

private theorem toList_parameterKey {m : HashMap String Value} (h : AllSafe m) :
    (parameterKey m).toList = [','].intercalate
      (((sortedEntries m).map entryChars).map (Delimited.field ['=', '\x22'] '\x22')) := by
  rw [parameterKey, String.toList_intercalate, List.map_map, List.map_map]
  have hfields : (sortedEntries m).map
        (String.toList ∘ fun entry => entry.1 ++ "=" ++ entry.2.toText) =
      (sortedEntries m).map (Delimited.field ['=', '\x22'] '\x22' ∘ entryChars) := by
    apply List.map_congr_left
    intro entry hentry
    obtain ⟨s, hs, hsafe⟩ := h.entry hentry
    have hquote := Json.toList_quote_of_plain fun c hc => isSafeChar_plain (hsafe c hc)
    simp [hs, Value.toText, hquote, Delimited.field, entryChars, valueChars]
  rw [hfields]
  rfl

private theorem quote_notMem_entryChars {m : HashMap String Value} (h : AllSafe m) :
    ∀ e ∈ (sortedEntries m).map entryChars, '\x22' ∉ e.2 := by
  intro e he
  obtain ⟨entry, hentry, rfl⟩ := List.mem_map.mp he
  obtain ⟨s, hs, hsafe⟩ := h.entry hentry
  intro hmem
  rw [entryChars, hs] at hmem
  exact absurd (hsafe _ hmem) (by decide)

private theorem sortedEntries_of_entryChars {m : HashMap String Value} (h : AllSafe m) :
    ((sortedEntries m).map entryChars).map
        (fun e => (⟨String.ofList e.1, .string (String.ofList e.2)⟩ : (_ : String) × Value)) =
      sortedEntries m := by
  rw [List.map_map]
  conv_rhs => rw [← List.map_id (sortedEntries m)]
  apply List.map_congr_left
  intro entry hentry
  obtain ⟨s, hs, _⟩ := h.entry hentry
  refine Sigma.ext (by simp [entryChars]) (heq_of_eq ?_)
  simp [entryChars, hs, valueChars]

private theorem parameterKey_injective {m n : HashMap String Value}
    (hnames : ∀ name, name ∈ m ↔ name ∈ n) (hm : AllSafe m) (hn : AllSafe n)
    (h : parameterKey m = parameterKey n) : m.entries.Perm n.entries := by
  have htext := congrArg String.toList h
  rw [toList_parameterKey hm, toList_parameterKey hn] at htext
  have hfst : ((sortedEntries m).map entryChars).map Prod.fst =
      ((sortedEntries n).map entryChars).map Prod.fst := by
    have hsorted := congrArg (List.map String.toList) (sortedNames_eq hnames)
    simpa [List.map_map, Function.comp_def, entryChars] using hsorted
  have hchars := Delimited.intercalate_field_inj hfst (quote_notMem_entryChars hm)
    (quote_notMem_entryChars hn) htext
  have hsorted : sortedEntries m = sortedEntries n := by
    rw [← sortedEntries_of_entryChars hm, ← sortedEntries_of_entryChars hn, hchars]
  exact (sortedEntries_perm m).symm.trans (hsorted ▸ sortedEntries_perm n)

/-- Two assignments of one accepted rule set with the same partition key come from the same rule
and resolved the same values. -/
theorem ResolvedFrom.eq_of_bucketId {ruleSet : SyncRuleSet} (hvalid : validate ruleSet = .ok ())
    {a b : BucketAssignment} (ha : ResolvedFrom ruleSet a) (hb : ResolvedFrom ruleSet b)
    (h : a.bucketId = b.bucketId) :
    a.ruleId = b.ruleId ∧ ∀ name, a.parameters.lookup name = b.parameters.lookup name := by
  obtain ⟨ra, hra, hva, hresa⟩ := ha.resolution hvalid
  obtain ⟨rb, hrb, hvb, hresb⟩ := hb.resolution hvalid
  rw [hresa.bucketId, hresb.bucketId, ← hresa.ruleId, ← hresb.ruleId] at h
  have htext := congrArg (fun k => k.val.toList) h
  simp only [partitionKey, String.toList_append, List.append_assoc] at htext
  have hsplit := Delimited.append_cons_inj (colon_notMem_of_isBucketId hva.bucketId)
    (colon_notMem_of_isBucketId hvb.bucketId) htext
  have hrule : a.ruleId = b.ruleId := String.toList_injective hsplit.1
  have hsame : ra = rb := by
    rw [hrule, hrb, Option.some.injEq] at hra
    exact hra.symm
  have hnames : ∀ name, name ∈ a.parameters ↔ name ∈ b.parameters := by
    intro name
    rw [hresa.names, hresb.names, hsame]
  have hperm := parameterKey_injective hnames hresa.safe hresb.safe
    (String.toList_injective hsplit.2)
  exact ⟨hrule, fun name => AList.perm_lookup hperm⟩

theorem partitionKey_perm {m n : HashMap String Value} (h : m.entries.Perm n.entries)
    (ruleId : String) : partitionKey ruleId m = partitionKey ruleId n := by
  rw [partitionKey, partitionKey, parameterKey, parameterKey, sortedEntries_eq h]

theorem ResolvedFrom.bucketId_eq {ruleSet : SyncRuleSet} (hvalid : validate ruleSet = .ok ())
    {a : BucketAssignment} (ha : ResolvedFrom ruleSet a) :
    a.bucketId = partitionKey a.ruleId a.parameters := by
  obtain ⟨rule, _, _, hres⟩ := ha.resolution hvalid
  rw [hres.bucketId, hres.ruleId]

theorem ResolvedFrom.bucketId_of_same {ruleSet : SyncRuleSet} (hvalid : validate ruleSet = .ok ())
    {a b : BucketAssignment} (ha : ResolvedFrom ruleSet a) (hb : ResolvedFrom ruleSet b)
    (hrule : a.ruleId = b.ruleId)
    (hparameters : ∀ name, a.parameters.lookup name = b.parameters.lookup name) :
    a.bucketId = b.bucketId := by
  rw [ha.bucketId_eq hvalid, hb.bucketId_eq hvalid, hrule]
  exact partitionKey_perm (AssocMap.entries_perm_of_lookup hparameters) _

/-- Partition keys identify tenants: for a parsed and accepted rule set, two assignments have the
same `bucket_id` exactly when they have the same rule and the same resolved parameters, and the
`bucket_id` is the same for every iteration order of the parameter map. -/
theorem bucketId_eq_iff {assigner : BucketAssigner} {a b : BucketAssignment}
    (ha : ResolvedFrom assigner.ruleSet a) (hb : ResolvedFrom assigner.ruleSet b) :
    (a.bucketId = b.bucketId ↔
      a.ruleId = b.ruleId ∧ ∀ name, a.parameters.lookup name = b.parameters.lookup name) ∧
    ∀ visited : HashMap String Value, visited.entries.Perm a.parameters.entries →
      a.bucketId = partitionKey a.ruleId visited := by
  refine ⟨⟨fun h => ha.eq_of_bucketId assigner.valid hb h, ?_⟩, ?_⟩
  · intro h
    exact ha.bucketId_of_same assigner.valid hb h.1 h.2
  · intro visited hperm
    rw [ha.bucketId_eq assigner.valid]
    exact (partitionKey_perm hperm _).symm

theorem bucketId_eq_iff_two_users :
    (ownerAssignment "1").bucketId ≠ (ownerAssignment "2").bucketId := by
  intro h
  have hone : ResolvedFrom ownerAssigner.ruleSet (ownerAssignment "1") :=
    ⟨_, List.mem_cons_self, answerUser "1" "user_entities", ⟨"alice", 1⟩, rfl⟩
  have htwo : ResolvedFrom ownerAssigner.ruleSet (ownerAssignment "2") :=
    ⟨_, List.mem_cons_self, answerUser "2" "user_entities", ⟨"bob", 1⟩, rfl⟩
  have hsame := (bucketId_eq_iff hone htwo).1.mp h
  exact absurd (hsame.2 "user_id") (by decide)

end EntitySync.Rules
