import EntitySync.Library.SqlLexer
import EntitySync.Rules.RuleSet

/-!
# Parameter values and the structure of a query

Which data queries keep the same SQL tokens, up to the contents of string literals, whatever the
parameter values are.
-/

namespace EntitySync.Rules

open SqlLexer

def Covers (query : String) (resolvedParameters : HashMap String String) : Prop :=
  (∀ name ∈ references query, name ∈ resolvedParameters) ∧
    ∀ name value, resolvedParameters.lookup name = some value → validateSafeValue value = true

/-- Any two choices of parameter values give the same tokens up to the contents of literals. -/
def StableTokens (bucketId query : String) : Prop :=
  ∀ first second, Covers query first → Covers query second →
    ∃ text text', substitute bucketId query first = .ok text ∧
      substitute bucketId query second = .ok text' ∧ skeleton (lex text) = skeleton (lex text')

def RefsUnquoted : LexState → List Piece → Prop
  | _, [] => True
  | st, .lit c :: ps => RefsUnquoted (step st c).1 ps
  | st, .ref _ :: ps => ¬st.Quoted ∧ RefsUnquoted st.afterLiteral ps

instance decidableRefsUnquoted : (st : LexState) → (ps : List Piece) →
    Decidable (RefsUnquoted st ps)
  | _, [] => inferInstanceAs (Decidable True)
  | st, .lit c :: ps => decidableRefsUnquoted (step st c).1 ps
  | st, .ref _ :: ps =>
    have := decidableRefsUnquoted st.afterLiteral ps
    inferInstanceAs (Decidable (¬st.Quoted ∧ RefsUnquoted st.afterLiteral ps))

def templateTokens : LexState → List Piece → List Token
  | st, [] => skeleton (finish st)
  | st, .lit c :: ps => skeleton (step st c).2 ++ templateTokens (step st c).1 ps
  | st, .ref _ :: ps => skeleton st.beforeLiteral ++ templateTokens st.afterLiteral ps

def PlainOn (resolvedParameters : HashMap String String) (ps : List Piece) : Prop :=
  ∀ name, .ref name ∈ ps →
    ∀ c ∈ ((resolvedParameters.lookup (String.ofList name)).getD "").toList, Plain c

theorem plain_of_isSafeChar {c : Char} (h : isSafeChar c = true) : Plain c := by
  have hne (d : Char) (hd : isSafeChar d = false) : c ≠ d := by
    rintro rfl
    rw [h] at hd
    cases hd
  exact ⟨hne _ (by decide), hne _ (by decide), hne _ (by decide), hne _ (by decide),
    hne _ (by decide)⟩

theorem Covers.resolved {query : String} {ps : HashMap String String} (h : Covers query ps) :
    ∀ name ∈ references query, Resolved ps name := by
  intro name hname
  obtain ⟨value, hvalue⟩ := Option.isSome_iff_exists.mp (AList.lookup_isSome.mpr (h.1 _ hname))
  exact ⟨value, hvalue, h.2 _ _ hvalue⟩

theorem Covers.plainOn {query : String} {ps : HashMap String String} (h : Covers query ps) :
    PlainOn ps (pieces 0 query.toList) := by
  intro name hname c hc
  exact plain_of_isSafeChar (safeOn_of_resolved h.resolved name hname c hc)

theorem Covers.substitute {query : String} {ps : HashMap String String} (h : Covers query ps)
    (bucketId : String) :
    Rules.substitute bucketId query ps =
      .ok (String.ofList ((pieces 0 query.toList).flatMap (renderPiece ps))) :=
  substitute_eq_ok.mpr ⟨h.resolved, rfl⟩

/-- Outside of quotes, rendering a template gives its own tokens whatever the values are. -/
theorem skeleton_run_render {m : HashMap String String} {ps : List Piece} (hplain : PlainOn m ps)
    {st a : LexState} (h : st.erase = a.erase) (hunquoted : RefsUnquoted a ps) :
    skeleton (run st (ps.flatMap (renderPiece m))) = templateTokens a ps := by
  induction ps generalizing st a with
  | nil => simpa [run, templateTokens] using finish_congr h
  | cons p ps ih =>
    have hrest : PlainOn m ps := fun name hname => hplain name (List.mem_cons_of_mem _ hname)
    cases p with
    | lit c =>
      have hstep := step_congr h c
      rw [List.flatMap_cons, renderPiece, List.singleton_append, run_cons, skeleton_append,
        templateTokens, hstep.2, ih hrest hstep.1 hunquoted]
    | ref name =>
      have hst : ¬st.Quoted := (quoted_congr h).not.mpr hunquoted.1
      have hsteps := steps_literalText hst (hplain name List.mem_cons_self)
      have hcongr := afterLiteral_congr h
      have hnext := hsteps.1.trans (hcongr.1.trans (erase_afterLiteral a).symm)
      rw [List.flatMap_cons, renderPiece_ref, run_append, skeleton_append, hsteps.2, hcongr.2,
        templateTokens, ih hrest hnext hunquoted.2]

/-- The values `1` and `a` for the parameter give different tokens, whatever the other values. -/
def Separates (name : List Char) (a : LexState) (ps : List Piece) : Prop :=
  ∀ m m' : HashMap String String, PlainOn m ps → PlainOn m' ps →
    m.lookup (String.ofList name) = some "1" → m'.lookup (String.ofList name) = some "a" →
    ∀ st st' : LexState, st.erase = a.erase → st'.erase = a.erase →
      skeleton (run st (ps.flatMap (renderPiece m))) ≠
        skeleton (run st' (ps.flatMap (renderPiece m')))

theorem PlainOn.tail {m : HashMap String String} {p : Piece} {ps : List Piece}
    (h : PlainOn m (p :: ps)) : PlainOn m ps :=
  fun name hname => h name (List.mem_cons_of_mem _ hname)

theorem Separates.lit {name : List Char} {a : LexState} {ps : List Piece} {c : Char}
    (h : Separates name (step a c).1 ps) : Separates name a (.lit c :: ps) := by
  intro m m' hm hm' hone hletter st st' hst hst'
  have hstep := step_congr hst c
  have hstep' := step_congr hst' c
  rw [List.flatMap_cons, List.flatMap_cons, renderPiece, renderPiece, List.singleton_append,
    List.singleton_append, run_cons, run_cons, skeleton_append, skeleton_append, hstep.2, hstep'.2]
  intro heq
  exact h m m' hm.tail hm'.tail hone hletter _ _ hstep.1 hstep'.1 (List.append_cancel_left heq)

theorem Separates.ref {name other : List Char} {a : LexState} {ps : List Piece}
    (hquoted : ¬a.Quoted) (h : Separates name a.afterLiteral ps) :
    Separates name a (.ref other :: ps) := by
  intro m m' hm hm' hone hletter st st' hst hst'
  have hcongr := afterLiteral_congr hst
  have hcongr' := afterLiteral_congr hst'
  have hsteps := steps_literalText ((quoted_congr hst).not.mpr hquoted)
    (hm other List.mem_cons_self)
  have hsteps' := steps_literalText ((quoted_congr hst').not.mpr hquoted)
    (hm' other List.mem_cons_self)
  rw [List.flatMap_cons, List.flatMap_cons, renderPiece_ref, renderPiece_ref, run_append,
    run_append, skeleton_append, skeleton_append, hsteps.2, hsteps'.2, hcongr.2, hcongr'.2]
  intro heq
  refine h m m' hm.tail hm'.tail hone hletter _ _ ?_ ?_ (List.append_cancel_left heq)
  · rw [hsteps.1, hcongr.1, erase_afterLiteral]
  · rw [hsteps'.1, hcongr'.1, erase_afterLiteral]

theorem separates_of_quoted {name : List Char} {a : LexState} (hquoted : a.Quoted)
    (ps : List Piece) : Separates name a (.ref name :: ps) := by
  intro m m' _ _ hone hletter st st' hst hst'
  rw [List.flatMap_cons, List.flatMap_cons, renderPiece_ref, renderPiece_ref, hone, hletter]
  exact run_quoted_ne ((quoted_congr hst).mpr hquoted) (hst.trans hst'.symm) _ _

/-- A quoted reference makes the tokens depend on its value. -/
theorem exists_separates {ps : List Piece} {a : LexState} (h : ¬RefsUnquoted a ps) :
    ∃ name, .ref name ∈ ps ∧ Separates name a ps := by
  induction ps generalizing a with
  | nil => exact absurd trivial h
  | cons p ps ih =>
    cases p with
    | lit c =>
      obtain ⟨name, hname, hsep⟩ := ih h
      exact ⟨name, List.mem_cons_of_mem _ hname, hsep.lit⟩
    | ref other =>
      by_cases hquoted : a.Quoted
      · exact ⟨other, List.mem_cons_self, separates_of_quoted hquoted ps⟩
      · have hrest : ¬RefsUnquoted a.afterLiteral ps := fun hrest => h ⟨hquoted, hrest⟩
        obtain ⟨name, hname, hsep⟩ := ih hrest
        exact ⟨name, List.mem_cons_of_mem _ hname, hsep.ref hquoted⟩

def valuation (names : List String) (name value : String) : HashMap String String :=
  names.foldr (fun n m => m.insert n (if n = name then value else "0")) ∅

theorem lookup_valuation {names : List String} {n : String} (hn : n ∈ names)
    (name value : String) :
    (valuation names name value).lookup n = some (if n = name then value else "0") := by
  induction names with
  | nil => cases hn
  | cons first names ih =>
    change (AList.insert first _ (valuation names name value)).lookup n = _
    by_cases heq : n = first
    · rw [heq, AList.lookup_insert]
    · rw [AList.lookup_insert_ne heq]
      exact ih ((List.mem_cons.mp hn).resolve_left heq)

theorem covers_valuation (query name value : String)
    (hvalue : validateSafeValue value = true) :
    Covers query (valuation (references query) name value) := by
  constructor
  · intro n hn
    rw [← AList.lookup_isSome, lookup_valuation hn]
    rfl
  · intro n v hv
    have hchoice : v = value ∨ v = "0" := by
      revert hv
      induction references query with
      | nil => intro hv; cases hv
      | cons first names ih =>
        intro hv
        change (AList.insert first _ (valuation names name value)).lookup n = _ at hv
        by_cases heq : n = first
        · rw [heq, AList.lookup_insert] at hv
          split at hv <;> cases hv <;> simp
        · rw [AList.lookup_insert_ne heq] at hv
          exact ih hv
    rcases hchoice with rfl | rfl
    · exact hvalue
    · decide

/-- The parameter values leave the tokens of a data query alone, up to the contents of literals,
exactly if none of its references is inside a string literal or a delimited identifier. -/
theorem stableTokens_iff (bucketId query : String) :
    StableTokens bucketId query ↔ RefsUnquoted .ground (pieces 0 query.toList) := by
  constructor
  · intro hstable
    by_contra hquoted
    obtain ⟨name, hname, hsep⟩ := exists_separates hquoted
    have hone := covers_valuation query (String.ofList name) "1" (by decide)
    have hletter := covers_valuation query (String.ofList name) "a" (by decide)
    obtain ⟨text, text', htext, htext', heq⟩ := hstable _ _ hone hletter
    rw [hone.substitute] at htext
    rw [hletter.substitute] at htext'
    cases htext
    cases htext'
    refine hsep _ _ hone.plainOn hletter.plainOn ?_ ?_ .ground .ground rfl rfl ?_
    · rw [lookup_valuation (mem_references hname), if_pos rfl]
    · rw [lookup_valuation (mem_references hname), if_pos rfl]
    · simpa [lex] using heq
  · intro hunquoted first second hfirst hsecond
    refine ⟨_, _, hfirst.substitute bucketId, hsecond.substitute bucketId, ?_⟩
    rw [lex, lex, String.toList_ofList, String.toList_ofList,
      skeleton_run_render hfirst.plainOn rfl hunquoted,
      skeleton_run_render hsecond.plainOn rfl hunquoted]

private def quotedQuery : String :=
  "SELECT * FROM docs WHERE o = '\x7bbucket_parameters.user_id\x7d' AND shared"

private def quotedRules : SyncRuleSet :=
  let bucket : RawBucket := {
    description := none
    parameters := some ["user_id"]
    parameterQueries := some ((∅ : HashMap String String).insert "user_id"
      "SELECT id FROM users WHERE auth_user_id = $1")
    data := some ((∅ : HashMap String String).insert "docs" quotedQuery) }
  RawDocument.toRuleSet ⟨none, some ((∅ : HashMap String RawBucket).insert "docs" bucket)⟩

/-- An accepted query with a quoted reference: the safe value `--` becomes a comment that hides the
rest of the query, and the safe value `42` becomes a number. -/
theorem quoted_reference_becomes_token :
    validate quotedRules = .ok () ∧
    (∃ rule ∈ quotedRules.rules.values, quotedQuery ∈ rule.dataQueries.values) ∧
    Covers quotedQuery (valuation (references quotedQuery) "user_id" "--") ∧
    Covers quotedQuery (valuation (references quotedQuery) "user_id" "42") ∧
    ∃ text text',
      substitute "docs" quotedQuery (valuation (references quotedQuery) "user_id" "--") =
        .ok text ∧
      substitute "docs" quotedQuery (valuation (references quotedQuery) "user_id" "42") =
        .ok text' ∧
      (lex text).drop 7 = [.literal []] ∧
      (lex text').drop 7 = [.literal [], .number "42".toList, .literal [], .word "AND".toList,
        .word "shared".toList] ∧
      skeleton (lex text) ≠ skeleton (lex text') := by
  have hhidden : (lex "SELECT * FROM docs WHERE o = ''--'' AND shared").drop 7 = [.literal []] := by
    decide +kernel
  have hshown : (lex "SELECT * FROM docs WHERE o = ''42'' AND shared").drop 7 =
      [.literal [], .number "42".toList, .literal [], .word "AND".toList,
        .word "shared".toList] := by
    decide +kernel
  refine ⟨by decide, ⟨_, List.mem_cons_self, List.mem_cons_self⟩,
    covers_valuation _ _ _ (by decide), covers_valuation _ _ _ (by decide), _, _,
    (by decide +kernel), (by decide +kernel), hhidden, hshown, ?_⟩
  intro heq
  have hlength := congrArg List.length hhidden
  have hlength' := congrArg List.length hshown
  have hsame := congrArg List.length heq
  simp only [skeleton, List.length_map, List.length_drop, List.length_cons, List.length_nil]
    at hlength hlength' hsame
  omega

end EntitySync.Rules
