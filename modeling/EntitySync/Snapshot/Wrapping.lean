import EntitySync.Library.SqlNesting
import EntitySync.Rules.Injection
import EntitySync.Snapshot.Stream

/-!
# Data queries inside other statements

A data query is never sent alone: the snapshot reads its pages and the type of its ids from it, and
a write is checked against it, each time as a subquery in parentheses. When such a statement is read
as the wrapper's own clauses around the data query depends on the rule alone, not on the parameter
values. Reading follows the lexical rules of standard SQL: a data query with one of PostgreSQL's
`E''` or dollar-quoted strings is lexed differently there.
-/

namespace EntitySync.Snapshot

open Rules (Piece pieces renderPiece substitute Covers PlainOn RefsUnquoted templateTokens)
open SqlLexer

def IdCast.asSql : IdCast → String
  | .numeric => "numeric"
  | .text => "text"

/-- The statements with a data query in them. -/
inductive Wrapper where
  | fetchPage (idCast : IdCast)
  | detectIdCast
  | rowIsWithinScope

namespace Wrapper

def select : Wrapper → String
  | .fetchPage _ => "SELECT row_to_json(sq) AS row_data FROM "
  | .detectIdCast => "SELECT pg_typeof(sq.id)::text AS id_type FROM "
  | .rowIsWithinScope => "SELECT 1 FROM "

def clauses : Wrapper → String
  | .fetchPage idCast =>
    " AS sq WHERE ($1::text IS NULL OR sq.id::" ++ idCast.asSql ++ " > ($1::text)::" ++
      idCast.asSql ++ ") ORDER BY sq.id LIMIT $2"
  | .detectIdCast => " AS sq LIMIT 1"
  | .rowIsWithinScope => " AS sq WHERE sq.id::text = $1 LIMIT 1"

def statement (w : Wrapper) (query : String) : String :=
  w.select ++ "(" ++ query ++ ")" ++ w.clauses

end Wrapper

/-- The subquery that a statement selects from, and the clauses after it. -/
def subquery : List Token → Option (List Token × List Token)
  | .word word :: .symbol c :: ts =>
    if word = "FROM".toList ∧ c = '(' then inside 0 ts else subquery (.symbol c :: ts)
  | _ :: ts => subquery ts
  | [] => none

def templateState : LexState → List Piece → LexState
  | st, [] => st
  | st, .lit c :: ps => templateState (step st c).1 ps
  | st, .ref _ :: ps => templateState st.afterLiteral ps

/-- The data query ends outside of comments and quotes and its parentheses match. -/
def Wrappable (query : String) : Prop :=
  (templateState .ground (pieces 0 query.toList)).Closed ∧
    Balanced 0 (templateTokens .ground (pieces 0 query.toList))

instance (query : String) : Decidable (Wrappable query) := inferInstanceAs (Decidable (_ ∧ _))

/-- Outside of quotes, the values do not decide what the lexer is in the middle of at the end. -/
theorem erase_steps_render {m : HashMap String String} {ps : List Piece} (hplain : PlainOn m ps)
    {st a : LexState} (h : st.erase = a.erase) (hunquoted : RefsUnquoted a ps) :
    (steps st (ps.flatMap (renderPiece m))).1.erase = (templateState a ps).erase := by
  induction ps generalizing st a with
  | nil => exact h
  | cons p ps ih =>
    cases p with
    | lit c =>
      rw [List.flatMap_cons, Rules.renderPiece, List.singleton_append, steps_cons, templateState]
      exact ih hplain.tail (step_congr h c).1 hunquoted
    | ref name =>
      have hst : ¬st.Quoted := (quoted_congr h).not.mpr hunquoted.1
      have hsteps := steps_literalText hst (hplain name List.mem_cons_self)
      have hcongr := afterLiteral_congr h
      have hnext := hsteps.1.trans (hcongr.1.trans (erase_afterLiteral a).symm)
      rw [List.flatMap_cons, Rules.renderPiece_ref, steps_append, templateState]
      exact ih hplain.tail hnext hunquoted.2

def Wrapper.selectTokens : Wrapper → List Token
  | .fetchPage _ =>
    [.word "SELECT".toList, .word "row_to_json".toList, .symbol '(', .word "sq".toList, .symbol ')',
      .word "AS".toList, .word "row_data".toList, .word "FROM".toList, .symbol '(']
  | .detectIdCast =>
    [.word "SELECT".toList, .word "pg_typeof".toList, .symbol '(', .word "sq".toList, .symbol '.',
      .word "id".toList, .symbol ')', .symbol ':', .symbol ':', .word "text".toList,
      .word "AS".toList, .word "id_type".toList, .word "FROM".toList, .symbol '(']
  | .rowIsWithinScope =>
    [.word "SELECT".toList, .number "1".toList, .word "FROM".toList, .symbol '(']

theorem steps_select (w : Wrapper) :
    steps .ground (w.select ++ "(").toList = (.ground, w.selectTokens) := by
  cases w with
  | fetchPage idCast => cases idCast <;> decide +kernel
  | detectIdCast => decide +kernel
  | rowIsWithinScope => decide +kernel

theorem subquery_selectTokens (w : Wrapper) (ts : List Token) :
    subquery (w.selectTokens ++ ts) = inside 0 ts := by
  cases w with
  | fetchPage idCast => simp [Wrapper.selectTokens, subquery]
  | detectIdCast => simp [Wrapper.selectTokens, subquery]
  | rowIsWithinScope => simp [Wrapper.selectTokens, subquery]

theorem subquery_statement (w : Wrapper) (query : String) :
    subquery (lex (w.statement query)) =
      inside 0 (run .ground (query.toList ++ ')' :: w.clauses.toList)) := by
  have htext : (w.statement query).toList =
      (w.select ++ "(").toList ++ (query.toList ++ ')' :: w.clauses.toList) := by
    simp [Wrapper.statement]
  rw [lex, htext, run_append, steps_select, subquery_selectTokens]

theorem inert_clauses (w : Wrapper) : ∀ c ∈ w.clauses.toList, Inert c := by
  have hall : (w.clauses.toList.all fun c => decide (Inert c)) = true := by
    cases w with
    | fetchPage idCast => cases idCast <;> decide +kernel
    | detectIdCast => decide +kernel
    | rowIsWithinScope => decide +kernel
  intro c hc
  exact of_decide_eq_true (List.all_eq_true.mp hall c hc)

/-- Whatever the parameter values are, each statement with a data query in it is read as the
wrapper's own clauses around the tokens of the rendered query exactly if the query as the rule
writes it ends outside of comments and quotes and has matching parentheses. -/
theorem subquery_statement_iff {bucketId query : String}
    (hunquoted : RefsUnquoted .ground (pieces 0 query.toList))
    {parameters : HashMap String String} (hcovers : Covers query parameters) {text : String}
    (htext : substitute bucketId query parameters = .ok text) (w : Wrapper) :
    subquery (lex (w.statement text)) = some (lex text, lex w.clauses) ↔ Wrappable query := by
  rw [hcovers.substitute] at htext
  cases htext
  have hground : LexState.ground.erase = LexState.ground.erase := rfl
  have hstate := erase_steps_render hcovers.plainOn hground hunquoted
  have htokens := Rules.skeleton_run_render hcovers.plainOn hground hunquoted
  rw [subquery_statement, String.toList_ofList, lex, lex, String.toList_ofList,
    inside_run_iff (inert_clauses w), ← closed_erase, hstate, closed_erase, ← balanced_skeleton,
    htokens, Wrappable]

private def scopedQuery : String :=
  "SELECT * FROM docs WHERE (owner_id = \x7bbucket_parameters.user_id\x7d OR shared)"

theorem subquery_statement_scoped :
    subquery (lex (Wrapper.rowIsWithinScope.statement
      "SELECT * FROM docs WHERE (owner_id = '42' OR shared)")) =
    some (lex "SELECT * FROM docs WHERE (owner_id = '42' OR shared)",
      lex " AS sq WHERE sq.id::text = $1 LIMIT 1") := by
  have hcovers : Covers scopedQuery
      (Rules.valuation (Rules.references scopedQuery) "user_id" "42") :=
    Rules.covers_valuation _ _ _ (by decide)
  exact (subquery_statement_iff (by decide +kernel) hcovers
    (show substitute "docs" scopedQuery _ = .ok _ by decide +kernel) .rowIsWithinScope).mpr
    (by decide +kernel)

-- a comment at the end of a data query hides the rest of the statement
example : ¬Wrappable "SELECT * FROM docs -- all of them" := by decide +kernel

end EntitySync.Snapshot
