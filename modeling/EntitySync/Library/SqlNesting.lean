import EntitySync.Library.SqlLexer

/-!
# Nested SQL

A text that is put between parentheses: what the tokens up to the matching parenthesis are, and
when they are those of the text. The text has to end outside of comments and quotes, and its own
parentheses have to match.
-/

namespace SqlLexer

def LexState.Closed : LexState → Prop
  | .ground | .word _ | .number _ | .operator _ | .literalQuote _ | .delimitedQuote _ => True
  | .literal _ | .delimited _ | .lineComment | .block _ | .blockStar _ | .blockSlash _ => False

instance (st : LexState) : Decidable st.Closed :=
  match st with
  | .ground | .word _ | .number _ | .operator _ | .literalQuote _ | .delimitedQuote _ =>
    inferInstanceAs (Decidable True)
  | .literal _ | .delimited _ | .lineComment | .block _ | .blockStar _ | .blockSlash _ =>
    inferInstanceAs (Decidable False)

def Inert (c : Char) : Prop :=
  c ≠ '\x27' ∧ c ≠ '\x22' ∧ c ≠ '\n' ∧ c ≠ '\r' ∧ c ≠ '*' ∧ c ≠ '/'

instance (c : Char) : Decidable (Inert c) := inferInstanceAs (Decidable (_ ∧ _))

/-- How many parentheses are open after a token; `none` if it closes one more. -/
def nesting (depth : Nat) (t : Token) : Option Nat :=
  if t = .symbol '(' then some (depth + 1)
  else if t = .symbol ')' then (if depth = 0 then none else some (depth - 1))
  else some depth

/-- The tokens up to the parenthesis that closes the one before them, and the tokens after it;
`depth` parentheses between the two are open. -/
def inside : Nat → List Token → Option (List Token × List Token)
  | _, [] => none
  | depth, t :: ts =>
    match nesting depth t with
    | none => some ([], ts)
    | some depth' => (inside depth' ts).map fun r => (t :: r.1, r.2)

/-- The tokens close `depth` parentheses and all that they open. -/
def Balanced : Nat → List Token → Prop
  | depth, [] => depth = 0
  | depth, t :: ts =>
    match nesting depth t with
    | none => False
    | some depth' => Balanced depth' ts

instance decidableBalanced : (depth : Nat) → (ts : List Token) → Decidable (Balanced depth ts)
  | depth, [] => inferInstanceAs (Decidable (depth = 0))
  | depth, t :: ts =>
    match h : nesting depth t with
    | none => isFalse (by simp [Balanced, h])
    | some depth' =>
      have := decidableBalanced depth' ts
      decidable_of_iff (Balanced depth' ts) (by simp [Balanced, h])

theorem step_close {st : LexState} (hst : st.Closed) :
    step st ')' = (.ground, finish st ++ [.symbol ')']) := by
  have hend : endBefore st ')' = (.ground, finish st ++ [.symbol ')']) := by
    rw [endBefore, show ground ')' = (.ground, [.symbol ')']) by decide]
  cases st with
  | literalQuote acc => exact hend
  | ground | word acc | number acc | operator acc | delimitedQuote acc =>
    refine (step_of_mayEnd ?_ (.inr (.inr rfl))).trans hend
    trivial
  | literal | delimited | lineComment | block | blockStar | blockSlash => exact hst.elim

theorem steps_delimited {v : List Char} (h : ∀ c ∈ v, c ≠ '\x22') (acc : List Char) :
    steps (.delimited acc) v = (.delimited (v.reverse ++ acc), []) := by
  induction v generalizing acc with
  | nil => rfl
  | cons c v ih =>
    rw [List.forall_mem_cons] at h
    simp [step, h.1, ih h.2]

theorem length_run_of_not_closed {st : LexState} (hst : ¬st.Closed) {cs : List Char}
    (hcs : ∀ c ∈ cs, Inert c) : (run st cs).length ≤ (finish st).length := by
  have hquote : ∀ c ∈ cs, c ≠ '\x27' := fun c hc => (hcs c hc).1
  have hdouble : ∀ c ∈ cs, c ≠ '\x22' := fun c hc => (hcs c hc).2.1
  have hline : ∀ c ∈ cs, c ≠ '\n' ∧ c ≠ '\r' := fun c hc => ⟨(hcs c hc).2.2.1, (hcs c hc).2.2.2.1⟩
  have hblock : ∀ c ∈ cs, c ≠ '*' ∧ c ≠ '/' := fun c hc => (hcs c hc).2.2.2.2
  have hcomment (depth : Nat) (ds : List Char) (hds : ∀ c ∈ ds, c ≠ '*' ∧ c ≠ '/') :
      run (.block depth) ds = [] := by
    rw [run, steps_block hds]
    rfl
  cases st with
  | literal acc => simp [run, steps_literal hquote, finish]
  | delimited acc => simp [run, steps_delimited hdouble, finish]
  | lineComment => simp [run, steps_lineComment hline, finish]
  | block depth => simp [hcomment depth cs hblock, finish]
  | blockStar depth | blockSlash depth =>
    cases cs with
    | nil => simp [run, finish]
    | cons c cs =>
      rw [List.forall_mem_cons] at hblock
      simp [run_cons, step, hblock.1, hcomment depth cs hblock.2, finish]
  | ground | word | number | operator | literalQuote | delimitedQuote => exact absurd trivial hst

/-- Before a closing parenthesis, the tokens inside are all those before it exactly if they are
balanced. -/
theorem inside_append_iff {depth : Nat} {ts rest : List Token} :
    inside depth (ts ++ .symbol ')' :: rest) = some (ts, rest) ↔ Balanced depth ts := by
  induction ts generalizing depth with
  | nil =>
    cases depth with
    | zero => simp [inside, nesting, Balanced]
    | succ depth => simp [inside, nesting, Balanced]
  | cons t ts ih =>
    rw [List.cons_append, inside, Balanced]
    cases nesting depth t with
    | none => simp
    | some depth' => simp [← ih, Prod.ext_iff]

theorem length_of_inside {depth : Nat} {ts xs rest : List Token}
    (h : inside depth ts = some (xs, rest)) : xs.length < ts.length := by
  induction ts generalizing depth xs with
  | nil => cases h
  | cons t ts ih =>
    rw [inside] at h
    cases hnesting : nesting depth t with
    | none =>
      rw [hnesting] at h
      cases h
      simp
    | some depth' =>
      rw [hnesting] at h
      obtain ⟨r, hr, heq⟩ := Option.map_eq_some_iff.mp h
      cases heq
      have := ih hr
      simp only [List.length_cons]
      omega

/-- A text between parentheses is read as itself, and inert text after it as well, exactly if the
text ends outside of comments and quotes and its parentheses match. -/
theorem inside_run_iff {cs rest : List Char} (hrest : ∀ c ∈ rest, Inert c) :
    inside 0 (run .ground (cs ++ ')' :: rest)) = some (run .ground cs, run .ground rest) ↔
      (steps .ground cs).1.Closed ∧ Balanced 0 (run .ground cs) := by
  by_cases hclosed : (steps .ground cs).1.Closed
  · have hrun : run .ground (cs ++ ')' :: rest) =
        run .ground cs ++ .symbol ')' :: run .ground rest := by
      rw [run_append, run_cons, step_close hclosed]
      simp [run]
    rw [hrun, inside_append_iff]
    exact (and_iff_right hclosed).symm
  · refine iff_of_false (fun h => ?_) (fun h => hclosed h.1)
    have hclose : Inert ')' := by decide
    have hopen := length_run_of_not_closed hclosed (List.forall_mem_cons.mpr ⟨hclose, hrest⟩)
    have hlength := length_of_inside h
    rw [run_append, run, List.length_append, List.length_append] at hlength
    omega

theorem nesting_erase (depth : Nat) (t : Token) : nesting depth t.erase = nesting depth t := by
  cases t <;> simp [Token.erase, nesting]

theorem balanced_skeleton {depth : Nat} {ts : List Token} :
    Balanced depth (skeleton ts) ↔ Balanced depth ts := by
  induction ts generalizing depth with
  | nil => rfl
  | cons t ts ih =>
    rw [skeleton, List.map_cons, Balanced, Balanced, nesting_erase]
    cases nesting depth t with
    | none => rfl
    | some depth' => exact ih

theorem closed_erase {st : LexState} : st.erase.Closed ↔ st.Closed := by
  cases st <;> rfl

end SqlLexer
