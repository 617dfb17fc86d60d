import Mathlib.Data.List.Basic

/-!
# Lexing SQL

The lexical rules of standard SQL as a machine that reads one character at a time: string literals
with a doubled quote as escape, delimited identifiers, `--` comments up to the end of the line,
nested `/* */` comments, words, numbers and operators. Comments and white space separate tokens and
are not tokens themselves. The further kinds of strings that dialects have, such as `E''` and dollar
quoting, are not read. `skeleton` is what is left of a token sequence without the contents of its
string literals.
-/

namespace SqlLexer

inductive Token where
  | literal (content : List Char)
  | unterminated (content : List Char)
  | delimited (name : List Char)
  | word (chars : List Char)
  | number (chars : List Char)
  | operator (chars : List Char)
  | symbol (c : Char)
deriving DecidableEq, Repr

/-- What the machine is in the middle of, with the characters read so far, the last one first. -/
inductive LexState where
  | ground
  | word (acc : List Char)
  | number (acc : List Char)
  | operator (acc : List Char)
  | literal (acc : List Char)
  | literalQuote (acc : List Char)
  | delimited (acc : List Char)
  | delimitedQuote (acc : List Char)
  | lineComment
  | block (depth : Nat)
  | blockStar (depth : Nat)
  | blockSlash (depth : Nat)
deriving DecidableEq, Repr

def isWordStart (c : Char) : Bool := c.isAlpha || c == '_' || 127 < c.toNat

def isWordChar (c : Char) : Bool := isWordStart c || c.isDigit || c == '$'

/-- A sign belongs to a number only in its exponent. -/
def continuesNumber (acc : List Char) (c : Char) : Bool :=
  isWordChar c || c == '.' ||
    ((c == '+' || c == '-') && (acc.head? == some 'e' || acc.head? == some 'E'))

def isOperatorChar (c : Char) : Bool := "+-*/<>=~!@#%^&|?".toList.contains c

def ground (c : Char) : LexState × List Token :=
  if c.isWhitespace then (.ground, [])
  else if c = '\x27' then (.literal [], [])
  else if c = '\x22' then (.delimited [], [])
  else if isWordStart c then (.word [c], [])
  else if c.isDigit then (.number [c], [])
  else if isOperatorChar c then (.operator [c], [])
  else (.ground, [.symbol c])

def finish : LexState → List Token
  | .ground | .lineComment | .block _ | .blockStar _ | .blockSlash _ => []
  | .word acc => [.word acc.reverse]
  | .number acc => [.number acc.reverse]
  | .operator acc => [.operator acc.reverse]
  | .literal acc => [.unterminated acc.reverse]
  | .literalQuote acc => [.literal acc.reverse]
  | .delimited acc | .delimitedQuote acc => [.delimited acc.reverse]

def endBefore (st : LexState) (c : Char) : LexState × List Token :=
  ((ground c).1, finish st ++ (ground c).2)

def operatorBefore : List Char → List Token
  | [] => []
  | acc => [.operator acc.reverse]

def step : LexState → Char → LexState × List Token
  | .ground, c => ground c
  | .word acc, c => if isWordChar c then (.word (c :: acc), []) else endBefore (.word acc) c
  | .number acc, c =>
    if continuesNumber acc c then (.number (c :: acc), []) else endBefore (.number acc) c
  | .operator acc, c =>
    if acc.head? = some '-' ∧ c = '-' then (.lineComment, operatorBefore acc.tail)
    else if acc.head? = some '/' ∧ c = '*' then (.block 0, operatorBefore acc.tail)
    else if isOperatorChar c then (.operator (c :: acc), [])
    else endBefore (.operator acc) c
  | .literal acc, c => if c = '\x27' then (.literalQuote acc, []) else (.literal (c :: acc), [])
  | .literalQuote acc, c =>
    if c = '\x27' then (.literal ('\x27' :: acc), []) else endBefore (.literalQuote acc) c
  | .delimited acc, c =>
    if c = '\x22' then (.delimitedQuote acc, []) else (.delimited (c :: acc), [])
  | .delimitedQuote acc, c =>
    if c = '\x22' then (.delimited ('\x22' :: acc), []) else endBefore (.delimitedQuote acc) c
  | .lineComment, c => if c = '\n' ∨ c = '\r' then (.ground, []) else (.lineComment, [])
  | .block depth, c =>
    if c = '*' then (.blockStar depth, [])
    else if c = '/' then (.blockSlash depth, [])
    else (.block depth, [])
  | .blockStar depth, c =>
    if c = '/' then (if depth = 0 then .ground else .block (depth - 1), [])
    else if c = '*' then (.blockStar depth, [])
    else (.block depth, [])
  | .blockSlash depth, c =>
    if c = '*' then (.block (depth + 1), [])
    else if c = '/' then (.blockSlash depth, [])
    else (.block depth, [])

def steps : LexState → List Char → LexState × List Token
  | st, [] => (st, [])
  | st, c :: cs =>
    ((steps (step st c).1 cs).1, (step st c).2 ++ (steps (step st c).1 cs).2)

def run (st : LexState) (cs : List Char) : List Token :=
  (steps st cs).2 ++ finish (steps st cs).1

def lex (text : String) : List Token := run .ground text.toList

example : lex "SELECT 'it''s' /* a /* b */ */ <= 1e-5 -- c" =
    [.word "SELECT".toList, .literal "it's".toList, .operator "<=".toList,
      .number "1e-5".toList] := by decide

def Token.erase : Token → Token
  | .literal _ => .literal []
  | .unterminated _ => .unterminated []
  | token => token

def skeleton (tokens : List Token) : List Token := tokens.map Token.erase

def LexState.erase : LexState → LexState
  | .literal _ => .literal []
  | .literalQuote _ => .literalQuote []
  | st => st

def LexState.Quoted : LexState → Prop
  | .literal _ | .delimited _ => True
  | _ => False

instance (st : LexState) : Decidable st.Quoted :=
  match st with
  | .literal _ | .delimited _ => inferInstanceAs (Decidable True)
  | .ground | .word _ | .number _ | .operator _ | .literalQuote _ | .delimitedQuote _
  | .lineComment | .block _ | .blockStar _ | .blockSlash _ => inferInstanceAs (Decidable False)

@[simp] theorem skeleton_append (xs ys : List Token) :
    skeleton (xs ++ ys) = skeleton xs ++ skeleton ys := List.map_append

@[simp] theorem steps_nil (st : LexState) : steps st [] = (st, []) := rfl

@[simp] theorem steps_cons (st : LexState) (c : Char) (cs : List Char) :
    steps st (c :: cs) =
      ((steps (step st c).1 cs).1, (step st c).2 ++ (steps (step st c).1 cs).2) := rfl

theorem run_cons (st : LexState) (c : Char) (cs : List Char) :
    run st (c :: cs) = (step st c).2 ++ run (step st c).1 cs := by
  simp [run]

theorem run_append (st : LexState) (cs ds : List Char) :
    run st (cs ++ ds) = (steps st cs).2 ++ run (steps st cs).1 ds := by
  induction cs generalizing st with
  | nil => rfl
  | cons c cs ih => simp [run_cons, ih]

/-- The contents of literals have no influence on how a text goes on. -/
theorem step_erase (st : LexState) (c : Char) :
    (step st.erase c).1.erase = (step st c).1.erase ∧
      skeleton (step st.erase c).2 = skeleton (step st c).2 := by
  cases st with
  | literal acc =>
    by_cases hc : c = '\x27' <;> simp [LexState.erase, step, hc]
  | literalQuote acc =>
    by_cases hc : c = '\x27'
    · simp [LexState.erase, step, hc]
    · simp [LexState.erase, step, hc, endBefore, finish, skeleton, Token.erase]
  | ground | word | number | operator | delimited | delimitedQuote | lineComment | block
  | blockStar | blockSlash => exact ⟨rfl, rfl⟩

theorem step_congr {st st' : LexState} (h : st.erase = st'.erase) (c : Char) :
    (step st c).1.erase = (step st' c).1.erase ∧
      skeleton (step st c).2 = skeleton (step st' c).2 := by
  rw [← (step_erase st c).1, ← (step_erase st c).2, h, (step_erase st' c).1, (step_erase st' c).2]
  exact ⟨rfl, rfl⟩

theorem finish_congr {st st' : LexState} (h : st.erase = st'.erase) :
    skeleton (finish st) = skeleton (finish st') := by
  cases st <;> cases st' <;> simp_all [LexState.erase, finish, skeleton, Token.erase]

theorem quoted_congr {st st' : LexState} (h : st.erase = st'.erase) : st.Quoted ↔ st'.Quoted := by
  cases st <;> cases st' <;> simp_all [LexState.erase, LexState.Quoted]

/-- Neither ends a literal or a comment nor opens one. -/
def Plain (c : Char) : Prop := c ≠ '\x27' ∧ c ≠ '\n' ∧ c ≠ '\r' ∧ c ≠ '*' ∧ c ≠ '/'

/-- Where a literal leads: a comment goes on, and everywhere else the machine is behind the closing
quote. -/
def LexState.afterLiteral : LexState → LexState
  | .lineComment => .lineComment
  | .block depth | .blockStar depth | .blockSlash depth => .block depth
  | .ground | .word _ | .number _ | .operator _ | .literal _ | .literalQuote _ | .delimited _
  | .delimitedQuote _ => .literalQuote []

/-- The token that a literal ends; right behind another literal its first quote is an escape. -/
def LexState.beforeLiteral : LexState → List Token
  | .literalQuote _ => []
  | st => finish st

theorem erase_afterLiteral (st : LexState) : st.afterLiteral.erase = st.afterLiteral := by
  cases st <;> rfl

theorem afterLiteral_congr {st st' : LexState} (h : st.erase = st'.erase) :
    st.afterLiteral = st'.afterLiteral ∧
      skeleton st.beforeLiteral = skeleton st'.beforeLiteral := by
  cases st <;> cases st' <;>
    simp_all [LexState.erase, LexState.afterLiteral, LexState.beforeLiteral, finish, skeleton,
      Token.erase]

theorem steps_literal {v : List Char} (h : ∀ c ∈ v, c ≠ '\x27') (acc : List Char) :
    steps (.literal acc) v = (.literal (v.reverse ++ acc), []) := by
  induction v generalizing acc with
  | nil => rfl
  | cons c v ih =>
    rw [List.forall_mem_cons] at h
    simp [step, h.1, ih h.2]

theorem steps_lineComment {v : List Char} (h : ∀ c ∈ v, c ≠ '\n' ∧ c ≠ '\r') :
    steps .lineComment v = (.lineComment, []) := by
  induction v with
  | nil => rfl
  | cons c v ih =>
    rw [List.forall_mem_cons] at h
    simp [step, h.1, ih h.2]

theorem steps_block {v : List Char} (h : ∀ c ∈ v, c ≠ '*' ∧ c ≠ '/') (depth : Nat) :
    steps (.block depth) v = (.block depth, []) := by
  induction v with
  | nil => rfl
  | cons c v ih =>
    rw [List.forall_mem_cons] at h
    simp [step, h.1, ih h.2]

theorem steps_append (st : LexState) (cs ds : List Char) :
    steps st (cs ++ ds) =
      ((steps (steps st cs).1 ds).1, (steps st cs).2 ++ (steps (steps st cs).1 ds).2) := by
  induction cs generalizing st with
  | nil => simp
  | cons c cs ih => simp [ih]

theorem endBefore_quote (st : LexState) : endBefore st '\x27' = (.literal [], finish st) := by
  have hground : ground '\x27' = (.literal [], []) := by decide
  simp [endBefore, hground]

/-- Outside of quotes, a literal of plain characters has the same effect whatever it contains. -/
theorem steps_literalText {st : LexState} (hst : ¬st.Quoted) {v : List Char}
    (hv : ∀ c ∈ v, Plain c) :
    (steps st ('\x27' :: (v ++ ['\x27']))).1.erase = st.afterLiteral ∧
      skeleton (steps st ('\x27' :: (v ++ ['\x27']))).2 = skeleton st.beforeLiteral := by
  have hquote : ∀ c ∈ v, c ≠ '\x27' := fun c hc => (hv c hc).1
  have hline : ∀ c ∈ v, c ≠ '\n' ∧ c ≠ '\r' := fun c hc => ⟨(hv c hc).2.1, (hv c hc).2.2.1⟩
  have hblock : ∀ c ∈ v, c ≠ '*' ∧ c ≠ '/' := fun c hc => (hv c hc).2.2.2
  -- from a state that ends before the quote, the machine reads a new literal
  have hopen (st : LexState) (hstep : step st '\x27' = endBefore st '\x27')
      (hafter : st.afterLiteral = .literalQuote []) (hbefore : st.beforeLiteral = finish st) :
      (steps st ('\x27' :: (v ++ ['\x27']))).1.erase = st.afterLiteral ∧
        skeleton (steps st ('\x27' :: (v ++ ['\x27']))).2 = skeleton st.beforeLiteral := by
    rw [hafter, hbefore, steps_cons, hstep, endBefore_quote, steps_append, steps_literal hquote]
    simp [step, LexState.erase]
  cases st with
  | ground => exact hopen _ (by decide) rfl rfl
  | word acc => exact hopen _ rfl rfl rfl
  | number acc => exact hopen _ rfl rfl rfl
  | operator acc =>
    refine hopen _ ?_ rfl rfl
    rw [step, if_neg (by simp), if_neg (by simp), if_neg (by decide)]
  | literal acc => exact absurd trivial hst
  | literalQuote acc =>
    rw [steps_cons, steps_append, step, if_pos rfl, steps_literal hquote]
    simp [step, LexState.erase, LexState.afterLiteral, LexState.beforeLiteral]
  | delimited acc => exact absurd trivial hst
  | delimitedQuote acc => exact hopen _ rfl rfl rfl
  | lineComment =>
    rw [steps_cons, steps_append, step, if_neg (by decide), steps_lineComment hline]
    simp [step, LexState.erase, LexState.afterLiteral, LexState.beforeLiteral, finish]
  | block depth =>
    rw [steps_cons, steps_append, step, if_neg (by decide), if_neg (by decide),
      steps_block hblock]
    simp [step, LexState.erase, LexState.afterLiteral, LexState.beforeLiteral, finish]
  | blockStar depth =>
    rw [steps_cons, steps_append, step, if_neg (by decide), if_neg (by decide),
      steps_block hblock]
    simp [step, LexState.erase, LexState.afterLiteral, LexState.beforeLiteral, finish]
  | blockSlash depth =>
    rw [steps_cons, steps_append, step, if_neg (by decide), if_neg (by decide),
      steps_block hblock]
    simp [step, LexState.erase, LexState.afterLiteral, LexState.beforeLiteral, finish]

/-- Inside a delimited identifier, what is read next becomes part of its name. -/
theorem run_delimited (acc cs : List Char) :
    (∃ rest tokens, run (.delimited acc) cs = .delimited (acc.reverse ++ rest) :: tokens) ∧
      ∃ rest tokens, run (.delimitedQuote acc) cs = .delimited (acc.reverse ++ rest) :: tokens := by
  induction cs generalizing acc with
  | nil => exact ⟨⟨[], [], by simp [run, finish]⟩, [], [], by simp [run, finish]⟩
  | cons c cs ih =>
    constructor
    · by_cases hc : c = '\x22'
      · simpa [run_cons, step, hc] using (ih acc).2
      · obtain ⟨rest, tokens, hrun⟩ := (ih (c :: acc)).1
        exact ⟨c :: rest, tokens, by simp [run_cons, step, hc, hrun]⟩
    · by_cases hc : c = '\x22'
      · obtain ⟨rest, tokens, hrun⟩ := (ih ('\x22' :: acc)).1
        exact ⟨'\x22' :: rest, tokens, by simp [run_cons, step, hc, hrun]⟩
      · exact ⟨[], (ground c).2 ++ run (ground c).1 cs,
          by simp [run_cons, step, hc, endBefore, finish]⟩

/-- Inside quotes, the contents of a literal become tokens of their own or part of a name. -/
theorem run_quoted_ne {st st' : LexState} (hst : st.Quoted) (h : st.erase = st'.erase)
    (cs ds : List Char) :
    skeleton (run st ("\x271\x27".toList ++ cs)) ≠
      skeleton (run st' ("\x27a\x27".toList ++ ds)) := by
  rw [run_append, run_append]
  cases st with
  | literal acc =>
    cases st' <;> simp only [LexState.erase, reduceCtorEq] at h
    next acc' =>
      have hnumber : steps (.literal acc) "\x271\x27".toList =
          (.literal [], [.literal acc.reverse, .number ['1']]) := rfl
      have hword : steps (.literal acc') "\x27a\x27".toList =
          (.literal [], [.literal acc'.reverse, .word ['a']]) := rfl
      rw [hnumber, hword]
      simp [skeleton, Token.erase]
  | delimited acc =>
    cases st' <;> simp only [LexState.erase, reduceCtorEq, LexState.delimited.injEq] at h
    next acc' =>
      subst h
      have hone : steps (.delimited acc) "\x271\x27".toList =
          (.delimited ('\x27' :: '1' :: '\x27' :: acc), []) := rfl
      have hletter : steps (.delimited acc) "\x27a\x27".toList =
          (.delimited ('\x27' :: 'a' :: '\x27' :: acc), []) := rfl
      obtain ⟨rest, tokens, hrun⟩ := (run_delimited ('\x27' :: '1' :: '\x27' :: acc) cs).1
      obtain ⟨rest', tokens', hrun'⟩ := (run_delimited ('\x27' :: 'a' :: '\x27' :: acc) ds).1
      rw [hone, hletter, hrun, hrun']
      simp [skeleton, Token.erase]
  | ground | word | number | operator | literalQuote | delimitedQuote | lineComment | block
  | blockStar | blockSlash => exact hst.elim

/-! Texts that are put together from tokens. -/

def IsSeparator (c : Char) : Prop := c = ' ' ∨ c = '(' ∨ c = ')'

def Stops (rest : List Char) : Prop := ∀ c ∈ rest.head?, IsSeparator c

/-- Before a separator, the text consists of these tokens. -/
def Reads (cs : List Char) (ts : List Token) : Prop :=
  ∀ rest, Stops rest → run .ground (cs ++ rest) = ts ++ run .ground rest

/-- Between two tokens, or where a token may end. -/
def LexState.MayEnd : LexState → Prop
  | .ground | .word _ | .number _ | .operator _ | .delimitedQuote _ => True
  | _ => False

instance (st : LexState) : Decidable st.MayEnd :=
  match st with
  | .ground | .word _ | .number _ | .operator _ | .delimitedQuote _ =>
    inferInstanceAs (Decidable True)
  | .literal _ | .literalQuote _ | .delimited _ | .lineComment | .block _ | .blockStar _
  | .blockSlash _ => inferInstanceAs (Decidable False)

theorem step_of_mayEnd {st : LexState} (hst : st.MayEnd) {c : Char} (hc : IsSeparator c) :
    step st c = endBefore st c := by
  have hword : isWordChar c = false := by rcases hc with rfl | rfl | rfl <;> decide
  have hoperator : isOperatorChar c = false := by rcases hc with rfl | rfl | rfl <;> decide
  have hplain : c ≠ '-' ∧ c ≠ '*' ∧ c ≠ '+' ∧ c ≠ '.' ∧ c ≠ '\x22' := by
    rcases hc with rfl | rfl | rfl <;> decide
  cases st with
  | ground => simp [step, endBefore, finish]
  | word acc => simp [step, hword]
  | number acc => simp [step, continuesNumber, hword, hplain]
  | operator acc => simp [step, hoperator, hplain]
  | delimitedQuote acc => simp [step, hplain]
  | literal | literalQuote | delimited | lineComment | block | blockStar | blockSlash =>
    exact hst.elim

theorem reads_of_steps {cs : List Char} {st : LexState} {ts : List Token}
    (h : steps .ground cs = (st, ts)) (hst : st.MayEnd) : Reads cs (ts ++ finish st) := by
  intro rest hrest
  rw [run_append, h]
  cases rest with
  | nil => simp [run, finish]
  | cons c cs =>
    rw [run_cons, run_cons, step_of_mayEnd hst (hrest c rfl)]
    simp [endBefore, step]

theorem reads_of_lex {text : String} {ts : List Token} (h : lex text = ts)
    (hend : (steps .ground text.toList).1.MayEnd) : Reads text.toList ts := by
  rw [← h]
  exact reads_of_steps rfl hend

theorem lex_of_reads {text : String} {ts : List Token} (h : Reads text.toList ts) :
    lex text = ts := by
  have hrun := h [] (by simp [Stops])
  simpa [lex, run, finish] using hrun

theorem Reads.append {cs ds : List Char} {ts us : List Token} (hcs : Reads cs ts)
    (hds : Reads ds us) (hstops : Stops ds) : Reads (cs ++ ds) (ts ++ us) := by
  intro rest hrest
  have hnext : Stops (ds ++ rest) := by
    cases ds with
    | nil => exact hrest
    | cons d ds => exact hstops
  rw [List.append_assoc, hcs _ hnext, hds rest hrest, List.append_assoc]

theorem Reads.cons_space {cs : List Char} {ts : List Token} (h : Reads cs ts) :
    Reads (' ' :: cs) ts := by
  intro rest hrest
  rw [List.cons_append, run_cons, ← h rest hrest]
  rfl

theorem Reads.cons_symbol {cs : List Char} {ts : List Token} (h : Reads cs ts) {c : Char}
    (hc : ground c = (.ground, [.symbol c])) : Reads (c :: cs) (.symbol c :: ts) := by
  intro rest hrest
  rw [List.cons_append, run_cons, step, hc, h rest hrest]
  rfl

theorem stops_cons {c : Char} (hc : IsSeparator c) (cs : List Char) : Stops (c :: cs) := by
  intro d hd
  cases hd
  exact hc

theorem Reads.space {cs ds : List Char} {ts us : List Token} (hcs : Reads cs ts)
    (hds : Reads ds us) : Reads (cs ++ ' ' :: ds) (ts ++ us) :=
  hcs.append hds.cons_space (stops_cons (.inl rfl) ds)

theorem Reads.parens {cs : List Char} {ts : List Token} (h : Reads cs ts) :
    Reads ('(' :: (cs ++ [')'])) (.symbol '(' :: (ts ++ [.symbol ')'])) := by
  have hclose : steps .ground [')'] = (.ground, [.symbol ')']) := by decide
  have hbody := h.append (reads_of_steps hclose trivial) (stops_cons (.inr (.inr rfl)) [])
  exact hbody.cons_symbol (by decide)

theorem reads_operator {cs : List Char} (h : steps .ground cs = (.operator cs.reverse, [])) :
    Reads cs [.operator cs] := by
  have hreads := reads_of_steps h trivial
  simpa [finish] using hreads

theorem reads_word {cs : List Char} (h : steps .ground cs = (.word cs.reverse, [])) :
    Reads cs [.word cs] := by
  have hreads := reads_of_steps h trivial
  simpa [finish] using hreads

theorem reads_delimited {name : List Char} (h : ∀ c ∈ name, c ≠ '\x22') :
    Reads ('\x22' :: (name ++ ['\x22'])) [.delimited name] := by
  have hname (acc : List Char) :
      steps (.delimited acc) name = (.delimited (name.reverse ++ acc), []) := by
    induction name generalizing acc with
    | nil => rfl
    | cons c name ih =>
      rw [List.forall_mem_cons] at h
      simp [step, h.1, ih h.2]
  have hsteps : steps .ground ('\x22' :: (name ++ ['\x22'])) =
      (.delimitedQuote name.reverse, []) := by
    rw [steps_cons, show step .ground '\x22' = (.delimited [], []) by decide, steps_append, hname]
    simp [step]
  have hreads := reads_of_steps hsteps trivial
  simpa [finish] using hreads

theorem ground_digit {c : Char} (h : c.isDigit = true) : ground c = (.number [c], []) := by
  have hrange := (Bool.and_eq_true _ _).mp h
  have hlow : 48 ≤ c.toNat := UInt32.le_iff_toNat_le.mp (of_decide_eq_true hrange.1)
  have hhigh : c.toNat ≤ 57 := UInt32.le_iff_toNat_le.mp (of_decide_eq_true hrange.2)
  have hdigit : ∃ n : Fin 10, c = Char.ofNat (48 + n.val) := by
    refine ⟨⟨c.toNat - 48, by omega⟩, ?_⟩
    rw [show 48 + (c.toNat - 48) = c.toNat by omega, Char.ofNat_toNat]
  obtain ⟨n, rfl⟩ := hdigit
  clear h hrange hlow hhigh
  revert n
  decide

theorem reads_number {digits : List Char} (hne : digits ≠ []) (h : ∀ c ∈ digits, c.isDigit = true) :
    Reads digits [.number digits] := by
  have hdigits (ds acc : List Char) (hds : ∀ c ∈ ds, c.isDigit = true) :
      steps (.number acc) ds = (.number (ds.reverse ++ acc), []) := by
    induction ds generalizing acc with
    | nil => rfl
    | cons c ds ih =>
      rw [List.forall_mem_cons] at hds
      have hword : isWordChar c = true := by simp [isWordChar, hds.1]
      simp [step, continuesNumber, hword, ih _ hds.2]
  cases digits with
  | nil => exact absurd rfl hne
  | cons c cs =>
    rw [List.forall_mem_cons] at h
    have hfirst : step .ground c = (.number [c], []) := ground_digit h.1
    have hsteps : steps .ground (c :: cs) = (.number (cs.reverse ++ [c]), []) := by
      rw [steps_cons, hfirst, hdigits cs _ h.2]
      rfl
    have hreads := reads_of_steps hsteps trivial
    simpa [finish] using hreads

end SqlLexer
