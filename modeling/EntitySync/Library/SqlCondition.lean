import EntitySync.Library.SqlLexer
import Mathlib.Data.Nat.Digits.Defs

/-!
# SQL conditions

The condition of a `WHERE` clause: predicates about one column each, joined by `AND`, `OR` and
parentheses, where `AND` binds tighter than `OR`. A predicate compares its column with a bound
parameter `$k` or asks whether it is null. Truth has three values, and a condition selects the
rows on which it is true. What a single comparison answers is a parameter.
-/

namespace SqlCondition

open SqlLexer (Token)

inductive Truth where
  | yes
  | no
  | unknown
deriving DecidableEq, Repr

namespace Truth

def ofBool : Bool → Truth
  | true => yes
  | false => no

def and : Truth → Truth → Truth
  | no, _ | _, no => no
  | yes, yes => yes
  | unknown, _ | _, unknown => unknown

def or : Truth → Truth → Truth
  | yes, _ | _, yes => yes
  | no, no => no
  | unknown, _ | _, unknown => unknown

def all (ts : List Truth) : Truth := ts.foldr and yes

def any (ts : List Truth) : Truth := ts.foldr or no

theorem and_eq_yes {s t : Truth} : s.and t = yes ↔ s = yes ∧ t = yes := by
  cases s <;> cases t <;> decide

theorem or_eq_yes {s t : Truth} : s.or t = yes ↔ s = yes ∨ t = yes := by
  cases s <;> cases t <;> decide

theorem and_yes (t : Truth) : t.and yes = t := by cases t <;> rfl

theorem or_no (t : Truth) : t.or no = t := by cases t <;> rfl

theorem all_cons (t : Truth) (ts : List Truth) : all (t :: ts) = t.and (all ts) := rfl

theorem any_cons (t : Truth) (ts : List Truth) : any (t :: ts) = t.or (any ts) := rfl

theorem all_eq_yes {ts : List Truth} : all ts = yes ↔ ∀ t ∈ ts, t = yes := by
  induction ts with
  | nil => simp [all]
  | cons t ts ih =>
    rw [List.forall_mem_cons, all_cons, and_eq_yes, ih]

theorem any_eq_yes {ts : List Truth} : any ts = yes ↔ ∃ t ∈ ts, t = yes := by
  induction ts with
  | nil => simp [any]
  | cons t ts ih =>
    rw [List.exists_mem_cons_iff, any_cons, or_eq_yes, ih]

end Truth

inductive Predicate where
  /-- `column op $k`. -/
  | compare (column op : String) (param : Nat)
  /-- `column op ANY($k)`. -/
  | compareAny (column op : String) (param : Nat)
  /-- `column ILIKE $k`. -/
  | ilike (column : String) (param : Nat)
  | isNull (column : String)
  | isNotNull (column : String)
deriving DecidableEq, Repr

inductive Condition where
  | predicate (p : Predicate)
  | and (left right : Condition)
  | or (left right : Condition)
deriving DecidableEq, Repr

structure Comparisons (Cell Param : Type*) where
  compare : String → Cell → Param → Truth
  compareAny : String → Cell → Param → Truth
  ilike : Cell → Param → Truth
  isNull : Cell → Bool

/-! The parser. Keywords are in upper case, and `none` is a syntax error. -/

def parseParam : List Token → Option (Nat × List Token)
  | .symbol '$' :: .number digits :: rest =>
    if digits.all Char.isDigit then some (Nat.ofDigitChars 10 digits 0, rest) else none
  | _ => none

def parsePredicate : List Token → Option (Predicate × List Token)
  | .delimited column :: .operator op :: .word ['A', 'N', 'Y'] :: .symbol '(' :: rest =>
    match parseParam rest with
    | some (k, .symbol ')' :: rest) =>
      some (.compareAny (String.ofList column) (String.ofList op) k, rest)
    | _ => none
  | .delimited column :: .operator op :: rest =>
    (parseParam rest).map fun (k, rest) =>
      (.compare (String.ofList column) (String.ofList op) k, rest)
  | .delimited column :: .word ['I', 'L', 'I', 'K', 'E'] :: rest =>
    (parseParam rest).map fun (k, rest) => (.ilike (String.ofList column) k, rest)
  | .delimited column :: .word ['I', 'S'] :: .word ['N', 'U', 'L', 'L'] :: rest =>
    some (.isNull (String.ofList column), rest)
  | .delimited column :: .word ['I', 'S'] :: .word ['N', 'O', 'T'] ::
      .word ['N', 'U', 'L', 'L'] :: rest =>
    some (.isNotNull (String.ofList column), rest)
  | _ => none

mutual

/-- `conjunction (OR conjunction)*`. Every call uses up fuel, at most three units before it reads
a token. -/
def parseCondition : Nat → List Token → Option (Condition × List Token)
  | 0, _ => none
  | fuel + 1, tokens =>
    match parseConjunction fuel tokens with
    | some (left, .word ['O', 'R'] :: rest) =>
      (parseCondition fuel rest).map fun (right, rest) => (.or left right, rest)
    | parsed => parsed

/-- `operand (AND operand)*`. -/
def parseConjunction : Nat → List Token → Option (Condition × List Token)
  | 0, _ => none
  | fuel + 1, tokens =>
    match parseOperand fuel tokens with
    | some (left, .word ['A', 'N', 'D'] :: rest) =>
      (parseConjunction fuel rest).map fun (right, rest) => (.and left right, rest)
    | parsed => parsed

def parseOperand : Nat → List Token → Option (Condition × List Token)
  | 0, _ => none
  | fuel + 1, .symbol '(' :: rest =>
    match parseCondition fuel rest with
    | some (condition, .symbol ')' :: rest) => some (condition, rest)
    | _ => none
  | _ + 1, tokens => (parsePredicate tokens).map fun (p, rest) => (.predicate p, rest)

end

def parse (text : String) : Option Condition :=
  match parseCondition (3 * (SqlLexer.lex text).length + 3) (SqlLexer.lex text) with
  | some (condition, []) => some condition
  | _ => none

example : parse "\x22a\x22 = $1 AND (\x22b\x22 IS NULL OR \x22c\x22 > $2)" =
    some (.and (.predicate (.compare "a" "=" 1))
      (.or (.predicate (.isNull "b")) (.predicate (.compare "c" ">" 2)))) := by decide +kernel

section Evaluation

variable {Cell Param : Type*} (sem : Comparisons Cell Param) (row : String → Cell)
  (params : List Param)

def bound (params : List Param) (k : Nat) : Option Param :=
  if k = 0 then none else params[k - 1]?

/-- `none` is the error that a parameter is not bound. -/
def Predicate.eval : Predicate → Option Truth
  | .compare column op k => (bound params k).map (sem.compare op (row column))
  | .compareAny column op k => (bound params k).map (sem.compareAny op (row column))
  | .ilike column k => (bound params k).map (sem.ilike (row column))
  | .isNull column => some (.ofBool (sem.isNull (row column)))
  | .isNotNull column => some (.ofBool (!sem.isNull (row column)))

def Condition.eval : Condition → Option Truth
  | .predicate p => p.eval sem row params
  | .and left right => do return (← left.eval).and (← right.eval)
  | .or left right => do return (← left.eval).or (← right.eval)

def Selects (text : String) : Prop :=
  ∃ condition, parse text = some condition ∧ condition.eval sem row params = some .yes

end Evaluation

/-! Conditions that are a chain of predicates. -/

def paramTokens (k : Nat) : List Token := [.symbol '$', .number (Nat.toDigits 10 k)]

def Predicate.tokens : Predicate → List Token
  | .compare column op k => .delimited column.toList :: .operator op.toList :: paramTokens k
  | .compareAny column op k =>
    .delimited column.toList :: .operator op.toList :: .word ['A', 'N', 'Y'] :: .symbol '(' ::
      (paramTokens k ++ [.symbol ')'])
  | .ilike column k =>
    .delimited column.toList :: .word ['I', 'L', 'I', 'K', 'E'] :: paramTokens k
  | .isNull column =>
    [.delimited column.toList, .word ['I', 'S'], .word ['N', 'U', 'L', 'L']]
  | .isNotNull column =>
    [.delimited column.toList, .word ['I', 'S'], .word ['N', 'O', 'T'],
      .word ['N', 'U', 'L', 'L']]

/-- `p AND p₁ AND p₂ ...`. -/
def Condition.conj (p : Predicate) : List Predicate → Condition
  | [] => .predicate p
  | q :: qs => .and (.predicate p) (conj q qs)

def Condition.disj (p : Predicate) : List Predicate → Condition
  | [] => .predicate p
  | q :: qs => .or (.predicate p) (disj q qs)

def chainTokens (keyword : List Char) (p : Predicate) (ps : List Predicate) : List Token :=
  p.tokens ++ ps.flatMap fun q => .word keyword :: q.tokens

@[simp] theorem parseParam_paramTokens (k : Nat) (rest : List Token) :
    parseParam (paramTokens k ++ rest) = some (k, rest) := by
  have hdigits : (Nat.toDigits 10 k).all Char.isDigit = true := by
    rw [List.all_eq_true]
    intro c hc
    exact Nat.isDigit_of_mem_toDigits (by decide) (by decide) hc
  simp only [paramTokens, List.cons_append, List.nil_append, parseParam, hdigits, if_true]
  rw [Nat.ofDigitChars_ten_toDigits]

theorem parsePredicate_tokens (p : Predicate) (rest : List Token) :
    parsePredicate (p.tokens ++ rest) = some (p, rest) := by
  cases p with
  | compare column op k =>
    have hparam := parseParam_paramTokens k rest
    simp only [Predicate.tokens, paramTokens, List.cons_append, List.nil_append] at hparam ⊢
    simp [parsePredicate, hparam]
  | compareAny column op k => simp [Predicate.tokens, parsePredicate]
  | ilike column k => simp [Predicate.tokens, parsePredicate]
  | isNull column | isNotNull column => simp [Predicate.tokens, parsePredicate]

theorem parseOperand_tokens (fuel : Nat) (p : Predicate) (rest : List Token) :
    parseOperand (fuel + 1) (p.tokens ++ rest) = some (.predicate p, rest) := by
  have hparse := parsePredicate_tokens p rest
  cases p <;> simp_all [Predicate.tokens, parseOperand]

def NotKeyword (keyword : List Char) (rest : List Token) : Prop :=
  rest.head? ≠ some (.word keyword)

theorem chainTokens_cons (keyword : List Char) (p q : Predicate) (ps : List Predicate)
    (rest : List Token) :
    chainTokens keyword p (q :: ps) ++ rest =
      p.tokens ++ .word keyword :: (chainTokens keyword q ps ++ rest) := by
  simp [chainTokens]

theorem length_lt_chainTokens (keyword : List Char) (p : Predicate) (ps : List Predicate) :
    ps.length < (chainTokens keyword p ps).length := by
  have hfirst : 0 < p.tokens.length := by cases p <;> simp [Predicate.tokens]
  induction ps generalizing p with
  | nil => simpa [chainTokens] using hfirst
  | cons q qs ih =>
    have htail := ih q (by cases q <;> simp [Predicate.tokens])
    have hsplit := congrArg List.length (chainTokens_cons keyword p q qs [])
    simp only [List.append_nil, List.length_append, List.length_cons] at hsplit ⊢
    omega

theorem chainTokens_ne_nil (keyword : List Char) (p : Predicate) (ps : List Predicate) :
    chainTokens keyword p ps ≠ [] :=
  List.ne_nil_of_length_pos (Nat.zero_lt_of_lt (length_lt_chainTokens keyword p ps))

theorem parseConjunction_chain {rest : List Token} (hand : NotKeyword ['A', 'N', 'D'] rest)
    (p : Predicate) (ps : List Predicate) {fuel : Nat} (hfuel : ps.length + 2 ≤ fuel) :
    parseConjunction fuel (chainTokens ['A', 'N', 'D'] p ps ++ rest) =
      some (.conj p ps, rest) := by
  induction ps generalizing p fuel with
  | nil =>
    obtain ⟨m, rfl⟩ : ∃ m, fuel = m + 2 := Nat.exists_eq_add_of_le' hfuel
    rw [chainTokens, List.flatMap_nil, List.append_nil, parseConjunction, parseOperand_tokens]
    split
    next heq =>
      cases heq
      exact absurd rfl hand
    next => rfl
  | cons q qs ih =>
    obtain ⟨m, rfl⟩ : ∃ m, fuel = m + 2 :=
      Nat.exists_eq_add_of_le' (Nat.le_trans (Nat.le_add_left 2 _) hfuel)
    have htail : parseConjunction (m + 1) (chainTokens ['A', 'N', 'D'] q qs ++ rest) =
        some (.conj q qs, rest) := by
      apply ih
      rw [List.length_cons] at hfuel
      omega
    rw [chainTokens_cons, parseConjunction, parseOperand_tokens]
    simp only [htail]
    rfl

theorem parseCondition_chain {rest : List Token} (hand : NotKeyword ['A', 'N', 'D'] rest)
    (hor : NotKeyword ['O', 'R'] rest) (p : Predicate) (ps : List Predicate) {fuel : Nat}
    (hfuel : ps.length + 3 ≤ fuel) :
    parseCondition fuel (chainTokens ['O', 'R'] p ps ++ rest) = some (.disj p ps, rest) := by
  -- a predicate alone is the conjunction before the next `OR`
  have hfirst (q : Predicate) (m : Nat) {rest : List Token}
      (hand : NotKeyword ['A', 'N', 'D'] rest) :
      parseConjunction (m + 2) (q.tokens ++ rest) = some (.predicate q, rest) := by
    have hsingle := parseConjunction_chain hand q [] (Nat.le_add_left 2 m)
    rw [chainTokens, List.flatMap_nil, List.append_nil] at hsingle
    exact hsingle
  induction ps generalizing p fuel with
  | nil =>
    obtain ⟨m, rfl⟩ : ∃ m, fuel = m + 3 := Nat.exists_eq_add_of_le' hfuel
    rw [chainTokens, List.flatMap_nil, List.append_nil, parseCondition, hfirst p m hand]
    split
    next heq =>
      cases heq
      exact absurd rfl hor
    next => rfl
  | cons q qs ih =>
    obtain ⟨m, rfl⟩ : ∃ m, fuel = m + 3 :=
      Nat.exists_eq_add_of_le' (Nat.le_trans (Nat.le_add_left 3 _) hfuel)
    have htail : parseCondition (m + 2) (chainTokens ['O', 'R'] q qs ++ rest) =
        some (.disj q qs, rest) := by
      apply ih
      rw [List.length_cons] at hfuel
      omega
    rw [chainTokens_cons, parseCondition, hfirst p m (by simp [NotKeyword])]
    simp only [htail]
    rfl

/-- Before anything but `AND` and `OR`, the tokens are read as this condition. -/
def Parses (tokens : List Token) (condition : Condition) : Prop :=
  ∀ rest, NotKeyword ['A', 'N', 'D'] rest → NotKeyword ['O', 'R'] rest →
    ∀ fuel, 3 * tokens.length + 3 ≤ fuel →
      parseCondition fuel (tokens ++ rest) = some (condition, rest)

theorem Parses.parse_eq {text : String} {tokens : List Token} {condition : Condition}
    (h : Parses tokens condition) (hreads : SqlLexer.Reads text.toList tokens) :
    parse text = some condition := by
  have hparse := h [] (by simp [NotKeyword]) (by simp [NotKeyword]) _ le_rfl
  rw [List.append_nil] at hparse
  rw [parse, SqlLexer.lex_of_reads hreads, hparse]

theorem parses_conj (p : Predicate) (ps : List Predicate) :
    Parses (chainTokens ['A', 'N', 'D'] p ps) (.conj p ps) := by
  intro rest hand hor fuel hfuel
  have hlen := length_lt_chainTokens ['A', 'N', 'D'] p ps
  obtain ⟨m, rfl⟩ : ∃ m, fuel = m + 1 := ⟨fuel - 1, by omega⟩
  rw [parseCondition, parseConjunction_chain hand p ps (by omega)]
  split
  next heq =>
    cases heq
    exact absurd rfl hor
  next => rfl

theorem parses_disj (p : Predicate) (ps : List Predicate) :
    Parses (.symbol '(' :: (chainTokens ['O', 'R'] p ps ++ [.symbol ')'])) (.disj p ps) := by
  intro rest hand hor fuel hfuel
  have hlen := length_lt_chainTokens ['O', 'R'] p ps
  simp only [List.length_cons, List.length_append, List.length_nil] at hfuel
  obtain ⟨m, rfl⟩ : ∃ m, fuel = m + 3 := ⟨fuel - 3, by omega⟩
  have hinner : parseCondition m (chainTokens ['O', 'R'] p ps ++ .symbol ')' :: rest) =
      some (.disj p ps, .symbol ')' :: rest) :=
    parseCondition_chain (by simp [NotKeyword]) (by simp [NotKeyword]) p ps (by omega)
  have hoperand : parseOperand (m + 1) (.symbol '(' :: (chainTokens ['O', 'R'] p ps ++
      .symbol ')' :: rest)) = some (.disj p ps, rest) := by
    simp only [parseOperand, hinner]
  have hconjunction : parseConjunction (m + 2) (.symbol '(' :: (chainTokens ['O', 'R'] p ps ++
      .symbol ')' :: rest)) = some (.disj p ps, rest) := by
    rw [parseConjunction, hoperand]
    split
    next heq =>
      cases heq
      exact absurd rfl hand
    next => rfl
  rw [List.cons_append, List.append_assoc, List.singleton_append, parseCondition, hconjunction]
  split
  next heq =>
    cases heq
    exact absurd rfl hor
  next => rfl

theorem reads_param (k : Nat) : SqlLexer.Reads ('$' :: (toString k).toList) (paramTokens k) := by
  have hdigits : ∀ c ∈ Nat.toDigits 10 k, c.isDigit = true := by
    intro c hc
    exact Nat.isDigit_of_mem_toDigits (by decide) (by decide) hc
  have hnumber := SqlLexer.reads_number Nat.toDigits_ne_nil hdigits
  rw [Nat.toString_eq_repr, Nat.toList_repr]
  exact hnumber.cons_symbol (by decide)

theorem reads_chain {separator : String} {keyword : List Char}
    (hseparator : separator.toList = ' ' :: (keyword ++ [' ']))
    (hkeyword : SqlLexer.Reads keyword [.word keyword]) {text : String} {p : Predicate}
    {texts : List String} {ps : List Predicate} (hp : SqlLexer.Reads text.toList p.tokens)
    (h : List.Forall₂ (fun text p => SqlLexer.Reads text.toList p.tokens) texts ps) :
    SqlLexer.Reads (separator.intercalate (text :: texts)).toList (chainTokens keyword p ps) := by
  induction h generalizing text p with
  | nil => simpa [chainTokens, String.intercalate_singleton] using hp
  | cons hq _ ih =>
    have hreads := hp.space (hkeyword.space (ih hq))
    rw [String.intercalate_cons_cons, String.toList_append, String.toList_append, hseparator]
    simpa [chainTokens] using hreads

section Chains

variable {Cell Param : Type*} {sem : Comparisons Cell Param} {row : String → Cell}
  {params : List Param}

theorem eval_conj {p : Predicate} {ps : List Predicate} {t : Truth} {ts : List Truth}
    (hp : p.eval sem row params = some t)
    (h : List.Forall₂ (fun p t => p.eval sem row params = some t) ps ts) :
    (Condition.conj p ps).eval sem row params = some (Truth.all (t :: ts)) := by
  induction h generalizing p t with
  | nil => simp [Condition.conj, Condition.eval, hp, Truth.all, Truth.and_yes]
  | cons hq _ ih =>
    rw [Condition.conj, Condition.eval, ih hq, Condition.eval, hp]
    rfl

theorem eval_disj {p : Predicate} {ps : List Predicate} {t : Truth} {ts : List Truth}
    (hp : p.eval sem row params = some t)
    (h : List.Forall₂ (fun p t => p.eval sem row params = some t) ps ts) :
    (Condition.disj p ps).eval sem row params = some (Truth.any (t :: ts)) := by
  induction h generalizing p t with
  | nil => simp [Condition.disj, Condition.eval, hp, Truth.any, Truth.or_no]
  | cons hq _ ih =>
    rw [Condition.disj, Condition.eval, ih hq, Condition.eval, hp]
    rfl

end Chains

end SqlCondition
