import EntitySync.Library.SqlCondition

/-!
# SELECT statements

Statements of the form `SELECT * FROM "t" [WHERE ...] [ORDER BY ...] LIMIT $m OFFSET $n`: a parser
over the tokens, and the answers that a database may give. The sort keys fix the order of an answer
as far as they go. Rows that tie may come in any order, and in another one each time.
-/

open SqlLexer (Token Reads)
open SqlCondition (Condition Comparisons Truth NotKeyword)

namespace SqlSelect

/-- `column [ASC | DESC] [NULLS FIRST | NULLS LAST]`. -/
structure OrderKey where
  column : String
  descending : Bool
  nullsFirst? : Option Bool
deriving DecidableEq, Repr

/-- Where nothing is said about nulls, they count as larger than everything else. -/
def OrderKey.nullsFirst (key : OrderKey) : Bool := key.nullsFirst?.getD key.descending

/-- The limit and the offset are numbers of parameters. -/
structure Select where
  table : String
  condition : Option Condition
  order : List OrderKey
  limit : Nat
  offset : Nat
deriving DecidableEq, Repr

/-! The parser. Keywords are in upper case, and `none` is a syntax error. -/

def parseWhere : List Token → Option (Option Condition × List Token)
  | .word ['W', 'H', 'E', 'R', 'E'] :: rest =>
    (SqlCondition.parseCondition (3 * rest.length + 3) rest).map fun (condition, rest) =>
      (some condition, rest)
  | rest => some (none, rest)

def parseDirection : List Token → Bool × List Token
  | .word ['D', 'E', 'S', 'C'] :: rest => (true, rest)
  | .word ['A', 'S', 'C'] :: rest => (false, rest)
  | rest => (false, rest)

def parseNulls : List Token → Option (Option Bool × List Token)
  | .word ['N', 'U', 'L', 'L', 'S'] :: .word ['F', 'I', 'R', 'S', 'T'] :: rest =>
    some (some true, rest)
  | .word ['N', 'U', 'L', 'L', 'S'] :: .word ['L', 'A', 'S', 'T'] :: rest =>
    some (some false, rest)
  | .word ['N', 'U', 'L', 'L', 'S'] :: _ => none
  | rest => some (none, rest)

def parseKey : List Token → Option (OrderKey × List Token)
  | .delimited column :: rest =>
    (parseNulls (parseDirection rest).2).map fun (nulls, rest') =>
      (⟨String.ofList column, (parseDirection rest).1, nulls⟩, rest')
  | _ => none

/-- `key (, key)*`. Every key uses up fuel. -/
def parseKeys : Nat → List Token → Option (List OrderKey × List Token)
  | 0, _ => none
  | fuel + 1, tokens =>
    match parseKey tokens with
    | some (key, .symbol ',' :: rest) =>
      (parseKeys fuel rest).map fun (keys, rest) => (key :: keys, rest)
    | some (key, rest) => some ([key], rest)
    | none => none

def parseOrder : List Token → Option (List OrderKey × List Token)
  | .word ['O', 'R', 'D', 'E', 'R'] :: .word ['B', 'Y'] :: rest => parseKeys rest.length rest
  | rest => some ([], rest)

def parseWindow : List Token → Option (Nat × Nat)
  | .word ['L', 'I', 'M', 'I', 'T'] :: rest =>
    match SqlCondition.parseParam rest with
    | some (limit, .word ['O', 'F', 'F', 'S', 'E', 'T'] :: rest) =>
      match SqlCondition.parseParam rest with
      | some (offset, []) => some (limit, offset)
      | _ => none
    | _ => none
  | _ => none

def parse (text : String) : Option Select :=
  match SqlLexer.lex text with
  | .word ['S', 'E', 'L', 'E', 'C', 'T'] :: .operator ['*'] :: .word ['F', 'R', 'O', 'M'] ::
      .delimited table :: rest => do
    let (condition, rest) ← parseWhere rest
    let (order, rest) ← parseOrder rest
    let (limit, offset) ← parseWindow rest
    return ⟨String.ofList table, condition, order, limit, offset⟩
  | _ => none

example : parse ("SELECT * FROM \x22t\x22 WHERE \x22a\x22 = $1 " ++
      "ORDER BY \x22b\x22 DESC, \x22c\x22 ASC NULLS FIRST LIMIT $2 OFFSET $3") =
    some ⟨"t", some (.predicate (.compare "a" "=" 1)),
      [⟨"b", true, none⟩, ⟨"c", false, some true⟩], 2, 3⟩ := by decide +kernel

/-! Answers. -/

/-- What a database knows about its rows: their cells, the comparisons of conditions, the order of
cells that are not null, and the parameters that count as a number of rows. -/
structure Engine (Row Cell Param : Type) where
  comparisons : Comparisons Cell Param
  cell : Row → String → Cell
  order : Cell → Cell → Ordering
  order_swap : ∀ a b, order b a = (order a b).swap
  count : Param → Option Nat

section Answers

variable {Row Cell Param : Type} (db : Engine Row Cell Param)

def OrderKey.compare (key : OrderKey) (a b : Row) : Ordering :=
  match db.comparisons.isNull (db.cell a key.column),
    db.comparisons.isNull (db.cell b key.column) with
  | true, true => .eq
  | true, false => if key.nullsFirst then .lt else .gt
  | false, true => if key.nullsFirst then .gt else .lt
  | false, false =>
    if key.descending then (db.order (db.cell a key.column) (db.cell b key.column)).swap
    else db.order (db.cell a key.column) (db.cell b key.column)

/-- The first key on which the rows differ decides. -/
def compareBy : List OrderKey → Row → Row → Ordering
  | [], _, _ => .eq
  | key :: keys, a, b => (key.compare db a b).then (compareBy keys a b)

/-- Whether the statement keeps the row; `none` is the error that a parameter is not bound. -/
def Select.truth (s : Select) (params : List Param) (row : Row) : Option Truth :=
  match s.condition with
  | none => some .yes
  | some condition => condition.eval db.comparisons (db.cell row) params

structure Arranges (keys : List OrderKey) (rows arranged : List Row) : Prop where
  perm : arranged.Perm rows
  sorted : arranged.Pairwise fun a b => compareBy db keys a b ≠ .gt

structure Select.Answers (s : Select) (params : List Param) (table answer : List Row) : Prop where
  evaluates : ∀ row ∈ table, s.truth db params row ≠ none
  window : ∃ arranged limit offset,
    Arranges db s.order (table.filter fun row => s.truth db params row = some .yes) arranged ∧
    (SqlCondition.bound params s.limit).bind db.count = some limit ∧
    (SqlCondition.bound params s.offset).bind db.count = some offset ∧
    answer = (arranged.drop offset).take limit

def Answers (tables : String → List Row) (statement : String × List Param) (answer : List Row) :
    Prop :=
  ∃ s, parse statement.1 = some s ∧ s.Answers db statement.2 (tables s.table) answer

variable {db}

theorem OrderKey.compare_swap (key : OrderKey) (a b : Row) :
    key.compare db b a = (key.compare db a b).swap := by
  rw [OrderKey.compare, OrderKey.compare]
  cases db.comparisons.isNull (db.cell a key.column) <;>
    cases db.comparisons.isNull (db.cell b key.column)
  · rw [db.order_swap]
    cases key.descending <;> rfl
  all_goals cases key.nullsFirst <;> rfl

theorem compareBy_swap (keys : List OrderKey) (a b : Row) :
    compareBy db keys b a = (compareBy db keys a b).swap := by
  induction keys with
  | nil => rfl
  | cons key keys ih => rw [compareBy, compareBy, key.compare_swap, ih, Ordering.swap_then]

/-- Rows of which no two different ones tie have one order only. -/
theorem Arranges.unique {keys : List OrderKey} {rows arranged arranged' : List Row}
    (hties : ∀ a ∈ rows, ∀ b ∈ rows, compareBy db keys a b = .eq → a = b)
    (h : Arranges db keys rows arranged) (h' : Arranges db keys rows arranged') :
    arranged = arranged' := by
  apply List.Perm.eq_of_pairwise ?_ h.sorted h'.sorted (h.perm.trans h'.perm.symm)
  intro a b ha hb hab hba
  apply hties a (h.perm.mem_iff.mp ha) b (h'.perm.mem_iff.mp hb)
  rw [compareBy_swap] at hba
  cases hcompare : compareBy db keys a b with
  | eq => rfl
  | lt => exact absurd (by rw [hcompare]; rfl) hba
  | gt => exact absurd hcompare hab

end Answers

/-! Statements that are put together from their tokens. -/

def OrderKey.words (key : OrderKey) : List Token :=
  .word (if key.descending then ['D', 'E', 'S', 'C'] else ['A', 'S', 'C']) ::
    match key.nullsFirst? with
    | none => []
    | some true => [.word ['N', 'U', 'L', 'L', 'S'], .word ['F', 'I', 'R', 'S', 'T']]
    | some false => [.word ['N', 'U', 'L', 'L', 'S'], .word ['L', 'A', 'S', 'T']]

def OrderKey.tokens (key : OrderKey) : List Token := .delimited key.column.toList :: key.words

def keysTokens (key : OrderKey) (keys : List OrderKey) : List Token :=
  key.tokens ++ keys.flatMap fun next => .symbol ',' :: next.tokens

def orderTokens : List OrderKey → List Token
  | [] => []
  | key :: keys => .word ['O', 'R', 'D', 'E', 'R'] :: .word ['B', 'Y'] :: keysTokens key keys

def windowTokens (limit offset : Nat) : List Token :=
  .word ['L', 'I', 'M', 'I', 'T'] :: (SqlCondition.paramTokens limit ++
    .word ['O', 'F', 'F', 'S', 'E', 'T'] :: SqlCondition.paramTokens offset)

theorem parseKey_tokens (key : OrderKey) {rest : List Token}
    (hnulls : NotKeyword ['N', 'U', 'L', 'L', 'S'] rest) :
    parseKey (key.tokens ++ rest) = some (key, rest) := by
  obtain ⟨column, descending, nulls⟩ := key
  have hnone : parseNulls rest = some (none, rest) := by
    rw [parseNulls] <;>
      · rintro _ rfl
        exact hnulls rfl
  cases descending <;> rcases nulls with _ | _ | _ <;>
    simp only [OrderKey.tokens, OrderKey.words, List.cons_append, List.nil_append, parseKey,
      parseDirection, if_true, Bool.false_eq_true, if_false, hnone, String.ofList_toList,
      Option.map_some] <;>
    rfl

theorem parseKeys_tokens (key : OrderKey) (keys : List OrderKey) {rest : List Token}
    (hnulls : NotKeyword ['N', 'U', 'L', 'L', 'S'] rest) (hcomma : rest.head? ≠ some (.symbol ','))
    {fuel : Nat} (hfuel : keys.length < fuel) :
    parseKeys fuel (keysTokens key keys ++ rest) = some (key :: keys, rest) := by
  induction keys generalizing key fuel with
  | nil =>
    obtain ⟨m, rfl⟩ := Nat.exists_eq_add_of_le' (Nat.succ_le_of_lt hfuel)
    rw [keysTokens, List.flatMap_nil, List.append_nil]
    simp only [List.length_nil, parseKeys, parseKey_tokens key hnulls]
    split
    next heq =>
      cases heq
      exact absurd rfl hcomma
    next heq =>
      cases heq
      rfl
    next heq => cases heq
  | cons next keys ih =>
    obtain ⟨m, rfl⟩ : ∃ m, fuel = m + 1 := ⟨fuel - 1, by omega⟩
    have hsplit : keysTokens key (next :: keys) ++ rest =
        key.tokens ++ .symbol ',' :: (keysTokens next keys ++ rest) := by simp [keysTokens]
    have htail := ih next (Nat.lt_of_succ_lt_succ hfuel)
    rw [hsplit, parseKeys, parseKey_tokens key (by simp [NotKeyword])]
    simp only [htail]
    rfl

theorem parseWindow_tokens (limit offset : Nat) :
    parseWindow (windowTokens limit offset) = some (limit, offset) := by
  have hoffset : SqlCondition.parseParam (SqlCondition.paramTokens offset) = some (offset, []) := by
    have hparam := SqlCondition.parseParam_paramTokens offset []
    rwa [List.append_nil] at hparam
  simp [windowTokens, parseWindow, hoffset]

inductive WhereTokens : List Token → Option Condition → Prop
  | none : WhereTokens [] none
  | some {tokens : List Token} {condition : Condition} (h : SqlCondition.Parses tokens condition) :
    WhereTokens (.word ['W', 'H', 'E', 'R', 'E'] :: tokens) (some condition)

theorem parseWhere_tokens {tokens : List Token} {condition : Option Condition}
    (h : WhereTokens tokens condition) {rest : List Token}
    (hwhere : NotKeyword ['W', 'H', 'E', 'R', 'E'] rest)
    (hand : NotKeyword ['A', 'N', 'D'] rest) (hor : NotKeyword ['O', 'R'] rest) :
    parseWhere (tokens ++ rest) = some (condition, rest) := by
  cases h with
  | none =>
    rw [List.nil_append, parseWhere]
    rintro _ rfl
    exact hwhere rfl
  | some hparses =>
    rw [List.cons_append, parseWhere, hparses rest hand hor _ (by rw [List.length_append]; omega)]
    rfl

theorem parseOrder_tokens (order : List OrderKey) (limit offset : Nat) :
    parseOrder (orderTokens order ++ windowTokens limit offset) =
      some (order, windowTokens limit offset) := by
  cases order with
  | nil => rfl
  | cons key keys =>
    have hfuel : keys.length < (keysTokens key keys ++ windowTokens limit offset).length := by
      have hkeys : keys.length ≤ (keys.flatMap fun next => .symbol ',' :: next.tokens).length := by
        induction keys with
        | nil => simp
        | cons key keys ih =>
          rw [List.flatMap_cons, List.length_append, List.length_cons, List.length_cons]
          omega
      rw [List.length_append, keysTokens, List.length_append, windowTokens, List.length_cons]
      omega
    exact parseKeys_tokens key keys (by simp [NotKeyword, windowTokens])
      (by simp [windowTokens]) hfuel

theorem parse_of_reads {text table : String} {conditionTokens : List Token}
    {condition : Option Condition} {order : List OrderKey} {limit offset : Nat}
    (hcondition : WhereTokens conditionTokens condition)
    (h : Reads text.toList (.word ['S', 'E', 'L', 'E', 'C', 'T'] :: .operator ['*'] ::
      .word ['F', 'R', 'O', 'M'] :: .delimited table.toList ::
      (conditionTokens ++ (orderTokens order ++ windowTokens limit offset)))) :
    parse text = some ⟨table, condition, order, limit, offset⟩ := by
  have hnext (keyword : List Char) (horder : keyword ≠ ['O', 'R', 'D', 'E', 'R'])
      (hlimit : keyword ≠ ['L', 'I', 'M', 'I', 'T']) :
      NotKeyword keyword (orderTokens order ++ windowTokens limit offset) := by
    cases order with
    | nil => simpa [NotKeyword, orderTokens, windowTokens] using hlimit.symm
    | cons key keys => simpa [NotKeyword, orderTokens] using horder.symm
  have hwhere := parseWhere_tokens hcondition (hnext ['W', 'H', 'E', 'R', 'E'] (by decide)
    (by decide)) (hnext ['A', 'N', 'D'] (by decide) (by decide))
    (hnext ['O', 'R'] (by decide) (by decide))
  rw [parse, SqlLexer.lex_of_reads h]
  simp only [hwhere, parseOrder_tokens, parseWindow_tokens, bind, Option.bind,
    String.ofList_toList]
  rfl

theorem reads_keys {text : String} {key : OrderKey} {texts : List String} {keys : List OrderKey}
    (hkey : Reads text.toList key.tokens ∧
      Reads (text ++ ",").toList (key.tokens ++ [.symbol ',']))
    (h : List.Forall₂ (fun text key => Reads text.toList key.tokens ∧
      Reads (text ++ ",").toList (key.tokens ++ [.symbol ','])) texts keys) :
    Reads (", ".intercalate (text :: texts)).toList (keysTokens key keys) := by
  induction h generalizing text key with
  | nil => simpa [keysTokens, String.intercalate_singleton] using hkey.1
  | cons hnext _ ih =>
    have hreads := hkey.2.space (ih hnext)
    rw [String.intercalate_cons_cons, String.toList_append, String.toList_append]
    simpa [keysTokens] using hreads

end SqlSelect
