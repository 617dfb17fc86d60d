import EntitySync.Client.LocalDb
import EntitySync.Library.SqlCondition

/-!
# Compiling filters

`compileFilter` of the transport turns a filter into the text of an SQL condition and the
parameters that are bound to it. A filter is a list of clauses or a group of clauses and further
groups; the compiler looks at the clauses among its members only. `FilterSpec.truth` is what the
whole filter says about a row.
-/

namespace EntitySync.Client

open SqlCondition (Truth Comparisons Predicate Condition)
open SqlLexer (Reads)

structure JsValues (V : Type) where
  /-- `String(value)`. -/
  toText : V → String
  ofText : String → V
  ofNat : Nat → V
  isNumber : V → Bool

inductive FilterOp where
  | eq
  | neq
  | gt
  | gte
  | lt
  | lte
  | isIn
  | isNull
  | isNotNull
  | contains
  | startsWith
  | endsWith
  | matching
  /-- A predicate that only the client can evaluate. -/
  | custom
  | unknown
deriving DecidableEq

structure FilterClause (V : Type) where
  field : String
  op : FilterOp
  value : V

inductive FilterLogic where
  | and
  | or
deriving DecidableEq

inductive FilterNode (V : Type) where
  | clause (c : FilterClause V)
  | group (logic : FilterLogic) (members : List (FilterNode V))

inductive FilterSpec (V : Type) where
  | list (members : List (FilterNode V))
  | group (logic : FilterLogic) (members : List (FilterNode V))

def FilterNode.clause? {V : Type} : FilterNode V → Option (FilterClause V)
  | .clause c => some c
  | .group _ _ => none

def FilterNode.isGroup {V : Type} : FilterNode V → Bool
  | .clause _ => false
  | .group _ _ => true

namespace FilterSpec

variable {V : Type}

def logic : FilterSpec V → FilterLogic
  | list _ => .and
  | group logic _ => logic

def members : FilterSpec V → List (FilterNode V)
  | list members | group _ members => members

def clauses (filter : FilterSpec V) : List (FilterClause V) :=
  filter.members.filterMap FilterNode.clause?

def groups (filter : FilterSpec V) : List (FilterNode V) :=
  filter.members.filter FilterNode.isGroup

end FilterSpec

/-- The error is the message of the `TerminalError`. -/
def identifierName (name : String) : Except String String :=
  if isIdentifier name then .ok ("\x22" ++ name ++ "\x22")
  else .error ("unsafe SQL identifier: '" ++ name ++ "'")

section Compiler

variable {V : Type} (js : JsValues V)

/-- The fragment of a clause and the parameters after it; `none` skips the clause. -/
def clauseToSql (c : FilterClause V) (params : List V) :
    Except String (Option String × List V) := do
  let field ← identifierName c.field
  let push (value : V) (fragment : String → String) : Option String × List V :=
    (some (fragment (toString (params.length + 1))), params ++ [value])
  match c.op with
  | .eq => return push c.value fun k => field ++ " = $" ++ k
  | .neq => return push c.value fun k => field ++ " != $" ++ k
  | .gt => return push c.value fun k => field ++ " > $" ++ k
  | .gte => return push c.value fun k => field ++ " >= $" ++ k
  | .lt => return push c.value fun k => field ++ " < $" ++ k
  | .lte => return push c.value fun k => field ++ " <= $" ++ k
  | .isIn => return push c.value fun k => field ++ " = ANY($" ++ k ++ ")"
  | .isNull => return (some (field ++ " IS NULL"), params)
  | .isNotNull => return (some (field ++ " IS NOT NULL"), params)
  | .contains =>
    return push (js.ofText ("%" ++ js.toText c.value ++ "%")) fun k => field ++ " ILIKE $" ++ k
  | .startsWith =>
    return push (js.ofText (js.toText c.value ++ "%")) fun k => field ++ " ILIKE $" ++ k
  | .endsWith =>
    return push (js.ofText ("%" ++ js.toText c.value)) fun k => field ++ " ILIKE $" ++ k
  | .matching => return push (js.ofText (js.toText c.value)) fun k => field ++ " ILIKE $" ++ k
  | .custom | .unknown => return (none, params)

def compileClauses : List (FilterClause V) → List V → Except String (List String × List V)
  | [], params => .ok ([], params)
  | c :: cs, params => do
    let (fragment, params) ← clauseToSql js c params
    let (fragments, params) ← compileClauses cs params
    return (fragment.toList ++ fragments, params)

def compileFilter : Option (FilterSpec V) → Except String (String × List V)
  | none => .ok ("", [])
  | some filter => do
    let (fragments, params) ← compileClauses js filter.clauses []
    match filter.logic with
    | .or =>
      return (if fragments = [] then "" else "(" ++ " OR ".intercalate fragments ++ ")", params)
    | .and => return (" AND ".intercalate fragments, params)

end Compiler

section Meaning

variable {V : Type} {Cell : Type*} (js : JsValues V) (sem : Comparisons Cell V)
  (row : String → Cell)

/-- The SQL predicate of a clause. A custom predicate has none. -/
def FilterClause.truth (c : FilterClause V) : Truth :=
  match c.op with
  | .eq => sem.compare "=" (row c.field) c.value
  | .neq => sem.compare "!=" (row c.field) c.value
  | .gt => sem.compare ">" (row c.field) c.value
  | .gte => sem.compare ">=" (row c.field) c.value
  | .lt => sem.compare "<" (row c.field) c.value
  | .lte => sem.compare "<=" (row c.field) c.value
  | .isIn => sem.compareAny "=" (row c.field) c.value
  | .isNull => .ofBool (sem.isNull (row c.field))
  | .isNotNull => .ofBool (!sem.isNull (row c.field))
  | .contains => sem.ilike (row c.field) (js.ofText ("%" ++ js.toText c.value ++ "%"))
  | .startsWith => sem.ilike (row c.field) (js.ofText (js.toText c.value ++ "%"))
  | .endsWith => sem.ilike (row c.field) (js.ofText ("%" ++ js.toText c.value))
  | .matching => sem.ilike (row c.field) (js.ofText (js.toText c.value))
  | .custom | .unknown => .unknown

def FilterLogic.combine : FilterLogic → List Truth → Truth
  | .and => Truth.all
  | .or => Truth.any

mutual

def FilterNode.truth : FilterNode V → Truth
  | .clause c => c.truth js sem row
  | .group logic members => logic.combine (memberTruths members)

def memberTruths : List (FilterNode V) → List Truth
  | [] => []
  | member :: members => member.truth :: memberTruths members

end

def FilterSpec.truth (filter : FilterSpec V) : Truth :=
  filter.logic.combine (memberTruths js sem row filter.members)

/-- `list` adds the condition to its statement unless the text is empty. -/
def SelectsRow (compiled : String × List V) : Prop :=
  compiled.1 = "" ∨ SqlCondition.Selects sem row compiled.2 compiled.1

/-- On this row, the groups among the members make no difference. In a conjunction, they are true
where all clauses are; in a disjunction, none is true where no clause is, or, if there is no clause,
one of them is true. -/
def FilterSpec.GroupsIrrelevant (filter : FilterSpec V) : Prop :=
  match filter.logic with
  | .and => (∀ c ∈ filter.clauses, c.truth js sem row = .yes) →
    ∀ g ∈ filter.groups, g.truth js sem row = .yes
  | .or =>
    (filter.clauses = [] → ∃ g ∈ filter.groups, g.truth js sem row = .yes) ∧
    (filter.clauses ≠ [] → (∃ g ∈ filter.groups, g.truth js sem row = .yes) →
      ∃ c ∈ filter.clauses, c.truth js sem row = .yes)

end Meaning

def FilterOp.HasSql (op : FilterOp) : Prop := op ≠ .custom ∧ op ≠ .unknown

instance (op : FilterOp) : Decidable op.HasSql := inferInstanceAs (Decidable (_ ∧ _))

def FilterOp.takesValue : FilterOp → Bool
  | .isNull | .isNotNull | .custom | .unknown => false
  | _ => true

def FilterClause.boundValue {V : Type} (js : JsValues V) (c : FilterClause V) : V :=
  match c.op with
  | .contains => js.ofText ("%" ++ js.toText c.value ++ "%")
  | .startsWith => js.ofText (js.toText c.value ++ "%")
  | .endsWith => js.ofText ("%" ++ js.toText c.value)
  | .matching => js.ofText (js.toText c.value)
  | _ => c.value

def FilterClause.pushes {V : Type} (js : JsValues V) (c : FilterClause V) : List V :=
  if c.op.takesValue then [c.boundValue js] else []

theorem mem_of_isIdentifier {name : String} (h : isIdentifier name = true) :
    ∀ c ∈ name.toList, c.isAlphanum = true ∨ c = '_' := by
  rw [isIdentifier] at h
  split at h
  · cases h
  next c cs heq =>
    simp only [Bool.and_eq_true, Bool.or_eq_true, beq_iff_eq, List.all_eq_true] at h
    rw [heq, List.forall_mem_cons]
    refine ⟨h.1.imp_left fun halpha => ?_, h.2⟩
    exact (Bool.or_eq_true _ _).mpr (.inl halpha)

section Correctness

variable {V : Type} {Cell : Type*} {js : JsValues V} {sem : Comparisons Cell V}
  {row : String → Cell}

theorem reads_field {field : String} (h : isIdentifier field = true) :
    Reads ("\x22" ++ field ++ "\x22").toList [.delimited field.toList] := by
  have hquote : ∀ c ∈ field.toList, c ≠ '\x22' := by
    rintro c hc rfl
    exact absurd (mem_of_isIdentifier h _ hc) (by decide)
  have hreads := SqlLexer.reads_delimited hquote
  simpa using hreads

theorem reads_compared {field operator : String} {token : SqlLexer.Token}
    (hfield : isIdentifier field = true) (hop : Reads operator.toList [token]) (k : Nat) :
    Reads ("\x22" ++ field ++ "\x22" ++ (" " ++ operator ++ " $") ++ toString k).toList
      (.delimited field.toList :: token :: SqlCondition.paramTokens k) := by
  have hreads := (reads_field hfield).space (hop.space (SqlCondition.reads_param k))
  simpa using hreads

variable (js sem row) in
/-- The clause compiles to a predicate, and whatever is bound behind its own parameters, the
predicate says about the row what the clause says. -/
def FilterClause.Compiles (c : FilterClause V) (params : List V) : Prop :=
  ∃ fragment, ∃ p : Predicate,
    clauseToSql js c params = .ok (some fragment, params ++ c.pushes js) ∧
    Reads fragment.toList p.tokens ∧
    ∀ more, p.eval sem row (params ++ c.pushes js ++ more) = some (c.truth js sem row)

theorem bound_last (params : List V) (v : V) (more : List V) :
    SqlCondition.bound (params ++ [v] ++ more) (params.length + 1) = some v := by
  simp [SqlCondition.bound]

theorem compiles_compare {c : FilterClause V} {params : List V} (operator : String)
    (hfield : isIdentifier c.field = true)
    (hread : Reads operator.toList [.operator operator.toList])
    (hsql : clauseToSql js c params = .ok (some ("\x22" ++ c.field ++ "\x22" ++
      (" " ++ operator ++ " $") ++ toString (params.length + 1)), params ++ [c.value]))
    (hpush : c.pushes js = [c.value])
    (htruth : c.truth js sem row = sem.compare operator (row c.field) c.value) :
    c.Compiles js sem row params := by
  refine ⟨_, .compare c.field operator (params.length + 1), hpush ▸ hsql,
    reads_compared hfield hread _, fun more => ?_⟩
  rw [hpush, htruth, Predicate.eval, bound_last]
  rfl

theorem compiles_ilike {c : FilterClause V} {params : List V} {pattern : V}
    (hfield : isIdentifier c.field = true)
    (hsql : clauseToSql js c params = .ok (some ("\x22" ++ c.field ++ "\x22" ++
      (" " ++ "ILIKE" ++ " $") ++ toString (params.length + 1)), params ++ [pattern]))
    (hpush : c.pushes js = [pattern])
    (htruth : c.truth js sem row = sem.ilike (row c.field) pattern) :
    c.Compiles js sem row params := by
  have hread : Reads "ILIKE".toList [.word "ILIKE".toList] := SqlLexer.reads_word (by decide)
  refine ⟨_, .ilike c.field (params.length + 1), hpush ▸ hsql, reads_compared hfield hread _,
    fun more => ?_⟩
  rw [hpush, htruth, Predicate.eval, bound_last]
  rfl

theorem compiles_isIn {field : String} {value : V} {params : List V}
    (hfield : isIdentifier field = true) :
    FilterClause.Compiles js sem row ⟨field, .isIn, value⟩ params := by
  have hname : identifierName field = .ok ("\x22" ++ field ++ "\x22") := if_pos hfield
  refine ⟨"\x22" ++ field ++ "\x22" ++ " = ANY($" ++ toString (params.length + 1) ++ ")",
    .compareAny field "=" (params.length + 1), ?_, ?_, fun more => ?_⟩
  · rw [clauseToSql, hname]
    rfl
  · have hequals : Reads "=".toList [.operator "=".toList] := SqlLexer.reads_operator (by decide)
    have hany : Reads "ANY".toList [.word "ANY".toList] := SqlLexer.reads_word (by decide)
    have hparam := SqlCondition.reads_param (params.length + 1)
    have hreads := (reads_field hfield).space (hequals.space (hany.append hparam.parens
      (SqlLexer.stops_cons (.inr (.inl rfl)) _)))
    simpa [Predicate.tokens] using hreads
  · rw [Predicate.eval, show FilterClause.pushes js ⟨field, .isIn, value⟩ = [value] from rfl,
      bound_last]
    rfl

theorem compiles_isNull {field : String} {value : V} {params : List V}
    (hfield : isIdentifier field = true) :
    FilterClause.Compiles js sem row ⟨field, .isNull, value⟩ params ∧
      FilterClause.Compiles js sem row ⟨field, .isNotNull, value⟩ params := by
  have hname : identifierName field = .ok ("\x22" ++ field ++ "\x22") := if_pos hfield
  have his : Reads "IS".toList [.word "IS".toList] := SqlLexer.reads_word (by decide)
  have hnot : Reads "NOT".toList [.word "NOT".toList] := SqlLexer.reads_word (by decide)
  have hnull : Reads "NULL".toList [.word "NULL".toList] := SqlLexer.reads_word (by decide)
  constructor
  · refine ⟨"\x22" ++ field ++ "\x22" ++ " IS NULL", .isNull field, ?_, ?_, fun _ => rfl⟩
    · rw [clauseToSql, hname]
      simp [FilterClause.pushes, FilterOp.takesValue, pure, Except.pure, bind, Except.bind]
    · have hreads := (reads_field hfield).space (his.space hnull)
      simpa [Predicate.tokens] using hreads
  · refine ⟨"\x22" ++ field ++ "\x22" ++ " IS NOT NULL", .isNotNull field, ?_, ?_, fun _ => rfl⟩
    · rw [clauseToSql, hname]
      simp [FilterClause.pushes, FilterOp.takesValue, pure, Except.pure, bind, Except.bind]
    · have hreads := (reads_field hfield).space (his.space (hnot.space hnull))
      simpa [Predicate.tokens] using hreads

theorem compiles_of_hasSql {c : FilterClause V} (hfield : isIdentifier c.field = true)
    (hop : c.op.HasSql) (params : List V) : c.Compiles js sem row params := by
  have hname : identifierName c.field = .ok ("\x22" ++ c.field ++ "\x22") := if_pos hfield
  have hread {operator : String}
      (h : SqlLexer.steps .ground operator.toList = (.operator operator.toList.reverse, [])) :=
    SqlLexer.reads_operator h
  cases c with
  | mk field op value =>
    cases op with
    | eq =>
      exact compiles_compare "=" hfield (hread (by decide))
        (by rw [clauseToSql, hname]; rfl) rfl rfl
    | neq =>
      exact compiles_compare "!=" hfield (hread (by decide)) (by rw [clauseToSql, hname]; rfl) rfl
        rfl
    | gt =>
      exact compiles_compare ">" hfield (hread (by decide))
        (by rw [clauseToSql, hname]; rfl) rfl rfl
    | gte =>
      exact compiles_compare ">=" hfield (hread (by decide)) (by rw [clauseToSql, hname]; rfl) rfl
        rfl
    | lt =>
      exact compiles_compare "<" hfield (hread (by decide))
        (by rw [clauseToSql, hname]; rfl) rfl rfl
    | lte =>
      exact compiles_compare "<=" hfield (hread (by decide)) (by rw [clauseToSql, hname]; rfl) rfl
        rfl
    | isIn => exact compiles_isIn hfield
    | isNull => exact (compiles_isNull hfield).1
    | isNotNull => exact (compiles_isNull hfield).2
    | contains | startsWith | endsWith | matching =>
      exact compiles_ilike hfield (by rw [clauseToSql, hname]; rfl) rfl rfl
    | custom => exact absurd rfl hop.1
    | unknown => exact absurd rfl hop.2

variable (js sem row) in
/-- The fragments of a list of clauses mean the clauses, one by one. -/
theorem compileClauses_correct {cs : List (FilterClause V)}
    (hfields : ∀ c ∈ cs, isIdentifier c.field = true) (hops : ∀ c ∈ cs, c.op.HasSql)
    (params : List V) :
    ∃ fragments, ∃ ps : List Predicate,
      compileClauses js cs params = .ok (fragments, params ++ cs.flatMap (·.pushes js)) ∧
      List.Forall₂ (fun fragment p => Reads fragment.toList p.tokens) fragments ps ∧
      ∀ more, List.Forall₂ (fun p c => p.eval sem row
        (params ++ cs.flatMap (·.pushes js) ++ more) = some (c.truth js sem row)) ps cs := by
  induction cs generalizing params with
  | nil => exact ⟨[], [], by simp [compileClauses], .nil, fun _ => .nil⟩
  | cons c cs ih =>
    rw [List.forall_mem_cons] at hfields hops
    have hcompiles : c.Compiles js sem row params := compiles_of_hasSql hfields.1 hops.1 params
    obtain ⟨fragment, p, hsql, hread, heval⟩ := hcompiles
    obtain ⟨fragments, ps, hrest, hreads, hevals⟩ :=
      ih hfields.2 hops.2 (params ++ c.pushes js)
    refine ⟨fragment :: fragments, p :: ps, ?_, .cons hread hreads, fun more => .cons ?_ ?_⟩
    · rw [compileClauses, hsql]
      simp only [bind, Except.bind, hrest]
      simp [pure, Except.pure]
    · have hfirst := heval (cs.flatMap (·.pushes js) ++ more)
      simpa using hfirst
    · have hothers := hevals more
      simpa using hothers

theorem selectsRow_of_parse {text : String} {params : List V} {condition : Condition} {t : Truth}
    (hparse : SqlCondition.parse text = some condition)
    (heval : condition.eval sem row params = some t) :
    SelectsRow sem row (text, params) ↔ t = .yes := by
  constructor
  · intro h
    cases h with
    | inl hempty =>
      have hnone : SqlCondition.parse "" = none := by decide
      rw [show text = "" from hempty, hnone] at hparse
      cases hparse
    | inr hselects =>
      obtain ⟨other, hother, hyes⟩ := hselects
      rw [hparse] at hother
      cases hother
      exact Option.some.inj (heval.symm.trans hyes)
  · rintro rfl
    exact .inr ⟨condition, hparse, heval⟩

theorem compileFilter_nil {filter : FilterSpec V} (hclauses : filter.clauses = []) :
    compileFilter js (some filter) = .ok ("", []) := by
  rw [compileFilter, hclauses]
  cases filter.logic <;> rfl

variable (js sem row) in
/-- A filter with clauses compiles to a text that is read as their conjunction or disjunction,
whatever is bound behind its parameters. -/
theorem compileFilter_reads {filter : FilterSpec V}
    (hfields : ∀ c ∈ filter.clauses, isIdentifier c.field = true)
    (hops : ∀ c ∈ filter.clauses, c.op.HasSql) (hne : filter.clauses ≠ []) :
    ∃ text params tokens condition, compileFilter js (some filter) = .ok (text, params) ∧
      tokens ≠ [] ∧ Reads text.toList tokens ∧ SqlCondition.Parses tokens condition ∧
      ∀ more, condition.eval sem row (params ++ more) =
        some (filter.logic.combine (filter.clauses.map (·.truth js sem row))) := by
  obtain ⟨fragments, ps, hcompile, hreads, hevals⟩ :=
    compileClauses_correct js sem row hfields hops []
  rw [List.nil_append] at hcompile hevals
  generalize filter.clauses.flatMap (·.pushes js) = params at hcompile hevals
  have hand : Reads ['A', 'N', 'D'] [.word ['A', 'N', 'D']] := SqlLexer.reads_word (by decide)
  have hor : Reads ['O', 'R'] [.word ['O', 'R']] := SqlLexer.reads_word (by decide)
  obtain ⟨c, cs, hclauses⟩ := List.exists_cons_of_ne_nil hne
  rw [hclauses] at hevals ⊢
  obtain ⟨p, ps, rfl⟩ : ∃ p rest, ps = p :: rest := by
    cases hevals [] with
    | @cons p _ ps _ _ _ => exact ⟨p, ps, rfl⟩
  have htruths (more : List V) : p.eval sem row (params ++ more) = some (c.truth js sem row) ∧
      List.Forall₂ (fun p t => p.eval sem row (params ++ more) = some t) ps
        (cs.map (·.truth js sem row)) := by
    cases hevals more with
    | cons hp hps => exact ⟨hp, List.forall₂_map_right_iff.mpr hps⟩
  cases hreads with
  | @cons fragment _ fragments _ hread hreads =>
    cases hlogic : filter.logic with
    | and =>
      have hchain : Reads (" AND ".intercalate (fragment :: fragments)).toList _ :=
        SqlCondition.reads_chain (by decide) hand hread hreads
      refine ⟨_, params, _, .conj p ps, ?_, SqlCondition.chainTokens_ne_nil _ p ps, hchain,
        SqlCondition.parses_conj p ps, ?_⟩
      · rw [compileFilter, hcompile]
        simp only [bind, Except.bind, hlogic]
        rfl
      · intro more
        exact SqlCondition.eval_conj (htruths more).1 (htruths more).2
    | or =>
      have hchain : Reads (" OR ".intercalate (fragment :: fragments)).toList _ :=
        SqlCondition.reads_chain (by decide) hor hread hreads
      have hparens : Reads ("(" ++ " OR ".intercalate (fragment :: fragments) ++ ")").toList
          (.symbol '(' :: (SqlCondition.chainTokens ['O', 'R'] p ps ++ [.symbol ')'])) := by
        rw [String.toList_append, String.toList_append]
        exact hchain.parens
      refine ⟨_, params, _, .disj p ps, ?_, List.cons_ne_nil _ _, hparens,
        SqlCondition.parses_disj p ps, ?_⟩
      · rw [compileFilter, hcompile]
        simp only [bind, Except.bind, hlogic]
        rfl
      · intro more
        exact SqlCondition.eval_disj (htruths more).1 (htruths more).2

/-- The compiled filter says of a row what the clauses among the members say; a disjunction without
clauses lets every row through. -/
theorem compileFilter_selects {filter : FilterSpec V}
    (hfields : ∀ c ∈ filter.clauses, isIdentifier c.field = true)
    (hops : ∀ c ∈ filter.clauses, c.op.HasSql) :
    ∃ compiled, compileFilter js (some filter) = .ok compiled ∧
      (SelectsRow sem row compiled ↔
        match filter.logic with
        | .and => ∀ c ∈ filter.clauses, c.truth js sem row = .yes
        | .or => filter.clauses = [] ∨ ∃ c ∈ filter.clauses, c.truth js sem row = .yes) := by
  by_cases hclauses : filter.clauses = []
  · refine ⟨("", []), compileFilter_nil hclauses, ?_⟩
    have hempty : SelectsRow sem row ("", ([] : List V)) := .inl rfl
    cases filter.logic <;> simp [hempty, hclauses]
  · obtain ⟨text, params, tokens, condition, hcompile, _, hreads, hparses, heval⟩ :=
      compileFilter_reads js sem row hfields hops hclauses
    replace heval := heval []
    rw [List.append_nil] at heval
    refine ⟨(text, params), hcompile, ?_⟩
    rw [selectsRow_of_parse (hparses.parse_eq hreads) heval]
    cases filter.logic with
    | and => simp [FilterLogic.combine, Truth.all_eq_yes]
    | or => simp [FilterLogic.combine, Truth.any_eq_yes, hclauses]

theorem all_memberTruths (members : List (FilterNode V)) :
    Truth.all (memberTruths js sem row members) = .yes ↔
      (∀ c ∈ members.filterMap FilterNode.clause?, c.truth js sem row = .yes) ∧
        ∀ g ∈ members.filter FilterNode.isGroup, g.truth js sem row = .yes := by
  induction members with
  | nil => simp [memberTruths, Truth.all]
  | cons member members ih =>
    rw [memberTruths, Truth.all_cons, Truth.and_eq_yes, ih]
    cases member with
    | clause c => simp [FilterNode.clause?, FilterNode.isGroup, FilterNode.truth, and_assoc]
    | group logic inner => simp [FilterNode.clause?, FilterNode.isGroup, and_left_comm]

theorem any_memberTruths (members : List (FilterNode V)) :
    Truth.any (memberTruths js sem row members) = .yes ↔
      (∃ c ∈ members.filterMap FilterNode.clause?, c.truth js sem row = .yes) ∨
        ∃ g ∈ members.filter FilterNode.isGroup, g.truth js sem row = .yes := by
  induction members with
  | nil => simp [memberTruths, Truth.any]
  | cons member members ih =>
    rw [memberTruths, Truth.any_cons, Truth.or_eq_yes, ih]
    cases member with
    | clause c =>
      have hclauses : (FilterNode.clause c :: members).filterMap FilterNode.clause? =
        c :: members.filterMap FilterNode.clause? := rfl
      have hgroups : (FilterNode.clause c :: members).filter FilterNode.isGroup =
        members.filter FilterNode.isGroup := rfl
      rw [hclauses, hgroups, List.exists_mem_cons_iff, FilterNode.truth, or_assoc]
    | group logic inner =>
      have hgroups : (FilterNode.group logic inner :: members).filter FilterNode.isGroup =
        .group logic inner :: members.filter FilterNode.isGroup := rfl
      rw [hgroups, List.exists_mem_cons_iff, or_left_comm]
      rfl

/-- The compiled filter selects a row that the filter describes, and no other, exactly if the
groups among the members make no difference on this row. -/
theorem compileFilter_selects_iff {filter : FilterSpec V}
    (hfields : ∀ c ∈ filter.clauses, isIdentifier c.field = true)
    (hops : ∀ c ∈ filter.clauses, c.op.HasSql) :
    ∃ compiled, compileFilter js (some filter) = .ok compiled ∧
      ((SelectsRow sem row compiled ↔ filter.truth js sem row = .yes) ↔
        filter.GroupsIrrelevant js sem row) := by
  obtain ⟨compiled, hcompiled, hselects⟩ := compileFilter_selects hfields hops
  refine ⟨compiled, hcompiled, ?_⟩
  rw [hselects, FilterSpec.truth, FilterSpec.GroupsIrrelevant]
  cases filter.logic with
  | and =>
    simp only [FilterLogic.combine]
    rw [all_memberTruths]
    exact iff_self_and
  | or =>
    simp only [FilterLogic.combine]
    rw [any_memberTruths]
    by_cases hnone : filter.clauses = []
    · have hclauses : filter.members.filterMap FilterNode.clause? = [] := hnone
      simp [hnone, hclauses, FilterSpec.groups]
    · simp only [hnone, false_or, false_implies, true_and, ne_eq, not_false_eq_true, true_implies]
      exact iff_self_or

theorem groupsIrrelevant_of_flat {filter : FilterSpec V} (hgroups : filter.groups = [])
    (hclauses : filter.clauses ≠ []) : filter.GroupsIrrelevant js sem row := by
  rw [FilterSpec.GroupsIrrelevant]
  cases filter.logic <;> simp [hgroups, hclauses]

end Correctness

/-! Rows with numbers in their cells. -/

private def numbers : JsValues Nat := ⟨toString, fun _ => 0, id, fun _ => true⟩

private def equality : Comparisons (Option Nat) Nat where
  compare _ cell value := cell.elim .unknown fun n => .ofBool (n == value)
  compareAny _ _ _ := .unknown
  ilike _ _ := .unknown
  isNull cell := cell.isNone

private def oneTwo (column : String) : Option Nat :=
  if column = "a" then some 1 else if column = "b" then some 2 else none

private def equals (field : String) (value : Nat) : FilterNode Nat := .clause ⟨field, .eq, value⟩

/-- Without groups among its members a filter keeps its meaning. -/
theorem compileFilter_selects_flat :
    let filter : FilterSpec Nat := .group .or [equals "a" 3, equals "b" 2]
    ∃ compiled, compileFilter numbers (some filter) = .ok compiled ∧
      (SelectsRow equality oneTwo compiled ↔ filter.truth numbers equality oneTwo = .yes) := by
  intro filter
  have hfields : ∀ c ∈ filter.clauses, isIdentifier c.field = true := by decide
  have hops : ∀ c ∈ filter.clauses, c.op.HasSql := by decide
  obtain ⟨compiled, hcompiled, hiff⟩ := compileFilter_selects_iff hfields hops
  exact ⟨compiled, hcompiled, hiff.mpr (groupsIrrelevant_of_flat rfl (List.cons_ne_nil _ _))⟩

/-- The row has `a = 1` and `b = 2`. The first filter asks for `a = 1` and for `b = 3` in a group,
and the row is selected; the second one asks for `a = 3` or, in a group, `b = 2`, and the row is
not selected; the third one asks for `b = 3` in a group alone, and every row is selected. -/
theorem compileFilter_drops_groups :
    let both : FilterSpec Nat := .list [equals "a" 1, .group .and [equals "b" 3]]
    let either : FilterSpec Nat := .group .or [equals "a" 3, .group .and [equals "b" 2]]
    let nested : FilterSpec Nat := .group .or [.group .and [equals "b" 3]]
    compileFilter numbers (some both) = .ok ("\x22a\x22 = $1", [1]) ∧
    SelectsRow equality oneTwo ("\x22a\x22 = $1", [1]) ∧
    both.truth numbers equality oneTwo = .no ∧
    compileFilter numbers (some either) = .ok ("(\x22a\x22 = $1)", [3]) ∧
    ¬SelectsRow equality oneTwo ("(\x22a\x22 = $1)", [3]) ∧
    either.truth numbers equality oneTwo = .yes ∧
    compileFilter numbers (some nested) = .ok ("", []) ∧
    SelectsRow equality oneTwo ("", ([] : List Nat)) ∧
    nested.truth numbers equality oneTwo = .no := by
  have hparse : SqlCondition.parse "\x22a\x22 = $1" =
    some (.predicate (.compare "a" "=" 1)) := by decide +kernel
  have hparens : SqlCondition.parse "(\x22a\x22 = $1)" =
    some (.predicate (.compare "a" "=" 1)) := by decide +kernel
  refine ⟨?_, .inr ⟨_, hparse, rfl⟩, by decide, ?_, ?_, by decide, rfl, .inl rfl, by decide⟩
  · decide +kernel
  · decide +kernel
  · rw [selectsRow_of_parse hparens rfl]
    decide

end EntitySync.Client
