import EntitySync.Client.Filter
import EntitySync.Rules.RuleSet

/-!
# List queries

The statement that `list` of the transport builds for a query, with the parameters it binds. The
values of a query are bound and never become part of the text: queries of the same shape have the
same text, and its placeholders count the bound values from left to right.
-/

namespace EntitySync.Client

open Rules (placeholders)

inductive SortDirection where
  | asc
  | desc

inductive NullsOrder where
  | first
  | last

structure SortClause where
  field : String
  direction : Option SortDirection
  nulls : Option NullsOrder

structure ListQuery (V : Type) where
  filter : Option (FilterSpec V)
  sort : Option (List SortClause)
  limit : Option V
  cursor : Option V

def SortClause.directionText (s : SortClause) : String :=
  match s.direction with
  | some .desc => "DESC"
  | some .asc | none => "ASC"

def SortClause.nullsText (s : SortClause) : String :=
  match s.nulls with
  | some .first => " NULLS FIRST"
  | some .last => " NULLS LAST"
  | none => ""

def SortClause.toSql (s : SortClause) : Except String String := do
  let field ← identifierName s.field
  return field ++ " " ++ s.directionText ++ s.nullsText

def compileSort : Option (List SortClause) → Except String String
  | none => .ok ""
  | some sort => do
    let clauses ← sort.mapM SortClause.toSql
    return ", ".intercalate clauses

section Statement

variable {V : Type} (js : JsValues V)

def ListQuery.limitValue (q : ListQuery V) : V := q.limit.getD (js.ofNat 200)

def ListQuery.offset (q : ListQuery V) : V :=
  match q.cursor with
  | some cursor => if js.isNumber cursor then cursor else js.ofNat 0
  | none => js.ofNat 0

/-- The text and the parameters that `list` passes to `db.query`. -/
def listStatement (table : String) (q : ListQuery V) : Except String (String × List V) := do
  let (whereClause, params) ← compileFilter js q.filter
  let orderClause ← compileSort q.sort
  let name ← identifierName table
  return ("SELECT * FROM " ++ name ++ (if whereClause = "" then "" else " WHERE " ++ whereClause) ++
    (if orderClause = "" then "" else " ORDER BY " ++ orderClause) ++
    " LIMIT $" ++ toString (params.length + 1) ++ " OFFSET $" ++ toString (params.length + 2),
    params ++ [q.limitValue js, q.offset js])

def ListQuery.valueClauses (q : ListQuery V) : List (FilterClause V) :=
  match q.filter with
  | none => []
  | some filter => filter.clauses.filter (·.op.takesValue)

end Statement

/-! Queries that differ in their values only. -/

variable {V : Type} {js : JsValues V}

inductive FilterNode.SameShape : FilterNode V → FilterNode V → Prop
  | clause {c d : FilterClause V} (hfield : c.field = d.field) (hop : c.op = d.op) :
    SameShape (.clause c) (.clause d)
  | group (logic : FilterLogic) {members members' : List (FilterNode V)}
    (h : List.Forall₂ SameShape members members') :
    SameShape (.group logic members) (.group logic members')

inductive FilterSpec.SameShape : FilterSpec V → FilterSpec V → Prop
  | list {members members' : List (FilterNode V)}
    (h : List.Forall₂ FilterNode.SameShape members members') :
    SameShape (.list members) (.list members')
  | group (logic : FilterLogic) {members members' : List (FilterNode V)}
    (h : List.Forall₂ FilterNode.SameShape members members') :
    SameShape (.group logic members) (.group logic members')

/-- The same filter and sort, with other values, and any limit and cursor. -/
structure ListQuery.SameShape (q q' : ListQuery V) : Prop where
  filter : Option.Rel FilterSpec.SameShape q.filter q'.filter
  sort : q.sort = q'.sort

/-- The same text with equally many parameters, or the same error. -/
inductive SameText {α : Type} : Except String (α × List V) → Except String (α × List V) → Prop
  | error (message : String) : SameText (.error message) (.error message)
  | ok (text : α) {params params' : List V} (h : params.length = params'.length) :
    SameText (.ok (text, params)) (.ok (text, params'))

theorem SameText.bind {α β : Type} {x x' : Except String (α × List V)}
    {f f' : α × List V → Except String (β × List V)} (hx : SameText x x')
    (hf : ∀ text params params', params.length = params'.length →
      SameText (f (text, params)) (f' (text, params'))) : SameText (x >>= f) (x' >>= f') := by
  cases hx with
  | error message => exact .error message
  | ok text h => exact hf text _ _ h

theorem SameText.map_fst {α : Type} {x x' : Except String (α × List V)} (h : SameText x x') :
    x.map Prod.fst = x'.map Prod.fst := by
  cases h <;> rfl

theorem clauseToSql_sameText {c d : FilterClause V} (hfield : c.field = d.field)
    (hop : c.op = d.op) {params params' : List V} (hlen : params.length = params'.length) :
    SameText (clauseToSql js c params) (clauseToSql js d params') := by
  simp only [clauseToSql, hfield, hop, hlen]
  cases identifierName d.field with
  | error message => exact .error message
  | ok name => cases d.op <;> exact .ok _ (by simp [hlen])

theorem compileClauses_sameText {cs ds : List (FilterClause V)}
    (h : List.Forall₂ (fun c d => c.field = d.field ∧ c.op = d.op) cs ds)
    {params params' : List V} (hlen : params.length = params'.length) :
    SameText (compileClauses js cs params) (compileClauses js ds params') := by
  induction h generalizing params params' with
  | nil => exact .ok [] hlen
  | cons hc _ ih =>
    refine (clauseToSql_sameText hc.1 hc.2 hlen).bind fun fragment params params' hlen => ?_
    refine (ih hlen).bind fun fragments params params' hlen => ?_
    exact .ok _ hlen

theorem forall₂_clauses {members members' : List (FilterNode V)}
    (h : List.Forall₂ FilterNode.SameShape members members') :
    List.Forall₂ (fun c d => c.field = d.field ∧ c.op = d.op)
      (members.filterMap FilterNode.clause?) (members'.filterMap FilterNode.clause?) := by
  induction h with
  | nil => exact .nil
  | cons hmember _ ih =>
    cases hmember with
    | clause hfield hop => exact .cons ⟨hfield, hop⟩ ih
    | group logic hinner => exact ih

theorem compileFilter_sameText {filter filter' : Option (FilterSpec V)}
    (h : Option.Rel FilterSpec.SameShape filter filter') :
    SameText (compileFilter js filter) (compileFilter js filter') := by
  cases h with
  | none => exact .ok "" rfl
  | @some f f' hshape =>
    have hparts : f.logic = f'.logic ∧
        List.Forall₂ (fun c d => c.field = d.field ∧ c.op = d.op) f.clauses f'.clauses := by
      cases hshape with
      | list hmembers | group logic hmembers => exact ⟨rfl, forall₂_clauses hmembers⟩
    refine (compileClauses_sameText hparts.2 rfl).bind fun fragments params params' hlen => ?_
    rw [hparts.1]
    cases f'.logic <;> exact .ok _ hlen

theorem listStatement_sameText (table : String) {q q' : ListQuery V} (h : q.SameShape q') :
    SameText (listStatement js table q) (listStatement js table q') := by
  refine (compileFilter_sameText h.filter).bind fun whereClause params params' hlen => ?_
  simp only [h.sort, hlen]
  cases compileSort q'.sort with
  | error message => exact .error message
  | ok orderClause =>
    cases identifierName table with
    | error message => exact .error message
    | ok name => exact .ok _ (by simp [hlen])

/-! The placeholders of a text. -/

def NoDigit (text : List Char) : Prop := ∀ c ∈ text.head?, c.isDigit = false

def Plain (text : List Char) : Prop := NoDigit text ∧ ∀ c ∈ text, c ≠ '$'

instance : (text : List Char) → Decidable (Plain text)
  | [] => isTrue (by simp [Plain, NoDigit])
  | c :: text => decidable_of_iff (c.isDigit = false ∧ (c :: text).all (· ≠ '$') = true)
      (by simp [Plain, NoDigit])

/-- The placeholders of the text, when it is not followed by a digit. -/
def Marks (text : List Char) (ns : List Nat) : Prop :=
  ∀ rest, NoDigit rest → placeholders (text ++ rest) = ns.map toString ++ placeholders rest

theorem marks_plain {text : List Char} (h : ∀ c ∈ text, c ≠ '$') : Marks text [] := by
  intro rest _
  induction text with
  | nil => rfl
  | cons c text ih =>
    rw [List.forall_mem_cons] at h
    rw [List.cons_append, placeholders, if_neg (fun hc => h.1 hc.1), ih h.2]

theorem Marks.append {text text' : List Char} {ns ns' : List Nat} (h : Marks text ns)
    (h' : Marks text' ns') (hdigit : NoDigit text') : Marks (text ++ text') (ns ++ ns') := by
  intro rest hrest
  have hnext : NoDigit (text' ++ rest) := by
    cases text' with
    | nil => exact hrest
    | cons c text' => exact hdigit
  rw [List.append_assoc, h _ hnext, h' _ hrest, List.map_append, List.append_assoc]

theorem marks_param (k : Nat) : Marks ('$' :: (toString k).toList) [k] := by
  have hdigits : ∀ c ∈ (toString k).toList, c.isDigit = true := by
    intro c hc
    rw [Nat.toString_eq_repr, Nat.toList_repr] at hc
    exact Nat.isDigit_of_mem_toDigits (by decide) (by decide) hc
  have hne : (toString k).toList ≠ [] := by
    rw [Nat.toString_eq_repr, Nat.toList_repr]
    exact Nat.toDigits_ne_nil
  intro rest hrest
  have htake : ((toString k).toList ++ rest).takeWhile Char.isDigit = (toString k).toList := by
    rw [List.takeWhile_append_of_pos hdigits]
    cases rest with
    | nil => simp
    | cons c rest => rw [List.takeWhile_cons_of_neg (by simp [hrest c rfl]), List.append_nil]
  have hplain : Marks (toString k).toList [] := by
    apply marks_plain
    rintro c hc rfl
    exact absurd (hdigits _ hc) (by decide)
  rw [List.cons_append, placeholders, htake, if_pos ⟨rfl, hne⟩, hplain rest hrest,
    String.ofList_toList]
  rfl

def Numbered (text : String) (ns : List Nat) : Prop := NoDigit text.toList ∧ Marks text.toList ns

theorem Numbered.append {text text' : String} {ns ns' : List Nat} (h : Numbered text ns)
    (h' : Numbered text' ns') : Numbered (text ++ text') (ns ++ ns') := by
  rw [Numbered, String.toList_append]
  refine ⟨?_, h.2.append h'.2 h'.1⟩
  cases hchars : text.toList with
  | nil => exact h'.1
  | cons c cs =>
    have hfirst := h.1
    rw [hchars] at hfirst
    exact hfirst

theorem numbered_plain {text : String} (h : Plain text.toList) : Numbered text [] :=
  ⟨h.1, marks_plain h.2⟩

theorem numbered_name {field name : String} (h : identifierName field = .ok name) :
    Numbered name [] := by
  rw [identifierName] at h
  split at h
  next hfield =>
    cases h
    have hchars := mem_of_isIdentifier hfield
    refine numbered_plain ⟨by simp [NoDigit], ?_⟩
    rintro c hc rfl
    simp only [String.toList_append, List.mem_append] at hc
    rcases hc with (hquote | hc) | hquote
    · exact absurd hquote (by decide)
    · exact absurd (hchars _ hc) (by decide)
    · exact absurd hquote (by decide)
  · cases h

theorem numbered_param {text : String} {ns : List Nat} (h : Numbered text ns) (separator : String)
    (middle : List Char) (hseparator : separator.toList = middle ++ ['$'])
    (hmiddle : Plain middle) (k : Nat) :
    Numbered (text ++ separator ++ toString k) (ns ++ [k]) := by
  have hmarks := (marks_plain hmiddle.2).append (marks_param k) (by simp [NoDigit])
  have hparam : Numbered (separator ++ toString k) [k] := by
    rw [Numbered, String.toList_append, hseparator, List.append_assoc]
    refine ⟨?_, hmarks⟩
    cases middle with
    | nil => simp [NoDigit]
    | cons c cs => exact hmiddle.1
  rw [String.append_assoc]
  exact h.append hparam

structure Adds (js : JsValues V) (c : FilterClause V) (params : List V) (fragment : Option String)
    (params' : List V) : Prop where
  params_eq : params' = params ++ c.pushes js
  skipped : fragment = none → c.pushes js = []
  numbered : ∀ text ∈ fragment,
    Numbered text (List.range' (params.length + 1) (c.pushes js).length)

theorem adds_some {c : FilterClause V} {params params' : List V} {text : String}
    (hparams : params' = params ++ c.pushes js)
    (h : Numbered text (List.range' (params.length + 1) (c.pushes js).length)) :
    Adds js c params (some text) params' where
  params_eq := hparams
  skipped h := by cases h
  numbered := by
    rintro _ ⟨rfl⟩
    exact h

theorem adds_of_clauseToSql {c : FilterClause V} {params params' : List V}
    {fragment : Option String} (h : clauseToSql js c params = .ok (fragment, params')) :
    Adds js c params fragment params' := by
  cases hname : identifierName c.field with
  | error message =>
    rw [clauseToSql, hname] at h
    cases h
  | ok name =>
    rw [clauseToSql, hname] at h
    have hfield := numbered_name hname
    have hparam {separator : String} (middle : List Char)
        (hseparator : separator.toList = middle ++ ['$'])
        (hmiddle : Plain middle) :
        Numbered (name ++ separator ++ toString (params.length + 1)) [params.length + 1] :=
      numbered_param hfield _ middle hseparator hmiddle _
    cases c with
    | mk field op value =>
      cases op with
      | eq =>
        cases h
        exact adds_some rfl (hparam " = ".toList (by decide) (by decide))
      | neq =>
        cases h
        exact adds_some rfl (hparam " != ".toList (by decide) (by decide))
      | gt =>
        cases h
        exact adds_some rfl (hparam " > ".toList (by decide) (by decide))
      | gte =>
        cases h
        exact adds_some rfl (hparam " >= ".toList (by decide) (by decide))
      | lt =>
        cases h
        exact adds_some rfl (hparam " < ".toList (by decide) (by decide))
      | lte =>
        cases h
        exact adds_some rfl (hparam " <= ".toList (by decide) (by decide))
      | isIn =>
        cases h
        have hclose : Numbered ")" [] := numbered_plain (by decide)
        exact adds_some rfl ((hparam " = ANY(".toList (by decide) (by decide)).append hclose)
      | isNull | isNotNull =>
        cases h
        exact adds_some (List.append_nil params).symm
          (hfield.append (numbered_plain (by decide)))
      | contains | startsWith | endsWith | matching =>
        cases h
        exact adds_some rfl (hparam " ILIKE ".toList (by decide) (by decide))
      | custom | unknown =>
        cases h
        exact ⟨(List.append_nil params).symm, fun _ => rfl, by simp⟩

theorem numbered_intercalate {separator : String} (hseparator : Numbered separator [])
    {texts : List String} {numbers : List (List Nat)}
    (h : List.Forall₂ Numbered texts numbers) :
    Numbered (separator.intercalate texts) numbers.flatten := by
  induction h with
  | nil => exact numbered_plain (by simp [Plain, NoDigit])
  | @cons text ns texts numbers htext hrest ih =>
    cases hrest with
    | nil => simpa [String.intercalate_singleton] using htext
    | cons hnext hrest =>
      rw [String.intercalate_cons_cons, List.flatten_cons]
      have hjoined := (htext.append hseparator).append ih
      rw [List.append_nil] at hjoined
      exact hjoined

theorem numbered_compileClauses {cs : List (FilterClause V)} {params params' : List V}
    {fragments : List String} (h : compileClauses js cs params = .ok (fragments, params')) :
    params' = params ++ cs.flatMap (·.pushes js) ∧
      ∃ numbers, List.Forall₂ Numbered fragments numbers ∧
        numbers.flatten = List.range' (params.length + 1) (cs.flatMap (·.pushes js)).length := by
  induction cs generalizing params fragments with
  | nil =>
    cases h
    exact ⟨by simp, [], .nil, rfl⟩
  | cons c cs ih =>
    rw [compileClauses, Checks.bind_eq_ok] at h
    obtain ⟨⟨fragment, next⟩, hclause, h⟩ := h
    obtain ⟨⟨others, last⟩, hothers, h⟩ := Checks.bind_eq_ok.mp h
    cases h
    have hadds := adds_of_clauseToSql hclause
    obtain ⟨hparams, numbers, hnumbered, hnumbers⟩ := ih hothers
    rw [hadds.params_eq] at hparams hnumbers
    refine ⟨by rw [hparams, List.flatMap_cons, List.append_assoc], ?_⟩
    rw [List.length_append] at hnumbers
    cases fragment with
    | none =>
      have hnothing := hadds.skipped rfl
      refine ⟨numbers, hnumbered, ?_⟩
      rw [hnumbers, List.flatMap_cons, hnothing]
      rfl
    | some text =>
      refine ⟨_ :: numbers, .cons (hadds.numbered text rfl) hnumbered, ?_⟩
      rw [List.flatten_cons, hnumbers, List.flatMap_cons, List.length_append,
        ← List.range'_append_1]
      congr 2
      omega

theorem flatMap_pushes (cs : List (FilterClause V)) :
    cs.flatMap (·.pushes js) = (cs.filter (·.op.takesValue)).map (·.boundValue js) := by
  induction cs with
  | nil => rfl
  | cons c cs ih =>
    rw [List.flatMap_cons, ih, FilterClause.pushes, List.filter_cons]
    split <;> rfl

theorem numbered_compileFilter {q : ListQuery V} {text : String} {params : List V}
    (h : compileFilter js q.filter = .ok (text, params)) :
    params = q.valueClauses.map (·.boundValue js) ∧
      Numbered text (List.range' 1 q.valueClauses.length) := by
  rw [ListQuery.valueClauses]
  cases hfilter : q.filter with
  | none =>
    rw [hfilter] at h
    cases h
    exact ⟨rfl, numbered_plain (by decide)⟩
  | some filter =>
    rw [hfilter, compileFilter, Checks.bind_eq_ok] at h
    obtain ⟨⟨fragments, params⟩, hclauses, h⟩ := h
    obtain ⟨hparams, numbers, hnumbered, hnumbers⟩ := numbered_compileClauses hclauses
    rw [List.nil_append, flatMap_pushes] at hparams
    rw [flatMap_pushes, List.length_map, List.length_nil, Nat.zero_add] at hnumbers
    have hjoined (separator : String) (hseparator : Plain separator.toList) :
        Numbered (separator.intercalate fragments) _ :=
      numbered_intercalate (numbered_plain hseparator) hnumbered
    rw [hnumbers] at hjoined
    cases hlogic : filter.logic with
    | and =>
      simp only [hlogic] at h
      cases h
      exact ⟨hparams, hjoined " AND " (by decide)⟩
    | or =>
      simp only [hlogic] at h
      cases h
      refine ⟨hparams, ?_⟩
      split
      next hempty =>
        have hnone := hjoined "" (by decide)
        rwa [hempty] at hnone
      next =>
        have hopen : Numbered "(" [] := numbered_plain (by decide)
        have hclose : Numbered ")" [] := numbered_plain (by decide)
        have hparens := (hopen.append (hjoined " OR " (by decide))).append hclose
        rwa [List.nil_append, List.append_nil] at hparens

theorem numbered_toSql {s : SortClause} {text : String} (h : s.toSql = .ok text) :
    Numbered text [] := by
  obtain ⟨name, hname, h⟩ := Checks.bind_eq_ok.mp h
  cases h
  have hspace : Numbered " " [] := numbered_plain (by decide)
  have hdirection : Numbered s.directionText [] := by
    rw [SortClause.directionText]
    split <;> exact numbered_plain (by decide)
  have hnulls : Numbered s.nullsText [] := by
    rw [SortClause.nullsText]
    split <;> exact numbered_plain (by decide)
  exact (((numbered_name hname).append hspace).append hdirection).append hnulls

theorem numbered_compileSort {sort : Option (List SortClause)} {text : String}
    (h : compileSort sort = .ok text) : Numbered text [] := by
  cases sort with
  | none =>
    cases h
    exact numbered_plain (by decide)
  | some sort =>
    rw [compileSort, Checks.bind_eq_ok] at h
    obtain ⟨clauses, hclauses, h⟩ := h
    cases h
    have hall := (Checks.mem_of_mapM_eq_ok hclauses).1
    have hnumbered : List.Forall₂ Numbered clauses (clauses.map fun _ => []) := by
      rw [List.forall₂_map_right_iff, List.forall₂_same]
      intro text htext
      obtain ⟨s, _, hs⟩ := hall text htext
      exact numbered_toSql hs
    have hcomma : Numbered ", " [] := numbered_plain (by decide)
    have hjoined := numbered_intercalate hcomma hnumbered
    simpa using hjoined

theorem numbered_optional {text : String} {ns : List Nat} (h : Numbered text ns) (lead : String)
    (hlead : Plain lead.toList) : Numbered (if text = "" then "" else lead ++ text) ns := by
  split
  next hempty =>
    rw [hempty] at h
    exact h
  next => exact (numbered_plain hlead).append h

/-- Values are bound and never become part of the text. Two queries of the same shape have the same
text or the same error, and the placeholders of a text are `$1` up to `$(n + 2)`, in this order: the
first `n` for the clauses that take a value, the last two for limit and offset. -/
theorem listStatement_binds_values (js : JsValues V) (table : String) :
    (∀ q q' : ListQuery V, q.SameShape q' →
      (listStatement js table q).map Prod.fst = (listStatement js table q').map Prod.fst) ∧
    ∀ (q : ListQuery V) (sql : String) (params : List V),
      listStatement js table q = .ok (sql, params) →
      params = q.valueClauses.map (·.boundValue js) ++ [q.limitValue js, q.offset js] ∧
      placeholders sql.toList =
        (List.range' 1 (q.valueClauses.length + 2)).map toString := by
  constructor
  · intro q q' h
    exact (listStatement_sameText table h).map_fst
  · intro q sql params h
    rw [listStatement, Checks.bind_eq_ok] at h
    obtain ⟨⟨whereClause, bound⟩, hfilter, h⟩ := h
    obtain ⟨orderClause, hsort, h⟩ := Checks.bind_eq_ok.mp h
    obtain ⟨name, hname, h⟩ := Checks.bind_eq_ok.mp h
    cases h
    obtain ⟨hbound, hwhere⟩ := numbered_compileFilter hfilter
    refine ⟨by rw [hbound], ?_⟩
    have hselect : Numbered "SELECT * FROM " [] := numbered_plain (by decide)
    have hparts := ((hselect.append (numbered_name hname)).append
      (numbered_optional hwhere " WHERE " (by decide))).append
      (numbered_optional (numbered_compileSort hsort) " ORDER BY " (by decide))
    have hlimit := numbered_param hparts " LIMIT $" " LIMIT ".toList (by decide) (by decide)
      (bound.length + 1)
    have hoffset := numbered_param hlimit " OFFSET $" " OFFSET ".toList (by decide) (by decide)
      (bound.length + 2)
    have hmarks := hoffset.2 [] (by simp [NoDigit])
    have hlength : bound.length = q.valueClauses.length := by rw [hbound, List.length_map]
    have hnumbers : List.range' 1 (q.valueClauses.length + 2) =
        List.range' 1 q.valueClauses.length ++
          [q.valueClauses.length + 1, q.valueClauses.length + 2] := by
      rw [← List.range'_append_1, Nat.add_comm 1]
      rfl
    simp only [hlength, List.append_nil, List.nil_append, List.append_assoc, List.singleton_append]
      at hmarks
    rw [hnumbers, hlength, hmarks]
    exact List.append_nil _

private def strings : JsValues String := ⟨id, id, toString, fun _ => false⟩

private def openTodos : ListQuery String where
  filter := some (.list [.clause ⟨"title", .contains, "milk"⟩, .clause ⟨"done_at", .isNull, ""⟩,
    .clause ⟨"owner_id", .eq, "42"⟩])
  sort := some [⟨"title", some .desc, none⟩]
  limit := some "10"
  cursor := none

/-- A clause without a value between two that have one. -/
theorem listStatement_binds_todos : ∃ sql,
    listStatement strings "todos" openTodos = .ok (sql, ["%milk%", "42", "10", "0"]) ∧
    placeholders sql.toList = ["1", "2", "3", "4"] := by
  have hstatement : listStatement strings "todos" openTodos = .ok
      ("SELECT * FROM \x22todos\x22 WHERE \x22title\x22 ILIKE $1 AND \x22done_at\x22 IS NULL " ++
        "AND \x22owner_id\x22 = $2 ORDER BY \x22title\x22 DESC LIMIT $3 OFFSET $4",
      ["%milk%", "42", "10", "0"]) := by decide +kernel
  refine ⟨_, hstatement, ?_⟩
  rw [((listStatement_binds_values strings "todos").2 openTodos _ _ hstatement).2]
  decide +kernel

end EntitySync.Client
