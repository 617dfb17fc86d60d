import EntitySync.Client.ListQuery
import EntitySync.Client.SyncClient
import EntitySync.Library.SqlSelect

/-!
# Listing page by page

What `list` of the transport returns: the database reads the text that `listStatement` builds, and
answers with a window of the rows that the clauses of the filter keep, in an order that the sort
clauses allow. A caller that follows `nextCursor` gets the rows page by page.
-/

namespace EntitySync.Client

open SqlCondition (Truth Predicate Condition)
open SqlLexer (Reads Stops)
open SqlSelect (Engine OrderKey Select Arranges WhereTokens compareBy)

structure JsNumbers (V : Type) extends JsValues V where
  strictEq : V → V → Bool
  add : V → V → V
  isNumber_ofNat : ∀ n, isNumber (ofNat n) = true
  strictEq_ofNat : ∀ m n, m ≤ maxSafeInteger.toNat → n ≤ maxSafeInteger.toNat →
    strictEq (ofNat m) (ofNat n) = decide (m = n)
  add_ofNat : ∀ m n, m + n ≤ maxSafeInteger.toNat → add (ofNat m) (ofNat n) = ofNat (m + n)

/-- The local database, which takes a number as a count of rows. -/
structure PGlite (Row Cell V : Type) where
  js : JsNumbers V
  engine : Engine Row Cell V
  count_ofNat : ∀ n, n ≤ maxSafeInteger.toNat → engine.count (js.ofNat n) = some n

structure ListResult (Row V : Type) where
  rows : List Row
  nextCursor : Option V

section List

variable {Row Cell V : Type} (pg : PGlite Row Cell V) (tables : String → List Row) (table : String)

/-- `rows.length === limit ? offset + limit : null`. -/
def listResult (q : ListQuery V) (rows : List Row) : ListResult Row V where
  rows := rows
  nextCursor :=
    if pg.js.strictEq (pg.js.ofNat rows.length) (q.limitValue pg.js.toJsValues) then
      some (pg.js.add (q.offset pg.js.toJsValues) (q.limitValue pg.js.toJsValues))
    else none

def Lists (q : ListQuery V) (result : ListResult Row V) : Prop :=
  ∃ statement rows, listStatement pg.js.toJsValues table q = .ok statement ∧
    SqlSelect.Answers pg.engine tables statement rows ∧ result = listResult pg q rows

def ListQuery.at (q : ListQuery V) (cursor : Option V) : ListQuery V := { q with cursor }

/-- A caller that fetches pages is at a cursor or has seen the last page. -/
inductive WalkState (V : Type) where
  | ongoing (cursor : Option V)
  | finished

def ListResult.after (result : ListResult Row V) : WalkState V :=
  match result.nextCursor with
  | some cursor => .ongoing (some cursor)
  | none => .finished

/-- The pages that a caller gets one after the other, each for the cursor of the page before. -/
inductive Walk (q : ListQuery V) : WalkState V → List (List Row) → WalkState V → Prop
  | stop (st : WalkState V) : Walk q st [] st
  | fetch {cursor : Option V} {result : ListResult Row V} {pages : List (List Row)}
    {st : WalkState V} (hlist : Lists pg tables table (q.at cursor) result)
    (hrest : Walk q result.after pages st) : Walk q (.ongoing cursor) (result.rows :: pages) st

end List

/-! What the parts of a query mean. -/

def SortClause.key (s : SortClause) : OrderKey where
  column := s.field
  descending :=
    match s.direction with
    | some .desc => true
    | some .asc | none => false
  nullsFirst? := s.nulls.map fun nulls =>
    match nulls with
    | .first => true
    | .last => false

section Meaning

variable {Row Cell V : Type}

/-- The clauses among the members keep the row. A disjunction without clauses keeps every row. -/
def FilterSpec.keeps (js : JsValues V) (db : Engine Row Cell V) (row : Row)
    (filter : FilterSpec V) : Bool :=
  match filter.logic with
  | .and => filter.clauses.all fun c => c.truth js db.comparisons (db.cell row) = .yes
  | .or => filter.clauses.isEmpty ||
    filter.clauses.any fun c => c.truth js db.comparisons (db.cell row) = .yes

namespace ListQuery

def order (q : ListQuery V) : List OrderKey := (q.sort.getD []).map SortClause.key

def keeps (js : JsValues V) (db : Engine Row Cell V) (q : ListQuery V) (row : Row) : Bool :=
  match q.filter with
  | none => true
  | some filter => filter.keeps js db row

structure WellFormed (q : ListQuery V) (table : String) : Prop where
  table : isIdentifier table = true
  sort : ∀ s ∈ q.sort.getD [], isIdentifier s.field = true
  fields : ∀ filter ∈ q.filter, ∀ c ∈ filter.clauses, isIdentifier c.field = true
  ops : ∀ filter ∈ q.filter, ∀ c ∈ filter.clauses, c.op.HasSql

end ListQuery

end Meaning

/-! The text of a statement and its tokens. -/

/-- A part of a statement that begins with a space, or is left out. -/
def ReadsClause (text : String) (tokens : List SqlLexer.Token) : Prop :=
  Reads text.toList tokens ∧ Stops text.toList

theorem readsClause_empty : ReadsClause "" [] := ⟨fun _ _ => rfl, by simp [Stops]⟩

theorem ne_empty_of_reads {text : String} {tokens : List SqlLexer.Token} (hne : tokens ≠ [])
    (h : Reads text.toList tokens) : text ≠ "" := by
  rintro rfl
  exact hne (SqlLexer.lex_of_reads h).symm

theorem readsClause_keyword {text lead : String} {words : List Char}
    {keyword tokens : List SqlLexer.Token} (h : Reads text.toList tokens) (hne : tokens ≠ [])
    (hlead : lead.toList = ' ' :: (words ++ [' '])) (hwords : Reads words keyword) :
    ReadsClause (if text = "" then "" else lead ++ text) (keyword ++ tokens) := by
  have hreads := (hwords.space h).cons_space
  rw [if_neg (ne_empty_of_reads hne h), ReadsClause, String.toList_append, hlead]
  exact ⟨by simpa using hreads, SqlLexer.stops_cons (.inl rfl) _⟩

section Statement

variable {Row Cell V : Type} {js : JsValues V} {db : Engine Row Cell V} {row : Row}

variable (js db row) in
/-- A compiled filter: the tokens of its condition, and what the condition says of the row, whatever
is bound behind its parameters. -/
def CompiledWhere (filter : Option (FilterSpec V)) (keeps : Bool) : Prop :=
  ∃ text params tokens condition, compileFilter js filter = .ok (text, params) ∧
    ReadsClause (if text = "" then "" else " WHERE " ++ text) tokens ∧
    WhereTokens tokens condition ∧
    ∀ (s : Select) (more : List V), s.condition = condition →
      ∃ t, s.truth db (params ++ more) row = some t ∧ (t = .yes ↔ keeps = true)

theorem compiledWhere_none : CompiledWhere js db row none true := by
  refine ⟨"", [], [], none, rfl, readsClause_empty, .none, fun s more hs => ⟨.yes, ?_, by simp⟩⟩
  rw [Select.truth, hs]

theorem compiledWhere_some {filter : FilterSpec V}
    (hfields : ∀ c ∈ filter.clauses, isIdentifier c.field = true)
    (hops : ∀ c ∈ filter.clauses, c.op.HasSql) :
    CompiledWhere js db row (some filter) (filter.keeps js db row) := by
  by_cases hclauses : filter.clauses = []
  · refine ⟨"", [], [], none, compileFilter_nil hclauses, readsClause_empty, .none,
      fun s more hs => ⟨.yes, ?_, ?_⟩⟩
    · rw [Select.truth, hs]
    · cases hlogic : filter.logic <;> simp [FilterSpec.keeps, hlogic, hclauses]
  · have hwhere : Reads ['W', 'H', 'E', 'R', 'E'] [.word ['W', 'H', 'E', 'R', 'E']] :=
      SqlLexer.reads_word (by decide)
    obtain ⟨text, params, tokens, condition, hcompile, hne, hreads, hparses, heval⟩ :=
      compileFilter_reads js db.comparisons (db.cell row) hfields hops hclauses
    refine ⟨text, params, _, some condition, hcompile,
      readsClause_keyword hreads hne (by decide) hwhere, .some hparses,
      fun s more hs => ⟨_, by rw [Select.truth, hs]; exact heval more, ?_⟩⟩
    cases hlogic : filter.logic with
    | and => simp [FilterLogic.combine, Truth.all_eq_yes, FilterSpec.keeps, hlogic]
    | or => simp [FilterLogic.combine, Truth.any_eq_yes, FilterSpec.keeps, hlogic, hclauses]

theorem reads_sortClause {s : SortClause} (h : isIdentifier s.field = true) :
    Reads ("\x22" ++ s.field ++ "\x22" ++ " " ++ s.directionText ++ s.nullsText).toList
        s.key.tokens ∧
      Reads ("\x22" ++ s.field ++ "\x22" ++ " " ++ s.directionText ++ s.nullsText ++ ",").toList
        (s.key.tokens ++ [.symbol ',']) := by
  have hfield {tail : String} {tokens : List SqlLexer.Token} (hlex : SqlLexer.lex tail = tokens)
      (hend : (SqlLexer.steps .ground tail.toList).1.MayEnd) :
      Reads ("\x22" ++ s.field ++ "\x22" ++ (" " ++ tail)).toList
        (.delimited s.field.toList :: tokens) := by
    have hreads := (reads_field h).space (SqlLexer.reads_of_lex hlex hend)
    simpa using hreads
  -- what stands behind the field is one of six texts
  have htail : SqlLexer.lex (s.directionText ++ s.nullsText) = s.key.words ∧
      (SqlLexer.steps .ground (s.directionText ++ s.nullsText).toList).1.MayEnd ∧
      SqlLexer.lex (s.directionText ++ s.nullsText ++ ",") = s.key.words ++ [.symbol ','] ∧
      (SqlLexer.steps .ground (s.directionText ++ s.nullsText ++ ",").toList).1.MayEnd := by
    obtain ⟨field, direction, nulls⟩ := s
    rcases direction with _ | _ | _ <;> rcases nulls with _ | _ | _ <;>
      simp only [SortClause.directionText, SortClause.nullsText, SortClause.key, OrderKey.words,
        Option.map_none, Option.map_some, if_true, Bool.false_eq_true, if_false] <;>
      decide
  obtain ⟨hlex, hend, hcomma, hcommaEnd⟩ := htail
  have hlast := hfield hlex hend
  have hnext := hfield hcomma hcommaEnd
  simp only [String.append_assoc] at hlast hnext ⊢
  exact ⟨hlast, hnext⟩

theorem compileSort_reads {sort : Option (List SortClause)}
    (h : ∀ s ∈ sort.getD [], isIdentifier s.field = true) :
    ∃ text, compileSort sort = .ok text ∧
      ReadsClause (if text = "" then "" else " ORDER BY " ++ text)
        (SqlSelect.orderTokens ((sort.getD []).map SortClause.key)) := by
  have hclause {s : SortClause} (hs : isIdentifier s.field = true) : ∃ text,
      s.toSql = .ok text ∧ Reads text.toList s.key.tokens ∧
        Reads (text ++ ",").toList (s.key.tokens ++ [.symbol ',']) := by
    refine ⟨_, ?_, reads_sortClause hs⟩
    rw [SortClause.toSql, identifierName, if_pos hs]
    rfl
  have hmap (clauses : List SortClause) (hall : ∀ s ∈ clauses, isIdentifier s.field = true) :
      ∃ texts, clauses.mapM SortClause.toSql = .ok texts ∧
        List.Forall₂ (fun text key => Reads text.toList key.tokens ∧
          Reads (text ++ ",").toList (key.tokens ++ [.symbol ',']))
          texts (clauses.map SortClause.key) := by
    induction clauses with
    | nil => exact ⟨[], rfl, .nil⟩
    | cons s clauses ih =>
      rw [List.forall_mem_cons] at hall
      obtain ⟨text, htext, hreads⟩ := hclause hall.1
      obtain ⟨texts, htexts, hrest⟩ := ih hall.2
      refine ⟨text :: texts, ?_, .cons hreads hrest⟩
      rw [List.mapM_cons, htext, htexts]
      rfl
  cases sort with
  | none => exact ⟨"", rfl, readsClause_empty⟩
  | some clauses =>
    obtain ⟨texts, htexts, hreads⟩ := hmap clauses h
    refine ⟨", ".intercalate texts, ?_, ?_⟩
    · rw [compileSort, htexts]
      rfl
    · cases clauses with
      | nil =>
        cases hreads
        exact readsClause_empty
      | cons s clauses =>
        cases hreads with
        | cons hfirst hrest =>
          have hwords : Reads "ORDER BY".toList
              [.word ['O', 'R', 'D', 'E', 'R'], .word ['B', 'Y']] :=
            SqlLexer.reads_of_lex (by decide) (by decide)
          exact readsClause_keyword (SqlSelect.reads_keys hfirst hrest)
            (List.cons_ne_nil _ _) (by decide) hwords

variable (js) in
structure Reading (q : ListQuery V) (table : String) (statement : String × List V) (s : Select) :
    Prop where
  parse : SqlSelect.parse statement.1 = some s
  table_eq : s.table = table
  order_eq : s.order = q.order
  limit : SqlCondition.bound statement.2 s.limit = some (q.limitValue js)
  offset : SqlCondition.bound statement.2 s.offset = some (q.offset js)

variable (js db row) in
def KeepsLike (q : ListQuery V) (statement : String × List V) (s : Select) : Prop :=
  ∃ t, s.truth db statement.2 row = some t ∧ (t = .yes ↔ q.keeps js db row = true)

variable (js db row) in
theorem listStatement_keeps {q : ListQuery V} {table : String} (hq : q.WellFormed table) :
    ∃ statement s, listStatement js table q = .ok statement ∧ Reading js q table statement s ∧
      KeepsLike js db row q statement s := by
  have hwhere : CompiledWhere js db row q.filter (q.keeps js db row) := by
    rw [ListQuery.keeps]
    cases hfilter : q.filter with
    | none => exact compiledWhere_none
    | some filter => exact compiledWhere_some (hq.fields filter hfilter) (hq.ops filter hfilter)
  obtain ⟨whereText, params, tokens, condition, hfilter, hreads, htokens, htruth⟩ := hwhere
  obtain ⟨orderText, hsort, horder⟩ := compileSort_reads hq.sort
  have hname : identifierName table = .ok ("\x22" ++ table ++ "\x22") := if_pos hq.table
  have hselect : Reads "SELECT * FROM".toList
      [.word ['S', 'E', 'L', 'E', 'C', 'T'], .operator ['*'], .word ['F', 'R', 'O', 'M']] :=
    SqlLexer.reads_of_lex (by decide) (by decide)
  have hwindow (k : Nat) {words : List Char} (hwords : Reads words [.word words]) :
      Reads (' ' :: (words ++ ' ' :: '$' :: (toString k).toList))
        (.word words :: SqlCondition.paramTokens k) :=
    (hwords.space (SqlCondition.reads_param k)).cons_space
  have hlimit := hwindow (params.length + 1)
    (SqlLexer.reads_word (show SqlLexer.steps .ground ['L', 'I', 'M', 'I', 'T'] = _ by decide))
  have hoffset := hwindow (params.length + 2)
    (SqlLexer.reads_word (show SqlLexer.steps .ground ['O', 'F', 'F', 'S', 'E', 'T'] = _ by decide))
  have hstatement := (((hselect.space (reads_field hq.table)).append hreads.1 hreads.2).append
    horder.1 horder.2).append (hlimit.append hoffset (SqlLexer.stops_cons (.inl rfl) _))
    (SqlLexer.stops_cons (.inl rfl) _)
  have hlist : listStatement js table q = .ok ("SELECT * FROM " ++ ("\x22" ++ table ++ "\x22") ++
      (if whereText = "" then "" else " WHERE " ++ whereText) ++
      (if orderText = "" then "" else " ORDER BY " ++ orderText) ++
      " LIMIT $" ++ toString (params.length + 1) ++ " OFFSET $" ++ toString (params.length + 2),
      params ++ [q.limitValue js, q.offset js]) := by
    rw [listStatement, hfilter]
    simp only [bind, Except.bind, hsort, hname]
    rfl
  refine ⟨_, ⟨table, condition, q.order, params.length + 1, params.length + 2⟩, hlist,
    ⟨?_, rfl, rfl, ?_, ?_⟩, htruth _ _ rfl⟩
  · apply SqlSelect.parse_of_reads htokens
    simpa [SqlSelect.windowTokens, ListQuery.order] using hstatement
  · simp [SqlCondition.bound]
  · simp [SqlCondition.bound]

private def unitEngine (V : Type) : Engine Unit Unit V where
  comparisons := ⟨fun _ _ _ => .unknown, fun _ _ _ => .unknown, fun _ _ => .unknown, fun _ => false⟩
  cell _ _ := ()
  order _ _ := .eq
  order_swap _ _ := rfl
  count _ := none

variable (db) in
theorem listStatement_reading {q : ListQuery V} {table : String} (hq : q.WellFormed table) :
    ∃ statement s, listStatement js table q = .ok statement ∧ Reading js q table statement s ∧
      ∀ row : Row, KeepsLike js db row q statement s := by
  obtain ⟨statement, s, hlist, hreading, -⟩ := listStatement_keeps js (unitEngine V) () hq
  refine ⟨statement, s, hlist, hreading, fun row => ?_⟩
  obtain ⟨statement', s', hlist', hreading', hkeeps⟩ := listStatement_keeps js db row hq
  cases hlist.symm.trans hlist'
  cases hreading.parse.symm.trans hreading'.parse
  exact hkeeps

end Statement

section Pages

variable {Row Cell V : Type} {pg : PGlite Row Cell V} {tables : String → List Row} {table : String}

def ListQuery.selected (pg : PGlite Row Cell V) (tables : String → List Row) (table : String)
    (q : ListQuery V) : List Row :=
  (tables table).filter (q.keeps pg.js.toJsValues pg.engine)

theorem lists_iff {q : ListQuery V} (hq : q.WellFormed table) {n k : Nat}
    (hn : n ≤ maxSafeInteger.toNat) (hk : k ≤ maxSafeInteger.toNat)
    (hlimit : q.limitValue pg.js.toJsValues = pg.js.ofNat n)
    (hoffset : q.offset pg.js.toJsValues = pg.js.ofNat k) (result : ListResult Row V) :
    Lists pg tables table q result ↔
      ∃ arranged, Arranges pg.engine q.order (q.selected pg tables table) arranged ∧
        result = listResult pg q ((arranged.drop k).take n) := by
  obtain ⟨statement, s, hlist, hreading, hkeeps⟩ := listStatement_reading pg.engine hq
  have hselected : ((tables table).filter fun row =>
      s.truth pg.engine statement.2 row = some .yes) = q.selected pg tables table := by
    apply List.filter_congr
    intro row _
    obtain ⟨t, ht, hyes⟩ := hkeeps row
    rw [Bool.eq_iff_iff, decide_eq_true_iff, ← hyes, ht, Option.some.injEq]
  have hlimit' : (SqlCondition.bound statement.2 s.limit).bind pg.engine.count = some n := by
    rw [hreading.limit, hlimit]
    exact pg.count_ofNat n hn
  have hoffset' : (SqlCondition.bound statement.2 s.offset).bind pg.engine.count = some k := by
    rw [hreading.offset, hoffset]
    exact pg.count_ofNat k hk
  constructor
  · rintro ⟨statement', rows, hlist', ⟨s', hparse, hanswers⟩, hresult⟩
    cases hlist.symm.trans hlist'
    cases hreading.parse.symm.trans hparse
    obtain ⟨arranged, limit, offset, harranged, hcount, hskip, hrows⟩ := hanswers.window
    rw [hreading.table_eq, hreading.order_eq, hselected] at harranged
    cases hlimit'.symm.trans hcount
    cases hoffset'.symm.trans hskip
    exact ⟨arranged, harranged, by rw [hresult, hrows]⟩
  · rintro ⟨arranged, harranged, hresult⟩
    refine ⟨statement, _, hlist, ⟨s, hreading.parse, ?_, ?_⟩, hresult⟩
    · intro row _
      obtain ⟨t, ht, -⟩ := hkeeps row
      rw [ht]
      exact Option.some_ne_none t
    · rw [hreading.table_eq, hreading.order_eq, hselected]
      exact ⟨arranged, n, k, harranged, hlimit', hoffset', rfl⟩

variable (pg tables table) in
structure ListQuery.Pageable (q : ListQuery V) (n : Nat) : Prop where
  wellFormed : q.WellFormed table
  limit : q.limitValue pg.js.toJsValues = pg.js.ofNat n
  pos : 0 < n
  safe : (tables table).length + n ≤ maxSafeInteger.toNat

variable (pg) in
def AtOffset (q : ListQuery V) (cursor : Option V) (k : Nat) : Prop :=
  (q.at cursor).offset pg.js.toJsValues = pg.js.ofNat k

theorem atOffset_ofNat (q : ListQuery V) (k : Nat) : AtOffset pg q (some (pg.js.ofNat k)) k := by
  rw [AtOffset, ListQuery.offset, ListQuery.at]
  exact if_pos (pg.js.isNumber_ofNat k)

section Walking

variable {q : ListQuery V} {n : Nat}

theorem length_le_of_arranges (hpage : q.Pageable pg tables table n) {arranged : List Row}
    (h : Arranges pg.engine q.order (q.selected pg tables table) arranged) :
    arranged.length + n ≤ maxSafeInteger.toNat := by
  have hlen : (q.selected pg tables table).length ≤ (tables table).length :=
    List.length_filter_le _ _
  rw [h.perm.length_eq]
  exact Nat.le_trans (Nat.add_le_add_right hlen n) hpage.safe

theorem lists_at_iff (hpage : q.Pageable pg tables table n) {cursor : Option V} {k : Nat}
    (hcursor : AtOffset pg q cursor k) (hk : k ≤ maxSafeInteger.toNat) (result : ListResult Row V) :
    Lists pg tables table (q.at cursor) result ↔
      ∃ arranged, Arranges pg.engine q.order (q.selected pg tables table) arranged ∧
        result = listResult pg (q.at cursor) ((arranged.drop k).take n) := by
  have hwell : (q.at cursor).WellFormed table :=
    ⟨hpage.wellFormed.table, hpage.wellFormed.sort, hpage.wellFormed.fields, hpage.wellFormed.ops⟩
  have hn : n ≤ maxSafeInteger.toNat := Nat.le_trans (Nat.le_add_left n _) hpage.safe
  exact lists_iff hwell hn hk hpage.limit hcursor result

theorem after_listResult (hpage : q.Pageable pg tables table n) {cursor : Option V} {k : Nat}
    (hcursor : AtOffset pg q cursor k) {arranged : List Row}
    (h : Arranges pg.engine q.order (q.selected pg tables table) arranged) :
    (listResult pg (q.at cursor) ((arranged.drop k).take n)).after =
      if k + n ≤ arranged.length then .ongoing (some (pg.js.ofNat (k + n))) else .finished := by
  have hlen := length_le_of_arranges hpage h
  have hpos := hpage.pos
  have hlimit : (q.at cursor).limitValue pg.js.toJsValues = pg.js.ofNat n := hpage.limit
  have hrows : ((arranged.drop k).take n).length = min n (arranged.length - k) := by
    rw [List.length_take, List.length_drop]
  have hfull : min n (arranged.length - k) = n ↔ k + n ≤ arranged.length := by omega
  rw [ListResult.after, listResult, hlimit, show (q.at cursor).offset _ = _ from hcursor, hrows,
    pg.js.strictEq_ofNat _ _ (by omega) (by omega)]
  simp only [decide_eq_true_iff, hfull]
  by_cases hnext : k + n ≤ arranged.length
  · rw [if_pos hnext, if_pos hnext, pg.js.add_ofNat k n (by omega)]
  · rw [if_neg hnext, if_neg hnext]

variable (pg) in
structure PagesFrom (q : ListQuery V) (n : Nat) (arranged : List Row) (k : Nat)
    (pages : List (List Row)) (st : WalkState V) : Prop where
  rows : pages.flatten <+: arranged.drop k
  count : pages.length * n ≤ arranged.length - k + n
  finished : st = .finished → pages.flatten = arranged.drop k
  ongoing : ∀ cursor, st = .ongoing cursor → ∃ k, AtOffset pg q cursor k ∧ k ≤ arranged.length

theorem pagesFrom_cons {arranged : List Row} {k : Nat} {pages : List (List Row)} {st : WalkState V}
    (hk : k + n ≤ arranged.length) (h : PagesFrom pg q n arranged (k + n) pages st) :
    PagesFrom pg q n arranged k ((arranged.drop k).take n :: pages) st := by
  have hsplit : (arranged.drop k).take n ++ arranged.drop (k + n) = arranged.drop k := by
    rw [← List.drop_drop, List.take_append_drop]
  constructor
  · rw [List.flatten_cons, ← hsplit,
      List.take_left' (by rw [List.length_take, List.length_drop]; omega)]
    exact (List.prefix_append_right_inj _).mpr h.rows
  · have hcount := h.count
    rw [List.length_cons, Nat.succ_mul]
    omega
  · intro hst
    rw [List.flatten_cons, h.finished hst, hsplit]
  · exact h.ongoing

theorem pagesFrom_last {arranged : List Row} {k : Nat} (hk : arranged.length < k + n) :
    PagesFrom pg q n arranged k [(arranged.drop k).take n] .finished := by
  have hall : (arranged.drop k).take n = arranged.drop k := by
    apply List.take_of_length_le
    rw [List.length_drop]
    omega
  have hflat : [(arranged.drop k).take n].flatten = arranged.drop k := by simp [hall]
  have hrows : [(arranged.drop k).take n].flatten ++ [] = arranged.drop k := by
    rw [List.append_nil, hflat]
  exact ⟨⟨[], hrows⟩, by simp, fun _ => hflat, fun cursor h => by cases h⟩

theorem walk_from (hpage : q.Pageable pg tables table n) {arranged : List Row}
    (hunique : ∀ other, Arranges pg.engine q.order (q.selected pg tables table) other →
      other = arranged)
    (h : Arranges pg.engine q.order (q.selected pg tables table) arranged)
    {start st : WalkState V} {pages : List (List Row)}
    (hwalk : Walk pg tables table q start pages st) {cursor : Option V} {k : Nat}
    (hstart : start = .ongoing cursor) (hcursor : AtOffset pg q cursor k)
    (hk : k ≤ arranged.length) : PagesFrom pg q n arranged k pages st := by
  have hsafe := length_le_of_arranges hpage h
  induction hwalk generalizing cursor k with
  | stop st =>
    subst hstart
    constructor
    · exact ⟨_, rfl⟩
    · simp
    · intro hst
      cases hst
    · rintro _ ⟨rfl⟩
      exact ⟨k, hcursor, hk⟩
  | @fetch _ result pages st hlist hrest ih =>
    cases hstart
    obtain ⟨other, hother, hresult⟩ := (lists_at_iff hpage hcursor (by omega) result).mp hlist
    obtain rfl := hunique other hother
    have hafter := after_listResult hpage hcursor h
    have hrows : result.rows = (other.drop k).take n := by
      rw [hresult]
      rfl
    rw [← hresult] at hafter
    rw [hrows]
    split at hafter
    next hnext => exact pagesFrom_cons hnext (ih hafter (atOffset_ofNat q (k + n)) hnext)
    next hlast =>
      rw [hafter] at hrest
      cases hrest
      exact pagesFrom_last (by omega)

/-- Where no two different rows tie in the order of the query, a caller that follows the cursors
gets the rows in this order: every page goes on where the one before ended, a page that is not full
is the last, and with it all rows have come. -/
theorem list_pages_in_order (hpage : q.Pageable pg tables table n)
    (hties : ∀ a ∈ q.selected pg tables table, ∀ b ∈ q.selected pg tables table,
      compareBy pg.engine q.order a b = .eq → a = b)
    {arranged : List Row}
    (h : Arranges pg.engine q.order (q.selected pg tables table) arranged)
    {pages : List (List Row)} {st : WalkState V}
    (hwalk : Walk pg tables table q (.ongoing none) pages st) :
    pages.flatten <+: arranged ∧ pages.length ≤ arranged.length / n + 1 ∧
      (st = .finished → pages.flatten = arranged) ∧
      ∀ cursor, st = .ongoing cursor → ∃ result, Lists pg tables table (q.at cursor) result := by
  have hpages : PagesFrom pg q n arranged 0 pages st :=
    walk_from hpage (fun other hother => hother.unique hties h) h hwalk rfl rfl (Nat.zero_le _)
  have hsafe := length_le_of_arranges hpage h
  refine ⟨hpages.rows, ?_, hpages.finished, ?_⟩
  · have hcount := hpages.count
    rw [← Nat.add_div_right _ hpage.pos, Nat.le_div_iff_mul_le hpage.pos]
    simpa using hcount
  · intro cursor hst
    obtain ⟨k, hcursor, hk⟩ := hpages.ongoing cursor hst
    exact ⟨_, (lists_at_iff hpage hcursor (by omega) _).mpr ⟨arranged, h, rfl⟩⟩

private def idDatabase : PGlite Nat (Option Nat) Nat where
  js :=
    { toText := toString
      ofText := fun _ => 0
      ofNat := id
      isNumber := fun _ => true
      strictEq := fun m n => decide (m = n)
      add := fun m n => m + n
      isNumber_ofNat := fun _ => rfl
      strictEq_ofNat := fun _ _ _ _ => rfl
      add_ofNat := fun _ _ _ => rfl }
  engine :=
    { comparisons :=
        { compare := fun _ cell value => cell.elim .unknown fun n => .ofBool (value < n)
          compareAny := fun _ _ _ => .unknown
          ilike := fun _ _ => .unknown
          isNull := fun cell => cell.isNone }
      cell := fun row column => if column = "id" then some row else none
      order := fun a b => compare (a.getD 0) (b.getD 0)
      order_swap := fun a b => (Nat.compare_swap (a.getD 0) (b.getD 0)).symm
      count := some }
  count_ofNat _ _ := rfl

private def idTables (_ : String) : List Nat := [3, 0, 4, 2]

private def idQuery (sort : List SortClause) : ListQuery Nat where
  filter := some (.list [.clause ⟨"id", .gt, 0⟩])
  sort := some sort
  limit := some 2
  cursor := none

private theorem idQuery_pageable {sort : List SortClause}
    (h : ∀ s ∈ sort, isIdentifier s.field = true) :
    (idQuery sort).Pageable idDatabase idTables "items" 2 where
  wellFormed :=
    { table := by decide
      sort := h
      fields := by
        rintro filter ⟨rfl⟩
        decide
      ops := by
        rintro filter ⟨rfl⟩
        decide }
  limit := rfl
  pos := by decide
  safe := by decide

/-- Three of four rows, in descending order of their column on two pages. -/
theorem list_pages_in_order_descending : ∃ pages,
    Walk idDatabase idTables "items" (idQuery [⟨"id", some .desc, none⟩]) (.ongoing none) pages
      .finished ∧ pages.flatten = [4, 3, 2] := by
  have hpage : (idQuery [⟨"id", some .desc, none⟩]).Pageable idDatabase idTables "items" 2 :=
    idQuery_pageable (by decide)
  have harranged : Arranges idDatabase.engine (idQuery [⟨"id", some .desc, none⟩]).order
      ((idQuery [⟨"id", some .desc, none⟩]).selected idDatabase idTables "items") [4, 3, 2] :=
    ⟨by decide, by decide⟩
  have hstart : AtOffset idDatabase (idQuery [⟨"id", some .desc, none⟩]) none 0 := rfl
  have hfirst := (lists_at_iff hpage hstart (by decide) _).mpr ⟨_, harranged, rfl⟩
  have hsecond := (lists_at_iff hpage (atOffset_ofNat _ 2) (by decide) _).mpr ⟨_, harranged, rfl⟩
  have hwalk := Walk.fetch hfirst (.fetch hsecond (.stop _))
  exact ⟨_, hwalk, (list_pages_in_order hpage (by decide) harranged hwalk).2.2.1 rfl⟩

/-- Without a sort clause each page may come from another order of the rows. A row of the first page
can then come again on the second. -/
theorem unsorted_pages_may_repeat (hpage : q.Pageable pg tables table n) (horder : q.order = [])
    {row : Row} {rows : List Row} (hselected : q.selected pg tables table = row :: rows)
    (hmore : n ≤ rows.length) :
    ∃ first second st, Walk pg tables table q (.ongoing none) [first, second] st ∧
      row ∈ first ∧ row ∈ second := by
  have hany {arranged : List Row} (hperm : arranged.Perm (row :: rows)) :
      Arranges pg.engine q.order (q.selected pg tables table) arranged := by
    rw [hselected, horder]
    exact ⟨hperm, List.pairwise_of_forall fun a b => by rw [compareBy]; decide⟩
  have hpos := hpage.pos
  have hfirst := hany (List.Perm.refl _)
  -- the first row has moved behind the first page
  have hsecond : Arranges pg.engine q.order (q.selected pg tables table)
      (rows.take n ++ row :: rows.drop n) := by
    apply hany
    have hmiddle : (rows.take n ++ row :: rows.drop n).Perm
        (row :: (rows.take n ++ rows.drop n)) := List.perm_middle
    rwa [List.take_append_drop] at hmiddle
  have hsafe := length_le_of_arranges hpage hfirst
  rw [List.length_cons] at hsafe
  have hstart : AtOffset pg q none 0 := rfl
  have hnext : AtOffset pg q (some (pg.js.ofNat (0 + n))) (0 + n) := atOffset_ofNat q (0 + n)
  have hpageOne := (lists_at_iff hpage hstart (Nat.zero_le _) _).mpr ⟨_, hfirst, rfl⟩
  have hpageTwo := (lists_at_iff hpage hnext (by omega) _).mpr ⟨_, hsecond, rfl⟩
  have hafter := after_listResult hpage hstart hfirst
  rw [if_pos (by rw [List.length_cons]; omega)] at hafter
  have hrest := Walk.fetch hpageTwo (.stop _)
  rw [← hafter] at hrest
  refine ⟨_, _, _, .fetch hpageOne hrest, ?_, ?_⟩
  · obtain ⟨m, rfl⟩ : ∃ m, n = m + 1 := ⟨n - 1, by omega⟩
    exact List.mem_cons_self
  · have hdrop : (rows.take n ++ row :: rows.drop n).drop (0 + n) = row :: rows.drop n :=
      List.drop_left' (by rw [List.length_take]; omega)
    obtain ⟨m, hm⟩ : ∃ m, n = m + 1 := ⟨n - 1, by omega⟩
    change row ∈ ((rows.take n ++ row :: rows.drop n).drop (0 + n)).take n
    rw [hdrop, hm]
    exact List.mem_cons_self

/-- The row 3 on both pages. -/
theorem unsorted_pages_may_repeat_three : ∃ first second st,
    Walk idDatabase idTables "items" (idQuery []) (.ongoing none) [first, second] st ∧
      3 ∈ first ∧ 3 ∈ second := by
  have hselected : (idQuery []).selected idDatabase idTables "items" = [3, 4, 2] := by decide
  exact unsorted_pages_may_repeat (idQuery_pageable (by decide)) rfl hselected (by decide)

end Walking

end Pages

end EntitySync.Client
