import EntitySync.Router.Matching
import EntitySync.Rules.Resolution

/-!
# Completeness of row matching

The data queries of the rules reference and its fixtures: a whole table, equalities with parameters
joined by AND and OR, and a subquery filtered by a parameter. A row that such a query selects is
routed to the bucket exactly if one of its own columns shows the value of a parameter.
-/

namespace EntitySync.Router

open Json (Value)
open Rules (BucketAssigner Instant ResolvedFrom IsName)

structure SqlName where
  text : String
  noBrace : '\x7b' ∉ text.toList

structure ParamName where
  text : String
  isName : IsName text.toList

/-- `column = {bucket_parameters.param}`. -/
structure Equality where
  column : SqlName
  param : ParamName

structure Conjunction where
  first : Equality
  others : List Equality

def Conjunction.equalities (c : Conjunction) : List Equality := c.first :: c.others

/-- The shapes of data queries; AND binds tighter than OR. -/
inductive Shape where
  | unfiltered
  | filtered (first : Conjunction) (others : List Conjunction)
  | memberOf (column key inner : SqlName) (filter : Equality)

/-! ## The text of a data query -/

/-- SQL text, or a reference to a parameter. -/
inductive Segment where
  | sql (text : String)
  | param (name : ParamName)

def Segment.toText (write : String → String) : Segment → String
  | .sql text => text
  | .param name => write name.text

def Equality.segments (e : Equality) : List Segment :=
  [.sql e.column.text, .sql " = ", .param e.param]

def joined (separator : String) (first : List Segment) (others : List (List Segment)) :
    List Segment :=
  first ++ others.flatMap fun segments => .sql separator :: segments

def Conjunction.segments (c : Conjunction) : List Segment :=
  joined " AND " c.first.segments (c.others.map Equality.segments)

def Shape.segments (t : SqlName) : Shape → List Segment
  | .unfiltered => [.sql "SELECT * FROM ", .sql t.text]
  | .filtered first others =>
      [.sql "SELECT * FROM ", .sql t.text, .sql " WHERE "] ++
        joined " OR " first.segments (others.map Conjunction.segments)
  | .memberOf column key inner filter =>
      [.sql "SELECT * FROM ", .sql t.text, .sql " WHERE ", .sql column.text, .sql " IN (SELECT ",
        .sql key.text, .sql " FROM ", .sql inner.text, .sql " WHERE "] ++
        (filter.segments ++ [.sql ")"])

def Shape.toText (write : String → String) (t : SqlName) (shape : Shape) : String :=
  String.join ((shape.segments t).map (Segment.toText write))

def Shape.template : SqlName → Shape → String :=
  Shape.toText fun name => "\x7bbucket_parameters." ++ name ++ "\x7d"

private def ownerEquality : Equality where
  column := ⟨"owner_id", by decide⟩
  param := ⟨"user_id", by decide⟩

example : (Shape.memberOf ⟨"entity_id", by decide⟩ ⟨"id", by decide⟩ ⟨"entities", by decide⟩
    ownerEquality).template ⟨"entity_tags", by decide⟩ =
    "SELECT * FROM entity_tags WHERE entity_id IN (SELECT id FROM entities WHERE owner_id = " ++
      "\x7bbucket_parameters.user_id\x7d)" := by decide

def Shape.rendered (t : SqlName) (a : BucketAssignment) : Shape → String :=
  Shape.toText (fun name => "'" ++ (match a.parameters.lookup name with
    | some (.string s) => s
    | _ => "") ++ "'") t

theorem toList_toText (write : String → String) (t : SqlName) (shape : Shape) :
    (shape.toText write t).toList =
      (shape.segments t).flatMap fun segment => (segment.toText write).toList := by
  rw [Shape.toText, String.toList_join, List.flatMap_map]

def Segment.Plain : Segment → Prop
  | .sql text => '\x7b' ∉ text.toList
  | .param _ => True

def Segment.pieces : Segment → List Rules.Piece
  | .sql text => text.toList.map .lit
  | .param name => [.ref name.text.toList]

theorem plain_equality (e : Equality) : ∀ segment ∈ e.segments, segment.Plain := by
  simp only [Equality.segments, List.forall_mem_cons]
  exact ⟨e.column.noBrace, (by decide : '\x7b' ∉ " = ".toList), trivial, by simp⟩

theorem plain_joined {separator : String} (hseparator : '\x7b' ∉ separator.toList)
    {first : List Segment} {others : List (List Segment)}
    (hfirst : ∀ segment ∈ first, segment.Plain)
    (hothers : ∀ segments ∈ others, ∀ segment ∈ segments, segment.Plain) :
    ∀ segment ∈ joined separator first others, segment.Plain := by
  intro segment hsegment
  cases List.mem_append.mp hsegment with
  | inl hmem => exact hfirst segment hmem
  | inr hmem =>
    obtain ⟨segments, hsegments, hmem⟩ := List.mem_flatMap.mp hmem
    cases List.mem_cons.mp hmem with
    | inl heq =>
      rw [heq]
      exact hseparator
    | inr hmem => exact hothers segments hsegments segment hmem

theorem plain_conjunction (c : Conjunction) : ∀ segment ∈ c.segments, segment.Plain := by
  apply plain_joined (by decide) (plain_equality c.first)
  exact List.forall_mem_map.mpr fun e _ => plain_equality e

theorem plain_segments (t : SqlName) (shape : Shape) :
    ∀ segment ∈ shape.segments t, segment.Plain := by
  have hselect : (Segment.sql "SELECT * FROM ").Plain := (by decide : '\x7b' ∉ _)
  have hwhere : (Segment.sql " WHERE ").Plain := (by decide : '\x7b' ∉ _)
  have hin : (Segment.sql " IN (SELECT ").Plain := (by decide : '\x7b' ∉ _)
  have hfrom : (Segment.sql " FROM ").Plain := (by decide : '\x7b' ∉ _)
  have hclose : (Segment.sql ")").Plain := (by decide : '\x7b' ∉ _)
  have hname (name : SqlName) : (Segment.sql name.text).Plain := name.noBrace
  cases shape with
  | unfiltered => simp [Shape.segments, hselect, hname]
  | filtered first others =>
    have hconditions := plain_joined (by decide : '\x7b' ∉ " OR ".toList)
      (plain_conjunction first) (List.forall_mem_map.mpr fun c (_ : c ∈ others) =>
        plain_conjunction c)
    simpa [Shape.segments, hselect, hwhere, hname] using hconditions
  | memberOf column key inner filter =>
    have hfilter := plain_equality filter
    simp only [Shape.segments, List.forall_mem_append, List.forall_mem_cons, hselect, hwhere, hin,
      hfrom, hclose, hname]
    exact ⟨by simp, hfilter, by simp⟩

theorem pieces_segments {segments : List Segment} (h : ∀ segment ∈ segments, segment.Plain) :
    Rules.pieces 0 (segments.flatMap fun segment =>
        (segment.toText fun name => "\x7bbucket_parameters." ++ name ++ "\x7d").toList) =
      segments.flatMap Segment.pieces := by
  induction segments with
  | nil => rfl
  | cons segment segments ih =>
    obtain ⟨hsegment, hrest⟩ := List.forall_mem_cons.mp h
    rw [List.flatMap_cons, List.flatMap_cons, ← ih hrest]
    cases segment with
    | sql text => exact Rules.pieces_plain hsegment _
    | param name =>
      have href : ("\x7bbucket_parameters." ++ name.text ++ "\x7d").toList =
          Rules.refText name.text.toList := by
        rw [String.toList_append, String.toList_append, List.append_assoc]
        rfl
      rw [Segment.toText, href, Rules.pieces_refText name.isName]
      rfl

/-- `a` was resolved from a rule whose data query named like the table has this shape. -/
def HasShape (ruleSet : Rules.SyncRuleSet) (a : BucketAssignment) (t : SqlName) (shape : Shape) :
    Prop :=
  ResolvedFrom ruleSet a ∧ ∃ rule, ruleSet.rules.lookup a.ruleId = some rule ∧
    rule.dataQueries.lookup t.text = some (shape.template t)

theorem HasShape.lookup_dataQueries {ruleSet : Rules.SyncRuleSet}
    (hvalid : Rules.validate ruleSet = .ok ()) {a : BucketAssignment} {t : SqlName} {shape : Shape}
    (h : HasShape ruleSet a t shape) : a.dataQueries.lookup t.text = some (shape.rendered t a) := by
  obtain ⟨rule, hrule, ps, hps, hruleId, hparameters, hqueries⟩ := h.1.exists_rendered hvalid
  obtain ⟨other, hother, htemplate⟩ := h.2
  obtain ⟨id, hid⟩ := AssocMap.mem_values.mp hrule
  have hsame : other = rule := by
    rw [hruleId, ruleSet.keyed id rule hid, hid, Option.some.injEq] at hother
    exact hother.symm
  subst hsame
  have hvalue (name : String) : (match a.parameters.lookup name with
      | some (.string s) => s
      | _ => "") = (ps.texts.lookup name).getD "" := by
    rw [hparameters, hps.json]
    cases ps.texts.lookup name <;> rfl
  refine (hqueries t.text _).mpr ⟨_, htemplate, Rules.substitute_eq_ok.mpr ⟨?_, ?_⟩⟩
  · have hok := Rules.isOk_substitute_of_valid (Rules.validRule_of_mem hvalid hrule) hps htemplate
    exact Rules.isOk_substitute.mp hok
  · apply String.toList_injective
    rw [String.toList_ofList, Shape.template, toList_toText,
      pieces_segments (plain_segments t shape), Shape.rendered, toList_toText, List.flatMap_assoc]
    apply List.flatMap_congr
    intro segment _
    cases segment with
    | sql text => exact (Rules.render_map_lit _ _).symm
    | param name =>
      have hname : ps.texts.lookup (String.ofList name.text.toList) =
          ps.texts.lookup name.text := by rw [String.ofList_toList]
      simp only [Segment.toText, Segment.pieces, hvalue, List.flatMap_cons, List.flatMap_nil,
        List.append_nil, Rules.renderPiece_ref, hname, String.toList_append]
      rfl

/-! ## The rows of a data query -/

/-- What the queries ask Postgres: the rows of a table, and its comparisons of a column with a
quoted literal and with another column. Columns stand as the JSON that the router sees. -/
structure Postgres where
  rows : String → List Value
  equalsLiteral : Value → String → Bool
  equals : Value → Value → Bool

def Equality.Holds (pg : Postgres) (a : BucketAssignment) (row : Value) (e : Equality) : Prop :=
  ∃ s v, a.parameters.lookup e.param.text = some (.string s) ∧ row.get e.column.text = some v ∧
    pg.equalsLiteral v s = true

def Shape.Selects (pg : Postgres) (a : BucketAssignment) (row : Value) : Shape → Prop
  | .unfiltered => True
  | .filtered first others => ∃ alternative ∈ first :: others,
      ∀ e ∈ alternative.equalities, e.Holds pg a row
  | .memberOf column key inner filter => ∃ other ∈ pg.rows inner.text, filter.Holds pg a other ∧
      ∃ v w, row.get column.text = some v ∧ other.get key.text = some w ∧ pg.equals v w = true

def Shape.equalities : Shape → List Equality
  | .filtered first others => (first :: others).flatMap Conjunction.equalities
  | .unfiltered | .memberOf _ _ _ _ => []

/-- For one of the equalities of the query, the column has the text of the parameter's value. -/
def Shape.Shown (a : BucketAssignment) (row : Value) (shape : Shape) : Prop :=
  ∃ e ∈ shape.equalities, ColumnHolds a row e.column.text e.param.text

/-- Some column has the text of the value of a parameter that the query does not compare it with. -/
def Shape.ShownElsewhere (a : BucketAssignment) (row : Value) (shape : Shape) : Prop :=
  ∃ k q, (∀ e ∈ shape.equalities, (e.column.text, e.param.text) ≠ (k, q)) ∧ ColumnHolds a row k q

/-- Every live assignment whose data query for the table has one of the shapes and selects the row
gets the row. -/
def RoutesCompletely (pg : Postgres) (assigner : BucketAssigner) (now : Instant) (t : SqlName)
    (row : Value) : Prop :=
  ∀ a ∈ assigner.liveAssignments now, ∀ shape, HasShape assigner.ruleSet a t shape →
    shape.Selects pg a row → a.bucketId ∈ assigner.findAffectedBuckets now t.text row

theorem shown_or_shownElsewhere {a : BucketAssignment} {row : Value} {shape : Shape} :
    shape.Shown a row ∨ shape.ShownElsewhere a row ↔ ∃ k q, ColumnHolds a row k q := by
  constructor
  · intro h
    obtain ⟨e, _, hholds⟩ | ⟨k, q, _, hholds⟩ := h
    · exact ⟨_, _, hholds⟩
    · exact ⟨k, q, hholds⟩
  · intro h
    obtain ⟨k, q, hholds⟩ := h
    by_cases hown : ∃ e ∈ shape.equalities, (e.column.text, e.param.text) = (k, q)
    · obtain ⟨e, he, heq⟩ := hown
      cases heq
      exact Or.inl ⟨e, he, hholds⟩
    · exact Or.inr ⟨k, q, fun e he heq => hown ⟨e, he, heq⟩, hholds⟩

/-- Where Postgres compares texts, the equality shapes always show a value. -/
theorem Shape.shown_of_selects {pg : Postgres} {a : BucketAssignment} {row : Value}
    (htext : ∀ v s, pg.equalsLiteral v s = true → v.scalarText = some s) {first : Conjunction}
    {others : List Conjunction} (h : (Shape.filtered first others).Selects pg a row) :
    (Shape.filtered first others).Shown a row := by
  obtain ⟨alternative, hmem, hall⟩ := h
  have hfirst : alternative.first ∈ alternative.equalities := List.mem_cons_self
  obtain ⟨s, v, hparam, hcolumn, hequal⟩ := hall _ hfirst
  exact ⟨alternative.first, List.mem_flatMap.mpr ⟨alternative, hmem, hfirst⟩, s, v, hparam, hcolumn,
    htext v s hequal⟩

/-- Rows are routed to all buckets whose query selects them exactly if every such row shows the
value of a parameter: in a column that the query compares with it, or by chance in another one. -/
theorem routesCompletely_iff (pg : Postgres) (assigner : BucketAssigner) (now : Instant)
    (t : SqlName) (fields : List (String × Value)) (hkeys : (fields.map Prod.fst).Nodup) :
    RoutesCompletely pg assigner now t (.object fields) ↔
      ∀ a ∈ assigner.liveAssignments now, ∀ shape, HasShape assigner.ruleSet a t shape →
        shape.Selects pg a (.object fields) →
          shape.Shown a (.object fields) ∨ shape.ShownElsewhere a (.object fields) := by
  constructor
  · intro h a hlive shape hshape hselects
    obtain ⟨cached, hcached, _, hmatch, hid⟩ :=
      BucketAssigner.mem_findAffectedBuckets.mp (h a hlive shape hshape hselects)
    have hfrom := BucketAssigner.resolvedFrom_of_live hcached
    have hsame := hfrom.eq_of_bucketId assigner.valid hshape.1 hid
    obtain ⟨k, q, s, v, hq, hget, htext⟩ :=
      (rowMatches_iff assigner.valid hfrom hkeys).mp hmatch
    exact shown_or_shownElsewhere.mpr ⟨k, q, s, v, (hsame.2 q).symm.trans hq, hget, htext⟩
  · intro h a hlive shape hshape hselects
    have hshown := shown_or_shownElsewhere.mp (h a hlive shape hshape hselects)
    have hname : t.text ∈ a.dataQueries := by
      rw [← AList.lookup_isSome, hshape.lookup_dataQueries assigner.valid]
      rfl
    exact BucketAssigner.mem_findAffectedBuckets.mpr ⟨a, hlive, hname,
      (rowMatches_iff assigner.valid hshape.1 hkeys).mpr hshown, rfl⟩

/-- Postgres over text columns, with one entity of user 42. -/
private def textPostgres : Postgres where
  rows table := if table = "entities" then
    [.object [("id", .string "e1"), ("owner_id", .string "42")]] else []
  equalsLiteral v s := v.scalarText == some s
  equals v w := v.eq w

private def ownRow : List (String × Value) := [("id", .string "e1"), ("owner_id", .string "42")]

private def ownerShape : Shape := .filtered ⟨ownerEquality, []⟩ []

theorem routesCompletely_own_row :
    (HasShape (Rules.cachedOwner "42").ruleSet (Rules.ownerAssignment "42")
        ⟨"entities", by decide⟩ ownerShape ∧
      ownerShape.Selects textPostgres (Rules.ownerAssignment "42") (.object ownRow)) ∧
    RoutesCompletely textPostgres (Rules.cachedOwner "42") 0 ⟨"entities", by decide⟩
      (.object ownRow) := by
  have hholds : ColumnHolds (Rules.ownerAssignment "42") (.object ownRow) "owner_id" "user_id" :=
    ⟨"42", .string "42", rfl, rfl, rfl⟩
  refine ⟨⟨⟨filtersBy_owner42.1, _, rfl, by decide⟩, ?_⟩, ?_⟩
  · refine ⟨_, List.mem_cons_self, ?_⟩
    intro e he
    cases List.mem_singleton.mp he
    exact ⟨"42", .string "42", rfl, rfl, by decide⟩
  · apply (routesCompletely_iff _ _ _ _ ownRow (by decide)).mpr
    intro a hlive shape _ _
    cases List.mem_singleton.mp hlive
    exact shown_or_shownElsewhere.mpr ⟨_, _, hholds⟩

/-! The fixture without parameters, and the subquery of the reference under its table's name. -/

private def referenceData : Rules.SyncRuleSet :=
  let bucket : Rules.RawBucket := {
    description := some "Globally readable reference data, no per-user scoping"
    parameters := some []
    parameterQueries := some ∅
    data := some (((∅ : HashMap String String).insert "countries" "SELECT * FROM countries").insert
      "currencies" "SELECT * FROM currencies") }
  Rules.RawDocument.toRuleSet
    ⟨some "1", some ((∅ : HashMap String Rules.RawBucket).insert "public_reference_data" bucket)⟩

private def taggedEntities : Rules.SyncRuleSet :=
  let bucket : Rules.RawBucket := {
    description := some "All entities owned by the authenticated user"
    parameters := some ["user_id"]
    parameterQueries := some ((∅ : HashMap String String).insert "user_id"
      "SELECT id FROM users WHERE auth_user_id = $1")
    data := some ((∅ : HashMap String String).insert "entity_tags"
      ("SELECT * FROM entity_tags WHERE entity_id IN (SELECT id FROM entities WHERE owner_id = " ++
        "\x7bbucket_parameters.user_id\x7d)")) }
  Rules.RawDocument.toRuleSet
    ⟨some "1", some ((∅ : HashMap String Rules.RawBucket).insert "user_entities" bucket)⟩

private theorem validate_taggedEntities : Rules.validate taggedEntities = .ok () := by
  decide +kernel

private def connected (ruleSet : Rules.SyncRuleSet) (hvalid : Rules.validate ruleSet = .ok ()) :
    BucketAssigner :=
  let assigner : BucketAssigner := ⟨ruleSet, hvalid, ∅, by simp, 3600000000000⟩
  (assigner.assign ⟨0, 0⟩ (Rules.answerUser "42") ⟨"42", 1⟩).2

private theorem not_routesCompletely {pg : Postgres} {assigner : BucketAssigner} {now : Instant}
    {t : SqlName} {row : Value} {a : BucketAssignment} (hlive : a ∈ assigner.liveAssignments now)
    {rule : SyncRule} (hrule : assigner.ruleSet.rules.lookup a.ruleId = some rule) {shape : Shape}
    (hquery : rule.dataQueries.lookup t.text = some (shape.template t))
    (h : shape.Selects pg a row) (hmissed : assigner.findAffectedBuckets now t.text row = []) :
    ¬RoutesCompletely pg assigner now t row := by
  intro hroutes
  have hshape : HasShape assigner.ruleSet a t shape :=
    ⟨BucketAssigner.resolvedFrom_of_live hlive, rule, hrule, hquery⟩
  have hmem := hroutes a hlive shape hshape h
  rw [hmissed] at hmem
  cases hmem

set_option maxRecDepth 4000 in
/-- A country and a tag of an own entity are selected, and routed to no bucket. -/
theorem reference_rows_are_not_routed :
    ¬RoutesCompletely textPostgres (connected referenceData (by decide)) 0
      ⟨"countries", by decide⟩ (.object [("code", .string "FR")]) ∧
    ¬RoutesCompletely textPostgres (connected taggedEntities validate_taggedEntities) 0
      ⟨"entity_tags", by decide⟩
      (.object [("entity_id", .string "e1"), ("tag", .string "red")]) := by
  constructor
  · have hquery : "SELECT * FROM countries" =
        Shape.template ⟨"countries", by decide⟩ .unfiltered := by decide
    exact not_routesCompletely List.mem_cons_self rfl (congrArg some hquery) trivial (by decide)
  · let tags : Shape := .memberOf ⟨"entity_id", by decide⟩ ⟨"id", by decide⟩
      ⟨"entities", by decide⟩ ownerEquality
    refine @not_routesCompletely _ _ _ _ _ _ List.mem_cons_self _ rfl tags (by decide) ?_
      (by decide)
    exact ⟨_, List.mem_cons_self, ⟨"42", .string "42", rfl, rfl, by decide⟩, .string "e1",
      .string "e1", rfl, rfl, by decide⟩

end EntitySync.Router
