import EntitySync.Core.Types
import EntitySync.Library.Checks
import EntitySync.Library.Replay
import Mathlib.Logic.Function.Basic

/-!
# The local database

What `applyOps` does to a client's PGlite database. An op goes to the table named by its entity
type, which has a text key `id` and the columns `payload` and `crdt_state`; a batch is one
transaction.
-/

namespace EntitySync.Client

open Json (Value)

structure LocalRow where
  payload : Option Value
  crdtState : Option (List UInt8)
deriving DecidableEq

abbrev LocalTable := String → Option LocalRow

abbrev LocalDb := String → Option LocalTable

/-- `^[a-zA-Z_][a-zA-Z0-9_]*$`. -/
def isIdentifier (name : String) : Bool :=
  match name.toList with
  | [] => false
  | c :: cs => (c.isAlpha || c == '_') && cs.all fun c => c.isAlphanum || c == '_'

/-- The row of an op after it: an upsert keeps the CRDT state, a patch keeps the payload. -/
def writeRow : Op → Option LocalRow → Option LocalRow
  | .delete, _ => none
  | .upsert value, old => some ⟨some value, old.bind LocalRow.crdtState⟩
  | .crdtPatch patch, old => some ⟨old.bind LocalRow.payload, some patch⟩

def applyOne (db : LocalDb) (op : BucketOp) : Except String LocalDb :=
  if isIdentifier op.entityType then
    match db op.entityType with
    | none => .error ("relation \"" ++ op.entityType ++ "\" does not exist")
    | some rows =>
      .ok (Function.update db op.entityType (some
        (Function.update rows op.entityId (writeRow op.op (rows op.entityId)))))
  else .error ("refusing to apply op for unsafe table name '" ++ op.entityType ++ "'")

/-- The database after the transaction, or the error that rolled it back. -/
def applyOps (db : LocalDb) (ops : List BucketOp) : Except String LocalDb :=
  ops.foldlM applyOne db

def rowAt (db : LocalDb) (table id : String) : Option LocalRow :=
  (db table).bind fun rows => rows id

def writesAt (ops : List BucketOp) (table id : String) : List Op :=
  (ops.filter fun op => op.entityType = table ∧ op.entityId = id).map BucketOp.op

def Applicable (db : LocalDb) (ops : List BucketOp) : Prop :=
  ∀ op ∈ ops, isIdentifier op.entityType = true ∧ (db op.entityType).isSome

instance (db : LocalDb) (ops : List BucketOp) : Decidable (Applicable db ops) :=
  inferInstanceAs (Decidable (∀ _ ∈ ops, _))

theorem applyOne_isOk_iff {db : LocalDb} {op : BucketOp} :
    (∃ db', applyOne db op = .ok db') ↔
      isIdentifier op.entityType = true ∧ (db op.entityType).isSome := by
  rw [applyOne]
  by_cases hname : isIdentifier op.entityType = true
  · rw [if_pos hname]
    cases htable : db op.entityType <;> simp [hname]
  · rw [if_neg hname]
    simp [hname]

theorem isSome_of_applyOne {db db' : LocalDb} {op : BucketOp} (h : applyOne db op = .ok db')
    (table : String) : (db' table).isSome = (db table).isSome := by
  rw [applyOne] at h
  split at h
  · split at h
    · cases h
    next rows hrows =>
      cases h
      by_cases htable : table = op.entityType
      · subst htable
        simp [hrows]
      · simp [htable]
  · cases h

theorem applyOps_isOk_iff {db : LocalDb} {ops : List BucketOp} :
    (∃ db', applyOps db ops = .ok db') ↔ Applicable db ops := by
  induction ops generalizing db with
  | nil => simp [applyOps, Applicable, pure, Except.pure]
  | cons op ops ih =>
    rw [applyOps, List.foldlM_cons]
    cases hop : applyOne db op with
    | error e =>
      have hfails : ¬ (isIdentifier op.entityType = true ∧ (db op.entityType).isSome) := by
        rw [← applyOne_isOk_iff]
        simp [hop]
      constructor
      · rintro ⟨db', hdb'⟩
        cases hdb'
      · intro happlicable
        exact absurd (happlicable op List.mem_cons_self) hfails
    | ok next =>
      have hholds := applyOne_isOk_iff.mp ⟨next, hop⟩
      change (∃ db', applyOps next ops = .ok db') ↔ _
      rw [ih]
      simp only [Applicable, isSome_of_applyOne hop, List.forall_mem_cons]
      exact ⟨fun h => ⟨hholds, h⟩, fun h => h.2⟩

theorem ext_rowAt {db db' : LocalDb} (htables : ∀ table, (db table).isSome = (db' table).isSome)
    (hrows : ∀ table id, rowAt db table id = rowAt db' table id) : db = db' := by
  funext table
  have htable := htables table
  have hrow := hrows table
  simp only [rowAt] at hrow
  cases h : db table <;> cases h' : db' table <;> simp_all
  funext id
  exact hrow id

theorem rowAt_applyOne {db db' : LocalDb} {op : BucketOp} (h : applyOne db op = .ok db')
    (table id : String) : rowAt db' table id =
      if op.entityType = table ∧ op.entityId = id then writeRow op.op (rowAt db table id)
      else rowAt db table id := by
  rw [applyOne] at h
  split at h
  · split at h
    · cases h
    next rows hrows =>
      cases h
      by_cases htable : op.entityType = table
      · subst htable
        by_cases hid : op.entityId = id
        · subst hid
          simp [rowAt, hrows]
        · simp [rowAt, hrows, hid, Function.update_of_ne (Ne.symm hid)]
      · simp [rowAt, htable, Function.update_of_ne (Ne.symm htable)]
  · cases h

theorem isSome_of_applyOps {db db' : LocalDb} {ops : List BucketOp} (h : applyOps db ops = .ok db')
    (table : String) : (db' table).isSome = (db table).isSome := by
  induction ops generalizing db with
  | nil =>
    cases h
    rfl
  | cons op ops ih =>
    rw [applyOps, List.foldlM_cons] at h
    obtain ⟨next, hnext, h⟩ := Checks.bind_eq_ok.mp h
    rw [ih h, isSome_of_applyOne hnext]

theorem rowAt_applyOps {db db' : LocalDb} {ops : List BucketOp} (h : applyOps db ops = .ok db')
    (table id : String) :
    rowAt db' table id = Replay.perform writeRow (writesAt ops table id) (rowAt db table id) := by
  induction ops generalizing db with
  | nil =>
    cases h
    rfl
  | cons op ops ih =>
    rw [applyOps, List.foldlM_cons] at h
    obtain ⟨next, hnext, h⟩ := Checks.bind_eq_ok.mp h
    rw [ih h, rowAt_applyOne hnext]
    by_cases hop : op.entityType = table ∧ op.entityId = id
    · simp [writesAt, hop]
    · simp [writesAt, hop]

theorem overwriting_writeRow : Replay.Overwriting writeRow where
  idem op row := by cases op <;> rfl
  later op := by
    cases op with
    | delete => exact .inl fun _ _ => rfl
    | upsert value =>
      refine .inr fun later row => ?_
      cases later with
      | crdtPatch patch => exact .inr rfl
      | delete | upsert => exact .inl rfl
    | crdtPatch patch =>
      refine .inr fun later row => ?_
      cases later with
      | upsert value => exact .inr rfl
      | delete | crdtPatch => exact .inl rfl

/-- Ops that were applied can be applied again from any position on without an effect. -/
theorem applyOps_append_suffix {db db' : LocalDb} {before ops : List BucketOp}
    (h : applyOps db (before ++ ops) = .ok db') : applyOps db' ops = .ok db' := by
  have hagain : Applicable db' ops := by
    intro op hop
    rw [isSome_of_applyOps h]
    exact applyOps_isOk_iff.mp ⟨db', h⟩ op (List.mem_append_right _ hop)
  obtain ⟨again, heq⟩ := applyOps_isOk_iff.mpr hagain
  have hsame : again = db' := by
    refine ext_rowAt (isSome_of_applyOps heq) fun table id => ?_
    have hwrites : writesAt (before ++ ops) table id =
        writesAt before table id ++ writesAt ops table id := by simp [writesAt]
    rw [rowAt_applyOps heq, rowAt_applyOps h, hwrites, Replay.perform_append,
      Replay.perform_perform overwriting_writeRow]
  rw [heq, hsame]

end EntitySync.Client
