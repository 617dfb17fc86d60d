import EntitySync.Gateway.WriteScope

/-!
# The verdict on a client write

`handle_write` on a database that nothing else changes and whose statements do not fail. The row is
checked against the first authorized bucket that has a data query for the entity type, and which
one comes first is the choice of a hash map.
-/

namespace EntitySync.Gateway

open StepSystem

section
variable (selects : Db → String → String → Bool)
variable (applyDelta : List UInt8 → List UInt8 → Except String (List UInt8))

namespace WriteTask

def afterEffect (task : WriteTask) (db : Db) : Option (Row → Option Row) → Db
  | none => db
  | some f => db.rewrite task.entityType task.entityId f

def runAlone : Nat → WriteTask → Db → WriteStage × Db
  | 0, task, db => (task.stage, db)
  | n + 1, task, db =>
    match task.advance selects applyDelta db none with
    | none => (task.stage, db)
    | some next => runAlone n { task with stage := next.1 } (task.afterEffect db next.2)

/-- `handle_write`: the check, and at most three statements of `apply_write`. -/
def handleWrite (task : WriteTask) (db : Db) : WriteStage × Db :=
  runAlone selects applyDelta 4 { task with stage := .received } db

def applyWriteAlone (task : WriteTask) (db : Db) : WriteStage × Db :=
  runAlone selects applyDelta 3 { task with stage := .authorized } db

def visiting (task : WriteTask) (order : HashMap BucketId BucketAssignment) : WriteTask :=
  { task with authorizedBuckets := order }

/-- In every iteration order of the authorized buckets the write is applied if its row is in the
scope of one of them, and otherwise it is refused and changes nothing. -/
structure DecidedByScope (task : WriteTask) (db : Db) : Prop where
  applied : task.InScope selects db → ∀ order : HashMap BucketId BucketAssignment,
    order.entries.Perm task.authorizedBuckets.entries →
      (task.visiting order).handleWrite selects applyDelta db =
        task.applyWriteAlone selects applyDelta db
  refused : ¬task.InScope selects db → ∀ order : HashMap BucketId BucketAssignment,
    order.entries.Perm task.authorizedBuckets.entries →
      ∃ message, (task.visiting order).handleWrite selects applyDelta db =
        (.finished (.refused (.authError message)), db)
  sameVerdict : ∀ order order' : HashMap BucketId BucketAssignment,
    order.entries.Perm task.authorizedBuckets.entries →
    order'.entries.Perm task.authorizedBuckets.entries →
      (task.visiting order).handleWrite selects applyDelta db =
        (task.visiting order').handleWrite selects applyDelta db

/-- If one of the authorized data queries for the entity type selects the row, all of them do. -/
def ScopesAgree (task : WriteTask) (db : Db) : Prop :=
  task.InScope selects db → ∀ a ∈ task.authorizedBuckets.values,
    ∀ query ∈ a.dataQueries.lookup task.entityType, selects db query task.entityId = true

instance (task : WriteTask) (db : Db) : Decidable (task.ScopesAgree selects db) :=
  inferInstanceAs (Decidable (_ → ∀ a ∈ task.authorizedBuckets.values, _))

variable {selects applyDelta}

theorem handleWrite_of_selected {task : WriteTask} {db : Db} {query : String}
    (hquery : task.dataQuery = some query) (h : selects db query task.entityId = true) :
    task.handleWrite selects applyDelta db = task.applyWriteAlone selects applyDelta db := by
  have hcheck : { task with stage := .received }.checkScope selects db none = .authorized := by
    have hsame : { task with stage := .received }.dataQuery = some query := hquery
    simp [checkScope, hsame, h]
  simp only [handleWrite, runAlone, advance, hcheck]
  rfl

theorem handleWrite_of_not_selected {task : WriteTask} {db : Db} {query : String}
    (hquery : task.dataQuery = some query) (h : selects db query task.entityId = false) :
    task.handleWrite selects applyDelta db = (.finished (.refused (.authError
      ("not authorized to write entity '" ++ task.entityType ++ "/" ++ task.entityId ++ "'"))),
      db) := by
  have hsame : { task with stage := .received }.dataQuery = some query := hquery
  simp [handleWrite, runAlone, advance, checkScope, hsame, h, afterEffect]

theorem handleWrite_of_no_query {task : WriteTask} {db : Db} (hquery : task.dataQuery = none) :
    task.handleWrite selects applyDelta db = (.finished (.refused (.authError
      ("not authorized to write entity type '" ++ task.entityType ++ "'"))), db) := by
  have hsame : { task with stage := .received }.dataQuery = none := hquery
  simp [handleWrite, runAlone, advance, checkScope, hsame, afterEffect]

theorem applyWriteAlone_applied {task : WriteTask} (hop : ∀ patch, task.op ≠ .crdtPatch patch)
    (db : Db) : (task.applyWriteAlone selects applyDelta db).1 = .finished .applied := by
  cases h : task.op with
  | upsert value => simp [applyWriteAlone, runAlone, advance, applyWrite, h]
  | delete => simp [applyWriteAlone, runAlone, advance, applyWrite, h]
  | crdtPatch patch => exact absurd h (hop patch)

/-- A patch is applied, or there is no state that it could be merged into. -/
theorem applyWriteAlone_crdtPatch {task : WriteTask} {patch : List UInt8}
    (hop : task.op = .crdtPatch patch) (db : Db) :
    (task.applyWriteAlone selects applyDelta db).1 = .finished .applied ∨
      (task.applyWriteAlone selects applyDelta db).1 = refused "unexpected null" ∨
      ∃ e, (task.applyWriteAlone selects applyDelta db).1 =
        .finished (.refused (.protocolError ("CRDT patch apply failed: " ++ e))) := by
  simp only [applyWriteAlone, runAlone, advance, applyWrite, hop, afterEffect]
  cases hrow : db task.entityType task.entityId with
  | none =>
    cases hmerge : applyDelta [] patch <;> simp [selectState, mergeDelta, hmerge]
  | some row =>
    cases hstate : row.crdtState with
    | none => simp [selectState, hstate, WriteTask.refused]
    | some bytes =>
      cases hmerge : applyDelta bytes patch <;> simp [selectState, hstate, mergeDelta, hmerge]

theorem applyWriteAlone_finished (task : WriteTask) (db : Db) :
    ∃ outcome, (task.applyWriteAlone selects applyDelta db).1 = .finished outcome ∧
      ∀ message, outcome ≠ .refused (.authError message) := by
  by_cases hpatch : ∃ patch, task.op = .crdtPatch patch
  · obtain ⟨patch, hop⟩ := hpatch
    obtain h | h | ⟨e, h⟩ := applyWriteAlone_crdtPatch hop db
    · exact ⟨_, h, by simp⟩
    · exact ⟨_, h, by simp⟩
    · exact ⟨_, h, by simp⟩
  · exact ⟨_, applyWriteAlone_applied (fun patch hop => hpatch ⟨patch, hop⟩) db, by simp⟩

section
variable {task : WriteTask} {db : Db} {order : HashMap BucketId BucketAssignment}

theorem mem_values_of_perm (h : order.entries.Perm task.authorizedBuckets.entries)
    (a : BucketAssignment) : a ∈ order.values ↔ a ∈ task.authorizedBuckets.values :=
  (h.map Sigma.snd).mem_iff

theorem dataQuery_visiting_eq_none (h : order.entries.Perm task.authorizedBuckets.entries) :
    (task.visiting order).dataQuery = none ↔ task.dataQuery = none := by
  simp only [dataQuery, visiting, List.findSome?_eq_none_iff, mem_values_of_perm h]

/-- Behind the checks the buckets of the session play no role. -/
theorem runAlone_visiting (order : HashMap BucketId BucketAssignment) (n : Nat)
    (hstage : task.stage ≠ .received) (db : Db) :
    (task.visiting order).runAlone selects applyDelta n db =
      task.runAlone selects applyDelta n db := by
  induction n generalizing task db with
  | zero => rfl
  | succ n ih =>
    have hadvance : (task.visiting order).advance selects applyDelta db none =
        task.advance selects applyDelta db none := by
      cases h : task.stage with
      | received => exact absurd h hstage
      | authorized =>
        simp only [advance, visiting, h]
        rfl
      | selected | merged | finished => simp only [advance, visiting, h]
    rw [runAlone, runAlone, hadvance]
    cases hnext : task.advance selects applyDelta db none with
    | none => rfl
    | some next =>
      have hreceived : next.1 ≠ .received := by
        have hcan := advances_of_advance hnext
        intro heq
        rw [heq] at hcan
        cases hcan
      have hrest : ({ task with stage := next.1 }.visiting order).runAlone selects applyDelta n
          (task.afterEffect db next.2) = _ := ih hreceived _
      exact hrest

theorem applyWriteAlone_visiting (order : HashMap BucketId BucketAssignment) :
    (task.visiting order).applyWriteAlone selects applyDelta db =
      task.applyWriteAlone selects applyDelta db := by
  have hstage : { task with stage := .authorized }.stage ≠ .received := by simp
  exact runAlone_visiting order 3 hstage db

theorem mem_of_dataQuery {query : String}
    (h : (task.visiting order).dataQuery = some query)
    (hperm : order.entries.Perm task.authorizedBuckets.entries) :
    ∃ a ∈ task.authorizedBuckets.values, query ∈ a.dataQueries.lookup task.entityType := by
  obtain ⟨a, ha, hlookup⟩ := List.exists_of_findSome?_eq_some h
  exact ⟨a, (mem_values_of_perm hperm a).mp ha, hlookup⟩

/-- Where the scopes agree, the first query decides like all of them. -/
theorem ScopesAgree.handleWrite (hagree : task.ScopesAgree selects db)
    (hperm : order.entries.Perm task.authorizedBuckets.entries)
    (hscope : task.InScope selects db) :
    (task.visiting order).handleWrite selects applyDelta db =
      task.applyWriteAlone selects applyDelta db := by
  cases hquery : (task.visiting order).dataQuery with
  | none =>
    obtain ⟨a, ha, query, hlookup, _⟩ := hscope
    have hnone := List.findSome?_eq_none_iff.mp
      ((dataQuery_visiting_eq_none hperm).mp hquery) a ha
    rw [hnone] at hlookup
    cases hlookup
  | some query =>
    obtain ⟨a, ha, hlookup⟩ := mem_of_dataQuery hquery hperm
    rw [handleWrite_of_selected hquery (hagree hscope a ha query hlookup)]
    exact applyWriteAlone_visiting order

theorem handleWrite_of_not_inScope (hperm : order.entries.Perm task.authorizedBuckets.entries)
    (hscope : ¬task.InScope selects db) :
    (task.visiting order).handleWrite selects applyDelta db =
      (.finished (.refused (.authError (if task.dataQuery = none then
        "not authorized to write entity type '" ++ task.entityType ++ "'"
        else "not authorized to write entity '" ++ task.entityType ++ "/" ++ task.entityId ++
          "'"))), db) := by
  simp only [← dataQuery_visiting_eq_none hperm]
  cases hquery : (task.visiting order).dataQuery with
  | none =>
    rw [handleWrite_of_no_query hquery, if_pos rfl]
    rfl
  | some query =>
    have hnot : selects db query task.entityId = false := by
      obtain ⟨a, ha, hlookup⟩ := mem_of_dataQuery hquery hperm
      apply Bool.eq_false_iff.mpr
      intro hselects
      exact hscope ⟨a, ha, query, hlookup, hselects⟩
    rw [handleWrite_of_not_selected hquery hnot, if_neg (by simp)]
    rfl

end

/-- The verdict on a write is that of all authorized buckets, in every iteration order, exactly if
the buckets with a data query for the entity type agree on the row. -/
theorem decidedByScope_iff (task : WriteTask) (db : Db) :
    task.DecidedByScope selects applyDelta db ↔ task.ScopesAgree selects db := by
  constructor
  · intro h hscope a ha query hquery
    by_contra hnot
    -- the bucket that does not select the row may come first
    obtain ⟨order, hperm, rest, hfirst⟩ := AssocMap.exists_perm_first ha
    have hdata : (task.visiting order).dataQuery = some query := by
      rw [Option.mem_def] at hquery
      simp [dataQuery, visiting, hfirst, hquery]
    have hrefused : (task.visiting order).handleWrite selects applyDelta db = _ :=
      handleWrite_of_not_selected hdata (Bool.eq_false_iff.mpr hnot)
    rw [h.applied hscope order hperm] at hrefused
    obtain ⟨outcome, houtcome, hauth⟩ := applyWriteAlone_finished task db
    rw [hrefused] at houtcome
    exact hauth _ (WriteStage.finished.inj houtcome).symm
  · intro h
    refine ⟨fun hscope order hperm => h.handleWrite hperm hscope, ?_, ?_⟩
    · intro hscope order hperm
      exact ⟨_, handleWrite_of_not_inScope hperm hscope⟩
    · intro order order' hperm hperm'
      by_cases hscope : task.InScope selects db
      · rw [h.handleWrite hperm hscope, h.handleWrite hperm' hscope]
      · rw [handleWrite_of_not_inScope hperm hscope, handleWrite_of_not_inScope hperm' hscope]

end WriteTask

namespace Writers

variable {selects applyDelta}

/-- What the handler does alone is a run of the handlers in which only this one moves. -/
theorem exists_run_alone {s : Writers} {i : Nat} {task : WriteTask}
    (htask : s.tasks[i]? = some task) (n : Nat) :
    ∃ k ≤ n, ∃ t task', run (step selects applyDelta) s (List.replicate k (.advance i none)) =
        some t ∧ t.tasks[i]? = some task' ∧
      (task'.stage, t.db) = task.runAlone selects applyDelta n s.db := by
  induction n generalizing s task with
  | zero => exact ⟨0, Nat.le_refl 0, s, task, rfl, htask, rfl⟩
  | succ n ih =>
    have hlt : i < s.tasks.length := (List.getElem?_eq_some_iff.mp htask).1
    rw [WriteTask.runAlone]
    cases hnext : task.advance selects applyDelta s.db none with
    | none => exact ⟨0, Nat.zero_le _, s, task, rfl, htask, rfl⟩
    | some next =>
      cases heffect : next.2 with
      | none =>
        have hmoved : (s.setStage i task next.1).tasks[i]? =
            some { task with stage := next.1 } := List.getElem?_set_self hlt
        obtain ⟨k, hk, t, task', hrun, htask', hend⟩ := ih hmoved
        refine ⟨k + 1, Nat.succ_le_succ hk, t, task', ?_, htask', ?_⟩
        · rw [List.replicate_succ, run_cons]
          simp [step, htask, hnext, heffect, hrun]
        · simpa [heffect, WriteTask.afterEffect, setStage] using hend
      | some f =>
        have hmoved : ((s.modify i task f).setStage i task next.1).tasks[i]? =
            some { task with stage := next.1 } := List.getElem?_set_self hlt
        obtain ⟨k, hk, t, task', hrun, htask', hend⟩ := ih hmoved
        refine ⟨k + 1, Nat.succ_le_succ hk, t, task', ?_, htask', ?_⟩
        · rw [List.replicate_succ, run_cons]
          simp [step, htask, hnext, heffect, hrun]
        · simpa [heffect, WriteTask.afterEffect, setStage, modify] using hend

end Writers

end

/-! An entity of user 7 in tenant t1, and a session of user 42 of that tenant. -/

private def tenantQuery : String := "SELECT * FROM entities WHERE tenant_id = 't1'"

private def ownQuery : String := "SELECT * FROM entities WHERE owner_id = '42'"

private def tenantEntity : Db := fun table id =>
  if table = "entities" ∧ id = "a" then
    some ⟨.null, none, (AList.singleton "owner_id" (.string "7")).insert "tenant_id" (.string "t1")⟩
  else none

private def selectsColumn (db : Db) (id column value : String) : Bool :=
  (db "entities" id).any fun row => row.columns.lookup column = some (.string value)

private def selectsEither : Db → String → String → Bool := fun db query id =>
  query == ownQuery && selectsColumn db id "owner_id" "42" ||
    query == tenantQuery && selectsColumn db id "tenant_id" "t1"

private def ownBucket : BucketAssignment where
  bucketId := ⟨"user_entities:user_id=\x2242\x22"⟩
  ruleId := "user_entities"
  parameters := AList.singleton "user_id" (.string "42")
  dataQueries := AList.singleton "entities" ownQuery

private def tenantBucket : BucketAssignment where
  bucketId := ⟨"tenant_shared:tenant_id=\x22t1\x22"⟩
  ruleId := "tenant_shared"
  parameters := AList.singleton "tenant_id" (.string "t1")
  dataQueries := AList.singleton "entities" tenantQuery

private def tenantWrite : WriteTask where
  authorizedBuckets := (AList.singleton tenantBucket.bucketId tenantBucket).insert
    ownBucket.bucketId ownBucket
  entityType := "entities"
  entityId := "a"
  op := .delete
  stage := .received

private def tenantFirst : HashMap BucketId BucketAssignment :=
  (AList.singleton ownBucket.bucketId ownBucket).insert tenantBucket.bucketId tenantBucket

/-- The tenant's data query selects the row and the user's does not. The write is refused when the
user's bucket is visited first, and it deletes the row when the tenant's is. -/
theorem verdict_depends_on_order :
    tenantWrite.InScope selectsEither tenantEntity ∧
      tenantFirst.entries.Perm tenantWrite.authorizedBuckets.entries ∧
      tenantWrite.handleWrite selectsEither (fun _ patch => .ok patch) tenantEntity =
        (.finished (.refused (.authError "not authorized to write entity 'entities/a'")),
          tenantEntity) ∧
      ((tenantWrite.visiting tenantFirst).handleWrite selectsEither (fun _ patch => .ok patch)
        tenantEntity).1 = .finished .applied ∧
      ¬tenantWrite.DecidedByScope selectsEither (fun _ patch => .ok patch) tenantEntity := by
  have hrefused : tenantWrite.handleWrite selectsEither (fun _ patch => .ok patch) tenantEntity =
      (.finished (.refused (.authError "not authorized to write entity 'entities/a'")),
        tenantEntity) := WriteTask.handleWrite_of_not_selected rfl (by decide)
  have happlied : (tenantWrite.applyWriteAlone selectsEither (fun _ patch => .ok patch)
      tenantEntity).1 = .finished .applied := rfl
  refine ⟨by decide, List.Perm.swap _ _ _, hrefused, rfl, ?_⟩
  intro h
  have hfirst := h.applied (by decide) tenantWrite.authorizedBuckets (List.Perm.refl _)
  rw [← hfirst] at happlied
  change (tenantWrite.handleWrite selectsEither (fun _ patch => .ok patch) tenantEntity).1 = _
    at happlied
  rw [hrefused] at happlied
  cases happlied

end EntitySync.Gateway
