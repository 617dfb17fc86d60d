import EntitySync.Gateway.Connection

/-!
# Client writes

`handle_write` with its database statements as separate steps. Any number of sessions handle
`Write` messages at the same time, and other committed changes may fall between any two
statements. A statement is atomic: it takes effect as a whole, or it fails and changes nothing.
-/

namespace EntitySync.Gateway

open Json (Value)
open StepSystem

/-- A row of a synced table: the two columns that writes set, and the other ones. -/
structure Row where
  payload : Value
  crdtState : Option (List UInt8)
  columns : HashMap String Value

/-- The rows of each table by the text of their ids. -/
abbrev Db := String → String → Option Row

def Db.rewrite (db : Db) (table id : String) (f : Row → Option Row) : Db := fun t i =>
  if t = table ∧ i = id then (db t i).bind f else db t i

inductive WriteStage where
  | received
  | authorized
  | selected (existing : Option (List UInt8)) (patch : List UInt8)
  | merged (bytes : List UInt8)
  | finished (outcome : WriteOutcome)
deriving DecidableEq

structure WriteTask where
  authorizedBuckets : HashMap BucketId BucketAssignment
  entityType : String
  entityId : String
  op : Op
  stage : WriteStage

namespace WriteTask

/-- The data query of the first authorized bucket that has one for the entity type. -/
def dataQuery (task : WriteTask) : Option String :=
  task.authorizedBuckets.values.findSome? fun a => a.dataQueries.lookup task.entityType

/-- The statement failed: `apply_write` returns the error and the client is told. -/
def refused (error : String) : WriteStage := .finished (.refused (.database error))

section
variable (selects : Db → String → String → Bool)
variable (applyDelta : List UInt8 → List UInt8 → Except String (List UInt8))

/-- The checks of `handle_write`. `selects db query id` says that the query has a result row with
this id; an error of `row_is_within_scope` ends the connection. -/
def checkScope (task : WriteTask) (db : Db) (failed : Option String) : WriteStage :=
  match task.dataQuery, failed with
  | none, _ =>
    .finished (.refused (.authError
      ("not authorized to write entity type '" ++ task.entityType ++ "'")))
  | some _, some error => .finished (.failed (.database error))
  | some query, none =>
    if selects db query task.entityId then .authorized
    else .finished (.refused (.authError
      ("not authorized to write entity '" ++ task.entityType ++ "/" ++ task.entityId ++ "'")))

/-- `SELECT crdt_state`: no row counts as the empty state, a NULL does not decode. -/
def selectState (patch : List UInt8) : Option Row → WriteStage
  | none => .selected none patch
  | some row =>
    match row.crdtState with
    | none => refused "unexpected null"
    | some bytes => .selected (some bytes) patch

def mergeDelta (existing : Option (List UInt8)) (patch : List UInt8) : WriteStage :=
  match applyDelta (existing.getD []) patch with
  | .error e => .finished (.refused (.protocolError ("CRDT patch apply failed: " ++ e)))
  | .ok bytes => .merged bytes

/-- The first statement of `apply_write`: the stage after it and what it makes of the row. -/
def applyWrite (task : WriteTask) (db : Db) : WriteStage × Option (Row → Option Row) :=
  match task.op with
  | .upsert value => (.finished .applied, some fun row => some { row with payload := value })
  | .delete => (.finished .applied, some fun _ => none)
  | .crdtPatch patch => (selectState patch (db task.entityType task.entityId), none)

def advance (task : WriteTask) (db : Db) (failed : Option String) :
    Option (WriteStage × Option (Row → Option Row)) :=
  match task.stage, failed with
  | .received, _ => some (task.checkScope selects db failed, none)
  | .authorized, none => some (task.applyWrite db)
  | .selected existing patch, _ => some (mergeDelta applyDelta existing patch, none)
  | .merged bytes, none =>
    some (.finished .applied, some fun row => some { row with crdtState := some bytes })
  | .authorized, some error | .merged _, some error => some (refused error, none)
  | .finished _, _ => none

inductive Advances (task : WriteTask) (db : Db) (failed : Option String) :
    WriteStage → Option (Row → Option Row) → Prop
  | refuse {outcome} (houtcome : outcome ≠ .applied)
      (hstage : ∀ bytes, task.stage = .merged bytes → failed ≠ none) :
      Advances task db failed (.finished outcome) none
  | authorize {query} (hstage : task.stage = .received) (hquery : task.dataQuery = some query)
      (hscope : selects db query task.entityId = true) : Advances task db failed .authorized none
  | apply {f} (hstage : task.stage = .authorized) (hop : ∀ patch, task.op ≠ .crdtPatch patch) :
      Advances task db failed (.finished .applied) (some f)
  | select {existing patch} (hstage : task.stage = .authorized) (hop : task.op = .crdtPatch patch)
      (hrow : (db task.entityType task.entityId).bind Row.crdtState = existing) :
      Advances task db failed (.selected existing patch) none
  | merge {existing patch bytes} (hstage : task.stage = .selected existing patch)
      (hmerge : applyDelta (existing.getD []) patch = .ok bytes) :
      Advances task db failed (.merged bytes) none
  | update {bytes} (hstage : task.stage = .merged bytes) (hfailed : failed = none) :
      Advances task db failed (.finished .applied)
        (some fun row => some { row with crdtState := some bytes })

variable {selects applyDelta}

theorem advances_checkScope {task : WriteTask} {db : Db} {failed : Option String}
    (hstage : task.stage = .received) :
    task.Advances selects applyDelta db failed (task.checkScope selects db failed) none := by
  have hmerged : ∀ bytes, task.stage = .merged bytes → failed ≠ none := by simp [hstage]
  unfold checkScope
  split
  · exact .refuse (by simp) hmerged
  · exact .refuse (by simp) hmerged
  · next query hquery =>
    split
    · next hscope => exact .authorize hstage hquery hscope
    · exact .refuse (by simp) hmerged

theorem advances_selectState {task : WriteTask} {db : Db} {failed : Option String}
    {patch : List UInt8} (hstage : task.stage = .authorized) (hop : task.op = .crdtPatch patch) :
    task.Advances selects applyDelta db failed
      (selectState patch (db task.entityType task.entityId)) none := by
  cases hrow : db task.entityType task.entityId with
  | none => exact .select hstage hop (by simp [hrow])
  | some row =>
    cases hstate : row.crdtState with
    | none =>
      simp only [selectState, hstate]
      exact .refuse (by simp) (by simp [hstage])
    | some bytes =>
      simp only [selectState, hstate]
      exact .select hstage hop (by simp [hrow, hstate])

theorem advances_applyWrite {task : WriteTask} {db : Db} {failed : Option String}
    (hstage : task.stage = .authorized) :
    task.Advances selects applyDelta db failed (task.applyWrite db).1 (task.applyWrite db).2 := by
  unfold applyWrite
  cases hop : task.op with
  | upsert value => exact .apply hstage (by simp [hop])
  | delete => exact .apply hstage (by simp [hop])
  | crdtPatch patch => exact advances_selectState hstage hop

theorem advances_mergeDelta {task : WriteTask} {db : Db} {failed : Option String}
    {existing : Option (List UInt8)} {patch : List UInt8}
    (hstage : task.stage = .selected existing patch) :
    task.Advances selects applyDelta db failed (mergeDelta applyDelta existing patch) none := by
  cases hmerge : applyDelta (existing.getD []) patch with
  | error e =>
    simp only [mergeDelta, hmerge]
    exact .refuse (by simp) (by simp [hstage])
  | ok bytes =>
    simp only [mergeDelta, hmerge]
    exact .merge hstage hmerge

theorem advances_of_advance {task : WriteTask} {db : Db} {failed : Option String}
    {next : WriteStage × Option (Row → Option Row)}
    (h : task.advance selects applyDelta db failed = some next) :
    task.Advances selects applyDelta db failed next.1 next.2 := by
  unfold advance at h
  split at h
  · next hstage => exact Option.some.inj h ▸ advances_checkScope hstage
  · next hstage => exact Option.some.inj h ▸ advances_applyWrite hstage
  · next hstage => exact Option.some.inj h ▸ advances_mergeDelta hstage
  · next hstage => exact Option.some.inj h ▸ .update hstage rfl
  · exact Option.some.inj h ▸ .refuse (by simp) (by simp)
  · exact Option.some.inj h ▸ .refuse (by simp) (by simp)
  · cases h

theorem not_finished_of_advance {task : WriteTask} {db : Db} {failed : Option String}
    (h : (task.advance selects applyDelta db failed).isSome) (outcome : WriteOutcome) :
    task.stage ≠ .finished outcome := by
  intro hstage
  simp [advance, hstage] at h

end

def Pending (task : WriteTask) : Prop :=
  match task.stage with
  | .authorized | .selected _ _ | .merged _ => True
  | .received | .finished _ => False

end WriteTask

structure Modification where
  task : Nat
  db : Db

structure Writers where
  db : Db
  tasks : List WriteTask
  modified : List Modification

inductive WriterAction where
  | receive (session : Session) (entityType entityId : String) (op : Op)
  | advance (i : Nat) (failed : Option String)
  | external (db : Db)

namespace Writers

def start (db : Db) : Writers where
  db := db
  tasks := []
  modified := []

def setStage (s : Writers) (i : Nat) (task : WriteTask) (stage : WriteStage) : Writers :=
  { s with tasks := s.tasks.set i { task with stage := stage } }

def modify (s : Writers) (i : Nat) (task : WriteTask) (f : Row → Option Row) : Writers :=
  { s with
    db := s.db.rewrite task.entityType task.entityId f
    modified :=
      if (s.db task.entityType task.entityId).isSome then s.modified ++ [⟨i, s.db⟩]
      else s.modified }

section
variable (selects : Db → String → String → Bool)
variable (applyDelta : List UInt8 → List UInt8 → Except String (List UInt8))

def step (s : Writers) : WriterAction → Option Writers
  | .receive session entityType entityId op =>
    some { s with
      tasks := s.tasks ++ [⟨session.authorizedBuckets, entityType, entityId, op, .received⟩] }
  | .advance i failed =>
    (s.tasks[i]?).bind fun task =>
      (task.advance selects applyDelta s.db failed).map fun next =>
        match next.2 with
        | none => s.setStage i task next.1
        | some f => (s.modify i task f).setStage i task next.1
  | .external db => some { s with db := db }

inductive Handled (s : Writers) (i : Nat) (failed : Option String) : Writers → Prop
  | stage {task stage} (htask : s.tasks[i]? = some task)
      (hopen : ∀ outcome, task.stage ≠ .finished outcome)
      (hadvance : task.Advances selects applyDelta s.db failed stage none) :
      Handled s i failed (s.setStage i task stage)
  | modify {task stage f} (htask : s.tasks[i]? = some task)
      (hopen : ∀ outcome, task.stage ≠ .finished outcome)
      (hadvance : task.Advances selects applyDelta s.db failed stage (some f)) :
      Handled s i failed ((s.modify i task f).setStage i task stage)

variable {selects applyDelta}

theorem handled_of_step {s t : Writers} {i : Nat} {failed : Option String}
    (h : step selects applyDelta s (.advance i failed) = some t) :
    Handled selects applyDelta s i failed t := by
  simp only [step, Option.bind_eq_some_iff, Option.map_eq_some_iff] at h
  obtain ⟨task, htask, next, hnext, ht⟩ := h
  have hopen := WriteTask.not_finished_of_advance (Option.isSome_of_mem hnext)
  have hadvance := WriteTask.advances_of_advance hnext
  cases heffect : next.2 with
  | none =>
    rw [heffect] at ht hadvance
    exact ht ▸ .stage htask hopen hadvance
  | some f =>
    rw [heffect] at ht hadvance
    exact ht ▸ .modify htask hopen hadvance

end

end Writers

end EntitySync.Gateway
