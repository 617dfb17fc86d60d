import EntitySync.Client.Consumer
import EntitySync.Library.Checks

/-!
# Snapshot rows in the local database

`handleMessage` passes a `SnapshotBatch` to the handlers registered with `onSnapshot`. Neither the
PGlite extension nor the transport registers one, so the rows of a snapshot reach the local
database only if they are there already, or if a Delta brings them.
-/

namespace EntitySync.Client

open Json (Value)
open StepSystem

/-- The id of a snapshot row, as the ops of a bucket name it. -/
def rowId (row : Value) : Option String := (row.get "id").bind Value.scalarText

def App.Reads : App → String → Prop
  | .extension _, _ => True
  | .transport _ table _ _, name => name = table

structure OwedRow where
  table : String
  id : Option String
  /-- What the row should hold, unless a Delta has changed it since. -/
  content : Option Value

namespace OwedRow

def ofSnapshot (table : String) (row : Value) : OwedRow := ⟨table, rowId row, some row⟩

def Named (r : OwedRow) (op : BucketOp) : Prop := op.entityType = r.table ∧ r.id = some op.entityId

instance (r : OwedRow) (op : BucketOp) : Decidable (r.Named op) :=
  inferInstanceAs (Decidable (_ ∧ _))

def after (r : OwedRow) (op : BucketOp) : Option OwedRow :=
  if r.Named op then
    match op.op with
    | .delete => none
    | .upsert _ => some { r with content := none }
    | .crdtPatch _ => some r
  else some r

/-- The op neither deletes the row nor changes what it should hold. -/
def Keeps (r : OwedRow) (op : BucketOp) : Prop :=
  r.Named op → op.op ≠ .delete ∧ ∀ value, op.op = .upsert value → ∀ row ∈ r.content, value = row

def In (r : OwedRow) (db : LocalDb) : Prop :=
  ∃ id ∈ r.id, ∃ found ∈ rowAt db r.table id, ∀ row ∈ r.content, found.payload = some row

end OwedRow

def Consumer.Returns (s : Consumer) (r : OwedRow) : Prop := s.app.Reads r.table ∧ r.In s.db

def SyncStatus.isLive : SyncStatus → Bool
  | .live _ => true
  | .connecting | .syncing _ | .error _ | .disconnected => false

structure SnapshotSession where
  consumer : Consumer
  /-- The rows that came in a snapshot of a subscribed bucket and were not deleted later. -/
  owed : List OwedRow
  becameLive : Bool

namespace SnapshotSession

def start (app : App) (db : LocalDb) : SnapshotSession := ⟨.start app db, [], false⟩

section
variable (tableOf : BucketId → Value → String)

/-- The rows that are owed after a frame. A snapshot row does not name its table: `tableOf` is the
table whose data query it is from. -/
def owedAfter (s : SnapshotSession) : ServerMessage → List OwedRow
  | .snapshotBatch b rows _ =>
    if b.val ∈ s.consumer.client.subscribedBuckets then
      s.owed ++ rows.map fun row => .ofSnapshot (tableOf b row) row
    else s.owed
  | .delta _ ops _ => s.owed.filterMap fun r => ops.foldlM OwedRow.after r
  | .snapshotBegin _ _ _ | .snapshotComplete _ _ | .checkpoint _ _ | .keepalive _
  | .error _ _ => s.owed

def step (s : SnapshotSession) (a : ConsumerAction) : Option SnapshotSession :=
  (s.consumer.step a).map fun consumer => {
    consumer := consumer
    owed := match a with
      | .frame msg => s.owedAfter tableOf msg
      | _ => s.owed
    becameLive := s.becameLive || consumer.client.status.isLive }

def Holds (s : SnapshotSession) : Prop := ∀ r ∈ s.owed, s.consumer.Returns r

/-- As soon as the status has been live and no transaction is under way, the application reads
every row that is owed. -/
def RowsArrived (s : SnapshotSession) : Prop :=
  s.becameLive = true → s.consumer.pending = [] → s.Holds

/-- The local database has the rows of a snapshot of a subscribed bucket, with what they hold,
before they come; and no transaction that commits deletes or changes one that is owed. -/
def HeldBefore (s : SnapshotSession) : ConsumerAction → Prop
  | .frame (.snapshotBatch b rows _) => b.val ∈ s.consumer.client.subscribedBuckets →
    ∀ row ∈ rows, s.consumer.Returns (.ofSnapshot (tableOf b row) row)
  | .settle i failed => failed = false →
    ∀ batch ∈ s.consumer.pending[i]?, ∀ r ∈ s.owed, ∀ op ∈ batch, r.Keeps op
  | _ => True

end

end SnapshotSession

namespace OwedRow

variable {r r' : OwedRow} {db db' : LocalDb}

theorem In.of_after {op : BucketOp} (h : r.In db) (hafter : r.after op = some r') : r'.In db := by
  rw [after] at hafter
  split at hafter
  · split at hafter
    · cases hafter
    · cases hafter
      obtain ⟨id, hid, found, hfound, _⟩ := h
      exact ⟨id, hid, found, hfound, nofun⟩
    · cases hafter
      exact h
  · cases hafter
    exact h

theorem table_after {op : BucketOp} (h : r.after op = some r') : r'.table = r.table := by
  rw [after] at h
  split at h
  · split at h <;> cases h <;> rfl
  · cases h
    rfl

theorem In.applyOne {op : BucketOp} (h : r.In db) (hkeeps : r.Keeps op)
    (hop : Client.applyOne db op = .ok db') : r.In db' := by
  obtain ⟨id, hid, found, hfound, hcontent⟩ := h
  rw [Option.mem_def] at hid hfound
  refine ⟨id, hid, ?_⟩
  rw [rowAt_applyOne hop]
  split
  next hsame =>
    obtain ⟨hdelete, hupsert⟩ := hkeeps ⟨hsame.1, hsame.2 ▸ hid⟩
    cases hwrite : op.op with
    | delete => exact absurd hwrite hdelete
    | upsert value =>
      refine ⟨_, rfl, fun row hrow => ?_⟩
      rw [hupsert value hwrite row hrow]
    | crdtPatch patch =>
      refine ⟨_, rfl, fun row hrow => ?_⟩
      rw [hfound]
      exact hcontent row hrow
  next => exact ⟨found, hfound, hcontent⟩

theorem In.applyOps {ops : List BucketOp} (h : r.In db) (hkeeps : ∀ op ∈ ops, r.Keeps op)
    (hops : Client.applyOps db ops = .ok db') : r.In db' := by
  induction ops generalizing db with
  | nil =>
    cases hops
    exact h
  | cons op ops ih =>
    rw [List.forall_mem_cons] at hkeeps
    rw [Client.applyOps, List.foldlM_cons] at hops
    obtain ⟨next, hnext, hops⟩ := Checks.bind_eq_ok.mp hops
    exact ih (h.applyOne hkeeps.1 hnext) hkeeps.2 hops

end OwedRow

namespace Consumer

variable {s t : Consumer} {r r' : OwedRow}

theorem returns_receive (s : Consumer) (msg : ServerMessage) (r : OwedRow) :
    (s.receive msg).Returns r ↔ s.Returns r := by
  have hframe : (s.receive msg).db = s.db ∧ (s.receive msg).app = s.app := by
    unfold receive
    split <;> exact ⟨rfl, rfl⟩
  rw [Returns, Returns, hframe.1, hframe.2]

theorem returns_settle (h : s.Returns r) {batch : List BucketOp} {failed : Bool}
    (hkeep : failed = false → ∀ op ∈ batch, r.Keeps op) (i : Nat) :
    (s.settle i batch failed).Returns r := by
  rw [settle]
  split
  · exact h
  next hcommit =>
    split
    · exact h
    next db hdb => exact ⟨h.1, h.2.applyOps (hkeep (Bool.eq_false_iff.mpr hcommit)) hdb⟩

theorem returns_call {a : ConsumerAction} (h : s.Returns r) (hframe : ∀ msg, a ≠ .frame msg)
    (hsettle : ∀ i failed, a ≠ .settle i failed) (hstep : s.step a = some t) : t.Returns r := by
  obtain ⟨hreads, hin⟩ := h
  cases a with
  | frame msg => exact absurd rfl (hframe msg)
  | settle i failed => exact absurd rfl (hsettle i failed)
  | subscribeBucket | pause | resume | query | addListener =>
    cases happ : s.app <;> simp only [step, happ] at hstep <;> cases hstep
    rw [happ] at hreads
    exact ⟨hreads, hin⟩
  | removeListener =>
    cases happ : s.app with
    | extension paused => simp [step, happ] at hstep
    | transport bucket table subscribed listeners =>
      simp only [step, happ] at hstep
      split at hstep
      · cases hstep
      · cases hstep
        rw [happ] at hreads
        exact ⟨hreads, hin⟩

theorem Returns.of_afterOps {ops : List BucketOp} (h : s.Returns r)
    (hafter : ops.foldlM OwedRow.after r = some r') : s.Returns r' := by
  induction ops generalizing r with
  | nil =>
    cases hafter
    exact h
  | cons op ops ih =>
    rw [List.foldlM_cons] at hafter
    obtain ⟨next, hnext, hafter⟩ := Option.bind_eq_some_iff.mp hafter
    exact ih ⟨OwedRow.table_after hnext ▸ h.1, h.2.of_after hnext⟩ hafter

end Consumer

namespace SnapshotSession

variable {tableOf : BucketId → Value → String} {s t : SnapshotSession}

theorem mem_owedAfter {r : OwedRow} {msg : ServerMessage} (h : r ∈ s.owedAfter tableOf msg) :
    (∃ old ∈ s.owed, ∀ consumer : Consumer, consumer.Returns old → consumer.Returns r) ∨
      ∃ b rows offset, msg = .snapshotBatch b rows offset ∧
        b.val ∈ s.consumer.client.subscribedBuckets ∧
        ∃ row ∈ rows, r = .ofSnapshot (tableOf b row) row := by
  cases msg with
  | snapshotBatch b rows offset =>
    simp only [owedAfter] at h
    split at h
    next hb =>
      rcases List.mem_append.mp h with hold | hnew
      · exact .inl ⟨r, hold, fun _ => id⟩
      · obtain ⟨row, hrow, rfl⟩ := List.mem_map.mp hnew
        exact .inr ⟨b, rows, offset, rfl, hb, row, hrow, rfl⟩
    next => exact .inl ⟨r, h, fun _ => id⟩
  | delta b ops lsn =>
    obtain ⟨old, hold, hafter⟩ := List.mem_filterMap.mp h
    exact .inl ⟨old, hold, fun _ hreturns => hreturns.of_afterOps hafter⟩
  | snapshotBegin | snapshotComplete | checkpoint | keepalive | error =>
    exact .inl ⟨r, h, fun _ => id⟩

theorem Holds.step {a : ConsumerAction} (h : s.Holds) (hbefore : s.HeldBefore tableOf a)
    (hstep : s.step tableOf a = some t) : t.Holds := by
  obtain ⟨consumer, hconsumer, rfl⟩ := Option.map_eq_some_iff.mp hstep
  intro r hr
  cases a with
  | frame msg =>
    cases hconsumer
    simp only [Consumer.returns_receive]
    rcases mem_owedAfter hr with ⟨old, hold, hkept⟩ | ⟨b, rows, offset, rfl, hb, row, hrow, rfl⟩
    · exact hkept _ (h old hold)
    · exact hbefore hb row hrow
  | settle i failed =>
    obtain ⟨batch, hbatch, rfl⟩ := Option.map_eq_some_iff.mp hconsumer
    exact Consumer.returns_settle (h r hr) (fun hcommit => hbefore hcommit batch hbatch r hr) i
  | subscribeBucket | pause | resume | query | addListener | removeListener =>
    exact Consumer.returns_call (h r hr) (by simp) (by simp) hconsumer

/-- In a run where the local database has the snapshot rows before they come and no commit deletes
or changes one that is owed, every snapshot row is there, with what it holds, as soon as the client
is live. A snapshot adds nothing itself: after it the owed rows are all there exactly if they were
before. -/
theorem rows_arrive_iff_held_before (tableOf : BucketId → Value → String) (app : App)
    (db : LocalDb) :
    (∀ as, Meets (step tableOf) (HeldBefore tableOf) (start app db) as →
      Always (step tableOf) RowsArrived (start app db) as) ∧
    ∀ (s t : SnapshotSession) (b : BucketId) (rows : List Value) (offset : UInt64), s.Holds →
      s.step tableOf (.frame (.snapshotBatch b rows offset)) = some t →
      (t.Holds ↔ s.HeldBefore tableOf (.frame (.snapshotBatch b rows offset))) := by
  constructor
  · intro as hm
    refine hm.always (I := Holds) ?_ ?_ ?_
    · intro s a t h hbefore hstep
      exact h.step hbefore hstep
    · intro s h _ _
      exact h
    · intro r hr
      cases hr
  · intro s t b rows offset h hstep
    constructor
    · intro ht hb row hrow
      cases hstep
      have howed : .ofSnapshot (tableOf b row) row ∈
          s.owedAfter tableOf (.snapshotBatch b rows offset) := by
        rw [owedAfter, if_pos hb]
        exact List.mem_append_right _ (List.mem_map_of_mem hrow)
      simpa only [Consumer.returns_receive] using ht _ howed
    · intro hbefore
      exact h.step hbefore hstep

private def todo : Value := .object [("id", .string "a"), ("title", .string "buy milk")]

private def todosTable (rows : LocalTable) : LocalDb :=
  fun table => if table = "todos" then some rows else none

private def snapshotFrames : List ConsumerAction :=
  [.frame (.snapshotBegin ⟨"user_todos"⟩ 1 1), .frame (.snapshotBatch ⟨"user_todos"⟩ [todo] 0),
    .frame (.snapshotComplete ⟨"user_todos"⟩ 0)]

private theorem not_returns_of_empty {s : Consumer} (h : s.db = todosTable fun _ => none)
    (r : OwedRow) : ¬s.Returns r := by
  rintro ⟨_, id, _, found, hfound, _⟩
  rw [h, rowAt, todosTable] at hfound
  split at hfound <;> cases hfound

/-- A complete snapshot arrives at an empty local database. The status is live and no transaction
is under way, but the row is not there, neither with the extension nor with the transport. -/
theorem snapshot_rows_dropped :
    ¬Always (step fun _ _ => "todos") RowsArrived
      (start (.extension false) (todosTable fun _ => none))
      (.subscribeBucket "user_todos" none :: snapshotFrames) ∧
    ¬Always (step fun _ _ => "todos") RowsArrived
      (start (.transport "user_todos" "todos" false 0) (todosTable fun _ => none))
      (.addListener :: snapshotFrames) := by
  constructor
  · intro h
    have harrived := always_iff.mp h _ [] _ (List.append_nil _).symm rfl rfl rfl
    exact not_returns_of_empty rfl _ (harrived (.ofSnapshot "todos" todo) List.mem_cons_self)
  · intro h
    have harrived := always_iff.mp h _ [] _ (List.append_nil _).symm rfl rfl rfl
    exact not_returns_of_empty rfl _ (harrived (.ofSnapshot "todos" todo) List.mem_cons_self)

/-- The local database has the row from an earlier session. -/
theorem snapshot_rows_kept : Always (step fun _ _ => "todos") RowsArrived
    (start (.extension false)
      (todosTable fun id => if id = "a" then some ⟨some todo, none⟩ else none))
    (.subscribeBucket "user_todos" none :: snapshotFrames) := by
  apply (rows_arrive_iff_held_before _ _ _).1
  rintro _ ⟨rfl⟩
  refine ⟨trivial, ?_⟩
  rintro _ ⟨rfl⟩
  refine ⟨trivial, ?_⟩
  rintro _ ⟨rfl⟩
  constructor
  · intro _ row hrow
    obtain rfl : row = todo := List.mem_singleton.mp hrow
    exact ⟨trivial, "a", rfl, ⟨some todo, none⟩, rfl, fun row hrow => hrow⟩
  · rintro _ ⟨rfl⟩
    exact ⟨trivial, trivial⟩

end SnapshotSession

end EntitySync.Client
