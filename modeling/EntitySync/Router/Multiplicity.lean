import EntitySync.Oplog.Checksum
import EntitySync.Router.Router

/-!
# Appends per event and bucket

`route_one_event` spawns one task for every bucket id that `find_affected_buckets` returns. The
tasks commit in any order, and the routed-ops counter of a bucket counts the committed ones. An
event reaches each affected bucket once exactly if no two live assignments that match it have the
same rule and the same parameters.
-/

namespace EntitySync.Router

open Oplog (BucketOpLog Codec foldChecksum)
open Rules (BucketAssigner Instant)

structure AppendTask where
  op : BucketOp
  second : UInt64
  committed : Bool

structure RouterState where
  log : BucketOpLog
  routedTotal : BucketId → Nat

def RouterState.step (codec : Codec) (s : RouterState) (task : AppendTask) : RouterState :=
  if task.committed then
    { log := s.log.append codec task.second task.op.bucketId task.op.lsn task.op
      routedTotal := fun b =>
        if task.op.bucketId = b then s.routedTotal b + 1 else s.routedTotal b }
  else s

/-- The tasks of an event in the order in which redb serializes them. -/
def RouterState.run (codec : Codec) (s : RouterState) (tasks : List AppendTask) : RouterState :=
  tasks.foldl (RouterState.step codec) s

def AppendTask.fold (codec : Codec) (sum : BucketChecksum) (task : AppendTask) : BucketChecksum :=
  if task.committed then foldChecksum sum (codec.toVec ⟨task.op, task.second⟩) else sum

def tasksFor (b : BucketId) (tasks : List AppendTask) : List AppendTask :=
  tasks.filter fun task => decide (task.op.bucketId = b)

/-- The event reaches every affected bucket by one append: the payload is folded into its checksum
once, and its counter grows by one. -/
structure AppendsOnce (assigner : BucketAssigner) (now : Instant) (offset : PgLsn)
    (change : EntityChange) : Prop where
  nodup : (assigner.findAffectedBuckets now change.entityType change.data).Nodup
  once : ∀ (codec : Codec) (s : RouterState) (tasks : List AppendTask),
    (tasks.map AppendTask.op).Perm (routedOps assigner now ⟨offset, some change⟩) →
    ∀ b ∈ assigner.findAffectedBuckets now change.entityType change.data,
      ∃ task, tasksFor b tasks = [task] ∧ task.op = bucketOp offset change b ∧
        (s.run codec tasks).log.checksum b = task.fold codec (s.log.checksum b) ∧
        (s.run codec tasks).routedTotal b = s.routedTotal b + task.committed.toNat

section Run

variable (codec : Codec)

theorem RouterState.checksum_step (s : RouterState) (task : AppendTask) (b : BucketId) :
    (s.step codec task).log.checksum b =
      if task.op.bucketId = b then task.fold codec (s.log.checksum b) else s.log.checksum b := by
  rw [RouterState.step, AppendTask.fold]
  cases task.committed with
  | false => simp
  | true => exact Oplog.checksum_append codec s.log _ b _ _ _

theorem RouterState.routedTotal_step (s : RouterState) (task : AppendTask) (b : BucketId) :
    (s.step codec task).routedTotal b =
      if task.op.bucketId = b then s.routedTotal b + task.committed.toNat
      else s.routedTotal b := by
  rw [RouterState.step]
  cases task.committed <;> simp

theorem RouterState.checksum_run (s : RouterState) (tasks : List AppendTask) (b : BucketId) :
    (s.run codec tasks).log.checksum b =
      (tasksFor b tasks).foldl (AppendTask.fold codec) (s.log.checksum b) := by
  induction tasks generalizing s with
  | nil => rfl
  | cons task tasks ih =>
    rw [RouterState.run, List.foldl_cons, ← RouterState.run, ih, checksum_step, tasksFor, tasksFor,
      List.filter_cons]
    by_cases hb : task.op.bucketId = b
    · simp [hb]
    · simp [hb]

theorem RouterState.routedTotal_run (s : RouterState) (tasks : List AppendTask) (b : BucketId) :
    (s.run codec tasks).routedTotal b =
      s.routedTotal b + ((tasksFor b tasks).map fun task => task.committed.toNat).sum := by
  induction tasks generalizing s with
  | nil => rfl
  | cons task tasks ih =>
    rw [RouterState.run, List.foldl_cons, ← RouterState.run, ih, routedTotal_step, tasksFor,
      tasksFor, List.filter_cons]
    by_cases hb : task.op.bucketId = b
    · simp [hb, Nat.add_assoc]
    · simp [hb]

/-- With all tasks committed in their order and in one second, the run is `routeOneEvent`. -/
theorem RouterState.log_run_routedOps (s : RouterState) (assigner : BucketAssigner) (now : Instant)
    (wall : UInt64) (envelope : EventEnvelope) :
    (s.run codec ((routedOps assigner now envelope).map fun op => ⟨op, wall, true⟩)).log =
      routeOneEvent codec assigner now wall s.log envelope := by
  rw [RouterState.run, List.foldl_map, routeOneEvent]
  generalize routedOps assigner now envelope = ops
  induction ops generalizing s with
  | nil => rfl
  | cons op ops ih => exact ih _

end Run

theorem bucketIds_routedOps (assigner : BucketAssigner) (now : Instant) (offset : PgLsn)
    (change : EntityChange) :
    (routedOps assigner now ⟨offset, some change⟩).map BucketOp.bucketId =
      assigner.findAffectedBuckets now change.entityType change.data := by
  rw [routedOps, List.map_map]
  exact List.map_id _

/-- Two matching assignments in one cache give the bucket id twice exactly if they have the same
rule and the same parameters. -/
theorem nodup_findAffectedBuckets {assigner : BucketAssigner} {now : Instant} {t : String}
    {row : Json.Value} :
    (assigner.findAffectedBuckets now t row).Nodup ↔
      ((assigner.liveAssignments now).filter fun a =>
        decide (t ∈ a.dataQueries) && Rules.rowMatchesAssignment row a).Pairwise fun a b =>
          ¬(a.ruleId = b.ruleId ∧ ∀ name, a.parameters.lookup name = b.parameters.lookup name) := by
  rw [BucketAssigner.findAffectedBuckets_eq, List.Nodup, List.pairwise_map]
  apply List.Pairwise.iff_of_mem
  intro a b ha hb
  have hfroma := BucketAssigner.resolvedFrom_of_live (List.mem_of_mem_filter ha)
  have hfromb := BucketAssigner.resolvedFrom_of_live (List.mem_of_mem_filter hb)
  apply not_congr
  constructor
  · exact hfroma.eq_of_bucketId assigner.valid hfromb
  · intro h
    exact hfroma.bucketId_of_same assigner.valid hfromb h.1 h.2

theorem exists_task {tasks : List AppendTask} {ops : List BucketOp}
    (hperm : (tasks.map AppendTask.op).Perm ops) (hnodup : (ops.map BucketOp.bucketId).Nodup)
    {op : BucketOp} (hop : op ∈ ops) :
    ∃ task, tasksFor op.bucketId tasks = [task] ∧ task.op = op := by
  have hids : ((tasks.map AppendTask.op).map BucketOp.bucketId).Nodup :=
    (hperm.map _).nodup_iff.mpr hnodup
  obtain ⟨task, htask, rfl⟩ := List.mem_map.mp (hperm.mem_iff.mpr hop)
  refine ⟨task, ?_, rfl⟩
  clear hperm hop
  induction tasks with
  | nil => cases htask
  | cons first tasks ih =>
    simp only [List.map_cons, List.nodup_cons] at hids
    cases List.mem_cons.mp htask with
    | inl heq =>
      subst heq
      have hnone : tasksFor task.op.bucketId tasks = [] := by
        apply List.filter_eq_nil_iff.mpr
        intro other hother hid
        apply hids.1
        rw [← of_decide_eq_true hid]
        exact List.mem_map_of_mem (List.mem_map_of_mem hother)
      rw [tasksFor, List.filter_cons_of_pos (by simp), ← tasksFor, hnone]
    | inr hmem =>
      have hne : first.op.bucketId ≠ task.op.bucketId := by
        intro heq
        apply hids.1
        rw [heq]
        exact List.mem_map_of_mem (List.mem_map_of_mem hmem)
      rw [tasksFor, List.filter_cons_of_neg (by simp [hne])]
      exact ih hids.2 hmem

/-- An event reaches each affected bucket once exactly if no two live assignments that have a data
query for it and match its row have the same rule and the same parameters. -/
theorem appendsOnce_iff (assigner : BucketAssigner) (now : Instant) (offset : PgLsn)
    (change : EntityChange) :
    AppendsOnce assigner now offset change ↔
      ((assigner.liveAssignments now).filter fun a =>
        decide (change.entityType ∈ a.dataQueries) &&
          Rules.rowMatchesAssignment change.data a).Pairwise fun a b =>
            ¬(a.ruleId = b.ruleId ∧
              ∀ name, a.parameters.lookup name = b.parameters.lookup name) := by
  rw [← nodup_findAffectedBuckets]
  refine ⟨fun h => h.nodup, fun hnodup => ⟨hnodup, ?_⟩⟩
  intro codec s tasks hperm b hb
  have hmem : bucketOp offset change b ∈ routedOps assigner now ⟨offset, some change⟩ :=
    List.mem_map_of_mem hb
  rw [← bucketIds_routedOps assigner now offset] at hnodup
  obtain ⟨task, htasks, hop⟩ := exists_task hperm hnodup hmem
  change tasksFor b tasks = [task] at htasks
  refine ⟨task, htasks, hop, ?_, ?_⟩
  · rw [RouterState.checksum_run, htasks]
    rfl
  · rw [RouterState.routedTotal_run, htasks]
    rfl

/-! Two users of tenant t1 under the reference's tenant rule. -/

private def tenantRules : Rules.SyncRuleSet :=
  let bucket : Rules.RawBucket := {
    description := some "Reference data shared across a tenant"
    parameters := some ["tenant_id"]
    parameterQueries := some ((∅ : HashMap String String).insert "tenant_id"
      "SELECT tenant_id FROM users WHERE auth_user_id = $1")
    data := some ((∅ : HashMap String String).insert "entity_types"
      "SELECT * FROM entity_types WHERE tenant_id = \x7bbucket_parameters.tenant_id\x7d") }
  Rules.RawDocument.toRuleSet
    ⟨some "1", some ((∅ : HashMap String Rules.RawBucket).insert "tenant_shared" bucket)⟩

private def tenantAssigner : BucketAssigner :=
  ⟨tenantRules, by decide, ∅, by simp, 3600000000000⟩

private def connectedUsers (subs : List String) : BucketAssigner :=
  subs.foldl (fun assigner sub =>
    (assigner.assign ⟨0, 0⟩ (Rules.answerUser "t1") ⟨sub, 1⟩).2) tenantAssigner

private def tenantInsert : EntityChange where
  entityType := "entity_types"
  entityId := "a"
  op := .insert
  data := .object [("id", .string "a"), ("tenant_id", .string "t1")]

private def tenantBucket : BucketId := ⟨"tenant_shared:tenant_id=\x22t1\x22"⟩

/-- The second user of the tenant makes the event appear twice: the checksum folds it twice and the
counter grows by two. -/
theorem shared_tenant_appends_twice :
    (connectedUsers ["alice", "bob"]).findAffectedBuckets 0 "entity_types" tenantInsert.data =
      [tenantBucket, tenantBucket] ∧
    ¬AppendsOnce (connectedUsers ["alice", "bob"]) 0 5 tenantInsert ∧
    ∀ (codec : Codec) (s : RouterState), ∃ tasks : List AppendTask,
      (tasks.map AppendTask.op).Perm
        (routedOps (connectedUsers ["alice", "bob"]) 0 ⟨5, some tenantInsert⟩) ∧
      (s.run codec tasks).log.checksum tenantBucket =
        foldChecksum (foldChecksum (s.log.checksum tenantBucket)
          (codec.toVec ⟨bucketOp 5 tenantInsert tenantBucket, 7⟩))
          (codec.toVec ⟨bucketOp 5 tenantInsert tenantBucket, 7⟩) ∧
      (s.run codec tasks).routedTotal tenantBucket = s.routedTotal tenantBucket + 2 := by
  have hfound : (connectedUsers ["alice", "bob"]).findAffectedBuckets 0 "entity_types"
      tenantInsert.data = [tenantBucket, tenantBucket] := by decide
  refine ⟨hfound, ?_, ?_⟩
  · intro h
    have hnodup := h.nodup
    change ((connectedUsers ["alice", "bob"]).findAffectedBuckets 0 "entity_types"
      tenantInsert.data).Nodup at hnodup
    rw [hfound] at hnodup
    exact absurd hnodup (by decide)
  · intro codec s
    have htasks : routedOps (connectedUsers ["alice", "bob"]) 0 ⟨5, some tenantInsert⟩ =
        [bucketOp 5 tenantInsert tenantBucket, bucketOp 5 tenantInsert tenantBucket] :=
      congrArg (List.map (bucketOp 5 tenantInsert)) hfound
    refine ⟨[⟨bucketOp 5 tenantInsert tenantBucket, 7, true⟩,
      ⟨bucketOp 5 tenantInsert tenantBucket, 7, true⟩], ?_, ?_, ?_⟩
    · rw [htasks]
      exact List.Perm.refl _
    · rw [RouterState.checksum_run]
      rfl
    · rw [RouterState.routedTotal_run]
      rfl

end EntitySync.Router
