import EntitySync.Gateway.Connection
import EntitySync.Rules.BucketKey

/-!
# Session confinement

A connection sends bucket data only after the token was validated and its assignments were
resolved, only for the requested ones of these assignments, and under their rule ids.
-/

namespace EntitySync.Gateway

open Oplog (StoredOp)
open Rules (BucketAssigner partitionKey)
open StepSystem

def dataBucket : ServerMessage → Option BucketId
  | .snapshotBegin b _ _ | .snapshotBatch b _ _ | .snapshotComplete b _ | .delta b _ _ => some b
  | .checkpoint _ _ | .keepalive _ | .error _ _ => none

def bucketIds : ServerMessage → List BucketId
  | .snapshotBegin b _ _ | .snapshotBatch b _ _ | .snapshotComplete b _ => [b]
  | .delta b ops _ => b :: ops.map BucketOp.bucketId
  | .checkpoint _ checksums => checksums.keys
  | .keepalive _ | .error _ _ => []

namespace Connection

def AssignedFor (s : Connection) (assignments : List BucketAssignment) : Prop :=
  assignments ∈ s.assigned ∧ ∃ claims ∈ s.validated,
    ∃ (assigner : BucketAssigner) (clock : Rules.Clock) (db : String → Rules.Database),
      (assigner.assign clock db claims).1 = .ok assignments

/-- The frame is about a requested one of the assignments of the validated claims, and its ops are
stored in the partition of this assignment. -/
def Confined (s : Connection) (frame : ServerMessage) : Prop :=
  ∃ assignments, s.AssignedFor assignments ∧ ∃ a ∈ assignments, a.ruleId ∈ s.requested ∧
    dataBucket frame = some ⟨a.ruleId⟩ ∧ ∀ op ∈ deltaOps frame, op.bucketId = ⟨a.ruleId⟩ ∧
      ∃ (l : PgLsn) (stored : StoredOp), (s.log a.bucketId)[l]? = some stored ∧
        rewire ⟨a.ruleId⟩ stored.op = op

/-- The frame shows no partition key, and it is confined if it has bucket data. -/
def Permitted (s : Connection) (frame : ServerMessage) : Prop :=
  (∀ b ∈ bucketIds frame, ∀ ruleId parameters, b ≠ partitionKey ruleId parameters) ∧
    ((dataBucket frame).isSome → s.Confined frame)

def SendsPermitted (s : Connection) (a : ConnectionAction) : Prop :=
  ∀ t, s.step a = some t → ∃ frames, t.sent = s.sent ++ frames ∧ ∀ frame ∈ frames,
    s.Permitted frame

def Granted (s : Connection) (session : Session) : Prop :=
  ∃ assignments, s.AssignedFor assignments ∧
    session.authorizedBuckets = authorize assignments s.requested

/-- Once there is a session it is granted, and the buckets still to visit are its own. -/
def Guarded (s : Connection) : Prop :=
  match s.phase with
  | .awaiting | .validating _ _ | .reporting _ _ | .closed _ => True
  | .assigning claims _ => s.validated = some claims
  | .snapshots session queue => s.Granted session ∧ ∀ b ∈ queue, b ∈ session.authorizedBuckets
  | .streaming session b _ _ queue =>
    s.Granted session ∧ ∀ c ∈ b :: queue, c ∈ session.authorizedBuckets
  | .serving session scanning =>
    s.Granted session ∧ ∀ b ∈ scanning, b ∈ session.authorizedBuckets

variable {s t : Connection} {session : Session}

theorem permitted_error (s : Connection) (code : UInt16) (message : String) :
    s.Permitted (.error code message) := by
  simp [Permitted, bucketIds, dataBucket]

theorem permitted_keepalive (s : Connection) (nowMs : UInt64) :
    s.Permitted (.keepalive nowMs) := by
  simp [Permitted, bucketIds, dataBucket]

/-- A rule id has no colon, and a partition key has one. -/
theorem ruleId_ne_partitionKey {assigner : BucketAssigner} {a : BucketAssignment}
    (h : Rules.ResolvedFrom assigner.ruleSet a) (ruleId : String)
    (parameters : HashMap String Json.Value) :
    (⟨a.ruleId⟩ : BucketId) ≠ partitionKey ruleId parameters := by
  obtain ⟨rule, _, hvalid, _⟩ := h.resolution assigner.valid
  intro heq
  have hcolon := Rules.colon_notMem_of_isBucketId hvalid.bucketId
  apply hcolon
  rw [show a.ruleId = (partitionKey ruleId parameters).val from congrArg BucketId.val heq]
  simp [partitionKey]

theorem Granted.wire (h : s.Granted session) {b : BucketId} (hb : b ∈ session.authorizedBuckets) :
    ∃ assignments, s.AssignedFor assignments ∧ ∃ a ∈ assignments, a.ruleId ∈ s.requested ∧
      a.bucketId = b ∧ session.wireBucketId b = ⟨a.ruleId⟩ ∧
      ∀ ruleId parameters, (⟨a.ruleId⟩ : BucketId) ≠ partitionKey ruleId parameters := by
  obtain ⟨assignments, hassigned, hauth⟩ := h
  obtain ⟨a, ha⟩ := Option.isSome_iff_exists.mp (AList.lookup_isSome.mpr hb)
  obtain ⟨hmem, hrequested, hkey⟩ := mem_of_lookup_authorize (hauth ▸ ha)
  refine ⟨assignments, hassigned, a, hmem, hrequested, hkey, ?_, ?_⟩
  · rw [Session.wireBucketId, ha]
  · obtain ⟨_, claims, _, assigner, clock, db, hok⟩ := hassigned
    exact ruleId_ne_partitionKey (BucketAssigner.assign_resolved hok a hmem)

theorem Guarded.granted (h : s.Guarded) (hsession : s.phase.session = some session) :
    s.Granted session := by
  rw [Guarded] at h
  cases hphase : s.phase with
  | awaiting | validating | assigning | reporting | closed =>
    simp [hphase, Phase.session] at hsession
  | snapshots | streaming | serving =>
    rw [hphase] at h hsession
    cases hsession
    exact h.1

theorem Granted.permitted (h : s.Granted session) {b : BucketId}
    (hb : b ∈ session.authorizedBuckets) {frame : ServerMessage}
    (hids : bucketIds frame = [session.wireBucketId b])
    (hdata : dataBucket frame = some (session.wireBucketId b)) (hops : deltaOps frame = []) :
    s.Permitted frame := by
  obtain ⟨assignments, hassigned, a, hmem, hrequested, _, hwire, hkey⟩ := h.wire hb
  constructor
  · simpa [hids, hwire] using hkey
  · intro _
    exact ⟨assignments, hassigned, a, hmem, hrequested, by rw [hdata, hwire], by simp [hops]⟩

theorem Granted.permitted_delta (h : s.Granted session) {b : BucketId}
    (hb : b ∈ session.authorizedBuckets) (fromLsn lsn : PgLsn) :
    s.Permitted (.delta (session.wireBucketId b)
      ((s.log.drainSince b fromLsn).map (rewire (session.wireBucketId b))) lsn) := by
  obtain ⟨assignments, hassigned, a, hmem, hrequested, rfl, hwire, hkey⟩ := h.wire hb
  rw [hwire]
  constructor
  · simp only [bucketIds, List.map_map, List.mem_cons, List.mem_map]
    rintro b (rfl | ⟨op, _, rfl⟩)
    · exact hkey
    · exact hkey
  · intro _
    refine ⟨assignments, hassigned, a, hmem, hrequested, rfl, ?_⟩
    intro op hop
    obtain ⟨drained, hdrained, rfl⟩ := List.mem_map.mp hop
    rw [Oplog.Partitions.mem_drainSince] at hdrained
    obtain ⟨l, stored, hget, _, _, rfl⟩ := hdrained
    exact ⟨rfl, l, stored, hget, rfl⟩

def Sends (s t : Connection) : Prop :=
  ∃ frames, t.sent = s.sent ++ frames ∧ ∀ frame ∈ frames, s.Permitted frame

theorem sends_nothing (h : t.sent = s.sent) : s.Sends t := ⟨[], by simp [h], by simp⟩

theorem sends_one {frame : ServerMessage} (h : t.sent = s.sent ++ [frame])
    (hframe : s.Permitted frame) : s.Sends t :=
  ⟨[frame], h, by simpa using hframe⟩

theorem sends_report (s : Connection) (reason : Option SyncError) (sent : Bool) :
    s.Sends (s.report reason sent) ∧ (s.report reason sent).Guarded := by
  refine ⟨⟨_, s.sent_report reason sent, ?_⟩, trivial⟩
  intro frame hframe
  cases sent with
  | false => cases hframe
  | true =>
    rw [if_pos rfl, List.mem_singleton] at hframe
    rw [hframe]
    cases reason <;> exact s.permitted_error _ _

theorem sends_subscribe (s : Connection) (msg : Incoming) :
    s.Sends (s.subscribe msg) ∧ (s.subscribe msg).Guarded := by
  rcases s.subscribe_cases msg with ⟨_, he, _⟩ | ⟨_, _, he, _⟩ | ⟨_, _, _, _, _, he⟩ <;>
    rw [he] <;> exact ⟨sends_nothing rfl, trivial⟩

theorem sends_receive (h : s.Granted session) (hphase : s.phase = .serving session [])
    (nowMs : UInt64) (outcome : WriteOutcome) (msg : Incoming) :
    s.Sends (s.receive session nowMs outcome msg) ∧
      (s.receive session nowMs outcome msg).Guarded := by
  have hstay : ∀ frame, (s.send frame).Guarded := by
    intro frame
    rw [Guarded]
    simp only [send, hphase]
    exact ⟨h, by simp⟩
  cases msg with
  | ended | close | failed => exact ⟨sends_nothing rfl, trivial⟩
  | other =>
    refine ⟨sends_nothing rfl, ?_⟩
    simp only [receive, Guarded, hphase]
    exact ⟨h, by simp⟩
  | binary decoded =>
    cases decoded with
    | error error => exact ⟨sends_one rfl (s.permitted_error _ _), hstay _⟩
    | ok msg =>
      have hnext (frames : List ServerMessage) : Guarded { s with
          phase := .serving (session.handleClientMessage msg) [], sent := frames } := by
        refine ⟨?_, by simp⟩
        obtain ⟨assignments, hassigned, hauth⟩ := h
        exact ⟨assignments, hassigned,
          (session.authorizedBuckets_handleClientMessage msg).trans hauth⟩
      cases msg with
      | ack lsn => exact ⟨sends_nothing rfl, hnext _⟩
      | write entityType entityId op =>
        cases outcome with
        | applied => exact ⟨sends_nothing rfl, hnext _⟩
        | refused e => exact ⟨sends_one rfl (s.permitted_error _ _), hnext _⟩
        | failed e => exact ⟨sends_nothing rfl, trivial⟩
      | ping => exact ⟨sends_one rfl (s.permitted_keepalive _), hnext _⟩
      | subscribe buckets token resumeLsn version =>
        exact ⟨sends_one rfl (s.permitted_error _ _), hnext _⟩

theorem sends_startPoll (h : s.Granted session) {scanning order : List BucketId}
    (hstep : s.poll session scanning (.startPoll order) = some t) : s.Sends t ∧ t.Guarded := by
  obtain ⟨d, hd, rfl⟩ := Option.map_eq_some_iff.mp hstep
  rw [Delivery.step] at hd
  split at hd
  next hcond =>
    cases hd
    refine ⟨sends_nothing (by simp), h, ?_⟩
    intro b hb
    exact AList.mem_keys.mpr (hcond.2.mem_iff.mp hb)
  next => cases hd

theorem sends_scan (h : s.Granted session) {scanning : List BucketId}
    (hscanning : ∀ b ∈ scanning, b ∈ session.authorizedBuckets)
    (hstep : s.poll session scanning .scan = some t) : s.Sends t ∧ t.Guarded := by
  obtain ⟨d, hd, rfl⟩ := Option.map_eq_some_iff.mp hstep
  rw [Delivery.step] at hd
  split at hd
  next => cases hd
  next b rest heq =>
    cases hd
    simp only at heq
    subst heq
    have hrest : ∀ c ∈ rest, c ∈ session.authorizedBuckets :=
      fun c hc => hscanning c (List.mem_cons_of_mem _ hc)
    by_cases hops : s.log.drainSince b (session.scanFrom b) = []
    · simp only [Session.deliver, hops, if_true]
      exact ⟨sends_nothing (by simp), h, hrest⟩
    · simp only [Session.deliver, hops, if_false]
      refine ⟨sends_one (by simp; rfl) ?_, h, hrest⟩
      exact h.permitted_delta (hscanning b List.mem_cons_self) _ _

theorem Guarded.step (h : s.Guarded) {a : ConnectionAction} (hstep : s.step a = some t) :
    s.Sends t ∧ t.Guarded := by
  cases steps_of_step hstep with
  | append | compact => exact ⟨sends_nothing rfl, h⟩
  | subscribe msg nowMs outcome hphase => exact s.sends_subscribe msg
  | receive msg nowMs outcome hphase =>
    rw [Guarded, hphase] at h
    exact sends_receive h.1 hphase nowMs outcome msg
  | report sent hphase => exact s.sends_report _ sent
  | validated claims hphase => exact ⟨sends_nothing rfl, rfl⟩
  | @assigned assigner clock db order claims resumeLsn assignments hphase hassign horder =>
    rw [Guarded, hphase] at h
    refine ⟨sends_nothing rfl, ?_, ?_⟩
    · exact ⟨assignments, ⟨rfl, claims, h, assigner, clock, db, hassign⟩, rfl⟩
    · intro b hb
      have hfresh := List.mem_filter.mp (horder.mem_iff.mp hb)
      exact AList.mem_keys.mpr hfresh.1
  | rejected | unassigned | snapshotFailed | batchFailed | scanFailed | shutdown | sendFailed
  | deltaFailed => exact ⟨sends_nothing rfl, trivial⟩
  | beginSnapshot checksum hphase =>
    rw [Guarded, hphase] at h
    refine ⟨sends_one rfl ?_, h⟩
    exact h.1.permitted (h.2 _ List.mem_cons_self) rfl rfl rfl
  | batch rows hphase =>
    rw [Guarded, hphase] at h
    refine ⟨sends_one rfl ?_, h⟩
    exact h.1.permitted (h.2 _ List.mem_cons_self) rfl rfl rfl
  | endSnapshot hphase =>
    rw [Guarded, hphase] at h
    refine ⟨sends_one rfl ?_, h.1, fun c hc => h.2 c (List.mem_cons_of_mem _ hc)⟩
    exact h.1.permitted (h.2 _ List.mem_cons_self) rfl rfl rfl
  | serve hphase =>
    rw [Guarded, hphase] at h
    exact ⟨sends_nothing rfl, h⟩
  | startPoll hphase hpoll =>
    rw [Guarded, hphase] at h
    exact sends_startPoll h.1 hpoll
  | scan hphase hpoll =>
    rw [Guarded, hphase] at h
    exact sends_scan h.1 h.2 hpoll
  | keepalive nowMs hphase =>
    refine ⟨sends_one rfl (s.permitted_keepalive nowMs), ?_⟩
    rw [Guarded, hphase] at h
    simp only [Guarded, send, hphase]
    exact h

/-- In every run of a connection, whatever the client sends and however the op log changes, bucket
data is sent only after the token was validated and `assign` returned, only for the requested ones
of the returned assignments and from their partitions, and under their rule ids; no frame shows a
partition key. -/
theorem session_confined (log : Oplog.Partitions) (as : List ConnectionAction) :
    Meets step SendsPermitted (start log) as := by
  apply meets_of_invariant (I := Guarded)
  · intro s a t hs hstep
    refine ⟨?_, (hs.step hstep).2⟩
    intro t ht
    exact (hs.step ht).1
  · trivial

example :
    let b := (Rules.ownerAssignment "42").bucketId
    (run step (start Oplog.Partitions.empty)
      [.incoming (.binary (.ok (.subscribe ["user_entities"] "token" (some 0) 1))) 0 .applied,
        .validate (.ok ⟨"alice", 1⟩),
        .assign Rules.ownerAssigner ⟨0, 0⟩ (Rules.answerUser "42") [], .serve,
        .append 0 b ⟨3, b, "entities", "a", .delete⟩, .startPoll [b], .scan none]).map sent =
      some [.delta ⟨"user_entities"⟩ [⟨3, ⟨"user_entities"⟩, "entities", "a", .delete⟩] 3] := by
  rfl

end Connection

end EntitySync.Gateway
