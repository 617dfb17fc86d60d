import EntitySync.Oplog.Partition
import EntitySync.Protocol.Messages
import Mathlib.Data.List.Induction

/-!
# Gateway sessions

The state `ConnectionHandler` keeps for one connection, and what its handshake, its client
messages and one iteration of `poll_deltas` do to it.
-/

namespace EntitySync.Gateway

open Json (Value)
open Oplog (Partitions BucketOpLog Codec Represents FitsPrefix)

structure Session where
  authorizedBuckets : HashMap BucketId BucketAssignment
  lastSeenLsn : HashMap BucketId PgLsn

/-- The requested ones of the token's assignments, by rule id. -/
def authorize (assignments : List BucketAssignment) (requested : List String) :
    HashMap BucketId BucketAssignment :=
  assignments.foldl (fun authorized a =>
    if a.ruleId ∈ requested then authorized.insert a.bucketId a else authorized) ∅

/-- The session that `handshake` builds: with a resume LSN, it is the last seen LSN of every
authorized bucket. -/
def handshake (assignments : List BucketAssignment) (requested : List String)
    (resumeLsn : Option PgLsn) : Session where
  authorizedBuckets := authorize assignments requested
  lastSeenLsn := match resumeLsn with
    | none => ∅
    | some lsn => (authorize assignments requested).mapVals fun _ _ => lsn

namespace Session

/-- `ClientMessage::Ack`: every tracked LSN below the acknowledged one is raised to it. -/
def ack (session : Session) (lsn : PgLsn) : Session :=
  { session with
    lastSeenLsn := session.lastSeenLsn.mapVals fun _ tracked =>
      if tracked < lsn then lsn else tracked }

/-- What a decoded client message does to the session; `Write`, `Ping` and a second `Subscribe`
answer or touch the database, but leave the session alone. -/
def handleClientMessage (session : Session) : ClientMessage → Session
  | .ack lsn => session.ack lsn
  | .write _ _ _ | .ping | .subscribe _ _ _ _ => session

def scanFrom (session : Session) (b : BucketId) : PgLsn :=
  match session.lastSeenLsn.lookup b with
  | some lsn => lsn + 1
  | none => 0

def wireBucketId (session : Session) (b : BucketId) : BucketId :=
  match session.authorizedBuckets.lookup b with
  | some a => ⟨a.ruleId⟩
  | none => b

/-- The buckets without a last seen LSN, which start with a snapshot. -/
def freshBuckets (session : Session) : List BucketId :=
  session.authorizedBuckets.keys.filter fun b => (session.lastSeenLsn.lookup b).isNone

end Session

/-- The frames of one bucket's snapshot: its row count is not known when it begins, and its
checksum was read from the op log before. -/
def snapshotFrames (wire : BucketId) (batches : List (List Value)) (checksum : BucketChecksum) :
    List ServerMessage :=
  .snapshotBegin wire 0 protocolVersion ::
    (batches.zipIdx.map fun batch => .snapshotBatch wire batch.1 (.ofNat batch.2)) ++
    [.snapshotComplete wire checksum]

/-- The frames of `deliver_snapshots`, given what was read for each bucket. -/
def Session.deliverSnapshots (session : Session) (order : List BucketId)
    (reads : BucketId → List (List Value) × BucketChecksum) : List ServerMessage :=
  order.flatMap fun b => snapshotFrames (session.wireBucketId b) (reads b).1 (reads b).2

def maxLsn (scanFrom : PgLsn) : List BucketOp → PgLsn
  | [] => scanFrom
  | op :: ops => ops.foldl (fun acc op => if acc ≤ op.lsn then op.lsn else acc) op.lsn

def rewire (wire : BucketId) (op : BucketOp) : BucketOp := { op with bucketId := wire }

@[simp] theorem rewire_lsn (wire : BucketId) (op : BucketOp) : (rewire wire op).lsn = op.lsn := rfl

/-- One iteration of `poll_deltas`, given the ops that the scan of `b` yielded: the frame it
sends, if any, and the session after it. -/
def Session.deliver (session : Session) (b : BucketId) (ops : List BucketOp) :
    Option ServerMessage × Session :=
  if ops = [] then (none, session)
  else
    let wire := session.wireBucketId b
    let lsn := maxLsn (session.scanFrom b) ops
    (some (.delta wire (ops.map (rewire wire)) lsn),
      { session with lastSeenLsn := session.lastSeenLsn.insert b lsn })

def Session.pollBucket (codec : Codec) (log : BucketOpLog) (session : Session) (b : BucketId) :
    Except SyncError (Option ServerMessage × Session) :=
  match log.drainSince codec b (session.scanFrom b) with
  | .error e => .error e.toSyncError
  | .ok ops => .ok (session.deliver b ops)

/-- Polling the byte tables is polling the partitions they represent. -/
theorem Session.pollBucket_of_represents {codec : Codec} {log : BucketOpLog} {ps : Partitions}
    (h : Represents codec log ps) (session : Session) {b : BucketId} (hb : FitsPrefix b) :
    session.pollBucket codec log b =
      .ok (session.deliver b (ps.drainSince b (session.scanFrom b))) := by
  rw [pollBucket, h.drainSince hb]

private theorem foldl_max_spec (ops : List BucketOp) (start : PgLsn) :
    let m := ops.foldl (fun acc op => if acc ≤ op.lsn then op.lsn else acc) start
    start ≤ m ∧ (∀ op ∈ ops, op.lsn ≤ m) ∧ (m = start ∨ ∃ op ∈ ops, op.lsn = m) := by
  induction ops generalizing start with
  | nil => exact ⟨UInt64.le_refl _, fun op hop => (List.not_mem_nil hop).elim, Or.inl rfl⟩
  | cons op ops ih =>
    rw [List.foldl_cons]
    by_cases hle : start ≤ op.lsn
    · rw [if_pos hle]
      have hrest := ih op.lsn
      refine ⟨UInt64.le_trans hle hrest.1, ?_, ?_⟩
      · intro x hx
        cases List.mem_cons.mp hx with
        | inl heq => rw [heq]; exact hrest.1
        | inr hx => exact hrest.2.1 x hx
      · cases hrest.2.2 with
        | inl heq => exact Or.inr ⟨op, List.mem_cons_self, heq.symm⟩
        | inr hex =>
          obtain ⟨x, hx, heq⟩ := hex
          exact Or.inr ⟨x, List.mem_cons_of_mem _ hx, heq⟩
    · rw [if_neg hle]
      have hrest := ih start
      have hlt : op.lsn < start := UInt64.not_le.mp hle
      refine ⟨hrest.1, ?_, ?_⟩
      · intro x hx
        cases List.mem_cons.mp hx with
        | inl heq => rw [heq]; exact UInt64.le_trans (UInt64.le_of_lt hlt) hrest.1
        | inr hx => exact hrest.2.1 x hx
      · cases hrest.2.2 with
        | inl heq => exact Or.inl heq
        | inr hex =>
          obtain ⟨x, hx, heq⟩ := hex
          exact Or.inr ⟨x, List.mem_cons_of_mem _ hx, heq⟩

theorem maxLsn_spec (scanFrom : PgLsn) {ops : List BucketOp} (h : ops ≠ []) :
    (∀ op ∈ ops, op.lsn ≤ maxLsn scanFrom ops) ∧ ∃ op ∈ ops, op.lsn = maxLsn scanFrom ops := by
  cases ops with
  | nil => exact absurd rfl h
  | cons op ops =>
    have hspec := foldl_max_spec ops op.lsn
    constructor
    · intro x hx
      cases List.mem_cons.mp hx with
      | inl heq => rw [heq]; exact hspec.1
      | inr hx => exact hspec.2.1 x hx
    · cases hspec.2.2 with
      | inl heq => exact ⟨op, List.mem_cons_self, heq.symm⟩
      | inr hex =>
        obtain ⟨x, hx, heq⟩ := hex
        exact ⟨x, List.mem_cons_of_mem _ hx, heq⟩

theorem mem_of_lookup_authorize {assignments : List BucketAssignment} {requested : List String}
    {b : BucketId} {a : BucketAssignment}
    (h : (authorize assignments requested).lookup b = some a) :
    a ∈ assignments ∧ a.ruleId ∈ requested ∧ a.bucketId = b := by
  induction assignments using List.reverseRecOn with
  | nil => simp [authorize] at h
  | append_singleton assignments last ih =>
    rw [authorize, List.foldl_append, List.foldl_cons, List.foldl_nil] at h
    change (if _ then AList.insert _ _ (authorize assignments requested)
      else authorize assignments requested).lookup b = some a at h
    have hold (h : (authorize assignments requested).lookup b = some a) :
        a ∈ assignments ++ [last] ∧ a.ruleId ∈ requested ∧ a.bucketId = b :=
      (ih h).imp_left (List.mem_append_left _)
    split at h
    next hrequested =>
      by_cases hb : b = last.bucketId
      · subst hb
        rw [AList.lookup_insert] at h
        cases h
        simp [hrequested]
      · rw [AList.lookup_insert_ne hb] at h
        exact hold h
    next => exact hold h

theorem mem_authorize {assignments : List BucketAssignment} {requested : List String}
    {b : BucketId} : b ∈ authorize assignments requested ↔
      ∃ a ∈ assignments, a.ruleId ∈ requested ∧ a.bucketId = b := by
  constructor
  · intro h
    obtain ⟨a, ha⟩ := Option.isSome_iff_exists.mp (AList.lookup_isSome.mpr h)
    exact ⟨a, mem_of_lookup_authorize ha⟩
  · rintro ⟨a, hmem, hrequested, rfl⟩
    induction assignments using List.reverseRecOn with
    | nil => cases hmem
    | append_singleton assignments last ih =>
      rw [authorize, List.foldl_append, List.foldl_cons, List.foldl_nil]
      change a.bucketId ∈ if _ then AList.insert _ _ (authorize assignments requested)
        else authorize assignments requested
      rcases List.mem_append.mp hmem with hold | hlast
      · split
        · exact (AList.mem_insert _).mpr (Or.inr (ih hold))
        · exact ih hold
      · obtain rfl := List.mem_singleton.mp hlast
        rw [if_pos hrequested]
        exact (AList.mem_insert _).mpr (Or.inl rfl)

/-- With a resume LSN every authorized bucket is tracked from it; without one, none is. -/
theorem lookup_lastSeen_handshake (assignments : List BucketAssignment)
    (requested : List String) (resumeLsn : Option PgLsn) (b : BucketId) :
    (handshake assignments requested resumeLsn).lastSeenLsn.lookup b =
      if b ∈ (handshake assignments requested resumeLsn).authorizedBuckets then resumeLsn
      else none := by
  by_cases hmem : b ∈ (handshake assignments requested resumeLsn).authorizedBuckets
  · rw [if_pos hmem]
    cases resumeLsn with
    | none => rfl
    | some lsn =>
      obtain ⟨a, ha⟩ := Option.isSome_iff_exists.mp (AList.lookup_isSome.mpr hmem)
      change (authorize assignments requested).lookup b = some a at ha
      simp only [handshake, AssocMap.lookup_mapVals, ha, Option.map_some]
  · rw [if_neg hmem]
    cases resumeLsn with
    | none => rfl
    | some lsn =>
      have hnone : (authorize assignments requested).lookup b = none :=
        AList.lookup_eq_none.mpr hmem
      simp only [handshake, AssocMap.lookup_mapVals, hnone, Option.map_none]

/-- Away from `u64::MAX` a scan covers exactly what lies above the last seen LSN. -/
theorem Session.scanFrom_le_iff {session : Session} {b : BucketId} {l : PgLsn}
    (hmax : ∀ m, session.lastSeenLsn.lookup b = some m → m < PgLsn.max) :
    session.scanFrom b ≤ l ↔ ∀ m, session.lastSeenLsn.lookup b = some m → m < l := by
  rw [scanFrom]
  cases hm : session.lastSeenLsn.lookup b with
  | none => simp
  | some m =>
    rw [PgLsn.succ_le_iff (hmax m hm)]
    simp

theorem Session.lookup_ack (session : Session) (lsn : PgLsn) (b : BucketId) :
    (session.ack lsn).lastSeenLsn.lookup b =
      (session.lastSeenLsn.lookup b).map fun tracked => if tracked < lsn then lsn else tracked :=
  AssocMap.lookup_mapVals _ _ _

theorem Session.lookup_of_ack {session : Session} {lsn m' : PgLsn} {b : BucketId}
    (h : (session.ack lsn).lastSeenLsn.lookup b = some m') :
    ∃ m, session.lastSeenLsn.lookup b = some m ∧ (m' = m ∨ m' = lsn) := by
  rw [Session.lookup_ack] at h
  obtain ⟨m, hm, rfl⟩ := Option.map_eq_some_iff.mp h
  refine ⟨m, hm, ?_⟩
  split
  · exact Or.inr rfl
  · exact Or.inl rfl

/-- What is seen after an acknowledgement that does not pass it was seen before. -/
theorem Session.seen_before_ack {session : Session} {lsn l m' : PgLsn} {b : BucketId}
    (h : (session.ack lsn).lastSeenLsn.lookup b = some m') (hle : l ≤ m')
    (hpass : ∀ m, session.lastSeenLsn.lookup b = some m → m < l → lsn < l) :
    ∃ m, session.lastSeenLsn.lookup b = some m ∧ l ≤ m := by
  obtain ⟨m, hm, rfl | rfl⟩ := Session.lookup_of_ack h
  · exact ⟨m', hm, hle⟩
  · refine ⟨m, hm, UInt64.not_lt.mp ?_⟩
    intro hlt
    exact UInt64.lt_irrefl _ (UInt64.lt_of_lt_of_le (hpass m hm hlt) hle)

theorem Session.authorizedBuckets_handleClientMessage (session : Session) (msg : ClientMessage) :
    (session.handleClientMessage msg).authorizedBuckets = session.authorizedBuckets := by
  cases msg <;> rfl

theorem Session.lookup_handleClientMessage {session : Session} {msg : ClientMessage} {b : BucketId}
    {m : PgLsn} (h : session.lastSeenLsn.lookup b = some m) :
    ∃ m', (session.handleClientMessage msg).lastSeenLsn.lookup b = some m' ∧ m ≤ m' := by
  cases msg with
  | ack lsn =>
    rw [Session.handleClientMessage, Session.lookup_ack, h, Option.map_some]
    refine ⟨_, rfl, ?_⟩
    by_cases hlt : m < lsn
    · rw [if_pos hlt]
      exact UInt64.le_of_lt hlt
    · rw [if_neg hlt]
      exact UInt64.le_refl _
  | write | ping | subscribe => exact ⟨m, h, UInt64.le_refl _⟩

end EntitySync.Gateway
