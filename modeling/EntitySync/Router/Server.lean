import EntitySync.Library.StepSystem
import EntitySync.Router.Router

/-!
# LSN assignment across restarts

The LSN of an op is the offset of the in-process broker, whose counter starts from zero in every
process, while the op log is a file that outlives the process. Over one process lifetime LSNs
grow; a restart after the first append lets the counter run over LSNs that are already taken.
-/

namespace EntitySync.Router

open Oplog (Partitions)
open Rules (BucketAssigner Instant)
open StepSystem

/-- The broker, the op log file, and the appends of each routed event so far, oldest first. -/
structure Server where
  broker : InProcessBroker
  log : Partitions
  appended : List (List BucketOp)

inductive ServerAction where
  | publish (payload : Option EntityChange)
  | route (assigner : BucketAssigner) (now : Instant) (wall : UInt64)
  | restart

namespace Server

def init : Server := ⟨.new, Partitions.empty, []⟩

/-- A route step takes the oldest published event; its cache content and clocks are those the
action brings. A restart loses the events still queued and reopens the log. -/
def step (s : Server) : ServerAction → Option Server
  | .publish payload => some { s with broker := s.broker.publish payload }
  | .route assigner now wall =>
    match s.broker.queue with
    | [] => none
    | envelope :: queue =>
      let ops := routedOps assigner now envelope
      some {
        broker := { s.broker with queue := queue }
        log := appendAll wall s.log ops
        appended := s.appended ++ [ops] }
  | .restart => some { s with broker := .new }

def LsnsIncrease (s : Server) : Prop :=
  s.appended.flatten.Pairwise fun x y => x.bucketId = y.bucketId → x.lsn < y.lsn

def NothingOverwritten (s : Server) : Prop :=
  ∀ op ∈ s.appended.flatten, ∃ wall, (s.log op.bucketId)[op.lsn]? = some ⟨op, wall⟩

/-- A client that resumes with an LSN it saw before some point is sent every op appended after
that point: a poll scans the log from the successor of the resume LSN. -/
def ResumeComplete (s : Server) : Prop :=
  ∀ before after, s.appended = before ++ after → ∀ seen ∈ before.flatten,
    ∀ op ∈ after.flatten, op ∈ s.log.drainSince op.bucketId (seen.lsn + 1)

/-- The counter does not wrap, no bucket is listed twice for the routed event, and the process
does not restart once an op has been appended. -/
def Orderly (s : Server) : ServerAction → Prop
  | .publish _ => s.broker.nextOffset < PgLsn.max
  | .route assigner now _ =>
    ∀ change ∈ s.broker.queue.head?.bind EventEnvelope.payload,
      (assigner.findAffectedBuckets now change.entityType change.data).Nodup
  | .restart => s.appended.flatten = []

instance (s : Server) (a : ServerAction) : Decidable (s.Orderly a) :=
  match a with
  | .publish _ => inferInstanceAs (Decidable (_ < _))
  | .route _ _ _ => inferInstanceAs (Decidable (∀ _ ∈ (_ : Option EntityChange), _))
  | .restart => inferInstanceAs (Decidable (_ = []))

/-- LSNs of the log are offsets of this process, later events have larger ones, and every op sits
where it was appended. -/
private structure Ordered (s : Server) : Prop where
  broker : s.broker.Ordered fun l => ∃ op ∈ s.appended.flatten, op.lsn = l
  events : s.appended.Pairwise fun xs ys => ∀ x ∈ xs, ∀ y ∈ ys, x.lsn < y.lsn
  buckets : ∀ ops ∈ s.appended, (ops.map BucketOp.bucketId).Nodup
  stored : s.NothingOverwritten

private theorem ordered_init : Ordered init := by
  refine ⟨InProcessBroker.ordered_new (by simp [init]), List.Pairwise.nil, ?_, ?_⟩
  · intro ops hops
    cases hops
  · intro op hop
    cases hop

private theorem Ordered.restart {s : Server} (h : Ordered s) (hempty : s.appended.flatten = []) :
    Ordered { s with broker := .new } :=
  ⟨InProcessBroker.ordered_new (by simp [hempty]), h.events, h.buckets, h.stored⟩

private theorem Ordered.route {s : Server} (h : Ordered s) {assigner : BucketAssigner}
    {now : Instant} {wall : UInt64} {envelope : EventEnvelope} {queue : List EventEnvelope}
    (hqueue : s.broker.queue = envelope :: queue)
    (hnodup : ∀ change, envelope.payload = some change →
      (assigner.findAffectedBuckets now change.entityType change.data).Nodup) :
    Ordered {
      broker := { s.broker with queue := queue }
      log := appendAll wall s.log (routedOps assigner now envelope)
      appended := s.appended ++ [routedOps assigner now envelope] } := by
  have hbelow (op : BucketOp) (hop : op ∈ s.appended.flatten) : op.lsn < envelope.offset :=
    h.broker.lt_head hqueue ⟨op, hop, rfl⟩
  have hflat (op : BucketOp)
      (hop : op ∈ (s.appended ++ [routedOps assigner now envelope]).flatten) :
      op ∈ s.appended.flatten ∨ op ∈ routedOps assigner now envelope := by
    rwa [List.flatten_append, List.mem_append, List.flatten_singleton] at hop
  refine ⟨(h.broker.route hqueue).mono ?_, ?_, ?_, ?_⟩
  · intro l hl
    obtain ⟨op, hop, hlsn⟩ := hl
    cases hflat op hop with
    | inl hold => exact Or.inl ⟨op, hold, hlsn⟩
    | inr hnew => exact Or.inr (hlsn ▸ lsn_of_mem_routedOps hnew)
  · refine List.pairwise_append.mpr ⟨h.events, List.pairwise_singleton _ _, ?_⟩
    intro xs hxs ys hys x hx y hy
    rw [List.mem_singleton.mp hys] at hy
    rw [lsn_of_mem_routedOps hy]
    exact hbelow x (List.mem_flatten_of_mem hxs hx)
  · intro ops hops
    cases List.mem_append.mp hops with
    | inl hold => exact h.buckets ops hold
    | inr hnew =>
      rw [List.mem_singleton.mp hnew, routedOps]
      cases hpayload : envelope.payload with
      | none => exact List.nodup_nil
      | some change =>
        have hids := hnodup change hpayload
        rw [List.map_map]
        exact (List.map_id _).symm ▸ hids
  · intro op hop
    cases hflat op hop with
    | inl hold =>
      obtain ⟨old, hget⟩ := h.stored op hold
      refine ⟨old, ?_⟩
      rw [← hget]
      apply getElem?_appendAll_of_ne_offset
      exact UInt64.ne_of_lt (hbelow op hold)
    | inr hnew => exact ⟨wall, getElem?_appendAll_of_routed hnew⟩

private theorem Ordered.step {s t : Server} {a : ServerAction} (h : Ordered s)
    (ha : s.Orderly a) (hstep : s.step a = some t) : Ordered t := by
  cases a with
  | publish payload =>
    cases hstep
    exact ⟨h.broker.publish ha payload, h.events, h.buckets, h.stored⟩
  | route assigner now wall =>
    rw [Server.step] at hstep
    cases hqueue : s.broker.queue with
    | nil =>
      rw [hqueue] at hstep
      cases hstep
    | cons envelope queue =>
      rw [hqueue] at hstep
      cases hstep
      refine h.route hqueue fun change hpayload => ha change ?_
      rw [hqueue]
      exact hpayload
  | restart =>
    cases hstep
    exact h.restart ha

private theorem Ordered.lsnsIncrease {s : Server} (h : Ordered s) : s.LsnsIncrease := by
  refine List.pairwise_flatten.mpr ⟨?_, ?_⟩
  · intro ops hops
    have hdistinct := List.pairwise_map.mp (h.buckets ops hops)
    exact hdistinct.imp fun hne heq => absurd heq hne
  · exact h.events.imp fun hlt x hx y hy _ => hlt x hx y hy

private theorem Ordered.resumeComplete {s : Server} (h : Ordered s) : s.ResumeComplete := by
  intro before after hsplit seen hseen op hop
  obtain ⟨xs, hxs, hx⟩ := List.mem_flatten.mp hseen
  obtain ⟨ys, hys, hy⟩ := List.mem_flatten.mp hop
  have hevents := h.events
  rw [hsplit, List.pairwise_append] at hevents
  have hlt : seen.lsn < op.lsn := hevents.2.2 xs hxs ys hys seen hx op hy
  have hmem : op ∈ s.appended.flatten := by
    rw [hsplit, List.flatten_append]
    exact List.mem_append_right _ hop
  obtain ⟨wall, hget⟩ := h.stored op hmem
  have hseenMax : seen.lsn < PgLsn.max := UInt64.lt_of_lt_of_le hlt (PgLsn.le_max _)
  have hopMax : op.lsn < PgLsn.max := h.broker.lt_max ⟨op, hmem, rfl⟩
  exact Partitions.mem_drainSince.mpr
    ⟨op.lsn, ⟨op, wall⟩, hget, (PgLsn.succ_le_iff hseenMax).mpr hlt, hopMax, rfl⟩

/-- In a run without a restart after the first append, without offset wrap and without a bucket
listed twice for one event, LSNs grow in every bucket, no append overwrites an entry, and a
client that resumes from what it saw is sent everything appended later. -/
theorem appends_sound_of_orderly {actions : List ServerAction}
    (h : Meets step Orderly init actions) :
    Always step (fun s => s.LsnsIncrease ∧ s.NothingOverwritten ∧ s.ResumeComplete) init
      actions := by
  rw [always_iff]
  intro taken rest t hsplit hrun
  rw [hsplit] at h
  have hordered : Ordered t := h.append_left.invariant
    (fun s a t hs ha hstep => hs.step ha hstep) ordered_init hrun
  exact ⟨hordered.lsnsIncrease, hordered.stored, hordered.resumeComplete⟩

private def oneProcess : List ServerAction :=
  [.publish (some (ownedInsert "a" "42")), .route (Rules.cachedOwner "42") 0 0,
    .publish (some (ownedInsert "b" "42")), .route (Rules.cachedOwner "42") 0 0]

theorem appends_sound_one_process :
    Always step (fun s => s.LsnsIncrease ∧ s.NothingOverwritten ∧ s.ResumeComplete) init
      oneProcess := by
  exact appends_sound_of_orderly (by decide)

private def twoProcesses : List ServerAction :=
  [.publish (some (ownedInsert "a" "42")), .route (Rules.cachedOwner "42") 0 0, .restart,
    .publish (some (ownedInsert "b" "42")), .route (Rules.cachedOwner "42") 0 0]

/-- After a restart the second process appends at LSN 0 again: the first op is overwritten, and
a client that saw it and resumes from 0 is never sent the second. -/
theorem restart_reuses_lsn : ∃ s, run step init twoProcesses = some s ∧
    ¬s.LsnsIncrease ∧ ¬s.NothingOverwritten ∧ ¬s.ResumeComplete := by
  let bucket : BucketId := ⟨"user_entities:user_id=\"42\""⟩
  let first := bucketOp 0 (ownedInsert "a" "42") bucket
  let second := bucketOp 0 (ownedInsert "b" "42") bucket
  refine ⟨_, rfl, ?_, ?_, ?_⟩
  · unfold LsnsIncrease
    decide
  · intro h
    obtain ⟨wall, hget⟩ := h first (by decide)
    have hop : Option.map Oplog.StoredOp.op _ = some first :=
      congrArg (Option.map Oplog.StoredOp.op) hget
    exact absurd hop (by decide)
  · intro h
    have hsent := h [[first]] [[second]] (by decide) first (by decide) second (by decide)
    exact absurd hsent (by decide)

end Server

end EntitySync.Router
