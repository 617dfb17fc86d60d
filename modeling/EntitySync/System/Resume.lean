import EntitySync.Gateway.Delivery
import EntitySync.Router.Router

/-!
# Resuming across the assignment cache

The router consults the assignments that are cached and unexpired when it routes a change, while
a client that resumes trusts the log to hold every change of its bucket. The two agree only as
long as the bucket's assignment is live whenever one of its changes is routed. The client's
acknowledgements matter as well: one raises the last seen LSN of every bucket of the session.
-/

namespace EntitySync.System

open Gateway (Delivery Session rewire)
open Gateway.Delivery (WellKeyed Tracked)
open Oplog (Partitions)
open Router (InProcessBroker EntityChange EventEnvelope routedOps appendAll bucketOp)
open Rules (BucketAssigner Instant Database)
open StepSystem

/-- The server with one client session: `processed` lists the routed events in order, and
`resumed` is the resume LSN of the current session. -/
structure Pipeline where
  assigner : BucketAssigner
  now : Instant
  broker : InProcessBroker
  processed : List EventEnvelope
  resumed : Option PgLsn
  delivery : Delivery

inductive PipelineAction where
  | assign (unixSecs : Nat) (db : String → Database) (claims : TokenClaims)
  | tick (elapsed : Nat)
  | sweep
  | commit (payload : Option EntityChange)
  | route (wall : UInt64)
  | subscribe (unixSecs : Nat) (db : String → Database) (claims : TokenClaims)
      (requested : List String) (resumeLsn : Option PgLsn)
  | startPoll (order : List BucketId)
  | scan
  | receive (msg : ClientMessage)

namespace Pipeline

def init (assigner : BucketAssigner) (now : Instant) : Pipeline where
  assigner := assigner
  now := now
  broker := .new
  processed := []
  resumed := none
  delivery := .start Partitions.empty [] [] none

/-- A subscription resolves the assignments of its token and replaces the session; a refused one
leaves everything as it was. -/
def step (s : Pipeline) : PipelineAction → Option Pipeline
  | .assign unixSecs db claims =>
    some { s with assigner := (s.assigner.assign ⟨unixSecs, s.now⟩ db claims).2 }
  | .tick elapsed => some { s with now := s.now + elapsed }
  | .sweep => some { s with assigner := (s.assigner.sweepExpiredEntries s.now).2 }
  | .commit payload => some { s with broker := s.broker.publish payload }
  | .route wall =>
    match s.broker.queue with
    | [] => none
    | envelope :: queue =>
      some { s with
        broker := { s.broker with queue := queue }
        processed := s.processed ++ [envelope]
        delivery := { s.delivery with
          log := appendAll wall s.delivery.log (routedOps s.assigner s.now envelope) } }
  | .subscribe unixSecs db claims requested resumeLsn =>
    match s.assigner.assign ⟨unixSecs, s.now⟩ db claims with
    | (.error _, assigner) => some { s with assigner := assigner }
    | (.ok assignments, assigner) =>
      some { s with
        assigner := assigner
        resumed := resumeLsn
        delivery := .start s.delivery.log assignments requested resumeLsn }
  | .startPoll order =>
    (s.delivery.step (.startPoll order)).map fun delivery => { s with delivery := delivery }
  | .scan => (s.delivery.step .scan).map fun delivery => { s with delivery := delivery }
  | .receive msg =>
    (s.delivery.step (.receive msg)).map fun delivery => { s with delivery := delivery }

/-- The Deltas of the session hold an op for every routed change above `lsn` that the data query
of bucket `b` selects. -/
def ReceivedAll (selects : EntityChange → Prop) (b : BucketId) (lsn : PgLsn) (s : Pipeline) :
    Prop :=
  ∀ e ∈ s.processed, ∀ change, e.payload = some change → selects change → lsn < e.offset →
    rewire (s.delivery.session.wireBucketId b) (bucketOp e.offset change b) ∈
      s.delivery.sentOps b

/-- When a change that the bucket's data query selects is routed, the bucket's assignment is
cached, unexpired and matched by the row; offsets and resume LSNs stay below `u64::MAX`. An
acknowledged LSN is one of a Delta that the session was sent, and no logged op of the bucket lies
between its last seen LSN and the acknowledged one. -/
def KeepsLive (selects : EntityChange → Prop) (b : BucketId) (s : Pipeline) :
    PipelineAction → Prop
  | .commit _ => s.broker.nextOffset < PgLsn.max
  | .route _ => ∀ change ∈ s.broker.queue.head?.bind EventEnvelope.payload, selects change →
      ∃ a ∈ s.assigner.liveAssignments s.now, a.bucketId = b ∧
        change.entityType ∈ a.dataQueries ∧ Rules.rowMatchesAssignment change.data a = true
  | .subscribe _ _ _ _ resumeLsn => ∀ lsn ∈ resumeLsn, lsn < PgLsn.max
  | .receive (.ack lsn) => s.delivery.DeltaSent lsn ∧
      ∀ m ∈ s.delivery.session.lastSeenLsn.lookup b, ∀ e ∈ (s.delivery.log b).toList,
        m < e.1 → lsn < e.1
  | _ => True

instance (selects : EntityChange → Prop) [DecidablePred selects] (b : BucketId) (s : Pipeline)
    (a : PipelineAction) : Decidable (s.KeepsLive selects b a) :=
  match a with
  | .commit _ => inferInstanceAs (Decidable (_ < _))
  | .route _ => inferInstanceAs (Decidable (∀ _ ∈ (_ : Option EntityChange), _ → _))
  | .subscribe _ _ _ _ resumeLsn => inferInstanceAs (Decidable (∀ _ ∈ resumeLsn, _))
  | .receive (.ack _) =>
    inferInstanceAs (Decidable (_ ∧ ∀ _ ∈ (_ : Option PgLsn), ∀ _ ∈ (_ : List _), _ → _))
  | .assign _ _ _ | .tick _ | .sweep | .startPoll _ | .scan | .receive (.write _ _ _)
  | .receive .ping | .receive (.subscribe _ _ _ _) => inferInstanceAs (Decidable True)

/-- Every routed change that the bucket selects is in its log, and the session has sent what lies
between its resume LSN and its last seen LSN. -/
private structure Logged (selects : EntityChange → Prop) (b : BucketId) (s : Pipeline) :
    Prop where
  broker : s.broker.Ordered fun l => ∃ e ∈ s.processed, e.offset = l
  tracked : s.delivery.Tracked
  keys : ∀ c l stored, (s.delivery.log c)[l]? = some stored → ∃ e ∈ s.processed, e.offset = l
  logged : ∀ e ∈ s.processed, ∀ change, e.payload = some change → selects change →
    ∃ wall, (s.delivery.log b)[e.offset]? = some ⟨bucketOp e.offset change b, wall⟩
  deltas : ∀ m, s.delivery.DeltaSent m → ∃ e ∈ s.processed, e.offset = m
  anchored : ∀ m, s.delivery.session.lastSeenLsn.lookup b = some m →
    s.resumed = some m ∨ ∃ e ∈ s.processed, e.offset = m
  sent : ∀ r, s.resumed = some r → ∀ l stored m, (s.delivery.log b)[l]? = some stored → r < l →
    s.delivery.session.lastSeenLsn.lookup b = some m → l ≤ m →
    rewire (s.delivery.session.wireBucketId b) stored.op ∈ s.delivery.sentOps b

private theorem logged_init (selects : EntityChange → Prop) (b : BucketId)
    (assigner : BucketAssigner) (now : Instant) : Logged selects b (init assigner now) := by
  refine ⟨InProcessBroker.ordered_new (by simp [init]),
    Gateway.Delivery.tracked_start Partitions.keyedBy_empty [] [] (by simp), ?_, ?_, ?_, ?_,
    ?_⟩
  · intro c l stored hget
    simp [init, Gateway.Delivery.start, Partitions.empty] at hget
  · intro e he
    cases he
  · rintro m ⟨frame, hframe, _⟩
    cases hframe
  · intro m hm
    cases hm
  · intro r hr
    cases hr

private theorem tracked_appendAll {d : Delivery} (h : d.Tracked) (wall : UInt64)
    {ops : List BucketOp} (hops : ∀ op ∈ ops, op.lsn < PgLsn.max) :
    { d with log := appendAll wall d.log ops }.Tracked := by
  induction ops generalizing d with
  | nil => exact h
  | cons op ops ih =>
    have hnext := h.step (a := .append wall op.bucketId op) (hops op List.mem_cons_self) rfl
    exact ih hnext fun x hx => hops x (List.mem_cons_of_mem _ hx)

section
variable {selects : EntityChange → Prop} {b : BucketId} {s t : Pipeline}

private theorem Logged.route (h : Logged selects b s) {wall : UInt64}
    (hlive : s.KeepsLive selects b (.route wall)) {envelope : EventEnvelope}
    {queue : List EventEnvelope} (hqueue : s.broker.queue = envelope :: queue) :
    Logged selects b { s with
      broker := { s.broker with queue := queue }
      processed := s.processed ++ [envelope]
      delivery := { s.delivery with
        log := appendAll wall s.delivery.log (routedOps s.assigner s.now envelope) } } := by
  have hbelow (e : EventEnvelope) (he : e ∈ s.processed) : e.offset < envelope.offset :=
    h.broker.lt_head hqueue ⟨e, he, rfl⟩
  have hother (c : BucketId) (l : PgLsn) (hl : l ≠ envelope.offset) :
      (appendAll wall s.delivery.log (routedOps s.assigner s.now envelope) c)[l]? =
        (s.delivery.log c)[l]? := Router.getElem?_appendAll_of_ne_offset hl
  have hold (l : PgLsn) (hl : ∃ e ∈ s.processed, e.offset = l) :
      ∃ e ∈ s.processed ++ [envelope], e.offset = l := by
    obtain ⟨e, he, heq⟩ := hl
    exact ⟨e, List.mem_append_left _ he, heq⟩
  refine ⟨(h.broker.route hqueue).mono ?_, tracked_appendAll h.tracked wall ?_, ?_, ?_,
    fun m hm => hold m (h.deltas m hm), ?_, ?_⟩
  · intro l hl
    obtain ⟨e, he, heq⟩ := hl
    cases List.mem_append.mp he with
    | inl hmem => exact Or.inl ⟨e, hmem, heq⟩
    | inr hmem => exact Or.inr (List.mem_singleton.mp hmem ▸ heq.symm)
  · intro op hop
    rw [Router.lsn_of_mem_routedOps hop]
    exact h.broker.head_lt_max hqueue
  · intro c l stored hget
    by_cases hl : l = envelope.offset
    · exact ⟨envelope, List.mem_append_right _ List.mem_cons_self, hl.symm⟩
    · exact hold l (h.keys c l stored ((hother c l hl).symm.trans hget))
  · intro e he change hpayload hselects
    cases List.mem_append.mp he with
    | inl hmem =>
      obtain ⟨old, hget⟩ := h.logged e hmem change hpayload hselects
      exact ⟨old, (hother b _ (UInt64.ne_of_lt (hbelow e hmem))).trans hget⟩
    | inr hmem =>
      cases List.mem_singleton.mp hmem
      have hhead : s.broker.queue.head?.bind EventEnvelope.payload = some change := by
        rw [hqueue]
        exact hpayload
      obtain ⟨a, ha, hid, htype, hmatch⟩ := hlive change hhead hselects
      have hmem : b ∈ s.assigner.findAffectedBuckets s.now change.entityType change.data :=
        BucketAssigner.mem_findAffectedBuckets.mpr ⟨a, ha, htype, hmatch, hid⟩
      have hop : bucketOp envelope.offset change b ∈ routedOps s.assigner s.now envelope :=
        Router.mem_routedOps.mpr ⟨change, hpayload, hmem, rfl⟩
      exact ⟨wall, Router.getElem?_appendAll_of_routed hop⟩
  · intro m hm
    cases h.anchored m hm with
    | inl hr => exact Or.inl hr
    | inr hex => exact Or.inr (hold m hex)
  · intro r hr l stored m hget hlt hm hle
    by_cases hl : l = envelope.offset
    · -- the new op lies above the last seen LSN, which is an older offset or the resume LSN
      have hm' : m < l := by
        cases h.anchored m hm with
        | inl hresumed =>
          rw [show s.resumed = some r from hr, Option.some.injEq] at hresumed
          exact hresumed ▸ hlt
        | inr hex =>
          obtain ⟨e, he, heq⟩ := hex
          exact hl ▸ heq ▸ hbelow e he
      exact absurd (UInt64.lt_of_lt_of_le hm' hle) (UInt64.lt_irrefl _)
    · exact h.sent r hr l stored m ((hother b l hl).symm.trans hget) hlt hm hle

private theorem Logged.subscribe (h : Logged selects b s) (assigner : BucketAssigner)
    (assignments : List BucketAssignment) (requested : List String) {resumeLsn : Option PgLsn}
    (hresume : ∀ lsn, resumeLsn = some lsn → lsn < PgLsn.max) :
    Logged selects b { s with
      assigner := assigner
      resumed := resumeLsn
      delivery := .start s.delivery.log assignments requested resumeLsn } := by
  have hlookup (m : PgLsn)
      (hm : (Gateway.handshake assignments requested resumeLsn).lastSeenLsn.lookup b = some m) :
      resumeLsn = some m := by
    rw [Gateway.lookup_lastSeen_handshake] at hm
    split at hm
    · exact hm
    · cases hm
  refine ⟨h.broker, Gateway.Delivery.tracked_start h.tracked.keyed assignments requested hresume,
    h.keys, h.logged, ?_, fun m hm => Or.inl (hlookup m hm), ?_⟩
  · rintro m ⟨frame, hframe, _⟩
    cases hframe
  intro r hr l stored m _ hlt hm hle
  have heq := hlookup m hm
  rw [show resumeLsn = some r from hr, Option.some.injEq] at heq
  exact absurd (UInt64.lt_of_lt_of_le hlt (heq ▸ hle)) (UInt64.lt_irrefl _)

private theorem Logged.scan (h : Logged selects b s) {d : Delivery}
    (hstep : s.delivery.step .scan = some d) : Logged selects b { s with delivery := d } := by
  have htracked : d.Tracked := h.tracked.step (a := .scan) trivial hstep
  obtain ⟨c, rest, _, hlog, _, hcase⟩ := Gateway.Delivery.scan_cases h.tracked.keyed hstep
  refine ⟨h.broker, htracked, ?_, ?_, ?_, ?_, ?_⟩
  · change ∀ c l stored, (d.log c)[l]? = some stored → _
    rw [hlog]
    exact h.keys
  · change ∀ e ∈ s.processed, ∀ change, e.payload = some change → selects change →
      ∃ wall, (d.log b)[e.offset]? = some _
    rw [hlog]
    exact h.logged
  · rintro m ⟨frame, hframe, hlsn⟩
    cases hcase with
    | idle hempty hsession hsent => exact h.deltas m ⟨frame, hsent ▸ hframe, hlsn⟩
    | delta new hlast hmax hsession hsent =>
      change frame ∈ d.sent at hframe
      rw [hsent, List.mem_append] at hframe
      cases hframe with
      | inl hold => exact h.deltas m ⟨frame, hold, hlsn⟩
      | inr hnew =>
        cases List.mem_singleton.mp hnew
        cases hlsn
        obtain ⟨stored, hget, _⟩ := hlast
        exact h.keys c m stored hget
  · intro m hm
    cases hcase with
    | idle hempty hsession hsent => exact h.anchored m (hsession ▸ hm)
    | delta new hlast hmax hsession hsent =>
      change d.session.lastSeenLsn.lookup b = some m at hm
      rw [Gateway.Delivery.lookup_of_delta hsession] at hm
      by_cases hbc : b = c
      · rw [if_pos hbc, Option.some.injEq] at hm
        obtain ⟨stored, hget, _⟩ := hlast
        exact Or.inr (hm ▸ h.keys c new stored hget)
      · rw [if_neg hbc] at hm
        exact h.anchored m hm
  · intro r hr l stored m hget hlt hm hle
    change (d.log b)[l]? = some stored at hget
    rw [hlog] at hget
    change rewire (d.session.wireBucketId b) stored.op ∈ d.sentOps b
    rw [hcase.wire]
    cases hcase.sent_or_seen h.tracked hget hm hle with
    | inl hsent => exact hsent
    | inr hseen =>
      obtain ⟨old, hold, hle'⟩ := hseen
      exact hcase.sent_mono (h.sent r hr l stored old hget hlt hold hle')

private theorem Logged.receive (h : Logged selects b s) {msg : ClientMessage}
    (hmsg : s.KeepsLive selects b (.receive msg)) {d : Delivery}
    (hstep : s.delivery.step (.receive msg) = some d) :
    Logged selects b { s with delivery := d } := by
  have hbounded : s.delivery.Bounded (.receive msg) := by
    cases msg with
    | ack lsn => exact h.tracked.bounded_of_faithful (a := .receive (.ack lsn)) hmsg.1
    | write | ping | subscribe => trivial
  have htracked : d.Tracked := h.tracked.step hbounded hstep
  rw [Delivery.step] at hstep
  split at hstep
  next =>
    cases hstep
    cases msg with
    | ack lsn =>
      refine ⟨h.broker, htracked, h.keys, h.logged, h.deltas, ?_, ?_⟩
      · intro m' hm'
        obtain ⟨m, hm, rfl | rfl⟩ := Session.lookup_of_ack hm'
        · exact h.anchored m' hm
        · exact Or.inr (h.deltas m' hmsg.1)
      · intro r hr l stored m' hget hlt hm' hle
        have hmem : (l, stored) ∈ (s.delivery.log b).toList :=
          Std.TreeMap.mem_toList_iff_getElem?_eq_some.mpr hget
        obtain ⟨m, hm, hseen⟩ := Session.seen_before_ack hm' hle
          fun m hm hnew => hmsg.2 m hm (l, stored) hmem hnew
        exact h.sent r hr l stored m hget hlt hm hseen
    | write | ping | subscribe => exact { h with tracked := htracked }
  next => cases hstep

private theorem Logged.step {a : PipelineAction} (h : Logged selects b s)
    (ha : s.KeepsLive selects b a) (hstep : s.step a = some t) : Logged selects b t := by
  cases a with
  | assign | tick | sweep =>
    cases hstep
    exact { h with }
  | commit payload =>
    cases hstep
    exact { h with broker := h.broker.publish ha payload }
  | route wall =>
    rw [Pipeline.step] at hstep
    split at hstep
    · cases hstep
    next envelope queue hqueue =>
      cases hstep
      exact h.route ha hqueue
  | subscribe unixSecs db claims requested resumeLsn =>
    rw [Pipeline.step] at hstep
    split at hstep
    · cases hstep
      exact { h with }
    next assignments assigner _ =>
      cases hstep
      exact h.subscribe assigner assignments requested ha
  | startPoll order =>
    obtain ⟨d, hd, rfl⟩ := Option.map_eq_some_iff.mp hstep
    have htracked : d.Tracked := h.tracked.step (a := .startPoll order) trivial hd
    rw [Delivery.step] at hd
    split at hd
    next =>
      cases hd
      exact { h with tracked := htracked }
    next => cases hd
  | scan =>
    obtain ⟨d, hd, rfl⟩ := Option.map_eq_some_iff.mp hstep
    exact h.scan hd
  | receive msg =>
    obtain ⟨d, hd, rfl⟩ := Option.map_eq_some_iff.mp hstep
    exact h.receive ha hd

end

private def ownedBy42 (change : EntityChange) : Prop :=
  change.data.get "owner_id" = some (.string "42")

private instance : DecidablePred ownedBy42 := fun _ => inferInstanceAs (Decidable (_ = _))

private def bucket42 : BucketId := ⟨"user_entities:user_id=\"42\""⟩

/-- Alice subscribes, receives and acknowledges op 0, stays away for `pause`, and resumes from
LSN 0 after another change of theirs was routed. -/
private def resumeAfter (pause : Nat) : List PipelineAction :=
  [.subscribe 0 (Rules.answerUser "42") ⟨"alice", 100⟩ ["user_entities"] none,
    .commit (some (Router.ownedInsert "a" "42")), .route 0, .startPoll [bucket42], .scan,
    .receive (.ack 0), .tick pause, .commit (some (Router.ownedInsert "b" "42")), .route 0,
    .subscribe 0 (Rules.answerUser "42") ⟨"alice", 100⟩ ["user_entities"] (some 0),
    .startPoll [bucket42]]

end Pipeline

end EntitySync.System
