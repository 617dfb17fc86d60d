import EntitySync.Gateway.Delivery

/-!
# Acknowledgements and skipped ops

An `Ack` carries one LSN and raises the last seen LSN of every tracked bucket to it, although the
LSN was reached in one bucket only. An op of another bucket that was not scanned yet and lies at
or below that LSN is then jumped over.
-/

namespace EntitySync.Gateway.Delivery

open Oplog (Partitions StoredOp)
open StepSystem

/-- Every op of an authorized bucket above the start LSN and up to the last seen LSN has been
sent. -/
def NothingSkipped (resumeLsn : Option PgLsn) (s : Delivery) : Prop :=
  ∀ b ∈ s.session.authorizedBuckets, ∀ l stored m, (s.log b)[l]? = some stored →
    (∀ r, resumeLsn = some r → r < l) → s.session.lastSeenLsn.lookup b = some m → l ≤ m →
    rewire (s.session.wireBucketId b) stored.op ∈ s.sentOps b

/-- An acknowledged LSN leaves no logged op of any tracked bucket between its last seen LSN and
itself, and an op the client is owed is appended above the last seen LSN of its bucket. -/
def Skipless (resumeLsn : Option PgLsn) (s : Delivery) : DeliveryAction → Prop
  | .append _ b op => ∀ m, s.session.lastSeenLsn.lookup b = some m →
      (∀ r, resumeLsn = some r → r < op.lsn) → m < op.lsn
  | .receive (.ack lsn) => ∀ b m, s.session.lastSeenLsn.lookup b = some m →
      ∀ l stored, (s.log b)[l]? = some stored → m < l → lsn < l
  | _ => True

private structure Covering (resumeLsn : Option PgLsn) (s : Delivery) : Prop where
  tracked : Tracked s
  resumed : ∀ r, resumeLsn = some r → ∀ b ∈ s.session.authorizedBuckets,
    ∃ m, s.session.lastSeenLsn.lookup b = some m ∧ r ≤ m
  logged : ∀ b, ∀ op ∈ s.sentOps b, ∃ stored, (s.log b)[op.lsn]? = some stored
  complete : NothingSkipped resumeLsn s

private theorem covering_start {log : Partitions} (hlog : WellKeyed log)
    (assignments : List BucketAssignment) (requested : List String) {resumeLsn : Option PgLsn}
    (hresume : ∀ r ∈ resumeLsn, r < PgLsn.max) :
    Covering resumeLsn (start log assignments requested resumeLsn) := by
  have hlookup (b : BucketId)
      (hb : b ∈ (handshake assignments requested resumeLsn).authorizedBuckets) :
      (start log assignments requested resumeLsn).session.lastSeenLsn.lookup b = resumeLsn := by
    change (handshake assignments requested resumeLsn).lastSeenLsn.lookup b = resumeLsn
    rw [lookup_lastSeen_handshake, if_pos hb]
  refine ⟨tracked_start hlog assignments requested hresume, ?_, ?_, ?_⟩
  · intro r hr b hb
    exact ⟨r, (hlookup b hb).trans hr, UInt64.le_refl _⟩
  · intro b op hop
    cases hop
  · intro b hb l stored m _ habove hm hle
    have hlt := habove m ((hlookup b hb).symm.trans hm)
    exact absurd (UInt64.lt_of_lt_of_le hlt hle) (UInt64.lt_irrefl _)

private theorem Covering.append_iff {resumeLsn : Option PgLsn} {s : Delivery}
    (h : Covering resumeLsn s) (wall : UInt64) (c : BucketId) {op : BucketOp}
    (hlast : ∀ e ∈ (s.log c).toList, e.1 < op.lsn) :
    NothingSkipped resumeLsn { s with log := s.log.append wall c op.lsn op } ↔
      s.Skipless resumeLsn (.append wall c op) := by
  constructor
  · intro hskip m hm howed
    apply UInt64.not_le.mp
    intro hle
    have hget : (s.log.append wall c op.lsn op c)[op.lsn]? = some ⟨op, wall⟩ := by
      rw [Partitions.getElem?_append, if_pos ⟨rfl, rfl⟩]
    have hsent := hskip c (h.tracked.authorized c m hm) op.lsn ⟨op, wall⟩ m hget howed hm hle
    -- a sent op was logged before, hence below the appended one
    obtain ⟨stored, hold⟩ := h.logged c _ hsent
    have hlt := hlast (op.lsn, stored) (Std.TreeMap.mem_toList_iff_getElem?_eq_some.mpr hold)
    exact UInt64.lt_irrefl _ hlt
  · intro hskip b hb l stored m hget howed hm hle
    change (s.log.append wall c op.lsn op b)[l]? = some stored at hget
    rw [Partitions.getElem?_append] at hget
    split at hget
    next heq =>
      rw [heq.1] at hm
      have hlt := hskip m hm (heq.2 ▸ howed)
      rw [heq.2] at hle
      exact absurd (UInt64.lt_of_lt_of_le hlt hle) (UInt64.lt_irrefl _)
    next => exact h.complete b hb l stored m hget howed hm hle

private theorem Covering.ack_iff {resumeLsn : Option PgLsn} {s : Delivery}
    (h : Covering resumeLsn s) (lsn : PgLsn) :
    NothingSkipped resumeLsn { s with session := s.session.ack lsn } ↔
      s.Skipless resumeLsn (.receive (.ack lsn)) := by
  constructor
  · intro hskip b m hm l stored hget hlt
    apply UInt64.not_le.mp
    intro hle
    have hraised : (s.session.ack lsn).lastSeenLsn.lookup b = some lsn := by
      rw [Session.lookup_ack, hm, Option.map_some, if_pos (UInt64.lt_of_lt_of_le hlt hle)]
    have howed (r : PgLsn) (hr : resumeLsn = some r) : r < l := by
      obtain ⟨m', hm', hle'⟩ := h.resumed r hr b (h.tracked.authorized b m hm)
      rw [hm, Option.some.injEq] at hm'
      exact UInt64.lt_of_le_of_lt (hm' ▸ hle') hlt
    have hsent := hskip b (h.tracked.authorized b m hm) l stored lsn hget howed hraised hle
    obtain ⟨m', hm', hle'⟩ := h.tracked.seen b _ hsent
    rw [hm, Option.some.injEq] at hm'
    rw [rewire_lsn, (h.tracked.keyed b l stored hget).1, ← hm'] at hle'
    exact UInt64.lt_irrefl _ (UInt64.lt_of_lt_of_le hlt hle')
  · intro hskip b hb l stored m' hget howed hm' hle
    obtain ⟨m, hm, hle'⟩ := Session.seen_before_ack hm' hle
      fun m hm hlt => hskip b m hm l stored hget hlt
    exact h.complete b hb l stored m hget howed hm hle'

private theorem Covering.scan {resumeLsn : Option PgLsn} {s t : Delivery}
    (h : Covering resumeLsn s) (hstep : s.step .scan = some t) : Covering resumeLsn t := by
  have htracked : Tracked t := h.tracked.step (a := .scan) trivial hstep
  obtain ⟨c, rest, _, hlog, _, hscan⟩ := scan_cases h.tracked.keyed hstep
  refine ⟨htracked, ?_, ?_, ?_⟩
  · intro r hr b hb
    exact hscan.lookup_mono h.tracked (h.resumed r hr b (hscan.authorized ▸ hb))
  · intro b op hop
    rw [hlog]
    cases hscan with
    | idle _ _ hsent =>
      rw [sentOps, hsent] at hop
      exact h.logged b op hop
    | delta new _ _ _ hsent =>
      rw [sentOps_of_delta hsent, List.mem_append] at hop
      cases hop with
      | inl hold => exact h.logged b op hold
      | inr hnew =>
        by_cases hcb : c = b
        · rw [if_pos hcb, deltaOps] at hnew
          obtain ⟨drained, hmem, rfl⟩ := List.mem_map.mp hnew
          obtain ⟨_, stored, hget, _⟩ := h.tracked.keyed.mem_drainSince.mp hmem
          exact ⟨stored, hcb ▸ hget⟩
        · rw [if_neg hcb] at hnew
          cases hnew
  · intro b hb l stored m hget howed hm hle
    rw [hlog] at hget
    rw [hscan.wire]
    cases hscan.sent_or_seen h.tracked hget hm hle with
    | inl hsent => exact hsent
    | inr hseen =>
      obtain ⟨old, hold, hle'⟩ := hseen
      exact hscan.sent_mono
        (h.complete b (hscan.authorized ▸ hb) l stored old hget howed hold hle')

private theorem Covering.step_iff {resumeLsn : Option PgLsn} {s t : Delivery}
    {a : DeliveryAction} (h : Covering resumeLsn s) (ha : s.Faithful a)
    (hstep : s.step a = some t) :
    NothingSkipped resumeLsn t ↔ s.Skipless resumeLsn a := by
  cases a with
  | append wall c op =>
    cases hstep
    exact h.append_iff wall c ha.2
  | compact cutoff => exact absurd ha id
  | startPoll order =>
    rw [Delivery.step] at hstep
    split at hstep
    next =>
      cases hstep
      exact iff_of_true h.complete trivial
    next => cases hstep
  | scan => exact iff_of_true (h.scan hstep).complete trivial
  | receive msg =>
    rw [Delivery.step] at hstep
    split at hstep
    next =>
      cases hstep
      cases msg with
      | ack lsn => exact h.ack_iff lsn
      | write entityType entityId op => exact iff_of_true h.complete trivial
      | ping => exact iff_of_true h.complete trivial
      | subscribe buckets token resumeLsn version => exact iff_of_true h.complete trivial
    next => cases hstep

private theorem Covering.step {resumeLsn : Option PgLsn} {s t : Delivery} {a : DeliveryAction}
    (h : Covering resumeLsn s) (ha : s.Faithful a) (hstep : s.step a = some t)
    (hcomplete : NothingSkipped resumeLsn t) : Covering resumeLsn t := by
  have htracked : Tracked t := h.tracked.step (h.tracked.bounded_of_faithful ha) hstep
  cases a with
  | append wall c op =>
    cases hstep
    refine ⟨htracked, h.resumed, ?_, hcomplete⟩
    intro b x hx
    exact Partitions.exists_append (h.logged b x hx) wall c op.lsn op
  | compact cutoff => exact absurd ha id
  | startPoll order =>
    rw [Delivery.step] at hstep
    split at hstep
    next =>
      cases hstep
      exact ⟨htracked, h.resumed, h.logged, hcomplete⟩
    next => cases hstep
  | scan => exact h.scan hstep
  | receive msg =>
    rw [Delivery.step] at hstep
    split at hstep
    next =>
      cases hstep
      refine ⟨htracked, ?_, h.logged, hcomplete⟩
      intro r hr b hb
      have hauth : b ∈ s.session.authorizedBuckets :=
        s.session.authorizedBuckets_handleClientMessage msg ▸ hb
      obtain ⟨m, hm, hle⟩ := h.resumed r hr b hauth
      obtain ⟨m', hm', hle'⟩ := Session.lookup_handleClientMessage hm
      exact ⟨m', hm', UInt64.le_trans hle hle'⟩
    next => cases hstep

/-- In a run where the router appends in LSN order and the client acknowledges what it received,
no op is ever skipped exactly when every acknowledgement and every append is skipless. -/
theorem nothingSkipped_iff {log : Partitions} (hlog : WellKeyed log)
    (assignments : List BucketAssignment) (requested : List String) {resumeLsn : Option PgLsn}
    (hresume : ∀ r ∈ resumeLsn, r < PgLsn.max) {actions : List DeliveryAction}
    (hfaithful : Meets step Faithful (start log assignments requested resumeLsn) actions) :
    Always step (NothingSkipped resumeLsn) (start log assignments requested resumeLsn) actions ↔
      Meets step (fun s => s.Skipless resumeLsn) (start log assignments requested resumeLsn)
        actions :=
  always_iff_meets (fun _ hs => hs.complete)
    (fun _ _ _ hs ha hstep => hs.step_iff ha hstep)
    (fun _ _ _ hs ha hstep hcomplete => hs.step ha hstep hcomplete) hfaithful
    (covering_start hlog assignments requested hresume)

private def leftBucket : BucketId := ⟨"left:"⟩

private def rightBucket : BucketId := ⟨"right:"⟩

private def resumedPair : Delivery :=
  start Partitions.empty [⟨leftBucket, "left", ∅, ∅⟩, ⟨rightBucket, "right", ∅, ∅⟩]
    ["left", "right"] (some 0)

/-- The right bucket is scanned before op 1 reaches it and the left one after op 2 did; the client
then acknowledges the Delta it got for the left bucket. -/
private def crossBucketAck : List DeliveryAction :=
  [.startPoll [rightBucket, leftBucket], .scan,
    .append 0 rightBucket ⟨1, rightBucket, "entities", "a", .delete⟩,
    .append 0 leftBucket ⟨2, leftBucket, "entities", "b", .delete⟩, .scan, .receive (.ack 2)]

theorem nothingSkipped_iff_crossBucketAck :
    Always step (NothingSkipped (some 0)) resumedPair crossBucketAck ↔
      Meets step (fun s => s.Skipless (some 0)) resumedPair crossBucketAck :=
  nothingSkipped_iff Partitions.keyedBy_empty _ _ (by decide) (by decide)

def appendLsns (actions : List DeliveryAction) : List PgLsn :=
  actions.filterMap fun a =>
    match a with
    | .append _ _ op => some op.lsn
    | _ => none

/-- The acknowledgement of LSN 2 jumps over op 1 of the right bucket. -/
theorem ack_skips_other_bucket : Meets step Faithful resumedPair crossBucketAck ∧
    (appendLsns crossBucketAck).Pairwise (· < ·) ∧
    ∃ s, run step resumedPair crossBucketAck = some s ∧ ¬NothingSkipped (some 0) s := by
  refine ⟨by decide, by decide, _, rfl, ?_⟩
  intro h
  have hsent := h rightBucket (by decide) 1 ⟨⟨1, rightBucket, "entities", "a", .delete⟩, 0⟩ 2
    (by decide) (by decide) (by decide) (by decide)
  exact absurd hsent (by decide)

end EntitySync.Gateway.Delivery
