import EntitySync.Client.Lifecycle
import EntitySync.Gateway.Delivery

/-!
# Deltas over the sockets of a client

What the lifecycle of the client assumes of a connection: the gateway session behind a socket sends
no op of a partition twice, and none at or below the LSN that the socket's `Subscribe` resumed from.
-/

namespace EntitySync.System

open Client (Lifecycle)
open Gateway (Delivery DeliveryAction deltaOps)
open Gateway.Delivery (Tracked WellKeyed tracked_start scan_cases sentOps_of_delta)
open Oplog (Partitions)
open StepSystem

def toDelta (frame : BucketId × ServerMessage) : Option Client.Delta :=
  match frame.2 with
  | .delta _ ops lsn => some ⟨frame.1, ops.map (·.lsn), lsn⟩
  | _ => none

def sentEntries (s : Delivery) : List (BucketId × PgLsn) :=
  (s.sent.filterMap toDelta).flatMap (·.entries)

/-- All cursors start at the resume LSN, and no op at or below it is sent. -/
structure Above (resumeLsn : Option PgLsn) (s : Delivery) : Prop where
  tracked : Tracked s
  cursors : ∀ r ∈ resumeLsn, ∀ b ∈ s.session.authorizedBuckets,
    ∃ m, s.session.lastSeenLsn.lookup b = some m ∧ r ≤ m
  sent : ∀ b, ∀ op ∈ s.sentOps b, ∀ r ∈ resumeLsn, r < op.lsn

theorem above_start {log : Partitions} (hlog : WellKeyed log) (assignments : List BucketAssignment)
    (requested : List String) {resumeLsn : Option PgLsn}
    (hresume : ∀ r ∈ resumeLsn, r < PgLsn.max) :
    Above resumeLsn (.start log assignments requested resumeLsn) := by
  refine ⟨tracked_start hlog assignments requested hresume, ?_, ?_⟩
  · intro r hr b hb
    refine ⟨r, ?_, UInt64.le_refl _⟩
    exact (Gateway.lookup_lastSeen_handshake ..).trans ((if_pos hb).trans hr)
  · intro b op hop
    cases hop

variable {resumeLsn : Option PgLsn} {s t : Delivery}

theorem Above.scan (h : Above resumeLsn s) (htracked : Tracked t)
    (hstep : s.step .scan = some t) : Above resumeLsn t := by
  obtain ⟨b, rest, hscanning, _, _, hscanned⟩ := scan_cases h.tracked.keyed hstep
  refine ⟨htracked, ?_, ?_⟩
  · intro r hr c hc
    exact hscanned.lookup_mono h.tracked (h.cursors r hr c (hscanned.authorized ▸ hc))
  · intro c op hop r hr
    cases hscanned with
    | idle _ _ hsent =>
      rw [Delivery.sentOps, hsent] at hop
      exact h.sent c op hop r hr
    | delta m _ _ _ hsent =>
      rw [sentOps_of_delta hsent, List.mem_append] at hop
      rcases hop with hold | hnew
      · exact h.sent c op hold r hr
      · split at hnew
        next hbc =>
          subst hbc
          obtain ⟨new, hmem, rfl⟩ := List.mem_map.mp hnew
          have hfrom := (h.tracked.keyed.mem_drainSince.mp hmem).1
          have hb := h.tracked.scanning b (hscanning ▸ List.mem_cons_self)
          obtain ⟨old, hold, hle⟩ := h.cursors r hr b hb
          have hlt := (Gateway.Session.scanFrom_le_iff (h.tracked.bounded b)).mp hfrom old hold
          exact UInt64.lt_of_le_of_lt hle hlt
        next => cases hnew

theorem Above.step (h : Above resumeLsn s) {a : DeliveryAction} (ha : s.Bounded a)
    (hstep : s.step a = some t) : Above resumeLsn t := by
  have htracked := h.tracked.step ha hstep
  cases a with
  | append wall b op =>
    cases hstep
    exact ⟨htracked, h.cursors, h.sent⟩
  | compact cutoff =>
    cases hstep
    exact ⟨htracked, h.cursors, h.sent⟩
  | startPoll order =>
    rw [Delivery.step] at hstep
    split at hstep <;> cases hstep
    exact ⟨htracked, h.cursors, h.sent⟩
  | scan => exact h.scan htracked hstep
  | receive msg =>
    rw [Delivery.step] at hstep
    split at hstep <;> cases hstep
    refine ⟨htracked, ?_, h.sent⟩
    intro r hr b hb
    rw [Gateway.Session.authorizedBuckets_handleClientMessage] at hb
    obtain ⟨m, hm, hle⟩ := h.cursors r hr b hb
    have hraised : ∃ m', (s.session.handleClientMessage msg).lastSeenLsn.lookup b = some m' ∧
        m ≤ m' := Gateway.Session.lookup_handleClientMessage hm
    obtain ⟨m', hm', hle'⟩ := hraised
    exact ⟨m', hm', UInt64.le_trans hle hle'⟩

theorem filter_sentEntries (s : Delivery) (b : BucketId) :
    (sentEntries s).filter (·.1 = b) = (s.sentOps b).map fun op => (b, op.lsn) := by
  have hframe (frame : BucketId × ServerMessage) :
      (((toDelta frame).toList.flatMap (·.entries)).filter (·.1 = b)) =
        (if frame.1 = b then deltaOps frame.2 else []).map fun op => (b, op.lsn) := by
    obtain ⟨c, msg⟩ := frame
    cases msg with
    | delta wire ops lsn =>
      by_cases hc : c = b
      · simp [toDelta, Client.Delta.entries, deltaOps, hc, Function.comp_def]
      · simp [toDelta, Client.Delta.entries, hc, Function.comp_def]
    | _ => simp [toDelta, deltaOps]
  unfold sentEntries Delivery.sentOps
  induction s.sent with
  | nil => rfl
  | cons frame frames ih =>
    rw [List.flatMap_cons, List.map_append, ← ih, ← hframe]
    cases hdelta : toDelta frame with
    | none => simp [hdelta]
    | some delta => simp [hdelta, List.filter_append]

theorem nodup_of_filter {α β : Type} [DecidableEq α] [DecidableEq β] {l : List (α × β)}
    (h : ∀ a, (l.filter (·.1 = a)).Nodup) : l.Nodup := by
  rw [List.nodup_iff_count_le_one]
  intro e
  have hcount := List.nodup_iff_count_le_one.mp (h e.1) e
  rwa [List.count_filter (by simp)] at hcount

theorem nodup_sentEntries (h : Tracked s) : (sentEntries s).Nodup := by
  refine nodup_of_filter fun b => ?_
  rw [filter_sentEntries]
  refine (List.pairwise_map.mpr ((h.increasing b).imp ?_) : List.Nodup _)
  intro x y hlt heq
  rw [Prod.mk.injEq] at heq
  exact UInt64.lt_irrefl _ (heq.2 ▸ hlt)

theorem Above.lt_of_mem (h : Above resumeLsn s) {e : BucketId × PgLsn} (he : e ∈ sentEntries s)
    {r : PgLsn} (hr : r ∈ resumeLsn) : r < e.2 := by
  have hmem : e ∈ (sentEntries s).filter (·.1 = e.1) := List.mem_filter.mpr ⟨he, by simp⟩
  rw [filter_sentEntries] at hmem
  obtain ⟨op, hop, heq⟩ := List.mem_map.mp hmem
  rw [← heq]
  exact h.sent _ op hop r hr

/-- If the frames over a socket are the first frames that a gateway session with the socket's resume
LSN sends, then the connection serves them as the lifecycle assumes. -/
theorem serves_of_session {client : Lifecycle} {i : Nat} {delta : Client.Delta} {log : Partitions}
    (hlog : WellKeyed log) {assignments : List BucketAssignment} {requested : List String}
    (hresume : ∀ r ∈ resumeLsn, r < PgLsn.max) {actions : List DeliveryAction}
    (hbounded : Meets Delivery.step Delivery.Bounded
      (.start log assignments requested resumeLsn) actions)
    (hrun : run Delivery.step (.start log assignments requested resumeLsn) actions = some s)
    (hsubscribed : client.subscribed i = some resumeLsn)
    (hframes : (client.dispatched.filter (·.1 = i)).map (·.2) ++ [delta] <+:
      s.sent.filterMap toDelta) :
    client.Serves (.message i delta) := by
  have habove : Above resumeLsn s := hbounded.invariant
    (fun _ _ _ hI hG hstep => hI.step hG hstep)
    (above_start hlog assignments requested hresume) hrun
  obtain ⟨rest, hrest⟩ := hframes
  have hentries : sentEntries s =
      client.entriesOver i ++ delta.entries ++ rest.flatMap (·.entries) := by
    rw [sentEntries, ← hrest]
    simp [Lifecycle.entriesOver, List.flatMap_map]
  constructor
  · have hnodup := nodup_sentEntries habove.tracked
    rw [hentries] at hnodup
    exact (List.nodup_append'.mp hnodup).1
  · intro r hr lsn hlsn op hop
    rw [hsubscribed] at hr
    cases hr
    refine habove.lt_of_mem (e := (delta.partition, op)) ?_ hlsn
    rw [hentries]
    exact List.mem_append_left _ (List.mem_append_right _ (List.mem_map_of_mem hop))

end EntitySync.System
