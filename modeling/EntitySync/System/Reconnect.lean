import EntitySync.Client.SyncClient
import EntitySync.Gateway.Delivery

/-!
# Reconnecting clients

One client, the gateway sessions of its successive connections, and the frames between them. The
client keeps the LSN of the last Delta it got, of whichever bucket, and a new session starts all
buckets from it. Frames arrive in the order they were sent, and a dropped connection loses those
still on their way.
-/

namespace EntitySync.System

open Client (SyncClient)
open Gateway (Delivery authorize handshake rewire deltaOps deltaLsn)
open Gateway.Delivery (Tracked)
open Json (Value)
open Oplog (Partitions)
open StepSystem

structure Link where
  client : SyncClient
  /-- The op log, and the session of the last connection with the Deltas it has sent. -/
  delivery : Delivery
  online : Bool
  /-- The frames of the initial snapshot that are still on their way; Deltas come after them. -/
  snapshot : List ServerMessage
  /-- How many of the session's Deltas have arrived. -/
  delivered : Nat
  replies : List ClientMessage
  /-- The Deltas that arrived, over all connections. -/
  received : List (BucketId × ServerMessage)
  /-- The client has received a whole snapshot. -/
  snapshotted : Bool
  /-- The ops appended after the client's first snapshot. -/
  owed : List (BucketId × BucketOp)

inductive LinkAction where
  | append (wall : UInt64) (b : BucketId) (op : BucketOp)
  | connect (token : String) (order : List BucketId)
      (reads : BucketId → List (List Value) × BucketChecksum)
  | startPoll (order : List BucketId)
  | scan
  | deliver
  | handleReply
  | drop

namespace Link

section
variable (assignments : List BucketAssignment) (buckets : List String)

def init : Link where
  client := .new buckets
  delivery := .start Partitions.empty assignments buckets none
  online := false
  snapshot := []
  delivered := 0
  replies := []
  received := []
  snapshotted := false
  owed := []

/-- A connection's first message has to be a `Subscribe`. -/
def accept (log : Partitions) : ClientMessage → Option Delivery
  | .subscribe requested _ resumeLsn _ => some (.start log assignments requested resumeLsn)
  | .ack _ | .write _ _ _ | .ping => none

def serve (s : Link) (a : Gateway.DeliveryAction) : Option Link :=
  if s.online then (s.delivery.step a).map fun delivery => { s with delivery := delivery }
  else none

/-- The client gets the next frame: first those of the snapshot, then the Deltas. -/
def receiveFrame (s : Link) : Option Link :=
  match s.snapshot with
  | frame :: rest =>
    some { s with
      client := (s.client.handleMessage frame).1
      snapshot := rest
      snapshotted := s.snapshotted || rest.isEmpty }
  | [] => s.delivery.sent[s.delivered]?.map fun frame =>
    { s with
      client := (s.client.handleMessage frame.2).1
      delivered := s.delivered + 1
      replies := s.replies ++ (s.client.handleMessage frame.2).2.toList
      received := s.received ++ [frame] }

def step (s : Link) : LinkAction → Option Link
  | .append wall b op =>
    some { s with
      delivery := { s.delivery with log := s.delivery.log.append wall b op.lsn op }
      owed := if s.snapshotted then s.owed ++ [(b, op)] else s.owed }
  | .connect token order reads =>
    if s.online then none
    else (accept assignments s.delivery.log (s.client.sendSubscribe token)).bind fun delivery =>
      if order.Perm delivery.session.freshBuckets then
        some { s with
          delivery := delivery
          online := true
          snapshot := delivery.session.deliverSnapshots order reads
          delivered := 0
          replies := [] }
      else none
  | .startPoll order => s.serve (.startPoll order)
  | .scan => s.serve .scan
  | .deliver => if s.online then s.receiveFrame else none
  | .handleReply =>
    match s.replies with
    | [] => none
    | msg :: rest => { s with replies := rest }.serve (.receive msg)
  | .drop =>
    if s.online then some { s with online := false, snapshot := [], replies := [] } else none

/-- The router appends to each bucket in increasing LSN order, and the client's numbers represent
the LSNs. -/
def Orderly (s : Link) : LinkAction → Prop
  | .append _ b op =>
    op.lsn ≤ Client.maxSafeInteger ∧ ∀ e ∈ (s.delivery.log b).toList, e.1 < op.lsn
  | _ => True

def Contains (frames : List (BucketId × ServerMessage)) (b : BucketId) (op : BucketOp) : Prop :=
  ∃ frame ∈ frames, frame.1 = b ∧
    rewire ((handshake assignments buckets none).wireBucketId b) op ∈ deltaOps frame.2

/-- The client has received every op appended to a subscribed bucket since its first snapshot. -/
def ReceivedAll (s : Link) : Prop :=
  ∀ e ∈ s.owed, e.1 ∈ authorize assignments buckets →
    Contains assignments buckets s.received e.1 e.2

/-- All frames of the connection have arrived, and the session has scanned all of the log. -/
def CaughtUp (s : Link) : Prop :=
  s.snapshot = [] ∧ s.delivered = s.delivery.sent.length ∧
    ∀ b ∈ (authorize assignments buckets).keys, ∀ e ∈ (s.delivery.log b).toList,
      ∃ m ∈ s.delivery.session.lastSeenLsn.lookup b, e.1 ≤ m

def nextAck (s : Link) : Option PgLsn :=
  match s.replies with
  | .ack lsn :: _ => some lsn
  | _ => none

/-- A connection resumes from an LSN only if no op of a subscribed bucket up to it is missing; an
acknowledgement is handled only if no op between a bucket's last seen LSN and its own is missing;
and an op is appended above the last seen LSN of its bucket. -/
def Lossless (s : Link) : LinkAction → Prop
  | .append _ b op => s.snapshotted = true →
      ∀ m ∈ s.delivery.session.lastSeenLsn.lookup b, m < op.lsn
  | .connect _ _ _ => ∀ lsn ∈ s.client.lastLsn, ∀ e ∈ s.owed, e.1 ∈ authorize assignments buckets →
      e.2.lsn ≤ lsn → Contains assignments buckets s.received e.1 e.2
  | .handleReply => ∀ lsn ∈ s.nextAck, ∀ e ∈ s.owed,
      ∀ m ∈ s.delivery.session.lastSeenLsn.lookup e.1, m < e.2.lsn → e.2.lsn ≤ lsn →
        Contains assignments buckets s.received e.1 e.2
  | .startPoll _ | .scan | .deliver | .drop => True

instance (s : Link) (a : LinkAction) : Decidable (s.Orderly a) :=
  match a with
  | .append _ _ _ => inferInstanceAs (Decidable (_ ∧ _))
  | .connect _ _ _ | .startPoll _ | .scan | .deliver | .handleReply | .drop =>
    inferInstanceAs (Decidable True)

instance (frames : List (BucketId × ServerMessage)) (b : BucketId) (op : BucketOp) :
    Decidable (Contains assignments buckets frames b op) :=
  inferInstanceAs (Decidable (∃ _ ∈ frames, _))

instance (s : Link) : Decidable (s.ReceivedAll assignments buckets) :=
  inferInstanceAs (Decidable (∀ _ ∈ s.owed, _))

instance (s : Link) : Decidable (s.CaughtUp assignments buckets) :=
  inferInstanceAs (Decidable (_ ∧ _ ∧ _))

instance (s : Link) (a : LinkAction) : Decidable (s.Lossless assignments buckets a) :=
  match a with
  | .append _ _ _ => inferInstanceAs (Decidable (_ → _))
  | .connect _ _ _ => inferInstanceAs (Decidable (∀ _ ∈ s.client.lastLsn, _))
  | .handleReply => inferInstanceAs (Decidable (∀ _ ∈ s.nextAck, _))
  | .startPoll _ | .scan | .deliver | .drop => inferInstanceAs (Decidable True)

/-- No op up to a last seen LSN is missing: it has arrived or is on its way. -/
def NothingLost (s : Link) : Prop :=
  ∀ e ∈ s.owed, ∀ m, s.delivery.session.lastSeenLsn.lookup e.1 = some m → e.2.lsn ≤ m →
    Contains assignments buckets (s.received ++ s.delivery.sent) e.1 e.2

structure Sound (s : Link) : Prop where
  subscribed : s.client.subscribedBuckets = buckets
  tracked : s.delivery.Tracked
  authorized : s.delivery.session.authorizedBuckets = authorize assignments buckets
  owedLogged : ∀ e ∈ s.owed, ∃ wall, (s.delivery.log e.1)[e.2.lsn]? = some ⟨e.2, wall⟩
  logged : ∀ frame ∈ s.received ++ s.delivery.sent, ∀ op ∈ deltaOps frame.2,
    ∃ stored, (s.delivery.log frame.1)[op.lsn]? = some stored
  deltas : ∀ frame ∈ s.delivery.sent, ∃ lsn, deltaLsn frame.2 = some lsn
  within : s.delivered ≤ s.delivery.sent.length
  delivered : ∀ frame ∈ s.delivery.sent.take s.delivered, frame ∈ s.received
  lastLsn : ∀ lsn ∈ s.client.lastLsn, lsn < PgLsn.max
  replies : ∀ msg ∈ s.replies, ∃ lsn, msg = .ack lsn ∧ lsn < PgLsn.max
  snapshot : ∀ frame ∈ s.snapshot, ∀ client : SyncClient,
    (client.handleMessage frame).1.lastLsn = client.lastLsn

variable {assignments buckets} {s t : Link}

theorem Sound.wire (h : Sound assignments buckets s) (b : BucketId) :
    s.delivery.session.wireBucketId b = (handshake assignments buckets none).wireBucketId b := by
  rw [Gateway.Session.wireBucketId, h.authorized]
  rfl

theorem contains_mono {frames frames' : List (BucketId × ServerMessage)} {b : BucketId}
    {op : BucketOp} (h : Contains assignments buckets frames b op) (hsub : frames ⊆ frames') :
    Contains assignments buckets frames' b op := by
  obtain ⟨frame, hframe, hop⟩ := h
  exact ⟨frame, hsub hframe, hop⟩

theorem lastLsn_deliverSnapshots {session : Gateway.Session} {order : List BucketId}
    {reads : BucketId → List (List Value) × BucketChecksum} {frame : ServerMessage}
    (h : frame ∈ session.deliverSnapshots order reads) (client : SyncClient) :
    (client.handleMessage frame).1.lastLsn = client.lastLsn := by
  simp only [Gateway.Session.deliverSnapshots, Gateway.snapshotFrames, List.mem_flatMap,
    List.mem_append, List.mem_cons, List.mem_map, List.not_mem_nil, or_false] at h
  obtain ⟨b, _, (rfl | ⟨batch, _, rfl⟩) | rfl⟩ := h <;> rfl

theorem handleMessage_of_delta {frame : ServerMessage} {lsn : PgLsn}
    (h : deltaLsn frame = some lsn) (client : SyncClient) :
    (client.handleMessage frame).1.lastLsn = some lsn ∧
      (client.handleMessage frame).2 = some (.ack lsn) := by
  cases frame <;> cases h
  exact ⟨rfl, rfl⟩

theorem subscribedBuckets_handleMessage (client : SyncClient) (frame : ServerMessage) :
    (client.handleMessage frame).1.subscribedBuckets = client.subscribedBuckets := by
  cases frame <;> rfl

theorem lt_max_of_le_maxSafeInteger {lsn : PgLsn} (h : lsn ≤ Client.maxSafeInteger) :
    lsn < PgLsn.max :=
  UInt64.lt_of_le_of_lt h (by decide)

theorem sound_init : Sound assignments buckets (init assignments buckets) := by
  refine ⟨rfl, Gateway.Delivery.tracked_start Partitions.keyedBy_empty _ _ (by simp), rfl,
    ?_, ?_, ?_, ?_, ?_, ?_, ?_, ?_⟩ <;> simp [init, Gateway.Delivery.start, SyncClient.new]

theorem Sound.append (h : Sound assignments buckets s) (wall : UInt64) (b : BucketId)
    {op : BucketOp} (horderly : s.Orderly (.append wall b op)) :
    Sound assignments buckets { s with
      delivery := { s.delivery with log := s.delivery.log.append wall b op.lsn op }
      owed := if s.snapshotted then s.owed ++ [(b, op)] else s.owed } := by
  have hold (e : BucketId × BucketOp) (he : e ∈ s.owed) :
      ∃ wall', (s.delivery.log.append wall b op.lsn op e.1)[e.2.lsn]? = some ⟨e.2, wall'⟩ := by
    obtain ⟨old, hget⟩ := h.owedLogged e he
    refine ⟨old, ?_⟩
    rw [Partitions.getElem?_append, if_neg, hget]
    rintro ⟨hb, hlsn⟩
    have hlt := horderly.2 (e.2.lsn, ⟨e.2, old⟩)
      (Std.TreeMap.mem_toList_iff_getElem?_eq_some.mpr (hb ▸ hget))
    exact UInt64.lt_irrefl _ (hlsn ▸ hlt)
  have htracked := h.tracked.step (a := .append wall b op)
    (lt_max_of_le_maxSafeInteger horderly.1) rfl
  refine ⟨h.subscribed, htracked, h.authorized, ?_, ?_, h.deltas, h.within, h.delivered, h.lastLsn,
    h.replies, h.snapshot⟩
  · intro e he
    by_cases hsnap : s.snapshotted = true
    · simp only [hsnap, if_true, List.mem_append, List.mem_singleton] at he
      obtain he | rfl := he
      · exact hold e he
      · exact ⟨wall, by rw [Partitions.getElem?_append, if_pos ⟨rfl, rfl⟩]⟩
    · rw [if_neg hsnap] at he
      exact hold e he
  · intro frame hframe x hx
    exact Partitions.exists_append (h.logged frame hframe x hx) wall b op.lsn op

theorem connect_cases {token : String} {order : List BucketId}
    {reads : BucketId → List (List Value) × BucketChecksum}
    (h : s.step assignments (.connect token order reads) = some t) :
    ∃ d : Delivery,
      d = .start s.delivery.log assignments s.client.subscribedBuckets s.client.lastLsn ∧
      t = { s with
        delivery := d
        online := true
        snapshot := d.session.deliverSnapshots order reads
        delivered := 0
        replies := [] } := by
  simp only [step, accept, SyncClient.sendSubscribe, Option.bind_some] at h
  split at h
  · cases h
  · split at h
    · cases h
      exact ⟨_, rfl, rfl⟩
    · cases h

theorem Sound.connect {token : String} {order : List BucketId}
    {reads : BucketId → List (List Value) × BucketChecksum} (h : Sound assignments buckets s)
    (hstep : s.step assignments (.connect token order reads) = some t) :
    Sound assignments buckets t := by
  obtain ⟨d, rfl, rfl⟩ := connect_cases hstep
  refine ⟨h.subscribed, Gateway.Delivery.tracked_start h.tracked.keyed _ _ h.lastLsn, ?_,
    h.owedLogged, ?_, ?_, Nat.zero_le _, ?_, h.lastLsn, ?_, ?_⟩
  · change authorize assignments s.client.subscribedBuckets = _
    rw [h.subscribed]
  · intro frame hframe
    apply h.logged frame
    exact List.mem_append_left _ (by simpa [Gateway.Delivery.start] using hframe)
  · simp [Gateway.Delivery.start]
  · simp
  · simp
  · intro frame hframe
    exact lastLsn_deliverSnapshots hframe

theorem Sound.quiet (h : Sound assignments buckets s) {d : Delivery} {rest : List ClientMessage}
    (htracked : d.Tracked) (hlog : d.log = s.delivery.log) (hsent : d.sent = s.delivery.sent)
    (hauth : d.session.authorizedBuckets = s.delivery.session.authorizedBuckets)
    (hrest : rest ⊆ s.replies) :
    Sound assignments buckets { s with delivery := d, replies := rest } := by
  refine ⟨h.subscribed, htracked, hauth.trans h.authorized, ?_, ?_, ?_, ?_, ?_, h.lastLsn,
    fun msg hmsg => h.replies msg (hrest hmsg), h.snapshot⟩
  · simpa [hlog] using h.owedLogged
  · simpa [hlog, hsent] using h.logged
  · simpa [hsent] using h.deltas
  · simpa [hsent] using h.within
  · simpa [hsent] using h.delivered

theorem Sound.scan (h : Sound assignments buckets s) {d : Delivery}
    (hd : s.delivery.step .scan = some d) : Sound assignments buckets { s with delivery := d } := by
  have htracked : d.Tracked := h.tracked.step (a := .scan) trivial hd
  obtain ⟨c, _, _, hlog, _, hcase⟩ := Gateway.Delivery.scan_cases h.tracked.keyed hd
  cases hcase with
  | idle hempty hsession hsent =>
    exact h.quiet htracked hlog hsent (by rw [hsession]) (List.Subset.refl _)
  | delta m hlast hmax hsession hsent =>
    refine ⟨h.subscribed, htracked, ?_, ?_, ?_, ?_, ?_, ?_, h.lastLsn, h.replies, h.snapshot⟩
    · simpa [hsession] using h.authorized
    · simpa [hlog] using h.owedLogged
    · intro frame hframe op hop
      simp only [hsent, ← List.append_assoc, List.mem_append, List.mem_singleton] at hframe
      change ∃ stored, (d.log frame.1)[op.lsn]? = some stored
      rw [hlog]
      obtain hold | rfl := hframe
      · exact h.logged frame (List.mem_append.mpr hold) op hop
      · obtain ⟨drained, hmem, rfl⟩ := List.mem_map.mp hop
        obtain ⟨_, stored, hget, _⟩ := h.tracked.keyed.mem_drainSince.mp hmem
        exact ⟨stored, hget⟩
    · intro frame hframe
      simp only [hsent, List.mem_append, List.mem_singleton] at hframe
      obtain hold | rfl := hframe
      · exact h.deltas frame hold
      · exact ⟨m, rfl⟩
    · have hwithin := h.within
      simp only [hsent, List.length_append]
      omega
    · simpa [hsent, List.take_append_of_le_length h.within] using h.delivered

theorem Sound.delta_lt_max (h : Sound assignments buckets s) {frame : BucketId × ServerMessage}
    (hframe : frame ∈ s.delivery.sent) {lsn : PgLsn} (hlsn : deltaLsn frame.2 = some lsn) :
    lsn < PgLsn.max := by
  obtain ⟨m, hm, hle⟩ := h.tracked.deltas frame hframe lsn hlsn
  exact UInt64.lt_of_le_of_lt hle (h.tracked.bounded frame.1 m hm)

theorem Sound.receiveFrame (h : Sound assignments buckets s) (hstep : s.receiveFrame = some t) :
    Sound assignments buckets t := by
  rw [Link.receiveFrame] at hstep
  split at hstep
  next frame rest hsnapshot =>
    cases hstep
    have hkeep := h.snapshot frame (by simp [hsnapshot]) s.client
    refine ⟨?_, h.tracked, h.authorized, h.owedLogged, h.logged, h.deltas, h.within, h.delivered,
      ?_, h.replies, ?_⟩
    · exact (subscribedBuckets_handleMessage _ _).trans h.subscribed
    · simpa only [hkeep] using h.lastLsn
    · intro f hf
      exact h.snapshot f (by simp [hsnapshot, hf])
  next hsnapshot =>
    obtain ⟨frame, hframe, rfl⟩ := Option.map_eq_some_iff.mp hstep
    have hmem : frame ∈ s.delivery.sent := List.mem_of_getElem? hframe
    obtain ⟨lsn, hlsn⟩ := h.deltas frame hmem
    have hclient := handleMessage_of_delta hlsn s.client
    have hmax := h.delta_lt_max hmem hlsn
    refine ⟨?_, h.tracked, h.authorized, h.owedLogged, ?_, h.deltas, ?_, ?_, ?_, ?_, h.snapshot⟩
    · exact (subscribedBuckets_handleMessage _ _).trans h.subscribed
    · intro f hf
      apply h.logged f
      simp only [List.mem_append, List.mem_singleton] at hf ⊢
      obtain (hold | rfl) | hsent := hf
      · exact Or.inl hold
      · exact Or.inr hmem
      · exact Or.inr hsent
    · exact (List.getElem?_eq_some_iff.mp hframe).1
    · intro f hf
      simp only [List.take_add_one, hframe, Option.toList_some, List.mem_append] at hf ⊢
      exact hf.imp_left (h.delivered f)
    · simp only [hclient.1, Option.mem_some_iff]
      rintro _ rfl
      exact hmax
    · intro msg hmsg
      simp only [hclient.2, Option.toList_some, List.mem_append, List.mem_singleton] at hmsg
      obtain hold | rfl := hmsg
      · exact h.replies msg hold
      · exact ⟨lsn, rfl, hmax⟩

theorem serve_cases {a : Gateway.DeliveryAction} (h : s.serve a = some t) :
    ∃ d, s.delivery.step a = some d ∧ t = { s with delivery := d } := by
  rw [serve] at h
  split at h
  · obtain ⟨d, hd, rfl⟩ := Option.map_eq_some_iff.mp h
    exact ⟨d, hd, rfl⟩
  · cases h

theorem handleReply_cases (h : Sound assignments buckets s)
    (hstep : s.step assignments .handleReply = some t) :
    ∃ lsn rest, s.replies = .ack lsn :: rest ∧ lsn < PgLsn.max ∧
      t = { s with
        delivery := { s.delivery with session := s.delivery.session.ack lsn }
        replies := rest } := by
  rw [step] at hstep
  split at hstep
  · cases hstep
  next msg rest hreplies =>
    obtain ⟨lsn, rfl, hmax⟩ := h.replies msg (by simp [hreplies])
    obtain ⟨d, hd, rfl⟩ := serve_cases hstep
    simp only [Delivery.step] at hd
    split at hd
    · cases hd
      exact ⟨lsn, rest, hreplies, hmax, rfl⟩
    · cases hd

theorem startPoll_cases {order : List BucketId}
    (h : s.step assignments (.startPoll order) = some t) :
    t = { s with delivery := { s.delivery with scanning := order } } ∧
      order.Perm s.delivery.session.authorizedBuckets.keys := by
  obtain ⟨d, hd, rfl⟩ := serve_cases h
  simp only [Delivery.step] at hd
  split at hd
  next hcond =>
    cases hd
    exact ⟨rfl, hcond.2⟩
  next => cases hd

theorem Sound.step {a : LinkAction} (h : Sound assignments buckets s) (ha : s.Orderly a)
    (hstep : s.step assignments a = some t) : Sound assignments buckets t := by
  cases a with
  | append wall b op =>
    cases hstep
    exact h.append wall b ha
  | connect token order reads => exact h.connect hstep
  | startPoll order =>
    obtain ⟨rfl, horder⟩ := startPoll_cases hstep
    exact h.quiet (h.tracked.startPoll horder) rfl rfl rfl (List.Subset.refl _)
  | scan =>
    obtain ⟨d, hd, rfl⟩ := serve_cases hstep
    exact h.scan hd
  | deliver =>
    rw [Link.step] at hstep
    split at hstep
    · exact h.receiveFrame hstep
    · cases hstep
  | handleReply =>
    obtain ⟨lsn, rest, hreplies, hmax, rfl⟩ := handleReply_cases h hstep
    have htracked := h.tracked.receive (.ack lsn) hmax
    exact h.quiet htracked rfl rfl rfl (by simp [hreplies])
  | drop =>
    rw [Link.step] at hstep
    split at hstep
    · cases hstep
      exact ⟨h.subscribed, h.tracked, h.authorized, h.owedLogged, h.logged, h.deltas, h.within,
        h.delivered, h.lastLsn, by simp, by simp⟩
    · cases hstep

theorem nothingLost_append_iff (h : Sound assignments buckets s) {wall : UInt64} {b : BucketId}
    {op : BucketOp} (horderly : s.Orderly (.append wall b op))
    (hstep : s.step assignments (.append wall b op) = some t) :
    NothingLost assignments buckets t ↔ NothingLost assignments buckets s ∧
      s.Lossless assignments buckets (.append wall b op) := by
  cases hstep
  have hnew : ¬Contains assignments buckets (s.received ++ s.delivery.sent) b op := by
    rintro ⟨frame, hframe, rfl, hop⟩
    obtain ⟨stored, hget⟩ := h.logged frame hframe _ hop
    exact UInt64.lt_irrefl _ (horderly.2 (op.lsn, stored)
      (Std.TreeMap.mem_toList_iff_getElem?_eq_some.mpr hget))
  by_cases hsnap : s.snapshotted = true
  · simp only [NothingLost, Lossless, hsnap, if_true, List.mem_append, List.mem_singleton]
    constructor
    · intro hlost
      refine ⟨fun e he => hlost e (Or.inl he), fun _ m hm => ?_⟩
      apply UInt64.not_le.mp
      intro hle
      exact hnew (hlost (b, op) (Or.inr rfl) m hm hle)
    · rintro ⟨hlost, habove⟩ e (he | rfl) m hm hle
      · exact hlost e he m hm hle
      · exact absurd (UInt64.lt_of_lt_of_le (habove trivial m hm) hle) (UInt64.lt_irrefl _)
  · simp [NothingLost, Lossless, hsnap]

theorem nothingLost_connect_iff (h : Sound assignments buckets s) {token : String}
    {order : List BucketId} {reads : BucketId → List (List Value) × BucketChecksum}
    (hstep : s.step assignments (.connect token order reads) = some t) :
    NothingLost assignments buckets t ↔
      s.Lossless assignments buckets (.connect token order reads) := by
  obtain ⟨d, rfl, rfl⟩ := connect_cases hstep
  simp only [NothingLost, Lossless, Gateway.Delivery.start, List.append_nil,
    Gateway.lookup_lastSeen_handshake]
  have hauth : (handshake assignments s.client.subscribedBuckets
      s.client.lastLsn).authorizedBuckets = authorize assignments buckets := by
    change authorize assignments s.client.subscribedBuckets = _
    rw [h.subscribed]
  rw [hauth]
  constructor
  · intro hlost lsn hlsn e he hmem hle
    exact hlost e he lsn (by rw [if_pos hmem]; exact hlsn) hle
  · intro hall e he m hm hle
    split at hm
    next hmem => exact hall m hm e he hmem hle
    next => cases hm

theorem nothingLost_scan_iff (h : Sound assignments buckets s) {d : Delivery}
    (hd : s.delivery.step .scan = some d) :
    NothingLost assignments buckets { s with delivery := d } ↔
      NothingLost assignments buckets s := by
  obtain ⟨c, _, _, hlog, _, hcase⟩ := Gateway.Delivery.scan_cases h.tracked.keyed hd
  constructor
  · intro hlost e he m hm hle
    obtain ⟨m', hm', hle'⟩ := hcase.lookup_mono h.tracked ⟨m, hm, hle⟩
    obtain ⟨frame, hframe, hb, hop⟩ := hlost e he m' hm' hle'
    refine ⟨frame, ?_, hb, hop⟩
    cases hcase with
    | idle _ _ hsent => simpa [hsent] using hframe
    | delta new _ _ _ hsent =>
      simp only [hsent, ← List.append_assoc, List.mem_append, List.mem_singleton] at hframe
      obtain hold | rfl := hframe
      · exact List.mem_append.mpr hold
      · -- an op of the new Delta lies above the old last seen LSN
        obtain ⟨drained, hmem, heq⟩ := List.mem_map.mp hop
        have hlsn : drained.lsn = e.2.lsn := by
          rw [← Gateway.rewire_lsn, heq, Gateway.rewire_lsn]
        have hc : c = e.1 := hb
        have hfrom := (h.tracked.keyed.mem_drainSince.mp hmem).1
        have hlt := (Gateway.Session.scanFrom_le_iff (h.tracked.bounded c)).mp hfrom m (hc ▸ hm)
        exact absurd (UInt64.lt_of_lt_of_le hlt (hlsn ▸ hle)) (UInt64.lt_irrefl _)
  · intro hlost e he m hm hle
    obtain ⟨wall, hget⟩ := h.owedLogged e he
    cases hcase.sent_or_seen h.tracked hget hm hle with
    | inl hsent =>
      rw [h.wire, Gateway.Delivery.sentOps, List.mem_flatMap] at hsent
      obtain ⟨frame, hframe, hop⟩ := hsent
      split at hop
      next hb => exact ⟨frame, List.mem_append_right _ hframe, hb, hop⟩
      next => cases hop
    | inr hseen =>
      obtain ⟨old, hold, hle'⟩ := hseen
      apply contains_mono (hlost e he old hold hle')
      cases hcase with
      | idle _ _ hsent => simp [hsent]
      | delta new _ _ _ hsent => simp [hsent, ← List.append_assoc]

/-- Ops above the last seen LSN have not been sent by this session, so an acknowledgement must not
pass one that the client does not have from an earlier session. -/
theorem nothingLost_ack_iff (h : Sound assignments buckets s) {lsn : PgLsn}
    {rest : List ClientMessage} (hreplies : s.replies = .ack lsn :: rest) :
    NothingLost assignments buckets { s with
      delivery := { s.delivery with session := s.delivery.session.ack lsn }
      replies := rest } ↔
    NothingLost assignments buckets s ∧ s.Lossless assignments buckets .handleReply := by
  simp only [NothingLost, Lossless, nextAck, hreplies, Option.mem_some_iff, forall_eq',
    Gateway.Session.lookup_ack]
  constructor
  · intro hlost
    constructor
    · intro e he m hm hle
      apply hlost e he (if m < lsn then lsn else m) (by rw [hm, Option.map_some])
      split
      next hlt => exact UInt64.le_trans hle (UInt64.le_of_lt hlt)
      next => exact hle
    · intro e he m hm hlt hle
      obtain ⟨frame, hframe, hb, hop⟩ := hlost e he lsn
        (by rw [hm, Option.map_some, if_pos (UInt64.lt_of_lt_of_le hlt hle)]) hle
      obtain hold | hsent := List.mem_append.mp hframe
      · exact ⟨frame, hold, hb, hop⟩
      · have hmem : rewire _ e.2 ∈ s.delivery.sentOps e.1 :=
          List.mem_flatMap.mpr ⟨frame, hsent, by rw [if_pos hb]; exact hop⟩
        obtain ⟨m', hm', hle'⟩ := h.tracked.seen e.1 _ hmem
        rw [hm, Option.some.injEq] at hm'
        exact absurd (UInt64.lt_of_lt_of_le hlt (hm' ▸ hle')) (UInt64.lt_irrefl _)
  · rintro ⟨hlost, hpass⟩ e he m' hm' hle
    obtain ⟨m, hm, heq⟩ := Option.map_eq_some_iff.mp hm'
    by_cases hseen : e.2.lsn ≤ m
    · exact hlost e he m hm hseen
    · have habove : m < e.2.lsn := UInt64.not_le.mp hseen
      split at heq
      next =>
        exact contains_mono (hpass e he m hm habove (heq ▸ hle)) (List.subset_append_left _ _)
      next => exact absurd (heq ▸ hle) hseen

theorem nothingLost_receiveFrame_iff (hstep : s.receiveFrame = some t) :
    NothingLost assignments buckets t ↔ NothingLost assignments buckets s := by
  rw [receiveFrame] at hstep
  split at hstep
  · cases hstep
    rfl
  · obtain ⟨frame, hframe, rfl⟩ := Option.map_eq_some_iff.mp hstep
    have hmem := List.mem_of_getElem? hframe
    simp only [NothingLost]
    constructor
    · intro hlost e he m hm hle
      apply contains_mono (hlost e he m hm hle)
      simp [hmem]
    · intro hlost e he m hm hle
      apply contains_mono (hlost e he m hm hle)
      simp

theorem online_of_step {a : LinkAction} (honline : s.online = true) (hdrop : a ≠ .drop)
    (hstep : s.step assignments a = some t) : t.online = true := by
  cases a with
  | append wall b op =>
    cases hstep
    exact honline
  | connect token order reads => simp [step, honline] at hstep
  | startPoll order =>
    obtain ⟨d, _, rfl⟩ := serve_cases hstep
    exact honline
  | scan =>
    obtain ⟨d, _, rfl⟩ := serve_cases hstep
    exact honline
  | deliver =>
    simp only [step, honline, if_true, receiveFrame] at hstep
    split at hstep
    · cases hstep
      rfl
    · obtain ⟨frame, _, rfl⟩ := Option.map_eq_some_iff.mp hstep
      rfl
  | handleReply =>
    rw [step] at hstep
    split at hstep
    · cases hstep
    · obtain ⟨d, _, rfl⟩ := serve_cases hstep
      exact honline
  | drop => exact absurd rfl hdrop

theorem nothingLost_step_iff {a : LinkAction} (h : Sound assignments buckets s)
    (honline : s.online = true) (ha : s.Orderly a) (hdrop : a ≠ .drop)
    (hstep : s.step assignments a = some t) :
    NothingLost assignments buckets t ↔
      NothingLost assignments buckets s ∧ s.Lossless assignments buckets a := by
  cases a with
  | append wall b op => exact nothingLost_append_iff h ha hstep
  | connect token order reads => simp [step, honline] at hstep
  | startPoll order =>
    obtain ⟨rfl, _⟩ := startPoll_cases hstep
    simp [NothingLost, Lossless]
  | scan =>
    obtain ⟨d, hd, rfl⟩ := serve_cases hstep
    simp [nothingLost_scan_iff h hd, Lossless]
  | deliver =>
    simp only [step, honline, if_true] at hstep
    simp [nothingLost_receiveFrame_iff hstep, Lossless]
  | handleReply =>
    obtain ⟨lsn, rest, hreplies, _, rfl⟩ := handleReply_cases h hstep
    exact nothingLost_ack_iff h hreplies
  | drop => exact absurd rfl hdrop

theorem nothingLost_iff_of_caughtUp (h : Sound assignments buckets s)
    (hcaught : s.CaughtUp assignments buckets) :
    NothingLost assignments buckets s ↔ s.ReceivedAll assignments buckets := by
  obtain ⟨_, hall, hscanned⟩ := hcaught
  have harrived : s.received ++ s.delivery.sent ⊆ s.received := by
    apply List.append_subset.mpr
    refine ⟨List.Subset.refl _, fun frame hframe => h.delivered frame ?_⟩
    rwa [hall, List.take_length]
  constructor
  · intro hlost e he hauth
    obtain ⟨wall, hget⟩ := h.owedLogged e he
    obtain ⟨m, hm, hle⟩ := hscanned e.1 hauth (e.2.lsn, ⟨e.2, wall⟩)
      (Std.TreeMap.mem_toList_iff_getElem?_eq_some.mpr hget)
    exact contains_mono (hlost e he m hm hle) harrived
  · intro hreceived e he m hm _
    have hauth : e.1 ∈ authorize assignments buckets :=
      h.authorized ▸ h.tracked.authorized e.1 m hm
    exact contains_mono (hreceived e he hauth) (List.subset_append_left _ _)

end

/-- A client that has caught up on its last connection has received every op appended to its
buckets since its first snapshot exactly when that connection was opened losslessly and every step
on it was lossless, whatever happened on the connections before. -/
theorem receivedAll_iff {assignments : List BucketAssignment} {buckets : List String}
    {before after : List LinkAction} {token : String} {order : List BucketId}
    {reads : BucketId → List (List Value) × BucketChecksum} {s u t : Link}
    (horderly : Meets (step assignments) Orderly (init assignments buckets)
      (before ++ .connect token order reads :: after))
    (hbefore : run (step assignments) (init assignments buckets) before = some s)
    (hconnect : s.step assignments (.connect token order reads) = some u)
    (hafter : run (step assignments) u after = some t) (hlast : .drop ∉ after)
    (hcaught : t.CaughtUp assignments buckets) :
    t.ReceivedAll assignments buckets ↔
      s.Lossless assignments buckets (.connect token order reads) ∧
        Meets (step assignments) (Lossless assignments buckets) u after := by
  have hs : Sound assignments buckets s := horderly.append_left.invariant
    (fun _ _ _ hs ha hstep => hs.step ha hstep) sound_init hbefore
  have hu := hs.connect hconnect
  obtain ⟨_, horderlyAfter⟩ := horderly.append_right hbefore u hconnect
  have honline : u.online = true := by
    obtain ⟨d, _, rfl⟩ := connect_cases hconnect
    rfl
  have htail : Meets (step assignments) (fun s a => s.Orderly a ∧ a ≠ .drop) u after :=
    horderlyAfter.and_forall fun a ha hdrop => hlast (hdrop ▸ ha)
  have ht : Sound assignments buckets t := horderlyAfter.invariant
    (fun _ _ _ hs ha hstep => hs.step ha hstep) hu hafter
  rw [← nothingLost_iff_of_caughtUp ht hcaught, ← nothingLost_connect_iff hs hconnect]
  exact run_iff_meets (J := fun s => Sound assignments buckets s ∧ s.online = true)
    (fun _ _ _ hs ha hstep => ⟨hs.1.step ha.1 hstep, online_of_step hs.2 ha.2 hstep⟩)
    (fun _ _ _ hs ha hstep => nothingLost_step_iff hs.1 hs.2 ha.1 ha.2 hstep)
    htail ⟨hu, honline⟩ hafter

private def leftRule : BucketAssignment := ⟨⟨"left:"⟩, "left", ∅, ∅⟩

private def rightRule : BucketAssignment := ⟨⟨"right:"⟩, "right", ∅, ∅⟩

private def opAt (lsn : PgLsn) (b : BucketAssignment) : LinkAction :=
  .append 0 b.bucketId ⟨lsn, b.bucketId, "entities", "a", .delete⟩

private def pollBoth : List LinkAction :=
  [.startPoll [rightRule.bucketId, leftRule.bucketId], .scan, .scan]

private def reopen (order : List BucketId) : LinkAction := .connect "token" order fun _ => ([], 0)

/-- The first connection: two empty snapshots, then one op for each bucket and a poll, of which
`arrived` Deltas get through before the connection drops. -/
private def firstConnection (arrived : Nat) : List LinkAction :=
  [reopen [rightRule.bucketId, leftRule.bucketId], .deliver, .deliver, .deliver, .deliver,
    opAt 1 leftRule, opAt 2 rightRule] ++ pollBoth ++ List.replicate arrived .deliver ++ [.drop]

/-- With both Deltas received the client resumes from the LSN of the left one, which came last,
and gets the right one again. -/
theorem receivedAll_iff_two_deltas :
    ∃ s u t, run (step [leftRule, rightRule]) (init [leftRule, rightRule] ["left", "right"])
        (firstConnection 2) = some s ∧
      s.step [leftRule, rightRule] (reopen []) = some u ∧
      run (step [leftRule, rightRule]) u (pollBoth ++ [.deliver]) = some t ∧ t.owed.length = 2 ∧
      t.ReceivedAll [leftRule, rightRule] ["left", "right"] := by
  have horderly : Meets (step [leftRule, rightRule]) Orderly
      (init [leftRule, rightRule] ["left", "right"])
      (firstConnection 2 ++ reopen [] :: (pollBoth ++ [.deliver])) := by
    decide
  refine ⟨_, _, _, rfl, rfl, rfl, rfl, ?_⟩
  apply (receivedAll_iff horderly rfl rfl rfl (by simp [pollBoth]) (by decide)).mpr
  exact ⟨by decide, by decide⟩

/-- If only the Delta of the right bucket gets through, its LSN 2 is where the left bucket is
resumed, and op 1 of the left bucket is never sent again. -/
theorem drop_between_deltas_loses_op :
    ∃ t, run (step [leftRule, rightRule]) (init [leftRule, rightRule] ["left", "right"])
        (firstConnection 1 ++ reopen [] :: pollBoth) = some t ∧
      Meets (step [leftRule, rightRule]) Orderly (init [leftRule, rightRule] ["left", "right"])
        (firstConnection 1 ++ reopen [] :: pollBoth) ∧
      t.CaughtUp [leftRule, rightRule] ["left", "right"] ∧
      ¬t.ReceivedAll [leftRule, rightRule] ["left", "right"] :=
  ⟨_, rfl, by decide, by decide, by decide⟩

end Link

end EntitySync.System
