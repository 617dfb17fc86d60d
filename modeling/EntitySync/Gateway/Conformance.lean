import EntitySync.Gateway.Connection

/-!
# The order of frames

What a client may rely on, as an automaton that reads the frames of one connection: snapshots come
first and one after another, the batches of each are numbered from zero, and from the first other
frame on no snapshot begins. Every run of a connection is a run of this automaton, however the
steps of the connection, the router and the client fall between each other.
-/

namespace EntitySync.Gateway

open Oplog (Partitions)
open StepSystem

/-- Where a client stands after the frames so far. -/
inductive Stage where
  /-- No snapshot is open, and all frames so far belong to snapshots. -/
  | opening
  /-- The snapshot of a bucket is open, and `offset` is the number of its next batch. -/
  | loading (wire : BucketId) (offset : UInt64)
  | live
deriving DecidableEq

/-- A Delta is not empty, all its ops are of its bucket, and its LSN is the largest of theirs. -/
def DeltaSound (wire : BucketId) (ops : List BucketOp) (lsn : PgLsn) : Prop :=
  (∀ op ∈ ops, op.bucketId = wire ∧ op.lsn ≤ lsn) ∧ ∃ op ∈ ops, op.lsn = lsn

instance (wire : BucketId) (ops : List BucketOp) (lsn : PgLsn) :
    Decidable (DeltaSound wire ops lsn) :=
  inferInstanceAs (Decidable (_ ∧ _))

/-- The frames of the main loop; a `Checkpoint` is not among them. -/
def LiveFrame : ServerMessage → Prop
  | .delta wire ops lsn => DeltaSound wire ops lsn
  | .keepalive _ | .error _ _ => True
  | .snapshotBegin _ _ _ | .snapshotBatch _ _ _ | .snapshotComplete _ _ | .checkpoint _ _ => False

instance (frame : ServerMessage) : Decidable (LiveFrame frame) :=
  match frame with
  | .delta _ _ _ => inferInstanceAs (Decidable (DeltaSound _ _ _))
  | .keepalive _ | .error _ _ => isTrue trivial
  | .snapshotBegin _ _ _ | .snapshotBatch _ _ _ | .snapshotComplete _ _ | .checkpoint _ _ =>
    isFalse id

namespace Stage

def next : Stage → ServerMessage → Option Stage
  | .opening, .snapshotBegin wire totalRows version =>
    if totalRows = 0 ∧ version = protocolVersion then some (.loading wire 0) else none
  | .loading wire offset, .snapshotBatch other _ n =>
    if other = wire ∧ n = offset then some (.loading wire (offset + 1)) else none
  | .loading wire _, .snapshotComplete other _ => if other = wire then some .opening else none
  | .loading _ _, _ => none
  | .opening, frame | .live, frame => if LiveFrame frame then some .live else none

def Idle (stage : Stage) : Prop := stage = .opening ∨ stage = .live

theorem next_live {stage : Stage} {frame : ServerMessage} (h : stage.Idle)
    (hframe : LiveFrame frame) : stage.next frame = some .live := by
  rcases h with rfl | rfl <;> cases frame <;>
    first | exact hframe.elim | simp only [next, hframe, if_true]

theorem run_live {stage : Stage} {frames : List ServerMessage} (h : stage.Idle)
    (hframes : ∀ frame ∈ frames, LiveFrame frame) :
    ∃ later, run next stage frames = some later ∧ later.Idle := by
  induction frames generalizing stage with
  | nil => exact ⟨stage, rfl, h⟩
  | cons frame frames ih =>
    rw [List.forall_mem_cons] at hframes
    rw [run_cons, next_live h hframes.1]
    exact ih (Or.inr rfl) hframes.2

end Stage

def begun (frames : List ServerMessage) : List BucketId :=
  frames.filterMap fun
    | .snapshotBegin wire _ _ => some wire
    | _ => none

def completed (frames : List ServerMessage) : List BucketId :=
  frames.filterMap fun
    | .snapshotComplete wire _ => some wire
    | _ => none

theorem begun_append_live {sent frames : List ServerMessage}
    (h : ∀ frame ∈ frames, LiveFrame frame) :
    begun (sent ++ frames) = begun sent ∧ completed (sent ++ frames) = completed sent := by
  have hnone : begun frames = [] ∧ completed frames = [] := by
    constructor <;>
    · apply List.filterMap_eq_nil_iff.mpr
      intro frame hframe
      have hlive := h frame hframe
      cases frame <;> first | rfl | exact hlive.elim
  simp only [begun, completed, List.filterMap_append] at hnone ⊢
  simp only [hnone.1, hnone.2, List.append_nil, and_self]

namespace Connection

/-- Either no bucket starts with a snapshot, or every authorized one does, once. -/
def Whole (session : Session) (order : List BucketId) : Prop :=
  order = [] ∨ order.Perm session.authorizedBuckets.keys

/-- What the frames so far say in each phase of the connection. -/
def Agrees (frames : List ServerMessage) (stage : Stage) : Phase → Prop
  | .awaiting | .validating _ _ | .assigning _ _ => frames = [] ∧ stage = .opening
  | .snapshots session queue => stage = .opening ∧ ∃ done, Whole session (done ++ queue) ∧
    begun frames = done.map session.wireBucketId ∧ completed frames = done.map session.wireBucketId
  | .streaming session b _ offset queue =>
    stage = .loading (session.wireBucketId b) offset ∧ ∃ done, Whole session (done ++ b :: queue) ∧
      begun frames = (done ++ [b]).map session.wireBucketId ∧
      completed frames = done.map session.wireBucketId
  | .serving session _ => stage.Idle ∧ ∃ order, Whole session order ∧
    begun frames = order.map session.wireBucketId ∧
    completed frames = order.map session.wireBucketId
  | .reporting _ _ => stage.Idle
  | .closed _ => True

def Conforms (s : Connection) : Prop :=
  ∃ stage, run Stage.next .opening s.sent = some stage ∧ Agrees s.sent stage s.phase

variable {s t : Connection}

theorem conforms_start (log : Partitions) : (start log).Conforms := ⟨.opening, rfl, rfl, rfl⟩

theorem Conforms.close (h : s.Conforms) (result : Except SyncError Unit) :
    (s.close result).Conforms := by
  obtain ⟨stage, hrun, _⟩ := h
  exact ⟨stage, hrun, trivial⟩

theorem run_append_live {sent frames : List ServerMessage} {stage : Stage}
    (hrun : run Stage.next .opening sent = some stage) (hidle : stage.Idle)
    (hframes : ∀ frame ∈ frames, LiveFrame frame) :
    ∃ later, run Stage.next .opening (sent ++ frames) = some later ∧ later.Idle := by
  rw [run_append, hrun]
  exact Stage.run_live hidle hframes

/-- Where a connection may fail with an Error frame, no snapshot is open. -/
def Idles : Phase → Prop
  | .awaiting | .validating _ _ | .assigning _ _ | .serving _ _ | .reporting _ _ => True
  | .snapshots _ _ | .streaming _ _ _ _ _ | .closed _ => False

theorem Conforms.idle (h : s.Conforms) (hphase : Idles s.phase) :
    ∃ stage, run Stage.next .opening s.sent = some stage ∧ stage.Idle := by
  obtain ⟨stage, hrun, hagrees⟩ := h
  refine ⟨stage, hrun, ?_⟩
  cases hp : s.phase with
  | awaiting | validating | assigning =>
    rw [hp] at hagrees
    exact Or.inl hagrees.2
  | serving =>
    rw [hp] at hagrees
    exact hagrees.1
  | reporting =>
    rw [hp] at hagrees
    exact hagrees
  | snapshots | streaming | closed =>
    rw [hp] at hphase
    exact hphase.elim

theorem Conforms.reporting (h : s.Conforms) (hphase : Idles s.phase) (reason : Option SyncError)
    (socketFailed : Bool) : Conforms { s with phase := .reporting reason socketFailed } :=
  h.idle hphase

theorem Conforms.report (h : s.Conforms) (hphase : Idles s.phase) (reason : Option SyncError)
    (sent : Bool) : (s.report reason sent).Conforms := by
  obtain ⟨stage, hrun, hidle⟩ := h.idle hphase
  have hframes : ∀ frame ∈ if sent then [reportFrame reason] else [], LiveFrame frame := by
    cases sent <;> cases reason <;> simp [reportFrame, errorFrame, LiveFrame]
  obtain ⟨later, hlater, _⟩ := run_append_live hrun hidle hframes
  rw [← sent_report] at hlater
  exact ⟨later, hlater, trivial⟩

theorem Conforms.serving {session session' : Session} {scanning scanning' : List BucketId}
    {frames : List ServerMessage} (h : s.Conforms) (hphase : s.phase = .serving session scanning)
    (hnext : t.phase = .serving session' scanning')
    (hauthorized : session'.authorizedBuckets = session.authorizedBuckets)
    (hsent : t.sent = s.sent ++ frames) (hframes : ∀ frame ∈ frames, LiveFrame frame) :
    t.Conforms := by
  obtain ⟨stage, hrun, hagrees⟩ := h
  rw [hphase] at hagrees
  obtain ⟨hidle, order, hwhole, hbegun, hcompleted⟩ := hagrees
  obtain ⟨later, hlater, hidle⟩ := run_append_live hrun hidle hframes
  have hwire : session'.wireBucketId = session.wireBucketId := by
    funext b
    rw [Session.wireBucketId, Session.wireBucketId, hauthorized]
  have hkept : begun (s.sent ++ frames) = begun s.sent ∧ _ := begun_append_live hframes
  refine ⟨later, hsent ▸ hlater, ?_⟩
  rw [hnext, hsent]
  refine ⟨hidle, order, ?_, ?_, ?_⟩
  · rwa [Whole, hauthorized]
  · rw [hkept.1, hbegun, hwire]
  · rw [hkept.2, hcompleted, hwire]

theorem Conforms.receive {session : Session} (h : s.Conforms) (nowMs : UInt64)
    (outcome : WriteOutcome) (msg : Incoming) (hphase : s.phase = .serving session []) :
    (s.receive session nowMs outcome msg).Conforms := by
  cases msg with
  | ended | close => exact h.close (.ok ())
  | failed error => exact h.close _
  | other => exact h
  | binary decoded =>
    cases decoded with
    | error error =>
      exact h.serving hphase hphase rfl rfl (by simp [errorFrame, LiveFrame])
    | ok msg =>
      have hauthorized := session.authorizedBuckets_handleClientMessage msg
      cases msg with
      | ack lsn =>
        exact h.serving hphase rfl hauthorized (List.append_nil _).symm (by simp)
      | write entityType entityId op =>
        cases outcome with
        | applied => exact h.serving hphase rfl hauthorized (List.append_nil _).symm (by simp)
        | refused e => exact h.serving hphase rfl hauthorized rfl (by simp [errorFrame, LiveFrame])
        | failed e => exact h.close (.error e)
      | ping => exact h.serving hphase rfl hauthorized rfl (by simp [LiveFrame])
      | subscribe buckets token resumeLsn version =>
        exact h.serving hphase rfl hauthorized rfl (by simp [errorFrame, LiveFrame])

theorem liveFrame_of_deliver {session : Session} {b : BucketId} {ops : List BucketOp} :
    ∀ frame ∈ (session.deliver b ops).1.toList, LiveFrame frame := by
  intro frame hframe
  unfold Session.deliver at hframe
  split at hframe
  · simp at hframe
  next hops =>
    rw [Option.toList_some, List.mem_singleton] at hframe
    subst hframe
    have hspec := maxLsn_spec (session.scanFrom b) hops
    refine ⟨?_, ?_⟩
    · intro op hop
      obtain ⟨source, hsource, rfl⟩ := List.mem_map.mp hop
      exact ⟨rfl, hspec.1 source hsource⟩
    · obtain ⟨source, hsource, heq⟩ := hspec.2
      exact ⟨_, List.mem_map_of_mem hsource, heq⟩

theorem authorizedBuckets_deliver (session : Session) (b : BucketId) (ops : List BucketOp) :
    (session.deliver b ops).2.authorizedBuckets = session.authorizedBuckets := by
  unfold Session.deliver
  split <;> rfl

theorem Conforms.startPoll {session : Session} {scanning order : List BucketId} (h : s.Conforms)
    (hphase : s.phase = .serving session scanning)
    (hpoll : s.poll session scanning (.startPoll order) = some t) : t.Conforms := by
  obtain ⟨d, hd, rfl⟩ := Option.map_eq_some_iff.mp hpoll
  simp only [Delivery.step, Option.ite_none_right_eq_some, Option.some.injEq] at hd
  obtain ⟨_, rfl⟩ := hd
  exact h.serving hphase rfl rfl rfl (by simp)

theorem Conforms.scan {session : Session} {scanning : List BucketId} (h : s.Conforms)
    (hphase : s.phase = .serving session scanning)
    (hpoll : s.poll session scanning .scan = some t) : t.Conforms := by
  obtain ⟨d, hd, rfl⟩ := Option.map_eq_some_iff.mp hpoll
  cases scanning with
  | nil => cases hd
  | cons b rest =>
    cases hd
    refine h.serving hphase rfl (authorizedBuckets_deliver _ _ _) rfl ?_
    intro frame hframe
    obtain ⟨pair, hpair, rfl⟩ := List.mem_map.mp hframe
    obtain ⟨delta, hdelta, rfl⟩ := List.mem_map.mp hpair
    exact liveFrame_of_deliver delta hdelta

theorem whole_of_perm {assignments : List BucketAssignment} {requested : List String}
    {resumeLsn : Option PgLsn} {order : List BucketId}
    (h : order.Perm (handshake assignments requested resumeLsn).freshBuckets) :
    Whole (handshake assignments requested resumeLsn) order := by
  have hlookup : ∀ b ∈ (handshake assignments requested resumeLsn).authorizedBuckets.keys,
      (handshake assignments requested resumeLsn).lastSeenLsn.lookup b = resumeLsn := by
    intro b hb
    rw [lookup_lastSeen_handshake, if_pos (AList.mem_keys.mpr hb)]
  cases resumeLsn with
  | none =>
    rw [Session.freshBuckets, List.filter_eq_self.mpr fun b hb => by rw [hlookup b hb]; rfl] at h
    exact Or.inr h
  | some lsn =>
    rw [Session.freshBuckets, List.filter_eq_nil_iff.mpr fun b hb => by simp [hlookup b hb]] at h
    exact Or.inl h.eq_nil

theorem Conforms.beginSnapshot {session : Session} {b : BucketId} {queue : List BucketId}
    (h : s.Conforms) (checksum : BucketChecksum)
    (hphase : s.phase = .snapshots session (b :: queue)) :
    ({ s with phase := .streaming session b checksum 0 queue }.send
      (.snapshotBegin (session.wireBucketId b) 0 protocolVersion)).Conforms := by
  obtain ⟨stage, hrun, hagrees⟩ := h
  rw [hphase] at hagrees
  obtain ⟨rfl, done, hwhole, hbegun, hcompleted⟩ := hagrees
  refine ⟨.loading (session.wireBucketId b) 0, ?_, rfl, done, hwhole, ?_, ?_⟩
  · simp only [send, run_append, hrun, Option.bind_some, run_cons, run_nil]
    rfl
  · simp only [send, begun, List.filterMap_append, List.map_append] at hbegun ⊢
    rw [hbegun]
    rfl
  · simp only [send, completed, List.filterMap_append] at hcompleted ⊢
    rw [hcompleted]
    exact List.append_nil _

theorem Conforms.batch {session : Session} {b : BucketId} {checksum : BucketChecksum}
    {offset : UInt64} {queue : List BucketId} (h : s.Conforms) (rows : List Json.Value)
    (hphase : s.phase = .streaming session b checksum offset queue) :
    ({ s with phase := .streaming session b checksum (offset + 1) queue }.send
      (.snapshotBatch (session.wireBucketId b) rows offset)).Conforms := by
  obtain ⟨stage, hrun, hagrees⟩ := h
  rw [hphase] at hagrees
  obtain ⟨rfl, done, hwhole, hbegun, hcompleted⟩ := hagrees
  refine ⟨.loading (session.wireBucketId b) (offset + 1), ?_, rfl, done, hwhole, ?_, ?_⟩
  · simp only [send, run_append, hrun, Option.bind_some, run_cons, run_nil, Stage.next, and_self,
      if_true]
  · simp only [send, begun, List.filterMap_append] at hbegun ⊢
    rw [hbegun]
    exact List.append_nil _
  · simp only [send, completed, List.filterMap_append] at hcompleted ⊢
    rw [hcompleted]
    exact List.append_nil _

theorem Conforms.endSnapshot {session : Session} {b : BucketId} {checksum : BucketChecksum}
    {offset : UInt64} {queue : List BucketId} (h : s.Conforms)
    (hphase : s.phase = .streaming session b checksum offset queue) :
    ({ s with phase := .snapshots session queue }.send
      (.snapshotComplete (session.wireBucketId b) checksum)).Conforms := by
  obtain ⟨stage, hrun, hagrees⟩ := h
  rw [hphase] at hagrees
  obtain ⟨rfl, done, hwhole, hbegun, hcompleted⟩ := hagrees
  refine ⟨.opening, ?_, rfl, done ++ [b], ?_, ?_, ?_⟩
  · simp only [send, run_append, hrun, Option.bind_some, run_cons, run_nil, Stage.next, if_true]
  · rwa [List.append_assoc, List.singleton_append]
  · simp only [send, begun, List.filterMap_append] at hbegun ⊢
    rw [hbegun]
    exact List.append_nil _
  · simp only [send, completed, List.filterMap_append, List.map_append] at hcompleted ⊢
    rw [hcompleted]
    rfl

theorem Conforms.step {a : ConnectionAction} (h : s.Conforms) (hstep : s.step a = some t) :
    t.Conforms := by
  have hidles {p : Phase} (hphase : s.phase = p) (hp : Idles p) : Idles s.phase := hphase ▸ hp
  cases steps_of_step hstep with
  | append | compact => exact h
  | subscribe msg nowMs outcome hphase =>
    rcases s.subscribe_cases msg with ⟨e, he, _⟩ | ⟨e, socketFailed, he, _⟩ |
      ⟨buckets, token, resumeLsn, version, rfl, _⟩
    · rw [he]
      exact h.close (.error e)
    · rw [he]
      exact h.reporting (hidles hphase trivial) (some e) socketFailed
    · obtain ⟨stage, hrun, hagrees⟩ := h
      rw [hphase] at hagrees
      exact ⟨stage, hrun, hagrees⟩
  | receive msg nowMs outcome hphase => exact h.receive nowMs outcome msg hphase
  | rejected e hphase => exact h.reporting (hidles hphase trivial) (some e) false
  | validated claims hphase =>
    obtain ⟨stage, hrun, hagrees⟩ := h
    rw [hphase] at hagrees
    exact ⟨stage, hrun, hagrees⟩
  | unassigned hphase => exact h.reporting (hidles hphase trivial) _ false
  | assigned hphase hassign horder =>
    obtain ⟨stage, hrun, hagrees⟩ := h
    rw [hphase] at hagrees
    refine ⟨stage, hrun, hagrees.2, [], whole_of_perm horder, ?_, ?_⟩
    · rw [hagrees.1]
      rfl
    · rw [hagrees.1]
      rfl
  | snapshotFailed e hphase | batchFailed e hphase => exact h.close (.error e)
  | beginSnapshot checksum hphase => exact h.beginSnapshot checksum hphase
  | batch rows hphase => exact h.batch rows hphase
  | endSnapshot hphase => exact h.endSnapshot hphase
  | serve hphase =>
    obtain ⟨stage, hrun, hagrees⟩ := h
    rw [hphase] at hagrees
    obtain ⟨hopening, done, hwhole, hframes⟩ := hagrees
    rw [List.append_nil] at hwhole
    exact ⟨stage, hrun, Or.inl hopening, done, hwhole, hframes⟩
  | startPoll hphase hpoll => exact h.startPoll hphase hpoll
  | scanFailed e hphase => exact h.reporting (hidles hphase trivial) (some e) false
  | scan hphase hpoll => exact h.scan hphase hpoll
  | keepalive nowMs hphase => exact h.serving hphase hphase rfl rfl (by simp [LiveFrame])
  | shutdown hphase => exact h.reporting (hidles hphase trivial) none false
  | report sent hphase => exact h.report (hidles hphase trivial) _ sent
  | sendFailed error => exact h.close _
  | deltaFailed error hphase => exact h.reporting (hidles hphase trivial) _ true

/-- The frames are accepted by the automaton, and once the connection is served, the snapshots of
all its buckets or of none have been sent, each once and each completed. -/
def FollowsStages (s : Connection) : Prop :=
  (∃ stage, run Stage.next .opening s.sent = some stage) ∧
  ∀ session scanning, s.phase = .serving session scanning →
    ∃ order, Whole session order ∧ begun s.sent = order.map session.wireBucketId ∧
      completed s.sent = order.map session.wireBucketId

theorem Conforms.followsStages (h : s.Conforms) : s.FollowsStages := by
  obtain ⟨stage, hrun, hagrees⟩ := h
  refine ⟨⟨stage, hrun⟩, ?_⟩
  intro session scanning hphase
  rw [hphase] at hagrees
  exact hagrees.2

/-- Every connection sends its frames in the order of the automaton, in every state of every run. -/
theorem frames_follow_stages (log : Partitions) (actions : List ConnectionAction) :
    Always step FollowsStages (start log) actions := by
  have hany : Meets step (fun _ _ => True) (start log) actions :=
    meets_of_forall fun _ _ => trivial
  exact hany.always (fun _ _ _ hs _ hstep => hs.step hstep) (fun _ hs => hs.followsStages)
    (conforms_start log)

example :
    let b := (Rules.ownerAssignment "42").bucketId
    ((run step (start Partitions.empty)
      [.incoming (.binary (.ok (.subscribe ["user_entities"] "token" none 1))) 0 .applied,
        .validate (.ok ⟨"alice", 1⟩),
        .assign Rules.ownerAssigner ⟨0, 0⟩ (Rules.answerUser "42") [b], .beginSnapshot (.ok 7),
        .batch (.ok [.null]), .batch (.ok []), .endSnapshot, .serve, .keepalive 5]).bind
      fun s => run Stage.next .opening s.sent) = some .live := by
  rfl

end Connection

end EntitySync.Gateway
