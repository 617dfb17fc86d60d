import EntitySync.Gateway.Delivery
import EntitySync.Rules.Assigner

/-!
# Connections

The whole lifecycle of `ConnectionHandler`: the handshake, the snapshots of the fresh buckets, and
the main loop, with every way in which a connection ends. Router appends and compactions may fall
between any two steps. What the outside world answers (token validation, the assigner's queries,
snapshot pages, the database part of a write, whether the last Error frame could be sent) is in the
labels.
-/

namespace EntitySync.Gateway

open Json (Value)
open Oplog (Partitions)
open Rules (BucketAssigner Clock Database)
open StepSystem

inductive GatewayErrorCode where
  | authInvalid
  | bucketDenied
  | protocolError
  | internal
deriving DecidableEq

def GatewayErrorCode.wireCode : GatewayErrorCode → UInt16
  | .authInvalid => 4001
  | .bucketDenied => 4002
  | .protocolError => 4003
  | .internal => 4099

structure GatewayErrorResponse where
  code : GatewayErrorCode
  message : String

def GatewayErrorResponse.ofSyncError : SyncError → GatewayErrorResponse
  | .authError _ => ⟨.authInvalid, "authentication failed"⟩
  | .bucketAssignmentFailed _ => ⟨.bucketDenied, "bucket assignment could not be resolved"⟩
  | .protocolError _ => ⟨.protocolError, "protocol error"⟩
  | .database _ | .lsnGap _ _ | .checksumMismatch _ _ => ⟨.internal, "internal error"⟩

def errorFrame (e : SyncError) : ServerMessage :=
  .error (GatewayErrorResponse.ofSyncError e).code.wireCode
    (GatewayErrorResponse.ofSyncError e).message

def shutdownErrorCode : UInt16 := 1001

/-- The last Error frame of a connection: the response to the error that ends it, or the notice of
the shutdown. -/
def reportFrame : Option SyncError → ServerMessage
  | some e => errorFrame e
  | none => .error shutdownErrorCode "server shutting down"

def reportResult : Option SyncError → Except SyncError Unit
  | some e => .error e
  | none => .ok ()

/-- What the WebSocket stream yields; a binary message as `decode_client` reads it. -/
inductive Incoming where
  | binary (decoded : Except String ClientMessage)
  | other
  | close
  | failed (error : String)
  | ended

/-- How the database part of a `Write` ends: the write is applied, an Error frame is sent for it,
or its error ends the connection. -/
inductive WriteOutcome where
  | applied
  | refused (e : SyncError)
  | failed (e : SyncError)
deriving DecidableEq

inductive Phase where
  | awaiting
  | validating (token : String) (resumeLsn : Option PgLsn)
  | assigning (claims : TokenClaims) (resumeLsn : Option PgLsn)
  | snapshots (session : Session) (queue : List BucketId)
  | streaming (session : Session) (b : BucketId) (checksum : BucketChecksum) (offset : UInt64)
      (queue : List BucketId)
  | serving (session : Session) (scanning : List BucketId)
  /-- `send_error` before the connection ends; `socketFailed` tells that the error is a failure of
  the WebSocket. -/
  | reporting (reason : Option SyncError) (socketFailed : Bool)
  | closed (result : Except SyncError Unit)

def Phase.session : Phase → Option Session
  | .snapshots session _ | .streaming session _ _ _ _ | .serving session _ => some session
  | .awaiting | .validating _ _ | .assigning _ _ | .reporting _ _ | .closed _ => none

structure Connection where
  log : Partitions
  phase : Phase
  requested : List String
  validated : Option TokenClaims
  assigned : Option (List BucketAssignment)
  sent : List ServerMessage

inductive ConnectionAction where
  | append (wall : UInt64) (b : BucketId) (op : BucketOp)
  | compact (cutoff : UInt64)
  | incoming (msg : Incoming) (nowMs : UInt64) (outcome : WriteOutcome)
  | validate (result : Except SyncError TokenClaims)
  | assign (assigner : BucketAssigner) (clock : Clock) (db : String → Database)
      (order : List BucketId)
  | beginSnapshot (checksum : Except SyncError BucketChecksum)
  | batch (rows : Except SyncError (List Value))
  | endSnapshot
  | serve
  | startPoll (order : List BucketId)
  | scan (failed : Option SyncError)
  | keepalive (nowMs : UInt64)
  | shutdown
  /-- The `send_error` of a connection that ends. Its result is discarded. -/
  | report (sent : Bool)
  | sendFailed (error : String)

namespace Connection

def start (log : Partitions) : Connection where
  log := log
  phase := .awaiting
  requested := []
  validated := none
  assigned := none
  sent := []

def close (s : Connection) (result : Except SyncError Unit) : Connection :=
  { s with phase := .closed result }

def send (s : Connection) (frame : ServerMessage) : Connection :=
  { s with sent := s.sent ++ [frame] }

def fail (s : Connection) (e : SyncError) : Connection :=
  { s with phase := .reporting (some e) false }

/-- `let _ = self.send_error(..).await`, and then the connection ends. -/
def report (s : Connection) (reason : Option SyncError) (sent : Bool) : Connection :=
  (if sent then s.send (reportFrame reason) else s).close (reportResult reason)

/-- The first message has to be a `Subscribe`. Nothing can be sent any more once the client has
closed the socket. -/
def subscribe (s : Connection) : Incoming → Connection
  | .ended => s.close (.error (.protocolError "connection closed before Subscribe"))
  | .close => s.close (.error (.protocolError "expected a binary Subscribe frame"))
  | .failed error =>
    { s with phase := .reporting (some (.protocolError ("WebSocket error: " ++ error))) true }
  | .other => s.fail (.protocolError "expected a binary Subscribe frame")
  | .binary (.error error) => s.fail (.protocolError ("malformed Subscribe: " ++ error))
  | .binary (.ok (.subscribe buckets token resumeLsn _)) =>
    { s with phase := .validating token resumeLsn, requested := buckets }
  | .binary (.ok (.ack _)) | .binary (.ok (.write _ _ _)) | .binary (.ok .ping) =>
    s.fail (.protocolError "first message must be Subscribe")

def handleWrite (s : Connection) : WriteOutcome → Connection
  | .applied => s
  | .refused e => s.send (errorFrame e)
  | .failed e => s.close (.error e)

/-- The answer of `handle_client_message`; what it does to the session is
`Session.handleClientMessage`. -/
def answer (s : Connection) (nowMs : UInt64) (outcome : WriteOutcome) :
    ClientMessage → Connection
  | .ack _ => s
  | .write _ _ _ => s.handleWrite outcome
  | .ping => s.send (.keepalive nowMs)
  | .subscribe _ _ _ _ =>
    s.send (errorFrame (.protocolError "Subscribe may only be sent once, at connection start"))

def receive (s : Connection) (session : Session) (nowMs : UInt64) (outcome : WriteOutcome) :
    Incoming → Connection
  | .ended | .close => s.close (.ok ())
  | .failed error => s.close (.error (.protocolError ("WebSocket error: " ++ error)))
  | .other => s
  | .binary (.error error) => s.send (errorFrame (.protocolError error))
  | .binary (.ok msg) =>
    { s with phase := .serving (session.handleClientMessage msg) [] }.answer nowMs outcome msg

def poll (s : Connection) (session : Session) (scanning : List BucketId) (a : DeliveryAction) :
    Option Connection :=
  ((⟨s.log, session, scanning, []⟩ : Delivery).step a).map fun d =>
    { s with phase := .serving d.session d.scanning, sent := s.sent ++ d.sent.map Prod.snd }

def step (s : Connection) : ConnectionAction → Option Connection
  | .append wall b op => some { s with log := s.log.append wall b op.lsn op }
  | .compact cutoff => some { s with log := s.log.compact cutoff }
  | .incoming msg nowMs outcome =>
    match s.phase with
    | .awaiting => some (s.subscribe msg)
    | .serving session [] => some (s.receive session nowMs outcome msg)
    | _ => none
  | .validate result =>
    match s.phase, result with
    | .validating _ _, .error e => some (s.fail e)
    | .validating _ resumeLsn, .ok claims =>
      some { s with phase := .assigning claims resumeLsn, validated := some claims }
    | _, _ => none
  | .assign assigner clock db order =>
    match s.phase with
    | .assigning claims resumeLsn =>
      match (assigner.assign clock db claims).1 with
      | .error e => some (s.fail e)
      | .ok assignments =>
        let session := handshake assignments s.requested resumeLsn
        if order.Perm session.freshBuckets then
          some { s with phase := .snapshots session order, assigned := some assignments }
        else none
    | _ => none
  | .beginSnapshot checksum =>
    match s.phase, checksum with
    | .snapshots _ (_ :: _), .error e => some (s.close (.error e))
    | .snapshots session (b :: queue), .ok checksum =>
      some ({ s with phase := .streaming session b checksum 0 queue }.send
        (.snapshotBegin (session.wireBucketId b) 0 protocolVersion))
    | _, _ => none
  | .batch rows =>
    match s.phase, rows with
    | .streaming _ _ _ _ _, .error e => some (s.close (.error e))
    | .streaming session b checksum offset queue, .ok rows =>
      some ({ s with phase := .streaming session b checksum (offset + 1) queue }.send
        (.snapshotBatch (session.wireBucketId b) rows offset))
    | _, _ => none
  | .endSnapshot =>
    match s.phase with
    | .streaming session b checksum _ queue =>
      some ({ s with phase := .snapshots session queue }.send
        (.snapshotComplete (session.wireBucketId b) checksum))
    | _ => none
  | .serve =>
    match s.phase with
    | .snapshots session [] => some { s with phase := .serving session [] }
    | _ => none
  | .startPoll order =>
    match s.phase with
    | .serving session scanning => s.poll session scanning (.startPoll order)
    | _ => none
  | .scan failed =>
    match s.phase, failed with
    | .serving _ (_ :: _), some e => some (s.fail e)
    | .serving session scanning, none => s.poll session scanning .scan
    | _, _ => none
  | .keepalive nowMs =>
    match s.phase with
    | .serving _ [] => some (s.send (.keepalive nowMs))
    | _ => none
  | .shutdown =>
    match s.phase with
    | .serving _ [] => some { s with phase := .reporting none false }
    | _ => none
  | .report sent =>
    match s.phase with
    | .reporting reason _ => some (s.report reason sent)
    | _ => none
  | .sendFailed error =>
    match s.phase with
    | .snapshots _ _ | .streaming _ _ _ _ _ | .serving _ [] =>
      some (s.close (.error (.protocolError ("WebSocket send failed: " ++ error))))
    -- a Delta cannot be sent: the error of `poll_deltas` is reported
    | .serving _ (_ :: _) =>
      some { s with
        phase := .reporting (some (.protocolError ("WebSocket send failed: " ++ error))) true }
    | _ => none

variable {s t : Connection}

/-- The first message of an open socket is refused with an error, or it is a Subscribe. -/
theorem subscribe_cases (s : Connection) (msg : Incoming) :
    (∃ e, s.subscribe msg = s.close (.error e) ∧ (msg = .ended ∨ msg = .close)) ∨
    (∃ e socketFailed, s.subscribe msg = { s with phase := .reporting (some e) socketFailed } ∧
      (socketFailed = true ↔ ∃ error, msg = .failed error)) ∨
    ∃ buckets token resumeLsn version,
      msg = .binary (.ok (.subscribe buckets token resumeLsn version)) ∧
        s.subscribe msg =
          { s with phase := .validating token resumeLsn, requested := buckets } := by
  cases msg with
  | ended => exact Or.inl ⟨_, rfl, Or.inl rfl⟩
  | close => exact Or.inl ⟨_, rfl, Or.inr rfl⟩
  | failed error => exact Or.inr (Or.inl ⟨_, true, rfl, by simp⟩)
  | other => exact Or.inr (Or.inl ⟨_, false, rfl, by simp⟩)
  | binary decoded =>
    cases decoded with
    | error error => exact Or.inr (Or.inl ⟨_, false, rfl, by simp⟩)
    | ok msg =>
      cases msg with
      | subscribe buckets token resumeLsn version =>
        exact Or.inr (Or.inr ⟨buckets, token, resumeLsn, version, rfl, rfl⟩)
      | ack | write | ping => exact Or.inr (Or.inl ⟨_, false, rfl, by simp⟩)

theorem requested_subscribe (s : Connection) (msg : Incoming) :
    (s.subscribe msg).requested = s.requested ∨ ∃ buckets token resumeLsn version,
      msg = .binary (.ok (.subscribe buckets token resumeLsn version)) := by
  rcases s.subscribe_cases msg with ⟨e, he, _⟩ | ⟨e, socketFailed, he, _⟩ |
    ⟨buckets, token, resumeLsn, version, rfl, _⟩
  · rw [he]
    exact Or.inl rfl
  · rw [he]
    exact Or.inl rfl
  · exact Or.inr ⟨buckets, token, resumeLsn, version, rfl⟩

theorem requested_receive (s : Connection) (session : Session) (nowMs : UInt64)
    (outcome : WriteOutcome) (msg : Incoming) :
    (s.receive session nowMs outcome msg).requested = s.requested ∧
      ((s.receive session nowMs outcome msg).phase = .awaiting → s.phase = .awaiting) := by
  cases msg with
  | ended | failed | close => exact ⟨rfl, nofun⟩
  | other => exact ⟨rfl, id⟩
  | binary decoded =>
    cases decoded with
    | error error => exact ⟨rfl, id⟩
    | ok msg =>
      cases msg with
      | write entityType entityId op => cases outcome <;> exact ⟨rfl, nofun⟩
      | subscribe | ack | ping => exact ⟨rfl, nofun⟩

/-- What one step of a connection can do. -/
inductive Steps (s : Connection) : ConnectionAction → Connection → Prop
  | append (wall : UInt64) (b : BucketId) (op : BucketOp) :
    Steps s (.append wall b op) { s with log := s.log.append wall b op.lsn op }
  | compact (cutoff : UInt64) : Steps s (.compact cutoff) { s with log := s.log.compact cutoff }
  | subscribe (msg : Incoming) (nowMs : UInt64) (outcome : WriteOutcome)
    (hphase : s.phase = .awaiting) : Steps s (.incoming msg nowMs outcome) (s.subscribe msg)
  | receive {session : Session} (msg : Incoming) (nowMs : UInt64) (outcome : WriteOutcome)
    (hphase : s.phase = .serving session []) :
    Steps s (.incoming msg nowMs outcome) (s.receive session nowMs outcome msg)
  | rejected {token : String} {resumeLsn : Option PgLsn} (e : SyncError)
    (hphase : s.phase = .validating token resumeLsn) : Steps s (.validate (.error e)) (s.fail e)
  | validated {token : String} {resumeLsn : Option PgLsn} (claims : TokenClaims)
    (hphase : s.phase = .validating token resumeLsn) :
    Steps s (.validate (.ok claims))
      { s with phase := .assigning claims resumeLsn, validated := some claims }
  | unassigned {assigner : BucketAssigner} {clock : Clock} {db : String → Database}
    {order : List BucketId} {claims : TokenClaims} {resumeLsn : Option PgLsn} {e : SyncError}
    (hphase : s.phase = .assigning claims resumeLsn)
    (hassign : (assigner.assign clock db claims).1 = .error e) :
    Steps s (.assign assigner clock db order) (s.fail e)
  | assigned {assigner : BucketAssigner} {clock : Clock} {db : String → Database}
    {order : List BucketId} {claims : TokenClaims} {resumeLsn : Option PgLsn}
    {assignments : List BucketAssignment} (hphase : s.phase = .assigning claims resumeLsn)
    (hassign : (assigner.assign clock db claims).1 = .ok assignments)
    (horder : order.Perm (handshake assignments s.requested resumeLsn).freshBuckets) :
    Steps s (.assign assigner clock db order)
      { s with
        phase := .snapshots (handshake assignments s.requested resumeLsn) order
        assigned := some assignments }
  | snapshotFailed {session : Session} {b : BucketId} {queue : List BucketId} (e : SyncError)
    (hphase : s.phase = .snapshots session (b :: queue)) :
    Steps s (.beginSnapshot (.error e)) (s.close (.error e))
  | beginSnapshot {session : Session} {b : BucketId} {queue : List BucketId}
    (checksum : BucketChecksum) (hphase : s.phase = .snapshots session (b :: queue)) :
    Steps s (.beginSnapshot (.ok checksum))
      ({ s with phase := .streaming session b checksum 0 queue }.send
        (.snapshotBegin (session.wireBucketId b) 0 protocolVersion))
  | batchFailed {session : Session} {b : BucketId} {checksum : BucketChecksum} {offset : UInt64}
    {queue : List BucketId} (e : SyncError)
    (hphase : s.phase = .streaming session b checksum offset queue) :
    Steps s (.batch (.error e)) (s.close (.error e))
  | batch {session : Session} {b : BucketId} {checksum : BucketChecksum} {offset : UInt64}
    {queue : List BucketId} (rows : List Value)
    (hphase : s.phase = .streaming session b checksum offset queue) :
    Steps s (.batch (.ok rows))
      ({ s with phase := .streaming session b checksum (offset + 1) queue }.send
        (.snapshotBatch (session.wireBucketId b) rows offset))
  | endSnapshot {session : Session} {b : BucketId} {checksum : BucketChecksum} {offset : UInt64}
    {queue : List BucketId} (hphase : s.phase = .streaming session b checksum offset queue) :
    Steps s .endSnapshot
      ({ s with phase := .snapshots session queue }.send
        (.snapshotComplete (session.wireBucketId b) checksum))
  | serve {session : Session} (hphase : s.phase = .snapshots session []) :
    Steps s .serve { s with phase := .serving session [] }
  | startPoll {session : Session} {scanning order : List BucketId} {t : Connection}
    (hphase : s.phase = .serving session scanning)
    (hpoll : s.poll session scanning (.startPoll order) = some t) : Steps s (.startPoll order) t
  | scanFailed {session : Session} {b : BucketId} {scanning : List BucketId} (e : SyncError)
    (hphase : s.phase = .serving session (b :: scanning)) : Steps s (.scan (some e)) (s.fail e)
  | scan {session : Session} {scanning : List BucketId} {t : Connection}
    (hphase : s.phase = .serving session scanning)
    (hpoll : s.poll session scanning .scan = some t) : Steps s (.scan none) t
  | keepalive {session : Session} (nowMs : UInt64) (hphase : s.phase = .serving session []) :
    Steps s (.keepalive nowMs) (s.send (.keepalive nowMs))
  | shutdown {session : Session} (hphase : s.phase = .serving session []) :
    Steps s .shutdown { s with phase := .reporting none false }
  | report {reason : Option SyncError} {socketFailed : Bool} (sent : Bool)
    (hphase : s.phase = .reporting reason socketFailed) :
    Steps s (.report sent) (s.report reason sent)
  | sendFailed (error : String) :
    Steps s (.sendFailed error)
      (s.close (.error (.protocolError ("WebSocket send failed: " ++ error))))
  | deltaFailed {session : Session} {b : BucketId} {scanning : List BucketId} (error : String)
    (hphase : s.phase = .serving session (b :: scanning)) :
    Steps s (.sendFailed error) { s with
      phase := .reporting (some (.protocolError ("WebSocket send failed: " ++ error))) true }

theorem steps_of_step {a : ConnectionAction} (h : s.step a = some t) : s.Steps a t := by
  cases a with
  | append wall b op =>
    cases h
    exact .append wall b op
  | compact cutoff =>
    cases h
    exact .compact cutoff
  | incoming msg nowMs outcome =>
    simp only [step] at h
    split at h
    next hphase =>
      cases h
      exact .subscribe msg nowMs outcome hphase
    next hphase =>
      cases h
      exact .receive msg nowMs outcome hphase
    next => cases h
  | validate result =>
    simp only [step] at h
    split at h
    next hphase =>
      cases h
      exact .rejected _ hphase
    next hphase =>
      cases h
      exact .validated _ hphase
    next => cases h
  | assign assigner clock db order =>
    simp only [step] at h
    split at h
    next hphase =>
      split at h
      next hassign =>
        cases h
        exact .unassigned hphase hassign
      next hassign =>
        split at h
        next horder =>
          cases h
          exact .assigned hphase hassign horder
        next => cases h
    next => cases h
  | beginSnapshot checksum =>
    simp only [step] at h
    split at h
    next hphase =>
      cases h
      exact .snapshotFailed _ hphase
    next hphase =>
      cases h
      exact .beginSnapshot _ hphase
    next => cases h
  | batch rows =>
    simp only [step] at h
    split at h
    next hphase =>
      cases h
      exact .batchFailed _ hphase
    next hphase =>
      cases h
      exact .batch _ hphase
    next => cases h
  | endSnapshot =>
    simp only [step] at h
    split at h
    next hphase =>
      cases h
      exact .endSnapshot hphase
    next => cases h
  | serve =>
    simp only [step] at h
    split at h
    next hphase =>
      cases h
      exact .serve hphase
    next => cases h
  | startPoll order =>
    simp only [step] at h
    split at h
    next hphase => exact .startPoll hphase h
    next => cases h
  | scan failed =>
    simp only [step] at h
    split at h
    next hphase =>
      cases h
      exact .scanFailed _ hphase
    next hphase => exact .scan hphase h
    next => cases h
  | keepalive nowMs =>
    simp only [step] at h
    split at h
    next hphase =>
      cases h
      exact .keepalive nowMs hphase
    next => cases h
  | shutdown =>
    simp only [step] at h
    split at h
    next hphase =>
      cases h
      exact .shutdown hphase
    next => cases h
  | report sent =>
    simp only [step] at h
    split at h
    next hphase =>
      cases h
      exact .report sent hphase
    next => cases h
  | sendFailed error =>
    simp only [step] at h
    split at h
    next =>
      cases h
      exact .sendFailed error
    next =>
      cases h
      exact .sendFailed error
    next =>
      cases h
      exact .sendFailed error
    next hphase =>
      cases h
      exact .deltaFailed error hphase
    next => cases h

theorem sent_report (s : Connection) (reason : Option SyncError) (sent : Bool) :
    (s.report reason sent).sent = s.sent ++ if sent then [reportFrame reason] else [] := by
  cases sent with
  | false => exact (List.append_nil _).symm
  | true => rfl

theorem log_report (s : Connection) (reason : Option SyncError) (sent : Bool) :
    (s.report reason sent).log = s.log := by
  cases sent <;> rfl

theorem requested_report (s : Connection) (reason : Option SyncError) (sent : Bool) :
    (s.report reason sent).requested = s.requested := by
  cases sent <;> rfl

theorem requested_poll {session : Session} {scanning : List BucketId} {a : DeliveryAction}
    (h : s.poll session scanning a = some t) :
    t.phase ≠ .awaiting ∧ t.requested = s.requested := by
  obtain ⟨d, _, rfl⟩ := Option.map_eq_some_iff.mp h
  simp

/-- Only the first `Subscribe` says what is requested, and no step waits for another one. -/
theorem requested_of_step {a : ConnectionAction} (h : s.step a = some t) :
    (t.phase = .awaiting → s.phase = .awaiting) ∧
      (t.requested = s.requested ∨ s.phase = .awaiting ∧
        ∃ buckets token resumeLsn version nowMs outcome,
          a = .incoming (.binary (.ok (.subscribe buckets token resumeLsn version))) nowMs
            outcome) := by
  cases steps_of_step h with
  | append | compact | keepalive => exact ⟨id, Or.inl rfl⟩
  | subscribe msg nowMs outcome hphase =>
    refine ⟨fun _ => hphase, (s.requested_subscribe msg).imp_right ?_⟩
    rintro ⟨buckets, token, resumeLsn, version, rfl⟩
    exact ⟨hphase, buckets, token, resumeLsn, version, nowMs, outcome, rfl⟩
  | @receive session msg nowMs outcome hphase =>
    have hreceive := s.requested_receive session nowMs outcome msg
    exact ⟨hreceive.2, Or.inl hreceive.1⟩
  | startPoll hphase hpoll | scan hphase hpoll =>
    have hrequested := requested_poll hpoll
    exact ⟨fun hawaiting => absurd hawaiting hrequested.1, Or.inl hrequested.2⟩
  | report sent hphase => exact ⟨nofun, Or.inl (s.requested_report _ sent)⟩
  | rejected | validated | unassigned | assigned | snapshotFailed | beginSnapshot | batchFailed
  | batch | endSnapshot | serve | scanFailed | shutdown | sendFailed | deltaFailed =>
    exact ⟨nofun, Or.inl rfl⟩

end Connection

end EntitySync.Gateway
