import EntitySync.Client.Codec
import EntitySync.Gateway.Confinement

/-!
# Subscriptions on an open connection

One `SyncClient` on a connection it has opened, the gateway's end of this connection, and the
frames between them. `subscribe` and the token refresh send a `Subscribe` on the open connection,
and the gateway expects one only as the first message.
-/

namespace EntitySync.System

open Client (SyncClient maxSafeInteger)
open Gateway (Connection ConnectionAction Incoming WriteOutcome)
open StepSystem

def isError : ServerMessage → Bool
  | .error _ _ => true
  | _ => false

/-- What `decode_client` makes of a message that `encodeClient` encoded. A number above the safe
integers is encoded as a float, which is no `u64`; `readable` are the ops it can read. -/
def transmit (readable : Op → Bool) (msg : ClientMessage) : Option ClientMessage :=
  match msg with
  | .subscribe _ _ (some lsn) _ | .ack lsn => if lsn ≤ maxSafeInteger then some msg else none
  | .write _ _ op => if readable op then some msg else none
  | .subscribe _ _ none _ | .ping => some msg

/-- The message as the gateway reads it, with the decoder's text for one that it cannot read. -/
def arriving (readable : Op → Bool) (malformed : ClientMessage → String) (msg : ClientMessage) :
    Incoming :=
  match transmit readable msg with
  | some msg => .binary (.ok msg)
  | none => .binary (.error (malformed msg))

/-- The LSNs that survive the encoding are those that the client's numbers name. -/
theorem transmit_eq_some_iff (readable : Op → Bool) (lsn : PgLsn) (buckets : List String)
    (token : String) (version : UInt8) :
    (transmit readable (.ack lsn) = some (.ack lsn) ↔ Client.NamesLsn lsn) ∧
    (transmit readable (.subscribe buckets token (some lsn) version) =
      some (.subscribe buckets token (some lsn) version) ↔ Client.NamesLsn lsn) := by
  rw [Client.namesLsn_iff]
  by_cases hlsn : lsn ≤ maxSafeInteger
  · simp [transmit, hlsn]
  · simp [transmit, hlsn]

def subscription (valid : String → Bool) : ClientMessage → Option (List String)
  | .subscribe buckets token _ _ => if valid token then some buckets else none
  | .ack _ | .write _ _ _ | .ping => none

structure Live where
  client : SyncClient
  conn : Connection
  /-- The socket's `open` event has fired. -/
  opened : Bool
  /-- The `subscribe` calls that are still waiting for their token. -/
  resolving : Nat
  outbox : List ClientMessage
  /-- How many of the gateway's frames the client has handled. -/
  handled : Nat
  /-- The buckets of the last `Subscribe` with a valid token that the gateway read. -/
  lastRead : Option (List String)
  /-- The positions of the Error frames that answer a `Subscribe` with a valid token, or would if
  they can be sent. -/
  refusals : List Nat
  /-- The position of the Error frame that the client's error state is from. -/
  errorFrom : Option Nat

inductive LiveAction where
  | opened (token : String)
  | subscribe (buckets : List String) (resumeLsn : Option PgLsn)
  | tokenResolved (token : Except String String)
  | refreshAndResubscribe (token : Except String String)
  | write (entityType entityId : String) (op : Op)
  | receive
  | gateway (a : ConnectionAction)
  | read (nowMs : UInt64) (outcome : WriteOutcome)

namespace Live

def start (client : SyncClient) (log : Oplog.Partitions) : Live where
  client := client
  conn := .start log
  opened := false
  resolving := 0
  outbox := []
  handled := 0
  lastRead := none
  refusals := []
  errorFrom := none

def send (s : Live) (msg : ClientMessage) : Live := { s with outbox := s.outbox ++ [msg] }

def handshaking (valid : String → Bool) : Gateway.Phase → Bool
  | .validating token _ => valid token
  | .assigning _ _ => true
  | .awaiting | .snapshots _ _ | .streaming _ _ _ _ _ | .serving _ _ | .reporting _ _
  | .closed _ => false

def reportsError : Gateway.Phase → Bool
  | .reporting reason _ => reason.isSome
  | _ => false

/-- On the way from `c` to `d` an Error frame was sent, or is about to be the last one sent. -/
def answersError (c d : Connection) : Bool :=
  (d.sent.drop c.sent.length).any isError || reportsError d.phase

def advance (s : Live) (subscribing : Bool) (conn : Connection) : Live :=
  { s with
    conn := conn
    refusals := if subscribing && answersError s.conn conn then
      s.refusals ++ [s.conn.sent.length] else s.refusals }

/-- The gateway's own steps: the client's frames come from the outbox, and validation accepts
exactly the valid tokens. -/
def permits (valid : String → Bool) (conn : Connection) : ConnectionAction → Bool
  | .incoming (.binary _) _ _ => false
  | .validate result =>
    match conn.phase with
    | .validating token _ => result.isOk == valid token
    | _ => true
  | _ => true

def handle (s : Live) (frame : ServerMessage) : Live :=
  { s with
    client := (s.client.handleMessage frame).1
    outbox := s.outbox ++ (s.client.handleMessage frame).2.toList
    handled := s.handled + 1
    errorFrom := if isError frame then some s.handled else s.errorFrom }

section
variable (valid : String → Bool) (readable : Op → Bool) (malformed : ClientMessage → String)

def step (s : Live) : LiveAction → Option Live
  | .opened token =>
    if s.opened then none else some ({ s with opened := true }.send (s.client.sendSubscribe token))
  | .subscribe buckets resumeLsn =>
    if s.opened then some { s with
      client := s.client.subscribe buckets resumeLsn
      resolving := s.resolving + 1 }
    else none
  | .tokenResolved token =>
    match s.resolving, token with
    | 0, _ => none
    | n + 1, .error _ => some { s with resolving := n }
    | n + 1, .ok token => some ({ s with resolving := n }.send (s.client.sendSubscribe token))
  | .refreshAndResubscribe token =>
    match s.opened, token with
    | false, _ => none
    | true, .error e =>
      some { s with client := { s.client with status := .error e }, errorFrom := none }
    | true, .ok token => some (s.send (s.client.sendSubscribe token))
  | .write entityType entityId op =>
    if s.opened then some (s.send (.write entityType entityId op)) else none
  | .receive => s.conn.sent[s.handled]?.map s.handle
  | .gateway a =>
    if permits valid s.conn a then
      (s.conn.step a).map (s.advance (handshaking valid s.conn.phase))
    else none
  | .read nowMs outcome =>
    match s.outbox with
    | [] => none
    | msg :: rest =>
      (s.conn.step (.incoming (arriving readable malformed msg) nowMs outcome)).map fun conn =>
        { s.advance (subscription valid msg).isSome conn with
          outbox := rest
          lastRead := (subscription valid msg).or s.lastRead }

/-- The authorized buckets are those of the client's list, once the gateway has read it. -/
def Authorized (s : Live) : Prop :=
  ∀ session ∈ s.conn.phase.session, ∀ assignments ∈ s.conn.assigned,
    s.lastRead = some s.client.subscribedBuckets → ∀ b, b ∈ session.authorizedBuckets ↔
      ∃ a ∈ assignments, a.ruleId ∈ s.client.subscribedBuckets ∧ a.bucketId = b

/-- No `Subscribe` with a valid token was refused, the authorized buckets are those of the client's
list, and the client's error state is not from a refusal. -/
def TakesEffect (s : Live) : Prop :=
  s.refusals = [] ∧ s.Authorized ∧
    ∀ message, s.client.status = .error message → ∀ i ∈ s.errorFrom, i ∉ s.refusals

/-- A `Subscribe` with a valid token is read as the first message of the connection, its LSN is a
safe integer, and the token's buckets can be resolved. -/
def Opens (s : Live) : LiveAction → Prop
  | .read _ _ => ∀ buckets token resumeLsn version,
    s.outbox.head? = some (.subscribe buckets token resumeLsn version) → valid token →
      s.conn.phase = .awaiting ∧ ∀ lsn ∈ resumeLsn, lsn ≤ maxSafeInteger
  | .gateway (.assign assigner clock db _) => ∀ claims resumeLsn,
    s.conn.phase = .assigning claims resumeLsn → assigner.Resolvable clock db claims
  | _ => True

end

variable {valid : String → Bool} {readable : Op → Bool} {malformed : ClientMessage → String}
  {s t : Live} {conn : Connection}

@[simp] theorem isError_errorFrame (e : SyncError) : isError (Gateway.errorFrame e) = true := rfl

theorem answersError_of_same {c d : Connection} (h : d.sent = c.sent) :
    answersError c d = reportsError d.phase := by
  simp [answersError, h]

theorem answersError_of_append {c d : Connection} {frame : ServerMessage}
    (h : d.sent = c.sent ++ [frame]) :
    answersError c d = (isError frame || reportsError d.phase) := by
  simp [answersError, h]

theorem reportsError_of_handshaking {p : Gateway.Phase} (h : handshaking valid p = true) :
    reportsError p = false := by
  cases p <;> first | rfl | cases h

structure Sound (s : Live) : Prop where
  guarded : s.conn.Guarded
  requested : ∀ buckets ∈ s.lastRead, s.conn.requested = buckets
  fresh : s.conn.phase = .awaiting → s.lastRead = none
  accepted : s.refusals = []

theorem Sound.takesEffect (h : s.Sound) : s.TakesEffect := by
  refine ⟨h.accepted, ?_, by simp [h.accepted]⟩
  intro session hsession assignments hassigned hread b
  obtain ⟨granted, ⟨hgranted, _⟩, hauth⟩ := h.guarded.granted hsession
  obtain rfl : assignments = granted := Option.some.inj (hassigned.symm.trans hgranted)
  rw [hauth, h.requested _ hread]
  exact Gateway.mem_authorize

theorem sound_start (client : SyncClient) (log : Oplog.Partitions) : (start client log).Sound where
  guarded := trivial
  requested := by simp [start]
  fresh := fun _ => rfl
  accepted := rfl

theorem refusals_advance (h : s.refusals = []) (subscribing : Bool) :
    (s.advance subscribing conn).refusals = [] ↔
      ¬(subscribing = true ∧ answersError s.conn conn = true) := by
  simp only [advance, h, List.nil_append]
  split <;> simp_all

theorem opens_assign_iff {assigner : Rules.BucketAssigner} {clock : Rules.Clock}
    {db : String → Rules.Database} {order : List BucketId} {claims : TokenClaims}
    {resumeLsn : Option PgLsn} (hphase : s.conn.phase = .assigning claims resumeLsn) :
    Opens valid s (.gateway (.assign assigner clock db order)) ↔
      (assigner.assign clock db claims).1.isOk := by
  simp [Opens, hphase, Rules.BucketAssigner.isOk_assign_iff]

/-- The gateway refuses a valid token exactly if its buckets cannot be resolved. -/
theorem gateway_refuses_iff {a : ConnectionAction} (hpermits : permits valid s.conn a)
    (hstep : s.conn.step a = some conn) :
    (handshaking valid s.conn.phase = true ∧ answersError s.conn conn = true) ↔
      ¬Opens valid s (.gateway a) := by
  cases Connection.steps_of_step hstep with
  | append | compact =>
    simp only [Opens, not_true_eq_false, iff_false, not_and]
    intro hsubscribing
    simp [answersError_of_same, reportsError_of_handshaking hsubscribing]
  | sendFailed => simp [answersError_of_same, Connection.close, reportsError, Opens]
  | validated claims hphase => simp [answersError_of_same, reportsError, Opens]
  | @rejected token resumeLsn e hphase =>
    have hinvalid : valid token = false := by
      simpa [permits, hphase] using hpermits
    simp [handshaking, hphase, hinvalid, Opens]
  | unassigned hphase hassign =>
    rw [opens_assign_iff hphase, hassign]
    simp [handshaking, hphase, Connection.fail, answersError_of_same, reportsError]
  | assigned hphase hassign horder =>
    rw [opens_assign_iff hphase, hassign]
    simp [answersError_of_same, reportsError]
  | subscribe _ _ _ hphase | receive _ _ _ hphase | snapshotFailed _ hphase
  | beginSnapshot _ hphase | batchFailed _ hphase | batch _ hphase | endSnapshot hphase
  | serve hphase | startPoll hphase | scanFailed _ hphase | scan hphase | keepalive _ hphase
  | shutdown hphase | report _ hphase | deltaFailed _ hphase =>
    simp [handshaking, hphase, Opens]

theorem arriving_subscribe (readable : Op → Bool) (malformed : ClientMessage → String)
    (buckets : List String) (token : String) (resumeLsn : Option PgLsn) (version : UInt8) :
    (∀ lsn ∈ resumeLsn, lsn ≤ maxSafeInteger) ∧
      arriving readable malformed (.subscribe buckets token resumeLsn version) =
        .binary (.ok (.subscribe buckets token resumeLsn version)) ∨
    ¬(∀ lsn ∈ resumeLsn, lsn ≤ maxSafeInteger) ∧ ∃ error,
      arriving readable malformed (.subscribe buckets token resumeLsn version) =
        .binary (.error error) := by
  cases resumeLsn with
  | none => simp [arriving, transmit]
  | some lsn =>
    by_cases hsafe : lsn ≤ maxSafeInteger
    · simp [arriving, transmit, hsafe]
    · simp [arriving, transmit, hsafe]

theorem read_refuses_iff {buckets : List String} {token : String} {resumeLsn : Option PgLsn}
    {version : UInt8} {nowMs : UInt64} {outcome : WriteOutcome}
    (hstep : s.conn.step (.incoming (arriving readable malformed
      (.subscribe buckets token resumeLsn version)) nowMs outcome) = some conn) :
    answersError s.conn conn = true ↔
      ¬(s.conn.phase = .awaiting ∧ ∀ lsn ∈ resumeLsn, lsn ≤ maxSafeInteger) := by
  have harriving := arriving_subscribe readable malformed buckets token resumeLsn version
  generalize arriving readable malformed (.subscribe buckets token resumeLsn version) = msg
    at harriving hstep
  cases Connection.steps_of_step hstep with
  | subscribe _ _ _ hphase =>
    rcases harriving with ⟨hsafe, rfl⟩ | ⟨hlarge, error, rfl⟩
    · simp only [Connection.subscribe, answersError_of_same, reportsError, hphase, true_and]
      simpa using hsafe
    · simp only [Connection.subscribe, answersError_of_same, Connection.fail, reportsError, hphase,
        Option.isSome_some, true_and, hlarge, not_false_eq_true]
  | receive _ _ _ hphase =>
    rcases harriving with ⟨_, rfl⟩ | ⟨_, error, rfl⟩
    · rw [answersError_of_append rfl]
      simp [hphase]
    · rw [answersError_of_append rfl]
      simp [hphase]

theorem subscription_eq_some {msg : ClientMessage} {buckets : List String} :
    subscription valid msg = some buckets ↔ ∃ token resumeLsn version,
      msg = .subscribe buckets token resumeLsn version ∧ valid token = true := by
  cases msg with
  | subscribe requested token resumeLsn version =>
    simp only [subscription, Option.ite_none_right_eq_some, Option.some.injEq]
    constructor
    · rintro ⟨hvalid, rfl⟩
      exact ⟨token, resumeLsn, version, rfl, hvalid⟩
    · rintro ⟨_, _, _, heq, hvalid⟩
      cases heq
      exact ⟨hvalid, rfl⟩
  | ack | write | ping => simp [subscription]

theorem client_step {a : LiveAction} (hgateway : ∀ b, a ≠ .gateway b)
    (hread : ∀ nowMs outcome, a ≠ .read nowMs outcome)
    (hstep : s.step valid readable malformed a = some t) :
    t.conn = s.conn ∧ t.lastRead = s.lastRead ∧ t.refusals = s.refusals := by
  cases a with
  | gateway b => exact absurd rfl (hgateway b)
  | read nowMs outcome => exact absurd rfl (hread nowMs outcome)
  | receive =>
    obtain ⟨frame, _, rfl⟩ := Option.map_eq_some_iff.mp hstep
    exact ⟨rfl, rfl, rfl⟩
  | opened | subscribe | tokenResolved | refreshAndResubscribe | write =>
    simp only [step] at hstep
    split at hstep <;> cases hstep
    all_goals exact ⟨rfl, rfl, rfl⟩

/-- A step keeps every `Subscribe` accepted exactly if it meets `Opens`. -/
theorem Sound.refusals_iff (h : s.Sound) {a : LiveAction}
    (hstep : s.step valid readable malformed a = some t) : t.refusals = [] ↔ s.Opens valid a := by
  cases a with
  | gateway a =>
    simp only [step] at hstep
    split at hstep
    next hpermits =>
      obtain ⟨conn, hconn, rfl⟩ := Option.map_eq_some_iff.mp hstep
      rw [refusals_advance h.accepted, gateway_refuses_iff hpermits hconn, not_not]
    next => cases hstep
  | read nowMs outcome =>
    simp only [step] at hstep
    split at hstep
    next => cases hstep
    next msg rest hout =>
      obtain ⟨conn, hconn, rfl⟩ := Option.map_eq_some_iff.mp hstep
      change (s.advance _ conn).refusals = [] ↔ _
      rw [refusals_advance h.accepted]
      simp only [Opens, hout, List.head?_cons, Option.some.injEq]
      cases hsub : subscription valid msg with
      | none =>
        simp only [Option.isSome_none, Bool.false_eq_true, false_and, not_false_eq_true, true_iff]
        rintro buckets token resumeLsn version rfl hvalid
        simp [subscription, hvalid] at hsub
      | some buckets =>
        obtain ⟨token, resumeLsn, version, rfl, hvalid⟩ := subscription_eq_some.mp hsub
        rw [read_refuses_iff hconn, Option.isSome_some, eq_self, true_and, not_not]
        constructor
        · intro hfirst _ _ _ _ heq _
          cases heq
          exact hfirst
        · intro hfirst
          exact hfirst _ _ _ _ rfl hvalid
  | _ =>
    have hsame := client_step (by simp) (by simp) hstep
    simp [hsame.2.2, h.accepted, Opens]

theorem Sound.step (h : s.Sound) {a : LiveAction}
    (hstep : s.step valid readable malformed a = some t) (hopens : s.Opens valid a) :
    t.Sound := by
  have haccepted := (h.refusals_iff hstep).mpr hopens
  cases a with
  | gateway a =>
    simp only [Live.step] at hstep
    split at hstep
    next hpermits =>
      obtain ⟨conn, hconn, rfl⟩ := Option.map_eq_some_iff.mp hstep
      have hrequested := Connection.requested_of_step hconn
      refine ⟨(h.guarded.step hconn).2, ?_, fun hphase => h.fresh (hrequested.1 hphase), haccepted⟩
      intro buckets hbuckets
      rcases hrequested.2 with hsame | ⟨_, _, _, _, _, _, _, rfl⟩
      · exact hsame.trans (h.requested buckets hbuckets)
      · simp [permits] at hpermits
    next => cases hstep
  | read nowMs outcome =>
    simp only [Live.step] at hstep
    split at hstep
    next => cases hstep
    next msg rest hout =>
      obtain ⟨conn, hconn, rfl⟩ := Option.map_eq_some_iff.mp hstep
      have hguarded := (h.guarded.step hconn).2
      have hrequested := Connection.requested_of_step hconn
      cases hsub : subscription valid msg with
      | none =>
        simp only [hsub, Option.none_or] at haccepted ⊢
        refine ⟨hguarded, ?_, fun hphase => h.fresh (hrequested.1 hphase), haccepted⟩
        intro buckets hbuckets
        rcases hrequested.2 with hsame | ⟨hphase, _⟩
        · exact hsame.trans (h.requested buckets hbuckets)
        · simp [h.fresh hphase] at hbuckets
      | some buckets =>
        obtain ⟨token, resumeLsn, version, rfl, hvalid⟩ := subscription_eq_some.mp hsub
        obtain ⟨hphase, hsafe⟩ := hopens buckets token resumeLsn version (by rw [hout]; rfl) hvalid
        rcases arriving_subscribe readable malformed buckets token resumeLsn version with
          ⟨_, hok⟩ | hlarge
        · simp only [hok, Connection.step, hphase, Option.some.injEq] at hconn
          subst hconn
          rw [hsub] at haccepted
          refine ⟨hguarded, by simp [advance, Connection.subscribe], ?_, haccepted⟩
          intro hvalidating
          cases hvalidating
        · exact absurd hsafe hlarge.1
  | _ =>
    obtain ⟨hconn, hread, -⟩ := client_step (by simp) (by simp) hstep
    refine ⟨hconn ▸ h.guarded, ?_, ?_, haccepted⟩
    · rw [hconn, hread]
      exact h.requested
    · rw [hconn, hread]
      exact h.fresh

/-- On an open connection, whatever the client and the gateway do, every `Subscribe` with a valid
token takes effect exactly as long as each is the connection's first message, with a safe LSN and
a token whose buckets can be resolved. -/
theorem subscriptions_take_effect_iff (valid : String → Bool) (readable : Op → Bool)
    (malformed : ClientMessage → String) (client : SyncClient) (log : Oplog.Partitions)
    (as : List LiveAction) :
    Always (step valid readable malformed) TakesEffect (start client log) as ↔
      Meets (step valid readable malformed) (Opens valid) (start client log) as := by
  apply always_iff_meets (J := Sound) (E := fun _ _ => True)
  · intro s hs
    exact hs.takesEffect
  · intro s a t hs _ hstep
    constructor
    · intro ht
      exact (hs.refusals_iff hstep).mp ht.1
    · intro hopens
      exact (hs.step hstep hopens).takesEffect
  · intro s a t hs _ hstep ht
    exact hs.step hstep ((hs.refusals_iff hstep).mp ht.1)
  · exact meets_of_forall fun _ _ => trivial
  · exact sound_start client log

/-- As `subscribeBucket` does for a second bucket: the gateway refuses the `Subscribe`, the assigned
bucket stays unauthorized, and the client is left in the error state. -/
theorem second_subscribe_refused :
    ∃ t, run (step (fun _ => true) (fun _ => true) (fun _ => ""))
        (start (.new ["notes"]) Oplog.Partitions.empty)
        [.opened "token", .read 0 .applied, .gateway (.validate (.ok ⟨"alice", 1⟩)),
          .gateway (.assign Rules.ownerAssigner ⟨0, 0⟩ (Rules.answerUser "42") []),
          .gateway .serve, .subscribe ["notes", "user_entities"] none, .tokenResolved (.ok "token"),
          .read 0 .applied, .receive] = some t ∧
      t.conn.sent = [.error 4003 "protocol error"] ∧ t.refusals = [0] ∧
      t.lastRead = some t.client.subscribedBuckets ∧ ¬t.Authorized ∧
      t.client.status = .error "sync gateway error 4003: protocol error" ∧ ¬t.TakesEffect := by
  refine ⟨_, rfl, rfl, rfl, rfl, ?_, rfl, ?_⟩
  · intro h
    have hb := (h _ rfl _ rfl rfl (Rules.ownerAssignment "42").bucketId).mpr
      ⟨Rules.ownerAssignment "42", List.mem_cons_self, by decide, rfl⟩
    exact absurd hb (by decide)
  · intro h
    exact absurd h.1 (by decide)

end Live

end EntitySync.System
