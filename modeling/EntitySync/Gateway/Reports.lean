import EntitySync.Gateway.Connection

/-!
# Errors that the client is told

`GatewayErrorResponse` asks every response path to go through it. The handshake and the poll loop
do, but discard the result of the send; the errors of `deliver_snapshots` and of the scope check of
a `Write` leave through `?`.
-/

namespace EntitySync.Gateway

open Oplog (Partitions)
open StepSystem

def Phase.BeforeServing : Phase → Prop
  | .awaiting | .validating _ _ | .assigning _ _ | .snapshots _ _ | .streaming _ _ _ _ _ => True
  | .serving _ _ | .reporting _ _ | .closed _ => False

namespace Connection

/-- The step is a WebSocket read or send failure, or ends a connection on which one is reported. -/
def SocketFailure (s : Connection) : ConnectionAction → Prop
  | .incoming (.failed _) _ _ | .sendFailed _ => True
  | .report _ => ∃ reason, s.phase = .reporting reason true
  | _ => False

structure EndsWith (s t : Connection) (e : SyncError) : Prop where
  running : ∀ result, s.phase ≠ .closed result
  ended : t.phase = .closed (.error e)

/-- If the step ends the connection with an error that is no failure of the WebSocket, the client
has been sent the Error frame of that error. -/
def TellsClient (s : Connection) (a : ConnectionAction) : Prop :=
  ∀ t e, s.step a = some t → s.EndsWith t e → ¬s.SocketFailure a → errorFrame e ∈ t.sent

/-- The client does not close the socket before its `Subscribe`, and no snapshot fails. Neither a
failing scope check of a `Write` in the main loop nor a report that cannot be sent ends the
connection, unless the Error frame of its error was sent before. -/
def NoSilentFailure (s : Connection) : ConnectionAction → Prop
  | .beginSnapshot (.error _) | .batch (.error _) => False
  | .incoming .ended _ _ | .incoming .close _ _ => s.phase ≠ .awaiting
  | .incoming (.binary (.ok (.write _ _ _))) _ (.failed e) =>
    s.phase = .awaiting ∨ errorFrame e ∈ s.sent
  | .report false => ∀ e, s.phase = .reporting (some e) false → errorFrame e ∈ s.sent
  | _ => True

def Uneventful (s : Connection) : Prop :=
  s.phase.BeforeServing → ∀ e, errorFrame e ∉ s.sent

variable {s t : Connection}

theorem EndsWith.phase_ne {e : SyncError} (h : s.EndsWith t e) : t.phase ≠ s.phase := by
  intro heq
  exact h.running _ (heq ▸ h.ended)

theorem tellsClient_of_step {a : ConnectionAction} (h : s.step a = some t) :
    s.TellsClient a ↔ ∀ e, s.EndsWith t e → ¬s.SocketFailure a → errorFrame e ∈ t.sent := by
  constructor
  · intro htells e
    exact htells t e h
  · intro htells u e hu
    obtain rfl : t = u := Option.some.inj (h.symm.trans hu)
    exact htells e

theorem told_subscribe (hphase : s.phase = .awaiting) (hs : ∀ e, errorFrame e ∉ s.sent)
    (nowMs : UInt64) (outcome : WriteOutcome) (msg : Incoming) :
    (∀ e, s.EndsWith (s.subscribe msg) e → ¬s.SocketFailure (.incoming msg nowMs outcome) →
      errorFrame e ∈ (s.subscribe msg).sent) ↔
        s.NoSilentFailure (.incoming msg nowMs outcome) := by
  rcases s.subscribe_cases msg with ⟨e, he, hclosed⟩ | ⟨e, socketFailed, he, hopen⟩ |
    ⟨buckets, token, resumeLsn, version, rfl, he⟩
  · rw [he]
    have huntold : ¬s.NoSilentFailure (.incoming msg nowMs outcome) ∧
        ¬s.SocketFailure (.incoming msg nowMs outcome) := by
      rcases hclosed with rfl | rfl <;> simp [NoSilentFailure, SocketFailure, hphase]
    refine iff_of_false ?_ huntold.1
    intro htold
    exact hs e (htold e ⟨by simp [hphase], rfl⟩ huntold.2)
  · rw [he]
    refine iff_of_true (fun e h => nomatch h.ended) ?_
    rw [NoSilentFailure.eq_def]
    split
    next heq => cases heq
    next heq => cases heq
    next heq =>
      cases heq
      cases he
    next heq =>
      cases heq
      cases he
    next => exact Or.inl hphase
    next heq => cases heq
    next => trivial
  · rw [he]
    exact iff_of_true (fun e h => nomatch h.ended) trivial

theorem told_report {reason : Option SyncError} {socketFailed : Bool}
    (hphase : s.phase = .reporting reason socketFailed) (sent : Bool) :
    (∀ e, s.EndsWith (s.report reason sent) e → ¬s.SocketFailure (.report sent) →
      errorFrame e ∈ (s.report reason sent).sent) ↔ s.NoSilentFailure (.report sent) := by
  have hends (e : SyncError) : s.EndsWith (s.report reason sent) e ↔ reason = some e := by
    constructor
    · intro h
      have hresult := h.ended
      cases reason with
      | none => cases hresult
      | some e' =>
        cases hresult
        rfl
    · rintro rfl
      exact ⟨by simp [hphase], rfl⟩
  simp only [hends, sent_report, SocketFailure, hphase, Phase.reporting.injEq]
  cases sent with
  | true =>
    refine iff_of_true ?_ trivial
    rintro e rfl _
    exact List.mem_append_right _ List.mem_cons_self
  | false =>
    simp only [NoSilentFailure, hphase, Phase.reporting.injEq, Bool.false_eq_true, if_false,
      List.append_nil]
    cases socketFailed <;> simp

theorem told_receive {session : Session} (hphase : s.phase = .serving session []) (nowMs : UInt64)
    (outcome : WriteOutcome) (msg : Incoming) :
    (∀ e, s.EndsWith (s.receive session nowMs outcome msg) e →
      ¬s.SocketFailure (.incoming msg nowMs outcome) →
        errorFrame e ∈ (s.receive session nowMs outcome msg).sent) ↔
      s.NoSilentFailure (.incoming msg nowMs outcome) := by
  have hserving : s.phase ≠ .awaiting := by simp [hphase]
  cases msg with
  | ended | close => exact iff_of_true (fun e h => nomatch h.ended) hserving
  | failed error => exact iff_of_true (fun e _ h => absurd trivial h) trivial
  | other => exact iff_of_true (fun e h => absurd rfl h.phase_ne) trivial
  | binary decoded =>
    cases decoded with
    | error error => exact iff_of_true (fun e h => absurd rfl h.phase_ne) trivial
    | ok msg =>
      cases msg with
      | ack | ping | subscribe => exact iff_of_true (fun e h => nomatch h.ended) trivial
      | write entityType entityId op =>
        cases outcome with
        | applied | refused => exact iff_of_true (fun e h => nomatch h.ended) trivial
        | failed e =>
          simp only [NoSilentFailure, hserving, false_or]
          constructor
          · intro h
            exact h e ⟨by simp [hphase], rfl⟩ id
          · intro h e' hends _
            cases hends.ended
            exact h

theorem tellsClient_iff {a : ConnectionAction} (hs : s.Uneventful) (h : s.step a = some t) :
    s.TellsClient a ↔ s.NoSilentFailure a := by
  rw [tellsClient_of_step h]
  cases steps_of_step h with
  | append | compact | keepalive => exact iff_of_true (fun e h => absurd rfl h.phase_ne) trivial
  | subscribe msg nowMs outcome hphase =>
    exact told_subscribe hphase (hs (by rw [hphase]; trivial)) nowMs outcome msg
  | receive msg nowMs outcome hphase => exact told_receive hphase nowMs outcome msg
  | report sent hphase => exact told_report hphase sent
  | rejected | validated | unassigned | assigned | beginSnapshot | batch | endSnapshot | serve
  | scanFailed | shutdown =>
    exact iff_of_true (fun e h => nomatch h.ended) trivial
  | snapshotFailed e hphase | batchFailed e hphase =>
    refine iff_of_false ?_ id
    intro htold
    have hquiet := hs (by rw [hphase]; trivial)
    exact hquiet e (htold e ⟨by simp [hphase], rfl⟩ id)
  | startPoll hphase hpoll | scan hphase hpoll =>
    obtain ⟨d, _, rfl⟩ := Option.map_eq_some_iff.mp hpoll
    exact iff_of_true (fun e h => nomatch h.ended) trivial
  | sendFailed | deltaFailed => exact iff_of_true (fun e _ h => absurd trivial h) trivial

theorem uneventful_subscribe (hs : ∀ e, errorFrame e ∉ s.sent) (msg : Incoming) :
    (s.subscribe msg).Uneventful := by
  rcases s.subscribe_cases msg with ⟨_, he, _⟩ | ⟨_, _, he, _⟩ | ⟨_, _, _, _, _, he⟩
  · rw [he]
    exact False.elim
  · rw [he]
    exact False.elim
  · rw [he]
    exact fun _ => hs

theorem not_beforeServing_receive {session : Session} (hphase : s.phase = .serving session [])
    (nowMs : UInt64) (outcome : WriteOutcome) (msg : Incoming) :
    ¬(s.receive session nowMs outcome msg).phase.BeforeServing := by
  have hserving : ¬s.phase.BeforeServing := by
    rw [hphase]
    exact id
  cases msg with
  | ended | close | failed => exact id
  | other => exact hserving
  | binary decoded =>
    cases decoded with
    | error error => exact hserving
    | ok msg =>
      cases msg with
      | write entityType entityId op => cases outcome <;> exact id
      | ack | ping | subscribe => exact id

theorem uneventful_of_step {a : ConnectionAction} (hs : s.Uneventful) (h : s.step a = some t) :
    t.Uneventful := by
  cases steps_of_step h with
  | append | compact => exact hs
  | subscribe msg nowMs outcome hphase =>
    have hsilent := hs (by rw [hphase]; trivial)
    exact uneventful_subscribe hsilent msg
  | @receive session msg nowMs outcome hphase =>
    intro hbefore
    exact absurd hbefore (not_beforeServing_receive hphase nowMs outcome msg)
  | validated claims hphase | assigned hphase hassign horder =>
    intro _
    exact hs (by rw [hphase]; trivial)
  | beginSnapshot _ hphase | batch _ hphase | endSnapshot hphase =>
    intro _ e
    have hsilent := hs (by rw [hphase]; trivial) e
    simpa [send, errorFrame] using hsilent
  | keepalive nowMs hphase =>
    intro hbefore
    rw [send, hphase] at hbefore
    exact hbefore.elim
  | startPoll hphase hpoll | scan hphase hpoll =>
    obtain ⟨d, _, rfl⟩ := Option.map_eq_some_iff.mp hpoll
    exact False.elim
  | rejected | unassigned | snapshotFailed | batchFailed | serve | scanFailed | shutdown | report
  | sendFailed | deltaFailed => exact False.elim

/-- In every run of a connection, every error that ends it is told to the client, failures of the
WebSocket apart, if and only if the client does not close the socket before its `Subscribe`, no
snapshot fails, and no scope check fails and no report is lost whose Error frame was not sent
before. -/
theorem errors_told_iff (log : Partitions) (as : List ConnectionAction) :
    Meets step TellsClient (start log) as ↔ Meets step NoSilentFailure (start log) as := by
  apply meets_congr (I := Uneventful)
  · intro s a t hs h
    exact uneventful_of_step hs h
  · intro s a t hs h
    exact tellsClient_iff hs h
  · intro _ e
    exact List.not_mem_nil

/-- The snapshot query of a fresh subscription fails: the connection ends without a frame. -/
theorem snapshot_failure_untold :
    let b := (Rules.ownerAssignment "42").bucketId
    let as : List ConnectionAction :=
      [.incoming (.binary (.ok (.subscribe ["user_entities"] "token" none 1))) 0 .applied,
        .validate (.ok ⟨"alice", 1⟩),
        .assign Rules.ownerAssigner ⟨0, 0⟩ (Rules.answerUser "42") [b],
        .beginSnapshot (.ok 0), .batch (.error (.database "relation does not exist"))]
    (run step (start Partitions.empty) as).map sent =
        some [.snapshotBegin ⟨"user_entities"⟩ 0 protocolVersion] ∧
      ¬Meets step TellsClient (start Partitions.empty) as := by
  refine ⟨rfl, ?_⟩
  intro h
  have hlast := (((((h _ rfl).2 _ rfl).2 _ rfl).2 _ rfl).2 _ rfl).1
  have hmem := hlast _ (.database "relation does not exist") rfl ⟨nofun, rfl⟩ id
  exact absurd hmem (by decide +kernel)

end Connection

end EntitySync.Gateway
