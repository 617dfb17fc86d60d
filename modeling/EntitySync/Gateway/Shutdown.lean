import EntitySync.Gateway.Connection
import EntitySync.Gateway.Server

/-!
# Graceful shutdown

On SIGTERM the server cancels the token that the accept loop and all handlers share, and then waits
for the counter of open connections: it looks every 100 ms, until the counter is zero or 30 s are
over, reads the counter once more, and exits with whatever is still open. A handler notices the
token in its main loop only. The system is the accept loop, the tasks with their handlers over one
op log, the clock and the main task; its steps interleave in any order.
-/

namespace EntitySync.Gateway

open Oplog (Partitions)
open StepSystem

/-- `SHUTDOWN_DRAIN_TIMEOUT` in milliseconds. -/
def shutdownDrainTimeout : Nat := 30000

def drainPollInterval : Nat := 100

/-- Where `run` of the server binary is. -/
inductive MainPhase where
  | running
  | draining (deadline wakeAt sleeps : Nat)
  /-- The loop has read a counter above zero, and goes on to the clock. -/
  | counted (deadline sleeps : Nat)
  /-- The loop has ended. `emptied` are the tasks at its last look, if that read a counter of
  zero. -/
  | leaving (deadline sleeps : Nat) (emptied : Option (List ConnectionTask))
  | exited (deadline remaining sleeps : Nat) (emptied : Option (List ConnectionTask))
deriving DecidableEq

structure Process where
  gateway : GatewayServer
  handlers : Nat → Option Connection
  log : Partitions
  /-- The shutdown token. -/
  cancelled : Bool
  now : Nat
  main : MainPhase

inductive ProcessAction where
  | gateway (a : ServerAction)
  | connection (i : Nat) (a : ConnectionAction)
  | append (wall : UInt64) (b : BucketId) (op : BucketOp)
  | compact (cutoff : UInt64)
  | tick (ms : Nat)
  | sigterm
  /-- The main task reads the counter or the clock. -/
  | check

/-- The steps that a handler takes by itself; it sees the token only once it is cancelled. -/
def ConnectionAction.enabled (cancelled : Bool) : ConnectionAction → Bool
  | .append _ _ _ | .compact _ => false
  | .shutdown => cancelled
  | _ => true

def Phase.isClosed : Phase → Bool
  | .closed _ => true
  | _ => false

namespace Process

def start (maxConnections : Nat) : Process where
  gateway := .bind maxConnections
  handlers _ := none
  log := .empty
  cancelled := false
  now := 0
  main := .running

/-- What a step of the accept loop or of a task does to the handlers: one begins when the WebSocket
handshake succeeds, and the task goes on when its handler has returned. -/
def stepGateway (s : Process) (a : ServerAction) : Option Process :=
  match a with
  | .handshake i true =>
    (s.gateway.step a).map fun gateway =>
      { s with gateway, handlers := Function.update s.handlers i (some (.start s.log)) }
  | .handlerEnds i =>
    if (s.handlers i).any (·.phase.isClosed) then
      (s.gateway.step a).map fun gateway => { s with gateway }
    else none
  | _ => (s.gateway.step a).map fun gateway => { s with gateway }

def stepConnection (s : Process) (i : Nat) (a : ConnectionAction) : Option Process :=
  if a.enabled s.cancelled then
    ((s.handlers i).bind fun c => { c with log := s.log }.step a).map fun c =>
      { s with handlers := Function.update s.handlers i (some c) }
  else none

/-- `while connection_count > 0 && now < drain_deadline`, and then `remaining`. The counter may
change between any two reads. -/
def stepMain (s : Process) : Option Process :=
  match s.main with
  | .draining deadline wakeAt sleeps =>
    if wakeAt ≤ s.now then
      if 0 < s.gateway.connectionCount then some { s with main := .counted deadline sleeps }
      else some { s with main := .leaving deadline sleeps (some s.gateway.tasks) }
    else none
  | .counted deadline sleeps =>
    if s.now < deadline then
      some { s with main := .draining deadline (s.now + drainPollInterval) (sleeps + 1) }
    else some { s with main := .leaving deadline sleeps none }
  | .leaving deadline sleeps emptied =>
    some { s with main := .exited deadline s.gateway.connectionCount sleeps emptied }
  | .running | .exited _ _ _ _ => none

def isExited (s : Process) : Bool :=
  match s.main with
  | .exited _ _ _ _ => true
  | .running | .draining _ _ _ | .counted _ _ | .leaving _ _ _ => false

def step (s : Process) (a : ProcessAction) : Option Process :=
  if s.isExited then none
  else match a with
    | .gateway a => s.stepGateway a
    | .connection i a => s.stepConnection i a
    | .append wall b op => some { s with log := s.log.append wall b op.lsn op }
    | .compact cutoff => some { s with log := s.log.compact cutoff }
    | .tick ms => some { s with now := s.now + ms }
    | .sigterm =>
      match s.main with
      | .running =>
        some { s with
          cancelled := true
          main := .draining (s.now + shutdownDrainTimeout) s.now 0 }
      | .draining _ _ _ | .counted _ _ | .leaving _ _ _ | .exited _ _ _ _ => none
    | .check => s.stepMain

end Process

namespace Connection

def Notified (c : Connection) : Prop :=
  ∃ message, ServerMessage.error shutdownErrorCode message ∈ c.sent

variable {s t : Connection}

theorem notified_send {frame : ServerMessage} (h : (s.send frame).Notified)
    (hframe : ∀ message, frame ≠ .error shutdownErrorCode message) : s.Notified := by
  obtain ⟨message, hsent⟩ := h
  cases List.mem_append.mp hsent with
  | inl hold => exact ⟨message, hold⟩
  | inr hnew => exact absurd (List.mem_singleton.mp hnew).symm (hframe message)

theorem errorFrame_ne (e : SyncError) (message : String) :
    errorFrame e ≠ .error shutdownErrorCode message := by
  intro h
  have hcode := (ServerMessage.error.inj h).1
  revert hcode
  cases (GatewayErrorResponse.ofSyncError e).code <;> decide

theorem notified_report {reason : Option SyncError} {sent : Bool}
    (h : (s.report reason sent).Notified) : s.Notified ∨ reason = none := by
  cases reason with
  | none => exact .inr rfl
  | some e =>
    cases sent with
    | false => exact .inl h
    | true => exact .inl (notified_send h (errorFrame_ne e))

theorem notified_receive {session : Session} {nowMs : UInt64} {outcome : WriteOutcome}
    {msg : Incoming} (h : (s.receive session nowMs outcome msg).Notified) : s.Notified := by
  cases msg with
  | ended | failed | close | other => exact h
  | binary decoded =>
    cases decoded with
    | error error => exact notified_send h (errorFrame_ne _)
    | ok msg =>
      cases msg with
      | write entityType entityId op =>
        cases outcome with
        | applied | failed => exact h
        | refused e => exact notified_send h (errorFrame_ne e)
      | ping =>
        refine notified_send h fun message hframe => ?_
        cases hframe
      | subscribe => exact notified_send h (errorFrame_ne _)
      | ack => exact h

theorem notified_poll {session : Session} {scanning : List BucketId} {a : DeliveryAction}
    (hpoll : s.poll session scanning a = some t) (h : t.Notified) : s.Notified := by
  obtain ⟨d, hd, rfl⟩ := Option.map_eq_some_iff.mp hpoll
  obtain ⟨message, hsent⟩ := h
  cases List.mem_append.mp hsent with
  | inl hold => exact ⟨message, hold⟩
  | inr hnew =>
    obtain ⟨⟨b, frame⟩, hframe, heq⟩ := List.mem_map.mp hnew
    cases heq
    cases a with
    | scan =>
      rw [Delivery.step] at hd
      split at hd
      next => cases hd
      next b rest hscanning =>
        cases hd
        simp only [Session.deliver, List.nil_append] at hframe
        split at hframe <;> simp at hframe
    | startPoll order =>
      rw [Delivery.step] at hd
      split at hd
      next =>
        cases hd
        cases hframe
      next => cases hd
    | receive msg =>
      rw [Delivery.step] at hd
      split at hd
      next =>
        cases hd
        cases hframe
      next => cases hd
    | append | compact =>
      cases hd
      cases hframe

/-- The notice is sent as the last frame, after the shutdown branch of the main loop. -/
theorem notified_of_step {a : ConnectionAction} (hstep : s.step a = some t) (h : t.Notified) :
    s.Notified ∨ (∃ socketFailed, s.phase = .reporting none socketFailed) ∧
      t.phase = .closed (.ok ()) := by
  cases steps_of_step hstep with
  | append | compact | rejected | validated | unassigned | assigned | snapshotFailed | batchFailed
  | serve | scanFailed | shutdown | sendFailed | deltaFailed => exact .inl h
  | subscribe msg nowMs outcome hphase =>
    left
    rcases s.subscribe_cases msg with ⟨_, he, _⟩ | ⟨_, _, he, _⟩ | ⟨_, _, _, _, _, he⟩ <;>
      rw [he] at h <;> exact h
  | receive msg nowMs outcome hphase => exact .inl (notified_receive h)
  | report sent hphase =>
    refine (notified_report h).imp_right ?_
    rintro rfl
    exact ⟨⟨_, hphase⟩, rfl⟩
  | beginSnapshot | batch | endSnapshot | keepalive =>
    refine .inl (notified_send h fun message hframe => ?_)
    cases hframe
  | startPoll hphase hpoll | scan hphase hpoll => exact .inl (notified_poll hpoll h)

theorem reporting_none_of_step {a : ConnectionAction} (hstep : s.step a = some t)
    {socketFailed : Bool} (h : t.phase = .reporting none socketFailed) :
    s.phase = .reporting none socketFailed ∨ a = .shutdown := by
  cases steps_of_step hstep with
  | append | compact => exact .inl h
  | shutdown => exact .inr rfl
  | subscribe msg nowMs outcome hphase =>
    rcases s.subscribe_cases msg with ⟨_, he, _⟩ | ⟨_, _, he, _⟩ | ⟨_, _, _, _, _, he⟩ <;>
      rw [he] at h <;> cases h
  | receive msg nowMs outcome hphase =>
    cases msg with
    | ended | close | failed => cases h
    | other => exact .inl h
    | binary decoded =>
      cases decoded with
      | error error => exact .inl h
      | ok msg =>
        cases msg with
        | write entityType entityId op => cases outcome <;> cases h
        | ack | ping | subscribe => cases h
  | startPoll hphase hpoll | scan hphase hpoll =>
    obtain ⟨d, _, rfl⟩ := Option.map_eq_some_iff.mp hpoll
    cases h
  | keepalive nowMs hphase => exact .inl h
  | rejected | validated | unassigned | assigned | snapshotFailed | beginSnapshot | batchFailed
  | batch | endSnapshot | serve | scanFailed | report | sendFailed | deltaFailed => cases h

theorem not_closed_of_step {a : ConnectionAction} {cancelled : Bool}
    (henabled : a.enabled cancelled = true) (hstep : s.step a = some t) :
    s.phase.isClosed = false := by
  cases hphase : s.phase with
  | closed result =>
    cases a <;> simp [step, hphase, ConnectionAction.enabled] at hstep henabled
  | awaiting | validating | assigning | snapshots | streaming | serving | reporting => rfl

end Connection

namespace Process

def Noticed (s : Process) : Prop :=
  ∀ i c, s.handlers i = some c → c.Notified → s.cancelled = true ∧ c.phase = .closed (.ok ())

def Noticing (s : Process) : Prop :=
  ∀ i c socketFailed, s.handlers i = some c → c.phase = .reporting none socketFailed →
    s.cancelled = true

def Returned (s : Process) : Prop :=
  ∀ i c, s.handlers i = some c → s.gateway.tasks[i]? = some .serving ∨ c.phase.isClosed = true

/-- The main task sleeps within the time it has, and leaves the loop when it has read a counter of
zero or its time is over. -/
def Timed (s : Process) : Prop :=
  match s.main with
  | .running => True
  | .draining deadline wakeAt sleeps =>
    deadline + drainPollInterval * sleeps ≤ shutdownDrainTimeout + wakeAt ∧
      drainPollInterval * sleeps ≤ shutdownDrainTimeout
  | .counted deadline sleeps =>
    deadline + drainPollInterval * sleeps ≤ shutdownDrainTimeout + s.now ∧
      drainPollInterval * sleeps ≤ shutdownDrainTimeout
  | .leaving deadline sleeps emptied | .exited deadline _ sleeps emptied =>
    drainPollInterval * sleeps ≤ shutdownDrainTimeout ∧ (emptied = none → deadline ≤ s.now)

def Emptied (g : GatewayServer) (tasks : List ConnectionTask) : Prop :=
  ∀ (i : Nat) (task : ConnectionTask), tasks[i]? = some task →
    task = .spawned ∨ task = .finished ∧ g.tasks[i]? = some .finished

def Looked (s : Process) : Prop :=
  match s.main with
  | .leaving _ _ emptied => ∀ tasks ∈ emptied, Emptied s.gateway tasks
  | .exited _ remaining _ emptied =>
    remaining = s.gateway.connectionCount ∧ ∀ tasks ∈ emptied, Emptied s.gateway tasks
  | .running | .draining _ _ _ | .counted _ _ => True

structure Sound (s : Process) : Prop where
  balanced : s.gateway.Balanced
  noticed : s.Noticed
  noticing : s.Noticing
  returned : s.Returned
  timed : s.Timed
  looked : s.Looked

variable {s t : Process}

theorem handler_of_update {handlers : Nat → Option Connection} {i j : Nat} {c d : Connection}
    (h : Function.update handlers i (some c) j = some d) :
    j = i ∧ d = c ∨ handlers j = some d := by
  by_cases hj : j = i
  · subst hj
    rw [Function.update_self] at h
    exact .inl ⟨rfl, (Option.some.inj h).symm⟩
  · rw [Function.update_of_ne hj] at h
    exact .inr h

/-- Until the process exits, what it has to say about the time depends on the main task and the
clock only. -/
theorem Timed.of_main_eq (h : s.Timed) (hmain : t.main = s.main) (hnow : s.now ≤ t.now) :
    t.Timed := by
  unfold Timed at h ⊢
  rw [hmain]
  cases hs : s.main with
  | running => trivial
  | draining =>
    rw [hs] at h
    exact h
  | counted =>
    rw [hs] at h
    exact ⟨h.1.trans (Nat.add_le_add_left hnow _), h.2⟩
  | leaving | exited =>
    rw [hs] at h
    exact ⟨h.1, fun hnone => (h.2 hnone).trans hnow⟩

theorem task_of_step {g g' : GatewayServer} {a : ServerAction} (hstep : g.step a = some g')
    {j : Nat} {task : ConnectionTask} (h : g.tasks[j]? = some task) :
    g'.tasks[j]? = some task ∨ task ≠ .finished ∧ (task = .serving → a = .handlerEnds j) := by
  have hmove {i : Nat} {source target : ConnectionTask} {g' : GatewayServer}
      (hmove : g.move i source target = some g') :
      g'.tasks[j]? = some task ∨ i = j ∧ task = source := by
    rw [GatewayServer.move, Option.ite_none_right_eq_some, Option.some.injEq] at hmove
    obtain ⟨hsource, rfl⟩ := hmove
    by_cases hij : i = j
    · subst hij
      exact .inr ⟨rfl, Option.some.inj (h.symm.trans hsource)⟩
    · exact .inl ((List.getElem?_set_ne hij).trans h)
  cases a with
  | accept =>
    simp only [GatewayServer.step, Option.ite_none_right_eq_some] at hstep
    obtain ⟨_, hstep⟩ := hstep
    left
    split at hstep <;> cases hstep
    · exact h
    · exact (List.getElem?_append_left (List.getElem?_eq_some_iff.mp h).1).trans h
  | stop =>
    simp only [GatewayServer.step, Option.ite_none_right_eq_some, Option.some.injEq] at hstep
    obtain ⟨_, rfl⟩ := hstep
    exact .inl h
  | start i | decrement i =>
    obtain ⟨u, hu, rfl⟩ := Option.map_eq_some_iff.mp hstep
    refine (hmove hu).imp_right ?_
    rintro ⟨_, rfl⟩
    simp
  | handshake i ok =>
    refine (hmove hstep).imp_right ?_
    rintro ⟨_, rfl⟩
    simp
  | handlerEnds i =>
    refine (hmove hstep).imp_right ?_
    rintro ⟨rfl, rfl⟩
    simp

theorem Emptied.step {g g' : GatewayServer} {a : ServerAction} {tasks : List ConnectionTask}
    (h : Emptied g tasks) (hstep : g.step a = some g') : Emptied g' tasks := by
  intro i task htask
  refine (h i task htask).imp_right fun hended => ⟨hended.1, ?_⟩
  exact (task_of_step hstep hended.2).resolve_right fun hnot => hnot.1 rfl

theorem Looked.gateway (h : s.Looked) (hrunning : s.isExited = false) {a : ServerAction}
    (hstep : s.gateway.step a = some t.gateway) (hmain : t.main = s.main) : t.Looked := by
  unfold Looked at h ⊢
  rw [hmain]
  cases hs : s.main with
  | running | draining | counted => trivial
  | leaving =>
    rw [hs] at h
    exact fun tasks htasks => (h tasks htasks).step hstep
  | exited => simp [isExited, hs] at hrunning

theorem stepGateway_cases {a : ServerAction} (hstep : s.stepGateway a = some t) :
    ∃ gateway handlers, s.gateway.step a = some gateway ∧ t = { s with gateway, handlers } ∧
      (handlers = s.handlers ∨ ∃ i, a = .handshake i true ∧
        handlers = Function.update s.handlers i (some (.start s.log))) ∧
      ∀ i, a = .handlerEnds i → (s.handlers i).any (·.phase.isClosed) = true := by
  have hplain {a : ServerAction} (ha : ∀ i, a ≠ .handlerEnds i)
      (h : ((s.gateway.step a).map fun gateway => { s with gateway }) = some t) :
      ∃ gateway handlers, s.gateway.step a = some gateway ∧ t = { s with gateway, handlers } ∧
        (handlers = s.handlers ∨ ∃ i, a = .handshake i true ∧
          handlers = Function.update s.handlers i (some (.start s.log))) ∧
        ∀ i, a = .handlerEnds i → (s.handlers i).any (·.phase.isClosed) = true := by
    obtain ⟨gateway, hgateway, rfl⟩ := Option.map_eq_some_iff.mp h
    exact ⟨gateway, s.handlers, hgateway, rfl, .inl rfl, fun i hi => absurd hi (ha i)⟩
  cases a with
  | handshake i ok =>
    cases ok with
    | false => exact hplain (fun _ h => by cases h) hstep
    | true =>
      obtain ⟨gateway, hgateway, rfl⟩ := Option.map_eq_some_iff.mp hstep
      exact ⟨gateway, _, hgateway, rfl, .inr ⟨i, rfl, rfl⟩, fun _ h => by cases h⟩
  | handlerEnds i =>
    simp only [stepGateway, Option.ite_none_right_eq_some] at hstep
    obtain ⟨hclosed, hstep⟩ := hstep
    obtain ⟨gateway, hgateway, rfl⟩ := Option.map_eq_some_iff.mp hstep
    refine ⟨gateway, s.handlers, hgateway, rfl, .inl rfl, ?_⟩
    rintro _ ⟨rfl⟩
    exact hclosed
  | accept | stop | start | decrement => exact hplain (fun _ h => by cases h) hstep

theorem Sound.gateway {a : ServerAction} (h : s.Sound) (hrunning : s.isExited = false)
    (hstep : s.stepGateway a = some t) : t.Sound := by
  obtain ⟨gateway, handlers, hgateway, rfl, hhandlers, hends⟩ := stepGateway_cases hstep
  have hold {j : Nat} {c : Connection} (hc : s.handlers j = some c) :
      gateway.tasks[j]? = some .serving ∨ c.phase.isClosed = true := by
    cases h.returned j c hc with
    | inl hserving =>
      refine (task_of_step hgateway hserving).imp_right fun hleft => ?_
      have hclosed := hends j (hleft.2 rfl)
      rw [hc] at hclosed
      exact hclosed
    | inr hclosed => exact .inr hclosed
  refine ⟨GatewayServer.balanced_of_step h.balanced hgateway, ?_, ?_, ?_,
    h.timed.of_main_eq rfl (Nat.le_refl _), h.looked.gateway hrunning hgateway rfl⟩
  · intro j c hc
    rcases hhandlers with rfl | ⟨i, rfl, rfl⟩
    · exact h.noticed j c hc
    · rcases handler_of_update hc with ⟨_, rfl⟩ | hc
      · rintro ⟨message, hsent⟩
        cases hsent
      · exact h.noticed j c hc
  · intro j c socketFailed hc
    rcases hhandlers with rfl | ⟨i, rfl, rfl⟩
    · exact h.noticing j c socketFailed hc
    · rcases handler_of_update hc with ⟨_, rfl⟩ | hc
      · intro hphase
        cases hphase
      · exact h.noticing j c socketFailed hc
  · intro j c hc
    rcases hhandlers with rfl | ⟨i, rfl, rfl⟩
    · exact hold hc
    · rcases handler_of_update hc with ⟨rfl, _⟩ | hc
      · left
        simp only [GatewayServer.step, GatewayServer.move, Option.ite_none_right_eq_some,
          Option.some.injEq] at hgateway
        obtain ⟨hsource, rfl⟩ := hgateway
        exact List.getElem?_set_self (List.getElem?_eq_some_iff.mp hsource).1
      · exact hold hc

theorem Sound.connection {i : Nat} {a : ConnectionAction} (h : s.Sound)
    (hstep : s.stepConnection i a = some t) : t.Sound := by
  simp only [stepConnection, Option.ite_none_right_eq_some] at hstep
  obtain ⟨henabled, hstep⟩ := hstep
  obtain ⟨c', hc', rfl⟩ := Option.map_eq_some_iff.mp hstep
  obtain ⟨c, hc, hnext⟩ := Option.bind_eq_some_iff.mp hc'
  have hopen := Connection.not_closed_of_step henabled hnext
  refine ⟨h.balanced, ?_, ?_, ?_, h.timed, h.looked⟩
  · intro j d hd hnotified
    rcases handler_of_update hd with ⟨rfl, rfl⟩ | hd
    · rcases Connection.notified_of_step hnext hnotified with hbefore | ⟨⟨_, hphase⟩, hclosed⟩
      · have hclosed := (h.noticed j c hc hbefore).2
        rw [hclosed] at hopen
        cases hopen
      · exact ⟨h.noticing j c _ hc hphase, hclosed⟩
    · exact h.noticed j d hd hnotified
  · intro j d socketFailed hd hphase
    rcases handler_of_update hd with ⟨rfl, rfl⟩ | hd
    · rcases Connection.reporting_none_of_step hnext hphase with hbefore | rfl
      · exact h.noticing j c socketFailed hc hbefore
      · exact henabled
    · exact h.noticing j d socketFailed hd hphase
  · intro j d hd
    rcases handler_of_update hd with ⟨rfl, rfl⟩ | hd
    · refine .inl ((h.returned j c hc).resolve_right ?_)
      rw [hopen]
      exact Bool.false_ne_true
    · exact h.returned j d hd

/-- With the counter at zero, every task that has begun has ended. -/
theorem task_of_count_zero {g : GatewayServer} (h : g.Balanced) (hzero : g.connectionCount = 0)
    {task : ConnectionTask} (htask : task ∈ g.tasks) : task = .spawned ∨ task = .finished := by
  have hle := g.uncounted_le_openConnections
  unfold GatewayServer.Balanced at h
  have hlingering : g.lingering = 0 := by omega
  have hopen : g.openConnections = g.uncounted := by omega
  have hspawned : ∀ task ∈ g.tasks, task.isOpen = true → decide (task = .spawned) = true := by
    refine Slots.of_countP_eq (fun task htask => ?_) hopen
    rw [of_decide_eq_true htask]
    rfl
  cases hcase : task with
  | spawned => exact .inl rfl
  | finished => exact .inr rfl
  | handshaking | serving =>
    subst hcase
    exact .inl (of_decide_eq_true (hspawned _ htask rfl))
  | ending =>
    subst hcase
    have hnone := List.countP_eq_zero.mp hlingering _ htask
    exact absurd (decide_eq_true rfl) hnone

theorem Sound.main (h : s.Sound) (hstep : s.stepMain = some t) : t.Sound := by
  have htimed := h.timed
  have hlooked := h.looked
  unfold Timed at htimed
  unfold Looked at hlooked
  unfold stepMain at hstep
  split at hstep
  next deadline wakeAt sleeps hmain =>
    rw [hmain] at htimed
    simp only [Option.ite_none_right_eq_some] at hstep
    obtain ⟨hwake, hstep⟩ := hstep
    split at hstep
    next =>
      cases hstep
      exact ⟨h.balanced, h.noticed, h.noticing, h.returned,
        ⟨htimed.1.trans (Nat.add_le_add_left hwake _), htimed.2⟩, trivial⟩
    next hzero =>
      cases hstep
      refine ⟨h.balanced, h.noticed, h.noticing, h.returned, ⟨htimed.2, nofun⟩, ?_⟩
      rintro tasks ⟨rfl⟩ i task htask
      have hended := task_of_count_zero h.balanced (Nat.eq_zero_of_not_pos hzero)
        (List.mem_of_getElem? htask)
      refine hended.imp_right fun hfinished => ⟨hfinished, ?_⟩
      rw [htask, hfinished]
  next deadline sleeps hmain =>
    rw [hmain] at htimed
    simp only [shutdownDrainTimeout, drainPollInterval] at htimed
    split at hstep
    next hwait =>
      cases hstep
      refine ⟨h.balanced, h.noticed, h.noticing, h.returned, ?_, trivial⟩
      simp only [Timed, shutdownDrainTimeout, drainPollInterval]
      omega
    next hleave =>
      cases hstep
      exact ⟨h.balanced, h.noticed, h.noticing, h.returned,
        ⟨htimed.2, fun _ => Nat.not_lt.mp hleave⟩, nofun⟩
  next deadline sleeps emptied hmain =>
    rw [hmain] at htimed hlooked
    cases hstep
    exact ⟨h.balanced, h.noticed, h.noticing, h.returned, htimed, rfl, hlooked⟩
  next => cases hstep
  next => cases hstep

theorem Sound.step {a : ProcessAction} (h : s.Sound) (hstep : s.step a = some t) : t.Sound := by
  simp only [Process.step] at hstep
  split at hstep
  next => cases hstep
  next hrunning =>
    have hrunning : s.isExited = false := Bool.eq_false_iff.mpr hrunning
    cases a with
    | gateway a => exact h.gateway hrunning hstep
    | connection i a => exact h.connection hstep
    | check => exact h.main hstep
    | append | compact =>
      cases hstep
      exact ⟨h.balanced, h.noticed, h.noticing, h.returned, h.timed, h.looked⟩
    | tick ms =>
      cases hstep
      exact ⟨h.balanced, h.noticed, h.noticing, h.returned,
        h.timed.of_main_eq rfl (Nat.le_add_right _ _), h.looked⟩
    | sigterm =>
      simp only at hstep
      split at hstep
      next =>
        cases hstep
        refine ⟨h.balanced, fun i c hc hnotified => ⟨rfl, (h.noticed i c hc hnotified).2⟩,
          fun _ _ _ _ _ => rfl, h.returned, ?_, trivial⟩
        simp only [Timed, Nat.mul_zero, Nat.add_zero]
        exact ⟨by omega, Nat.zero_le _⟩
      all_goals cases hstep

theorem sound_start (maxConnections : Nat) : (start maxConnections).Sound := by
  refine ⟨rfl, ?_, ?_, ?_, trivial, trivial⟩
  · intro i c hc
    cases hc
  · intro i c socketFailed hc
    cases hc
  · intro i c hc
    cases hc

structure CleanExit (s : Process) (deadline remaining sleeps : Nat)
    (emptied : Option (List ConnectionTask)) : Prop where
  /-- It slept at most 300 times. -/
  sleeps_le : drainPollInterval * sleeps ≤ shutdownDrainTimeout
  /-- It left the loop without a counter of zero only because its time was over. -/
  overdue : emptied = none → deadline ≤ s.now
  /-- If the loop read a counter of zero, every connection whose task had begun by then has ended,
  and its handler has returned. -/
  emptied : ∀ tasks ∈ emptied, ∀ i task, tasks[i]? = some task →
    task = .spawned ∨ task = .finished ∧ ∀ c, s.handlers i = some c → c.phase.isClosed = true
  /-- If it counted none in the end, this is so of all connections whose task has begun. -/
  drained : remaining = 0 → ∀ i task, s.gateway.tasks[i]? = some task →
    task = .spawned ∨ task = .finished ∧ ∀ c, s.handlers i = some c → c.phase.isClosed = true

theorem Sound.closed_of_finished (h : s.Sound) {i : Nat}
    (htask : s.gateway.tasks[i]? = some .finished) {c : Connection} (hc : s.handlers i = some c) :
    c.phase.isClosed = true := by
  refine (h.returned i c hc).resolve_left fun hserving => ?_
  rw [hserving] at htask
  cases htask

/-- In every run, a client is sent the notice of a shutdown only after SIGTERM and as the last thing
its handler does; and the process exits as it should. -/
theorem graceful_shutdown (maxConnections : Nat) (actions : List ProcessAction) :
    Always step (fun s => s.Noticed ∧ ∀ deadline remaining sleeps emptied,
      s.main = .exited deadline remaining sleeps emptied →
        s.CleanExit deadline remaining sleeps emptied) (start maxConnections) actions := by
  have hany : Meets step (fun _ _ => True) (start maxConnections) actions :=
    meets_of_forall fun _ _ => trivial
  refine hany.always (I := Sound) (fun s a t h _ hstep => h.step hstep) ?_
    (sound_start maxConnections)
  intro s h
  refine ⟨h.noticed, fun deadline remaining sleeps emptied hmain => ?_⟩
  have htimed := h.timed
  have hlooked := h.looked
  unfold Timed at htimed
  unfold Looked at hlooked
  rw [hmain] at htimed hlooked
  refine ⟨htimed.1, htimed.2, fun tasks htasks i task htask => ?_, fun hzero i task htask => ?_⟩
  · refine (hlooked.2 tasks htasks i task htask).imp_right fun hended => ⟨hended.1, ?_⟩
    exact fun c hc => h.closed_of_finished hended.2 hc
  · have hended := task_of_count_zero h.balanced (hlooked.1.symm.trans hzero)
      (List.mem_of_getElem? htask)
    refine hended.imp_right fun hfinished => ⟨hfinished, fun c hc => ?_⟩
    exact h.closed_of_finished (hfinished ▸ htask) hc

example : (run step (start 10) [.gateway .accept, .sigterm, .check, .gateway (.start 0),
      .check]).map (fun s => (s.gateway.tasks, s.now, s.main)) =
    some ([.handshaking], 0, .exited 30000 1 0 (some [.spawned])) := rfl

example : (run step (start 10) [.gateway .accept, .gateway (.start 0),
      .gateway (.handshake 0 true), .sigterm, .check, .check, .tick 30000, .check, .check,
      .check]).map (fun s => (s.gateway.tasks, s.main)) =
    some ([.serving], .exited 30000 1 1 none) := rfl

end Process

end EntitySync.Gateway
