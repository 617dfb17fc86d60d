import EntitySync.Library.Slots
import EntitySync.Library.StepSystem
import EntitySync.Protocol.Messages
import Mathlib.Logic.Function.Basic

/-!
# The connection lifecycle of the sync client

The sockets, timers and pending promises of one `SyncClient`. Events arrive in any order: token
promises settle when they want, a close event comes some time after `close()`, and a timer that
was not cleared fires. The client refers to one socket and one reconnect timer only, the last it
created. It keeps one LSN for all buckets, that of the last Delta.
-/

namespace EntitySync.Client

open StepSystem

/-- `WebSocket.readyState`. -/
inductive ReadyState where
  | connecting
  | opened
  | closing
  | closed
deriving DecidableEq

def ReadyState.isLive : ReadyState → Bool
  | .connecting | .opened => true
  | .closing | .closed => false

/-- A Delta, with the partition it is from, which the client is not told, and the LSNs of its
ops. -/
structure Delta where
  partition : BucketId
  ops : List PgLsn
  lsn : PgLsn
deriving DecidableEq

/-- An op is named by its partition and its LSN. -/
def Delta.entries (delta : Delta) : List (BucketId × PgLsn) :=
  delta.ops.map fun lsn => (delta.partition, lsn)

structure Lifecycle where
  /-- Every socket the client has created. -/
  sockets : List ReadyState
  ws : Option Nat
  /-- The `connect` calls that wait for their token. -/
  connecting : Nat
  /-- The reconnect timers that will fire. -/
  reconnectTimers : List Nat
  /-- The timer that `ReconnectScheduler` remembers. -/
  scheduled : Option Nat
  nextTimer : Nat
  refreshArmed : Bool
  /-- The `refreshAndResubscribe` calls that wait for their token. -/
  refreshing : Nat
  /-- The `sendSubscribe` calls of `subscribe` that wait for their token. -/
  resubscribing : Nat
  explicitlyDisconnected : Bool
  lastLsn : Option PgLsn
  /-- How many frames the client has sent. -/
  frames : Nat
  /-- The resume LSN of the first `Subscribe` on each socket, the one that the gateway serves. -/
  subscribed : Nat → Option (Option PgLsn)
  /-- The Deltas that the handlers were called with, each with the socket it came over. -/
  dispatched : List (Nat × Delta)
  /-- The sockets created and the frames sent before the last `disconnect`, unless `subscribe`
  was called after it. -/
  down : Option (Nat × Nat)

inductive LifecycleAction where
  | subscribe (resumeLsn : Option PgLsn)
  | disconnect
  | write
  /-- The `getToken` of a `connect` settles. -/
  | connectToken (ok : Bool)
  | resubscribeToken (ok : Bool)
  /-- `arm` tells whether the new token has an expiry that a timer is set for. -/
  | refreshToken (ok arm : Bool)
  | reconnectTimer (timer : Nat)
  | refreshTimer
  | opened (i : Nat) (arm : Bool)
  | errored (i : Nat)
  /-- The server starts to close. -/
  | closing (i : Nat)
  | closed (i : Nat)
  | message (i : Nat) (delta : Delta)
deriving DecidableEq

namespace Lifecycle

def start : Lifecycle where
  sockets := []
  ws := none
  connecting := 0
  reconnectTimers := []
  scheduled := none
  nextTimer := 0
  refreshArmed := false
  refreshing := 0
  resubscribing := 0
  explicitlyDisconnected := false
  lastLsn := none
  frames := 0
  subscribed := fun _ => none
  dispatched := []
  down := none

def openSocket (s : Lifecycle) : Option Nat :=
  s.ws.filter fun i => s.sockets[i]? = some .opened

/-- `connect` up to its `await`. -/
def connect (s : Lifecycle) : Lifecycle :=
  { s with explicitlyDisconnected := false, connecting := s.connecting + 1 }

/-- The rest of `connect`, once it has a token. -/
def createSocket (s : Lifecycle) : Lifecycle :=
  { s with sockets := s.sockets ++ [.connecting], ws := some s.sockets.length }

/-- `ReconnectScheduler.schedule` overwrites the timer it remembers. -/
def scheduleReconnect (s : Lifecycle) : Lifecycle :=
  { s with
    reconnectTimers := s.reconnectTimers ++ [s.nextTimer]
    scheduled := some s.nextTimer
    nextTimer := s.nextTimer + 1 }

def cancelReconnect (s : Lifecycle) : Lifecycle :=
  match s.scheduled with
  | none => s
  | some timer =>
    { s with
      reconnectTimers := s.reconnectTimers.filter (· ≠ timer)
      scheduled := none }

/-- `scheduleTokenRefresh` clears the timer before it sets the next one. -/
def scheduleTokenRefresh (s : Lifecycle) (arm : Bool) : Lifecycle := { s with refreshArmed := arm }

def sendSubscribe (s : Lifecycle) : Lifecycle :=
  match s.openSocket with
  | none => s
  | some i =>
    { s with
      frames := s.frames + 1
      subscribed := Function.update s.subscribed i (some ((s.subscribed i).getD s.lastLsn)) }

def send (s : Lifecycle) : Lifecycle :=
  if s.openSocket.isSome then { s with frames := s.frames + 1 } else s

def closeSocket (sockets : List ReadyState) (i : Nat) : List ReadyState :=
  match sockets[i]? with
  | some .connecting | some .opened => sockets.set i .closing
  | some .closing | some .closed | none => sockets

def disconnect (s : Lifecycle) : Lifecycle :=
  { s.cancelReconnect with
    explicitlyDisconnected := true
    refreshArmed := false
    sockets := match s.ws with
      | none => s.sockets
      | some i => closeSocket s.sockets i
    ws := none
    down := some (s.sockets.length, s.frames) }

def onClose (s : Lifecycle) : Lifecycle :=
  if s.explicitlyDisconnected then { s with refreshArmed := false }
  else { s with refreshArmed := false }.scheduleReconnect

def dispatch (s : Lifecycle) (i : Nat) (delta : Delta) : Lifecycle :=
  { s with
    lastLsn := some delta.lsn
    dispatched := s.dispatched ++ [(i, delta)] }.send

def step (s : Lifecycle) : LifecycleAction → Option Lifecycle
  | .subscribe resumeLsn =>
    let s := { s with lastLsn := resumeLsn.or s.lastLsn }
    if s.openSocket.isSome then
      some { s with resubscribing := s.resubscribing + 1, down := none }
    else some { s.connect with down := none }
  | .disconnect => some s.disconnect
  | .write => some s.send
  | .connectToken ok =>
    match s.connecting, ok with
    | 0, _ => none
    | n + 1, true => some { s with connecting := n }.createSocket
    | n + 1, false => some { s with connecting := n }.scheduleReconnect
  | .resubscribeToken ok =>
    match s.resubscribing, ok with
    | 0, _ => none
    | n + 1, true => some { s with resubscribing := n }.sendSubscribe
    | n + 1, false => some { s with resubscribing := n }
  | .refreshToken ok arm =>
    match s.refreshing, ok with
    | 0, _ => none
    | n + 1, true => some ({ s with refreshing := n }.sendSubscribe.scheduleTokenRefresh arm)
    | n + 1, false => some { s with refreshing := n }
  | .reconnectTimer timer =>
    if timer ∈ s.reconnectTimers then
      some { s with reconnectTimers := s.reconnectTimers.filter (· ≠ timer) }.connect
    else none
  | .refreshTimer =>
    if s.refreshArmed then
      some { s with refreshArmed := false, refreshing := s.refreshing + 1 }
    else none
  | .opened i arm =>
    if s.sockets[i]? = some .connecting then
      some ({ s with sockets := s.sockets.set i .opened }.sendSubscribe.scheduleTokenRefresh arm)
    else none
  | .errored i => if i < s.sockets.length then some s else none
  | .closing i =>
    if s.sockets[i]? = some .opened then some { s with sockets := s.sockets.set i .closing }
    else none
  | .closed i =>
    match s.sockets[i]? with
    | none | some .closed => none
    | some .connecting | some .opened | some .closing =>
      some { s with sockets := s.sockets.set i .closed }.onClose
  -- the gateway sends nothing before a Subscribe
  | .message i delta =>
    if s.sockets[i]? = some .opened ∧ (s.subscribed i).isSome then some (s.dispatch i delta)
    else none

def liveSockets (s : Lifecycle) : Nat := s.sockets.countP (·.isLive)

def AtMostOneLive (s : Lifecycle) : Prop := s.liveSockets ≤ 1

def CreatesAlone (s : Lifecycle) : LifecycleAction → Prop
  | .connectToken true => s.liveSockets = 0
  | _ => True

def entries (s : Lifecycle) : List (BucketId × PgLsn) := s.dispatched.flatMap (·.2.entries)

def entriesOver (s : Lifecycle) (i : Nat) : List (BucketId × PgLsn) :=
  (s.dispatched.filter (·.1 = i)).flatMap (·.2.entries)

/-- Over one connection the gateway sends no op twice, and only ops above the resume LSN. -/
def Serves (s : Lifecycle) : LifecycleAction → Prop
  | .message i delta => (s.entriesOver i ++ delta.entries).Nodup ∧
    ∀ r ∈ s.subscribed i, ∀ lsn ∈ r, ∀ op ∈ delta.ops, lsn < op
  | _ => True

/-- When a socket opens, the last LSN is at least that of every op the handlers have seen. -/
def ResumesHighest (s : Lifecycle) : LifecycleAction → Prop
  | .opened _ _ => ∀ e ∈ s.entries, ∃ lsn ∈ s.lastLsn, e.2 ≤ lsn
  | _ => True

/-- After `disconnect` and before the next `subscribe`, the client has created no socket and sent
no frame, no reconnect timer is pending, and no socket is connecting or open. -/
def Final (s : Lifecycle) : Prop :=
  ∀ before ∈ s.down, s.sockets.length = before.1 ∧ s.frames = before.2 ∧
    s.reconnectTimers = [] ∧ s.liveSockets = 0

/-- `disconnect` is called when the client's own socket is the only one connecting or open and
the remembered reconnect timer is the only one pending; no `connect` gets its token, or is refused
one, while the client is disconnected. -/
def TearsDown (s : Lifecycle) : LifecycleAction → Prop
  | .disconnect =>
    (∀ i state, s.sockets[i]? = some state → state.isLive = true → s.ws = some i) ∧
    ∀ timer ∈ s.reconnectTimers, s.scheduled = some timer
  | .connectToken _ => s.down = none
  | _ => True

instance (s : Lifecycle) : (a : LifecycleAction) → Decidable (s.CreatesAlone a)
  | .connectToken true => inferInstanceAs (Decidable (s.liveSockets = 0))
  | .connectToken false | .subscribe _ | .disconnect | .write | .resubscribeToken _
  | .refreshToken _ _ | .reconnectTimer _ | .refreshTimer | .opened _ _ | .errored _ | .closing _
  | .closed _ | .message _ _ => isTrue trivial

instance (s : Lifecycle) : (a : LifecycleAction) → Decidable (s.Serves a)
  | .message _ delta =>
    -- over the list, not over all LSNs
    have (lsn : PgLsn) : Decidable (∀ op ∈ delta.ops, lsn < op) := List.decidableBAll _ _
    inferInstanceAs (Decidable (_ ∧ _))
  | .subscribe _ | .disconnect | .write | .connectToken _ | .resubscribeToken _ | .refreshToken _ _
  | .reconnectTimer _ | .refreshTimer | .opened _ _ | .errored _ | .closing _ | .closed _ =>
    isTrue trivial

instance (s : Lifecycle) : (a : LifecycleAction) → Decidable (s.ResumesHighest a)
  | .opened _ _ => inferInstanceAs (Decidable (∀ _ ∈ s.entries, _))
  | .subscribe _ | .disconnect | .write | .connectToken _ | .resubscribeToken _ | .refreshToken _ _
  | .reconnectTimer _ | .refreshTimer | .message _ _ | .errored _ | .closing _ | .closed _ =>
    isTrue trivial

variable {s t : Lifecycle} {a : LifecycleAction}

/-- The steps of the client, with what each of them found. -/
inductive Stepped (s : Lifecycle) : LifecycleAction → Lifecycle → Prop
  | resubscribing (resumeLsn : Option PgLsn) (hopen : s.openSocket.isSome) :
    Stepped s (.subscribe resumeLsn) { s with
      lastLsn := resumeLsn.or s.lastLsn, resubscribing := s.resubscribing + 1, down := none }
  | connecting (resumeLsn : Option PgLsn) : Stepped s (.subscribe resumeLsn)
      { s.connect with lastLsn := resumeLsn.or s.lastLsn, down := none }
  | disconnected : Stepped s .disconnect s.disconnect
  | written : Stepped s .write s.send
  | created (n : Nat) : Stepped s (.connectToken true) { s with connecting := n }.createSocket
  | refused (n : Nat) :
    Stepped s (.connectToken false) { s with connecting := n }.scheduleReconnect
  | resubscribed (n : Nat) :
    Stepped s (.resubscribeToken true) { s with resubscribing := n }.sendSubscribe
  | resubscribeRefused (n : Nat) :
    Stepped s (.resubscribeToken false) { s with resubscribing := n }
  | refreshed (n : Nat) (arm : Bool) : Stepped s (.refreshToken true arm)
      ({ s with refreshing := n }.sendSubscribe.scheduleTokenRefresh arm)
  | refreshRefused (n : Nat) (arm : Bool) :
    Stepped s (.refreshToken false arm) { s with refreshing := n }
  | reconnecting {timer : Nat} (htimer : timer ∈ s.reconnectTimers) :
    Stepped s (.reconnectTimer timer)
      { s with reconnectTimers := s.reconnectTimers.filter (· ≠ timer) }.connect
  | refreshing :
    Stepped s .refreshTimer { s with refreshArmed := false, refreshing := s.refreshing + 1 }
  | opened {i : Nat} (arm : Bool) (hstate : s.sockets[i]? = some .connecting) :
    Stepped s (.opened i arm)
      ({ s with sockets := s.sockets.set i .opened }.sendSubscribe.scheduleTokenRefresh arm)
  | errored (i : Nat) : Stepped s (.errored i) s
  | closing {i : Nat} (hstate : s.sockets[i]? = some .opened) :
    Stepped s (.closing i) { s with sockets := s.sockets.set i .closing }
  | closed {i : Nat} {state : ReadyState} (hstate : s.sockets[i]? = some state) :
    Stepped s (.closed i) { s with sockets := s.sockets.set i .closed }.onClose
  | received {i : Nat} (delta : Delta) (hstate : s.sockets[i]? = some .opened)
    (hsubscribed : (s.subscribed i).isSome) : Stepped s (.message i delta) (s.dispatch i delta)

theorem stepped_of_step (hstep : s.step a = some t) : Stepped s a t := by
  cases a with
  | subscribe resumeLsn =>
    simp only [step] at hstep
    split at hstep
    next hopen =>
      cases hstep
      exact .resubscribing resumeLsn hopen
    next =>
      cases hstep
      exact .connecting resumeLsn
  | disconnect =>
    cases hstep
    exact .disconnected
  | write =>
    cases hstep
    exact .written
  | connectToken ok =>
    simp only [step] at hstep
    split at hstep <;> cases hstep
    · exact .created _
    · exact .refused _
  | resubscribeToken ok =>
    simp only [step] at hstep
    split at hstep <;> cases hstep
    · exact .resubscribed _
    · exact .resubscribeRefused _
  | refreshToken ok arm =>
    simp only [step] at hstep
    split at hstep <;> cases hstep
    · exact .refreshed _ arm
    · exact .refreshRefused _ arm
  | reconnectTimer timer =>
    simp only [step, Option.ite_none_right_eq_some, Option.some.injEq] at hstep
    obtain ⟨htimer, rfl⟩ := hstep
    exact .reconnecting htimer
  | refreshTimer =>
    simp only [step, Option.ite_none_right_eq_some, Option.some.injEq] at hstep
    obtain ⟨_, rfl⟩ := hstep
    exact .refreshing
  | opened i arm =>
    simp only [step, Option.ite_none_right_eq_some, Option.some.injEq] at hstep
    obtain ⟨hstate, rfl⟩ := hstep
    exact .opened arm hstate
  | errored i =>
    simp only [step, Option.ite_none_right_eq_some, Option.some.injEq] at hstep
    obtain ⟨_, rfl⟩ := hstep
    exact .errored i
  | closing i =>
    simp only [step, Option.ite_none_right_eq_some, Option.some.injEq] at hstep
    obtain ⟨hstate, rfl⟩ := hstep
    exact .closing hstate
  | closed i =>
    simp only [step] at hstep
    split at hstep <;> cases hstep
    all_goals exact .closed (by assumption)
  | message i delta =>
    simp only [step, Option.ite_none_right_eq_some, Option.some.injEq] at hstep
    obtain ⟨⟨hstate, hsubscribed⟩, rfl⟩ := hstep
    exact .received delta hstate hsubscribed

@[simp] theorem sockets_send (s : Lifecycle) : s.send.sockets = s.sockets := by
  unfold send
  split <;> rfl

@[simp] theorem sockets_sendSubscribe (s : Lifecycle) :
    s.sendSubscribe.sockets = s.sockets := by
  unfold sendSubscribe
  split <;> rfl

@[simp] theorem down_send (s : Lifecycle) : s.send.down = s.down := by
  unfold send
  split <;> rfl

@[simp] theorem down_sendSubscribe (s : Lifecycle) : s.sendSubscribe.down = s.down := by
  unfold sendSubscribe
  split <;> rfl

@[simp] theorem down_onClose (s : Lifecycle) : s.onClose.down = s.down := by
  unfold onClose
  split <;> rfl

@[simp] theorem sockets_onClose (s : Lifecycle) : s.onClose.sockets = s.sockets := by
  unfold onClose
  split <;> rfl

/-- What a step can do to the sockets: create one, or move one on, which never makes it live. -/
inductive SocketsChange (sockets : List ReadyState) : LifecycleAction → List ReadyState → Prop
  | created : SocketsChange sockets (.connectToken true) (sockets ++ [.connecting])
  | kept {a : LifecycleAction} (ha : a ≠ .connectToken true) : SocketsChange sockets a sockets
  | moved {a : LifecycleAction} {i : Nat} {state next : ReadyState} (ha : a ≠ .connectToken true)
    (hstate : sockets[i]? = some state) (hlive : next.isLive = true → state.isLive = true) :
    SocketsChange sockets a (sockets.set i next)

theorem closeSocket_change (sockets : List ReadyState) (i : Nat) (ha : a ≠ .connectToken true) :
    SocketsChange sockets a (closeSocket sockets i) := by
  unfold closeSocket
  split
  next h => exact .moved ha h (by simp [ReadyState.isLive])
  next h => exact .moved ha h (by simp [ReadyState.isLive])
  next => exact .kept ha
  next => exact .kept ha
  next => exact .kept ha

theorem sockets_of_step (hstep : s.step a = some t) : SocketsChange s.sockets a t.sockets := by
  cases stepped_of_step hstep with
  | created n => exact .created
  | disconnected =>
    simp only [disconnect]
    split
    · exact .kept (by simp)
    · exact closeSocket_change _ _ (by simp)
  | written =>
    rw [sockets_send]
    exact .kept (by simp)
  | resubscribed n =>
    rw [sockets_sendSubscribe]
    exact .kept (by simp)
  | refreshed n arm =>
    simp only [scheduleTokenRefresh, sockets_sendSubscribe]
    exact .kept (by simp)
  | opened arm hstate =>
    simp only [scheduleTokenRefresh, sockets_sendSubscribe]
    exact .moved (by simp) hstate (by simp [ReadyState.isLive])
  | closing hstate => exact .moved (by simp) hstate (by simp [ReadyState.isLive])
  | closed hstate =>
    rw [sockets_onClose]
    exact .moved (by simp) hstate (by simp [ReadyState.isLive])
  | received delta hstate hsubscribed =>
    simp only [dispatch, sockets_send]
    exact .kept (by simp)
  | resubscribing | connecting | refused | resubscribeRefused | refreshRefused | reconnecting
  | refreshing | errored => exact .kept (by simp)

theorem createsAlone_of_ne (ha : a ≠ .connectToken true) : s.CreatesAlone a := by
  cases a with
  | connectToken ok =>
    cases ok with
    | true => exact absurd rfl ha
    | false => trivial
  | _ => trivial

theorem SocketsChange.countP_le {l l' : List ReadyState} (h : SocketsChange l a l')
    (ha : a ≠ .connectToken true) : l'.countP (·.isLive) ≤ l.countP (·.isLive) := by
  cases h with
  | created => exact absurd rfl ha
  | kept => exact Nat.le_refl _
  | @moved _ i state next _ hstate hlive =>
    have hcount := Slots.countP_set hstate next (·.isLive)
    revert hlive hcount
    cases state.isLive <;> cases next.isLive <;> simp <;> omega

theorem SocketsChange.length_eq {l l' : List ReadyState} (h : SocketsChange l a l')
    (ha : a ≠ .connectToken true) : l'.length = l.length := by
  cases h with
  | created => exact absurd rfl ha
  | kept => rfl
  | moved => exact List.length_set

theorem atMostOneLive_iff (h : s.AtMostOneLive) (hstep : s.step a = some t) :
    t.AtMostOneLive ↔ s.CreatesAlone a := by
  have hchange := sockets_of_step hstep
  unfold AtMostOneLive liveSockets at h ⊢
  generalize t.sockets = sockets at hchange
  by_cases ha : a = .connectToken true
  · subst ha
    cases hchange with
    | created => simp [CreatesAlone, liveSockets, ReadyState.isLive]
    | kept ha | moved ha => exact absurd rfl ha
  · exact iff_of_true (Nat.le_trans (hchange.countP_le ha) h) (createsAlone_of_ne ha)

/-- With one live socket, what the handlers have seen came over it or is covered by the LSN that it
resumed from. -/
structure Fresh (s : Lifecycle) : Prop where
  nodup : s.entries.Nodup
  covered : ∀ i r, s.sockets[i]? = some .opened → s.subscribed i = some r →
    ∀ e ∈ s.entries, e ∈ s.entriesOver i ∨ ∃ lsn ∈ r, e.2 ≤ lsn
  subscribed : ∀ i, s.openSocket = some i → (s.subscribed i).isSome
  unsubscribed : ∀ i, s.sockets[i]? = some .connecting ∨ s.sockets.length ≤ i →
    s.subscribed i = none

theorem openSocket_eq_some {i : Nat} (h : s.openSocket = some i) :
    s.ws = some i ∧ s.sockets[i]? = some .opened := by
  simpa [openSocket, Option.filter_eq_some_iff] using h

theorem openSocket_of_opened {i : Nat} (hws : s.ws = some i)
    (hstate : s.sockets[i]? = some .opened) : s.openSocket = some i := by
  simp [openSocket, hws, hstate]

theorem openSocket_of_ws (h : s.ws = none) : s.openSocket = none := by
  rw [openSocket, h, Option.filter_none]

theorem fresh_start : start.Fresh where
  nodup := .nil
  covered _ _ h := by cases h
  subscribed _ h := by cases h
  unsubscribed _ _ := rfl

theorem Fresh.send (h : s.Fresh) : s.send.Fresh := by
  unfold Lifecycle.send
  split
  · exact { h with }
  · exact h

theorem Fresh.sendSubscribe (h : s.Fresh) : s.sendSubscribe.Fresh := by
  unfold Lifecycle.sendSubscribe
  split
  · exact h
  next i hopen =>
    obtain ⟨r, hr⟩ := Option.isSome_iff_exists.mp (h.subscribed i hopen)
    rw [hr, Option.getD_some, ← hr, Function.update_eq_self]
    exact { h with }

theorem Fresh.scheduleTokenRefresh (h : s.Fresh) (arm : Bool) :
    (s.scheduleTokenRefresh arm).Fresh :=
  { h with }

theorem Fresh.retire (h : s.Fresh) {sockets : List ReadyState}
    (hlength : sockets.length = s.sockets.length)
    (hlive : ∀ (j : Nat) (state : ReadyState), sockets[j]? = some state →
      state.isLive = true → s.sockets[j]? = some state) :
    { s with sockets := sockets }.Fresh := by
  refine ⟨h.nodup, ?_, ?_, ?_⟩
  · intro j r hj
    exact h.covered j r (hlive j _ hj rfl)
  · intro j hopen
    obtain ⟨hws, hj⟩ := openSocket_eq_some hopen
    exact h.subscribed j (openSocket_of_opened hws (hlive j _ hj rfl))
  · rintro j (hj | hj)
    · exact h.unsubscribed j (.inl (hlive j _ hj rfl))
    · exact h.unsubscribed j (.inr (hlength ▸ hj))

theorem live_of_set {sockets : List ReadyState} {i j : Nat} {next state : ReadyState}
    (hnext : next.isLive = false) (hj : (sockets.set i next)[j]? = some state)
    (hlive : state.isLive = true) : sockets[j]? = some state := by
  rw [List.getElem?_set] at hj
  split at hj
  · split at hj
    · cases hj
      rw [hnext] at hlive
      cases hlive
    · cases hj
  · exact hj

theorem live_of_closeSocket {sockets : List ReadyState} {i j : Nat} {state : ReadyState}
    (hj : (closeSocket sockets i)[j]? = some state) (hlive : state.isLive = true) :
    sockets[j]? = some state := by
  unfold closeSocket at hj
  split at hj
  · exact live_of_set rfl hj hlive
  · exact live_of_set rfl hj hlive
  · exact hj
  · exact hj
  · exact hj

theorem closeSocket_self {sockets : List ReadyState} {i : Nat} {state : ReadyState}
    (h : (closeSocket sockets i)[i]? = some state) : state.isLive = false := by
  unfold closeSocket at h
  split at h
  next hold =>
    rw [List.getElem?_set_self (List.getElem?_eq_some_iff.mp hold).1] at h
    cases h
    rfl
  next hold =>
    rw [List.getElem?_set_self (List.getElem?_eq_some_iff.mp hold).1] at h
    cases h
    rfl
  next hold =>
    rw [hold] at h
    cases h
    rfl
  next hold =>
    rw [hold] at h
    cases h
    rfl
  next hold =>
    rw [hold] at h
    cases h

theorem getElem?_closeSocket_of_ne {sockets : List ReadyState} {i j : Nat} (h : j ≠ i) :
    (closeSocket sockets i)[j]? = sockets[j]? := by
  unfold closeSocket
  split
  · exact List.getElem?_set_ne h.symm
  · exact List.getElem?_set_ne h.symm
  · rfl
  · rfl
  · rfl

theorem length_closeSocket (sockets : List ReadyState) (i : Nat) :
    (closeSocket sockets i).length = sockets.length := by
  unfold closeSocket
  split <;> simp

theorem Fresh.disconnect (h : s.Fresh) : s.disconnect.Fresh := by
  have hclosed : { s with sockets := match s.ws with
      | none => s.sockets
      | some i => closeSocket s.sockets i }.Fresh := by
    split
    · exact h
    · exact h.retire (length_closeSocket _ _) fun _ _ => live_of_closeSocket
  unfold Lifecycle.disconnect cancelReconnect
  split <;> exact { hclosed with subscribed := fun i hi => by cases hi }

theorem Fresh.onClose (h : s.Fresh) : s.onClose.Fresh := by
  unfold Lifecycle.onClose
  split <;> exact { h with }

/-- A Delta that the gateway sends over the one live socket is new to the handlers. -/
theorem Fresh.dispatch (h : s.Fresh) (hlive : s.AtMostOneLive) {i : Nat} {delta : Delta}
    (hserves : s.Serves (.message i delta)) (hstate : s.sockets[i]? = some .opened)
    (hsubscribed : (s.subscribed i).isSome) : (s.dispatch i delta).Fresh := by
  obtain ⟨r, hr⟩ := Option.isSome_iff_exists.mp hsubscribed
  obtain ⟨honce, habove⟩ := hserves
  apply Fresh.send
  refine ⟨?_, ?_, h.subscribed, h.unsubscribed⟩
  · simp only [entries, List.flatMap_append, List.flatMap_singleton]
    refine List.nodup_append'.mpr ⟨h.nodup, (List.nodup_append'.mp honce).2.1, ?_⟩
    intro e he hnew
    rcases h.covered i r hstate hr e he with hover | ⟨lsn, hlsn, hle⟩
    · exact (List.nodup_append'.mp honce).2.2 hover hnew
    · obtain ⟨op, hop, rfl⟩ := List.mem_map.mp hnew
      exact absurd (habove r hr lsn hlsn op hop) (UInt64.not_lt.mpr hle)
  · intro j r' hj hr' e he
    obtain rfl : j = i := Slots.index_unique hlive hj hstate rfl rfl
    simp only [entries, List.flatMap_append, List.flatMap_singleton, List.mem_append] at he
    simp only [entriesOver, List.filter_append, List.flatMap_append, List.mem_append]
    rcases he with hold | hnew
    · exact (h.covered j r' hj hr' e hold).imp_left .inl
    · exact .inl (.inr (by simpa using hnew))

theorem Fresh.createSocket (h : s.Fresh) : s.createSocket.Fresh := by
  have hnew (j : Nat) : s.createSocket.sockets[j]? = s.sockets[j]? ∨
      j = s.sockets.length ∧ s.createSocket.sockets[j]? = some .connecting := by
    simp only [Lifecycle.createSocket, List.getElem?_append]
    split
    next => exact .inl rfl
    next hge =>
      rcases Nat.eq_or_lt_of_le (Nat.le_of_not_lt hge) with rfl | hlt
      · simp
      · left
        rw [List.getElem?_eq_none (Nat.le_of_lt hlt), List.getElem?_eq_none]
        simp only [List.length_singleton]
        omega
  refine ⟨h.nodup, ?_, ?_, ?_⟩
  · intro j r hj
    rcases hnew j with hsame | ⟨_, hconnecting⟩
    · exact h.covered j r (hsame ▸ hj)
    · rw [hconnecting] at hj
      cases hj
  · intro j hopen
    obtain ⟨hws, hj⟩ := openSocket_eq_some hopen
    cases hws
    simp [Lifecycle.createSocket] at hj
  · intro j hj
    refine h.unsubscribed j ?_
    rcases hnew j with hsame | ⟨rfl, _⟩
    · rw [hsame] at hj
      refine hj.imp_right fun hle => ?_
      simp only [Lifecycle.createSocket, List.length_append, List.length_singleton] at hle
      omega
    · exact .inr (Nat.le_refl _)

/-- The one live socket opens, and resumes above all that the handlers have seen. -/
theorem Fresh.opened (h : s.Fresh) (hlive : s.AtMostOneLive) {i : Nat} {arm : Bool}
    (hresume : s.ResumesHighest (.opened i arm)) (hstate : s.sockets[i]? = some .connecting) :
    { s with sockets := s.sockets.set i .opened }.sendSubscribe.Fresh := by
  have hi : i < s.sockets.length := (List.getElem?_eq_some_iff.mp hstate).1
  have hother {j : Nat} (hij : j ≠ i) : (s.sockets.set i .opened)[j]? = s.sockets[j]? :=
    List.getElem?_set_ne (Ne.symm hij)
  have hunsubscribed (j : Nat) (hj : (s.sockets.set i .opened)[j]? = some .connecting ∨
      (s.sockets.set i .opened).length ≤ j) : j ≠ i ∧ s.subscribed j = none := by
    have hij : j ≠ i := by
      rintro rfl
      simp only [List.getElem?_set_self hi, List.length_set, Option.some.injEq, reduceCtorEq,
        false_or] at hj
      omega
    rw [hother hij, List.length_set] at hj
    exact ⟨hij, h.unsubscribed j hj⟩
  unfold Lifecycle.sendSubscribe
  split
  next hclosed =>
    refine ⟨h.nodup, ?_, ?_, fun j hj => (hunsubscribed j hj).2⟩
    · intro j r hj hr
      by_cases hij : j = i
      · rw [hij, h.unsubscribed i (.inl hstate)] at hr
        cases hr
      · exact h.covered j r (hother hij ▸ hj) hr
    · intro j hj
      cases hclosed.symm.trans hj
  next j hopen =>
    obtain rfl : j = i := by
      by_contra hij
      have hj := (openSocket_eq_some hopen).2
      rw [hother hij] at hj
      exact hij (Slots.index_unique hlive hj hstate rfl rfl)
    rw [h.unsubscribed j (.inl hstate), Option.getD_none]
    refine ⟨h.nodup, ?_, ?_, fun k hk => ?_⟩
    · intro k r hk hr
      by_cases hkj : k = j
      · simp only [hkj, Function.update_self, Option.some.injEq] at hr
        exact fun e he => .inr (hr ▸ hresume e he)
      · simp only [Function.update_of_ne hkj] at hr
        exact h.covered k r (hother hkj ▸ hk) hr
    · intro k hk
      cases hopen.symm.trans hk
      simp only [Function.update_self, Option.isSome_some]
    · obtain ⟨hkj, hnone⟩ := hunsubscribed k hk
      simp only [Function.update_of_ne hkj]
      exact hnone

theorem Fresh.step (h : s.Fresh) (hlive : s.AtMostOneLive) (hserves : s.Serves a)
    (hresume : s.ResumesHighest a) (hstep : s.step a = some t) : t.Fresh := by
  cases stepped_of_step hstep with
  | disconnected => exact h.disconnect
  | written => exact h.send
  | created n =>
    apply Fresh.createSocket
    exact { h with }
  | resubscribed n =>
    apply Fresh.sendSubscribe
    exact { h with }
  | refreshed n arm =>
    apply Fresh.scheduleTokenRefresh
    apply Fresh.sendSubscribe
    exact { h with }
  | opened arm hstate => exact (h.opened hlive hresume hstate).scheduleTokenRefresh arm
  | closing hstate => exact h.retire List.length_set fun _ _ => live_of_set rfl
  | closed hstate => exact (h.retire List.length_set fun _ _ => live_of_set rfl).onClose
  | received delta hstate hsubscribed => exact h.dispatch hlive hserves hstate hsubscribed
  | resubscribing | connecting | refused | resubscribeRefused | refreshRefused | reconnecting
  | refreshing | errored => exact { h with }

/-- A run has at most one live socket exactly if it creates every socket while no other is
connecting or open. If moreover every connection serves no op twice, and every socket that opens
resumes from the highest LSN so far, then no op reaches the handlers twice. -/
theorem at_most_one_live_iff (as : List LifecycleAction) :
    (Always step AtMostOneLive start as ↔ Meets step CreatesAlone start as) ∧
    (Meets step (fun s a => s.CreatesAlone a ∧ s.Serves a ∧ s.ResumesHighest a) start as →
      Always step (fun s => s.entries.Nodup) start as) := by
  constructor
  · refine always_iff_meets (J := AtMostOneLive) (E := fun _ _ => True) (fun _ h => h) ?_ ?_ ?_ ?_
    · intro s a t h _ hstep
      exact atMostOneLive_iff h hstep
    · intro s a t _ _ _ h
      exact h
    · exact meets_of_forall fun _ _ => trivial
    · exact Nat.zero_le 1
  · intro hm
    refine hm.always (I := fun s => s.AtMostOneLive ∧ s.Fresh) ?_ ?_ ⟨Nat.zero_le 1, fresh_start⟩
    · rintro s a t h ⟨halone, hserves, hresume⟩ hstep
      exact ⟨(atMostOneLive_iff h.1 hstep).mpr halone, h.2.step h.1 hserves hresume hstep⟩
    · intro s h
      exact h.2.nodup

private def single (partition : String) (lsn : PgLsn) : Delta := ⟨⟨partition⟩, [lsn], lsn⟩

/-- The connection drops and `subscribe` is called before the reconnect timer fires. The timer is
not cleared, so a second socket joins the one that `subscribe` opened. -/
private def staleTimer : List LifecycleAction :=
  [.subscribe none, .connectToken true, .opened 0 true, .closed 0, .subscribe none,
    .connectToken true, .opened 1 true, .message 1 (single "notes" 1), .reconnectTimer 0,
    .connectToken true, .opened 2 true, .message 1 (single "notes" 2),
    .message 2 (single "notes" 2)]

theorem stale_timer_dispatches_twice :
    ¬Always step AtMostOneLive start staleTimer ∧
    Meets step (fun s a => s.Serves a ∧ s.ResumesHighest a) start staleTimer ∧
    (run step start staleTimer).map (·.entries) =
      some [(⟨"notes"⟩, 1), (⟨"notes"⟩, 2), (⟨"notes"⟩, 2)] := by
  have hlive : (run step start staleTimer).map (·.liveSockets) = some 2 := by decide
  refine ⟨?_, by decide, by decide⟩
  intro h
  obtain ⟨t, hrun, hcount⟩ := Option.map_eq_some_iff.mp hlive
  have hone : t.liveSockets ≤ 1 := always_iff.mp h _ [] t (List.append_nil _).symm hrun
  rw [hcount] at hone
  exact absurd hone (by decide)

/-- One call of `subscribe`, a dropped connection, and the reconnect after it. -/
private def reconnected : List LifecycleAction :=
  [.subscribe none, .connectToken true, .opened 0 true, .message 0 (single "notes" 1), .closed 0,
    .reconnectTimer 0, .connectToken true, .opened 1 true, .message 1 (single "notes" 2)]

theorem reconnect_dispatches_once :
    Meets step (fun s a => s.CreatesAlone a ∧ s.Serves a ∧ s.ResumesHighest a) start
      reconnected ∧
    Always step (fun s => s.entries.Nodup) start reconnected := by
  have hmeets : Meets step (fun s a => s.CreatesAlone a ∧ s.Serves a ∧ s.ResumesHighest a) start
      reconnected := by decide
  exact ⟨hmeets, (at_most_one_live_iff _).2 hmeets⟩

example : Meets step (fun s a => s.CreatesAlone a ∧ s.Serves a) start
      [.subscribe none, .connectToken true, .opened 0 true, .message 0 (single "right" 2),
        .message 0 (single "left" 1), .closed 0, .reconnectTimer 0, .connectToken true,
        .opened 1 true, .message 1 (single "right" 2)] ∧
    (run step start
      [.subscribe none, .connectToken true, .opened 0 true, .message 0 (single "right" 2),
        .message 0 (single "left" 1), .closed 0, .reconnectTimer 0, .connectToken true,
        .opened 1 true, .message 1 (single "right" 2)]).map (·.entries) =
      some [(⟨"right"⟩, 2), (⟨"left"⟩, 1), (⟨"right"⟩, 2)] := by decide

/-- The client is torn down: nothing it set up is left that could act on its own. -/
structure Quiet (s : Lifecycle) : Prop where
  ws : s.ws = none
  timers : s.reconnectTimers = []
  dead : s.liveSockets = 0
  explicit : s.explicitlyDisconnected = true

theorem send_of_ws (h : s.ws = none) : s.send = s := by
  rw [send, openSocket_of_ws h]
  rfl

theorem sendSubscribe_of_ws (h : s.ws = none) : s.sendSubscribe = s := by
  rw [sendSubscribe, openSocket_of_ws h]

theorem liveSockets_eq_zero : s.liveSockets = 0 ↔
    ∀ (i : Nat) (state : ReadyState), s.sockets[i]? = some state → state.isLive = false := by
  rw [liveSockets, List.countP_eq_zero]
  constructor
  · intro h i state hstate
    simpa using h state (List.mem_of_getElem? hstate)
  · intro h state hstate
    obtain ⟨i, hi⟩ := List.mem_iff_getElem?.mp hstate
    simp [h i state hi]

/-- A torn-down client stays so, sends nothing and creates nothing, unless `subscribe` is called
or a `connect` that was under way gets an answer. -/
theorem Quiet.step (h : s.Quiet) (hsubscribe : ∀ resumeLsn, a ≠ .subscribe resumeLsn)
    (htoken : ∀ ok, a ≠ .connectToken ok) (hstep : s.step a = some t) :
    t.Quiet ∧ t.sockets.length = s.sockets.length ∧ t.frames = s.frames := by
  have hchange := sockets_of_step hstep
  have hdead : t.liveSockets = 0 :=
    Nat.eq_zero_of_le_zero (h.dead ▸ hchange.countP_le (htoken true))
  have hlength := hchange.length_eq (htoken true)
  suffices hrest : t.ws = none ∧ t.reconnectTimers = [] ∧ t.explicitlyDisconnected = true ∧
      t.frames = s.frames from
    ⟨⟨hrest.1, hrest.2.1, hdead, hrest.2.2.1⟩, hlength, hrest.2.2.2⟩
  clear hdead hlength hchange
  cases stepped_of_step hstep with
  | resubscribing | connecting => exact absurd rfl (hsubscribe _)
  | created | refused => exact absurd rfl (htoken _)
  | disconnected =>
    simp only [Lifecycle.disconnect, cancelReconnect]
    split <;> simp [h.timers]
  | written =>
    rw [send_of_ws h.ws]
    exact ⟨h.ws, h.timers, h.explicit, rfl⟩
  | resubscribed n => simp only [sendSubscribe_of_ws, h.ws, h.timers, h.explicit, and_self]
  | refreshed n arm =>
    simp only [scheduleTokenRefresh, sendSubscribe_of_ws, h.ws, h.timers, h.explicit, and_self]
  | reconnecting htimer =>
    rw [h.timers] at htimer
    cases htimer
  | opened arm hstate => exact absurd (liveSockets_eq_zero.mp h.dead _ _ hstate) (by decide)
  | closing hstate => exact absurd (liveSockets_eq_zero.mp h.dead _ _ hstate) (by decide)
  | closed hstate =>
    simp only [onClose, h.explicit, reduceIte]
    exact ⟨h.ws, h.timers, trivial, trivial⟩
  | received _ hstate _ => exact absurd (liveSockets_eq_zero.mp h.dead _ _ hstate) (by decide)
  | resubscribeRefused | refreshRefused | refreshing | errored =>
    exact ⟨h.ws, h.timers, h.explicit, rfl⟩

theorem down_of_step (hdisconnect : a ≠ .disconnect)
    (hsubscribe : ∀ resumeLsn, a ≠ .subscribe resumeLsn) (hstep : s.step a = some t) :
    t.down = s.down := by
  cases stepped_of_step hstep with
  | disconnected => exact absurd rfl hdisconnect
  | resubscribing | connecting => exact absurd rfl (hsubscribe _)
  | written | resubscribed | closed => simp
  | refreshed | opened => simp [scheduleTokenRefresh]
  | received => simp [dispatch]
  | created | refused | resubscribeRefused | refreshRefused | reconnecting | refreshing | errored
  | closing => rfl

theorem down_subscribe {resumeLsn : Option PgLsn} (hstep : s.step (.subscribe resumeLsn) = some t) :
    t.down = none := by
  cases stepped_of_step hstep <;> rfl

def Settled (s : Lifecycle) : Prop :=
  ∀ before ∈ s.down, s.Quiet ∧ s.sockets.length = before.1 ∧ s.frames = before.2

theorem Settled.final (h : s.Settled) : s.Final := by
  intro before hbefore
  obtain ⟨hquiet, hlength, hframes⟩ := h before hbefore
  exact ⟨hlength, hframes, hquiet.timers, hquiet.dead⟩

theorem final_disconnect_iff (s : Lifecycle) :
    s.disconnect.Final ↔ s.TearsDown .disconnect := by
  have htimers : s.disconnect.reconnectTimers = [] ↔
      ∀ timer ∈ s.reconnectTimers, s.scheduled = some timer := by
    simp only [disconnect, cancelReconnect]
    cases s.scheduled with
    | none => simp [List.eq_nil_iff_forall_not_mem]
    | some scheduled =>
      rw [List.filter_eq_nil_iff]
      constructor
      · intro h timer htimer
        have hcleared := h timer htimer
        rw [decide_eq_true_eq, not_not] at hcleared
        rw [hcleared]
      · intro h timer htimer
        rw [decide_eq_true_eq, not_not]
        exact (Option.some.inj (h timer htimer)).symm
  have hsockets : s.disconnect.liveSockets = 0 ↔ ∀ (i : Nat) (state : ReadyState),
      s.sockets[i]? = some state → state.isLive = true → s.ws = some i := by
    rw [liveSockets_eq_zero]
    constructor
    · intro hdead i state hstate hlive
      by_contra hws
      have hkept : s.disconnect.sockets[i]? = some state := by
        simp only [disconnect]
        split
        · exact hstate
        next j hj =>
          have hne : i ≠ j := fun h => hws (h ▸ hj)
          rw [getElem?_closeSocket_of_ne hne]
          exact hstate
      rw [hdead i state hkept] at hlive
      cases hlive
    · intro hws i state hstate
      by_contra hlive
      rw [Bool.not_eq_false] at hlive
      simp only [disconnect] at hstate
      split at hstate
      next hnone =>
        rw [hws i state hstate hlive] at hnone
        cases hnone
      next j hj =>
        have hij := hws i state (live_of_closeSocket hstate hlive) hlive
        rw [hj, Option.some.injEq] at hij
        subst hij
        rw [closeSocket_self hstate] at hlive
        cases hlive
  have hlength : s.disconnect.sockets.length = s.sockets.length := by
    simp only [disconnect]
    split
    · rfl
    · exact length_closeSocket _ _
  have hframes : s.disconnect.frames = s.frames := by
    simp only [disconnect, cancelReconnect]
    split <;> rfl
  have hdown : s.disconnect.down = some (s.sockets.length, s.frames) := rfl
  simp only [Final, hdown, Option.mem_def, Option.some.injEq, forall_eq', hlength, hframes,
    true_and, htimers, hsockets, TearsDown]
  exact and_comm

theorem not_final_of_connectToken (h : s.Settled) {before : Nat × Nat} {ok : Bool}
    (hdown : s.down = some before) (hstep : s.step (.connectToken ok) = some t) : ¬t.Final := by
  obtain ⟨hquiet, hlength, _⟩ := h before hdown
  simp only [step] at hstep
  intro hfinal
  split at hstep <;> cases hstep
  · have hcreated := (hfinal before hdown).1
    simp only [createSocket, List.length_append, List.length_singleton] at hcreated
    omega
  · have htimers := (hfinal before hdown).2.2.1
    simp [scheduleReconnect] at htimers

/-- From a settled state a step keeps the promise of `disconnect` exactly if it tears down all
there is, or is no answer to a `connect` that `disconnect` did not stop. -/
theorem final_iff_tearsDown (h : s.Settled) (hstep : s.step a = some t) :
    (t.Final ↔ s.TearsDown a) ∧ (t.Final → t.Settled) := by
  by_cases hdisconnect : a = .disconnect
  · subst hdisconnect
    cases hstep
    refine ⟨final_disconnect_iff s, ?_⟩
    intro hfinal before hbefore
    obtain ⟨hlength, hframes, htimers, hdead⟩ := hfinal before hbefore
    exact ⟨⟨rfl, htimers, hdead, rfl⟩, hlength, hframes⟩
  by_cases hsubscribe : ∃ resumeLsn, a = .subscribe resumeLsn
  · obtain ⟨resumeLsn, rfl⟩ := hsubscribe
    have hsettled : t.Settled := fun before hbefore => by simp [down_subscribe hstep] at hbefore
    exact ⟨iff_of_true hsettled.final trivial, fun _ => hsettled⟩
  rw [not_exists] at hsubscribe
  have hdown := down_of_step hdisconnect hsubscribe hstep
  cases hbefore : s.down with
  | none =>
    have hsettled : t.Settled := fun before hmem => by simp [hdown, hbefore] at hmem
    refine ⟨iff_of_true hsettled.final ?_, fun _ => hsettled⟩
    cases a with
    | connectToken => exact hbefore
    | disconnect => exact absurd rfl hdisconnect
    | _ => trivial
  | some before =>
    by_cases htoken : ∃ ok, a = .connectToken ok
    · obtain ⟨ok, rfl⟩ := htoken
      have hnot := not_final_of_connectToken h hbefore hstep
      refine ⟨iff_of_false hnot ?_, fun hfinal => absurd hfinal hnot⟩
      intro htears
      exact absurd (htears.symm.trans hbefore) nofun
    · obtain ⟨hquiet, hlength, hframes⟩ := h before hbefore
      obtain ⟨hquiet', hlength', hframes'⟩ :=
        hquiet.step hsubscribe (fun ok hok => htoken ⟨ok, hok⟩) hstep
      have hsettled : t.Settled := by
        intro other hother
        rw [hdown, hbefore] at hother
        cases hother
        exact ⟨hquiet', hlength'.trans hlength, hframes'.trans hframes⟩
      refine ⟨iff_of_true hsettled.final ?_, fun _ => hsettled⟩
      cases a with
      | connectToken ok => exact absurd ⟨ok, rfl⟩ htoken
      | disconnect => exact absurd rfl hdisconnect
      | _ => trivial

/-- In a run, `disconnect` is final until the next `subscribe` exactly if each `disconnect` finds
nothing but the client's own socket and the remembered timer, and no `connect` that was under way
gets an answer in between. -/
theorem disconnect_final_iff (as : List LifecycleAction) :
    Always step Final start as ↔ Meets step TearsDown start as := by
  refine always_iff_meets (J := Settled) (E := fun _ _ => True) ?_ ?_ ?_ ?_ ?_
  · intro s h
    exact h.final
  · intro s a t h _ hstep
    exact (final_iff_tearsDown h hstep).1
  · intro s a t h _ hstep hfinal
    exact (final_iff_tearsDown h hstep).2 hfinal
  · exact meets_of_forall fun _ _ => trivial
  · intro before hbefore
    cases hbefore

/-- `disconnect` is called while the token of the first `connect` is awaited. -/
private def disconnectWhileConnecting : List LifecycleAction :=
  [.subscribe none, .disconnect, .connectToken true, .opened 0 true]

theorem socket_opened_after_disconnect :
    ¬Always step Final start disconnectWhileConnecting ∧
    (run step start disconnectWhileConnecting).map
      (fun s => (s.down, s.sockets, s.frames)) = some (some (0, 0), [.opened], 1) := by
  have hrun : (run step start disconnectWhileConnecting).map
      (fun s => (s.down, s.sockets, s.frames)) = some (some (0, 0), [.opened], 1) := by decide
  refine ⟨?_, hrun⟩
  intro h
  obtain ⟨t, ht, hfields⟩ := Option.map_eq_some_iff.mp hrun
  simp only [Prod.mk.injEq] at hfields
  have hcreated := (always_iff.mp h _ [] t (List.append_nil _).symm ht (0, 0) hfields.1).1
  rw [hfields.2.1] at hcreated
  cases hcreated

end Lifecycle

end EntitySync.Client
