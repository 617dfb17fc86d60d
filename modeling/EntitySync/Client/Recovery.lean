import EntitySync.Client.Lifecycle

/-!
# Recovery of a connection

After `subscribe` the client is never at rest until `disconnect`: a token is awaited, a reconnect
timer is pending, or a socket exists whose close event will arm one. From any such state a few
events of the environment lead to an open socket on which a `Subscribe` was sent. This needs that
no `connect` gets its token while the client is disconnected: `subscribe` on a socket that such a
token created leaves the flag of `disconnect` set, and the close event of this socket is then the
last event of the client.
-/

namespace EntitySync.Client.Lifecycle

open StepSystem

/-- The flag of `disconnect` is not set when a `connect` gets its token. -/
def NoLateToken (s : Lifecycle) : LifecycleAction → Prop
  | .connectToken true => s.explicitlyDisconnected = false
  | _ => True

instance (s : Lifecycle) : (a : LifecycleAction) → Decidable (s.NoLateToken a)
  | .connectToken true => inferInstanceAs (Decidable (_ = false))
  | .connectToken false | .subscribe _ | .disconnect | .write | .resubscribeToken _
  | .refreshToken _ _ | .reconnectTimer _ | .refreshTimer | .opened _ _ | .errored _ | .closing _
  | .closed _ | .message _ _ => isTrue trivial

def Environment (a : LifecycleAction) : Prop :=
  (∀ resumeLsn, a ≠ .subscribe resumeLsn) ∧ a ≠ .disconnect ∧ a ≠ .write

def Underway (s : Lifecycle) : Prop :=
  0 < s.connecting ∨ s.reconnectTimers ≠ [] ∨
    ∃ state ∈ s.sockets, state ≠ .closed

/-- The socket of the client is open, and the first `Subscribe` on it resumes from this LSN. -/
def Subscribed (s : Lifecycle) (resumeLsn : Option PgLsn) : Prop :=
  ∃ i, s.openSocket = some i ∧ s.subscribed i = some resumeLsn

/-- While it is disconnected the client refers to no socket, and nothing was sent on sockets that do
not exist. -/
structure Tidy (s : Lifecycle) : Prop where
  released : s.explicitlyDisconnected = true → s.ws = none
  unused : ∀ i, s.sockets.length ≤ i → s.subscribed i = none

variable {s t : Lifecycle} {a : LifecycleAction}

theorem tidy_start : start.Tidy := ⟨fun _ => rfl, fun _ _ => rfl⟩

@[simp] theorem explicitlyDisconnected_send (s : Lifecycle) :
    s.send.explicitlyDisconnected = s.explicitlyDisconnected := by
  unfold send
  split <;> rfl

@[simp] theorem explicitlyDisconnected_sendSubscribe (s : Lifecycle) :
    s.sendSubscribe.explicitlyDisconnected = s.explicitlyDisconnected := by
  unfold sendSubscribe
  split <;> rfl

@[simp] theorem ws_send (s : Lifecycle) : s.send.ws = s.ws := by
  unfold send
  split <;> rfl

@[simp] theorem ws_sendSubscribe (s : Lifecycle) : s.sendSubscribe.ws = s.ws := by
  unfold sendSubscribe
  split <;> rfl

@[simp] theorem subscribed_send (s : Lifecycle) : s.send.subscribed = s.subscribed := by
  unfold send
  split <;> rfl

@[simp] theorem connecting_send (s : Lifecycle) : s.send.connecting = s.connecting := by
  unfold send
  split <;> rfl

@[simp] theorem connecting_sendSubscribe (s : Lifecycle) :
    s.sendSubscribe.connecting = s.connecting := by
  unfold sendSubscribe
  split <;> rfl

@[simp] theorem reconnectTimers_send (s : Lifecycle) :
    s.send.reconnectTimers = s.reconnectTimers := by
  unfold send
  split <;> rfl

@[simp] theorem reconnectTimers_sendSubscribe (s : Lifecycle) :
    s.sendSubscribe.reconnectTimers = s.reconnectTimers := by
  unfold sendSubscribe
  split <;> rfl

theorem Tidy.sendSubscribe (h : s.Tidy) : s.sendSubscribe.Tidy := by
  unfold Lifecycle.sendSubscribe
  split
  · exact h
  next i hopen =>
    have hi : i < s.sockets.length :=
      (List.getElem?_eq_some_iff.mp (openSocket_eq_some hopen).2).1
    refine ⟨h.released, fun j hj => ?_⟩
    change s.sockets.length ≤ j at hj
    have hne : j ≠ i := by omega
    exact (Function.update_of_ne hne _ _).trans (h.unused j hj)

theorem Tidy.send (h : s.Tidy) : s.send.Tidy := by
  refine ⟨?_, ?_⟩
  · simpa using h.released
  · simpa using h.unused

theorem Tidy.onClose (h : s.Tidy) : s.onClose.Tidy := by
  unfold Lifecycle.onClose
  split
  · exact ⟨h.released, h.unused⟩
  · exact ⟨h.released, h.unused⟩

theorem Tidy.move (h : s.Tidy) {sockets : List ReadyState}
    (hlength : sockets.length = s.sockets.length) : { s with sockets := sockets }.Tidy := by
  refine ⟨h.released, fun i hi => h.unused i ?_⟩
  rwa [← hlength]

theorem Tidy.step (h : s.Tidy) (hlate : s.NoLateToken a) (hstep : s.step a = some t) : t.Tidy := by
  cases stepped_of_step hstep with
  | resubscribing | refused | resubscribeRefused | refreshRefused | refreshing | errored =>
    exact ⟨h.released, h.unused⟩
  | connecting | reconnecting _ =>
    refine ⟨fun hflag => ?_, h.unused⟩
    cases hflag
  | disconnected =>
    refine ⟨fun _ => rfl, fun i hi => ?_⟩
    have hlength : s.disconnect.sockets.length = s.sockets.length := by
      simp only [disconnect]
      split
      · rfl
      · exact length_closeSocket _ _
    have hkeep : s.disconnect.subscribed = s.subscribed := by
      simp only [disconnect, cancelReconnect]
      split <;> rfl
    rw [hkeep]
    exact h.unused i (hlength ▸ hi)
  | written => exact h.send
  | created n =>
    refine ⟨fun hflag => ?_, fun i hi => h.unused i ?_⟩
    · exact absurd (hlate.symm.trans hflag) (by decide)
    · simp only [createSocket, List.length_append, List.length_singleton] at hi
      omega
  | resubscribed n => exact Tidy.sendSubscribe ⟨h.released, h.unused⟩
  | refreshed n arm =>
    have hsent : { s with refreshing := n }.sendSubscribe.Tidy :=
      Tidy.sendSubscribe ⟨h.released, h.unused⟩
    exact ⟨hsent.released, hsent.unused⟩
  | @opened i arm hstate =>
    have hsent := (h.move (List.length_set (i := i) (a := .opened))).sendSubscribe
    exact ⟨hsent.released, hsent.unused⟩
  | closing hstate => exact h.move List.length_set
  | closed hstate => exact (h.move List.length_set).onClose
  | received delta hstate hsubscribed => exact Tidy.send ⟨h.released, h.unused⟩

structure Wanting (s : Lifecycle) : Prop where
  tidy : s.Tidy
  wanted : s.explicitlyDisconnected = false
  underway : s.Underway

theorem wanting_of_subscribe (h : s.Tidy) {resumeLsn : Option PgLsn}
    (hstep : s.step (.subscribe resumeLsn) = some t) : t.Wanting := by
  cases stepped_of_step hstep with
  | resubscribing _ hopen =>
    obtain ⟨i, hi⟩ := Option.isSome_iff_exists.mp hopen
    obtain ⟨hws, hstate⟩ := openSocket_eq_some hi
    refine ⟨⟨h.released, h.unused⟩, ?_, Or.inr (Or.inr ⟨.opened, ?_, by decide⟩)⟩
    · cases hflag : s.explicitlyDisconnected with
      | false => rfl
      | true =>
        rw [h.released hflag] at hws
        cases hws
    · exact List.mem_of_getElem? hstate
  | connecting =>
    refine ⟨⟨fun hflag => ?_, h.unused⟩, rfl, Or.inl (Nat.succ_pos _)⟩
    cases hflag

theorem exists_not_closed_of_set {sockets : List ReadyState} {i : Nat} {next : ReadyState}
    (hi : i < sockets.length) (hnext : next ≠ .closed) :
    ∃ state ∈ sockets.set i next, state ≠ .closed :=
  ⟨next, List.mem_set hi next, hnext⟩

theorem Wanting.step (h : s.Wanting) (hlate : s.NoLateToken a) (hdisconnect : a ≠ .disconnect)
    (hstep : s.step a = some t) : t.Wanting := by
  have htidy := h.tidy.step hlate hstep
  have hwanted := h.wanted
  have hunderway := h.underway
  cases stepped_of_step hstep with
  | disconnected => exact absurd rfl hdisconnect
  | resubscribing | resubscribeRefused | refreshRefused | refreshing | errored =>
    exact ⟨htidy, hwanted, hunderway⟩
  | connecting | reconnecting _ => exact ⟨htidy, rfl, Or.inl (Nat.succ_pos _)⟩
  | written => exact ⟨htidy, by simpa using hwanted, by simpa [Underway] using hunderway⟩
  | created n =>
    refine ⟨htidy, hwanted, Or.inr (Or.inr ⟨.connecting, ?_, by decide⟩)⟩
    exact List.mem_append_right _ List.mem_cons_self
  | refused n => exact ⟨htidy, hwanted, Or.inr (Or.inl (by simp [scheduleReconnect]))⟩
  | resubscribed n => exact ⟨htidy, by simpa using hwanted, by simpa [Underway] using hunderway⟩
  | refreshed n arm =>
    exact ⟨htidy, by simpa [scheduleTokenRefresh] using hwanted,
      by simpa [Underway, scheduleTokenRefresh] using hunderway⟩
  | opened arm hstate =>
    refine ⟨htidy, by simpa [scheduleTokenRefresh] using hwanted, Or.inr (Or.inr ?_)⟩
    simp only [scheduleTokenRefresh, sockets_sendSubscribe]
    exact exists_not_closed_of_set (List.getElem?_eq_some_iff.mp hstate).1 (by decide)
  | closing hstate =>
    refine ⟨htidy, hwanted, Or.inr (Or.inr ?_)⟩
    exact exists_not_closed_of_set (List.getElem?_eq_some_iff.mp hstate).1 (by decide)
  | closed hstate =>
    rw [onClose, if_neg (by simp [hwanted])] at htidy ⊢
    exact ⟨htidy, hwanted, Or.inr (Or.inl (by simp [scheduleReconnect]))⟩
  | received delta hstate hsubscribed =>
    exact ⟨htidy, by simpa [dispatch] using hwanted, by simpa [Underway, dispatch] using hunderway⟩

theorem subscribed_of_opened {i : Nat} (hws : s.ws = some i)
    (hstate : s.sockets[i]? = some .connecting) (hnone : s.subscribed i = none) :
    ∃ t, s.step (.opened i false) = some t ∧ t.Subscribed s.lastLsn := by
  have hi : i < s.sockets.length := (List.getElem?_eq_some_iff.mp hstate).1
  have hopen : { s with sockets := s.sockets.set i .opened }.openSocket = some i := by
    simp [openSocket, hws, hi]
  refine ⟨_, if_pos hstate, i, ?_, ?_⟩
  · simp [openSocket, scheduleTokenRefresh, hws, hi]
  · simp only [scheduleTokenRefresh, sendSubscribe, hopen, Function.update_self, hnone,
      Option.getD_none]

theorem subscribed_of_token (h : s.Tidy) (hconnecting : 0 < s.connecting) :
    ∃ t, run step s [.connectToken true, .opened s.sockets.length false] = some t ∧
      t.Subscribed s.lastLsn := by
  obtain ⟨n, hn⟩ := Nat.exists_eq_succ_of_ne_zero (Nat.pos_iff_ne_zero.mp hconnecting)
  have hcreate : s.step (.connectToken true) = some { s with connecting := n }.createSocket := by
    simp only [step, hn]
  obtain ⟨t, ht, hsubscribed⟩ :=
    subscribed_of_opened (s := { s with connecting := n }.createSocket) rfl
      (by simp [createSocket]) (h.unused _ (Nat.le_refl _))
  refine ⟨t, ?_, hsubscribed⟩
  rw [run_cons, hcreate, Option.bind_some, run_cons, ht]
  rfl

theorem connects_of_timer (h : s.Tidy) {timer : Nat} (htimer : timer ∈ s.reconnectTimers) :
    ∃ t, s.step (.reconnectTimer timer) = some t ∧ t.Tidy ∧ 0 < t.connecting ∧
      t.lastLsn = s.lastLsn := by
  have hstep : s.step (.reconnectTimer timer) = some _ := if_pos htimer
  exact ⟨_, hstep, h.step (a := .reconnectTimer timer) trivial hstep, Nat.succ_pos _, rfl⟩

theorem schedules_of_close (h : s.Tidy) (hwanted : s.explicitlyDisconnected = false)
    {state : ReadyState} (hmem : state ∈ s.sockets) (hstate : state ≠ .closed) :
    ∃ i t, s.step (.closed i) = some t ∧ t.Tidy ∧ t.reconnectTimers ≠ [] ∧
      t.lastLsn = s.lastLsn := by
  obtain ⟨i, hi⟩ := List.getElem?_of_mem hmem
  have hstep : s.step (.closed i) = some { s with sockets := s.sockets.set i .closed }.onClose := by
    cases state with
    | closed => exact absurd rfl hstate
    | connecting | opened | closing => simp only [step, hi]
  refine ⟨i, _, hstep, h.step (a := .closed i) trivial hstep, ?_, ?_⟩
  · simp [onClose, hwanted, scheduleReconnect]
  · simp [onClose, hwanted, scheduleReconnect]

/-- From a state in which a connection is wanted and under way, at most four events of the
environment lead to a subscribed socket: a close event, its timer, a token and the open event. -/
theorem Wanting.recovers (h : s.Wanting) : ∃ events : List LifecycleAction,
    events.length ≤ 4 ∧ (∀ a ∈ events, Environment a) ∧
      ∃ t, run Lifecycle.step s events = some t ∧ t.Subscribed s.lastLsn := by
  have hconnecting {u : Lifecycle} (hu : u.Tidy) (hpos : 0 < u.connecting) :
      ∃ t, run Lifecycle.step u [.connectToken true, .opened u.sockets.length false] = some t ∧
        t.Subscribed u.lastLsn := subscribed_of_token hu hpos
  have htimer {u : Lifecycle} (hu : u.Tidy) (hne : u.reconnectTimers ≠ []) :
      ∃ timer i t, run Lifecycle.step u
          [.reconnectTimer timer, .connectToken true, .opened i false] = some t ∧
        t.Subscribed u.lastLsn := by
    obtain ⟨timer, hmem⟩ := List.exists_mem_of_ne_nil _ hne
    obtain ⟨v, hv, htidy, hpos, hlast⟩ := connects_of_timer hu hmem
    obtain ⟨t, ht, hsubscribed⟩ := hconnecting htidy hpos
    refine ⟨timer, v.sockets.length, t, ?_, hlast ▸ hsubscribed⟩
    rw [run_cons, hv, Option.bind_some, ht]
  rcases h.underway with hpos | hne | ⟨state, hmem, hstate⟩
  · exact ⟨_, by simp, by simp [Environment], hconnecting h.tidy hpos⟩
  · obtain ⟨timer, i, hrun⟩ := htimer h.tidy hne
    exact ⟨_, by simp, by simp [Environment], hrun⟩
  · obtain ⟨i, u, hu, htidy, hne, hlast⟩ := schedules_of_close h.tidy h.wanted hmem hstate
    obtain ⟨timer, j, t, ht, hsubscribed⟩ := htimer htidy hne
    refine ⟨[.closed i, .reconnectTimer timer, .connectToken true, .opened j false], by simp,
      by simp [Environment], t, ?_, hlast ▸ hsubscribed⟩
    rw [run_cons, hu, Option.bind_some, ht]

/-- After `subscribe` and until `disconnect`, whatever happens to tokens, timers and sockets, at
most four events of the environment lead to an open socket of the client on which a `Subscribe` was
sent that resumes from the last LSN, if no `connect` gets its token while the client is
disconnected. -/
theorem subscribed_client_recovers {before after : List LifecycleAction} {s : Lifecycle}
    {resumeLsn : Option PgLsn}
    (hlate : Meets step NoLateToken start (before ++ .subscribe resumeLsn :: after))
    (hafter : .disconnect ∉ after)
    (hs : run step start (before ++ .subscribe resumeLsn :: after) = some s) :
    ∃ events : List LifecycleAction, events.length ≤ 4 ∧ (∀ a ∈ events, Environment a) ∧
      ∃ t, run step s events = some t ∧ t.Subscribed s.lastLsn := by
  rw [run_append] at hs
  obtain ⟨u, hu, hs⟩ := Option.bind_eq_some_iff.mp hs
  obtain ⟨v, hv, hs⟩ := run_cons_eq_some.mp hs
  have htidy : u.Tidy := hlate.append_left.invariant
    (fun _ _ _ hI hG hstep => hI.step hG hstep) tidy_start hu
  have hmeets : Meets step NoLateToken v after := (hlate.append_right hu v hv).2
  have hwanting : s.Wanting := by
    refine (hmeets.and_forall fun a ha => ?_).invariant
      (fun _ _ _ hI hG hstep => hI.step hG.1 hG.2 hstep) (wanting_of_subscribe htidy hv) hs
    rintro rfl
    exact hafter ha
  exact hwanting.recovers

/-- The connection is lost, and the next `connect` is refused a token. -/
private def lostAndRefused : List LifecycleAction :=
  [.connectToken true, .opened 0 false, .message 0 ⟨⟨"notes"⟩, [7], 7⟩, .closed 0,
    .reconnectTimer 0, .connectToken false]

theorem recovers_after_refused_token : ∃ s,
    run step start ([] ++ .subscribe none :: lostAndRefused) = some s ∧
    ∃ events : List LifecycleAction, events.length ≤ 4 ∧ (∀ a ∈ events, Environment a) ∧
      ∃ t, run step s events = some t ∧ t.Subscribed s.lastLsn := by
  have hlate : Meets step NoLateToken start ([] ++ .subscribe none :: lostAndRefused) := by decide
  exact ⟨_, rfl, subscribed_client_recovers hlate (by decide) rfl⟩

structure AtRest (s : Lifecycle) : Prop where
  connecting : s.connecting = 0
  reconnectTimers : s.reconnectTimers = []
  sockets : ∀ state ∈ s.sockets, state = .closed

theorem AtRest.openSocket (h : s.AtRest) : s.openSocket = none := by
  cases hopen : s.openSocket with
  | none => rfl
  | some i =>
    have hmem := List.mem_of_getElem? (openSocket_eq_some hopen).2
    cases h.sockets _ hmem

theorem AtRest.step (h : s.AtRest) (ha : Environment a) (hstep : s.step a = some t) :
    t.AtRest := by
  have hclosed {i : Nat} {state : ReadyState} (hstate : s.sockets[i]? = some state) :
      state = .closed := h.sockets _ (List.mem_of_getElem? hstate)
  cases a with
  | subscribe resumeLsn => exact absurd rfl (ha.1 resumeLsn)
  | disconnect => exact absurd rfl ha.2.1
  | write => exact absurd rfl ha.2.2
  | connectToken ok =>
    simp [Lifecycle.step, h.connecting] at hstep
  | reconnectTimer timer =>
    rw [Lifecycle.step, h.reconnectTimers] at hstep
    cases hstep
  | opened i arm =>
    obtain ⟨hstate, _⟩ := Option.ite_none_right_eq_some.mp hstep
    cases hclosed hstate
  | closing i =>
    obtain ⟨hstate, _⟩ := Option.ite_none_right_eq_some.mp hstep
    cases hclosed hstate
  | closed i =>
    rw [Lifecycle.step] at hstep
    split at hstep
    · cases hstep
    · cases hstep
    all_goals
      next hstate => cases hclosed hstate
  | message i delta =>
    obtain ⟨⟨hstate, _⟩, _⟩ := Option.ite_none_right_eq_some.mp hstep
    cases hclosed hstate
  | resubscribeToken _ | refreshToken _ _ | refreshTimer | errored _ =>
    cases stepped_of_step hstep <;>
      exact ⟨by simpa [scheduleTokenRefresh] using h.connecting,
        by simpa [scheduleTokenRefresh] using h.reconnectTimers,
        by simpa [scheduleTokenRefresh] using h.sockets⟩

theorem AtRest.run {events : List LifecycleAction} (h : s.AtRest)
    (henv : ∀ a ∈ events, Environment a) (hrun : run Lifecycle.step s events = some t) :
    t.AtRest := by
  have hmeets : Meets Lifecycle.step (fun _ a => Environment a) s events := meets_of_forall henv
  exact hmeets.invariant (fun _ _ _ hI hG hstep => hI.step hG hstep) h hrun

/-- `disconnect` is called while `connect` awaits its token. The token creates a socket; a second
`subscribe` finds it open and leaves the flag set; and when the server closes it, no event of the
environment ever opens a socket again. -/
theorem late_token_strands_client : ∃ s,
    run step start [.subscribe none, .disconnect, .connectToken true, .opened 0 false,
      .subscribe none, .resubscribeToken true, .closed 0] = some s ∧ s.down = none ∧
    ∀ events : List LifecycleAction, (∀ a ∈ events, Environment a) →
      ∀ t, run step s events = some t → t.openSocket = none := by
  refine ⟨_, rfl, rfl, fun events henv t ht => ?_⟩
  exact (AtRest.run ⟨rfl, rfl, by decide⟩ henv ht).openSocket

end EntitySync.Client.Lifecycle
