import EntitySync.Client.Lifecycle
import Mathlib.Algebra.Order.Field.Rat
import Mathlib.Tactic.Linarith

/-!
# Refreshing the token in time

The timeouts behind the refresh of a token: the connection lifecycle with a clock, the platform's
pending timeouts and the one the client remembers. Times are milliseconds, as exact numbers. A
timeout fires after its delay, but one of more than `2 ^ 31 - 1` milliseconds after one millisecond.
-/

namespace EntitySync.Client

open StepSystem

def refreshLeadMs : ℚ := 60000

/-- The longest delay that `setTimeout` observes. -/
def maxTimeoutMs : ℚ := 2147483647

inductive ExpClaim where
  | number (seconds : ℚ)
  | other

/-- `parsePayload` is base64 decoding and `JSON.parse` together with the search for `exp`; it
answers `none` also where these throw. -/
def decodeJwtExpiry (parsePayload : List Char → Option ExpClaim) (token : String) : Option ℚ :=
  match token.toList.splitOn '.' with
  | [_, payload, _] =>
    match parsePayload payload with
    | some (.number seconds) => some seconds
    | some .other | none => none
  | _ => none

structure RefreshTimeout where
  handle : Nat
  token : String
  fireAt : ℚ

structure RefreshClient where
  life : Lifecycle
  now : ℚ
  timeouts : List RefreshTimeout
  nextHandle : Nat
  refreshTimer : Option Nat

inductive RefreshAction where
  | wait (ms : ℚ)
  | opened (i : Nat) (token : String)
  /-- The `getToken` of a `refreshAndResubscribe` settles. -/
  | refreshToken (token : Option String)
  | fire (handle : Nat)
  /-- Any other event of the client. -/
  | client (a : LifecycleAction)

namespace Lifecycle

def armedAfter (armed : Bool) : LifecycleAction → Bool
  | .opened _ arm | .refreshToken true arm => arm
  | .refreshTimer | .disconnect | .closed _ => false
  | _ => armed

@[simp] theorem refreshArmed_send (s : Lifecycle) : s.send.refreshArmed = s.refreshArmed := by
  unfold send
  split <;> rfl

@[simp] theorem refreshArmed_sendSubscribe (s : Lifecycle) :
    s.sendSubscribe.refreshArmed = s.refreshArmed := by
  unfold sendSubscribe
  split <;> rfl

@[simp] theorem refreshArmed_onClose (s : Lifecycle) : s.onClose.refreshArmed = false := by
  unfold onClose
  split <;> rfl

theorem refreshArmed_of_step {s t : Lifecycle} {a : LifecycleAction} (hstep : s.step a = some t) :
    t.refreshArmed = armedAfter s.refreshArmed a := by
  cases stepped_of_step hstep with
  | written => exact refreshArmed_send s
  | resubscribed n => exact refreshArmed_sendSubscribe _
  | closed hstate => exact refreshArmed_onClose _
  | received hstate hinbox => exact refreshArmed_send _
  | resubscribing | connecting | disconnected | created | refused | resubscribeRefused | refreshed
  | refreshRefused | reconnecting | refreshing | opened | errored | closing => rfl

end Lifecycle

namespace RefreshClient

def start (now : ℚ) : RefreshClient where
  life := .start
  now := now
  timeouts := []
  nextHandle := 0
  refreshTimer := none

def setTimeout (s : RefreshClient) (token : String) (delay : ℚ) : RefreshClient × Nat :=
  ({ s with
    timeouts := s.timeouts ++
      [⟨s.nextHandle, token, s.now + if delay ≤ maxTimeoutMs then delay else 1⟩]
    nextHandle := s.nextHandle + 1 }, s.nextHandle)

def clearRefreshTimer (s : RefreshClient) : RefreshClient :=
  match s.refreshTimer with
  | none => s
  | some handle =>
    { s with timeouts := s.timeouts.filter (·.handle ≠ handle), refreshTimer := none }

section Steps

variable (parsePayload : List Char → Option ExpClaim)

def scheduleJwtRefresh (s : RefreshClient) (token : String) : RefreshClient × Option Nat :=
  match decodeJwtExpiry parsePayload token with
  | none => (s, none)
  | some expSeconds =>
    let expMs := expSeconds * 1000
    let refreshAtMs := expMs - refreshLeadMs
    let delay := refreshAtMs - s.now
    if delay ≤ 0 then (s, none)
    else ((s.setTimeout token delay).1, some (s.setTimeout token delay).2)

/-- The client takes the result as its timer, also if it is `undefined`. -/
def scheduleTokenRefresh (s : RefreshClient) (token : String) : RefreshClient :=
  let scheduled := s.clearRefreshTimer.scheduleJwtRefresh parsePayload token
  { scheduled.1 with refreshTimer := scheduled.2 }

def arms (s : RefreshClient) (token : String) : Bool :=
  (s.scheduleJwtRefresh parsePayload token).2.isSome

def step (s : RefreshClient) : RefreshAction → Option RefreshClient
  | .wait ms =>
    if 0 ≤ ms ∧ ∀ timeout ∈ s.timeouts, s.now + ms ≤ timeout.fireAt then
      some { s with now := s.now + ms }
    else none
  | .opened i token =>
    (s.life.step (.opened i (s.arms parsePayload token))).map fun life =>
      { s.scheduleTokenRefresh parsePayload token with life := life }
  | .refreshToken none =>
    (s.life.step (.refreshToken false false)).map fun life => { s with life := life }
  | .refreshToken (some token) =>
    (s.life.step (.refreshToken true (s.arms parsePayload token))).map fun life =>
      { s.scheduleTokenRefresh parsePayload token with life := life }
  | .fire handle =>
    if s.timeouts.any fun timeout => timeout.handle = handle ∧ timeout.fireAt ≤ s.now then
      (s.life.step .refreshTimer).map fun life =>
        { s with life := life, timeouts := s.timeouts.filter (·.handle ≠ handle) }
    else none
  | .client a =>
    match a with
    | .opened _ _ | .refreshToken _ _ | .refreshTimer => none
    | .disconnect | .closed _ =>
      (s.life.step a).map fun life => { s.clearRefreshTimer with life := life }
    | a => (s.life.step a).map fun life => { s with life := life }

end Steps

def refreshTimes (s : RefreshClient) (token : String) : List ℚ :=
  (s.timeouts.filter (·.token = token)).map (·.fireAt)

def refreshTimeout (parsePayload : List Char → Option ExpClaim) (s : RefreshClient)
    (token : String) : Option RefreshTimeout :=
  (decodeJwtExpiry parsePayload token).bind fun expSeconds =>
    let delay := expSeconds * 1000 - refreshLeadMs - s.now
    if delay ≤ 0 then none
    else some ⟨s.nextHandle, token, s.now + if delay ≤ maxTimeoutMs then delay else 1⟩

/-- The client remembers every pending timeout, none is overdue, and the lifecycle knows whether
there is one. -/
structure Consistent (s : RefreshClient) : Prop where
  remembered : ∀ timeout ∈ s.timeouts, s.refreshTimer = some timeout.handle
  notOverdue : ∀ timeout ∈ s.timeouts, s.now ≤ timeout.fireAt
  armed : s.life.refreshArmed = !s.timeouts.isEmpty

variable {parsePayload : List Char → Option ExpClaim} {s t : RefreshClient} {token : String}

theorem consistent_start (now : ℚ) : (start now).Consistent where
  remembered _ h := by cases h
  notOverdue _ h := by cases h
  armed := rfl

theorem consistent_of_nil (htimeouts : s.timeouts = []) (harmed : s.life.refreshArmed = false) :
    s.Consistent where
  remembered timeout h := by simp [htimeouts] at h
  notOverdue timeout h := by simp [htimeouts] at h
  armed := by simp [htimeouts, harmed]

theorem Consistent.filter_eq_nil (h : s.Consistent) {handle : Nat}
    (htimer : s.refreshTimer = some handle) : s.timeouts.filter (·.handle ≠ handle) = [] := by
  apply List.filter_eq_nil_iff.mpr
  intro timeout hmem
  rw [h.remembered timeout hmem] at htimer
  simpa using htimer

theorem timeouts_clearRefreshTimer (h : s.Consistent) : s.clearRefreshTimer.timeouts = [] := by
  unfold clearRefreshTimer
  split
  next hnone =>
    apply List.eq_nil_iff_forall_not_mem.mpr
    intro timeout hmem
    rw [h.remembered timeout hmem] at hnone
    cases hnone
  next handle hsome => exact h.filter_eq_nil hsome

@[simp] theorem now_clearRefreshTimer (s : RefreshClient) : s.clearRefreshTimer.now = s.now := by
  unfold clearRefreshTimer
  split <;> rfl

@[simp] theorem nextHandle_clearRefreshTimer (s : RefreshClient) :
    s.clearRefreshTimer.nextHandle = s.nextHandle := by
  unfold clearRefreshTimer
  split <;> rfl

theorem refreshTimeout_clearRefreshTimer (s : RefreshClient) :
    s.clearRefreshTimer.refreshTimeout parsePayload token =
      s.refreshTimeout parsePayload token := by
  simp [refreshTimeout]

theorem scheduleJwtRefresh_spec (parsePayload : List Char → Option ExpClaim) (s : RefreshClient)
    (token : String) :
    (s.scheduleJwtRefresh parsePayload token).1.timeouts =
      s.timeouts ++ (s.refreshTimeout parsePayload token).toList ∧
    (s.scheduleJwtRefresh parsePayload token).1.now = s.now ∧
    (s.scheduleJwtRefresh parsePayload token).2 =
      (s.refreshTimeout parsePayload token).map (·.handle) := by
  unfold scheduleJwtRefresh refreshTimeout
  cases decodeJwtExpiry parsePayload token with
  | none => simp
  | some expSeconds =>
    by_cases hdelay : expSeconds * 1000 - refreshLeadMs - s.now ≤ 0
    · simp only [Option.bind_some, if_pos hdelay]
      simp
    · simp only [Option.bind_some, if_neg hdelay]
      simp [setTimeout]

theorem arms_eq (s : RefreshClient) (token : String) :
    s.arms parsePayload token = (s.refreshTimeout parsePayload token).isSome := by
  simp [arms, scheduleJwtRefresh_spec]

theorem scheduleTokenRefresh_spec (parsePayload : List Char → Option ExpClaim) (h : s.Consistent)
    (token : String) :
    (s.scheduleTokenRefresh parsePayload token).timeouts =
      (s.refreshTimeout parsePayload token).toList ∧
    (s.scheduleTokenRefresh parsePayload token).now = s.now ∧
    (s.scheduleTokenRefresh parsePayload token).refreshTimer =
      (s.refreshTimeout parsePayload token).map (·.handle) := by
  have hspec := scheduleJwtRefresh_spec parsePayload s.clearRefreshTimer token
  rw [refreshTimeout_clearRefreshTimer, timeouts_clearRefreshTimer h, List.nil_append,
    now_clearRefreshTimer] at hspec
  exact hspec

theorem now_le_of_refreshTimeout {timeout : RefreshTimeout}
    (h : s.refreshTimeout parsePayload token = some timeout) : s.now ≤ timeout.fireAt := by
  obtain ⟨expSeconds, _, h⟩ := Option.bind_eq_some_iff.mp h
  simp only [Option.ite_none_left_eq_some, not_le, Option.some.injEq] at h
  obtain ⟨hdelay, rfl⟩ := h
  dsimp only
  split <;> linarith

theorem consistent_scheduleTokenRefresh (h : s.Consistent) {life : Lifecycle}
    (hlife : life.refreshArmed = s.arms parsePayload token) :
    { s.scheduleTokenRefresh parsePayload token with life := life }.Consistent := by
  obtain ⟨htimeouts, hnow, htimer⟩ := scheduleTokenRefresh_spec parsePayload h token
  rw [arms_eq] at hlife
  constructor
  · intro timeout hmem
    rw [htimeouts, Option.mem_toList] at hmem
    rw [htimer, hmem]
    rfl
  · intro timeout hmem
    rw [htimeouts, Option.mem_toList] at hmem
    rw [hnow]
    exact now_le_of_refreshTimeout hmem
  · rw [htimeouts, hlife]
    cases s.refreshTimeout parsePayload token <;> rfl

theorem Consistent.with_life (h : s.Consistent) {life : Lifecycle}
    (hlife : life.refreshArmed = s.life.refreshArmed) : { s with life := life }.Consistent where
  remembered := h.remembered
  notOverdue := h.notOverdue
  armed := hlife.trans h.armed

theorem exists_of_fire (h : s.Consistent) {handle : Nat}
    (hstep : s.step parsePayload (.fire handle) = some t) :
    ∃ timeout ∈ s.timeouts, timeout.handle = handle ∧ timeout.fireAt = s.now := by
  simp only [step, Option.ite_none_right_eq_some, List.any_eq_true, decide_eq_true_eq] at hstep
  obtain ⟨⟨timeout, hmem, hhandle, hdue⟩, _⟩ := hstep
  exact ⟨timeout, hmem, hhandle, le_antisymm hdue (h.notOverdue timeout hmem)⟩

theorem consistent_fire (h : s.Consistent) {handle : Nat}
    (hstep : s.step parsePayload (.fire handle) = some t) : t.Consistent := by
  obtain ⟨timeout, hmem, hhandle, _⟩ := exists_of_fire h hstep
  simp only [step, Option.ite_none_right_eq_some, Option.map_eq_some_iff] at hstep
  obtain ⟨_, life, hlife, rfl⟩ := hstep
  have htimer : s.refreshTimer = some handle := hhandle ▸ h.remembered timeout hmem
  exact consistent_of_nil (h.filter_eq_nil htimer) (Lifecycle.refreshArmed_of_step hlife)

theorem consistent_client (h : s.Consistent) {a : LifecycleAction}
    (hstep : s.step parsePayload (.client a) = some t) : t.Consistent := by
  cases a with
  | opened | refreshToken | refreshTimer => cases hstep
  | disconnect | closed =>
    simp only [step, Option.map_eq_some_iff] at hstep
    obtain ⟨life, hlife, rfl⟩ := hstep
    exact consistent_of_nil (timeouts_clearRefreshTimer h) (Lifecycle.refreshArmed_of_step hlife)
  | subscribe | write | connectToken | resubscribeToken | reconnectTimer | errored | closing
  | message =>
    simp only [step, Option.map_eq_some_iff] at hstep
    obtain ⟨life, hlife, rfl⟩ := hstep
    exact h.with_life (Lifecycle.refreshArmed_of_step hlife)

theorem consistent_of_step (h : s.Consistent) {a : RefreshAction}
    (hstep : s.step parsePayload a = some t) : t.Consistent := by
  cases a with
  | wait ms =>
    simp only [step, Option.ite_none_right_eq_some, Option.some.injEq] at hstep
    obtain ⟨⟨_, hdue⟩, rfl⟩ := hstep
    exact ⟨h.remembered, hdue, h.armed⟩
  | opened i token =>
    obtain ⟨life, hlife, rfl⟩ := Option.map_eq_some_iff.mp hstep
    exact consistent_scheduleTokenRefresh h (Lifecycle.refreshArmed_of_step hlife)
  | refreshToken token =>
    cases token with
    | none =>
      obtain ⟨life, hlife, rfl⟩ := Option.map_eq_some_iff.mp hstep
      exact h.with_life (Lifecycle.refreshArmed_of_step hlife)
    | some token =>
      obtain ⟨life, hlife, rfl⟩ := Option.map_eq_some_iff.mp hstep
      exact consistent_scheduleTokenRefresh h (Lifecycle.refreshArmed_of_step hlife)
  | fire handle => exact consistent_fire h hstep
  | client a => exact consistent_client h hstep

theorem refreshTimes_opened (h : s.Consistent) {i : Nat}
    (hstep : s.step parsePayload (.opened i token) = some t) :
    t.refreshTimes token = ((s.refreshTimeout parsePayload token).map (·.fireAt)).toList := by
  obtain ⟨life, _, rfl⟩ := Option.map_eq_some_iff.mp hstep
  have htoken : ∀ timeout ∈ s.refreshTimeout parsePayload token, timeout.token = token := by
    intro timeout hmem
    obtain ⟨expSeconds, _, hmem⟩ := Option.bind_eq_some_iff.mp hmem
    simp only [Option.ite_none_left_eq_some, Option.some.injEq] at hmem
    rw [← hmem.2]
  rw [refreshTimes, (scheduleTokenRefresh_spec parsePayload h token).1]
  cases htimeout : s.refreshTimeout parsePayload token with
  | none => rfl
  | some timeout => simp [htoken timeout htimeout]

/-- In every run, the opening of a socket arranges one refresh for its token, at the later of now
and the lead before the expiry, exactly if the token is not yet within the lead and the time until
then is one that `setTimeout` observes. -/
theorem refreshTimes_opened_iff {began expSeconds : ℚ} {actions : List RefreshAction} {i : Nat}
    (hrun : run (step parsePayload) (start began) actions = some s)
    (hstep : s.step parsePayload (.opened i token) = some t)
    (hexp : decodeJwtExpiry parsePayload token = some expSeconds) :
    t.refreshTimes token = [max s.now (expSeconds * 1000 - refreshLeadMs)] ↔
      s.now < expSeconds * 1000 - refreshLeadMs ∧
      expSeconds * 1000 - refreshLeadMs ≤ s.now + maxTimeoutMs := by
  have hs : s.Consistent :=
    run_invariant (fun _ _ _ hs hstep => consistent_of_step hs hstep) (consistent_start began) hrun
  rw [refreshTimes_opened hs hstep]
  simp only [refreshTimeout, hexp, Option.bind_some]
  generalize expSeconds * 1000 - refreshLeadMs = refreshAtMs
  by_cases hdelay : refreshAtMs - s.now ≤ 0
  · have hpast : ¬ s.now < refreshAtMs := by linarith
    simp [hdelay, hpast]
  · have hfuture : s.now < refreshAtMs := by linarith
    rw [if_neg hdelay, max_eq_right hfuture.le]
    by_cases hlong : refreshAtMs - s.now ≤ maxTimeoutMs
    · have hobserved : refreshAtMs ≤ s.now + maxTimeoutMs := by linarith
      simp [hlong, hfuture, hobserved]
    · have hlate : ¬ refreshAtMs ≤ s.now + maxTimeoutMs := by linarith
      -- The timeout fires after one millisecond, long before.
      have hearly : s.now + 1 ≠ refreshAtMs := by
        unfold maxTimeoutMs at hlong
        intro h
        linarith
      simp [hlong, hlate, hearly]

/-- A token that expires in an hour is refreshed a minute before. -/
theorem refreshTimes_opened_hour : ∃ s t : RefreshClient,
    run (step fun _ => some (.number 3600)) (start 0)
      [.client (.subscribe none), .client (.connectToken true)] = some s ∧
    s.step (fun _ => some (.number 3600)) (.opened 0 "header.payload.signature") = some t ∧
    decodeJwtExpiry (fun _ => some (.number 3600)) "header.payload.signature" = some 3600 ∧
    t.refreshTimes "header.payload.signature" = [max s.now (3600 * 1000 - refreshLeadMs)] := by
  have hexp : decodeJwtExpiry (fun _ => some (.number 3600)) "header.payload.signature" =
      some 3600 := by decide +kernel
  have hopens : ((run (step fun _ => some (.number 3600)) (start 0)
      [.client (.subscribe none), .client (.connectToken true)]).bind fun s =>
        s.step (fun _ => some (.number 3600))
          (.opened 0 "header.payload.signature")).isSome = true := by
    decide +kernel
  have hnow : (run (step fun _ => some (.number 3600)) (start 0)
      [.client (.subscribe none), .client (.connectToken true)]).map (·.now) = some 0 := by
    decide +kernel
  obtain ⟨t, hopens⟩ := Option.isSome_iff_exists.mp hopens
  obtain ⟨s, hrun, hstep⟩ := Option.bind_eq_some_iff.mp hopens
  rw [hrun, Option.map_some, Option.some.injEq] at hnow
  refine ⟨s, t, hrun, hstep, hexp, ?_⟩
  apply (refreshTimes_opened_iff hrun hstep hexp).mpr
  rw [hnow]
  decide +kernel

/-- At time zero, a token of thirty seconds is not refreshed at all, and one of a year after a
millisecond. -/
theorem refreshTimes_opened_short_long :
    decodeJwtExpiry (fun _ => some (.number 30)) "header.payload.signature" = some 30 ∧
    (run (step fun _ => some (.number 30)) (start 0) [.client (.subscribe none),
      .client (.connectToken true), .opened 0 "header.payload.signature"]).map
        (fun s => (s.now, s.refreshTimes "header.payload.signature")) = some (0, []) ∧
    decodeJwtExpiry (fun _ => some (.number 31536000)) "header.payload.signature" =
      some 31536000 ∧
    (run (step fun _ => some (.number 31536000)) (start 0) [.client (.subscribe none),
      .client (.connectToken true), .opened 0 "header.payload.signature"]).map
        (fun s => (s.now, s.refreshTimes "header.payload.signature")) = some (0, [1]) := by
  decide +kernel

end RefreshClient

end EntitySync.Client
