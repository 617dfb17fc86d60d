import EntitySync.Client.Lifecycle
import Mathlib.Algebra.Order.Field.Rat
import Mathlib.Data.Rat.Floor
import Mathlib.Tactic.IntervalCases
import Mathlib.Tactic.Linarith
import Mathlib.Tactic.NormNum
import Mathlib.Tactic.Ring

/-!
# Reconnect backoff over connection histories

The connection lifecycle with the attempt counter of its `ReconnectScheduler`, and two counters of
the history that the code does not have: the reconnects scheduled up to the last open, and those
since. Numbers are exact, and every `Math.random()` is part of the event that asks for it.
-/

namespace EntitySync.Client

open StepSystem

def initialDelayMs : ℚ := 1000

def maxDelayMs : ℚ := 30000

def jitterRatio : ℚ := 1 / 5

/-- A result of `Math.random()`. -/
structure Draw where
  value : ℚ
  nonneg : 0 ≤ value
  lt_one : value < 1

def cappedMs (attempt : Nat) : ℚ := min (initialDelayMs * 2 ^ (attempt - 1)) maxDelayMs

/-- `Math.round` rounds halves up. -/
def backoffDelayMs (attempt : Nat) (random : Draw) : ℤ :=
  let capped := cappedMs attempt
  let jitterSpan := capped * jitterRatio
  let jitter := (random.value * 2 - 1) * jitterSpan
  max 0 ⌊capped + jitter + 1 / 2⌋

theorem exists_cappedMs (attempt : Nat) : ∃ m : Nat, 1 ≤ m ∧ cappedMs attempt = 1000 * m := by
  refine ⟨min (2 ^ (attempt - 1)) 30, le_min Nat.one_le_two_pow (by omega), ?_⟩
  rw [cappedMs, initialDelayMs, maxDelayMs, Nat.cast_min, mul_min_of_nonneg _ _ (by norm_num)]
  norm_num

theorem cappedMs_mono {m n : Nat} (h : m ≤ n) : cappedMs m ≤ cappedMs n := by
  unfold cappedMs initialDelayMs
  apply min_le_min_right
  have hpow : (2 : ℚ) ^ (m - 1) ≤ 2 ^ (n - 1) := pow_le_pow_right₀ (by norm_num) (by omega)
  linarith

theorem cappedMs_of_le {n : Nat} (h : 6 ≤ n) : cappedMs n = maxDelayMs := by
  apply le_antisymm (min_le_right _ _)
  calc maxDelayMs = cappedMs 6 := by norm_num [cappedMs, initialDelayMs, maxDelayMs]
    _ ≤ cappedMs n := cappedMs_mono h

theorem cappedMs_grows {k n : Nat} (hk : 1 ≤ k) (hcap : k < 6) (h : k < n) :
    cappedMs k * (15 / 8) ≤ cappedMs n := by
  apply le_trans _ (cappedMs_mono (Nat.succ_le_of_lt h))
  interval_cases k <;> norm_num [cappedMs, initialDelayMs, maxDelayMs]

theorem backoffDelayMs_jitter (attempt : Nat) (random : Draw) :
    cappedMs attempt * (1 - jitterRatio) ≤ backoffDelayMs attempt random ∧
    (backoffDelayMs attempt random : ℚ) ≤ cappedMs attempt * (1 + jitterRatio) := by
  obtain ⟨m, hm, hcapped⟩ := exists_cappedMs attempt
  have hm : (1 : ℚ) ≤ m := by exact_mod_cast hm
  have hlow : 0 ≤ random.value * m := mul_nonneg random.nonneg (by linarith)
  have hhigh : random.value * m ≤ m := mul_le_of_le_one_left (by linarith) random.lt_one.le
  -- A fifth of a whole number of seconds is a whole number of milliseconds.
  have hfloor : (800 * m : ℤ) ≤ ⌊(1000 * m : ℚ) + (random.value * 2 - 1) * (1000 * m * (1 / 5))
      + 1 / 2⌋ := by
    rw [Int.le_floor]
    push_cast
    linarith
  have hceil : ⌊(1000 * m : ℚ) + (random.value * 2 - 1) * (1000 * m * (1 / 5)) + 1 / 2⌋ <
      (1200 * m + 1 : ℤ) := by
    rw [Int.floor_lt]
    push_cast
    linarith
  rw [backoffDelayMs, hcapped, jitterRatio, max_eq_right (by omega)]
  generalize ⌊(1000 * m : ℚ) + (random.value * 2 - 1) * (1000 * m * (1 / 5)) + 1 / 2⌋ = delay
    at hfloor hceil
  have hfloor : ((800 * m : ℤ) : ℚ) ≤ delay := Int.cast_le.mpr hfloor
  have hceil : (delay : ℚ) ≤ ((1200 * m : ℤ) : ℚ) := Int.cast_le.mpr (by omega)
  push_cast at hfloor hceil
  constructor <;> linarith

theorem exists_backoffDelayMs_iff {k n : Nat} (hk : 1 ≤ k) (h : k ≤ n) (random : Draw) :
    (∃ draw, backoffDelayMs n random = backoffDelayMs k draw) ↔ k = n ∨ 6 ≤ k := by
  constructor
  · rintro ⟨draw, heq⟩
    by_contra hne
    have hgrows := cappedMs_grows hk (by omega) (show k < n by omega)
    have hlow := (backoffDelayMs_jitter n random).1
    have hhigh := (backoffDelayMs_jitter k draw).2
    obtain ⟨m, hm, hcapped⟩ := exists_cappedMs k
    have hm : (1 : ℚ) ≤ m := by exact_mod_cast hm
    rw [heq] at hlow
    rw [jitterRatio] at hlow hhigh
    linarith
  · intro hcap
    refine ⟨random, ?_⟩
    have hsame : cappedMs n = cappedMs k := by
      rcases hcap with rfl | hcap
      · rfl
      · rw [cappedMs_of_le hcap, cappedMs_of_le (hcap.trans h)]
    rw [backoffDelayMs, backoffDelayMs, hsame]

structure ReconnectScheduler where
  attempt : Nat
  /-- The delay of the last timer. -/
  delay : Option ℤ

def ReconnectScheduler.schedule (s : ReconnectScheduler) (random : Draw) : ReconnectScheduler where
  attempt := s.attempt + 1
  delay := some (backoffDelayMs (s.attempt + 1) random)

def Lifecycle.schedulesReconnect (s : Lifecycle) : LifecycleAction → Bool
  | .connectToken false => true
  | .closed _ => !s.explicitlyDisconnected
  | _ => false

structure BackoffClient where
  life : Lifecycle
  scheduler : ReconnectScheduler
  /-- The reconnects scheduled up to the last open. -/
  beforeOpen : Nat
  /-- The reconnects scheduled since the last open. -/
  sinceOpen : Nat

structure BackoffAction where
  event : LifecycleAction
  random : Draw

namespace Lifecycle

@[simp] theorem nextTimer_send (s : Lifecycle) : s.send.nextTimer = s.nextTimer := by
  unfold send
  split <;> rfl

@[simp] theorem nextTimer_sendSubscribe (s : Lifecycle) :
    s.sendSubscribe.nextTimer = s.nextTimer := by
  unfold sendSubscribe
  split <;> rfl

@[simp] theorem nextTimer_cancelReconnect (s : Lifecycle) :
    s.cancelReconnect.nextTimer = s.nextTimer := by
  unfold cancelReconnect
  split <;> rfl

theorem nextTimer_onClose (s : Lifecycle) :
    s.onClose.nextTimer = s.nextTimer + (!s.explicitlyDisconnected).toNat := by
  unfold onClose
  cases s.explicitlyDisconnected <;> rfl

theorem nextTimer_of_step {s t : Lifecycle} {a : LifecycleAction} (hstep : s.step a = some t) :
    t.nextTimer = s.nextTimer + (s.schedulesReconnect a).toNat := by
  cases stepped_of_step hstep with
  | written => exact nextTimer_send s
  | disconnected => exact nextTimer_cancelReconnect s
  | resubscribed n => exact nextTimer_sendSubscribe _
  | refreshed n arm => exact nextTimer_sendSubscribe _
  | opened arm hstate => exact nextTimer_sendSubscribe _
  | closed hstate => exact nextTimer_onClose _
  | received hstate hinbox => exact nextTimer_send _
  | resubscribing | connecting | created | refused | resubscribeRefused | refreshRefused
  | reconnecting | refreshing | errored | closing => rfl

end Lifecycle

namespace BackoffClient

def start : BackoffClient where
  life := .start
  scheduler := ⟨0, none⟩
  beforeOpen := 0
  sinceOpen := 0

/-- The open listener does not touch the scheduler. -/
def step (s : BackoffClient) (a : BackoffAction) : Option BackoffClient :=
  (s.life.step a.event).map fun life =>
    if s.life.schedulesReconnect a.event then
      { s with
        life := life
        scheduler := s.scheduler.schedule a.random
        sinceOpen := s.sinceOpen + 1 }
    else
      match a.event with
      | .opened _ _ =>
        { s with life := life, beforeOpen := s.beforeOpen + s.sinceOpen, sinceOpen := 0 }
      | _ => { s with life := life }

/-- A reconnect that is scheduled now gets a delay of the attempt that it is since the last
open. -/
def RestartsBackoff (s : BackoffClient) (a : BackoffAction) : Prop :=
  s.life.schedulesReconnect a.event = true →
    ∃ draw, (s.scheduler.schedule a.random).delay = some (backoffDelayMs (s.sinceOpen + 1) draw)

/-- No reconnect was scheduled before the last open, or five have been since. -/
def BackoffAligned (s : BackoffClient) (a : BackoffAction) : Prop :=
  s.life.schedulesReconnect a.event = true → s.beforeOpen = 0 ∨ 5 ≤ s.sinceOpen

instance (s : BackoffClient) (a : BackoffAction) : Decidable (s.BackoffAligned a) :=
  inferInstanceAs (Decidable (_ → _))

/-- The scheduler counts every timer that was ever set. -/
structure Counted (s : BackoffClient) : Prop where
  attempt : s.scheduler.attempt = s.beforeOpen + s.sinceOpen
  timers : s.life.nextTimer = s.scheduler.attempt

variable {s t : BackoffClient} {a : BackoffAction}

theorem counted_start : start.Counted where
  attempt := rfl
  timers := rfl

theorem counted_of_step (h : s.Counted) (hstep : s.step a = some t) : t.Counted := by
  obtain ⟨life, hlife, rfl⟩ := Option.map_eq_some_iff.mp hstep
  have htimers := Lifecycle.nextTimer_of_step hlife
  have hattempt := h.attempt
  split
  next hschedules =>
    rw [hschedules, h.timers] at htimers
    exact ⟨by simp only [ReconnectScheduler.schedule]; omega, htimers⟩
  next hschedules =>
    rw [Bool.eq_false_iff.mpr hschedules, h.timers] at htimers
    split
    · exact ⟨hattempt, htimers⟩
    · exact ⟨hattempt, htimers⟩

theorem restartsBackoff_iff (h : s.Counted) : s.RestartsBackoff a ↔ s.BackoffAligned a := by
  apply imp_congr_right
  intro _
  have hattempt := h.attempt
  simp only [ReconnectScheduler.schedule, Option.some.injEq]
  rw [exists_backoffDelayMs_iff (by omega) (by omega)]
  omega

/-- In every run, each reconnect is delayed as the attempt that it is since the last open exactly
if each is scheduled when none was before that open, or when the delays have reached their cap. -/
theorem backoff_restarts_iff (actions : List BackoffAction) :
    Meets step RestartsBackoff start actions ↔ Meets step BackoffAligned start actions :=
  meets_congr (fun _ _ _ h hstep => counted_of_step h hstep)
    (fun _ _ _ h _ => restartsBackoff_iff h) counted_start actions

/-- A first attempt fails, the second opens its socket, and the connection is lost. -/
def lostAfterRetry : List BackoffAction :=
  ([.subscribe none, .connectToken false, .reconnectTimer 0, .connectToken true, .opened 0 false,
    .closed 0] : List LifecycleAction).map (⟨·, ⟨1 / 2, by norm_num, by norm_num⟩⟩)

/-- The next attempt comes after two seconds, which is no delay of a first attempt. -/
theorem backoff_continues_after_open :
    (run step start lostAfterRetry).map (fun s => (s.sinceOpen, s.scheduler.delay)) =
      some (1, some 2000) ∧
    ¬ Meets step RestartsBackoff start lostAfterRetry := by
  constructor
  · decide +kernel
  · intro h
    have haligned : Meets step BackoffAligned start lostAfterRetry :=
      h.imp (fun _ _ _ hs hG hstep => ⟨(restartsBackoff_iff hs).mp hG, counted_of_step hs hstep⟩)
        counted_start
    revert haligned
    decide

end BackoffClient

end EntitySync.Client
