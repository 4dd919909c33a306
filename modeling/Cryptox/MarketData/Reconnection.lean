import Cryptox.MarketData.UpstreamConnection

/-!
# The reconnect timers

The manager remembers one timer; what is pending is what it has scheduled and has neither cancelled
nor seen fire. The callback of a timer keeps the generation it was scheduled in.
-/
namespace Cryptox.MarketData

open Cryptox.Library

namespace SubscriptionManager

/-- What `scheduleReconnect` hands to `schedule`. -/
def schedules (options : ManagerOptions) (manager : SubscriptionManager) (generation : Nat) :
    Option ReconnectTimer :=
  if manager.reconnectTimer.isSome || !manager.isCurrent generation then none
  else if manager.reconnectAttempt ≥ options.reconnectMaxAttempts then none
  else some ⟨generation, reconnectDelay options manager.reconnectAttempt⟩

/-- The timer that an event schedules. -/
def scheduledBy (options : ManagerOptions) (manager : SubscriptionManager) :
    ManagerEvent → Option ReconnectTimer
  | .rejected number _ | .reconcileFailed number _ =>
    manager.attempts[number]?.bind fun attempt => schedules options manager attempt.generation
  | .onDisconnect number _ =>
    manager.attempts[number]?.bind fun attempt =>
      if manager.isCurrent attempt.generation then
        schedules options { manager with generation := manager.generation + 1 }
          (manager.generation + 1)
      else none
  | _ => none

/-- A call of `setSubscriptions` that returns at once. -/
def ignores (options : ManagerOptions) (manager : SubscriptionManager)
    (subscriptions : List MarketSubscription) : Bool :=
  let next := normalize options subscriptions
  manager.stopped || decide (next = manager.desired
    ∧ (next.isEmpty || manager.connection.isSome || manager.reconnectTimer.isSome))

/-- The timer that an event cancels. -/
def cancelledBy (options : ManagerOptions) (manager : SubscriptionManager) :
    ManagerEvent → Option ReconnectTimer
  | .setSubscriptions subscriptions =>
    if ignores options manager subscriptions then none else manager.reconnectTimer
  | .stop => if manager.stopped then none else manager.reconnectTimer
  | _ => none

/-- A report of CONNECTED, or a call of `setSubscriptions` that is not ignored. -/
def resets (options : ManagerOptions) (manager : SubscriptionManager) : ManagerEvent → Bool
  | .setSubscriptions subscriptions => !ignores options manager subscriptions
  | .reconciled number => manager.has number fun attempt => manager.isCurrent attempt.generation
  | _ => false

end SubscriptionManager

/-- The manager and the callbacks that are pending. -/
structure TimedManager where
  manager : SubscriptionManager
  timers : List ReconnectTimer
deriving DecidableEq

inductive TimedEvent where
  | event (event : ManagerEvent)
  | fires (timer : ReconnectTimer)
deriving DecidableEq, Repr

namespace TimedManager

open SubscriptionManager

def start : TimedManager := ⟨.start, []⟩

def Enabled (timed : TimedManager) : TimedEvent → Prop
  | .event event => event ≠ .timer ∧ timed.manager.enabled event = true
  | .fires timer => timer ∈ timed.timers

def scheduled (options : ManagerOptions) (timed : TimedManager) :
    TimedEvent → Option ReconnectTimer
  | .event event => scheduledBy options timed.manager event
  | .fires _ => none

/-- The timers that are pending once a timer has been cancelled and another scheduled. -/
def upkeep (timers : List ReconnectTimer) (cancelled scheduled : Option ReconnectTimer) :
    List ReconnectTimer :=
  (match cancelled with
    | some timer => timers.erase timer
    | none => timers) ++ scheduled.toList

/-- The callback of a timer forgets whichever timer is remembered, and connects. -/
def next (options : ManagerOptions) (timed : TimedManager) : TimedEvent → TimedManager
  | .event event =>
    { manager := SubscriptionManager.next options timed.manager event
      timers := upkeep timed.timers (cancelledBy options timed.manager event)
        (scheduledBy options timed.manager event) }
  | .fires timer =>
    { manager := (clearReconnectTimer timed.manager).connect timer.generation
      timers := timed.timers.erase timer }

def Resets (options : ManagerOptions) (timed : TimedManager) : TimedEvent → Prop
  | .event event => resets options timed.manager event = true
  | .fires _ => False

def system (options : ManagerOptions) : GuardedSystem TimedManager TimedEvent :=
  ⟨Enabled, next options⟩

/-- How many timers a run schedules. -/
def scheduledCount (options : ManagerOptions) : TimedManager → List TimedEvent → Nat
  | _, [] => 0
  | timed, event :: events =>
    (timed.scheduled options event).toList.length
      + scheduledCount options (timed.next options event) events

instance (timed : TimedManager) : ∀ event, Decidable (timed.Enabled event)
  | .event event =>
    inferInstanceAs (Decidable (event ≠ .timer ∧ timed.manager.enabled event = true))
  | .fires timer => inferInstanceAs (Decidable (timer ∈ timed.timers))

instance (options : ManagerOptions) (timed : TimedManager) (event : TimedEvent) :
    Decidable ((system options).enabled timed event) :=
  inferInstanceAs (Decidable (timed.Enabled event))

end TimedManager

namespace SubscriptionManager

variable {options : ManagerOptions} {before after : SubscriptionManager}

theorem reconnectDelay_bounds (options : ManagerOptions) (reconnectAttempt : Nat) :
    0 ≤ reconnectDelay options reconnectAttempt ∧
      reconnectDelay options reconnectAttempt ≤ max 0 options.reconnectMaxMs := by
  constructor
  · exact le_max_left _ _
  · exact max_le_max le_rfl (min_le_left _ _)

/-- The same of all that the schedule depends on. -/
structure SameSchedule (before after : SubscriptionManager) : Prop where
  generation : after.generation = before.generation
  reconnectTimer : after.reconnectTimer = before.reconnectTimer
  reconnectAttempt : after.reconnectAttempt = before.reconnectAttempt
  stopped : after.stopped = before.stopped
  desired : after.desired = before.desired
  replacing : after.replacing = before.replacing
  generations : after.attempts.map (·.generation) = before.attempts.map (·.generation)

theorem SameSchedule.refl (manager : SubscriptionManager) : SameSchedule manager manager :=
  ⟨rfl, rfl, rfl, rfl, rfl, rfl, rfl⟩

theorem SameSchedule.trans {last : SubscriptionManager} (h : SameSchedule before after)
    (h' : SameSchedule after last) : SameSchedule before last where
  generation := h'.generation.trans h.generation
  reconnectTimer := h'.reconnectTimer.trans h.reconnectTimer
  reconnectAttempt := h'.reconnectAttempt.trans h.reconnectAttempt
  stopped := h'.stopped.trans h.stopped
  desired := h'.desired.trans h.desired
  replacing := h'.replacing.trans h.replacing
  generations := h'.generations.trans h.generations

theorem SameSchedule.isCurrent (h : SameSchedule before after) (generation : Nat) :
    after.isCurrent generation = before.isCurrent generation := by
  simp only [SubscriptionManager.isCurrent, h.generation, h.stopped, h.desired]

theorem SameSchedule.schedules (h : SameSchedule before after) (generation : Nat) :
    schedules options after generation = schedules options before generation := by
  simp only [SubscriptionManager.schedules, h.isCurrent, h.reconnectTimer, h.reconnectAttempt]

theorem sameSchedule_update (manager : SubscriptionManager) (number : Nat)
    {f : ConnectAttempt → ConnectAttempt} (hf : ∀ attempt, (f attempt).generation =
      attempt.generation) : SameSchedule manager (manager.update number f) := by
  refine ⟨rfl, rfl, rfl, rfl, rfl, rfl, List.ext_getElem? fun i => ?_⟩
  simp only [SubscriptionManager.update, List.getElem?_map, List.getElem?_modify]
  cases manager.attempts[i]? with
  | none => rfl
  | some attempt =>
    by_cases hsame : number = i
    · simp [hsame, hf]
    · simp [hsame]

theorem sameSchedule_onStatus (manager : SubscriptionManager) (status : ConnectionStatus)
    (failure : Option ProviderAdapterFailure) :
    SameSchedule manager (manager.onStatus status failure) :=
  ⟨rfl, rfl, rfl, rfl, rfl, rfl, rfl⟩

theorem sameSchedule_connection (manager : SubscriptionManager) (connection : Option Nat) :
    SameSchedule manager { manager with connection } :=
  ⟨rfl, rfl, rfl, rfl, rfl, rfl, rfl⟩

theorem sameSchedule_markConnected (manager : SubscriptionManager) (number : Nat)
    (attempt : ConnectAttempt) : SameSchedule manager (manager.markConnected number attempt) := by
  unfold markConnected
  split_ifs
  · exact .refl manager
  · exact sameSchedule_update manager number fun _ => rfl
  · exact sameSchedule_update manager number fun _ => rfl

theorem sameSchedule_awaitReadiness (manager : SubscriptionManager) (number : Nat)
    (attempt : ConnectAttempt) : SameSchedule manager (manager.awaitReadiness number attempt) :=
  (sameSchedule_markConnected manager number attempt).trans
    (sameSchedule_update _ number fun _ => rfl)

theorem sameSchedule_handOut (manager : SubscriptionManager) (number : Nat)
    (attempt : ConnectAttempt) (hasReady : Bool) :
    SameSchedule manager (manager.handOut number attempt hasReady) := by
  unfold handOut
  dsimp only
  have hupdated : SameSchedule manager (manager.update number fun attempt =>
      { attempt with handedOut := true, phase := .awaitingReady }) :=
    sameSchedule_update manager number fun _ => rfl
  have hheld := hupdated.trans (sameSchedule_connection _ (some number))
  split_ifs
  · exact sameSchedule_update manager number fun _ => rfl
  · exact hheld
  · exact hheld.trans (sameSchedule_awaitReadiness _ _ _)

theorem closeConnection_same (manager : SubscriptionManager) :
    SameSchedule manager manager.closeConnection := by
  unfold closeConnection
  split
  · exact .refl manager
  · rename_i number _
    have hupdated : SameSchedule manager (manager.update number fun attempt =>
        { attempt with closed := true }) := sameSchedule_update manager number fun _ => rfl
    exact hupdated.trans (sameSchedule_connection _ none)

/-- What an event other than the timer does to the schedule. -/
inductive Changes (options : ManagerOptions) (before after : SubscriptionManager)
    (reset : Bool) (scheduled cancelled : Option ReconnectTimer) : Prop
  | keeps (generation : Nat) (desired : List MarketSubscription)
      (hle : before.generation ≤ generation)
      (hafter : SameSchedule { before with generation, desired } after)
      (hscheduled : scheduled = none) (hcancelled : cancelled = none)
  | schedules (generation : Nat) (timer : ReconnectTimer) (hle : before.generation ≤ generation)
      (hnone : before.reconnectTimer = none)
      (hbudget : before.reconnectAttempt < options.reconnectMaxAttempts)
      (hcurrent : ∃ attempt ∈ before.attempts, attempt.generation = before.generation)
      (hdelay : 0 ≤ timer.delayMs ∧ timer.delayMs ≤ max 0 options.reconnectMaxMs)
      (hafter : SameSchedule { before with
        generation, reconnectTimer := some timer,
        reconnectAttempt := before.reconnectAttempt + 1 } after)
      (hscheduled : scheduled = some timer) (hcancelled : cancelled = none)
  | recovers (hreset : reset = true) (hafter : SameSchedule { before with reconnectAttempt := 0 } after)
      (hscheduled : scheduled = none) (hcancelled : cancelled = none)
  | replaces (next : List MarketSubscription) (hreset : reset = true)
      (hafter : SameSchedule { before with
        desired := next, generation := before.generation + 1, reconnectTimer := none,
        replacing := before.replacing ++ [⟨before.generation + 1, next⟩] } after)
      (hscheduled : scheduled = none) (hcancelled : cancelled = before.reconnectTimer)
  | drops (call : ReplaceCall)
      (hafter : SameSchedule { before with replacing := before.replacing.erase call } after)
      (hscheduled : scheduled = none) (hcancelled : cancelled = none)
  | restarts (call : ReplaceCall) (asked : List ConnectAttempt) (hcall : call ∈ before.replacing)
      (hcurrent : call.generation = before.generation)
      (hasked : ∀ attempt ∈ asked, attempt.generation = before.generation)
      (hafter : SameSchedule { before with
        replacing := before.replacing.erase call, reconnectAttempt := 0,
        attempts := before.attempts ++ asked } after)
      (hscheduled : scheduled = none) (hcancelled : cancelled = none)
  | stops
      (hafter : SameSchedule { before with
        stopped := true, generation := before.generation + 1, reconnectTimer := none } after)
      (hscheduled : scheduled = none) (hcancelled : cancelled = before.reconnectTimer)

variable {reset : Bool}

theorem SameSchedule.changes (h : SameSchedule before after) :
    Changes options before after reset none none :=
  .keeps before.generation before.desired le_rfl h rfl rfl

/-- What `scheduleReconnect` does for an attempt that was current, perhaps after a step to the next
generation. -/
theorem changes_scheduleReconnect {manager : SubscriptionManager} {generation : Nat}
    (hle : before.generation ≤ generation)
    (hcurrent : ∃ attempt ∈ before.attempts, attempt.generation = before.generation)
    (hsame : SameSchedule { before with generation } manager) :
    Changes options before (scheduleReconnect options manager generation) reset
      (schedules options { before with generation } generation) none := by
  rw [← hsame.schedules, SubscriptionManager.schedules, scheduleReconnect]
  split_ifs with hstay hspent
  · exact .keeps generation before.desired hle hsame rfl rfl
  · exact .keeps generation before.desired hle (hsame.trans (sameSchedule_onStatus _ _ _)) rfl rfl
  · simp only [Bool.or_eq_true, not_or, Bool.not_eq_true, Option.isSome_eq_false_iff,
      Option.isNone_iff_eq_none] at hstay
    have hattempt : manager.reconnectAttempt = before.reconnectAttempt := hsame.reconnectAttempt
    refine .schedules generation ⟨generation, reconnectDelay options manager.reconnectAttempt⟩ hle
      (hsame.reconnectTimer.symm.trans hstay.1) ?_ hcurrent (reconnectDelay_bounds _ _) ?_ rfl rfl
    · omega
    · exact ⟨hsame.generation, rfl, congrArg (· + 1) hattempt, hsame.stopped, hsame.desired,
        hsame.replacing, hsame.generations⟩

/-- A timer is scheduled for a current attempt only. -/
theorem schedules_of_stale {manager : SubscriptionManager} {generation : Nat}
    (h : manager.isCurrent generation = false) : schedules options manager generation = none := by
  rw [SubscriptionManager.schedules, if_pos]
  simp [h]

theorem changes_failed {manager : SubscriptionManager} {number : Nat} {attempt : ConnectAttempt}
    (hattempt : before.At number attempt) (hsame : SameSchedule before manager)
    (status : ConnectionStatus) (failure : Option ProviderAdapterFailure) :
    Changes options before
      (if !manager.isCurrent attempt.generation then manager
        else scheduleReconnect options (manager.onStatus status failure) attempt.generation)
      reset (schedules options before attempt.generation) none := by
  cases hcurrent : manager.isCurrent attempt.generation with
  | false =>
    rw [schedules_of_stale (hsame.isCurrent _ ▸ hcurrent)]
    exact hsame.changes
  | true =>
    obtain ⟨hgeneration, -, -⟩ := isCurrent_iff.mp (hsame.isCurrent _ ▸ hcurrent)
    rw [hgeneration, if_neg (by decide)]
    exact changes_scheduleReconnect le_rfl ⟨attempt, List.mem_of_getElem? hattempt, hgeneration⟩
      (hsame.trans (sameSchedule_onStatus _ _ _))

theorem changes_handleDisconnect {manager : SubscriptionManager} {number : Nat}
    {attempt : ConnectAttempt} (hattempt : before.At number attempt)
    (hsame : SameSchedule before manager) (failure : Option ProviderAdapterFailure) :
    Changes options before (handleDisconnect options manager attempt.generation failure) reset
      (if before.isCurrent attempt.generation then
        schedules options { before with generation := before.generation + 1 }
          (before.generation + 1)
      else none) none := by
  rw [handleDisconnect, ← hsame.isCurrent]
  cases hcurrent : manager.isCurrent attempt.generation with
  | false => exact hsame.changes
  | true =>
    obtain ⟨hgeneration, -, -⟩ := isCurrent_iff.mp (hsame.isCurrent _ ▸ hcurrent)
    rw [if_neg (by decide), if_pos rfl, hsame.generation]
    refine changes_scheduleReconnect (Nat.le_succ _)
      ⟨attempt, List.mem_of_getElem? hattempt, hgeneration⟩ ?_
    exact ⟨rfl, hsame.reconnectTimer, hsame.reconnectAttempt, hsame.stopped, hsame.desired,
      hsame.replacing, hsame.generations⟩

theorem connect_attempts (manager : SubscriptionManager) {generation : Nat}
    (h : generation = manager.generation) :
    ∃ asked : List ConnectAttempt, (∀ attempt ∈ asked, attempt.generation = manager.generation) ∧
      SameSchedule { manager with attempts := manager.attempts ++ asked }
        (manager.connect generation) := by
  unfold connect
  split_ifs
  · exact ⟨[], by simp, ⟨rfl, rfl, rfl, rfl, rfl, rfl, by simp⟩⟩
  · refine ⟨[.requested generation manager.desired], ?_, ⟨rfl, rfl, rfl, rfl, rfl, rfl, rfl⟩⟩
    intro attempt hattempt
    rw [List.mem_singleton.mp hattempt]
    exact h

theorem changes_replaced {call : ReplaceCall} (hcall : call ∈ before.replacing) :
    Changes options before (before.replaced call) reset none none := by
  unfold replaced
  dsimp only
  split_ifs with hstale hempty
  · exact .drops call (.refl _) rfl rfl
  · obtain ⟨hgeneration, -⟩ := not_or.mp hstale
    exact .restarts call [] hcall (not_not.mp hgeneration) (by simp)
      ⟨rfl, rfl, rfl, rfl, rfl, rfl, by simp [onStatus]⟩ rfl rfl
  · obtain ⟨hgeneration, -⟩ := not_or.mp hstale
    obtain ⟨asked, hasked, hsame⟩ := connect_attempts { before with
      replacing := before.replacing.erase call, reconnectAttempt := 0 } (not_not.mp hgeneration)
    exact .restarts call asked hcall (not_not.mp hgeneration) hasked hsame rfl rfl

theorem changes_setSubscriptions (subscriptions : List MarketSubscription) :
    Changes options before (setSubscriptions options before subscriptions)
      (resets options before (.setSubscriptions subscriptions)) none
      (cancelledBy options before (.setSubscriptions subscriptions)) := by
  unfold setSubscriptions cancelledBy resets ignores
  dsimp only
  by_cases hstopped : before.stopped = true
  · rw [if_pos hstopped, if_pos (by rw [hstopped, Bool.true_or])]
    exact (SameSchedule.refl before).changes
  · rw [if_neg hstopped]
    by_cases hsame : normalize options subscriptions = before.desired ∧
        ((normalize options subscriptions).isEmpty || before.connection.isSome ||
          before.reconnectTimer.isSome) = true
    · rw [if_pos hsame, if_pos (by rw [decide_eq_true hsame, Bool.or_true])]
      exact (SameSchedule.refl before).changes
    · have hheeded : ¬ (before.stopped || decide (normalize options subscriptions =
          before.desired ∧ ((normalize options subscriptions).isEmpty ||
            before.connection.isSome || before.reconnectTimer.isSome) = true)) = true := by
        rw [Bool.or_eq_true, decide_eq_true_iff]
        exact not_or.mpr ⟨hstopped, hsame⟩
      rw [if_neg hsame, if_neg hheeded]
      have hclosed := closeConnection_same (clearReconnectTimer { before with
        desired := normalize options subscriptions, generation := before.generation + 1 })
      refine .replaces (normalize options subscriptions) ?_ ?_ rfl rfl
      · exact (Bool.not_eq_true' _).mpr (Bool.eq_false_iff.mpr hheeded)
      exact ⟨hclosed.generation, hclosed.reconnectTimer, hclosed.reconnectAttempt, hclosed.stopped,
        hclosed.desired, rfl, hclosed.generations⟩

theorem changes_stop :
    Changes options before before.stop reset none (cancelledBy options before .stop) := by
  unfold stop cancelledBy
  dsimp only
  by_cases hstopped : before.stopped = true
  · rw [if_pos hstopped, if_pos hstopped]
    exact (SameSchedule.refl before).changes
  · rw [if_neg hstopped, if_neg hstopped]
    have hclosed := closeConnection_same (clearReconnectTimer { before with
      stopped := true, generation := before.generation + 1 })
    exact .stops ⟨hclosed.generation, hclosed.reconnectTimer, hclosed.reconnectAttempt,
      hclosed.stopped, hclosed.desired, hclosed.replacing, hclosed.generations⟩ rfl rfl

variable (options before) in
/-- Of an event other than the timer. -/
theorem changes_next {event : ManagerEvent} (henabled : before.enabled event = true)
    (htimer : event ≠ .timer) :
    Changes options before (SubscriptionManager.next options before event)
      (resets options before event) (scheduledBy options before event)
      (cancelledBy options before event) := by
  cases event with
  | setSubscriptions subscriptions => exact changes_setSubscriptions subscriptions
  | replaced call => exact changes_replaced (List.contains_iff_mem.mp henabled)
  | stop => exact changes_stop
  | stopped => exact .keeps before.generation [] le_rfl ⟨rfl, rfl, rfl, rfl, rfl, rfl, rfl⟩ rfl rfl
  | handedOut number hasReady =>
    obtain ⟨attempt, hattempt, -⟩ := has_iff.mp henabled
    rw [SubscriptionManager.next, onAttempt_eq hattempt]
    exact (sameSchedule_handOut before number attempt hasReady).changes
  | lateClosed number =>
    have hover : SameSchedule before (before.update number fun attempt =>
        { attempt with phase := .over }) := sameSchedule_update before number fun _ => rfl
    exact hover.changes
  | ready number =>
    obtain ⟨attempt, hattempt, -⟩ := has_iff.mp henabled
    rw [SubscriptionManager.next, onAttempt_eq hattempt]
    exact (sameSchedule_awaitReadiness before number attempt).changes
  | rejected number message =>
    obtain ⟨attempt, hattempt, -⟩ := has_iff.mp henabled
    have hover : SameSchedule before (before.update number fun attempt =>
        { attempt with phase := .over }) := sameSchedule_update before number fun _ => rfl
    rw [SubscriptionManager.next, onAttempt_eq hattempt, scheduledBy, hattempt]
    exact changes_failed hattempt (hover.trans (sameSchedule_connection _ none)) _ _
  | readinessSettled number =>
    have hover : SameSchedule before (before.update number fun attempt =>
        { attempt with phase := .over }) := sameSchedule_update before number fun _ => rfl
    exact hover.changes
  | onConnect number =>
    obtain ⟨attempt, hattempt, -⟩ := has_iff.mp henabled
    rw [SubscriptionManager.next, onAttempt_eq hattempt]
    exact (sameSchedule_markConnected before number attempt).changes
  | onDisconnect number failure =>
    obtain ⟨attempt, hattempt, -⟩ := has_iff.mp henabled
    have hreported : SameSchedule before (before.update number fun attempt =>
        { attempt with reportedDisconnected := true }) :=
      sameSchedule_update before number fun _ => rfl
    rw [SubscriptionManager.next, onAttempt_eq hattempt, scheduledBy, hattempt]
    exact changes_handleDisconnect hattempt hreported failure
  | reconciled number =>
    obtain ⟨attempt, hattempt, -⟩ := has_iff.mp henabled
    have hsettled : SameSchedule before (before.update number fun attempt =>
        { attempt with readiness := .settled }) := sameSchedule_update before number fun _ => rfl
    rw [SubscriptionManager.next, onAttempt_eq hattempt, SubscriptionManager.reconciled]
    split_ifs with hstale
    · exact hsettled.changes
    · have hreset : resets options before (.reconciled number) = true :=
        has_iff.mpr ⟨attempt, hattempt, hsettled.isCurrent _ ▸ current_of_not_stale hstale⟩
      exact .recovers hreset ⟨hsettled.generation, hsettled.reconnectTimer, rfl, hsettled.stopped,
        hsettled.desired, hsettled.replacing, hsettled.generations⟩ rfl rfl
  | reconcileFailed number message =>
    obtain ⟨attempt, hattempt, -⟩ := has_iff.mp henabled
    have hsettled : SameSchedule before (before.update number fun attempt =>
        { attempt with readiness := .settled }) := sameSchedule_update before number fun _ => rfl
    rw [SubscriptionManager.next, onAttempt_eq hattempt, scheduledBy, hattempt]
    exact changes_failed hattempt hsettled _ _
  | timer => exact absurd rfl htimer

end SubscriptionManager

namespace TimedManager

open SubscriptionManager

variable {options : ManagerOptions} {timed : TimedManager}

/-- The pending timer is the remembered one, and no later generation than the manager's is known. A
call that is going to ask for the current generation finds no timer and no attempt of it. -/
structure Orderly (options : ManagerOptions) (timed : TimedManager) : Prop where
  pending : timed.timers = timed.manager.reconnectTimer.toList
  delayed : ∀ timer ∈ timed.timers, 0 ≤ timer.delayMs ∧
    timer.delayMs ≤ max 0 options.reconnectMaxMs
  bounded : ∀ generation ∈ timed.manager.attempts.map (·.generation),
    generation ≤ timed.manager.generation
  replaces : ∀ call ∈ timed.manager.replacing, call.generation ≤ timed.manager.generation ∧
    (call.generation = timed.manager.generation → timed.manager.reconnectTimer = none ∧
      ∀ generation ∈ timed.manager.attempts.map (·.generation),
        generation < timed.manager.generation)
  distinct : (timed.manager.replacing.map (·.generation)).Nodup

theorem orderly_start : Orderly options start := by
  constructor <;> simp [start, SubscriptionManager.start]

theorem Orderly.congr (timed : TimedManager) {manager : SubscriptionManager}
    {timers : List ReconnectTimer} (h : Orderly options timed)
    (hsame : SameSchedule timed.manager manager) (htimers : timers = timed.timers) :
    Orderly options ⟨manager, timers⟩ := by
  subst htimers
  refine ⟨?_, h.delayed, ?_, ?_, ?_⟩
  · rw [hsame.reconnectTimer]
    exact h.pending
  · rw [hsame.generations, hsame.generation]
    exact h.bounded
  · rw [hsame.generations, hsame.generation, hsame.replacing, hsame.reconnectTimer]
    exact h.replaces
  · rw [hsame.replacing]
    exact h.distinct

/-- In a later generation no call waits to ask for the current one. -/
theorem Orderly.later {generation : Nat} (h : Orderly options timed)
    (hlt : timed.manager.generation < generation) :
    ∀ call ∈ timed.manager.replacing, call.generation < generation :=
  fun call hcall => (h.replaces call hcall).1.trans_lt hlt

/-- What is left of the waiting calls when one of the current generation has gone on. -/
theorem Orderly.erased {call : ReplaceCall} (h : Orderly options timed)
    (hcall : call ∈ timed.manager.replacing)
    (hcurrent : call.generation = timed.manager.generation) :
    ∀ other ∈ timed.manager.replacing.erase call,
      other.generation < timed.manager.generation := by
  intro other hother
  have hmem := List.mem_of_mem_erase hother
  refine lt_of_le_of_ne (h.replaces other hmem).1 fun hsame => ?_
  have hnodup := h.distinct
  have hother' : other.generation ∈ (timed.manager.replacing.erase call).map (·.generation) :=
    List.mem_map_of_mem hother
  have hperm := (List.perm_cons_erase hcall).map (·.generation)
  rw [hperm.nodup_iff, List.map_cons, List.nodup_cons] at hnodup
  exact hnodup.1 (hcurrent.trans hsame.symm ▸ hother')

theorem upkeep_none (timers : List ReconnectTimer) : upkeep timers none none = timers :=
  List.append_nil _

/-- Cancelling the remembered timer leaves none. -/
theorem Orderly.upkeep_cancelled (h : Orderly options timed) :
    upkeep timed.timers timed.manager.reconnectTimer none = [] := by
  rw [h.pending]
  cases timed.manager.reconnectTimer with
  | none => rfl
  | some timer => simp [upkeep]

theorem Orderly.changes {manager : SubscriptionManager} {reset : Bool}
    {scheduled cancelled : Option ReconnectTimer} (h : Orderly options timed)
    (hchanges : Changes options timed.manager manager reset scheduled cancelled) :
    Orderly options ⟨manager, upkeep timed.timers cancelled scheduled⟩ := by
  cases hchanges with
  | keeps generation desired hle hafter hscheduled hcancelled =>
    subst hscheduled hcancelled
    rw [upkeep_none]
    refine congr ⟨{ timed.manager with generation, desired }, timed.timers⟩
      ⟨h.pending, h.delayed, ?_, ?_, h.distinct⟩ hafter rfl
    · exact fun asked hasked => (h.bounded asked hasked).trans hle
    · intro call hcall
      obtain ⟨hbound, hcurrent⟩ := h.replaces call hcall
      refine ⟨hbound.trans hle, fun hsame => ?_⟩
      have hgeneration : generation = timed.manager.generation := by
        have heq : call.generation = generation := hsame
        omega
      subst hgeneration
      exact hcurrent hsame
  | schedules generation timer hle hnone hbudget hcurrent hdelay hafter hscheduled hcancelled =>
    subst hscheduled hcancelled
    have hempty : timed.timers = [] := by rw [h.pending, hnone]; rfl
    refine congr ⟨{ timed.manager with
      generation, reconnectTimer := some timer,
      reconnectAttempt := timed.manager.reconnectAttempt + 1 }, _⟩
      ⟨?_, ?_, ?_, ?_, h.distinct⟩ hafter rfl
    · rw [hempty]
      rfl
    · intro pending hpending
      rw [hempty] at hpending
      rw [List.mem_singleton.mp hpending]
      exact hdelay
    · exact fun asked hasked => (h.bounded asked hasked).trans hle
    · intro call hcall
      obtain ⟨hbound, hidle⟩ := h.replaces call hcall
      refine ⟨hbound.trans hle, fun hsame => ?_⟩
      -- no call waits while an attempt of the current generation is there
      obtain ⟨attempt, hattempt, hgeneration⟩ := hcurrent
      have heq : call.generation = generation := hsame
      obtain ⟨-, hearlier⟩ := hidle (by omega)
      have hlt := hearlier attempt.generation (List.mem_map_of_mem hattempt)
      omega
  | recovers hreset hafter hscheduled hcancelled =>
    subst hscheduled hcancelled
    rw [upkeep_none]
    exact congr ⟨{ timed.manager with reconnectAttempt := 0 }, timed.timers⟩
      ⟨h.pending, h.delayed, h.bounded, h.replaces, h.distinct⟩ hafter rfl
  | replaces next hreset hafter hscheduled hcancelled =>
    subst hscheduled hcancelled
    rw [h.upkeep_cancelled]
    refine congr ⟨{ timed.manager with
      desired := next, generation := timed.manager.generation + 1, reconnectTimer := none,
      replacing := timed.manager.replacing ++ [⟨timed.manager.generation + 1, next⟩] }, []⟩
      ⟨rfl, by simp, ?_, ?_, ?_⟩ hafter rfl
    · exact fun asked hasked => (h.bounded asked hasked).trans (Nat.le_succ _)
    · intro call hcall
      rcases List.mem_append.mp hcall with hcall | hcall
      · have hlt := h.later (Nat.lt_succ_self _) call hcall
        exact ⟨hlt.le, fun hsame => absurd hsame hlt.ne⟩
      · rw [List.mem_singleton.mp hcall]
        exact ⟨le_rfl, fun _ => ⟨rfl, fun asked hasked => Nat.lt_succ_of_le (h.bounded asked hasked)⟩⟩
    · rw [List.map_append, List.nodup_append]
      refine ⟨h.distinct, by simp, fun generation hgeneration other hother => ?_⟩
      obtain ⟨call, hcall, rfl⟩ := List.mem_map.mp hgeneration
      have hlt := h.later (Nat.lt_succ_self _) call hcall
      rw [List.mem_singleton.mp hother]
      exact hlt.ne
  | drops call hafter hscheduled hcancelled =>
    subst hscheduled hcancelled
    rw [upkeep_none]
    refine congr ⟨{ timed.manager with
      replacing := timed.manager.replacing.erase call }, timed.timers⟩
      ⟨h.pending, h.delayed, h.bounded, fun other hother => h.replaces other
        (List.mem_of_mem_erase hother), ?_⟩ hafter rfl
    exact h.distinct.sublist (List.erase_sublist.map _)
  | restarts call asked hcall hcurrent hasked hafter hscheduled hcancelled =>
    subst hscheduled hcancelled
    rw [upkeep_none]
    refine congr ⟨{ timed.manager with
      replacing := timed.manager.replacing.erase call, reconnectAttempt := 0,
      attempts := timed.manager.attempts ++ asked }, timed.timers⟩
      ⟨h.pending, h.delayed, ?_, ?_, ?_⟩ hafter rfl
    · intro generation hgeneration
      rw [List.map_append] at hgeneration
      rcases List.mem_append.mp hgeneration with hold | hnew
      · exact h.bounded generation hold
      · obtain ⟨attempt, hattempt, rfl⟩ := List.mem_map.mp hnew
        exact (hasked attempt hattempt).le
    · intro other hother
      have hlt := h.erased hcall hcurrent other hother
      exact ⟨hlt.le, fun hsame => absurd hsame hlt.ne⟩
    · exact h.distinct.sublist (List.erase_sublist.map _)
  | stops hafter hscheduled hcancelled =>
    subst hscheduled hcancelled
    rw [h.upkeep_cancelled]
    refine congr ⟨{ timed.manager with
      stopped := true, generation := timed.manager.generation + 1, reconnectTimer := none }, []⟩
      ⟨rfl, by simp, ?_, ?_, h.distinct⟩ hafter rfl
    · exact fun asked hasked => (h.bounded asked hasked).trans (Nat.le_succ _)
    · intro call hcall
      have hlt := h.later (Nat.lt_succ_self _) call hcall
      exact ⟨hlt.le, fun hsame => absurd hsame hlt.ne⟩

theorem Orderly.remembered {timer : ReconnectTimer} (h : Orderly options timed)
    (htimer : timer ∈ timed.timers) :
    timed.manager.reconnectTimer = some timer ∧ timed.timers.erase timer = [] := by
  have hmem := h.pending ▸ htimer
  have hsome : timed.manager.reconnectTimer = some timer := Option.mem_toList.mp hmem
  refine ⟨hsome, ?_⟩
  rw [h.pending, hsome]
  simp

theorem Orderly.fires {timer : ReconnectTimer} (h : Orderly options timed)
    (htimer : timer ∈ timed.timers) : Orderly options (next options timed (.fires timer)) := by
  obtain ⟨hsome, hempty⟩ := h.remembered htimer
  have hwaiting : ∀ call ∈ timed.manager.replacing,
      call.generation ≠ timed.manager.generation := by
    intro call hcall hsame
    cases hsome.symm.trans ((h.replaces call hcall).2 hsame).1
  rw [next, hempty]
  by_cases hgeneration : timer.generation = timed.manager.generation
  · obtain ⟨asked, hasked, hsame⟩ :=
      connect_attempts (clearReconnectTimer timed.manager) hgeneration
    refine congr ⟨{ timed.manager with
      reconnectTimer := none, attempts := timed.manager.attempts ++ asked }, []⟩
      ⟨rfl, by simp, ?_, ?_, h.distinct⟩ hsame rfl
    · intro generation hmem
      rw [List.map_append] at hmem
      rcases List.mem_append.mp hmem with hold | hnew
      · exact h.bounded generation hold
      · obtain ⟨attempt, hattempt, rfl⟩ := List.mem_map.mp hnew
        exact (hasked attempt hattempt).le
    · exact fun call hcall => ⟨(h.replaces call hcall).1,
        fun hsame => absurd hsame (hwaiting call hcall)⟩
  · have hstale : (clearReconnectTimer timed.manager).isCurrent timer.generation = false := by
      rw [Bool.eq_false_iff]
      exact fun hcurrent => hgeneration (isCurrent_iff.mp hcurrent).1
    rw [connect, if_pos (by rw [hstale]; rfl)]
    exact ⟨rfl, by simp, h.bounded, fun call hcall => ⟨(h.replaces call hcall).1,
      fun hsame => absurd hsame (hwaiting call hcall)⟩, h.distinct⟩

theorem Orderly.next {event : TimedEvent} (h : Orderly options timed)
    (henabled : timed.Enabled event) : Orderly options (next options timed event) := by
  cases event with
  | event event => exact h.changes (changes_next options timed.manager henabled.2 henabled.1)
  | fires timer => exact h.fires henabled

/-- A call waits to ask for the current generation. -/
def Waits (manager : SubscriptionManager) : Prop :=
  ∃ call ∈ manager.replacing, call.generation = manager.generation

instance (manager : SubscriptionManager) : Decidable (Waits manager) :=
  inferInstanceAs (Decidable (∃ call ∈ manager.replacing, call.generation = manager.generation))

/-- How many timers may still be scheduled before the next reset. -/
def budget (options : ManagerOptions) (manager : SubscriptionManager) : Nat :=
  if Waits manager then options.reconnectMaxAttempts
  else options.reconnectMaxAttempts - manager.reconnectAttempt

theorem budget_le (options : ManagerOptions) (manager : SubscriptionManager) :
    budget options manager ≤ options.reconnectMaxAttempts := by
  unfold budget
  split_ifs
  · exact le_rfl
  · exact Nat.sub_le _ _

theorem budget_mono {before after : SubscriptionManager} (hwaits : Waits after → Waits before)
    (hcount : before.reconnectAttempt ≤ after.reconnectAttempt) :
    budget options after ≤ budget options before := by
  by_cases hbefore : Waits before
  · rw [budget, budget, if_pos hbefore]
    exact budget_le options after
  · rw [budget, budget, if_neg hbefore, if_neg fun hafter => hbefore (hwaits hafter)]
    omega

theorem waits_congr {before after : SubscriptionManager} (h : SameSchedule before after) :
    Waits after ↔ Waits before := by
  rw [Waits, Waits, h.replacing, h.generation]

theorem budget_congr {before after : SubscriptionManager} (h : SameSchedule before after) :
    budget options after = budget options before := by
  rw [budget, budget, h.reconnectAttempt]
  simp only [waits_congr h]

/-- A step that resets nothing takes every timer it schedules out of the budget. -/
theorem Orderly.budget_changes {manager : SubscriptionManager}
    {scheduled cancelled : Option ReconnectTimer} (h : Orderly options timed)
    (hchanges : Changes options timed.manager manager false scheduled cancelled) :
    scheduled.toList.length + budget options manager ≤ budget options timed.manager := by
  cases hchanges with
  | keeps generation desired hle hafter hscheduled hcancelled =>
    rw [hscheduled, budget_congr hafter, Option.toList_none, List.length_nil, zero_add]
    refine budget_mono ?_ le_rfl
    rintro ⟨call, hcall, hsame⟩
    have hbound := (h.replaces call hcall).1
    have heq : call.generation = generation := hsame
    exact ⟨call, hcall, by omega⟩
  | schedules generation timer hle hnone hbudget hcurrent hdelay hafter hscheduled hcancelled =>
    have hidle : ∀ call ∈ timed.manager.replacing,
        call.generation ≠ timed.manager.generation := by
      intro call hcall hsame
      obtain ⟨attempt, hattempt, hgeneration⟩ := hcurrent
      have hlt := ((h.replaces call hcall).2 hsame).2 attempt.generation
        (List.mem_map_of_mem hattempt)
      omega
    have hbefore : ¬ Waits timed.manager := fun ⟨call, hcall, hsame⟩ => hidle call hcall hsame
    have hwaits : ¬ Waits { timed.manager with
        generation, reconnectTimer := some timer,
        reconnectAttempt := timed.manager.reconnectAttempt + 1 } := by
      rintro ⟨call, hcall, hsame⟩
      have hbound := (h.replaces call hcall).1
      have heq : call.generation = generation := hsame
      exact hidle call hcall (by omega)
    rw [hscheduled, budget_congr hafter, budget, budget, if_neg hwaits, if_neg hbefore,
      Option.toList_some, List.length_singleton]
    dsimp only
    omega
  | recovers hreset => cases hreset
  | replaces next hreset => cases hreset
  | drops call hafter hscheduled hcancelled =>
    rw [hscheduled, budget_congr hafter, Option.toList_none, List.length_nil, zero_add]
    refine budget_mono ?_ le_rfl
    rintro ⟨other, hother, hsame⟩
    exact ⟨other, List.mem_of_mem_erase hother, hsame⟩
  | restarts call asked hcall hcurrent hasked hafter hscheduled hcancelled =>
    have hwaits : Waits timed.manager := ⟨call, hcall, hcurrent⟩
    rw [hscheduled, Option.toList_none, List.length_nil, zero_add, budget.eq_def options
      timed.manager, if_pos hwaits]
    exact budget_le options manager
  | stops hafter hscheduled hcancelled =>
    rw [hscheduled, budget_congr hafter, Option.toList_none, List.length_nil, zero_add]
    refine budget_mono ?_ le_rfl
    rintro ⟨call, hcall, hsame⟩
    exact absurd hsame (h.later (Nat.lt_succ_self _) call hcall).ne

theorem budget_connect (manager : SubscriptionManager) (generation : Nat) :
    budget options (manager.connect generation) = budget options manager := by
  unfold connect
  split_ifs <;> rfl

/-- A run that resets nothing schedules no more than its first state's budget. -/
theorem scheduledCount_le {events : List TimedEvent} (h : Orderly options timed)
    (hlegal : (system options).Legal (fun timed event => ¬ timed.Resets options event) timed
      events) :
    scheduledCount options timed events ≤ budget options timed.manager := by
  induction events generalizing timed with
  | nil => exact Nat.zero_le _
  | cons event events ih =>
    obtain ⟨⟨henabled, hcalm⟩, hrest⟩ := hlegal
    have hlater := ih (h.next henabled) hrest
    rw [scheduledCount]
    cases event with
    | event event =>
      have hreset : resets options timed.manager event = false := Bool.eq_false_iff.mpr hcalm
      have hstep := h.budget_changes
        (hreset ▸ changes_next options timed.manager henabled.2 henabled.1)
      exact (Nat.add_le_add_left hlater _).trans hstep
    | fires timer =>
      have hkept : budget options (TimedManager.next options timed (.fires timer)).manager =
          budget options timed.manager := budget_connect _ _
      rw [hkept] at hlater
      simpa [scheduled] using hlater

/-- A timer of an outdated generation asks for no connection. -/
theorem fires_outdated {timer : ReconnectTimer}
    (h : timer.generation ≠ timed.manager.generation) :
    (TimedManager.next options timed (.fires timer)).manager =
      clearReconnectTimer timed.manager := by
  have hstale : (clearReconnectTimer timed.manager).isCurrent timer.generation = false := by
    rw [Bool.eq_false_iff]
    exact fun hcurrent => h (isCurrent_iff.mp hcurrent).1
  rw [TimedManager.next, connect, if_pos (by rw [hstale]; rfl)]

theorem run_orderly {events : List TimedEvent}
    (h : (system options).Legal (fun _ _ => True) start events) :
    Orderly options ((system options).run start events) :=
  h.invariant (Orderly options) (fun _ _ horderly henabled _ => horderly.next henabled)
    orderly_start

/-- What every run keeps of the bounds on reconnecting. -/
structure Bounded (options : ManagerOptions) (events : List TimedEvent) (timed : TimedManager) :
    Prop where
  single : timed.timers.length ≤ 1
  delayed : ∀ timer ∈ timed.timers, 0 ≤ timer.delayMs ∧
    timer.delayMs ≤ max 0 options.reconnectMaxMs
  outdated : ∀ timer ∈ timed.timers, timer.generation ≠ timed.manager.generation →
    (TimedManager.next options timed (.fires timer)).manager.attempts = timed.manager.attempts ∧
      (TimedManager.next options timed (.fires timer)).manager.connection =
        timed.manager.connection
  counted : ∀ before stretch, events = before ++ stretch →
    (system options).Legal (fun timed event => ¬ timed.Resets options event)
      ((system options).run start before) stretch →
    scheduledCount options ((system options).run start before) stretch ≤
      options.reconnectMaxAttempts

/-- One timer at most is pending, within its delays; one of an outdated generation asks for no
connection; and between two resets no more are scheduled than the attempts allow. -/
theorem reconnection_bounded (options : ManagerOptions) {events : List TimedEvent}
    (h : (system options).Legal (fun _ _ => True) start events) :
    Bounded options events ((system options).run start events) := by
  have horderly := run_orderly h
  refine ⟨?_, horderly.delayed, fun timer _ houtdated => ?_, fun before stretch heq hcalm => ?_⟩
  · rw [horderly.pending, Option.length_toList]
    split <;> decide
  · rw [fires_outdated houtdated]
    exact ⟨rfl, rfl⟩
  · subst heq
    have hbefore := run_orderly (GuardedSystem.legal_append.mp h).1
    exact (scheduledCount_le hbefore hcalm).trans (budget_le options _)

def oneRetry : ManagerOptions := { binaryOptions with reconnectMaxAttempts := 1 }

/-- The first attempt fails, its one retry too, and the same subscriptions are asked for again. -/
def askedAgain : List TimedEvent :=
  [.event (.replaced ⟨1, minuteCandles⟩), .event (.rejected 0 none), .fires ⟨1, 500⟩,
    .event (.rejected 1 none), .event (.setSubscriptions minuteCandles),
    .event (.replaced ⟨2, minuteCandles⟩), .event (.rejected 2 none)]

theorem reconnection_bounded_asked_again :
    Bounded oneRetry (.event (.setSubscriptions minuteCandles) :: askedAgain)
      ((system oneRetry).run start (.event (.setSubscriptions minuteCandles) :: askedAgain)) :=
  reconnection_bounded oneRetry (by decide +kernel)

/-- A report of CONNECTED, or a changed set of subscriptions. -/
def reportsOrChanges (options : ManagerOptions) (timed : TimedManager) : TimedEvent → Bool
  | .event (.setSubscriptions subscriptions) =>
    decide (normalize options subscriptions ≠ timed.manager.desired)
  | .event event => resets options timed.manager event
  | .fires _ => false

/-- Asking for the same subscriptions again, after the attempts were exhausted, starts them anew. -/
theorem unchanged_subscriptions_reset :
    ¬ ∀ (options : ManagerOptions) (before stretch : List TimedEvent),
      (system options).Legal (fun _ _ => True) start (before ++ stretch) →
      (system options).Legal (fun timed event => timed.reportsOrChanges options event = false)
        ((system options).run start before) stretch →
      scheduledCount options ((system options).run start before) stretch ≤
        options.reconnectMaxAttempts := by
  intro h
  have hcount := h oneRetry [.event (.setSubscriptions minuteCandles)] askedAgain
    (by decide +kernel) (by decide +kernel)
  revert hcount
  decide +kernel

end TimedManager

end Cryptox.MarketData
