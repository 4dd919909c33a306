import Cryptox.Library.GuardedSystem
import Cryptox.Library.Table
import Cryptox.MarketData.Rules

/-!
# The subscription manager

One manager keeps an upstream connection for the desired subscriptions. Each of its calls goes from
one await to the next; closing, connecting, readiness, reconciliation, disconnects and the one timer
come back in any order. An attempt is one call of `connect` that has asked the provider, with the
connection it is handed: attempts are numbered in the order in which they ask.
-/
namespace Cryptox.MarketData

open Cryptox.Backtesting (Timeframe)
open Cryptox.Library

structure MarketSubscription where
  pair : String
  timeframe : Timeframe
deriving DecidableEq, Repr

def subscriptionKey (subscription : MarketSubscription) : String :=
  subscription.pair ++ "|" ++ timeframeText subscription.timeframe

inductive ConnectionStatus where
  | connected | reconnecting | disconnected
deriving DecidableEq, Repr

inductive FailureCode where
  | unavailable | rateLimited | malformedResponse | authenticationFailed
deriving DecidableEq, Repr

structure ProviderAdapterFailure where
  code : FailureCode
  retryable : Bool
  safeMessage : String
deriving DecidableEq, Repr

structure StatusReport where
  status : ConnectionStatus
  failure : Option ProviderAdapterFailure
deriving DecidableEq, Repr

structure ManagerOptions where
  /-- `localeCompare` on keys: the first does not come after the second. -/
  localeLe : String → String → Bool
  reconnectBaseMs : Int := 500
  reconnectMaxMs : Int := 30000
  reconnectMaxAttempts : Nat := 8
  reconnectJitterMs : Option (Int → Nat → Int) := none

/-- One of each key, in the order of the keys. -/
def normalize (options : ManagerOptions) (subscriptions : List MarketSubscription) :
    List MarketSubscription :=
  (subscriptions.foldl Table.put (Table.empty : Table subscriptionKey)).rows.mergeSort
    fun left right => options.localeLe (subscriptionKey left) (subscriptionKey right)

/-- The await at which a call of `connect` stands. -/
inductive ConnectPhase where
  | requesting
  | awaitingReady
  | awaitingReadiness
  | closing
  | over
deriving DecidableEq, Repr

/-- The promise of `finishConnection`. -/
inductive Readiness where
  | unset
  | reconciling
  | settled
deriving DecidableEq, Repr

structure ConnectAttempt where
  generation : Nat
  subscriptions : List MarketSubscription
  phase : ConnectPhase
  readiness : Readiness
  handedOut : Bool
  closed : Bool
  reportedDisconnected : Bool
deriving DecidableEq, Repr

namespace ConnectAttempt

def requested (generation : Nat) (subscriptions : List MarketSubscription) : ConnectAttempt where
  generation := generation
  subscriptions := subscriptions
  phase := .requesting
  readiness := .unset
  handedOut := false
  closed := false
  reportedDisconnected := false

/-- Whether its connection was handed out, and is neither closed nor reported disconnected. -/
def live (attempt : ConnectAttempt) : Bool :=
  attempt.handedOut && !attempt.closed && !attempt.reportedDisconnected

end ConnectAttempt

structure ReconnectTimer where
  generation : Nat
  delayMs : Int
deriving DecidableEq, Repr

/-- A call of `setSubscriptions` that waits for the old connection to close. -/
structure ReplaceCall where
  generation : Nat
  next : List MarketSubscription
deriving DecidableEq, Repr

structure SubscriptionManager where
  desired : List MarketSubscription
  connection : Option Nat
  reconnectTimer : Option ReconnectTimer
  generation : Nat
  reconnectAttempt : Nat
  stopped : Bool
  attempts : List ConnectAttempt
  replacing : List ReplaceCall
  /-- Whether `stop` waits for the connection to close. -/
  stopping : Bool
  /-- The last report to `onStatus`. -/
  reported : Option StatusReport
deriving DecidableEq, Repr

namespace SubscriptionManager

def start : SubscriptionManager where
  desired := []
  connection := none
  reconnectTimer := none
  generation := 0
  reconnectAttempt := 0
  stopped := false
  attempts := []
  replacing := []
  stopping := false
  reported := none

/-- The check at the head of every continuation. -/
def isCurrent (manager : SubscriptionManager) (generation : Nat) : Bool :=
  generation == manager.generation && !manager.stopped && !manager.desired.isEmpty

def onStatus (manager : SubscriptionManager) (status : ConnectionStatus)
    (failure : Option ProviderAdapterFailure) : SubscriptionManager :=
  { manager with reported := some ⟨status, failure⟩ }

def update (manager : SubscriptionManager) (number : Nat) (f : ConnectAttempt → ConnectAttempt) :
    SubscriptionManager :=
  { manager with attempts := manager.attempts.modify number f }

/-- `old?.close()`, after the connection has been forgotten. -/
def closeConnection (manager : SubscriptionManager) : SubscriptionManager :=
  match manager.connection with
  | none => manager
  | some number =>
    { manager.update number fun attempt => { attempt with closed := true } with connection := none }

def clearReconnectTimer (manager : SubscriptionManager) : SubscriptionManager :=
  { manager with reconnectTimer := none }

def unavailable (message : Option String) : ProviderAdapterFailure where
  code := .unavailable
  retryable := true
  safeMessage := message.getD "The market-data provider is unavailable."

def exhausted : ProviderAdapterFailure where
  code := .unavailable
  retryable := false
  safeMessage := "The market-data provider did not recover after bounded retries."

def reconnectDelay (options : ManagerOptions) (reconnectAttempt : Nat) : Int :=
  let baseDelay :=
    min options.reconnectMaxMs (options.reconnectBaseMs * 2 ^ min reconnectAttempt 10)
  let jittered := match options.reconnectJitterMs with
    | none => baseDelay
    | some jitter => jitter baseDelay (reconnectAttempt + 1)
  max 0 (min options.reconnectMaxMs jittered)

def scheduleReconnect (options : ManagerOptions) (manager : SubscriptionManager)
    (generation : Nat) : SubscriptionManager :=
  if manager.reconnectTimer.isSome || !manager.isCurrent generation then manager
  else if manager.reconnectAttempt ≥ options.reconnectMaxAttempts then
    manager.onStatus .disconnected (some exhausted)
  else
    { manager with
      reconnectAttempt := manager.reconnectAttempt + 1
      reconnectTimer := some ⟨generation, reconnectDelay options manager.reconnectAttempt⟩ }

/-- `connect` up to its call of `connectRealtime`. -/
def connect (manager : SubscriptionManager) (generation : Nat) : SubscriptionManager :=
  if !manager.isCurrent generation then manager
  else
    { manager.onStatus .reconnecting none with
      attempts := manager.attempts ++ [.requested generation manager.desired] }

/-- `setSubscriptions` up to the close of the old connection. -/
def setSubscriptions (options : ManagerOptions) (manager : SubscriptionManager)
    (subscriptions : List MarketSubscription) : SubscriptionManager :=
  if manager.stopped then manager
  else
    let next := normalize options subscriptions
    if next = manager.desired
        ∧ (next.isEmpty || manager.connection.isSome || manager.reconnectTimer.isSome) then manager
    else
      let generation := manager.generation + 1
      let closed := (clearReconnectTimer { manager with desired := next, generation }).closeConnection
      { closed with replacing := manager.replacing ++ [⟨generation, next⟩] }

/-- `setSubscriptions` from there on. -/
def replaced (manager : SubscriptionManager) (call : ReplaceCall) : SubscriptionManager :=
  let manager := { manager with replacing := manager.replacing.erase call }
  if call.generation ≠ manager.generation ∨ manager.stopped then manager
  else
    let manager := { manager with reconnectAttempt := 0 }
    if call.next.isEmpty then manager.onStatus .disconnected none
    else manager.connect call.generation

def stop (manager : SubscriptionManager) : SubscriptionManager :=
  if manager.stopped then manager
  else
    let generation := manager.generation + 1
    let closed := (clearReconnectTimer { manager with stopped := true, generation }).closeConnection
    { closed with stopping := true }

/-- `stop` after the close of the connection. -/
def stoppedUpstream (manager : SubscriptionManager) : SubscriptionManager :=
  { manager with stopping := false, desired := [] }.onStatus .disconnected none

/-- `markConnected`, with `finishConnection` up to `onConnected`. -/
def markConnected (manager : SubscriptionManager) (number : Nat) (attempt : ConnectAttempt) :
    SubscriptionManager :=
  if attempt.readiness ≠ .unset ∨ attempt.generation ≠ manager.generation ∨ manager.stopped then
    manager
  else if manager.isCurrent attempt.generation then
    manager.update number fun attempt => { attempt with readiness := .reconciling }
  else manager.update number fun attempt => { attempt with readiness := .settled }

/-- `connect` from the readiness of the connection on. -/
def awaitReadiness (manager : SubscriptionManager) (number : Nat) (attempt : ConnectAttempt) :
    SubscriptionManager :=
  (manager.markConnected number attempt).update number
    fun attempt => { attempt with phase := .awaitingReadiness }

/-- `connect` when `connectRealtime` has resolved. -/
def handOut (manager : SubscriptionManager) (number : Nat) (attempt : ConnectAttempt)
    (hasReady : Bool) : SubscriptionManager :=
  if !manager.isCurrent attempt.generation then
    manager.update number fun attempt =>
      { attempt with handedOut := true, closed := true, phase := .closing }
  else
    let manager := { manager.update number fun attempt =>
      { attempt with handedOut := true, phase := .awaitingReady } with connection := some number }
    if attempt.readiness = .unset ∧ hasReady then manager
    else manager.awaitReadiness number attempt

/-- The handler of `connect`, for a rejection of `connectRealtime` or of `ready`. -/
def connectFailed (options : ManagerOptions) (manager : SubscriptionManager) (number : Nat)
    (attempt : ConnectAttempt) (message : Option String) : SubscriptionManager :=
  let manager := { manager.update number fun attempt => { attempt with phase := .over } with
    connection := none }
  if !manager.isCurrent attempt.generation then manager
  else
    scheduleReconnect options (manager.onStatus .disconnected (some (unavailable message)))
      attempt.generation

/-- `finishConnection` when `onConnected` has resolved. -/
def reconciled (manager : SubscriptionManager) (number : Nat) (attempt : ConnectAttempt) :
    SubscriptionManager :=
  let manager := manager.update number fun attempt => { attempt with readiness := .settled }
  if !manager.isCurrent attempt.generation then manager
  else { manager with reconnectAttempt := 0 }.onStatus .connected none

/-- `finishConnection` when `onConnected` has failed. -/
def reconcileFailed (options : ManagerOptions) (manager : SubscriptionManager) (number : Nat)
    (attempt : ConnectAttempt) (message : Option String) : SubscriptionManager :=
  let manager := manager.update number fun attempt => { attempt with readiness := .settled }
  if !manager.isCurrent attempt.generation then manager
  else
    scheduleReconnect options (manager.onStatus .reconnecting (some (unavailable message)))
      attempt.generation

def handleDisconnect (options : ManagerOptions) (manager : SubscriptionManager)
    (generation : Nat) (failure : Option ProviderAdapterFailure) : SubscriptionManager :=
  if !manager.isCurrent generation then manager
  else
    let reconnectGeneration := manager.generation + 1
    let manager := { manager with generation := reconnectGeneration, connection := none }
    scheduleReconnect options (manager.onStatus .reconnecting failure) reconnectGeneration

end SubscriptionManager

/-- What can happen next; an attempt is named by its number. -/
inductive ManagerEvent where
  | setSubscriptions (subscriptions : List MarketSubscription)
  | replaced (call : ReplaceCall)
  | stop
  | stopped
  | handedOut (number : Nat) (hasReady : Bool)
  | lateClosed (number : Nat)
  | ready (number : Nat)
  | rejected (number : Nat) (message : Option String)
  | readinessSettled (number : Nat)
  | onConnect (number : Nat)
  | onDisconnect (number : Nat) (failure : Option ProviderAdapterFailure)
  | reconciled (number : Nat)
  | reconcileFailed (number : Nat) (message : Option String)
  | timer
deriving DecidableEq, Repr

namespace SubscriptionManager

/-- Whether an attempt of that number is there and satisfies `p`. -/
def has (manager : SubscriptionManager) (number : Nat) (p : ConnectAttempt → Bool) : Bool :=
  manager.attempts[number]?.any p

/-- The provider may call `onConnect` and `onDisconnect` at any time, and more than once. -/
def enabled (manager : SubscriptionManager) : ManagerEvent → Bool
  | .setSubscriptions _ => true
  | .replaced call => manager.replacing.contains call
  | .stop => true
  | .stopped => manager.stopping
  | .handedOut number _ => manager.has number (·.phase == .requesting)
  | .lateClosed number => manager.has number (·.phase == .closing)
  | .ready number => manager.has number (·.phase == .awaitingReady)
  | .rejected number _ =>
    manager.has number fun attempt =>
      attempt.phase == .requesting || attempt.phase == .awaitingReady
  | .readinessSettled number =>
    manager.has number fun attempt =>
      attempt.phase == .awaitingReadiness && attempt.readiness != .reconciling
  | .onConnect number => manager.has number fun _ => true
  | .onDisconnect number _ => manager.has number fun _ => true
  | .reconciled number => manager.has number (·.readiness == .reconciling)
  | .reconcileFailed number _ => manager.has number (·.readiness == .reconciling)
  | .timer => manager.reconnectTimer.isSome

def onAttempt (manager : SubscriptionManager) (number : Nat)
    (f : ConnectAttempt → SubscriptionManager) : SubscriptionManager :=
  match manager.attempts[number]? with
  | none => manager
  | some attempt => f attempt

def next (options : ManagerOptions) (manager : SubscriptionManager) :
    ManagerEvent → SubscriptionManager
  | .setSubscriptions subscriptions => setSubscriptions options manager subscriptions
  | .replaced call => manager.replaced call
  | .stop => manager.stop
  | .stopped => manager.stoppedUpstream
  | .handedOut number hasReady =>
    manager.onAttempt number fun attempt => manager.handOut number attempt hasReady
  | .lateClosed number => manager.update number fun attempt => { attempt with phase := .over }
  | .ready number => manager.onAttempt number fun attempt => manager.awaitReadiness number attempt
  | .rejected number message =>
    manager.onAttempt number fun attempt => connectFailed options manager number attempt message
  | .readinessSettled number => manager.update number fun attempt => { attempt with phase := .over }
  | .onConnect number => manager.onAttempt number fun attempt => manager.markConnected number attempt
  | .onDisconnect number failure =>
    manager.onAttempt number fun attempt =>
      handleDisconnect options
        (manager.update number fun attempt => { attempt with reportedDisconnected := true })
        attempt.generation failure
  | .reconciled number => manager.onAttempt number fun attempt => manager.reconciled number attempt
  | .reconcileFailed number message =>
    manager.onAttempt number fun attempt => reconcileFailed options manager number attempt message
  | .timer =>
    match manager.reconnectTimer with
    | none => manager
    | some timer => (clearReconnectTimer manager).connect timer.generation

def system (options : ManagerOptions) : GuardedSystem SubscriptionManager ManagerEvent where
  enabled manager event := manager.enabled event = true
  next := next options

instance (options : ManagerOptions) (manager : SubscriptionManager) (event : ManagerEvent) :
    Decidable ((system options).enabled manager event) :=
  inferInstanceAs (Decidable (manager.enabled event = true))

/-- Whether no call is in progress. -/
def isQuiet (manager : SubscriptionManager) : Bool :=
  manager.replacing.isEmpty && !manager.stopping
    && manager.attempts.all fun attempt =>
      attempt.phase == .over && attempt.readiness != .reconciling

/-- Whether a connection is held, or one is being asked for in the current generation. -/
def isBusy (manager : SubscriptionManager) : Bool :=
  manager.connection.isSome || manager.attempts.any fun attempt =>
    attempt.phase == .requesting && attempt.generation == manager.generation

end SubscriptionManager

end Cryptox.MarketData
