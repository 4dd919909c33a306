import Cryptox.MarketData.SubscriptionManager
import Mathlib.Data.Finset.Dedup
import Mathlib.Data.Finset.Image

/-!
# One client of the market gateway

The commands of a client and its disconnect go from one await to the next, over what the client's
record keeps and the subscribers that `subscribeMarketData` has registered for it. A call awaits the
handle of the old subscription, then the checks of the new one, then the reconciliation of the
upstream connection; any of them may overlap. Of what is sent only the control responses are kept.
-/
namespace Cryptox.MarketData

open Cryptox.Library

/-- An item of a command; a part that is no text is left out. -/
structure RequestedSubscription where
  pair : Option String
  timeframe : Option String
deriving DecidableEq, Repr

def validSubscription (item : RequestedSubscription) : Option MarketSubscription :=
  match item.pair, item.timeframe with
  | some pair, some timeframe =>
    if isPair pair then
      (timeframes.find? fun known => timeframeText known == timeframe).map fun known => ⟨pair, known⟩
    else none
  | _, _ => none

inductive SubscriptionAction where
  | subscribe | unsubscribe
deriving DecidableEq, Repr

structure MarketCommand where
  requestId : String
  action : SubscriptionAction
  subscriptions : List RequestedSubscription
deriving DecidableEq, Repr

inductive AcceptedState where
  | active | alreadyActive | absent
deriving DecidableEq, Repr

structure AcceptedSubscription where
  subscription : MarketSubscription
  state : AcceptedState
deriving DecidableEq, Repr

inductive ServerMessage where
  | subscriptionAck (requestId : String) (action : SubscriptionAction)
      (accepted : List AcceptedSubscription) (rejected : List RequestedSubscription)
  | error (requestId : Option String) (code message : String) (retryable : Bool)
deriving DecidableEq, Repr

/-- What a failure carries: a code, if it has one, and a message. -/
structure SubscribeFailure where
  code : Option String
  message : Option String
deriving DecidableEq, Repr

/-! ## The set a command asks for -/

namespace MarketCommand

def valid (command : MarketCommand) : List MarketSubscription :=
  command.subscriptions.filterMap validSubscription

def rejected (command : MarketCommand) : List RequestedSubscription :=
  command.subscriptions.filter fun item => (validSubscription item).isNone

def hasKey (subscription item : MarketSubscription) : Bool :=
  subscriptionKey item == subscriptionKey subscription

/-- One item of the loop over the valid ones. -/
def acceptOne (action : SubscriptionAction)
    (state : List MarketSubscription × List AcceptedSubscription)
    (subscription : MarketSubscription) : List MarketSubscription × List AcceptedSubscription :=
  let (next, accepted) := state
  match action, next.findIdx? (hasKey subscription) with
  | .subscribe, some _ => (next, accepted ++ [⟨subscription, .alreadyActive⟩])
  | .subscribe, none => (next ++ [subscription], accepted ++ [⟨subscription, .active⟩])
  | .unsubscribe, none => (next, accepted ++ [⟨subscription, .absent⟩])
  | .unsubscribe, some index => (next.eraseIdx index, accepted ++ [⟨subscription, .absent⟩])

def accept (command : MarketCommand) (current : List MarketSubscription) :
    List MarketSubscription × List AcceptedSubscription :=
  command.valid.foldl (acceptOne command.action) (current, [])

/-- The set after a command. -/
def apply (current : List MarketSubscription) (command : MarketCommand) : List MarketSubscription :=
  (command.accept current).1

/-- Whether a command subscribes anew. -/
def changes (command : MarketCommand) (current : List MarketSubscription) : Bool :=
  (apply current command).length != current.length
    || (command.action == .unsubscribe && !command.valid.isEmpty)

end MarketCommand

/-! ## Calls -/

inductive CallPhase where
  /-- Awaits the handle of the old subscription, which was active or not. -/
  | leaving (active : Bool)
  /-- Awaits the checks of `subscribeMarketData`. -/
  | joining
  /-- Awaits the reconciliation, with the subscriber registered. -/
  | reconciling (id : Nat)
  | over
deriving DecidableEq, Repr

structure GatewayCall where
  command : MarketCommand
  next : List MarketSubscription
  accepted : List AcceptedSubscription
  phase : CallPhase
deriving DecidableEq, Repr

inductive Link where
  | connected
  | disconnecting (active : Bool)
  | disconnected
deriving DecidableEq, Repr

structure Subscriber where
  id : Nat
  subscriptions : Finset String
deriving DecidableEq

/-- `client.data`, the subscribers of the client, the calls that were begun, and what the client has
been told. -/
structure MarketClient where
  userId : Option String
  subscriptions : List MarketSubscription
  unsubscribe : Option Nat
  subscribers : List Subscriber
  sequence : Nat
  calls : List GatewayCall
  link : Link
  acknowledged : List MarketCommand
  sent : List ServerMessage
deriving DecidableEq

namespace MarketClient

def start (userId : Option String) : MarketClient where
  userId := userId
  subscriptions := []
  unsubscribe := none
  subscribers := []
  sequence := 0
  calls := []
  link := .connected
  acknowledged := []
  sent := []

def send (client : MarketClient) (message : ServerMessage) : MarketClient :=
  { client with sent := client.sent ++ [message] }

def acknowledge (client : MarketClient) (command : MarketCommand)
    (accepted : List AcceptedSubscription) : MarketClient :=
  { client with acknowledged := client.acknowledged ++ [command] }.send
    (.subscriptionAck command.requestId command.action accepted command.rejected)

/-- Whether the handle has not been called before. -/
def handleActive (client : MarketClient) : Bool :=
  client.unsubscribe.any fun id => client.subscribers.any fun subscriber => subscriber.id == id

/-- `client.data.unsubscribe?.()` up to its reconciliation. -/
def callHandle (client : MarketClient) : MarketClient :=
  match client.unsubscribe with
  | none => client
  | some id =>
    { client with subscribers := client.subscribers.filter fun subscriber => subscriber.id != id }

def setPhase (client : MarketClient) (number : Nat) (phase : CallPhase) : MarketClient :=
  { client with calls := client.calls.modify number fun call => { call with phase } }

/-- `command`, for a message that passes the check of its shape. -/
def beginCommand (client : MarketClient) (command : MarketCommand) : MarketClient :=
  if client.userId.isNone then client
  else
    let (next, accepted) := command.accept client.subscriptions
    if command.changes client.subscriptions then
      { client.callHandle with
        calls := client.calls ++ [⟨command, next, accepted, .leaving client.handleActive⟩] }
    else client.acknowledge command accepted

def malformed (client : MarketClient) : MarketClient :=
  if client.userId.isNone then client
  else client.send (.error none "INVALID_SUBSCRIPTION" "The market subscription command is invalid."
    false)

/-- `command` when the handle has resolved. -/
def leave (client : MarketClient) (number : Nat) (call : GatewayCall) : MarketClient :=
  let client := { client with unsubscribe := none }
  if call.next.isEmpty then
    { client.setPhase number .over with subscriptions := call.next }.acknowledge call.command
      call.accepted
  else client.setPhase number .joining

/-- `subscribeMarketData` when its checks have passed. -/
def register (client : MarketClient) (number : Nat) (call : GatewayCall) : MarketClient :=
  let id := client.sequence + 1
  { client.setPhase number (.reconciling id) with
    sequence := id
    subscribers := client.subscribers ++ [⟨id, (call.next.map subscriptionKey).toFinset⟩] }

def isCodeText (message : String) : Bool :=
  !message.isEmpty && message.toList.all fun c => c.isUpper || c.isDigit || c == '_'

def failureCode (failure : SubscribeFailure) : String :=
  match failure.code with
  | some code => code
  | none =>
    match failure.message with
    | some message => if isCodeText message then message else "MARKET_DATA_UNAVAILABLE"
    | none => "MARKET_DATA_UNAVAILABLE"

/-- The handler of `command`, for a failure of `subscribeMarketData`. -/
def joinFailed (client : MarketClient) (number : Nat) (call : GatewayCall)
    (failure : SubscribeFailure) : MarketClient :=
  { client.setPhase number .over with subscriptions := [] }.send
    (.error (some call.command.requestId) (failureCode failure) "Market data subscription failed."
      true)

/-- `command` when `subscribeMarketData` has resolved. -/
def join (client : MarketClient) (number : Nat) (call : GatewayCall) (id : Nat) : MarketClient :=
  { client.setPhase number .over with
    unsubscribe := some id
    subscriptions := call.next }.acknowledge call.command call.accepted

def beginDisconnect (client : MarketClient) : MarketClient :=
  { client.callHandle with link := .disconnecting client.handleActive }

def endDisconnect (client : MarketClient) : MarketClient :=
  { client with link := .disconnected, unsubscribe := none, subscriptions := [] }

end MarketClient

inductive GatewayEvent where
  | message (command : MarketCommand)
  | malformed
  | left (number : Nat)
  | leaveFailed (number : Nat)
  | registered (number : Nat)
  | refused (number : Nat) (failure : SubscribeFailure)
  | reconciled (number : Nat)
  | reconcileFailed (number : Nat) (failure : SubscribeFailure)
  | disconnect
  | disconnected
  | disconnectFailed
deriving DecidableEq, Repr

namespace MarketClient

def has (client : MarketClient) (number : Nat) (p : CallPhase → Bool) : Bool :=
  client.calls[number]?.any fun call => p call.phase

def isReconciling : CallPhase → Bool
  | .reconciling _ => true
  | _ => false

/-- An inactive handle resolves at once; any other await may fail. -/
def enabled (client : MarketClient) : GatewayEvent → Bool
  | .message _ => client.link == .connected
  | .malformed => client.link == .connected
  | .left number => client.has number fun phase => phase == .leaving true || phase == .leaving false
  | .leaveFailed number => client.has number (· == .leaving true)
  | .registered number => client.has number (· == .joining)
  | .refused number _ => client.has number (· == .joining)
  | .reconciled number => client.has number isReconciling
  | .reconcileFailed number _ => client.has number isReconciling
  | .disconnect => client.link == .connected
  | .disconnected => client.link == .disconnecting true || client.link == .disconnecting false
  | .disconnectFailed => client.link == .disconnecting true

def onCall (client : MarketClient) (number : Nat) (f : GatewayCall → MarketClient) : MarketClient :=
  match client.calls[number]? with
  | none => client
  | some call => f call

/-- A handle that fails ends its call without a response, and a disconnect without a change. -/
def next (client : MarketClient) : GatewayEvent → MarketClient
  | .message command => client.beginCommand command
  | .malformed => client.malformed
  | .left number => client.onCall number fun call => client.leave number call
  | .leaveFailed number => client.setPhase number .over
  | .registered number => client.onCall number fun call => client.register number call
  | .refused number failure => client.onCall number fun call => client.joinFailed number call failure
  | .reconciled number =>
    client.onCall number fun call =>
      match call.phase with
      | .reconciling id => client.join number call id
      | _ => client
  | .reconcileFailed number failure =>
    client.onCall number fun call => client.joinFailed number call failure
  | .disconnect => client.beginDisconnect
  | .disconnected => client.endDisconnect
  | .disconnectFailed => { client with link := .disconnected }

def system : GuardedSystem MarketClient GatewayEvent where
  enabled client event := client.enabled event = true
  next := next

instance (client : MarketClient) (event : GatewayEvent) : Decidable (system.enabled client event) :=
  inferInstanceAs (Decidable (client.enabled event = true))

/-- Whether nothing is in progress. -/
def isQuiet (client : MarketClient) : Bool :=
  (client.link == .connected || client.link == .disconnected)
    && client.calls.all fun call => call.phase == .over

/-- Whether every call in progress leaves nothing subscribed. -/
def onlyEmpties (client : MarketClient) : Bool :=
  client.calls.all fun call => call.phase == .over || call.next.isEmpty

end MarketClient

end Cryptox.MarketData
