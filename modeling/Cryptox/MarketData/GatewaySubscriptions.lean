import Cryptox.Library.Positions
import Cryptox.MarketData.Gateway

/-!
# What the gateway has acknowledged

A client is subscribed to what its acknowledged commands leave, as long as a command that subscribes
anew has the record of the client for itself. Two calls may overlap when both leave nothing; any
other overlap, and any failure of `subscribeMarketData` while something is acknowledged, can part the
record from the subscribers.
-/
namespace Cryptox.MarketData

open Cryptox.Library

/-! ## The set after a command -/

namespace MarketCommand

theorem subscribe_extends (subscriptions : List MarketSubscription)
    (state : List MarketSubscription × List AcceptedSubscription) :
    ∃ added, (subscriptions.foldl (acceptOne .subscribe) state).1 = state.1 ++ added := by
  induction subscriptions generalizing state with
  | nil => exact ⟨[], (List.append_nil _).symm⟩
  | cons subscription rest ih =>
    obtain ⟨added, hadded⟩ := ih (acceptOne .subscribe state subscription)
    obtain ⟨next, accepted⟩ := state
    have hstep : ∃ first, (acceptOne .subscribe (next, accepted) subscription).1 = next ++ first := by
      unfold acceptOne
      dsimp only
      cases next.findIdx? (hasKey subscription) with
      | none => exact ⟨[subscription], rfl⟩
      | some index => exact ⟨[], (List.append_nil _).symm⟩
    obtain ⟨first, hfirst⟩ := hstep
    exact ⟨first ++ added, by rw [List.foldl_cons, hadded, hfirst, List.append_assoc]⟩

theorem unsubscribe_nil (subscriptions : List MarketSubscription)
    (accepted : List AcceptedSubscription) :
    (subscriptions.foldl (acceptOne .unsubscribe) ([], accepted)).1 = [] := by
  induction subscriptions generalizing accepted with
  | nil => rfl
  | cons subscription rest ih => exact ih _

theorem apply_nil {command : MarketCommand} (h : command.action = .unsubscribe) :
    apply [] command = [] := by
  rw [apply, accept, h]
  exact unsubscribe_nil _ _

/-- A command that does not subscribe anew leaves the set as it is. -/
theorem apply_unchanged {command : MarketCommand} {current : List MarketSubscription}
    (h : command.changes current = false) : apply current command = current := by
  rw [changes, Bool.or_eq_false_iff, bne_eq_false_iff_eq, Bool.and_eq_false_iff] at h
  obtain ⟨hlength, hvalid⟩ := h
  cases haction : command.action with
  | subscribe =>
    obtain ⟨added, hadded⟩ := subscribe_extends command.valid (current, [])
    have happly : apply current command = current ++ added := by rw [apply, accept, haction, hadded]
    rw [happly, List.length_append] at hlength
    have hnil : added = [] := List.length_eq_zero_iff.mp (by omega)
    rw [happly, hnil, List.append_nil]
  | unsubscribe =>
    rw [haction] at hvalid
    have hnone : command.valid = [] := by simpa using hvalid
    rw [apply, accept, hnone]
    rfl

/-- Only an UNSUBSCRIBE leaves nothing by subscribing anew. -/
theorem unsubscribe_of_empties {command : MarketCommand} {current : List MarketSubscription}
    (h : command.changes current = true) (hnil : apply current command = []) :
    command.action = .unsubscribe := by
  cases haction : command.action with
  | unsubscribe => rfl
  | subscribe =>
    obtain ⟨added, hadded⟩ := subscribe_extends command.valid (current, [])
    have happly : apply current command = current ++ added := by rw [apply, accept, haction, hadded]
    have hcurrent : current = [] := (List.append_eq_nil_iff.mp (happly.symm.trans hnil)).1
    rw [changes, hnil, hcurrent, haction] at h
    cases h

end MarketCommand

namespace MarketClient

/-- The set that the acknowledged commands leave. -/
def applied (client : MarketClient) : List MarketSubscription :=
  client.acknowledged.foldl MarketCommand.apply []

/-- A command that subscribes anew begins while no call is in progress, or all of them leave nothing
and it does too; the client disconnects while no call, or only such calls, are in progress;
`subscribeMarketData` fails before it registers, and while nothing is subscribed; and no handle
fails. -/
def meets (client : MarketClient) : GatewayEvent → Bool
  | .message command =>
    client.userId.isNone || !command.changes client.subscriptions
      || (client.onlyEmpties && ((MarketCommand.apply client.subscriptions command).isEmpty
        || client.calls.all fun call => call.phase == .over))
  | .leaveFailed _ => false
  | .refused _ _ => client.subscriptions.isEmpty
  | .reconcileFailed _ _ => false
  | .disconnect => client.onlyEmpties
  | _ => true

/-! ## The invariant -/

/-- The call of that number. -/
abbrev CallAt (client : MarketClient) (number : Nat) (call : GatewayCall) : Prop :=
  client.calls[number]? = some call

/-- The one subscriber of a set, with its handle; none of the empty set. -/
def Subscribed (client : MarketClient) (subscriptions : List MarketSubscription) : Prop :=
  (subscriptions = [] → client.subscribers = [] ∧ client.unsubscribe = none)
    ∧ (subscriptions ≠ [] → ∃ id, client.unsubscribe = some id
      ∧ client.subscribers = [⟨id, (subscriptions.map subscriptionKey).toFinset⟩])

/-- How far a call that subscribes anew has come. -/
def Replacing (client : MarketClient) (call : GatewayCall) : Prop :=
  match call.phase with
  | .leaving _ => client.subscribers = []
  | .joining => client.subscribers = [] ∧ client.unsubscribe = none
  | .reconciling id => client.unsubscribe = none
    ∧ client.subscribers = [⟨id, (call.next.map subscriptionKey).toFinset⟩]
  | .over => True

structure Faithful (client : MarketClient) : Prop where
  applied : client.link ≠ .disconnected → client.subscriptions = client.applied
  idle : client.link = .connected → (∀ number call, client.CallAt number call → call.phase = .over) →
    Subscribed client client.subscriptions
  empties : ∀ number call, client.CallAt number call → call.phase ≠ .over → call.next = [] →
    (∃ active, call.phase = .leaving active) ∧ call.command.action = .unsubscribe
      ∧ MarketCommand.apply client.subscriptions call.command = [] ∧ client.subscribers = []
  replaces : ∀ number call, client.CallAt number call → call.phase ≠ .over → call.next ≠ [] →
    client.link = .connected
      ∧ (∀ other otherCall, client.CallAt other otherCall → otherCall.phase ≠ .over → other = number)
      ∧ MarketCommand.apply client.subscriptions call.command = call.next
      ∧ Replacing client call
  parting : client.link ≠ .connected → client.subscribers = []

theorem faithful_start (userId : Option String) : Faithful (start userId) := by
  have hnone : ∀ number call, ¬ (start userId).CallAt number call := by
    intro number call h
    cases h
  constructor
  · intro _
    rfl
  · intro _ _
    exact ⟨fun _ => ⟨rfl, rfl⟩, fun h => absurd rfl h⟩
  · intro number call hcall
    exact absurd hcall (hnone number call)
  · intro number call hcall
    exact absurd hcall (hnone number call)
  · intro h
    exact absurd rfl h

theorem onlyEmpties_iff {client : MarketClient} : client.onlyEmpties = true ↔
    ∀ number call, client.CallAt number call → call.phase ≠ .over → call.next = [] := by
  rw [onlyEmpties, List.all_eq_true]
  constructor
  · intro h number call hcall hopen
    have hempty := h call (List.mem_of_getElem? hcall)
    simpa [hopen] using hempty
  · intro h call hmem
    obtain ⟨number, hcall⟩ := List.mem_iff_getElem?.mp hmem
    by_cases hover : call.phase = .over
    · simp [hover]
    · simp [h number call hcall hover]

/-- The handle of what is subscribed takes the subscriber away. -/
theorem Faithful.callHandle {client : MarketClient} (h : Faithful client)
    (hlink : client.link = .connected) (hempties : client.onlyEmpties = true) :
    client.callHandle.subscribers = [] := by
  by_cases hover : ∀ number call, client.CallAt number call → call.phase = .over
  · obtain ⟨hnil, hsome⟩ := h.idle hlink hover
    by_cases hempty : client.subscriptions = []
    · rw [MarketClient.callHandle, (hnil hempty).2]
      exact (hnil hempty).1
    · obtain ⟨id, hid, hsubscribers⟩ := hsome hempty
      rw [MarketClient.callHandle, hid]
      simp [hsubscribers]
  · push Not at hover
    obtain ⟨number, call, hcall, hopen⟩ := hover
    have hnext := onlyEmpties_iff.mp hempties number call hcall hopen
    obtain ⟨-, -, -, hsubscribers⟩ := h.empties number call hcall hopen hnext
    unfold MarketClient.callHandle
    split
    · exact hsubscribers
    · simp [hsubscribers]

/-! ## What the steps preserve -/

/-- A call that was not in the given phases is not moved. -/
theorem setPhase_cases {client : MarketClient} {number other : Nat} {phase : CallPhase}
    {after : GatewayCall} (h : (client.setPhase number phase).CallAt other after) :
    (other ≠ number ∧ client.CallAt other after)
      ∨ (other = number ∧ ∃ before, client.CallAt number before
        ∧ after = { before with phase := phase }) :=
  modify_cases h

theorem applied_acknowledge (client : MarketClient) (command : MarketCommand) :
    (client.acknowledged ++ [command]).foldl MarketCommand.apply []
      = MarketCommand.apply client.applied command := by
  rw [List.foldl_append]
  rfl

theorem callHandle_eq (client : MarketClient) : client.callHandle
    = { client with subscribers := client.callHandle.subscribers } := by
  unfold MarketClient.callHandle
  split <;> rfl

theorem Faithful.beginCommand {client : MarketClient} (h : Faithful client)
    (hlink : client.link = .connected) {command : MarketCommand}
    (hmeets : client.meets (.message command) = true) : Faithful (client.beginCommand command) := by
  have hopen : client.link ≠ .disconnected := by
    rw [hlink]
    nofun
  unfold MarketClient.beginCommand
  split_ifs with huser hchanges
  · exact h
  · have hmeets : client.onlyEmpties = true
        ∧ (MarketCommand.apply client.subscriptions command = []
          ∨ ∀ call ∈ client.calls, call.phase = .over) := by
      simpa [MarketClient.meets, huser, hchanges] using hmeets
    obtain ⟨hempties, halone⟩ := hmeets
    have hhandle := h.callHandle hlink hempties
    have hold := onlyEmpties_iff.mp hempties
    dsimp only
    rw [callHandle_eq]
    constructor
    · exact h.applied
    · intro _ hover
      have hadded := hover client.calls.length _ List.getElem?_concat_length
      cases hadded
    · intro number call hcall hphase hnext
      rcases concat_cases hcall with hcall | ⟨-, rfl⟩
      · obtain ⟨hleaving, haction, happly, -⟩ := h.empties number call hcall hphase hnext
        exact ⟨hleaving, haction, happly, hhandle⟩
      · exact ⟨⟨_, rfl⟩, MarketCommand.unsubscribe_of_empties hchanges hnext, hnext, hhandle⟩
    · intro number call hcall hphase hnext
      rcases concat_cases hcall with hcall | ⟨rfl, rfl⟩
      · exact absurd (hold number call hcall hphase) hnext
      · refine ⟨hlink, fun other otherCall hother hotherPhase => ?_, rfl, hhandle⟩
        rcases concat_cases hother with hother | ⟨rfl, -⟩
        · rcases halone with hnil | hover
          · exact absurd hnil hnext
          · exact absurd (hover otherCall (List.mem_of_getElem? hother)) hotherPhase
        · rfl
    · intro hunlinked
      exact absurd hlink hunlinked
  · have hsame := MarketCommand.apply_unchanged (Bool.eq_false_iff.mpr hchanges)
    refine ⟨fun _ => ?_, h.idle, h.empties, h.replaces, h.parting⟩
    refine Eq.trans ?_ (applied_acknowledge client command).symm
    rw [← h.applied hopen]
    exact hsame.symm

/-- A call that subscribes anew comes one await further. -/
theorem Faithful.advance {client after : MarketClient} (h : Faithful client) {number : Nat}
    {call : GatewayCall} (hcall : client.CallAt number call) (hlive : call.phase ≠ .over)
    (hnext : call.next ≠ []) (phase : CallPhase) (hphase : phase ≠ .over)
    (hcalls : after.calls = (client.setPhase number phase).calls) (hlink : after.link = client.link)
    (hsubscriptions : after.subscriptions = client.subscriptions)
    (hacknowledged : after.acknowledged = client.acknowledged)
    (hreplacing : Replacing after { call with phase := phase }) : Faithful after := by
  obtain ⟨hconnected, halone, happly, -⟩ := h.replaces number call hcall hlive hnext
  have hcases : ∀ other otherCall, after.CallAt other otherCall → otherCall.phase ≠ .over →
      other = number ∧ otherCall = { call with phase := phase } := by
    intro other otherCall hother hopen
    rw [CallAt, hcalls] at hother
    rcases setPhase_cases hother with ⟨hne, hbefore⟩ | ⟨rfl, before, hbefore, rfl⟩
    · exact absurd (halone other otherCall hbefore hopen) hne
    · cases hcall.symm.trans hbefore
      exact ⟨rfl, rfl⟩
  have hthere : after.CallAt number { call with phase := phase } := by
    have hmodified : (client.calls.modify number fun call => { call with phase := phase })[number]? =
        some (if number = number then { call with phase := phase } else call) :=
      getElem?_modify_of_some hcall
    rw [if_pos rfl] at hmodified
    rw [CallAt, hcalls]
    exact hmodified
  constructor
  · intro hopen
    rw [hlink] at hopen
    rw [hsubscriptions, h.applied hopen, MarketClient.applied, MarketClient.applied, hacknowledged]
  · intro _ hover
    exact absurd (hover number _ hthere) hphase
  · intro other otherCall hother hopen hempty
    obtain ⟨rfl, rfl⟩ := hcases other otherCall hother hopen
    exact absurd hempty hnext
  · intro other otherCall hother hopen _
    obtain ⟨rfl, rfl⟩ := hcases other otherCall hother hopen
    refine ⟨hlink.trans hconnected, fun another anotherCall hanother hanotherOpen => ?_, ?_,
      hreplacing⟩
    · exact (hcases another anotherCall hanother hanotherOpen).1
    · rw [hsubscriptions]
      exact happly
  · intro hunlinked
    exact absurd (hlink.trans hconnected) hunlinked

/-- A call that subscribes anew ends, and no other is in progress. -/
theorem Faithful.finish {client after : MarketClient} (h : Faithful client) {number : Nat}
    {call : GatewayCall} (hcall : client.CallAt number call) (hlive : call.phase ≠ .over)
    (hnext : call.next ≠ []) (hcalls : after.calls = (client.setPhase number .over).calls)
    (hlink : after.link = client.link) (happlied : after.subscriptions = after.applied)
    (hsubscribed : Subscribed after after.subscriptions) : Faithful after := by
  obtain ⟨hconnected, halone, -⟩ := h.replaces number call hcall hlive hnext
  have hover : ∀ other otherCall, after.CallAt other otherCall → otherCall.phase = .over := by
    intro other otherCall hother
    rw [CallAt, hcalls] at hother
    rcases setPhase_cases hother with ⟨hne, hbefore⟩ | ⟨-, before, -, rfl⟩
    · by_contra hopen
      exact hne (halone other otherCall hbefore hopen)
    · rfl
  constructor
  · intro _
    exact happlied
  · intro _ _
    exact hsubscribed
  · intro other otherCall hother hopen
    exact absurd (hover other otherCall hother) hopen
  · intro other otherCall hother hopen
    exact absurd (hover other otherCall hother) hopen
  · intro hunlinked
    exact absurd (hlink.trans hconnected) hunlinked

theorem Faithful.leave {client : MarketClient} (h : Faithful client) {number : Nat}
    {call : GatewayCall} (hcall : client.CallAt number call) {active : Bool}
    (hphase : call.phase = .leaving active) : Faithful (client.leave number call) := by
  have hlive : call.phase ≠ .over := by
    rw [hphase]
    nofun
  unfold MarketClient.leave
  dsimp only
  split_ifs with hempty
  · have hnext : call.next = [] := List.isEmpty_iff.mp hempty
    obtain ⟨-, haction, happly, hsubscribers⟩ := h.empties number call hcall hlive hnext
    rw [hnext]
    constructor
    · intro hlink
      refine Eq.trans ?_ (applied_acknowledge client call.command).symm
      rw [← h.applied hlink]
      exact happly.symm
    · intro _ _
      exact ⟨fun _ => ⟨hsubscribers, rfl⟩, fun hnonempty => absurd rfl hnonempty⟩
    · intro other after hafter hopen hother
      rcases setPhase_cases hafter with ⟨-, hbefore⟩ | ⟨-, before, -, rfl⟩
      · obtain ⟨hleaving, hunsubscribe, -, -⟩ := h.empties other after hbefore hopen hother
        exact ⟨hleaving, hunsubscribe, MarketCommand.apply_nil hunsubscribe, hsubscribers⟩
      · exact absurd rfl hopen
    · intro other after hafter hopen hother
      rcases setPhase_cases hafter with ⟨hne, hbefore⟩ | ⟨-, before, -, rfl⟩
      · obtain ⟨-, halone, -⟩ := h.replaces other after hbefore hopen hother
        exact absurd (halone number call hcall hlive).symm hne
      · exact absurd rfl hopen
    · exact h.parting
  · have hnext : call.next ≠ [] := fun hnil => hempty (List.isEmpty_iff.mpr hnil)
    obtain ⟨hlink, halone, happly, hreplacing⟩ := h.replaces number call hcall hlive hnext
    rw [Replacing, hphase] at hreplacing
    exact h.advance hcall hlive hnext .joining nofun rfl rfl rfl rfl
      ⟨hreplacing, rfl⟩

/-- A call that waits for `subscribeMarketData` leaves something. -/
theorem Faithful.waiting {client : MarketClient} (h : Faithful client) {number : Nat}
    {call : GatewayCall} (hcall : client.CallAt number call) {phase : CallPhase}
    (hphase : call.phase = phase) (hover : phase ≠ .over) (hjoins : ∀ active, phase ≠ .leaving active) :
    call.phase ≠ .over ∧ call.next ≠ [] := by
  subst hphase
  refine ⟨hover, fun hnil => ?_⟩
  obtain ⟨⟨active, hleaving⟩, -⟩ := h.empties number call hcall hover hnil
  exact hjoins active hleaving

theorem Faithful.register {client : MarketClient} (h : Faithful client) {number : Nat}
    {call : GatewayCall} (hcall : client.CallAt number call) (hphase : call.phase = .joining) :
    Faithful (client.register number call) := by
  obtain ⟨hlive, hnext⟩ := h.waiting hcall hphase nofun nofun
  obtain ⟨-, -, -, hreplacing⟩ := h.replaces number call hcall hlive hnext
  rw [Replacing, hphase] at hreplacing
  refine h.advance hcall hlive hnext (.reconciling (client.sequence + 1)) nofun rfl rfl rfl
    rfl ⟨hreplacing.2, ?_⟩
  rw [MarketClient.register, hreplacing.1]
  rfl

/-- A refusal while nothing is subscribed. -/
theorem Faithful.joinFailed {client : MarketClient} (h : Faithful client) {number : Nat}
    {call : GatewayCall} (hcall : client.CallAt number call) (hphase : call.phase = .joining)
    (hnone : client.subscriptions = []) (failure : SubscribeFailure) :
    Faithful (client.joinFailed number call failure) := by
  obtain ⟨hlive, hnext⟩ := h.waiting hcall hphase nofun nofun
  obtain ⟨hlink, -, -, hreplacing⟩ := h.replaces number call hcall hlive hnext
  rw [Replacing, hphase] at hreplacing
  have happlied := h.applied (by rw [hlink]; nofun)
  refine h.finish hcall hlive hnext rfl rfl (hnone.symm.trans happlied) ?_
  exact ⟨fun _ => hreplacing, fun hsome => absurd rfl hsome⟩

theorem Faithful.join {client : MarketClient} (h : Faithful client) {number : Nat}
    {call : GatewayCall} (hcall : client.CallAt number call) {id : Nat}
    (hphase : call.phase = .reconciling id) : Faithful (client.join number call id) := by
  obtain ⟨hlive, hnext⟩ := h.waiting hcall hphase nofun nofun
  obtain ⟨hlink, -, happly, hreplacing⟩ := h.replaces number call hcall hlive hnext
  rw [Replacing, hphase] at hreplacing
  have happlied := h.applied (by rw [hlink]; nofun)
  refine h.finish hcall hlive hnext rfl rfl ?_ ?_
  · refine Eq.trans ?_ (applied_acknowledge client call.command).symm
    rw [← happlied]
    exact happly.symm
  · exact ⟨fun hnil => absurd hnil hnext, fun _ => ⟨id, rfl, hreplacing.2⟩⟩

theorem Faithful.beginDisconnect {client : MarketClient} (h : Faithful client)
    (hlink : client.link = .connected) (hempties : client.onlyEmpties = true) :
    Faithful client.beginDisconnect := by
  have hhandle := h.callHandle hlink hempties
  have hold := onlyEmpties_iff.mp hempties
  unfold MarketClient.beginDisconnect
  rw [callHandle_eq]
  constructor
  · intro _
    exact h.applied (by rw [hlink]; nofun)
  · intro hlinked
    cases hlinked
  · intro number call hcall hphase hnext
    obtain ⟨hleaving, haction, happly, -⟩ := h.empties number call hcall hphase hnext
    exact ⟨hleaving, haction, happly, hhandle⟩
  · intro number call hcall hphase hnext
    exact absurd (hold number call hcall hphase) hnext
  · intro _
    exact hhandle

/-- The client is gone, with or without an error of its handle. -/
theorem Faithful.disconnected {client after : MarketClient} (h : Faithful client)
    (hparting : client.link ≠ .connected) (hlink : after.link = .disconnected)
    (hcalls : after.calls = client.calls) (hsubscribers : after.subscribers = client.subscribers)
    (hsubscriptions : after.subscriptions = client.subscriptions ∨ after.subscriptions = []) :
    Faithful after := by
  have hnone := hsubscribers.trans (h.parting hparting)
  constructor
  · intro hopen
    exact absurd hlink hopen
  · intro hlinked
    rw [hlink] at hlinked
    cases hlinked
  · intro number call hcall hphase hnext
    rw [CallAt, hcalls] at hcall
    obtain ⟨hleaving, haction, happly, -⟩ := h.empties number call hcall hphase hnext
    refine ⟨hleaving, haction, ?_, hnone⟩
    rcases hsubscriptions with hsame | hnil
    · rw [hsame]
      exact happly
    · rw [hnil]
      exact MarketCommand.apply_nil haction
  · intro number call hcall hphase hnext
    rw [CallAt, hcalls] at hcall
    exact absurd (h.replaces number call hcall hphase hnext).1 hparting
  · intro _
    exact hnone

theorem has_call_iff {client : MarketClient} {number : Nat} {p : CallPhase → Bool} :
    client.has number p = true ↔ ∃ call, client.CallAt number call ∧ p call.phase = true := by
  rw [has, Option.any_eq_true]

theorem onCall_eq {client : MarketClient} {number : Nat} {call : GatewayCall}
    (hcall : client.CallAt number call) (f : GatewayCall → MarketClient) :
    client.onCall number f = f call := by
  rw [onCall, hcall]

theorem Faithful.next {client : MarketClient} (h : Faithful client) {event : GatewayEvent}
    (henabled : client.enabled event = true) (hmeets : client.meets event = true) :
    Faithful (client.next event) := by
  cases event with
  | message command => exact h.beginCommand (beq_iff_eq.mp henabled) hmeets
  | malformed =>
    rw [MarketClient.next, MarketClient.malformed]
    split_ifs
    · exact h
    · exact ⟨h.applied, h.idle, h.empties, h.replaces, h.parting⟩
  | left number =>
    rw [MarketClient.enabled, has_call_iff] at henabled
    obtain ⟨call, hcall, hphase⟩ := henabled
    rw [MarketClient.next, onCall_eq hcall]
    rcases Bool.or_eq_true_iff.mp hphase with hactive | hinactive
    · exact h.leave hcall (beq_iff_eq.mp hactive)
    · exact h.leave hcall (beq_iff_eq.mp hinactive)
  | leaveFailed number => cases hmeets
  | registered number =>
    rw [MarketClient.enabled, has_call_iff] at henabled
    obtain ⟨call, hcall, hphase⟩ := henabled
    rw [MarketClient.next, onCall_eq hcall]
    exact h.register hcall (beq_iff_eq.mp hphase)
  | refused number failure =>
    rw [MarketClient.enabled, has_call_iff] at henabled
    obtain ⟨call, hcall, hphase⟩ := henabled
    rw [MarketClient.next, onCall_eq hcall]
    exact h.joinFailed hcall (beq_iff_eq.mp hphase) (List.isEmpty_iff.mp hmeets) failure
  | reconciled number =>
    rw [MarketClient.enabled, has_call_iff] at henabled
    obtain ⟨call, hcall, hphase⟩ := henabled
    rw [MarketClient.next, onCall_eq hcall]
    cases hat : call.phase with
    | reconciling id => exact h.join hcall hat
    | _ =>
      rw [hat] at hphase
      cases hphase
  | reconcileFailed number failure => cases hmeets
  | disconnect => exact h.beginDisconnect (beq_iff_eq.mp henabled) hmeets
  | disconnected =>
    have hparting : client.link ≠ .connected := by
      intro hlink
      rw [MarketClient.enabled, hlink] at henabled
      cases henabled
    exact h.disconnected hparting rfl rfl rfl (.inr rfl)
  | disconnectFailed =>
    have hparting : client.link ≠ .connected := by
      intro hlink
      rw [MarketClient.enabled, hlink] at henabled
      cases henabled
    exact h.disconnected hparting rfl rfl rfl (.inl rfl)

/-! ## Runs -/

/-- The record of a connected client is what its acknowledged commands leave, and it has exactly one
subscriber with that set, or none if it is empty; after the disconnect there is none. -/
structure MatchesAcknowledged (client : MarketClient) : Prop where
  record : client.link = .connected → client.subscriptions = client.applied
  one : client.link = .connected → client.applied ≠ [] → ∃ id,
    client.subscribers = [⟨id, (client.applied.map subscriptionKey).toFinset⟩]
  none_empty : client.link = .connected → client.applied = [] → client.subscribers = []
  none_after : client.link = .disconnected → client.subscribers = []

theorem run_faithful {userId : Option String} {events : List GatewayEvent}
    (h : system.Legal (fun client event => client.meets event = true) (start userId) events) :
    Faithful (system.run (start userId) events) :=
  h.invariant Faithful (fun _ _ hfaithful henabled hmeets => hfaithful.next henabled hmeets)
    (faithful_start userId)

/-- In every run whose steps meet the condition, whenever nothing is in progress. -/
theorem gateway_matches_acknowledged {userId : Option String} {events : List GatewayEvent}
    (h : system.Legal (fun client event => client.meets event = true) (start userId) events)
    (hquiet : (system.run (start userId) events).isQuiet = true) :
    MatchesAcknowledged (system.run (start userId) events) := by
  have hfaithful := run_faithful h
  revert hfaithful hquiet
  generalize system.run (start userId) events = client
  intro hquiet hfaithful
  have hover : ∀ number call, client.CallAt number call → call.phase = .over := by
    rw [isQuiet, Bool.and_eq_true, List.all_eq_true] at hquiet
    intro number call hcall
    exact beq_iff_eq.mp (hquiet.2 call (List.mem_of_getElem? hcall))
  have hrecord : client.link = .connected → client.subscriptions = client.applied := by
    intro hlink
    exact hfaithful.applied (by rw [hlink]; nofun)
  constructor
  · exact hrecord
  · intro hlink hsome
    obtain ⟨id, -, hone⟩ := (hfaithful.idle hlink hover).2 (by rw [hrecord hlink]; exact hsome)
    rw [hrecord hlink] at hone
    exact ⟨id, hone⟩
  · intro hlink hnil
    exact ((hfaithful.idle hlink hover).1 (by rw [hrecord hlink]; exact hnil)).1
  · intro hlink
    exact hfaithful.parting (by rw [hlink]; nofun)

def minuteItem : RequestedSubscription := ⟨some "BTCUSDT", some "1m"⟩

def hourItem : RequestedSubscription := ⟨some "BTCUSDT", some "1h"⟩

def subscribeTo (item : RequestedSubscription) : GatewayEvent :=
  .message ⟨"request-1", .subscribe, [item]⟩

theorem gateway_matches_acknowledged_sequential :
    MatchesAcknowledged (system.run (start (some "user-1")) [subscribeTo minuteItem, .left 0,
      .registered 0, .reconciled 0, subscribeTo hourItem, .left 1, .registered 1, .reconciled 1]) :=
  gateway_matches_acknowledged (by decide) (by decide)

/-- Two commands overlap: both register a subscriber, the handle of the first is lost, and the
record keeps only the second item. -/
theorem overlapping_commands_part :
    let overlapping : List GatewayEvent := [subscribeTo minuteItem, subscribeTo hourItem, .left 0,
      .left 1, .registered 0, .registered 1, .reconciled 0, .reconciled 1]
    system.Legal (fun _ _ => True) (start (some "user-1")) overlapping
      ∧ (system.run (start (some "user-1")) overlapping).isQuiet = true
      ∧ ¬ MatchesAcknowledged (system.run (start (some "user-1")) overlapping) := by
  refine ⟨by decide, by decide, fun hmatches => ?_⟩
  have hparted : (system.run (start (some "user-1")) [subscribeTo minuteItem,
      subscribeTo hourItem, .left 0, .left 1, .registered 0, .registered 1, .reconciled 0,
      .reconciled 1]).subscriptions ≠ MarketClient.applied (system.run (start (some "user-1"))
        [subscribeTo minuteItem, subscribeTo hourItem, .left 0, .left 1, .registered 0,
          .registered 1, .reconciled 0, .reconciled 1]) := by
    decide
  exact hparted (hmatches.record (by decide))

end MarketClient

end Cryptox.MarketData
