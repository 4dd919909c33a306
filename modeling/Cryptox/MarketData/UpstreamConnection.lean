import Cryptox.Library.Positions
import Cryptox.MarketData.SubscriptionManager

/-!
# At most one upstream connection

What the manager holds is what is open, as long as no connection is forgotten while it is open and
none is asked for on top of another. Four steps can do so, and each of them belongs to an attempt
that shares its generation with another one, or that failed; in every run that leaves them out the
manager keeps one connection at most.
-/
namespace Cryptox.MarketData

open Cryptox.Library

namespace SubscriptionManager

/-- The timer asks for a connection only when none is there or under way; no rejection comes while a
connection is held; only the held connection is reported disconnected while one is held; and
`onConnected` ends well only for a connection that is there or under way. -/
def meets (manager : SubscriptionManager) : ManagerEvent → Bool
  | .timer =>
    manager.reconnectTimer.all fun timer => !manager.isCurrent timer.generation || !manager.isBusy
  | .rejected _ _ => manager.connection.isNone
  | .onDisconnect number _ =>
    manager.has number fun attempt => !manager.isCurrent attempt.generation
      || manager.connection.isNone || manager.connection == some number
  | .reconciled number =>
    manager.has number fun attempt => !manager.isCurrent attempt.generation || manager.isBusy
  | _ => true

/-! ## The invariant -/

/-- The attempt of that number. -/
abbrev At (manager : SubscriptionManager) (number : Nat) (attempt : ConnectAttempt) : Prop :=
  manager.attempts[number]? = some attempt

structure Upstream (manager : SubscriptionManager) : Prop where
  held : ∀ number, manager.connection = some number → ∃ attempt,
    manager.At number attempt ∧ attempt.live = true
      ∧ attempt.generation = manager.generation
  live : ∀ number attempt, manager.At number attempt → attempt.live = true →
    manager.connection = some number
  current : ∀ number attempt, manager.At number attempt →
    attempt.generation = manager.generation →
    manager.stopped = false ∧ manager.desired ≠ [] ∧ attempt.subscriptions = manager.desired
  bounded : ∀ number attempt, manager.At number attempt →
    attempt.generation ≤ manager.generation
  asked : ∀ number attempt, manager.At number attempt →
    attempt.phase = .requesting → attempt.handedOut = false ∧ attempt.closed = false
      ∧ (attempt.generation = manager.generation → attempt.reportedDisconnected = false)
  alone : ∀ number attempt, manager.At number attempt →
    attempt.phase = .requesting → attempt.generation = manager.generation →
    manager.connection = none ∧ ∀ other otherAttempt,
      manager.At other otherAttempt → otherAttempt.phase = .requesting →
      otherAttempt.generation = manager.generation → other = number
  replaces : ∀ call ∈ manager.replacing, call.generation ≤ manager.generation
    ∧ (call.generation = manager.generation → manager.stopped = false
      ∧ manager.desired = call.next ∧ manager.reconnectTimer = none
      ∧ ∀ number attempt, manager.At number attempt →
        attempt.generation < manager.generation)
  distinct : (manager.replacing.map (·.generation)).Nodup
  stops : manager.stopping = true → manager.stopped = true

/-- What the last report promises: after CONNECTED a connection is there or under way, or a call is
still about to report. -/
def Announced (manager : SubscriptionManager) : Prop :=
  ∀ report, manager.reported = some report → report.status = .connected →
    manager.isBusy = true ∨ (∃ call ∈ manager.replacing, call.generation = manager.generation)
      ∨ manager.stopping = true

theorem isBusy_iff {manager : SubscriptionManager} : manager.isBusy = true ↔
    manager.connection.isSome = true ∨ ∃ number attempt,
      manager.At number attempt ∧ attempt.phase = .requesting
        ∧ attempt.generation = manager.generation := by
  rw [isBusy, Bool.or_eq_true, List.any_eq_true]
  refine or_congr_right ⟨?_, ?_⟩
  · rintro ⟨attempt, hmem, hasked⟩
    obtain ⟨number, hnumber⟩ := List.mem_iff_getElem?.mp hmem
    simp only [Bool.and_eq_true, beq_iff_eq] at hasked
    exact ⟨number, attempt, hnumber, hasked⟩
  · rintro ⟨number, attempt, hnumber, hasked⟩
    refine ⟨attempt, List.mem_of_getElem? hnumber, ?_⟩
    simpa only [Bool.and_eq_true, beq_iff_eq] using hasked

theorem isCurrent_iff {manager : SubscriptionManager} {generation : Nat} :
    manager.isCurrent generation = true ↔
      generation = manager.generation ∧ manager.stopped = false ∧ manager.desired ≠ [] := by
  simp [isCurrent, and_assoc]

theorem current_of_not_stale {manager : SubscriptionManager} {generation : Nat}
    (h : ¬ (!manager.isCurrent generation) = true) : manager.isCurrent generation = true := by
  simpa using h

theorem upstream_start : Upstream start := by
  constructor <;> simp [start]

theorem announced_start : Announced start := by
  intro report hreport
  cases hreport

/-- An attempt that is there is current when its generation is. -/
theorem Upstream.isCurrent_eq {manager : SubscriptionManager} (h : Upstream manager) {number : Nat}
    {attempt : ConnectAttempt} (hattempt : manager.At number attempt) :
    manager.isCurrent attempt.generation = true ↔ attempt.generation = manager.generation := by
  rw [isCurrent_iff]
  refine ⟨And.left, fun hsame => ⟨hsame, ?_⟩⟩
  obtain ⟨hopen, hdesired, -⟩ := h.current number attempt hattempt hsame
  exact ⟨hopen, hdesired⟩

/-- A call that replaces the subscriptions has seen no attempt of its generation. -/
theorem Upstream.not_replacing {manager : SubscriptionManager} (h : Upstream manager) {number : Nat}
    {attempt : ConnectAttempt} (hattempt : manager.At number attempt)
    (hsame : attempt.generation = manager.generation) :
    ∀ call ∈ manager.replacing, call.generation ≠ manager.generation := by
  intro call hcall hgeneration
  obtain ⟨-, -, -, hearlier⟩ := (h.replaces call hcall).2 hgeneration
  have hlt := hearlier number attempt hattempt
  omega

/-! ## Updates of one attempt -/

/-- What a step may do to an attempt without a word about the connection. -/
structure Continues (current : Nat) (before after : ConnectAttempt) : Prop where
  generation : after.generation = before.generation
  subscriptions : after.subscriptions = before.subscriptions
  live : after.live = before.live
  asked : after.phase = .requesting → before.phase = .requesting
    ∧ after.handedOut = before.handedOut ∧ after.closed = before.closed
    ∧ (before.generation = current → after.reportedDisconnected = before.reportedDisconnected)

theorem Continues.refl (current : Nat) (attempt : ConnectAttempt) :
    Continues current attempt attempt :=
  ⟨rfl, rfl, rfl, fun h => ⟨h, rfl, rfl, fun _ => rfl⟩⟩

theorem update_cases {manager : SubscriptionManager} {number other : Nat}
    {f : ConnectAttempt → ConnectAttempt} {after : ConnectAttempt}
    (h : (manager.update number f).At other after) :
    (other ≠ number ∧ manager.At other after)
      ∨ (other = number ∧ ∃ before, manager.At number before ∧ after = f before) :=
  modify_cases h

theorem update_get {manager : SubscriptionManager} {number other : Nat}
    {f : ConnectAttempt → ConnectAttempt} {before : ConnectAttempt}
    (h : manager.At other before) :
    (manager.update number f).At other (if other = number then f before else before) :=
  getElem?_modify_of_some h

/-- Every attempt of an updated manager continues one of before. -/
theorem update_continues {manager : SubscriptionManager} {number other : Nat}
    {f : ConnectAttempt → ConnectAttempt} {after : ConnectAttempt}
    (hf : ∀ before, manager.At number before → Continues manager.generation before (f before))
    (h : (manager.update number f).At other after) :
    ∃ before, manager.At other before ∧ Continues manager.generation before after := by
  rcases update_cases h with ⟨-, hsame⟩ | ⟨rfl, before, hbefore, rfl⟩
  · exact ⟨after, hsame, .refl _ after⟩
  · exact ⟨before, hbefore, hf before hbefore⟩

theorem Upstream.update {manager : SubscriptionManager} (h : Upstream manager) {number : Nat}
    {f : ConnectAttempt → ConnectAttempt}
    (hf : ∀ before, manager.At number before → Continues manager.generation before (f before)) :
    Upstream (manager.update number f) where
  held other hother := by
    obtain ⟨before, hbefore, hlive, hgeneration⟩ := h.held other hother
    refine ⟨_, update_get hbefore, ?_⟩
    split
    · rename_i hsame
      have hcontinues := hf before (hsame ▸ hbefore)
      exact ⟨hcontinues.live.trans hlive, hcontinues.generation.trans hgeneration⟩
    · exact ⟨hlive, hgeneration⟩
  live other after hafter hlive := by
    obtain ⟨before, hbefore, hcontinues⟩ := update_continues hf hafter
    exact h.live other before hbefore (hcontinues.live.symm.trans hlive)
  current other after hafter hsame := by
    obtain ⟨before, hbefore, hcontinues⟩ := update_continues hf hafter
    rw [hcontinues.subscriptions]
    exact h.current other before hbefore (hcontinues.generation.symm.trans hsame)
  bounded other after hafter := by
    obtain ⟨before, hbefore, hcontinues⟩ := update_continues hf hafter
    rw [hcontinues.generation]
    exact h.bounded other before hbefore
  asked other after hafter hasked := by
    obtain ⟨before, hbefore, hcontinues⟩ := update_continues hf hafter
    obtain ⟨hphase, hhandedOut, hclosed, hreported⟩ := hcontinues.asked hasked
    obtain ⟨hnotHanded, hnotClosed, hnotReported⟩ := h.asked other before hbefore hphase
    refine ⟨hhandedOut.trans hnotHanded, hclosed.trans hnotClosed, fun hsame => ?_⟩
    have hgeneration := hcontinues.generation.symm.trans hsame
    exact (hreported hgeneration).trans (hnotReported hgeneration)
  alone other after hafter hasked hsame := by
    obtain ⟨before, hbefore, hcontinues⟩ := update_continues hf hafter
    have hgeneration := hcontinues.generation.symm.trans hsame
    obtain ⟨hnone, halone⟩ := h.alone other before hbefore (hcontinues.asked hasked).1 hgeneration
    refine ⟨hnone, fun another later hlater hlaterAsked hlaterSame => ?_⟩
    obtain ⟨earlier, hearlier, hcontinues⟩ := update_continues hf hlater
    exact halone another earlier hearlier (hcontinues.asked hlaterAsked).1
      (hcontinues.generation.symm.trans hlaterSame)
  replaces call hcall := by
    obtain ⟨hle, hcurrent⟩ := h.replaces call hcall
    refine ⟨hle, fun hsame => ?_⟩
    obtain ⟨hopen, hdesired, htimer, hearlier⟩ := hcurrent hsame
    refine ⟨hopen, hdesired, htimer, fun other after hafter => ?_⟩
    obtain ⟨before, hbefore, hcontinues⟩ := update_continues hf hafter
    rw [hcontinues.generation]
    exact hearlier other before hbefore
  distinct := h.distinct
  stops := h.stops

theorem Upstream.onStatus {manager : SubscriptionManager} (h : Upstream manager)
    (status : ConnectionStatus) (failure : Option ProviderAdapterFailure) :
    Upstream (manager.onStatus status failure) :=
  ⟨h.held, h.live, h.current, h.bounded, h.asked, h.alone, h.replaces, h.distinct, h.stops⟩

theorem Upstream.counted {manager : SubscriptionManager} (h : Upstream manager) (count : Nat) :
    Upstream { manager with reconnectAttempt := count } :=
  ⟨h.held, h.live, h.current, h.bounded, h.asked, h.alone, h.replaces, h.distinct, h.stops⟩

/-- A reconnect is scheduled only while no call replaces the subscriptions. -/
theorem Upstream.scheduleReconnect {options : ManagerOptions} {manager : SubscriptionManager}
    (h : Upstream manager) (generation : Nat)
    (hnone : ∀ call ∈ manager.replacing, call.generation ≠ manager.generation) :
    Upstream (scheduleReconnect options manager generation) := by
  unfold SubscriptionManager.scheduleReconnect
  split_ifs
  · exact h
  · exact h.onStatus _ _
  · refine ⟨h.held, h.live, h.current, h.bounded, h.asked, h.alone, ?_, h.distinct, h.stops⟩
    intro call hcall
    exact ⟨(h.replaces call hcall).1, fun hsame => absurd hsame (hnone call hcall)⟩

/-- A new attempt, while no other is there or under way and no call replaces the subscriptions. -/
theorem Upstream.connect {manager : SubscriptionManager} (h : Upstream manager) (generation : Nat)
    (hfree : manager.isCurrent generation = true → manager.isBusy = false)
    (hnone : ∀ call ∈ manager.replacing, call.generation ≠ manager.generation) :
    Upstream (manager.connect generation) := by
  unfold SubscriptionManager.connect
  split_ifs with hstale
  · exact h
  · have hcurrent : manager.isCurrent generation = true := current_of_not_stale hstale
    obtain ⟨hgeneration, hopen, hdesired⟩ := isCurrent_iff.mp hcurrent
    have hidle : ¬ manager.isBusy = true := by
      rw [hfree hcurrent]
      exact Bool.false_ne_true
    have hconnection : manager.connection = none := by
      rw [← Option.not_isSome_iff_eq_none]
      exact fun hsome => hidle (isBusy_iff.mpr (.inl hsome))
    have hasked : ∀ number attempt, manager.At number attempt → attempt.phase = .requesting →
        attempt.generation ≠ manager.generation := fun number attempt hattempt hphase hsame =>
      hidle (isBusy_iff.mpr (.inr ⟨number, attempt, hattempt, hphase, hsame⟩))
    constructor
    · intro number hnumber
      cases hconnection.symm.trans hnumber
    · intro number attempt hattempt hlive
      rcases concat_cases hattempt with hold | ⟨-, rfl⟩
      · exact h.live number attempt hold hlive
      · cases hlive
    · intro number attempt hattempt hsame
      rcases concat_cases hattempt with hold | ⟨-, rfl⟩
      · exact h.current number attempt hold hsame
      · exact ⟨hopen, hdesired, rfl⟩
    · intro number attempt hattempt
      rcases concat_cases hattempt with hold | ⟨-, rfl⟩
      · exact h.bounded number attempt hold
      · exact hgeneration.le
    · intro number attempt hattempt hphase
      rcases concat_cases hattempt with hold | ⟨-, rfl⟩
      · exact h.asked number attempt hold hphase
      · exact ⟨rfl, rfl, fun _ => rfl⟩
    · intro number attempt hattempt hphase hsame
      refine ⟨hconnection, fun other otherAttempt hother hotherPhase hotherSame => ?_⟩
      rcases concat_cases hattempt with hold | ⟨rfl, -⟩
      · exact absurd hsame (hasked number attempt hold hphase)
      · rcases concat_cases hother with hold | ⟨rfl, -⟩
        · exact absurd hotherSame (hasked other otherAttempt hold hotherPhase)
        · rfl
    · intro call hcall
      exact ⟨(h.replaces call hcall).1, fun hsame => absurd hsame (hnone call hcall)⟩
    · exact h.distinct
    · exact h.stops

/-- A new generation, which no attempt has yet, once nothing that was open is left. -/
theorem Upstream.renew {before after : SubscriptionManager} (h : Upstream before)
    (hattempts : ∀ number attempt, after.At number attempt → attempt.live = false ∧
      ∃ earlier, before.At number earlier ∧ attempt.generation = earlier.generation
        ∧ (attempt.phase = .requesting → earlier.phase = .requesting
          ∧ attempt.handedOut = earlier.handedOut ∧ attempt.closed = earlier.closed))
    (hconnection : after.connection = none) (hgeneration : after.generation = before.generation + 1)
    (hreplacing : after.replacing = before.replacing
      ∨ (∃ call, after.replacing = before.replacing ++ [call] ∧ call.generation = after.generation
        ∧ after.stopped = false ∧ after.desired = call.next ∧ after.reconnectTimer = none))
    (hstops : after.stopping = true → after.stopped = true) : Upstream after := by
  have hearlier : ∀ number attempt, after.At number attempt →
      attempt.generation < after.generation := by
    intro number attempt hattempt
    obtain ⟨-, earlier, hearlier, hsame, -⟩ := hattempts number attempt hattempt
    have hle := h.bounded number earlier hearlier
    omega
  constructor
  · intro number hnumber
    rw [hconnection] at hnumber
    cases hnumber
  · intro number attempt hattempt hlive
    rw [(hattempts number attempt hattempt).1] at hlive
    cases hlive
  · intro number attempt hattempt hsame
    exact absurd hsame (hearlier number attempt hattempt).ne
  · intro number attempt hattempt
    exact (hearlier number attempt hattempt).le
  · intro number attempt hattempt hphase
    obtain ⟨-, earlier, hearlierAt, -, hasked⟩ := hattempts number attempt hattempt
    obtain ⟨hearlierPhase, hhandedOut, hclosed⟩ := hasked hphase
    obtain ⟨hnotHanded, hnotClosed, -⟩ := h.asked number earlier hearlierAt hearlierPhase
    exact ⟨hhandedOut.trans hnotHanded, hclosed.trans hnotClosed,
      fun hsame => absurd hsame (hearlier number attempt hattempt).ne⟩
  · intro number attempt hattempt _ hsame
    exact absurd hsame (hearlier number attempt hattempt).ne
  · have hold : ∀ call ∈ before.replacing, call.generation < after.generation := by
      intro call hcall
      have hle := (h.replaces call hcall).1
      omega
    intro call hcall
    rcases hreplacing with hsame | ⟨added, hadded, hnew, hopen, hdesired, htimer⟩
    · rw [hsame] at hcall
      have hlt := hold call hcall
      exact ⟨hlt.le, fun heq => absurd heq hlt.ne⟩
    · rw [hadded] at hcall
      rcases List.mem_append.mp hcall with hcall | hcall
      · have hlt := hold call hcall
        exact ⟨hlt.le, fun heq => absurd heq hlt.ne⟩
      · rw [List.mem_singleton.mp hcall]
        exact ⟨hnew.le, fun _ => ⟨hopen, hdesired, htimer, hearlier⟩⟩
  · rcases hreplacing with hsame | ⟨added, hadded, hnew, -⟩
    · rw [hsame]
      exact h.distinct
    · rw [hadded, List.map_append, List.nodup_append]
      refine ⟨h.distinct, List.nodup_singleton _, ?_⟩
      intro generation hgenerations other hother
      obtain ⟨call, hcall, rfl⟩ := List.mem_map.mp hgenerations
      have hle := (h.replaces call hcall).1
      rw [List.map_singleton, List.mem_singleton, hnew] at hother
      omega
  · exact hstops

theorem closeConnection_eq (manager : SubscriptionManager) : manager.closeConnection
    = { manager with attempts := manager.closeConnection.attempts, connection := none } := by
  unfold closeConnection
  split
  · rename_i hnone
    rw [← hnone]
  · rfl

/-- Closing what is held leaves nothing open. -/
theorem Upstream.closeConnection_cases {manager renewed : SubscriptionManager}
    (h : Upstream manager) (hattempts : renewed.attempts = manager.attempts)
    (hconnections : renewed.connection = manager.connection)
    {number : Nat} {attempt : ConnectAttempt}
    (hattempt : renewed.closeConnection.At number attempt) : attempt.live = false ∧
      ∃ earlier, manager.At number earlier ∧ attempt.generation = earlier.generation
        ∧ (attempt.phase = .requesting → earlier.phase = .requesting
          ∧ attempt.handedOut = earlier.handedOut ∧ attempt.closed = earlier.closed) := by
  have hsame : ∀ other otherAttempt, renewed.At other otherAttempt →
      manager.At other otherAttempt := by
    intro other otherAttempt hother
    rw [At, hattempts] at hother
    exact hother
  unfold closeConnection at hattempt
  rw [hconnections] at hattempt
  split at hattempt
  · rename_i hnone
    have hattempt := hsame number attempt hattempt
    refine ⟨?_, attempt, hattempt, rfl, fun hphase => ⟨hphase, rfl, rfl⟩⟩
    rw [Bool.eq_false_iff]
    intro hlive
    cases hnone.symm.trans (h.live number attempt hattempt hlive)
  · rename_i connection hconnection
    rcases update_cases hattempt with ⟨hother, hold⟩ | ⟨rfl, earlier, hearlier, rfl⟩
    · have hold := hsame number attempt hold
      refine ⟨?_, attempt, hold, rfl, fun hphase => ⟨hphase, rfl, rfl⟩⟩
      rw [Bool.eq_false_iff]
      intro hlive
      have hheld := hconnection.symm.trans (h.live number attempt hold hlive)
      exact hother (Option.some.inj hheld).symm
    · have hearlier := hsame number earlier hearlier
      refine ⟨by simp [ConnectAttempt.live], earlier, hearlier, rfl, fun hphase => ?_⟩
      obtain ⟨held, hheld, hlive, -⟩ := h.held number hconnection
      cases hearlier.symm.trans hheld
      have hnotHanded := (h.asked number earlier hearlier hphase).1
      simp [ConnectAttempt.live, hnotHanded] at hlive

/-! ## What the steps preserve -/

/-- The connection is closed in a new generation: by `setSubscriptions` and by `stop`. -/
theorem Upstream.closed {manager : SubscriptionManager} (h : Upstream manager)
    (renewed : SubscriptionManager) (hattempts : renewed.attempts = manager.attempts)
    (hconnection : renewed.connection = manager.connection)
    (hgeneration : renewed.generation = manager.generation + 1) {after : SubscriptionManager}
    (hafter : after.attempts = renewed.closeConnection.attempts) (hnone : after.connection = none)
    (hsame : after.generation = renewed.generation)
    (hreplacing : after.replacing = manager.replacing
      ∨ (∃ call, after.replacing = manager.replacing ++ [call] ∧ call.generation = after.generation
        ∧ after.stopped = false ∧ after.desired = call.next ∧ after.reconnectTimer = none))
    (hstops : after.stopping = true → after.stopped = true) : Upstream after := by
  refine h.renew (fun number attempt hattempt => ?_) hnone (hsame.trans hgeneration) hreplacing
    hstops
  rw [At, hafter] at hattempt
  exact h.closeConnection_cases hattempts hconnection hattempt

theorem Upstream.setSubscriptions {options : ManagerOptions} {manager : SubscriptionManager}
    (h : Upstream manager) (subscriptions : List MarketSubscription) :
    Upstream (setSubscriptions options manager subscriptions) := by
  unfold SubscriptionManager.setSubscriptions
  dsimp only
  split_ifs with hstopped hsame
  · exact h
  · exact h
  · rw [closeConnection_eq]
    refine h.closed (clearReconnectTimer { manager with
      desired := normalize options subscriptions, generation := manager.generation + 1 })
      rfl rfl rfl rfl rfl rfl (.inr ⟨_, rfl, rfl, ?_, rfl, rfl⟩) h.stops
    exact Bool.eq_false_iff.mpr hstopped

theorem Upstream.stop {manager : SubscriptionManager} (h : Upstream manager) :
    Upstream manager.stop := by
  unfold SubscriptionManager.stop
  split_ifs with hstopped
  · exact h
  · dsimp only
    rw [closeConnection_eq]
    exact h.closed (clearReconnectTimer { manager with
      stopped := true, generation := manager.generation + 1 })
      rfl rfl rfl rfl rfl rfl (.inl rfl) fun _ => rfl

theorem Upstream.stoppedUpstream {manager : SubscriptionManager} (h : Upstream manager)
    (hstopping : manager.stopping = true) : Upstream manager.stoppedUpstream := by
  have hstopped := h.stops hstopping
  have hnone : ∀ number attempt, manager.At number attempt →
      attempt.generation ≠ manager.generation := by
    intro number attempt hattempt hsame
    rw [(h.current number attempt hattempt hsame).1] at hstopped
    cases hstopped
  refine ⟨h.held, h.live, ?_, h.bounded, h.asked, h.alone, ?_, h.distinct, fun _ => hstopped⟩
  · intro number attempt hattempt hsame
    exact absurd hsame (hnone number attempt hattempt)
  · intro call hcall
    obtain ⟨hle, hcurrent⟩ := h.replaces call hcall
    refine ⟨hle, fun hsame => ?_⟩
    have hopen := (hcurrent hsame).1
    rw [hopen] at hstopped
    cases hstopped

theorem Upstream.replaced {manager : SubscriptionManager} (h : Upstream manager) {call : ReplaceCall}
    (hcall : call ∈ manager.replacing) : Upstream (manager.replaced call) := by
  have hsublist := List.erase_sublist (a := call) (l := manager.replacing)
  have herased : Upstream { manager with replacing := manager.replacing.erase call } :=
    ⟨h.held, h.live, h.current, h.bounded, h.asked, h.alone,
      fun other hother => h.replaces other (hsublist.subset hother),
      h.distinct.sublist (hsublist.map _), h.stops⟩
  unfold SubscriptionManager.replaced
  dsimp only
  split_ifs with hstale hempty
  · exact herased
  · exact (herased.counted 0).onStatus _ _
  · push Not at hstale
    obtain ⟨hgeneration, hopen⟩ := hstale
    obtain ⟨-, -, -, hearlier⟩ := (h.replaces call hcall).2 hgeneration
    refine (herased.counted 0).connect call.generation (fun _ => ?_) ?_
    · rw [Bool.eq_false_iff]
      intro hbusy
      rcases isBusy_iff.mp hbusy with hsome | ⟨number, attempt, hattempt, -, hsame⟩
      · obtain ⟨number, hnumber⟩ := Option.isSome_iff_exists.mp hsome
        obtain ⟨attempt, hattempt, -, hsame⟩ := h.held number hnumber
        exact (hearlier number attempt hattempt).ne hsame
      · exact (hearlier number attempt hattempt).ne hsame
    · intro other hother hsame
      have hdistinct := h.distinct
      rw [(List.perm_cons_erase hcall).map _ |>.nodup_iff, List.map_cons, List.nodup_cons]
        at hdistinct
      refine hdistinct.1 (List.mem_map.mpr ⟨other, hother, ?_⟩)
      exact hsame.trans hgeneration.symm

theorem Upstream.markConnected {manager : SubscriptionManager} (h : Upstream manager) (number : Nat)
    (attempt : ConnectAttempt) : Upstream (manager.markConnected number attempt) := by
  unfold SubscriptionManager.markConnected
  split_ifs
  · exact h
  · exact h.update fun _ _ => ⟨rfl, rfl, rfl, fun hphase => ⟨hphase, rfl, rfl, fun _ => rfl⟩⟩
  · exact h.update fun _ _ => ⟨rfl, rfl, rfl, fun hphase => ⟨hphase, rfl, rfl, fun _ => rfl⟩⟩

/-- A later phase. -/
theorem Upstream.advance {manager : SubscriptionManager} (h : Upstream manager) (number : Nat)
    {phase : ConnectPhase} (hphase : phase ≠ .requesting) :
    Upstream (manager.update number fun attempt => { attempt with phase := phase }) :=
  h.update fun _ _ => ⟨rfl, rfl, rfl, fun hasked => absurd hasked hphase⟩

theorem Upstream.awaitReadiness {manager : SubscriptionManager} (h : Upstream manager) (number : Nat)
    (attempt : ConnectAttempt) : Upstream (manager.awaitReadiness number attempt) :=
  (h.markConnected number attempt).advance number (by decide)

/-- The connection that was asked for in the current generation is held. -/
theorem Upstream.hold {manager : SubscriptionManager} (h : Upstream manager) {number : Nat}
    {attempt : ConnectAttempt} (hattempt : manager.At number attempt)
    (hphase : attempt.phase = .requesting) (hsame : attempt.generation = manager.generation) :
    Upstream { manager.update number fun attempt =>
      { attempt with handedOut := true, phase := .awaitingReady } with
      connection := some number } := by
  obtain ⟨hnone, halone⟩ := h.alone number attempt hattempt hphase hsame
  obtain ⟨-, hclosed, hreported⟩ := h.asked number attempt hattempt hphase
  have hlive : ∀ other otherAttempt, manager.At other otherAttempt → otherAttempt.live = false := by
    intro other otherAttempt hother
    rw [Bool.eq_false_iff]
    intro hlive
    cases hnone.symm.trans (h.live other otherAttempt hother hlive)
  constructor
  · rintro other ⟨⟩
    refine ⟨_, update_get hattempt, ?_⟩
    rw [if_pos rfl]
    exact ⟨by simp [ConnectAttempt.live, hclosed, hreported hsame], hsame⟩
  · intro other after hafter hafterLive
    rcases update_cases hafter with ⟨-, hold⟩ | ⟨rfl, -⟩
    · rw [hlive other after hold] at hafterLive
      cases hafterLive
    · rfl
  · intro other after hafter hafterSame
    rcases update_cases hafter with ⟨-, hold⟩ | ⟨rfl, before, hbefore, rfl⟩
    · exact h.current other after hold hafterSame
    · exact h.current other before hbefore hafterSame
  · intro other after hafter
    rcases update_cases hafter with ⟨-, hold⟩ | ⟨rfl, before, hbefore, rfl⟩
    · exact h.bounded other after hold
    · exact h.bounded other before hbefore
  · intro other after hafter hasked
    rcases update_cases hafter with ⟨-, hold⟩ | ⟨rfl, before, hbefore, rfl⟩
    · exact h.asked other after hold hasked
    · cases hasked
  · intro other after hafter hasked hafterSame
    rcases update_cases hafter with ⟨hne, hold⟩ | ⟨rfl, before, hbefore, rfl⟩
    · exact absurd (halone other after hold hasked hafterSame) hne
    · cases hasked
  · intro call hcall
    exact ⟨(h.replaces call hcall).1,
      fun heq => absurd heq (h.not_replacing hattempt hsame call hcall)⟩
  · exact h.distinct
  · exact h.stops

theorem Upstream.handOut {manager : SubscriptionManager} (h : Upstream manager) {number : Nat}
    {attempt : ConnectAttempt} (hattempt : manager.At number attempt)
    (hphase : attempt.phase = .requesting) (hasReady : Bool) :
    Upstream (manager.handOut number attempt hasReady) := by
  unfold SubscriptionManager.handOut
  dsimp only
  split_ifs with hstale hready
  · refine h.update fun before hbefore => ⟨rfl, rfl, ?_, nofun⟩
    cases hattempt.symm.trans hbefore
    have hnotHanded := (h.asked number attempt hattempt hphase).1
    simp [ConnectAttempt.live, hnotHanded]
  · exact h.hold hattempt hphase ((h.isCurrent_eq hattempt).mp (current_of_not_stale hstale))
  · have hsame := (h.isCurrent_eq hattempt).mp (current_of_not_stale hstale)
    exact (h.hold hattempt hphase hsame).awaitReadiness number attempt

/-- A rejection while no connection is held. -/
theorem Upstream.connectFailed {options : ManagerOptions} {manager : SubscriptionManager}
    (h : Upstream manager) {number : Nat} {attempt : ConnectAttempt}
    (hattempt : manager.At number attempt) (hnone : manager.connection = none)
    (message : Option String) :
    Upstream (connectFailed options manager number attempt message) := by
  have hover : Upstream (manager.update number fun attempt => { attempt with phase := .over }) :=
    h.advance number (by decide)
  have hforgot : { manager.update number fun attempt => { attempt with phase := .over } with
      connection := none } = manager.update number fun attempt => { attempt with phase := .over } := by
    rw [← hnone]
    rfl
  unfold SubscriptionManager.connectFailed
  dsimp only
  rw [hforgot]
  split_ifs with hstale
  · exact hover
  · refine (hover.onStatus _ _).scheduleReconnect _ (h.not_replacing hattempt ?_)
    exact (h.isCurrent_eq hattempt).mp (current_of_not_stale hstale)

/-- `finishConnection` settles. -/
theorem Upstream.settle {manager : SubscriptionManager} (h : Upstream manager) (number : Nat) :
    Upstream (manager.update number fun attempt => { attempt with readiness := .settled }) :=
  h.update fun _ _ => ⟨rfl, rfl, rfl, fun hphase => ⟨hphase, rfl, rfl, fun _ => rfl⟩⟩

theorem Upstream.reconciled {manager : SubscriptionManager} (h : Upstream manager) (number : Nat)
    (attempt : ConnectAttempt) : Upstream (manager.reconciled number attempt) := by
  have hsettled := h.settle number
  unfold SubscriptionManager.reconciled
  dsimp only
  split_ifs
  · exact hsettled
  · exact (hsettled.counted 0).onStatus _ _

theorem Upstream.reconcileFailed {options : ManagerOptions} {manager : SubscriptionManager}
    (h : Upstream manager) {number : Nat} {attempt : ConnectAttempt}
    (hattempt : manager.At number attempt) (message : Option String) :
    Upstream (reconcileFailed options manager number attempt message) := by
  unfold SubscriptionManager.reconcileFailed
  dsimp only
  split_ifs with hstale
  · exact h.settle number
  · refine ((h.settle number).onStatus _ _).scheduleReconnect _ (h.not_replacing hattempt ?_)
    exact (h.isCurrent_eq hattempt).mp (current_of_not_stale hstale)

/-- A disconnect is of the connection that is held, or comes while none is. -/
theorem Upstream.handleDisconnect {options : ManagerOptions} {manager : SubscriptionManager}
    (h : Upstream manager) {number : Nat} {attempt : ConnectAttempt}
    (hattempt : manager.At number attempt)
    (hheld : manager.isCurrent attempt.generation = true →
      manager.connection = none ∨ manager.connection = some number)
    (failure : Option ProviderAdapterFailure) :
    Upstream (handleDisconnect options
      (manager.update number fun attempt => { attempt with reportedDisconnected := true })
      attempt.generation failure) := by
  unfold SubscriptionManager.handleDisconnect
  dsimp only
  split_ifs with hstale
  · refine h.update fun before hbefore => ?_
    cases hattempt.symm.trans hbefore
    have hother : attempt.generation ≠ manager.generation := by
      intro hsame
      have hcurrent : (!manager.isCurrent attempt.generation) = true := hstale
      rw [(h.isCurrent_eq hattempt).mpr hsame] at hcurrent
      cases hcurrent
    have hlive : attempt.live = false := by
      rw [Bool.eq_false_iff]
      intro hlive
      obtain ⟨held, hat, -, hsame⟩ := h.held number (h.live number attempt hattempt hlive)
      cases hattempt.symm.trans hat
      exact hother hsame
    refine ⟨rfl, rfl, ?_, fun hphase => ⟨hphase, rfl, rfl, fun hsame => absurd hsame hother⟩⟩
    rw [hlive]
    simp [ConnectAttempt.live]
  · have hcurrent : manager.isCurrent attempt.generation = true := current_of_not_stale hstale
    refine Upstream.scheduleReconnect (Upstream.onStatus ?_ _ _) _ ?_
    · refine h.renew (fun other after hafter => ?_) rfl rfl (.inl rfl) h.stops
      rcases update_cases hafter with ⟨hne, hold⟩ | ⟨rfl, before, hbefore, rfl⟩
      · refine ⟨?_, after, hold, rfl, fun hphase => ⟨hphase, rfl, rfl⟩⟩
        rw [Bool.eq_false_iff]
        intro hlive
        have hconnection := h.live other after hold hlive
        rcases hheld hcurrent with hnone | hsome
        · cases hnone.symm.trans hconnection
        · exact hne (Option.some.inj (hconnection.symm.trans hsome))
      · exact ⟨by simp [ConnectAttempt.live], before, hbefore, rfl, fun hphase => ⟨hphase, rfl, rfl⟩⟩
    · intro call hcall hsame
      have hle := (h.replaces call hcall).1
      have hnew : call.generation = manager.generation + 1 := hsame
      omega

theorem has_iff {manager : SubscriptionManager} {number : Nat} {p : ConnectAttempt → Bool} :
    manager.has number p = true ↔ ∃ attempt, manager.At number attempt ∧ p attempt = true := by
  rw [has, Option.any_eq_true]

theorem onAttempt_eq {manager : SubscriptionManager} {number : Nat} {attempt : ConnectAttempt}
    (hattempt : manager.At number attempt) (f : ConnectAttempt → SubscriptionManager) :
    manager.onAttempt number f = f attempt := by
  rw [onAttempt, hattempt]

/-- Where the timer asks for a connection, no call replaces the subscriptions. -/
theorem Upstream.timer {manager : SubscriptionManager} (h : Upstream manager)
    {timer : ReconnectTimer} (htimer : manager.reconnectTimer = some timer) :
    ∀ call ∈ manager.replacing, call.generation ≠ manager.generation := by
  intro call hcall hsame
  obtain ⟨-, -, hcleared, -⟩ := (h.replaces call hcall).2 hsame
  cases htimer.symm.trans hcleared

theorem Upstream.next {options : ManagerOptions} {manager : SubscriptionManager}
    (h : Upstream manager) {event : ManagerEvent} (henabled : manager.enabled event = true)
    (hmeets : manager.meets event = true) : Upstream (next options manager event) := by
  cases event with
  | setSubscriptions subscriptions => exact h.setSubscriptions subscriptions
  | replaced call => exact h.replaced (List.contains_iff_mem.mp henabled)
  | stop => exact h.stop
  | stopped => exact h.stoppedUpstream henabled
  | handedOut number hasReady =>
    obtain ⟨attempt, hattempt, hphase⟩ := has_iff.mp henabled
    rw [SubscriptionManager.next, onAttempt_eq hattempt]
    exact h.handOut hattempt (beq_iff_eq.mp hphase) hasReady
  | lateClosed number => exact h.advance number (by decide)
  | ready number =>
    obtain ⟨attempt, hattempt, -⟩ := has_iff.mp henabled
    rw [SubscriptionManager.next, onAttempt_eq hattempt]
    exact h.awaitReadiness number attempt
  | rejected number message =>
    obtain ⟨attempt, hattempt, -⟩ := has_iff.mp henabled
    rw [SubscriptionManager.next, onAttempt_eq hattempt]
    exact h.connectFailed hattempt (Option.isNone_iff_eq_none.mp hmeets) message
  | readinessSettled number => exact h.advance number (by decide)
  | onConnect number =>
    obtain ⟨attempt, hattempt, -⟩ := has_iff.mp henabled
    rw [SubscriptionManager.next, onAttempt_eq hattempt]
    exact h.markConnected number attempt
  | onDisconnect number failure =>
    obtain ⟨attempt, hattempt, hheld⟩ := has_iff.mp hmeets
    rw [SubscriptionManager.next, onAttempt_eq hattempt]
    refine h.handleDisconnect hattempt (fun hcurrent => ?_) failure
    simpa [hcurrent] using hheld
  | reconciled number =>
    obtain ⟨attempt, hattempt, -⟩ := has_iff.mp henabled
    rw [SubscriptionManager.next, onAttempt_eq hattempt]
    exact h.reconciled number attempt
  | reconcileFailed number message =>
    obtain ⟨attempt, hattempt, -⟩ := has_iff.mp henabled
    rw [SubscriptionManager.next, onAttempt_eq hattempt]
    exact h.reconcileFailed hattempt message
  | timer =>
    obtain ⟨timer, htimer⟩ := Option.isSome_iff_exists.mp henabled
    have hfree : manager.isCurrent timer.generation = true → manager.isBusy = false := by
      intro hcurrent
      simpa [meets, htimer, hcurrent] using hmeets
    have hcleared : Upstream (clearReconnectTimer manager) :=
      ⟨h.held, h.live, h.current, h.bounded, h.asked, h.alone,
        fun call hcall => ⟨(h.replaces call hcall).1,
          fun hsame => absurd hsame (h.timer htimer call hcall)⟩, h.distinct, h.stops⟩
    simp only [SubscriptionManager.next, htimer]
    exact hcleared.connect timer.generation hfree (h.timer htimer)

/-! ## What was reported -/

/-- The last report is not CONNECTED. -/
def Unconnected (manager : SubscriptionManager) : Prop :=
  ∀ report, manager.reported = some report → report.status ≠ .connected

theorem Unconnected.announced {manager : SubscriptionManager} (h : Unconnected manager) :
    Announced manager :=
  fun report hreport hconnected => absurd hconnected (h report hreport)

theorem unconnected_onStatus {manager : SubscriptionManager} {status : ConnectionStatus}
    (h : status ≠ .connected) (failure : Option ProviderAdapterFailure) :
    Unconnected (manager.onStatus status failure) := by
  rintro report ⟨⟩
  exact h

theorem Unconnected.scheduleReconnect {options : ManagerOptions} {manager : SubscriptionManager}
    (h : Unconnected manager) (generation : Nat) :
    Unconnected (scheduleReconnect options manager generation) := by
  unfold SubscriptionManager.scheduleReconnect
  split_ifs
  · exact h
  · exact unconnected_onStatus (by decide) _
  · exact h

/-- The last report of `scheduleReconnect` and its caller. -/
theorem announced_scheduleReconnect {options : ManagerOptions} {manager : SubscriptionManager}
    {status : ConnectionStatus} (h : status ≠ .connected) (failure : Option ProviderAdapterFailure)
    (generation : Nat) :
    Announced (SubscriptionManager.scheduleReconnect options (manager.onStatus status failure)
      generation) :=
  ((unconnected_onStatus h failure).scheduleReconnect generation).announced

theorem announced_connect {manager : SubscriptionManager} {generation : Nat}
    (h : manager.isCurrent generation = true) : Announced (manager.connect generation) := by
  rw [connect, h]
  have hunconnected : Unconnected (manager.onStatus .reconnecting none) :=
    unconnected_onStatus (by decide) none
  exact Unconnected.announced hunconnected

/-- An update that keeps what is being asked for in the current generation keeps the manager busy. -/
theorem isBusy_update {manager : SubscriptionManager} {number : Nat}
    {f : ConnectAttempt → ConnectAttempt}
    (hf : ∀ attempt, manager.At number attempt → attempt.phase = .requesting →
      attempt.generation = manager.generation →
      (f attempt).phase = .requesting ∧ (f attempt).generation = manager.generation)
    (h : manager.isBusy = true) : (manager.update number f).isBusy = true := by
  rw [isBusy_iff] at h ⊢
  rcases h with hsome | ⟨other, attempt, hattempt, hphase, hsame⟩
  · exact .inl hsome
  · refine .inr ⟨other, _, update_get hattempt, ?_⟩
    split
    · rename_i heq
      exact hf attempt (heq ▸ hattempt) hphase hsame
    · exact ⟨hphase, hsame⟩

theorem Announced.update {manager : SubscriptionManager} (h : Announced manager) {number : Nat}
    {f : ConnectAttempt → ConnectAttempt}
    (hf : ∀ attempt, manager.At number attempt → attempt.phase = .requesting →
      attempt.generation = manager.generation →
      (f attempt).phase = .requesting ∧ (f attempt).generation = manager.generation) :
    Announced (manager.update number f) := by
  intro report hreport hconnected
  rcases h report hreport hconnected with hbusy | hlater
  · exact .inl (isBusy_update hf hbusy)
  · exact .inr hlater

/-- The attempt that moves on asks for nothing in the current generation. -/
theorem Announced.advance {manager : SubscriptionManager} (h : Announced manager) {number : Nat}
    {attempt : ConnectAttempt} (hattempt : manager.At number attempt)
    (hstale : attempt.phase = .requesting → attempt.generation ≠ manager.generation)
    (f : ConnectAttempt → ConnectAttempt) : Announced (manager.update number f) := by
  refine h.update fun before hbefore hphase hsame => ?_
  cases hattempt.symm.trans hbefore
  exact absurd hsame (hstale hphase)

theorem Announced.markConnected {manager : SubscriptionManager} (h : Announced manager)
    (number : Nat) (attempt : ConnectAttempt) : Announced (manager.markConnected number attempt) := by
  unfold SubscriptionManager.markConnected
  split_ifs
  · exact h
  · exact h.update fun _ _ hphase hsame => ⟨hphase, hsame⟩
  · exact h.update fun _ _ hphase hsame => ⟨hphase, hsame⟩

theorem Announced.replaced {manager : SubscriptionManager} (h : Announced manager)
    (hup : Upstream manager) {call : ReplaceCall} (hcall : call ∈ manager.replacing) :
    Announced (manager.replaced call) := by
  unfold SubscriptionManager.replaced
  dsimp only
  split_ifs with hstale hempty
  · intro report hreport hconnected
    rcases h report hreport hconnected with hbusy | ⟨other, hother, hsame⟩ | hstopping
    · exact .inl hbusy
    · refine .inr (.inl ⟨other, ?_, hsame⟩)
      refine (List.mem_erase_of_ne ?_).mpr hother
      rintro rfl
      obtain ⟨hopen, -⟩ := (hup.replaces other hother).2 hsame
      rcases hstale with hne | hstopped
      · exact hne hsame
      · rw [show manager.stopped = true from hstopped] at hopen
        cases hopen
    · exact .inr (.inr hstopping)
  · exact (unconnected_onStatus (by decide) _).announced
  · push Not at hstale
    obtain ⟨hgeneration, hopen⟩ := hstale
    obtain ⟨hstopped, hdesired, -⟩ := (hup.replaces call hcall).2 hgeneration
    refine announced_connect (isCurrent_iff.mpr ⟨hgeneration, hstopped, fun hnil => hempty ?_⟩)
    rw [← hdesired, show manager.desired = [] from hnil]
    rfl

theorem markConnected_connection (manager : SubscriptionManager) (number : Nat)
    (attempt : ConnectAttempt) :
    (manager.markConnected number attempt).connection = manager.connection := by
  unfold SubscriptionManager.markConnected
  split_ifs <;> rfl

theorem markConnected_phase {manager : SubscriptionManager} {number : Nat}
    {attempt before after : ConnectAttempt} (hbefore : manager.At number before)
    (hafter : (manager.markConnected number attempt).At number after) :
    after.phase = before.phase := by
  unfold SubscriptionManager.markConnected at hafter
  split_ifs at hafter
  · cases hbefore.symm.trans hafter
    rfl
  all_goals
    rcases update_cases hafter with ⟨hne, -⟩ | ⟨-, same, hsame, rfl⟩
    · exact absurd rfl hne
    · cases hbefore.symm.trans hsame
      rfl

/-- A manager that holds a connection is busy. -/
theorem announced_held {manager : SubscriptionManager} {number : Nat}
    (h : manager.connection = some number) : Announced manager := by
  intro _ _ _
  refine .inl (isBusy_iff.mpr (.inl ?_))
  rw [h]
  rfl

theorem Announced.handOut {manager : SubscriptionManager} (h : Announced manager)
    (hup : Upstream manager) {number : Nat} {attempt : ConnectAttempt}
    (hattempt : manager.At number attempt) (hasReady : Bool) :
    Announced (manager.handOut number attempt hasReady) := by
  unfold SubscriptionManager.handOut
  dsimp only
  split_ifs with hstale hready
  · refine h.advance hattempt (fun _ hsame => ?_) _
    rw [(hup.isCurrent_eq hattempt).mpr hsame] at hstale
    cases hstale
  · exact announced_held rfl
  · exact announced_held (markConnected_connection _ number attempt)

/-- A stale attempt is not of the current generation. -/
theorem Upstream.stale {manager : SubscriptionManager} (h : Upstream manager) {number : Nat}
    {attempt : ConnectAttempt} (hattempt : manager.At number attempt)
    (hstale : (!manager.isCurrent attempt.generation) = true) :
    attempt.generation ≠ manager.generation := by
  intro hsame
  rw [(h.isCurrent_eq hattempt).mpr hsame] at hstale
  cases hstale

theorem Announced.next {options : ManagerOptions} {manager : SubscriptionManager}
    (h : Announced manager) (hup : Upstream manager) {event : ManagerEvent}
    (henabled : manager.enabled event = true) (hmeets : manager.meets event = true) :
    Announced (next options manager event) := by
  cases event with
  | setSubscriptions subscriptions =>
    rw [SubscriptionManager.next, SubscriptionManager.setSubscriptions]
    dsimp only
    split_ifs
    · exact h
    · exact h
    · rw [closeConnection_eq]
      intro _ _ _
      exact .inr (.inl ⟨_, List.mem_append_right _ (List.mem_singleton.mpr rfl), rfl⟩)
  | replaced call => exact h.replaced hup (List.contains_iff_mem.mp henabled)
  | stop =>
    rw [SubscriptionManager.next, SubscriptionManager.stop]
    split_ifs
    · exact h
    · exact fun _ _ _ => .inr (.inr rfl)
  | stopped => exact (unconnected_onStatus (by decide) _).announced
  | handedOut number hasReady =>
    obtain ⟨attempt, hattempt, -⟩ := has_iff.mp henabled
    rw [SubscriptionManager.next, onAttempt_eq hattempt]
    exact h.handOut hup hattempt hasReady
  | lateClosed number =>
    obtain ⟨attempt, hattempt, hphase⟩ := has_iff.mp henabled
    exact h.advance hattempt (fun hasked => by rw [hasked] at hphase; cases hphase) _
  | ready number =>
    obtain ⟨attempt, hattempt, hphase⟩ := has_iff.mp henabled
    rw [SubscriptionManager.next, onAttempt_eq hattempt]
    refine (h.markConnected number attempt).update fun after hafter hasked _ => ?_
    rw [markConnected_phase hattempt hafter] at hasked
    rw [hasked] at hphase
    cases hphase
  | rejected number message =>
    obtain ⟨attempt, hattempt, -⟩ := has_iff.mp henabled
    have hnone := Option.isNone_iff_eq_none.mp hmeets
    rw [SubscriptionManager.next, onAttempt_eq hattempt, SubscriptionManager.connectFailed]
    dsimp only
    split_ifs with hstale
    · have hadvanced := h.advance hattempt (fun _ => hup.stale hattempt hstale)
        fun attempt => { attempt with phase := .over }
      rw [← hnone]
      exact hadvanced
    · exact announced_scheduleReconnect (by decide) _ _
  | readinessSettled number =>
    obtain ⟨attempt, hattempt, hphase⟩ := has_iff.mp henabled
    exact h.advance hattempt (fun hasked => by rw [hasked] at hphase; cases hphase) _
  | onConnect number =>
    obtain ⟨attempt, hattempt, -⟩ := has_iff.mp henabled
    rw [SubscriptionManager.next, onAttempt_eq hattempt]
    exact h.markConnected number attempt
  | onDisconnect number failure =>
    obtain ⟨attempt, hattempt, -⟩ := has_iff.mp hmeets
    rw [SubscriptionManager.next, onAttempt_eq hattempt, SubscriptionManager.handleDisconnect]
    dsimp only
    split_ifs
    · exact h.update fun _ _ hphase hsame => ⟨hphase, hsame⟩
    · exact announced_scheduleReconnect (by decide) _ _
  | reconciled number =>
    obtain ⟨attempt, hattempt, hbusy⟩ := has_iff.mp hmeets
    rw [SubscriptionManager.next, onAttempt_eq hattempt, SubscriptionManager.reconciled]
    split_ifs with hstale
    · exact h.update fun _ _ hphase hsame => ⟨hphase, hsame⟩
    · have hcurrent : manager.isCurrent attempt.generation = true := current_of_not_stale hstale
      rw [hcurrent] at hbusy
      have hkept : (manager.update number fun attempt =>
          { attempt with readiness := .settled }).isBusy = true :=
        isBusy_update (fun _ _ hphase hsame => ⟨hphase, hsame⟩) hbusy
      exact fun _ _ _ => .inl hkept
  | reconcileFailed number message =>
    obtain ⟨attempt, hattempt, -⟩ := has_iff.mp henabled
    rw [SubscriptionManager.next, onAttempt_eq hattempt, SubscriptionManager.reconcileFailed]
    split_ifs
    · exact h.update fun _ _ hphase hsame => ⟨hphase, hsame⟩
    · exact announced_scheduleReconnect (by decide) _ _
  | timer =>
    obtain ⟨timer, htimer⟩ := Option.isSome_iff_exists.mp henabled
    simp only [SubscriptionManager.next, htimer]
    by_cases hcurrent : manager.isCurrent timer.generation = true
    · exact announced_connect hcurrent
    · have hsame : (clearReconnectTimer manager).connect timer.generation
          = clearReconnectTimer manager := by
        rw [SubscriptionManager.connect, if_pos]
        exact (Bool.not_eq_true' _).mpr (Bool.eq_false_iff.mpr hcurrent)
      rw [hsame]
      exact h

/-! ## Runs -/

/-- One connection at most is open, none when the manager is stopped or nothing is desired, and
after CONNECTED one is, for the subscriptions that are desired. -/
structure OneConnection (manager : SubscriptionManager) : Prop where
  single : ∀ number other attempt otherAttempt, manager.At number attempt →
    manager.At other otherAttempt → attempt.live = true → otherAttempt.live = true →
    number = other
  none_idle : manager.stopped = true ∨ manager.desired = [] →
    ∀ number attempt, manager.At number attempt → attempt.live = false
  connected : ∀ report, manager.reported = some report → report.status = .connected →
    ∃ number attempt, manager.At number attempt ∧ attempt.live = true
      ∧ attempt.subscriptions = manager.desired

theorem isQuiet_iff {manager : SubscriptionManager} : manager.isQuiet = true ↔
    (manager.replacing = [] ∧ manager.stopping = false)
      ∧ ∀ attempt ∈ manager.attempts, attempt.phase = .over ∧ attempt.readiness ≠ .reconciling := by
  simp [isQuiet]

theorem Upstream.oneConnection {manager : SubscriptionManager} (h : Upstream manager)
    (hannounced : Announced manager) (hquiet : manager.isQuiet = true) :
    OneConnection manager := by
  obtain ⟨⟨hreplacing, hstopping⟩, hover⟩ := isQuiet_iff.mp hquiet
  constructor
  · intro number other attempt otherAttempt hattempt hother hlive hotherLive
    have hnumber := h.live number attempt hattempt hlive
    have hsame := h.live other otherAttempt hother hotherLive
    exact Option.some.inj (hnumber.symm.trans hsame)
  · intro hidle number attempt hattempt
    rw [Bool.eq_false_iff]
    intro hlive
    obtain ⟨held, hheld, -, hsame⟩ := h.held number (h.live number attempt hattempt hlive)
    obtain ⟨hopen, hdesired, -⟩ := h.current number held hheld hsame
    rcases hidle with hstopped | hnil
    · rw [hstopped] at hopen
      cases hopen
    · exact hdesired hnil
  · intro report hreport hconnected
    rcases hannounced report hreport hconnected with hbusy | ⟨call, hcall, -⟩ | hlater
    · rcases isBusy_iff.mp hbusy with hsome | ⟨number, attempt, hattempt, hphase, -⟩
      · obtain ⟨number, hnumber⟩ := Option.isSome_iff_exists.mp hsome
        obtain ⟨attempt, hattempt, hlive, hsame⟩ := h.held number hnumber
        exact ⟨number, attempt, hattempt, hlive, (h.current number attempt hattempt hsame).2.2⟩
      · rw [(hover attempt (List.mem_of_getElem? hattempt)).1] at hphase
        cases hphase
    · rw [hreplacing] at hcall
      cases hcall
    · rw [hstopping] at hlater
      cases hlater

theorem run_upstream {options : ManagerOptions} {events : List ManagerEvent}
    (h : (system options).Legal (fun manager event => manager.meets event = true) start events) :
    Upstream ((system options).run start events)
      ∧ Announced ((system options).run start events) := by
  refine h.invariant (fun manager => Upstream manager ∧ Announced manager) ?_
    ⟨upstream_start, announced_start⟩
  rintro manager event ⟨hup, hannounced⟩ henabled hmeets
  exact ⟨hup.next henabled hmeets, hannounced.next hup henabled hmeets⟩

/-- In every run that leaves the four steps out, whenever no call is in progress. -/
theorem one_upstream_connection {options : ManagerOptions} {events : List ManagerEvent}
    (h : (system options).Legal (fun manager event => manager.meets event = true) start events)
    (hquiet : ((system options).run start events).isQuiet = true) :
    OneConnection ((system options).run start events) := by
  obtain ⟨hup, hannounced⟩ := run_upstream h
  exact hup.oneConnection hannounced hquiet

def binaryOptions : ManagerOptions where
  localeLe left right := decide (left ≤ right)

def minuteCandles : List MarketSubscription := [⟨"BTCUSDT", .m1⟩]

theorem one_upstream_connection_reconnected :
    OneConnection ((system binaryOptions).run start [.setSubscriptions minuteCandles,
      .replaced ⟨1, minuteCandles⟩, .handedOut 0 true, .ready 0, .reconciled 0,
      .readinessSettled 0, .onDisconnect 0 none, .timer, .handedOut 1 false, .reconciled 1,
      .readinessSettled 1]) :=
  one_upstream_connection (by decide +kernel) (by decide +kernel)

def openAttempt : ConnectAttempt where
  generation := 1
  subscriptions := minuteCandles
  phase := .over
  readiness := .settled
  handedOut := true
  closed := false
  reportedDisconnected := false

/-- `onConnected` fails and the timer asks for a second connection on top of the first; no call is
in progress and both are open. -/
theorem reconcile_failure_leaks :
    let failed : List ManagerEvent := [.setSubscriptions minuteCandles,
      .replaced ⟨1, minuteCandles⟩, .handedOut 0 true, .ready 0, .reconcileFailed 0 none,
      .readinessSettled 0, .timer, .handedOut 1 true, .ready 1, .reconciled 1, .readinessSettled 1]
    (system binaryOptions).Legal (fun _ _ => True) start failed
      ∧ ((system binaryOptions).run start failed).isQuiet = true
      ∧ ¬ OneConnection ((system binaryOptions).run start failed) := by
  refine ⟨by decide +kernel, by decide +kernel, fun hone => ?_⟩
  cases hone.single 0 1 openAttempt openAttempt (by decide +kernel) (by decide +kernel) rfl rfl

end SubscriptionManager

end Cryptox.MarketData
