import Cryptox.Auth.Accounts

/-!
# One account for an address, and tokens of their owners only

Registrations of one address may race up to the insertion, which lets one of them land. A token names
the user whose password was given at a login within the hour.
-/
namespace Cryptox.Auth

open Cryptox.Library
open Cryptox.Strategy (trim)

/-- What an insertion and a lookup do to the users in order of insertion. -/
structure UserRepository.Lawful {σ : Type} (repository : UserRepository σ) (list : σ → List User) :
    Prop where
  empty : list repository.empty = []
  insert_ok : ∀ s user s', repository.insert s user = .ok s' →
    list s' = list s ++ [user] ∧ ∀ other ∈ list s, other.email ≠ user.email
  insert_error : ∀ s user error, repository.insert s user = .error error →
    isDuplicateError error = true ∧
      ∃ other ∈ list s, other.email = user.email ∨ other.id = user.id
  find : ∀ s email, repository.findByEmail s email = (list s).find? (·.email == email)

def UserStorage.list : (storage : UserStorage) → storage.Users → List User
  | inMemory => fun users => users.rows
  | postgres => fun rows => rows.rows

theorem UserStorage.lawful : ∀ storage : UserStorage,
    storage.repository.Lawful storage.list := by
  rintro (_ | _)
  case inMemory =>
    refine ⟨rfl, fun s user s' h => ?_, fun s user error h => ?_, fun s email => ?_⟩
    · simp only [UserStorage.repository, MemoryUsers.insert, bind_eq_ok, pure_eq_ok] at h
      obtain ⟨_, hfree, rfl⟩ := h
      have hnone := Option.not_isSome_iff_eq_none.mp (by simpa using throwIf_eq_ok.mp hfree)
      refine ⟨Table.rows_put_of_none hnone, fun other hother heq => ?_⟩
      have hget := Table.get?_of_mem_rows hother
      rw [heq, hnone] at hget
      cases hget
    · simp only [UserStorage.repository, MemoryUsers.insert] at h
      cases hget : Table.get? s user.email with
      | none => simp [hget, throwIf, bind, Except.bind, pure, Except.pure] at h
      | some other =>
        simp only [hget, Option.isSome_some, throwIf, if_true, bind, Except.bind] at h
        cases h
        exact ⟨rfl, other, Table.mem_rows_of_get? hget, .inl (Table.key_of_get? hget)⟩
    · simp [UserStorage.repository, UserStorage.list, Table.get?, beq_eq_decide]
  case postgres =>
    refine ⟨rfl, fun s user s' h => ?_, fun s user error h => ?_, fun s email => rfl⟩
    · simp only [UserStorage.repository, UserRows.insert, bind_eq_ok, pure_eq_ok] at h
      obtain ⟨_, hfree, rfl⟩ := h
      have hboth := throwIf_eq_ok.mp hfree
      rw [Bool.or_eq_false_iff, List.any_eq_false] at hboth
      have hnone := Option.not_isSome_iff_eq_none.mp (by simpa using hboth.1)
      exact ⟨Table.rows_put_of_none hnone, fun other hother heq => hboth.2 other hother (by simp [heq])⟩
    · simp only [UserStorage.repository, UserRows.insert] at h
      cases hused : (Table.get? s user.id).isSome || s.rows.any (·.email == user.email) with
      | false => simp [hused, throwIf, bind, Except.bind, pure, Except.pure] at h
      | true =>
        simp only [hused, throwIf, if_true, bind, Except.bind] at h
        cases h
        refine ⟨rfl, ?_⟩
        rw [Bool.or_eq_true, List.any_eq_true] at hused
        rcases hused with hid | ⟨other, hother, hemail⟩
        · obtain ⟨other, hother⟩ := Option.isSome_iff_exists.mp hid
          exact ⟨other, Table.mem_rows_of_get? hother, .inr (Table.key_of_get? hother)⟩
        · exact ⟨other, hother, .inl (by simpa using hemail)⟩

/-- The check leaves the password as it is. -/
theorem validatePassword_eq {given password : String} (h : validatePassword given = .ok password) :
    given = password := by
  simp only [validatePassword, bind_eq_ok, pure_eq_ok] at h
  obtain ⟨_, -, heq⟩ := h
  exact heq

/-- The address and the password that a registration checks. -/
structure Checked (ports : AuthPorts) (email password : String) : Prop where
  email : ∃ given, normalizeEmail ports given = .ok email
  password : validatePassword password = .ok password

/-- A user as `register` makes it. -/
structure Made (ports : AuthPorts) (user : User) (password : String) : Prop where
  checked : Checked ports user.email password
  hashed : ∃ salt, user.passwordHash = ports.hash password salt
  id : user.id ≠ ""

namespace AuthWorld

variable {σ : Type}

def Unregistered (w : AuthWorld σ) (callId : Nat) : Prop := ∀ r ∈ w.registrations, r.callId ≠ callId

/-- What is known of a call where it stands. -/
def Fits (ports : AuthPorts) (w : AuthWorld σ) (callId : Nat) : AuthPhase → Prop
  | .finding email password | .hashing email password =>
    Checked ports email password ∧ w.Unregistered callId
  | .inserting user password => Made ports user password ∧ w.Unregistered callId ∧
      ∀ r ∈ w.registrations, r.user.id ≠ user.id
  | .registered answer => (answer = .ok () → ∃ r ∈ w.registrations, r.callId = callId) ∧
      ∀ exception, answer = .error (.exception exception) → w.Unregistered callId
  | .comparing user password => validatePassword password = .ok password ∧
      ∃ r ∈ w.registrations, r.user = user
  | .loggedIn answer => ∀ token, answer = .ok token →
      ∃ session ∈ w.sessions, session.callId = callId ∧ session.token = token
  | .looking .. | .stopped => True

/-- The users are those whose registration has landed, one for an address and one for an id. -/
structure Inv (ports : AuthPorts) (list : σ → List User) (w : AuthWorld σ) : Prop where
  users : list w.users = (w.registrations.map Registration.user).reverse
  emails : (w.registrations.map (·.user.email)).Nodup
  ids : (w.registrations.map (·.user.id)).Nodup
  callIds : (w.registrations.map Registration.callId).Nodup
  made : ∀ r ∈ w.registrations, Made ports r.user r.password
  begun : ∀ r ∈ w.registrations, w.phase r.callId ≠ none
  calls : ∀ callId phase, w.phase callId = some phase → w.Fits ports callId phase
  apart : ∀ first second user other password password',
    w.phase first = some (.inserting user password) →
    w.phase second = some (.inserting other password') → first ≠ second → user.id ≠ other.id
  sessions : ∀ session ∈ w.sessions, ∃ r ∈ w.registrations, r.user = session.user ∧
    ports.compare session.password r.user.passwordHash = true ∧
    session.token = ports.sign r.user.id (seconds session.issuedAt)

variable {ports : AuthPorts} {repository : UserRepository σ} {list : σ → List User}
  {w : AuthWorld σ} {callId : Nat}

@[simp] theorem phase_setPhase_self (phase : AuthPhase) :
    (w.setPhase callId phase).phase callId = some phase := by
  rw [AuthWorld.phase, setPhase, Table.get?_put_of_eq _ rfl, Option.map_some]

@[simp] theorem phase_setPhase_of_ne {other : Nat} (h : other ≠ callId) (phase : AuthPhase) :
    (w.setPhase callId phase).phase other = w.phase other := by
  rw [AuthWorld.phase, setPhase, Table.get?_put_of_ne _ h]
  rfl

/-- What is known of a call does not depend on the other calls, and survives new registrations and
sessions of others. -/
theorem Fits.grow {later : AuthWorld σ} {phase : AuthPhase} (h : w.Fits ports callId phase)
    (hregistrations : ∀ r ∈ w.registrations, r ∈ later.registrations)
    (hnew : ∀ r ∈ later.registrations, r ∈ w.registrations ∨ r.callId ≠ callId ∧
      ∀ user password, phase = .inserting user password → r.user.id ≠ user.id)
    (hsessions : ∀ session ∈ w.sessions, session ∈ later.sessions) :
    later.Fits ports callId phase := by
  have hunregistered : w.Unregistered callId → later.Unregistered callId := by
    intro hfree r hr
    rcases hnew r hr with hold | hother
    · exact hfree r hold
    · exact hother.1
  cases phase with
  | finding | hashing => exact ⟨h.1, hunregistered h.2⟩
  | inserting user password =>
    refine ⟨h.1, hunregistered h.2.1, fun r hr => ?_⟩
    rcases hnew r hr with hold | hother
    · exact h.2.2 r hold
    · exact hother.2 user password rfl
  | registered answer =>
    refine ⟨fun hok => ?_, fun exception heq => hunregistered (h.2 exception heq)⟩
    obtain ⟨r, hr, hcall⟩ := h.1 hok
    exact ⟨r, hregistrations r hr, hcall⟩
  | comparing user password =>
    obtain ⟨hvalid, r, hr, huser⟩ := h
    exact ⟨hvalid, r, hregistrations r hr, huser⟩
  | loggedIn answer =>
    intro token htoken
    obtain ⟨session, hsession, hcall⟩ := h token htoken
    exact ⟨session, hsessions session hsession, hcall⟩
  | looking | stopped => trivial

theorem Inv.start (hlawful : repository.Lawful list) : (start repository).Inv ports list where
  users := hlawful.empty
  emails := List.nodup_nil
  ids := List.nodup_nil
  callIds := List.nodup_nil
  made _ h := by cases h
  begun _ h := by cases h
  calls _ _ h := by cases h
  apart _ _ _ _ _ _ h := by cases h
  sessions _ h := by cases h

/-- A call goes on, and nothing else changes. -/
theorem Inv.setPhase (h : w.Inv ports list) {phase : AuthPhase}
    (hfits : w.Fits ports callId phase)
    (hapart : ∀ user password, phase = .inserting user password →
      ∀ other user' password', w.phase other = some (.inserting user' password') →
        other ≠ callId → user'.id ≠ user.id) :
    (w.setPhase callId phase).Inv ports list where
  users := h.users
  emails := h.emails
  ids := h.ids
  callIds := h.callIds
  made := h.made
  begun r hr := by
    by_cases heq : r.callId = callId
    · rw [heq, phase_setPhase_self]
      exact Option.some_ne_none _
    · rw [phase_setPhase_of_ne heq]
      exact h.begun r hr
  calls other phase' hphase := by
    by_cases heq : other = callId
    · subst heq
      rw [phase_setPhase_self] at hphase
      cases hphase
      exact hfits.grow (fun _ hr => hr) (fun _ hr => .inl hr) fun _ hs => hs
    · rw [phase_setPhase_of_ne heq] at hphase
      exact (h.calls other phase' hphase).grow (fun _ hr => hr) (fun _ hr => .inl hr) fun _ hs => hs
  apart first second user other password password' hfirst hsecond hne := by
    by_cases hf : first = callId
    · subst hf
      rw [phase_setPhase_self] at hfirst
      rw [phase_setPhase_of_ne hne.symm] at hsecond
      exact (hapart user password (Option.some.inj hfirst) second other password' hsecond
        hne.symm).symm
    · rw [phase_setPhase_of_ne hf] at hfirst
      by_cases hs : second = callId
      · subst hs
        rw [phase_setPhase_self] at hsecond
        exact hapart other password' (Option.some.inj hsecond) first user password hfirst hf
      · rw [phase_setPhase_of_ne hs] at hsecond
        exact h.apart first second user other password password' hfirst hsecond hne
  sessions := h.sessions

/-- An insertion lands. -/
theorem Inv.land (h : w.Inv ports list) (hlawful : repository.Lawful list) {user : User}
    {password : String} {users : σ} (hphase : w.phase callId = some (.inserting user password))
    (hinsert : repository.insert w.users user = .ok users) {answer : Except AuthError Unit}
    (hanswer : ∀ exception, answer ≠ .error (.exception exception)) :
    ({ w with users, registrations := ⟨callId, user, password⟩ :: w.registrations }.setPhase callId
      (.registered answer)).Inv ports list := by
  obtain ⟨hmade, hfree, hids⟩ := h.calls callId _ hphase
  obtain ⟨husers, hemails⟩ := hlawful.insert_ok _ _ _ hinsert
  have hlanded : ∀ r ∈ w.registrations,
      r ∈ (⟨callId, user, password⟩ :: w.registrations : List Registration) :=
    fun r hr => List.mem_cons_of_mem _ hr
  constructor
  case users =>
    show list users = ((⟨callId, user, password⟩ :: w.registrations).map Registration.user).reverse
    rw [husers, h.users, List.map_cons, List.reverse_cons]
  case emails =>
    refine List.nodup_cons.mpr ⟨fun hmem => ?_, h.emails⟩
    obtain ⟨r, hr, hemail⟩ := List.mem_map.mp hmem
    refine hemails r.user ?_ hemail
    rw [h.users, List.mem_reverse]
    exact List.mem_map_of_mem hr
  case ids =>
    refine List.nodup_cons.mpr ⟨fun hmem => ?_, h.ids⟩
    obtain ⟨r, hr, hid⟩ := List.mem_map.mp hmem
    exact hids r hr hid
  case callIds =>
    refine List.nodup_cons.mpr ⟨fun hmem => ?_, h.callIds⟩
    obtain ⟨r, hr, hcall⟩ := List.mem_map.mp hmem
    exact hfree r hr hcall
  case made =>
    intro r hr
    rcases List.mem_cons.mp hr with rfl | hold
    · exact hmade
    · exact h.made r hold
  case begun =>
    intro r hr
    by_cases heq : r.callId = callId
    · rw [heq, phase_setPhase_self]
      exact Option.some_ne_none _
    · rw [phase_setPhase_of_ne heq]
      rcases List.mem_cons.mp hr with rfl | hold
      · exact absurd rfl heq
      · exact h.begun r hold
  case calls =>
    intro other phase hother
    by_cases heq : other = callId
    · subst heq
      rw [phase_setPhase_self] at hother
      cases hother
      exact ⟨fun _ => ⟨_, List.mem_cons_self, rfl⟩,
        fun exception hexception => absurd hexception (hanswer exception)⟩
    · rw [phase_setPhase_of_ne heq] at hother
      have hold : w.phase other = some phase := hother
      refine (h.calls other phase hold).grow hlanded (fun r hr => ?_) fun _ hs => hs
      rcases List.mem_cons.mp hr with rfl | hmem
      · refine .inr ⟨fun hsame => heq hsame.symm, fun user' password' hinserting => ?_⟩
        subst hinserting
        exact h.apart callId other user user' password password' hphase hold (Ne.symm heq)
      · exact .inl hmem
  case apart =>
    intro first second one other password' password'' hfirst hsecond hne
    by_cases hf : first = callId
    · subst hf
      rw [phase_setPhase_self] at hfirst
      cases hfirst
    · by_cases hs : second = callId
      · subst hs
        rw [phase_setPhase_self] at hsecond
        cases hsecond
      · rw [phase_setPhase_of_ne hf] at hfirst
        rw [phase_setPhase_of_ne hs] at hsecond
        exact h.apart first second one other password' password'' hfirst hsecond hne
  case sessions =>
    intro session hsession
    obtain ⟨r, hr, hrest⟩ := h.sessions session hsession
    exact ⟨r, hlanded r hr, hrest⟩

/-- A token is signed for the user whose password was given. -/
theorem Inv.sign (h : w.Inv ports list) {user : User} {password : String} (now : Int)
    (hphase : w.phase callId = some (.comparing user password))
    (hcompare : ports.compare password user.passwordHash = true) :
    ({ w with sessions := ⟨callId, user, password, now, ports.sign user.id (seconds now)⟩ ::
      w.sessions }.setPhase callId (.loggedIn (.ok (ports.sign user.id (seconds now))))).Inv
        ports list := by
  obtain ⟨-, r, hr, huser⟩ := h.calls callId _ hphase
  have hsigned : ({ w with sessions := ⟨callId, user, password, now,
      ports.sign user.id (seconds now)⟩ :: w.sessions } : AuthWorld σ).Inv ports list := by
    refine ⟨h.users, h.emails, h.ids, h.callIds, h.made, h.begun, ?_, h.apart, ?_⟩
    · intro other phase hother
      exact (h.calls other phase hother).grow (fun _ hr => hr) (fun _ hr => .inl hr)
        fun _ hs => List.mem_cons_of_mem _ hs
    · intro session hsession
      rcases List.mem_cons.mp hsession with rfl | hold
      · exact ⟨r, hr, huser, huser ▸ hcompare, by rw [huser]⟩
      · exact h.sessions session hold
  refine hsigned.setPhase (fun token htoken => ?_) nofun
  cases htoken
  exact ⟨_, List.mem_cons_self, rfl, rfl⟩

theorem inv_insertStep (h : w.Inv ports list) (hlawful : repository.Lawful list) {user : User}
    {password : String} (hphase : w.phase callId = some (.inserting user password))
    (answer : PortAnswer) : (w.insertStep repository callId user password answer).Inv ports list := by
  obtain ⟨-, hfree, -⟩ := h.calls callId _ hphase
  have hrefused : ∀ error, (w.setPhase callId (.registered (.error error))).Inv ports list :=
    fun error => h.setPhase ⟨nofun, fun _ _ => hfree⟩ nofun
  cases answer with
  | failed error => exact hrefused _
  | done =>
    simp only [insertStep]
    split
    next => exact hrefused _
    next users hinsert => exact h.land hlawful hphase hinsert nofun
  | lost error =>
    simp only [insertStep]
    split
    next => exact hrefused _
    next users hinsert => exact h.land hlawful hphase hinsert nofun

theorem inv_next (hlawful : repository.Lawful list) (w : AuthWorld σ) (step : AuthStep)
    (h : w.Inv ports list) (henabled : (system ports repository).enabled w step) :
    ((system ports repository).next w step).Inv ports list := by
  cases step with
  | register callId email password =>
    have hfree : w.Unregistered callId := by
      rintro r hr rfl
      exact h.begun r hr henabled
    show (w.registerStep ports callId email password).Inv ports list
    unfold registerStep
    refine h.setPhase ?_ ?_
    · split
      next checked email password hchecked =>
        simp only [bind_eq_ok, pure_eq_ok] at hchecked
        obtain ⟨normalized, hemail, kept, hpassword, hpair⟩ := hchecked
        cases hpair
        have hsame := validatePassword_eq hpassword
        exact ⟨⟨⟨_, hemail⟩, hsame ▸ hpassword⟩, hfree⟩
      next => exact ⟨nofun, fun _ _ => hfree⟩
    · intro user password' heq
      split at heq <;> cases heq
  | find callId =>
    obtain ⟨email, password, hphase⟩ := henabled
    simp only [system, next, hphase, findStep]
    obtain ⟨hchecked, hfree⟩ := h.calls callId _ hphase
    refine h.setPhase ?_ ?_
    · split
      · exact ⟨nofun, fun _ _ => hfree⟩
      · exact ⟨hchecked, hfree⟩
    · intro user password' heq
      split at heq <;> cases heq
  | hash callId id salt now =>
    obtain ⟨⟨email, password, hphase⟩, hid, hids, hinserting⟩ := henabled
    simp only [system, next, hphase]
    obtain ⟨hchecked, hfree⟩ := h.calls callId _ hphase
    refine h.setPhase ⟨⟨hchecked, ⟨salt, rfl⟩, hid⟩, hfree, hids⟩ ?_
    intro user password' heq other user' password'' hother _
    cases heq
    exact hinserting other user' password'' hother
  | insert callId answer =>
    obtain ⟨user, password, hphase⟩ := henabled
    simp only [system, next, hphase]
    exact inv_insertStep h hlawful hphase answer
  | login callId email password =>
    show (w.loginStep ports callId email password).Inv ports list
    unfold loginStep
    refine h.setPhase ?_ ?_
    · split
      · trivial
      · exact nofun
    · intro user password' heq
      split at heq <;> cases heq
  | look callId =>
    obtain ⟨email, password, hphase⟩ := henabled
    simp only [system, next, hphase, lookStep]
    refine h.setPhase ?_ ?_
    · split
      next => exact nofun
      next user hfound =>
        split
        next checked hvalid =>
          have hsame := validatePassword_eq hvalid
          rw [hlawful.find, h.users] at hfound
          have hmem := List.mem_of_find?_eq_some hfound
          rw [List.mem_reverse, List.mem_map] at hmem
          exact ⟨hsame ▸ hvalid, hmem⟩
        next => exact nofun
    · intro user password' heq
      split at heq
      · cases heq
      · split at heq <;> cases heq
  | compare callId now =>
    obtain ⟨user, password, hphase⟩ := henabled
    simp only [system, next, hphase, compareStep]
    split
    next hcompare => exact h.sign now hphase hcompare
    next => exact h.setPhase nofun nofun
  | fail callId error =>
    obtain ⟨phase, hphase, hwaits⟩ := henabled
    simp only [system, next, hphase]
    have hfits := h.calls callId phase hphase
    cases phase with
    | finding | hashing => exact h.setPhase ⟨nofun, nofun⟩ nofun
    | inserting => exact h.setPhase ⟨nofun, nofun⟩ nofun
    | looking | comparing => exact h.setPhase nofun nofun
    | registered | loggedIn | stopped => cases hwaits
  | stop callId => exact h.setPhase trivial nofun

/-- Registrations stay as they landed. -/
theorem registrations_next (w : AuthWorld σ) (step : AuthStep) :
    w.registrations <:+ ((system ports repository).next w step).registrations := by
  have hrefl := List.suffix_refl w.registrations
  have hland : ∀ r : Registration, w.registrations <:+ r :: w.registrations :=
    fun r => List.suffix_cons r _
  cases step with
  | register | login | stop => exact hrefl
  | find callId | hash callId | look callId | fail callId =>
    simp only [system, next]
    split <;> exact hrefl
  | compare callId now =>
    simp only [system, next, compareStep]
    split
    · split <;> exact hrefl
    · exact hrefl
  | insert callId answer =>
    simp only [system, next]
    split
    next user password hphase =>
      cases answer with
      | failed error => exact hrefl
      | done | lost =>
        simp only [insertStep]
        split
        · exact hrefl
        · exact hland _
    next => exact hrefl

variable {steps : List AuthStep}

theorem inv_run (hlawful : repository.Lawful list) (h : w.Inv ports list)
    (hlegal : (system ports repository).Legal (fun _ _ => True) w steps) :
    ((system ports repository).run w steps).Inv ports list :=
  hlegal.invariant (Inv ports list) (fun w step h henabled _ => inv_next hlawful w step h henabled) h

theorem registrations_run (w : AuthWorld σ) (steps : List AuthStep) :
    w.registrations <:+ ((system ports repository).run w steps).registrations := by
  induction steps generalizing w with
  | nil => exact List.suffix_refl _
  | cons step steps ih => exact (registrations_next w step).trans (ih _)

end AuthWorld

section Results

open AuthWorld

variable (ports : AuthPorts) (storage : UserStorage)

/-- The state after a run, from no users. -/
def reached (steps : List AuthStep) : AuthWorld storage.Users :=
  (system ports storage.repository).run (start storage.repository) steps

def Admits (steps : List AuthStep) : Prop :=
  (system ports storage.repository).Legal (fun _ _ => True) (start storage.repository) steps

/-- One account for an address and one for an id, each from the call that registered it, and nothing
stored by a call that was refused. -/
structure OneAccountEach (w : AuthWorld storage.Users) : Prop where
  emails : ((storage.list w.users).map User.email).Nodup
  ids : ((storage.list w.users).map User.id).Nodup
  landed : ∀ user ∈ storage.list w.users, ∃ r ∈ w.registrations, r.user = user ∧
    Made ports user r.password
  once : (w.registrations.map Registration.callId).Nodup
  answered : ∀ callId, w.phase callId = some (.registered (.ok ())) →
    ∃ r ∈ w.registrations, r.callId = callId ∧ r.user ∈ storage.list w.users
  refused : ∀ callId exception, w.phase callId = some (.registered (.error (.exception exception))) →
    ∀ r ∈ w.registrations, r.callId ≠ callId

variable {ports storage}

theorem inv_reached {steps : List AuthStep} (h : Admits ports storage steps) :
    (reached ports storage steps).Inv ports storage.list :=
  inv_run storage.lawful (Inv.start storage.lawful) h

theorem mem_users {w : AuthWorld storage.Users} (h : w.Inv ports storage.list) {user : User} :
    user ∈ storage.list w.users ↔ ∃ r ∈ w.registrations, r.user = user := by
  rw [h.users, List.mem_reverse, List.mem_map]

theorem oneAccountEach {w : AuthWorld storage.Users} (h : w.Inv ports storage.list) :
    OneAccountEach ports storage w where
  emails := by
    rw [h.users, List.map_reverse, List.nodup_reverse, List.map_map]
    exact h.emails
  ids := by
    rw [h.users, List.map_reverse, List.nodup_reverse, List.map_map]
    exact h.ids
  landed user huser := by
    obtain ⟨r, hr, rfl⟩ := (mem_users h).mp huser
    exact ⟨r, hr, rfl, h.made r hr⟩
  once := h.callIds
  answered callId hphase := by
    obtain ⟨r, hr, hcall⟩ := (h.calls callId _ hphase).1 rfl
    exact ⟨r, hr, hcall, (mem_users h).mpr ⟨r, hr, rfl⟩⟩
  refused callId exception hphase := (h.calls callId _ hphase).2 exception rfl

/-- However registrations are interleaved, each address has one account at most, which stays as it was
registered. -/
theorem register_once (ports : AuthPorts) (storage : UserStorage) (before later : List AuthStep)
    (h : Admits ports storage (before ++ later)) :
    OneAccountEach ports storage (reached ports storage before) ∧
      storage.list (reached ports storage before).users <+:
        storage.list (reached ports storage (before ++ later)).users := by
  have hbefore : Admits ports storage before := (GuardedSystem.legal_append.mp h).1
  refine ⟨oneAccountEach (inv_reached hbefore), ?_⟩
  rw [(inv_reached hbefore).users, (inv_reached h).users]
  have hgrown : (reached ports storage before).registrations <:+
      (reached ports storage (before ++ later)).registrations := by
    rw [reached, reached, GuardedSystem.run_append]
    exact registrations_run _ later
  exact List.reverse_prefix.mpr (hgrown.map _)

/-- What the module relies on: a password compares with a hash of one it agrees with, a signed token
names its user for an hour, and nothing but a signed token names a user. -/
structure AuthPorts.Lawful (ports : AuthPorts) (agree : String → String → Prop) : Prop where
  compare : ∀ password given salt,
    ports.compare given (ports.hash password salt) = true ↔ agree given password
  subject : ∀ userId issuedAt now, userId ≠ "" → ports.subjectAt (ports.sign userId issuedAt) now =
    if now < issuedAt + tokenLifetime then some userId else none
  signed : ∀ token now userId, ports.subjectAt token now = some userId →
    ∃ issuedAt, token = ports.sign userId issuedAt
  untrimmed : ∀ userId issuedAt, trim (ports.sign userId issuedAt) = ports.sign userId issuedAt
  nonempty : ∀ userId issuedAt, ports.sign userId issuedAt ≠ ""

/-- The token of a header. -/
def bearerToken (header : String) : String :=
  trim (String.ofList (header.toList.drop bearerPrefix.length))

theorem authenticate_eq_ok {authorization : Option String} {now : Int} {userId : String}
    (h : authenticate ports authorization now = .ok userId) :
    ∃ header, authorization = some header ∧
      ports.subjectAt (bearerToken header) (seconds now) = some userId := by
  unfold authenticate at h
  split at h
  next => cases h
  next header =>
    refine ⟨header, rfl, ?_⟩
    split at h
    next =>
      cases hverify : verify ports (String.ofList (header.toList.drop bearerPrefix.length)) now with
      | error exception =>
        rw [hverify] at h
        cases h
      | ok found =>
        rw [hverify] at h
        cases h
        simp only [verify, bind_eq_ok] at hverify
        obtain ⟨token, htoken, hsubject⟩ := hverify
        simp only [validateToken, bind_eq_ok, pure_eq_ok] at htoken
        obtain ⟨_, -, rfl⟩ := htoken
        split at hsubject
        next subject hfound =>
          cases hsubject
          exact hfound
        next => cases hsubject
    next => cases h

/-- A request that is taken for a user's carries the token of a login within the hour, at which a
password that agrees with the user's own was given. -/
theorem authenticate_sound {agree : String → String → Prop} (hports : ports.Lawful agree)
    {steps : List AuthStep} (h : Admits ports storage steps) {authorization : Option String}
    {now : Int} {userId : String} (hauthenticated : authenticate ports authorization now = .ok userId)
    (hunforged : ∀ header ∈ authorization, ∀ subject issuedAt,
      bearerToken header = ports.sign subject issuedAt →
      ∃ session ∈ (reached ports storage steps).sessions, session.token = bearerToken header) :
    ∃ session ∈ (reached ports storage steps).sessions,
      ∃ r ∈ (reached ports storage steps).registrations,
        r.user ∈ storage.list (reached ports storage steps).users ∧ r.user.id = userId ∧
        session.user = r.user ∧ agree session.password r.password ∧
        seconds now < seconds session.issuedAt + tokenLifetime := by
  have hinv := inv_reached h
  obtain ⟨header, rfl, hsubject⟩ := authenticate_eq_ok hauthenticated
  obtain ⟨issuedAt, hsigned⟩ := hports.signed _ _ _ hsubject
  obtain ⟨session, hsession, htoken⟩ := hunforged header rfl userId issuedAt hsigned
  obtain ⟨r, hr, huser, hcompare, hown⟩ := hinv.sessions session hsession
  have hmade := hinv.made r hr
  obtain ⟨salt, hhash⟩ := hmade.hashed
  rw [← htoken, hown, hports.subject _ _ _ hmade.id] at hsubject
  split at hsubject
  next hrunning =>
    cases hsubject
    rw [hhash, hports.compare] at hcompare
    exact ⟨session, hsession, r, hr, (mem_users hinv).mpr ⟨r, hr, rfl⟩, rfl, huser.symm, hcompare,
      hrunning⟩
  next => cases hsubject

/-! A login, whatever other calls do in between. -/

section Login

variable {σ : Type} {repository : UserRepository σ} {w : AuthWorld σ} {callId : Nat}

theorem phase_insertStep_of_ne {other : Nat} (h : callId ≠ other) (user : User) (password : String)
    (answer : PortAnswer) :
    (w.insertStep repository other user password answer).phase callId = w.phase callId := by
  cases answer with
  | failed error => exact phase_setPhase_of_ne h _
  | done | lost =>
    simp only [insertStep]
    split
    · exact phase_setPhase_of_ne h _
    · exact phase_setPhase_of_ne h _

/-- The steps of one call leave the other calls where they stand. -/
theorem phase_next_of_ne {step : AuthStep} (h : callId ≠ step.callId) :
    ((system ports repository).next w step).phase callId = w.phase callId := by
  cases step with
  | register | login | stop => exact phase_setPhase_of_ne h _
  | find | hash | look | fail =>
    simp only [system, next]
    split
    · exact phase_setPhase_of_ne h _
    · rfl
  | compare =>
    simp only [system, next, compareStep]
    split
    · split
      · exact phase_setPhase_of_ne h _
      · exact phase_setPhase_of_ne h _
    · rfl
  | insert other answer =>
    simp only [system, next]
    split
    next user password hphase => exact phase_insertStep_of_ne h user password answer
    next => rfl

theorem phase_run_of_ne {steps : List AuthStep} (h : ∀ step ∈ steps, callId ≠ step.callId) :
    ((system ports repository).run w steps).phase callId = w.phase callId := by
  induction steps generalizing w with
  | nil => rfl
  | cons step steps ih =>
    exact (ih fun other hother => h other (List.mem_cons_of_mem _ hother)).trans
      (phase_next_of_ne (h step List.mem_cons_self))

/-- A registered address is found, with the user that was registered. -/
theorem findByEmail_registered {w : AuthWorld storage.Users} (h : w.Inv ports storage.list)
    {r : Registration} (hr : r ∈ w.registrations) :
    storage.repository.findByEmail w.users r.user.email = some r.user := by
  have hmem : r.user ∈ storage.list w.users := (mem_users h).mpr ⟨r, hr, rfl⟩
  have hemails := (oneAccountEach h).emails
  rw [storage.lawful.find]
  cases hfound : (storage.list w.users).find? (·.email == r.user.email) with
  | none =>
    have hnone := List.find?_eq_none.mp hfound r.user hmem
    simp at hnone
  | some found =>
    have hemail : found.email = r.user.email := by simpa using List.find?_some hfound
    exact congrArg some
      (List.inj_on_of_nodup_map hemails (List.mem_of_find?_eq_some hfound) hmem hemail)

/-- What a request with a fresh token is answered. -/
theorem authenticate_signed {agree : String → String → Prop} (hports : ports.Lawful agree)
    {userId : String} (hid : userId ≠ "") (issuedAt now : Int) :
    authenticate ports (some (bearerPrefix ++ ports.sign userId issuedAt)) now =
      if seconds now < issuedAt + tokenLifetime then .ok userId
      else .error (authHttpError tokenInvalid) := by
  have hnonempty : (ports.sign userId issuedAt).isEmpty = false := by
    simpa using hports.nonempty userId issuedAt
  have hvalid : validateToken (ports.sign userId issuedAt) = .ok (ports.sign userId issuedAt) := by
    simp [validateToken, throwIf, hports.untrimmed, hnonempty, bind, Except.bind, pure, Except.pure]
  have hverify : verify ports (ports.sign userId issuedAt) now =
      if seconds now < issuedAt + tokenLifetime then .ok userId else .error tokenInvalid := by
    simp only [verify, hvalid, bind, Except.bind, hports.subject userId issuedAt _ hid]
    split
    next hfound =>
      split at hfound
      next hrunning =>
        cases hfound
        rw [if_pos hrunning]
        rfl
      next => cases hfound
    next hlapsed =>
      split at hlapsed
      next => cases hlapsed
      next hover => rw [if_neg hover]
  have hprefix : bearerPrefix.toList.isPrefixOf
      (bearerPrefix ++ ports.sign userId issuedAt).toList = true := by
    simp
  have hdrop : (bearerPrefix ++ ports.sign userId issuedAt).toList.drop bearerPrefix.length =
      (ports.sign userId issuedAt).toList := by
    rw [String.toList_append]
    exact List.drop_left' String.length_toList
  simp only [authenticate, hprefix, if_true, hdrop, String.ofList_toList, hverify]
  split <;> rfl

/-- The comparison goes by the password that was registered. -/
theorem compareStep_registered {agree : String → String → Prop} (hports : ports.Lawful agree)
    {w : AuthWorld storage.Users} (h : w.Inv ports storage.list) {r : Registration}
    (hr : r ∈ w.registrations) (callId : Nat) (password : String) (now : Int) :
    (agree password r.password → (w.compareStep ports callId r.user password now).phase callId =
      some (.loggedIn (.ok (ports.sign r.user.id (seconds now))))) ∧
    (¬ agree password r.password → (w.compareStep ports callId r.user password now).phase callId =
      some (.loggedIn (.error (.exception badCredentials)))) := by
  obtain ⟨salt, hhash⟩ := (h.made r hr).hashed
  have hcompare := hports.compare r.password password salt
  rw [← hhash] at hcompare
  unfold compareStep
  constructor
  · intro hagree
    rw [if_pos (hcompare.mpr hagree)]
    exact phase_setPhase_self _
  · intro hother
    rw [if_neg (fun htrue => hother (hcompare.mp htrue))]
    exact phase_setPhase_self _

/-- A login to a registered address looks up the user registered for it, whatever others do before. -/
theorem looking_registered {before waiting : List AuthStep} {email password : String}
    {r : Registration} (hwaiting : ∀ step ∈ waiting, callId ≠ step.callId)
    (hr : r ∈ (reached ports storage before).registrations)
    (hemail : normalizeEmail ports email = .ok r.user.email) :
    r ∈ (reached ports storage (before ++ .login callId email password :: waiting)).registrations ∧
      (reached ports storage (before ++ .login callId email password :: waiting)).phase callId =
        some (.looking r.user.email password) := by
  set w := reached ports storage before with hw
  have hrun : reached ports storage (before ++ .login callId email password :: waiting) =
      (system ports storage.repository).run
        ((system ports storage.repository).next w (.login callId email password)) waiting := by
    rw [hw, reached, GuardedSystem.run_append, GuardedSystem.run]
    rfl
  rw [hrun]
  constructor
  · exact ((registrations_next w (.login callId email password)).trans
      (registrations_run _ waiting)).subset hr
  · rw [phase_run_of_ne hwaiting]
    show (w.loginStep ports callId email password).phase callId = _
    unfold loginStep
    rw [hemail, phase_setPhase_self]

/-- The length check of a password comes after the look-up and before the comparison. -/
theorem lookStep_registered {w : AuthWorld storage.Users} (h : w.Inv ports storage.list)
    {r : Registration} (hr : r ∈ w.registrations) (callId : Nat) (password : String) :
    (w.lookStep storage.repository callId r.user.email password) =
      w.setPhase callId (if codeUnits password < 8 ∨ 128 < codeUnits password then
        .loggedIn (.error (.exception passwordInvalid)) else .comparing r.user password) := by
  unfold lookStep
  rw [findByEmail_registered h hr]
  by_cases hlength : codeUnits password < 8 ∨ 128 < codeUnits password
  · have hinvalid : validatePassword password = .error passwordInvalid := by
      simp [validatePassword, throwIf, hlength, bind, Except.bind]
    simp only [hinvalid, if_pos hlength]
  · have hvalid : validatePassword password = .ok password := by
      simp [validatePassword, throwIf, hlength, bind, Except.bind, pure, Except.pure]
    simp only [hvalid, if_neg hlength]

/-- A login to a registered address, with whatever other calls do in between, ends with a validation
error when the password has a wrong length; else it hands a token of its owner to whoever gives a
password that agrees with the registered one, for an hour, and to nobody else. -/
theorem login_authenticates {agree : String → String → Prop} (hports : ports.Lawful agree)
    {before waiting : List AuthStep} {callId : Nat} {email password : String} {r : Registration}
    (h : Admits ports storage
      (before ++ .login callId email password :: (waiting ++ [.look callId])))
    (hwaiting : ∀ step ∈ waiting, callId ≠ step.callId)
    (hr : r ∈ (reached ports storage before).registrations)
    (hemail : normalizeEmail ports email = .ok r.user.email) :
    (codeUnits password < 8 ∨ 128 < codeUnits password →
      (reached ports storage
        (before ++ .login callId email password :: (waiting ++ [.look callId]))).phase callId =
          some (.loggedIn (.error (.exception passwordInvalid)))) ∧
    (8 ≤ codeUnits password → codeUnits password ≤ 128 →
      ∀ (comparing : List AuthStep) (issuedAt : Int),
        Admits ports storage (before ++ .login callId email password ::
          (waiting ++ [.look callId]) ++ (comparing ++ [.compare callId issuedAt])) →
        (∀ step ∈ comparing, callId ≠ step.callId) →
      ∃ answer, (reached ports storage (before ++ .login callId email password ::
          (waiting ++ [.look callId]) ++ (comparing ++ [.compare callId issuedAt]))).phase callId =
            some (.loggedIn answer) ∧
        (¬ agree password r.password → answer = .error (.exception badCredentials)) ∧
        (agree password r.password → ∃ token, answer = .ok token ∧ ∀ now,
          authenticate ports (some (bearerPrefix ++ token)) now =
            if seconds now < seconds issuedAt + tokenLifetime then .ok r.user.id
            else .error (authHttpError tokenInvalid))) := by
  set sys := system ports storage.repository with hsys
  set found := reached ports storage (before ++ .login callId email password :: waiting) with hfound
  have hsplit : before ++ .login callId email password :: (waiting ++ [.look callId]) =
      (before ++ .login callId email password :: waiting) ++ [.look callId] := by
    simp
  rw [hsplit] at h ⊢
  obtain ⟨hbefore, -⟩ := GuardedSystem.legal_append.mp h
  have hinv : found.Inv ports storage.list := inv_reached hbefore
  obtain ⟨hrFound, hlooking⟩ := looking_registered hwaiting hr hemail
  have hlook : reached ports storage
      ((before ++ .login callId email password :: waiting) ++ [.look callId]) =
        found.setPhase callId (if codeUnits password < 8 ∨ 128 < codeUnits password then
          .loggedIn (.error (.exception passwordInvalid)) else .comparing r.user password) := by
    rw [reached, GuardedSystem.run_append, GuardedSystem.run, GuardedSystem.run, ← reached, ← hfound]
    show sys.next found (.look callId) = _
    simp only [hsys, system, next]
    rw [hlooking]
    exact lookStep_registered hinv hrFound callId password
  constructor
  · intro hlength
    rw [hlook, if_pos hlength, phase_setPhase_self]
  intro hshort hlong comparing issuedAt hadmits hothers
  obtain ⟨hlegal, hlater⟩ := GuardedSystem.legal_append.mp hadmits
  have hcomparing := (GuardedSystem.legal_append.mp hlater).1
  -- the password is compared after other calls have gone on
  set looked := reached ports storage
    ((before ++ .login callId email password :: waiting) ++ [.look callId]) with hlookedIs
  set asked := sys.run looked comparing with hasked
  rw [if_neg (by omega)] at hlook
  have hinvAsked : asked.Inv ports storage.list :=
    inv_run storage.lawful (inv_reached hlegal) hcomparing
  have hphase : asked.phase callId = some (.comparing r.user password) := by
    rw [hasked, phase_run_of_ne hothers, hlook, phase_setPhase_self]
  have hrAsked : r ∈ asked.registrations := by
    refine (registrations_run looked comparing).subset ?_
    rw [hlook]
    exact hrFound
  have hend : reached ports storage ((before ++ .login callId email password :: waiting) ++
      [.look callId] ++ (comparing ++ [.compare callId issuedAt])) =
        asked.compareStep ports callId r.user password issuedAt := by
    rw [reached, GuardedSystem.run_append, ← reached, ← hlookedIs, GuardedSystem.run_append]
    show sys.next asked (.compare callId issuedAt) = _
    simp only [hsys, system, next, hphase]
  obtain ⟨hown, hwrong⟩ :=
    compareStep_registered hports hinvAsked hrAsked callId password issuedAt
  rw [hend]
  by_cases hagree : agree password r.password
  · refine ⟨_, hown hagree, fun hother => absurd hagree hother, fun _ => ⟨_, rfl, fun now => ?_⟩⟩
    exact authenticate_signed hports (hinvAsked.made r hrAsked).id _ now
  · exact ⟨_, hwrong hagree, fun _ => rfl, fun hother => absurd hother hagree⟩

end Login

end Results

/-! Ports that keep what the module relies on. -/

namespace Sample

def signature (userId : String) (issuedAt : Int) : List Char :=
  'j' :: (if issuedAt < 0 then '-' else '+') :: (List.replicate issuedAt.natAbs '1' ++
    '.' :: (userId.toList ++ ['j']))

/-- The subject and the instant that are written in a token. -/
def written (token : List Char) : String × Int :=
  let digits := (token.drop 2).takeWhile (· == '1')
  let later := ((token.drop 2).dropWhile (· == '1')).drop 1
  (String.ofList later.dropLast,
    if token.drop 1 |>.head? |>.any (· == '-') then -digits.length else digits.length)

def subjectAt (token : String) (now : Int) : Option String :=
  let (userId, issuedAt) := written token.toList
  if token.toList = signature userId issuedAt ∧ userId ≠ "" ∧ now < issuedAt + tokenLifetime then
    some userId
  else none

def ports : AuthPorts where
  toLowerCase text := String.ofList (text.toList.map Char.toLower)
  hash password salt := String.ofList (List.replicate salt '$' ++ '.' :: password.toList)
  compare given hash := ((hash.toList.dropWhile (· == '$')).drop 1) == given.toList
  sign userId issuedAt := String.ofList (signature userId issuedAt)
  subjectAt

theorem written_signature (userId : String) (issuedAt : Int) :
    written (signature userId issuedAt) = (userId, issuedAt) := by
  have htake : (List.replicate issuedAt.natAbs '1' ++ '.' :: (userId.toList ++ ['j'])).takeWhile
      (· == '1') = List.replicate issuedAt.natAbs '1' := by
    rw [List.takeWhile_append_of_pos (by simp)]
    simp
  have hdrop : (List.replicate issuedAt.natAbs '1' ++ '.' :: (userId.toList ++ ['j'])).dropWhile
      (· == '1') = '.' :: (userId.toList ++ ['j']) := by
    rw [List.dropWhile_append_of_pos (by simp)]
    simp
  simp only [written, signature, List.drop_succ_cons, List.drop_zero, htake, hdrop,
    List.dropLast_concat, String.ofList_toList, List.head?_cons, List.length_replicate, Option.any_some]
  refine Prod.ext rfl ?_
  show (if (if issuedAt < 0 then '-' else '+') == '-' then -(issuedAt.natAbs : Int)
    else (issuedAt.natAbs : Int)) = issuedAt
  by_cases hneg : issuedAt < 0
  · rw [if_pos hneg, if_pos (by decide)]
    omega
  · rw [if_neg hneg, if_neg (by decide)]
    omega

theorem trim_signature (userId : String) (issuedAt : Int) :
    trim (String.ofList (signature userId issuedAt)) = String.ofList (signature userId issuedAt) := by
  have hfirst : (signature userId issuedAt).dropWhile Backtesting.isJsSpace =
      signature userId issuedAt := rfl
  have hlast : (signature userId issuedAt).reverse.dropWhile Backtesting.isJsSpace =
      (signature userId issuedAt).reverse := by
    simp only [signature, List.reverse_cons, List.reverse_append, List.append_assoc, List.reverse_nil,
      List.nil_append, List.cons_append]
    rfl
  rw [trim, String.toList_ofList, hfirst, hlast, List.reverse_reverse]

theorem lawful : ports.Lawful Eq where
  compare password given salt := by
    simp only [ports, String.toList_ofList]
    rw [List.dropWhile_append_of_pos (by simp)]
    have hdot : (('.' : Char) == '$') = false := by decide
    rw [List.dropWhile_cons_of_neg (by simp [hdot]), List.drop_succ_cons, List.drop_zero, beq_iff_eq,
      String.toList_inj, eq_comm]
  subject userId issuedAt now hid := by
    simp only [ports, subjectAt, String.toList_ofList, written_signature]
    simp [hid]
  signed token now userId h := by
    simp only [ports, subjectAt] at h
    split at h
    next hcond =>
      refine ⟨(written token.toList).2, ?_⟩
      cases h
      show token = String.ofList _
      rw [← hcond.1, String.ofList_toList]
    next => cases h
  untrimmed := trim_signature
  nonempty userId issuedAt h := by
    have hlist := congrArg String.toList h
    rw [ports, String.toList_ofList] at hlist
    cases hlist

def insertedId : AuthPhase → Option String
  | .inserting user _ => some user.id
  | _ => none

theorem inserting_ne {storage : UserStorage} {w : AuthWorld storage.Users} {id : String}
    (h : ∀ call ∈ w.calls.rows, insertedId call.phase ≠ some id) :
    ∀ other user password, w.phase other = some (.inserting user password) → user.id ≠ id := by
  rintro other user password hphase rfl
  obtain ⟨call, hcall, hinserting⟩ := Option.map_eq_some_iff.mp hphase
  refine h call (Table.mem_rows_of_get? hcall) ?_
  rw [hinserting]
  rfl

/-- Two registrations of one address race, and the second insertion is refused. -/
def race : List AuthStep :=
  [.register 1 "Ann@b.co" "password1", .find 1, .register 2 " ann@B.co" "password2", .find 2,
    .hash 1 "u1" 2 1000, .hash 2 "u2" 0 1000, .insert 1 (.lost "TIMEOUT"), .insert 2 .done]

def login : List AuthStep := [.login 3 "ann@b.co" "password1", .look 3, .compare 3 5000]

theorem admits_race (storage : UserStorage) : Admits ports storage race := by
  cases storage <;>
  exact ⟨⟨rfl, trivial⟩, ⟨⟨_, _, rfl⟩, trivial⟩, ⟨rfl, trivial⟩, ⟨⟨_, _, rfl⟩, trivial⟩,
    ⟨⟨⟨_, _, rfl⟩, by decide, nofun, inserting_ne (by decide)⟩, trivial⟩,
    ⟨⟨⟨_, _, rfl⟩, by decide, nofun, inserting_ne (by decide)⟩, trivial⟩,
    ⟨⟨_, _, rfl⟩, trivial⟩, ⟨⟨_, _, rfl⟩, trivial⟩, trivial⟩

theorem admits_login (storage : UserStorage) : Admits ports storage (race ++ login) := by
  refine GuardedSystem.legal_append.mpr ⟨admits_race storage, ?_⟩
  cases storage <;>
  exact ⟨⟨rfl, trivial⟩, ⟨⟨_, _, rfl⟩, trivial⟩, ⟨⟨_, _, rfl⟩, trivial⟩, trivial⟩

/-- A login by a registered address, while somebody else registers. -/
def asked (password : String) : List AuthStep :=
  race ++ .login 3 " Ann@b.co" password :: ([.register 4 "bob@b.co" "password4"] ++ [.look 3])

def compared (password : String) : List AuthStep :=
  asked password ++ ([.find 4] ++ [.compare 3 5000])

theorem admits_asked (password : String) : Admits ports .postgres (asked password) :=
  GuardedSystem.legal_append.mpr ⟨admits_race .postgres, ⟨rfl, trivial⟩, ⟨rfl, trivial⟩,
    ⟨⟨_, _, rfl⟩, trivial⟩, trivial⟩

theorem admits_compared :
    ∀ password ∈ ["password1", "password2"], Admits ports .postgres (compared password) := by
  intro password hpassword
  refine GuardedSystem.legal_append.mpr ⟨admits_asked password, ?_⟩
  rcases List.mem_pair.mp hpassword with rfl | rfl
  · exact ⟨⟨⟨_, _, rfl⟩, trivial⟩, ⟨⟨_, _, rfl⟩, trivial⟩, trivial⟩
  · exact ⟨⟨⟨_, _, rfl⟩, trivial⟩, ⟨⟨_, _, rfl⟩, trivial⟩, trivial⟩

def token : String := ports.sign "u1" 5

theorem unforged (storage : UserStorage) : ∀ header ∈ some (bearerPrefix ++ token),
    ∀ subject issuedAt, bearerToken header = ports.sign subject issuedAt →
      ∃ session ∈ (reached ports storage (race ++ login)).sessions,
        session.token = bearerToken header := by
  rintro header hheader - - -
  cases hheader
  cases storage <;> exact ⟨_, List.mem_cons_self, by decide⟩

end Sample

theorem register_once_raced :
    (reached Sample.ports .postgres Sample.race).phase 2 =
        some (.registered (.error (.exception emailTaken))) ∧
      OneAccountEach Sample.ports .postgres (reached Sample.ports .postgres Sample.race) ∧
      UserStorage.postgres.list (reached Sample.ports .postgres Sample.race).users <+:
        UserStorage.postgres.list
          (reached Sample.ports .postgres (Sample.race ++ Sample.login)).users :=
  ⟨rfl, register_once Sample.ports .postgres _ _ (Sample.admits_login .postgres)⟩

theorem authenticate_sound_raced :
    ∃ session ∈ (reached Sample.ports .inMemory (Sample.race ++ Sample.login)).sessions,
      ∃ r ∈ (reached Sample.ports .inMemory (Sample.race ++ Sample.login)).registrations,
        r.user ∈ UserStorage.inMemory.list
          (reached Sample.ports .inMemory (Sample.race ++ Sample.login)).users ∧ r.user.id = "u1" ∧
        session.user = r.user ∧ session.password = r.password ∧
        seconds 3604000 < seconds session.issuedAt + tokenLifetime :=
  authenticate_sound Sample.lawful (Sample.admits_login .inMemory)
    (by decide : authenticate Sample.ports (some (bearerPrefix ++ Sample.token)) 3604000 = .ok "u1")
    (Sample.unforged .inMemory)

theorem login_authenticates_raced :
    ((reached Sample.ports .postgres (Sample.asked "short")).phase 3 =
        some (.loggedIn (.error (.exception passwordInvalid)))) ∧
      ((reached Sample.ports .postgres (Sample.compared "password2")).phase 3 =
        some (.loggedIn (.error (.exception badCredentials)))) ∧
      ∃ token, (reached Sample.ports .postgres (Sample.compared "password1")).phase 3 =
          some (.loggedIn (.ok token)) ∧
        authenticate Sample.ports (some (bearerPrefix ++ token)) 3604999 = .ok "u1" ∧
        authenticate Sample.ports (some (bearerPrefix ++ token)) 3605000 =
          .error (authHttpError tokenInvalid) := by
  have hlogin : ∀ password, _ := fun password =>
    @login_authenticates Sample.ports .postgres Eq Sample.lawful Sample.race
      [.register 4 "bob@b.co" "password4"] 3 " Ann@b.co" password
      ⟨1, ⟨"u1", "ann@b.co", Sample.ports.hash "password1" 2, 1000⟩, "password1"⟩
      (Sample.admits_asked password) (by decide) (by decide) (by decide)
  refine ⟨(hlogin "short").1 (by decide), ?_, ?_⟩
  · obtain ⟨answer, hphase, hwrong, -⟩ := (hlogin "password2").2 (by decide) (by decide) [.find 4]
      5000 (Sample.admits_compared "password2" (by simp)) (by decide)
    rw [hwrong (by decide)] at hphase
    exact hphase
  · obtain ⟨answer, hphase, -, hright⟩ := (hlogin "password1").2 (by decide) (by decide) [.find 4]
      5000 (Sample.admits_compared "password1" (by simp)) (by decide)
    obtain ⟨token, rfl, htoken⟩ := hright rfl
    exact ⟨token, hphase, htoken 3604999, htoken 3605000⟩

end Cryptox.Auth
