import Cryptox.Library.GuardedSystem
import Cryptox.Library.Outcome
import Cryptox.Library.PortAnswer
import Cryptox.Library.Table
import Cryptox.Strategy.Contracts

/-!
# Accounts and tokens

`register` looks an address up, hashes the password and inserts the user; `login` looks the address
up, compares the password and signs a token; `verify` reads a token. Calls run beside each other and
wait at each await, where their port may throw or the process may stop.
-/
namespace Cryptox.Auth

open Cryptox.Library
open Cryptox.Backtesting (isJsSpace)
open Cryptox.Strategy (trim)

inductive AuthErrorCode where
  | emailAlreadyExists | invalidCredentials | invalidToken | validationError
deriving DecidableEq, Repr

structure AuthException where
  code : AuthErrorCode
  message : String
deriving DecidableEq, Repr

/-- What is thrown: an exception of the module, an error code of the database, or anything else. -/
inductive AuthError where
  | exception (exception : AuthException)
  | sql (code : String)
  | other (message : String)
deriving DecidableEq, Repr

def emailTaken : AuthException := ⟨.emailAlreadyExists, "Email is already registered."⟩

def badCredentials : AuthException := ⟨.invalidCredentials, "Email or password is incorrect."⟩

def tokenRequired : AuthException := ⟨.invalidToken, "JWT is required."⟩

def tokenInvalid : AuthException := ⟨.invalidToken, "JWT is invalid or expired."⟩

def emailInvalid : AuthException := ⟨.validationError, "Email must be valid."⟩

def passwordInvalid : AuthException :=
  ⟨.validationError, "Password must be between 8 and 128 characters."⟩

structure User where
  id : String
  email : String
  passwordHash : String
  createdAt : Int
deriving DecidableEq, Repr

/-- What the module is given. A hash is made with a salt; a token is signed, and expires, at whole
seconds. -/
structure AuthPorts where
  toLowerCase : String → String
  hash : String → Nat → String
  compare : String → String → Bool
  sign : String → Int → String
  subjectAt : String → Int → Option String

/-- The length in UTF-16 code units. -/
def codeUnits (text : String) : Nat :=
  (text.toList.map fun c => if c.toNat < 0x10000 then 1 else 2).sum

def isEmailChar (c : Char) : Bool := !isJsSpace c && c != '@'

/-- `emailPattern`: a local part, one at sign, and a domain with a dot inside. -/
def matchesEmailPattern (text : List Char) : Bool :=
  let localPart := text.takeWhile isEmailChar
  match text.dropWhile isEmailChar with
  | '@' :: domain =>
    !localPart.isEmpty && domain.all isEmailChar && (domain.drop 1).dropLast.contains '.'
  | _ => false

/-- Tokens last an hour. -/
def tokenLifetime : Int := 3600

def seconds (now : Int) : Int := now / 1000

section Rules

variable (ports : AuthPorts)

def normalizeEmail (email : String) : Except AuthException String := do
  let normalized := ports.toLowerCase (trim email)
  throwIf (!matchesEmailPattern normalized.toList || 254 < codeUnits normalized) emailInvalid
  return normalized

def validatePassword (password : String) : Except AuthException String := do
  throwIf (codeUnits password < 8 || 128 < codeUnits password) passwordInvalid
  return password

def validateToken (token : String) : Except AuthException String := do
  throwIf (trim token).isEmpty tokenRequired
  return trim token

def verify (token : String) (now : Int) : Except AuthException String := do
  let token ← validateToken token
  match ports.subjectAt token (seconds now) with
  | some userId => return userId
  | none => .error tokenInvalid

structure HttpException where
  status : Nat
  message : String
deriving DecidableEq, Repr

def authHttpError (exception : AuthException) : HttpException :=
  match exception.code with
  | .emailAlreadyExists => ⟨409, exception.message⟩
  | .invalidCredentials | .invalidToken => ⟨401, exception.message⟩
  | .validationError => ⟨400, exception.message⟩

def bearerPrefix : String := "Bearer "

def bearerRequired : HttpException := ⟨401, "Bearer token is required."⟩

/-- Who a request comes from, by its `Authorization` header. -/
def authenticate (authorization : Option String) (now : Int) : Except HttpException String :=
  match authorization with
  | none => .error bearerRequired
  | some header =>
    if bearerPrefix.toList.isPrefixOf header.toList then
      (verify ports (String.ofList (header.toList.drop bearerPrefix.length)) now).mapError authHttpError
    else .error bearerRequired

end Rules

/-! The two repositories. -/

structure UserRepository (σ : Type) where
  empty : σ
  insert : σ → User → Except AuthError σ
  findByEmail : σ → String → Option User

abbrev MemoryUsers := Table User.email

def MemoryUsers.insert (usersByEmail : MemoryUsers) (user : User) : Except AuthError MemoryUsers := do
  throwIf (usersByEmail.get? user.email).isSome (.exception emailTaken)
  return usersByEmail.put user

abbrev UserRows := Table User.id

def uniqueViolation : String := "23505"

/-- The primary key and the unique address are checked by the database. -/
def UserRows.insert (rows : UserRows) (user : User) : Except AuthError UserRows := do
  throwIf ((rows.get? user.id).isSome || rows.rows.any (·.email == user.email))
    (.sql uniqueViolation)
  return rows.put user

inductive UserStorage where
  | inMemory | postgres
deriving DecidableEq, Repr

abbrev UserStorage.Users : UserStorage → Type
  | inMemory => MemoryUsers
  | postgres => UserRows

def UserStorage.repository : (storage : UserStorage) → UserRepository storage.Users
  | inMemory => ⟨Table.empty, MemoryUsers.insert, fun users email => users.get? email⟩
  | postgres => ⟨Table.empty, UserRows.insert, fun rows email => rows.rows.find? (·.email == email)⟩

def isDuplicateError : AuthError → Bool
  | .exception exception => exception.code == .emailAlreadyExists
  | .sql code => code == uniqueViolation
  | .other _ => false

/-! Calls. -/

inductive AuthPhase where
  | finding (email password : String)
  | hashing (email password : String)
  | inserting (user : User) (password : String)
  | registered (answer : Except AuthError Unit)
  | looking (email password : String)
  | comparing (user : User) (password : String)
  | loggedIn (answer : Except AuthError String)
  | stopped

structure AuthCall where
  callId : Nat
  phase : AuthPhase

/-- An insertion that has landed. -/
structure Registration where
  callId : Nat
  user : User
  password : String
deriving DecidableEq, Repr

/-- A token that was signed. -/
structure Session where
  callId : Nat
  user : User
  password : String
  issuedAt : Int
  token : String
deriving DecidableEq, Repr

/-- The users, the calls, the insertions that have landed and the tokens that were signed, the latest
first. -/
structure AuthWorld (σ : Type) where
  users : σ
  calls : Table AuthCall.callId
  registrations : List Registration
  sessions : List Session

inductive AuthStep where
  | register (callId : Nat) (email password : String)
  | find (callId : Nat)
  | hash (callId : Nat) (id : String) (salt : Nat) (now : Int)
  | insert (callId : Nat) (answer : PortAnswer)
  | login (callId : Nat) (email password : String)
  | look (callId : Nat)
  | compare (callId : Nat) (now : Int)
  | fail (callId : Nat) (error : String)
  | stop (callId : Nat)

/-- The call a step belongs to. -/
def AuthStep.callId : AuthStep → Nat
  | register callId .. | find callId | hash callId .. | insert callId _ | login callId ..
  | look callId | compare callId _ | fail callId _ | stop callId => callId

namespace AuthWorld

variable {σ : Type}

def start (repository : UserRepository σ) : AuthWorld σ := ⟨repository.empty, Table.empty, [], []⟩

def phase (w : AuthWorld σ) (callId : Nat) : Option AuthPhase :=
  (w.calls.get? callId).map AuthCall.phase

def setPhase (w : AuthWorld σ) (callId : Nat) (phase : AuthPhase) : AuthWorld σ :=
  { w with calls := w.calls.put ⟨callId, phase⟩ }

section

variable (ports : AuthPorts) (repository : UserRepository σ)

def registerStep (w : AuthWorld σ) (callId : Nat) (email password : String) : AuthWorld σ :=
  let checked := do
    let email ← normalizeEmail ports email
    let password ← validatePassword password
    return (email, password)
  w.setPhase callId (match checked with
    | .ok (email, password) => .finding email password
    | .error exception => .registered (.error (.exception exception)))

def findStep (w : AuthWorld σ) (callId : Nat) (email password : String) : AuthWorld σ :=
  w.setPhase callId
    (if (repository.findByEmail w.users email).isSome then
      .registered (.error (.exception emailTaken))
    else .hashing email password)

/-- What `register` throws for an error of the insertion. -/
def insertFailure (error : AuthError) : AuthError :=
  if isDuplicateError error then .exception emailTaken else error

def insertStep (w : AuthWorld σ) (callId : Nat) (user : User) (password : String)
    (answer : PortAnswer) : AuthWorld σ :=
  match answer with
  | .failed error => w.setPhase callId (.registered (.error (.other error)))
  | .done | .lost _ =>
    match repository.insert w.users user with
    | .error error => w.setPhase callId (.registered (.error (insertFailure error)))
    | .ok users =>
      { w with users, registrations := ⟨callId, user, password⟩ :: w.registrations }.setPhase callId
        (.registered (match answer.error? with
          | none => .ok ()
          | some error => .error (.other error)))

def loginStep (w : AuthWorld σ) (callId : Nat) (email password : String) : AuthWorld σ :=
  w.setPhase callId (match normalizeEmail ports email with
    | .ok email => .looking email password
    | .error exception => .loggedIn (.error (.exception exception)))

/-- The password is checked only once the user is found. -/
def lookStep (w : AuthWorld σ) (callId : Nat) (email password : String) : AuthWorld σ :=
  w.setPhase callId (match repository.findByEmail w.users email with
    | none => .loggedIn (.error (.exception badCredentials))
    | some user =>
      match validatePassword password with
      | .ok password => .comparing user password
      | .error exception => .loggedIn (.error (.exception exception)))

def compareStep (w : AuthWorld σ) (callId : Nat) (user : User) (password : String) (now : Int) :
    AuthWorld σ :=
  if ports.compare password user.passwordHash then
    let token := ports.sign user.id (seconds now)
    { w with sessions := ⟨callId, user, password, now, token⟩ :: w.sessions }.setPhase callId
      (.loggedIn (.ok token))
  else w.setPhase callId (.loggedIn (.error (.exception badCredentials)))

/-- A port throws. -/
def failed : AuthPhase → String → AuthPhase
  | .finding .., error | .hashing .., error | .inserting .., error | .registered _, error =>
    .registered (.error (.other error))
  | .looking .., error | .comparing .., error | .loggedIn _, error =>
    .loggedIn (.error (.other error))
  | .stopped, _ => .stopped

def Waits : AuthPhase → Prop
  | .finding .. | .hashing .. | .inserting .. | .looking .. | .comparing .. => True
  | .registered _ | .loggedIn _ | .stopped => False

/-- Ids of calls and of users are new; a call goes on where it stands. -/
def enabled (w : AuthWorld σ) : AuthStep → Prop
  | .register callId .. | .login callId .. => w.phase callId = none
  | .find callId => ∃ email password, w.phase callId = some (.finding email password)
  | .hash callId id .. => (∃ email password, w.phase callId = some (.hashing email password)) ∧
      id ≠ "" ∧ (∀ r ∈ w.registrations, r.user.id ≠ id) ∧
      ∀ other user password, w.phase other = some (.inserting user password) → user.id ≠ id
  | .insert callId _ => ∃ user password, w.phase callId = some (.inserting user password)
  | .look callId => ∃ email password, w.phase callId = some (.looking email password)
  | .compare callId _ => ∃ user password, w.phase callId = some (.comparing user password)
  | .fail callId _ | .stop callId => ∃ phase, w.phase callId = some phase ∧ Waits phase

def next (w : AuthWorld σ) : AuthStep → AuthWorld σ
  | .register callId email password => w.registerStep ports callId email password
  | .find callId =>
    match w.phase callId with
    | some (.finding email password) => w.findStep repository callId email password
    | _ => w
  | .hash callId id salt now =>
    match w.phase callId with
    | some (.hashing email password) =>
      w.setPhase callId (.inserting ⟨id, email, ports.hash password salt, now⟩ password)
    | _ => w
  | .insert callId answer =>
    match w.phase callId with
    | some (.inserting user password) => w.insertStep repository callId user password answer
    | _ => w
  | .login callId email password => w.loginStep ports callId email password
  | .look callId =>
    match w.phase callId with
    | some (.looking email password) => w.lookStep repository callId email password
    | _ => w
  | .compare callId now =>
    match w.phase callId with
    | some (.comparing user password) => w.compareStep ports callId user password now
    | _ => w
  | .fail callId error =>
    match w.phase callId with
    | some phase => w.setPhase callId (failed phase error)
    | none => w
  | .stop callId => w.setPhase callId .stopped

def system : GuardedSystem (AuthWorld σ) AuthStep := ⟨enabled, next ports repository⟩

end

end AuthWorld

end Cryptox.Auth
