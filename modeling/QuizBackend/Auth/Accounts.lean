import QuizBackend.Common.Slug
import QuizBackend.Lib.Run
import QuizBackend.Lib.Table
import QuizBackend.Lib.UniqueTable

/-!
# Accounts and linked identities (`auth-registration.service.ts`, `oauth-login.service.ts`)

An account begins with a registration, and is then unverified, or with the first login of an identity
of the OAuth provider. It is verified by a token mailed to its address. A login whose address the
provider vouches for is linked to the verified account with this address.

Every statement is a step, and so are the two transactions that write an account or a link. A read
decides what is written later, so the account may have changed in between. A login that knows its
account is answered when it has a session, which is a step of its own (`signing`): neither the rate
limit nor the session looks at the account again.

The hash of a token and what `toLowerCase` does beyond ASCII are parameters. The rate limits that come
before the first read, password hashes, outbox events and what is in a session are left out. So is
`updated_at`.
-/

namespace QuizBackend.Auth.Accounts

open Lib Common

/-! ## Tables -/

/-- The providers there are adapters for. -/
inductive OAuthProvider where
  | google
  deriving DecidableEq

/-- A row of `users`, as far as accounts and their verification are concerned. -/
structure UserRow where
  userId : String
  email : String
  username : String
  isVerified : Bool := false
  emailVerificationTokenHash : Option String := none
  emailVerificationExpiresAt : Option Int := none
  emailVerifiedAt : Option Int := none
  deletedAt : Option Int := none
  deriving DecidableEq

/-- A row of `oauth_accounts`: the link of an identity to an account. -/
structure OAuthAccountRow where
  oauthAccountId : String
  userId : String
  provider : OAuthProvider
  providerUserId : String
  deriving DecidableEq

/-- The entry in `uq_oauth_accounts_provider_provider_user_id`. -/
def OAuthAccountRow.identity (a : OAuthAccountRow) : Option (OAuthProvider × String) :=
  some (a.provider, a.providerUserId)

/-- A verification mail, as it is enqueued. -/
structure Mail where
  email : String
  rawToken : String
  userId : String
  deriving DecidableEq

/-- `issued` is a ghost: the tokens that were hashed for an account. -/
structure Db where
  users : Table String UserRow (·.userId)
  oauthAccounts : UniqueTable String (OAuthProvider × String) OAuthAccountRow (·.oauthAccountId)
    OAuthAccountRow.identity
  mailbox : List Mail
  issued : List (String × String)

/-- What the provider says of who is signing in. -/
structure OAuthUserInfo where
  providerUserId : String
  email : String
  emailVerified : Bool
  deriving DecidableEq

/-- The parameters, and how long a token is good for. -/
structure Config where
  beyond : Mapping
  hashSha256 : String → String
  tokenTtlSeconds : Int

/-- `email.trim().toLowerCase()`. -/
def normalizeEmail (beyond : Mapping) (email : String) : String := toLowerCase beyond (trim email)

def normalizeUsername (beyond : Mapping) (username : String) : String :=
  toLowerCase beyond (trim username)

/-- The local part is cut where an `@` stands first. -/
def deriveOAuthUsername (beyond : Mapping) (email preGeneratedUserId : String) : String :=
  let kept := (toLowerCase beyond (String.ofList (email.toList.takeWhile (· ≠ '@')))).toList.filter
    fun c => c.isLower || c.isDigit || c == '_'
  let compactId := String.ofList ((preGeneratedUserId.toList.filter (· ≠ '-')).take 8)
  let base := String.ofList (kept.take 22)
  if base.isEmpty then "user_" ++ compactId else base ++ "_" ++ compactId

/-- The `CHECK`s on the address and the name. -/
def UserRow.checks (u : UserRow) : Bool :=
  3 ≤ u.email.length && u.email.length ≤ 255 && u.email.toList.contains '@' &&
    u.email.toList.head? != some '@' && 3 ≤ u.username.length && u.username.length ≤ 50

namespace Db

/-- The undeleted account with the address. -/
def findActiveByEmail (db : Db) (email : String) : Option UserRow :=
  db.users.rows.find? fun u => u.deletedAt.isNone && u.email == email

/-- The account, unless it is deleted. -/
def findActiveIdentityById (db : Db) (userId : String) : Option UserRow :=
  (db.users.find? userId).filter (·.deletedAt.isNone)

/-- The unverified account that waits for a token that hashes like this and has not expired. -/
def findUserByActiveVerificationToken (db : Db) (tokenHash : String) (now : Int) : Option UserRow :=
  db.users.rows.find? fun u => u.deletedAt.isNone && !u.isVerified &&
    u.emailVerificationTokenHash == some tokenHash && u.emailVerificationExpiresAt.any (now < ·)

/-- The link of an identity. -/
def findByProviderAndProviderUserId (db : Db) (provider : OAuthProvider) (providerUserId : String) :
    Option OAuthAccountRow :=
  (db.oauthAccounts.rows.find? (·.providerUserId == providerUserId)).filter (·.provider = provider)

/-- Refused by the checks and by `uq_users_email_active` and `uq_users_username_active`. -/
def insertUser? (db : Db) (row : UserRow) : Option Db :=
  if !row.checks || db.users.rows.any fun u => u.deletedAt.isNone &&
      (u.email == row.email || u.username == row.username) then none
  else (db.users.insert? row).map fun users => { db with users }

/-- Refused by the index above and by `uq_oauth_accounts_user_id_provider`. -/
def insertLink? (db : Db) (row : OAuthAccountRow) : Option Db :=
  if db.oauthAccounts.rows.any fun a => a.userId == row.userId && decide (a.provider = row.provider)
  then none
  else (db.oauthAccounts.insert? row).map fun oauthAccounts => { db with oauthAccounts }

/-- `UPDATE users SET … WHERE user_id = userId AND deleted_at IS NULL`. -/
def updateActive (db : Db) (userId : String) (set : UserRow → UserRow)
    (hset : ∀ u, (set u).userId = u.userId) : Db :=
  { db with
    users := db.users.modify userId (fun u => if u.deletedAt.isNone then set u else u) fun u => by
      split
      · exact hset u
      · rfl }

def setEmailVerificationToken (db : Db) (userId tokenHash : String) (expiresAt : Int) : Db :=
  db.updateActive userId (fun u => { u with
    emailVerificationTokenHash := some tokenHash, emailVerificationExpiresAt := some expiresAt })
    fun _ => rfl

def markEmailAsVerified (db : Db) (userId : String) (now : Int) : Db :=
  db.updateActive userId (fun u => { u with
    isVerified := true, emailVerifiedAt := some now, emailVerificationTokenHash := none,
    emailVerificationExpiresAt := none }) fun _ => rfl

/-- A token is hashed for an account. -/
def issue (db : Db) (userId rawToken : String) : Db :=
  { db with issued := db.issued ++ [(userId, rawToken)] }

def mail (db : Db) (enqueued : Bool) (m : Mail) : Db :=
  { db with mailbox := db.mailbox ++ if enqueued then [m] else [] }

/-- The `UPDATE` of `deleteAccountAndRevokeSessions`; the link stays. -/
def deleteAccount (db : Db) (userId : String) (now : Int) : Db :=
  db.updateActive userId (fun u => { u with deletedAt := some now }) fun _ => rfl

end Db

/-! ## Requests -/

/-- What a request ends with otherwise; `database` is whatever a statement is refused with. -/
inductive AuthError where
  | rateLimitExceeded
  | failedToCreateUser
  | invalidCredentials
  | invalidOAuthToken
  | oAuthAccountLinkingRequired
  | database
  deriving DecidableEq

/-- The requests that read or write accounts and links. -/
inductive Request where
  | register (email username : String)
  | verifyEmail (token : String)
  | resendVerificationEmail (email : String)
  | login (email : String)
  | oauthLogin (provider : OAuthProvider) (claims : OAuthUserInfo)
  | deleteAccount (userId : String)
  deriving DecidableEq

/-- How far a request is, and what it has read. -/
inductive Phase where
  | begun
  | creating
  | issuing (userId email : String)
  | mailing (userId email rawToken : String)
  | marking (userId : String)
  | linkFound (userId : String)
  | unlinked
  | linking (userId : String)
  | signing (userId : String)
  | deleting
  | doomed
  deriving DecidableEq

/-- A request under way. -/
structure Call where
  callId : String
  request : Request
  phase : Phase

/-- The account a login is answered with, if any. -/
abbrev Answer := Except AuthError (Option String)

/-- The database, the requests under way and what has been answered. `begun` is a ghost. -/
structure System where
  db : Db
  calls : Table String Call (·.callId)
  answers : List (Request × Answer)
  begun : List Request

/-- What a statement is given: the time, fresh keys and a random token, whether the password is right,
whether the slot for a mail at a login is free, whether the queue of mails takes one, and what the rate
limit of an account or its session throws, if anything. -/
structure Input where
  now : Int := 0
  userId : String := ""
  oauthAccountId : String := ""
  generatedId : String := ""
  rawToken : String := ""
  passwordValid : Bool := true
  slot : Bool := true
  enqueued : Bool := true
  thrown : Option AuthError := none

/-- The account `register` creates. -/
def registered (cfg : Config) (i : Input) (email username : String) : UserRow where
  userId := i.userId
  email := normalizeEmail cfg.beyond email
  username := normalizeUsername cfg.beyond username

/-- One transaction: the account, which is verified from the start, and its link. -/
def createOAuthUserWithLink (cfg : Config) (db : Db) (i : Input) (provider : OAuthProvider)
    (claims : OAuthUserInfo) : Option Db :=
  (db.insertUser? {
    userId := i.userId
    email := toLowerCase cfg.beyond claims.email
    username := deriveOAuthUsername cfg.beyond claims.email i.generatedId
    isVerified := true }).bind fun db =>
      db.insertLink? ⟨i.oauthAccountId, i.userId, provider, claims.providerUserId⟩

/-- A request comes in, or one under way runs its next statement. -/
inductive Action where
  | begin (callId : String) (request : Request)
  | run (callId : String) (input : Input)

namespace System

/-- No account, no link, no request. -/
def empty : System := ⟨⟨.empty _, .empty _ _, [], []⟩, .empty _, [], []⟩

/-- The request is over. -/
def answer (s : System) (c : Call) (result : Answer) : System :=
  { s with calls := s.calls.erase c.callId, answers := s.answers ++ [(c.request, result)] }

/-- The request goes on. -/
def advance (s : System) (c : Call) (phase : Phase) : System :=
  { s with calls := s.calls.modify c.callId (fun c => { c with phase }) fun _ => rfl }

/-- `issueAndSendVerificationToken` is done. A login was answered before it began. -/
def conclude (s : System) (c : Call) : System :=
  match c.request with
  | .login _ => { s with calls := s.calls.erase c.callId }
  | _ => s.answer c (.ok none)

/-- What `register` and `resendVerificationEmail` do with the account they find. -/
def issueTo (s : System) (c : Call) (u : UserRow) : System :=
  if u.isVerified then s.answer c (.ok none) else s.advance c (.issuing u.userId u.email)

/-- What `login` does with the account it finds. An unverified one is mailed a new token, after the
answer. -/
def loginOf (s : System) (c : Call) (i : Input) (u : UserRow) : System :=
  match i.thrown with
  | some e => s.answer c (.error e)
  | none =>
    if u.isVerified then
      if i.passwordValid then s.advance c (.signing u.userId)
      else s.answer c (.error .invalidCredentials)
    else if i.slot then
      { s.advance c (.issuing u.userId u.email) with
        answers := s.answers ++ [(c.request, .error .invalidCredentials)] }
    else s.answer c (.error .invalidCredentials)

/-- What `oauthLogin` does with the account it finds by the address. -/
def linkTo (s : System) (c : Call) (u : UserRow) : System :=
  if u.isVerified then s.advance c (.linking u.userId)
  else s.answer c (.error .oAuthAccountLinkingRequired)

/-- The next statement of a request. -/
def next (cfg : Config) (s : System) (c : Call) (i : Input) : Option System :=
  match c.phase, c.request with
  | .begun, .register email _ =>
    some (((s.db.findActiveByEmail (normalizeEmail cfg.beyond email)).map (s.issueTo c)).getD
      (s.advance c .creating))
  | .creating, .register email username =>
    match s.db.insertUser? (registered cfg i email username) with
    | none => some (s.answer c (.error .failedToCreateUser))
    | some db => some { s.advance c (.issuing i.userId (normalizeEmail cfg.beyond email)) with db }
  | .begun, .resendVerificationEmail email =>
    some (((s.db.findActiveByEmail (normalizeEmail cfg.beyond email)).map (s.issueTo c)).getD
      (s.answer c (.ok none)))
  | .begun, .login email =>
    some (((s.db.findActiveByEmail (normalizeEmail cfg.beyond email)).map (s.loginOf c i)).getD
      (s.answer c (.error .invalidCredentials)))
  | .issuing userId email, _ =>
    some { s.advance c (.mailing userId email i.rawToken) with
      db := (s.db.issue userId i.rawToken).setEmailVerificationToken userId (cfg.hashSha256 i.rawToken)
        (i.now + cfg.tokenTtlSeconds * 1000) }
  | .mailing userId email rawToken, _ =>
    some { s.conclude c with db := s.db.mail i.enqueued ⟨email, rawToken, userId⟩ }
  | .begun, .verifyEmail token =>
    match s.db.findUserByActiveVerificationToken (cfg.hashSha256 token) i.now with
    | none => some (s.answer c (.ok none))
    | some u => some (s.advance c (.marking u.userId))
  | .marking userId, .verifyEmail _ =>
    some { s.answer c (.ok none) with db := s.db.markEmailAsVerified userId i.now }
  | .begun, .oauthLogin provider claims =>
    match s.db.findByProviderAndProviderUserId provider claims.providerUserId with
    | none => some (s.advance c .unlinked)
    | some a => some (s.advance c (.linkFound a.userId))
  | .linkFound userId, .oauthLogin .. =>
    match s.db.findActiveIdentityById userId with
    | none => some (s.advance c .unlinked)
    | some u => some (s.advance c (.signing u.userId))
  | .unlinked, .oauthLogin _ claims =>
    some (((s.db.findActiveByEmail (toLowerCase cfg.beyond claims.email)).map (s.linkTo c)).getD
      (s.advance c .creating))
  | .linking userId, .oauthLogin provider claims =>
    match s.db.insertLink? ⟨i.oauthAccountId, userId, provider, claims.providerUserId⟩ with
    | none => some (s.answer c (.error .database))
    | some db => some { s.advance c (.signing userId) with db }
  | .creating, .oauthLogin provider claims =>
    match createOAuthUserWithLink cfg s.db i provider claims with
    | none => some (s.answer c (.error .database))
    | some db => some { s.advance c (.signing i.userId) with db }
  | .signing userId, _ =>
    some (s.answer c ((i.thrown.map Except.error).getD (.ok (some userId))))
  | .begun, .deleteAccount userId =>
    if (s.db.findActiveIdentityById userId).isSome && i.passwordValid then some (s.advance c .deleting)
    else some (s.answer c (.error .invalidCredentials))
  | .deleting, .deleteAccount userId =>
    if (s.db.findActiveIdentityById userId).isSome then some (s.advance c .doomed)
    else some (s.answer c (.error .invalidCredentials))
  | .doomed, .deleteAccount userId =>
    some { s.answer c (.ok none) with db := s.db.deleteAccount userId i.now }
  | _, _ => none

/-- `resolve` throws when the provider does not vouch for the address. -/
def begin (s : System) (callId : String) (request : Request) : Option System :=
  (s.calls.insert? ⟨callId, request, .begun⟩).map fun calls =>
    match request with
    | .oauthLogin _ claims =>
      if claims.emailVerified then { s with calls, begun := s.begun ++ [request] }
      else { s with answers := s.answers ++ [(request, .error .invalidOAuthToken)] }
    | _ => { s with calls, begun := s.begun ++ [request] }

/-- A step of the system, if it can be made. -/
def step (cfg : Config) (s : System) : Action → Option System
  | .begin callId request => s.begin callId request
  | .run callId input => (s.calls.find? callId).bind fun c => s.next cfg c input

end System

end QuizBackend.Auth.Accounts
