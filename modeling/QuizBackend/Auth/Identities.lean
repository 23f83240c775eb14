import QuizBackend.Auth.Accounts

/-!
# Who may sign in as whom

Rows of `users` and `oauth_accounts` are never removed, an address never changes, and what is verified
or deleted stays so (`Db.Grows`). So what a request has read of an account still holds when it writes
(`Backed`), whatever has happened in between, and no run leads to a link that takes over an account
(`linked_accounts_verified`) or to a verified account whose owner has shown nothing
(`verified_accounts_owned`). For the same reason an identity that is linked to a deleted account does
not come to an account again: only a login that had found the account before may still be answered with
it, for the session that it waits for does not ask (`severed_identity_never_signs_in`).
-/

namespace QuizBackend.Auth.Accounts

open Lib Common Table Db UniqueTable

/-! ## What lasts -/

/-- What may become of an account. -/
structure UserRow.Grows (u u' : UserRow) : Prop where
  userId : u'.userId = u.userId
  email : u'.email = u.email
  verified : u.isVerified = true → u'.isVerified = true
  deleted : u.deletedAt.isSome = true → u'.deletedAt.isSome = true

theorem UserRow.Grows.refl (u : UserRow) : u.Grows u := ⟨rfl, rfl, id, id⟩

/-- What may become of the tables: no row and no token that was issued is lost. -/
structure Db.Grows (db db' : Db) : Prop where
  users : ∀ u ∈ db.users.rows, ∃ u' ∈ db'.users.rows, u.Grows u'
  links : ∀ a ∈ db.oauthAccounts.rows, a ∈ db'.oauthAccounts.rows
  issued : ∀ p ∈ db.issued, p ∈ db'.issued

theorem Db.Grows.refl (db : Db) : db.Grows db := ⟨fun u hu => ⟨u, hu, .refl u⟩, fun _ h => h, fun _ h => h⟩

theorem Db.grows_issue (db : Db) (userId rawToken : String) : db.Grows (db.issue userId rawToken) :=
  ⟨fun u hu => ⟨u, hu, .refl u⟩, fun _ h => h, fun _ => List.mem_append_left _⟩

/-- There is such an account. -/
def Db.Has (db : Db) (userId : String) (P : UserRow → Prop) : Prop :=
  ∃ u ∈ db.users.rows, u.userId = userId ∧ P u

variable {cfg : Config} {db db' : Db} {s s' t : System} {c : Call} {userId email : String}
  {begun begun' : List Request} {P : UserRow → Prop}

theorem Db.Grows.trans {db'' : Db} (h : db.Grows db') (h' : db'.Grows db'') : db.Grows db'' := by
  refine ⟨fun u hu => ?_, fun a ha => h'.links a (h.links a ha), fun p hp => h'.issued p (h.issued p hp)⟩
  obtain ⟨v, hv, huv⟩ := h.users u hu
  obtain ⟨w, hw, hvw⟩ := h'.users v hv
  exact ⟨w, hw, hvw.userId.trans huv.userId, hvw.email.trans huv.email, hvw.verified ∘ huv.verified,
    hvw.deleted ∘ huv.deleted⟩

theorem Db.Has.mono (h : db.Has userId P) (hg : db.Grows db')
    (hP : ∀ u u' : UserRow, u.Grows u' → P u → P u') : db'.Has userId P := by
  obtain ⟨u, hu, rfl, hPu⟩ := h
  obtain ⟨u', hu', hgrows⟩ := hg.users u hu
  exact ⟨u', hu', hgrows.userId, hP u u' hgrows hPu⟩

/-- What a request has read is still so. -/
def Backed (cfg : Config) (db : Db) (c : Call) : Prop :=
  match c.phase, c.request with
  | .issuing userId email, _ => db.Has userId (·.email = email)
  | .mailing userId email rawToken, _ => db.Has userId (·.email = email) ∧ (userId, rawToken) ∈ db.issued
  | .marking userId, .verifyEmail token =>
    ∃ rawToken, (userId, rawToken) ∈ db.issued ∧ cfg.hashSha256 rawToken = cfg.hashSha256 token
  | .linkFound userId, .oauthLogin provider claims =>
    ∃ a ∈ db.oauthAccounts.rows, a.identity = some (provider, claims.providerUserId) ∧ a.userId = userId
  | .linking userId, .oauthLogin _ claims =>
    db.Has userId fun u => u.isVerified = true ∧ u.email = toLowerCase cfg.beyond claims.email
  | _, _ => True

theorem Backed.mono (h : Backed cfg db c) (hg : db.Grows db') : Backed cfg db' c := by
  unfold Backed at h ⊢
  split at h
  · exact h.mono hg fun u u' hu he => hu.email.trans he
  · exact ⟨h.1.mono hg fun u u' hu he => hu.email.trans he, hg.issued _ h.2⟩
  · obtain ⟨rawToken, hissued, hhash⟩ := h
    exact ⟨rawToken, hg.issued _ hissued, hhash⟩
  · obtain ⟨a, ha, hidentity, huser⟩ := h
    exact ⟨a, hg.links a ha, hidentity, huser⟩
  · exact h.mono hg fun u u' hu he => ⟨hu.verified he.1, hu.email.trans he.2⟩
  · trivial

theorem Db.insertUser?_spec {row : UserRow} (h : db.insertUser? row = some db') :
    ∃ users, db.users.insert? row = some users ∧ db' = { db with users } := by
  unfold Db.insertUser? at h
  split at h
  · cases h
  · obtain ⟨users, hinsert, rfl⟩ := Option.map_eq_some_iff.mp h
    exact ⟨users, hinsert, rfl⟩

theorem Db.insertLink?_spec {row : OAuthAccountRow} (h : db.insertLink? row = some db') :
    ∃ oauthAccounts, db.oauthAccounts.insert? row = some oauthAccounts ∧
      db' = { db with oauthAccounts } := by
  unfold Db.insertLink? at h
  split at h
  · cases h
  · obtain ⟨oauthAccounts, hinsert, rfl⟩ := Option.map_eq_some_iff.mp h
    exact ⟨oauthAccounts, hinsert, rfl⟩

theorem Db.grows_insertUser? {row : UserRow} (h : db.insertUser? row = some db') : db.Grows db' := by
  obtain ⟨users, hinsert, rfl⟩ := Db.insertUser?_spec h
  refine ⟨fun u hu => ⟨u, ?_, .refl u⟩, fun _ h => h, fun _ h => h⟩
  rw [Table.rows_of_insert? hinsert]
  exact List.mem_append_left _ hu

theorem Db.mem_of_insertUser? {row : UserRow} (h : db.insertUser? row = some db') :
    row ∈ db'.users.rows := by
  obtain ⟨users, hinsert, rfl⟩ := Db.insertUser?_spec h
  rw [Table.rows_of_insert? hinsert]
  exact List.mem_append_right _ (List.mem_singleton_self row)

theorem Db.grows_insertLink? {row : OAuthAccountRow} (h : db.insertLink? row = some db') :
    db.Grows db' := by
  obtain ⟨oauthAccounts, hinsert, rfl⟩ := Db.insertLink?_spec h
  refine ⟨fun u hu => ⟨u, hu, .refl u⟩, fun a ha => ?_, fun _ h => h⟩
  rw [UniqueTable.rows_of_insert? hinsert]
  exact List.mem_append_left _ ha

variable {set : UserRow → UserRow} {hset : ∀ u, (set u).userId = u.userId}

theorem Db.rows_updateActive : (db.updateActive userId set hset).users.rows = db.users.rows.map fun u =>
    if u.userId = userId then if u.deletedAt.isNone then set u else u else u := rfl

theorem Db.grows_updateActive (hgrows : ∀ u : UserRow, u.deletedAt.isNone = true → u.Grows (set u)) :
    db.Grows (db.updateActive userId set hset) := by
  refine ⟨fun u hu => ?_, fun _ h => h, fun _ h => h⟩
  rw [rows_updateActive]
  refine ⟨_, List.mem_map_of_mem hu, ?_⟩
  split
  · split
    · next hactive => exact hgrows u hactive
    · exact .refl u
  · exact .refl u

theorem Db.grows_setEmailVerificationToken (db : Db) (userId tokenHash : String) (expiresAt : Int) :
    db.Grows (db.setEmailVerificationToken userId tokenHash expiresAt) :=
  grows_updateActive fun _ _ => ⟨rfl, rfl, id, id⟩

theorem Db.grows_markEmailAsVerified (db : Db) (userId : String) (now : Int) :
    db.Grows (db.markEmailAsVerified userId now) :=
  grows_updateActive fun _ _ => ⟨rfl, rfl, fun _ => rfl, id⟩

theorem Db.grows_deleteAccount (db : Db) (userId : String) (now : Int) :
    db.Grows (db.deleteAccount userId now) :=
  grows_updateActive fun _ _ => ⟨rfl, rfl, id, fun _ => rfl⟩

theorem Db.grows_mail (db : Db) (enqueued : Bool) (m : Mail) : db.Grows (db.mail enqueued m) :=
  ⟨fun u hu => ⟨u, hu, .refl u⟩, fun _ h => h, fun _ h => h⟩

/-- The account that the identity is linked to has been deleted. -/
def Db.Severed (db : Db) (provider : OAuthProvider) (providerUserId : String) : Prop :=
  ∃ a ∈ db.oauthAccounts.rows, a.identity = some (provider, providerUserId) ∧
    db.Has a.userId (·.deletedAt.isSome = true)

variable {provider : OAuthProvider} {providerUserId : String}

theorem Db.Severed.mono (h : db.Severed provider providerUserId) (hg : db.Grows db') :
    db'.Severed provider providerUserId := by
  obtain ⟨a, ha, hidentity, hdeleted⟩ := h
  exact ⟨a, hg.links a ha, hidentity, hdeleted.mono hg fun u u' hu => hu.deleted⟩

theorem Db.not_severed_of_insertLink? {row : OAuthAccountRow} (h : db.insertLink? row = some db') :
    ¬ db.Severed row.provider row.providerUserId := by
  rintro ⟨a, ha, hidentity, -⟩
  obtain ⟨oauthAccounts, hinsert, -⟩ := insertLink?_spec h
  exact index_ne_of_insert? hinsert rfl ha hidentity

/-- A link is to one account, so the login of the identity of an active account is of no other. -/
theorem Db.not_severed_of_active {a : OAuthAccountRow} {u : UserRow} (ha : a ∈ db.oauthAccounts.rows)
    (hidentity : a.identity = some (provider, providerUserId))
    (hactive : db.findActiveIdentityById a.userId = some u) : ¬ db.Severed provider providerUserId := by
  rintro ⟨x, hx, hsame, d, hd, hid, hdeleted⟩
  obtain rfl := eq_of_index_eq hx ha hsame hidentity
  obtain ⟨hfind, hnone⟩ := Option.filter_eq_some_iff.mp hactive
  obtain rfl := eq_of_key_eq hd (mem_of_find? hfind) (hid.trans (key_of_find? hfind).symm)
  rw [Option.isNone_iff_eq_none] at hnone
  rw [hnone] at hdeleted
  cases hdeleted

/-! ## What an account and a link rest on -/

/-- The provider has vouched for the address at a login of the identity. -/
def Vouched (cfg : Config) (begun : List Request) (provider : OAuthProvider)
    (providerUserId email : String) : Prop :=
  ∃ claims, .oauthLogin provider claims ∈ begun ∧ claims.emailVerified = true ∧
    claims.providerUserId = providerUserId ∧ toLowerCase cfg.beyond claims.email = email

/-- The provider has vouched for the address, or somebody has shown a token issued for the account. -/
def Owned (cfg : Config) (begun : List Request) (issued : List (String × String)) (u : UserRow) : Prop :=
  (∃ provider providerUserId, Vouched cfg begun provider providerUserId u.email) ∨
    ∃ token rawToken, .verifyEmail token ∈ begun ∧ (u.userId, rawToken) ∈ issued ∧
      cfg.hashSha256 rawToken = cfg.hashSha256 token

/-- What holds of every account. -/
structure UserOk (cfg : Config) (begun : List Request) (issued : List (String × String)) (u : UserRow) :
    Prop where
  owned : u.isVerified = true → Owned cfg begun issued u
  stored : ∀ tokenHash, u.emailVerificationTokenHash = some tokenHash →
    ∃ rawToken, (u.userId, rawToken) ∈ issued ∧ cfg.hashSha256 rawToken = tokenHash

/-- What holds of all tables. -/
structure Db.Sound (cfg : Config) (begun : List Request) (db : Db) : Prop where
  users : ∀ u ∈ db.users.rows, UserOk cfg begun db.issued u
  linked : ∀ a ∈ db.oauthAccounts.rows, db.Has a.userId fun u =>
    u.isVerified = true ∧ Vouched cfg begun a.provider a.providerUserId u.email
  mailed : ∀ m ∈ db.mailbox, (m.userId, m.rawToken) ∈ db.issued ∧ db.Has m.userId (·.email = m.email)

theorem UserOk.mono {issued issued' : List (String × String)} {u : UserRow}
    (h : UserOk cfg begun issued u) (hbegun : begun ⊆ begun') (hissued : issued ⊆ issued') :
    UserOk cfg begun' issued' u where
  owned hverified := by
    rcases h.owned hverified with ⟨provider, providerUserId, claims, hmem, h⟩ | ⟨token, rawToken, hmem, hin, h⟩
    · exact .inl ⟨provider, providerUserId, claims, hbegun hmem, h⟩
    · exact .inr ⟨token, rawToken, hbegun hmem, hissued hin, h⟩
  stored tokenHash hhash := by
    obtain ⟨rawToken, hin, h⟩ := h.stored tokenHash hhash
    exact ⟨rawToken, hissued hin, h⟩

namespace Db.Sound

theorem mono (h : db.Sound cfg begun) (hbegun : begun ⊆ begun') : db.Sound cfg begun' where
  users u hu := (h.users u hu).mono hbegun (List.Subset.refl _)
  linked a ha := by
    obtain ⟨u, hu, hid, hverified, claims, hmem, hclaims⟩ := h.linked a ha
    exact ⟨u, hu, hid, hverified, claims, hbegun hmem, hclaims⟩
  mailed := h.mailed

theorem writeUsers (h : db.Sound cfg begun) {users : Table String UserRow (·.userId)}
    (hg : db.Grows { db with users })
    (hnew : ∀ u ∈ users.rows, u ∈ db.users.rows ∨ UserOk cfg begun db.issued u) :
    Db.Sound cfg begun { db with users } where
  users u hu := (hnew u hu).elim (h.users u) id
  linked a ha := (h.linked a ha).mono hg fun _ _ hu hv => ⟨hu.verified hv.1, hu.email ▸ hv.2⟩
  mailed m hm := ⟨(h.mailed m hm).1, (h.mailed m hm).2.mono hg fun _ _ hu he => hu.email.trans he⟩

theorem insertUser? (h : db.Sound cfg begun) {row : UserRow} (hinsert : db.insertUser? row = some db')
    (hrow : UserOk cfg begun db.issued row) : db'.Sound cfg begun := by
  have hg := grows_insertUser? hinsert
  obtain ⟨users, hrows, rfl⟩ := insertUser?_spec hinsert
  refine h.writeUsers hg fun u hu => ?_
  rw [Table.rows_of_insert? hrows, List.mem_append, List.mem_singleton] at hu
  rcases hu with hu | rfl
  · exact .inl hu
  · exact .inr hrow

theorem insertLink? (h : db.Sound cfg begun) {row : OAuthAccountRow}
    (hinsert : db.insertLink? row = some db')
    (hlinked : db.Has row.userId fun u =>
      u.isVerified = true ∧ Vouched cfg begun row.provider row.providerUserId u.email) :
    db'.Sound cfg begun := by
  obtain ⟨oauthAccounts, hrows, rfl⟩ := insertLink?_spec hinsert
  refine ⟨h.users, fun a ha => ?_, h.mailed⟩
  rw [UniqueTable.rows_of_insert? hrows, List.mem_append, List.mem_singleton] at ha
  rcases ha with ha | rfl
  · exact h.linked a ha
  · exact hlinked

theorem updateActive (h : db.Sound cfg begun)
    (hgrows : ∀ u : UserRow, u.deletedAt.isNone = true → u.Grows (set u))
    (hok : ∀ u ∈ db.users.rows, u.userId = userId → UserOk cfg begun db.issued (set u)) :
    (db.updateActive userId set hset).Sound cfg begun := by
  refine h.writeUsers (@grows_updateActive _ _ _ hset hgrows) fun u hu => ?_
  obtain ⟨x, hx, rfl⟩ := Table.mem_modify.mp hu
  split
  · next hid =>
    split
    · exact .inr (hok x hx hid)
    · exact .inl hx
  · exact .inl hx

theorem markEmailAsVerified (h : db.Sound cfg begun) {token : String}
    (hbegun : .verifyEmail token ∈ begun)
    (hshown : ∃ rawToken, (userId, rawToken) ∈ db.issued ∧
      cfg.hashSha256 rawToken = cfg.hashSha256 token) (now : Int) :
    (db.markEmailAsVerified userId now).Sound cfg begun := by
  refine h.updateActive (fun _ _ => ⟨rfl, rfl, fun _ => rfl, id⟩) ?_
  rintro u - rfl
  obtain ⟨rawToken, hissued, hhash⟩ := hshown
  exact ⟨fun _ => .inr ⟨token, rawToken, hbegun, hissued, hhash⟩, nofun⟩

theorem deleteAccount (h : db.Sound cfg begun) (now : Int) :
    (db.deleteAccount userId now).Sound cfg begun :=
  h.updateActive (fun _ _ => ⟨rfl, rfl, id, fun _ => rfl⟩) fun u hu _ => ⟨(h.users u hu).1, (h.users u hu).2⟩

theorem issue (h : db.Sound cfg begun) (rawToken : String) : (db.issue userId rawToken).Sound cfg begun :=
  ⟨fun u hu => (h.users u hu).mono (List.Subset.refl _) (List.subset_append_left _ _), h.linked,
    fun m hm => ⟨List.mem_append_left _ (h.mailed m hm).1, (h.mailed m hm).2⟩⟩

theorem setEmailVerificationToken (h : db.Sound cfg begun) {rawToken : String}
    (hissued : (userId, rawToken) ∈ db.issued) (expiresAt : Int) :
    (db.setEmailVerificationToken userId (cfg.hashSha256 rawToken) expiresAt).Sound cfg begun := by
  refine h.updateActive (fun _ _ => ⟨rfl, rfl, id, id⟩) ?_
  rintro u hu rfl
  exact ⟨(h.users u hu).owned, fun tokenHash hhash => ⟨rawToken, hissued, Option.some.inj hhash⟩⟩

theorem mail (h : db.Sound cfg begun) {rawToken : String} (hissued : (userId, rawToken) ∈ db.issued)
    (haddress : db.Has userId (·.email = email)) (enqueued : Bool) :
    (db.mail enqueued ⟨email, rawToken, userId⟩).Sound cfg begun := by
  refine ⟨h.users, h.linked, fun m hm => ?_⟩
  rcases List.mem_append.mp hm with hm | hm
  · exact h.mailed m hm
  · split at hm
    · obtain rfl := List.mem_singleton.mp hm
      exact ⟨hissued, haddress⟩
    · cases hm

end Db.Sound

/-! ## Runs -/

/-- What holds in every state of a run. -/
structure System.Sound (cfg : Config) (s : System) : Prop where
  db : s.db.Sound cfg s.begun
  calls : ∀ c ∈ s.calls.rows, Backed cfg s.db c ∧ c.request ∈ s.begun
  vouched : ∀ provider claims, .oauthLogin provider claims ∈ s.begun → claims.emailVerified = true

/-! ### Logins of an identity -/

/-- A login of the identity. -/
def Request.isOf (provider : OAuthProvider) (providerUserId : String) : Request → Bool
  | .oauthLogin p claims => decide (p = provider) && claims.providerUserId == providerUserId
  | _ => false

/-- A login of the identity that has its account and waits for the session. -/
def Call.signs (provider : OAuthProvider) (providerUserId : String) (c : Call) : Bool :=
  match c.phase with
  | .signing _ => c.request.isOf provider providerUserId
  | _ => false

/-- A login of the identity that has been answered with an account. -/
def signed (provider : OAuthProvider) (providerUserId : String) (p : Request × Answer) : Bool :=
  p.1.isOf provider providerUserId && p.2.toOption.join.isSome

namespace System

/-- The logins of the identity that have been answered with an account. -/
def signedIn (s : System) (provider : OAuthProvider) (providerUserId : String) : Nat :=
  s.answers.countP (signed provider providerUserId)

/-- The logins of the identity that wait for their session. -/
def signing (s : System) (provider : OAuthProvider) (providerUserId : String) : Nat :=
  s.calls.rows.countP (Call.signs provider providerUserId)

end System

/-- No login of a severed identity comes to an account in the step. -/
def Fair (s s' : System) : Prop :=
  ∀ provider providerUserId, s.db.Severed provider providerUserId →
    s'.signedIn provider providerUserId + s'.signing provider providerUserId ≤
      s.signedIn provider providerUserId + s.signing provider providerUserId

section

variable {result : Answer} {phase : Phase}

theorem Request.isOf_iff {request : Request} :
    request.isOf provider providerUserId = true ↔
      ∃ claims, request = .oauthLogin provider claims ∧ claims.providerUserId = providerUserId := by
  unfold Request.isOf
  split
  · next p claims =>
    rw [Bool.and_eq_true, decide_eq_true_iff, beq_iff_eq]
    constructor
    · rintro ⟨rfl, hid⟩
      exact ⟨claims, rfl, hid⟩
    · rintro ⟨_, ⟨⟩, hid⟩
      exact ⟨rfl, hid⟩
  · next hother =>
    refine iff_of_false Bool.false_ne_true ?_
    rintro ⟨claims, rfl, -⟩
    exact hother provider claims rfl

theorem signs_of_ne (h : ∀ userId, c.phase ≠ .signing userId) :
    c.signs provider providerUserId = false := by
  unfold Call.signs
  split
  · next userId hphase => exact absurd hphase (h userId)
  · rfl

theorem signed_error (request : Request) (e : AuthError) :
    signed provider providerUserId (request, .error e) = false :=
  Bool.and_false _

/-- An answer is fair if what is answered with an account has waited for its session. -/
theorem fair_answer (hc : s.calls.find? c.callId = some c)
    (h : ∀ provider providerUserId, signed provider providerUserId (c.request, result) = true →
      c.signs provider providerUserId = true) : Fair s { s.answer c result with db } := by
  intro provider providerUserId _
  have hcalls := countP_erase (Call.signs provider providerUserId) hc
  have hanswers : (s.answers ++ [(c.request, result)]).countP (signed provider providerUserId) =
      s.answers.countP (signed provider providerUserId) +
        if signed provider providerUserId (c.request, result) then 1 else 0 := by
    rw [List.countP_append, List.countP_singleton]
  unfold System.signedIn System.signing
  simp only [System.answer, hanswers]
  split
  · next hsigned =>
    rw [if_pos (h provider providerUserId hsigned)] at hcalls
    omega
  · omega

/-- That a request goes on is fair if what waits for its session then may. -/
theorem fair_advance (hc : s.calls.find? c.callId = some c)
    (h : ∀ provider providerUserId, s.db.Severed provider providerUserId →
      Call.signs provider providerUserId { c with phase } = false) :
    Fair s { s.advance c phase with db } := by
  intro provider providerUserId hsevered
  have hcalls := @countP_modify _ _ _ _ (fun c => { c with phase }) (fun _ => rfl) s.calls c.callId c
    (Call.signs provider providerUserId) hc
  simp only [h provider providerUserId hsevered, Bool.false_eq_true, if_false] at hcalls
  unfold System.signedIn System.signing
  simp only [System.advance]
  omega

end

/-! ### Statements -/

/-- What the next statement of a request does. -/
structure Next (cfg : Config) (s : System) (c : Call) (s' : System) : Prop where
  grows : s.db.Grows s'.db
  sound : s'.db.Sound cfg s.begun
  begun : s'.begun = s.begun
  calls : ∀ x ∈ s'.calls.rows, x ∈ s.calls.rows ∨ (Backed cfg s'.db x ∧ x.request = c.request)
  fair : Fair s s'

namespace Next

variable {result : Answer} {u : UserRow} {i : Input}

theorem answer (hc : s.calls.find? c.callId = some c) (hg : s.db.Grows db)
    (hsound : db.Sound cfg s.begun)
    (hresult : ∀ provider providerUserId, signed provider providerUserId (c.request, result) = true →
      c.signs provider providerUserId = true) : Next cfg s c { s.answer c result with db } where
  grows := hg
  sound := hsound
  begun := rfl
  calls _ hx := .inl (mem_erase.mp hx).1
  fair := fair_answer hc hresult

/-- The answer to what is no login. -/
theorem done (hc : s.calls.find? c.callId = some c) (hg : s.db.Grows db)
    (hsound : db.Sound cfg s.begun) : Next cfg s c { s.answer c (.ok none) with db } :=
  answer hc hg hsound fun provider providerUserId hsigned => by
    rw [signed, Except.toOption, Option.join_some, Option.isSome_none, Bool.and_false] at hsigned
    cases hsigned

theorem refuse (h : s.Sound cfg) (hc : s.calls.find? c.callId = some c) (e : AuthError) :
    Next cfg s c (s.answer c (.error e)) :=
  answer hc (.refl _) h.db fun provider providerUserId hsigned => by
    rw [signed_error] at hsigned
    cases hsigned

theorem advanceTo (hc : s.calls.find? c.callId = some c) (hg : s.db.Grows db)
    (hsound : db.Sound cfg s.begun) {phase : Phase} (hbacked : Backed cfg db { c with phase })
    (hfair : ∀ provider providerUserId, s.db.Severed provider providerUserId →
      Call.signs provider providerUserId { c with phase } = false) :
    Next cfg s c { s.advance c phase with db } where
  grows := hg
  sound := hsound
  begun := rfl
  calls x hx := by
    have hmodified : x ∈ (s.calls.modify c.callId (fun c => { c with phase }) fun _ => rfl).rows := hx
    rcases mem_modify_cases hc hmodified with rfl | ⟨hx, -⟩
    · exact .inr ⟨hbacked, rfl⟩
    · exact .inl hx
  fair := fair_advance hc hfair

theorem advance (hc : s.calls.find? c.callId = some c) (hg : s.db.Grows db)
    (hsound : db.Sound cfg s.begun) {phase : Phase} (hphase : ∀ userId, phase ≠ .signing userId)
    (hbacked : Backed cfg db { c with phase }) : Next cfg s c { s.advance c phase with db } :=
  advanceTo hc hg hsound hbacked fun _ _ _ => signs_of_ne hphase

/-- A login gets its account: of an identity that is not severed, if it is one of an identity. -/
theorem sign (hc : s.calls.find? c.callId = some c) (hg : s.db.Grows db)
    (hsound : db.Sound cfg s.begun)
    (hfair : ∀ provider claims, c.request = .oauthLogin provider claims →
      ¬ s.db.Severed provider claims.providerUserId) :
    Next cfg s c { s.advance c (.signing userId) with db } := by
  have hbacked : Backed cfg db { c with phase := .signing userId } := by
    unfold Backed
    split <;> trivial
  refine advanceTo hc hg hsound hbacked fun provider providerUserId hsevered => ?_
  by_contra hsigns
  rw [Bool.not_eq_false] at hsigns
  obtain ⟨claims, hrequest, rfl⟩ := Request.isOf_iff.mp hsigns
  exact hfair provider claims hrequest hsevered

theorem conclude (hc : s.calls.find? c.callId = some c) (hg : s.db.Grows db)
    (hsound : db.Sound cfg s.begun) : Next cfg s c { s.conclude c with db } := by
  unfold System.conclude
  split
  · refine ⟨hg, hsound, rfl, fun _ hx => .inl (mem_erase.mp hx).1, fun provider providerUserId _ => ?_⟩
    have hcalls := countP_erase (Call.signs provider providerUserId) hc
    unfold System.signedIn System.signing
    dsimp only
    omega
  · exact done hc hg hsound

theorem issueTo (h : s.Sound cfg) (hc : s.calls.find? c.callId = some c) (hu : u ∈ s.db.users.rows) :
    Next cfg s c (s.issueTo c u) := by
  unfold System.issueTo
  split
  · exact done hc (.refl _) h.db
  · exact advance hc (.refl _) h.db nofun ⟨u, hu, rfl, rfl⟩

theorem loginOf (h : s.Sound cfg) (hc : s.calls.find? c.callId = some c)
    (hrequest : c.request = .login email) (hu : u ∈ s.db.users.rows) :
    Next cfg s c (s.loginOf c i u) := by
  unfold System.loginOf
  split
  · exact refuse h hc _
  · split
    · split
      · exact sign hc (.refl _) h.db fun provider claims hlogin => by
          rw [hrequest] at hlogin
          cases hlogin
      · exact refuse h hc _
    · split
      · have hissuing : Next cfg s c (s.advance c (.issuing u.userId u.email)) :=
          advance hc (.refl _) h.db nofun ⟨u, hu, rfl, rfl⟩
        refine { hissuing with fair := fun provider providerUserId hsevered => ?_ }
        have hfair := hissuing.fair provider providerUserId hsevered
        unfold System.signedIn at hfair ⊢
        rw [List.countP_append, List.countP_singleton, signed_error]
        exact hfair
      · exact refuse h hc _

theorem linkTo (h : s.Sound cfg) (hc : s.calls.find? c.callId = some c) {claims : OAuthUserInfo}
    (hrequest : c.request = .oauthLogin provider claims) (hu : u ∈ s.db.users.rows)
    (hemail : u.email = toLowerCase cfg.beyond claims.email) : Next cfg s c (s.linkTo c u) := by
  unfold System.linkTo
  split
  · next hverified =>
    refine advance hc (.refl _) h.db nofun ?_
    unfold Backed
    simp only [hrequest]
    exact ⟨u, hu, rfl, hverified, hemail⟩
  · exact refuse h hc _

theorem found {find : UserRow → System} {s₀ : System} (hnone : Next cfg s c s₀)
    (hsome : ∀ u ∈ s.db.users.rows, u.email = email → Next cfg s c (find u)) :
    Next cfg s c (((s.db.findActiveByEmail email).map find).getD s₀) := by
  cases hfind : s.db.findActiveByEmail email with
  | none => exact hnone
  | some u =>
    have hfound := List.find?_some hfind
    rw [Bool.and_eq_true, beq_iff_eq] at hfound
    exact hsome u (List.mem_of_find?_eq_some hfind) hfound.2

end Next

/-! ### Verification -/

namespace System.Sound

variable {claims : OAuthUserInfo} {i : Input}

theorem next_issuing (h : s.Sound cfg) (hc : s.calls.find? c.callId = some c)
    (haddress : s.db.Has userId (·.email = email)) :
    Next cfg s c { s.advance c (.mailing userId email i.rawToken) with
      db := (s.db.issue userId i.rawToken).setEmailVerificationToken userId (cfg.hashSha256 i.rawToken)
        (i.now + cfg.tokenTtlSeconds * 1000) } := by
  have hissued := List.mem_append_right s.db.issued (List.mem_singleton_self (userId, i.rawToken))
  have hgrows := (grows_issue s.db userId i.rawToken).trans
    (grows_setEmailVerificationToken _ userId (cfg.hashSha256 i.rawToken)
      (i.now + cfg.tokenTtlSeconds * 1000))
  refine .advance hc hgrows ((h.db.issue i.rawToken).setEmailVerificationToken hissued _) nofun ?_
  exact ⟨haddress.mono hgrows fun u u' hu he => hu.email.trans he, hissued⟩

/-- A token that has been shown was issued for the account it is looked up by. -/
theorem next_verifyEmail (h : s.Sound cfg) (hc : s.calls.find? c.callId = some c) {token : String}
    (hrequest : c.request = .verifyEmail token) {u : UserRow}
    (hfind : s.db.findUserByActiveVerificationToken (cfg.hashSha256 token) i.now = some u) :
    Next cfg s c (s.advance c (.marking u.userId)) := by
  have hfound := List.find?_some hfind
  simp only [Bool.and_eq_true, beq_iff_eq] at hfound
  refine .advance hc (.refl _) h.db nofun ?_
  unfold Backed
  simp only [hrequest]
  exact (h.db.users u (List.mem_of_find?_eq_some hfind)).stored _ hfound.1.2

/-! ### Logins by the provider -/

theorem vouch (h : s.Sound cfg) (hbegun : .oauthLogin provider claims ∈ s.begun) :
    Vouched cfg s.begun provider claims.providerUserId (toLowerCase cfg.beyond claims.email) :=
  ⟨claims, hbegun, h.vouched _ _ hbegun, rfl, rfl⟩

theorem next_oauthLogin (h : s.Sound cfg) (hc : s.calls.find? c.callId = some c)
    (hrequest : c.request = .oauthLogin provider claims) {a : OAuthAccountRow}
    (hfind : s.db.findByProviderAndProviderUserId provider claims.providerUserId = some a) :
    Next cfg s c (s.advance c (.linkFound a.userId)) := by
  obtain ⟨hfirst, hprovider⟩ := Option.filter_eq_some_iff.mp hfind
  have hid := List.find?_some hfirst
  rw [beq_iff_eq] at hid
  refine .advance hc (.refl _) h.db nofun ?_
  unfold Backed
  simp only [hrequest]
  refine ⟨a, List.mem_of_find?_eq_some hfirst, ?_, rfl⟩
  rw [OAuthAccountRow.identity, of_decide_eq_true hprovider, hid]

theorem next_linkFound (h : s.Sound cfg) (hc : s.calls.find? c.callId = some c)
    (hrequest : c.request = .oauthLogin provider claims) {a : OAuthAccountRow}
    (ha : a ∈ s.db.oauthAccounts.rows)
    (hidentity : a.identity = some (provider, claims.providerUserId)) {u : UserRow}
    (hactive : s.db.findActiveIdentityById a.userId = some u) :
    Next cfg s c (s.advance c (.signing u.userId)) := by
  refine .sign hc (.refl _) h.db fun p cl hlogin => ?_
  rw [hrequest] at hlogin
  cases hlogin
  exact not_severed_of_active ha hidentity hactive

theorem next_linking (h : s.Sound cfg) (hc : s.calls.find? c.callId = some c)
    (hrequest : c.request = .oauthLogin provider claims) (hbegun : c.request ∈ s.begun)
    (hlinkable : s.db.Has userId fun u =>
      u.isVerified = true ∧ u.email = toLowerCase cfg.beyond claims.email)
    (hinsert : s.db.insertLink? ⟨i.oauthAccountId, userId, provider, claims.providerUserId⟩ = some db) :
    Next cfg s c { s.advance c (.signing userId) with db } := by
  obtain ⟨u, hu, hid, hverified, hemail⟩ := hlinkable
  have hvouched := h.vouch (hrequest ▸ hbegun)
  rw [← hemail] at hvouched
  have hsound := h.db.insertLink? hinsert ⟨u, hu, hid, hverified, hvouched⟩
  refine .sign hc (grows_insertLink? hinsert) hsound fun p cl hlogin => ?_
  rw [hrequest] at hlogin
  cases hlogin
  exact not_severed_of_insertLink? hinsert

/-- The account is new, so the link in the same transaction is to it. -/
theorem next_createOAuthUserWithLink (h : s.Sound cfg) (hc : s.calls.find? c.callId = some c)
    (hrequest : c.request = .oauthLogin provider claims) (hbegun : c.request ∈ s.begun)
    (hcreate : createOAuthUserWithLink cfg s.db i provider claims = some db) :
    Next cfg s c { s.advance c (.signing i.userId) with db } := by
  obtain ⟨created, hinsert, hlink⟩ := Option.bind_eq_some_iff.mp hcreate
  have hvouched := h.vouch (hrequest ▸ hbegun)
  have hsound := h.db.insertUser? hinsert ⟨fun _ => .inl ⟨_, _, hvouched⟩, nofun⟩
  refine .sign hc ((grows_insertUser? hinsert).trans (grows_insertLink? hlink))
    (hsound.insertLink? hlink ⟨_, mem_of_insertUser? hinsert, rfl, rfl, hvouched⟩)
    fun p cl hlogin hsevered => ?_
  rw [hrequest] at hlogin
  cases hlogin
  exact not_severed_of_insertLink? hlink (hsevered.mono (grows_insertUser? hinsert))

/-- Whoever waits for the session is answered, with the account or with what has been thrown. -/
theorem next_signing (h : s.Sound cfg) (hc : s.calls.find? c.callId = some c)
    (hphase : c.phase = .signing userId) :
    Next cfg s c (s.answer c ((i.thrown.map Except.error).getD (.ok (some userId)))) := by
  refine .answer hc (.refl _) h.db fun provider providerUserId hsigned => ?_
  simp only [Call.signs, hphase]
  rw [signed, Bool.and_eq_true] at hsigned
  exact hsigned.1

/-! ### All statements -/

/-- **Every statement keeps the tables sound**, and is fair. -/
theorem next (h : s.Sound cfg) (hc : s.calls.find? c.callId = some c)
    (hnext : s.next cfg c i = some s') : Next cfg s c s' := by
  obtain ⟨hbacked, hbegun⟩ := h.calls c (mem_of_find? hc)
  unfold Backed at hbacked
  unfold System.next at hnext
  split at hnext
  · cases hnext
    exact .found (.advance hc (.refl _) h.db nofun trivial) fun u hu _ => .issueTo h hc hu
  · split at hnext
    · cases hnext
      exact .refuse h hc _
    · next db hinsert =>
      cases hnext
      have hsound := h.db.insertUser? hinsert ⟨nofun, nofun⟩
      exact .advance hc (grows_insertUser? hinsert) hsound nofun
        ⟨_, mem_of_insertUser? hinsert, rfl, rfl⟩
  · cases hnext
    exact .found (.done hc (.refl _) h.db) fun u hu _ => .issueTo h hc hu
  · next hrequest =>
    cases hnext
    exact .found (.refuse h hc _) fun u hu _ => .loginOf h hc hrequest hu
  · next userId email hphase =>
    cases hnext
    simp only [hphase] at hbacked
    exact h.next_issuing hc hbacked
  · next userId email rawToken hphase =>
    cases hnext
    simp only [hphase] at hbacked
    exact .conclude hc (grows_mail ..) (h.db.mail hbacked.2 hbacked.1 i.enqueued)
  · next token _ hrequest =>
    split at hnext
    · cases hnext
      exact .done hc (.refl _) h.db
    · next u hfind =>
      cases hnext
      exact h.next_verifyEmail hc hrequest hfind
  · next userId token hphase hrequest =>
    cases hnext
    simp only [hphase, hrequest] at hbacked
    exact .done hc (grows_markEmailAsVerified ..)
      (h.db.markEmailAsVerified (hrequest ▸ hbegun) hbacked i.now)
  · next provider claims _ hrequest =>
    split at hnext
    · cases hnext
      exact .advance hc (.refl _) h.db nofun trivial
    · next a hfind =>
      cases hnext
      exact h.next_oauthLogin hc hrequest hfind
  · next userId provider claims hphase hrequest =>
    simp only [hphase, hrequest] at hbacked
    obtain ⟨a, ha, hidentity, rfl⟩ := hbacked
    split at hnext
    · cases hnext
      exact .advance hc (.refl _) h.db nofun trivial
    · next u hactive =>
      cases hnext
      exact h.next_linkFound hc hrequest ha hidentity hactive
  · next provider claims _ hrequest =>
    cases hnext
    refine .found (.advance hc (.refl _) h.db nofun trivial) fun u hu hemail => ?_
    exact .linkTo h hc hrequest hu hemail
  · next userId provider claims hphase hrequest =>
    simp only [hphase, hrequest] at hbacked
    split at hnext
    · cases hnext
      exact .refuse h hc _
    · next db hinsert =>
      cases hnext
      exact h.next_linking hc hrequest hbegun hbacked hinsert
  · next provider claims _ hrequest =>
    split at hnext
    · cases hnext
      exact .refuse h hc _
    · next db hcreate =>
      cases hnext
      exact h.next_createOAuthUserWithLink hc hrequest hbegun hcreate
  · next userId hphase =>
    cases hnext
    exact h.next_signing hc hphase
  · split at hnext
    · cases hnext
      exact .advance hc (.refl _) h.db nofun trivial
    · cases hnext
      exact .refuse h hc _
  · split at hnext
    · cases hnext
      exact .advance hc (.refl _) h.db nofun trivial
    · cases hnext
      exact .refuse h hc _
  · cases hnext
    exact .done hc (grows_deleteAccount ..) (h.db.deleteAccount i.now)
  · cases hnext

end System.Sound

theorem System.Sound.empty : System.empty.Sound cfg where
  db := ⟨nofun, nofun, nofun⟩
  calls := nofun
  vouched := nofun

/-- What an action does. -/
structure Steps (cfg : Config) (s s' : System) : Prop where
  sound : s'.Sound cfg
  grows : s.db.Grows s'.db
  fair : Fair s s'

theorem Next.steps (h : s.Sound cfg) (hc : s.calls.find? c.callId = some c) (hn : Next cfg s c s') :
    Steps cfg s s' where
  sound := by
    refine ⟨hn.begun ▸ hn.sound, fun x hx => ?_, hn.begun ▸ h.vouched⟩
    rw [hn.begun]
    rcases hn.calls x hx with hx | ⟨hbacked, hrequest⟩
    · exact ⟨(h.calls x hx).1.mono hn.grows, (h.calls x hx).2⟩
    · exact ⟨hbacked, hrequest ▸ (h.calls c (mem_of_find? hc)).2⟩
  grows := hn.grows
  fair := hn.fair

theorem System.Sound.accept (h : s.Sound cfg) {calls : Table String Call (·.callId)} {callId : String}
    {request : Request} (hinsert : s.calls.insert? ⟨callId, request, .begun⟩ = some calls)
    (hvouched : ∀ provider claims, request = .oauthLogin provider claims → claims.emailVerified = true) :
    Steps cfg s { s with calls, begun := s.begun ++ [request] } where
  sound := by
    refine ⟨h.db.mono (List.subset_append_left _ _), fun x hx => ?_, fun provider claims hmem => ?_⟩
    · rw [rows_of_insert? hinsert, List.mem_append, List.mem_singleton] at hx
      rcases hx with hx | rfl
      · exact ⟨(h.calls x hx).1, List.mem_append_left _ (h.calls x hx).2⟩
      · exact ⟨trivial, List.mem_append_right _ (List.mem_singleton_self _)⟩
    · rcases List.mem_append.mp hmem with hmem | hmem
      · exact h.vouched provider claims hmem
      · exact hvouched provider claims (List.mem_singleton.mp hmem).symm
  grows := .refl _
  fair provider providerUserId _ := by
    have hcalls := countP_insert? (Call.signs provider providerUserId) hinsert
    rw [signs_of_ne (fun _ h => by cases h), if_neg Bool.false_ne_true] at hcalls
    unfold System.signedIn System.signing
    dsimp only
    omega

theorem System.Sound.step (h : s.Sound cfg) {a : Action} (hstep : System.step cfg s a = some s') :
    Steps cfg s s' := by
  cases a with
  | run callId i =>
    obtain ⟨c, hc, hnext⟩ := Option.bind_eq_some_iff.mp hstep
    obtain rfl := key_of_find? hc
    exact (h.next hc hnext).steps h hc
  | begin callId request =>
    obtain ⟨calls, hinsert, rfl⟩ := Option.map_eq_some_iff.mp hstep
    split
    · next provider claims =>
      split
      · next hverified =>
        refine h.accept hinsert ?_
        rintro _ _ ⟨⟩
        exact hverified
      · refine ⟨⟨h.db, h.calls, h.vouched⟩, .refl _, fun provider providerUserId _ => ?_⟩
        unfold System.signedIn
        rw [List.countP_append, List.countP_singleton, signed_error]
        exact le_refl _
    · next hrequest => exact h.accept hinsert fun provider claims he => absurd he (hrequest provider claims)

variable {as bs : List Action}

theorem System.Sound.of_run (hrun : exec (System.step cfg) System.empty as = some s) : s.Sound cfg :=
  exec_invariant (fun _ _ _ h hstep => (h.step hstep).sound) hrun .empty

/-! A run in which an account is registered, verified, linked and, while a login waits for its session,
deleted; and one that comes after. -/

def adaConfig : Config := ⟨fun _ c _ => [c], fun token => "sha256:" ++ token, 3600⟩

def adaClaims : OAuthUserInfo := ⟨"g-1", "Ada@x.org", true⟩

def adaLinked : List Action := [
  .begin "r" (.register " ADA@x.org" "Ada"), .run "r" {}, .run "r" { userId := "u" },
  .run "r" { rawToken := "t" }, .run "r" {},
  .begin "v" (.verifyEmail "t"), .run "v" {}, .run "v" { now := 1 },
  .begin "g" (.oauthLogin .google adaClaims), .run "g" {}, .run "g" {}, .run "g" { oauthAccountId := "o" },
  .run "g" {}]

def adaLeft : List Action := adaLinked ++ [
  .begin "h" (.oauthLogin .google adaClaims), .run "h" {}, .run "h" {},
  .begin "d" (.deleteAccount "u"), .run "d" {}, .run "d" {}, .run "d" { now := 2 }]

def adaReturns : List Action := [
  .run "h" {}, .begin "b" (.oauthLogin .google adaClaims), .run "b" {}, .run "b" {}, .run "b" {},
  .run "b" { userId := "w", oauthAccountId := "p", generatedId := "0192-a" }]

/-- **Nobody takes over an account through the provider.** In every run the account that a link is to
has been verified, and the provider has vouched for its address at a login of this very identity. -/
theorem linked_accounts_verified (hrun : exec (System.step cfg) System.empty as = some s)
    {a : OAuthAccountRow} (ha : a ∈ s.db.oauthAccounts.rows) :
    s.db.Has a.userId fun u =>
      u.isVerified = true ∧ Vouched cfg s.begun a.provider a.providerUserId u.email :=
  (System.Sound.of_run hrun).db.linked a ha

theorem ada_linked : ∃ s, exec (System.step adaConfig) System.empty adaLinked = some s ∧
    s.db.Has "u" fun u =>
      u.isVerified = true ∧ Vouched adaConfig s.begun .google "g-1" u.email :=
  exists_of_read (fun s => s.db.oauthAccounts.rows) [⟨"o", "u", .google, "g-1"⟩] (by decide +kernel)
    fun s hs hrows => linked_accounts_verified hs (a := ⟨"o", "u", .google, "g-1"⟩) (by simp [hrows])

/-- **A verified address has been proved.** In every run the provider has vouched for the address of a
verified account, or somebody has shown a token that hashes like one issued for the account, and what
was mailed is such a token and went to the address of its account. -/
theorem verified_accounts_owned (hrun : exec (System.step cfg) System.empty as = some s) :
    (∀ u ∈ s.db.users.rows, u.isVerified = true → Owned cfg s.begun s.db.issued u) ∧
      ∀ m ∈ s.db.mailbox, (m.userId, m.rawToken) ∈ s.db.issued ∧ s.db.Has m.userId (·.email = m.email) :=
  ⟨fun u hu => ((System.Sound.of_run hrun).db.users u hu).owned, (System.Sound.of_run hrun).db.mailed⟩

theorem ada_verified : ∃ s, exec (System.step adaConfig) System.empty adaLinked = some s ∧
    ("u", "t") ∈ s.db.issued ∧ s.db.Has "u" (·.email = "ada@x.org") :=
  exists_of_read (fun s => s.db.mailbox) [⟨"ada@x.org", "t", "u"⟩] (by decide +kernel) fun s hs hmailbox =>
    (verified_accounts_owned hs).2 ⟨"ada@x.org", "t", "u"⟩ (by simp [hmailbox])

/-- **A severed identity stays severed.** Once the account that an identity is linked to is deleted, of
its logins only those that wait for their session may still be answered with an account, and no other,
whatever comes after. -/
theorem severed_identity_never_signs_in (hrun : exec (System.step cfg) System.empty as = some s)
    (hlater : exec (System.step cfg) s bs = some t) (hsevered : s.db.Severed provider providerUserId) :
    t.signedIn provider providerUserId + t.signing provider providerUserId ≤
      s.signedIn provider providerUserId + s.signing provider providerUserId := by
  have hkept := exec_invariant (I := fun t => t.Sound cfg ∧ t.db.Severed provider providerUserId ∧
      t.signedIn provider providerUserId + t.signing provider providerUserId ≤
        s.signedIn provider providerUserId + s.signing provider providerUserId)
    ?_ hlater ⟨.of_run hrun, hsevered, le_refl _⟩
  · exact hkept.2.2
  · rintro m a m' ⟨hm, hsevered, hfewer⟩ hstep
    obtain ⟨hsound, hgrows, hfair⟩ := hm.step hstep
    exact ⟨hsound, hsevered.mono hgrows, (hfair provider providerUserId hsevered).trans hfewer⟩

/-- Ada has signed in, and waits for a second session when her account is deleted: she gets it, and is
refused when she comes again. -/
theorem ada_never_returns : ∃ s t, exec (System.step adaConfig) System.empty adaLeft = some s ∧
    exec (System.step adaConfig) s adaReturns = some t ∧
    (s.signedIn .google "g-1", s.signing .google "g-1") = (1, 1) ∧ t.signedIn .google "g-1" = 2 ∧
    t.signedIn .google "g-1" + t.signing .google "g-1" ≤
      s.signedIn .google "g-1" + s.signing .google "g-1" := by
  obtain ⟨s, hs, hread⟩ := Option.map_eq_some_iff.mp
    (show (exec (System.step adaConfig) System.empty adaLeft).map (fun s => (s.db.oauthAccounts.rows,
        s.db.users.rows, (s.signedIn .google "g-1", s.signing .google "g-1"),
        (exec (System.step adaConfig) s adaReturns).map (·.signedIn .google "g-1"))) =
      some ([⟨"o", "u", .google, "g-1"⟩],
        [⟨"u", "ada@x.org", "ada", true, none, none, some 1, some 2⟩], (1, 1), some 2) by
      decide +kernel)
  obtain ⟨hlinks, hrest⟩ := Prod.mk.inj hread
  obtain ⟨husers, hrest⟩ := Prod.mk.inj hrest
  obtain ⟨hbefore, hlater⟩ := Prod.mk.inj hrest
  obtain ⟨t, ht, hafter⟩ := Option.map_eq_some_iff.mp hlater
  refine ⟨s, t, hs, ht, hbefore, hafter, severed_identity_never_signs_in hs ht ?_⟩
  exact ⟨⟨"o", "u", .google, "g-1"⟩, by simp [hlinks], rfl, _, by rw [husers]; exact .head _, rfl, rfl⟩

end QuizBackend.Auth.Accounts
