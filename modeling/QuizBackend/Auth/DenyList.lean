import QuizBackend.Auth.Sessions
import QuizBackend.Lib.IdentityMap
import QuizBackend.Lib.Run

/-!
# The deny-list of revoked sessions (`SessionService`)

A revocation is written to the table and published, and each instance puts what it hears of into a
list of its own, under the user, the session, the `jti` and the token hash, for five minutes. The
lookups ask the list first: "The read paths short-circuit on the deny-list before hitting the
database, so a revoked session is rejected immediately on every instance".

The list is a `Map<DeniedIdentifier, number>`, and a `DeniedIdentifier` is an object. `isDenied` is
handed an object literal of its own, which no entry was set with, so it answers `false` whatever the
list holds (`isDenied_eq_false`). Nothing is ever short-circuited: no live session is refused, and a
revoked one is refused by the `WHERE` of the query alone. The list does what it is for exactly as
long as nobody asks it about a session it should deny (`denyList_exact_iff`).

Delivery is in any order, any number of times and at any time; what a revocation took in
(`Published.revoked`) is kept beside its event for the statement.
-/

namespace QuizBackend.Auth

open Lib

/-! ## Events and the list -/

inductive DeniedIdentifier where
  | user (value : String)
  | sessionId (value : String)
  | jti (value : String)
  | refreshTokenHash (value : TokenHash)

inductive SessionInvalidationKind where
  | session (identifier : String)
  | jti (identifier : String)
  | refreshTokenHash (identifier : TokenHash)
  | allForUser (identifier : String)

structure SessionInvalidationEvent where
  kind : SessionInvalidationKind
  sessionId : Option String := none
  jti : Option String := none
  refreshTokenHash : Option TokenHash := none
  emittedAtMs : Int

def denyListTtlMs : Int := 5 * 60 * 1000

def SessionInvalidationEvent.expiresAtMs (event : SessionInvalidationEvent) : Int :=
  event.emittedAtMs + denyListTtlMs

abbrev DenyList := IdentityMap DeniedIdentifier Int

section

variable (denied : DenyList)

/-- `if (value) this.denied.set({ kind, value }, expiresAtMs)`, of a string. -/
def DenyList.setText (kind : String → DeniedIdentifier) (value : Option String)
    (expiresAtMs : Int) : DenyList :=
  match value.filter (· ≠ "") with
  | some value => denied.setNew (kind value) expiresAtMs
  | none => denied

def applyInvalidationLocally (event : SessionInvalidationEvent) (now : Int) :
    DenyList :=
  if event.expiresAtMs ≤ now then denied
  else
    let denied := denied.setText .sessionId event.sessionId event.expiresAtMs
    let denied := denied.setText .jti event.jti event.expiresAtMs
    let denied := match event.refreshTokenHash with
      | some hash => denied.setNew (.refreshTokenHash hash) event.expiresAtMs
      | none => denied
    match event.kind with
    | .allForUser userId => denied.setText .user (some userId) event.expiresAtMs
    | _ => denied

def sweepDenyList (now : Int) : DenyList :=
  denied.deleteWhere fun expiresAt => decide (expiresAt ≤ now)

/-- `isDenied`, called with an object literal as all its callers do. -/
def isDenied (key : DeniedIdentifier) (now : Int) : Bool × DenyList :=
  let (key, denied) := denied.alloc key
  match denied.get key with
  | none => (false, denied)
  | some expiresAt => if expiresAt ≤ now then (false, denied.delete key) else (true, denied)

end

/-! ## Lookups -/

inductive Lookup where
  | byJti (jti userId : String)
  | byId (sessionId userId : String)
  | latest (userId : String)

def isDeniedOrUser (denied : DenyList) (key : DeniedIdentifier) (userId : String) (now : Int) :
    Bool × DenyList :=
  match isDenied denied key now with
  | (true, denied) => (true, denied)
  | (false, denied) => isDenied denied (.user userId) now

def Lookup.shortCircuits (lookup : Lookup) (denied : DenyList) (now : Int) : Bool × DenyList :=
  match lookup with
  | .byJti jti userId => isDeniedOrUser denied (.jti jti) userId now
  | .byId sessionId userId => isDeniedOrUser denied (.sessionId sessionId) userId now
  | .latest userId => isDenied denied (.user userId) now

def Lookup.IsAnswer (lookup : Lookup) (t : UserSessions) (nowIso : Int)
    (result : Option UserSession) : Prop :=
  match lookup with
  | .byJti jti userId => result = getSessionByJtiAndUserId t jti userId nowIso
  | .byId sessionId userId => result = findSessionByIdAndUserId t sessionId userId nowIso
  | .latest userId => IsLatestActiveSession t userId nowIso result

instance (lookup : Lookup) (t : UserSessions) (nowIso : Int) (result : Option UserSession) :
    Decidable (lookup.IsAnswer t nowIso result) :=
  match lookup with
  | .byJti .. => inferInstanceAs (Decidable (_ = _))
  | .byId .. => inferInstanceAs (Decidable (_ = _))
  | .latest userId => inferInstanceAs (Decidable (IsLatestActiveSession t userId nowIso result))

/-! ## The publishers -/

inductive Revocation where
  | all (userId : String)
  | others (userId sessionId : String)
  | othersCounted (userId sessionId : String) (revokedCount : Nat)
  | byId (sessionId : String)
  | byJti (jti : String)
  | byRefreshTokenHash (hash : TokenHash)

structure Published where
  event : SessionInvalidationEvent
  revoked : List String

def singleEvent (kind : UserSession → SessionInvalidationKind) (revoked : UserSession)
    (emittedAtMs : Int) : SessionInvalidationEvent where
  kind := kind revoked
  sessionId := some revoked.sessionId
  jti := some revoked.jti
  refreshTokenHash := some revoked.refreshTokenHash
  emittedAtMs := emittedAtMs

/-- The `UPDATE` of a revocation, and the event it is published with. -/
def Revocation.run (r : Revocation) (t : UserSessions) (nowIso emittedAtMs : Int) :
    UserSessions × Option Published :=
  let allForUser (sessionId : Option String) (userId : String) : SessionInvalidationEvent :=
    { kind := .allForUser userId, sessionId := sessionId, emittedAtMs := emittedAtMs }
  let single (kind : UserSession → SessionInvalidationKind)
      (result : List UserSession × UserSessions) : UserSessions × Option Published :=
    (result.2, result.1.head?.map fun revoked =>
      ⟨singleEvent kind revoked emittedAtMs, [revoked.sessionId]⟩)
  match r with
  | .all userId =>
    let (revoked, t) := revokeSessionsByUserId t userId nowIso
    (t, if revoked = [] then none
      else some ⟨allForUser none userId, revoked.map (·.sessionId)⟩)
  | .others userId sessionId =>
    let (revoked, t) := revokeOtherSessionsByUserId t userId sessionId nowIso
    (t, if revoked = [] then none
      else some ⟨allForUser (some sessionId) userId, revoked.map (·.sessionId)⟩)
  | .othersCounted userId sessionId revokedCount =>
    if revokedCount = 0 then (t, none)
    else
      let (revoked, t) := revokeOtherSessionsByUserId t userId sessionId nowIso
      (t, some ⟨allForUser (some sessionId) userId, revoked.map (·.sessionId)⟩)
  | .byId sessionId => single (.session ·.sessionId) (revokeSessionById t sessionId nowIso)
  | .byJti jti => single (.jti ·.jti) (revokeSessionByJti t jti nowIso)
  | .byRefreshTokenHash hash =>
    single (.refreshTokenHash ·.refreshTokenHash) (revokeSessionByRefreshTokenHash t hash nowIso)

theorem Revocation.onlyRevokes (r : Revocation) (t : UserSessions) (nowIso emittedAtMs : Int) :
    OnlyRevokes t (r.run t nowIso emittedAtMs).1 := by
  cases r with
  | all userId => exact onlyRevokes_revokeWhere t _ nowIso
  | others userId sessionId => exact onlyRevokes_revokeWhere t _ nowIso
  | othersCounted userId sessionId revokedCount =>
    simp only [Revocation.run]
    split
    · exact OnlyRevokes.refl t
    · exact onlyRevokes_revokeWhere t _ nowIso
  | byId sessionId => exact onlyRevokes_revokeWhere t _ nowIso
  | byJti jti => exact onlyRevokes_revokeWhere t _ nowIso
  | byRefreshTokenHash hash => exact onlyRevokes_revokeWhere t _ nowIso

/-! ## Instances -/

structure Peer where
  denied : DenyList
  applied : List Published

structure SessionSystem where
  sessions : UserSessions
  published : List Published
  peers : List Peer

/-- `n` instances that have just started, and no session. -/
def SessionSystem.start (n : Nat) : SessionSystem :=
  ⟨Table.empty _, [], List.replicate n ⟨IdentityMap.empty, []⟩⟩

inductive SessionAction where
  | create (row : UserSession) (nowIso : Int) (maxActiveSessionsPerUser : Nat)
      (order : List UserSession)
  | rotate (sessionId : String) (data : SessionData) (lastUsedAt : Int)
  | revokeExpired (nowIso : Int)
  | revoke (revocation : Revocation) (nowIso emittedAtMs : Int)
  | deliver (peer message : Nat) (now : Int)
  | sweep (peer : Nat) (now : Int)
  | lookup (peer : Nat) (lookup : Lookup) (nowIso now : Int) (result : Option UserSession)

def Peer.deliver (peer : Peer) (message : Published) (now : Int) : Peer where
  denied := applyInvalidationLocally peer.denied message.event now
  applied := if message.event.expiresAtMs ≤ now then peer.applied else peer.applied ++ [message]

def SessionSystem.step (s : SessionSystem) : SessionAction → Option SessionSystem
  | .create row nowIso max order =>
    (createSessionWithActiveLimit s.sessions row nowIso max order).map fun sessions =>
      { s with sessions }
  | .rotate sessionId data lastUsedAt =>
    (rotateSessionWithLock s.sessions sessionId data lastUsedAt).map fun sessions =>
      { s with sessions }
  | .revokeExpired nowIso => some { s with sessions := revokeExpiredSessions s.sessions nowIso }
  | .revoke revocation nowIso emittedAtMs =>
    let (sessions, message) := revocation.run s.sessions nowIso emittedAtMs
    some { s with sessions, published := s.published ++ message.toList }
  | .deliver i k now =>
    match s.peers[i]?, s.published[k]? with
    | some peer, some message => some { s with peers := s.peers.set i (peer.deliver message now) }
    | _, _ => none
  | .sweep i now =>
    match s.peers[i]? with
    | some peer =>
      some { s with peers := s.peers.set i { peer with denied := sweepDenyList peer.denied now } }
    | none => none
  | .lookup i lookup nowIso now result =>
    match s.peers[i]? with
    | some peer =>
      let (short, denied) := lookup.shortCircuits peer.denied now
      if if short then result = none else lookup.IsAnswer s.sessions nowIso result then
        some { s with peers := s.peers.set i { peer with denied } }
      else none
    | none => none

/-! ## What the list is for -/

/-- The sessions a lookup is about, revoked or not; there is at most one with an id or a `jti`. -/
def Lookup.sessions (lookup : Lookup) (t : UserSessions) (nowIso : Int) : List UserSession :=
  match lookup with
  | .byJti jti userId =>
    t.rows.filter fun row => decide (row.jti = jti) && decide (row.userId = userId)
  | .byId sessionId userId =>
    t.rows.filter fun row => decide (row.sessionId = sessionId) && decide (row.userId = userId)
  | .latest userId =>
    t.rows.filter fun row => decide (row.userId = userId) && decide (nowIso < row.expiresAt)

/-- An event that the instance has applied and that has not expired names the session as
revoked. -/
def Peer.Names (peer : Peer) (now : Int) (sessionId : String) : Prop :=
  ∃ message ∈ peer.applied, now < message.event.expiresAtMs ∧ sessionId ∈ message.revoked

instance (peer : Peer) (now : Int) (sessionId : String) : Decidable (peer.Names now sessionId) :=
  inferInstanceAs (Decidable (∃ message ∈ peer.applied, _))

/-- The lookup is about revoked sessions: there are some, and events name all of them. A session
that was kept, or came later, is one that no event names. -/
def Lookup.Named (lookup : Lookup) (t : UserSessions) (peer : Peer) (nowIso now : Int) : Prop :=
  lookup.sessions t nowIso ≠ [] ∧
    ∀ row ∈ lookup.sessions t nowIso, peer.Names now row.sessionId

instance (lookup : Lookup) (t : UserSessions) (peer : Peer) (nowIso now : Int) :
    Decidable (lookup.Named t peer nowIso now) := inferInstanceAs (Decidable (_ ∧ _))

/-- Denied is just what is named, and no revoked session is found. -/
structure Lookup.DeniedExactly (lookup : Lookup) (t : UserSessions) (peer : Peer) (nowIso now : Int)
    (result : Option UserSession) : Prop where
  exact : (lookup.shortCircuits peer.denied now).1 = true ↔ lookup.Named t peer nowIso now
  revoked : ∀ row, result = some row → row.revokedAt = none
  live : (∃ row ∈ lookup.sessions t nowIso, row.isActive nowIso = true) → result.isSome

def LookupsExact (s : SessionSystem) (a : SessionAction) (_ : SessionSystem) : Prop :=
  match a with
  | .lookup i lookup nowIso now result => ∀ peer, s.peers[i]? = some peer →
      lookup.DeniedExactly s.sessions peer nowIso now result
  | _ => True

def NoLookupNamed (s : SessionSystem) (a : SessionAction) : Prop :=
  match a with
  | .lookup i lookup nowIso now _ => ∀ peer, s.peers[i]? = some peer →
      ¬ lookup.Named s.sessions peer nowIso now
  | _ => True

instance (s : SessionSystem) (a : SessionAction) : Decidable (NoLookupNamed s a) :=
  match a with
  | .lookup i lookup nowIso now _ =>
    match h : s.peers[i]? with
    | none => .isTrue fun _ hpeer => nomatch h.symm.trans hpeer
    | some peer => decidable_of_iff (¬ lookup.Named s.sessions peer nowIso now)
        ⟨fun hn _ hpeer => Option.some.inj (h.symm.trans hpeer) ▸ hn, fun hn => hn peer h⟩
  | .create .. | .rotate .. | .revokeExpired .. | .revoke .. | .deliver .. | .sweep .. =>
    .isTrue trivial

/-! ## The list is never hit -/

theorem isDenied_eq_false (denied : DenyList) (key : DeniedIdentifier) (now : Int) :
    (isDenied denied key now).1 = false := by
  unfold isDenied
  have hget := IdentityMap.get_alloc denied key
  cases halloc : denied.alloc key with
  | mk key denied =>
    rw [halloc] at hget
    simp only at hget ⊢
    rw [hget]

theorem isDeniedOrUser_eq_false (denied : DenyList) (key : DeniedIdentifier) (userId : String)
    (now : Int) : (isDeniedOrUser denied key userId now).1 = false := by
  unfold isDeniedOrUser
  have hkey := isDenied_eq_false denied key now
  cases hresult : isDenied denied key now with
  | mk short denied =>
    rw [hresult] at hkey
    cases hkey
    exact isDenied_eq_false denied (.user userId) now

/-- **No lookup is short-circuited.** -/
theorem Lookup.shortCircuits_eq_false (lookup : Lookup) (denied : DenyList) (now : Int) :
    (lookup.shortCircuits denied now).1 = false := by
  cases lookup with
  | byJti jti userId => exact isDeniedOrUser_eq_false denied (.jti jti) userId now
  | byId sessionId userId => exact isDeniedOrUser_eq_false denied (.sessionId sessionId) userId now
  | latest userId => exact isDenied_eq_false denied (.user userId) now

/-! ## What the query answers -/

variable {t : UserSessions} {nowIso : Int}

theorem Lookup.IsAnswer.unrevoked {lookup : Lookup} {row : UserSession}
    (h : lookup.IsAnswer t nowIso (some row)) : row.revokedAt = none := by
  have hactive : row.isActive nowIso = true := by
    cases lookup with
    | byJti jti userId => exact (getSessionByJtiAndUserId_spec h.symm).2.2.2
    | byId sessionId userId => exact (findSessionByIdAndUserId_spec h.symm).2.2.2
    | latest userId => exact (mem_activeSessions.mp h.1).2.2
  exact (UserSession.isActive_iff.mp hactive).1

theorem Lookup.IsAnswer.isSome {lookup : Lookup} {result : Option UserSession}
    (h : lookup.IsAnswer t nowIso result) {row : UserSession}
    (hrow : row ∈ lookup.sessions t nowIso) (hactive : row.isActive nowIso = true) :
    result.isSome := by
  cases lookup with
  | byJti jti userId =>
    simp only [Lookup.sessions, List.mem_filter] at hrow
    obtain rfl : result = getSessionByJtiAndUserId t jti userId nowIso := h
    refine List.find?_isSome.mpr ⟨row, hrow.1, ?_⟩
    rw [hrow.2, hactive]
    rfl
  | byId sessionId userId =>
    simp only [Lookup.sessions, List.mem_filter] at hrow
    obtain rfl : result = findSessionByIdAndUserId t sessionId userId nowIso := h
    refine List.find?_isSome.mpr ⟨row, hrow.1, ?_⟩
    rw [hrow.2, hactive]
    rfl
  | latest userId =>
    simp only [Lookup.sessions, List.mem_filter, Bool.and_eq_true, decide_eq_true_eq] at hrow
    have hmem : row ∈ activeSessions t userId nowIso :=
      mem_activeSessions.mpr ⟨hrow.1, hrow.2.1, hactive⟩
    cases result with
    | some latest => rfl
    | none =>
      have hnone : activeSessions t userId nowIso = [] := h
      rw [hnone] at hmem
      cases hmem

/-! ## Every run -/

/-- **A lookup is what it should be just when no event names its sessions.** -/
theorem deniedExactly_iff {lookup : Lookup} {peer : Peer} {now : Int} {result : Option UserSession}
    (h : lookup.IsAnswer t nowIso result) :
    lookup.DeniedExactly t peer nowIso now result ↔ ¬ lookup.Named t peer nowIso now := by
  have hfalse := lookup.shortCircuits_eq_false peer.denied now
  constructor
  · intro hexact hnamed
    have htrue := hexact.exact.mpr hnamed
    rw [hfalse] at htrue
    cases htrue
  · intro hnamed
    refine ⟨?_, ?_, ?_⟩
    · rw [hfalse]
      exact iff_of_false Bool.false_ne_true hnamed
    · rintro row rfl
      exact h.unrevoked
    · rintro ⟨row, hrow, hactive⟩
      exact h.isSome hrow hactive

/-- **The deny-list denies exactly the revoked if and only if it is never asked about them.** In
every run of any number of instances, with sessions created, rotated and revoked and the events
delivered in any order: every lookup is short-circuited just when events that were applied name its
sessions as revoked, if and only if there is no lookup for which they do. -/
theorem denyList_exact_iff {n : Nat} {as : List SessionAction} {s : SessionSystem}
    (h : exec SessionSystem.step (SessionSystem.start n) as = some s) :
    EachStep SessionSystem.step LookupsExact (SessionSystem.start n) as ↔
      Along SessionSystem.step NoLookupNamed (SessionSystem.start n) as := by
  refine along_iff_eachStep (I := fun _ => True) (fun _ _ _ _ _ => trivial) ?_ h trivial
  intro s a s' _ hstep
  cases a with
  | lookup i lookup nowIso now result =>
    simp only [SessionSystem.step] at hstep
    show (∀ peer, s.peers[i]? = some peer → ¬ lookup.Named s.sessions peer nowIso now) ↔
      ∀ peer, s.peers[i]? = some peer → lookup.DeniedExactly s.sessions peer nowIso now result
    cases hpeer : s.peers[i]? with
    | none =>
      rw [hpeer] at hstep
      cases hstep
    | some peer =>
      rw [hpeer] at hstep
      simp only [lookup.shortCircuits_eq_false] at hstep
      have hanswer : lookup.IsAnswer s.sessions nowIso result := by
        by_contra hn
        rw [if_neg (by simpa using hn)] at hstep
        cases hstep
      constructor
      · rintro hn _ ⟨⟩
        exact (deniedExactly_iff hanswer).mpr (hn peer rfl)
      · rintro hn _ ⟨⟩
        exact (deniedExactly_iff hanswer).mp (hn peer rfl)
  | create => exact Iff.rfl
  | rotate => exact Iff.rfl
  | revokeExpired => exact Iff.rfl
  | revoke => exact Iff.rfl
  | deliver => exact Iff.rfl
  | sweep => exact Iff.rfl

def sampleSession (userId sessionId jti : String) (createdAt expiresAt : Int) : UserSession :=
  newSession userId sessionId ⟨jti, .sha256 ⟨userId, jti, 0, 1000⟩, none, none, none, "desktop",
    expiresAt⟩ createdAt

/-- One of two sessions is revoked and the event arrives: the other one is found. -/
theorem denyList_exact_of_other_session :
    let first := sampleSession "ada" "s1" "j1" 10 900
    let second := sampleSession "ada" "s2" "j2" 20 900
    let revocation : SessionAction := .revoke (.byId "s1") 30 0
    let as : List SessionAction :=
      [.create first 10 5 [first], .create second 20 5 [first, second], revocation,
        .deliver 1 0 1, .sweep 1 2, .lookup 1 (.byJti "j2" "ada") 40 3 (some second),
        .lookup 1 (.latest "ada") 40 3 (some second)]
    EachStep SessionSystem.step LookupsExact (SessionSystem.start 2) as := by
  intro first second revocation as
  obtain ⟨s, hs, -⟩ : ∃ s, exec SessionSystem.step (SessionSystem.start 2) as = some s ∧
      s.published.length = 1 := Option.map_eq_some_iff.mp (by decide +kernel)
  exact (denyList_exact_iff hs).mpr (by decide +kernel)

/-- A session is revoked by its id, the event arrives, and the same instance is asked for the
session: the event names it, and the list says nothing. -/
theorem revoked_session_not_denied :
    let session := sampleSession "ada" "s1" "j1" 10 900
    ¬ EachStep SessionSystem.step LookupsExact (SessionSystem.start 1)
      [.create session 10 5 [session], .revoke (.byId "s1") 30 0, .deliver 0 0 1,
        .lookup 0 (.byId "s1" "ada") 40 2 none] := by
  intro session h
  let asked : Lookup := .byId "s1" "ada"
  obtain ⟨m, t, hok, hnamed, -⟩ := h.read
    [.create session 10 5 [session], .revoke (.byId "s1") 30 0, .deliver 0 0 1]
    (.lookup 0 asked 40 2 none) (List.prefix_refl _)
    (fun m => m.peers[0]?.any fun peer => decide (asked.Named m.sessions peer 40 2)) true
    (fun t => t.published.length) 1 (by decide +kernel) (by decide +kernel)
  obtain ⟨peer, hpeer, hnamed⟩ := (Option.any_eq_true _ _).mp hnamed
  have hexact := hok peer hpeer
  have htrue := hexact.exact.mpr (of_decide_eq_true hnamed)
  rw [asked.shortCircuits_eq_false] at htrue
  cases htrue

end QuizBackend.Auth
