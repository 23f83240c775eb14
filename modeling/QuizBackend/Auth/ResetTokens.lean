import QuizBackend.Auth.Passwords

/-!
# Reset tokens

A reset token should change the password once, before it expires, and only as long as no later one
was asked for. A user should never have two that can be used, and a reset should leave no session
open.

Two of these hold however requests come together. Nobody uses a token twice: whoever sets the
password has seen the token active under the user's lock, and has made it inactive before the lock
was free again. And the last `UPDATE` of a reset takes in every session of the user. The others rest
on what the requests for a token do, and these do not take the lock.

* Two requests of one user revoke what they see, and neither sees the token of the other. Both
  tokens can be used afterwards, and the older one changes the password.
* A request that commits after a reset has looked under the lock makes its token inactive. The reset
  sets the password all the same: its `UPDATE` of the token matches no row, and nobody looks at
  that.
* `nowIso` is read when the reset comes in, before the password is hashed and the lock is granted,
  so the token may expire before the password is set.

Where no request overlaps with another one, and a token is still active and has not expired when its
reset commits, all of it holds, and nowhere else (`reset_tokens_superseded`).
-/

namespace QuizBackend.Auth

open Lib PasswordSystem Table PasswordResetToken
open Option (bind_eq_some_iff map_eq_some_iff)

/-! ## What should hold -/

namespace PasswordSystem

/-- Of the requests of the user that were committed, the last is the one of this token. -/
def IsLatestRequest (s : PasswordSystem) (userId tokenHash : String) : Prop :=
  (s.requested.filter fun request => decide (request.1 = userId)).getLast? =
    some (userId, tokenHash)

instance (s : PasswordSystem) (userId tokenHash : String) :
    Decidable (s.IsLatestRequest userId tokenHash) := inferInstanceAs (Decidable (_ = _))

end PasswordSystem

/-- No token was used twice, one that can be used is the last one that was asked for, and nobody has
two of these. -/
structure ResetTokensOk (s : PasswordSystem) : Prop where
  once : (s.done.map (·.tokenHash)).Nodup
  superseded : ∀ token ∈ s.db.tokens.rows, token.isUsable s.clock = true →
    s.IsLatestRequest token.userId token.tokenHash
  single : ∀ token ∈ s.db.tokens.rows, ∀ other ∈ s.db.tokens.rows, token.userId = other.userId →
    token.isUsable s.clock = true → other.isUsable s.clock = true → token = other

/-- A reset that commits does so before its token expires and while no later request was committed,
and it revokes the sessions of the user. -/
def ResetOk (s : PasswordSystem) (a : Int × PasswordAction) (s' : PasswordSystem) : Prop :=
  ∀ callId, a.2 = .resetCommit callId → ∀ c, s.resets.find? callId = some c →
    ∀ hash userId, c.phase = .validated hash userId →
      (∃ token ∈ s.db.tokens.rows, token.userId = userId ∧ token.tokenHash = c.tokenHash ∧
        a.1 < token.expiresAt) ∧
      s.IsLatestRequest userId c.tokenHash ∧
      ∀ row ∈ s.db.sessions.rows, row.userId = userId → row.revokedAt = none →
        s'.db.sessions.find? row.sessionId = some { row with revokedAt := some c.nowIso }

/-- Where it does: a request has seen every token of the user that can be used when it commits, and
the token of a reset is active, and has not expired, when that commits. -/
def TokensInTime (s : PasswordSystem) (a : Int × PasswordAction) : Prop :=
  match a.2 with
  | .requestCommit tokenHash => ∀ r, s.requests.find? tokenHash = some r →
    ∀ token ∈ s.db.tokens.rows, token.userId = r.userId → token.isUsable a.1 = true →
      token.tokenHash ∈ r.read.getD []
  | .resetCommit callId => ∀ c, s.resets.find? callId = some c →
    ∃ token ∈ s.db.tokens.rows, token.tokenHash = c.tokenHash ∧ token.isActive = true ∧
      a.1 < token.expiresAt
  | _ => True

instance (s : PasswordSystem) (a : Int × PasswordAction) : Decidable (TokensInTime s a) :=
  match a with
  | (now, .requestCommit tokenHash) => decidableOfFind (s.requests.find? tokenHash) fun r =>
      ∀ token ∈ s.db.tokens.rows, token.userId = r.userId → token.isUsable now = true →
        token.tokenHash ∈ r.read.getD []
  | (now, .resetCommit callId) => decidableOfFind (s.resets.find? callId) fun c =>
      ∃ token ∈ s.db.tokens.rows, token.tokenHash = c.tokenHash ∧ token.isActive = true ∧
        now < token.expiresAt
  | (_, .requestBegin ..) | (_, .requestUpdate _) | (_, .resetBegin ..) | (_, .resetFind ..)
  | (_, .resetLocate _) | (_, .resetValidate _) | (_, .resetAbort _) | (_, .changeBegin ..)
  | (_, .changeCheck _) | (_, .changePrepare ..) | (_, .changeCommit _) | (_, .login _) =>
    .isTrue trivial

/-! ## Tokens -/

variable {token : PasswordResetToken} {r : ResetRequest} {c : ResetCall}

theorem PasswordResetToken.isUsable_iff {nowIso : Int} :
    token.isUsable nowIso = true ↔ token.isActive = true ∧ nowIso < token.expiresAt ∧
      token.usedAt = none ∧ token.revokedAt = none := by
  simp [isUsable, and_assoc]

theorem PasswordResetToken.isUsable_of_le {nowIso later : Int} (h : token.isUsable later = true)
    (hle : nowIso ≤ later) : token.isUsable nowIso = true := by
  obtain ⟨hactive, hexpires, hnever⟩ := isUsable_iff.mp h
  exact isUsable_iff.mpr ⟨hactive, Int.lt_of_le_of_lt hle hexpires, hnever⟩

namespace PasswordSystem

def HasToken (s : PasswordSystem) (userId tokenHash : String) : Prop :=
  ∃ token ∈ s.db.tokens.rows, token.userId = userId ∧ token.tokenHash = tokenHash

/-- The token can still be used. -/
def IsTokenActive (s : PasswordSystem) (tokenHash : String) : Prop :=
  ∃ token ∈ s.db.tokens.rows, token.tokenHash = tokenHash ∧ token.isActive = true

theorem HasToken.userId_eq {s : PasswordSystem} {userId other tokenHash : String}
    (h : s.HasToken userId tokenHash) (h' : s.HasToken other tokenHash) : userId = other := by
  obtain ⟨token, hmem, rfl, hhash⟩ := h
  obtain ⟨token', hmem', rfl, hhash'⟩ := h'
  rw [eq_of_key_eq hmem hmem' (hhash.trans hhash'.symm)]

theorem isLatestRequest_append {s s' : PasswordSystem} {newUser newToken : String}
    (h : s'.requested = s.requested ++ [(newUser, newToken)]) (userId tokenHash : String) :
    s'.IsLatestRequest userId tokenHash ↔
      if newUser = userId then tokenHash = newToken else s.IsLatestRequest userId tokenHash := by
  unfold IsLatestRequest
  rw [h, List.filter_append]
  by_cases huser : newUser = userId
  · have hnew : [(newUser, newToken)].filter (fun request => decide (request.1 = userId)) =
        [(newUser, newToken)] := List.filter_cons_of_pos (decide_eq_true huser)
    rw [if_pos huser, hnew, List.getLast?_append, List.getLast?_singleton, Option.some_or,
      Option.some.injEq, Prod.mk.injEq]
    exact ⟨fun heq => heq.2.symm, fun heq => ⟨huser, heq.symm⟩⟩
  · have hnew : [(newUser, newToken)].filter (fun request => decide (request.1 = userId)) = [] :=
      List.filter_cons_of_neg (by simpa using huser)
    rw [if_neg huser, hnew, List.append_nil]

/-- What the commit of a request does to the tokens: the ones that were read are not active any
more, and there is one more, with a hash of its own. -/
theorem requestCommit_spec {s s' : PasswordSystem} (hstep : s.requestCommit r = some s') :
    (∀ token ∈ s.db.tokens.rows, token.tokenHash ≠ r.tokenHash) ∧
      (∀ token, token ∈ s'.db.tokens.rows ↔
        token = newResetToken r.userId r.tokenHash r.expiresAt ∨
          ∃ before ∈ s.db.tokens.rows,
            (if before.tokenHash ∈ r.read.getD [] ∧ before.isOpen then
              { before with revokedAt := some r.nowIso, isActive := false } else before) = token) ∧
      ∃ tokens, s' = { s with
        db := { s.db with tokens }
        requests := s.requests.erase r.tokenHash
        requested := s.requested ++ [(r.userId, r.tokenHash)] } := by
  unfold requestCommit at hstep
  split at hstep
  · next read hread =>
    obtain ⟨tokens, hinsert, rfl⟩ := map_eq_some_iff.mp hstep
    refine ⟨?_, ?_, tokens, rfl⟩
    · have hnone := find?_of_insert? hinsert
      unfold revokeTokens at hnone
      rw [find?_update, Option.map_eq_none_iff] at hnone
      exact fun token hmem hhash =>
        find?_eq_none_iff.mp hnone (List.mem_map.mpr ⟨token, hmem, hhash⟩)
    · intro token
      rw [hread, Option.getD_some, rows_of_insert? hinsert, List.mem_append,
        List.mem_singleton, or_comm]
      exact Iff.or Iff.rfl List.mem_map
  · cases hstep

theorem resetCommit_spec {s s' : PasswordSystem} {hash : PasswordHash} {userId : String}
    (hphase : c.phase = .validated hash userId) (hstep : s.resetCommit c = some s') :
    s' = { s with
      db := resetPassword s.db c.tokenHash userId hash c.nowIso
      resets := s.resets.erase c.callId
      done := s.done ++ [⟨c.tokenHash, userId, s.clock⟩]
      former := s.replaced userId ++ s.former } ∧
      ∀ token, token ∈ s'.db.tokens.rows ↔ ∃ before ∈ s.db.tokens.rows,
        (if before.tokenHash = c.tokenHash then
          if before.userId = userId ∧ before.isActive then
            { before with usedAt := some c.nowIso, isActive := false }
          else before
        else before) = token := by
  unfold resetCommit at hstep
  rw [hphase] at hstep
  cases hstep
  exact ⟨rfl, fun token => List.mem_map⟩

theorem active_of_resetCommit {s s' : PasswordSystem} {hash : PasswordHash} {userId : String}
    (hphase : c.phase = .validated hash userId) (hhad : s.HasToken userId c.tokenHash)
    (hstep : s.resetCommit c = some s') (hmem : token ∈ s'.db.tokens.rows)
    (hactive : token.isActive = true) :
    token ∈ s.db.tokens.rows ∧ token.tokenHash ≠ c.tokenHash := by
  obtain ⟨before, hbefore, rfl⟩ := ((resetCommit_spec hphase hstep).2 token).mp hmem
  by_cases hhash : before.tokenHash = c.tokenHash
  · have huser : before.userId = userId := HasToken.userId_eq ⟨before, hbefore, rfl, hhash⟩ hhad
    rw [if_pos hhash] at hactive
    split at hactive
    · cases hactive
    · next hinactive => exact absurd ⟨huser, hactive⟩ hinactive
  · rw [if_neg hhash]
    exact ⟨hbefore, hhash⟩

end PasswordSystem

/-! ## What a reset in flight rests on -/

structure SameTokens (s s' : PasswordSystem) : Prop where
  tokens : s'.db.tokens = s.db.tokens
  requested : s'.requested = s.requested
  done : s'.done = s.done
  clock : s'.clock = s.clock

structure Aside (s s' : PasswordSystem) : Prop extends SameTokens s s' where
  requests : s'.requests = s.requests
  resets : s'.resets = s.resets

/-- The user that a reset has found is the one of the token. Once it has the lock, the token has not
been used, and it is active unless a later request was committed. -/
def ResetCall.Ok (s : PasswordSystem) (c : ResetCall) : Prop :=
  match c.phase with
  | .begun | .found _ => True
  | .located _ userId => s.HasToken userId c.tokenHash
  | .validated _ userId =>
    s.HasToken userId c.tokenHash ∧ c.tokenHash ∉ s.done.map (·.tokenHash) ∧
      (s.IsTokenActive c.tokenHash ∨ ¬ s.IsLatestRequest userId c.tokenHash)

/-- Which tokens are spent, what calls have read of them, and what they lock. -/
structure ResetInv (s : PasswordSystem) : Prop where
  unused : ∀ token ∈ s.db.tokens.rows, token.isActive = true →
    token.usedAt = none ∧ token.revokedAt = none
  read : ∀ r ∈ s.requests.rows, ∀ tokenHash ∈ r.read.getD [], s.HasToken r.userId tokenHash
  spent : ∀ done ∈ s.done, s.HasToken done.userId done.tokenHash ∧ ¬ s.IsTokenActive done.tokenHash
  once : (s.done.map (·.tokenHash)).Nodup
  calls : ∀ c ∈ s.resets.rows, c.Ok s
  alone : ∀ c ∈ s.resets.rows, ∀ c' ∈ s.resets.rows, ∀ userId, c.phase.lock = some userId →
    c'.phase.lock = some userId → c = c'

namespace ResetInv

variable {s s' : PasswordSystem}

theorem start (users : Table String UserCredentials (·.userId)) :
    ResetInv (start users) where
  unused _ h := absurd h List.not_mem_nil
  read _ h := absurd h List.not_mem_nil
  spent _ h := absurd h List.not_mem_nil
  once := List.nodup_nil
  calls _ h := absurd h List.not_mem_nil
  alone _ h := absurd h List.not_mem_nil

section

variable (h : ResetInv s)
include h

theorem frame (htokens : s'.db.tokens = s.db.tokens)
    (hrequested : s'.requested = s.requested) (hdone : s'.done = s.done)
    (hrequests : ∀ r ∈ s'.requests.rows, r ∈ s.requests.rows ∨
      ∀ tokenHash ∈ r.read.getD [], s.HasToken r.userId tokenHash)
    (hresets : ∀ c ∈ s'.resets.rows, c ∈ s.resets.rows ∨ c.Ok s ∧ c.phase.lock = none) :
    ResetInv s' := by
  have hhas : ∀ userId tokenHash, s'.HasToken userId tokenHash ↔ s.HasToken userId tokenHash := by
    intro userId tokenHash
    unfold HasToken
    rw [htokens]
  have hok : ∀ c : ResetCall, c.Ok s' ↔ c.Ok s := by
    intro c
    unfold ResetCall.Ok HasToken IsTokenActive
      IsLatestRequest
    rw [htokens, hrequested, hdone]
  refine ⟨?_, ?_, ?_, ?_, ?_, ?_⟩
  · rw [htokens]
    exact h.unused
  · intro r hr tokenHash hread
    rw [hhas]
    rcases hrequests r hr with hr | hr
    · exact h.read r hr tokenHash hread
    · exact hr tokenHash hread
  · unfold HasToken IsTokenActive
    rw [htokens, hdone]
    exact h.spent
  · rw [hdone]
    exact h.once
  · intro c hc
    rw [hok]
    rcases hresets c hc with hc | ⟨hc, -⟩
    · exact h.calls c hc
    · exact hc
  · intro c hc c' hc' userId hlock hlock'
    rcases hresets c hc with hc | ⟨-, hc⟩
    · rcases hresets c' hc' with hc' | ⟨-, hc'⟩
      · exact h.alone c hc c' hc' userId hlock hlock'
      · exact nomatch hc'.symm.trans hlock'
    · exact nomatch hc.symm.trans hlock

theorem requestBegin {userId tokenHash : String} {expiresAt : Int}
    (hstep : s.requestBegin userId tokenHash expiresAt = some s') : ResetInv s' := by
  unfold PasswordSystem.requestBegin at hstep
  split at hstep
  · obtain ⟨requests, hinsert, rfl⟩ := map_eq_some_iff.mp hstep
    refine h.frame rfl rfl rfl ?_ fun c hc => .inl hc
    intro r hr
    rw [rows_of_insert? hinsert] at hr
    rcases List.mem_append.mp hr with hr | hr
    · exact .inl hr
    · rw [List.mem_singleton.mp hr]
      exact .inr fun tokenHash hread => absurd hread List.not_mem_nil
  · cases hstep

theorem requestUpdate (hstep : s.requestUpdate r = some s') : ResetInv s' := by
  unfold PasswordSystem.requestUpdate at hstep
  split at hstep
  · cases hstep
    refine h.frame rfl rfl rfl ?_ fun c hc => .inl hc
    intro r' hr'
    have hmem : r' ∈ (s.requests.modify r.tokenHash
      (fun r => { r with read := some (openTokens s.db r.userId) }) fun _ => rfl).rows := hr'
    obtain ⟨x, hx, rfl⟩ := mem_modify.mp hmem
    split
    · refine .inr fun tokenHash hread => ?_
      obtain ⟨token, hmem, rfl⟩ := List.mem_map.mp hread
      obtain ⟨hmem, hp⟩ := List.mem_filter.mp hmem
      exact ⟨token, hmem, of_decide_eq_true (Bool.and_eq_true_iff.mp hp).1, rfl⟩
    · exact .inl hx
  · cases hstep

section

variable (hc : c ∈ s.resets.rows)
include hc

theorem advanceReset {phase : Option ResetPhase}
    (hphase : ∀ p, phase = some p → ResetCall.Ok s { c with phase := p } ∧ p.lock = none) :
    ResetInv (s.advanceReset c.callId phase) := by
  obtain ⟨resets, hadvance, hresets⟩ := advanceReset_spec hc phase
  rw [hadvance]
  refine h.frame rfl rfl rfl (fun r hr => .inl hr) ?_
  intro c' hc'
  rcases hresets c' hc' with ⟨hc', -⟩ | ⟨p, hp, rfl⟩
  · exact .inl hc'
  · exact .inr (hphase p hp)

theorem resetFind {salt : String}
    (hstep : s.resetFind c salt = some s') : ResetInv s' := by
  unfold PasswordSystem.resetFind at hstep
  split at hstep
  · split at hstep
    · split at hstep
      · cases hstep
      · cases hstep
        have hfound : ResetInv (s.advanceReset c.callId (some (.found ⟨c.newPassword, salt⟩))) := by
          refine h.advanceReset hc ?_
          rintro p ⟨⟩
          exact ⟨trivial, rfl⟩
        exact hfound.frame rfl rfl rfl (fun r hr => .inl hr) fun c hc => .inl hc
    · cases hstep
      exact h.advanceReset hc fun p hp => nomatch hp
  · cases hstep

theorem resetLocate (hstep : s.resetLocate c = some s') :
    ResetInv s' := by
  unfold PasswordSystem.resetLocate at hstep
  split at hstep
  · next hash _ =>
    cases hstep
    refine h.advanceReset hc ?_
    intro p hp
    obtain ⟨userId, hfound, rfl⟩ := map_eq_some_iff.mp hp
    refine ⟨?_, rfl⟩
    unfold findActivePasswordResetTokenByHash at hfound
    split at hfound
    · next token htoken =>
      split at hfound
      · cases hfound
        exact ⟨token, mem_of_find? htoken, rfl, key_of_find? htoken⟩
      · cases hfound
    · cases hfound
  · cases hstep

/-- Under the lock, the token is active; whoever used it would have left it inactive. -/
theorem resetValidate (hstep : s.resetValidate c = some s') : ResetInv s' := by
  unfold PasswordSystem.resetValidate at hstep
  split at hstep
  · next hash userId hphase =>
    split at hstep
    · cases hstep
    · next hfree =>
      cases hstep
      split
      · next hvalid =>
        obtain ⟨token, hfind, hvalid⟩ := (Option.any_eq_true _ _).mp hvalid
        have hactive : s.IsTokenActive c.tokenHash := by
          simp only [isValid, Bool.and_eq_true] at hvalid
          exact ⟨token, mem_of_find? hfind, key_of_find? hfind, hvalid.1.1⟩
        have hlocated : s.HasToken userId c.tokenHash := by
          have hok := h.calls c hc
          unfold ResetCall.Ok at hok
          rw [hphase] at hok
          exact hok
        have hunspent : c.tokenHash ∉ s.done.map (·.tokenHash) := by
          intro hmem
          obtain ⟨done, hdone, hhash⟩ := List.mem_map.mp hmem
          exact (h.spent done hdone).2 (hhash ▸ hactive)
        obtain ⟨resets, hadvance, hresets⟩ :=
          advanceReset_spec hc (some (.validated hash userId))
        rw [hadvance]
        refine ⟨h.unused, h.read, h.spent, h.once, ?_, ?_⟩
        · intro c' hc'
          rcases hresets c' hc' with ⟨hc', -⟩ | ⟨p, hp, rfl⟩
          · exact h.calls c' hc'
          · cases hp
            exact ⟨hlocated, hunspent, .inl hactive⟩
        · intro c₁ hc₁ c₂ hc₂ other hlock₁ hlock₂
          rcases hresets c₁ hc₁ with ⟨hc₁, -⟩ | ⟨p₁, hp₁, rfl⟩
          · rcases hresets c₂ hc₂ with ⟨hc₂, -⟩ | ⟨p₂, hp₂, rfl⟩
            · exact h.alone c₁ hc₁ c₂ hc₂ other hlock₁ hlock₂
            · cases hp₂
              cases hlock₂
              exact absurd ⟨c₁, hc₁, hlock₁⟩ hfree
          · cases hp₁
            cases hlock₁
            rcases hresets c₂ hc₂ with ⟨hc₂, -⟩ | ⟨p₂, hp₂, rfl⟩
            · exact absurd ⟨c₂, hc₂, hlock₂⟩ hfree
            · cases hp₂
              rfl
      · refine h.advanceReset hc ?_
        intro p hp
        cases hp
  · cases hstep

end

/-- A request that commits: the tokens it has read are of its user, and they are not the latest any
more. -/
theorem requestCommit (hr : r ∈ s.requests.rows)
    (hstep : s.requestCommit r = some s') : ResetInv s' := by
  obtain ⟨hfresh, hrows, tokens, rfl⟩ := requestCommit_spec hstep
  have hhas : ∀ userId tokenHash, s.HasToken userId tokenHash →
      HasToken { s with
        db := { s.db with tokens }
        requests := s.requests.erase r.tokenHash
        requested := s.requested ++ [(r.userId, r.tokenHash)] } userId tokenHash := by
    rintro _ _ ⟨token, hmem, rfl, rfl⟩
    refine ⟨_, (hrows _).mpr (.inr ⟨token, hmem, rfl⟩), ?_, ?_⟩ <;> split <;> rfl
  -- what is active afterwards is the new token, or was active before and was not read
  have hactive : ∀ token ∈ tokens.rows, token.isActive = true →
      token = newResetToken r.userId r.tokenHash r.expiresAt ∨ token ∈ s.db.tokens.rows := by
    intro token hmem hact
    rcases (hrows token).mp hmem with rfl | ⟨before, hbefore, rfl⟩
    · exact .inl rfl
    · split at hact
      · cases hact
      · next hkeep =>
        rw [if_neg hkeep]
        exact .inr hbefore
  refine ⟨?_, ?_, ?_, h.once, ?_, h.alone⟩
  · intro token hmem hact
    rcases hactive token hmem hact with rfl | hbefore
    · exact ⟨rfl, rfl⟩
    · exact h.unused token hbefore hact
  · intro r' hr' tokenHash hread
    exact hhas _ _ (h.read r' (mem_erase.mp hr').1 tokenHash hread)
  · intro done hdone
    obtain ⟨hhad, hinactive⟩ := h.spent done hdone
    refine ⟨hhas _ _ hhad, ?_⟩
    rintro ⟨token, hmem, hhash, hact⟩
    rcases hactive token hmem hact with rfl | hbefore
    · obtain ⟨before, hbefore, -, hsame⟩ := hhad
      exact hfresh before hbefore (hsame.trans hhash.symm)
    · exact hinactive ⟨token, hbefore, hhash, hact⟩
  · intro c hc
    have hok := h.calls c hc
    unfold ResetCall.Ok at hok ⊢
    split at hok
    · trivial
    · trivial
    · exact hhas _ _ hok
    · next hash userId _ =>
      obtain ⟨hhad, hunspent, hstate⟩ := hok
      refine ⟨hhas _ _ hhad, hunspent, ?_⟩
      have hother : c.tokenHash ≠ r.tokenHash := by
        obtain ⟨before, hbefore, -, hsame⟩ := hhad
        exact hsame ▸ hfresh before hbefore
      rw [isLatestRequest_append rfl]
      by_cases huser : r.userId = userId
      · rw [if_pos huser]
        exact .inr hother
      · rw [if_neg huser]
        refine hstate.imp_left ?_
        rintro ⟨token, hmem, hhash, hact⟩
        -- nothing of another user was read
        have hunread : token.tokenHash ∉ r.read.getD [] := fun hread =>
          huser ((h.read r hr _ hread).userId_eq (hhash ▸ hhad))
        refine ⟨token, (hrows token).mpr (.inr ⟨token, hmem, ?_⟩), hhash, hact⟩
        exact if_neg fun hopen => hunread hopen.1

theorem resetCommit (hc : c ∈ s.resets.rows) (hstep : s.resetCommit c = some s') :
    ResetInv s' := by
  cases hphase : c.phase with
  | begun | found _ | located _ _ =>
    unfold PasswordSystem.resetCommit at hstep
    rw [hphase] at hstep
    cases hstep
  | validated hash userId =>
    obtain ⟨hs', hrows⟩ := resetCommit_spec hphase hstep
    have hok := h.calls c hc
    unfold ResetCall.Ok at hok
    rw [hphase] at hok
    obtain ⟨hhad, hunspent, -⟩ := hok
    have hhas : ∀ userId tokenHash, s.HasToken userId tokenHash → s'.HasToken userId tokenHash := by
      rintro _ _ ⟨token, hmem, rfl, rfl⟩
      refine ⟨_, (hrows _).mpr ⟨token, hmem, rfl⟩, ?_, ?_⟩ <;> grind
    have hactive : ∀ token ∈ s'.db.tokens.rows, token.isActive = true →
        token ∈ s.db.tokens.rows ∧ token.tokenHash ≠ c.tokenHash :=
      fun token => active_of_resetCommit hphase hhad hstep
    rw [hs'] at hhas hactive ⊢
    refine ⟨?_, ?_, ?_, ?_, ?_, ?_⟩
    · intro token hmem hact
      exact h.unused token (hactive token hmem hact).1 hact
    · intro r hr tokenHash hread
      exact hhas _ _ (h.read r hr tokenHash hread)
    · intro done hdone
      rcases List.mem_append.mp hdone with hdone | hdone
      · refine ⟨hhas _ _ (h.spent done hdone).1, ?_⟩
        rintro ⟨token, hmem, hhash, hact⟩
        exact (h.spent done hdone).2 ⟨token, (hactive token hmem hact).1, hhash, hact⟩
      · rw [List.mem_singleton.mp hdone]
        refine ⟨hhas _ _ hhad, ?_⟩
        rintro ⟨token, hmem, hhash, hact⟩
        exact (hactive token hmem hact).2 hhash
    · rw [List.map_append]
      exact List.nodup_append_comm.mp (List.nodup_cons.mpr ⟨hunspent, h.once⟩)
    · intro c' hc'
      obtain ⟨hmem', hne⟩ := mem_erase.mp hc'
      have hok' := h.calls c' hmem'
      unfold ResetCall.Ok at hok' ⊢
      split at hok'
      · trivial
      · trivial
      · exact hhas _ _ hok'
      · next hash' userId' hphase' =>
        obtain ⟨hhad', hunspent', hstate'⟩ := hok'
        have hother : c'.tokenHash ≠ c.tokenHash := by
          intro hsame
          have huser : userId' = userId := hhad'.userId_eq (hsame ▸ hhad)
          have halone := h.alone c hc c' hmem' userId (by rw [hphase]; rfl)
            (by rw [hphase', huser]; rfl)
          exact hne (halone ▸ rfl)
        refine ⟨hhas _ _ hhad', ?_, hstate'.imp_left ?_⟩
        · rw [List.map_append, List.mem_append, not_or]
          exact ⟨hunspent', by simpa using hother⟩
        · rintro ⟨token, hmem, hhash, hact⟩
          refine ⟨token, (hs' ▸ hrows token).mpr ⟨token, hmem, ?_⟩, hhash, hact⟩
          exact if_neg fun hsame => hother (hhash.symm.trans hsame)
    · intro c₁ hc₁ c₂ hc₂
      exact h.alone c₁ (mem_erase.mp hc₁).1 c₂ (mem_erase.mp hc₂).1

theorem aside (haside : Aside s s') : ResetInv s' :=
  h.frame haside.tokens haside.requested haside.done (fun _ hr => .inl (haside.requests ▸ hr))
    fun _ hc => .inl (haside.resets ▸ hc)

end

end ResetInv

/-! ## What the other steps leave alone -/

namespace PasswordSystem

variable {s s' : PasswordSystem} {maxPasswordHistorySize : Nat}

theorem aside_advanceChange (s : PasswordSystem) (callId : String) (phase : Option ChangePhase) :
    Aside s (s.advanceChange callId phase) := by
  cases phase <;> exact ⟨⟨rfl, rfl, rfl, rfl⟩, rfl, rfl⟩

theorem aside_changeBegin {callId userId currentPassword newPassword currentSessionId : String}
    (hstep : s.changeBegin callId userId currentPassword newPassword currentSessionId = some s') :
    Aside s s' := by
  unfold changeBegin at hstep
  split at hstep
  · split at hstep
    · obtain ⟨changes, -, rfl⟩ := map_eq_some_iff.mp hstep
      exact ⟨⟨rfl, rfl, rfl, rfl⟩, rfl, rfl⟩
    · cases hstep
      exact ⟨⟨rfl, rfl, rfl, rfl⟩, rfl, rfl⟩
  · cases hstep
    exact ⟨⟨rfl, rfl, rfl, rfl⟩, rfl, rfl⟩

theorem aside_changeCheck {c : ChangeCall}
    (hstep : s.changeCheck maxPasswordHistorySize c = some s') : Aside s s' := by
  unfold changeCheck at hstep
  split at hstep
  · cases hstep
    exact aside_advanceChange s _ _
  · cases hstep

theorem aside_changePrepare {c : ChangeCall} {salt : String}
    (hstep : s.changePrepare c salt = some s') : Aside s s' := by
  unfold changePrepare at hstep
  split at hstep
  · split at hstep
    · cases hstep
    · cases hstep
      have h := aside_advanceChange s c.callId (some (.prepared s.clock ⟨c.newPassword, salt⟩))
      exact ⟨⟨h.tokens, h.requested, h.done, h.clock⟩, h.requests, h.resets⟩
  · cases hstep

theorem aside_changeCommit {c : ChangeCall}
    (hstep : s.changeCommit maxPasswordHistorySize c = some s') : Aside s s' := by
  unfold changeCommit at hstep
  split at hstep
  · split at hstep
    · cases hstep
    · obtain ⟨db, hdb, rfl⟩ := map_eq_some_iff.mp hstep
      have htokens : db.tokens = s.db.tokens := by
        obtain ⟨archived, harchive, rfl⟩ := map_eq_some_iff.mp hdb
        obtain ⟨history, -, rfl⟩ := map_eq_some_iff.mp harchive
        rfl
      have h := aside_advanceChange s c.callId none
      exact ⟨⟨htokens, h.requested, h.done, h.clock⟩, h.requests, h.resets⟩
  · cases hstep

theorem aside_login {row : UserSession}
    (hstep : s.run maxPasswordHistorySize (.login row) = some s') : Aside s s' := by
  simp only [run] at hstep
  split at hstep
  · cases hstep
  · obtain ⟨sessions, -, rfl⟩ := map_eq_some_iff.mp hstep
    exact ⟨⟨rfl, rfl, rfl, rfl⟩, rfl, rfl⟩

theorem sameTokens_run {a : PasswordAction} (hstep : s.run maxPasswordHistorySize a = some s')
    (hrequest : ∀ tokenHash, a ≠ .requestCommit tokenHash)
    (hreset : ∀ callId, a ≠ .resetCommit callId) : SameTokens s s' := by
  by_cases hchange : ∃ callId, a = .changeCommit callId
  · obtain ⟨callId, rfl⟩ := hchange
    obtain ⟨c, -, hnext⟩ := bind_eq_some_iff.mp hstep
    exact (aside_changeCommit hnext).toSameTokens
  · obtain ⟨sessions, requests, resets, changes, salts, rfl⟩ :=
      quiet_run hstep hrequest hreset fun callId ha => hchange ⟨callId, ha⟩
    exact ⟨rfl, rfl, rfl, rfl⟩

end PasswordSystem

/-! ## Every run -/

section Step

variable {s s' : PasswordSystem} {maxPasswordHistorySize : Nat}

theorem ResetInv.run (h : ResetInv s) {a : PasswordAction}
    (hstep : s.run maxPasswordHistorySize a = some s') : ResetInv s' := by
  cases a with
  | requestBegin userId tokenHash expiresAt => exact h.requestBegin hstep
  | requestUpdate tokenHash =>
    obtain ⟨r, hr, hnext⟩ := bind_eq_some_iff.mp hstep
    exact h.requestUpdate hnext
  | requestCommit tokenHash =>
    obtain ⟨r, hr, hnext⟩ := bind_eq_some_iff.mp hstep
    exact h.requestCommit (mem_of_find? hr) hnext
  | resetBegin callId tokenHash newPassword =>
    obtain ⟨resets, hinsert, rfl⟩ := map_eq_some_iff.mp hstep
    refine h.frame rfl rfl rfl (fun r hr => .inl hr) ?_
    intro c hc
    rw [rows_of_insert? hinsert] at hc
    rcases List.mem_append.mp hc with hc | hc
    · exact .inl hc
    · rw [List.mem_singleton.mp hc]
      exact .inr ⟨trivial, rfl⟩
  | resetFind callId salt =>
    obtain ⟨c, hc, hnext⟩ := bind_eq_some_iff.mp hstep
    exact h.resetFind (mem_of_find? hc) hnext
  | resetLocate callId =>
    obtain ⟨c, hc, hnext⟩ := bind_eq_some_iff.mp hstep
    exact h.resetLocate (mem_of_find? hc) hnext
  | resetValidate callId =>
    obtain ⟨c, hc, hnext⟩ := bind_eq_some_iff.mp hstep
    exact h.resetValidate (mem_of_find? hc) hnext
  | resetCommit callId =>
    obtain ⟨c, hc, hnext⟩ := bind_eq_some_iff.mp hstep
    exact h.resetCommit (mem_of_find? hc) hnext
  | resetAbort callId =>
    cases hstep
    exact h.frame rfl rfl rfl (fun r hr => .inl hr) fun c hc => .inl (mem_erase.mp hc).1
  | changeBegin callId userId currentPassword newPassword currentSessionId =>
    exact h.aside (aside_changeBegin hstep)
  | changeCheck callId =>
    obtain ⟨c, -, hnext⟩ := bind_eq_some_iff.mp hstep
    exact h.aside (aside_changeCheck hnext)
  | changePrepare callId salt =>
    obtain ⟨c, -, hnext⟩ := bind_eq_some_iff.mp hstep
    exact h.aside (aside_changePrepare hnext)
  | changeCommit callId =>
    obtain ⟨c, -, hnext⟩ := bind_eq_some_iff.mp hstep
    exact h.aside (aside_changeCommit hnext)
  | login row => exact h.aside (aside_login hstep)

theorem ResetInv.tick (h : ResetInv s) (now : Int) : ResetInv { s with clock := now } :=
  h.frame rfl rfl rfl (fun _ hr => .inl hr) fun _ hc => .inl hc

theorem ResetInv.step (h : ResetInv s) {a : Int × PasswordAction}
    (hstep : s.step maxPasswordHistorySize a = some s') : ResetInv s' := by
  unfold PasswordSystem.step at hstep
  split at hstep
  · exact (h.tick a.1).run hstep
  · cases hstep

namespace ResetTokensOk

theorem start (users : Table String UserCredentials (·.userId)) :
    ResetTokensOk (start users) where
  once := List.nodup_nil
  superseded _ h := absurd h List.not_mem_nil
  single _ h := absurd h List.not_mem_nil

theorem of_superseded (honce : (s.done.map (·.tokenHash)).Nodup)
    (h : ∀ token ∈ s.db.tokens.rows, token.isUsable s.clock = true →
      s.IsLatestRequest token.userId token.tokenHash) : ResetTokensOk s := by
  refine ⟨honce, h, ?_⟩
  intro token hmem other hother huser husable husable'
  have hlatest := h token hmem husable
  have hlatest' := h other hother husable'
  rw [← huser] at hlatest'
  have hhash := Option.some.inj (hlatest.symm.trans hlatest')
  exact eq_of_key_eq hmem hother (congrArg Prod.snd hhash)

theorem tick (h : ResetTokensOk s) {now : Int} (hle : s.clock ≤ now) :
    ResetTokensOk { s with clock := now } :=
  of_superseded h.once fun token hmem husable =>
    h.superseded token hmem (isUsable_of_le husable hle)

theorem of_same (h : ResetTokensOk s) (hsame : SameTokens s s') : ResetTokensOk s' := by
  refine of_superseded (hsame.done ▸ h.once) ?_
  intro token hmem husable
  rw [hsame.tokens] at hmem
  rw [hsame.clock] at husable
  unfold IsLatestRequest
  rw [hsame.requested]
  exact h.superseded token hmem husable

end ResetTokensOk

theorem resetTokensOk_requestCommit_iff (hok : ResetTokensOk s)
    (hstep : s.requestCommit r = some s') :
    (∀ token ∈ s.db.tokens.rows, token.userId = r.userId → token.isUsable s.clock = true →
      token.tokenHash ∈ r.read.getD []) ↔ ResetTokensOk s' := by
  obtain ⟨hfresh, hrows, tokens, rfl⟩ := requestCommit_spec hstep
  constructor
  · intro hseen
    refine ResetTokensOk.of_superseded hok.once ?_
    intro token hmem husable
    rw [isLatestRequest_append rfl]
    rcases (hrows token).mp hmem with rfl | ⟨before, hbefore, rfl⟩
    · simp [newResetToken]
    · split at husable
      · cases husable
      · next hkeep =>
        rw [if_neg hkeep]
        have hunused := (isUsable_iff.mp husable).2.2.1
        have hopen : before.isOpen = true := by
          simp [isOpen, (isUsable_iff.mp husable).1, hunused]
        have huser : ¬ r.userId = before.userId := fun huser =>
          hkeep ⟨hseen before hbefore huser.symm husable, hopen⟩
        rw [if_neg huser]
        exact hok.superseded before hbefore husable
  · intro hok' token hmem huser husable
    by_contra hunread
    -- an unread token is as it was, and the new one is the latest
    have hmem' : token ∈ tokens.rows :=
      (hrows token).mpr (.inr ⟨token, hmem, if_neg fun hread => hunread hread.1⟩)
    have hlatest := hok'.superseded token hmem' husable
    rw [isLatestRequest_append rfl, if_pos huser.symm] at hlatest
    exact hfresh token hmem hlatest

theorem resetOk_iff (hinv : ResetInv s) (hok : ResetTokensOk s) {callId : String}
    (hc : s.resets.find? callId = some c) (hstep : s.resetCommit c = some s') :
    (∃ token ∈ s.db.tokens.rows, token.tokenHash = c.tokenHash ∧ token.isActive = true ∧
        s.clock < token.expiresAt) ↔
      ResetTokensOk s' ∧ ResetOk s (s.clock, .resetCommit callId) s' := by
  cases hphase : c.phase with
  | begun | found _ | located _ _ =>
    unfold resetCommit at hstep
    rw [hphase] at hstep
    cases hstep
  | validated hash userId =>
    have hok' := hinv.calls c (mem_of_find? hc)
    unfold ResetCall.Ok at hok'
    rw [hphase] at hok'
    obtain ⟨hhad, hunspent, hstate⟩ := hok'
    obtain ⟨hs', -⟩ := resetCommit_spec hphase hstep
    constructor
    · rintro ⟨token, hmem, hhash, hactive, hexpires⟩
      have huser : token.userId = userId :=
        HasToken.userId_eq ⟨token, hmem, rfl, hhash⟩ hhad
      have hlatest : s.IsLatestRequest userId c.tokenHash := by
        rw [← huser, ← hhash]
        exact hok.superseded token hmem
          (isUsable_iff.mpr ⟨hactive, hexpires, hinv.unused token hmem hactive⟩)
      refine ⟨?_, ?_⟩
      · refine ResetTokensOk.of_superseded ?_ ?_
        · exact (hinv.resetCommit (mem_of_find? hc) hstep).once
        · intro token' hmem' husable
          have hactive' := (isUsable_iff.mp husable).1
          have hbefore := (active_of_resetCommit hphase hhad hstep hmem' hactive').1
          rw [hs'] at husable ⊢
          exact hok.superseded token' hbefore husable
      · intro callId' haction c' hc' hash' userId' hphase'
        cases haction
        obtain rfl := Option.some.inj (hc.symm.trans hc')
        rw [hphase] at hphase'
        cases hphase'
        refine ⟨⟨token, hmem, huser, hhash, hexpires⟩, hlatest, ?_⟩
        intro row hrow hrowUser hunrevoked
        rw [hs']
        show (revokeSessionsExcept s.db.sessions userId none c.nowIso).find? row.sessionId = _
        unfold revokeSessionsExcept
        rw [find?_update, find?_of_mem hrow, Option.map_some, if_pos]
        simp [hrowUser, hunrevoked]
    · rintro ⟨-, hreset⟩
      obtain ⟨⟨token, hmem, huser, hhash, hexpires⟩, hlatest, -⟩ :=
        hreset callId rfl c hc hash userId hphase
      rcases hstate with ⟨active, hactiveMem, hactiveHash, hactive⟩ | hlater
      · obtain rfl := eq_of_key_eq hmem hactiveMem (hhash.trans hactiveHash.symm)
        exact ⟨token, hmem, hhash, hactive, hexpires⟩
      · exact absurd hlatest hlater

theorem tokensInTime_iff (hinv : ResetInv s) (hok : ResetTokensOk s) {a : Int × PasswordAction}
    (hstep : s.step maxPasswordHistorySize a = some s') :
    TokensInTime s a ↔ ResetTokensOk s' ∧ ResetOk s a s' := by
  obtain ⟨now, action⟩ := a
  unfold step at hstep
  split at hstep
  · next hclock =>
    have hinv' := hinv.tick now
    have hok' := hok.tick hclock
    -- everything but the two commits
    have hother : (∀ tokenHash, action ≠ .requestCommit tokenHash) →
        (∀ callId, action ≠ .resetCommit callId) → ResetTokensOk s' ∧ ResetOk s (now, action) s' :=
      fun hrequest hreset => ⟨hok'.of_same (sameTokens_run hstep hrequest hreset),
        fun callId haction => absurd haction (hreset callId)⟩
    cases action with
    | requestCommit tokenHash =>
      obtain ⟨r, hr, hnext⟩ := bind_eq_some_iff.mp hstep
      have hiff := resetTokensOk_requestCommit_iff hok' hnext
      constructor
      · intro hseen
        exact ⟨hiff.mp (hseen r hr), fun callId haction => nomatch haction⟩
      · rintro ⟨hgood, -⟩ r' hr'
        obtain rfl := Option.some.inj (hr.symm.trans hr')
        exact hiff.mpr hgood
    | resetCommit callId =>
      obtain ⟨c, hc, hnext⟩ := bind_eq_some_iff.mp hstep
      have hiff := resetOk_iff hinv' hok' hc hnext
      constructor
      · intro hactive
        exact hiff.mp (hactive c hc)
      · intro hgood c' hc'
        obtain rfl := Option.some.inj (hc.symm.trans hc')
        exact hiff.mpr hgood
    | _ => exact iff_of_true trivial (hother nofun nofun)
  · cases hstep

end Step

/-- **Reset tokens are superseded exactly where requests do not overlap and resets are in time.** In
every interleaving of the three requests and of logins that goes through: no token changes the
password twice, the token that can be used is always the last one that was asked for, and every
reset commits before its token expires and a later request is committed, and revokes all sessions —
if and only if each request, when it commits, has revoked what could still be used, and each reset
commits with its token active and not expired. -/
theorem reset_tokens_superseded (maxPasswordHistorySize : Nat)
    (users : Table String UserCredentials (·.userId)) (as : List (Int × PasswordAction))
    (s : PasswordSystem)
    (hrun : exec (PasswordSystem.step maxPasswordHistorySize) (PasswordSystem.start users) as =
      some s) :
    (Always (PasswordSystem.step maxPasswordHistorySize) ResetTokensOk (PasswordSystem.start users)
          as ∧
        EachStep (PasswordSystem.step maxPasswordHistorySize) ResetOk (PasswordSystem.start users)
          as) ↔
      Along (PasswordSystem.step maxPasswordHistorySize) TokensInTime (PasswordSystem.start users)
        as :=
  along_iff_good (fun _ _ _ h hstep => ResetInv.step h hstep)
    (fun _ _ _ hinv hok hstep => tokensInTime_iff hinv hok hstep) hrun (ResetInv.start users)
    (ResetTokensOk.start users)

/-- Ada asks twice, the second time after the first, and uses the second token. -/
theorem reset_tokens_superseded_twice :
    let as : List (Int × PasswordAction) :=
      [(0, .requestBegin "ada" "t1" 900), (0, .requestUpdate "t1"), (1, .requestCommit "t1"),
        (2, .requestBegin "ada" "t2" 902), (2, .requestUpdate "t2"), (3, .requestCommit "t2"),
        (4, .resetBegin "c1" "t2" "second"), (4, .resetFind "c1" "pepper"), (5, .resetLocate "c1"),
        (5, .resetValidate "c1"), (6, .resetCommit "c1"), (7, .resetBegin "c2" "t2" "third"),
        (7, .resetFind "c2" "sugar")]
    Always (PasswordSystem.step 5) ResetTokensOk (PasswordSystem.start adasUsers) as ∧
      EachStep (PasswordSystem.step 5) ResetOk (PasswordSystem.start adasUsers) as := by
  intro as
  obtain ⟨s, hrun⟩ : ∃ s, exec (PasswordSystem.step 5) (PasswordSystem.start adasUsers) as =
    some s := Option.isSome_iff_exists.mp (by decide +kernel)
  exact (reset_tokens_superseded 5 adasUsers as s hrun).mpr (by decide +kernel)

def adasReset : List (Int × PasswordAction) :=
  [(0, .requestBegin "ada" "t1" 900), (0, .requestUpdate "t1"), (1, .requestCommit "t1"),
    (2, .resetBegin "c1" "t1" "second"), (2, .resetFind "c1" "pepper"), (3, .resetLocate "c1"),
    (3, .resetValidate "c1")]

/-- Two requests that overlap leave two tokens that can be used. A reset whose token was superseded
after it has looked under the lock sets the password. So does one whose token has expired then. -/
theorem reset_tokens_not_superseded :
    ¬ Always (PasswordSystem.step 5) ResetTokensOk (PasswordSystem.start adasUsers)
        [(0, .requestBegin "ada" "t1" 900), (0, .requestBegin "ada" "t2" 900),
          (1, .requestUpdate "t1"), (1, .requestUpdate "t2"), (2, .requestCommit "t1"),
          (2, .requestCommit "t2")] ∧
      ¬ EachStep (PasswordSystem.step 5) ResetOk (PasswordSystem.start adasUsers)
        (adasReset ++ [(4, .requestBegin "ada" "t2" 904), (4, .requestUpdate "t2"),
          (5, .requestCommit "t2")] ++ [(6, .resetCommit "c1")]) ∧
      ¬ EachStep (PasswordSystem.step 5) ResetOk (PasswordSystem.start adasUsers)
        (adasReset ++ [(901, .resetCommit "c1")]) := by
  refine ⟨?_, ?_, ?_⟩
  · intro h
    obtain ⟨s, hok, hread⟩ := h.read (fun s => (s.db.tokens.rows, s.clock))
      ([newResetToken "ada" "t1" 900, newResetToken "ada" "t2" 900], 2) (by decide +kernel)
    obtain ⟨hrows, hclock⟩ := Prod.mk.inj hread
    have hsingle := hok.single
    rw [hrows, hclock] at hsingle
    exact absurd (hsingle (newResetToken "ada" "t1" 900) (by decide) (newResetToken "ada" "t2" 900)
      (by decide) rfl (by decide) (by decide)) (by decide)
  · intro h
    obtain ⟨m, t, hok, hread, -⟩ := h.read _ _ (List.prefix_refl _)
      (fun m => (m.resets.find? "c1", m.requested))
      (some ⟨"c1", "t1", "second", 2, .validated ⟨"second", "pepper"⟩ "ada"⟩,
        [("ada", "t1"), ("ada", "t2")]) (fun _ => ()) () (by decide +kernel) (by decide +kernel)
    obtain ⟨hcall, hrequested⟩ := Prod.mk.inj hread
    have hlatest := (hok "c1" rfl _ hcall _ _ rfl).2.1
    unfold PasswordSystem.IsLatestRequest at hlatest
    rw [hrequested] at hlatest
    exact absurd hlatest (by decide)
  · intro h
    obtain ⟨m, t, hok, hread, -⟩ := h.read _ _ (List.prefix_refl _)
      (fun m => (m.resets.find? "c1", m.db.tokens.rows))
      (some ⟨"c1", "t1", "second", 2, .validated ⟨"second", "pepper"⟩ "ada"⟩,
        [newResetToken "ada" "t1" 900]) (fun _ => ()) () (by decide +kernel) (by decide +kernel)
    obtain ⟨hcall, hrows⟩ := Prod.mk.inj hread
    obtain ⟨token, hmem, -, -, hexpires⟩ := (hok "c1" rfl _ hcall _ _ rfl).1
    rw [hrows, List.mem_singleton] at hmem
    rw [hmem] at hexpires
    exact absurd hexpires (by decide)

end QuizBackend.Auth
