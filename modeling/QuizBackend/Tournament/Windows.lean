import QuizBackend.Lib.Exclusive
import QuizBackend.Tournament.Effects

/-!
# Status windows

Who may come or go depends on the status of the tournament, and the requests check it; but they
check the status they have read, and commit in a later transaction that does not look at it again.
`cancelTournament` checks twice and then updates the status without a condition on it.

`Windows` says what a step of the system should respect: participants come in during
`registration` only, they withdraw during `registration` or `ongoing`, and a tournament never
leaves `finished` or `cancelled`. `windows_iff` says when it does: exactly when every transaction
that changes something is still in time (`Request.InTime`). The jobs need no such condition. Their
`UPDATE`s name the status they start from, and a finalisation keeps the row locked from there to
its commit (`Guarded`).
-/

namespace QuizBackend.Tournament

open Lib Outbox Write Table Request Attempt
open Option (some.injEq)

/-! ## The windows -/

def TournamentStatus.IsTerminal (status : TournamentStatus) : Prop :=
  status = .finished ∨ status = .cancelled

/-- Who enters does so during registration, and who leaves before the end. -/
structure Windows (db db' : Db) : Prop where
  entered : ∀ participantId p', db'.participants.find? participantId = some p' →
    (db.participants.find? participantId = none ∨
      ∃ p, db.participants.find? participantId = some p ∧ p.status = .withdrawn ∧
        p'.status = .active) →
    db'.status p'.tournamentId = some .registration
  left : ∀ participantId p p', db.participants.find? participantId = some p →
    p.status ≠ .withdrawn → db'.participants.find? participantId = some p' →
    p'.status = .withdrawn →
    db'.status p'.tournamentId = some .registration ∨ db'.status p'.tournamentId = some .ongoing
  terminal : ∀ tournamentId status, db.status tournamentId = some status → status.IsTerminal →
    db'.status tournamentId = some status

def Request.InTime (db : Db) : Request → Prop
  | .enrol (.registerTx tournament _ _) =>
    db.status tournament.tournamentId = some tournament.status
  | .enrol (.unregisterTx tournament _ _) | .enrol (.withdrawTx tournament _ _) =>
    db.status tournament.tournamentId ≠ some .finished ∧
      db.status tournament.tournamentId ≠ some .cancelled
  | .manage (.cancelWrite tournamentId _) => db.status tournamentId ≠ some .finished
  | _ => True

instance (db : Db) (r : Request) : Decidable (r.InTime db) := by
  unfold InTime
  split <;> infer_instance

/-- The tournament has not moved on since the request checked it. -/
def CommitsInTime (cat : Catalog) (s : State) (a : Action) : Prop :=
  match a with
  | .advance i _ => s.writes cat a ≠ .nothing → ∀ r ∈ s.requests[i]?, r.InTime s.db
  | _ => True

instance (cat : Catalog) (s : State) (a : Action) : Decidable (CommitsInTime cat s a) :=
  match a with
  | .advance .. => inferInstanceAs (Decidable (_ → _))
  | .arrive _ | .abort _ | .attempt _ => .isTrue trivial

/-! ## What the requests know -/

def Db.Begun (db : Db) (tournamentId : Uuid) : Prop :=
  ∃ status, db.status tournamentId = some status ∧ status ≠ .upcoming

def Request.Knows (db : Db) : Request → Prop
  | .enrol (.registerTx tournament _ _) =>
    tournament.status = .registration ∧ db.Begun tournament.tournamentId
  | .enrol (.unregisterTx tournament _ _) | .enrol (.withdrawTx tournament _ _) =>
    db.Begun tournament.tournamentId
  | _ => True

structure Guarded (s : State) : Prop where
  exclusive : Exclusive locksTournament s.requests
  locked : ∀ r ∈ s.requests, ∀ tournamentId, r.locksTournament = some tournamentId →
    s.db.status tournamentId = some .ongoing
  knows : ∀ r ∈ s.requests, r.Knows s.db

variable {nowIso : Int} {i : Nat}

section Commits

variable {cat : Catalog} {s : State} {r : Request} {w : Write} {d : Drawn} {g : Advance}
  {tournamentId : Uuid} {status : TournamentStatus}

theorem not_locked_of_free (h : s.locks.tournament tournamentId = false) (hr : r ∈ s.requests) :
    r.locksTournament ≠ some tournamentId := by
  intro hl
  have : s.locks.tournament tournamentId = true :=
    List.any_eq_true.mpr ⟨r, hr, decide_eq_true hl⟩
  rw [this] at h
  cases h

/-- Who sets a status: a finalisation that has the row locked, a cancellation, or a job that found
the status before. -/
theorem Licensed.sets_cases (h : Licensed s r w) (hset : w.sets = some (tournamentId, status)) :
    (r.locksTournament = some tournamentId ∧ status = .finished) ∨
      (s.locks.tournament tournamentId = false ∧
        ((status = .cancelled ∧ ∃ nowIso, r = .manage (.cancelWrite tournamentId nowIso)) ∨
          (status = .registration ∧ s.db.status tournamentId = some .upcoming) ∨
          (status = .ongoing ∧ s.db.status tournamentId = some .registration))) := by
  cases h with
  | cancelTournament free found =>
    cases hset
    exact .inr ⟨free, .inl ⟨rfl, _, rfl⟩⟩
  | openRegistration free found =>
    cases hset
    exact .inr ⟨free, .inr (.inl ⟨rfl, status_of_markable found⟩)⟩
  | startPlay free found =>
    cases hset
    exact .inr ⟨free, .inr (.inr ⟨rfl, status_of_markable found⟩)⟩
  | finalizeTournament =>
    cases hset
    exact .inl ⟨rfl, rfl⟩
  | _ => cases hset

theorem Licensed.begun (h : Licensed s r w) (hb : s.db.Begun tournamentId) :
    (s.db.apply w).Begun tournamentId := by
  obtain ⟨st, hst, hne⟩ := hb
  by_cases hset : ∃ new, w.sets = some (tournamentId, new)
  · obtain ⟨new, hset⟩ := hset
    refine ⟨new, by rw [status_apply_sets hset, if_pos rfl, hst]; rfl, ?_⟩
    rcases h.sets_cases hset with ⟨-, rfl⟩ | ⟨-, ⟨rfl, -⟩ | ⟨rfl, -⟩ | ⟨rfl, -⟩⟩ <;> decide
  · exact ⟨st, status_apply_of_ne h.fresh (fun new hnew => hset ⟨new, hnew⟩) hst, hne⟩

theorem Request.Knows.apply (h : r.Knows s.db) {other : Request} (hlic : Licensed s other w) :
    r.Knows (s.db.apply w) := by
  cases r with
  | enrol r =>
    cases r with
    | registerTx => exact ⟨h.1, hlic.begun h.2⟩
    | unregisterTx | withdrawTx => exact hlic.begun h
    | _ => trivial
  | _ => trivial

theorem begun_of_status (h : s.db.status tournamentId = some status) (hne : status ≠ .upcoming) :
    s.db.Begun tournamentId :=
  ⟨status, h, hne⟩

theorem Reaches.knows {r' : Request} (h : Reaches cat s r r') : r'.Knows s.db := by
  cases h with
  | enrol h =>
    cases h with
    | registerTx found status =>
      refine ⟨status, begun_of_status (status_of_getTournamentById found) ?_⟩
      rw [status]
      decide
    | unregisterTx found status =>
      refine begun_of_status (status_of_getTournamentById found) ?_
      rw [status]
      decide
    | withdrawTx found status =>
      refine begun_of_status (status_of_getTournamentById found) ?_
      rw [status]
      decide
  | _ => trivial

theorem Licensed.sets_finalizing {items : List Uuid} {next : Option Nat}
    (h : Licensed s (.cron (.finalizing items nowIso next)) w) : w.sets = none := by
  cases h <;> rfl

theorem Licensed.sets_finalizeRank {t : TournamentRow} {items : List Uuid} {next : Option Nat}
    (h : Licensed s (.cron (.finalizeRank t items nowIso next)) w) : w.sets = none := by
  cases h <;> rfl

/-- A lock is taken on a tournament that is `ongoing` and that nobody has locked; taking it and
keeping it sets no status. -/
theorem Reaches.locks {r' : Request} (h : Reaches cat s r r')
    (hk : r'.locksTournament = some tournamentId) :
    (∀ w, Licensed s r w → w.sets = none) ∧ (r.locksTournament = some tournamentId ∨
      (s.locks.tournament tournamentId = false ∧ s.db.status tournamentId = some .ongoing)) := by
  cases h with
  | @cron r r' h =>
    cases h with
    | plain hplain =>
      have hnone : r'.locksTournament = some tournamentId := hk
      rw [Cron.locksTournament_of_isPlain hplain] at hnone
      cases hnone
    | dispatchMark => cases hk
    | finalizeRank free found =>
      have hid := key_of_getTournamentById (Option.filter_eq_some_iff.mp found).1
      have hk : _ = tournamentId := Option.some.inj hk
      rw [← hk, hid]
      exact ⟨fun w hw => hw.sets_finalizing, .inr ⟨free, status_of_markable found⟩⟩
    | finalizeCommit => exact ⟨fun w hw => hw.sets_finalizeRank, .inl hk⟩
  | _ => cases hk

theorem Guarded.not_sets (hg : Guarded s) {j : Nat} {holder : Request} (hij : j ≠ i)
    (hi : s.requests[i]? = some r) (hj : s.requests[j]? = some holder)
    (hl : holder.locksTournament = some tournamentId) (hlic : Licensed s r w) :
    w.sets ≠ some (tournamentId, status) := by
  intro hset
  rcases hlic.sets_cases hset with ⟨hr, -⟩ | ⟨hfree, -⟩
  · exact hij (hg.exclusive j i holder r tournamentId hj hi hl hr)
  · exact not_locked_of_free hfree (List.mem_of_getElem? hj) hl

theorem locksTournament_of_mayArrive {emitted : List DomainEvent}
    (h : r.mayArrive emitted = true) : r.locksTournament = none := by
  cases r with
  | cron r =>
    cases r with
    | finalizeRank | finalizeCommit => cases h
    | _ => rfl
  | _ => rfl

theorem knows_of_mayArrive {emitted : List DomainEvent} {db : Db}
    (h : r.mayArrive emitted = true) : r.Knows db := by
  cases r with
  | enrol r =>
    cases r with
    | registerTx | unregisterTx | withdrawTx => cases h
    | _ => trivial
  | _ => trivial

/-- A request in place `i` may turn into one that has nothing locked, when nothing is committed. -/
theorem Guarded.abandon (hg : Guarded s) {new : Request} (hi : s.requests[i]? = some r)
    (hl : new.locksTournament = none) (hknows : new.Knows s.db) :
    Guarded { s with requests := s.requests.set i new } := by
  refine ⟨?_, ?_, ?_⟩
  · refine hg.exclusive.set hi ?_
    intro k hk
    rw [hl] at hk
    cases hk
  · refine forall_mem_set hg.locked ?_
    intro tournamentId hk
    rw [hl] at hk
    cases hk
  · exact forall_mem_set hg.knows hknows

theorem Guarded.advance (hg : Guarded s) (hi : s.requests[i]? = some r)
    (h : r.step cat s.db s.locks d = some g) : Guarded (s.after i g) := by
  have hlic := request_licensed h
  have hreach := request_reaches h
  refine ⟨?_, ?_, ?_⟩
  · refine hg.exclusive.set hi ?_
    intro k hk
    rcases (hreach.locks hk).2 with hold | ⟨hfree, -⟩
    · exact .inl hold
    · exact .inr fun x hx => not_locked_of_free hfree hx
  · intro r' hr' tournamentId hk
    rcases mem_set_cases hr' with rfl | ⟨j, hij, hj⟩
    · obtain ⟨hset, hold⟩ := hreach.locks hk
      refine status_apply_of_ne hlic.fresh (fun st hst => ?_) ?_
      · rw [hset _ hlic] at hst
        cases hst
      · rcases hold with hold | ⟨-, hst⟩
        · exact hg.locked r (List.mem_of_getElem? hi) _ hold
        · exact hst
    · exact status_apply_of_ne hlic.fresh (fun st => hg.not_sets hij hi hj hk hlic)
        (hg.locked r' (List.mem_of_getElem? hj) _ hk)
  · intro r' hr'
    exact (forall_mem_set hg.knows hreach.knows r' hr').apply hlic

end Commits

theorem guarded_initial (db : Db) : Guarded (.initial db) := by
  refine ⟨exclusive_nil, ?_, ?_⟩
  · intro r hr
    cases hr
  · intro r hr
    cases hr

theorem guarded_step {cat : Catalog} {s s' : State} {a : Action} (hg : Guarded s)
    (h : step cat s a = some s') : Guarded s' := by
  cases stepped_of_step h with
  | @arrive r may =>
    have hl := locksTournament_of_mayArrive may
    refine ⟨hg.exclusive.append hl, ?_, ?_⟩
    · refine forall_mem_join hg.locked ?_
      intro tournamentId hk
      rw [hl] at hk
      cases hk
    · exact forall_mem_join hg.knows (knows_of_mayArrive may)
  | advance request next => exact hg.advance request next
  | abort request => exact hg.abandon request rfl trivial
  | attempt => exact ⟨hg.exclusive, hg.locked, hg.knows⟩

/-! ## One commit -/

section Windows

variable {db : Db} {w : Write}

theorem windows_iff_edits (hreg : w.registers = none) :
    Windows db (db.apply w) ↔
      (∀ p ∈ db.participants.rows, p.status = .withdrawn → (w.editsParticipant p).status = .active →
        (db.apply w).status p.tournamentId = some .registration) ∧
      (∀ p ∈ db.participants.rows, p.status ≠ .withdrawn →
        (w.editsParticipant p).status = .withdrawn →
        (db.apply w).status p.tournamentId = some .registration ∨
          (db.apply w).status p.tournamentId = some .ongoing) ∧
      ∀ tournamentId status, db.status tournamentId = some status → status.IsTerminal →
        (db.apply w).status tournamentId = some status := by
  have hfind : ∀ p ∈ db.participants.rows, (db.apply w).participants.find? p.participantId =
      some (w.editsParticipant p) := by
    intro p hp
    rw [find?_participants_apply hreg, find?_of_mem hp, Option.map_some]
  constructor
  · intro h
    refine ⟨?_, ?_, h.terminal⟩
    · intro p hp hwithdrawn hactive
      rw [← w.editsParticipant_tournamentId p]
      exact h.entered _ _ (hfind p hp) (.inr ⟨p, find?_of_mem hp, hwithdrawn, hactive⟩)
    · intro p hp hstay hwithdrawn
      rw [← w.editsParticipant_tournamentId p]
      exact h.left _ _ _ (find?_of_mem hp) hstay (hfind p hp) hwithdrawn
  · rintro ⟨hin, hout, hterm⟩
    refine ⟨?_, ?_, hterm⟩
    · intro participantId p' hp' hnew
      rw [find?_participants_apply hreg] at hp'
      obtain ⟨p, hp, rfl⟩ := Option.map_eq_some_iff.mp hp'
      rw [w.editsParticipant_tournamentId p]
      rcases hnew with hnone | ⟨q, hq, hwithdrawn, hactive⟩
      · rw [hp] at hnone
        cases hnone
      · rw [hp, some.injEq] at hq
        subst hq
        exact hin p (mem_of_find? hp) hwithdrawn hactive
    · intro participantId p p' hp hstay hp' hwithdrawn
      rw [find?_participants_apply hreg, hp, Option.map_some, some.injEq] at hp'
      subst hp'
      rw [w.editsParticipant_tournamentId p]
      exact hout p (mem_of_find? hp) hstay hwithdrawn

theorem Windows.of_quiet (hreg : w.registers = none)
    (hin : ∀ p, p.status = .withdrawn → (w.editsParticipant p).status ≠ .active)
    (hout : ∀ p, p.status ≠ .withdrawn → (w.editsParticipant p).status ≠ .withdrawn)
    (hterm : ∀ tournamentId status, db.status tournamentId = some status → status.IsTerminal →
      (db.apply w).status tournamentId = some status) : Windows db (db.apply w) :=
  (windows_iff_edits hreg).mpr
    ⟨fun p _ hp hactive => absurd hactive (hin p hp),
      fun p _ hp hwithdrawn => absurd hwithdrawn (hout p hp), hterm⟩

theorem windows_insert_iff {row : ParticipantRow} {events : List NewEvent}
    (fresh : db.participants.find? row.participantId = none) :
    Windows db (db.apply (.insertParticipant row events)) ↔
      db.status row.tournamentId = some .registration := by
  have hfind : ∀ b, (db.apply (.insertParticipant row events)).participants.find? b =
      if row.participantId = b then some row else db.participants.find? b :=
    fun b => find?_insert? (insert?_participants_apply rfl fresh) b
  constructor
  · intro h
    exact h.entered row.participantId row (by rw [hfind, if_pos rfl]) (.inl fresh)
  · intro hopen
    refine ⟨?_, ?_, fun _ _ hst _ => hst⟩
    · intro participantId p' hp' hnew
      rw [hfind] at hp'
      split at hp'
      · cases hp'
        exact hopen
      · rcases hnew with hnone | ⟨p, hp, hwithdrawn, hactive⟩
        · rw [hp'] at hnone
          cases hnone
        · rw [hp', some.injEq] at hp
          subst hp
          rw [hwithdrawn] at hactive
          cases hactive
    · intro participantId p p' hp hstay hp' hwithdrawn
      rw [hfind] at hp'
      split at hp'
      · rename_i hid
        rw [← hid, fresh] at hp
        cases hp
      · rw [hp, some.injEq] at hp'
        subst hp'
        exact absurd hwithdrawn hstay

theorem windows_reactivate_iff {p : ParticipantRow}
    (hp : db.participants.find? p.participantId = some p) (hw : p.status = .withdrawn) :
    Windows db (db.apply (.reactivateParticipant p.participantId nowIso)) ↔
      db.status p.tournamentId = some .registration := by
  rw [windows_iff_edits rfl]
  constructor
  · rintro ⟨hin, -⟩
    refine hin p (mem_of_find? hp) hw ?_
    simp [editsParticipant, setReactivated]
  · intro hopen
    refine ⟨?_, ?_, fun _ _ hst _ => hst⟩
    · intro q hq hwithdrawn hactive
      by_cases hid : q.participantId = p.participantId
      · rw [eq_of_key_eq hq (mem_of_find? hp) hid]
        exact hopen
      · simp [editsParticipant, hid, hwithdrawn] at hactive
    · intro q hq hstay hwithdrawn
      by_cases hid : q.participantId = p.participantId
      · simp [editsParticipant, hid, setReactivated] at hwithdrawn
      · simp [editsParticipant, hid, hstay] at hwithdrawn

theorem windows_withdraw_iff {p : ParticipantRow} {events : List NewEvent}
    (hp : db.participants.find? p.participantId = some p) (hw : p.status = .active) :
    Windows db (db.apply (.withdrawParticipant p.participantId nowIso events)) ↔
      (db.status p.tournamentId = some .registration ∨
        db.status p.tournamentId = some .ongoing) := by
  rw [windows_iff_edits rfl]
  constructor
  · rintro ⟨-, hout, -⟩
    refine hout p (mem_of_find? hp) (by rw [hw]; decide) ?_
    simp [editsParticipant, setWithdrawn]
  · intro hopen
    refine ⟨?_, ?_, fun _ _ hst _ => hst⟩
    · intro q hq hwithdrawn hactive
      by_cases hid : q.participantId = p.participantId
      · simp [editsParticipant, hid, setWithdrawn] at hactive
      · simp [editsParticipant, hid, hwithdrawn] at hactive
    · intro q hq hstay hwithdrawn
      by_cases hid : q.participantId = p.participantId
      · rw [eq_of_key_eq hq (mem_of_find? hp) hid]
        exact hopen
      · simp [editsParticipant, hid, hstay] at hwithdrawn

end Windows

section Schedule

variable {cat : Catalog} {s s' : State} {r : Request} {w : Write} {a : Action}

theorem Guarded.terminal (hg : Guarded s) (hr : r ∈ s.requests) (hlic : Licensed s r w)
    (hcancel : ∀ tournamentId nowIso, r = .manage (.cancelWrite tournamentId nowIso) →
      s.db.status tournamentId ≠ some .finished) (tournamentId : Uuid) (status : TournamentStatus)
    (hst : s.db.status tournamentId = some status) (hterm : status.IsTerminal) :
    (s.db.apply w).status tournamentId = some status := by
  by_cases hset : ∃ new, w.sets = some (tournamentId, new)
  · obtain ⟨new, hset⟩ := hset
    rw [status_apply_sets hset, if_pos rfl, hst, Option.map_some, some.injEq]
    rcases hlic.sets_cases hset with ⟨hl, rfl⟩ | ⟨-, ⟨rfl, nowIso, hreq⟩ | ⟨rfl, h⟩ | ⟨rfl, h⟩⟩
    · have h := hg.locked r hr tournamentId hl
      rw [hst, some.injEq] at h
      subst h
      rcases hterm with h | h <;> cases h
    · rcases hterm with rfl | rfl
      · exact absurd hst (hcancel tournamentId nowIso hreq)
      · rfl
    · rw [hst, some.injEq] at h
      subst h
      rcases hterm with h | h <;> cases h
    · rw [hst, some.injEq] at h
      subst h
      rcases hterm with h | h <;> cases h
  · exact status_apply_of_ne hlic.fresh (fun new hnew => hset ⟨new, hnew⟩) hst

theorem Db.Begun.open_iff {db : Db} {tournamentId : Uuid} (h : db.Begun tournamentId) :
    (db.status tournamentId ≠ some .finished ∧ db.status tournamentId ≠ some .cancelled) ↔
      (db.status tournamentId = some .registration ∨ db.status tournamentId = some .ongoing) := by
  obtain ⟨status, hst, hne⟩ := h
  rw [hst]
  cases status <;> simp_all

theorem inTime_of_leaving {db : Db} {e : Enrol} {tournament : TournamentRow} {userId : Uuid}
    (request : e = .unregisterTx tournament userId nowIso ∨ e = .withdrawTx tournament userId nowIso)
    (hknows : (enrol e).Knows db) :
    (enrol e).InTime db ↔ (db.status tournament.tournamentId = some .registration ∨
      db.status tournament.tournamentId = some .ongoing) := by
  rcases request with rfl | rfl <;> exact Db.Begun.open_iff hknows

theorem Windows.of_status_eq {db : Db} (hreg : w.registers = none)
    (hedit : ∀ p, (w.editsParticipant p).status = p.status)
    (hterm : ∀ tournamentId status, db.status tournamentId = some status → status.IsTerminal →
      (db.apply w).status tournamentId = some status) : Windows db (db.apply w) := by
  refine .of_quiet hreg ?_ ?_ hterm
  · intro p hp hactive
    rw [hedit, hp] at hactive
    cases hactive
  · intro p hp
    rw [hedit]
    exact hp

theorem editsParticipant_scoreRound_status (score : RoundScore) (totals : Option Totals)
    (now : Int) (p : ParticipantRow) :
    ((scoreRound score totals now).editsParticipant p).status = p.status := by
  cases totals with
  | none => rfl
  | some totals =>
    simp only [editsParticipant]
    split <;> rfl

theorem cancel_inTime_iff {tournamentId : Uuid}
    (hterm : s.db.status tournamentId ≠ some .finished → ∀ tournamentId' status,
      s.db.status tournamentId' = some status → status.IsTerminal →
      (s.db.apply (.setTournamentStatus tournamentId .cancelled nowIso)).status tournamentId' = some status) :
    s.db.status tournamentId ≠ some .finished ↔
      Windows s.db (s.db.apply (.setTournamentStatus tournamentId .cancelled nowIso)) := by
  constructor
  · intro hne
    exact .of_status_eq rfl (fun _ => rfl) (hterm hne)
  · intro h hfin
    have hstay := h.terminal tournamentId .finished hfin (.inl rfl)
    rw [status_apply_sets rfl, if_pos rfl, hfin] at hstay
    cases hstay

theorem inTime_iff (hg : Guarded s) (hr : r ∈ s.requests) (hlic : Licensed s r w) :
    (w ≠ .nothing → r.InTime s.db) ↔ Windows s.db (s.db.apply w) := by
  have hterm := hg.terminal hr hlic
  have hknows := hg.knows r hr
  cases hlic with
  | nothing =>
    refine iff_of_true (fun h => absurd rfl h) ?_
    exact .of_status_eq rfl (fun _ => rfl) fun _ _ hst _ => hst
  | insertParticipant free found room absent fresh =>
    rw [windows_insert_iff fresh]
    simp [InTime, hknows.1, newParticipant]
  | reactivateParticipant free found room present withdrawn =>
    obtain ⟨hp, htid⟩ := of_getParticipantByUserAndTournament present
    rw [windows_reactivate_iff hp withdrawn, htid]
    simp [InTime, hknows.1]
  | withdrawParticipant request free present =>
    obtain ⟨hp, htid, hactive⟩ := of_withdrawable present
    rw [windows_withdraw_iff hp hactive, htid, inTime_of_leaving request hknows]
    simp
  | cancelTournament free found =>
    rw [← cancel_inTime_iff]
    · simp [InTime]
    · intro hne
      refine hterm ?_
      intro tournamentId nowIso hreq
      cases hreq
      exact hne
  | finalizeTournament =>
    refine iff_of_true (fun _ => trivial) ?_
    refine .of_quiet rfl ?_ ?_ (hterm (by simp))
    · intro p hp hactive
      simp only [editsParticipant, setFinal] at hactive
      split at hactive
      · cases hactive
      · rw [hp] at hactive
        cases hactive
    · intro p hp hwithdrawn
      simp only [editsParticipant, setFinal] at hwithdrawn
      split at hwithdrawn
      · cases hwithdrawn
      · exact hp hwithdrawn
  | scoreRound =>
    refine iff_of_true (fun _ => trivial) ?_
    exact .of_status_eq rfl (editsParticipant_scoreRound_status _ _ _) (hterm (by simp))
  | _ =>
    refine iff_of_true (fun _ => trivial) ?_
    exact .of_status_eq rfl (fun _ => rfl) (hterm (by simp))

theorem inTime_step_iff (hg : Guarded s) (h : step cat s a = some s') :
    CommitsInTime cat s a ↔ Windows s.db s'.db := by
  have hsame : Windows s.db s.db :=
    Windows.of_status_eq (w := .nothing) rfl (fun _ => rfl) fun _ _ hst _ => hst
  cases stepped_of_step h with
  | arrive | abort => exact iff_of_true trivial hsame
  | attempt => exact iff_of_true trivial ⟨hsame.entered, hsame.left, hsame.terminal⟩
  | @advance i d r g request next =>
    refine Iff.trans ?_ (inTime_iff hg (List.mem_of_getElem? request) (request_licensed next))
    simp only [CommitsInTime, writes_advance request next, request, Option.mem_def,
      some.injEq, forall_eq']

end Schedule

/-! ## Whole runs -/

/-- **Status windows.** From any database, every step of a run respects the windows just when
every transaction of the run that changes something is in time. -/
theorem windows_iff {cat : Catalog} {db : Db} {as : List Action} {s : State}
    (h : exec (step cat) (.initial db) as = some s) :
    EachStep (step cat) (fun s _ s' => Windows s.db s'.db) (.initial db) as ↔
      Along (step cat) (CommitsInTime cat) (.initial db) as :=
  along_iff_eachStep (fun _ _ _ hI hstep => guarded_step hI hstep)
    (fun _ _ _ hI hstep => inTime_step_iff hI hstep) h (guarded_initial db)

/-- A player registers, unregisters and registers again before the tournament starts. -/
def onTime : List Action :=
  .arrive (.enrol (.register 30 player 0)) :: runs 0 2 1 ++
  .arrive (.enrol (.unregister 30 player 1)) :: runs 1 2 2 ++
  .arrive (.enrol (.register 30 player 2)) :: runs 2 2 3 ++
  .arrive (.cron (.start kickOff)) :: runs 3 3 4

theorem windows_onTime :
    EachStep (step cupCatalog) (fun s _ s' => Windows s.db s'.db) (.initial openCup) onTime := by
  obtain ⟨s, hs⟩ : ∃ s, exec (step cupCatalog) (.initial openCup) onTime = some s :=
    Option.isSome_iff_exists.mp (by decide +kernel)
  exact (windows_iff hs).mpr (by decide +kernel)

/-- A player finds the registration open a millisecond before the day of the start; the tournament starts. -/
def aboutToStart : List Action :=
  .arrive (.enrol (.register 30 player (kickOff - 1))) :: runs 0 1 1 ++
  .arrive (.cron (.start kickOff)) :: runs 1 2 2

/-- Then the registration is committed. -/
theorem registered_after_start : ∃ m m',
    exec (step cupCatalog) (.initial openCup) aboutToStart = some m ∧
      m.db.status 30 = some .ongoing ∧ m.db.participants.rows.length = 0 ∧
      exec (step cupCatalog) m (runs 0 1 1) = some m' ∧
      m'.db.countParticipants 30 = 1 ∧ ¬ Windows m.db m'.db := by
  obtain ⟨m, hm, hread⟩ : ∃ m, exec (step cupCatalog) (.initial openCup) aboutToStart = some m ∧
      (m.db.status 30, m.db.participants.rows.length) = (some .ongoing, 0) :=
    Option.map_eq_some_iff.mp (by decide +kernel)
  obtain ⟨m', hm', hread'⟩ : ∃ m',
      exec (step cupCatalog) (.initial openCup) (aboutToStart ++ runs 0 1 1) = some m' ∧
        (m'.db.countParticipants 30, m'.db.status 30,
          (m'.db.participants.find? (Attempt.attemptNo 1)).map (·.tournamentId))
          = (1, some .ongoing, some 30) :=
    Option.map_eq_some_iff.mp (by decide +kernel)
  rw [exec_append, hm, Option.bind_some] at hm'
  obtain ⟨hstatus, hnone⟩ := Prod.mk.inj hread
  obtain ⟨hcount, hrest⟩ := Prod.mk.inj hread'
  obtain ⟨hstatus', hrow⟩ := Prod.mk.inj hrest
  refine ⟨m, m', hm, hstatus, hnone, hm', hcount, ?_⟩
  intro h
  obtain ⟨p, hp, htid⟩ := Option.map_eq_some_iff.mp hrow
  have hnew : m.db.participants.find? (Attempt.attemptNo 1) = none := by
    rw [Table.find?, List.length_eq_zero_iff.mp hnone]
    rfl
  have hopen := h.entered _ p hp (.inl hnew)
  rw [htid, hstatus'] at hopen
  cases hopen

end QuizBackend.Tournament
