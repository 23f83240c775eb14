import QuizBackend.Attempt.Invariant
import QuizBackend.Tournament.System
import QuizBackend.Tournament.Writes

/-!
# What a step of the tournament system can do

So that no proof about runs opens the programs again, this module says once what an advance can
commit, at which point of which request, and what it has found in the state it commits in
(`Licensed`); which points a request can come to, and what it has read on the way (`Reaches`); and
what an action can do to the whole state (`Stepped`).
-/

namespace QuizBackend.Tournament

open Lib Outbox Progress Enrol Play Attempt
open Option (map_eq_some_iff)

variable {tournamentId : Uuid} {r : Request} {w : Write} {g : Progress Enrol}
  {tournament : TournamentRow} {nowIso : Int}

theorem status_of_markable {db : Db} {fromStatus : TournamentStatus} {t : TournamentRow}
    (h : Cron.markable db tournamentId fromStatus = some t) :
    db.status tournamentId = some fromStatus := by
  obtain ⟨hfound, hstatus⟩ := Option.filter_eq_some_iff.mp h
  rw [status_of_getTournamentById hfound, of_decide_eq_true hstatus]

theorem of_withdrawable {db : Db} {userId : Uuid} {p : ParticipantRow}
    (h : withdrawable db tournamentId userId = some p) :
    db.participants.find? p.participantId = some p ∧ p.tournamentId = tournamentId ∧
      p.status = .active := by
  obtain ⟨t, -, hp⟩ := Option.bind_eq_some_iff.mp h
  have hfound : p.tournamentId = tournamentId ∧ p.userId = userId ∧ p.status = .active := by
    simpa using List.find?_some hp
  exact ⟨Table.find?_of_mem (List.mem_of_find?_eq_some hp), hfound.1, hfound.2.2⟩

/-! ## Commits -/

/-- What is known of a write when a request makes it. -/
inductive Licensed (s : State) : Request → Write → Prop
  | nothing (r : Request) : Licensed s r .nothing
  | createTournament {user : JwtPayload} {dto : CreateTournamentDto} {nowIso : Int}
      {row : TournamentRow} (fresh : s.db.tournaments.find? row.tournamentId = none)
      (upcoming : row.status = .upcoming) (checks : row.passesChecks = true) :
      Licensed s (.manage (.createInsert user dto nowIso)) (.createTournament row)
  | updateTournament {tournamentId : Uuid} {dto : UpdateTournamentDto} {nowIso : Int}
      {t : TournamentRow} (free : s.locks.tournament tournamentId = false)
      (found : s.db.getTournamentById tournamentId = some t) :
      Licensed s (.manage (.updateWrite tournamentId dto nowIso))
        (.updateTournament tournamentId dto nowIso)
  | softDeleteTournament {tournamentId : Uuid} {nowIso : Int}
      (free : s.locks.tournament tournamentId = false) :
      Licensed s (.manage (.softDeleteWrite tournamentId nowIso))
        (.softDeleteTournament tournamentId nowIso)
  | cancelTournament {tournamentId : Uuid} {nowIso : Int} {t : TournamentRow}
      (free : s.locks.tournament tournamentId = false)
      (found : s.db.getTournamentById tournamentId = some t) :
      Licensed s (.manage (.cancelWrite tournamentId nowIso))
        (.setTournamentStatus tournamentId .cancelled nowIso)
  | createRound {tournamentId : Uuid} {dto : CreateTournamentRoundDto} {nowIso : Int}
      {row : RoundRow} :
      Licensed s (.manage (.createRoundTx tournamentId dto nowIso)) (.createRound row)
  | insertParticipant {tournament locked : TournamentRow} {userId participantId : Uuid}
      {nowIso : Int} {events : List NewEvent}
      (free : s.locks.tournament tournament.tournamentId = false)
      (found : s.db.getTournamentById tournament.tournamentId = some locked)
      (room : isFull s.db locked = false)
      (absent : s.db.getParticipantByUserAndTournament userId tournament.tournamentId = none)
      (fresh : s.db.participants.find? participantId = none) :
      Licensed s (.enrol (.registerTx tournament userId nowIso))
        (.insertParticipant (newParticipant participantId tournament.tournamentId userId nowIso)
          events)
  | reactivateParticipant {tournament locked : TournamentRow} {userId : Uuid} {nowIso : Int}
      {existing : ParticipantRow} (free : s.locks.tournament tournament.tournamentId = false)
      (found : s.db.getTournamentById tournament.tournamentId = some locked)
      (room : isFull s.db locked = false)
      (present : s.db.getParticipantByUserAndTournament userId tournament.tournamentId
        = some existing)
      (withdrawn : existing.status = .withdrawn) :
      Licensed s (.enrol (.registerTx tournament userId nowIso))
        (.reactivateParticipant existing.participantId nowIso)
  | withdrawParticipant {r : Enrol} {tournament : TournamentRow} {userId : Uuid} {nowIso : Int}
      {p : ParticipantRow} {events : List NewEvent}
      (request : r = .unregisterTx tournament userId nowIso ∨
        r = .withdrawTx tournament userId nowIso)
      (free : s.locks.tournament tournament.tournamentId = false)
      (present : withdrawable s.db tournament.tournamentId userId = some p) :
      Licensed s (.enrol r) (.withdrawParticipant p.participantId nowIso events)
  | openRegistration {t row : TournamentRow} {participantCount : Nat}
      {items : List TournamentRow} {windowStart timestamp : Int}
      (free : s.locks.tournament t.tournamentId = false)
      (found : Cron.markable s.db t.tournamentId .upcoming = some row) :
      Licensed s (.cron (.dispatchMark t participantCount items windowStart timestamp))
        (.setTournamentStatus t.tournamentId .registration windowStart)
  | startPlay {t row : TournamentRow} {items : List TournamentRow} {nowIso : Int}
      (free : s.locks.tournament t.tournamentId = false)
      (found : Cron.markable s.db t.tournamentId .registration = some row) :
      Licensed s (.cron (.starting (t :: items) nowIso))
        (.setTournamentStatus t.tournamentId .ongoing nowIso)
  | markRoundStatus {r : Cron} {roundId : Uuid} {status : RoundStatus} {nowIso : Int} :
      Licensed s (.cron r) (.markRoundStatus roundId status nowIso)
  | schedule {r : Cron} {events : List NewEvent} : Licensed s (.cron r) (.schedule events)
  | finalizeTournament {t : TournamentRow} {standings : List (Contender × Nat)}
      {items : List Uuid} {nowIso : Int} {next : Option Nat} {events : List NewEvent} :
      Licensed s (.cron (.finalizeCommit t standings items nowIso next))
        (.finalizeTournament t.tournamentId standings nowIso events)
  | scoreRound {score : RoundScore} {totals : Option Totals} {now : Int} :
      Licensed s (.play (.scoreCommit score totals)) (.scoreRound score totals now)

theorem Licensed.fresh {s : State} (h : Licensed s r w) (row : TournamentRow)
    (hw : w = .createTournament row) : s.db.tournaments.find? row.tournamentId = none := by
  cases h <;> cases hw
  assumption

theorem Licensed.registered {s : State} (h : Licensed s r w) {row : ParticipantRow}
    (hw : w.registers = some row) :
    s.db.participants.find? row.participantId = none ∧
      (s.db.status row.tournamentId).isSome = true ∧ row.status = .active := by
  cases h with
  | insertParticipant free found room absent fresh =>
    cases hw
    refine ⟨fresh, ?_, rfl⟩
    simp [newParticipant, status_of_getTournamentById found]
  | _ => cases hw

theorem Licensed.newcomer {s : State} (h : Licensed s r w) {row : ParticipantRow}
    (hw : w.registers = some row) : row.totals = ⟨0, 0⟩ ∧ row.rankFinal = none := by
  cases h with
  | insertParticipant =>
    cases hw
    exact ⟨rfl, rfl⟩
  | _ => cases hw

section Programs

variable {cat : Catalog} {s : State} {d : Drawn}

theorem manage_licensed {r : Manage} {g : Progress Manage}
    (h : r.step cat s.db s.locks d = some g) :
    Licensed s (.manage r) g.write ∧ g.starts = none := by
  cases r with
  | create | update | softDelete | cancel | cancelRead | createRound =>
    cases h
    exact ⟨.nothing _, rfl⟩
  | createInsert user dto nowIso =>
    simp only [Manage.step] at h
    split at h
    · cases h
    · rename_i hfree
      split at h <;> cases h
      · exact ⟨.nothing _, rfl⟩
      · rename_i hchecks
        have hfresh : s.db.tournaments.find? d.id = none := by simpa using hfree
        have hpass : (dto.row d.id user.sub nowIso).passesChecks = true := by
          simp only [Bool.or_eq_true, not_or, Bool.not_eq_true, Bool.not_eq_false'] at hchecks
          exact hchecks.1
        exact ⟨.createTournament hfresh rfl hpass, rfl⟩
  | updateWrite tournamentId dto nowIso =>
    simp only [Manage.step] at h
    split at h
    · cases h
    · rename_i hfree
      split at h
      · cases h
        exact ⟨.nothing _, rfl⟩
      · rename_i t hfound
        split at h <;> cases h
        · exact ⟨.nothing _, rfl⟩
        · exact ⟨.updateTournament (by simpa using hfree) hfound, rfl⟩
  | softDeleteWrite tournamentId nowIso =>
    simp only [Manage.step] at h
    split at h
    · cases h
    · rename_i hfree
      split at h <;> cases h
      · exact ⟨.nothing _, rfl⟩
      · exact ⟨.softDeleteTournament (by simpa using hfree), rfl⟩
  | cancelWrite tournamentId nowIso =>
    simp only [Manage.step] at h
    split at h
    · cases h
    · rename_i hfree
      split at h <;> cases h
      · exact ⟨.nothing _, rfl⟩
      · rename_i t hfound
        exact ⟨.cancelTournament (by simpa using hfree) hfound, rfl⟩
  | createRoundTx tournamentId dto nowIso =>
    simp only [Manage.step] at h
    split at h
    · cases h
    · split at h
      · cases h
        exact ⟨.nothing _, rfl⟩
      · split at h
        · cases h
        · split at h <;> cases h
          · exact ⟨.nothing _, rfl⟩
          · exact ⟨.createRound, rfl⟩

theorem registerStep_licensed {userId : Uuid}
    (free : s.locks.tournament tournament.tournamentId = false)
    (h : registerStep cat s.db d tournament userId nowIso = some g) :
    Licensed s (.enrol (.registerTx tournament userId nowIso)) g.write ∧ g.starts = none := by
  simp only [registerStep] at h
  split at h
  · cases h
    exact ⟨.nothing _, rfl⟩
  · rename_i locked hfound
    split at h
    · cases h
      exact ⟨.nothing _, rfl⟩
    · rename_i hroom
      have hroom : isFull s.db locked = false := by simpa using hroom
      split at h
      · rename_i habsent
        split at h
        · cases h
        · rename_i hfresh
          split at h
          · cases h
            exact ⟨.nothing _, rfl⟩
          · obtain ⟨events, -, rfl⟩ := map_eq_some_iff.mp h
            exact ⟨.insertParticipant free hfound hroom habsent (by simpa using hfresh), rfl⟩
      · rename_i existing hpresent
        split at h
        · cases h
          exact ⟨.nothing _, rfl⟩
        · rename_i hwithdrawn
          cases h
          exact ⟨.reactivateParticipant free hfound hroom hpresent hwithdrawn, rfl⟩
        · cases h
          exact ⟨.nothing _, rfl⟩

theorem withdrawStep_licensed {r : Enrol} {userId : Uuid} {e : TournamentError}
    (request : r = .unregisterTx tournament userId nowIso ∨ r = .withdrawTx tournament userId nowIso)
    (free : s.locks.tournament tournament.tournamentId = false)
    (h : withdrawStep s.db d tournament.tournamentId userId nowIso e = some g) :
    Licensed s (.enrol r) g.write ∧ g.starts = none := by
  simp only [withdrawStep] at h
  split at h
  · cases h
    exact ⟨.nothing _, rfl⟩
  · rename_i p hpresent
    obtain ⟨events, -, rfl⟩ := map_eq_some_iff.mp h
    exact ⟨.withdrawParticipant request free hpresent, rfl⟩

theorem enrol_licensed {r : Enrol} (h : r.step cat s.db s.locks d = some g) :
    Licensed s (.enrol r) g.write ∧ g.starts = none := by
  cases r with
  | register | unregister | withdraw =>
    cases h
    exact ⟨.nothing _, rfl⟩
  | registerTx tournament userId nowIso =>
    simp only [Enrol.step] at h
    split at h
    · cases h
    · rename_i hfree
      exact registerStep_licensed (by simpa using hfree) h
  | unregisterTx tournament userId nowIso =>
    simp only [Enrol.step] at h
    split at h
    · cases h
    · rename_i hfree
      exact withdrawStep_licensed (.inl rfl) (by simpa using hfree) h
  | withdrawTx tournament userId nowIso =>
    simp only [Enrol.step] at h
    split at h
    · cases h
    · rename_i hfree
      exact withdrawStep_licensed (.inr rfl) (by simpa using hfree) h

theorem cron_licensed_rounds {r : Cron} {roundId : Uuid} {fromStatus toStatus : RoundStatus}
    {n : Next Cron} {g : Progress Cron}
    (h : (if Cron.roundMarkable s.db roundId fromStatus then
      some (commit (.markRoundStatus roundId toStatus nowIso) n) else some (goto n)) = some g) :
    Licensed s (.cron r) g.write ∧ g.starts = none := by
  split at h <;> cases h
  · exact ⟨.markRoundStatus, rfl⟩
  · exact ⟨.nothing _, rfl⟩

theorem cron_licensed {r : Cron} {g : Progress Cron} (h : r.step cat s.db s.locks d = some g) :
    Licensed s (.cron r) g.write ∧ g.starts = none := by
  cases r with
  | dispatch | dispatchList | start | openRounds | closeRounds | finalize =>
    cases h
    exact ⟨.nothing _, rfl⟩
  | dispatching items windowStart timestamp =>
    cases items with
    | nil =>
      cases h
      exact ⟨.nothing _, rfl⟩
    | cons t items =>
      simp only [Cron.step] at h
      split at h <;> cases h <;> exact ⟨.nothing _, rfl⟩
  | dispatchMark t participantCount items windowStart timestamp =>
    simp only [Cron.step] at h
    split at h
    · cases h
    · rename_i hfree
      split at h <;> cases h
      · exact ⟨.nothing _, rfl⟩
      · rename_i row hfound
        exact ⟨.openRegistration (by simpa using hfree) hfound, rfl⟩
  | dispatchSchedule t participants items windowStart timestamp =>
    simp only [Cron.step] at h
    obtain ⟨events, -, rfl⟩ := map_eq_some_iff.mp h
    exact ⟨.schedule, rfl⟩
  | starting items nowIso =>
    cases items with
    | nil =>
      cases h
      exact ⟨.nothing _, rfl⟩
    | cons t items =>
      simp only [Cron.step] at h
      split at h
      · cases h
      · rename_i hfree
        split at h <;> cases h
        · exact ⟨.nothing _, rfl⟩
        · rename_i row hfound
          exact ⟨.startPlay (by simpa using hfree) hfound, rfl⟩
  | opening items nowIso next =>
    cases items with
    | nil => cases next <;> cases h <;> exact ⟨.nothing _, rfl⟩
    | cons round items => exact cron_licensed_rounds h
  | closing items nowIso next =>
    cases items with
    | nil => cases next <;> cases h <;> exact ⟨.nothing _, rfl⟩
    | cons round items => exact cron_licensed_rounds h
  | finalizing items nowIso next =>
    cases items with
    | nil => cases next <;> cases h <;> exact ⟨.nothing _, rfl⟩
    | cons tournamentId items =>
      simp only [Cron.step] at h
      split at h
      · cases h
      · split at h <;> cases h <;> exact ⟨.nothing _, rfl⟩
  | finalizeRank t items nowIso next =>
    simp only [Cron.step] at h
    split at h <;> cases h <;> exact ⟨.nothing _, rfl⟩
  | finalizeCommit t standings items nowIso next =>
    simp only [Cron.step] at h
    split at h
    · cases h
    · obtain ⟨events, -, rfl⟩ := map_eq_some_iff.mp h
      exact ⟨.finalizeTournament, rfl⟩

theorem play_licensed {r : Play} {g : Progress Play} (h : r.step s.db s.locks d = some g) :
    Licensed s (.play r) g.write := by
  cases r with
  | startRoundFind | attemptCompleted =>
    cases h
    exact .nothing _
  | startRound | startRoundDetail =>
    simp only [Play.step] at h
    split at h <;> cases h <;> exact .nothing _
  | startRoundJoin tournamentId roundId quizVersionId user nowIso =>
    simp only [Play.step] at h
    split at h
    · cases h
      exact .nothing _
    · split at h <;> cases h <;> exact .nothing _
  | scoreUpdate score =>
    simp only [Play.step] at h
    split at h
    · cases h
      exact .nothing _
    · split at h <;> cases h
      exact .nothing _
  | scoreRecalculate score =>
    simp only [Play.step] at h
    split at h
    · cases h
      exact .nothing _
    · split at h <;> cases h <;> exact .nothing _
  | scoreLock score totals =>
    simp only [Play.step] at h
    split at h
    · cases h
    · split at h <;> cases h <;> exact .nothing _
  | scoreCommit score totals =>
    cases h
    exact .scoreRound

theorem request_licensed {g : Advance} (h : r.step cat s.db s.locks d = some g) :
    Licensed s r g.write := by
  cases r with
  | manage r =>
    obtain ⟨p, hp, rfl⟩ := map_eq_some_iff.mp h
    exact (manage_licensed hp).1
  | enrol r =>
    obtain ⟨p, hp, rfl⟩ := map_eq_some_iff.mp h
    exact (enrol_licensed hp).1
  | cron r =>
    obtain ⟨p, hp, rfl⟩ := map_eq_some_iff.mp h
    exact (cron_licensed hp).1
  | play r =>
    obtain ⟨p, hp, rfl⟩ := map_eq_some_iff.mp h
    exact play_licensed hp
  | done | failed => cases h

theorem registered_of_starts {g : Advance} (h : r.step cat s.db s.locks d = some g)
    {p : RoundParams} (hp : g.starts = some p) :
    (s.db.participants.find? p.participantId).isSome = true := by
  cases r with
  | manage r =>
    obtain ⟨q, hq, rfl⟩ := map_eq_some_iff.mp h
    rw [advance, (manage_licensed hq).2] at hp
    cases hp
  | enrol r =>
    obtain ⟨q, hq, rfl⟩ := map_eq_some_iff.mp h
    rw [advance, (enrol_licensed hq).2] at hp
    cases hp
  | cron r =>
    obtain ⟨q, hq, rfl⟩ := map_eq_some_iff.mp h
    rw [advance, (cron_licensed hq).2] at hp
    cases hp
  | play r =>
    obtain ⟨q, hq, rfl⟩ := map_eq_some_iff.mp h
    cases r with
    | startRoundJoin tournamentId roundId quizVersionId user nowIso =>
      simp only [Play.step] at hq
      split at hq
      · cases hq
        cases hp
      · rename_i participant hfound
        split at hq
        · cases hq
          cases hp
        · cases hq
          cases hp
          rw [roundParams, (of_getParticipantByUserAndTournament hfound).1]
          rfl
    | startRoundFind | attemptCompleted | scoreCommit =>
      cases hq
      cases hp
    | startRound | startRoundDetail | scoreUpdate | scoreRecalculate | scoreLock =>
      simp only [Play.step] at hq
      (repeat' split at hq) <;> cases hq <;> cases hp
  | done | failed => cases h

end Programs

/-! ## Program points -/

/-- The transactions of `Enrol` that a request can come to, and what it has read before. -/
inductive EnrolReaches (db : Db) : Enrol → Prop
  | registerTx {tournament : TournamentRow} {userId : Uuid} {nowIso : Int}
      (found : db.getTournamentById tournament.tournamentId = some tournament)
      (status : tournament.status = .registration) :
      EnrolReaches db (.registerTx tournament userId nowIso)
  | unregisterTx {tournament : TournamentRow} {userId : Uuid} {nowIso : Int}
      (found : db.getTournamentById tournament.tournamentId = some tournament)
      (status : tournament.status = .registration) :
      EnrolReaches db (.unregisterTx tournament userId nowIso)
  | withdrawTx {tournament : TournamentRow} {userId : Uuid} {nowIso : Int}
      (found : db.getTournamentById tournament.tournamentId = some tournament)
      (status : tournament.status = .ongoing) :
      EnrolReaches db (.withdrawTx tournament userId nowIso)

def Cron.isPlain : Cron → Bool
  | .dispatchMark .. => false
  | .finalizeRank .. => false
  | .finalizeCommit .. => false
  | _ => true

theorem Cron.locksTournament_of_isPlain {r : Cron} (h : r.isPlain = true) :
    r.locksTournament = none := by
  cases r with
  | finalizeRank | finalizeCommit => cases h
  | _ => rfl

inductive CronReaches (cat : Catalog) (s : State) : Cron → Cron → Prop
  | plain {r r' : Cron} (h : r'.isPlain = true) : CronReaches cat s r r'
  | dispatchMark {r : Cron} {t : TournamentRow} {participantCount : Nat}
      {items : List TournamentRow} {windowStart timestamp : Int}
      (count : s.db.countParticipants t.tournamentId ≠ 0) :
      CronReaches cat s r (.dispatchMark t participantCount items windowStart timestamp)
  | finalizeRank {tournamentId : Uuid} {t : TournamentRow} {items : List Uuid} {nowIso : Int}
      {next : Option Nat} (free : s.locks.tournament tournamentId = false)
      (found : Cron.markable s.db tournamentId .ongoing = some t) :
      CronReaches cat s (.finalizing (tournamentId :: items) nowIso next)
        (.finalizeRank t items nowIso next)
  | finalizeCommit {t : TournamentRow} {items : List Uuid} {nowIso : Int} {next : Option Nat} :
      CronReaches cat s (.finalizeRank t items nowIso next)
        (.finalizeCommit t (s.db.ranked cat t.tournamentId) items nowIso next)

inductive PlayReaches (s : State) : Play → Play → Prop
  | startRound {r r' : Play} (h : r'.locksRoundParticipant = none)
      (h' : ∀ score, r' ≠ .scoreUpdate score) : PlayReaches s r r'
  | scoreUpdate {event : CompletionParams} {score : RoundScore}
      {row : RoundParticipantRow} (found : row ∈ s.db.attempt.roundParticipants.rows)
      (key : score.key = row.key) :
      PlayReaches s (.attemptCompleted event) (.scoreUpdate score)
  | scoreRecalculate {score : RoundScore} (free : s.locks.roundParticipant score.key = false) :
      PlayReaches s (.scoreUpdate score) (.scoreRecalculate score)
  | scoreLock {score : RoundScore}
      (distinct : isDistinct s.db score (aggregate s.db score) = true) :
      PlayReaches s (.scoreRecalculate score) (.scoreLock score (aggregate s.db score))
  | settled {score : RoundScore}
      (same : isDistinct s.db score (aggregate s.db score) = false) :
      PlayReaches s (.scoreRecalculate score) (.scoreCommit score none)
  | scoreCommit {score : RoundScore} {totals : Totals}
      (free : s.locks.participant score.participantId = false) :
      PlayReaches s (.scoreLock score totals) (.scoreCommit score (some totals))
  | overtaken {score : RoundScore} {totals : Totals}
      (same : isDistinct s.db score totals = false) :
      PlayReaches s (.scoreLock score totals) (.scoreCommit score none)

section Points

variable {cat : Catalog} {s : State} {d : Drawn}

theorem key_of_getTournamentById {db : Db} {t : TournamentRow}
    (h : db.getTournamentById tournamentId = some t) : t.tournamentId = tournamentId :=
  Table.key_of_find? (find?_of_getTournamentById h)

theorem registerStep_ends {db : Db} {userId : Uuid}
    (h : registerStep cat db d tournament userId nowIso = some g) (point : Enrol) :
    g.next ≠ .goto point := by
  simp only [registerStep] at h
  split at h
  · cases h
    simp [goto]
  · split at h
    · cases h
      simp [goto]
    · split at h
      · split at h
        · cases h
        · split at h
          · cases h
            simp [goto]
          · obtain ⟨events, -, rfl⟩ := map_eq_some_iff.mp h
            simp [commit]
      · split at h <;> cases h <;> simp [goto, commit]

theorem withdrawStep_ends {db : Db} {userId : Uuid} {e : TournamentError}
    (h : withdrawStep db d tournamentId userId nowIso e = some g) (point : Enrol) :
    g.next ≠ .goto point := by
  simp only [withdrawStep] at h
  split at h
  · cases h
    simp [goto]
  · obtain ⟨events, -, rfl⟩ := map_eq_some_iff.mp h
    simp [commit]

theorem enrol_reaches {r r' : Enrol} (h : r.step cat s.db s.locks d = some g)
    (hr : g.next = .goto r') : EnrolReaches s.db r' := by
  cases r with
  | register tournamentId user nowIso =>
    cases h
    simp only [goto, registerForTournament] at hr
    split at hr
    · cases hr
    · rename_i t ht
      obtain rfl := key_of_getTournamentById ht
      split at hr
      · cases hr
      · rename_i hstatus
        split at hr <;> cases hr
        exact .registerTx ht (by simpa using hstatus)
  | unregister tournamentId user nowIso =>
    cases h
    simp only [goto, unregisterFromTournament] at hr
    split at hr
    · cases hr
    · rename_i t ht
      obtain rfl := key_of_getTournamentById ht
      split at hr <;> cases hr
      rename_i hstatus
      exact .unregisterTx ht (by simpa using hstatus)
  | withdraw tournamentId userId nowIso =>
    cases h
    simp only [goto, withdrawFromTournament] at hr
    split at hr
    · cases hr
    · rename_i t ht
      obtain rfl := key_of_getTournamentById ht
      split at hr <;> cases hr
      rename_i hstatus
      exact .withdrawTx ht (by simpa using hstatus)
  | registerTx tournament userId nowIso =>
    simp only [Enrol.step] at h
    split at h
    · cases h
    · exact absurd hr (registerStep_ends h r')
  | unregisterTx tournament userId nowIso | withdrawTx tournament userId nowIso =>
    simp only [Enrol.step] at h
    split at h
    · cases h
    · exact absurd hr (withdrawStep_ends h r')

theorem cron_reaches {r r' : Cron} {g : Progress Cron}
    (h : r.step cat s.db s.locks d = some g) (hr : g.next = .goto r') :
    CronReaches cat s r r' := by
  cases r with
  | dispatch | dispatchList | start | openRounds | closeRounds | finalize =>
    cases h
    cases hr
    exact .plain rfl
  | dispatching items windowStart timestamp =>
    cases items with
    | nil =>
      cases h
      cases hr
    | cons t items =>
      simp only [Cron.step] at h
      split at h <;> cases h <;> cases hr
      · exact .plain rfl
      · rename_i hcount
        exact .dispatchMark hcount
  | dispatchMark t participantCount items windowStart timestamp =>
    simp only [Cron.step] at h
    split at h
    · cases h
    · split at h <;> cases h <;> cases hr <;> exact .plain rfl
  | dispatchSchedule t participants items windowStart timestamp =>
    simp only [Cron.step] at h
    obtain ⟨events, -, rfl⟩ := map_eq_some_iff.mp h
    cases hr
    exact .plain rfl
  | starting items nowIso =>
    cases items with
    | nil =>
      cases h
      cases hr
    | cons t items =>
      simp only [Cron.step] at h
      split at h
      · cases h
      · split at h <;> cases h <;> cases hr <;> exact .plain rfl
  | opening items nowIso next | closing items nowIso next =>
    cases items with
    | nil =>
      cases next with
      | none =>
        cases h
        cases hr
      | some page =>
        cases h
        cases hr
        exact .plain rfl
    | cons round items =>
      simp only [Cron.step] at h
      split at h <;> cases h <;> cases hr <;> exact .plain rfl
  | finalizing items nowIso next =>
    cases items with
    | nil =>
      cases next with
      | none =>
        cases h
        cases hr
      | some page =>
        cases h
        cases hr
        exact .plain rfl
    | cons tournamentId items =>
      simp only [Cron.step] at h
      split at h
      · cases h
      · rename_i hfree
        split at h <;> cases h <;> cases hr
        · exact .plain rfl
        · rename_i t hfound
          exact .finalizeRank (by simpa using hfree) hfound
  | finalizeRank t items nowIso next =>
    simp only [Cron.step] at h
    split at h <;> cases h <;> cases hr
    exact .finalizeCommit
  | finalizeCommit t standings items nowIso next =>
    simp only [Cron.step] at h
    split at h
    · cases h
    · obtain ⟨events, -, rfl⟩ := map_eq_some_iff.mp h
      cases hr
      exact .plain rfl

theorem play_reaches {r r' : Play} {g : Progress Play}
    (h : r.step s.db s.locks d = some g) (hr : g.next = .goto r') : PlayReaches s r r' := by
  cases r with
  | startRound | startRoundDetail =>
    simp only [Play.step] at h
    split at h <;> cases h <;> cases hr
    exact .startRound rfl (by intro score hs; cases hs)
  | startRoundFind tournamentId roundId user nowIso =>
    cases h
    simp only [goto, findOpenRound] at hr
    split at hr
    · cases hr
    · split at hr
      · cases hr
      · split at hr <;> cases hr
        exact .startRound rfl (by intro score hs; cases hs)
  | startRoundJoin tournamentId roundId quizVersionId user nowIso =>
    simp only [Play.step] at h
    split at h
    · cases h
      cases hr
    · split at h
      · cases h
        cases hr
      · cases h
        cases hr
  | attemptCompleted event =>
    cases h
    simp only [goto, findRound] at hr
    split at hr <;> cases hr
    rename_i row hrow
    exact .scoreUpdate (List.mem_of_find?_eq_some hrow) rfl
  | scoreUpdate score =>
    simp only [Play.step] at h
    split at h
    · cases h
      cases hr
    · split at h <;> cases h
      cases hr
      rename_i hfree
      exact .scoreRecalculate (by simpa using hfree)
  | scoreRecalculate score =>
    simp only [Play.step] at h
    split at h
    · cases h
      cases hr
    · split at h <;> cases h <;> cases hr
      · rename_i hdistinct
        exact .scoreLock hdistinct
      · rename_i hdistinct
        exact .settled (by simpa using hdistinct)
  | scoreLock score totals =>
    simp only [Play.step] at h
    split at h
    · cases h
    · rename_i hfree
      split at h <;> cases h <;> cases hr
      · exact .scoreCommit (by simpa using hfree)
      · rename_i hdistinct
        exact .overtaken (by simpa using hdistinct)
  | scoreCommit score totals =>
    cases h
    cases hr

inductive Reaches (cat : Catalog) (s : State) : Request → Request → Prop
  | manage {r : Request} {r' : Manage} : Reaches cat s r (.manage r')
  | enrol {r : Request} {r' : Enrol} (h : EnrolReaches s.db r') : Reaches cat s r (.enrol r')
  | cron {r r' : Cron} (h : CronReaches cat s r r') : Reaches cat s (.cron r) (.cron r')
  | play {r r' : Play} (h : PlayReaches s r r') : Reaches cat s (.play r) (.play r')
  | done {r : Request} : Reaches cat s r .done
  | failed {r : Request} {e : TournamentError} : Reaches cat s r (.failed e)

theorem request_reaches {g : Advance} (h : r.step cat s.db s.locks d = some g) :
    Reaches cat s r g.request := by
  cases r with
  | manage r =>
    obtain ⟨p, hp, rfl⟩ := map_eq_some_iff.mp h
    rw [advance]
    cases p.next with
    | goto r' => exact .manage
    | done => exact .done
    | failed e => exact .failed
  | enrol r =>
    obtain ⟨p, hp, rfl⟩ := map_eq_some_iff.mp h
    rw [advance]
    cases hn : p.next with
    | goto r' => exact .enrol (enrol_reaches hp hn)
    | done => exact .done
    | failed e => exact .failed
  | cron r =>
    obtain ⟨p, hp, rfl⟩ := map_eq_some_iff.mp h
    rw [advance]
    cases hn : p.next with
    | goto r' => exact .cron (cron_reaches hp hn)
    | done => exact .done
    | failed e => exact .failed
  | play r =>
    obtain ⟨p, hp, rfl⟩ := map_eq_some_iff.mp h
    rw [advance]
    cases hn : p.next with
    | goto r' => exact .play (play_reaches hp hn)
    | done => exact .done
    | failed e => exact .failed
  | done | failed => cases h

end Points

/-! ## Steps of the system -/

inductive Stepped (cat : Catalog) (s : State) : Action → State → Prop
  | arrive {r : Request} (may : r.mayArrive s.emitted = true) :
      Stepped cat s (.arrive r) { s with requests := s.requests ++ [r] }
  | advance {i : Nat} {d : Drawn} {r : Request} {g : Advance} (request : s.requests[i]? = some r)
      (next : r.step cat s.db s.locks d = some g) : Stepped cat s (.advance i d) (s.after i g)
  | abort {i : Nat} {r : Request} (request : s.requests[i]? = some r) :
      Stepped cat s (.abort i) { s with requests := s.requests.set i (.failed databaseError) }
  | attempt {a : Attempt.Action} {t : Attempt.State} (own : isOwnAction a = true)
      (next : Attempt.step (s.attemptCatalog cat) s.attempt a = some t) :
      Stepped cat s (.attempt a) (s.withAttempt t)

theorem writes_advance {cat : Catalog} {s : State} {i : Nat} {d : Drawn} {g : Advance}
    (request : s.requests[i]? = some r) (next : r.step cat s.db s.locks d = some g) :
    s.writes cat (.advance i d) = g.write := by
  simp [State.writes, State.advance, request, next]

theorem stepped_of_step {cat : Catalog} {s s' : State} {a : Action} (h : step cat s a = some s') :
    Stepped cat s a s' := by
  cases a with
  | arrive r =>
    simp only [step] at h
    split at h <;> cases h
    rename_i hmay
    exact .arrive hmay
  | advance i d =>
    obtain ⟨g, hg, rfl⟩ := map_eq_some_iff.mp h
    obtain ⟨r, hr, hg⟩ := Option.bind_eq_some_iff.mp hg
    exact .advance hr hg
  | abort i =>
    simp only [step] at h
    split at h
    · rename_i r hr
      split at h <;> cases h
      exact .abort hr
    · cases h
  | attempt a =>
    simp only [step] at h
    split at h
    · rename_i hown
      obtain ⟨t, ht, rfl⟩ := map_eq_some_iff.mp h
      exact .attempt hown ht
    · cases h

/-! ## A tournament to run on

Tournament 30 belongs to the organiser, 9; it lasts from the first to the second midnight after the
epoch, and its rounds 41 and 42 are on the one quiz there is. Concrete runs below are on it. -/

def kickOff : Int := msPerDay

def cupCatalog : Catalog :=
  { attempt := oneQuiz, categoryName := fun _ => none, userDeleted := fun _ => false }

def organiser : JwtPayload := ⟨9, .admin⟩

def rival : JwtPayload := ⟨8, .user⟩

def cup (status : TournamentStatus) (maxParticipants : Option Int) : TournamentRow :=
  { tournamentId := 30, title := "Cup", description := none, difficulty := .easy, status,
    prize := none, startAt := kickOff, endAt := 2 * kickOff, maxParticipants, categoryId := none,
    ownerUserId := organiser.sub, createdAt := 0, updatedAt := 0, deletedAt := none }

def cupRound (roundId : Uuid) (roundNumber : Int) : RoundRow :=
  { roundId, tournamentId := 30, roundNumber, name := "Round", description := none,
    quizVersionId := 2, startAt := none, endAt := none, durationMs := none, status := .open_,
    isElimination := false, participantLimit := none, createdAt := 0, updatedAt := 0 }

def accounts : Table Uuid Streak.UserRow Streak.UserRow.userId :=
  ⟨[⟨organiser.sub, .initial, none⟩, ⟨player.sub, .initial, none⟩,
    ⟨rival.sub, .initial, none⟩], by decide⟩

def cupDb (t : TournamentRow) (participants : Participants) : Db :=
  { attempt := .initial accounts (Table.empty _), tournaments := ⟨[t], by simp⟩,
    rounds := ⟨[cupRound 41 1, cupRound 42 2], by decide⟩, participants }

def openCup : Db := cupDb (cup .registration none) (Table.empty _)

/-- Request number `i` runs `n` statements, drawing the ids number `k`. -/
def runs (i n k : Nat) : List Action :=
  List.replicate n (.advance i ⟨attemptNo k, ["event"], none, 0⟩)

end QuizBackend.Tournament
