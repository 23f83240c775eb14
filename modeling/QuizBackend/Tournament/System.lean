import QuizBackend.Tournament.Manage
import QuizBackend.Tournament.Enrol
import QuizBackend.Tournament.Cron
import QuizBackend.Tournament.Play
import QuizBackend.Lib.Run

/-!
# The tournament system

Requests, jobs and listeners of the tournament module, at their program points, together with the
requests of the attempt module, over one database. Any of them can take the next step. A round
attempt is started here and finished there: `startRoundAttempt` hands its checked parameters to
the attempt module, and a completed attempt comes back as an event the listener may pick up, at any
later time.

At any point a request can fail with the database, and its transaction is rolled back.
-/

namespace QuizBackend.Tournament

open Lib Outbox
open Attempt (RoundParams)

inductive Request where
  | manage (r : Manage)
  | enrol (r : Enrol)
  | cron (r : Cron)
  | play (r : Play)
  | done
  | failed (e : TournamentError)

def Next.request {ρ : Type} (wrap : ρ → Request) : Next ρ → Request
  | .goto point => wrap point
  | .done => .done
  | .failed e => .failed e

namespace Request

def isOver : Request → Bool
  | done | failed _ => true
  | _ => false

/-- A request may arrive. The listener is called with an event the attempt module has emitted. -/
def mayArrive (emitted : List Attempt.DomainEvent) : Request → Bool
  | manage r => r.isNew
  | enrol r => r.isNew
  | cron r => r.isNew
  | play (.startRound ..) => true
  | play (.attemptCompleted event) => .attemptCompleted event ∈ emitted
  | _ => false

def locksTournament : Request → Option Uuid
  | cron r => r.locksTournament
  | _ => none

def locksParticipant : Request → Option Uuid
  | play r => r.locksParticipant
  | _ => none

def locksRoundParticipant : Request → Option (Uuid × Uuid)
  | play r => r.locksRoundParticipant
  | _ => none

end Request

structure State where
  db : Db
  requests : List Request
  attemptRequests : List Attempt.Request
  emitted : List Attempt.DomainEvent

def State.initial (db : Db) : State := ⟨db, [], [], []⟩

def State.locks (s : State) : Locks where
  tournament tournamentId := s.requests.any fun r => r.locksTournament = some tournamentId
  participant participantId := s.requests.any fun r => r.locksParticipant = some participantId
  roundParticipant key := s.requests.any fun r => r.locksRoundParticipant = some key

def State.attempt (s : State) : Attempt.State := ⟨s.db.attempt, s.attemptRequests, s.emitted⟩

def State.attemptCatalog (s : State) (cat : Catalog) : Attempt.Catalog :=
  { cat.attempt with
    tournamentExists := fun tournamentId => (s.db.tournaments.find? tournamentId).isSome }

inductive Action where
  | arrive (r : Request)
  | advance (i : Nat) (d : Drawn)
  | abort (i : Nat)
  | attempt (a : Attempt.Action)

structure Advance where
  write : Write
  request : Request
  starts : Option RoundParams

def Progress.advance {ρ : Type} (wrap : ρ → Request) (g : Progress ρ) : Advance :=
  ⟨g.write, g.next.request wrap, g.starts⟩

def Request.step (cat : Catalog) (db : Db) (locks : Locks) (d : Drawn) :
    Request → Option Advance
  | manage r => (r.step cat db locks d).map (·.advance .manage)
  | enrol r => (r.step cat db locks d).map (·.advance .enrol)
  | cron r => (r.step cat db locks d).map (·.advance .cron)
  | play r => (r.step db locks d).map (·.advance .play)
  | done => none
  | failed _ => none

/-- A round attempt reaches the attempt module through `startRoundAttempt` only. -/
def isOwnAction : Attempt.Action → Bool
  | .arrive (.startRound _) => false
  | _ => true

def State.after (s : State) (i : Nat) (g : Advance) : State :=
  { db := s.db.apply g.write
    requests := s.requests.set i g.request
    attemptRequests := s.attemptRequests ++ (g.starts.map .startRound).toList
    emitted := s.emitted }

def State.withAttempt (s : State) (t : Attempt.State) : State :=
  { s with
    db := { s.db with attempt := t.db }, attemptRequests := t.requests, emitted := t.emitted }

def State.advance (cat : Catalog) (s : State) (i : Nat) (d : Drawn) : Option Advance :=
  s.requests[i]?.bind fun r => r.step cat s.db s.locks d

def step (cat : Catalog) (s : State) : Action → Option State
  | .arrive r =>
    if r.mayArrive s.emitted then some { s with requests := s.requests ++ [r] } else none
  | .advance i d => (s.advance cat i d).map (s.after i)
  | .abort i =>
    match s.requests[i]? with
    | some r =>
      if r.isOver then none
      else some { s with requests := s.requests.set i (.failed databaseError) }
    | none => none
  | .attempt a =>
    if isOwnAction a then
      (Attempt.step (s.attemptCatalog cat) s.attempt a).map s.withAttempt
    else none

def State.writes (cat : Catalog) (s : State) : Action → Write
  | .advance i d => ((s.advance cat i d).map (·.write)).getD .nothing
  | _ => .nothing

end QuizBackend.Tournament
