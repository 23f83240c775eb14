import Mathlib
import QuizBackend.Lib.Run
import QuizBackend.Lib.Table
import QuizBackend.Lib.Exclusive
import QuizBackend.Lib.Text

/-!
# The retry queue

In-process handlers that throw get their event again later. `RetryQueue` writes the event under a
payload key and puts that key into a sorted set scored by the time it is due; a poll takes the due
keys from the set one by one, each by a `ZREM` and then a `GETDEL`, and calls the handlers; an
event that has failed too often goes to the dead-letter list.

The payload key is built from the attempt and the due time alone. Two events that fail at the same
attempt in the same millisecond therefore write the same key, and the second takes the place of the
first. What is proved here is that this is the only way an event gets lost: as long as no retry is
written under a key that holds another event, every event whose handler threw is in the queue or in
the hands of a poll until it is delivered or dead-lettered. That includes every interleaving of
polls with each other and with the writes, and it includes the branch of a poll that puts a key
back without its payload, which is never taken because a key determines its due time.

Every Redis command is a step of its own, the `MULTI` of a write being one command. A write takes
effect when it is issued. Polls are serialised by an advisory lock that may expire, so any number
of them is under way here.
-/

namespace QuizBackend.Events

open Lib Table

variable {T : Type}

/-! ## The queue -/

/-- `RetryQueueConfig`; the separator is `config.tierSeparator ?? '::'`. -/
structure RetryQueueConfig where
  retryQueuePrefix : String
  retryDelaysMs : List Int
  tierSeparator : String := "::"

def RetryQueueConfig.maxRetries (config : RetryQueueConfig) : Nat := config.retryDelaysMs.length

/-- The payload of a key. `origin` numbers the call of `dispatch` the event came with; the code
has no such number. -/
structure QueuedItem (T : Type) where
  event : T
  attempt : Nat
  nextRetryAt : Int
  correlationId : Option String
  tierKey : String
  origin : Nat

structure IndexEntry where
  member : String
  score : Int

structure DeadLetter (T : Type) where
  event : T
  failedAt : Int
  lastAttempt : Nat
  lastError : String

/-- Where a poll stands with its next key: before the `ZREM`, between it and the `GETDEL`, or with
the payload in hand. -/
inductive PollStage (T : Type) where
  | idle
  | claimed (tierKey : String)
  | holding (item : QueuedItem T)

structure Poll (T : Type) where
  now : Int
  due : List IndexEntry
  stage : PollStage T

/-- The Redis keys of a queue and the polls under way. `dispatched` counts the calls of `dispatch`;
`owed` are the events some handler threw for that have not been delivered to all handlers or
dead-lettered since. -/
structure RetryQueue (T : Type) where
  payloads : Table String (QueuedItem T) (·.tierKey)
  index : Table String IndexEntry (·.member)
  deadLetters : List (DeadLetter T)
  polls : List (Poll T)
  dispatched : Nat
  owed : List Nat

open RetryQueue

def RetryQueue.empty (T : Type) : RetryQueue T :=
  ⟨Table.empty _, Table.empty _, [], [], 0, []⟩

def RetryQueueConfig.tierKey (config : RetryQueueConfig) (attempt : Nat) (nextRetryAt : Int) :
    String :=
  config.retryQueuePrefix ++ ":tier-" ++ attempt.repr ++ config.tierSeparator ++ nextRetryAt.repr

def RetryQueueConfig.nextRetryAt (config : RetryQueueConfig) (attempt : Nat) (now : Int) : Int :=
  now + (config.retryDelaysMs[attempt - 1]?).getD (config.retryDelaysMs.getLastD 0)

def ltrim {α : Type} (n : Nat) (l : List α) : List α := l.drop (l.length - n)

def deadLetterLimit : Nat := 1000

def RetryQueue.moveToDeadLetter (q : RetryQueue T) (origin : Nat) (letter : DeadLetter T) :
    RetryQueue T :=
  { q with
    deadLetters := ltrim deadLetterLimit (q.deadLetters ++ [letter])
    owed := q.owed.filter (· ≠ origin) }

section DeadLetter

variable (q : RetryQueue T) (origin : Nat) (letter : DeadLetter T)

@[simp] theorem RetryQueue.moveToDeadLetter_payloads :
    (q.moveToDeadLetter origin letter).payloads = q.payloads := by
  simp only [moveToDeadLetter]

@[simp] theorem RetryQueue.moveToDeadLetter_index :
    (q.moveToDeadLetter origin letter).index = q.index := by
  simp only [moveToDeadLetter]

@[simp] theorem RetryQueue.moveToDeadLetter_polls :
    (q.moveToDeadLetter origin letter).polls = q.polls := by
  simp only [moveToDeadLetter]

@[simp] theorem RetryQueue.moveToDeadLetter_owed :
    (q.moveToDeadLetter origin letter).owed = q.owed.filter (· ≠ origin) := rfl

end DeadLetter

def RetryQueueConfig.queued (config : RetryQueueConfig) (origin : Nat) (event : T) (attempt : Nat)
    (correlationId : Option String) (now : Int) : QueuedItem T :=
  let nextRetryAt := config.nextRetryAt attempt now
  { event, attempt, nextRetryAt, correlationId, tierKey := config.tierKey attempt nextRetryAt,
    origin }

def RetryQueue.write (q : RetryQueue T) (item : QueuedItem T) : RetryQueue T :=
  { q with
    payloads := q.payloads.upsert item
    index := q.index.upsert ⟨item.tierKey, item.nextRetryAt⟩
    owed := item.origin :: q.owed }

def RetryQueue.scheduleRetry (config : RetryQueueConfig) (q : RetryQueue T) (origin : Nat)
    (event : T) (attempt : Nat) (error : String) (correlationId : Option String) (now : Int) :
    RetryQueue T :=
  if attempt > config.maxRetries then
    q.moveToDeadLetter origin ⟨event, now, attempt, error⟩
  else q.write (config.queued origin event attempt correlationId now)

inductive HandlerOutcome where
  | returned
  | threw (error : String) (at_ : Int)

/-- `dispatch`: every handler is called, and each that throws schedules a retry. -/
def RetryQueue.dispatch (config : RetryQueueConfig) (origin : Nat) (event : T)
    (correlationId : Option String) : RetryQueue T → List HandlerOutcome → RetryQueue T
  | q, [] => q
  | q, .returned :: rest => q.dispatch config origin event correlationId rest
  | q, .threw error at_ :: rest =>
    (q.scheduleRetry config origin event 1 error correlationId at_).dispatch config origin event
      correlationId rest

/-- The handler loop of `drainOnce`, which stops at the first throw. -/
def RetryQueue.redeliver (config : RetryQueueConfig) (item : QueuedItem T)
    (correlationId : String) (q : RetryQueue T) : List HandlerOutcome → RetryQueue T
  | [] => { q with owed := q.owed.filter (· ≠ item.origin) }
  | .returned :: rest => q.redeliver config item correlationId rest
  | .threw error at_ :: _ =>
    q.scheduleRetry config item.origin item.event (item.attempt + 1) error (some correlationId) at_

/-- `zrangeByScore(index, '-inf', now, 64)`: by score, then by member. -/
def RetryQueue.due (q : RetryQueue T) (now : Int) : List IndexEntry :=
  ((q.index.rows.filter fun e => e.score ≤ now).insertionSort fun a b =>
    a.score < b.score ∨ (a.score = b.score ∧ a.member ≤ b.member)).take 64

inductive Action (T : Type) where
  | dispatch (event : T) (correlationId : Option String) (outcomes : List HandlerOutcome)
  | startPoll (now : Int)
  | zrem (i : Nat)
  | getDel (i : Nat)
  | handle (i : Nat) (outcomes : List HandlerOutcome) (createdCorrelationId : String)

def RetryQueue.setPoll (q : RetryQueue T) (i : Nat) (p : Poll T) : RetryQueue T :=
  { q with polls := q.polls.set i p }

/-- One step; a step of a poll is enabled when the poll stands there. -/
def RetryQueue.step (config : RetryQueueConfig) (q : RetryQueue T) : Action T → Option (RetryQueue T)
  | .dispatch event correlationId outcomes =>
    some ({ q with dispatched := q.dispatched + 1 }.dispatch config q.dispatched event correlationId
      outcomes)
  | .startPoll now => some { q with polls := q.polls ++ [⟨now, q.due now, .idle⟩] }
  | .zrem i =>
    match q.polls[i]? with
    | some ⟨now, e :: rest, .idle⟩ =>
      if e.score > now then some (q.setPoll i ⟨now, rest, .idle⟩)
      else if (q.index.find? e.member).isSome then
        some { q.setPoll i ⟨now, rest, .claimed e.member⟩ with index := q.index.erase e.member }
      else some (q.setPoll i ⟨now, rest, .idle⟩)
    | _ => none
  | .getDel i =>
    match q.polls[i]? with
    | some ⟨now, rest, .claimed tierKey⟩ =>
      match q.payloads.find? tierKey with
      | none => some (q.setPoll i ⟨now, rest, .idle⟩)
      | some item =>
        some { q.setPoll i ⟨now, rest, .holding item⟩ with payloads := q.payloads.erase tierKey }
    | _ => none
  | .handle i outcomes createdCorrelationId =>
    match q.polls[i]? with
    | some ⟨now, rest, .holding item⟩ =>
      if item.nextRetryAt > now then
        -- not due after all: the key goes back into the index and the poll ends
        some { q.setPoll i ⟨now, [], .idle⟩ with
          index := q.index.upsert ⟨item.tierKey, item.nextRetryAt⟩ }
      else
        some ((q.setPoll i ⟨now, rest, .idle⟩).redeliver config item
          (item.correlationId.getD createdCorrelationId) outcomes)
    | _ => none

/-! ## No event is lost -/

/-- A stored event that the index leads to. -/
def RetryQueue.Recorded (q : RetryQueue T) (origin : Nat) : Prop :=
  ∃ item ∈ q.payloads.rows, item.origin = origin ∧ (q.index.find? item.tierKey).isSome

/-- A poll has taken it out and is not done with it. -/
def RetryQueue.BeingRedelivered (q : RetryQueue T) (origin : Nat) : Prop :=
  (∃ p ∈ q.polls, ∃ item, p.stage = .holding item ∧ item.origin = origin) ∨
    ∃ p ∈ q.polls, ∃ item ∈ q.payloads.rows, p.stage = .claimed item.tierKey ∧ item.origin = origin

/-- Every event a handler threw for is recorded or being redelivered, until all handlers have taken
it or it is dead-lettered. -/
def RetryQueue.LosesNone (q : RetryQueue T) : Prop :=
  ∀ origin ∈ q.owed, q.Recorded origin ∨ q.BeingRedelivered origin

def RetryQueue.KeyFree (config : RetryQueueConfig) (q : RetryQueue T) (origin attempt : Nat)
    (now : Int) : Prop :=
  attempt ≤ config.maxRetries → ∀ item ∈ q.payloads.rows,
    item.tierKey = config.tierKey attempt (config.nextRetryAt attempt now) → item.origin = origin

def RetryQueue.DispatchFree (config : RetryQueueConfig) (origin : Nat) (event : T)
    (correlationId : Option String) : RetryQueue T → List HandlerOutcome → Prop
  | _, [] => True
  | q, .returned :: rest => q.DispatchFree config origin event correlationId rest
  | q, .threw error at_ :: rest =>
    q.KeyFree config origin 1 at_ ∧
      (q.scheduleRetry config origin event 1 error correlationId at_).DispatchFree config origin
        event correlationId rest

def RetryQueue.RedeliverFree (config : RetryQueueConfig) (item : QueuedItem T)
    (q : RetryQueue T) : List HandlerOutcome → Prop
  | [] => True
  | .returned :: rest => q.RedeliverFree config item rest
  | .threw _ at_ :: _ => q.KeyFree config item.origin (item.attempt + 1) at_

/-- No other event is stored under the key. -/
def RetryQueue.OverwritesNone (config : RetryQueueConfig) (q : RetryQueue T) : Action T → Prop
  | .dispatch event correlationId outcomes =>
    { q with dispatched := q.dispatched + 1 }.DispatchFree config q.dispatched event correlationId
      outcomes
  | .handle i outcomes _ =>
    ∀ now rest item, q.polls[i]? = some ⟨now, rest, .holding item⟩ →
      q.RedeliverFree config item outcomes
  | _ => True

/-! ### A key determines its due time -/

def RetryQueueConfig.SeparatorOk (config : RetryQueueConfig) : Prop :=
  ∃ c rest, config.tierSeparator.toList = c :: rest ∧ c.isDigit = false

theorem RetryQueueConfig.tierKey_inj {config : RetryQueueConfig} (hsep : config.SeparatorOk)
    {a b : Nat} {t u : Int} (h : config.tierKey a t = config.tierKey b u) : t = u := by
  obtain ⟨c, rest, hc, hdigit⟩ := hsep
  have hlist := congrArg String.toList h
  simp only [RetryQueueConfig.tierKey, String.toList_append, List.append_assoc,
    List.append_cancel_left_eq, hc, List.cons_append] at hlist
  obtain ⟨-, htail⟩ := repr_append_inj hdigit hdigit hlist
  simp only [List.cons.injEq, true_and, List.append_cancel_left_eq] at htail
  exact Int.repr_injective (String.toList_injective htail)

/-! ### What the queue looks like -/

/-- The shape of the queue: keys are built from what they hold, a poll only ever works on keys
that were due for it, and a payload stays reachable through the index or a claim. -/
structure RetryQueue.Shape (config : RetryQueueConfig) (q : RetryQueue T) : Prop where
  keyed : ∀ item ∈ q.payloads.rows,
    ∃ attempt, item.tierKey = config.tierKey attempt item.nextRetryAt
  scored : ∀ e ∈ q.index.rows, ∃ attempt, e.member = config.tierKey attempt e.score
  due : ∀ p ∈ q.polls, ∀ e ∈ p.due, ∃ attempt, e.member = config.tierKey attempt e.score
  claimed : ∀ p ∈ q.polls, ∀ k, p.stage = .claimed k →
    ∃ attempt t, k = config.tierKey attempt t ∧ t ≤ p.now
  holding : ∀ p ∈ q.polls, ∀ item, p.stage = .holding item → item.nextRetryAt ≤ p.now
  reachable : ∀ item ∈ q.payloads.rows, (q.index.find? item.tierKey).isSome ∨
    ∃ p ∈ q.polls, p.stage = .claimed item.tierKey

theorem RetryQueue.Shape.congr {config : RetryQueueConfig} {q q' : RetryQueue T}
    (h : q.Shape config) (hpayloads : q'.payloads = q.payloads) (hindex : q'.index = q.index)
    (hpolls : q'.polls = q.polls) : q'.Shape config := by
  obtain ⟨hkeyed, hscored, hdue, hclaimed, hholding, hreachable⟩ := h
  constructor
  · rwa [hpayloads]
  · rwa [hindex]
  · rwa [hpolls]
  · rwa [hpolls]
  · rwa [hpolls]
  · rwa [hpayloads, hindex, hpolls]

def RetryQueue.Has (q : RetryQueue T) (origin : Nat) : Prop :=
  (∃ item ∈ q.payloads.rows, item.origin = origin) ∨
    ∃ p ∈ q.polls, ∃ item, p.stage = .holding item ∧ item.origin = origin

variable {o : Nat} {outcomes : List HandlerOutcome}

theorem RetryQueue.Has.congr {q q' : RetryQueue T} (h : q.Has o)
    (hpayloads : q'.payloads = q.payloads) (hpolls : q'.polls = q.polls) : q'.Has o := by
  unfold Has
  rwa [hpayloads, hpolls]

theorem RetryQueue.Shape.losesNone {config : RetryQueueConfig} {q : RetryQueue T}
    (h : q.Shape config) (howed : ∀ o ∈ q.owed, q.Has o) : q.LosesNone := by
  intro o ho
  rcases howed o ho with ⟨item, hitem, rfl⟩ | hheld
  · rcases h.reachable item hitem with hindex | ⟨p, hp, hclaimed⟩
    · exact .inl ⟨item, hitem, rfl, hindex⟩
    · exact .inr (.inr ⟨p, hp, item, hitem, hclaimed, rfl⟩)
  · exact .inr (.inl hheld)

/-! ### A retry is scheduled -/

section Schedule

variable {config : RetryQueueConfig} {q : RetryQueue T} {item : QueuedItem T}

theorem RetryQueue.Shape.write (h : q.Shape config)
    (hkey : ∃ attempt, item.tierKey = config.tierKey attempt item.nextRetryAt) :
    (q.write item).Shape config where
  keyed := by
    intro x hx
    rcases mem_upsert.mp hx with rfl | ⟨hold, -⟩
    · exact hkey
    · exact h.keyed x hold
  scored := by
    intro e he
    rcases mem_upsert.mp he with rfl | ⟨hold, -⟩
    · exact hkey
    · exact h.scored e hold
  due := h.due
  claimed := h.claimed
  holding := h.holding
  reachable := by
    intro x hx
    show (((q.index.upsert ⟨item.tierKey, item.nextRetryAt⟩).find? x.tierKey).isSome ∨ _)
    rw [find?_upsert]
    rcases mem_upsert.mp hx with rfl | ⟨hold, hne⟩
    · simp
    · rw [if_neg hne]
      exact h.reachable x hold

theorem RetryQueue.Has.write (h : q.Has o)
    (hfree : ∀ x ∈ q.payloads.rows, x.tierKey = item.tierKey → x.origin = item.origin) :
    (q.write item).Has o := by
  rcases h with ⟨x, hx, rfl⟩ | hheld
  · by_cases hkey : x.tierKey = item.tierKey
    · exact .inl ⟨item, mem_upsert.mpr (.inl rfl), (hfree x hx hkey).symm⟩
    · exact .inl ⟨x, mem_upsert.mpr (.inr ⟨hx, hkey⟩), rfl⟩
  · exact .inr hheld

theorem RetryQueue.Shape.scheduleRetry (h : q.Shape config) (origin : Nat) (event : T)
    (attempt : Nat) (error : String) (correlationId : Option String) (now : Int) :
    (q.scheduleRetry config origin event attempt error correlationId now).Shape config := by
  unfold RetryQueue.scheduleRetry
  split
  · exact h.congr (by simp) (by simp) (by simp)
  · exact h.write ⟨attempt, rfl⟩

theorem owed_scheduleRetry {origin attempt : Nat} {now : Int} (event : T) (error : String)
    (correlationId : Option String) (howed : ∀ o ∈ q.owed, o ≠ origin → q.Has o)
    (hfree : q.KeyFree config origin attempt now) :
    ∀ o ∈ (q.scheduleRetry config origin event attempt error correlationId now).owed,
      (q.scheduleRetry config origin event attempt error correlationId now).Has o := by
  intro o ho
  unfold scheduleRetry at ho ⊢
  split
  · next hgt =>
    rw [if_pos hgt, moveToDeadLetter_owed, List.mem_filter] at ho
    exact (howed o ho.1 (by simpa using ho.2)).congr (by simp) (by simp)
  · next hle =>
    rw [if_neg hle] at ho
    by_cases heq : o = origin
    · exact .inl ⟨_, mem_upsert.mpr (.inl rfl), heq.symm⟩
    · have hold : o ∈ q.owed := by
        rcases List.mem_cons.mp ho with rfl | hold
        · exact absurd rfl heq
        · exact hold
      exact (howed o hold heq).write (hfree (Nat.le_of_not_lt hle))

end Schedule

structure RetryQueue.Inv (config : RetryQueueConfig) (q : RetryQueue T) : Prop where
  shape : q.Shape config
  owed : ∀ o ∈ q.owed, q.Has o

section Steps

variable {config : RetryQueueConfig} {q : RetryQueue T}

theorem RetryQueue.Inv.dispatch {origin : Nat} {event : T} {correlationId : Option String}
    (h : q.Inv config) (hfree : q.DispatchFree config origin event correlationId outcomes) :
    (q.dispatch config origin event correlationId outcomes).Inv config := by
  induction outcomes generalizing q with
  | nil => exact h
  | cons outcome rest ih =>
    cases outcome with
    | returned => exact ih h hfree
    | threw error at_ =>
      refine ih ⟨h.shape.scheduleRetry .., ?_⟩ hfree.2
      exact owed_scheduleRetry event error correlationId (fun o ho _ => h.owed o ho) hfree.1

theorem RetryQueue.Shape.redeliver {item : QueuedItem T} {correlationId : String}
    (h : q.Shape config) (outcomes : List HandlerOutcome) :
    (q.redeliver config item correlationId outcomes).Shape config := by
  induction outcomes with
  | nil => exact h.congr rfl rfl rfl
  | cons outcome rest ih =>
    cases outcome with
    | returned => exact ih
    | threw error at_ => exact h.scheduleRetry ..

theorem owed_redeliver {item : QueuedItem T} {correlationId : String}
    (howed : ∀ o ∈ q.owed, o ≠ item.origin → q.Has o) (hfree : q.RedeliverFree config item outcomes) :
    ∀ o ∈ (q.redeliver config item correlationId outcomes).owed,
      (q.redeliver config item correlationId outcomes).Has o := by
  induction outcomes with
  | nil =>
    intro o ho
    obtain ⟨ho, hne⟩ := List.mem_filter.mp ho
    exact (howed o ho (by simpa using hne)).congr rfl rfl
  | cons outcome rest ih =>
    cases outcome with
    | returned => exact ih hfree
    | threw error at_ => exact owed_scheduleRetry _ _ _ howed hfree

theorem RetryQueue.Inv.startPoll (h : q.Inv config) (now : Int) :
    Inv config { q with polls := q.polls ++ [⟨now, q.due now, .idle⟩] } := by
  have hdue : ∀ e ∈ q.due now, e ∈ q.index.rows := fun e he =>
    (List.mem_filter.mp ((List.mem_insertionSort _).mp (List.mem_of_mem_take he))).1
  refine ⟨⟨h.shape.keyed, h.shape.scored, ?_, ?_, ?_, ?_⟩, ?_⟩
  · exact forall_mem_join h.shape.due fun e he => h.shape.scored e (hdue e he)
  · exact forall_mem_join h.shape.claimed fun k hk => by cases hk
  · exact forall_mem_join h.shape.holding fun item hi => by cases hi
  · intro item hitem
    rcases h.shape.reachable item hitem with hindex | ⟨p, hp, hclaimed⟩
    · exact .inl hindex
    · exact .inr ⟨p, List.mem_append_left _ hp, hclaimed⟩
  · intro o ho
    rcases h.owed o ho with hkey | ⟨p, hp, hheld⟩
    · exact .inl hkey
    · exact .inr ⟨p, List.mem_append_left _ hp, hheld⟩

variable {i : Nat} {now : Int} {due rest : List IndexEntry} {stage : PollStage T}

theorem RetryQueue.Shape.setIdle (h : q.Shape config)
    (hp : q.polls[i]? = some ⟨now, due, stage⟩) (hrest : ∀ e ∈ rest, e ∈ due)
    (hclaimed : ∀ k, stage = .claimed k → q.payloads.find? k = none) :
    (q.setPoll i ⟨now, rest, .idle⟩).Shape config := by
  have hmem := List.mem_of_getElem? hp
  refine ⟨h.keyed, h.scored, ?_, ?_, ?_, ?_⟩
  · exact forall_mem_set h.due fun e he => h.due _ hmem e (hrest e he)
  · exact forall_mem_set h.claimed fun k hk => by cases hk
  · exact forall_mem_set h.holding fun item hi => by cases hi
  · intro item hitem
    have hitem : item ∈ q.payloads.rows := hitem
    rcases h.reachable item hitem with hindex | hclaim
    · exact .inl hindex
    · rcases exists_mem_set hp hclaim with hself | hother
      · have hnone := hclaimed item.tierKey hself
        rw [find?_of_mem hitem] at hnone
        cases hnone
      · exact .inr hother

theorem RetryQueue.Has.setPoll {p : Poll T} (h : q.Has o)
    (hp : q.polls[i]? = some ⟨now, due, stage⟩)
    (hheld : ∀ item, stage = .holding item → item.origin ≠ o) : (q.setPoll i p).Has o := by
  rcases h with hkey | hhold
  · exact .inl hkey
  · rcases exists_mem_set hp hhold with ⟨item, hself, heq⟩ | hother
    · exact absurd heq (hheld item hself)
    · exact .inr hother

theorem RetryQueue.Inv.zrem {q' : RetryQueue T} (h : q.Inv config)
    (hstep : q.step config (.zrem i) = some q') : q'.Inv config := by
  simp only [step] at hstep
  split at hstep
  · next now e rest hp =>
    have hmem := List.mem_of_getElem? hp
    have hrest : ∀ x ∈ rest, x ∈ e :: rest := fun x hx => List.mem_cons_of_mem e hx
    have hidle : (q.setPoll i ⟨now, rest, .idle⟩).Inv config :=
      ⟨h.shape.setIdle hp hrest (fun k hk => by cases hk),
        fun o ho => (h.owed o ho).setPoll hp (fun item hi => by cases hi)⟩
    split at hstep
    · rw [← Option.some.inj hstep]
      exact hidle
    · next hdue =>
      split at hstep
      · -- the key leaves the index for the claim
        rw [← Option.some.inj hstep]
        obtain ⟨attempt, hkey⟩ := h.shape.due _ hmem e (List.mem_cons_self ..)
        refine ⟨⟨h.shape.keyed, ?_, ?_, ?_, ?_, ?_⟩, ?_⟩
        · intro x hx
          exact h.shape.scored x (mem_erase.mp hx).1
        · exact forall_mem_set h.shape.due fun x hx => h.shape.due _ hmem x (hrest x hx)
        · refine forall_mem_set h.shape.claimed ?_
          intro k hk
          cases hk
          exact ⟨attempt, e.score, hkey, Int.not_lt.mp hdue⟩
        · exact forall_mem_set h.shape.holding fun item hi => by cases hi
        · intro item hitem
          show ((q.index.erase e.member).find? item.tierKey).isSome ∨ _
          rw [find?_erase]
          by_cases hself : item.tierKey = e.member
          · exact .inr ⟨_, mem_set_self hp, by rw [hself]⟩
          · rw [if_neg hself]
            rcases h.shape.reachable item hitem with hindex | hclaim
            · exact .inl hindex
            · rcases exists_mem_set hp hclaim with hbad | hother
              · cases hbad
              · exact .inr hother
        · intro o ho
          exact ((h.owed o ho).setPoll hp fun item hi => by cases hi).congr rfl rfl
      · rw [← Option.some.inj hstep]
        exact hidle
  · cases hstep

theorem RetryQueue.Inv.getDel {q' : RetryQueue T} (hsep : config.SeparatorOk) (h : q.Inv config)
    (hstep : q.step config (.getDel i) = some q') : q'.Inv config := by
  simp only [step] at hstep
  split at hstep
  · next now rest k hp =>
    have hmem := List.mem_of_getElem? hp
    split at hstep
    · next hnone =>
      rw [← Option.some.inj hstep]
      refine ⟨h.shape.setIdle hp (fun x hx => hx) ?_,
        fun o ho => (h.owed o ho).setPoll hp fun item hi => by cases hi⟩
      intro k' hk'
      cases hk'
      exact hnone
    · next item hitem =>
      rw [← Option.some.inj hstep]
      obtain ⟨hrow, hk⟩ := find?_eq_some_iff.mp hitem
      -- the key was due when it was claimed, and says when its payload is due
      have hdue : item.nextRetryAt ≤ now := by
        obtain ⟨attempt, hkey⟩ := h.shape.keyed item hrow
        obtain ⟨attempt', t, hkey', hle⟩ := h.shape.claimed _ hmem k rfl
        have hsame : config.tierKey attempt item.nextRetryAt = config.tierKey attempt' t := by
          rw [← hkey, ← hkey', hk]
        rw [config.tierKey_inj hsep hsame]
        exact hle
      refine ⟨⟨?_, h.shape.scored, ?_, ?_, ?_, ?_⟩, ?_⟩
      · intro x hx
        exact h.shape.keyed x (mem_erase.mp hx).1
      · exact forall_mem_set h.shape.due fun e he => h.shape.due _ hmem e he
      · exact forall_mem_set h.shape.claimed fun k hk => by cases hk
      · refine forall_mem_set h.shape.holding ?_
        intro x hx
        cases hx
        exact hdue
      · intro x hx
        obtain ⟨hx, hne⟩ := mem_erase.mp hx
        rcases h.shape.reachable x hx with hindex | hclaim
        · exact .inl hindex
        · rcases exists_mem_set hp hclaim with hself | hother
          · cases hself
            exact absurd rfl hne
          · exact .inr hother
      · intro o ho
        rcases h.owed o ho with ⟨x, hx, rfl⟩ | hhold
        · by_cases hself : x.tierKey = k
          · obtain rfl : x = item := eq_of_key_eq hx hrow (hself.trans hk.symm)
            exact .inr ⟨_, mem_set_self hp, x, rfl, rfl⟩
          · exact .inl ⟨x, mem_erase.mpr ⟨hx, hself⟩, rfl⟩
        · rcases exists_mem_set hp hhold with ⟨x, hself, -⟩ | hother
          · cases hself
          · exact .inr hother
  · cases hstep

theorem RetryQueue.RedeliverFree.setPoll {item : QueuedItem T} {p : Poll T}
    (h : q.RedeliverFree config item outcomes) :
    (q.setPoll i p).RedeliverFree config item outcomes := by
  induction outcomes with
  | nil => trivial
  | cons outcome rest ih =>
    cases outcome with
    | returned => exact ih h
    | threw error at_ => exact h

theorem RetryQueue.Inv.handle {q' : RetryQueue T} {createdCorrelationId : String} (h : q.Inv config)
    (hfree : q.OverwritesNone config (.handle i outcomes createdCorrelationId))
    (hstep : q.step config (.handle i outcomes createdCorrelationId) = some q') :
    q'.Inv config := by
  simp only [step] at hstep
  split at hstep
  · next now rest item hp =>
    have hdue : item.nextRetryAt ≤ now := h.shape.holding _ (List.mem_of_getElem? hp) item rfl
    rw [if_neg (Int.not_lt.mpr hdue)] at hstep
    rw [← Option.some.inj hstep]
    have hshape : (q.setPoll i ⟨now, rest, .idle⟩).Shape config :=
      h.shape.setIdle hp (fun x hx => hx) fun k hk => by cases hk
    refine ⟨hshape.redeliver outcomes, owed_redeliver ?_ ?_⟩
    · intro o ho hne
      refine (h.owed o ho).setPoll hp ?_
      intro x hx
      cases hx
      exact Ne.symm hne
    · exact (hfree now rest item hp).setPoll
  · cases hstep

/-- **One step keeps the queue in order**, as long as it overwrites no other event. -/
theorem RetryQueue.Inv.step {q' : RetryQueue T} {a : Action T} (hsep : config.SeparatorOk)
    (h : q.Inv config) (hfree : q.OverwritesNone config a) (hstep : q.step config a = some q') :
    q'.Inv config := by
  cases a with
  | dispatch event correlationId outcomes =>
    rw [← Option.some.inj hstep]
    have hcounted : Inv config { q with dispatched := q.dispatched + 1 } :=
      ⟨h.shape.congr rfl rfl rfl, fun o ho => (h.owed o ho).congr rfl rfl⟩
    exact hcounted.dispatch hfree
  | startPoll now =>
    rw [← Option.some.inj hstep]
    exact h.startPoll now
  | zrem i => exact h.zrem hstep
  | getDel i => exact h.getDel hsep hstep
  | handle i outcomes createdCorrelationId => exact h.handle hfree hstep

end Steps

theorem RetryQueue.empty_inv (config : RetryQueueConfig) : (empty T).Inv config where
  shape :=
    { keyed := fun _ h => absurd h List.not_mem_nil
      scored := fun _ h => absurd h List.not_mem_nil
      due := fun _ h => absurd h List.not_mem_nil
      claimed := fun _ h => absurd h List.not_mem_nil
      holding := fun _ h => absurd h List.not_mem_nil
      reachable := fun _ h => absurd h List.not_mem_nil }
  owed := fun _ h => absurd h List.not_mem_nil

/-- **The retry queue loses no event** in any run of dispatches and polls none of whose retries is
written under a key that still holds another event. -/
theorem retryQueue_losesNone (config : RetryQueueConfig) (hsep : config.SeparatorOk)
    (acts : List (Action T))
    (hfree : Along (RetryQueue.step config) (RetryQueue.OverwritesNone config)
      (RetryQueue.empty T) acts) :
    Always (RetryQueue.step config) RetryQueue.LosesNone (RetryQueue.empty T) acts := by
  intro pre q hpre hq
  have hinv : q.Inv config := (hfree.of_prefix hpre).invariant
    (fun _ _ _ h hstep hs => h.step hsep hstep hs) hq (RetryQueue.empty_inv config)
  exact hinv.shape.losesNone hinv.owed

def coinEventRetryQueue : RetryQueueConfig :=
  { retryQueuePrefix := "coin:event_retry_queue",
    retryDelaysMs := [5000, 10000, 20000, 40000, 80000] }

/-- Two events fail for the first time, at `t` and at `u`. -/
def twoFailures (t u : Int) : List (Action String) :=
  [.dispatch "coin.added" none [.threw "timeout" t],
   .dispatch "coin.spent" none [.threw "timeout" u]]

/-- Two events fail a millisecond apart; both are still in the queue. -/
theorem retryQueue_losesNone_apart :
    ∃ q, exec (RetryQueue.step coinEventRetryQueue) (RetryQueue.empty String)
        (twoFailures 0 1) = some q ∧
      q.owed = [1, 0] ∧ q.LosesNone := by
  refine ⟨_, rfl, rfl, ?_⟩
  refine retryQueue_losesNone coinEventRetryQueue ⟨':', [':'], by decide, by decide⟩
    (twoFailures 0 1) ?_ _ _ (List.prefix_refl _) rfl
  refine ⟨⟨fun _ item hitem => absurd hitem List.not_mem_nil, trivial⟩, ?_⟩
  intro q hq
  rw [← Option.some.inj hq]
  refine ⟨⟨fun _ item hitem hkey => ?_, trivial⟩, fun _ _ => trivial⟩
  obtain rfl : item = _ := List.mem_singleton.mp hitem
  exact absurd hkey (by decide)

/-- Two events fail in the same millisecond: the first is gone. -/
theorem same_millisecond_loses_event :
    ∃ q, exec (RetryQueue.step coinEventRetryQueue) (RetryQueue.empty String)
        (twoFailures 0 0) = some q ∧
      q.owed = [1, 0] ∧ q.payloads.rows.map (·.event) = ["coin.spent"] ∧ q.deadLetters = [] ∧
      ¬ q.LosesNone := by
  refine ⟨_, rfl, rfl, by decide, rfl, ?_⟩
  intro h
  rcases h 0 (by decide) with ⟨item, hitem, horigin, -⟩ | ⟨p, hp, -⟩ | ⟨p, hp, -⟩
  · have hone : item.origin = 1 := by
      obtain rfl : item = _ := List.mem_singleton.mp hitem
      rfl
    rw [hone] at horigin
    cases horigin
  · exact absurd hp List.not_mem_nil
  · exact absurd hp List.not_mem_nil

end QuizBackend.Events
