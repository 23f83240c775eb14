import QuizBackend.Coins.Rewards

/-!
# The references of rewards (`referential-validator.service.ts` and the five coin listeners)

A coin listener asks for a reward with a reference to what it is for, `processCoinEvent` makes an
entity out of the source and the reference, and before anything is written the validator looks the
entity up. The three do not always mean the same thing by a reference:

* an attempt and a reached streak milestone are looked up as they are named;
* a daily challenge is named by its own id and looked up among the ids of *attempts* at one;
* a badge is named by its slug and looked up among the ids of *owned* badges;
* a placement is named by the tournament's id and the rank, `id:1`, and looked up as the
  tournament's id, which PostgreSQL does not even read.

So the last three are refused, and the listener swallows the error. The validator also keeps its
verdicts for a while, right or wrong; a verdict `'1'` is one the tables have given.
-/

namespace QuizBackend.Coins

open Lib Outbox Uuid

/-! ## The validator -/

structure DailyChallengeAttemptRow where
  attemptId : Uuid
  challengeId : Uuid
  userId : Uuid
  completed : Bool

structure UserBadgeRow where
  userBadgeId : Uuid
  userId : Uuid
  badgeId : Uuid

structure BadgeRow where
  badgeId : Uuid
  slug : String

/-- The tables references point to; of some only the ids. `users` has those that are not deleted. -/
structure Referents where
  quizAttempts : List Uuid
  dailyChallengeAttempt : List DailyChallengeAttemptRow
  userBadges : List UserBadgeRow
  badges : List BadgeRow
  tournaments : List Uuid
  users : List Uuid
  quizzes : List Uuid

def Referents.empty : Referents := ⟨[], [], [], [], [], [], []⟩

structure ReferencedEntity where
  kind : CoinReferenceType
  id : String

/-- `isPositiveIntString`: some digits, and not all of them zero. -/
def isPositiveIntString (value : String) : Bool :=
  value.toList ≠ [] && value.toList.all Char.isDigit && value.toList.any (· ≠ '0')

/-- `SELECT 1 … WHERE id = $1 LIMIT 1` on a `uuid` column. -/
def selectUuid (ids : List Uuid) (id : String) : Except String Bool :=
  match parse id with
  | some u => .ok (ids.contains u)
  | none => .error ("invalid input syntax for type uuid: \"" ++ id ++ "\"")

def checkDatabase (tables : Referents) (entity : ReferencedEntity) : Except String Bool :=
  match entity.kind with
  | .attempt => selectUuid tables.quizAttempts entity.id
  | .dailyChallenge => selectUuid (tables.dailyChallengeAttempt.map (·.attemptId)) entity.id
  | .streak => .ok (isPositiveIntString entity.id)
  | .badge | .flair => selectUuid (tables.userBadges.map (·.userBadgeId)) entity.id
  | .tournament => selectUuid tables.tournaments entity.id
  | .tip | .admin => selectUuid tables.users entity.id
  | .suppress => selectUuid tables.quizzes entity.id

structure Verdict where
  key : String
  found : Bool

structure Validator where
  tables : Referents
  cache : Table String Verdict (·.key)

open Validator

def cacheKeyFor (entity : ReferencedEntity) : String :=
  "ref:v1:" ++ entity.kind.text ++ ":" ++ entity.id

section

variable (v : Validator)

def Validator.cached (getOk : Bool) (entity : ReferencedEntity) : Option Bool :=
  if getOk then (v.cache.find? (cacheKeyFor entity)).map (·.found) else none

def Validator.answer (getOk : Bool) (entity : ReferencedEntity) :
    Except String Bool :=
  match v.cached getOk entity with
  | some found => .ok found
  | none => checkDatabase v.tables entity

/-- `exists`, what it leaves in the cache: a verdict of the tables, when Redis takes it. -/
def Validator.remember (getOk setOk : Bool) (entity : ReferencedEntity) :
    Validator :=
  match v.cached getOk entity, checkDatabase v.tables entity with
  | none, .ok found =>
    if setOk then { v with cache := v.cache.upsert ⟨cacheKeyFor entity, found⟩ } else v
  | _, _ => v

def Validator.assertExists (getOk : Bool) (entity : ReferencedEntity) :
    Except String Unit :=
  match v.answer getOk entity with
  | .error e => .error e
  | .ok true => .ok ()
  | .ok false =>
    .error s!"Referenced entity not found: kind={entity.kind.text} id={entity.id}"

end

/-- What happens to the validator: other modules write their tables, an entity is looked up, and a
verdict expires or is invalidated. -/
inductive ValidatorAction where
  | write (tables : Referents)
  | lookUp (entity : ReferencedEntity) (getOk setOk : Bool)
  | expire (key : String)

def Validator.step (v : Validator) : ValidatorAction → Option Validator
  | .write tables => some { v with tables }
  | .lookUp entity getOk setOk => some (v.remember getOk setOk entity)
  | .expire key => some { v with cache := v.cache.erase key }

def Validator.start : Validator := ⟨Referents.empty, Table.empty _⟩

/-- The validator as `processCoinEvent` uses it. An error of the lookup ends the event like an
entity that is not found. No listener asks for a badge that somebody owns. -/
def Validator.env (v : Validator) (getOk : Bool) : CoinEnv where
  referenceExists kind id :=
    match v.answer getOk ⟨kind, id⟩ with
    | .ok found => found
    | .error _ => false
  ownedBadge _ _ := none

/-! ## The listeners -/

def jsonObject (members : List (String × String)) : String :=
  "\x7b" ++ String.intercalate "," (members.map fun m => "\"" ++ m.1 ++ "\":" ++ m.2) ++ "\x7d"

def jsonString (text : String) : String := "\"" ++ text ++ "\""

structure DailyChallengeCompletedEvent where
  challengeId : Uuid
  userId : Uuid
  scorePercent : String
  correctCount : Nat
  totalQuestions : Nat
  completedAtIso : String

structure UserStreakUpdatedEvent where
  userId : Uuid
  previousStreak : Nat
  currentStreak : Nat
  longestStreak : Nat
  isNewRecord : Bool

/-- `BadgeEarnedEvent`; the badge type is the slug of the badge. -/
structure BadgeEarnedEvent where
  userId : Uuid
  badgeType : String
  awardedAt : String

inductive ExternalXpSource where
  | quizAttempt | tournament | bonus | achievement

structure ExternalXpEarnedEvent where
  userId : Uuid
  amount : Int
  source : ExternalXpSource
  tournamentId : Option Uuid
  rank : Option Nat

def AttemptCompletedEvent.rewards (event : AttemptCompletedEvent) : List CoinEventInput :=
  (if isPassingScore event.scorePercent then [event.reward] else []) ++
    if event.scorePercent = perfectScore then [event.bonus] else []

def DailyChallengeCompletedEvent.rewards (event : DailyChallengeCompletedEvent) :
    List CoinEventInput :=
  [{ userId := event.userId.text, source := .daily, amount := 15,
     reason := "DAILY_CHALLENGE_REWARD", referenceId := event.challengeId.text,
     metadata := some (jsonObject
       [("challengeId", jsonString event.challengeId.text),
        ("scorePercent", jsonString event.scorePercent),
        ("correctCount", toString event.correctCount),
        ("totalQuestions", toString event.totalQuestions),
        ("completedAt", jsonString event.completedAtIso)]),
     applyDailyCap := some false }]

def streakMilestones : Nat → Option Int
  | 3 => some 25
  | 5 => some 50
  | 7 => some 75
  | 14 => some 150
  | _ => none

/-- `onEvent` of the streak listener, with `isMilestoneCrossing`. -/
def UserStreakUpdatedEvent.rewards (event : UserStreakUpdatedEvent) : List CoinEventInput :=
  match streakMilestones event.currentStreak with
  | none => []
  | some amount =>
    if event.previousStreak + 1 = event.currentStreak then
      [{ userId := event.userId.text, source := .streak, amount,
         reason := "STREAK_MILESTONE_REWARD", referenceId := toString event.currentStreak,
         metadata := some (jsonObject
           [("previousStreak", toString event.previousStreak),
            ("currentStreak", toString event.currentStreak),
            ("longestStreak", toString event.longestStreak),
            ("isNewRecord", toString event.isNewRecord)]),
         applyDailyCap := some false }]
    else []

def BadgeEarnedEvent.rewards (event : BadgeEarnedEvent) : List CoinEventInput :=
  [{ userId := event.userId.text, source := .badge, amount := 20, reason := "BADGE_REWARD",
     referenceId := event.badgeType,
     metadata := some (jsonObject
       [("badgeType", jsonString event.badgeType), ("awardedAt", jsonString event.awardedAt)]),
     applyDailyCap := some false }]

def tournamentPlacementRewards : Nat → Option Int
  | 1 => some 100
  | 2 => some 60
  | 3 => some 30
  | _ => none

def ExternalXpEarnedEvent.rewards (event : ExternalXpEarnedEvent) : List CoinEventInput :=
  match event.source, event.rank, event.tournamentId with
  | .tournament, some placement, some tournamentId =>
    match tournamentPlacementRewards placement with
    | none => []
    | some reward =>
      [{ userId := event.userId.text, source := .tournament, amount := reward,
         reason := "TOURNAMENT_PLACEMENT_REWARD",
         referenceId := tournamentId.text ++ (":" ++ toString placement),
         metadata := some (jsonObject
           [("tournamentId", jsonString tournamentId.text), ("rank", toString placement),
            ("xpAmount", toString event.amount)]),
         applyDailyCap := some false }]
  | _, _, _ => []

inductive RewardEvent where
  | attempt (event : AttemptCompletedEvent)
  | daily (event : DailyChallengeCompletedEvent)
  | streak (event : UserStreakUpdatedEvent)
  | badge (event : BadgeEarnedEvent)
  | tournament (event : ExternalXpEarnedEvent)

def RewardEvent.rewards : RewardEvent → List CoinEventInput
  | .attempt event => event.rewards
  | .daily event => event.rewards
  | .streak event => event.rewards
  | .badge event => event.rewards
  | .tournament event => event.rewards

/-- What the event tells of is in the tables. That a streak was reached is in none of these. -/
def RewardEvent.Happened (tables : Referents) : RewardEvent → Prop
  | .attempt event => event.attemptId ∈ tables.quizAttempts
  | .daily event => ∃ row ∈ tables.dailyChallengeAttempt,
      row.challengeId = event.challengeId ∧ row.userId = event.userId ∧ row.completed = true
  | .streak _ => True
  | .badge event => ∃ row ∈ tables.userBadges, row.userId = event.userId ∧
      ∃ badge ∈ tables.badges, badge.badgeId = row.badgeId ∧ badge.slug = event.badgeType
  | .tournament event => ∀ tournamentId, event.tournamentId = some tournamentId →
      tournamentId ∈ tables.tournaments

/-- `buildReferenceEntity`; the reference of a valid event is not empty. -/
def buildReferenceEntity (event : CoinEventInput) : ReferencedEntity :=
  ⟨mapReferenceType event.source, event.referenceId⟩

/-! ## What should come of it -/

/-- The reference of the reward passes, and the reward is credited: its row is appended, unless it
has been credited before or the cap of the day leaves nothing of it. -/
structure Validated (v : Validator) (getOk : Bool) (reward : CoinEventInput) : Prop where
  passes : v.assertExists getOk (buildReferenceEntity reward) = .ok ()
  credited : ∀ (economy : Economy) (now : Int) (drawn : Drawn),
    economy.coins.hasKey reward.key = false → WithinCap economy.coins →
    0 < (computeAppliedDelta economy.coins reward now).1 →
    ∃ result economy' balanceAfter,
      processCoinEvent (v.env getOk) economy reward now drawn = (.ok result, economy') ∧
      economy'.coins.coinTransactions = economy.coins.coinTransactions ++
        [(reward.params (computeAppliedDelta economy.coins reward now).1 now).row
          drawn.transactionId balanceAfter]

def Validator.Finds (v : Validator) (getOk : Bool) (entity : ReferencedEntity) (present : Prop) :
    Prop :=
  v.cached getOk entity = some true ∨ (v.cached getOk entity = none ∧ present)

/-- What is looked up for an event is there. For an attempt and a streak that is what happened; for
a daily challenge and a badge it would take a coincidence of ids; a placement is never found. -/
def RewardEvent.FoundUnderItsReference (v : Validator) (getOk : Bool) : RewardEvent → Prop
  | .attempt event => v.Finds getOk ⟨.attempt, event.attemptId.text⟩ True
  | .daily event => v.Finds getOk ⟨.dailyChallenge, event.challengeId.text⟩
      (∃ row ∈ v.tables.dailyChallengeAttempt, row.attemptId = event.challengeId)
  | .streak _ => True
  | .badge event => v.Finds getOk ⟨.badge, event.badgeType⟩
      (∃ row ∈ v.tables.userBadges, parse event.badgeType = some row.userBadgeId)
  | .tournament _ => False

/-! ## Keys and verdicts -/

theorem CoinReferenceType.text_ne_colon (kind : CoinReferenceType) :
    ∀ c ∈ kind.text.toList, c ≠ ':' := by
  have hall : (kind.text.toList.all fun c => c != ':') = true := by cases kind <;> decide
  intro c hc
  exact bne_iff_ne.mp (List.all_eq_true.mp hall c hc)

theorem CoinReferenceType.text_injective {kind kind' : CoinReferenceType}
    (h : kind.text = kind'.text) : kind = kind' := by
  cases kind <;> cases kind' <;> first | rfl | exact absurd h (by decide)

/-- **The key of a verdict tells what it is about**: the kind ends at the first colon. -/
theorem cacheKeyFor_injective {entity entity' : ReferencedEntity}
    (h : cacheKeyFor entity = cacheKeyFor entity') : entity = entity' := by
  have hkind : ∀ (kind : CoinReferenceType) (rest : List Char),
      (kind.text.toList ++ ':' :: rest).takeWhile (· ≠ ':') = kind.text.toList := by
    intro kind rest
    rw [List.takeWhile_append_of_pos fun c hc => by simpa using kind.text_ne_colon c hc]
    simp
  have hcolon : ":".toList = [':'] := rfl
  have hlist := congrArg String.toList h
  simp only [cacheKeyFor, String.toList_append, List.append_assoc, hcolon, List.singleton_append]
    at hlist
  have hlist := List.append_cancel_left hlist
  have htext := congrArg (List.takeWhile (· ≠ ':')) hlist
  rw [hkind, hkind] at htext
  rw [htext] at hlist
  have hid := List.append_cancel_left hlist
  cases entity
  cases entity'
  rw [ReferencedEntity.mk.injEq]
  exact ⟨CoinReferenceType.text_injective (String.toList_injective htext),
    String.toList_injective (List.cons.inj hid).2⟩

/-- An id that can be found: a positive number for a streak, a UUID for everything else. -/
def ReferencedEntity.WellFormed (entity : ReferencedEntity) : Prop :=
  match entity.kind with
  | .streak => isPositiveIntString entity.id = true
  | _ => parse entity.id ≠ none

theorem selectUuid_iff {ids : List Uuid} {id : String} :
    selectUuid ids id = .ok true ↔ ∃ u ∈ ids, parse id = some u := by
  unfold selectUuid
  cases parse id with
  | none => simp
  | some u => simp

theorem wellFormed_of_selectUuid {ids : List Uuid} {id : String}
    (h : selectUuid ids id = .ok true) : parse id ≠ none := by
  obtain ⟨u, -, hu⟩ := selectUuid_iff.mp h
  rw [hu]
  exact Option.some_ne_none u

variable {tables : Referents}

theorem checkDatabase_attempt {id : String} :
    checkDatabase tables ⟨.attempt, id⟩ = .ok true ↔
      ∃ u ∈ tables.quizAttempts, parse id = some u :=
  selectUuid_iff

theorem checkDatabase_dailyChallenge {id : String} :
    checkDatabase tables ⟨.dailyChallenge, id⟩ = .ok true ↔
      ∃ row ∈ tables.dailyChallengeAttempt, parse id = some row.attemptId := by
  refine selectUuid_iff.trans ?_
  simp only [List.mem_map, exists_exists_and_eq_and]

theorem checkDatabase_badge {id : String} :
    checkDatabase tables ⟨.badge, id⟩ = .ok true ↔
      ∃ row ∈ tables.userBadges, parse id = some row.userBadgeId := by
  refine selectUuid_iff.trans ?_
  simp only [List.mem_map, exists_exists_and_eq_and]

theorem wellFormed_of_checkDatabase {entity : ReferencedEntity}
    (h : checkDatabase tables entity = .ok true) : entity.WellFormed := by
  obtain ⟨kind, id⟩ := entity
  cases kind with
  | streak => exact Except.ok.inj h
  | attempt | dailyChallenge | badge | tournament | tip | flair | suppress | admin =>
    exact wellFormed_of_selectUuid h

theorem ReferencedEntity.WellFormed.id_ne_empty {entity : ReferencedEntity}
    (h : entity.WellFormed) : entity.id ≠ "" := by
  obtain ⟨kind, id⟩ := entity
  rintro rfl
  cases kind with
  | streak => exact absurd (show isPositiveIntString "" = true from h) (by decide)
  | _ => exact h (by decide)

/-- What the cache remembers is what the tables have once said: an entity that was found has an id
that can be found, and of a streak the tables always say the same. -/
structure RememberedOf (entity : ReferencedEntity) (found : Bool) : Prop where
  wellFormed : found = true → entity.WellFormed
  streak : entity.kind = .streak → found = isPositiveIntString entity.id

theorem rememberedOf_checkDatabase {entity : ReferencedEntity} {found : Bool}
    (h : checkDatabase tables entity = .ok found) : RememberedOf entity found := by
  refine ⟨?_, ?_⟩
  · rintro rfl
    exact wellFormed_of_checkDatabase h
  · intro hkind
    unfold checkDatabase at h
    rw [hkind] at h
    exact (Except.ok.inj h).symm

def Validator.Remembers (v : Validator) : Prop :=
  ∀ (entity : ReferencedEntity) (r : Verdict),
    v.cache.find? (cacheKeyFor entity) = some r → RememberedOf entity r.found

theorem Validator.Remembers.remember {v : Validator} (hv : v.Remembers) (getOk setOk : Bool)
    (entity : ReferencedEntity) : (v.remember getOk setOk entity).Remembers := by
  unfold Validator.remember
  split
  · next found hcached hfound =>
    split
    · intro entity' r hr
      rw [Table.find?_upsert] at hr
      split at hr
      · next hkey =>
        cases hr
        obtain rfl := cacheKeyFor_injective hkey
        exact rememberedOf_checkDatabase hfound
      · exact hv entity' r hr
    · exact hv
  · exact hv

theorem Validator.remembers_of_run {as : List ValidatorAction} {v : Validator}
    (hrun : exec step start as = some v) : v.Remembers := by
  have hstart : start.Remembers := by
    intro entity r hr
    cases hr
  refine exec_invariant ?_ hrun hstart
  intro v a v' hv hstep
  cases a with
  | write tables =>
    cases hstep
    exact hv
  | lookUp entity getOk setOk =>
    cases hstep
    exact hv.remember getOk setOk entity
  | expire key =>
    cases hstep
    intro entity r hr
    rw [Table.find?_erase] at hr
    split at hr
    · cases hr
    · exact hv entity r hr

/-! ## The answer of the validator -/

section Answer

variable {v : Validator} {getOk : Bool} {entity : ReferencedEntity}

theorem Validator.assertExists_eq_ok_iff :
    v.assertExists getOk entity = .ok () ↔ v.answer getOk entity = .ok true := by
  unfold assertExists
  cases v.answer getOk entity with
  | error e => simp
  | ok found => cases found <;> simp

theorem Validator.env_referenceExists {kind : CoinReferenceType} {id : String} :
    (v.env getOk).referenceExists kind id = true ↔ v.answer getOk ⟨kind, id⟩ = .ok true := by
  simp only [env]
  cases v.answer getOk ⟨kind, id⟩ with
  | error e => simp
  | ok found => simp

theorem Validator.answer_eq_true_iff :
    v.answer getOk entity = .ok true ↔
      v.Finds getOk entity (checkDatabase v.tables entity = .ok true) := by
  unfold answer Finds
  cases v.cached getOk entity with
  | none => simp
  | some found => simp

theorem Validator.Finds.congr {p q : Prop} (h : p ↔ q) :
    v.Finds getOk entity p ↔ v.Finds getOk entity q := by
  unfold Finds
  rw [h]

theorem Validator.Remembers.of_cached (hv : v.Remembers) {found : Bool}
    (h : v.cached getOk entity = some found) : RememberedOf entity found := by
  unfold cached at h
  split at h
  · obtain ⟨r, hr, rfl⟩ := Option.map_eq_some_iff.mp h
    exact hv entity r hr
  · cases h

theorem Validator.Remembers.wellFormed (hv : v.Remembers)
    (h : v.answer getOk entity = .ok true) : entity.WellFormed := by
  rcases answer_eq_true_iff.mp h with hcached | ⟨-, hfound⟩
  · exact (hv.of_cached hcached).wellFormed rfl
  · exact wellFormed_of_checkDatabase hfound

theorem Validator.Remembers.answer_streak (hv : v.Remembers) (hkind : entity.kind = .streak) :
    v.answer getOk entity = .ok (isPositiveIntString entity.id) := by
  unfold answer
  split
  · next found hcached => rw [(hv.of_cached hcached).streak hkind]
  · unfold checkDatabase
    rw [hkind]

end Answer

/-! ## The rewards -/

structure Sound (reward : CoinEventInput) : Prop where
  user : reward.userId ≠ ""
  positive : 0 < reward.amount
  small : reward.amount ≤ 150
  reason : reward.reason ∈ coinReason

theorem streakMilestones_bounds {days : Nat} {amount : Int}
    (h : streakMilestones days = some amount) : 0 < amount ∧ amount ≤ 150 := by
  unfold streakMilestones at h
  split at h <;> simp at h <;> omega

theorem tournamentPlacementRewards_bounds {placement : Nat} {reward : Int}
    (h : tournamentPlacementRewards placement = some reward) : 0 < reward ∧ reward ≤ 150 := by
  unfold tournamentPlacementRewards at h
  split at h <;> simp at h <;> omega

theorem UserStreakUpdatedEvent.mem_rewards {event : UserStreakUpdatedEvent}
    {reward : CoinEventInput} (h : reward ∈ event.rewards) :
    streakMilestones event.currentStreak = some reward.amount ∧
      reward.userId = event.userId.text ∧ reward.source = .streak ∧
      reward.reason = "STREAK_MILESTONE_REWARD" ∧
      reward.referenceId = toString event.currentStreak := by
  unfold UserStreakUpdatedEvent.rewards at h
  split at h
  · cases h
  · next amount hamount =>
    split at h
    · rw [List.mem_singleton.mp h]
      exact ⟨hamount, rfl, rfl, rfl, rfl⟩
    · cases h

theorem ExternalXpEarnedEvent.mem_rewards {event : ExternalXpEarnedEvent}
    {reward : CoinEventInput} (h : reward ∈ event.rewards) :
    ∃ (tournamentId : Uuid) (placement : Nat),
      tournamentPlacementRewards placement = some reward.amount ∧
      reward.userId = event.userId.text ∧ reward.source = .tournament ∧
      reward.reason = "TOURNAMENT_PLACEMENT_REWARD" ∧
      reward.referenceId = tournamentId.text ++ (":" ++ toString placement) := by
  unfold ExternalXpEarnedEvent.rewards at h
  split at h
  · next placement tournamentId _ _ _ =>
    split at h
    · cases h
    · next amount hamount =>
      rw [List.mem_singleton.mp h]
      exact ⟨tournamentId, placement, hamount, rfl, rfl, rfl, rfl⟩
  · cases h

theorem AttemptCompletedEvent.mem_rewards {event : AttemptCompletedEvent}
    {reward : CoinEventInput} (h : reward ∈ event.rewards) :
    reward = event.reward ∨ reward = event.bonus := by
  unfold AttemptCompletedEvent.rewards at h
  rcases List.mem_append.mp h with h | h
  · split at h
    · exact .inl (List.mem_singleton.mp h)
    · cases h
  · split at h
    · exact .inr (List.mem_singleton.mp h)
    · cases h

theorem Sound.of_eq {reward : CoinEventInput} {user : Uuid} (amount : Int) (reason : String)
    (huser : reward.userId = user.text) (hamount : reward.amount = amount)
    (hreason : reward.reason = reason) (hbounds : 0 < amount ∧ amount ≤ 150)
    (hmem : reason ∈ coinReason) : Sound reward :=
  ⟨huser ▸ user.text_ne_empty, hamount ▸ hbounds.1, hamount ▸ hbounds.2, hreason ▸ hmem⟩

theorem RewardEvent.sound_of_mem_rewards {event : RewardEvent} {reward : CoinEventInput}
    (h : reward ∈ event.rewards) : Sound reward := by
  cases event with
  | attempt event =>
    rcases event.mem_rewards h with rfl | rfl
    · exact .of_eq 5 "QUIZ_COMPLETION_REWARD" rfl rfl rfl (by decide) (by decide)
    · exact .of_eq 10 "QUIZ_PERFECT_BONUS" rfl rfl rfl (by decide) (by decide)
  | daily event =>
    rw [List.mem_singleton.mp h]
    exact .of_eq 15 "DAILY_CHALLENGE_REWARD" rfl rfl rfl (by decide) (by decide)
  | streak event =>
    obtain ⟨hamount, huser, -, hreason, -⟩ := event.mem_rewards h
    exact .of_eq _ _ huser rfl hreason (streakMilestones_bounds hamount) (by decide)
  | badge event =>
    rw [List.mem_singleton.mp h]
    exact .of_eq 20 "BADGE_REWARD" rfl rfl rfl (by decide) (by decide)
  | tournament event =>
    obtain ⟨_, _, hamount, huser, -, hreason, -⟩ := event.mem_rewards h
    exact .of_eq _ _ huser rfl hreason (tournamentPlacementRewards_bounds hamount) (by decide)

/-! ## One reward -/

theorem computeAppliedDelta_le (db : CoinDb) (event : CoinEventInput) (now : Int) :
    (computeAppliedDelta db event now).1 ≤ event.amount := by
  unfold computeAppliedDelta
  split
  · exact Int.min_le_left _ _
  · exact Int.le_refl _

/-- **A reward is credited once its reference passes**, and only then. -/
theorem validated_iff_answer {v : Validator} (hv : v.Remembers) {getOk : Bool}
    {reward : CoinEventInput} (hsound : Sound reward) :
    Validated v getOk reward ↔ v.answer getOk (buildReferenceEntity reward) = .ok true := by
  rw [← assertExists_eq_ok_iff]
  refine ⟨Validated.passes, ?_⟩
  intro hpasses
  refine ⟨hpasses, ?_⟩
  have hanswer := assertExists_eq_ok_iff.mp hpasses
  have hid : reward.referenceId ≠ "" := (hv.wellFormed hanswer).id_ne_empty
  have hvalid : validateEvent reward = .ok () := by
    unfold validateEvent
    rw [if_neg hsound.user, if_neg (Int.not_le.mpr hsound.positive), if_neg hid,
      if_neg (not_not_intro hsound.reason)]
  intro economy now drawn hfresh hwallets hdelta
  have hle := computeAppliedDelta_le economy.coins reward now
  have hbalance := withinCap_iff.mp hwallets reward.userId
  have hsmall := hsound.small
  have hacc : CreditAccepted economy.coins
      (reward.params (computeAppliedDelta economy.coins reward now).1 now) := by
    refine ⟨?_, ?_, hsound.reason, Int.ne_of_gt hdelta, hfresh⟩
    · show IsInt4 (computeAppliedDelta economy.coins reward now).1
      unfold IsInt4
      omega
    · show IsInt4 (economy.coins.balance reward.userId +
        (computeAppliedDelta economy.coins reward now).1)
      unfold IsInt4
      omega
  obtain ⟨result, economy', balanceAfter, hprocess, hrow, -⟩ :=
    processCoinEvent_of_accepted drawn hvalid (env_referenceExists.mpr hanswer) hacc
      hwallets
  exact ⟨result, economy', balanceAfter, hprocess, hrow⟩

theorem processCoinEvent_of_refused {v : Validator} {getOk : Bool} {reward : CoinEventInput}
    (h : v.assertExists getOk (buildReferenceEntity reward) ≠ .ok ()) (economy : Economy)
    (now : Int) (drawn : Drawn) :
    (processCoinEvent (v.env getOk) economy reward now drawn).2 = economy := by
  have hfalse : (v.env getOk).referenceExists (mapReferenceType reward.source) reward.referenceId
      = false := by
    rw [← Bool.not_eq_true, env_referenceExists, ← assertExists_eq_ok_iff]
    exact h
  unfold processCoinEvent prepareCoinEvent CoinEnv.assertExists
  rw [hfalse]
  cases validateEvent reward with
  | error e => rfl
  | ok _ => rfl

theorem isPositiveIntString_milestone {days : Nat} {amount : Int}
    (h : streakMilestones days = some amount) : isPositiveIntString (toString days) = true := by
  unfold streakMilestones at h
  split at h
  · decide
  · decide
  · decide
  · decide
  · cases h

section Answers

variable {v : Validator} {getOk : Bool} {reward : CoinEventInput}

theorem answer_attempt {event : AttemptCompletedEvent} (hreward : reward ∈ event.rewards)
    (hhappened : event.attemptId ∈ v.tables.quizAttempts) :
    v.answer getOk (buildReferenceEntity reward) = .ok true ↔
      (RewardEvent.attempt event).FoundUnderItsReference v getOk := by
  have hentity : buildReferenceEntity reward = ⟨.attempt, event.attemptId.text⟩ := by
    rcases event.mem_rewards hreward with rfl | rfl
    · rfl
    · rfl
  rw [hentity, answer_eq_true_iff]
  refine Finds.congr (iff_true_intro ?_)
  exact checkDatabase_attempt.mpr ⟨event.attemptId, hhappened, event.attemptId.parse_text⟩

theorem answer_daily {event : DailyChallengeCompletedEvent} (hreward : reward ∈ event.rewards) :
    v.answer getOk (buildReferenceEntity reward) = .ok true ↔
      (RewardEvent.daily event).FoundUnderItsReference v getOk := by
  have hentity : buildReferenceEntity reward = ⟨.dailyChallenge, event.challengeId.text⟩ := by
    rw [List.mem_singleton.mp hreward]
    rfl
  rw [hentity, answer_eq_true_iff]
  refine Finds.congr (checkDatabase_dailyChallenge.trans ?_)
  rw [event.challengeId.parse_text]
  simp only [Option.some.injEq, eq_comm]

theorem answer_streak {event : UserStreakUpdatedEvent} (hv : v.Remembers)
    (hreward : reward ∈ event.rewards) :
    v.answer getOk (buildReferenceEntity reward) = .ok true := by
  obtain ⟨hamount, -, hsource, -, href⟩ := event.mem_rewards hreward
  have hkind : (buildReferenceEntity reward).kind = .streak := by
    rw [buildReferenceEntity, hsource]
    rfl
  rw [hv.answer_streak hkind, buildReferenceEntity, href, isPositiveIntString_milestone hamount]

theorem answer_badge {event : BadgeEarnedEvent} (hreward : reward ∈ event.rewards) :
    v.answer getOk (buildReferenceEntity reward) = .ok true ↔
      (RewardEvent.badge event).FoundUnderItsReference v getOk := by
  have hentity : buildReferenceEntity reward = ⟨.badge, event.badgeType⟩ := by
    rw [List.mem_singleton.mp hreward]
    rfl
  rw [hentity, answer_eq_true_iff]
  exact Finds.congr checkDatabase_badge

/-- A placement is never found: what stands behind the id of the tournament keeps the reference
from being read as one. -/
theorem answer_tournament {event : ExternalXpEarnedEvent} (hv : v.Remembers)
    (hreward : reward ∈ event.rewards) :
    v.answer getOk (buildReferenceEntity reward) ≠ .ok true := by
  obtain ⟨tournamentId, placement, -, -, hsource, -, href⟩ := event.mem_rewards hreward
  intro hanswer
  have hformed := hv.wellFormed hanswer
  rw [buildReferenceEntity, hsource, href] at hformed
  have hparse : parse (tournamentId.text ++ (":" ++ toString placement)) ≠ none := hformed
  refine hparse (tournamentId.parse_text_append ?_)
  intro hempty
  have hlength := congrArg (fun t : String => t.toList.length) hempty
  simp at hlength

end Answers

/-- **Which rewards validate.** Whatever the validator has looked up before, and whatever else
has been written: a reward of one of the listeners, for something that happened, is validated and
credited if and only if what is looked up under its reference is there. -/
theorem rewards_validate_iff (as : List ValidatorAction) (v : Validator) (getOk : Bool)
    (event : RewardEvent) (hrun : exec Validator.step Validator.start as = some v)
    (hhappened : event.Happened v.tables) :
    ∀ reward ∈ event.rewards,
      (Validated v getOk reward ↔ event.FoundUnderItsReference v getOk) := by
  have hv := Validator.remembers_of_run hrun
  intro reward hreward
  refine (validated_iff_answer hv (RewardEvent.sound_of_mem_rewards hreward)).trans ?_
  cases event with
  | attempt event => exact answer_attempt hreward hhappened
  | daily event => exact answer_daily hreward
  | streak event => exact iff_of_true (answer_streak hv hreward) trivial
  | badge event => exact answer_badge hreward
  | tournament event => exact iff_of_false (answer_tournament hv hreward) id

def anAttempt : AttemptCompletedEvent := ⟨1, 11, 7500⟩

theorem rewards_validate_iff_attempt :
    ∃ v, exec Validator.step Validator.start
        [.write { Referents.empty with quizAttempts := [11] }] = some v ∧
      ∀ reward ∈ (RewardEvent.attempt anAttempt).rewards, Validated v true reward := by
  refine ⟨_, rfl, ?_⟩
  intro reward hreward
  refine (rewards_validate_iff [.write { Referents.empty with quizAttempts := [11] }] _ true
    (.attempt anAttempt) rfl ?_ reward hreward).mpr ?_
  · exact List.mem_singleton_self _
  · exact .inr ⟨rfl, trivial⟩

/-- A user has played the challenge 20, owns the badge 30 and has been placed in the tournament
40. -/
def threeThingsDone : Referents :=
  { Referents.empty with
    dailyChallengeAttempt := [⟨21, 20, 1, true⟩], userBadges := [⟨31, 1, 30⟩],
    badges := [⟨30, "first-quiz"⟩], tournaments := [40] }

def daily20 : RewardEvent := .daily ⟨20, 1, "80.00", 4, 5, "2026-01-01T00:00:00.000Z"⟩

def badge30 : RewardEvent := .badge ⟨1, "first-quiz", "2026-01-01T00:00:00.000Z"⟩

def placement40 : RewardEvent := .tournament ⟨1, 500, .tournament, some 40, some 1⟩

/-- None of the three rewards is credited. -/
theorem three_rewards_refused :
    ∃ v, exec Validator.step Validator.start [.write threeThingsDone] = some v ∧
      ∀ event ∈ [daily20, badge30, placement40], event.Happened v.tables ∧
        ∃ reward ∈ event.rewards, ¬ Validated v true reward ∧
          ∀ economy now drawn,
            (processCoinEvent (v.env true) economy reward now drawn).2 = economy := by
  obtain ⟨v, hv, htables, hrefused⟩ : ∃ v,
      exec Validator.step Validator.start [.write threeThingsDone] = some v ∧
      v.tables = threeThingsDone ∧
      ∀ event ∈ [daily20, badge30, placement40], ∃ reward ∈ event.rewards,
        v.answer true (buildReferenceEntity reward) ≠ .ok true :=
    ⟨_, rfl, rfl, by decide +kernel⟩
  refine ⟨v, hv, ?_⟩
  intro event hevent
  obtain ⟨reward, hreward, hanswer⟩ := hrefused event hevent
  have hpasses : v.assertExists true (buildReferenceEntity reward) ≠ .ok () :=
    fun h => hanswer (Validator.assertExists_eq_ok_iff.mp h)
  refine ⟨?_, reward, hreward, fun h => hpasses h.passes, processCoinEvent_of_refused hpasses⟩
  rw [htables]
  simp only [List.mem_cons, List.not_mem_nil, or_false] at hevent
  rcases hevent with rfl | rfl | rfl
  · exact ⟨⟨21, 20, 1, true⟩, List.mem_singleton_self _, rfl, rfl, rfl⟩
  · exact ⟨⟨31, 1, 30⟩, List.mem_singleton_self _, rfl, ⟨30, "first-quiz"⟩,
      List.mem_singleton_self _, rfl, rfl⟩
  · rintro tournamentId hid
    cases hid
    exact List.mem_singleton_self _

end QuizBackend.Coins
