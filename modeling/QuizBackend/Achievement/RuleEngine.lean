import QuizBackend.Achievement.Badges
import Mathlib.Data.List.Sort
import Mathlib.Data.List.Infix
import Mathlib.Algebra.Order.Ring.Rat
import Mathlib.Data.Nat.Cast.Order.Ring

/-!
# The rule engine

A badge has rules, "that must all be satisfied", and listeners of other modules call `evaluateEvent`
with what they know about a user. The engine takes the rules of the types the event stands for and
evaluates each of them on the data of this one event.

* It awards a badge as soon as one of its rules is met. Whether the others are, nobody asks: they may
  be of other types or about values the event does not carry.
* A rule about perfect scores is met by a number the attempt listener has to bring along. The
  listener always says `1`, so that a threshold above `1` is never reached.

A badge is awarded by all its rules exactly where each rule that an event can trigger implies the
others; and a threshold of perfect scores counts attempts exactly where it is `1`, or not reached yet
(`badge_rules_iff`).
-/

namespace QuizBackend.Achievement

open Lib Outbox

/-! ## Rules -/

inductive BadgeRuleType where
  | count | rank | rankPeriod | streak | tournamentWin | perfectScore | xpTotal | seasonal | social
  deriving DecidableEq

/-- `badge_rules.config`, the members the engine reads. Numbers are the finite ones of JavaScript,
which are rational. -/
structure RuleConfig where
  metric : String
  threshold : Option Rat
  operator : Option String
  deriving DecidableEq

structure BadgeRule where
  ruleId : String
  badgeId : String
  ruleType : BadgeRuleType
  priority : Int
  config : RuleConfig
  isActive : Bool
  deriving DecidableEq

/-- A member of `eventData`; the engine asks for the type of what it reads. -/
inductive EventValue where
  | number (n : Rat)
  | other

abbrev EventData := List (String × EventValue)

structure EvaluationContext where
  userId : String
  eventType : String
  eventData : EventData

/-- `typeof eventData[key] === 'number' ? eventData[key] : null`. -/
def EventData.number (eventData : EventData) (key : String) : Option Rat :=
  match eventData.lookup key with
  | some (.number n) => some n
  | _ => none

/-- The member that `extractMetricValue` reads for a metric. -/
def metricMember : String → Option String
  | "quizzes_completed" => some "quizCount"
  | "period_rank" => some "rank"
  | "streak_days" => some "streakDays"
  | "tournaments_won" => some "tournamentsWon"
  | "perfect_scores" => some "perfectScores"
  | "xp_total" => some "xpTotal"
  | "current_rank" => some "currentRank"
  | "score_percentage" => some "scorePercentage"
  | _ => none

def compareValues (current : Rat) (operator : String) (threshold : Rat) : Bool :=
  match operator with
  | ">=" => decide (threshold ≤ current)
  | "<=" => decide (current ≤ threshold)
  | "==" => decide (current = threshold)
  | ">" => decide (threshold < current)
  | "<" => decide (current < threshold)
  | "!=" => decide (current ≠ threshold)
  | _ => false

/-- `checkCondition`, where `value` is what is known of the members. -/
def RuleConfig.metBy (value : String → Option Rat) (config : RuleConfig) : Bool :=
  match (metricMember config.metric).bind value with
  | none => false
  | some current => compareValues current (config.operator.getD ">=") (config.threshold.getD 1)

def checkCondition (config : RuleConfig) (eventData : EventData) : Bool :=
  config.metBy eventData.number

/-! ## The caches -/

structure BadgeCacheEntry where
  badgeId : String
  slug : String
  name : String
  type : String
  category : String
  isActive : Bool
  isValid : Bool

def badgeValiditySql (now : Int) (badge : Badge) : Bool :=
  badge.validFrom.all (· ≤ now) && badge.validUntil.all (now < ·)

def isBadgeValid (validFrom validUntil : Option Int) (now : Int) : Bool :=
  !(validFrom.any (now < ·)) && !(validUntil.any (· < now))

section

variable (badges : Table String Badge (·.badgeId))

def getAllActiveBadges (now : Int) : List Badge :=
  badges.rows.filter fun badge => badge.isActive && badgeValiditySql now badge && !badge.isHidden

/-- `badges[badgeId]` of a cache that was filled at `cachedAt`. -/
def getBadge (cachedAt : Int) (badgeId : String) :
    Option BadgeCacheEntry :=
  ((getAllActiveBadges badges cachedAt).find? fun badge => badge.badgeId = badgeId).map fun badge =>
    ⟨badge.badgeId, badge.slug, badge.name, badge.type, badge.category, badge.isActive,
      isBadgeValid badge.validFrom badge.validUntil cachedAt⟩

def getAllActiveRules (rules : List BadgeRule) :
    List BadgeRule :=
  (rules.filter fun rule =>
    rule.isActive && (badges.find? rule.badgeId).any (·.isActive)).insertionSort
      fun a b => b.priority ≤ a.priority

end

def getRuleTypesForEvent : String → List BadgeRuleType
  | "attempt.completed" => [.count, .perfectScore]
  | "perfect_score" => [.perfectScore]
  | "ranking.rank_changed" => [.rank, .rankPeriod]
  | "ranking.milestone" => [.rank, .rankPeriod]
  | "tournament.won" => [.tournamentWin]
  | "user.streak_updated" => [.streak]
  | "xp.added" => [.xpTotal]
  | "user.created" => [.count]
  | "quiz.milestone" => [.count]
  | "quiz.completed" => [.count]
  | _ => []

/-- `AchievementCacheService.getRulesByEventType`; `sort` is stable. -/
def getRulesByEventType (badges : Table String Badge (·.badgeId)) (rules : List BadgeRule)
    (eventType : String) : List BadgeRule :=
  ((getRuleTypesForEvent eventType).flatMap fun ruleType =>
    (getAllActiveRules badges rules).filter fun rule => rule.ruleType = ruleType).insertionSort
      fun a b => b.priority ≤ a.priority

/-! ## Evaluation -/

structure EvaluationResult where
  badgeId : String
  slug : String
  name : String
  awarded : Bool

/-- One evaluation: the context, when the badges were cached, the time, and what the database draws
for the award of a rule. -/
structure Evaluation where
  context : EvaluationContext
  cachedAt : Int
  nowIso : Int
  draw : String → Drawn

/-- `evaluateEvent` under way: the tables, `ownershipMap`, the badges awarded and the results. -/
structure EvaluationState where
  db : AchievementDb
  owned : List String
  awarded : List String
  results : List EvaluationResult

/-- `{ triggeredBy: context.eventType, ruleId: rule.ruleId }`. -/
def awardMetadata (e : Evaluation) (rule : BadgeRule) : JsonValue :=
  .raw ("\x7b\"triggeredBy\":\"" ++ e.context.eventType ++ "\",\"ruleId\":\"" ++ rule.ruleId ++
    "\"\x7d")

/-- `RuleEngineService.awardBadge`: nothing when it throws. -/
def engineAwardBadge (db : AchievementDb) (e : Evaluation) (rule : BadgeRule) :
    Option AchievementDb :=
  match db.badges.find? rule.badgeId with
  | none => none
  | some badge =>
    match awardBadge db (e.draw rule.ruleId) e.nowIso ⟨e.context.userId, rule.badgeId,
        some badge.version, none, none, some (awardMetadata e rule), none⟩ with
    | .error _ => none
    | .ok (_, db) => some db

def evaluateRule (e : Evaluation) (s : EvaluationState) (rule : BadgeRule)
    (badge : BadgeCacheEntry) : EvaluationState :=
  if checkCondition rule.config e.context.eventData then
    if rule.badgeId ∈ s.owned then
      { s with results := s.results ++ [⟨rule.badgeId, badge.slug, badge.name, true⟩] }
    else
      match engineAwardBadge s.db e rule with
      | some db =>
        { db, owned := rule.badgeId :: s.owned, awarded := s.awarded ++ [rule.badgeId],
          results := s.results ++ [⟨rule.badgeId, badge.slug, badge.name, true⟩] }
      | none => { s with results := s.results ++ [⟨rule.badgeId, badge.slug, badge.name, false⟩] }
  else { s with results := s.results ++ [⟨rule.badgeId, badge.slug, badge.name, false⟩] }

def evaluateNext (e : Evaluation) (s : EvaluationState) (rule : BadgeRule) : EvaluationState :=
  match getBadge s.db.badges e.cachedAt rule.badgeId with
  | none => s
  | some badge => if badge.isValid && badge.isActive then evaluateRule e s rule badge else s

/-- `batchOwnershipLookup`: the badges among these that the user has. -/
def batchOwnershipLookup (db : AchievementDb) (userId : String) (badgeIds : List String) :
    List String := badgeIds.filter fun badgeId => hasBadge db userId badgeId

def evaluateEvent (rules : List BadgeRule) (db : AchievementDb) (e : Evaluation) : EvaluationState :=
  let rulesByType := getRulesByEventType db.badges rules e.context.eventType
  let candidates := rulesByType.filterMap fun rule =>
    ((getBadge db.badges e.cachedAt rule.badgeId).filter fun badge =>
      badge.isValid && badge.isActive).map (·.badgeId)
  rulesByType.foldl (evaluateNext e)
    ⟨db, batchOwnershipLookup db e.context.userId candidates.eraseDups, [], []⟩

def evaluateEvents (rules : List BadgeRule) (db : AchievementDb) (es : List Evaluation) :
    AchievementDb :=
  es.foldl (fun db e => (evaluateEvent rules db e).db) db

/-! ## The attempt listener -/

/-- `AttemptCompletedEvent`, the members the listener reads. The score is in hundredths of a
percent. -/
structure AttemptCompletedEvent where
  attemptId : String
  userId : String
  quizId : String
  scorePercent : Nat
  correctCount : Nat
  totalQuestions : Nat
  xpEarned : Int

section

variable (event : AttemptCompletedEvent)

def AttemptCompletedEvent.isPerfect : Bool :=
  event.scorePercent == 10000

def AttemptCompletedEvent.completed : EvaluationContext :=
  ⟨event.userId, "attempt.completed",
    [("attemptId", .other), ("quizId", .other), ("scorePercent", .number (event.scorePercent / 100)),
      ("correctCount", .number event.correctCount),
      ("totalQuestions", .number event.totalQuestions), ("xpEarned", .number event.xpEarned)]⟩

def AttemptCompletedEvent.perfect : EvaluationContext :=
  ⟨event.userId, "perfect_score",
    [("perfectScores", .number 1), ("scorePercent", .number (event.scorePercent / 100))]⟩

def handleAttemptCompleted : List EvaluationContext :=
  event.completed :: if event.isPerfect then [event.perfect] else []

end

/-! ## What should hold -/

def latest (events : List EvaluationContext) (userId : String) (key : String) : Option Rat :=
  (events.filter fun c => c.userId = userId).reverse.findSome? fun c => c.eventData.number key

/-- The latest values of the user meet the condition. -/
def Satisfies (events : List EvaluationContext) (userId : String) (config : RuleConfig) : Prop :=
  config.metBy (latest events userId) = true

instance (events : List EvaluationContext) (userId : String) (config : RuleConfig) :
    Decidable (Satisfies events userId config) := inferInstanceAs (Decidable (_ = _))

/-- Whoever is awarded a badge satisfies all its active rules. -/
def AwardsSatisfied (rules : List BadgeRule) (db : AchievementDb) (es : List Evaluation) : Prop :=
  ∀ pre e, pre ++ [e] <+: es →
    ∀ badgeId ∈ (evaluateEvent rules (evaluateEvents rules db pre) e).awarded,
      ∀ rule ∈ rules, rule.isActive = true → rule.badgeId = badgeId →
        Satisfies ((pre ++ [e]).map (·.context)) e.context.userId rule.config

/-- `{ metric: 'perfect_scores', operator: '>=', threshold }`. -/
def perfectScores (threshold : Nat) : RuleConfig := ⟨"perfect_scores", some threshold, some ">="⟩

def perfectAttempts (userId : String) (attempts : List AttemptCompletedEvent) : Nat :=
  attempts.countP fun a => a.userId = userId && a.isPerfect

/-- The threshold is met from that perfect attempt on. -/
def CountsAttempts (threshold : Nat) (userId : String) (attempts : List AttemptCompletedEvent) :
    Prop :=
  ∀ pre, pre <+: attempts →
    (Satisfies (pre.flatMap handleAttemptCompleted) userId (perfectScores threshold) ↔
      threshold ≤ perfectAttempts userId pre)

/-- Where the first of these holds: what meets a rule that can award a badge meets every active rule
of the badge. -/
def Conjunctive (badges : Table String Badge (·.badgeId)) (rules : List BadgeRule) : Prop :=
  ∀ badge ∈ badges.rows, badge.isActive = true → badge.isHidden = false →
    (∃ now, badgeValiditySql now badge = true) →
    ∀ rule ∈ rules, rule.isActive = true → rule.badgeId = badge.badgeId →
      (∃ eventType, rule.ruleType ∈ getRuleTypesForEvent eventType) →
      ∀ other ∈ rules, other.isActive = true → other.badgeId = badge.badgeId →
        ∀ eventData, checkCondition rule.config eventData = true →
          checkCondition other.config eventData = true

/-! ## The caches and the catalogue -/

section Catalogue

variable {badges : Table String Badge (·.badgeId)} {rules : List BadgeRule}

theorem mem_getAllActiveRules {rule : BadgeRule} :
    rule ∈ getAllActiveRules badges rules ↔
      rule ∈ rules ∧ rule.isActive = true ∧ (badges.find? rule.badgeId).any (·.isActive) = true := by
  simp [getAllActiveRules, List.mem_insertionSort, List.mem_filter]

theorem mem_getRulesByEventType {eventType : String} {rule : BadgeRule} :
    rule ∈ getRulesByEventType badges rules eventType ↔
      rule ∈ getAllActiveRules badges rules ∧ rule.ruleType ∈ getRuleTypesForEvent eventType := by
  unfold getRulesByEventType
  rw [List.mem_insertionSort, List.mem_flatMap]
  constructor
  · rintro ⟨ruleType, htype, hmem⟩
    obtain ⟨hrule, heq⟩ := List.mem_filter.mp hmem
    exact ⟨hrule, of_decide_eq_true heq ▸ htype⟩
  · rintro ⟨hrule, htype⟩
    exact ⟨rule.ruleType, htype, List.mem_filter.mpr ⟨hrule, decide_eq_true rfl⟩⟩

theorem getBadge_eq_some_iff {cachedAt : Int} {badgeId : String} {entry : BadgeCacheEntry} :
    getBadge badges cachedAt badgeId = some entry ↔
      ∃ badge ∈ badges.rows, badge.badgeId = badgeId ∧ badge.isActive = true ∧
        badge.isHidden = false ∧ badgeValiditySql cachedAt badge = true ∧
        (⟨badge.badgeId, badge.slug, badge.name, badge.type, badge.category, badge.isActive,
          isBadgeValid badge.validFrom badge.validUntil cachedAt⟩ : BadgeCacheEntry) = entry := by
  unfold getBadge getAllActiveBadges
  rw [Option.map_eq_some_iff]
  constructor
  · rintro ⟨badge, hfind, heq⟩
    obtain ⟨hmem, hshown⟩ := List.mem_filter.mp (List.mem_of_find?_eq_some hfind)
    simp only [Bool.and_eq_true, Bool.not_eq_true'] at hshown
    have hid : badge.badgeId = badgeId := by simpa using List.find?_some hfind
    exact ⟨badge, hmem, hid, hshown.1.1, hshown.2, hshown.1.2, heq⟩
  · rintro ⟨badge, hmem, hid, hactive, hhidden, hvalid, heq⟩
    refine ⟨badge, ?_, heq⟩
    have hshown : badge ∈ badges.rows.filter fun badge =>
        badge.isActive && badgeValiditySql cachedAt badge && !badge.isHidden := by
      refine List.mem_filter.mpr ⟨hmem, ?_⟩
      rw [hactive, hvalid, hhidden]
      rfl
    cases hfind : (badges.rows.filter fun badge =>
        badge.isActive && badgeValiditySql cachedAt badge && !badge.isHidden).find?
          fun badge => badge.badgeId = badgeId with
    | none => exact absurd (List.find?_eq_none.mp hfind badge hshown) (by simp [hid])
    | some found =>
      have hfound := (List.mem_filter.mp (List.mem_of_find?_eq_some hfind)).1
      have hsame : found.badgeId = badgeId := by simpa using List.find?_some hfind
      rw [Table.eq_of_key_eq hfound hmem (hsame.trans hid.symm)]

theorem isBadgeValid_of_sql {badge : Badge} {now : Int} (h : badgeValiditySql now badge = true) :
    isBadgeValid badge.validFrom badge.validUntil now = true := by
  obtain ⟨hfrom, huntil⟩ := Bool.and_eq_true_iff.mp h
  unfold isBadgeValid
  rw [Bool.and_eq_true_iff]
  constructor
  · cases hcase : badge.validFrom with
    | none => rfl
    | some t =>
      rw [hcase] at hfrom
      have hle : t ≤ now := of_decide_eq_true hfrom
      simp [Option.any, hle]
  · cases hcase : badge.validUntil with
    | none => rfl
    | some t =>
      rw [hcase] at huntil
      have hlt : now < t := of_decide_eq_true huntil
      simp [Option.any, Int.le_of_lt hlt]

end Catalogue

/-! ## The loop -/

section Loop

variable {e : Evaluation} {s : EvaluationState}

theorem engineAwardBadge_frame {db db' : AchievementDb} {rule : BadgeRule}
    (h : engineAwardBadge db e rule = some db') : db'.badges = db.badges ∧ db'.users = db.users := by
  unfold engineAwardBadge at h
  split at h
  · cases h
  · split at h
    · cases h
    · next hok =>
      cases h
      unfold awardBadge at hok
      split at hok
      · cases hok
        exact ⟨rfl, rfl⟩
      · split at hok
        · cases hok
          exact ⟨rfl, rfl⟩
        · cases hok

theorem engineAwardBadge_isSome {db : AchievementDb} {rule : BadgeRule} {badge : Badge}
    (hbadge : db.badges.find? rule.badgeId = some badge) (huser : e.context.userId ∈ db.users) :
    ∃ db', engineAwardBadge db e rule = some db' := by
  unfold engineAwardBadge
  rw [hbadge]
  simp only
  cases hinsert : db.userBadges.insert? (AwardParams.row ⟨e.context.userId, rule.badgeId,
      some badge.version, none, none, some (awardMetadata e rule), none⟩ (e.draw rule.ruleId)
      e.nowIso) with
  | none => simp [awardBadge, hinsert]
  | some t => simp [awardBadge, hinsert, hbadge, huser]

/-- What one turn of the loop does: the catalogue and the users stay, and a badge is awarded, if at
all, by the rule, which is met. -/
theorem evaluateNext_spec (rule : BadgeRule) :
    (evaluateNext e s rule).db.badges = s.db.badges ∧
      (evaluateNext e s rule).db.users = s.db.users ∧
      ((evaluateNext e s rule).awarded = s.awarded ∧ (evaluateNext e s rule).owned = s.owned ∨
        (evaluateNext e s rule).awarded = s.awarded ++ [rule.badgeId] ∧
          (evaluateNext e s rule).owned = rule.badgeId :: s.owned ∧
          checkCondition rule.config e.context.eventData = true ∧
          ∃ entry, getBadge s.db.badges e.cachedAt rule.badgeId = some entry) := by
  unfold evaluateNext
  split
  · exact ⟨rfl, rfl, .inl ⟨rfl, rfl⟩⟩
  · next entry hentry =>
    split
    · unfold evaluateRule
      split
      · next hmet =>
        split
        · exact ⟨rfl, rfl, .inl ⟨rfl, rfl⟩⟩
        · split
          · next db' haward =>
            obtain ⟨hbadges, husers⟩ := engineAwardBadge_frame haward
            exact ⟨hbadges, husers, .inr ⟨rfl, rfl, hmet, entry, hentry⟩⟩
          · exact ⟨rfl, rfl, .inl ⟨rfl, rfl⟩⟩
      · exact ⟨rfl, rfl, .inl ⟨rfl, rfl⟩⟩
    · exact ⟨rfl, rfl, .inl ⟨rfl, rfl⟩⟩

theorem foldl_frame (l : List BadgeRule) :
    (l.foldl (evaluateNext e) s).db.badges = s.db.badges ∧
      (l.foldl (evaluateNext e) s).db.users = s.db.users := by
  induction l generalizing s with
  | nil => exact ⟨rfl, rfl⟩
  | cons rule l ih =>
    obtain ⟨hbadges, husers, -⟩ := evaluateNext_spec (e := e) (s := s) rule
    obtain ⟨hbadges', husers'⟩ := ih (s := evaluateNext e s rule)
    exact ⟨hbadges'.trans hbadges, husers'.trans husers⟩

theorem mem_awarded_foldl {l : List BadgeRule} {badgeId : String}
    (h : badgeId ∈ (l.foldl (evaluateNext e) s).awarded) :
    badgeId ∈ s.awarded ∨ ∃ rule ∈ l, rule.badgeId = badgeId ∧
      checkCondition rule.config e.context.eventData = true ∧
      ∃ entry, getBadge s.db.badges e.cachedAt badgeId = some entry := by
  induction l generalizing s with
  | nil => exact .inl h
  | cons rule l ih =>
    obtain ⟨hbadges, -, hawarded⟩ := evaluateNext_spec (e := e) (s := s) rule
    rcases ih h with hmem | ⟨rule', hrule', hid, hmet, entry, hentry⟩
    · rcases hawarded with ⟨heq, -⟩ | ⟨heq, -, hmet, entry, hentry⟩
      · exact .inl (heq ▸ hmem)
      · rw [heq, List.mem_append, List.mem_singleton] at hmem
        rcases hmem with hmem | rfl
        · exact .inl hmem
        · exact .inr ⟨rule, List.mem_cons_self .., rfl, hmet, entry, hentry⟩
    · exact .inr ⟨rule', List.mem_cons_of_mem _ hrule', hid, hmet, entry, hbadges ▸ hentry⟩

theorem owned_foldl {l : List BadgeRule} (hs : ∀ badgeId ∈ s.owned, badgeId ∈ s.awarded) :
    (∀ badgeId ∈ (l.foldl (evaluateNext e) s).owned,
        badgeId ∈ (l.foldl (evaluateNext e) s).awarded) ∧
      ∀ badgeId ∈ s.awarded, badgeId ∈ (l.foldl (evaluateNext e) s).awarded := by
  induction l generalizing s with
  | nil => exact ⟨hs, fun _ h => h⟩
  | cons rule l ih =>
    obtain ⟨-, -, hawarded⟩ := evaluateNext_spec (e := e) (s := s) rule
    have hnext : (∀ badgeId ∈ (evaluateNext e s rule).owned,
          badgeId ∈ (evaluateNext e s rule).awarded) ∧
        ∀ badgeId ∈ s.awarded, badgeId ∈ (evaluateNext e s rule).awarded := by
      rcases hawarded with ⟨heq, howned⟩ | ⟨heq, howned, -⟩
      · rw [heq, howned]
        exact ⟨hs, fun _ h => h⟩
      · rw [heq, howned]
        refine ⟨?_, fun _ h => List.mem_append_left _ h⟩
        intro badgeId hmem
        rcases List.mem_cons.mp hmem with rfl | hmem
        · exact List.mem_append_right _ (List.mem_singleton_self _)
        · exact List.mem_append_left _ (hs badgeId hmem)
    obtain ⟨hlater, hkept⟩ := ih hnext.1
    exact ⟨hlater, fun badgeId h => hkept badgeId (hnext.2 badgeId h)⟩

theorem awarded_of_met {l : List BadgeRule} {rule : BadgeRule} (hrule : rule ∈ l)
    (hmet : checkCondition rule.config e.context.eventData = true) {badge : Badge}
    (hbadge : badge ∈ s.db.badges.rows) (hid : badge.badgeId = rule.badgeId)
    (hactive : badge.isActive = true) (hhidden : badge.isHidden = false)
    (hvalid : badgeValiditySql e.cachedAt badge = true) (huser : e.context.userId ∈ s.db.users)
    (hs : ∀ badgeId ∈ s.owned, badgeId ∈ s.awarded) :
    rule.badgeId ∈ (l.foldl (evaluateNext e) s).awarded := by
  obtain ⟨before, after, rfl⟩ := List.append_of_mem hrule
  rw [List.foldl_append, List.foldl_cons]
  obtain ⟨hbadges, husers⟩ := foldl_frame (e := e) (s := s) before
  have howned := (owned_foldl (e := e) (l := before) hs).1
  generalize before.foldl (evaluateNext e) s = t at hbadges husers howned
  obtain ⟨-, -, hawarded⟩ := evaluateNext_spec (e := e) (s := t) rule
  have hnext : rule.badgeId ∈ (evaluateNext e t rule).awarded ∧
      ∀ badgeId ∈ (evaluateNext e t rule).owned, badgeId ∈ (evaluateNext e t rule).awarded := by
    by_cases hown : rule.badgeId ∈ t.owned
    · rcases hawarded with ⟨heq, heqOwned⟩ | ⟨heq, heqOwned, -⟩
      · rw [heq, heqOwned]
        exact ⟨howned _ hown, howned⟩
      · rw [heq, heqOwned]
        refine ⟨List.mem_append_right _ (List.mem_singleton_self _), ?_⟩
        intro badgeId hmem
        rcases List.mem_cons.mp hmem with rfl | hmem
        · exact List.mem_append_right _ (List.mem_singleton_self _)
        · exact List.mem_append_left _ (howned badgeId hmem)
    · have hentry := getBadge_eq_some_iff.mpr ⟨badge, hbadge, hid, hactive, hhidden, hvalid, rfl⟩
      obtain ⟨db', haward⟩ : ∃ db', engineAwardBadge t.db e rule = some db' :=
        engineAwardBadge_isSome (hbadges ▸ Table.find?_eq_some_iff.mpr ⟨hbadge, hid⟩)
          (husers ▸ huser)
      rw [← hbadges] at hentry
      unfold evaluateNext
      rw [hentry]
      simp only [isBadgeValid_of_sql hvalid, hactive, Bool.and_self, if_true, evaluateRule, hmet,
        if_neg hown, haward]
      refine ⟨List.mem_append_right _ (List.mem_singleton_self _), ?_⟩
      intro badgeId hmem
      rcases List.mem_cons.mp hmem with rfl | hmem
      · exact List.mem_append_right _ (List.mem_singleton_self _)
      · exact List.mem_append_left _ (howned badgeId hmem)
  exact (owned_foldl (e := e) (l := after) hnext.2).2 _ hnext.1

end Loop

/-! ## Conjunction -/

section Conjunction

variable {rules : List BadgeRule}

theorem latest_append (events : List EvaluationContext) (c : EvaluationContext) (userId key : String) :
    latest (events ++ [c]) userId key =
      if c.userId = userId then (c.eventData.number key).or (latest events userId key)
      else latest events userId key := by
  unfold latest
  rw [List.filter_append]
  by_cases huser : c.userId = userId
  · have hnew : [c].filter (fun c => decide (c.userId = userId)) = [c] :=
      List.filter_cons_of_pos (decide_eq_true huser)
    rw [hnew, List.reverse_append, List.reverse_singleton, List.singleton_append,
      List.findSome?_cons, if_pos huser]
    cases c.eventData.number key <;> rfl
  · have hnew : [c].filter (fun c => decide (c.userId = userId)) = [] :=
      List.filter_cons_of_neg (by simpa using huser)
    rw [hnew, List.append_nil, if_neg huser]

theorem satisfies_of_met (events : List EvaluationContext) (c : EvaluationContext)
    {config : RuleConfig} (h : checkCondition config c.eventData = true) :
    Satisfies (events ++ [c]) c.userId config := by
  unfold Satisfies
  unfold checkCondition RuleConfig.metBy at h
  unfold RuleConfig.metBy
  cases hmember : metricMember config.metric with
  | none =>
    rw [hmember] at h
    cases h
  | some key =>
    rw [hmember] at h
    rw [Option.bind_some] at h ⊢
    cases hvalue : c.eventData.number key with
    | none =>
      rw [hvalue] at h
      cases h
    | some value =>
      rw [hvalue] at h
      rw [latest_append, if_pos rfl, hvalue, Option.some_or]
      exact h

theorem badges_evaluateEvents (db : AchievementDb) (es : List Evaluation) :
    (evaluateEvents rules db es).badges = db.badges := by
  unfold evaluateEvents
  induction es generalizing db with
  | nil => rfl
  | cons e es ih =>
    rw [List.foldl_cons, ih]
    exact (foldl_frame _).1

theorem Conjunctive.awardsSatisfied {db : AchievementDb} (h : Conjunctive db.badges rules)
    (es : List Evaluation) : AwardsSatisfied rules db es := by
  intro pre e _ badgeId hawarded other hother hactive hid
  have hbadges : (evaluateEvents rules db pre).badges = db.badges := badges_evaluateEvents db pre
  generalize evaluateEvents rules db pre = db' at hawarded hbadges
  rcases mem_awarded_foldl hawarded with hnone | ⟨rule, hrule, rfl, hmet, entry, hentry⟩
  · exact absurd hnone List.not_mem_nil
  · obtain ⟨badge, hbadge, hbadgeId, hshown, hhidden, hvalid, -⟩ := getBadge_eq_some_iff.mp hentry
    obtain ⟨hactiveRule, htype⟩ := mem_getRulesByEventType.mp hrule
    obtain ⟨hmem, hruleActive, -⟩ := mem_getAllActiveRules.mp hactiveRule
    rw [List.map_append, List.map_singleton]
    refine satisfies_of_met _ e.context ?_
    exact h badge (hbadges ▸ hbadge) hshown hhidden ⟨_, hvalid⟩ rule hmem hruleActive hbadgeId.symm
      ⟨_, htype⟩ other hother hactive (hid.trans hbadgeId.symm) _ hmet

def withoutBadges (users : List String) (badges : Table String Badge (·.badgeId)) :
    AchievementDb := ⟨users, badges, .empty _ _, .empty _⟩

theorem Conjunctive.of_awardsSatisfied {badges : Table String Badge (·.badgeId)}
    (h : ∀ e, AwardsSatisfied rules (withoutBadges ["user"] badges) [e]) :
    Conjunctive badges rules := by
  rintro badge hbadge hactive hhidden ⟨now, hvalid⟩ rule hrule hruleActive hid ⟨eventType, htype⟩
    other hother hotherActive hotherId eventData hmet
  let e : Evaluation := ⟨⟨"user", eventType, eventData⟩, now, 0, fun _ => ⟨"", "", 0⟩⟩
  have hawarded : rule.badgeId ∈ (evaluateEvent rules (withoutBadges ["user"] badges) e).awarded := by
    have hlisted : rule ∈ getRulesByEventType badges rules eventType := by
      refine mem_getRulesByEventType.mpr ⟨mem_getAllActiveRules.mpr ⟨hrule, hruleActive, ?_⟩, htype⟩
      rw [Table.find?_eq_some_iff.mpr ⟨hbadge, hid.symm⟩]
      exact hactive
    refine awarded_of_met (e := e) hlisted hmet hbadge hid.symm hactive hhidden hvalid
      (List.mem_singleton_self _) ?_
    -- nobody owns anything
    intro badgeId hmem
    have hhas := (List.mem_filter.mp hmem).2
    obtain ⟨row, hrow, -⟩ := hasBadge_iff.mp hhas
    exact absurd hrow List.not_mem_nil
  have hsatisfied := h e [] e (List.prefix_refl _) rule.badgeId hawarded other hother hotherActive
    (hotherId.trans hid.symm)
  -- what is known of the user is what the event says
  have hlatest : latest [e.context] e.context.userId = eventData.number := by
    funext key
    have happend := latest_append [] e.context e.context.userId key
    rw [if_pos rfl] at happend
    rw [show [e.context] = [] ++ [e.context] from rfl, happend]
    exact Option.or_none
  unfold Satisfies at hsatisfied
  rw [List.nil_append, List.map_singleton, hlatest] at hsatisfied
  exact hsatisfied

end Conjunction

/-! ## Perfect scores -/

section PerfectScores

variable {userId : String}

theorem latest_handleAttemptCompleted (events : List EvaluationContext)
    (a : AttemptCompletedEvent) :
    latest (events ++ handleAttemptCompleted a) userId "perfectScores" =
      if a.userId = userId ∧ a.isPerfect = true then some 1
      else latest events userId "perfectScores" := by
  have hfirst := latest_append events a.completed userId "perfectScores"
  rw [show a.completed.eventData.number "perfectScores" = none from rfl, Option.none_or,
    ite_self] at hfirst
  unfold handleAttemptCompleted
  cases hperfect : a.isPerfect with
  | true =>
    rw [if_pos rfl, List.append_cons, latest_append, hfirst]
    show (if a.userId = userId then _ else _) = _
    by_cases huser : a.userId = userId
    · rw [if_pos huser, if_pos ⟨huser, rfl⟩]
      rfl
    · rw [if_neg huser, if_neg fun h => huser h.1]
  | false =>
    rw [if_neg Bool.false_ne_true, hfirst, if_neg fun h => Bool.false_ne_true h.2]

theorem latest_perfectScores (attempts : List AttemptCompletedEvent) :
    latest (attempts.flatMap handleAttemptCompleted) userId "perfectScores" =
      if 1 ≤ perfectAttempts userId attempts then some 1 else none := by
  induction attempts using List.reverseRecOn with
  | nil => rfl
  | append_singleton attempts a ih =>
    rw [List.flatMap_append, List.flatMap_singleton, latest_handleAttemptCompleted, ih]
    unfold perfectAttempts
    rw [List.countP_append, List.countP_singleton]
    have hiff : (decide (a.userId = userId) && a.isPerfect) = true ↔
        a.userId = userId ∧ a.isPerfect = true := by
      rw [Bool.and_eq_true, decide_eq_true_iff]
    simp only [hiff]
    split
    · rw [if_pos (Nat.le_add_left 1 _)]
    · rfl

theorem satisfies_perfectScores {threshold : Nat} (hpos : 1 ≤ threshold)
    (attempts : List AttemptCompletedEvent) :
    Satisfies (attempts.flatMap handleAttemptCompleted) userId (perfectScores threshold) ↔
      threshold = 1 ∧ 1 ≤ perfectAttempts userId attempts := by
  unfold Satisfies RuleConfig.metBy
  rw [show metricMember (perfectScores threshold).metric = some "perfectScores" from rfl,
    Option.bind_some, latest_perfectScores]
  by_cases hone : 1 ≤ perfectAttempts userId attempts
  · have hle : ((threshold : Rat) ≤ 1) ↔ threshold = 1 := by
      rw [Nat.cast_le_one]
      omega
    rw [if_pos hone]
    exact (decide_eq_true_iff.trans hle).trans (and_iff_left hone).symm
  · rw [if_neg hone]
    exact iff_of_false Bool.false_ne_true fun h => hone h.2

/-- **A threshold counts attempts exactly where it is `1` or not reached.** -/
theorem countsAttempts_iff {threshold : Nat} (hpos : 1 ≤ threshold)
    (attempts : List AttemptCompletedEvent) :
    CountsAttempts threshold userId attempts ↔
      threshold = 1 ∨ perfectAttempts userId attempts < threshold := by
  unfold CountsAttempts
  simp only [satisfies_perfectScores hpos]
  constructor
  · intro h
    by_contra hcon
    have hall := (h attempts (List.prefix_refl _)).mpr (by omega)
    omega
  · intro h pre hpre
    have hle : perfectAttempts userId pre ≤ perfectAttempts userId attempts :=
      hpre.sublist.countP_le
    omega

end PerfectScores

/-- **Badges are awarded by their rules exactly where rules are met together and thresholds are not
counted.** For every catalogue of badges and rules: whoever is awarded a badge, in whatever sequence
of evaluations and from whatever tables, satisfies all its active rules, and the threshold of perfect
scores is satisfied from that perfect attempt of the user on — if and only if what meets a rule that
can award a badge meets every active rule of the badge, and the threshold is `1` or the user has fewer
perfect attempts. -/
theorem badge_rules_iff (badges : Table String Badge (·.badgeId)) (rules : List BadgeRule)
    (threshold : Nat) (hpos : 1 ≤ threshold) (userId : String)
    (attempts : List AttemptCompletedEvent) :
    ((∀ db : AchievementDb, db.badges = badges → ∀ es, AwardsSatisfied rules db es) ∧
        CountsAttempts threshold userId attempts) ↔
      Conjunctive badges rules ∧
        (threshold = 1 ∨ perfectAttempts userId attempts < threshold) := by
  refine Iff.and ⟨?_, ?_⟩ (countsAttempts_iff hpos attempts)
  · intro h
    exact Conjunctive.of_awardsSatisfied fun e => h (withoutBadges ["user"] badges) rfl [e]
  · rintro h db rfl es
    exact h.awardsSatisfied es

def quizBadges : Table String Badge (·.badgeId) :=
  ⟨[{ badgeId := "b1", slug := "veteran", type := "quiz", category := "quiz", name := "Veteran",
      isActive := true, isHidden := false, version := "1.0.0", validFrom := none,
      validUntil := none }], List.nodup_singleton _⟩

def tenQuizzes : BadgeRule :=
  ⟨"r1", "b1", .count, 0, ⟨"quizzes_completed", some 10, some ">="⟩, true⟩

def muchXp : BadgeRule := ⟨"r2", "b1", .xpTotal, 0, ⟨"xp_total", some 5000, some ">="⟩, true⟩

/-- Of a type that no event evaluates. -/
def firstQuiz : BadgeRule :=
  ⟨"r3", "b1", .social, 0, ⟨"quizzes_completed", some 1, some ">="⟩, true⟩

def perfectAttempt (attemptId : String) : AttemptCompletedEvent :=
  ⟨attemptId, "ada", "q1", 10000, 5, 5, 50⟩

theorem firstQuiz_of_tenQuizzes {eventData : EventData}
    (hten : checkCondition tenQuizzes.config eventData = true) :
    checkCondition firstQuiz.config eventData = true := by
  simp only [checkCondition, RuleConfig.metBy, tenQuizzes, firstQuiz] at hten ⊢
  split at hten
  · cases hten
  · exact decide_eq_true (le_trans (by decide) (of_decide_eq_true hten))

/-- Ten quizzes are more than one, which is never evaluated; and one perfect score is enough. -/
theorem badge_rules_met_together :
    (∀ db : AchievementDb, db.badges = quizBadges → ∀ es,
      AwardsSatisfied [tenQuizzes, firstQuiz] db es) ∧
      CountsAttempts 1 "ada" [perfectAttempt "1", perfectAttempt "2"] := by
  refine (badge_rules_iff quizBadges [tenQuizzes, firstQuiz] 1 (by decide) "ada"
    [perfectAttempt "1", perfectAttempt "2"]).mpr ⟨?_, .inl rfl⟩
  have hsocial : ∀ eventType, BadgeRuleType.social ∉ getRuleTypesForEvent eventType := by
    intro eventType
    unfold getRuleTypesForEvent
    split <;> decide
  intro badge _ _ _ _ rule hrule _ _ hevent other hother _ _ eventData hmet
  simp only [List.mem_cons, List.not_mem_nil, or_false] at hrule hother
  rcases hrule with rfl | rfl
  · rcases hother with rfl | rfl
    · exact hmet
    · exact firstQuiz_of_tenQuizzes hmet
  · exact absurd hevent.choose_spec (hsocial _)

def tenthQuiz : Evaluation :=
  ⟨⟨"ada", "quiz.milestone", [("quizCount", .number 10)]⟩, 0, 0, fun id => ⟨id, id, 0⟩⟩

/-- Ten quizzes get the badge that takes experience, too; and two perfect attempts do not satisfy a
threshold of two. -/
theorem badge_rules_broken :
    ¬ AwardsSatisfied [tenQuizzes, muchXp] (withoutBadges ["ada"] quizBadges) [tenthQuiz] ∧
      ¬ CountsAttempts 2 "ada" [perfectAttempt "1", perfectAttempt "2"] := by
  refine ⟨?_, ?_⟩
  · intro h
    have hsatisfied := h [] tenthQuiz (List.prefix_refl _) "b1" (by decide +kernel) muchXp
      (by decide) rfl rfl
    exact absurd hsatisfied (by decide +kernel)
  · intro h
    have hcount := (h _ (List.prefix_refl _)).mpr (by decide)
    exact absurd hcount (by decide +kernel)

end QuizBackend.Achievement
