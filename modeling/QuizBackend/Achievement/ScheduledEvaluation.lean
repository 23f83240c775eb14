import QuizBackend.Achievement.Ledger
import QuizBackend.Achievement.RuleEngine
import QuizBackend.Lib.OffsetScan

/-!
# The scheduled evaluation

Badges whose `evaluation_mode` is `deferred` or `both` are not (only) awarded when something happens:
a cron job goes through their rules, asks for the users a rule makes eligible, page by page, and
awards the badge to those who do not hold it. Its queries are two, over streaks and over ranks.

* A rule of type `count` or `xp_total` is given the query over streaks, with a streak of one day: its
  threshold is not looked at. Whoever was active yesterday or today is awarded, whoever was not is
  left out.
* `offset` is declared before the loop over the rules and not put back. The second rule of a badge
  starts behind as many rows as the pages of the first had room for.
* A threshold that is no `integer` makes the query fail. The badge counts as an error then, and its
  awards up to there are not counted, though they have been made.

The job awards the eligible exactly where all this makes no difference (`evaluation_iff`).
-/

namespace QuizBackend.Achievement.Scheduled

open Lib Outbox UniqueTable
open List (mem_singleton)

/-! ## Tables -/

inductive EvaluationMode where
  | immediate | deferred | both
  deriving DecidableEq

structure User where
  userId : String
  currentStreak : Int
  deletedAt : Option Int
  deriving DecidableEq

structure UserRanking where
  userId : String
  allTimeXp : Int
  allTimeRank : Option Int
  weeklyRank : Option Int
  monthlyRank : Option Int
  dailyRank : Option Int
  deriving DecidableEq

structure ScheduledRule extends BadgeRule where
  period : Option String
  deriving DecidableEq

inductive EligibilityQuery where
  | streak (minStreakDays : Int)
  | rank (maxRank : Int) (period : String)

/-- What the job reads and does not write. A query finds its rows in an order of its own, and always
in the same one. -/
structure Catalogue where
  users : Table String User (·.userId)
  rankings : Table String UserRanking (·.userId)
  completedQuizzes : String → Nat
  rules : Table String ScheduledRule (·.ruleId)
  evaluationMode : String → EvaluationMode
  order : EligibilityQuery → List User
  order_perm : ∀ query, (order query).Perm users.rows

open Catalogue

structure Platform extends Catalogue where
  db : AchievementDb
  users_eq : db.users = users.rows.map (·.userId)

/-! ## The queries -/

def UserRanking.rankColumn (ranking : UserRanking) (period : String) : Option Int :=
  if period = "daily" then ranking.dailyRank
  else if period = "weekly" then ranking.weeklyRank
  else if period = "monthly" then ranking.monthlyRank
  else ranking.allTimeRank

namespace Catalogue

variable (c : Catalogue)

/-- The rank of a user; nobody has one without a row in `user_ranking`. -/
def rankOf (userId period : String) : Option Int :=
  (c.rankings.find? userId).bind (·.rankColumn period)

/-- The rows of a query, of which `LIMIT` and `OFFSET` take a page. The `LEFT JOIN` with the badges
of the user finds one at most, and no condition looks at it. -/
def find (query : EligibilityQuery) : List User :=
  match query with
  | .streak minStreakDays =>
    -- getUsersEligibleForStreakBadge
    (c.order query).filter fun user =>
      minStreakDays ≤ user.currentStreak && 0 < user.currentStreak && user.deletedAt.isNone
  | .rank maxRank period =>
    -- getUsersEligibleForRankBadge
    (c.order query).filter fun user =>
      (c.rankOf user.userId period).any (· ≤ maxRank) && user.deletedAt.isNone

end Catalogue

/-- A parameter that is compared with a column of type `integer`. -/
def integerParameter (threshold : Rat) : Option Int :=
  if threshold.den = 1 ∧ IsInt4 threshold.num then some threshold.num else none

inductive MetadataMember where
  | text (s : String)
  | number (n : Rat)

structure EligibleUser where
  userId : String
  userInfo : List (String × MetadataMember)

namespace Catalogue

variable (c : Catalogue)

/-- `resolveEligibleUsers`, without the page; nothing where the query fails. -/
def resolveEligibleUsers (rule : ScheduledRule) : Option (List EligibleUser) :=
  match rule.ruleType with
  | .streak =>
    (integerParameter (rule.config.threshold.getD 7)).map fun threshold =>
      (c.find (.streak threshold)).map fun u =>
        ⟨u.userId, [("userId", .text u.userId), ("streakDays", .number u.currentStreak)]⟩
  | .rank | .rankPeriod =>
    let period := rule.period.getD "all"
    (integerParameter (rule.config.threshold.getD 100)).map fun maxRank =>
      (c.find (.rank maxRank period)).map fun u =>
        ⟨u.userId, [("userId", .text u.userId),
          ("rank", .number ((c.rankOf u.userId period).getD 0)), ("period", .text period)]⟩
  | .count => some ((c.find (.streak 1)).map fun u => ⟨u.userId, [("userId", .text u.userId)]⟩)
  | .xpTotal =>
    let minXp := rule.config.threshold.getD 1000
    some ((c.find (.streak 1)).map fun u =>
      ⟨u.userId, [("userId", .text u.userId), ("xpTotal", .number minXp)]⟩)
  -- unsupported_rule_type_for_deferred_evaluation
  | _ => some []

def getBadgeRules (badgeId : String) : List ScheduledRule :=
  (c.rules.rows.filter fun rule => rule.badgeId = badgeId && rule.isActive).insertionSort
    fun a b => b.priority ≤ a.priority

def getDeferredBadges (db : AchievementDb) (now : Int) : List Badge :=
  (getAllActiveBadges db.badges now).filter fun badge =>
    c.evaluationMode badge.badgeId = .deferred || c.evaluationMode badge.badgeId = .both

end Catalogue

/-! ## The evaluation -/

structure AwardDraw where
  drawn : Drawn
  nowIso : Int
  outage : Option String

/-- `RuleEngineService.awardBadge`: the message, when it throws. -/
def engineAwardBadge (db : AchievementDb) (draw : AwardDraw) (userId badgeId : String)
    (metadata : JsonValue) : Except String AchievementDb :=
  match db.badges.find? badgeId, draw.outage with
  | none, _ => .error s!"Badge not found: {badgeId}"
  | some _, some message => .error message
  | some badge, none =>
    match awardBadge db draw.drawn draw.nowIso
        ⟨userId, badgeId, some badge.version, none, none, some metadata, none⟩ with
    | .error e => .error e.message
    | .ok (_, db) => .ok db

structure EvaluationResult where
  badgeId : String
  slug : String
  userId : String
  awarded : Bool
  error : Option String

/-- One run of the job: its page size, its time, `JSON.stringify` of the metadata, and what becomes
of the awards in the order they are made. The keys of their rows are new. -/
structure EvaluationRun (userBadges : UserBadges) where
  batchSize : Nat
  now : Int
  stringify : List (String × MetadataMember) → String
  draw : Nat → AwardDraw
  new : ∀ n, userBadges.find? (draw n).drawn.userBadgeId = none
  distinct : Function.Injective fun n => (draw n).drawn.userBadgeId

structure EvaluationState where
  db : AchievementDb
  tried : Nat
  results : List EvaluationResult

section Evaluation

variable {userBadges : UserBadges} (c : Catalogue) (run : EvaluationRun userBadges)

def evaluateUser (badge : Badge) (rule : ScheduledRule) (s : EvaluationState)
    (user : EligibleUser) : EvaluationState :=
  if hasBadge s.db user.userId badge.badgeId then s
  else
    let metadata := .raw (run.stringify
      ([("evaluationType", .text "scheduled"), ("ruleId", .text rule.ruleId)] ++ user.userInfo))
    match engineAwardBadge s.db (run.draw s.tried) user.userId badge.badgeId metadata with
    | .ok db =>
      { db, tried := s.tried + 1,
        results := s.results ++ [⟨badge.badgeId, badge.slug, user.userId, true, none⟩] }
    | .error message =>
      { s with
        tried := s.tried + 1
        results := s.results ++ [⟨badge.badgeId, badge.slug, user.userId, false, some message⟩] }

/-- The loop over the rules; it ends early, with `false`, when a query fails. -/
def evaluateRules (badge : Badge) :
    List ScheduledRule → Nat → EvaluationState → Bool × EvaluationState
  | [], _, s => (true, s)
  | rule :: rules, offset, s =>
    match c.resolveEligibleUsers rule with
    | none => (false, s)
    | some users =>
      -- `users.length + 1` pages are more than there are
      let next := scan (evaluateUser run badge rule) users run.batchSize (users.length + 1) offset s
      evaluateRules badge rules next.1 next.2

def evaluateBadge (badge : Badge) (db : AchievementDb) (tried : Nat) : Bool × EvaluationState :=
  evaluateRules c run badge (c.getBadgeRules badge.badgeId) 0 ⟨db, tried, []⟩

structure BatchEvaluation where
  db : AchievementDb
  tried : Nat
  awardedBadges : Nat
  errors : Nat
  results : List EvaluationResult

/-- The body of the loop over the badges. The results of a badge that throws are lost. -/
def evaluateNextBadge (s : BatchEvaluation) (badge : Badge) : BatchEvaluation :=
  match evaluateBadge c run badge s.db s.tried with
  | (true, t) =>
    { db := t.db, tried := t.tried, awardedBadges := s.awardedBadges + t.results.countP (·.awarded),
      errors := s.errors, results := s.results ++ t.results }
  | (false, t) => { s with db := t.db, tried := t.tried, errors := s.errors + 1 }

end Evaluation

def evaluateDeferredBadges (p : Platform) (run : EvaluationRun p.db.userBadges) : BatchEvaluation :=
  (p.getDeferredBadges p.db run.now).foldl (evaluateNextBadge p.toCatalogue run)
    ⟨p.db, 0, 0, 0, []⟩

/-! ## What should hold -/

/-- What a rule asks of a user, by its type; of the other types the job knows nothing. -/
def Catalogue.Satisfies (c : Catalogue) (rule : ScheduledRule) (user : User) : Prop :=
  user.deletedAt = none ∧
    match rule.ruleType with
    | .streak => rule.config.threshold.getD 7 ≤ user.currentStreak
    | .rank | .rankPeriod =>
      ∃ rank, c.rankOf user.userId (rule.period.getD "all") = some rank ∧
        (rank : Rat) ≤ rule.config.threshold.getD 100
    | .xpTotal =>
      ∃ ranking, c.rankings.find? user.userId = some ranking ∧
        rule.config.threshold.getD 1000 ≤ ranking.allTimeXp
    | .count => rule.config.threshold.getD 1 ≤ c.completedQuizzes user.userId
    | _ => False

def Catalogue.IsEligible (c : Catalogue) (badgeId : String) (user : User) : Prop :=
  ∃ rule ∈ c.getBadgeRules badgeId, c.Satisfies rule user

/-- Who satisfies a rule of a deferred badge has it afterwards. -/
def EligibleAwarded (p : Platform) (run : EvaluationRun p.db.userBadges) : Prop :=
  ∀ badge ∈ p.getDeferredBadges p.db run.now, ∀ userId,
    hasBadge (evaluateDeferredBadges p run).db userId badge.badgeId = true ↔
      hasBadge p.db userId badge.badgeId = true ∨
        ∃ user ∈ p.users.rows, user.userId = userId ∧ p.IsEligible badge.badgeId user

/-- The count is that of the new rows. -/
def AwardsCounted (p : Platform) (run : EvaluationRun p.db.userBadges) : Prop :=
  p.db.userBadges.rows.length + (evaluateDeferredBadges p run).awardedBadges =
    (evaluateDeferredBadges p run).db.userBadges.rows.length

namespace Catalogue

variable (c : Catalogue)

def asked : List ScheduledRule → List (List EligibleUser)
  | [] => []
  | rule :: rules =>
    match c.resolveEligibleUsers rule with
    | none => []
    | some users => users :: asked rules

def reachedFrom (batchSize offset : Nat) (rules : List ScheduledRule) : List String :=
  (reached batchSize offset (c.asked rules)).map (·.userId)

def reachedFor (batchSize : Nat) (badgeId : String) : List String :=
  c.reachedFrom batchSize 0 (c.getBadgeRules badgeId)

def Answered (rules : List ScheduledRule) : Prop :=
  ∀ rule ∈ rules, (c.resolveEligibleUsers rule).isSome = true

end Catalogue

/-- Where all of it holds: of those who do not hold the badge, the eligible and no others stand in a
query behind its offset; and a badge with a query that fails has nobody to award before. -/
structure Harmless (p : Platform) (batchSize : Nat) (now : Int) : Prop where
  found : ∀ badge ∈ p.getDeferredBadges p.db now, ∀ user ∈ p.users.rows,
    hasBadge p.db user.userId badge.badgeId = false →
      (user.userId ∈ p.reachedFor batchSize badge.badgeId ↔ p.IsEligible badge.badgeId user)
  answered : ∀ badge ∈ p.getDeferredBadges p.db now,
    ¬ p.Answered (p.getBadgeRules badge.badgeId) →
      ∀ userId ∈ p.reachedFor batchSize badge.badgeId, hasBadge p.db userId badge.badgeId = true

/-! ## One award -/

section Award

variable {p : Platform} {run : EvaluationRun p.db.userBadges}

theorem hasBadge_append {db db' : AchievementDb} {row : UserBadge} {userId badgeId : String}
    (hrows : db'.userBadges.rows = db.userBadges.rows ++ [row])
    (hof : row.isOf userId badgeId = true) (hactive : row.revokedAt = none) (u b : String) :
    hasBadge db' u b = true ↔ hasBadge db u b = true ∨ b = badgeId ∧ u = userId := by
  rw [hasBadge_iff, hasBadge_iff, hrows]
  constructor
  · rintro ⟨row', hrow', hof', hactive'⟩
    rcases List.mem_append.mp hrow' with hold | hnew
    · exact .inl ⟨row', hold, hof', hactive'⟩
    · obtain rfl := mem_singleton.mp hnew
      have hpair := isOf_unique hof' hof
      exact .inr ⟨(Prod.mk.inj hpair).2, (Prod.mk.inj hpair).1⟩
  · rintro (⟨row', hrow', hof', hactive'⟩ | ⟨rfl, rfl⟩)
    · exact ⟨row', List.mem_append_left _ hrow', hof', hactive'⟩
    · exact ⟨row, List.mem_append_right _ (List.mem_singleton_self row), hof, hactive⟩

structure Ready (p : Platform) (run : EvaluationRun p.db.userBadges) (db : AchievementDb)
    (tried : Nat) : Prop where
  users : db.users = p.db.users
  badges : db.badges = p.db.badges
  fresh : ∀ n, tried ≤ n → db.userBadges.find? (run.draw n).drawn.userBadgeId = none

theorem engineAwardBadge_spec {db : AchievementDb} (draw : AwardDraw) {badge : Badge}
    {userId : String} (metadata : JsonValue) (hnone : draw.outage = none)
    (hfresh : db.userBadges.find? draw.drawn.userBadgeId = none)
    (hbadge : db.badges.find? badge.badgeId = some badge) (huser : userId ∈ db.users)
    (hheld : hasBadge db userId badge.badgeId = false) :
    ∃ db' row, engineAwardBadge db draw userId badge.badgeId metadata = .ok db' ∧
      db'.users = db.users ∧ db'.badges = db.badges ∧
      db'.userBadges.rows = db.userBadges.rows ++ [row] ∧
      row.userBadgeId = draw.drawn.userBadgeId ∧ row.isOf userId badge.badgeId = true ∧
      row.revokedAt = none := by
  let params : AwardParams :=
    ⟨userId, badge.badgeId, some badge.version, none, none, some metadata, none⟩
  obtain ⟨userBadges, hinsert⟩ := (insert?_award_iff draw.nowIso hfresh params).mpr hheld
  have haward : awardBadge db draw.drawn draw.nowIso params =
      .ok (some (params.row draw.drawn draw.nowIso), { db with
        userBadges
        outbox := insertEvent db.outbox ((AchievementWrite.awarded userId badge.badgeId
          (some metadata)).newEvent draw.drawn draw.nowIso) }) := by
    unfold awardBadge
    rw [hinsert]
    exact if_pos ⟨by rw [show params.badgeId = badge.badgeId from rfl, hbadge]; rfl, huser⟩
  have hrun : engineAwardBadge db draw userId badge.badgeId metadata =
      .ok { db with
        userBadges
        outbox := insertEvent db.outbox ((AchievementWrite.awarded userId badge.badgeId
          (some metadata)).newEvent draw.drawn draw.nowIso) } := by
    unfold engineAwardBadge
    rw [hbadge, hnone]
    simp only
    rw [haward]
  exact ⟨_, params.row draw.drawn draw.nowIso, hrun, rfl, rfl,
    rows_of_insert? hinsert, rfl, UserBadge.isOf_iff.mpr ⟨rfl, rfl⟩, rfl⟩

end Award

/-! ## What the evaluation does -/

/-- Between two moments of the evaluation of a badge these users were visited: they hold the badge
now, nobody else has been given one, and every result is a row. -/
structure Evaluates (p : Platform) (run : EvaluationRun p.db.userBadges) (badgeId : String)
    (visited : List String) (s t : EvaluationState) : Prop where
  ready : Ready p run t.db t.tried
  held : ∀ u b, hasBadge t.db u b = true ↔
    hasBadge s.db u b = true ∨ b = badgeId ∧ u ∈ visited
  counted : ∃ results, t.results = s.results ++ results ∧ (∀ r ∈ results, r.awarded = true) ∧
    t.db.userBadges.rows.length = s.db.userBadges.rows.length + results.length
  idle : t.db.userBadges.rows.length = s.db.userBadges.rows.length ↔
    ∀ u ∈ visited, hasBadge s.db u badgeId = true

variable {users : List EligibleUser} {user : User} {rules : List ScheduledRule} {offset : Nat}
  {n : Int}

section Evaluates

variable {p : Platform} {run : EvaluationRun p.db.userBadges} {badgeId : String}
  {visited visited' : List String} {s t r : EvaluationState}

theorem Evaluates.refl (h : Ready p run s.db s.tried) : Evaluates p run badgeId [] s s where
  ready := h
  held u b := by simp
  counted := ⟨[], (List.append_nil _).symm, fun _ hr => absurd hr List.not_mem_nil, rfl⟩
  idle := ⟨fun _ _ hu => absurd hu List.not_mem_nil, fun _ => rfl⟩

theorem Evaluates.trans (h : Evaluates p run badgeId visited s t)
    (h' : Evaluates p run badgeId visited' t r) :
    Evaluates p run badgeId (visited ++ visited') s r where
  ready := h'.ready
  held u b := by
    rw [h'.held, h.held, List.mem_append]
    tauto
  counted := by
    obtain ⟨results, hresults, hawarded, hlength⟩ := h.counted
    obtain ⟨results', hresults', hawarded', hlength'⟩ := h'.counted
    refine ⟨results ++ results', ?_, ?_, ?_⟩
    · rw [hresults', hresults, List.append_assoc]
    · intro x hx
      exact (List.mem_append.mp hx).elim (hawarded x) (hawarded' x)
    · rw [hlength', hlength, List.length_append, Nat.add_assoc]
  idle := by
    obtain ⟨results, -, -, hlength⟩ := h.counted
    obtain ⟨results', -, -, hlength'⟩ := h'.counted
    constructor
    · intro heq u hu
      have hfirst := h.idle.mp (by omega)
      rcases List.mem_append.mp hu with hmem | hmem
      · exact hfirst u hmem
      · rcases (h.held u badgeId).mp (h'.idle.mp (by omega) u hmem) with hold | ⟨-, hvisited⟩
        · exact hold
        · exact hfirst u hvisited
    · intro hheld
      have hfirst := h.idle.mpr fun u hu => hheld u (List.mem_append_left _ hu)
      have hsecond := h'.idle.mpr fun u hu =>
        (h.held u badgeId).mpr (.inl (hheld u (List.mem_append_right _ hu)))
      omega

/-- **The step**: one user. -/
theorem evaluateUser_spec (hnone : ∀ n, (run.draw n).outage = none)
    (h : Ready p run s.db s.tried) {badge : Badge}
    (hbadge : p.db.badges.find? badge.badgeId = some badge) (rule : ScheduledRule)
    {user : EligibleUser} (huser : user.userId ∈ p.db.users) :
    Evaluates p run badge.badgeId [user.userId] s (evaluateUser run badge rule s user) := by
  unfold evaluateUser
  split
  · next hheld =>
    refine ⟨h, ?_, ⟨[], (List.append_nil _).symm, fun _ hr => absurd hr List.not_mem_nil, rfl⟩, ?_⟩
    · intro u b
      refine ⟨.inl, ?_⟩
      rintro (hold | ⟨rfl, hu⟩)
      · exact hold
      · exact (mem_singleton.mp hu) ▸ hheld
    · exact ⟨fun _ u hu => (mem_singleton.mp hu) ▸ hheld, fun _ => rfl⟩
  · next hheld =>
    obtain ⟨db, row, haward, husers, hbadges, hrows, hkey, hof, hactive⟩ :=
      engineAwardBadge_spec (run.draw s.tried) (.raw (run.stringify
        ([("evaluationType", .text "scheduled"), ("ruleId", .text rule.ruleId)] ++ user.userInfo)))
        (hnone s.tried) (h.fresh _ (Nat.le_refl _)) (h.badges ▸ hbadge) (h.users ▸ huser)
        (Bool.eq_false_iff.mpr hheld)
    simp only [haward]
    have hlength : db.userBadges.rows.length = s.db.userBadges.rows.length + 1 := by
      rw [hrows, List.length_append, List.length_singleton]
    refine ⟨⟨husers.trans h.users, hbadges.trans h.badges, ?_⟩, ?_, ⟨_, rfl, ?_, hlength⟩, ?_⟩
    · intro n hn
      rw [find?_eq_none_iff, hrows]
      intro r hr
      rcases List.mem_append.mp hr with hold | hnew
      · exact find?_eq_none_iff.mp (h.fresh n (Nat.le_of_succ_le hn)) r hold
      · rw [mem_singleton.mp hnew, hkey]
        intro heq
        have hsame : s.tried = n := run.distinct heq
        exact absurd hn (by rw [hsame]; exact Nat.not_succ_le_self n)
    · intro u b
      rw [mem_singleton]
      exact hasBadge_append hrows hof hactive u b
    · intro r hr
      rw [mem_singleton.mp hr]
    · constructor
      · intro heq
        exact absurd (hlength.symm.trans heq) (Nat.succ_ne_self _)
      · intro hall
        exact absurd (hall user.userId (List.mem_singleton_self _)) hheld

theorem evaluateUsers_spec (hnone : ∀ n, (run.draw n).outage = none) (h : Ready p run s.db s.tried)
    {badge : Badge} (hbadge : p.db.badges.find? badge.badgeId = some badge) (rule : ScheduledRule)
    (husers : ∀ user ∈ users, user.userId ∈ p.db.users) :
    Evaluates p run badge.badgeId (users.map (·.userId)) s
      (users.foldl (evaluateUser run badge rule) s) := by
  induction users generalizing s with
  | nil => exact .refl h
  | cons user users ih =>
    have hfirst := evaluateUser_spec hnone h hbadge rule (husers user List.mem_cons_self)
    exact hfirst.trans (ih hfirst.ready fun u hu => husers u (List.mem_cons_of_mem _ hu))

end Evaluates

/-! ## The loop over the rules -/

section Rules

variable {p : Platform} {run : EvaluationRun p.db.userBadges}

theorem mem_find {c : Catalogue} {query : EligibilityQuery} (h : user ∈ c.find query) :
    user ∈ c.users.rows := by
  cases query with
  | streak | rank => exact (c.order_perm _).mem_iff.mp (List.mem_of_mem_filter h)

theorem mem_of_resolveEligibleUsers {c : Catalogue} {rule : ScheduledRule}
    (h : c.resolveEligibleUsers rule = some users) {user : EligibleUser} (huser : user ∈ users) :
    ∃ u ∈ c.users.rows, u.userId = user.userId := by
  unfold resolveEligibleUsers at h
  split at h
  · obtain ⟨_, -, rfl⟩ := Option.map_eq_some_iff.mp h
    obtain ⟨u, hu, rfl⟩ := List.mem_map.mp huser
    exact ⟨u, mem_find hu, rfl⟩
  · obtain ⟨_, -, rfl⟩ := Option.map_eq_some_iff.mp h
    obtain ⟨u, hu, rfl⟩ := List.mem_map.mp huser
    exact ⟨u, mem_find hu, rfl⟩
  · obtain ⟨_, -, rfl⟩ := Option.map_eq_some_iff.mp h
    obtain ⟨u, hu, rfl⟩ := List.mem_map.mp huser
    exact ⟨u, mem_find hu, rfl⟩
  · obtain rfl := Option.some.inj h
    obtain ⟨u, hu, rfl⟩ := List.mem_map.mp huser
    exact ⟨u, mem_find hu, rfl⟩
  · obtain rfl := Option.some.inj h
    obtain ⟨u, hu, rfl⟩ := List.mem_map.mp huser
    exact ⟨u, mem_find hu, rfl⟩
  · obtain rfl := Option.some.inj h
    cases huser

theorem exists_of_mem_asked {c : Catalogue} (h : users ∈ c.asked rules) :
    ∃ rule ∈ rules, c.resolveEligibleUsers rule = some users := by
  induction rules with
  | nil => cases h
  | cons rule rules ih =>
    unfold asked at h
    split at h
    · cases h
    · next first hfirst =>
      rcases List.mem_cons.mp h with rfl | hlater
      · exact ⟨rule, List.mem_cons_self, hfirst⟩
      · obtain ⟨rule', hrule', heq⟩ := ih hlater
        exact ⟨rule', List.mem_cons_of_mem _ hrule', heq⟩

theorem mem_users_of_reachedFrom {c : Catalogue} {batchSize : Nat} {userId : String}
    (h : userId ∈ c.reachedFrom batchSize offset rules) :
    ∃ user ∈ c.users.rows, user.userId = userId := by
  obtain ⟨user, huser, rfl⟩ := List.mem_map.mp h
  obtain ⟨users, husers, hmem⟩ := exists_of_mem_reached huser
  obtain ⟨rule, -, heq⟩ := exists_of_mem_asked husers
  exact mem_of_resolveEligibleUsers heq hmem

theorem reachedFrom_cons {c : Catalogue} {batchSize : Nat} {rule : ScheduledRule}
    (h : c.resolveEligibleUsers rule = some users) :
    c.reachedFrom batchSize offset (rule :: rules) =
      (users.drop offset).map (·.userId) ++
        c.reachedFrom batchSize (offsetAfter batchSize users.length offset) rules := by
  unfold reachedFrom
  rw [asked, h, reached, List.map_append]

theorem reachedFrom_of_none {c : Catalogue} {batchSize : Nat} {rule : ScheduledRule}
    (h : c.resolveEligibleUsers rule = none) :
    c.reachedFrom batchSize offset (rule :: rules) = [] := by
  unfold reachedFrom
  rw [asked, h]
  rfl

theorem answered_cons {c : Catalogue} (rule : ScheduledRule) (rules : List ScheduledRule) :
    c.Answered (rule :: rules) ↔
      (c.resolveEligibleUsers rule).isSome = true ∧ c.Answered rules := List.forall_mem_cons

/-- **The loop over the rules** visits the users behind the offset of each rule, and runs to its end
where no query fails. -/
theorem evaluateRules_spec (hbatch : 0 < run.batchSize) (hnone : ∀ n, (run.draw n).outage = none)
    {badge : Badge} (hbadge : p.db.badges.find? badge.badgeId = some badge)
    (rules : List ScheduledRule) (offset : Nat) {s : EvaluationState}
    (h : Ready p run s.db s.tried) :
    Evaluates p run badge.badgeId (p.reachedFrom run.batchSize offset rules) s
        (evaluateRules p.toCatalogue run badge rules offset s).2 ∧
      ((evaluateRules p.toCatalogue run badge rules offset s).1 = true ↔ p.Answered rules) := by
  induction rules generalizing offset s with
  | nil => exact ⟨.refl h, fun _ _ hr => absurd hr List.not_mem_nil, fun _ => rfl⟩
  | cons rule rules ih =>
    unfold evaluateRules
    rcases Option.eq_none_or_eq_some (p.resolveEligibleUsers rule) with hfails | ⟨users, husers⟩
    · rw [hfails, reachedFrom_of_none hfails]
      refine ⟨.refl h, fun hfalse => absurd hfalse Bool.false_ne_true, fun hall => ?_⟩
      have hsome := hall rule List.mem_cons_self
      rw [hfails] at hsome
      exact absurd hsome Bool.false_ne_true
    · rw [husers, reachedFrom_cons husers]
      simp only
      rw [scan_eq hbatch (Nat.lt_succ_of_le (Nat.sub_le _ _))]
      have hmem : ∀ user ∈ users.drop offset, user.userId ∈ p.db.users := by
        intro user huser
        obtain ⟨u, hu, heq⟩ := mem_of_resolveEligibleUsers husers (List.mem_of_mem_drop huser)
        rw [p.users_eq, ← heq]
        exact List.mem_map_of_mem hu
      have hpage := evaluateUsers_spec hnone h hbadge rule hmem
      obtain ⟨hrest, hanswered⟩ := ih (offsetAfter run.batchSize users.length offset) hpage.ready
      refine ⟨hpage.trans hrest, hanswered.trans ?_⟩
      have hfirst : (p.resolveEligibleUsers rule).isSome = true := by rw [husers]; rfl
      exact ((answered_cons rule rules).trans (and_iff_right hfirst)).symm

end Rules

/-! ## The loop over the badges -/

structure EvaluatesAll (p : Platform) (run : EvaluationRun p.db.userBadges) (badges : List Badge)
    (s t : BatchEvaluation) : Prop where
  ready : Ready p run t.db t.tried
  held : ∀ u b, hasBadge t.db u b = true ↔ hasBadge s.db u b = true ∨
    ∃ badge ∈ badges, badge.badgeId = b ∧ u ∈ p.reachedFor run.batchSize badge.badgeId
  le : s.db.userBadges.rows.length + t.awardedBadges ≤
    s.awardedBadges + t.db.userBadges.rows.length
  counted : s.db.userBadges.rows.length + t.awardedBadges =
      s.awardedBadges + t.db.userBadges.rows.length ↔
    ∀ badge ∈ badges, ¬ p.Answered (p.getBadgeRules badge.badgeId) →
      ∀ u ∈ p.reachedFor run.batchSize badge.badgeId, hasBadge s.db u badge.badgeId = true

section Badges

variable {p : Platform} {run : EvaluationRun p.db.userBadges}

theorem evaluateNextBadge_spec (hbatch : 0 < run.batchSize)
    (hnone : ∀ n, (run.draw n).outage = none) {badge : Badge}
    (hbadge : p.db.badges.find? badge.badgeId = some badge) {s : BatchEvaluation}
    (h : Ready p run s.db s.tried) :
    EvaluatesAll p run [badge] s (evaluateNextBadge p.toCatalogue run s badge) := by
  obtain ⟨hspec, hanswered⟩ := evaluateRules_spec hbatch hnone hbadge
    (p.getBadgeRules badge.badgeId) 0 (s := ⟨s.db, s.tried, []⟩) h
  obtain ⟨results, hresults, hawarded, hlength⟩ := hspec.counted
  have hheld : ∀ u b, hasBadge (evaluateBadge p.toCatalogue run badge s.db s.tried).2.db u b = true ↔
      hasBadge s.db u b = true ∨ ∃ badge' ∈ [badge], badge'.badgeId = b ∧
        u ∈ p.reachedFor run.batchSize badge'.badgeId := by
    intro u b
    refine (hspec.held u b).trans (or_congr_right ?_)
    simp only [mem_singleton, exists_eq_left]
    exact and_congr_left fun _ => eq_comm
  have hcount : results.countP (·.awarded) = results.length :=
    List.countP_eq_length.mpr hawarded
  unfold evaluateNextBadge
  cases hrun : evaluateBadge p.toCatalogue run badge s.db s.tried with
  | mk answered t =>
    have hrun' : evaluateRules p.toCatalogue run badge (p.getBadgeRules badge.badgeId) 0
        ⟨s.db, s.tried, []⟩ = (answered, t) := hrun
    rw [hrun'] at hspec hanswered hresults hlength
    rw [hrun] at hheld
    cases answered with
    | true =>
      have hall := hanswered.mp rfl
      simp only at hresults hlength ⊢
      rw [List.nil_append] at hresults
      have heq : s.db.userBadges.rows.length + (s.awardedBadges + results.countP (·.awarded)) =
          s.awardedBadges + t.db.userBadges.rows.length := by omega
      rw [hresults]
      refine ⟨hspec.ready, hheld, Nat.le_of_eq heq, iff_of_true heq ?_⟩
      intro badge' hbadge' hfails
      obtain rfl := mem_singleton.mp hbadge'
      exact absurd hall hfails
    | false =>
      have hfails : ¬ p.Answered (p.getBadgeRules badge.badgeId) :=
        fun hall => absurd (hanswered.mpr hall) Bool.false_ne_true
      simp only at hlength ⊢
      refine ⟨hspec.ready, hheld, by simp only; omega, ?_⟩
      have hidle := hspec.idle
      simp only at hidle
      rw [List.forall_mem_singleton]
      constructor
      · intro heq _
        exact hidle.mp (by simp only at heq; omega)
      · intro hall
        have hsame := hidle.mpr (hall hfails)
        simp only
        omega

/-- **The run**: the badges are evaluated one after the other, and none of them touches another. -/
theorem evaluateNextBadges_spec (hbatch : 0 < run.batchSize)
    (hnone : ∀ n, (run.draw n).outage = none) {badges : List Badge}
    (hbadges : ∀ badge ∈ badges, p.db.badges.find? badge.badgeId = some badge)
    (hnodup : (badges.map (·.badgeId)).Nodup) {s : BatchEvaluation}
    (h : Ready p run s.db s.tried) :
    EvaluatesAll p run badges s (badges.foldl (evaluateNextBadge p.toCatalogue run) s) := by
  induction badges generalizing s with
  | nil =>
    refine ⟨h, fun u b => by simp, Nat.le_of_eq (Nat.add_comm _ _), ?_⟩
    exact iff_of_true (Nat.add_comm _ _) fun _ hb => absurd hb List.not_mem_nil
  | cons badge badges ih =>
    obtain ⟨hnotin, hnodup⟩ := List.nodup_cons.mp hnodup
    have hfirst := evaluateNextBadge_spec hbatch hnone (hbadges badge List.mem_cons_self) h
    have hrest := ih (fun b hb => hbadges b (List.mem_cons_of_mem _ hb)) hnodup hfirst.ready
    rw [List.foldl_cons]
    -- the first badge makes nobody a holder of one of the others
    have hother : ∀ other ∈ badges, ∀ u,
        hasBadge (evaluateNextBadge p.toCatalogue run s badge).db u other.badgeId = true ↔
          hasBadge s.db u other.badgeId = true := by
      intro other hother u
      rw [hfirst.held u other.badgeId]
      refine or_iff_left ?_
      rintro ⟨b, hb, heq, -⟩
      rw [mem_singleton.mp hb] at heq
      exact hnotin (List.mem_map.mpr ⟨other, hother, heq.symm⟩)
    refine ⟨hrest.ready, ?_, ?_, ?_⟩
    · intro u b
      have hone := hfirst.held u b
      simp only [mem_singleton, exists_eq_left] at hone
      rw [hrest.held, hone, or_assoc]
      simp only [List.mem_cons, exists_eq_or_imp]
    · have hle := hfirst.le
      have hle' := hrest.le
      omega
    · rw [List.forall_mem_cons]
      have hle := hfirst.le
      have hle' := hrest.le
      have hfirst' := hfirst.counted
      rw [List.forall_mem_singleton] at hfirst'
      -- so that they hold theirs before it exactly if they do after
      have hlater : (∀ other ∈ badges, ¬ p.Answered (p.getBadgeRules other.badgeId) →
            ∀ u ∈ p.reachedFor run.batchSize other.badgeId,
              hasBadge (evaluateNextBadge p.toCatalogue run s badge).db u other.badgeId = true) ↔
          ∀ other ∈ badges, ¬ p.Answered (p.getBadgeRules other.badgeId) →
            ∀ u ∈ p.reachedFor run.batchSize other.badgeId, hasBadge s.db u other.badgeId = true :=
        forall₂_congr fun other ho => imp_congr_right fun _ =>
          forall₂_congr fun u _ => hother other ho u
      rw [← hfirst', ← hlater, ← hrest.counted]
      omega

end Badges

/-! ## The job -/

section Job

variable (p : Platform) (run : EvaluationRun p.db.userBadges)

theorem deferred_find? {badge : Badge} {now : Int}
    (h : badge ∈ p.getDeferredBadges p.db now) : p.db.badges.find? badge.badgeId = some badge :=
  Table.find?_of_mem (List.mem_of_mem_filter (List.mem_of_mem_filter h))

section

variable (hbatch : 0 < run.batchSize)
include hbatch

section

variable (hnone : ∀ n, (run.draw n).outage = none)
include hnone

theorem evaluateDeferredBadges_spec :
    EvaluatesAll p run (p.getDeferredBadges p.db run.now) ⟨p.db, 0, 0, 0, []⟩
      (evaluateDeferredBadges p run) := by
  refine evaluateNextBadges_spec hbatch hnone (fun badge h => deferred_find? p h) ?_
    ⟨rfl, rfl, fun n _ => run.new n⟩
  have hsub : (p.getDeferredBadges p.db run.now).Sublist p.db.badges.rows :=
    List.filter_sublist.trans List.filter_sublist
  exact p.db.badges.nodup.sublist (hsub.map _)

theorem hasBadge_evaluateDeferredBadges {badge : Badge}
    (hbadge : badge ∈ p.getDeferredBadges p.db run.now) (userId : String) :
    hasBadge (evaluateDeferredBadges p run).db userId badge.badgeId = true ↔
      hasBadge p.db userId badge.badgeId = true ∨
        userId ∈ p.reachedFor run.batchSize badge.badgeId := by
  rw [(evaluateDeferredBadges_spec p run hbatch hnone).held]
  refine or_congr_right ⟨?_, fun h => ⟨badge, hbadge, rfl, h⟩⟩
  rintro ⟨other, -, heq, h⟩
  exact heq ▸ h

theorem eligibleAwarded_iff :
    EligibleAwarded p run ↔
      ∀ badge ∈ p.getDeferredBadges p.db run.now, ∀ user ∈ p.users.rows,
        hasBadge p.db user.userId badge.badgeId = false →
          (user.userId ∈ p.reachedFor run.batchSize badge.badgeId ↔
            p.IsEligible badge.badgeId user) := by
  refine forall₂_congr fun badge hbadge => ?_
  have hafter := hasBadge_evaluateDeferredBadges p run hbatch hnone hbadge
  constructor
  · intro h user huser hheld
    have hiff := (hafter user.userId).symm.trans (h user.userId)
    simp only [hheld, Bool.false_eq_true, false_or] at hiff
    refine hiff.trans ⟨?_, fun heligible => ⟨user, huser, rfl, heligible⟩⟩
    rintro ⟨other, hother, heq, heligible⟩
    rwa [← Table.eq_of_key_eq hother huser heq]
  · intro h userId
    rw [hafter userId]
    cases hheld : hasBadge p.db userId badge.badgeId with
    | true => exact iff_of_true (.inl rfl) (.inl rfl)
    | false =>
      refine or_congr_right ⟨?_, ?_⟩
      · intro hreached
        obtain ⟨user, huser, rfl⟩ := mem_users_of_reachedFrom hreached
        exact ⟨user, huser, rfl, (h user huser hheld).mp hreached⟩
      · rintro ⟨user, huser, rfl, heligible⟩
        exact (h user huser hheld).mpr heligible

theorem awardsCounted_iff :
    AwardsCounted p run ↔
      ∀ badge ∈ p.getDeferredBadges p.db run.now, ¬ p.Answered (p.getBadgeRules badge.badgeId) →
        ∀ userId ∈ p.reachedFor run.batchSize badge.badgeId,
          hasBadge p.db userId badge.badgeId = true := by
  have hcounted := (evaluateDeferredBadges_spec p run hbatch hnone).counted
  simp only [Nat.zero_add] at hcounted
  exact hcounted

end

end

/-- **Scheduled evaluation.** Where no award fails, the job awards exactly the eligible, and counts
what it awards, if and only if the queries find the eligible behind their offsets. -/
theorem evaluation_iff (hbatch : 0 < run.batchSize) (hnone : ∀ n, (run.draw n).outage = none) :
    EligibleAwarded p run ∧ AwardsCounted p run ↔ Harmless p run.batchSize run.now := by
  rw [eligibleAwarded_iff p run hbatch hnone, awardsCounted_iff p run hbatch hnone]
  exact ⟨fun h => ⟨h.1, h.2⟩, fun h => ⟨h.found, h.answered⟩⟩

end Job

/-! ## One rule -/

section OneRule

variable {c : Catalogue}

theorem integerParameter_eq_some {threshold : Rat} (h : integerParameter threshold = some n) :
    threshold = n := by
  unfold integerParameter at h
  split at h
  · next hint =>
    rw [← Option.some.inj h]
    exact ((Rat.den_eq_one_iff threshold).mp hint.1).symm
  · cases h

def ScheduledRule.Matched (rule : ScheduledRule) : Prop :=
  match rule.ruleType with
  | .streak => ∃ n : Int, integerParameter (rule.config.threshold.getD 7) = some n ∧ 0 < n
  | .rank | .rankPeriod => ∃ n : Int, integerParameter (rule.config.threshold.getD 100) = some n
  | _ => False

theorem userId_mem_find {query : EligibilityQuery} (huser : user ∈ c.users.rows) :
    user.userId ∈ (c.find query).map (·.userId) ↔ user ∈ c.find query := by
  refine ⟨fun h => ?_, List.mem_map_of_mem⟩
  obtain ⟨found, hfound, heq⟩ := List.mem_map.mp h
  rwa [← Table.eq_of_key_eq (mem_find hfound) huser heq]

theorem mem_find_streak (huser : user ∈ c.users.rows) (hn : 0 < n) :
    user ∈ c.find (.streak n) ↔ user.deletedAt = none ∧ n ≤ user.currentStreak := by
  unfold find
  rw [List.mem_filter, (c.order_perm _).mem_iff]
  simp only [Bool.and_eq_true, decide_eq_true_eq, Option.isNone_iff_eq_none]
  constructor
  · rintro ⟨-, ⟨hle, -⟩, hdeleted⟩
    exact ⟨hdeleted, hle⟩
  · rintro ⟨hdeleted, hle⟩
    exact ⟨huser, ⟨hle, Int.lt_of_lt_of_le hn hle⟩, hdeleted⟩

theorem mem_find_rank {period : String} (huser : user ∈ c.users.rows) :
    user ∈ c.find (.rank n period) ↔
      user.deletedAt = none ∧ ∃ rank, c.rankOf user.userId period = some rank ∧ rank ≤ n := by
  unfold find
  rw [List.mem_filter, (c.order_perm _).mem_iff]
  simp only [Bool.and_eq_true, Option.any_eq_true, decide_eq_true_eq, Option.isNone_iff_eq_none]
  exact ⟨fun h => ⟨h.2.2, h.2.1⟩, fun h => ⟨huser, h.2, h.1⟩⟩

theorem ScheduledRule.Matched.resolve {rule : ScheduledRule} (h : rule.Matched) :
    ∃ users, c.resolveEligibleUsers rule = some users ∧ ∀ user ∈ c.users.rows,
      (user.userId ∈ users.map (·.userId) ↔ c.Satisfies rule user) := by
  unfold Matched at h
  unfold Catalogue.resolveEligibleUsers Catalogue.Satisfies
  cases htype : rule.ruleType
  case streak =>
    rw [htype] at h
    obtain ⟨n, hn, hpos⟩ := h
    simp only [hn, Option.map_some]
    refine ⟨_, rfl, fun user huser => ?_⟩
    rw [List.map_map]
    refine (userId_mem_find huser).trans ((mem_find_streak huser hpos).trans ?_)
    simp only [integerParameter_eq_some hn, Rat.intCast_le_intCast]
  case rank | rankPeriod =>
    rw [htype] at h
    obtain ⟨n, hn⟩ := h
    simp only [hn, Option.map_some]
    refine ⟨_, rfl, fun user huser => ?_⟩
    rw [List.map_map]
    refine (userId_mem_find huser).trans ((mem_find_rank huser).trans ?_)
    simp only [integerParameter_eq_some hn, Rat.intCast_le_intCast]
  all_goals
    rw [htype] at h
    cases h

/-- **One rule to a badge**, about streaks or ranks and with a threshold that is an `integer`, is
harmless. -/
theorem Harmless.of_single {p : Platform} {batchSize : Nat} {now : Int}
    (h : ∀ badge ∈ p.getDeferredBadges p.db now, ∃ rule : ScheduledRule,
      p.getBadgeRules badge.badgeId = [rule] ∧ rule.Matched) : Harmless p batchSize now := by
  constructor
  · intro badge hbadge user huser _
    obtain ⟨rule, hrule, hmatched⟩ := h badge hbadge
    obtain ⟨users, husers, hiff⟩ := hmatched.resolve (c := p.toCatalogue)
    have hreached : p.reachedFor batchSize badge.badgeId = users.map (·.userId) := by
      unfold reachedFor
      rw [hrule, reachedFrom_cons husers, List.drop_zero]
      exact List.append_nil _
    unfold IsEligible
    rw [hreached, hiff user huser, hrule]
    exact ⟨fun hs => ⟨rule, List.mem_singleton_self _, hs⟩,
      fun ⟨_, hmem, hs⟩ => (mem_singleton.mp hmem) ▸ hs⟩
  · intro badge hbadge hfails
    obtain ⟨rule, hrule, hmatched⟩ := h badge hbadge
    obtain ⟨users, husers, -⟩ := hmatched.resolve (c := p.toCatalogue)
    refine absurd ?_ hfails
    intro other hother
    rw [hrule] at hother
    rw [mem_singleton.mp hother, husers]
    rfl

end OneRule

/-! ## Two users -/

def unaryKey (n : Nat) : String := String.ofList (List.replicate n 'k')

theorem unaryKey_injective : Function.Injective unaryKey := by
  intro n m h
  have hlength := congrArg String.length h
  simpa [unaryKey, String.length_ofList] using hlength

/-- One has been active today, the other has the XP and the first rank; the badge has these rules. -/
def twoUsers (rules : Table String ScheduledRule (·.ruleId)) : Platform where
  users := ⟨[⟨"active", 3, none⟩, ⟨"rich", 0, none⟩], by decide⟩
  rankings := ⟨[⟨"active", 30, some 2, none, none, none⟩, ⟨"rich", 9000, some 1, none, none, none⟩],
    by decide⟩
  completedQuizzes _ := 0
  rules := rules
  evaluationMode _ := .deferred
  order _ := [⟨"active", 3, none⟩, ⟨"rich", 0, none⟩]
  order_perm _ := .refl _
  db := ⟨["active", "rich"],
    ⟨[⟨"b", "b", "type", "category", "B", true, false, "1.0.0", none, none⟩], by decide⟩,
    empty _ _, Table.empty _⟩
  users_eq := rfl

def inTens (rules : Table String ScheduledRule (·.ruleId)) :
    EvaluationRun (twoUsers rules).db.userBadges where
  batchSize := 10
  now := 0
  stringify _ := ""
  draw n := ⟨⟨unaryKey n, unaryKey n, 0⟩, 0, none⟩
  new _ := rfl
  distinct := unaryKey_injective

def rule (ruleId : String) (ruleType : BadgeRuleType) (threshold : Rat) : ScheduledRule :=
  ⟨⟨ruleId, "b", ruleType, 0, ⟨"", some threshold, none⟩, true⟩, none⟩

def oneRule (r : ScheduledRule) : Table String ScheduledRule (·.ruleId) :=
  ⟨[r], List.nodup_singleton _⟩

/-- A badge for 5000 XP is given to the user who has been active, and not to the one who has the
XP. -/
theorem xp_badge_goes_to_the_active :
    hasBadge (evaluateDeferredBadges (twoUsers (oneRule (rule "r" .xpTotal 5000)))
        (inTens _)).db "active" "b" = true ∧
      ¬ ∀ (p : Platform) (run : EvaluationRun p.db.userBadges), 0 < run.batchSize →
          (∀ n, (run.draw n).outage = none) → EligibleAwarded p run ∧ AwardsCounted p run := by
  refine ⟨by decide +kernel, fun h => ?_⟩
  have hawarded := (h (twoUsers (oneRule (rule "r" .xpTotal 5000))) (inTens _)
    (by decide) (fun _ => rfl)).1
  have hrich := (hawarded ⟨"b", "b", "type", "category", "B", true, false, "1.0.0", none, none⟩
    (by decide +kernel) "rich").mpr
    (.inr ⟨⟨"rich", 0, none⟩, by decide +kernel, rfl, rule "r" .xpTotal 5000, by decide +kernel, rfl,
      ⟨"rich", 9000, some 1, none, none, none⟩, by decide +kernel, by decide +kernel⟩)
  have hnot : hasBadge (evaluateDeferredBadges (twoUsers (oneRule (rule "r" .xpTotal 5000)))
      (inTens _)).db "rich" "b" = false := by decide +kernel
  exact Bool.false_ne_true (hnot.symm.trans hrich)

/-- A single rule about streaks does what it should. -/
theorem streak_badge_goes_to_the_active :
    EligibleAwarded (twoUsers (oneRule (rule "r" .streak 2))) (inTens _) ∧
      AwardsCounted (twoUsers (oneRule (rule "r" .streak 2))) (inTens _) := by
  refine (evaluation_iff _ _ (by decide) fun _ => rfl).mpr (Harmless.of_single ?_)
  have hrule : (twoUsers (oneRule (rule "r" .streak 2))).getBadgeRules "b" =
      [rule "r" .streak 2] := by decide +kernel
  intro badge hbadge
  obtain rfl := List.mem_singleton.mp (List.mem_of_mem_filter (List.mem_of_mem_filter hbadge))
  exact ⟨_, hrule, 2, by decide +kernel, by decide⟩

/-- Neither of two rules is wrong here; the page of the first hides the user of the second. -/
example : hasBadge (evaluateDeferredBadges
    (twoUsers ⟨[rule "r1" .streak 2, rule "r2" .rank 1], by decide⟩) (inTens _)).db "rich" "b" =
      false := by decide +kernel

end QuizBackend.Achievement.Scheduled
