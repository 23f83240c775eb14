import QuizBackend.Lib.Table

/-!
# Notification preferences

What a user wants to be notified of, and where. A row of `notification_preferences` has a switch for
each channel and each category of types, and hours to keep quiet in; a user without a row gets
everything. `upsertPreferences` writes it, and `shouldSendNotification` reads it.
-/

namespace QuizBackend.Notification

open Lib

inductive NotificationChannel where
  | inApp | email | push
  deriving DecidableEq

inductive NotificationPreferenceCategory where
  | achievement | tournament | rank | friend | comment | summary | security | system
  deriving DecidableEq

inductive NotificationType where
  | achievementEarned | badgeUnlocked | badgeEarned | badgeRevoked | streakMilestone
  | rankAchievement | rankImprovement | rankImproved | rankMilestone | periodWinner
  | tournamentInvite | tournamentStarting | tournamentStarted | tournamentCompleted
  | tournamentWon | tournamentReminder
  | friendRequest | friendAccepted | followed
  | commentReply | commentMention | commentCreated
  | quizReviewReceived
  | weeklySummary
  | systemAnnouncement | instancePlayerJoined | instanceStarted | instanceXpEarned
  | instanceClosed | instancePlayerDisconnected
  | profileUpdated | settingsUpdated | passwordChanged | passwordResetRequested
  | passwordResetCompleted | accountDeleted | sessionRevoked | allOtherSessionsRevoked
  | oauthLinked | oauthUnlinked
  deriving DecidableEq

def notificationTypeCategory : NotificationType → NotificationPreferenceCategory
  | .achievementEarned | .badgeUnlocked | .badgeEarned | .badgeRevoked
  | .streakMilestone => .achievement
  | .rankAchievement | .rankImprovement | .rankImproved | .rankMilestone | .periodWinner => .rank
  | .tournamentInvite | .tournamentStarting | .tournamentStarted | .tournamentCompleted
  | .tournamentWon | .tournamentReminder => .tournament
  | .friendRequest | .friendAccepted | .followed => .friend
  | .commentReply | .commentMention | .commentCreated => .comment
  | .quizReviewReceived => .system
  | .weeklySummary => .summary
  | .systemAnnouncement | .instancePlayerJoined | .instanceStarted | .instanceXpEarned
  | .instanceClosed | .instancePlayerDisconnected => .system
  | .profileUpdated | .settingsUpdated | .passwordChanged | .passwordResetRequested
  | .passwordResetCompleted | .accountDeleted | .sessionRevoked | .allOtherSessionsRevoked
  | .oauthLinked | .oauthUnlinked => .security

structure NotificationPreferencesRow where
  preferencesId : String
  userId : String
  inAppEnabled : Bool
  emailEnabled : Bool
  pushEnabled : Bool
  achievementEnabled : Bool
  tournamentEnabled : Bool
  rankEnabled : Bool
  friendEnabled : Bool
  commentEnabled : Bool
  summaryEnabled : Bool
  marketingEnabled : Bool
  rankImprovementThreshold : Int
  quietHoursStart : Option String
  quietHoursEnd : Option String
  updatedAt : Int
  createdAt : Int

/-! ## Writing them -/

/-- `UpdatePreferencesParams`; what is `null` counts as left out. -/
structure UpdatePreferencesParams where
  inAppEnabled : Option Bool := none
  emailEnabled : Option Bool := none
  pushEnabled : Option Bool := none
  achievementEnabled : Option Bool := none
  tournamentEnabled : Option Bool := none
  rankEnabled : Option Bool := none
  friendEnabled : Option Bool := none
  commentEnabled : Option Bool := none
  summaryEnabled : Option Bool := none
  marketingEnabled : Option Bool := none
  rankImprovementThreshold : Option Int := none
  quietHoursStart : Option String := none
  quietHoursEnd : Option String := none

def UpdatePreferencesParams.insertValues (prefs : UpdatePreferencesParams) (userId : String)
    (preferencesId : String) (now : Int) : NotificationPreferencesRow where
  preferencesId
  userId
  inAppEnabled := prefs.inAppEnabled.getD true
  emailEnabled := prefs.emailEnabled.getD true
  pushEnabled := prefs.pushEnabled.getD true
  achievementEnabled := prefs.achievementEnabled.getD true
  tournamentEnabled := prefs.tournamentEnabled.getD true
  rankEnabled := prefs.rankEnabled.getD true
  friendEnabled := prefs.friendEnabled.getD true
  commentEnabled := prefs.commentEnabled.getD true
  summaryEnabled := prefs.summaryEnabled.getD true
  marketingEnabled := prefs.marketingEnabled.getD false
  rankImprovementThreshold := prefs.rankImprovementThreshold.getD 5
  quietHoursStart := prefs.quietHoursStart
  quietHoursEnd := prefs.quietHoursEnd
  updatedAt := now
  createdAt := now

def UpdatePreferencesParams.updateSet (prefs : UpdatePreferencesParams) (nowIso : Int)
    (row : NotificationPreferencesRow) : NotificationPreferencesRow :=
  { row with
    inAppEnabled := prefs.inAppEnabled.getD row.inAppEnabled
    emailEnabled := prefs.emailEnabled.getD row.emailEnabled
    pushEnabled := prefs.pushEnabled.getD row.pushEnabled
    achievementEnabled := prefs.achievementEnabled.getD row.achievementEnabled
    tournamentEnabled := prefs.tournamentEnabled.getD row.tournamentEnabled
    rankEnabled := prefs.rankEnabled.getD row.rankEnabled
    friendEnabled := prefs.friendEnabled.getD row.friendEnabled
    commentEnabled := prefs.commentEnabled.getD row.commentEnabled
    summaryEnabled := prefs.summaryEnabled.getD row.summaryEnabled
    marketingEnabled := prefs.marketingEnabled.getD row.marketingEnabled
    rankImprovementThreshold := prefs.rankImprovementThreshold.getD row.rankImprovementThreshold
    quietHoursStart := prefs.quietHoursStart.or row.quietHoursStart
    quietHoursEnd := prefs.quietHoursEnd.or row.quietHoursEnd
    updatedAt := nowIso }

abbrev NotificationPreferences := Table String NotificationPreferencesRow (·.userId)

def UpdatePreferencesParams.upserted (prefs : UpdatePreferencesParams)
    (existing : Option NotificationPreferencesRow) (userId preferencesId : String) (nowIso : Int) :
    NotificationPreferencesRow :=
  match existing with
  | none => prefs.insertValues userId preferencesId nowIso
  | some row => prefs.updateSet nowIso row

/-- `upsertPreferences`; refused when the threshold is not positive. -/
def upsertPreferences (table : NotificationPreferences) (userId : String)
    (prefs : UpdatePreferencesParams) (preferencesId : String) (nowIso : Int) :
    Option (NotificationPreferencesRow × NotificationPreferences) :=
  let row := prefs.upserted (table.find? userId) userId preferencesId nowIso
  if 0 < row.rankImprovementThreshold then some (row, table.upsert row) else none

theorem userId_upserted (table : NotificationPreferences) (userId : String)
    (prefs : UpdatePreferencesParams) (preferencesId : String) (nowIso : Int) :
    (prefs.upserted (table.find? userId) userId preferencesId nowIso).userId = userId := by
  cases hfind : table.find? userId with
  | none => rfl
  | some row =>
    show row.userId = userId
    exact Table.key_of_find? hfind

theorem find?_upsertPreferences {table table' : NotificationPreferences} {userId : String}
    {prefs : UpdatePreferencesParams} {preferencesId : String} {nowIso : Int}
    {row : NotificationPreferencesRow}
    (h : upsertPreferences table userId prefs preferencesId nowIso = some (row, table'))
    (other : String) :
    table'.find? other = if other = userId then some row else table.find? other := by
  simp only [upsertPreferences] at h
  split at h
  · rw [Option.some.injEq, Prod.mk.injEq] at h
    obtain ⟨rfl, rfl⟩ := h
    rw [Table.find?_upsert, userId_upserted]
  · cases h

/-! ## Reading them -/

inductive Gate where
  | channel (channel : NotificationChannel)
  | category (category : NotificationPreferenceCategory)
  deriving DecidableEq

def notificationChannelGate (prefs : NotificationPreferencesRow) : NotificationChannel → Bool
  | .inApp => prefs.inAppEnabled
  | .email => prefs.emailEnabled
  | .push => prefs.pushEnabled

def isCategoryDisabled (prefs : NotificationPreferencesRow) :
    NotificationPreferenceCategory → Bool
  | .achievement => !prefs.achievementEnabled
  | .tournament => !prefs.tournamentEnabled
  | .rank => !prefs.rankEnabled
  | .friend => !prefs.friendEnabled
  | .comment => !prefs.commentEnabled
  | .summary => !prefs.summaryEnabled
  | .security | .system => false

section

variable (number : String → Float)

/-- `hh:mm` in minutes, with the `Number` of JavaScript; a part that is missing is not a number. -/
def minutesOfDay (text : String) : Float :=
  match (text.splitOn ":").map number with
  | hour :: minute :: _ => hour * 60 + minute
  | _ => 0 / 0

/-- `isInQuietHours`, when `currentTime` minutes of the day have passed. -/
def isInQuietHours (currentTime : Nat)
    (prefs : NotificationPreferencesRow) : Bool :=
  match prefs.quietHoursStart, prefs.quietHoursEnd with
  | some quietHoursStart, some quietHoursEnd =>
    if quietHoursStart = "" ∨ quietHoursEnd = "" then false
    else
      let now := Float.ofNat currentTime
      let startTime := minutesOfDay number quietHoursStart
      let endTime := minutesOfDay number quietHoursEnd
      if startTime > endTime then decide (now ≥ startTime) || decide (now ≤ endTime)
      else decide (now ≥ startTime) && decide (now ≤ endTime)
  | _, _ => false

def shouldSendNotification (currentTime : Nat) (type : NotificationType)
    (channel : NotificationChannel) : Option NotificationPreferencesRow → Bool
  | none => true
  | some prefs =>
    notificationChannelGate prefs channel &&
      !isCategoryDisabled prefs (notificationTypeCategory type) &&
      !isInQuietHours number currentTime prefs

end

/-- Preferences switch something off; a user without a row has switched nothing off. -/
def disables (prefs : Option NotificationPreferencesRow) : Gate → Bool
  | .channel channel => prefs.any fun row => !notificationChannelGate row channel
  | .category category => prefs.any fun row => isCategoryDisabled row category

/-- **What is sent is switched on**, in its channel and in its category. -/
theorem disables_of_shouldSend {number : String → Float} {currentTime : Nat}
    {type : NotificationType} {channel : NotificationChannel}
    {prefs : Option NotificationPreferencesRow}
    (h : shouldSendNotification number currentTime type channel prefs = true) :
    disables prefs (.channel channel) = false ∧
      disables prefs (.category (notificationTypeCategory type)) = false := by
  cases prefs with
  | none => exact ⟨rfl, rfl⟩
  | some row =>
    unfold shouldSendNotification at h
    rw [Bool.and_eq_true, Bool.and_eq_true] at h
    obtain ⟨⟨hchannel, hcategory⟩, -⟩ := h
    refine ⟨?_, ?_⟩
    · show (!notificationChannelGate row channel) = false
      rw [hchannel]
      rfl
    · show isCategoryDisabled row (notificationTypeCategory type) = false
      rwa [Bool.not_eq_true'] at hcategory

end QuizBackend.Notification
