import QuizBackend.Lib.Run
import QuizBackend.Lib.Calendar
import QuizBackend.Lib.Table
import QuizBackend.Coins.Ledger
import QuizBackend.Coins.Reconciliation
import QuizBackend.Coins.Services
import QuizBackend.Coins.Idempotency
import QuizBackend.Coins.Caps
import QuizBackend.Coins.Funds
import QuizBackend.Coins.Rewards
import QuizBackend.Coins.References
import QuizBackend.Coins.Refund
import QuizBackend.Streak.Cache
import QuizBackend.Streak.History
import QuizBackend.Streak.Order
import QuizBackend.Ranking.Xp
import QuizBackend.Outbox.Events
import QuizBackend.Outbox.Processors
import QuizBackend.Outbox.Isolation
import QuizBackend.Outbox.Retries
import QuizBackend.Lib.Text
import QuizBackend.Events.RetryQueue
import QuizBackend.Attempt.Scoring
import QuizBackend.Attempt.Tables
import QuizBackend.Attempt.Requests
import QuizBackend.Attempt.Effects
import QuizBackend.Attempt.Terminality
import QuizBackend.Attempt.Active
import QuizBackend.Attempt.Milestones
import QuizBackend.Attempt.Freeze
import QuizBackend.Resilience.CircuitBreaker
import QuizBackend.Ranking.Batch
import QuizBackend.Ranking.Recalculation
import QuizBackend.Ranking.XpIngestion
import QuizBackend.Ranking.AtMostOnce
import QuizBackend.Ranking.XpAdded
import QuizBackend.Ranking.NotLost
import QuizBackend.Tournament.Events
import QuizBackend.Lib.RowNumber
import QuizBackend.Tournament.Tables
import QuizBackend.Tournament.Program
import QuizBackend.Tournament.Manage
import QuizBackend.Tournament.Cron
import QuizBackend.Tournament.Enrol
import QuizBackend.Tournament.Play
import QuizBackend.Tournament.System
import QuizBackend.Tournament.Effects
import QuizBackend.Tournament.Lifecycle
import QuizBackend.Tournament.Capacity
import QuizBackend.Lib.Exclusive
import QuizBackend.Tournament.Windows
import QuizBackend.Tournament.Rounds
import QuizBackend.Tournament.Totals
import QuizBackend.Tournament.Results
import QuizBackend.Ranking.PeriodReset
import QuizBackend.Lib.Async
import QuizBackend.Ranking.Leaderboard
import QuizBackend.Ranking.CacheFreshness
import QuizBackend.Redis.ReadThrough
import QuizBackend.Redis.ComputingLock
import QuizBackend.Events.Replay
import QuizBackend.Quiz.Tables
import QuizBackend.Quiz.Requests
import QuizBackend.Quiz.Effects
import QuizBackend.Quiz.Numbers
import QuizBackend.Quiz.Publication
import QuizBackend.Quiz.Immutability
import QuizBackend.Attempt.Review
import QuizBackend.Attempt.Graded
import QuizBackend.Lib.Grouping
import QuizBackend.Instance.Requests
import QuizBackend.Instance.Effects
import QuizBackend.Lib.Rows
import QuizBackend.Instance.Lifecycle
import QuizBackend.Instance.Joining
import QuizBackend.Outbox.Parallel
import QuizBackend.Outbox.Ownership
import QuizBackend.Auth.RateLimit
import QuizBackend.Auth.DenyList
import QuizBackend.Auth.Refresh
import QuizBackend.Auth.Binding
import QuizBackend.Auth.Rotation
import QuizBackend.Auth.Passwords
import QuizBackend.Auth.SessionLimit
import QuizBackend.Auth.ResetTokens
import QuizBackend.Auth.PasswordHistory
import QuizBackend.Auth.Identities
import QuizBackend.Lib.UniqueTable
import QuizBackend.Achievement.Badges
import QuizBackend.Achievement.EventBus
import QuizBackend.Achievement.Ledger
import QuizBackend.Achievement.RuleEngine
import QuizBackend.Achievement.ScheduledEvaluation
import QuizBackend.Bookmark.Moves
import QuizBackend.Notification.OptOuts
import QuizBackend.DailyChallenge.Answers
import QuizBackend.DailyChallenge.Play
import QuizBackend.DailyChallenge.AnswersOnce
import QuizBackend.Social.Requests
import QuizBackend.Social.Effects
import QuizBackend.Social.Friendships
import QuizBackend.Social.BlocksWin
import QuizBackend.Lib.Keyset
import QuizBackend.Social.Feed
import QuizBackend.Social.FeedCache
import QuizBackend.Review.Announced
import QuizBackend.Review.Conflicts
import QuizBackend.Review.Idempotency
import QuizBackend.Review.HelpfulVotes
import QuizBackend.Review.VotesCounted
import QuizBackend.Review.OutboxProcessor
import QuizBackend.Comment.Repository
import QuizBackend.Comment.Service
import QuizBackend.Comment.Votes
import QuizBackend.Comment.Threads
import QuizBackend.Comment.Completion
import QuizBackend.Lib.Alone
import QuizBackend.Quiz.Analytics
import QuizBackend.Lib.Paging
import QuizBackend.Tournament.DueJobs
import QuizBackend.Tournament.FinalRanking
import QuizBackend.Events.DeadLetters
import QuizBackend.Social.Relationships
import QuizBackend.Social.FriendRequest
import QuizBackend.Lib.Inclusive
import QuizBackend.Social.Lists
import QuizBackend.Social.FriendLeaderboard
import QuizBackend.Social.Growth
import QuizBackend.Bookmark.Analytics
import QuizBackend.Lib.CursorOrder
import QuizBackend.Review.Listing
import QuizBackend.Lib.Extension
import QuizBackend.Comment.Reconciler
import QuizBackend.Lib.PerKey
import QuizBackend.Comment.Listing
import QuizBackend.Lib.Leases
import QuizBackend.Redis.AdvisoryLock
import QuizBackend.Redis.Patterns
import QuizBackend.Ranking.RankViews
import QuizBackend.Ranking.CursorLeaderboard
import QuizBackend.Quiz.UpdateCommands
import QuizBackend.Quiz.Updates
import QuizBackend.Quiz.Listing
import QuizBackend.Quiz.BulkQuestions
import QuizBackend.Attempt.Listing
import QuizBackend.Lib.Base64
import QuizBackend.Lib.Json
import QuizBackend.Coins.History
import QuizBackend.Ranking.BulkXp
import QuizBackend.Attempt.Average
import QuizBackend.Resilience.Sequential
import QuizBackend.Streak.DayText
import QuizBackend.Common.Slug
