import BankingEs.Proofs.Addressing
import BankingEs.Proofs.BatchProcessing
import BankingEs.Proofs.BatchStorage
import BankingEs.Proofs.Batching
import BankingEs.Proofs.Books
import BankingEs.Proofs.Breaker
import BankingEs.Proofs.BruteForce
import BankingEs.Proofs.BurstControl
import BankingEs.Proofs.CacheProcess
import BankingEs.Proofs.CacheFreshness
import BankingEs.Proofs.CacheLevels
import BankingEs.Proofs.CacheLifetime
import BankingEs.Proofs.CacheShards
import BankingEs.Proofs.CachedAccount
import BankingEs.Proofs.ClientLimits
import BankingEs.Proofs.CounterExpiry
import BankingEs.Proofs.Deduplication
import BankingEs.Proofs.Durability
import BankingEs.Proofs.EmptyBank
import BankingEs.Proofs.FrontEnds
import BankingEs.Proofs.InsertText
import BankingEs.Proofs.Ledger
import BankingEs.Proofs.Lifecycle
import BankingEs.Proofs.LoadAccounting
import BankingEs.Proofs.LockExclusion
import BankingEs.Proofs.LockRelease
import BankingEs.Proofs.LoginRaces
import BankingEs.Proofs.Logout
import BankingEs.Proofs.LostLetters
import BankingEs.Proofs.LostUpdate
import BankingEs.Proofs.MoneyArithmetic
import BankingEs.Proofs.OptimisticConcurrency
import BankingEs.Proofs.ProjectionFlush
import BankingEs.Proofs.ProjectionRaces
import BankingEs.Proofs.ProjectionUpserts
import BankingEs.Proofs.ProjectionWrites
import BankingEs.Proofs.QueueBound
import BankingEs.Proofs.RateLimits
import BankingEs.Proofs.ReadModel
import BankingEs.Proofs.ReadYourWrites
import BankingEs.Proofs.Rebalancing
import BankingEs.Proofs.RecoveryReplay
import BankingEs.Proofs.RecoveryRestart
import BankingEs.Proofs.Retries
import BankingEs.Proofs.Routing
import BankingEs.Proofs.SelectiveReplay
import BankingEs.Proofs.SelfBlocking
import BankingEs.Proofs.SequenceCheck
import BankingEs.Proofs.Sessions
import BankingEs.Proofs.ShardRanges
import BankingEs.Proofs.SharedConsumer
import BankingEs.Proofs.SlidingLog
import BankingEs.Proofs.SnapshotRounds
import BankingEs.Proofs.Snapshots
import BankingEs.Proofs.SuccessRate
import BankingEs.Proofs.TransactionHistory
import BankingEs.Proofs.Validators
import BankingEs.Proofs.Victims
import BankingEs.Proofs.WarmUp
import BankingEs.Proofs.WrongVictims
