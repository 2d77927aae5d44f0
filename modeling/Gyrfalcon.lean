import Gyrfalcon.Core
import Gyrfalcon.Lib.Machine
import Gyrfalcon.Lib.LastWrite
import Gyrfalcon.Lib.FreshestWrite
import Gyrfalcon.Lib.KeyedMap
import Gyrfalcon.Lib.StableSort
import Gyrfalcon.Lib.Race
import Gyrfalcon.Lib.Extremum
import Gyrfalcon.Lib.ByteCodec
import Gyrfalcon.Lib.TextLines
import Gyrfalcon.Lib.Channel
import Gyrfalcon.Lib.GridSearch
import Gyrfalcon.Lib.Median
import Gyrfalcon.Lib.WithNan
import Gyrfalcon.Lib.Expiry
import Gyrfalcon.Lib.FirstSeen
import Gyrfalcon.Lib.Numeral
import Gyrfalcon.Lib.Fields
import Gyrfalcon.Lib.EarlyExit
import Gyrfalcon.Lib.FixedPoint
import Gyrfalcon.Lib.Fallible
import Gyrfalcon.Lib.Buckets
import Gyrfalcon.Lib.Shares
import Gyrfalcon.Lib.Layout
import Gyrfalcon.Lib.Rounding
import Gyrfalcon.Breakers
import Gyrfalcon.Arbitration
import Gyrfalcon.DualPath
import Gyrfalcon.Klend
import Gyrfalcon.SaveReserve
import Gyrfalcon.Router
import Gyrfalcon.Sizing
import Gyrfalcon.Hurdle
import Gyrfalcon.AccountSync
import Gyrfalcon.Kamino
import Gyrfalcon.DeliveryOrder
import Gyrfalcon.KaminoRuns
import Gyrfalcon.Bundler
import Gyrfalcon.MessageV0
import Gyrfalcon.Feasibility
import Gyrfalcon.Daemon
import Gyrfalcon.Submission
import Gyrfalcon.Feed
import Gyrfalcon.LockOut
import Gyrfalcon.Replies
import Gyrfalcon.LiquidationLog
import Gyrfalcon.AuditLog
import Gyrfalcon.LendingInstruction
import Gyrfalcon.SaveFlash
import Gyrfalcon.StepDown
import Gyrfalcon.SaveAccounts
import Gyrfalcon.FlashSelection
import Gyrfalcon.FlashRanking
import Gyrfalcon.Ingestion
import Gyrfalcon.RecordedFeed
import Gyrfalcon.Replay
import Gyrfalcon.DexRouter
import Gyrfalcon.RepayCeiling
import Gyrfalcon.KaminoBooks
import Gyrfalcon.RepayAmounts
import Gyrfalcon.PhantomBonus
import Gyrfalcon.DynamicTip
import Gyrfalcon.NanArbitration
import Gyrfalcon.PnlLedger
import Gyrfalcon.TokenAccounts
import Gyrfalcon.SweepInterval
import Gyrfalcon.ReplayDetection
import Gyrfalcon.FlashRoute
import Gyrfalcon.PositionBook
import Gyrfalcon.SlotCounter
import Gyrfalcon.LogExport
import Gyrfalcon.SaveMath
import Gyrfalcon.SaveRateLimiter
import Gyrfalcon.SaveInterest
import Gyrfalcon.SavePool
import Gyrfalcon.SaveObligation
import Gyrfalcon.SaveDebts
import Gyrfalcon.SaveLiquidation
import Gyrfalcon.SaveBorrow
import Gyrfalcon.SavePacking
import Gyrfalcon.SaveObligationPacking
import Gyrfalcon.FlashQuote
