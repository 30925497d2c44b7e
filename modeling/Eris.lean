import Eris.Lending.DebtSafety
import Eris.Lending.Backing
import Eris.Lending.RoundTrip
import Eris.Vault.ZeroTime
import Eris.Vault.ExitQueue
import Eris.Scoring.Coverage
import Eris.Scoring.Atomicity
import Eris.Mining.Gating
import Eris.Uniswap.Gifts
import Eris.Scoring.Ranking
import Eris.Competition.Schedule
import Eris.Attribution.DerivedSenders
import Eris.Backtest.RecordAgreement
import Eris.Backtest.MatrixRuns
import Eris.Agents.StateRecovery
import Eris.Flow.RelayLaws
import Eris.Gateway.FailClosed
import Eris.Faucet.Reading
import Eris.Flow.Funded
import Eris.Gmx.Carried
import Eris.Launch.Budget
import Eris.Lending.MarkedValue
import Eris.Loop.Coverage
import Eris.Markets.StrandedRuns
import Eris.Registry.DiscoveryRuns
import Eris.Valuation.Equivalence
import Eris.Whale.Settled
import Eris.Actions.Grammars
import Eris.Amm.Trading
import Eris.Lending.Poking
import Eris.Lending.Repayment
import Eris.Registry.OnChain
import Eris.Vault.Claiming
import Eris.Events.Consumption
import Eris.Events.Positivity
import Eris.Period.RollClock
import Eris.Attribution.ProRata
import Eris.Competition.Commitment
import Eris.Competition.Unbiased
import Eris.Faucet.Differences
import Eris.Inference.Budget
import Eris.Period.CheckpointRuns
import Eris.Random.Keyed
import Eris.Registry.CreatorCap
import Eris.Scoring.DeviationScore
import Eris.Uniswap.TickOrder
import Eris.Agents.DiskWatch
import Eris.Gmx.CapLine
import Eris.Lst.YieldPath
import Eris.Markets.Allocation
import Eris.Markets.Listing
import Eris.Period.SegmentRecovery
import Eris.Uniswap.FeeGrowth
import Eris.Agents.Sender
import Eris.Flow.DrawSchedule
import Eris.Flow.SerialTasks
import Eris.Gateway.Limits
import Eris.Valuation.MedianMarks
import Eris.PostRun.FeeAgreement
