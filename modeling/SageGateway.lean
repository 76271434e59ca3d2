import SageGateway.Subscription.Holding
import SageGateway.Bridge.Conservation
import SageGateway.Endpoints.Offer
import SageGateway.ClientIP
import SageGateway.CircuitBreaker.Episodes
import SageGateway.Blocklist.Widening
import SageGateway.Drain.Cleanup
import SageGateway.Drain.Convergence
import SageGateway.CircuitBreaker.Agreement
import SageGateway.Reputation.PartyHolds
import SageGateway.BlockConsensus.Head
import SageGateway.Sessions.Rollback
import SageGateway.Sessions.EndpointIndex
import SageGateway.WSRelayer.Load
import SageGateway.WSRelayer.ShareCap
import SageGateway.WSRelayer.ClientLedger
import SageGateway.Bridge.RebindLimit
import SageGateway.Config.Override
import SageGateway.Override.Converge
import SageGateway.Config.Reload
import SageGateway.FeatureFlags.OwnWrites
import SageGateway.Leader
import SageGateway.ProbeStream.AtMostOnce
import SageGateway.ProbeStream.NoLoss
import SageGateway.Relay.KeptAnswer
import SageGateway.Relay.AttemptBudget
import SageGateway.Relay.Batch.Budget
import SageGateway.Relay.Quorum.Majority
import SageGateway.Reputation.Concentration.Entitlements
import SageGateway.Reputation.Demotion
import SageGateway.Reputation.SelectorAgreement
import SageGateway.Autodrain.Limits
import SageGateway.Qos.Evm.Refusal
import SageGateway.Qos.Evm.Retention
import SageGateway.Qos.Selector
import SageGateway.Autodrain.Counts
import SageGateway.MethodBlock.Escalation
import SageGateway.Blocklist.Standing
import SageGateway.Healthcheck.SkipWindows
import SageGateway.Healthcheck.Schedule
import SageGateway.Healthcheck.WarmGate
import SageGateway.Healthcheck.PeerCoverage
import SageGateway.Relay.SharedAnswers
import SageGateway.Relay.Singleflight
import SageGateway.Relay.GrpcWeb
import SageGateway.Relay.ScoreSink
import SageGateway.Subscription.DupWindow
import SageGateway.Subscription.Bookkeeping
import SageGateway.Heuristic.Indicators
import SageGateway.Tuning.Knob
import SageGateway.ResponseCache
