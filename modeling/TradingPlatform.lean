import TradingPlatform.Client.SocketIdentity
import TradingPlatform.Engine.CloseReports
import TradingPlatform.Engine.CloseShrinks
import TradingPlatform.Engine.SplitCloses
import TradingPlatform.Engine.SltpTriggers
import TradingPlatform.Engine.FillAtomicity
import TradingPlatform.Engine.FillEffect
import TradingPlatform.Engine.IndexInvariant
import TradingPlatform.Engine.NettingBook
import TradingPlatform.Engine.OrderFinality
import TradingPlatform.Engine.PositionIdentity
import TradingPlatform.Engine.StoredMargin
import TradingPlatform.Gateway.PrivateDelivery
import TradingPlatform.Gateway.Reachability
import TradingPlatform.Leverage.TierInvariant
import TradingPlatform.Mirror.PositionMirror
import TradingPlatform.Mirror.SafeDivisors
import TradingPlatform.Orders.AllOrNothing
import TradingPlatform.Orders.BackedFills
import TradingPlatform.Orders.CancelRace
import TradingPlatform.Orders.CloseOnly
import TradingPlatform.Orders.LockRollback
import TradingPlatform.Orders.MarginCounted
import TradingPlatform.Orders.Overcommitment
import TradingPlatform.Orders.Republished
import TradingPlatform.Orders.StatusAgreement
import TradingPlatform.Pricing.ChannelPrices
import TradingPlatform.Pricing.MarkupFreshness
import TradingPlatform.Pricing.MarkupMirror
import TradingPlatform.Pricing.SymbolRouting
import TradingPlatform.Sessions.SessionAgreement
import TradingPlatform.Summary.FreeMargin
import TradingPlatform.Summary.LiveUnrealized
import TradingPlatform.Summary.MarkedClose
import TradingPlatform.Summary.SummaryAgreement
import TradingPlatform.Summary.PnlScreens
import TradingPlatform.Summary.StopOut
import TradingPlatform.Summary.ThresholdAgreement
import TradingPlatform.Summary.TornReads
import TradingPlatform.Wallet.AuditTrail
import TradingPlatform.Wallet.CloseSettlement
import TradingPlatform.Wallet.FeeRefund
import TradingPlatform.Wallet.LedgerEntries
import TradingPlatform.Wallet.MarginConservation
import TradingPlatform.Wallet.RequestApproval
import TradingPlatform.Gateway.RegistryRaces
import TradingPlatform.Gateway.FrameOrder
import TradingPlatform.Gateway.DispatchSettles
import TradingPlatform.Gateway.OneOutcome
import TradingPlatform.Engine.PendingAgreement
import TradingPlatform.Engine.PriceProtection
import TradingPlatform.Engine.SltpInForce
import TradingPlatform.Pricing.TickSubjects
import TradingPlatform.Leverage.TierSelection
import TradingPlatform.Sessions.SavedWindows
import TradingPlatform.Wallet.SwapAccrual
import TradingPlatform.Engine.HedgingFills
import TradingPlatform.Engine.RejectedCommands
import TradingPlatform.Engine.ReopenRoundTrip
import TradingPlatform.Engine.PlacementRetries
import TradingPlatform.Engine.OrderReadback
import TradingPlatform.Engine.TextsReadBack
import TradingPlatform.Pricing.RateLimiter
import TradingPlatform.Auth.CircuitBreaker
import TradingPlatform.Auth.PermissionEdits
import TradingPlatform.Auth.GroupUpdate
import TradingPlatform.Pricing.FeedCoverage
import TradingPlatform.Pricing.StreamRooms
import TradingPlatform.Engine.SkippedTicks
import TradingPlatform.Client.AuthStore
import TradingPlatform.Client.SessionSafety
import TradingPlatform.Engine.UserIsolation
import TradingPlatform.Client.StreamSubscriptions
import TradingPlatform.Client.NotificationBell
import TradingPlatform.Client.MessageQueue
import TradingPlatform.Pricing.MmdpsSockets
import TradingPlatform.Pricing.FeedRouting
import TradingPlatform.Access.PositionListings
import TradingPlatform.Access.EventHistory
import TradingPlatform.Access.KycReview
import TradingPlatform.Auth.Logout
