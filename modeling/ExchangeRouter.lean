import ExchangeRouter.BybitBookTheorems
import ExchangeRouter.KrakenBookTheorems
import ExchangeRouter.OkxBookTheorems
import ExchangeRouter.FallbackTheorems
import ExchangeRouter.PaginateTheorems
import ExchangeRouter.PagedReadsTheorems
import ExchangeRouter.StreamHub
import ExchangeRouter.StreamHubInvariant
import ExchangeRouter.StreamHubJoiners
import ExchangeRouter.StreamHubTable
import ExchangeRouter.StreamHubTheorems
import ExchangeRouter.Adapters
import ExchangeRouter.Backend
import ExchangeRouter.FetchTheorems
import ExchangeRouter.StreamTheorems
import ExchangeRouter.Lib.Dict
import ExchangeRouter.Lib.Url
import ExchangeRouter.StreamManager
import ExchangeRouter.KrakenHubs
import ExchangeRouter.StreamManagerTheorems
import ExchangeRouter.KrakenHubsTheorems
import ExchangeRouter.MakeRequest
import ExchangeRouter.MakeRequestTheorems
import ExchangeRouter.Lib.Coroutine
import ExchangeRouter.SchemaGate
import ExchangeRouter.SchemaGateTheorems
import ExchangeRouter.Caches
import ExchangeRouter.CachesTheorems
import ExchangeRouter.PaginateSafetyTheorems
import ExchangeRouter.Consumers
import ExchangeRouter.ConsumersTheorems
import ExchangeRouter.Backoff
import ExchangeRouter.BackoffTheorems
import ExchangeRouter.Klines
import ExchangeRouter.StartBoundTheorems
import ExchangeRouter.Lib.Overwrite
import ExchangeRouter.SideCaches
import ExchangeRouter.SideCachesTheorems
import ExchangeRouter.HyperliquidSlots
import ExchangeRouter.PaginateExactTheorems
import ExchangeRouter.OkxCandlesTheorems
import ExchangeRouter.HyperliquidFundingTheorems
import ExchangeRouter.KucoinCandlesTheorems
import ExchangeRouter.KrakenChartTheorems
import ExchangeRouter.BinanceFundingTheorems
import ExchangeRouter.KrakenViewTheorems
import ExchangeRouter.StreamBridge
import ExchangeRouter.StreamBridgeTheorems
import ExchangeRouter.LocalRouter
import ExchangeRouter.LocalRouterTheorems
import ExchangeRouter.RateBucket
import ExchangeRouter.KrakenThrottleTheorems
import ExchangeRouter.SymbolsTheorems
import ExchangeRouter.KucoinWindows
import ExchangeRouter.OkxLiquidationsTheorems
import ExchangeRouter.OpenInterestJoin
import ExchangeRouter.RemoteFetchTheorems
import ExchangeRouter.HubRoutesTheorems
import ExchangeRouter.HubSnapshotsTheorems
import ExchangeRouter.BybitTickerTheorems
import ExchangeRouter.Frames
import ExchangeRouter.Funding
import ExchangeRouter.FundingTheorems
import ExchangeRouter.FundingFramesTheorems
import ExchangeRouter.BatchTheorems
import ExchangeRouter.Lib.Decimal
import ExchangeRouter.StepsTheorems
import ExchangeRouter.HyperliquidSymbols
import ExchangeRouter.Lib.Fallible
import ExchangeRouter.HyperliquidSymbolsTheorems
import ExchangeRouter.HubQueues
import ExchangeRouter.HubQueuesTheorems
import ExchangeRouter.HyperliquidTicker
import ExchangeRouter.HyperliquidTickerTheorems
import ExchangeRouter.HubPipes
import ExchangeRouter.HubPipesTheorems
import ExchangeRouter.HubBooksTheorems
import ExchangeRouter.HubClose
import ExchangeRouter.HubCloseTheorems
import ExchangeRouter.StreamManagerSteps
import ExchangeRouter.StreamDeliveryTheorems
import ExchangeRouter.ManagerShutdown
import ExchangeRouter.ManagerShutdownTheorems
import ExchangeRouter.Lib.SingleFlight
import ExchangeRouter.Snapshots
import ExchangeRouter.SnapshotsTheorems
import ExchangeRouter.KrakenRequests
import ExchangeRouter.KrakenRequestsTheorems
import ExchangeRouter.SeriesFrames
import ExchangeRouter.SeriesFramesTheorems
import ExchangeRouter.KrakenAnalytics
import ExchangeRouter.KrakenAnalyticsTheorems
import ExchangeRouter.LoopThread
import ExchangeRouter.LoopThreadTheorems
import ExchangeRouter.MarginTiers
import ExchangeRouter.VenueSymbols
import ExchangeRouter.MarginTiersTheorems
import ExchangeRouter.VenueSymbolsTheorems
