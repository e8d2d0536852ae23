import BlockchainTask.Library.Effect
import BlockchainTask.Library.Transaction
import BlockchainTask.Library.Store
import BlockchainTask.Library.Runs
import BlockchainTask.Helper
import BlockchainTask.Common.Exception
import BlockchainTask.SchedulerJob.Base
import BlockchainTask.SchedulerJob.InteractionTemplate
import BlockchainTask.SchedulerJob.InteractionCoverage
import BlockchainTask.SchedulerJob.TickOutcome
import BlockchainTask.SchedulerJob.Ticks
import BlockchainTask.SchedulerJob.TickExclusion
import BlockchainTask.Repository.Token
import BlockchainTask.SchedulerJob.PairTemplate
import BlockchainTask.SchedulerJob.PairEffect
import BlockchainTask.SchedulerJob.PairWindows
import BlockchainTask.SchedulerJob.TokenInvariant
import BlockchainTask.SchedulerJob.MultiTokens
import BlockchainTask.SchedulerJob.NestedPairs
import BlockchainTask.Repository.NFToken
import BlockchainTask.SchedulerJob.NFTTemplate
import BlockchainTask.SchedulerJob.NFTConsistency
import BlockchainTask.Helper.BatchContract
import BlockchainTask.SchedulerJob.TokenPrice
import BlockchainTask.SchedulerJob.TokenPriceScale
import BlockchainTask.Library.Simulation
import BlockchainTask.Repository.Farm
import BlockchainTask.SchedulerJob.FarmTemplate
import BlockchainTask.SchedulerJob.FarmDraft
import BlockchainTask.SchedulerJob.FarmIsolation
import BlockchainTask.SchedulerJob.Farm2
import BlockchainTask.SchedulerJob.Farm2Draft
import BlockchainTask.SchedulerJob.Farm2Durability
import BlockchainTask.SchedulerJob.AutoFarm
import BlockchainTask.SchedulerJob.BakeryFarm
import BlockchainTask.SchedulerJob.RewarderFarm
import BlockchainTask.SchedulerJob.FarmHistory
import BlockchainTask.Repository.Lending
import BlockchainTask.SchedulerJob.VenusLending
import BlockchainTask.SchedulerJob.VenusHistory
import BlockchainTask.SchedulerJob.FarmApr
import BlockchainTask.Helper.GroupBy
import BlockchainTask.Repository.PricedToken
import BlockchainTask.SchedulerJob.PriceTemplate
import BlockchainTask.SchedulerJob.PriceRefresh
import BlockchainTask.SchedulerJob.PriceRange
import BlockchainTask.Helper.NumericText
import BlockchainTask.Library.Distinct
import BlockchainTask.SchedulerJob.PairFailures
import BlockchainTask.Swap.SwapService
import BlockchainTask.Swap.RoutedPairs
import BlockchainTask.Swap.ChainIndependence
import BlockchainTask.Swap.SwapAmount
import BlockchainTask.Helper.AnyArray
import BlockchainTask.Interaction.InteractionService
import BlockchainTask.Wallet.FarmInfos
import BlockchainTask.Defi.NFTDispatch
import BlockchainTask.Library.Selection
import BlockchainTask.Swap.BestTrade
import BlockchainTask.Swap.CurrencyCombinations
import BlockchainTask.Swap.ProtocolPairs
import BlockchainTask.SchedulerJob.MdexRewards
import BlockchainTask.Defi.VenusBSCService
import BlockchainTask.SchedulerJob.VenusUnits
import BlockchainTask.Library.Abi
import BlockchainTask.Library.IndexedLoop
import BlockchainTask.Multicalls.MultiCall
import BlockchainTask.Multicalls.BatchSafety
import BlockchainTask.Library.Connections
import BlockchainTask.SchedulerJob.OpenedRuns
import BlockchainTask.SchedulerJob.RunErrors
import BlockchainTask.SchedulerJob.LoopConnections
import BlockchainTask.SchedulerJob.HeldConnections
import BlockchainTask.Interaction.ContractRows
import BlockchainTask.SchedulerJob.Farm2Durable
import BlockchainTask.SchedulerJob.Farm2Rows
import BlockchainTask.Common.Rehandling
import BlockchainTask.Multicalls.PairFields
import BlockchainTask.Multicalls.Aggregator
import BlockchainTask.Defi.FarmContracts
import BlockchainTask.Defi.FarmWalletInfo
import BlockchainTask.Defi.RewarderWalletInfo
import BlockchainTask.Defi.BatchReaders
import BlockchainTask.Defi.VenusWallet
import BlockchainTask.Multicalls.BalanceCells
import BlockchainTask.Wallet.TokenBalances
import BlockchainTask.Library.FoldedRows
import BlockchainTask.Repository.FarmSearch
import BlockchainTask.SchedulerJob.SinglePositions
import BlockchainTask.SchedulerJob.TokenInfos
import BlockchainTask.Repository.FarmPages
import BlockchainTask.SchedulerJob.LiquidityPair
import BlockchainTask.SchedulerJob.NFTCrawl
import BlockchainTask.SchedulerJob.NFTChunk
import BlockchainTask.SchedulerJob.Restarts
import BlockchainTask.App.AllExceptionFilter
import BlockchainTask.Interaction.Requests
import BlockchainTask.SchedulerJob.ContractTokens
import BlockchainTask.Multicalls.ERC721
import BlockchainTask.SchedulerJob.ContractNFTokens
import BlockchainTask.Wallet.InteractedFarms
import BlockchainTask.Interaction.Networks
import BlockchainTask.SchedulerJob.ChainLinkPrices
import BlockchainTask.SchedulerJob.TokenTable
import BlockchainTask.Repository.NFTokenSearch
import BlockchainTask.Repository.TokenSearch
import BlockchainTask.Wallet.HeldNFTokens
import BlockchainTask.Wallet.HeldTokens
import BlockchainTask.Repository.LendingSearch
import BlockchainTask.Wallet.WalletLendings
