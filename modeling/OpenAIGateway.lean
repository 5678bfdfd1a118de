import OpenAIGateway.AnthropicRender
import OpenAIGateway.Lifecycle
import OpenAIGateway.AnthropicBlocks
import OpenAIGateway.AnthropicStream
import OpenAIGateway.ResponsesRender
import OpenAIGateway.ResponsesItems
import OpenAIGateway.ResponsesStream
import OpenAIGateway.ChatParse
import OpenAIGateway.ChatRender
import OpenAIGateway.ClientStream
import OpenAIGateway.ClientUsage
import OpenAIGateway.Lines
import OpenAIGateway.SseFraming
import OpenAIGateway.SseCuts
import OpenAIGateway.SseStream
import OpenAIGateway.Bytes
import OpenAIGateway.EventStream
import OpenAIGateway.Framing
import OpenAIGateway.EventStreamCodec
import OpenAIGateway.Catalog
import OpenAIGateway.Ladder
import OpenAIGateway.RoutingPolicy
import OpenAIGateway.ManagedRouting
import OpenAIGateway.ModelListing
import OpenAIGateway.PinnedModel
import OpenAIGateway.Savings
import OpenAIGateway.Breaker
import OpenAIGateway.Breakers
import OpenAIGateway.HalfOpenProbe
import OpenAIGateway.StuckBreaker
import OpenAIGateway.SlotSet
import OpenAIGateway.SlotGuard
import OpenAIGateway.SlotLimit
import OpenAIGateway.AuthTiers
import OpenAIGateway.Revocation
import OpenAIGateway.Ascii
import OpenAIGateway.Canonical
import OpenAIGateway.Naming
import OpenAIGateway.WireNames
import OpenAIGateway.ResponsesParse
import OpenAIGateway.ResponsesAnswer
import OpenAIGateway.ResponsesAssembly
import OpenAIGateway.ResponsesReaders
import OpenAIGateway.ResponsesAgreement
import OpenAIGateway.WireToolUseIds
import OpenAIGateway.SessionKeys
import OpenAIGateway.Errors
import OpenAIGateway.Escalation
import OpenAIGateway.Failover
import OpenAIGateway.Climb
import OpenAIGateway.CollectStream
import OpenAIGateway.Schedule
import OpenAIGateway.Lease
import OpenAIGateway.AtCapacity
import OpenAIGateway.ReadBack
import OpenAIGateway.ChatRoundTrip
import OpenAIGateway.AnthropicParse
import OpenAIGateway.GeminiParse
import OpenAIGateway.Collected
import OpenAIGateway.WholeAnswer
import OpenAIGateway.HubReadBack
import OpenAIGateway.ChatReadBack
import OpenAIGateway.AnthropicReadBack
import OpenAIGateway.ResponsesReadBack
import OpenAIGateway.GeminiReadBack
import OpenAIGateway.CollectedReadBack
import OpenAIGateway.StreamedOrCollected
import OpenAIGateway.FailoverBounds
import OpenAIGateway.SpendCounters
import OpenAIGateway.Reconcile
import OpenAIGateway.HubRequest
import OpenAIGateway.AnthropicRequest
import OpenAIGateway.ChatRequest
import OpenAIGateway.ResponsesRequest
import OpenAIGateway.GeminiRequest
import OpenAIGateway.RequestSettings
import OpenAIGateway.Passthrough
import OpenAIGateway.GeminiFidelity
import OpenAIGateway.ResiduePaths
import OpenAIGateway.Presence
import OpenAIGateway.Split
import OpenAIGateway.AuthMac
import OpenAIGateway.GcpTokenRuns
import OpenAIGateway.Listing
import OpenAIGateway.ListingPages
import OpenAIGateway.Refresh
import OpenAIGateway.RefreshLock
import OpenAIGateway.RefreshChain
import OpenAIGateway.Alias
import OpenAIGateway.CatalogTable
import OpenAIGateway.EndpointChange
import OpenAIGateway.EndpointDeletion
import OpenAIGateway.CallEvents
import OpenAIGateway.ParallelCalls
import OpenAIGateway.GeminiCalls
import OpenAIGateway.DeletionSafety
import OpenAIGateway.KeysMove
import OpenAIGateway.EndpointSync
import OpenAIGateway.SyncPlan
import OpenAIGateway.SyncAgain
import OpenAIGateway.SyncHistory
import OpenAIGateway.Appending
import OpenAIGateway.Bisect
import OpenAIGateway.UsageImport
import OpenAIGateway.UsagePlan
import OpenAIGateway.UsageVerdict
import OpenAIGateway.ImportLedger
import OpenAIGateway.ImportOnce
import OpenAIGateway.Suspension
import OpenAIGateway.Hangup
import OpenAIGateway.SystemOne
import OpenAIGateway.EntryMaps
import OpenAIGateway.EndpointMaps
import OpenAIGateway.CatalogRecords
import OpenAIGateway.XaiModels
import OpenAIGateway.ModelDiscovery
import OpenAIGateway.PriceWrites
import OpenAIGateway.PriceSources
import OpenAIGateway.FreeModels
import OpenAIGateway.ItemArguments
import OpenAIGateway.Runs
import OpenAIGateway.MessageBlocks
import OpenAIGateway.HubInverse
import OpenAIGateway.ClientBodies
import OpenAIGateway.CatalogLookups
import OpenAIGateway.ClimbPast
import OpenAIGateway.Cascade
import OpenAIGateway.BreakerHistory
import OpenAIGateway.BudgetPressure
import OpenAIGateway.GeminiCallIds
import OpenAIGateway.AnthropicThinking
import OpenAIGateway.ConverseMessages
import OpenAIGateway.ResidueFields
import OpenAIGateway.CallerFaults
import OpenAIGateway.RateLimit
import OpenAIGateway.StatusPanel
import OpenAIGateway.Redaction
import OpenAIGateway.Calendar
import OpenAIGateway.Periods
import OpenAIGateway.LedgerReads
import OpenAIGateway.WindowFreeing
import OpenAIGateway.Grouping
import OpenAIGateway.PointsReads
import OpenAIGateway.GrokImport
import OpenAIGateway.StreamPump
import OpenAIGateway.StreamEnding
import OpenAIGateway.TableRewrite
import OpenAIGateway.ImportIdentity
import OpenAIGateway.RekeyImports
import OpenAIGateway.RekeyedLedger
import OpenAIGateway.Cuts
import OpenAIGateway.Glob
import OpenAIGateway.Occupancy
import OpenAIGateway.ImportPrices
import OpenAIGateway.CodexUsage
import OpenAIGateway.SeededPrices
import OpenAIGateway.SystemOneHosts
import OpenAIGateway.Percent
import OpenAIGateway.UrlPath
import OpenAIGateway.CloudPaths
import OpenAIGateway.SigV4
import OpenAIGateway.BaseUrls
import OpenAIGateway.StoredUrls
import OpenAIGateway.JsonText
import OpenAIGateway.StickyPins
import OpenAIGateway.Signal
import OpenAIGateway.Refusals
import OpenAIGateway.Planning
import OpenAIGateway.Overspend
