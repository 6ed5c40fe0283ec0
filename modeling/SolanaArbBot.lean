import SolanaArbBot.Lib.Base64
import SolanaArbBot.Lib.Bytes
import SolanaArbBot.Lib.Calendar
import SolanaArbBot.Lib.Decimal
import SolanaArbBot.Lib.Delimited
import SolanaArbBot.Lib.HashMap
import SolanaArbBot.Lib.Loop
import SolanaArbBot.Lib.Observation
import SolanaArbBot.Lib.Pool
import SolanaArbBot.Lib.Runs
import SolanaArbBot.Lib.SlidingWindow
import SolanaArbBot.Lib.Stride
import SolanaArbBot.Metis
import SolanaArbBot.TemplateCache.Bounds
import SolanaArbBot.TemplateCache.Halves
import SolanaArbBot.TemplateCache.HopFiles
import SolanaArbBot.TemplateCache.HopIndex
import SolanaArbBot.TemplateCache.HopLookup
import SolanaArbBot.TemplateCache.Interleaving
import SolanaArbBot.TemplateCache.LoadedService
import SolanaArbBot.TemplateCache.Offsets
import SolanaArbBot.TemplateCache.Preimage
import SolanaArbBot.TemplateCache.Retention
import SolanaArbBot.TemplateCache.HopRecovery
import SolanaArbBot.TemplateCache.Recovery
import SolanaArbBot.TemplateCache.Serving
import SolanaArbBot.TemplateCache.Structure
import SolanaArbBot.Transaction.AltCache
import SolanaArbBot.Transaction.BuildFailure
import SolanaArbBot.AccountCache.Freshness
import SolanaArbBot.Simulation.Fidelity
import SolanaArbBot.Simulation.Simulator
import SolanaArbBot.Jito.Client
import SolanaArbBot.JitoGrpc.Broadcast
import SolanaArbBot.JitoGrpc.Expiry
import SolanaArbBot.JitoGrpc.Reauth
import SolanaArbBot.JitoGrpc.Renewal
import SolanaArbBot.Arbitrage.Quotes
import SolanaArbBot.Arbitrage.Admission
import SolanaArbBot.Arbitrage.CachedService
import SolanaArbBot.Arbitrage.Fates
import SolanaArbBot.Arbitrage.SlotSpending
import SolanaArbBot.Arbitrage.Scan
import SolanaArbBot.Arbitrage.Submissions
import SolanaArbBot.Arbitrage.Timestamp
import SolanaArbBot.Arbitrage.Statistics
import SolanaArbBot.Arbitrage.Progress
import SolanaArbBot.Arbitrage.Work
import SolanaArbBot.Arbitrage.ScanCycle
