import FuelCore.Poa.RedisScripts
import FuelCore.Poa.LeaderLease
import FuelCore.Poa.Cluster
import FuelCore.Poa.Safety
import FuelCore.Lib.AList
import FuelCore.Lib.ReverseIndex
import FuelCore.Lib.StableGraph
import FuelCore.Lib.OrderedKeys
import FuelCore.Lib.Unsigned
import FuelCore.Lib.Saturating
import FuelCore.Lib.Range
import FuelCore.Lib.StateInvariant
import FuelCore.Storage.KvStore
import FuelCore.Storage.Transactional
import FuelCore.Storage.TransactionalRefinement
import FuelCore.Storage.HistoricalRocksDb
import FuelCore.Storage.HistoricalRewind
import FuelCore.Importer.Database
import FuelCore.Importer.Importer
import FuelCore.Importer.Commit
import FuelCore.TxPool.Transaction
import FuelCore.TxPool.GraphStorage
import FuelCore.TxPool.CollisionManager
import FuelCore.TxPool.Selection
import FuelCore.TxPool.Pool
import FuelCore.TxPool.StorageSpec
import FuelCore.TxPool.SelectionSpec
import FuelCore.TxPool.PoolSpec
import FuelCore.TxPool.Integrity
import FuelCore.TxPool.Totals
import FuelCore.TxPool.Gather
import FuelCore.GasPrice.WorstCase
import FuelCore.GasPrice.UpdaterV1
import FuelCore.GasPrice.Projection
import FuelCore.GasPrice.Service
import FuelCore.GasPrice.PriceChange
import FuelCore.Sync.State
import FuelCore.Sync.StateSpec
import FuelCore.Executor.Types
import FuelCore.Executor.Transaction
import FuelCore.Executor.Block
import FuelCore.Executor.TransactionSpec
import FuelCore.Executor.Production
import FuelCore.Executor.BlockSpec
import FuelCore.Compression.TemporalRegistry
import FuelCore.TxStatus.Manager
import FuelCore.Relayer.Logs
import FuelCore.TxStatus.UpdateSender
import FuelCore.Services.SeqLock
import FuelCore.P2p.PeerManager
import FuelCore.Sync.Cache
import FuelCore.TxPool.PendingPool
import FuelCore.GraphqlApi.CoinsToSpendKey
import FuelCore.Lib.LargestSum
import FuelCore.CoinsQuery.LargestFirst
import FuelCore.CoinsQuery.SelectCoins
import FuelCore.Lib.FiberSum
import FuelCore.GraphqlApi.Indexation
import FuelCore.Lib.Except
import FuelCore.Compression.Compress
import FuelCore.Compression.CompressSpec
import FuelCore.Poa.SyncTask
import FuelCore.BlockAggregator.Storage
import FuelCore.BlockAggregator.StorageSpec
import FuelCore.BlockAggregator.Task
import FuelCore.BlockAggregator.TaskSpec
import FuelCore.Producer.BlockProducer
import FuelCore.Producer.BlockProducerSpec
