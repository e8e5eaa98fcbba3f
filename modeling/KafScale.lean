import KafScale.Lib.WireWord
import KafScale.Lib.LabelledRun
import KafScale.Lib.Outcome
import KafScale.Lib.KeyMap
import KafScale.Storage.RecordBatch
import KafScale.Storage.Buffer
import KafScale.Storage.Index
import KafScale.Storage.Segment
import KafScale.Storage.Cache
import KafScale.Storage.Log
import KafScale.Storage.Keys
import KafScale.Storage.Fetch
import KafScale.Lib.Intervals
import KafScale.Storage.Offsets
import KafScale.Broker.Produce
import KafScale.Protocol.Wire
import KafScale.Protocol.Request
import KafScale.Protocol.Response
import KafScale.Protocol.KafkaSpec
import KafScale.Lib.VersionedCell
import KafScale.Metadata.Etcd
import KafScale.Metadata.Cluster
import KafScale.Proxy.Forward
import KafScale.Coordinator.Cluster
import KafScale.Sql.Server
import KafScale.Sql.Discovery
import KafScale.Sql.Manifest
import KafScale.Sql.Scan
import KafScale.Sql.Aggregate
import KafScale.Storage.Restore
import KafScale.Coordinator.Invariants
import KafScale.Lib.Decimal
import KafScale.Metadata.Consumers
import KafScale.Processor.Run
import KafScale.Lib.LeaseStore
import KafScale.Processor.Lease
import KafScale.Lib.ByteReader
import KafScale.Lib.Varint
import KafScale.Processor.Segment
import KafScale.Processor.Decoder
import KafScale.Lib.Regexp
import KafScale.Sql.Parser
import KafScale.Sql.ParserSafety
import KafScale.Storage.CacheLru
import KafScale.Metadata.EtcdConsumers
import KafScale.Lib.RoundRobin
import KafScale.Coordinator.Assignment
import KafScale.Coordinator.OffsetCommit
import KafScale.Broker.Topics
import KafScale.Coordinator.Subscription
import KafScale.Protocol.Codec
import KafScale.Processor.IcebergSchema
import KafScale.Lib.SlidingWindow
import KafScale.Broker.S3Health
import KafScale.Lib.Recency
import KafScale.Sql.ResultCache
import KafScale.Protocol.Frame
import KafScale.Broker.Fetch
import KafScale.Lib.Channel
import KafScale.Sql.QueryLimiter
import KafScale.Sql.RowCollector
import KafScale.Sql.Select
