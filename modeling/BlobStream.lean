import BlobStream.Write.UniqueNumbers
import BlobStream.Write.Contiguity
import BlobStream.Consumer.PlanVersions
import BlobStream.Producer.Acknowledgement
import BlobStream.Consumer.LeaseExclusivity
import BlobStream.Write.FlushLoopDrain
import BlobStream.Write.LeaseRelease
import BlobStream.Consumer.CheckpointOverlap
import BlobStream.Consumer.CommittedProgress
import BlobStream.Store.ConsumerStoreAgreement
import BlobStream.Store.ProducerStoreAgreement
import BlobStream.Write.PackingMinimal
import BlobStream.Write.FlushPlanning
import BlobStream.Discovery.BalancedAssignment
import BlobStream.Consumer.PlanValidity
import BlobStream.Consumer.ReplanFixpoint
import BlobStream.Read.ReadProgress
import BlobStream.Write.AdaptiveFlushDelay
import BlobStream.Store.SegmentCodec
import BlobStream.Consumer.BatchDelivery
import BlobStream.Write.SequenceRuns
import BlobStream.Write.ReservationGrowth
