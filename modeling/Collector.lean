import Collector.RemoteWrite.LabelSets
import Collector.RemoteWrite.NilTolerance
import Collector.RemoteWrite.Shutdown
import Collector.Pdata.DeepCopy
import Collector.OpenCensus.SpansTrip
import Collector.RemoteWrite.FromOpenCensus
import Collector.ExporterHelper.Conservation
import Collector.RemoteWrite.Accounting
import Collector.Cortex.Signing
import Collector.OtlpExporter.Meaning
import Collector.Service.Order
import Collector.Fanout.Isolation
import Collector.QueuedRetry.Machine
import Collector.Processor.FilterSpan
import Collector.Processor.Meaning
import Collector.Processor.Removal
import Collector.Processor.SpanRename
import Collector.Batch.Maximum
import Collector.Batch.Shutdown
import Collector.GroupByTrace.StorageCalls
import Collector.GroupByTrace.Conservation
import Collector.GroupByTrace.Deadlock
import Collector.Sampling.Probabilistic
import Collector.Prometheus.Builder
import Collector.Prometheus.Safety
import Collector.Prometheus.Cumulative
import Collector.Prometheus.Separation
import Collector.Prometheus.Collection
import Collector.Translator.UnsetTimes
import Collector.Zipkin.Spelling
import Collector.Zipkin.Attribution
import Collector.Jaeger.Export
import Collector.Jaeger.References
import Collector.Zipkin.V1Batches
import Collector.Zipkin.V1Thrift
import Collector.Fluent.ModeDetection
import Collector.TailSampling.Final
import Collector.Batch.Progress
import Collector.Sampling.Murmur
import Collector.TailSampling.RateLimiting
import Collector.TailSampling.TagPolicies
import Collector.GroupByTrace.Ring
import Collector.Batch.SplitLoops
