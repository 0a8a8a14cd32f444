import FlzChat.Runs
import FlzChat.Json
import FlzChat.Platform
import FlzChat.Config
import FlzChat.Metrics
import FlzChat.SessionRegistry
import FlzChat.Eviction
import FlzChat.RegistryInvariant
import FlzChat.Envelope
import FlzChat.LruIdempotency
import FlzChat.AmqpClient
import FlzChat.Publisher
import FlzChat.PublisherDelivery
import FlzChat.Consumer
import FlzChat.ConsumerDelivery
import FlzChat.Settlement
import FlzChat.Server
import FlzChat.Footprint
import FlzChat.WsToMq
import FlzChat.MqToWs
import FlzChat.Workers
import FlzChat.Pushes
import FlzChat.Jwt
import FlzChat.JwtSafety
import FlzChat.ChatServlet
import FlzChat.FrameSafety
import FlzChat.Hub
import FlzChat.JwtSoundness
import FlzChat.Newcomer
import FlzChat.LiveConnections
import FlzChat.Presence
import FlzChat.FrameTokens
import FlzChat.PresenceRace
import FlzChat.FanOut
import FlzChat.AllOrNone
import FlzChat.SendInterference
import FlzChat.FifoOrder
import FlzChat.Greeting
import FlzChat.DeliveryOrder
import FlzChat.Verdicts
import FlzChat.TokenBucket
import FlzChat.RateLimit
import FlzChat.SlidingWindow
import FlzChat.RejectedSends
import FlzChat.Conversions
import FlzChat.Notifications
import FlzChat.Accounting
import FlzChat.ConnectionSetup
import FlzChat.SubjectParser
import FlzChat.Base64
import FlzChat.JwtMinting
import FlzChat.Prometheus
import FlzChat.RawPage
import FlzChat.LatencyHistogram
import FlzChat.MetricsPage
import FlzChat.PageFidelity
import FlzChat.Base64Url
import FlzChat.ReconnectBackoff
import FlzChat.LatencyPage
import FlzChat.LatencyClock
import FlzChat.Deeds
import FlzChat.Audience
import FlzChat.Closings
import FlzChat.PendingSends
import FlzChat.Responses
import FlzChat.ConnectionProtocol
import FlzChat.ThreadLoop
import FlzChat.Lifecycle
import FlzChat.HandledOnce
import FlzChat.Calendar
import FlzChat.Deliveries
import FlzChat.FixedWidth
import FlzChat.FrameCounts
import FlzChat.Shutdown
import FlzChat.TimeUtil
import FlzChat.Uuid
import FlzChat.Wire
