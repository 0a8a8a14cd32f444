/-
`MqPublisher`: the queue callers fill and the thread that drains it.  The
thread's iteration is cut where other threads can get in between: taking a
task under the lock, connecting, and publishing.
-/
import FlzChat.AmqpClient
import FlzChat.Envelope
import FlzChat.Runs

namespace FlzChat

structure Task where
  routingKey : StdString
  payload : Json
  priority : UInt8

/-- `std::min(max, backoff * 2)` -/
def doubleBackoff (maxBackoff backoff : Int32) : Int32 :=
  if backoff * 2 < maxBackoff then backoff * 2 else maxBackoff

/-- The publisher with the local variables of its thread.  `held` is the task
of the current iteration, `ready` whether its `EnsureConnected` has returned
true; `sleeps`, `accepted` and `handed` record what has happened. -/
structure MqPublisher where
  queue : List Task := []
  held : Option Task := none
  ready : Bool := false
  client : AmqpClient := {}
  backoff : Int32
  metrics : ChatMetrics := {}
  sleeps : List Int32 := []
  accepted : List Task := []
  handed : List Task := []

namespace MqPublisher

/-- `Publish` on the queue: a full queue refuses the task. -/
def enqueue (cfg : ChatConfig) (queue : List Task) (metrics : ChatMetrics)
    (task : Task) : Bool × List Task × ChatMetrics :=
  if toSizeT cfg.rabbitmq.publisherQueueCapacity ≤ queue.length then
    (false, queue, metrics.incMqPublish task.routingKey (lit "fail"))
  else (true, queue ++ [task], metrics)

/-- The task of `PublishUserOnline`. -/
def userOnlineTask (userId : UInt64) : Task :=
  ⟨lit "business.user.online", .object [("userId", .uint userId)], 5⟩

/-- The task of `PublishUserOffline`. -/
def userOfflineTask (userId : UInt64) : Task :=
  ⟨lit "business.user.offline", .object [("userId", .uint userId)], 5⟩

/-- The task of `PublishMsgAck`. -/
def msgAckTask (clock : Clock) (messageId : Int64) (receiverId : UInt64) :
    Task :=
  ⟨lit "business.msg.ack",
    .object [("messageId", .int messageId), ("receiverId", .uint receiverId),
      ("ackAt", .str clock.iso8601Now)], 0⟩

def publish (cfg : ChatConfig) (task : Task) (pub : MqPublisher) :
    Bool × MqPublisher :=
  match enqueue cfg pub.queue pub.metrics task with
  | (false, queue, metrics) =>
      (false, { pub with queue := queue, metrics := metrics })
  | (true, queue, metrics) =>
      (true, { pub with
        queue := queue
        metrics := metrics
        accepted := pub.accepted ++ [task] })

/-- The start of an iteration: take the front task, if there is one. -/
def dequeue (pub : MqPublisher) : MqPublisher :=
  match pub.queue with
  | [] => pub
  | task :: queue => { pub with queue := queue, held := some task, ready := false }

def ensureConnected (replies : Replies) : AmqpClient → ChatMetrics →
    Bool × AmqpClient × ChatMetrics :=
  AmqpClient.ensureConnected replies (lit "publisher")
    [AmqpClient.openChannel replies 0, AmqpClient.declareForPublisher replies]

/-- The iteration from `EnsureConnected` on; on failure it gives the task up
and sleeps. -/
def connectStep (cfg : ChatConfig) (replies : Replies) (task : Task)
    (pub : MqPublisher) : MqPublisher :=
  match ensureConnected replies pub.client pub.metrics with
  | (false, client, metrics) =>
      { pub with
        client := client
        metrics := metrics.incMqPublish task.routingKey (lit "fail")
        sleeps := pub.sleeps ++ [pub.backoff]
        backoff := doubleBackoff cfg.rabbitmq.reconnectMaxBackoffMs pub.backoff
        held := none }
  | (true, client, metrics) =>
      { pub with
        client := client
        metrics := metrics
        backoff := cfg.rabbitmq.reconnectInitialBackoffMs
        ready := true }

/-- The broker call that publishes a task. -/
def publishCall (P : Platform) (clock : Clock) (msgId : StdString)
    (task : Task) : AmqpCall :=
  let env := buildEnvelope clock msgId (lit "chat") task.routingKey task.payload
  .basicPublish (lit "business.exchange") task.routingKey
    (envelopeToString P env) task.priority env.msgId

/-- The rest of the iteration: publish the held task. -/
def sendStep (P : Platform) (replies : Replies) (clock : Clock)
    (msgId : StdString) (task : Task) (pub : MqPublisher) : MqPublisher :=
  match AmqpClient.requestAll replies [publishCall P clock msgId task]
      pub.client with
  | (false, client) =>
      { pub with
        client := client.close
        metrics := pub.metrics.incMqPublish task.routingKey (lit "fail")
        held := none
        ready := false }
  | (true, client) =>
      { pub with
        client := client
        metrics := pub.metrics.incMqPublish task.routingKey (lit "ok")
        held := none
        ready := false
        handed := pub.handed ++ [task] }

/-- One atomic step: a caller's `Publish`, or the thread's next move. -/
inductive Event where
  | publish (task : Task)
  | dequeue
  | connect (replies : Replies)
  | send (replies : Replies) (clock : Clock) (msgId : StdString)

/-- The calls a disconnected publisher makes before it can publish. -/
def setupCalls : List AmqpCall :=
  [.newConnection, .tcpSocketNew, .socketOpen, .login, .channelOpen,
    AmqpClient.businessExchange] ++ AmqpClient.chatTopology

/-- Callers publish at any time; the thread follows its program. -/
def machine (P : Platform) (cfg : ChatConfig) : Machine MqPublisher Event where
  enabled pub
    | .publish _ => True
    | .dequeue => pub.held = none
    | .connect _ => pub.held.isSome = true ∧ pub.ready = false
    | .send _ _ _ => pub.held.isSome = true ∧ pub.ready = true
  step pub
    | .publish task => (pub.publish cfg task).2
    | .dequeue => pub.dequeue
    | .connect replies =>
        match pub.held with
        | none => pub
        | some task => pub.connectStep cfg replies task
    | .send replies clock msgId =>
        match pub.held with
        | none => pub
        | some task => pub.sendStep P replies clock msgId task

/-- The publisher when its thread starts. -/
def initial (cfg : ChatConfig) : MqPublisher :=
  { backoff := cfg.rabbitmq.reconnectInitialBackoffMs }

end MqPublisher

end FlzChat
