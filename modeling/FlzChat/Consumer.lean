/-
`MqConsumer`: the thread that takes deliveries, filters duplicates, runs the
handler and settles with the broker.  Its iteration is cut after
`EnsureConnected`, since a delivery can only arrive on a connected client.
-/
import FlzChat.Envelope
import FlzChat.LruIdempotency
import FlzChat.Publisher

namespace FlzChat

inductive ConsumeResult where
  | ack
  | nackRequeue
  | nackDrop
deriving DecidableEq

/-- How an invocation of the handler ends. -/
inductive Invocation where
  | returned (result : ConsumeResult)
  | threw
deriving DecidableEq

/-- An exception counts as a request to redeliver. -/
def Invocation.result : Invocation → ConsumeResult
  | returned result => result
  | threw => .nackRequeue

/-- The settlement call for a result. -/
def ConsumeResult.settlement (deliveryTag : UInt64) : ConsumeResult → AmqpCall
  | ack => .basicAck deliveryTag
  | nackRequeue => .basicNack deliveryTag true
  | nackDrop => .basicNack deliveryTag false

/-- The label the consumption is counted under. -/
def ConsumeResult.label : ConsumeResult → StdString
  | ack => lit "ok"
  | nackRequeue => lit "fail"
  | nackDrop => lit "fail"

/-- Where an iteration of `Run` leads; an exception that leaves the thread's
function terminates the process. -/
inductive Flow where
  | next
  | stopped
  | terminated
deriving DecidableEq

/-- The consumer with the local variables of its thread.  `ready` is whether
this iteration's `EnsureConnected` has returned true; `invocations` records
the handler calls with what the thread saw of them, `none` standing for no
answer within the wait. -/
structure MqConsumer where
  hasHandler : Bool := true
  scheduler : Option IoManager := none
  client : AmqpClient := {}
  idempotency : LruIdempotencyCache := ⟨100000, 24 * 3600 * 1000, [], ∅, 0⟩
  backoff : Int32
  metrics : ChatMetrics := {}
  ready : Bool := false
  sleeps : List Int32 := []
  invocations : List (Envelope × Option Invocation) := []

namespace MqConsumer

def ensureConnected (cfg : RabbitMqConfig) (replies : Replies) :
    AmqpClient → ChatMetrics → Bool × AmqpClient × ChatMetrics :=
  AmqpClient.ensureConnected replies (lit "consumer")
    [AmqpClient.openChannel replies (cfg.consumerPrefetch.toInt % 2 ^ 16).toNat,
      AmqpClient.declareForConsumer replies,
      AmqpClient.startConsume replies cfg.consumerQueue cfg.consumerTag
        cfg.consumerAutoAck]

/-- The start of an iteration. -/
def connectStep (cfg : RabbitMqConfig) (replies : Replies)
    (consumer : MqConsumer) : MqConsumer :=
  match ensureConnected cfg replies consumer.client consumer.metrics with
  | (false, client, metrics) =>
      { consumer with
        client := client
        metrics := metrics
        sleeps := consumer.sleeps ++ [consumer.backoff]
        backoff := doubleBackoff cfg.reconnectMaxBackoffMs consumer.backoff }
  | (true, client, metrics) =>
      { consumer with
        client := client
        metrics := metrics
        backoff := cfg.reconnectInitialBackoffMs
        ready := true }

/-- `DispatchToScheduler`; without a scheduler the thread runs the handler
itself, so `answer` is `none` only with one. -/
def dispatchToScheduler (env : Envelope) (answer : Option Invocation)
    (consumer : MqConsumer) : ConsumeResult × MqConsumer :=
  if consumer.hasHandler = false then (.ack, consumer)
  else ((answer.map Invocation.result).getD .nackRequeue,
    { consumer with invocations := consumer.invocations ++ [(env, answer)] })

/-- Tell the broker the result; a failing call closes the client. -/
def settle (replies : Replies) (deliveryTag : UInt64) (type : StdString)
    (result : ConsumeResult) (consumer : MqConsumer) : MqConsumer :=
  let settled := match result with
    | .ack => consumer.client.ack replies deliveryTag
    | .nackRequeue => consumer.client.nack replies deliveryTag true
    | .nackDrop => consumer.client.nack replies deliveryTag false
  { consumer with
    client := if settled.1 then settled.2 else settled.2.close
    metrics := consumer.metrics.incMqConsume type result.label }

/-- An iteration from a delivery on. -/
def handleDelivery (P : Platform) (replies : Replies) (d : AmqpDelivery)
    (nowMs : Int) (answer : Option Invocation) (consumer : MqConsumer) :
    Flow × MqConsumer :=
  match envelopeFromString P d.body with
  | .error _ => (.terminated, consumer)
  | .ok (.error _) =>
      (.next, { consumer with
        metrics := consumer.metrics.incMqConsume d.routingKey (lit "fail")
        client := (consumer.client.ack replies d.deliveryTag).2 })
  | .ok (.ok env) =>
      match consumer.idempotency.tryMark env.msgId nowMs with
      | (false, idempotency) =>
          (.next, { consumer with
            idempotency := idempotency
            metrics := consumer.metrics.incMqConsume env.type (lit "dup")
            client := (consumer.client.ack replies d.deliveryTag).2 })
      | (true, idempotency) =>
          match dispatchToScheduler env answer
              { consumer with idempotency := idempotency } with
          | (result, consumer) =>
              (.next, consumer.settle replies d.deliveryTag env.type result)

/-- The rest of an iteration after `EnsureConnected`: `running` is
`m_running` as read after `Consume`. -/
def consumeStep (P : Platform) (replies : Replies) (reply : ConsumeReply)
    (running : Bool) (nowMs : Int) (answer : Option Invocation)
    (consumer : MqConsumer) : Flow × MqConsumer :=
  let consumer := { consumer with
    ready := false
    client := (consumer.client.request replies .consumeMessage).2 }
  if running = false then (.stopped, consumer)
  else match reply with
    | .timeout => (.next, consumer)
    | .failure => (.next, { consumer with client := consumer.client.close })
    | .delivery d => consumer.handleDelivery P replies d nowMs answer

/-- The consumer when its thread starts. -/
def initial (cfg : RabbitMqConfig) (scheduler : Option IoManager) : MqConsumer :=
  { scheduler := scheduler, backoff := cfg.reconnectInitialBackoffMs }

/-! What a delivery does to the client. -/

/-- Among the calls made since, `call` is the only settlement. -/
def Settled (call : AmqpCall) (client client' : AmqpClient) : Prop :=
  ∃ calls, client'.calls = client.calls ++ calls ∧
    calls.filter AmqpCall.isSettlement = [call]

theorem filter_settlement_of_unsettling {calls : List AmqpCall}
    (hcalls : ∀ call ∈ calls, AmqpClient.Unsettling call) :
    calls.filter AmqpCall.isSettlement = [] := by
  rw [List.filter_eq_nil_iff]
  intro call hcall hsettle
  rw [hcalls call hcall] at hsettle
  contradiction

theorem Settled.extend {call : AmqpCall} {client₁ client₂ client₃ : AmqpClient}
    (hsettled : Settled call client₁ client₂)
    (hmore : AmqpClient.Extends AmqpClient.Unsettling client₂ client₃) :
    Settled call client₁ client₃ := by
  obtain ⟨calls, heq, hfilter⟩ := hsettled
  obtain ⟨more, heq', hunsettling⟩ := hmore
  refine ⟨calls ++ more, by rw [heq', heq, List.append_assoc], ?_⟩
  rw [List.filter_append, hfilter, filter_settlement_of_unsettling hunsettling,
    List.append_nil]

theorem Settled.prepend {call : AmqpCall} {client₁ client₂ client₃ : AmqpClient}
    (hbefore : AmqpClient.Extends AmqpClient.Unsettling client₁ client₂)
    (hsettled : Settled call client₂ client₃) : Settled call client₁ client₃ := by
  obtain ⟨before, heq, hunsettling⟩ := hbefore
  obtain ⟨calls, heq', hfilter⟩ := hsettled
  refine ⟨before ++ calls, by rw [heq', heq, List.append_assoc], ?_⟩
  rw [List.filter_append, hfilter, filter_settlement_of_unsettling hunsettling,
    List.nil_append]

/-- `call` is the first call made since, and no later one settles. -/
def SettledAtOnce (call : AmqpCall) (client client' : AmqpClient) : Prop :=
  ∃ rest, client'.calls = client.calls ++ call :: rest ∧
    ∀ other ∈ rest, AmqpClient.Unsettling other

theorem SettledAtOnce.settled {call : AmqpCall} {client client' : AmqpClient}
    (hatOnce : SettledAtOnce call client client')
    (hcall : call.isSettlement = true) : Settled call client client' := by
  obtain ⟨rest, heq, hunsettling⟩ := hatOnce
  refine ⟨call :: rest, heq, ?_⟩
  rw [List.filter_cons_of_pos hcall, filter_settlement_of_unsettling hunsettling]

theorem SettledAtOnce.extend {call : AmqpCall}
    {client₁ client₂ client₃ : AmqpClient}
    (hatOnce : SettledAtOnce call client₁ client₂)
    (hmore : AmqpClient.Extends AmqpClient.Unsettling client₂ client₃) :
    SettledAtOnce call client₁ client₃ := by
  obtain ⟨rest, heq, hrest⟩ := hatOnce
  obtain ⟨more, heq', hmore⟩ := hmore
  refine ⟨rest ++ more, by rw [heq', heq, List.append_assoc, List.cons_append], ?_⟩
  intro other hother
  rcases List.mem_append.mp hother with hother | hother
  · exact hrest other hother
  · exact hmore other hother

theorem settledAtOnce_requestAll (replies : Replies) (call : AmqpCall)
    (client : AmqpClient) :
    SettledAtOnce call client (AmqpClient.requestAll replies [call] client).2 := by
  refine ⟨[], ?_, by simp⟩
  rw [AmqpClient.requestAll_singleton]
  rfl

theorem settled_requestAll (replies : Replies) {call : AmqpCall}
    (hcall : call.isSettlement = true) (client : AmqpClient) :
    Settled call client (AmqpClient.requestAll replies [call] client).2 :=
  (settledAtOnce_requestAll replies call client).settled hcall

theorem isSettlement_settlement (deliveryTag : UInt64)
    (result : ConsumeResult) :
    (result.settlement deliveryTag).isSettlement = true := by
  cases result <;> rfl

/-- The calls since are read off by dropping the earlier ones. -/
theorem Settled.mem_drop_iff {call other : AmqpCall} {client client' : AmqpClient}
    (hsettled : Settled call client client') (hother : other.isSettlement = true) :
    other ∈ client'.calls.drop client.calls.length ↔ other = call := by
  obtain ⟨calls, heq, hfilter⟩ := hsettled
  have hmem : other ∈ calls.filter AmqpCall.isSettlement ↔ other ∈ calls := by
    simp [hother]
  rw [heq, List.drop_left, ← hmem, hfilter, List.mem_singleton]

/-- The client is left as the settling call leaves it, closed if it failed. -/
theorem settle_client (replies : Replies) (deliveryTag : UInt64)
    (type : StdString) (result : ConsumeResult) (consumer : MqConsumer) :
    (consumer.settle replies deliveryTag type result).client =
      if (AmqpClient.requestAll replies [result.settlement deliveryTag]
          consumer.client).1 then
        (AmqpClient.requestAll replies [result.settlement deliveryTag]
          consumer.client).2
      else
        (AmqpClient.requestAll replies [result.settlement deliveryTag]
          consumer.client).2.close := by
  cases result <;> rfl

theorem settledAtOnce_settle (replies : Replies) (deliveryTag : UInt64)
    (type : StdString) (result : ConsumeResult) (consumer : MqConsumer) :
    SettledAtOnce (result.settlement deliveryTag) consumer.client
      (consumer.settle replies deliveryTag type result).client := by
  have hatOnce := settledAtOnce_requestAll replies
    (result.settlement deliveryTag) consumer.client
  rw [settle_client]
  split_ifs
  · exact hatOnce
  · exact hatOnce.extend (AmqpClient.unsettling_close _)

theorem settle_settled (replies : Replies) (deliveryTag : UInt64)
    (type : StdString) (result : ConsumeResult) (consumer : MqConsumer) :
    Settled (result.settlement deliveryTag) consumer.client
      (consumer.settle replies deliveryTag type result).client :=
  (settledAtOnce_settle replies deliveryTag type result consumer).settled
    (isSettlement_settlement deliveryTag result)

@[simp]
theorem dispatchToScheduler_client (env : Envelope)
    (answer : Option Invocation) (consumer : MqConsumer) :
    (consumer.dispatchToScheduler env answer).2.client = consumer.client := by
  simp only [dispatchToScheduler]
  split <;> rfl

@[simp]
theorem settle_invocations (replies : Replies) (deliveryTag : UInt64)
    (type : StdString) (result : ConsumeResult) (consumer : MqConsumer) :
    (consumer.settle replies deliveryTag type result).invocations =
      consumer.invocations := rfl

@[simp]
theorem settle_idempotency (replies : Replies) (deliveryTag : UInt64)
    (type : StdString) (result : ConsumeResult) (consumer : MqConsumer) :
    (consumer.settle replies deliveryTag type result).idempotency =
      consumer.idempotency := rfl

@[simp]
theorem settle_hasHandler (replies : Replies) (deliveryTag : UInt64)
    (type : StdString) (result : ConsumeResult) (consumer : MqConsumer) :
    (consumer.settle replies deliveryTag type result).hasHandler =
      consumer.hasHandler := rfl

/-- A decoded delivery is settled at once and the thread goes on. -/
theorem handleDelivery_atOnce (P : Platform) (replies : Replies)
    (d : AmqpDelivery) (nowMs : Int) (answer : Option Invocation)
    (consumer : MqConsumer) {res : Except StdString Envelope}
    (hres : envelopeFromString P d.body = .ok res) :
    (consumer.handleDelivery P replies d nowMs answer).1 = .next ∧
      ∃ result : ConsumeResult, SettledAtOnce (result.settlement d.deliveryTag)
        consumer.client
        (consumer.handleDelivery P replies d nowMs answer).2.client := by
  have hack : SettledAtOnce (.basicAck d.deliveryTag) consumer.client
      (consumer.client.ack replies d.deliveryTag).2 :=
    settledAtOnce_requestAll replies _ consumer.client
  simp only [handleDelivery]
  rw [hres]
  cases res with
  | error text => exact ⟨rfl, .ack, hack⟩
  | ok env =>
      simp only
      rcases consumer.idempotency.tryMark env.msgId nowMs with ⟨_ | _, idempotency⟩
      · exact ⟨rfl, .ack, hack⟩
      · refine ⟨rfl, ?_⟩
        have hatOnce := settledAtOnce_settle replies d.deliveryTag env.type
          (dispatchToScheduler env answer
            { consumer with idempotency := idempotency }).1
          (dispatchToScheduler env answer
            { consumer with idempotency := idempotency }).2
        rw [dispatchToScheduler_client] at hatOnce
        exact ⟨_, hatOnce⟩

/-- A decoded delivery is settled once and the thread goes on. -/
theorem handleDelivery_of_returns (P : Platform) (replies : Replies)
    (d : AmqpDelivery) (nowMs : Int) (answer : Option Invocation)
    (consumer : MqConsumer) {res : Except StdString Envelope}
    (hres : envelopeFromString P d.body = .ok res) :
    (consumer.handleDelivery P replies d nowMs answer).1 = .next ∧
      ∃ result : ConsumeResult, Settled (result.settlement d.deliveryTag)
        consumer.client
        (consumer.handleDelivery P replies d nowMs answer).2.client := by
  obtain ⟨hnext, result, hatOnce⟩ :=
    handleDelivery_atOnce P replies d nowMs answer consumer hres
  exact ⟨hnext, result, hatOnce.settled (isSettlement_settlement _ result)⟩

theorem unsettling_consumeMessage (replies : Replies) (client : AmqpClient) :
    AmqpClient.Extends AmqpClient.Unsettling client
      (client.request replies .consumeMessage).2 :=
  AmqpClient.unsettling_request replies .consumeMessage rfl client

end MqConsumer

end FlzChat
