/-
The broker client.  Each request to the broker library is one call whose
outcome the environment picks; the client keeps the calls it has made, in
order, so that later results can speak about what the broker saw.
-/
import FlzChat.Config
import FlzChat.Metrics

namespace FlzChat

/-- A value among the arguments of a queue. -/
inductive AmqpField where
  | utf8 (value : StdString)
  | i32 (value : Int32)
deriving DecidableEq

/-- The librabbitmq calls the client makes; arguments that are the same in every
call of their kind are left out. -/
inductive AmqpCall where
  | newConnection
  | tcpSocketNew
  | socketOpen
  | login
  | channelOpen
  | basicQos (prefetchCount : Nat)
  | exchangeDeclare (name type : StdString) (durable : Bool)
  | queueDeclare (name : StdString) (durable : Bool)
      (arguments : List (StdString × AmqpField))
  | queueBind (queue exchange routingKey : StdString)
  | basicConsume (queue consumerTag : StdString) (noAck : Bool)
  | basicPublish (exchange routingKey body : StdString) (priority : UInt8)
      (messageId : StdString)
  | consumeMessage
  | basicAck (deliveryTag : UInt64)
  | basicNack (deliveryTag : UInt64) (requeue : Bool)
  | channelClose
  | connectionClose
  | destroyConnection
deriving DecidableEq

/-- Ack and Nack, the calls that settle a delivery. -/
def AmqpCall.isSettlement : AmqpCall → Bool
  | basicAck _ => true
  | basicNack _ _ => true
  | _ => false

def AmqpCall.isPublish : AmqpCall → Bool
  | basicPublish _ _ _ _ _ => true
  | _ => false

/-- Which calls succeed. -/
abbrev Replies := AmqpCall → Bool

structure AmqpDelivery where
  deliveryTag : UInt64
  routingKey : StdString
  body : StdString

/-- The outcomes of `AmqpClient::Consume`: a time-out leaves `err` empty, a
failure does not. -/
inductive ConsumeReply where
  | timeout
  | failure
  | delivery (d : AmqpDelivery)

/-- `conn` is whether `m_conn` is set, `connected` is `m_connected`. -/
structure AmqpClient where
  conn : Bool := false
  connected : Bool := false
  calls : List AmqpCall := []
deriving DecidableEq

namespace AmqpClient

def request (replies : Replies) (call : AmqpCall) (client : AmqpClient) :
    Bool × AmqpClient :=
  (replies call, { client with calls := client.calls ++ [call] })

/-- Make the calls in order up to the first that fails. -/
def requestAll (replies : Replies) : List AmqpCall → AmqpClient →
    Bool × AmqpClient
  | [], client => (true, client)
  | call :: calls, client =>
      match client.request replies call with
      | (true, client) => requestAll replies calls client
      | (false, client) => (false, client)

theorem requestAll_singleton (replies : Replies) (call : AmqpCall)
    (client : AmqpClient) :
    requestAll replies [call] client = client.request replies call := by
  cases hreply : replies call <;> simp [requestAll, request, hreply]

def close (client : AmqpClient) : AmqpClient :=
  let farewell := if client.connected then
    [AmqpCall.channelClose, .connectionClose] else []
  let calls := if client.conn then
    client.calls ++ farewell ++ [.destroyConnection] else client.calls
  { conn := false, connected := false, calls := calls }

def connect (replies : Replies) (client : AmqpClient) : Bool × AmqpClient :=
  match client.close.request replies .newConnection with
  | (false, client) => (false, client)
  | (true, client) =>
      match requestAll replies [.tcpSocketNew, .socketOpen, .login]
          { client with conn := true } with
      | (false, client) => (false, client.close)
      | (true, client) => (true, { client with connected := true })

def openChannel (replies : Replies) (prefetchCount : Nat)
    (client : AmqpClient) : Bool × AmqpClient :=
  if client.connected = false then (false, client)
  else requestAll replies
    (.channelOpen :: if 0 < prefetchCount then [.basicQos prefetchCount] else [])
    client

/-- The declarations of `DeclareChatTopology`: what stays in the delivery queue
for a day goes to the queue of the dead. -/
def chatTopology : List AmqpCall :=
  [.exchangeDeclare (lit "chat.exchange") (lit "topic") true,
    .exchangeDeclare (lit "chat.dlx") (lit "fanout") true,
    .queueDeclare (lit "chat.delivery.queue") true
      [(lit "x-dead-letter-exchange", .utf8 (lit "chat.dlx")),
        (lit "x-message-ttl", .i32 86400000)],
    .queueBind (lit "chat.delivery.queue") (lit "chat.exchange") (lit "chat.#"),
    .queueDeclare (lit "chat.dlq") true [],
    .queueBind (lit "chat.dlq") (lit "chat.dlx") []]

def declareChatTopology (replies : Replies) : AmqpClient → Bool × AmqpClient :=
  requestAll replies chatTopology

/-- The declaration of `DeclareBusinessExchange`. -/
def businessExchange : AmqpCall :=
  .exchangeDeclare (lit "business.exchange") (lit "topic") true

def declareBusinessExchange (replies : Replies) :
    AmqpClient → Bool × AmqpClient :=
  requestAll replies [businessExchange]

def startConsume (replies : Replies) (queue consumerTag : StdString)
    (autoAck : Bool) : AmqpClient → Bool × AmqpClient :=
  requestAll replies [.basicConsume queue consumerTag autoAck]

def publish (replies : Replies) (exchange routingKey body : StdString)
    (priority : UInt8) (messageId : StdString) :
    AmqpClient → Bool × AmqpClient :=
  requestAll replies [.basicPublish exchange routingKey body priority messageId]

def ack (replies : Replies) (deliveryTag : UInt64) :
    AmqpClient → Bool × AmqpClient :=
  requestAll replies [.basicAck deliveryTag]

def nack (replies : Replies) (deliveryTag : UInt64) (requeue : Bool) :
    AmqpClient → Bool × AmqpClient :=
  requestAll replies [.basicNack deliveryTag requeue]

/-- `Topology::DeclareForPublisher` -/
def declareForPublisher (replies : Replies) (client : AmqpClient) :
    Bool × AmqpClient :=
  match client.declareBusinessExchange replies with
  | (false, client) => (false, client)
  | (true, client) => client.declareChatTopology replies

/-- `Topology::DeclareForConsumer` -/
def declareForConsumer (replies : Replies) : AmqpClient → Bool × AmqpClient :=
  declareChatTopology replies

/-- The set-up steps after `Connect`; the first that fails closes the client. -/
def runSteps : List (AmqpClient → Bool × AmqpClient) → AmqpClient →
    Bool × AmqpClient
  | [], client => (true, client)
  | step :: steps, client =>
      match step client with
      | (true, client) => runSteps steps client
      | (false, client) => (false, client.close)

/-- The common body of the two `EnsureConnected`. -/
def ensureConnected (replies : Replies) (role : StdString)
    (steps : List (AmqpClient → Bool × AmqpClient)) (client : AmqpClient)
    (metrics : ChatMetrics) : Bool × AmqpClient × ChatMetrics :=
  if client.connected then (true, client, metrics)
  else match client.connect replies with
    | (false, client) => (false, client, metrics.incMqReconnect role)
    | (true, client) =>
        match runSteps steps client with
        | (false, client) => (false, client, metrics.incMqReconnect role)
        | (true, client) => (true, client, metrics)

/-! The calls only grow, and setting up settles nothing. -/

/-- `client'` has made further calls, all of which satisfy `p`. -/
def Extends (p : AmqpCall → Prop) (client client' : AmqpClient) : Prop :=
  ∃ calls, client'.calls = client.calls ++ calls ∧ ∀ call ∈ calls, p call

variable {p : AmqpCall → Prop}

theorem Extends.refl (client : AmqpClient) : Extends p client client :=
  ⟨[], by simp, by simp⟩

theorem Extends.trans {client₁ client₂ client₃ : AmqpClient}
    (hfirst : Extends p client₁ client₂) (hsecond : Extends p client₂ client₃) :
    Extends p client₁ client₃ := by
  obtain ⟨calls₁, heq₁, hp₁⟩ := hfirst
  obtain ⟨calls₂, heq₂, hp₂⟩ := hsecond
  refine ⟨calls₁ ++ calls₂, by rw [heq₂, heq₁, List.append_assoc], ?_⟩
  intro call hcall
  rcases List.mem_append.mp hcall with h | h
  · exact hp₁ call h
  · exact hp₂ call h

theorem extends_request (replies : Replies) {call : AmqpCall} (hp : p call)
    (client : AmqpClient) : Extends p client (client.request replies call).2 :=
  ⟨[call], rfl, by simpa using hp⟩

theorem extends_close (client : AmqpClient)
    (hp : p .channelClose ∧ p .connectionClose ∧ p .destroyConnection) :
    Extends p client client.close := by
  obtain ⟨hchannel, hconnection, hdestroy⟩ := hp
  cases hconn : client.conn with
  | false => exact ⟨[], by simp [close, hconn], by simp⟩
  | true =>
      cases hconnected : client.connected with
      | false =>
          exact ⟨[.destroyConnection], by simp [close, hconn, hconnected],
            by simpa using hdestroy⟩
      | true =>
          exact ⟨[.channelClose, .connectionClose, .destroyConnection],
            by simp [close, hconn, hconnected],
            by simp [hchannel, hconnection, hdestroy]⟩

/-- A call that settles no delivery. -/
def Unsettling (call : AmqpCall) : Prop :=
  call.isSettlement = false

theorem unsettling_close (client : AmqpClient) :
    Extends Unsettling client client.close :=
  extends_close client ⟨rfl, rfl, rfl⟩

theorem unsettling_request (replies : Replies) (call : AmqpCall)
    (hcall : call.isSettlement = false) (client : AmqpClient) :
    Extends Unsettling client (client.request replies call).2 :=
  extends_request replies (p := Unsettling) hcall client

theorem extends_requestAll (replies : Replies) {calls : List AmqpCall}
    (hcalls : ∀ call ∈ calls, p call) (client : AmqpClient) :
    Extends p client (requestAll replies calls client).2 := by
  induction calls generalizing client with
  | nil => exact Extends.refl client
  | cons call calls ih =>
      have hfirst := extends_request replies
        (hcalls call List.mem_cons_self) client
      have hrest := ih fun other hother =>
        hcalls other (List.mem_cons_of_mem call hother)
      simp only [requestAll]
      cases hreply : replies call with
      | true => simpa [request, hreply] using hfirst.trans (hrest _)
      | false => simpa [request, hreply] using hfirst

theorem unsettling_requestAll (replies : Replies) {calls : List AmqpCall}
    (hcalls : ∀ call ∈ calls, Unsettling call) (client : AmqpClient) :
    Extends Unsettling client (requestAll replies calls client).2 :=
  extends_requestAll replies hcalls client

theorem extends_connect
    (hp : p .channelClose ∧ p .connectionClose ∧ p .destroyConnection)
    (hcalls : ∀ call ∈ [AmqpCall.newConnection, .tcpSocketNew, .socketOpen, .login],
      p call)
    (replies : Replies) (client : AmqpClient) :
    Extends p client (client.connect replies).2 := by
  have hclosed := extends_close client hp
  have hopened := hclosed.trans
    (extends_request replies (hcalls _ List.mem_cons_self) client.close)
  simp only [connect]
  split
  · next next heq =>
      rw [heq] at hopened
      exact hopened
  · next next heq =>
      rw [heq] at hopened
      have hsetup : Extends p next (requestAll replies
          [.tcpSocketNew, .socketOpen, .login] { next with conn := true }).2 :=
        extends_requestAll replies
          (fun call hcall => hcalls call (List.mem_cons_of_mem _ hcall))
          { next with conn := true }
      split
      · next heq' =>
          rw [heq'] at hsetup
          exact hopened.trans (hsetup.trans (extends_close _ hp))
      · next heq' =>
          rw [heq'] at hsetup
          exact hopened.trans hsetup

theorem extends_runSteps
    (hp : p .channelClose ∧ p .connectionClose ∧ p .destroyConnection)
    {steps : List (AmqpClient → Bool × AmqpClient)}
    (hsteps : ∀ step ∈ steps, ∀ client, Extends p client (step client).2)
    (client : AmqpClient) : Extends p client (runSteps steps client).2 := by
  induction steps generalizing client with
  | nil => exact Extends.refl client
  | cons step steps ih =>
      have hfirst := hsteps step List.mem_cons_self client
      simp only [runSteps]
      split
      · next next heq =>
          rw [heq] at hfirst
          exact hfirst.trans (ih (fun other hother =>
            hsteps other (List.mem_cons_of_mem step hother)) next)
      · next next heq =>
          rw [heq] at hfirst
          exact hfirst.trans (extends_close next hp)

theorem extends_ensureConnected
    (hp : p .channelClose ∧ p .connectionClose ∧ p .destroyConnection)
    (hcalls : ∀ call ∈ [AmqpCall.newConnection, .tcpSocketNew, .socketOpen, .login],
      p call)
    (replies : Replies) (role : StdString)
    {steps : List (AmqpClient → Bool × AmqpClient)}
    (hsteps : ∀ step ∈ steps, ∀ client, Extends p client (step client).2)
    (client : AmqpClient) (metrics : ChatMetrics) :
    Extends p client (client.ensureConnected replies role steps metrics).2.1 := by
  have hconnect := extends_connect hp hcalls replies client
  simp only [ensureConnected]
  split_ifs
  · exact Extends.refl client
  · split
    · next next heq =>
        rw [heq] at hconnect
        exact hconnect
    · next next heq =>
        rw [heq] at hconnect
        have hset := hconnect.trans (extends_runSteps hp hsteps next)
        split
        · next heq' =>
            rw [heq'] at hset
            exact hset
        · next heq' =>
            rw [heq'] at hset
            exact hset

theorem unsettling_ensureConnected (replies : Replies) (role : StdString)
    {steps : List (AmqpClient → Bool × AmqpClient)}
    (hsteps : ∀ step ∈ steps, ∀ client, Extends Unsettling client (step client).2)
    (client : AmqpClient) (metrics : ChatMetrics) :
    Extends Unsettling client
      (client.ensureConnected replies role steps metrics).2.1 :=
  extends_ensureConnected (p := Unsettling) ⟨rfl, rfl, rfl⟩
    (by simp [Unsettling, AmqpCall.isSettlement]) replies role hsteps client metrics

/-! When setting up succeeds. -/

theorem requestAll_fst (replies : Replies) (calls : List AmqpCall)
    (client : AmqpClient) :
    (requestAll replies calls client).1 = calls.all replies := by
  induction calls generalizing client with
  | nil => rfl
  | cons call calls ih =>
      simp only [requestAll]
      cases hreply : replies call with
      | true => simpa [request, hreply] using ih _
      | false => simp [request, hreply]

/-- What no single call touches is the same after all of them. -/
theorem requestAll_of_request {α : Type} {part : AmqpClient → α} {replies : Replies}
    (hrequest : ∀ call client, part (request replies call client).2 = part client)
    (calls : List AmqpCall) (client : AmqpClient) :
    part (requestAll replies calls client).2 = part client := by
  induction calls generalizing client with
  | nil => rfl
  | cons call calls ih =>
      have hfirst := hrequest call client
      simp only [requestAll]
      split
      · next heq =>
          rw [heq] at hfirst
          exact (ih _).trans hfirst
      · next heq =>
          rw [heq] at hfirst
          exact hfirst

theorem requestAll_connected (replies : Replies) (calls : List AmqpCall)
    (client : AmqpClient) :
    (requestAll replies calls client).2.connected = client.connected :=
  requestAll_of_request (fun _ _ => rfl) calls client

theorem connect_fst (replies : Replies) (client : AmqpClient) :
    (client.connect replies).1 =
      [AmqpCall.newConnection, .tcpSocketNew, .socketOpen, .login].all
        replies := by
  simp only [connect]
  cases hreply : replies .newConnection with
  | false => simp [request, hreply]
  | true =>
      simp only [request, hreply, List.all_cons, Bool.true_and]
      have hsetup := requestAll_fst replies [.tcpSocketNew, .socketOpen, .login]
        { client.close with
          calls := client.close.calls ++ [.newConnection], conn := true }
      split
      · next heq =>
          rw [heq] at hsetup
          simpa using hsetup
      · next heq =>
          rw [heq] at hsetup
          simpa using hsetup

theorem connect_connected (replies : Replies) (client : AmqpClient)
    (hconnect : (client.connect replies).1 = true) :
    (client.connect replies).2.connected = true := by
  unfold connect at hconnect ⊢
  split at hconnect
  · contradiction
  · split at hconnect
    · contradiction
    · next hsetup =>
        simp only [*]

/-- On a connected client the step makes these calls and leaves it connected. -/
def Requests (replies : Replies) (calls : List AmqpCall)
    (step : AmqpClient → Bool × AmqpClient) : Prop :=
  ∀ client, client.connected = true →
    (step client).1 = calls.all replies ∧ (step client).2.connected = true

theorem requests_requestAll (replies : Replies) (calls : List AmqpCall) :
    Requests replies calls (requestAll replies calls) :=
  fun client hconnected => ⟨requestAll_fst replies calls client, by
    rw [requestAll_connected, hconnected]⟩

theorem requests_openChannel (replies : Replies) (prefetchCount : Nat) :
    Requests replies
      (.channelOpen :: if 0 < prefetchCount then [.basicQos prefetchCount] else [])
      (openChannel replies prefetchCount) := by
  intro client hconnected
  simp only [openChannel, hconnected, Bool.true_eq_false, if_false]
  exact requests_requestAll replies _ client hconnected

theorem Requests.runSteps {replies : Replies}
    {steps : List (List AmqpCall × (AmqpClient → Bool × AmqpClient))}
    (hsteps : ∀ step ∈ steps, Requests replies step.1 step.2)
    {client : AmqpClient} (hconnected : client.connected = true) :
    (runSteps (steps.map (·.2)) client).1 =
      (steps.flatMap (·.1)).all replies := by
  induction steps generalizing client with
  | nil => rfl
  | cons step steps ih =>
      obtain ⟨hresult, hstill⟩ :=
        hsteps step List.mem_cons_self client hconnected
      simp only [List.map_cons, AmqpClient.runSteps, List.flatMap_cons,
        List.all_append, ← hresult]
      split
      · next next heq =>
          rw [heq] at hstill
          rw [ih (fun s hs => hsteps s (List.mem_cons_of_mem step hs)) hstill,
            heq, Bool.true_and]
      · next next heq => rw [heq, Bool.false_and]

/-- `EnsureConnected` succeeds on a connected client, and otherwise exactly
when every call of the set-up does. -/
theorem ensureConnected_fst {replies : Replies} (role : StdString)
    {steps : List (List AmqpCall × (AmqpClient → Bool × AmqpClient))}
    (hsteps : ∀ step ∈ steps, Requests replies step.1 step.2)
    (client : AmqpClient) (metrics : ChatMetrics) :
    (client.ensureConnected replies role (steps.map (·.2)) metrics).1 =
      (client.connected ||
        ([AmqpCall.newConnection, .tcpSocketNew, .socketOpen, .login] ++
          steps.flatMap (·.1)).all replies) := by
  simp only [ensureConnected]
  cases hconnected : client.connected with
  | true => simp
  | false =>
      simp only [Bool.false_eq_true, if_false, Bool.false_or, List.all_append,
        ← connect_fst replies client]
      split
      · next heq => simp [heq]
      · next next heq =>
          have hnext : next.connected = true := by
            have := connect_connected replies client (by rw [heq])
            rwa [heq] at this
          have hrun := Requests.runSteps hsteps hnext
          rw [heq, Bool.true_and, ← hrun]
          split
          · next heq' => rw [heq']
          · next heq' => rw [heq']

end AmqpClient

end FlzChat
