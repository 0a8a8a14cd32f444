/-
Connected means fully set up.  The threads keep a record of the broker calls
they have made and how these ended; the record tells what the current
connection has been through.
-/
import FlzChat.PublisherDelivery
import FlzChat.Settlement

namespace FlzChat

/-- The calls that open a connection or end the one there is. -/
def AmqpCall.replacesConnection : AmqpCall → Bool
  | newConnection => true
  | channelClose => true
  | connectionClose => true
  | destroyConnection => true
  | _ => false

/-- A broker call with how it ended. -/
abbrev Outcome := AmqpCall × Bool

/-- The calls of `setup` were made one after another and all succeeded, and
the connection has not been replaced or given up since. -/
def SetUp (setup : List AmqpCall) (record : List Outcome) : Prop :=
  ∃ before after,
    record = before ++ setup.map (fun call => (call, true)) ++ after ∧
      ∀ outcome ∈ after, outcome.1.replacesConnection = false

namespace AmqpClient

/-- The calls made between two states of the client, with their outcomes. -/
def outcomes (replies : Replies) (client client' : AmqpClient) : List Outcome :=
  (client'.calls.drop client.calls.length).map fun call => (call, replies call)

/-- A call that leaves the connection in place. -/
def Harmless (call : AmqpCall) : Prop :=
  call.replacesConnection = false

/-- The client has made harmless calls, or it has been closed. -/
def Keeps (client client' : AmqpClient) : Prop :=
  (client'.conn = client.conn ∧ client'.connected = client.connected ∧
      Extends Harmless client client') ∨
    client'.conn = false ∧ client'.connected = false

theorem keeps_request (replies : Replies) (call : AmqpCall)
    (hcall : Harmless call) (client : AmqpClient) :
    Keeps client (client.request replies call).2 :=
  Or.inl ⟨rfl, rfl, extends_request replies hcall client⟩

theorem keeps_close (client client' : AmqpClient) : Keeps client client'.close :=
  Or.inr ⟨rfl, rfl⟩

theorem Keeps.trans {client₁ client₂ client₃ : AmqpClient}
    (hfirst : Keeps client₁ client₂) (hsecond : Keeps client₂ client₃) :
    Keeps client₁ client₃ := by
  rcases hsecond with ⟨hconn, hconnected, hmore⟩ | hclosed
  · rcases hfirst with ⟨hconn', hconnected', hmore'⟩ | ⟨hconn', hconnected'⟩
    · exact Or.inl ⟨hconn.trans hconn', hconnected.trans hconnected',
        hmore'.trans hmore⟩
    · exact Or.inr ⟨hconn.trans hconn', hconnected.trans hconnected'⟩
  · exact Or.inr hclosed

theorem requestAll_conn (replies : Replies) (calls : List AmqpCall)
    (client : AmqpClient) :
    (requestAll replies calls client).2.conn = client.conn :=
  requestAll_of_request (fun _ _ => rfl) calls client

theorem keeps_requestAll (replies : Replies) (calls : List AmqpCall)
    (hcalls : ∀ call ∈ calls, Harmless call) (client : AmqpClient) :
    Keeps client (requestAll replies calls client).2 :=
  Or.inl ⟨requestAll_conn replies calls client,
    requestAll_connected replies calls client,
    extends_requestAll replies hcalls client⟩

/-! What `EnsureConnected` has done when it returns. -/

/-- A step that succeeds has made these calls. -/
def Makes (calls : List AmqpCall) (step : AmqpClient → Bool × AmqpClient) :
    Prop :=
  ∀ client, (step client).1 = true →
    (step client).2.calls = client.calls ++ calls

theorem makes_requestAll (replies : Replies) (calls : List AmqpCall) :
    Makes calls (requestAll replies calls) := by
  intro client hok
  induction calls generalizing client with
  | nil => simp [requestAll]
  | cons call calls ih =>
      simp only [requestAll] at hok ⊢
      cases hreply : replies call with
      | true =>
          simp only [request, hreply] at hok ⊢
          rw [ih _ hok, List.append_assoc, List.singleton_append]
      | false => simp [request, hreply] at hok

theorem makes_openChannel (replies : Replies) (prefetchCount : Nat) :
    Makes (.channelOpen :: if 0 < prefetchCount then [.basicQos prefetchCount]
      else []) (openChannel replies prefetchCount) := by
  intro client hok
  simp only [openChannel] at hok ⊢
  by_cases hconnected : client.connected = false
  · simp [hconnected] at hok
  · simp only [hconnected] at hok ⊢
    exact makes_requestAll replies _ client hok

theorem makes_runSteps
    {steps : List (List AmqpCall × (AmqpClient → Bool × AmqpClient))}
    (hsteps : ∀ step ∈ steps, Makes step.1 step.2) :
    Makes (steps.flatMap (·.1)) (runSteps (steps.map (·.2))) := by
  induction steps with
  | nil => exact fun client _ => (List.append_nil client.calls).symm
  | cons step steps ih =>
      intro client hok
      have hfirst := hsteps step List.mem_cons_self client
      have hrest := ih fun other hother =>
        hsteps other (List.mem_cons_of_mem step hother)
      simp only [List.map_cons, runSteps] at hok ⊢
      rcases hstep : step.2 client with ⟨_ | _, next⟩
      · simp [hstep] at hok
      · rw [hstep] at hfirst
        simp only [hstep] at hok ⊢
        rw [hrest next hok, hfirst rfl, List.append_assoc, List.flatMap_cons]

/-- `Connect` closes what there is and makes four calls. -/
def connectCalls : List AmqpCall :=
  [.newConnection, .tcpSocketNew, .socketOpen, .login]

theorem connect_calls (replies : Replies) (client : AmqpClient)
    (hok : (client.connect replies).1 = true) :
    (client.connect replies).2.calls = client.close.calls ++ connectCalls := by
  simp only [connect] at hok ⊢
  cases hreply : replies .newConnection with
  | false => simp [request, hreply] at hok
  | true =>
      simp only [request, hreply] at hok ⊢
      have hmakes := makes_requestAll replies
        [.tcpSocketNew, .socketOpen, .login]
        { client.close with
          calls := client.close.calls ++ [.newConnection], conn := true }
      rcases hset : requestAll replies [.tcpSocketNew, .socketOpen, .login]
        { client.close with
          calls := client.close.calls ++ [.newConnection], conn := true }
        with ⟨_ | _, next⟩
      · simp [hset] at hok
      · rw [hset] at hmakes
        simp only
        rw [hmakes rfl, List.append_assoc]
        rfl

/-- A failed `Connect` leaves the client closed. -/
theorem connect_closed (replies : Replies) (client : AmqpClient)
    (hfail : (client.connect replies).1 = false) :
    (client.connect replies).2.conn = false ∧
      (client.connect replies).2.connected = false := by
  simp only [connect] at hfail ⊢
  split
  · next next heq =>
      have hnext : (client.close.request replies .newConnection).2 = next := by
        rw [heq]
      rw [← hnext]
      exact ⟨rfl, rfl⟩
  · next heq =>
      rw [heq] at hfail
      simp only at hfail
      split
      · exact ⟨rfl, rfl⟩
      · next heq' =>
          rw [heq'] at hfail
          contradiction

/-- A failed step of the set-up leaves the client closed. -/
theorem runSteps_closed (steps : List (AmqpClient → Bool × AmqpClient))
    (client : AmqpClient) (hfail : (runSteps steps client).1 = false) :
    (runSteps steps client).2.conn = false ∧
      (runSteps steps client).2.connected = false := by
  induction steps generalizing client with
  | nil => contradiction
  | cons step steps ih =>
      simp only [runSteps] at hfail ⊢
      split
      · next next heq =>
          rw [heq] at hfail
          exact ih next hfail
      · exact ⟨rfl, rfl⟩

theorem ensureConnected_closed (replies : Replies) (role : StdString)
    (steps : List (AmqpClient → Bool × AmqpClient)) (client : AmqpClient)
    (metrics : ChatMetrics)
    (hfail : (client.ensureConnected replies role steps metrics).1 = false) :
    (client.ensureConnected replies role steps metrics).2.1.conn = false ∧
      (client.ensureConnected replies role steps metrics).2.1.connected =
        false := by
  have hconnect := connect_closed replies client
  simp only [ensureConnected] at hfail ⊢
  split_ifs at hfail ⊢
  rcases hconnected : client.connect replies with ⟨_ | _, next⟩
  · rw [hconnected] at hconnect
    simp only
    exact hconnect rfl
  · have hrun := runSteps_closed steps next
    simp only [hconnected] at hfail ⊢
    rcases hset : runSteps steps next with ⟨_ | _, last⟩
    · rw [hset] at hrun
      simp only
      exact hrun rfl
    · simp [hset] at hfail

section

variable {replies : Replies}
  {steps : List (List AmqpCall × (AmqpClient → Bool × AmqpClient))}

theorem runSteps_connected (hsteps : ∀ step ∈ steps, Requests replies step.1 step.2)
    {client : AmqpClient} (hconnected : client.connected = true)
    (hok : (runSteps (steps.map (·.2)) client).1 = true) :
    (runSteps (steps.map (·.2)) client).2.connected = true := by
  induction steps generalizing client with
  | nil => exact hconnected
  | cons step steps ih =>
      obtain ⟨_, hstill⟩ := hsteps step List.mem_cons_self client hconnected
      simp only [List.map_cons, runSteps] at hok ⊢
      rcases hstep : step.2 client with ⟨_ | _, next⟩
      · simp [hstep] at hok
      · rw [hstep] at hstill
        simp only [hstep] at hok ⊢
        exact ih (fun other hother => hsteps other (List.mem_cons_of_mem step hother))
          hstill hok

/-- When it has connected, it has made the calls of the set-up, and all have
succeeded. -/
theorem ensureConnected_calls (role : StdString)
    (hsteps : ∀ step ∈ steps, Requests replies step.1 step.2)
    (hmakes : ∀ step ∈ steps, Makes step.1 step.2) {client : AmqpClient}
    (hfresh : client.connected = false) (metrics : ChatMetrics)
    (hok : (client.ensureConnected replies role (steps.map (·.2)) metrics).1 =
      true) :
    let after := (client.ensureConnected replies role (steps.map (·.2))
      metrics).2.1
    after.calls = client.close.calls ++ (connectCalls ++ steps.flatMap (·.1)) ∧
      after.connected = true ∧
      ∀ call ∈ connectCalls ++ steps.flatMap (·.1), replies call = true := by
  have hfst := ensureConnected_fst role hsteps client metrics
  rw [hok, hfresh, Bool.false_or] at hfst
  have hcalls := connect_calls replies client
  have hconnected := connect_connected replies client
  simp only [ensureConnected, hfresh, Bool.false_eq_true, if_false] at hok ⊢
  rcases hconnect : client.connect replies with ⟨_ | _, next⟩
  · simp [hconnect] at hok
  · rw [hconnect] at hcalls hconnected
    simp only [hconnect] at hok ⊢
    rcases hset : runSteps (steps.map (·.2)) next with ⟨_ | _, last⟩
    · simp [hset] at hok
    · have hmade := makes_runSteps hmakes next
      have hlast := runSteps_connected hsteps (hconnected rfl)
      rw [hset] at hmade hlast
      simp only [hset]
      refine ⟨?_, hlast rfl, ?_⟩
      · rw [hmade rfl, hcalls rfl, List.append_assoc]
      · exact fun call hcall => List.all_eq_true.mp hfst.symm call hcall

/-- A step only adds calls. -/
def Grows (step : AmqpClient → Bool × AmqpClient) : Prop :=
  ∀ client, Extends (fun _ => True) client (step client).2

theorem grows_requestAll (replies : Replies) (calls : List AmqpCall) :
    Grows (requestAll replies calls) :=
  fun client => extends_requestAll replies (fun _ _ => trivial) client

theorem grows_openChannel (replies : Replies) (prefetchCount : Nat) :
    Grows (openChannel replies prefetchCount) := by
  intro client
  simp only [openChannel]
  split_ifs
  · exact Extends.refl client
  · exact grows_requestAll replies _ client
  · exact grows_requestAll replies _ client

theorem grows_declareForPublisher (replies : Replies) :
    Grows (declareForPublisher replies) := by
  intro client
  have hbusiness := grows_requestAll replies [businessExchange] client
  simp only [declareForPublisher, declareBusinessExchange]
  split
  · next heq =>
      rw [heq] at hbusiness
      exact hbusiness
  · next next heq =>
      rw [heq] at hbusiness
      exact hbusiness.trans (grows_requestAll replies _ next)

/-- `Connect` opens a new connection first. -/
theorem connect_opens (replies : Replies) (client : AmqpClient) :
    ∃ rest, (client.connect replies).2.calls =
      client.close.calls ++ .newConnection :: rest := by
  have hopen : ∀ next, Extends (fun _ => True)
      (client.close.request replies .newConnection).2 next →
      ∃ rest, next.calls = client.close.calls ++ .newConnection :: rest := by
    rintro next ⟨calls, hcalls, _⟩
    exact ⟨calls, by rw [hcalls]; simp [request]⟩
  apply hopen
  simp only [connect]
  split
  · next next heq =>
      rw [heq]
      exact Extends.refl next
  · next next heq =>
      rw [heq]
      have hset := grows_requestAll replies [.tcpSocketNew, .socketOpen, .login]
        { next with conn := true }
      split
      · next next' heq' =>
          rw [heq'] at hset
          exact Extends.trans hset
            (extends_close next' ⟨trivial, trivial, trivial⟩)
      · next next' heq' =>
          rw [heq'] at hset
          exact hset

/-- From a disconnected client `EnsureConnected` opens a new connection
first. -/
theorem ensureConnected_opens (replies : Replies) (role : StdString)
    {steps : List (AmqpClient → Bool × AmqpClient)}
    (hsteps : ∀ step ∈ steps, Grows step) {client : AmqpClient}
    (hfresh : client.connected = false) (metrics : ChatMetrics) :
    ∃ rest, (client.ensureConnected replies role steps metrics).2.1.calls =
      client.close.calls ++ .newConnection :: rest := by
  obtain ⟨rest, hrest⟩ := connect_opens replies client
  simp only [ensureConnected, hfresh, Bool.false_eq_true, if_false]
  rcases hconnect : client.connect replies with ⟨_ | _, next⟩
  · rw [hconnect] at hrest
    exact ⟨rest, hrest⟩
  · rw [hconnect] at hrest
    simp only
    obtain ⟨more, hmore, _⟩ := extends_runSteps
      (p := fun _ => True) ⟨trivial, trivial, trivial⟩ hsteps next
    have hcalls : (runSteps steps next).2.calls =
        client.close.calls ++ .newConnection :: (rest ++ more) := by
      rw [hmore, hrest, List.append_assoc, List.cons_append]
    rcases hset : runSteps steps next with ⟨_ | _, last⟩
    · rw [hset] at hcalls
      exact ⟨rest ++ more, hcalls⟩
    · rw [hset] at hcalls
      exact ⟨rest ++ more, hcalls⟩

end

/-! The record of a client. -/

/-- A connected client is set up, a disconnected one has no connection. -/
structure Backed (setup : List AmqpCall) (client : AmqpClient)
    (record : List Outcome) : Prop where
  closed : client.connected = false → client.conn = false
  setUp : client.connected = true → SetUp setup record

theorem outcomes_of_calls {replies : Replies} {client client' : AmqpClient}
    {calls : List AmqpCall} (hcalls : client'.calls = client.calls ++ calls) :
    outcomes replies client client' =
      calls.map fun call => (call, replies call) := by
  rw [outcomes, hcalls, List.drop_left]

theorem Backed.keeps {setup : List AmqpCall} {client client' : AmqpClient}
    {record : List Outcome} (hbacked : Backed setup client record)
    (replies : Replies) (hkeeps : Keeps client client') :
    Backed setup client' (record ++ outcomes replies client client') := by
  rcases hkeeps with ⟨hconn, hconnected, calls, hcalls, hharmless⟩ |
    ⟨hconn, hconnected⟩
  · refine ⟨fun hdown => ?_, fun hup => ?_⟩
    · rw [hconn]
      exact hbacked.closed (hconnected ▸ hdown)
    · obtain ⟨before, after, hrecord, hafter⟩ := hbacked.setUp (hconnected ▸ hup)
      refine ⟨before, after ++ outcomes replies client client', ?_, ?_⟩
      · rw [hrecord, List.append_assoc]
      · intro outcome houtcome
        rcases List.mem_append.mp houtcome with houtcome | houtcome
        · exact hafter outcome houtcome
        · rw [outcomes_of_calls hcalls] at houtcome
          obtain ⟨call, hcall, rfl⟩ := List.mem_map.mp houtcome
          exact hharmless call hcall
  · refine ⟨fun _ => hconn, fun hup => ?_⟩
    rw [hconnected] at hup
    contradiction

/-- What `EnsureConnected` returns: false only with the client closed, and
from a disconnected client only after it has opened a new connection. -/
structure Reconnects (replies : Replies) (client : AmqpClient)
    (result : Bool × AmqpClient × ChatMetrics) : Prop where
  closed : result.1 = false → result.2.1.connected = false
  opens : client.connected = false →
    ∃ rest, outcomes replies client result.2.1 =
      (.newConnection, replies .newConnection) :: rest

section

variable {replies : Replies} {client : AmqpClient} {record : List Outcome}
  {steps : List (List AmqpCall × (AmqpClient → Bool × AmqpClient))}

/-- `Close` without a connection makes no call. -/
theorem close_calls_of_closed (hconn : client.conn = false) :
    client.close.calls = client.calls := by
  simp [close, hconn]

theorem Backed.reconnects {setup : List AmqpCall}
    (hbacked : Backed setup client record) (role : StdString)
    {steps : List (AmqpClient → Bool × AmqpClient)}
    (hgrows : ∀ step ∈ steps, Grows step) (metrics : ChatMetrics) :
    Reconnects replies client
      (client.ensureConnected replies role steps metrics) := by
  refine ⟨fun hfail => ?_, fun hfresh => ?_⟩
  · exact (ensureConnected_closed replies role _ client metrics hfail).2
  · obtain ⟨rest, hrest⟩ :=
      ensureConnected_opens replies role hgrows hfresh metrics
    rw [close_calls_of_closed (hbacked.closed hfresh)] at hrest
    exact ⟨rest.map fun call => (call, replies call), outcomes_of_calls hrest⟩

/-- After `EnsureConnected` the client is backed by the record again. -/
theorem Backed.ensureConnected
    (steps : List (List AmqpCall × (AmqpClient → Bool × AmqpClient)))
    (hbacked : Backed (connectCalls ++ steps.flatMap (·.1)) client record)
    (role : StdString)
    (hsteps : ∀ step ∈ steps, Requests replies step.1 step.2)
    (hmakes : ∀ step ∈ steps, Makes step.1 step.2) (metrics : ChatMetrics) :
    let result := client.ensureConnected replies role (steps.map (·.2)) metrics
    Backed (connectCalls ++ steps.flatMap (·.1)) result.2.1
        (record ++ outcomes replies client result.2.1) ∧
      result.2.1.connected = result.1 := by
  intro result
  cases hok : result.1 with
  | false =>
      obtain ⟨hconn, hconnected⟩ := ensureConnected_closed replies role _ client
        metrics hok
      refine ⟨⟨fun _ => hconn, fun hup => ?_⟩, hconnected⟩
      rw [hconnected] at hup
      contradiction
  | true =>
      cases hclient : client.connected with
      | true =>
          have hsame : result.2.1 = client := by
            simp only [result, AmqpClient.ensureConnected, hclient, if_true]
          rw [hsame, outcomes, List.drop_length, List.map_nil, List.append_nil]
          exact ⟨hbacked, hclient⟩
      | false =>
          obtain ⟨hcalls, hconnected, hreplies⟩ :=
            ensureConnected_calls role hsteps hmakes hclient metrics hok
          refine ⟨⟨fun hdown => ?_, fun _ => ?_⟩, hconnected⟩
          · rw [hconnected] at hdown
            contradiction
          · rw [close_calls_of_closed (hbacked.closed hclient)] at hcalls
            refine ⟨record, [], ?_, by simp⟩
            rw [outcomes_of_calls hcalls, List.append_nil]
            congr 1
            apply List.map_congr_left
            intro call hcall
            rw [hreplies call hcall]

end

end AmqpClient

/-! The consumer's thread. -/

namespace MqConsumer

/-- The calls a disconnected consumer makes before it consumes. -/
def setupCalls (cfg : RabbitMqConfig) : List AmqpCall :=
  let prefetchCount := (cfg.consumerPrefetch.toInt % 2 ^ 16).toNat
  [.newConnection, .tcpSocketNew, .socketOpen, .login, .channelOpen] ++
    (if 0 < prefetchCount then [.basicQos prefetchCount] else []) ++
    AmqpClient.chatTopology ++
    [.basicConsume cfg.consumerQueue cfg.consumerTag cfg.consumerAutoAck]

/-- The thread of `Run`, until it leaves its loop. -/
structure Thread where
  consumer : MqConsumer
  stopped : Bool := false

namespace Thread

/-- The iterations of `Run`, whatever the broker and the handler do. -/
def machine (P : Platform) (cfg : RabbitMqConfig) :
    Machine Thread Watched.Event where
  enabled t
    | .connect _ => t.stopped = false ∧ t.consumer.ready = false
    | .consume _ _ _ _ answer =>
        t.stopped = false ∧ t.consumer.ready = true ∧
          (t.consumer.scheduler = none → answer.isSome = true)
  step t
    | .connect replies =>
        { t with consumer := t.consumer.connectStep cfg replies }
    | .consume replies reply running nowMs answer =>
        let after := t.consumer.consumeStep P replies reply running nowMs answer
        ⟨after.2, decide (after.1 ≠ .next)⟩

/-- The calls of a step with their outcomes. -/
def outcomes (P : Platform) (cfg : RabbitMqConfig) (t : Thread)
    (e : Watched.Event) : List Outcome :=
  let replies := match e with
    | .connect replies => replies
    | .consume replies _ _ _ _ => replies
  AmqpClient.outcomes replies t.consumer.client
    ((machine P cfg).step t e).consumer.client

/-- What each step has to respect: `EnsureConnected` reconnects properly, and
`Consume` is called on a connection that is set up. -/
def Lawful (cfg : RabbitMqConfig) (t : Thread × List Outcome) :
    Watched.Event → Prop
  | .connect replies =>
      AmqpClient.Reconnects replies t.1.consumer.client
        (ensureConnected cfg replies t.1.consumer.client t.1.consumer.metrics)
  | .consume _ _ _ _ _ => SetUp (setupCalls cfg) t.2

end Thread

/-- The steps of `EnsureConnected` after `Connect`, with their calls. -/
def setupSteps (cfg : RabbitMqConfig) (replies : Replies) :
    List (List AmqpCall × (AmqpClient → Bool × AmqpClient)) :=
  let prefetchCount := (cfg.consumerPrefetch.toInt % 2 ^ 16).toNat
  let consume : List AmqpCall :=
    [.basicConsume cfg.consumerQueue cfg.consumerTag cfg.consumerAutoAck]
  [(.channelOpen :: if 0 < prefetchCount then [.basicQos prefetchCount] else [],
      AmqpClient.openChannel replies prefetchCount),
    (AmqpClient.chatTopology, AmqpClient.declareForConsumer replies),
    (consume, AmqpClient.requestAll replies consume)]

theorem ensureConnected_eq_setupSteps (cfg : RabbitMqConfig)
    (replies : Replies) :
    ensureConnected cfg replies = AmqpClient.ensureConnected replies
      (lit "consumer") ((setupSteps cfg replies).map (·.2)) :=
  rfl

theorem setupCalls_eq (cfg : RabbitMqConfig) (replies : Replies) :
    setupCalls cfg =
      AmqpClient.connectCalls ++ (setupSteps cfg replies).flatMap (·.1) := by
  simp [setupCalls, AmqpClient.connectCalls, setupSteps]

theorem requests_setupSteps (cfg : RabbitMqConfig) (replies : Replies) :
    ∀ step ∈ setupSteps cfg replies,
      AmqpClient.Requests replies step.1 step.2 := by
  simp only [setupSteps, List.forall_mem_cons]
  exact ⟨AmqpClient.requests_openChannel replies _,
    AmqpClient.requests_requestAll replies _,
    AmqpClient.requests_requestAll replies _, by simp⟩

theorem makes_setupSteps (cfg : RabbitMqConfig) (replies : Replies) :
    ∀ step ∈ setupSteps cfg replies, AmqpClient.Makes step.1 step.2 := by
  simp only [setupSteps, List.forall_mem_cons]
  exact ⟨AmqpClient.makes_openChannel replies _,
    AmqpClient.makes_requestAll replies _,
    AmqpClient.makes_requestAll replies _, by simp⟩

theorem grows_setupSteps (cfg : RabbitMqConfig) (replies : Replies) :
    ∀ step ∈ (setupSteps cfg replies).map (·.2), AmqpClient.Grows step := by
  simp only [setupSteps, List.map_cons, List.map_nil, List.forall_mem_cons]
  exact ⟨AmqpClient.grows_openChannel replies _,
    AmqpClient.grows_requestAll replies _,
    AmqpClient.grows_requestAll replies _, by simp⟩

/-- What `connectStep` takes from `EnsureConnected`. -/
theorem connectStep_client (cfg : RabbitMqConfig) (replies : Replies)
    (consumer : MqConsumer) :
    let result := ensureConnected cfg replies consumer.client consumer.metrics
    (consumer.connectStep cfg replies).client = result.2.1 ∧
      (consumer.connectStep cfg replies).ready =
        if result.1 then true else consumer.ready := by
  simp only [connectStep]
  rcases ensureConnected cfg replies consumer.client consumer.metrics with
    ⟨_ | _, client, metrics⟩
  · exact ⟨rfl, rfl⟩
  · exact ⟨rfl, rfl⟩

theorem keeps_settle (replies : Replies) (deliveryTag : UInt64)
    (type : StdString) (result : ConsumeResult) (consumer : MqConsumer) :
    AmqpClient.Keeps consumer.client
      (consumer.settle replies deliveryTag type result).client := by
  have hsettled : AmqpClient.Keeps consumer.client (AmqpClient.requestAll replies
      [result.settlement deliveryTag] consumer.client).2 := by
    apply AmqpClient.keeps_requestAll
    intro call hcall
    rw [List.mem_singleton.mp hcall]
    cases result <;> rfl
  rw [settle_client]
  split_ifs
  · exact hsettled
  · exact AmqpClient.keeps_close _ _

theorem keeps_ack (replies : Replies) (deliveryTag : UInt64)
    (client : AmqpClient) :
    AmqpClient.Keeps client (client.ack replies deliveryTag).2 := by
  apply AmqpClient.keeps_requestAll
  intro call hcall
  rw [List.mem_singleton.mp hcall]
  rfl

theorem keeps_handleDelivery (P : Platform) (replies : Replies)
    (d : AmqpDelivery) (nowMs : Int) (answer : Option Invocation)
    (consumer : MqConsumer) :
    AmqpClient.Keeps consumer.client
      (consumer.handleDelivery P replies d nowMs answer).2.client := by
  simp only [handleDelivery]
  rcases envelopeFromString P d.body with thrown | text | env
  · exact Or.inl ⟨rfl, rfl, AmqpClient.Extends.refl _⟩
  · exact keeps_ack replies d.deliveryTag consumer.client
  · simp only
    rcases consumer.idempotency.tryMark env.msgId nowMs with ⟨_ | _, idempotency⟩
    · exact keeps_ack replies d.deliveryTag consumer.client
    · have hsettle := keeps_settle replies d.deliveryTag env.type
        (dispatchToScheduler env answer
          { consumer with idempotency := idempotency }).1
        (dispatchToScheduler env answer
          { consumer with idempotency := idempotency }).2
      rw [dispatchToScheduler_client] at hsettle
      exact hsettle

/-- After `Consume` the thread makes harmless calls or closes the client. -/
theorem keeps_consumeStep (P : Platform) (replies : Replies)
    (reply : ConsumeReply) (running : Bool) (nowMs : Int)
    (answer : Option Invocation) (consumer : MqConsumer) :
    AmqpClient.Keeps consumer.client
      (consumer.consumeStep P replies reply running nowMs answer).2.client := by
  have hconsume := AmqpClient.keeps_request replies .consumeMessage rfl
    consumer.client
  simp only [consumeStep]
  by_cases hrunning : running = false
  · simp only [hrunning, if_true]
    exact hconsume
  · simp only [hrunning]
    cases reply with
    | timeout => exact hconsume
    | failure => exact AmqpClient.keeps_close _ _
    | delivery d =>
        exact hconsume.trans (keeps_handleDelivery P replies d nowMs answer _)

theorem handleDelivery_ready (P : Platform) (replies : Replies)
    (d : AmqpDelivery) (nowMs : Int) (answer : Option Invocation)
    (consumer : MqConsumer) :
    (consumer.handleDelivery P replies d nowMs answer).2.ready =
      consumer.ready := by
  simp only [handleDelivery]
  rcases envelopeFromString P d.body with thrown | text | env
  · rfl
  · rfl
  · simp only
    rcases consumer.idempotency.tryMark env.msgId nowMs with ⟨_ | _, idempotency⟩
    · rfl
    · simp only [settle, dispatchToScheduler]
      split_ifs <;> rfl

theorem consumeStep_ready (P : Platform) (replies : Replies)
    (reply : ConsumeReply) (running : Bool) (nowMs : Int)
    (answer : Option Invocation) (consumer : MqConsumer) :
    (consumer.consumeStep P replies reply running nowMs answer).2.ready =
      false := by
  simp only [consumeStep]
  by_cases hrunning : running = false
  · simp [hrunning]
  · simp only [hrunning]
    cases reply with
    | timeout => rfl
    | failure => rfl
    | delivery d => exact handleDelivery_ready P replies d nowMs answer _

/-- The client is backed by the record, and an iteration past
`EnsureConnected` has it connected. -/
structure Thread.Sound (cfg : RabbitMqConfig) (t : Thread × List Outcome) :
    Prop where
  backed : AmqpClient.Backed (setupCalls cfg) t.1.consumer.client t.2
  ready : t.1.consumer.ready = true → t.1.consumer.client.connected = true

theorem Thread.sound_step (P : Platform) (cfg : RabbitMqConfig)
    (t : Thread × List Outcome) (e : Watched.Event) (hsound : Thread.Sound cfg t)
    (henabled : ((machine P cfg).recording (outcomes P cfg)).enabled t e) :
    Thread.Sound cfg (((machine P cfg).recording (outcomes P cfg)).step t e) := by
  cases e with
  | connect replies =>
      obtain ⟨hclient, hready⟩ :=
        connectStep_client cfg replies t.1.consumer
      have hbacked := hsound.backed
      rw [setupCalls_eq cfg replies] at hbacked
      obtain ⟨hback, hconnected⟩ := hbacked.ensureConnected _ (lit "consumer")
        (requests_setupSteps cfg replies) (makes_setupSteps cfg replies)
        t.1.consumer.metrics
      rw [← ensureConnected_eq_setupSteps, ← setupCalls_eq] at hback
      rw [← ensureConnected_eq_setupSteps] at hconnected
      constructor
      · simp only [Machine.recording, outcomes, machine, hclient]
        exact hback
      · have hunready : t.1.consumer.ready = false := henabled.2
        simp only [Machine.recording, machine, hclient, hready, hconnected,
          hunready]
        simp
  | consume replies reply running nowMs answer =>
      constructor
      · exact hsound.backed.keeps replies (keeps_consumeStep P replies reply
          running nowMs answer t.1.consumer)
      · simp only [Machine.recording, machine, consumeStep_ready]
        simp

theorem Thread.lawful_of_sound (P : Platform) (cfg : RabbitMqConfig)
    (t : Thread × List Outcome) (e : Watched.Event) (hsound : Thread.Sound cfg t)
    (henabled : ((machine P cfg).recording (outcomes P cfg)).enabled t e) :
    Thread.Lawful cfg t e := by
  cases e with
  | connect replies =>
      exact hsound.backed.reconnects (lit "consumer")
        (grows_setupSteps cfg replies) t.1.consumer.metrics
  | consume replies reply running nowMs answer =>
      exact hsound.backed.setUp (hsound.ready henabled.2.1)

end MqConsumer

/-! The publisher's thread. -/

namespace MqPublisher

/-- The calls of a step with their outcomes; only the thread makes any. -/
def outcomes (P : Platform) (cfg : ChatConfig) (pub : MqPublisher) (e : Event) :
    List Outcome :=
  let client' := ((machine P cfg).step pub e).client
  match e with
  | .connect replies => AmqpClient.outcomes replies pub.client client'
  | .send replies _ _ => AmqpClient.outcomes replies pub.client client'
  | .publish _ => []
  | .dequeue => []

/-- What each step has to respect: `EnsureConnected` reconnects properly, and
`Publish` is called on a connection that is set up. -/
def Lawful (pub : MqPublisher × List Outcome) : Event → Prop
  | .connect replies =>
      AmqpClient.Reconnects replies pub.1.client
        (ensureConnected replies pub.1.client pub.1.metrics)
  | .send _ _ _ => SetUp setupCalls pub.2
  | .publish _ => True
  | .dequeue => True

theorem makes_declareForPublisher (replies : Replies) :
    AmqpClient.Makes (setupCalls.drop 5)
      (AmqpClient.declareForPublisher replies) := by
  intro client hok
  have hbusiness := AmqpClient.makes_requestAll replies
    [AmqpClient.businessExchange] client
  simp only [AmqpClient.declareForPublisher,
    AmqpClient.declareBusinessExchange] at hok ⊢
  rcases hfirst : AmqpClient.requestAll replies [AmqpClient.businessExchange]
    client with ⟨_ | _, next⟩
  · simp [hfirst] at hok
  · rw [hfirst] at hbusiness
    simp only [hfirst] at hok ⊢
    have htopology := AmqpClient.makes_requestAll replies
      AmqpClient.chatTopology next
    rw [AmqpClient.declareChatTopology] at hok ⊢
    rw [htopology hok, hbusiness rfl, List.append_assoc]
    rfl

theorem makes_setup (replies : Replies) :
    ∀ step ∈ [([AmqpCall.channelOpen], AmqpClient.openChannel replies 0),
      (setupCalls.drop 5, AmqpClient.declareForPublisher replies)],
      AmqpClient.Makes step.1 step.2 := by
  simpa using ⟨AmqpClient.makes_openChannel replies 0,
    makes_declareForPublisher replies⟩

/-- What `connectStep` takes from `EnsureConnected`. -/
theorem connectStep_client (cfg : ChatConfig) (replies : Replies) (task : Task)
    (pub : MqPublisher) :
    let result := ensureConnected replies pub.client pub.metrics
    (pub.connectStep cfg replies task).client = result.2.1 ∧
      (pub.connectStep cfg replies task).ready =
        if result.1 then true else pub.ready := by
  simp only [connectStep]
  rcases ensureConnected replies pub.client pub.metrics with
    ⟨_ | _, client, metrics⟩
  · exact ⟨rfl, rfl⟩
  · exact ⟨rfl, rfl⟩

/-- Publishing makes one harmless call, and a failure closes the client. -/
theorem keeps_sendStep (P : Platform) (replies : Replies) (clock : Clock)
    (msgId : StdString) (task : Task) (pub : MqPublisher) :
    AmqpClient.Keeps pub.client
        (pub.sendStep P replies clock msgId task).client ∧
      (pub.sendStep P replies clock msgId task).ready = false := by
  have hpublish := AmqpClient.keeps_requestAll replies
    [publishCall P clock msgId task] (by
      intro call hcall
      rw [List.mem_singleton.mp hcall]
      rfl) pub.client
  simp only [sendStep]
  rcases hsent : AmqpClient.requestAll replies [publishCall P clock msgId task]
    pub.client with ⟨_ | _, client⟩
  · exact ⟨AmqpClient.keeps_close _ _, rfl⟩
  · rw [hsent] at hpublish
    exact ⟨hpublish, rfl⟩

/-- The client is backed by the record, and an iteration past
`EnsureConnected` has it connected. -/
structure Sound (pub : MqPublisher × List Outcome) : Prop where
  backed : AmqpClient.Backed setupCalls pub.1.client pub.2
  ready : pub.1.ready = true → pub.1.client.connected = true

theorem sound_step (P : Platform) (cfg : ChatConfig)
    (pub : MqPublisher × List Outcome) (e : Event) (hsound : Sound pub)
    (henabled : ((machine P cfg).recording (outcomes P cfg)).enabled pub e) :
    Sound (((machine P cfg).recording (outcomes P cfg)).step pub e) := by
  cases e with
  | publish task =>
      have hsame : (pub.1.publish cfg task).2.client = pub.1.client ∧
          (pub.1.publish cfg task).2.ready = pub.1.ready := by
        simp only [publish, enqueue]
        split_ifs <;> exact ⟨rfl, rfl⟩
      simp only [Machine.recording, machine, outcomes, List.append_nil]
      constructor
      · rw [hsame.1]
        exact hsound.backed
      · rw [hsame.1, hsame.2]
        exact hsound.ready
  | dequeue =>
      simp only [Machine.recording, machine, outcomes, List.append_nil, dequeue]
      split
      · exact ⟨hsound.backed, hsound.ready⟩
      · exact ⟨hsound.backed, by simp⟩
  | connect replies =>
      obtain ⟨task, hheld⟩ := Option.isSome_iff_exists.mp henabled.1
      obtain ⟨hclient, hready⟩ := connectStep_client cfg replies task pub.1
      obtain ⟨hback, hconnected⟩ := AmqpClient.Backed.ensureConnected
        [([AmqpCall.channelOpen], AmqpClient.openChannel replies 0),
          (setupCalls.drop 5, AmqpClient.declareForPublisher replies)]
        hsound.backed (lit "publisher") (requests_setup replies)
        (makes_setup replies) pub.1.metrics
      have hunready : pub.1.ready = false := henabled.2
      constructor
      · simp only [Machine.recording, outcomes, machine, hheld, hclient]
        exact hback
      · simp only [Machine.recording, machine, hheld, hclient, hready, hunready]
        intro hup
        have hok : (ensureConnected replies pub.1.client pub.1.metrics).1 =
            true := by simpa using hup
        exact hconnected.trans hok
  | send replies clock msgId =>
      obtain ⟨task, hheld⟩ := Option.isSome_iff_exists.mp henabled.1
      obtain ⟨hkeeps, hready⟩ := keeps_sendStep P replies clock msgId task pub.1
      constructor
      · simp only [Machine.recording, outcomes, machine, hheld]
        exact hsound.backed.keeps replies hkeeps
      · simp only [Machine.recording, machine, hheld, hready]
        simp

theorem lawful_of_sound (P : Platform) (cfg : ChatConfig)
    (pub : MqPublisher × List Outcome) (e : Event) (hsound : Sound pub)
    (henabled : ((machine P cfg).recording (outcomes P cfg)).enabled pub e) :
    Lawful pub e := by
  cases e with
  | publish task => trivial
  | dequeue => trivial
  | connect replies =>
      apply hsound.backed.reconnects (lit "publisher")
      simpa using ⟨AmqpClient.grows_openChannel replies 0,
        AmqpClient.grows_declareForPublisher replies⟩
  | send replies clock msgId => exact hsound.backed.setUp (hsound.ready henabled.2)

end MqPublisher

/-- In every run of either thread, whenever it calls `Consume` or `Publish` the
current connection is fully set up, and whenever `EnsureConnected` returns false
the client is closed. -/
theorem connected_means_set_up (P : Platform) (cfg : ChatConfig)
    (scheduler : Option IoManager) (consumed : List MqConsumer.Watched.Event)
    (hconsumed : ((MqConsumer.Thread.machine P cfg.rabbitmq).recording
      (MqConsumer.Thread.outcomes P cfg.rabbitmq)).Admissible
        (⟨.initial cfg.rabbitmq scheduler, false⟩, []) consumed)
    (published : List MqPublisher.Event)
    (hpublished : ((MqPublisher.machine P cfg).recording
      (MqPublisher.outcomes P cfg)).Admissible
        (.initial cfg, []) published) :
    ((MqConsumer.Thread.machine P cfg.rabbitmq).recording
        (MqConsumer.Thread.outcomes P cfg.rabbitmq)).Each
          (MqConsumer.Thread.Lawful cfg.rabbitmq)
          (⟨.initial cfg.rabbitmq scheduler, false⟩, []) consumed ∧
      ((MqPublisher.machine P cfg).recording (MqPublisher.outcomes P cfg)).Each
        MqPublisher.Lawful (.initial cfg, []) published := by
  constructor
  · apply Machine.each_of_inv (MqConsumer.Thread.sound_step P cfg.rabbitmq)
      (MqConsumer.Thread.lawful_of_sound P cfg.rabbitmq) _ hconsumed
    exact ⟨⟨fun _ => rfl, by simp [MqConsumer.initial]⟩,
      by simp [MqConsumer.initial]⟩
  · apply Machine.each_of_inv (MqPublisher.sound_step P cfg)
      (MqPublisher.lawful_of_sound P cfg) _ hpublished
    exact ⟨⟨fun _ => rfl, by simp [MqPublisher.initial]⟩,
      by simp [MqPublisher.initial]⟩

namespace ConnectionSetupWitness

open MqPublisher.MqPublisherWitness (platform delivered)

/-- The broker refuses the channel, then grants it; `Consume` times out. -/
def polls : List MqConsumer.Watched.Event :=
  [.connect (fun call => decide (call ≠ .channelOpen)), .connect (fun _ => true),
    .consume (fun _ => true) .timeout true 0 (some (.returned .ack))]

theorem connected_means_set_up_polls :
    ((MqConsumer.Thread.machine platform {}).recording
        (MqConsumer.Thread.outcomes platform {})).Each
          (MqConsumer.Thread.Lawful {}) (⟨.initial {} none, false⟩, []) polls ∧
      ((MqPublisher.machine platform {}).recording
        (MqPublisher.outcomes platform {})).Each MqPublisher.Lawful
          (.initial {}, []) delivered :=
  connected_means_set_up platform {} none polls
    ⟨⟨rfl, rfl⟩, ⟨rfl, by decide +kernel⟩,
      ⟨by decide +kernel, by decide +kernel, fun _ => rfl⟩, trivial⟩ delivered
    ⟨trivial, rfl, ⟨rfl, rfl⟩, ⟨rfl, by decide +kernel⟩, trivial⟩

end ConnectionSetupWitness

end FlzChat
