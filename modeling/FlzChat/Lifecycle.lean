/-
The two broker threads from start to stop and over again.  What `Stop` leaves
behind: no connection, no task in hand, and books that balance; the queue is
kept for the next start.
-/
import FlzChat.Accounting
import FlzChat.ConnectionProtocol
import FlzChat.ThreadLoop

namespace FlzChat

namespace MqConsumer

/-- A consumer sets its channel up after the login, then it waits, acks and
nacks. -/
def role (cfg : RabbitMqConfig) : Role where
  setup := (setupCalls cfg).drop AmqpClient.connectCalls.length
  works := AmqpCall.isTraffic

/-- The consumer with its thread.  `crashed` is set when an exception has left the
thread's function: the process is over, nothing is enabled after it, and what the
other fields say means nothing any more. -/
structure Life where
  consumer : MqConsumer
  loop : ThreadLoop := {}
  crashed : Bool := false

namespace Life

inductive Event where
  | start (scheduler : Option IoManager) (hasHandler : Bool)
  | check
  | connect (replies : Replies)
  | consume (replies : Replies) (reply : ConsumeReply) (nowMs : Int)
      (answer : Option Invocation)
  | stop
  | join (replies : Replies)

/-- `Start`, and the beginning of `Run`. -/
def start (cfg : RabbitMqConfig) (scheduler : Option IoManager)
    (hasHandler : Bool) (life : Life) : Life :=
  if life.loop.running then life
  else { life with
    consumer := { life.consumer with
      scheduler := scheduler
      hasHandler := hasHandler
      backoff := cfg.reconnectInitialBackoffMs }
    loop := life.loop.start }

def consume (P : Platform) (replies : Replies) (reply : ConsumeReply)
    (nowMs : Int) (answer : Option Invocation) (life : Life) : Life :=
  match life.consumer.consumeStep P replies reply life.loop.running nowMs
      answer with
  | (.next, consumer) =>
      { life with consumer := consumer, loop := life.loop.stay false }
  | (.stopped, consumer) =>
      { life with consumer := consumer, loop := life.loop.leave }
  | (.terminated, consumer) => { life with consumer := consumer, crashed := true }

/-- The owner starts and stops the thread, one call after the other; the thread
follows its program. -/
def machine (P : Platform) (cfg : RabbitMqConfig) : Machine Life Event where
  enabled life
    | .start _ _ => life.crashed = false ∧ life.loop.stopping = false
    | .check => life.crashed = false ∧ life.loop.alive = true ∧
        life.loop.inside = false
    | .connect _ => life.crashed = false ∧ life.loop.inside = true ∧
        life.consumer.ready = false
    | .consume _ _ _ answer => life.crashed = false ∧ life.loop.inside = true ∧
        life.consumer.ready = true ∧
          (life.consumer.scheduler = none → answer.isSome = true)
    | .stop => life.crashed = false ∧ life.loop.stopping = false
    | .join _ => life.crashed = false ∧ life.loop.stopping = true ∧
        life.loop.alive = false
  step life
    | .start scheduler hasHandler => life.start cfg scheduler hasHandler
    | .check => { life with loop := life.loop.check }
    | .connect replies =>
        let consumer := life.consumer.connectStep cfg replies
        { life with consumer := consumer, loop := life.loop.stay consumer.ready }
    | .consume replies reply nowMs answer =>
        life.consume P replies reply nowMs answer
    | .stop => { life with loop := life.loop.stop }
    | .join _ => { life with
        consumer := { life.consumer with client := life.consumer.client.close }
        loop := life.loop.join }

instance (P : Platform) (cfg : RabbitMqConfig) (life : Life) :
    ∀ e, Decidable ((machine P cfg).enabled life e)
  | .start _ _ => inferInstanceAs (Decidable (_ ∧ _))
  | .check => inferInstanceAs (Decidable (_ ∧ _))
  | .connect _ => inferInstanceAs (Decidable (_ ∧ _))
  | .consume _ _ _ answer => inferInstanceAs (Decidable
      (_ ∧ _ ∧ _ ∧ (life.consumer.scheduler = none → answer.isSome = true)))
  | .stop => inferInstanceAs (Decidable (_ ∧ _))
  | .join _ => inferInstanceAs (Decidable (_ ∧ _))

/-- What the broker library answers during an event. -/
def Event.replies : Event → Replies
  | .connect replies => replies
  | .consume replies _ _ _ => replies
  | .join replies => replies
  | _ => fun _ => true

/-- The calls of a step with their outcomes. -/
def outcomes (P : Platform) (cfg : RabbitMqConfig) (life : Life) (e : Event) :
    List Outcome :=
  AmqpClient.outcomes e.replies life.consumer.client
    ((machine P cfg).step life e).consumer.client

/-- The consumer before its first start. -/
def initial (cfg : RabbitMqConfig) : Life :=
  { consumer := MqConsumer.initial cfg none }

/-- The client holds a connection only while there is a thread, and the thread
consumes only on a connection that is up. -/
structure Sound (life : Life) : Prop where
  loop : life.loop.Sound
  whole : life.consumer.client.Whole
  ready : life.consumer.ready = true → life.consumer.client.connected = true
  inside : life.consumer.ready = true → life.loop.inside = true
  idle : life.loop.Idle → life.consumer.client.connected = false

theorem sound_initial (cfg : RabbitMqConfig) : Sound (initial cfg) :=
  ⟨ThreadLoop.sound_initial, rfl, by simp [initial, MqConsumer.initial],
    by simp [initial, MqConsumer.initial], fun _ => rfl⟩

section

variable {P : Platform} {cfg : RabbitMqConfig} {life : Life}

theorem disciplined_connectStep (cfg : RabbitMqConfig) (replies : Replies)
    {consumer : MqConsumer} (hwhole : consumer.client.Whole) (hready : consumer.ready = false) :
    let next := consumer.connectStep cfg replies
    AmqpClient.Disciplined (role cfg) replies consumer.client next.client ∧
      (next.ready = true → next.client.connected = true) := by
  intro next
  obtain ⟨hclient, hnext⟩ := connectStep_client cfg replies consumer
  have hsteps : ∀ step ∈ setupSteps cfg replies,
      AmqpClient.Advances (role cfg) replies step.1 step.2 := by
    simp only [setupSteps, List.forall_mem_cons]
    exact ⟨AmqpClient.advances_openChannel _,
      AmqpClient.advances_declareChatTopology,
      AmqpClient.advances_requestAll (by simp [AmqpCall.isRequest]), by simp⟩
  have hsetup : (role cfg).setup = (setupSteps cfg replies).flatMap (·.1) := by
    rw [role, setupCalls_eq cfg replies]
    rfl
  obtain ⟨hdisciplined, hconnected⟩ := AmqpClient.disciplined_ensureConnected
    hsteps hsetup hwhole (lit "consumer") consumer.metrics
  have hresult : next.client.connected =
      (ensureConnected cfg replies consumer.client consumer.metrics).1 := by
    rw [hclient]
    exact hconnected
  refine ⟨by rw [hclient]; exact hdisciplined, fun hup => ?_⟩
  rw [hnext, hready] at hup
  rw [hresult]
  simpa using hup

theorem disciplined_settle (cfg : RabbitMqConfig) (replies : Replies)
    {consumer : MqConsumer}
    (hwhole : consumer.client.Whole)
    (hconnected : consumer.client.connected = true) (deliveryTag : UInt64)
    (type : StdString) (result : ConsumeResult) :
    AmqpClient.Disciplined (role cfg) replies consumer.client
      (consumer.settle replies deliveryTag type result).client := by
  have htraffic : (result.settlement deliveryTag).isTraffic = true := by
    cases result <;> rfl
  have hsettled : AmqpClient.Disciplined (role cfg) replies consumer.client
      (AmqpClient.requestAll replies [result.settlement deliveryTag]
        consumer.client).2 :=
    AmqpClient.disciplined_traffic hwhole hconnected htraffic htraffic
  rw [settle_client]
  split_ifs
  · exact hsettled
  · exact hsettled.trans (AmqpClient.disciplined_close _ replies hsettled.whole)

theorem disciplined_handleDelivery {replies : Replies} {consumer : MqConsumer}
    (hwhole : consumer.client.Whole)
    (hconnected : consumer.client.connected = true) (d : AmqpDelivery)
    (nowMs : Int) (answer : Option Invocation) :
    AmqpClient.Disciplined (role cfg) replies consumer.client
      (consumer.handleDelivery P replies d nowMs answer).2.client := by
  have hack : AmqpClient.Disciplined (role cfg) replies consumer.client
      (consumer.client.ack replies d.deliveryTag).2 :=
    AmqpClient.disciplined_traffic hwhole hconnected rfl rfl
  simp only [handleDelivery]
  rcases envelopeFromString P d.body with thrown | text | env
  · exact AmqpClient.Disciplined.refl _ replies hwhole
  · exact hack
  · simp only
    rcases consumer.idempotency.tryMark env.msgId nowMs with ⟨_ | _, idempotency⟩
    · exact hack
    · let marked : MqConsumer := { consumer with idempotency := idempotency }
      have hclient : (dispatchToScheduler env answer marked).2.client =
          consumer.client := dispatchToScheduler_client env answer marked
      have hone : (dispatchToScheduler env answer marked).2.client.Whole := by
        rw [hclient]
        exact hwhole
      have hup : (dispatchToScheduler env answer marked).2.client.connected =
          true := by
        rw [hclient]
        exact hconnected
      have hsettle := disciplined_settle cfg replies hone hup d.deliveryTag
        env.type (dispatchToScheduler env answer marked).1
      rw [hclient] at hsettle
      exact hsettle

theorem disciplined_consumeStep (P : Platform) (cfg : RabbitMqConfig)
    (replies : Replies) {consumer : MqConsumer}
    (hwhole : consumer.client.Whole)
    (hconnected : consumer.client.connected = true) (reply : ConsumeReply)
    (running : Bool) (nowMs : Int) (answer : Option Invocation) :
    AmqpClient.Disciplined (role cfg) replies consumer.client
      (consumer.consumeStep P replies reply running nowMs answer).2.client := by
  have hasked : AmqpClient.Disciplined (role cfg) replies consumer.client
      (consumer.client.request replies .consumeMessage).2 := by
    rw [← AmqpClient.requestAll_singleton]
    exact AmqpClient.disciplined_traffic hwhole hconnected rfl rfl
  simp only [consumeStep]
  split_ifs
  · exact hasked
  · cases reply with
    | timeout => exact hasked
    | failure =>
        exact hasked.trans (AmqpClient.disciplined_close _ replies hasked.whole)
    | delivery d =>
        let asking : MqConsumer := { consumer with
          ready := false
          client := (consumer.client.request replies .consumeMessage).2 }
        have hone : asking.client.Whole := hasked.whole
        have hup : asking.client.connected = true := hconnected
        exact hasked.trans (disciplined_handleDelivery hone hup d nowMs answer)

theorem start_spec (cfg : RabbitMqConfig) (scheduler : Option IoManager)
    (hasHandler : Bool) (life : Life) :
    let next := life.start cfg scheduler hasHandler
    next.loop = life.loop.start ∧
      next.consumer.client = life.consumer.client ∧
        next.consumer.ready = life.consumer.ready := by
  simp only [start]
  split_ifs with hrunning
  · exact ⟨by simp [ThreadLoop.start, hrunning], rfl, rfl⟩
  · exact ⟨rfl, rfl, rfl⟩

/-- What `Life.consume` does, whatever the iteration leads to. -/
theorem consume_cases (P : Platform) (replies : Replies) (reply : ConsumeReply)
    (nowMs : Int) (answer : Option Invocation) (life : Life) :
    let next := life.consume P replies reply nowMs answer
    let after := life.consumer.consumeStep P replies reply life.loop.running
      nowMs answer
    next.consumer = after.2 ∧
      (next.loop = life.loop.stay false ∨
        (next.loop = life.loop.leave ∧ life.loop.running = false) ∨
          (next.loop = life.loop ∧ next.crashed = true)) := by
  intro next after
  have hstopped : after.1 = .stopped → life.loop.running = false := by
    intro hflow
    by_contra hrunning
    rw [Bool.not_eq_false] at hrunning
    simp only [after, consumeStep, hrunning] at hflow
    cases reply with
    | timeout => contradiction
    | failure => contradiction
    | delivery d =>
        simp only [handleDelivery, Bool.true_eq_false, if_false] at hflow
        split at hflow
        · contradiction
        · contradiction
        · split at hflow <;> contradiction
  simp only [next, consume]
  rcases hafter : life.consumer.consumeStep P replies reply life.loop.running
    nowMs answer with ⟨_ | _ | _, consumer⟩
  · simp [after, hafter]
  · simp only [after, hafter] at hstopped
    simp [after, hafter, hstopped]
  · simp [after, hafter]

/-- Every event keeps the client in order. -/
theorem step_sound (hsound : Sound life) {e : Event}
    (henabled : (machine P cfg).enabled life e) :
    Sound ((machine P cfg).step life e) ∧
      AmqpClient.Disciplined (role cfg) e.replies life.consumer.client
        ((machine P cfg).step life e).consumer.client := by
  have hsame := AmqpClient.Disciplined.refl (role cfg) e.replies hsound.whole
  cases e with
  | start scheduler hasHandler =>
      obtain ⟨hloop, hclient, hready⟩ :=
        start_spec cfg scheduler hasHandler life
      simp only [machine]
      rw [hclient]
      refine ⟨⟨?_, ?_, ?_, ?_, ?_⟩, hsame⟩
      · rw [hloop]
        exact hsound.loop.start henabled.2
      · rw [hclient]
        exact hsound.whole
      · rw [hclient, hready]
        exact hsound.ready
      · rw [hloop, hready]
        exact fun hup => hsound.loop.inside_start henabled.2 (hsound.inside hup)
      · rw [hloop, hclient]
        exact fun hidle => hsound.idle (ThreadLoop.idle_start hidle)
  | check =>
      obtain ⟨_, halive, hinside⟩ := henabled
      exact ⟨⟨hsound.loop.check hinside, hsound.whole, hsound.ready,
        fun hup => ThreadLoop.inside_check (hsound.inside hup),
        fun hidle => absurd hidle (hsound.loop.not_idle_check halive)⟩, hsame⟩
  | connect replies =>
      obtain ⟨_, hinside, hunready⟩ := henabled
      obtain ⟨hdisciplined, hconnected⟩ :=
        disciplined_connectStep cfg replies hsound.whole hunready
      exact ⟨⟨hsound.loop.stay fun _ => hinside, hdisciplined.whole, hconnected,
        id, fun hidle => absurd hidle (hsound.loop.not_idle_stay hinside _)⟩,
        hdisciplined⟩
  | consume replies reply nowMs answer =>
      obtain ⟨_, hinside, hready, _⟩ := henabled
      have hdisciplined := disciplined_consumeStep P cfg replies hsound.whole
        (hsound.ready hready) reply life.loop.running nowMs answer
      have hunready := consumeStep_ready P replies reply life.loop.running nowMs
        answer life.consumer
      have halive := hsound.loop.inside hinside
      obtain ⟨hconsumer, hloop⟩ := consume_cases P replies reply nowMs answer life
      simp only [machine]
      rw [← hconsumer] at hdisciplined hunready
      generalize life.consume P replies reply nowMs answer = next at *
      have hlifeless : next.loop.Sound ∧ ¬ next.loop.Idle := by
        rcases hloop with hloop | ⟨hloop, hrunning⟩ | ⟨hloop, _⟩
        · rw [hloop]
          exact ⟨hsound.loop.stay (by simp), hsound.loop.not_idle_stay hinside _⟩
        · rw [hloop]
          exact ⟨.leave hrunning, hsound.loop.not_idle_of_alive halive
            (fun _ => hrunning) rfl⟩
        · rw [hloop]
          exact ⟨hsound.loop, hsound.loop.not_idle_of_alive halive
            (fun hdead => absurd hdead (by simp [halive])) rfl⟩
      exact ⟨⟨hlifeless.1, hdisciplined.whole,
        fun hup => absurd hup (by simp [hunready]),
        fun hup => absurd hup (by simp [hunready]),
        fun hidle => absurd hidle hlifeless.2⟩, hdisciplined⟩
  | stop =>
      exact ⟨⟨hsound.loop.stop, hsound.whole, hsound.ready,
        fun hup => ThreadLoop.inside_stop (hsound.inside hup),
        fun hidle => hsound.idle (ThreadLoop.idle_stop hidle)⟩, hsame⟩
  | join replies =>
      obtain ⟨_, hstopping, hdead⟩ := henabled
      have hclosed :=
        AmqpClient.disciplined_close (role cfg) replies hsound.whole
      have hunready : life.consumer.ready ≠ true := by
        intro hready
        rw [hsound.loop.inside (hsound.inside hready)] at hdead
        contradiction
      exact ⟨⟨hsound.loop.join hdead, hclosed.whole,
        fun hready => absurd hready hunready,
        fun hready => absurd hready hunready, fun _ => rfl⟩, hclosed⟩

/-- The calls of a run are made in their places, and the last of them leads to
where the client is. -/
theorem walk_run {es : List Event} (hsound : Sound life)
    (hadm : (machine P cfg).Admissible life es) :
    life.consumer.client.link.walk (role cfg)
        ((machine P cfg).trace (outcomes P cfg) life es) =
      some ((machine P cfg).run life es).consumer.client.link := by
  induction es generalizing life with
  | nil => rfl
  | cons e es ih =>
      obtain ⟨hnext, hdisciplined⟩ := step_sound hsound hadm.1
      have hfirst : life.consumer.client.link.walk (role cfg)
          (outcomes P cfg life e) =
            some ((machine P cfg).step life e).consumer.client.link :=
        hdisciplined.moves.outcomes
      rw [Machine.trace, Machine.run_cons, Link.walk_append hfirst]
      exact ih hnext hadm.2

end

theorem orderly_run (P : Platform) (cfg : RabbitMqConfig)
    (es : List Event) (hadm : (machine P cfg).Admissible (initial cfg) es) :
    let record := (machine P cfg).trace (outcomes P cfg) (initial cfg) es
    let life := (machine P cfg).run (initial cfg) es
    Link.absent.walk (role cfg) record = some life.consumer.client.link ∧
      (life.loop.Idle →
        Link.allocations record = Link.destructions record) := by
  intro record life
  have hwalk : Link.absent.walk (role cfg) record =
      some life.consumer.client.link :=
    walk_run (sound_initial cfg) hadm
  refine ⟨hwalk, fun hidle => ?_⟩
  have hsound : Sound life :=
    Machine.run_of_step (fun _ _ hsound henabled => (step_sound hsound henabled).1)
      (sound_initial cfg) hadm
  have hheld := Link.held_walk hwalk
  rw [AmqpClient.link, hsound.idle hidle] at hheld
  simpa [Link.held] using hheld

end Life

end MqConsumer

namespace MqPublisher

/-- A publisher sets its channel up after the login, then it publishes. -/
def role : Role where
  setup := setupCalls.drop AmqpClient.connectCalls.length
  works := AmqpCall.isPublish

/-- The publisher with its thread. -/
structure Life where
  pub : MqPublisher
  loop : ThreadLoop := {}

namespace Life

/-- Callers publish and the thread works as before; `does` is one of these. -/
inductive Event where
  | does (e : MqPublisher.Event)
  | start
  | check
  | stop
  | join (replies : Replies)

/-- `Start`, and the beginning of `Run`. -/
def start (cfg : ChatConfig) (life : Life) : Life :=
  if life.loop.running then life
  else { life with
    pub := { life.pub with backoff := cfg.rabbitmq.reconnectInitialBackoffMs }
    loop := life.loop.start }

/-- An event of the machine; the thread is back at its loop condition when it
holds no task. -/
def act (P : Platform) (cfg : ChatConfig) (e : MqPublisher.Event) (life : Life) :
    Life :=
  let pub := (MqPublisher.machine P cfg).step life.pub e
  match e with
  | .publish _ => { life with pub := pub }
  | _ => { life with pub := pub, loop := life.loop.stay pub.held.isSome }

def machine (P : Platform) (cfg : ChatConfig) : Machine Life Event where
  enabled life
    | .does (.publish _) => True
    | .does e => life.loop.inside = true ∧
        (MqPublisher.machine P cfg).enabled life.pub e
    | .start => life.loop.stopping = false
    | .check => life.loop.alive = true ∧ life.loop.inside = false
    | .stop => life.loop.stopping = false
    | .join _ => life.loop.stopping = true ∧ life.loop.alive = false
  step life
    | .does e => life.act P cfg e
    | .start => life.start cfg
    | .check => { life with loop := life.loop.check }
    | .stop => { life with loop := life.loop.stop }
    | .join _ => { life with
        pub := { life.pub with client := life.pub.client.close }
        loop := life.loop.join }

instance (P : Platform) (cfg : ChatConfig) (pub : MqPublisher) :
    ∀ e, Decidable ((MqPublisher.machine P cfg).enabled pub e)
  | .publish _ => isTrue trivial
  | .dequeue => decidable_of_iff (pub.held.isNone = true) Option.isNone_iff_eq_none
  | .connect _ => inferInstanceAs (Decidable (_ ∧ _))
  | .send _ _ _ => inferInstanceAs (Decidable (_ ∧ _))

instance (P : Platform) (cfg : ChatConfig) (life : Life) :
    ∀ e, Decidable ((machine P cfg).enabled life e)
  | .does (.publish _) => isTrue trivial
  | .does .dequeue => inferInstanceAs (Decidable
      (_ ∧ (MqPublisher.machine P cfg).enabled life.pub .dequeue))
  | .does (.connect _) => inferInstanceAs (Decidable (_ ∧ _ ∧ _))
  | .does (.send _ _ _) => inferInstanceAs (Decidable (_ ∧ _ ∧ _))
  | .start => inferInstanceAs (Decidable (_ = _))
  | .check => inferInstanceAs (Decidable (_ ∧ _))
  | .stop => inferInstanceAs (Decidable (_ = _))
  | .join _ => inferInstanceAs (Decidable (_ ∧ _))

/-- What the broker library answers during an event. -/
def Event.replies : Event → Replies
  | .does (.connect replies) => replies
  | .does (.send replies _ _) => replies
  | .join replies => replies
  | _ => fun _ => true

/-- What an event is to the machine without a life cycle. -/
def Event.act? : Event → Option MqPublisher.Event
  | .does e => some e
  | _ => none

/-- The calls of a step with their outcomes. -/
def outcomes (P : Platform) (cfg : ChatConfig) (life : Life) (e : Event) :
    List Outcome :=
  AmqpClient.outcomes e.replies life.pub.client
    ((machine P cfg).step life e).pub.client

/-- The publisher before its first start. -/
def initial (cfg : ChatConfig) : Life :=
  { pub := MqPublisher.initial cfg }

/-- The client holds a connection only while there is a thread, and the thread
publishes only on a connection that is up. -/
structure Sound (life : Life) : Prop where
  loop : life.loop.Sound
  whole : life.pub.client.Whole
  ready : life.pub.ready = true → life.pub.client.connected = true
  held : life.pub.ready = true → life.pub.held.isSome = true
  inside : life.pub.held.isSome = true → life.loop.inside = true
  idle : life.loop.Idle → life.pub.client.connected = false

theorem sound_initial (cfg : ChatConfig) : Sound (initial cfg) :=
  ⟨ThreadLoop.sound_initial, rfl, by simp [initial, MqPublisher.initial],
    by simp [initial, MqPublisher.initial],
    by simp [initial, MqPublisher.initial], fun _ => rfl⟩

section

variable {P : Platform} {cfg : ChatConfig} {life : Life}

theorem disciplined_connectStep (cfg : ChatConfig) (replies : Replies)
    (task : Task) {pub : MqPublisher} (hwhole : pub.client.Whole)
    (hready : pub.ready = false) :
    let next := pub.connectStep cfg replies task
    AmqpClient.Disciplined role replies pub.client next.client ∧
      (next.ready = true → next.client.connected = true) := by
  intro next
  obtain ⟨hclient, hnext⟩ := connectStep_client cfg replies task pub
  let steps := [([AmqpCall.channelOpen], AmqpClient.openChannel replies 0),
    (AmqpClient.businessExchange :: AmqpClient.chatTopology,
      AmqpClient.declareForPublisher replies)]
  have hsteps : ∀ step ∈ steps,
      AmqpClient.Advances role replies step.1 step.2 := by
    simp only [steps, List.forall_mem_cons]
    exact ⟨AmqpClient.advances_openChannel 0,
      AmqpClient.advances_declareForPublisher, by simp⟩
  obtain ⟨hdisciplined, hconnected⟩ := AmqpClient.disciplined_ensureConnected
    hsteps rfl hwhole (lit "publisher") pub.metrics
  have hresult : next.client.connected =
      (ensureConnected replies pub.client pub.metrics).1 := by
    rw [hclient]
    exact hconnected
  refine ⟨by rw [hclient]; exact hdisciplined, fun hup => ?_⟩
  rw [hnext, hready] at hup
  rw [hresult]
  simpa using hup

theorem disciplined_sendStep (P : Platform) (replies : Replies) (clock : Clock)
    (msgId : StdString) (task : Task) {pub : MqPublisher}
    (hwhole : pub.client.Whole) (hconnected : pub.client.connected = true) :
    AmqpClient.Disciplined role replies pub.client
      (pub.sendStep P replies clock msgId task).client := by
  have hrequest : (publishCall P clock msgId task).isRequest = true := rfl
  have hsent : AmqpClient.Disciplined role replies pub.client _ :=
    AmqpClient.disciplined_request hwhole hconnected rfl hrequest
  simp only [sendStep]
  split
  · next heq => simpa [heq] using hsent
  · next heq => simpa [heq] using hsent

/-- Every move of the thread and every call of `Publish` keeps the client in
order. -/
theorem disciplined_step (hsound : Sound life) {e : MqPublisher.Event}
    (henabled : (MqPublisher.machine P cfg).enabled life.pub e) :
    let next := (MqPublisher.machine P cfg).step life.pub e
    AmqpClient.Disciplined role (Event.does e).replies life.pub.client
        next.client ∧
      (next.ready = true → next.client.connected = true) ∧
        (next.ready = true → next.held.isSome = true) := by
  intro next
  have hsame : AmqpClient.Disciplined role (Event.does e).replies
      life.pub.client life.pub.client := .refl _ _ hsound.whole
  cases e with
  | publish task =>
      have hkept : next.client = life.pub.client ∧ next.ready = life.pub.ready ∧
          next.held = life.pub.held := by
        simp only [next, MqPublisher.machine, publish, enqueue]
        split_ifs <;> exact ⟨rfl, rfl, rfl⟩
      rw [hkept.1, hkept.2.1, hkept.2.2]
      exact ⟨hsame, hsound.ready, hsound.held⟩
  | dequeue =>
      have hkept : next.client = life.pub.client ∧
          (next.ready = true → life.pub.ready = true ∧ next.held = life.pub.held) := by
        simp only [next, MqPublisher.machine, dequeue]
        split
        · exact ⟨rfl, fun hup => ⟨hup, rfl⟩⟩
        · exact ⟨rfl, by simp⟩
      rw [hkept.1]
      refine ⟨hsame, fun hup => hsound.ready (hkept.2 hup).1, fun hup => ?_⟩
      rw [(hkept.2 hup).2]
      exact hsound.held (hkept.2 hup).1
  | connect replies =>
      obtain ⟨task, hheld⟩ := Option.isSome_iff_exists.mp henabled.1
      obtain ⟨hdisciplined, hconnected⟩ :=
        disciplined_connectStep cfg replies task hsound.whole henabled.2
      simp only [next, MqPublisher.machine, hheld]
      refine ⟨hdisciplined, hconnected, ?_⟩
      simp only [connectStep]
      split
      · exact fun hup => absurd hup (by simp [henabled.2])
      · exact fun _ => by simp [hheld]
  | send replies clock msgId =>
      obtain ⟨task, hheld⟩ := Option.isSome_iff_exists.mp henabled.1
      have hsent := disciplined_sendStep P replies clock msgId task hsound.whole
        (hsound.ready henabled.2)
      have hunready := (keeps_sendStep P replies clock msgId task life.pub).2
      simp only [next, MqPublisher.machine, hheld]
      exact ⟨hsent, fun hup => absurd hup (by simp [hunready]),
        fun hup => absurd hup (by simp [hunready])⟩

theorem enabled_of_does {e : MqPublisher.Event}
    (henabled : (machine P cfg).enabled life (.does e)) :
    (MqPublisher.machine P cfg).enabled life.pub e := by
  cases e with
  | publish task => trivial
  | dequeue => exact henabled.2
  | connect replies => exact henabled.2
  | send replies clock msgId => exact henabled.2

theorem start_spec (cfg : ChatConfig) (life : Life) :
    (life.start cfg).loop = life.loop.start ∧
      (life.start cfg).pub = { life.pub with backoff := (life.start cfg).pub.backoff } := by
  simp only [start]
  split_ifs with hrunning
  · exact ⟨by simp [ThreadLoop.start, hrunning], rfl⟩
  · exact ⟨rfl, rfl⟩

theorem step_sound (hsound : Sound life) {e : Event}
    (henabled : (machine P cfg).enabled life e) :
    Sound ((machine P cfg).step life e) ∧
      AmqpClient.Disciplined role e.replies life.pub.client
        ((machine P cfg).step life e).pub.client := by
  have hsame := AmqpClient.Disciplined.refl role e.replies hsound.whole
  cases e with
  | does e =>
      obtain ⟨hdisciplined, hconnected, hholds⟩ :=
        disciplined_step hsound (enabled_of_does henabled)
      by_cases hpublish : ∃ task, e = .publish task
      · obtain ⟨task, rfl⟩ := hpublish
        have hkept : ((MqPublisher.machine P cfg).step life.pub
            (.publish task)).held = life.pub.held ∧
            ((MqPublisher.machine P cfg).step life.pub
              (.publish task)).client = life.pub.client := by
          simp only [MqPublisher.machine, publish, enqueue]
          split_ifs <;> exact ⟨rfl, rfl⟩
        refine ⟨⟨hsound.loop, hdisciplined.whole, hconnected, hholds,
          fun hheld => ?_, fun hidle => ?_⟩, hdisciplined⟩
        · apply hsound.inside
          rw [← hkept.1]
          exact hheld
        · rw [← hsound.idle hidle]
          exact congrArg AmqpClient.connected hkept.2
      · have hinside : life.loop.inside = true := by
          cases e with
          | publish task => exact absurd ⟨task, rfl⟩ hpublish
          | dequeue => exact henabled.1
          | connect replies => exact henabled.1
          | send replies clock msgId => exact henabled.1
        have hact : (machine P cfg).step life (.does e) =
            { life with
              pub := (MqPublisher.machine P cfg).step life.pub e
              loop := life.loop.stay
                ((MqPublisher.machine P cfg).step life.pub e).held.isSome } := by
          cases e with
          | publish task => exact absurd ⟨task, rfl⟩ hpublish
          | _ => rfl
        rw [hact]
        exact ⟨⟨hsound.loop.stay fun _ => hinside, hdisciplined.whole, hconnected,
          hholds, id,
          fun hidle => absurd hidle (hsound.loop.not_idle_stay hinside _)⟩,
          hdisciplined⟩
  | start =>
      obtain ⟨hloop, hpub⟩ := start_spec cfg life
      simp only [machine]
      rw [hpub]
      refine ⟨⟨?_, ?_, ?_, ?_, ?_, ?_⟩, hsame⟩
      · rw [hloop]
        exact hsound.loop.start henabled
      · rw [hpub]
        exact hsound.whole
      · rw [hpub]
        exact hsound.ready
      · rw [hpub]
        exact hsound.held
      · rw [hloop, hpub]
        exact fun hheld => hsound.loop.inside_start henabled (hsound.inside hheld)
      · rw [hloop, hpub]
        exact fun hidle => hsound.idle (ThreadLoop.idle_start hidle)
  | check =>
      obtain ⟨halive, hinside⟩ := henabled
      exact ⟨⟨hsound.loop.check hinside, hsound.whole, hsound.ready, hsound.held,
        fun hheld => ThreadLoop.inside_check (hsound.inside hheld),
        fun hidle => absurd hidle (hsound.loop.not_idle_check halive)⟩, hsame⟩
  | stop =>
      exact ⟨⟨hsound.loop.stop, hsound.whole, hsound.ready, hsound.held,
        fun hheld => ThreadLoop.inside_stop (hsound.inside hheld),
        fun hidle => hsound.idle (ThreadLoop.idle_stop hidle)⟩, hsame⟩
  | join replies =>
      obtain ⟨hstopping, hdead⟩ := henabled
      have hclosed := AmqpClient.disciplined_close role replies hsound.whole
      have hempty : life.pub.held.isSome ≠ true := by
        intro hheld
        rw [hsound.loop.inside (hsound.inside hheld)] at hdead
        contradiction
      exact ⟨⟨hsound.loop.join hdead, hclosed.whole,
        fun hready => absurd (hsound.held hready) hempty, hsound.held,
        fun hheld => absurd hheld hempty, fun _ => rfl⟩, hclosed⟩

theorem sound_run {es : List Event} (hadm : (machine P cfg).Admissible life es)
    (hsound : Sound life) : Sound ((machine P cfg).run life es) :=
  Machine.run_of_step (fun _ _ hsound henabled => (step_sound hsound henabled).1)
    hsound hadm

theorem walk_run {es : List Event} (hsound : Sound life)
    (hadm : (machine P cfg).Admissible life es) :
    life.pub.client.link.walk role
        ((machine P cfg).trace (outcomes P cfg) life es) =
      some ((machine P cfg).run life es).pub.client.link := by
  induction es generalizing life with
  | nil => rfl
  | cons e es ih =>
      obtain ⟨hnext, hdisciplined⟩ := step_sound hsound hadm.1
      have hfirst : life.pub.client.link.walk role (outcomes P cfg life e) =
          some ((machine P cfg).step life e).pub.client.link :=
        hdisciplined.moves.outcomes
      rw [Machine.trace, Machine.run_cons, Link.walk_append hfirst]
      exact ih hnext hadm.2

theorem orderly_run (P : Platform) (cfg : ChatConfig) (es : List Event)
    (hadm : (machine P cfg).Admissible (initial cfg) es) :
    let record := (machine P cfg).trace (outcomes P cfg) (initial cfg) es
    let life := (machine P cfg).run (initial cfg) es
    Link.absent.walk role record = some life.pub.client.link ∧
      (life.loop.Idle →
        Link.allocations record = Link.destructions record) := by
  intro record life
  have hwalk : Link.absent.walk role record = some life.pub.client.link :=
    walk_run (sound_initial cfg) hadm
  refine ⟨hwalk, fun hidle => ?_⟩
  have hsound : Sound life := sound_run hadm (sound_initial cfg)
  have hheld := Link.held_walk hwalk
  rw [AmqpClient.link, hsound.idle hidle] at hheld
  simpa [Link.held] using hheld

/-! The books, across starts and stops. -/

/-- Starting and stopping is no business of the books. -/
theorem step_books {routingKey : StdString} {n : Nat}
    (hbooks : Books routingKey n life.pub) {e : Event}
    (henabled : (machine P cfg).enabled life e) :
    Books routingKey (n + callsOf routingKey e.act?.toList)
      ((machine P cfg).step life e).pub := by
  have hkept : ∀ pub : MqPublisher, pub.held = life.pub.held →
      pub.queue = life.pub.queue → pub.metrics = life.pub.metrics →
        Books routingKey (n + callsOf routingKey []) pub :=
    fun pub hheld hqueue hmetrics =>
      hbooks.keep (by rw [hheld, hqueue]) (by rw [hmetrics])
  cases e with
  | does e =>
      have hstep := hbooks.step (enabled_of_does henabled)
      have hpub : ((machine P cfg).step life (.does e)).pub =
          (MqPublisher.machine P cfg).step life.pub e := by
        cases e <;> rfl
      rw [hpub]
      simp only [Event.act?, Option.toList_some, callsOf_cons]
      simpa [callsOf] using hstep
  | start =>
      obtain ⟨_, hpub⟩ := start_spec cfg life
      simp only [machine]
      rw [hpub]
      exact hkept _ rfl rfl rfl
  | check => exact hkept _ rfl rfl rfl
  | stop => exact hkept _ rfl rfl rfl
  | join replies => exact hkept _ rfl rfl rfl

theorem run_books {routingKey : StdString} {n : Nat}
    (hbooks : Books routingKey n life.pub) {es : List Event}
    (hadm : (machine P cfg).Admissible life es) :
    Books routingKey (n + callsOf routingKey (es.filterMap Event.act?))
      ((machine P cfg).run life es).pub := by
  induction es generalizing life n with
  | nil => exact hbooks
  | cons e es ih =>
      have hnext := ih (step_books hbooks hadm.1) hadm.2
      have hcalls : callsOf routingKey ((e :: es).filterMap Event.act?) =
          callsOf routingKey e.act?.toList +
            callsOf routingKey (es.filterMap Event.act?) := by
        rw [callsOf, callsOf, callsOf, ← List.countP_append]
        cases hact : e.act? <;> simp [hact]
      rw [hcalls, ← Nat.add_assoc]
      exact hnext

theorem step_inOrder (horder : InOrder cfg life.pub) {e : Event}
    (henabled : (machine P cfg).enabled life e) :
    InOrder cfg ((machine P cfg).step life e).pub := by
  cases e with
  | does e =>
      have hpub : ((machine P cfg).step life (.does e)).pub =
          (MqPublisher.machine P cfg).step life.pub e := by
        cases e <;> rfl
      rw [hpub]
      exact inOrder_step P cfg life.pub e horder (enabled_of_does henabled)
  | start =>
      obtain ⟨_, hpub⟩ := start_spec cfg life
      simp only [machine]
      rw [hpub]
      exact ⟨horder.length, horder.order⟩
  | check => exact horder
  | stop => exact horder
  | join replies => exact ⟨horder.length, horder.order⟩

end

/-- However often the publisher is started and stopped: when there is no thread
no task is in hand, every call of `Publish` has been counted once or waits in
the queue for the next start, and what the broker has been handed was accepted
in that order. -/
theorem restarts_lose_nothing (P : Platform) (cfg : ChatConfig)
    (es : List Event) (hadm : (machine P cfg).Admissible (initial cfg) es) :
    let pub := ((machine P cfg).run (initial cfg) es).pub
    pub.handed.Sublist pub.accepted ∧
      (((machine P cfg).run (initial cfg) es).loop.Idle →
        pub.held = none ∧ ∀ routingKey,
          UInt64.ofNat (callsOf routingKey (es.filterMap Event.act?)) =
            pub.published routingKey (lit "ok") +
              pub.published routingKey (lit "fail") +
                UInt64.ofNat (tasksOf routingKey pub.queue)) := by
  intro pub
  have horder : InOrder cfg pub :=
    Machine.run_of_step
      (fun _ _ horder henabled => step_inOrder horder henabled)
      (inOrder_initial cfg) hadm
  have hsound := sound_run hadm (sound_initial cfg)
  refine ⟨((List.sublist_append_left _ _).trans
    (List.sublist_append_left _ _)).trans horder.order, fun hidle => ?_⟩
  have hempty : pub.held = none := by
    by_contra hheld
    have hinside := hsound.inside (Option.isSome_iff_ne_none.mpr hheld)
    have halive := hsound.loop.inside hinside
    rw [hidle.1] at halive
    contradiction
  refine ⟨hempty, fun routingKey => ?_⟩
  obtain ⟨ok, fail, hok, hfail, hn⟩ :=
    run_books (books_initial routingKey cfg) hadm
  have hheld : ((machine P cfg).run (initial cfg) es).pub.held = none := hempty
  rw [hheld, Nat.zero_add, Option.toList_none, List.nil_append] at hn
  rw [hok, hfail, hn]
  simp only [pub, UInt64.ofNat_add]

end Life

end MqPublisher

/-- However often the two threads are started and stopped, each makes every call to
the broker library in its place: those of its set-up in order, then those of its
work; and whenever it is not there it has destroyed every connection it has
allocated. -/
theorem connections_in_order (P : Platform) (cfg : ChatConfig)
    (consumed : List MqConsumer.Life.Event)
    (hconsumed : (MqConsumer.Life.machine P cfg.rabbitmq).Admissible
      (.initial cfg.rabbitmq) consumed)
    (published : List MqPublisher.Life.Event)
    (hpublished : (MqPublisher.Life.machine P cfg).Admissible (.initial cfg)
      published) :
    (let record := (MqConsumer.Life.machine P cfg.rabbitmq).trace
        (MqConsumer.Life.outcomes P cfg.rabbitmq) (.initial cfg.rabbitmq) consumed
      let life := (MqConsumer.Life.machine P cfg.rabbitmq).run
        (.initial cfg.rabbitmq) consumed
      Link.absent.walk (MqConsumer.role cfg.rabbitmq) record =
          some life.consumer.client.link ∧
        (life.loop.Idle →
          Link.allocations record = Link.destructions record)) ∧
    (let record := (MqPublisher.Life.machine P cfg).trace
        (MqPublisher.Life.outcomes P cfg) (.initial cfg) published
      let life := (MqPublisher.Life.machine P cfg).run (.initial cfg) published
      Link.absent.walk MqPublisher.role record = some life.pub.client.link ∧
        (life.loop.Idle →
          Link.allocations record = Link.destructions record)) :=
  ⟨MqConsumer.Life.orderly_run P cfg.rabbitmq consumed hconsumed,
    MqPublisher.Life.orderly_run P cfg published hpublished⟩

namespace LifecycleWitness

open MqPublisher.MqPublisherWitness (platform clock)

/-- The consumer is refused once, connects, waits in vain and is stopped. -/
def consumed : List MqConsumer.Life.Event :=
  [.start none true, .check, .connect fun call => decide (call ≠ .channelOpen),
    .check, .connect fun _ => true,
    .consume (fun _ => true) .timeout 0 (some (.returned .ack)), .stop, .check,
    .join fun _ => true]

/-- One task is handed to the broker, and one comes after the stop. -/
def published : List MqPublisher.Life.Event :=
  [.does (.publish (MqPublisher.userOnlineTask 7)), .start, .check,
    .does .dequeue, .does (.connect fun _ => true),
    .does (.send (fun _ => true) clock (lit "m1")), .stop, .check,
    .join fun _ => true, .does (.publish (MqPublisher.userOnlineTask 8))]

theorem admissible_published :
    (MqPublisher.Life.machine platform {}).Admissible (.initial {}) published := by
  decide +kernel

theorem connections_in_order_once :
    Link.allocations ((MqConsumer.Life.machine platform {}).trace
        (MqConsumer.Life.outcomes platform {}) (.initial {}) consumed) =
      Link.destructions ((MqConsumer.Life.machine platform {}).trace
        (MqConsumer.Life.outcomes platform {}) (.initial {}) consumed) :=
  (connections_in_order platform {} consumed (by decide +kernel) published
    admissible_published).1.2 (by decide +kernel)

theorem restarts_lose_nothing_once :
    ((MqPublisher.Life.machine platform {}).run (.initial {})
      published).pub.held = none :=
  ((MqPublisher.Life.restarts_lose_nothing platform {} published
    admissible_published).2 (by decide +kernel)).1

end LifecycleWitness

end FlzChat
