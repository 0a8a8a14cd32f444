/-
What becomes of a delivery.  First one iteration: which bodies the thread
survives.  Then whole runs against a broker in manual-ack mode: since a
message is marked before its handler has answered, a redelivery is
acknowledged unseen.
-/
import FlzChat.Consumer
import FlzChat.Runs

namespace FlzChat

namespace MqConsumer

/-- Decoding the body returns, and every iteration that gets it settles it
once and goes on. -/
def Survives (P : Platform) (body : StdString) : Prop :=
  (∃ res, envelopeFromString P body = .ok res) ∧
    ∀ (consumer : MqConsumer) (replies : Replies) (deliveryTag : UInt64)
      (routingKey : StdString) (nowMs : Int) (answer : Option Invocation),
      let after := consumer.consumeStep P replies
        (.delivery ⟨deliveryTag, routingKey, body⟩) true nowMs answer
      after.1 = .next ∧ ∃ result : ConsumeResult,
        Settled (result.settlement deliveryTag) consumer.client after.2.client

/-- If the body is a JSON object, its envelope members have convertible types. -/
def BodyTyped (P : Platform) (body : StdString) : Prop :=
  ∀ members, P.fromString body = some (.obj members) → EnvelopeTyped members

theorem envelopeFromString_returns_iff (P : Platform) (body : StdString) :
    (∃ res, envelopeFromString P body = .ok res) ↔ BodyTyped P body := by
  simp only [envelopeFromString, BodyTyped]
  cases hparse : P.fromString body with
  | none => simp
  | some v =>
      cases v with
      | obj members =>
          simpa using envelopeFromJson_returns_iff P.json members
      | _ => simp [envelopeFromJson, Json.isObject]

/-- The thread survives exactly the bodies whose envelope members it can
convert. -/
theorem survives_iff_bodyTyped (P : Platform) (body : StdString) :
    Survives P body ↔ BodyTyped P body := by
  rw [← envelopeFromString_returns_iff]
  refine ⟨fun hsurvives => hsurvives.1, fun hreturns => ⟨hreturns, ?_⟩⟩
  obtain ⟨res, hres⟩ := hreturns
  intro consumer replies deliveryTag routingKey nowMs answer
  obtain ⟨hnext, result, hsettled⟩ := handleDelivery_of_returns P replies
    ⟨deliveryTag, routingKey, body⟩ nowMs answer
    { consumer with
      ready := false
      client := (consumer.client.request replies .consumeMessage).2 } hres
  exact ⟨hnext, result,
    Settled.prepend (unsettling_consumeMessage replies consumer.client) hsettled⟩

namespace SurvivesWitness

/-- The text `\x7b"msgId":[]\x7d`. -/
def body : StdString := lit "\x7b\"msgId\":[]\x7d"

def platform : Platform :=
  Platform.ofTables [(body, .obj [(lit "msgId", .arr [])])] [] [] []

example : envelopeFromString platform body = .error .logicError := rfl

theorem not_all_survive :
    ¬ ∀ (P : Platform) (body : StdString), Survives P body := by
  intro hall
  obtain ⟨res, hres⟩ := (hall platform body).1
  have hthrows : envelopeFromString platform body = .error .logicError := rfl
  rw [hthrows] at hres
  contradiction

end SurvivesWitness

/-! Runs against a broker. -/

/-- Messages whose bodies decode to envelopes with distinct ids. -/
structure Messages (P : Platform) (ι : Type) where
  body : ι → StdString
  env : ι → Envelope
  decodes : ∀ i, envelopeFromString P (body i) = .ok (.ok (env i))
  distinct : Function.Injective fun i => (env i).msgId

/-- Where a message stands with the broker. -/
inductive MessageStatus where
  | ready
  | unsettled
  | removed
  | deadLettered
deriving DecidableEq

/-- The broker, the consumer, and what has been seen: the messages the
consumer has sent an Ack for and those an invocation returned ACK for after
the thread had stopped waiting. -/
structure Broker (ι : Type) where
  consumer : MqConsumer
  status : ι → MessageStatus := fun _ => .ready
  stopped : Bool := false
  acked : List ι := []
  late : List ι := []

def Broker.initial {ι : Type} (cfg : RabbitMqConfig)
    (scheduler : Option IoManager) : Broker ι :=
  { consumer := MqConsumer.initial cfg scheduler }

/-- What the calls made for a delivery do to its message; one whose
settlement failed stays unsettled. -/
def statusAfter (replies : Replies) (deliveryTag : UInt64)
    (calls : List AmqpCall) : MessageStatus :=
  let succeeded := fun call => decide (call ∈ calls) && replies call
  if succeeded (.basicAck deliveryTag) then .removed
  else if succeeded (.basicNack deliveryTag true) then .ready
  else if succeeded (.basicNack deliveryTag false) then .deadLettered
  else .unsettled

inductive BrokerEvent (ι : Type) where
  | connect (replies : Replies)
  | poll (replies : Replies) (failed running : Bool)
  | deliver (i : ι) (replies : Replies) (deliveryTag : UInt64)
      (routingKey : StdString) (running : Bool) (nowMs : Int)
      (answer : Option Invocation)
  | answerLate (i : ι)
  | recover (i : ι)

variable {P : Platform} {ι : Type} [DecidableEq ι]

/-- A delivery of message `i` and what the consumer does with it. -/
def Broker.deliver (m : Messages P ι) (b : Broker ι) (i : ι) (replies : Replies)
    (deliveryTag : UInt64) (routingKey : StdString) (running : Bool)
    (nowMs : Int) (answer : Option Invocation) : Broker ι :=
  let after := b.consumer.consumeStep P replies
    (.delivery ⟨deliveryTag, routingKey, m.body i⟩) running nowMs answer
  let calls := after.2.client.calls.drop b.consumer.client.calls.length
  { b with
    consumer := after.2
    stopped := decide (after.1 ≠ .next)
    status := Function.update b.status i (statusAfter replies deliveryTag calls)
    acked := if .basicAck deliveryTag ∈ calls then i :: b.acked else b.acked }

/-- The thread runs its loop; the broker delivers ready messages and takes
back those it has no settlement for; an invocation that was not waited for
may still return ACK. -/
def brokerMachine (cfg : RabbitMqConfig) (m : Messages P ι) :
    Machine (Broker ι) (BrokerEvent ι) where
  enabled b
    | .connect _ => b.stopped = false ∧ b.consumer.ready = false
    | .poll _ _ _ => b.stopped = false ∧ b.consumer.ready = true
    | .deliver i _ _ _ _ _ answer =>
        b.stopped = false ∧ b.consumer.ready = true ∧ b.status i = .ready ∧
          (b.consumer.scheduler = none → answer.isSome = true)
    | .answerLate i => (m.env i, none) ∈ b.consumer.invocations
    | .recover i => b.status i = .unsettled
  step b
    | .connect replies =>
        { b with consumer := b.consumer.connectStep cfg replies }
    | .poll replies failed running =>
        let after := b.consumer.consumeStep P replies
          (if failed then .failure else .timeout) running 0 none
        { b with consumer := after.2, stopped := decide (after.1 ≠ .next) }
    | .deliver i replies deliveryTag routingKey running nowMs answer =>
        b.deliver m i replies deliveryTag routingKey running nowMs answer
    | .answerLate i => { b with late := i :: b.late }
    | .recover i => { b with status := Function.update b.status i .ready }

/-- Some invocation of the handler on the message has returned ACK. -/
def Handled (m : Messages P ι) (b : Broker ι) (i : ι) : Prop :=
  (m.env i, some (.returned .ack)) ∈ b.consumer.invocations ∨ i ∈ b.late

/-- Only handled messages have been acknowledged. -/
def AckedHandled (m : Messages P ι) (b : Broker ι) : Prop :=
  ∀ i ∈ b.acked, Handled m b i

/-- A message that arrives while the cache still marks its id has been
handled. -/
def MarkedHandled (m : Messages P ι) (b : Broker ι) : BrokerEvent ι → Prop
  | .deliver i _ _ _ running nowMs _ => running = true →
      b.consumer.idempotency.Live (m.env i).msgId nowMs → Handled m b i
  | _ => True

/-- The cache is sound and there is a handler to call. -/
structure Broker.Sound (b : Broker ι) : Prop where
  hasHandler : b.consumer.hasHandler = true
  coherent : b.consumer.idempotency.Coherent
  bounded : b.consumer.idempotency.Bounded

/-- The consumer as `Consume` leaves it when it returns a delivery. -/
def received (replies : Replies) (consumer : MqConsumer) : MqConsumer :=
  { consumer with
    ready := false
    client := (consumer.client.request replies .consumeMessage).2 }

/-- A marked id: the handler is not called and the delivery is Acked. -/
theorem handleDelivery_refused (replies : Replies) (d : AmqpDelivery)
    {nowMs : Int} (consumer : MqConsumer) {env : Envelope}
    (hdecodes : envelopeFromString P d.body = .ok (.ok env))
    (hrefused : (consumer.idempotency.tryMark env.msgId nowMs).1 = false)
    (answer : Option Invocation) :
    (consumer.handleDelivery P replies d nowMs answer).2.invocations =
        consumer.invocations ∧
      Settled (.basicAck d.deliveryTag) consumer.client
        (consumer.handleDelivery P replies d nowMs answer).2.client := by
  simp only [handleDelivery]
  rw [hdecodes]
  simp only
  split
  · exact ⟨rfl, settled_requestAll replies rfl consumer.client⟩
  · next heq => simp [heq] at hrefused

/-- A fresh id: the handler is called and its result settles the delivery. -/
theorem handleDelivery_marked (replies : Replies) (d : AmqpDelivery)
    {nowMs : Int} (consumer : MqConsumer) {env : Envelope}
    (hdecodes : envelopeFromString P d.body = .ok (.ok env))
    (hmarked : (consumer.idempotency.tryMark env.msgId nowMs).1 = true)
    (hhandler : consumer.hasHandler = true) (answer : Option Invocation) :
    (consumer.handleDelivery P replies d nowMs answer).2.invocations =
        consumer.invocations ++ [(env, answer)] ∧
      Settled (((answer.map Invocation.result).getD .nackRequeue).settlement
          d.deliveryTag) consumer.client
        (consumer.handleDelivery P replies d nowMs answer).2.client := by
  simp only [handleDelivery]
  rw [hdecodes]
  simp only
  split
  · next heq => simp [heq] at hmarked
  · next idempotency heq =>
      simp only [dispatchToScheduler, hhandler, Bool.true_eq_false, if_false]
      exact ⟨rfl, settle_settled replies d.deliveryTag env.type _
        { consumer with
          idempotency := idempotency
          invocations := consumer.invocations ++ [(env, answer)] }⟩

theorem handleDelivery_keeps (replies : Replies) (d : AmqpDelivery)
    (nowMs : Int) (consumer : MqConsumer) {env : Envelope}
    (hdecodes : envelopeFromString P d.body = .ok (.ok env))
    (answer : Option Invocation) :
    (consumer.handleDelivery P replies d nowMs answer).2.hasHandler =
        consumer.hasHandler ∧
      (consumer.handleDelivery P replies d nowMs answer).2.idempotency =
        (consumer.idempotency.tryMark env.msgId nowMs).2 := by
  simp only [handleDelivery]
  rw [hdecodes]
  simp only
  split
  · next heq => simp [heq]
  · next heq =>
      simp only [dispatchToScheduler]
      split_ifs <;> simp [heq]

/-- A delivery that arrives after `Stop` is left as it is. -/
theorem deliver_stopping (m : Messages P ι) (b : Broker ι) (i : ι)
    (replies : Replies) (deliveryTag : UInt64) (routingKey : StdString)
    (nowMs : Int) (answer : Option Invocation) :
    let after := b.deliver m i replies deliveryTag routingKey false nowMs answer
    after.acked = b.acked ∧ after.consumer = b.consumer.received replies := by
  refine ⟨?_, rfl⟩
  have hcalls : (b.consumer.received replies).client.calls.drop
      b.consumer.client.calls.length = [.consumeMessage] := by
    simp [received, AmqpClient.request]
  have hack : AmqpCall.basicAck deliveryTag ∉
      (b.consumer.received replies).client.calls.drop
        b.consumer.client.calls.length := by
    simp [hcalls]
  exact if_neg hack

/-- The one settlement of a delivery decides whether its message is Acked. -/
theorem deliver_acked {m : Messages P ι} {b : Broker ι} {i : ι}
    {replies : Replies} {deliveryTag : UInt64} {routingKey : StdString}
    {nowMs : Int} {answer : Option Invocation} (result : ConsumeResult)
    (hsettled : Settled (result.settlement deliveryTag)
      (b.consumer.received replies).client
      ((b.consumer.received replies).handleDelivery P replies
        ⟨deliveryTag, routingKey, m.body i⟩ nowMs answer).2.client) :
    (b.deliver m i replies deliveryTag routingKey true nowMs answer).acked =
      if result = .ack then i :: b.acked else b.acked := by
  have hsince := Settled.prepend
    (unsettling_consumeMessage replies b.consumer.client) hsettled
  have hack : (AmqpCall.basicAck deliveryTag).isSettlement = true := rfl
  have hmem := hsince.mem_drop_iff hack
  have hresult : AmqpCall.basicAck deliveryTag = result.settlement deliveryTag ↔
      result = .ack := by
    cases result <;> simp [ConsumeResult.settlement]
  rw [hresult] at hmem
  exact if_congr hmem rfl rfl

/-- What a delivery adds: an Ack of an unhandled message comes from a live
mark, and from nothing else. -/
theorem deliver_cases {m : Messages P ι} {b : Broker ι} (hb : b.Sound) (i : ι)
    (replies : Replies) (deliveryTag : UInt64) (routingKey : StdString)
    (running : Bool) (nowMs : Int) (answer : Option Invocation) :
    let after := b.deliver m i replies deliveryTag routingKey running nowMs answer
    (after.acked = b.acked ∧ b.consumer.invocations ⊆ after.consumer.invocations) ∨
      (running = true ∧ b.consumer.idempotency.Live (m.env i).msgId nowMs ∧
        after.acked = i :: b.acked ∧
        after.consumer.invocations = b.consumer.invocations) ∨
      (after.acked = i :: b.acked ∧ after.consumer.invocations =
        b.consumer.invocations ++ [(m.env i, some (.returned .ack))]) := by
  have hid := (wellFormed_of_envelopeFromString (m.decodes i)).msgId
  have hlive := LruIdempotencyCache.tryMark_refuses_iff hb.coherent hb.bounded
    hid nowMs
  cases running with
  | false =>
      obtain ⟨hacked, hconsumer⟩ := deliver_stopping m b i replies deliveryTag
        routingKey nowMs answer
      exact Or.inl ⟨hacked, by rw [hconsumer]; exact List.Subset.refl _⟩
  | true =>
      cases hmark : (b.consumer.idempotency.tryMark (m.env i).msgId nowMs).1 with
      | false =>
          obtain ⟨hcalls, hsettled⟩ := handleDelivery_refused
            replies ⟨deliveryTag, routingKey, m.body i⟩
            (b.consumer.received replies) (m.decodes i) hmark answer
          have hacked := deliver_acked .ack hsettled
          exact Or.inr (Or.inl ⟨rfl, hlive.mp hmark, hacked, hcalls⟩)
      | true =>
          obtain ⟨hcalls, hsettled⟩ := handleDelivery_marked
            replies ⟨deliveryTag, routingKey, m.body i⟩
            (b.consumer.received replies) (m.decodes i) hmark
            hb.hasHandler answer
          have hacked := deliver_acked _ hsettled
          by_cases hanswer : answer = some (.returned .ack)
          · subst hanswer
            exact Or.inr (Or.inr ⟨hacked, hcalls⟩)
          · have hresult : (answer.map Invocation.result).getD .nackRequeue ≠ .ack := by
              cases answer with
              | none => simp
              | some invocation =>
                  cases invocation with
                  | returned result =>
                      simpa [Invocation.result] using hanswer
                  | threw => simp [Invocation.result]
            rw [if_neg hresult] at hacked
            refine Or.inl ⟨hacked, ?_⟩
            exact hcalls ▸ List.subset_append_left _ _

/-- The state changes that touch neither the marks nor the handler. -/
theorem sound_step (cfg : RabbitMqConfig) (m : Messages P ι) (b : Broker ι)
    (e : BrokerEvent ι) (hb : b.Sound)
    (_ : (brokerMachine cfg m).enabled b e) :
    ((brokerMachine cfg m).step b e).Sound := by
  obtain ⟨hhandler, hcoherent, hbounded⟩ := hb
  cases e with
  | connect replies =>
      change ({ b with consumer := b.consumer.connectStep cfg replies } :
        Broker ι).Sound
      simp only [connectStep]
      split <;> exact ⟨hhandler, hcoherent, hbounded⟩
  | poll replies failed running =>
      cases running <;> cases failed <;> exact ⟨hhandler, hcoherent, hbounded⟩
  | answerLate i => exact ⟨hhandler, hcoherent, hbounded⟩
  | recover i => exact ⟨hhandler, hcoherent, hbounded⟩
  | deliver i replies deliveryTag routingKey running nowMs answer =>
      cases running with
      | false => exact ⟨hhandler, hcoherent, hbounded⟩
      | true =>
          obtain ⟨hsame, hmarks⟩ := handleDelivery_keeps
            replies ⟨deliveryTag, routingKey, m.body i⟩ nowMs
            (b.consumer.received replies) (m.decodes i) answer
          exact ⟨hsame.trans hhandler,
            hmarks ▸ hcoherent.tryMark (m.env i).msgId nowMs,
            hmarks ▸ hbounded.tryMark (m.env i).msgId nowMs⟩

theorem Handled.mono {P : Platform} {ι : Type} {m : Messages P ι}
    {b b' : Broker ι} {i : ι} (hhandled : Handled m b i)
    (hinvocations : b.consumer.invocations ⊆ b'.consumer.invocations)
    (hlate : b.late ⊆ b'.late) : Handled m b' i :=
  hhandled.imp (fun h => hinvocations h) (fun h => hlate h)

/-- Steps without a delivery Ack nothing and forget nothing. -/
theorem quiet_step (cfg : RabbitMqConfig) (m : Messages P ι) {b : Broker ι}
    {e : BrokerEvent ι}
    (hquiet : ∀ i replies deliveryTag routingKey running nowMs answer,
      e ≠ .deliver i replies deliveryTag routingKey running nowMs answer) :
    let after := (brokerMachine cfg m).step b e
    after.acked = b.acked ∧
      b.consumer.invocations ⊆ after.consumer.invocations ∧
      b.late ⊆ after.late := by
  cases e with
  | connect replies =>
      refine ⟨rfl, ?_, List.Subset.refl _⟩
      change b.consumer.invocations ⊆
        (b.consumer.connectStep cfg replies).invocations
      simp only [connectStep]
      split <;> exact List.Subset.refl _
  | poll replies failed running =>
      cases running <;> cases failed <;>
        exact ⟨rfl, List.Subset.refl _, List.Subset.refl _⟩
  | answerLate i =>
      exact ⟨rfl, List.Subset.refl _, List.subset_cons_self i b.late⟩
  | recover i => exact ⟨rfl, List.Subset.refl _, List.Subset.refl _⟩
  | deliver i replies deliveryTag routingKey running nowMs answer =>
      exact absurd rfl (hquiet i replies deliveryTag routingKey running nowMs answer)

theorem ackedHandled_quiet {cfg : RabbitMqConfig} {m : Messages P ι}
    {b : Broker ι} {e : BrokerEvent ι} (hkept : AckedHandled m b)
    (hquiet : ∀ i replies deliveryTag routingKey running nowMs answer,
      e ≠ .deliver i replies deliveryTag routingKey running nowMs answer) :
    AckedHandled m ((brokerMachine cfg m).step b e) := by
  obtain ⟨hacked, hinvocations, hlate⟩ := quiet_step cfg m hquiet
  intro i hi
  rw [hacked] at hi
  exact (hkept i hi).mono hinvocations hlate

/-- A delivery keeps the property if it meets the condition. -/
theorem ackedHandled_deliver {m : Messages P ι} {b : Broker ι} (hb : b.Sound)
    (hkept : AckedHandled m b) {i : ι} {replies : Replies}
    {deliveryTag : UInt64} {routingKey : StdString} {running : Bool}
    {nowMs : Int} {answer : Option Invocation}
    (hguard : MarkedHandled m b
      (.deliver i replies deliveryTag routingKey running nowMs answer)) :
    AckedHandled m
      (b.deliver m i replies deliveryTag routingKey running nowMs answer) := by
  intro j hj
  rcases deliver_cases hb i replies deliveryTag routingKey running nowMs answer
    with ⟨hacked, hgrows⟩ | ⟨hrunning, hlive, hacked, hsame⟩ | ⟨hacked, hadded⟩
  · rw [hacked] at hj
    exact (hkept j hj).mono hgrows (List.Subset.refl _)
  · have hgrows : b.consumer.invocations ⊆ (b.deliver m i replies deliveryTag
        routingKey running nowMs answer).consumer.invocations := by
      rw [hsame]
      exact List.Subset.refl _
    rw [hacked] at hj
    rcases List.mem_cons.mp hj with rfl | hj
    · exact (hguard hrunning hlive).mono hgrows (List.Subset.refl _)
    · exact (hkept j hj).mono hgrows (List.Subset.refl _)
  · rw [hacked] at hj
    rcases List.mem_cons.mp hj with rfl | hj
    · exact Or.inl (by rw [hadded]; simp)
    · exact (hkept j hj).mono (by rw [hadded]; exact List.subset_append_left _ _)
        (List.Subset.refl _)

/-- A delivery that fails the condition Acks an unhandled message. -/
theorem not_ackedHandled_deliver {m : Messages P ι} {b : Broker ι}
    (hb : b.Sound) {i : ι} {replies : Replies} {deliveryTag : UInt64}
    {routingKey : StdString} {nowMs : Int} {answer : Option Invocation}
    (hlive : b.consumer.idempotency.Live (m.env i).msgId nowMs)
    (hunhandled : ¬ Handled m b i) :
    ¬ AckedHandled m
      (b.deliver m i replies deliveryTag routingKey true nowMs answer) := by
  have hmark := (LruIdempotencyCache.tryMark_refuses_iff hb.coherent hb.bounded
    ((wellFormed_of_envelopeFromString (m.decodes i)).msgId) nowMs).mpr hlive
  obtain ⟨hcalls, hsettled⟩ := handleDelivery_refused
    replies ⟨deliveryTag, routingKey, m.body i⟩
    (b.consumer.received replies) (m.decodes i) hmark answer
  have hacked := deliver_acked .ack hsettled
  intro hkept
  have hmem : i ∈ (b.deliver m i replies deliveryTag routingKey true nowMs
      answer).acked := by simp [hacked]
  rcases hkept i hmem with hinvoked | hlate
  · exact hunhandled (Or.inl (hcalls ▸ hinvoked))
  · exact hunhandled (Or.inr hlate)

/-- Along every run, only handled messages are acknowledged exactly when no
message arrives marked before it has been handled. -/
theorem ackedHandled_iff_markedHandled (cfg : RabbitMqConfig) (m : Messages P ι)
    (scheduler : Option IoManager) (es : List (BrokerEvent ι))
    (hadm : (brokerMachine cfg m).Admissible (.initial cfg scheduler) es) :
    (brokerMachine cfg m).Always (AckedHandled m) (.initial cfg scheduler) es ↔
      (brokerMachine cfg m).Each (MarkedHandled m) (.initial cfg scheduler) es := by
  refine Machine.always_iff_each (sound_step cfg m) ?_ ?_ ?_ ?_ hadm
  · intro b e hb hkept _ hguard
    cases e with
    | deliver i replies deliveryTag routingKey running nowMs answer =>
        exact ackedHandled_deliver hb hkept hguard
    | _ => exact ackedHandled_quiet hkept (by simp)
  · intro b e hb _ _ hguard
    cases e with
    | deliver i replies deliveryTag routingKey running nowMs answer =>
        simp only [MarkedHandled, Classical.not_imp] at hguard
        obtain ⟨rfl, hlive, hunhandled⟩ := hguard
        exact not_ackedHandled_deliver hb hlive hunhandled
    | _ => exact absurd trivial hguard
  · exact ⟨rfl, LruIdempotencyCache.coherent_new _ _, Nat.zero_le _⟩
  · intro i hi
    cases hi

namespace BrokerWitness

/-- The text `\x7b"msgId":"m1","version":1,"type":"chat.msg.send"\x7d`. -/
def body : StdString :=
  lit "\x7b\"msgId\":\"m1\",\"version\":1,\"type\":\"chat.msg.send\"\x7d"

def platform : Platform :=
  Platform.ofTables [(body, .object [("msgId", .str (lit "m1")),
    ("version", .int 1), ("type", .str (lit "chat.msg.send"))])] [] [] []

def env : Envelope :=
  ⟨lit "m1", 1, [], [], lit "chat.msg.send", .obj []⟩

def messages : Messages platform Unit where
  body _ := body
  env _ := env
  decodes _ := rfl
  distinct _ _ _ := rfl

def deliver (deliveryTag : UInt64) (nowMs : Int) (result : ConsumeResult) :
    BrokerEvent Unit :=
  .deliver () (fun _ => true) deliveryTag (lit "chat.msg.send") true nowMs
    (some (.returned result))

/-- The handler takes the message at once. -/
def handledRun : List (BrokerEvent Unit) :=
  [.connect (fun _ => true), deliver 1 0 .ack]

/-- The handler asks for a requeue; the redelivery follows. -/
def requeuedRun : List (BrokerEvent Unit) :=
  [.connect (fun _ => true), deliver 1 0 .nackRequeue,
    .connect (fun _ => true), deliver 2 1 .ack]

theorem ackedHandled_handledRun :
    (brokerMachine {} messages).Always (AckedHandled messages)
      (.initial {} none) handledRun := by
  refine (ackedHandled_iff_markedHandled {} messages none handledRun
    ⟨⟨rfl, rfl⟩, ⟨rfl, rfl, rfl, fun _ => rfl⟩, trivial⟩).mpr
    ⟨trivial, fun _ hlive => ?_, trivial⟩
  obtain ⟨node, hnode, _⟩ := hlive
  exact absurd hnode List.not_mem_nil

theorem not_always_ackedHandled :
    ¬ ∀ (P : Platform) (cfg : RabbitMqConfig) (m : Messages P Unit)
        (scheduler : Option IoManager) (es : List (BrokerEvent Unit)),
      (brokerMachine cfg m).Admissible (.initial cfg scheduler) es →
        (brokerMachine cfg m).Always (AckedHandled m)
          (.initial cfg scheduler) es := by
  intro hall
  have halways := hall platform {} messages none requeuedRun
    ⟨⟨rfl, rfl⟩, ⟨rfl, rfl, rfl, fun _ => rfl⟩, ⟨rfl, rfl⟩,
      ⟨rfl, rfl, rfl, fun _ => rfl⟩, trivial⟩
  have hacked : () ∈ ((brokerMachine {} messages).run (.initial {} none)
      requeuedRun).acked := by decide
  have hinvocations : ((brokerMachine {} messages).run (.initial {} none)
      requeuedRun).consumer.invocations =
        [(env, some (.returned .nackRequeue))] := rfl
  rcases halways.2.2.2.2 () hacked with hinvoked | hlate
  · change (env, _) ∈ ((brokerMachine {} messages).run (.initial {} none)
      requeuedRun).consumer.invocations at hinvoked
    rw [hinvocations] at hinvoked
    simp at hinvoked
  · exact absurd hlate List.not_mem_nil

end BrokerWitness

end MqConsumer

end FlzChat
