/-
How often a delivery is settled.  A round runs from one Consume to the next;
its calls tell whether what Consume returned was settled at once, once, and on
the connection it arrived on.
-/
import FlzChat.Consumer
import FlzChat.Runs

namespace FlzChat

namespace MqConsumer

/-- `delivery` is what Consume returned while `m_running` stayed true, `calls`
the broker calls from that Consume up to the next one. -/
structure Round where
  delivery : Option AmqpDelivery := none
  calls : List AmqpCall := []

/-- The thread with the rounds of its run, the current one apart.  Before the
first Consume the current round is one without a delivery. -/
structure Watched where
  consumer : MqConsumer
  stopped : Bool := false
  current : Round := {}
  past : List Round := []

namespace Watched

inductive Event where
  | connect (replies : Replies)
  | consume (replies : Replies) (reply : ConsumeReply) (running : Bool)
      (nowMs : Int) (answer : Option Invocation)

/-- The delivery of a Consume that the thread goes on with. -/
def Event.delivery? : Event → Option AmqpDelivery
  | .consume _ (.delivery d) true _ _ => some d
  | _ => none

/-- The calls made between two states of the client. -/
def callsSince (client client' : AmqpClient) : List AmqpCall :=
  client'.calls.drop client.calls.length

/-- The iterations of `Run`.  Decoding returns; the handler returns, throws or,
on a scheduler, takes longer than the wait. -/
def machine (P : Platform) (cfg : RabbitMqConfig) : Machine Watched Event where
  enabled w
    | .connect _ => w.stopped = false ∧ w.consumer.ready = false
    | .consume _ reply _ _ answer =>
        w.stopped = false ∧ w.consumer.ready = true ∧
          (w.consumer.scheduler = none → answer.isSome = true) ∧
          match reply with
          | .delivery d => ∃ res, envelopeFromString P d.body = .ok res
          | _ => True
  step w
    | .connect replies =>
        let after := w.consumer.connectStep cfg replies
        { w with
          consumer := after
          current := { w.current with
            calls := w.current.calls ++
              callsSince w.consumer.client after.client } }
    | .consume replies reply running nowMs answer =>
        let after := w.consumer.consumeStep P replies reply running nowMs answer
        { consumer := after.2
          stopped := decide (after.1 ≠ .next)
          current :=
            { delivery := Event.delivery?
                (.consume replies reply running nowMs answer)
              calls := callsSince w.consumer.client after.2.client }
          past := w.current :: w.past }

end Watched

/-- Nothing is settled without a delivery.  With manual acknowledgement the
first call after Consume settles its delivery, and none after that settles
anything; with automatic acknowledgement nothing is settled. -/
def Round.Right (cfg : RabbitMqConfig) (round : Round) : Prop :=
  match round.delivery with
  | none => ∀ call ∈ round.calls, AmqpClient.Unsettling call
  | some d =>
      if cfg.consumerAutoAck then ∀ call ∈ round.calls, AmqpClient.Unsettling call
      else ∃ (result : ConsumeResult) (rest : List AmqpCall),
        round.calls = .consumeMessage :: result.settlement d.deliveryTag :: rest ∧
          ∀ call ∈ rest, AmqpClient.Unsettling call

/-- Every round so far has settled as it should. -/
def Watched.AllRight (cfg : RabbitMqConfig) (w : Watched) : Prop :=
  w.current.Right cfg ∧ ∀ round ∈ w.past, round.Right cfg

/-- With automatic acknowledgement no Consume returns a delivery the thread
goes on with. -/
def Watched.NothingAutomatic (cfg : RabbitMqConfig) (_ : Watched)
    (e : Watched.Event) : Prop :=
  cfg.consumerAutoAck = true → e.delivery? = none

theorem callsSince_of_extends {client client' : AmqpClient}
    (hmore : AmqpClient.Extends AmqpClient.Unsettling client client') :
    ∀ call ∈ Watched.callsSince client client', AmqpClient.Unsettling call := by
  obtain ⟨calls, heq, hcalls⟩ := hmore
  rw [Watched.callsSince, heq, List.drop_left]
  exact hcalls

/-- Setting up the connection settles nothing. -/
theorem unsettling_connectStep (cfg : RabbitMqConfig) (replies : Replies)
    (consumer : MqConsumer) :
    AmqpClient.Extends AmqpClient.Unsettling consumer.client
      (consumer.connectStep cfg replies).client := by
  have hset : AmqpClient.Extends AmqpClient.Unsettling consumer.client
      (ensureConnected cfg replies consumer.client consumer.metrics).2.1 := by
    apply AmqpClient.unsettling_ensureConnected
    intro step hstep client
    simp only [List.mem_cons, List.not_mem_nil, or_false] at hstep
    rcases hstep with rfl | rfl | rfl
    · simp only [AmqpClient.openChannel]
      split_ifs
      · exact AmqpClient.Extends.refl client
      · apply AmqpClient.unsettling_requestAll
        simp [AmqpClient.Unsettling, AmqpCall.isSettlement]
      · apply AmqpClient.unsettling_requestAll
        simp [AmqpClient.Unsettling, AmqpCall.isSettlement]
    · apply AmqpClient.unsettling_requestAll
      simp [AmqpClient.chatTopology, AmqpClient.Unsettling, AmqpCall.isSettlement]
    · apply AmqpClient.unsettling_requestAll
      simp [AmqpClient.Unsettling, AmqpCall.isSettlement]
  simp only [connectStep]
  split
  · next heq =>
      rw [heq] at hset
      exact hset
  · next heq =>
      rw [heq] at hset
      exact hset

/-- A Consume that gives the thread nothing to go on with settles nothing. -/
theorem unsettling_consumeStep (P : Platform) (replies : Replies)
    {reply : ConsumeReply} {running : Bool} {nowMs : Int}
    {answer : Option Invocation} (consumer : MqConsumer)
    (hnone : (Watched.Event.consume replies reply running nowMs
      answer).delivery? = none) :
    AmqpClient.Extends AmqpClient.Unsettling consumer.client
      (consumer.consumeStep P replies reply running nowMs answer).2.client := by
  have hconsume := unsettling_consumeMessage replies consumer.client
  cases running with
  | false => exact hconsume
  | true =>
      cases reply with
      | timeout => exact hconsume
      | failure => exact hconsume.trans (AmqpClient.unsettling_close _)
      | delivery d => contradiction

/-- A delivery that decodes is settled right after its Consume. -/
theorem callsSince_consumeStep (P : Platform) (replies : Replies)
    {d : AmqpDelivery} (nowMs : Int) (answer : Option Invocation)
    (consumer : MqConsumer) (hreturns : ∃ res, envelopeFromString P d.body = .ok res) :
    ∃ (result : ConsumeResult) (rest : List AmqpCall),
      Watched.callsSince consumer.client (consumer.consumeStep P replies
          (.delivery d) true nowMs answer).2.client =
        .consumeMessage :: result.settlement d.deliveryTag :: rest ∧
        ∀ call ∈ rest, AmqpClient.Unsettling call := by
  obtain ⟨res, hres⟩ := hreturns
  let received : MqConsumer := { consumer with
    ready := false
    client := (consumer.client.request replies .consumeMessage).2 }
  obtain ⟨_, result, rest, hcalls, hrest⟩ :=
    handleDelivery_atOnce P replies d nowMs answer received hres
  refine ⟨result, rest, ?_, hrest⟩
  have hreceived : received.client.calls =
      consumer.client.calls ++ [.consumeMessage] := rfl
  change List.drop consumer.client.calls.length
    (received.handleDelivery P replies d nowMs answer).2.client.calls = _
  rw [hcalls, hreceived, List.append_assoc, List.drop_left, List.singleton_append]

/-- Further calls that settle nothing keep a round right. -/
theorem Round.Right.extend {cfg : RabbitMqConfig} {round : Round}
    (hright : round.Right cfg) {more : List AmqpCall}
    (hmore : ∀ call ∈ more, AmqpClient.Unsettling call) :
    Round.Right cfg { round with calls := round.calls ++ more } := by
  have hall : (∀ call ∈ round.calls, AmqpClient.Unsettling call) →
      ∀ call ∈ round.calls ++ more, AmqpClient.Unsettling call := by
    intro hcalls call hcall
    rcases List.mem_append.mp hcall with hcall | hcall
    · exact hcalls call hcall
    · exact hmore call hcall
  simp only [Right] at hright ⊢
  split at hright
  · exact hall hright
  · split_ifs at hright ⊢
    · exact hall hright
    · obtain ⟨result, rest, hcalls, hrest⟩ := hright
      refine ⟨result, rest ++ more, by rw [hcalls]; rfl, ?_⟩
      intro call hcall
      rcases List.mem_append.mp hcall with hcall | hcall
      · exact hrest call hcall
      · exact hmore call hcall

/-- The round a Consume opens is right unless it acknowledges what the broker
has acknowledged itself. -/
theorem right_consume_iff {P : Platform} {cfg : RabbitMqConfig} {w : Watched}
    {replies : Replies} {reply : ConsumeReply} {running : Bool} {nowMs : Int}
    {answer : Option Invocation}
    (henabled : (Watched.machine P cfg).enabled w
      (.consume replies reply running nowMs answer)) :
    ((Watched.machine P cfg).step w
        (.consume replies reply running nowMs answer)).current.Right cfg ↔
      w.NothingAutomatic cfg (.consume replies reply running nowMs answer) := by
  obtain ⟨_, _, _, hdecodes⟩ := henabled
  cases hdelivery : (Watched.Event.consume replies reply running nowMs
      answer).delivery? with
  | none =>
      have hquiet := callsSince_of_extends
        (unsettling_consumeStep P replies w.consumer hdelivery)
      simp only [Watched.machine, Round.Right, Watched.NothingAutomatic,
        hdelivery, implies_true, iff_true]
      exact hquiet
  | some d =>
      have hshape : reply = .delivery d ∧ running = true := by
        cases reply <;> cases running <;> simp [Watched.Event.delivery?] at hdelivery ⊢
        exact hdelivery
      obtain ⟨rfl, rfl⟩ := hshape
      obtain ⟨result, rest, hcalls, hrest⟩ :=
        callsSince_consumeStep P replies nowMs answer w.consumer hdecodes
      simp only [Watched.machine, Round.Right, Watched.NothingAutomatic, hdelivery,
        hcalls]
      split_ifs with hauto
      · simp only [hauto, true_implies, iff_false, not_forall]
        refine ⟨result.settlement d.deliveryTag, by simp, ?_⟩
        rw [AmqpClient.Unsettling, isSettlement_settlement]
        simp
      · simp only [hauto, Bool.false_eq_true, false_implies, iff_true]
        exact ⟨result, rest, rfl, hrest⟩

/-- Along every run, all deliveries are settled as they should exactly when
with automatic acknowledgement none is taken. -/
theorem allRight_iff_nothingAutomatic (P : Platform) (cfg : RabbitMqConfig)
    (consumer : MqConsumer) (es : List Watched.Event)
    (hadm : (Watched.machine P cfg).Admissible { consumer := consumer } es) :
    (Watched.machine P cfg).Always (Watched.AllRight cfg)
        { consumer := consumer } es ↔
      (Watched.machine P cfg).Each (Watched.NothingAutomatic cfg)
        { consumer := consumer } es := by
  have hinit : Watched.AllRight cfg { consumer := consumer } := by
    simp [Watched.AllRight, Round.Right]
  have hnoInv : ∀ w e, True → (Watched.machine P cfg).enabled w e → True :=
    fun _ _ _ _ => trivial
  apply Machine.always_iff_each hnoInv _ _ trivial hinit hadm
  · intro w e _ hall henabled hguard
    cases e with
    | connect replies =>
        refine ⟨hall.1.extend ?_, hall.2⟩
        exact callsSince_of_extends
          (unsettling_connectStep cfg replies w.consumer)
    | consume replies reply running nowMs answer =>
        refine ⟨(right_consume_iff henabled).mpr hguard, ?_⟩
        intro round hround
        rcases List.mem_cons.mp hround with rfl | hpast
        · exact hall.1
        · exact hall.2 round hpast
  · intro w e _ _ henabled hguard hall
    cases e with
    | connect replies => exact hguard fun _ => rfl
    | consume replies reply running nowMs answer =>
        exact hguard ((right_consume_iff henabled).mp hall.1)

namespace SettlementWitness

def platform : Platform := Platform.ofTables [] [] [] []

/-- A body that is no JSON text; the thread drops it with an Ack. -/
def delivery : AmqpDelivery := ⟨1, lit "chat.msg.send", lit "x"⟩

def es : List Watched.Event :=
  [.connect fun _ => true,
    .consume (fun _ => true) (.delivery delivery) true 0 (some .threw)]

def manual : RabbitMqConfig := {}

def automatic : RabbitMqConfig := { consumerAutoAck := true }

theorem es_admissible (cfg : RabbitMqConfig)
    (hready : ((initial cfg none).connectStep cfg fun _ => true).ready = true) :
    (Watched.machine platform cfg).Admissible { consumer := initial cfg none }
      es :=
  ⟨⟨rfl, rfl⟩, ⟨rfl, hready, fun _ => rfl, _, rfl⟩, trivial⟩

theorem allRight_manual :
    (Watched.machine platform manual).Always (Watched.AllRight manual)
      { consumer := initial manual none } es :=
  (allRight_iff_nothingAutomatic platform manual (initial manual none) es
    (es_admissible manual rfl)).mpr
    ⟨fun _ => rfl, fun hauto => by contradiction, trivial⟩

theorem not_always_allRight :
    ¬ ∀ (P : Platform) (cfg : RabbitMqConfig) (consumer : MqConsumer)
        (es : List Watched.Event),
      (Watched.machine P cfg).Admissible { consumer := consumer } es →
        (Watched.machine P cfg).Always (Watched.AllRight cfg)
          { consumer := consumer } es := by
  intro hall
  have halways := hall platform automatic (initial automatic none) es
    (es_admissible automatic rfl)
  have hlast := halways.2.2.1
  have hacked : AmqpCall.basicAck 1 ∈ ((Watched.machine platform automatic).run
      { consumer := initial automatic none } es).current.calls := by
    decide +kernel
  have hquiet : AmqpClient.Unsettling (.basicAck 1) := hlast _ hacked
  cases hquiet

end SettlementWitness

end MqConsumer

end FlzChat
