/-
The program as a whole: the module that starts and stops the two broker
threads, the server, and what they share.  The server's handlers and the
publisher's thread work on one queue; the consumer's thread has the server
handle what it lets through, at once or, when five seconds have passed, later.
-/
import FlzChat.Audience
import FlzChat.Deeds
import FlzChat.HandledOnce

namespace FlzChat

/-- What the consumer's thread sees of a handler that has ended. -/
def Invocation.ofResult : Except Thrown ConsumeResult → Invocation
  | .ok result => .returned result
  | .error _ => .threw

/-- A move of the publisher's thread. -/
def MqPublisher.Life.Event.isMove : MqPublisher.Life.Event → Bool
  | .check => true
  | .does (.publish _) => false
  | .does _ => true
  | _ => false

/-- A move of the consumer's thread. -/
def MqConsumer.Life.Event.isMove : MqConsumer.Life.Event → Bool
  | .check => true
  | .connect _ => true
  | .consume _ _ _ _ => true
  | _ => false

/-- The calls of `onServerReady` and `onUnload` on the two threads; a `Stop` is
cut where it waits for its thread. -/
inductive ModuleCall where
  | startPublisher
  | startConsumer (scheduler : IoManager)
  | addTimer
  | stopConsumer
  | joinConsumer
  | stopPublisher
  | joinPublisher
deriving DecidableEq

namespace MyModule

def startMq (scheduler : IoManager) : List ModuleCall :=
  [.startPublisher, .startConsumer scheduler]

def stopMq : List ModuleCall :=
  [.stopConsumer, .joinConsumer, .stopPublisher, .joinPublisher]

/-- What is left of `onServerReady` once both servlets are registered. -/
def onceRegistered (scheduler : IoManager) : List ModuleCall :=
  startMq scheduler ++ [.addTimer]

end MyModule

/-- The program.  `jobs` are the envelopes whose handler has not ended in time,
`calls` what the module has still to call, `serving` whether its servlet is
registered, `timers` how often its timer is.  `wanted` records whether the last
thing the module has set out to do is to start the threads. -/
structure Program where
  hub : Hub := {}
  publisher : MqPublisher.Life
  consumer : MqConsumer.Life
  jobs : List Envelope := []
  calls : List ModuleCall := []
  serving : Bool := false
  timers : Nat := 0
  wanted : Bool := false
  shared : publisher.pub.queue = hub.server.queue

namespace Program

/-- One atomic step: the framework calls the module, the module makes its next
call, the outside world does something, or one of the threads moves.  A move of
the consumer's thread comes with what the handler reads. -/
inductive Event where
  | ready (http ws : Bool) (scheduler : IoManager)
  | unload
  | call (replies : Replies)
  | socket (e : Hub.Event)
  | timer (nowMs : Int)
  | publisher (e : MqPublisher.Life.Event)
  | consumer (e : MqConsumer.Life.Event) (o : IterOrder Devices.Entry)
      (clock : Clock)
  | job (i : Nat) (o : IterOrder Devices.Entry) (clock : Clock)

/-- The tasks the server publishes when it handles events. -/
def enqueued (P : Platform) (cfg : ChatConfig) (es : List Hub.Event)
    (p : Program) : List Task :=
  (((Hub.machine P cfg).run p.hub es).server.effects.drop
    p.hub.server.effects.length).filterMap Effect.task?

/-- The server handles events.  What it publishes waits in the queue. -/
def serve (P : Platform) (cfg : ChatConfig) (es : List Hub.Event)
    (p : Program) : Program :=
  let hub := (Hub.machine P cfg).run p.hub es
  { p with
    hub := hub
    publisher := { p.publisher with pub := { p.publisher.pub with
      queue := hub.server.queue
      accepted := p.publisher.pub.accepted ++ p.enqueued P cfg es } }
    shared := rfl }

/-- The publisher's thread or its owner does something. -/
def publisherStep (P : Platform) (cfg : ChatConfig) (e : MqPublisher.Life.Event)
    (p : Program) : Program :=
  let publisher := (MqPublisher.Life.machine P cfg).step p.publisher e
  { p with
    publisher := publisher
    hub := { p.hub with server := { p.hub.server with
      queue := publisher.pub.queue } }
    shared := rfl }

/-- The consumer's thread or its owner does something. -/
def consumerStep (P : Platform) (cfg : ChatConfig) (e : MqConsumer.Life.Event)
    (p : Program) : Program :=
  { p with consumer := (MqConsumer.Life.machine P cfg.rabbitmq).step p.consumer e }

/-- What a move of the consumer's thread gives to the handler, with what the
thread sees of it. -/
def dispatched (P : Platform) (cfg : ChatConfig) (e : MqConsumer.Life.Event)
    (p : Program) : List (Envelope × Option Invocation) :=
  ((MqConsumer.Life.machine P cfg.rabbitmq).step p.consumer
    e).consumer.invocations.drop p.consumer.consumer.invocations.length

/-- The envelopes whose handler ends while the thread waits. -/
def inTime (given : List (Envelope × Option Invocation)) : List Envelope :=
  (given.filter fun one => one.2.isSome).map (·.1)

/-- The envelopes whose handler the thread no longer waits for. -/
def overdue (given : List (Envelope × Option Invocation)) : List Envelope :=
  (given.filter fun one => one.2.isNone).map (·.1)

/-- The registrations fail or succeed; then the threads are started.  `Start`
never fails, so neither does `startMq`. -/
def onServerReady (http ws : Bool) (scheduler : IoManager) (p : Program) :
    Bool × Program :=
  if http = false then (false, p)
  else if ws = false then (false, p)
  else (true, { p with
    serving := true
    calls := MyModule.onceRegistered scheduler
    wanted := true })

def onUnload (p : Program) : Program :=
  { p with calls := MyModule.stopMq, wanted := false }

/-- A call of the module.  A `Stop` waits, and then closes the client, only when
the thread has been running. -/
def perform (P : Platform) (cfg : ChatConfig) (replies : Replies)
    (call : ModuleCall) (p : Program) : Program :=
  match call with
  | .startPublisher => p.publisherStep P cfg .start
  | .startConsumer scheduler => p.consumerStep P cfg (.start (some scheduler) true)
  | .addTimer => { p with timers := p.timers + 1 }
  | .stopConsumer => p.consumerStep P cfg .stop
  | .joinConsumer =>
      if p.consumer.loop.stopping then p.consumerStep P cfg (.join replies) else p
  | .stopPublisher => p.publisherStep P cfg .stop
  | .joinPublisher =>
      if p.publisher.loop.stopping then p.publisherStep P cfg (.join replies) else p

/-- A call that waits for a thread returns when the thread is gone. -/
def Returns (p : Program) : ModuleCall → Prop
  | .joinConsumer => p.consumer.loop.stopping = true → p.consumer.loop.alive = false
  | .joinPublisher =>
      p.publisher.loop.stopping = true → p.publisher.loop.alive = false
  | _ => True

instance (p : Program) : DecidablePred p.Returns
  | .joinConsumer => inferInstanceAs (Decidable (_ → _))
  | .joinPublisher => inferInstanceAs (Decidable (_ → _))
  | .startPublisher => isTrue trivial
  | .startConsumer _ => isTrue trivial
  | .addTimer => isTrue trivial
  | .stopConsumer => isTrue trivial
  | .stopPublisher => isTrue trivial

/-- The thread sees what the handler returns. -/
def Answers (P : Platform) (p : Program) (o : IterOrder Devices.Entry)
    (clock : Clock) (one : Envelope × Option Invocation) : Prop :=
  ∀ answer ∈ one.2,
    answer = Invocation.ofResult (p.hub.server.onEnvelope P o clock one.1).1

instance (P : Platform) (p : Program) (o : IterOrder Devices.Entry)
    (clock : Clock) : DecidablePred (p.Answers P o clock)
  | (_, none) => isTrue (by simp [Answers])
  | (env, some answer) => decidable_of_iff
      (answer = Invocation.ofResult (p.hub.server.onEnvelope P o clock env).1)
      (by simp [Answers])

/-- The module is called by one thread, one call after another; sockets speak
once the servlet is registered, the timer ticks once it is added, and nothing
happens once an exception has ended the process. -/
def machine (P : Platform) (cfg : ChatConfig) : Machine Program Event where
  enabled p e := p.consumer.crashed = false ∧
    match e with
    | .ready _ _ _ => p.calls = []
    | .unload => p.calls = []
    | .call _ => p.calls ≠ [] ∧ ∀ call ∈ p.calls.head?, p.Returns call
    | .socket e => p.serving = true ∧ e.session?.isSome = true ∧
        (Hub.machine P cfg).enabled p.hub e
    | .timer _ => 0 < p.timers
    | .publisher e => e.isMove = true ∧
        (MqPublisher.Life.machine P cfg).enabled p.publisher e
    | .consumer e o clock => e.isMove = true ∧
        (MqConsumer.Life.machine P cfg.rabbitmq).enabled p.consumer e ∧
          ∀ one ∈ p.dispatched P cfg e, p.Answers P o clock one
    | .job i _ _ => i < p.jobs.length
  step p
    | .ready http ws scheduler => (p.onServerReady http ws scheduler).2
    | .unload => p.onUnload
    | .call replies =>
        match p.calls with
        | [] => p
        | call :: calls => { p.perform P cfg replies call with calls := calls }
    | .socket e => p.serve P cfg [e]
    | .timer nowMs => p.serve P cfg [.timer nowMs]
    | .publisher e => p.publisherStep P cfg e
    | .consumer e o clock =>
        let given := p.dispatched P cfg e
        let served := p.serve P cfg
          ((inTime given).map fun env => .envelope o clock env)
        { served.consumerStep P cfg e with jobs := p.jobs ++ overdue given }
    | .job i o clock =>
        let started := p.serve P cfg
          (p.jobs[i]?.toList.map fun env => .envelope o clock env)
        { started with jobs := p.jobs.eraseIdx i }

instance (P : Platform) (cfg : ChatConfig) (p : Program) :
    ∀ e, Decidable ((machine P cfg).enabled p e)
  | .ready _ _ _ => inferInstanceAs (Decidable (_ ∧ _))
  | .unload => inferInstanceAs (Decidable (_ ∧ _))
  | .call _ => inferInstanceAs (Decidable
      (_ ∧ p.calls ≠ [] ∧ ∀ call ∈ p.calls.head?, p.Returns call))
  | .socket e => inferInstanceAs (Decidable
      (_ ∧ _ ∧ _ ∧ (Hub.machine P cfg).enabled p.hub e))
  | .timer _ => inferInstanceAs (Decidable (_ ∧ _ < _))
  | .publisher e => inferInstanceAs (Decidable
      (_ ∧ _ ∧ (MqPublisher.Life.machine P cfg).enabled p.publisher e))
  | .consumer e o clock => inferInstanceAs (Decidable
      (_ ∧ _ ∧ (MqConsumer.Life.machine P cfg.rabbitmq).enabled p.consumer e ∧
        ∀ one ∈ p.dispatched P cfg e, p.Answers P o clock one))
  | .job _ _ _ => inferInstanceAs (Decidable (_ ∧ _ < _))

/-- The program when the module is loaded. -/
def initial (cfg : ChatConfig) : Program where
  publisher := .initial cfg
  consumer := .initial cfg.rabbitmq
  shared := rfl

end Program

end FlzChat
