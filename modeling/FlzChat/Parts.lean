/-
The program runs its parts.  Seen from the server, from the publisher or from
the consumer, a run of the program is a run of that part alone, so what has been
shown of each part holds in the program.
-/
import FlzChat.Program

namespace FlzChat

namespace Server

/-- Tasks have been added to the queue, each is on record, and there was room
for them. -/
def Queued (cfg : ChatConfig) (s s' : Server) : Prop :=
  ∃ said, s'.effects = s.effects ++ said ∧
    s'.queue = s.queue ++ said.filterMap Effect.task? ∧
      (said.filterMap Effect.task? = [] ∨
        s'.queue.length ≤ toSizeT cfg.rabbitmq.publisherQueueCapacity)

section

variable {cfg : ChatConfig}

theorem queued_refl (s : Server) : Queued cfg s s :=
  ⟨[], (List.append_nil _).symm, (List.append_nil _).symm, Or.inl rfl⟩

theorem Queued.trans {s₁ s₂ s₃ : Server} (hfirst : Queued cfg s₁ s₂)
    (hsecond : Queued cfg s₂ s₃) : Queued cfg s₁ s₃ := by
  obtain ⟨said, heffects, hqueue, hroom⟩ := hfirst
  obtain ⟨said', heffects', hqueue', hroom'⟩ := hsecond
  refine ⟨said ++ said', by rw [heffects', heffects, List.append_assoc],
    by rw [hqueue', hqueue, List.filterMap_append, List.append_assoc], ?_⟩
  rw [List.filterMap_append]
  rcases hroom' with hnone | hroom'
  · rw [hqueue', hnone, List.append_nil, List.append_nil]
    exact hroom
  · exact Or.inr hroom'

theorem Does.queued {scope : Scope} {said : List Effect} {s s' : Server}
    (hdoes : Does scope said s s')
    (hroom : scope.room ≤ toSizeT cfg.rabbitmq.publisherQueueCapacity) :
    Queued cfg s s' :=
  ⟨said, hdoes.effects, hdoes.queue,
    hdoes.queue_le.imp_right fun hle => le_trans hle hroom⟩

end

end Server

namespace Hub

theorem Event.room_scope_le (cfg : ChatConfig) (e : Event) :
    (e.scope cfg).room ≤ toSizeT cfg.rabbitmq.publisherQueueCapacity := by
  cases e with
  | connect | close | frame => exact le_rfl
  | envelope | timer | drain => exact Nat.zero_le _

/-- Events add the tasks on record, while there is room. -/
theorem queued_run (P : Platform) (cfg : ChatConfig) {es : List Event}
    (hdrain : ∀ e ∈ es, e ≠ .drain) (hub : Hub) :
    Server.Queued cfg hub.server ((machine P cfg).run hub es).server := by
  induction es generalizing hub with
  | nil => exact Server.queued_refl _
  | cons e es ih =>
      have hfirst := (does_step P cfg hub (hdrain e List.mem_cons_self)).queued
        (e.room_scope_le cfg)
      exact hfirst.trans (ih (fun e' he' => hdrain e' (List.mem_cons_of_mem e he')) _)

end Hub

namespace ThreadLoop

theorem flags_check (loop : ThreadLoop) :
    loop.check.running = loop.running ∧ loop.check.stopping = loop.stopping := by
  simp only [check]
  split_ifs <;> exact ⟨rfl, rfl⟩

theorem flags_start (loop : ThreadLoop) :
    loop.start.running = true ∧ loop.start.stopping = loop.stopping := by
  simp only [start]
  split_ifs with hrunning
  · exact ⟨hrunning, rfl⟩
  · exact ⟨rfl, rfl⟩

theorem running_stop (loop : ThreadLoop) : loop.stop.running = false := by
  simp only [stop]
  split_ifs with hrunning
  · rfl
  · simpa using hrunning

end ThreadLoop

namespace MqPublisher

/-- Accept tasks for which there is room. -/
def receive (tasks : List Task) (pub : MqPublisher) : MqPublisher :=
  { pub with
    queue := pub.queue ++ tasks
    accepted := pub.accepted ++ tasks }

theorem publish_of_room {cfg : ChatConfig} {pub : MqPublisher}
    (hroom : pub.queue.length < toSizeT cfg.rabbitmq.publisherQueueCapacity)
    (task : Task) : (pub.publish cfg task).2 = pub.receive [task] := by
  simp only [publish, enqueue, if_neg (not_le.mpr hroom), receive]

namespace Life

/-- What the server sees of an event: a dequeue. -/
def Event.drains : Event → List Hub.Event
  | .does .dequeue => [.drain]
  | _ => []

theorem drain_of_mem_drains {e : Event} {e' : Hub.Event} (he' : e' ∈ e.drains) :
    e' = .drain := by
  cases e with
  | does e =>
      cases e with
      | dequeue => exact List.mem_singleton.mp he'
      | _ => contradiction
  | _ => contradiction

/-- Publishing tasks one after another. -/
def publishing (tasks : List Task) : List Event :=
  tasks.map fun task => .does (.publish task)

section

variable {P : Platform} {cfg : ChatConfig}

theorem admissible_publishing (tasks : List Task) (life : Life) :
    (machine P cfg).Admissible life (publishing tasks) := by
  apply Machine.each_of_forall
  intro e he
  obtain ⟨task, _, rfl⟩ := List.mem_map.mp he
  exact fun _ => trivial

theorem run_publishing {tasks : List Task} {life : Life}
    (hroom : tasks = [] ∨ (life.pub.queue ++ tasks).length ≤
      toSizeT cfg.rabbitmq.publisherQueueCapacity) :
    (machine P cfg).run life (publishing tasks) =
      { life with pub := life.pub.receive tasks } := by
  induction tasks generalizing life with
  | nil => simp [publishing, receive]
  | cons task tasks ih =>
      have hfits : (life.pub.queue ++ task :: tasks).length ≤
          toSizeT cfg.rabbitmq.publisherQueueCapacity := by
        simpa using hroom
      have hnow : life.pub.queue.length <
          toSizeT cfg.rabbitmq.publisherQueueCapacity := by
        rw [List.length_append, List.length_cons] at hfits
        omega
      have hfirst : (machine P cfg).step life (.does (.publish task)) =
          { life with pub := life.pub.receive [task] } := by
        rw [← publish_of_room hnow]
        rfl
      rw [publishing, List.map_cons, Machine.run_cons, hfirst]
      let next : Life := { life with pub := life.pub.receive [task] }
      have hrest : (machine P cfg).run next (publishing tasks) =
          { next with pub := next.pub.receive tasks } :=
        ih (Or.inr (by simpa [next, receive] using hfits))
      change (machine P cfg).run next (publishing tasks) = _
      rw [hrest]
      simp [next, receive]

/-- What the thread and its owner do to the queue: a dequeue takes the first
task, anything else leaves it.  Only callers have tasks accepted. -/
theorem queue_step (P : Platform) (cfg : ChatConfig) {e : Event}
    (hpublish : ∀ task, e ≠ .does (.publish task)) (life : Life) :
    ((machine P cfg).step life e).pub.queue =
        life.pub.queue.drop e.drains.length ∧
      ((machine P cfg).step life e).pub.accepted = life.pub.accepted := by
  cases e with
  | does e =>
      cases e with
      | publish task => exact absurd rfl (hpublish task)
      | dequeue =>
          simp only [machine, act, MqPublisher.machine, dequeue]
          cases hqueue : life.pub.queue with
          | nil => simp [hqueue]
          | cons task queue => exact ⟨rfl, rfl⟩
      | connect replies =>
          simp only [machine, act, MqPublisher.machine]
          cases life.pub.held with
          | none => exact ⟨rfl, rfl⟩
          | some task =>
              simp only [connectStep]
              split <;> exact ⟨rfl, rfl⟩
      | send replies clock msgId =>
          simp only [machine, act, MqPublisher.machine]
          cases life.pub.held with
          | none => exact ⟨rfl, rfl⟩
          | some task =>
              simp only [sendStep]
              split <;> exact ⟨rfl, rfl⟩
  | start =>
      simp only [machine, start]
      split_ifs <;> exact ⟨rfl, rfl⟩
  | check => exact ⟨rfl, rfl⟩
  | stop => exact ⟨rfl, rfl⟩
  | join replies => exact ⟨rfl, rfl⟩

/-- A move of the thread leaves the owner's flags alone. -/
theorem flags_move (P : Platform) (cfg : ChatConfig) {e : Event}
    (hmove : e.isMove = true) (life : Life) :
    ((machine P cfg).step life e).loop.running = life.loop.running ∧
      ((machine P cfg).step life e).loop.stopping = life.loop.stopping := by
  cases e with
  | check => exact ThreadLoop.flags_check life.loop
  | does e =>
      cases e with
      | publish task => exact ⟨rfl, rfl⟩
      | _ => exact ⟨rfl, rfl⟩
  | _ => simp [Event.isMove] at hmove

end

end Life

end MqPublisher

theorem MqConsumer.Life.flags_move (P : Platform) (cfg : RabbitMqConfig)
    {e : MqConsumer.Life.Event} (hmove : e.isMove = true) (life : MqConsumer.Life) :
    ((machine P cfg).step life e).loop.running = life.loop.running ∧
      ((machine P cfg).step life e).loop.stopping = life.loop.stopping := by
  cases e with
  | check => exact ThreadLoop.flags_check life.loop
  | connect replies => exact ⟨rfl, rfl⟩
  | consume replies reply nowMs answer =>
      have hloop := (consume_cases P replies reply nowMs answer life).2
      simp only [machine]
      rcases hloop with hloop | ⟨hloop, _⟩ | ⟨hloop, _⟩
      · rw [hloop]
        exact ⟨rfl, rfl⟩
      · rw [hloop]
        exact ⟨rfl, rfl⟩
      · rw [hloop]
        exact ⟨rfl, rfl⟩
  | _ => simp [Event.isMove] at hmove

namespace Program

/-- What the server does in an event. -/
def served (P : Platform) (cfg : ChatConfig) (p : Program) :
    Event → List Hub.Event
  | .socket e => [e]
  | .timer nowMs => [.timer nowMs]
  | .publisher e => e.drains
  | .consumer e o clock =>
      (inTime (p.dispatched P cfg e)).map fun env => .envelope o clock env
  | .job i o clock => p.jobs[i]?.toList.map fun env => .envelope o clock env
  | _ => []

/-- What the publisher does in a call of the module. -/
def publisherCall (replies : Replies) (p : Program) :
    ModuleCall → List MqPublisher.Life.Event
  | .startPublisher => [.start]
  | .stopPublisher => [.stop]
  | .joinPublisher => if p.publisher.loop.stopping then [.join replies] else []
  | _ => []

/-- What the publisher does in an event. -/
def publisherDoes (P : Platform) (cfg : ChatConfig) (p : Program) :
    Event → List MqPublisher.Life.Event
  | .call replies => p.calls.head?.toList.flatMap (p.publisherCall replies)
  | .publisher e => [e]
  | e => MqPublisher.Life.publishing (p.enqueued P cfg (p.served P cfg e))

/-- What the consumer does in a call of the module. -/
def consumerCall (replies : Replies) (p : Program) :
    ModuleCall → List MqConsumer.Life.Event
  | .startConsumer scheduler => [.start (some scheduler) true]
  | .stopConsumer => [.stop]
  | .joinConsumer => if p.consumer.loop.stopping then [.join replies] else []
  | _ => []

/-- What the consumer does in an event. -/
def consumerDoes (p : Program) : Event → List MqConsumer.Life.Event
  | .call replies => p.calls.head?.toList.flatMap (p.consumerCall replies)
  | .consumer e _ _ => [e]
  | _ => []

/-- Whether the threads are to run, the consumer's first, after a call. -/
def after (flags : Bool × Bool) : ModuleCall → Bool × Bool
  | .startPublisher => (flags.1, true)
  | .startConsumer _ => (true, flags.2)
  | .stopConsumer => (false, flags.2)
  | .stopPublisher => (flags.1, false)
  | _ => flags

/-- Whether the threads are to run now. -/
def flags (p : Program) : Bool × Bool :=
  (p.consumer.loop.running, p.publisher.loop.running)

/-- The module follows its program: what it has still to call is the rest of
one, it waits for a thread only where the next call is to wait, and once the
calls are made both threads run or neither. -/
structure Scripted (p : Program) : Prop where
  script : p.calls <:+ MyModule.stopMq ∨
    ∃ scheduler, p.calls <:+ MyModule.onceRegistered scheduler
  consumer : p.consumer.loop.stopping = true →
    p.calls.head? = some .joinConsumer
  publisher : p.publisher.loop.stopping = true →
    p.calls.head? = some .joinPublisher
  outlook : p.calls.foldl after p.flags = (p.wanted, p.wanted)

theorem scripted_initial (cfg : ChatConfig) : Scripted (initial cfg) :=
  ⟨Or.inl List.nil_suffix, by simp [initial, MqConsumer.Life.initial],
    by simp [initial, MqPublisher.Life.initial], rfl⟩

section

variable {P : Platform} {cfg : ChatConfig} {p : Program}

/-! What the server does. -/

/-- What is published is what the handling of the events adds to the record. -/
theorem enqueued_of_said {es : List Hub.Event} {said : List Effect}
    (hsaid : ((Hub.machine P cfg).run p.hub es).server.effects =
      p.hub.server.effects ++ said) :
    p.enqueued P cfg es = said.filterMap Effect.task? := by
  rw [enqueued, hsaid, List.drop_left]

/-- Where the events are no dequeues the publisher accepts what is enqueued. -/
theorem serve_publisher (P : Platform) (cfg : ChatConfig) (p : Program)
    {es : List Hub.Event} (hdrain : ∀ e ∈ es, e ≠ .drain) :
    (p.serve P cfg es).publisher =
      { p.publisher with pub := p.publisher.pub.receive (p.enqueued P cfg es) } ∧
    (p.enqueued P cfg es = [] ∨
      (p.publisher.pub.queue ++ p.enqueued P cfg es).length ≤
        toSizeT cfg.rabbitmq.publisherQueueCapacity) := by
  obtain ⟨said, heffects, hqueue, hroom⟩ :=
    Hub.queued_run P cfg hdrain p.hub
  have htasks := enqueued_of_said heffects
  rw [← htasks, ← p.shared] at hqueue
  rw [← htasks, hqueue] at hroom
  exact ⟨by simp only [serve, MqPublisher.receive, hqueue], hroom⟩

theorem served_of_socket (P : Platform) (cfg : ChatConfig) (p : Program)
    {e : Event} (hsocket : ∀ e', e = .socket e' →
    e'.session?.isSome = true) (hpublisher : ∀ e', e ≠ .publisher e') :
    ∀ e' ∈ p.served P cfg e, e' ≠ .drain := by
  intro e' he'
  cases e with
  | socket e =>
      rw [List.mem_singleton.mp he']
      rintro rfl
      exact absurd (hsocket _ rfl) (by simp [Hub.Event.session?])
  | timer nowMs =>
      rw [List.mem_singleton.mp he']
      simp
  | publisher e => exact absurd rfl (hpublisher e)
  | consumer e o clock =>
      obtain ⟨env, _, rfl⟩ := List.mem_map.mp he'
      simp
  | job i o clock =>
      obtain ⟨env, _, rfl⟩ := List.mem_map.mp he'
      simp
  | _ => contradiction

theorem publisherStep_hub {e : MqPublisher.Life.Event}
    (hpublish : ∀ task, e ≠ .does (.publish task)) :
    (p.publisherStep P cfg e).hub = (Hub.machine P cfg).run p.hub e.drains := by
  have hqueue := (MqPublisher.Life.queue_step P cfg hpublish p.publisher).1
  rw [p.shared] at hqueue
  simp only [publisherStep, hqueue]
  by_cases hdequeue : e = .does .dequeue
  · rw [hdequeue]
    simp [MqPublisher.Life.Event.drains, Hub.machine]
  · have hnone : e.drains = [] := by
      cases e with
      | does e =>
          cases e with
          | dequeue => exact absurd rfl hdequeue
          | _ => rfl
      | _ => rfl
    rw [hnone]
    rfl

theorem perform_hub (replies : Replies) (call : ModuleCall) :
    (p.perform P cfg replies call).hub = p.hub := by
  have howner : ∀ e : MqPublisher.Life.Event, e.drains = [] →
      (∀ task, e ≠ .does (.publish task)) → (p.publisherStep P cfg e).hub = p.hub := by
    intro e hnone hpublish
    rw [publisherStep_hub hpublish, hnone]
    rfl
  cases call with
  | startPublisher => exact howner .start rfl (by simp)
  | stopPublisher => exact howner .stop rfl (by simp)
  | joinPublisher =>
      simp only [perform]
      split_ifs
      · exact howner (.join replies) rfl (by simp)
      · rfl
  | joinConsumer =>
      simp only [perform]
      split_ifs <;> rfl
  | _ => rfl

theorem step_hub {e : Event} (henabled : (machine P cfg).enabled p e) :
    (Hub.machine P cfg).run p.hub (p.served P cfg e) =
      ((machine P cfg).step p e).hub := by
  cases e with
  | ready http ws scheduler =>
      simp only [machine, onServerReady]
      split_ifs <;> rfl
  | call replies =>
      simp only [machine]
      cases p.calls with
      | nil => rfl
      | cons call calls => exact (perform_hub replies call).symm
  | publisher e =>
      refine (publisherStep_hub fun task htask => ?_).symm
      rw [htask] at henabled
      exact absurd henabled.2.1 (by simp [MqPublisher.Life.Event.isMove])
  | _ => rfl

/-! What the publisher does. -/

theorem enqueued_nil : p.enqueued P cfg [] = [] := by
  simp [enqueued]

theorem run_serve {es : List Hub.Event} (hdrain : ∀ e ∈ es, e ≠ .drain) :
    let tasks := MqPublisher.Life.publishing (p.enqueued P cfg es)
    (MqPublisher.Life.machine P cfg).Admissible p.publisher tasks ∧
      (MqPublisher.Life.machine P cfg).run p.publisher tasks =
        (p.serve P cfg es).publisher := by
  intro tasks
  obtain ⟨hpublisher, hroom⟩ := serve_publisher P cfg p hdrain
  refine ⟨MqPublisher.Life.admissible_publishing _ _, ?_⟩
  rw [hpublisher]
  exact MqPublisher.Life.run_publishing hroom

/-- A call on the publisher is one its life cycle allows. -/
theorem Scripted.publisherCall (hscripted : Scripted p) {call : ModuleCall}
    {calls : List ModuleCall} (hcalls : p.calls = call :: calls)
    (hreturns : p.Returns call) (replies : Replies) :
    (MqPublisher.Life.machine P cfg).Admissible p.publisher
        (p.publisherCall replies call) ∧
      (MqPublisher.Life.machine P cfg).run p.publisher
        (p.publisherCall replies call) = (p.perform P cfg replies call).publisher := by
  have hfree : call ≠ .joinPublisher → p.publisher.loop.stopping = false := by
    intro hother
    by_contra hstopping
    have hhead := hscripted.publisher (by simpa using hstopping)
    rw [hcalls, List.head?_cons, Option.some.injEq] at hhead
    exact hother hhead
  cases call with
  | startPublisher => exact ⟨⟨hfree (by simp), trivial⟩, rfl⟩
  | stopPublisher => exact ⟨⟨hfree (by simp), trivial⟩, rfl⟩
  | joinPublisher =>
      simp only [Program.publisherCall, perform]
      split_ifs with hstopping
      · exact ⟨⟨⟨hstopping, hreturns hstopping⟩, trivial⟩, rfl⟩
      · exact ⟨trivial, rfl⟩
  | joinConsumer =>
      refine ⟨trivial, ?_⟩
      simp only [perform]
      split_ifs <;> rfl
  | _ => exact ⟨trivial, rfl⟩

theorem Scripted.publisherDoes (hscripted : Scripted p) {e : Event}
    (henabled : (machine P cfg).enabled p e) :
    (MqPublisher.Life.machine P cfg).Admissible p.publisher
        (p.publisherDoes P cfg e) ∧
      (MqPublisher.Life.machine P cfg).run p.publisher (p.publisherDoes P cfg e) =
        ((machine P cfg).step p e).publisher := by
  cases e with
  | ready http ws scheduler =>
      simp only [Program.publisherDoes, served, enqueued_nil, machine, onServerReady]
      refine ⟨trivial, ?_⟩
      split_ifs <;> rfl
  | unload =>
      simp only [Program.publisherDoes, served, enqueued_nil]
      exact ⟨trivial, rfl⟩
  | call replies =>
      obtain ⟨_, hsome, hreturns⟩ := henabled
      cases hcalls : p.calls with
      | nil => exact absurd hcalls hsome
      | cons call calls =>
          rw [hcalls] at hreturns
          simp only [Program.publisherDoes, machine, hcalls, List.head?_cons,
            Option.toList_some, List.flatMap_cons, List.flatMap_nil, List.append_nil]
          exact hscripted.publisherCall hcalls (hreturns call rfl) replies
  | publisher e => exact ⟨⟨henabled.2.2, trivial⟩, rfl⟩
  | socket e =>
      apply run_serve
      refine served_of_socket P cfg p (e := .socket e) ?_ (by simp)
      rintro _ ⟨⟩
      exact henabled.2.2.1
  | timer nowMs => exact run_serve (served_of_socket P cfg p (by simp) (by simp))
  | consumer e o clock =>
      exact run_serve (served_of_socket P cfg p (by simp) (by simp))
  | job i o clock =>
      exact run_serve (served_of_socket P cfg p (by simp) (by simp))

/-! What the consumer does. -/

theorem Scripted.consumerCall (hscripted : Scripted p) {call : ModuleCall}
    {calls : List ModuleCall} (hcalls : p.calls = call :: calls)
    (hcrashed : p.consumer.crashed = false) (hreturns : p.Returns call)
    (replies : Replies) :
    (MqConsumer.Life.machine P cfg.rabbitmq).Admissible p.consumer
        (p.consumerCall replies call) ∧
      (MqConsumer.Life.machine P cfg.rabbitmq).run p.consumer
        (p.consumerCall replies call) = (p.perform P cfg replies call).consumer := by
  have hfree : call ≠ .joinConsumer → p.consumer.loop.stopping = false := by
    intro hother
    by_contra hstopping
    have hhead := hscripted.consumer (by simpa using hstopping)
    rw [hcalls, List.head?_cons, Option.some.injEq] at hhead
    exact hother hhead
  cases call with
  | startConsumer scheduler =>
      exact ⟨⟨⟨hcrashed, hfree (by simp)⟩, trivial⟩, rfl⟩
  | stopConsumer => exact ⟨⟨⟨hcrashed, hfree (by simp)⟩, trivial⟩, rfl⟩
  | joinConsumer =>
      simp only [Program.consumerCall, perform]
      split_ifs with hstopping
      · exact ⟨⟨⟨hcrashed, hstopping, hreturns hstopping⟩, trivial⟩, rfl⟩
      · exact ⟨trivial, rfl⟩
  | joinPublisher =>
      refine ⟨trivial, ?_⟩
      simp only [perform]
      split_ifs <;> rfl
  | _ => exact ⟨trivial, rfl⟩

theorem Scripted.consumerDoes (hscripted : Scripted p) {e : Event}
    (henabled : (machine P cfg).enabled p e) :
    (MqConsumer.Life.machine P cfg.rabbitmq).Admissible p.consumer
        (p.consumerDoes e) ∧
      (MqConsumer.Life.machine P cfg.rabbitmq).run p.consumer (p.consumerDoes e) =
        ((machine P cfg).step p e).consumer := by
  cases e with
  | ready http ws scheduler =>
      refine ⟨trivial, ?_⟩
      simp only [machine, onServerReady]
      split_ifs <;> rfl
  | call replies =>
      obtain ⟨hcrashed, hsome, hreturns⟩ := henabled
      cases hcalls : p.calls with
      | nil => exact absurd hcalls hsome
      | cons call calls =>
          rw [hcalls] at hreturns
          simp only [Program.consumerDoes, machine, hcalls, List.head?_cons,
            Option.toList_some, List.flatMap_cons, List.flatMap_nil, List.append_nil]
          exact hscripted.consumerCall hcalls hcrashed (hreturns call rfl) replies
  | consumer e o clock => exact ⟨⟨henabled.2.2.1, trivial⟩, rfl⟩
  | _ => exact ⟨trivial, rfl⟩

/-! The module follows its program. -/

/-- The calls of a `Stop` come together. -/
theorem joins_of_stop {call join : ModuleCall} {calls : List ModuleCall}
    (hstop : (call = .stopConsumer ∧ join = .joinConsumer) ∨
      (call = .stopPublisher ∧ join = .joinPublisher))
    (hscript : call :: calls <:+ MyModule.stopMq ∨
      ∃ scheduler, call :: calls <:+ MyModule.onceRegistered scheduler) :
    calls.head? = some join := by
  rcases hstop with ⟨rfl, rfl⟩ | ⟨rfl, rfl⟩
  · simp only [MyModule.stopMq, MyModule.onceRegistered, MyModule.startMq,
      List.suffix_cons_iff, List.cons_append, List.nil_append] at hscript
    simp at hscript
    simp [hscript]
  · simp only [MyModule.stopMq, MyModule.onceRegistered, MyModule.startMq,
      List.suffix_cons_iff, List.cons_append, List.nil_append] at hscript
    simp at hscript
    simp [hscript]

theorem perform_flags (replies : Replies) (call : ModuleCall) :
    (p.perform P cfg replies call).flags = after p.flags call := by
  cases call with
  | startPublisher =>
      have hstart := (MqPublisher.Life.start_spec cfg p.publisher).1
      have hrunning := (ThreadLoop.flags_start p.publisher.loop).1
      rw [← hstart] at hrunning
      exact Prod.ext rfl hrunning
  | startConsumer scheduler =>
      have hstart := (MqConsumer.Life.start_spec cfg.rabbitmq (some scheduler) true
        p.consumer).1
      have hrunning := (ThreadLoop.flags_start p.consumer.loop).1
      rw [← hstart] at hrunning
      exact Prod.ext hrunning rfl
  | stopConsumer => exact Prod.ext (ThreadLoop.running_stop p.consumer.loop) rfl
  | stopPublisher => exact Prod.ext rfl (ThreadLoop.running_stop p.publisher.loop)
  | joinConsumer =>
      simp only [perform]
      split_ifs <;> rfl
  | joinPublisher =>
      simp only [perform]
      split_ifs <;> rfl
  | addTimer => rfl

theorem perform_wanted (replies : Replies) (call : ModuleCall) :
    (p.perform P cfg replies call).wanted = p.wanted := by
  cases call with
  | joinConsumer =>
      simp only [perform]
      split_ifs <;> rfl
  | joinPublisher =>
      simp only [perform]
      split_ifs <;> rfl
  | _ => rfl

/-- Only a call that has stopped the thread leaves it waited for. -/
theorem perform_consumer_stopping (replies : Replies) {call : ModuleCall}
    (hscripted : Scripted p) {calls : List ModuleCall}
    (hcalls : p.calls = call :: calls)
    (hstopping : (p.perform P cfg replies call).consumer.loop.stopping = true) :
    call = .stopConsumer := by
  have hfree : p.consumer.loop.stopping = true → call = .joinConsumer := by
    intro hwaiting
    have hhead := hscripted.consumer hwaiting
    rwa [hcalls, List.head?_cons, Option.some.injEq] at hhead
  cases call with
  | stopConsumer => rfl
  | startConsumer scheduler =>
      have hstart := (MqConsumer.Life.start_spec cfg.rabbitmq (some scheduler) true
        p.consumer).1
      have hkept := (ThreadLoop.flags_start p.consumer.loop).2
      rw [← hstart] at hkept
      have hwaiting : p.consumer.loop.stopping = true := hkept.symm.trans hstopping
      exact absurd (hfree hwaiting) (by simp)
  | joinConsumer =>
      simp only [perform] at hstopping
      split_ifs at hstopping with hwaiting
      · exact absurd hstopping (by simp [consumerStep, MqConsumer.Life.machine,
          ThreadLoop.join])
      · exact absurd hstopping hwaiting
  | joinPublisher =>
      simp only [perform] at hstopping
      split_ifs at hstopping <;> exact absurd (hfree hstopping) (by simp)
  | _ => exact absurd (hfree hstopping) (by simp)

theorem perform_publisher_stopping (replies : Replies) {call : ModuleCall}
    (hscripted : Scripted p) {calls : List ModuleCall}
    (hcalls : p.calls = call :: calls)
    (hstopping : (p.perform P cfg replies call).publisher.loop.stopping = true) :
    call = .stopPublisher := by
  have hfree : p.publisher.loop.stopping = true → call = .joinPublisher := by
    intro hwaiting
    have hhead := hscripted.publisher hwaiting
    rwa [hcalls, List.head?_cons, Option.some.injEq] at hhead
  cases call with
  | stopPublisher => rfl
  | startPublisher =>
      have hstart := (MqPublisher.Life.start_spec cfg p.publisher).1
      have hkept := (ThreadLoop.flags_start p.publisher.loop).2
      rw [← hstart] at hkept
      have hwaiting : p.publisher.loop.stopping = true := hkept.symm.trans hstopping
      exact absurd (hfree hwaiting) (by simp)
  | joinPublisher =>
      simp only [perform] at hstopping
      split_ifs at hstopping with hwaiting
      · exact absurd hstopping (by simp [publisherStep, MqPublisher.Life.machine,
          ThreadLoop.join])
      · exact absurd hstopping hwaiting
  | joinConsumer =>
      simp only [perform] at hstopping
      split_ifs at hstopping <;> exact absurd (hfree hstopping) (by simp)
  | _ => exact absurd (hfree hstopping) (by simp)

theorem Scripted.call (hscripted : Scripted p) {call : ModuleCall}
    {calls : List ModuleCall} (hcalls : p.calls = call :: calls)
    (replies : Replies) :
    Scripted { p.perform P cfg replies call with calls := calls } := by
  have hscript := hscripted.script
  rw [hcalls] at hscript
  have hrest := List.suffix_cons call calls
  refine ⟨hscript.imp hrest.trans fun ⟨scheduler, hsuffix⟩ =>
    ⟨scheduler, hrest.trans hsuffix⟩, fun hstopping => ?_, fun hstopping => ?_, ?_⟩
  · have hstop := perform_consumer_stopping replies hscripted hcalls hstopping
    exact joins_of_stop (Or.inl ⟨hstop, rfl⟩) hscript
  · have hstop := perform_publisher_stopping replies hscripted hcalls hstopping
    exact joins_of_stop (Or.inr ⟨hstop, rfl⟩) hscript
  · have houtlook := hscripted.outlook
    rw [hcalls, List.foldl_cons, ← perform_flags replies call] at houtlook
    rw [perform_wanted replies call]
    exact houtlook

/-- Nobody waits for a thread when the module has nothing to call. -/
theorem Scripted.free (hscripted : Scripted p) (hcalls : p.calls = []) :
    p.consumer.loop.stopping = false ∧ p.publisher.loop.stopping = false := by
  constructor
  · by_contra hstopping
    have hhead := hscripted.consumer (by simpa using hstopping)
    simp [hcalls] at hhead
  · by_contra hstopping
    have hhead := hscripted.publisher (by simpa using hstopping)
    simp [hcalls] at hhead

theorem scripted_step (P : Platform) (cfg : ChatConfig) (p : Program) (e : Event)
    (hscripted : Scripted p) (henabled : (machine P cfg).enabled p e) :
    Scripted ((machine P cfg).step p e) := by
  cases e with
  | ready http ws scheduler =>
      obtain ⟨hconsumer, hpublisher⟩ := hscripted.free henabled.2
      simp only [machine, onServerReady]
      split_ifs
      · exact hscripted
      · exact hscripted
      · exact ⟨Or.inr ⟨scheduler, List.suffix_refl _⟩,
          fun hstopping => absurd hstopping (by simp [hconsumer]),
          fun hstopping => absurd hstopping (by simp [hpublisher]), rfl⟩
  | unload =>
      obtain ⟨hconsumer, hpublisher⟩ := hscripted.free henabled.2
      simp only [machine, onUnload]
      exact ⟨Or.inl (List.suffix_refl _),
        fun hstopping => absurd hstopping (by simp [hconsumer]),
        fun hstopping => absurd hstopping (by simp [hpublisher]), rfl⟩
  | call replies =>
      obtain ⟨_, hsome, _⟩ := henabled
      simp only [machine]
      cases hcalls : p.calls with
      | nil => exact absurd hcalls hsome
      | cons call calls => exact hscripted.call hcalls replies
  | publisher e =>
      obtain ⟨hrunning, hstopping⟩ := MqPublisher.Life.flags_move P cfg
        henabled.2.1 p.publisher
      refine ⟨hscripted.script, hscripted.consumer, fun hup => ?_, ?_⟩
      · exact hscripted.publisher (hstopping.symm.trans hup)
      · have hflags : ((machine P cfg).step p (.publisher e)).flags = p.flags :=
          Prod.ext rfl hrunning
        rw [hflags]
        exact hscripted.outlook
  | consumer e o clock =>
      obtain ⟨hrunning, hstopping⟩ := MqConsumer.Life.flags_move P
        cfg.rabbitmq henabled.2.1 p.consumer
      refine ⟨hscripted.script, fun hup => ?_, hscripted.publisher, ?_⟩
      · exact hscripted.consumer (hstopping.symm.trans hup)
      · have hflags : ((machine P cfg).step p (.consumer e o clock)).flags =
            p.flags := Prod.ext hrunning rfl
        rw [hflags]
        exact hscripted.outlook
  | _ => exact ⟨hscripted.script, hscripted.consumer, hscripted.publisher,
      hscripted.outlook⟩

theorem admissible_served {e : Event} (henabled : (machine P cfg).enabled p e) :
    (Hub.machine P cfg).Admissible p.hub (p.served P cfg e) := by
  cases e with
  | socket e => exact ⟨henabled.2.2.2, trivial⟩
  | timer nowMs => exact ⟨trivial, trivial⟩
  | publisher e =>
      apply Machine.each_of_forall
      intro e' he'
      rw [MqPublisher.Life.drain_of_mem_drains he']
      exact fun _ => trivial
  | consumer e o clock =>
      apply Machine.each_of_forall
      intro e' he'
      obtain ⟨env, _, rfl⟩ := List.mem_map.mp he'
      exact fun _ => trivial
  | job i o clock =>
      apply Machine.each_of_forall
      intro e' he'
      obtain ⟨env, _, rfl⟩ := List.mem_map.mp he'
      exact fun _ => trivial
  | _ => trivial

theorem hub_run {es : List Event} (hscripted : Scripted p)
    (hadm : (machine P cfg).Admissible p es) :
    (Hub.machine P cfg).Admissible p.hub ((machine P cfg).trace (served P cfg) p es) ∧
      (Hub.machine P cfg).run p.hub ((machine P cfg).trace (served P cfg) p es) =
        ((machine P cfg).run p es).hub :=
  Machine.run_refines (scripted_step P cfg)
    (fun _ _ _ henabled => ⟨admissible_served henabled, step_hub henabled⟩)
    hscripted hadm

theorem publisher_run {es : List Event} (hscripted : Scripted p)
    (hadm : (machine P cfg).Admissible p es) :
    let moves := (machine P cfg).trace (publisherDoes P cfg) p es
    (MqPublisher.Life.machine P cfg).Admissible p.publisher moves ∧
      (MqPublisher.Life.machine P cfg).run p.publisher moves =
        ((machine P cfg).run p es).publisher :=
  Machine.run_refines (scripted_step P cfg)
    (fun _ _ hscripted henabled => hscripted.publisherDoes henabled) hscripted hadm

theorem consumer_run {es : List Event} (hscripted : Scripted p)
    (hadm : (machine P cfg).Admissible p es) :
    let moves := (machine P cfg).trace consumerDoes p es
    (MqConsumer.Life.machine P cfg.rabbitmq).Admissible p.consumer moves ∧
      (MqConsumer.Life.machine P cfg.rabbitmq).run p.consumer moves =
        ((machine P cfg).run p es).consumer :=
  Machine.run_refines (scripted_step P cfg)
    (fun _ _ hscripted henabled => hscripted.consumerDoes henabled) hscripted hadm

end

/-- Every run of the program is a run of the server, of the publisher and of the
consumer, each by itself. -/
theorem runs_its_parts (P : Platform) (cfg : ChatConfig) (es : List Event)
    (hadm : (machine P cfg).Admissible (initial cfg) es) :
    let p := (machine P cfg).run (initial cfg) es
    let server := (machine P cfg).trace (served P cfg) (initial cfg) es
    let publisher := (machine P cfg).trace (publisherDoes P cfg) (initial cfg) es
    let consumer := (machine P cfg).trace consumerDoes (initial cfg) es
    ((Hub.machine P cfg).Admissible {} server ∧
        (Hub.machine P cfg).run {} server = p.hub) ∧
      ((MqPublisher.Life.machine P cfg).Admissible (.initial cfg) publisher ∧
        (MqPublisher.Life.machine P cfg).run (.initial cfg) publisher =
          p.publisher) ∧
      ((MqConsumer.Life.machine P cfg.rabbitmq).Admissible
          (.initial cfg.rabbitmq) consumer ∧
        (MqConsumer.Life.machine P cfg.rabbitmq).run (.initial cfg.rabbitmq)
          consumer = p.consumer) :=
  ⟨hub_run (scripted_initial cfg) hadm, publisher_run (scripted_initial cfg) hadm,
    consumer_run (scripted_initial cfg) hadm⟩

namespace ProgramWitness

open Hub.HubWitness (clock cfg logIn)

/-- The text `\x7b"msgId":"m1","version":1,"type":"chat.msg.replay"\x7d`. -/
def body : StdString :=
  lit "\x7b\"msgId\":\"m1\",\"version\":1,\"type\":\"chat.msg.replay\"\x7d"

/-- Tokens as before, and the text of one event for user 7. -/
def platform : Platform :=
  { Hub.HubWitness.platform with
    fromString := fun text =>
      if text = body then some (.object [("msgId", .str (lit "m1")),
        ("version", .int 1), ("type", .str (lit "chat.msg.replay")),
        ("payload", .object [("targetUserId", .uint 7)])])
      else Hub.HubWitness.platform.fromString text }

def moves (e : MqConsumer.Life.Event) : Event :=
  .consumer e (IterOrder.asKept _) clock

/-- The module is started, user 7 logs in, which the broker hears of, and is
notified of an event; the module is unloaded. -/
def day : List Event :=
  [.ready true true 0, .call fun _ => true, .call fun _ => true,
    .call fun _ => true, .socket (logIn 1), .publisher .check,
    .publisher (.does .dequeue), .publisher (.does (.connect fun _ => true)),
    .publisher (.does (.send (fun _ => true) clock (lit "p1"))),
    moves .check, moves (.connect fun _ => true),
    moves (.consume (fun _ => true)
      (.delivery ⟨1, lit "chat.msg.replay", body⟩) 0 none),
    .job 0 (IterOrder.asKept _) clock, .timer 10000,
    .unload, .call fun _ => true, moves .check, .call fun _ => true,
    .call fun _ => true, .publisher .check, .call fun _ => true]

theorem admissible_day :
    (machine platform cfg).Admissible (initial cfg) day := by decide +kernel

theorem runs_its_parts_day :
    (Hub.machine platform cfg).run {}
        ((machine platform cfg).trace (served platform cfg) (initial cfg) day) =
      ((machine platform cfg).run (initial cfg) day).hub :=
  (runs_its_parts platform cfg day admissible_day).1.2

end ProgramWitness

end Program

end FlzChat
