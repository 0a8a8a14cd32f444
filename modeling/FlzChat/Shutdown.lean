/-
The end of the threads.  A `Stop` that waits returns: whatever the broker answers
and whatever else happens, its thread has few moves left, and until it is gone it
can make them.  Once the module has nothing to call, both threads work or both
are gone with their connections.
-/
import FlzChat.Deliveries

namespace FlzChat

/-- The thread is there and is to stay. -/
def ThreadLoop.Works (loop : ThreadLoop) : Prop :=
  loop.alive = true ∧ loop.running = true

section

variable {loop : ThreadLoop}

/-- The flag of a thread that is waited for has been cleared. -/
theorem ThreadLoop.Sound.cleared (hsound : loop.Sound)
    (hstopping : loop.stopping = true) : loop.running = false := by
  by_contra hrunning
  have hfree := (hsound.running (by simpa using hrunning)).2
  rw [hstopping] at hfree
  contradiction

theorem ThreadLoop.Sound.idle (hsound : loop.Sound) (hrunning : loop.running = false)
    (hstopping : loop.stopping = false) : loop.Idle := by
  refine ⟨?_, hstopping⟩
  by_contra halive
  rcases hsound.alive (by simpa using halive) with hup | hwaiting
  · rw [hrunning] at hup
    contradiction
  · rw [hstopping] at hwaiting
    contradiction

end

namespace MqConsumer.Life

/-- How many moves the thread has left once its flag is cleared. -/
def left (life : Life) : Nat :=
  if life.loop.alive = false then 0
  else if life.loop.inside = true ∧ life.consumer.ready = false then 2
  else 1

theorem left_le (life : Life) : life.left ≤ 2 := by
  rw [left]
  split_ifs <;> omega

section

variable {P : Platform} {cfg : RabbitMqConfig} {life : Life}

theorem left_move (hsound : Sound life) (hrunning : life.loop.running = false)
    {e : Event} (hmove : e.isMove = true)
    (henabled : (machine P cfg).enabled life e) :
    1 + ((machine P cfg).step life e).left ≤ life.left := by
  cases e with
  | check =>
      obtain ⟨_, halive, hinside⟩ := henabled
      simp [machine, left, ThreadLoop.check, hrunning, halive, hinside]
  | connect replies =>
      obtain ⟨_, hinside, hready⟩ := henabled
      have hbefore : life.left = 2 := by
        simp [left, hsound.loop.inside hinside, hinside, hready]
      have hafter : ((machine P cfg).step life (.connect replies)).left ≤ 1 := by
        cases hnext : (life.consumer.connectStep cfg replies).ready <;>
          simp only [machine, left, ThreadLoop.stay, hnext] <;> split_ifs <;> simp_all
      omega
  | consume replies reply nowMs answer =>
      obtain ⟨_, hinside, hready, _⟩ := henabled
      have hbefore : life.left = 1 := by
        simp [left, hsound.loop.inside hinside, hready]
      have hafter :
          ((machine P cfg).step life (.consume replies reply nowMs answer)).left = 0 := by
        simp [machine, left, consume, consumeStep, hrunning, ThreadLoop.leave]
      omega
  | _ => simp [Event.isMove] at hmove

/-- A thread that is there can move, though no message arrives. -/
theorem exists_move (P : Platform) (cfg : RabbitMqConfig)
    (hcrashed : life.crashed = false) (halive : life.loop.alive = true) :
    ∃ e : Event, e.isMove = true ∧ e.body? = none ∧
      (machine P cfg).enabled life e := by
  by_cases hinside : life.loop.inside = true
  · by_cases hready : life.consumer.ready = true
    · exact ⟨.consume (fun _ => true) .timeout 0 (some (.returned .ack)), rfl, rfl,
        hcrashed, hinside, hready, fun _ => rfl⟩
    · exact ⟨.connect fun _ => true, rfl, rfl, hcrashed, hinside,
        by simpa using hready⟩
  · exact ⟨.check, rfl, rfl, hcrashed, halive, by simpa using hinside⟩

end

end MqConsumer.Life

namespace MqPublisher.Life

/-- How many moves the thread has left once its flag is cleared. -/
def left (life : Life) : Nat :=
  if life.loop.alive = false then 0
  else if life.loop.inside = false then 1
  else match life.pub.held with
    | none => 4
    | some _ => if life.pub.ready = true then 2 else 3

theorem left_le (life : Life) : life.left ≤ 4 := by
  cases hheld : life.pub.held with
  | none =>
      simp only [left, hheld]
      split_ifs <;> omega
  | some task =>
      simp only [left, hheld]
      split_ifs <;> omega

section

variable {P : Platform} {cfg : ChatConfig} {life : Life}

theorem left_of_back (life : Life) (hinside : life.loop.inside = false) :
    life.left ≤ 1 := by
  rw [left, if_pos hinside]
  split_ifs <;> omega

theorem left_move (hsound : Sound life) (hrunning : life.loop.running = false)
    {e : Event} (hmove : e.isMove = true)
    (henabled : (machine P cfg).enabled life e) :
    1 + ((machine P cfg).step life e).left ≤ life.left := by
  cases e with
  | check =>
      obtain ⟨halive, hinside⟩ := henabled
      simp [machine, left, ThreadLoop.check, hrunning, halive, hinside]
  | does e =>
      cases e with
      | publish task => simp [Event.isMove] at hmove
      | dequeue =>
          obtain ⟨hinside, hheld⟩ := henabled
          have hheld : life.pub.held = none := hheld
          have halive := hsound.loop.inside hinside
          have hbefore : life.left = 4 := by simp [left, halive, hinside, hheld]
          have hafter : ((machine P cfg).step life (.does .dequeue)).left ≤ 3 := by
            cases hqueue : life.pub.queue <;>
              simp [machine, act, MqPublisher.machine, dequeue, hqueue, left, halive,
                hheld, ThreadLoop.stay]
          omega
      | connect replies =>
          obtain ⟨hinside, hsome, hready⟩ := henabled
          obtain ⟨task, hheld⟩ := Option.isSome_iff_exists.mp hsome
          have halive := hsound.loop.inside hinside
          have hbefore : life.left = 3 := by
            simp [left, halive, hinside, hheld, hready]
          have hafter :
              ((machine P cfg).step life (.does (.connect replies))).left ≤ 2 := by
            simp only [machine, act, MqPublisher.machine, hheld, connectStep]
            split
            · exact (left_of_back _ rfl).trans (by omega)
            · simp [left, halive, ThreadLoop.stay]
          omega
      | send replies clock msgId =>
          obtain ⟨hinside, hsome, hready⟩ := henabled
          obtain ⟨task, hheld⟩ := Option.isSome_iff_exists.mp hsome
          have hbefore : life.left = 2 := by
            simp [left, hsound.loop.inside hinside, hinside, hheld, hready]
          have hafter : ((machine P cfg).step life
              (.does (.send replies clock msgId))).left ≤ 1 := by
            apply left_of_back
            simp only [machine, act, MqPublisher.machine, hheld, sendStep]
            split <;> rfl
          omega
  | _ => simp [Event.isMove] at hmove

/-- A thread that is there can move, though nobody publishes. -/
theorem exists_move (P : Platform) (cfg : ChatConfig) (clock : Clock)
    (halive : life.loop.alive = true) :
    ∃ e : Event, e.isMove = true ∧ (machine P cfg).enabled life e := by
  by_cases hinside : life.loop.inside = true
  · cases hheld : life.pub.held with
    | none => exact ⟨.does .dequeue, rfl, hinside, hheld⟩
    | some task =>
        have hsome : life.pub.held.isSome = true := by rw [hheld]; rfl
        by_cases hready : life.pub.ready = true
        · exact ⟨.does (.send (fun _ => true) clock []), rfl, hinside, hsome, hready⟩
        · exact ⟨.does (.connect fun _ => true), rfl, hinside, hsome,
            by simpa using hready⟩
  · exact ⟨.check, rfl, halive, by simpa using hinside⟩

end

end MqPublisher.Life

namespace Program

def Event.isCall : Event → Bool
  | .call _ => true
  | _ => false

/-- A move of the consumer's thread. -/
def Event.ofConsumer : Event → Bool
  | .consumer _ _ _ => true
  | _ => false

/-- A move of the publisher's thread. -/
def Event.ofPublisher : Event → Bool
  | .publisher _ => true
  | _ => false

/-- The module follows its program and both threads theirs. -/
structure Orderly (p : Program) : Prop where
  scripted : Scripted p
  consumer : p.consumer.Sound
  publisher : p.publisher.Sound

section

variable {P : Platform} {cfg : ChatConfig} {p : Program}

theorem orderly_initial (cfg : ChatConfig) : Orderly (initial cfg) :=
  ⟨scripted_initial cfg, MqConsumer.Life.sound_initial cfg.rabbitmq,
    MqPublisher.Life.sound_initial cfg⟩

theorem orderly_step (P : Platform) (cfg : ChatConfig) (p : Program) (e : Event)
    (horderly : Orderly p) (henabled : (machine P cfg).enabled p e) :
    Orderly ((machine P cfg).step p e) := by
  obtain ⟨hconsumed, hconsumer⟩ := horderly.scripted.consumerDoes henabled
  obtain ⟨hpublished, hpublisher⟩ := horderly.scripted.publisherDoes henabled
  refine ⟨scripted_step P cfg p e horderly.scripted henabled, ?_, ?_⟩
  · rw [← hconsumer]
    exact Machine.run_of_step
      (fun _ _ hsound henabled => (MqConsumer.Life.step_sound hsound henabled).1)
      horderly.consumer hconsumed
  · rw [← hpublisher]
    exact MqPublisher.Life.sound_run hpublished horderly.publisher

theorem orderly_run {es : List Event}
    (hadm : (machine P cfg).Admissible (initial cfg) es) :
    Orderly ((machine P cfg).run (initial cfg) es) :=
  Machine.run_of_step (orderly_step P cfg) (orderly_initial cfg) hadm

/-! What a wait has left. -/

/-- While the module waits, only its thread changes the consumer. -/
theorem consumer_step_of_others (P : Platform) (cfg : ChatConfig) (p : Program)
    {e : Event} (hcall : e.isCall = false) (hother : e.ofConsumer = false) :
    ((machine P cfg).step p e).consumer = p.consumer := by
  cases e with
  | ready http ws scheduler =>
      simp only [machine, onServerReady]
      split_ifs <;> rfl
  | call replies => contradiction
  | consumer e o clock => contradiction
  | _ => rfl

theorem consumer_left (horderly : Orderly p)
    (hwaiting : p.consumer.loop.stopping = true) {e : Event}
    (henabled : (machine P cfg).enabled p e) (hcall : e.isCall = false) :
    ((machine P cfg).step p e).consumer.loop.stopping = true ∧
      e.ofConsumer.toNat + ((machine P cfg).step p e).consumer.left ≤
        p.consumer.left := by
  cases hwhose : e.ofConsumer
  · rw [consumer_step_of_others P cfg p hcall hwhose]
    exact ⟨hwaiting, by simp⟩
  · cases e with
    | consumer e o clock =>
        obtain ⟨_, hmove, hmoves, _⟩ := henabled
        have hstopping := (MqConsumer.Life.flags_move P cfg.rabbitmq hmove
          p.consumer).2
        exact ⟨hstopping.trans hwaiting, MqConsumer.Life.left_move horderly.consumer
          (horderly.consumer.loop.cleared hwaiting) hmove hmoves⟩
    | _ => contradiction

/-- What the server does leaves the publisher's thread where it is. -/
theorem publisher_step_of_others (P : Platform) (cfg : ChatConfig) (p : Program)
    {e : Event} (hcall : e.isCall = false) (hother : e.ofPublisher = false) :
    ((machine P cfg).step p e).publisher.loop = p.publisher.loop ∧
      ((machine P cfg).step p e).publisher.left = p.publisher.left := by
  cases e with
  | ready http ws scheduler =>
      simp only [machine, onServerReady]
      split_ifs <;> exact ⟨rfl, rfl⟩
  | call replies => contradiction
  | publisher e => contradiction
  | _ => exact ⟨rfl, rfl⟩

theorem publisher_left (horderly : Orderly p)
    (hwaiting : p.publisher.loop.stopping = true) {e : Event}
    (henabled : (machine P cfg).enabled p e) (hcall : e.isCall = false) :
    ((machine P cfg).step p e).publisher.loop.stopping = true ∧
      e.ofPublisher.toNat + ((machine P cfg).step p e).publisher.left ≤
        p.publisher.left := by
  cases hwhose : e.ofPublisher
  · obtain ⟨hloop, hleft⟩ := publisher_step_of_others P cfg p hcall hwhose
    rw [hloop, hleft]
    exact ⟨hwaiting, by simp⟩
  · cases e with
    | publisher e =>
        obtain ⟨_, hmove, hmoves⟩ := henabled
        have hstopping := (MqPublisher.Life.flags_move P cfg hmove p.publisher).2
        exact ⟨hstopping.trans hwaiting, MqPublisher.Life.left_move horderly.publisher
          (horderly.publisher.loop.cleared hwaiting) hmove hmoves⟩
    | _ => contradiction

/-- The next call returns, or the thread it waits for can move. -/
theorem call_or_move (hcrashed : p.consumer.crashed = false) {call : ModuleCall}
    {calls : List ModuleCall} (hcalls : p.calls = call :: calls) (clock : Clock) :
    (∀ replies, (machine P cfg).enabled p (.call replies)) ∨
      (call = .joinConsumer ∧ ∃ e : MqConsumer.Life.Event, e.body? = none ∧
        ∀ o clock, (machine P cfg).enabled p (.consumer e o clock)) ∨
      (call = .joinPublisher ∧ ∃ e, (machine P cfg).enabled p (.publisher e)) := by
  by_cases hreturns : p.Returns call
  · left
    intro replies
    refine ⟨hcrashed, by simp [hcalls], ?_⟩
    intro next hnext
    rw [hcalls, List.head?_cons, Option.mem_some_iff] at hnext
    rw [← hnext]
    exact hreturns
  · right
    cases call with
    | joinConsumer =>
        left
        obtain ⟨_, halive⟩ := Classical.not_imp.mp hreturns
        obtain ⟨e, hmove, hbody, hmoves⟩ := MqConsumer.Life.exists_move P cfg.rabbitmq
          hcrashed (by simpa using halive)
        refine ⟨rfl, e, hbody, fun o clock => ⟨hcrashed, hmove, hmoves, ?_⟩⟩
        rcases dispatched_cases P cfg p e with hnone | ⟨_, _, _, hsome, _⟩
        · rw [hnone]
          simp
        · rw [hbody] at hsome
          contradiction
    | joinPublisher =>
        right
        obtain ⟨_, halive⟩ := Classical.not_imp.mp hreturns
        obtain ⟨e, hmove, hmoves⟩ := MqPublisher.Life.exists_move P cfg clock
          (by simpa using halive)
        exact ⟨rfl, e, hcrashed, hmove, hmoves⟩
    | _ => exact absurd trivial hreturns

end

/-- A call that waits for a thread returns: while it waits, the consumer's thread
makes at most two moves and the publisher's at most four, whatever the broker
answers and whatever else happens, and unless an exception has ended the process,
the next call returns at once or the thread it waits for can move, with no message
to bring and no task to publish. -/
theorem calls_return (P : Platform) (cfg : ChatConfig) (before during : List Event)
    (hadm : (machine P cfg).Admissible (initial cfg) (before ++ during))
    (hwaits : ∀ e ∈ during, e.isCall = false) :
    let p := (machine P cfg).run (initial cfg) before
    let p' := (machine P cfg).run (initial cfg) (before ++ during)
    (p.consumer.loop.stopping = true → during.countP Event.ofConsumer ≤ 2) ∧
      (p.publisher.loop.stopping = true → during.countP Event.ofPublisher ≤ 4) ∧
      (p'.consumer.crashed = false → ∀ call ∈ p'.calls.head?,
        (∀ replies, (machine P cfg).enabled p' (.call replies)) ∨
          (call = .joinConsumer ∧ ∃ e : MqConsumer.Life.Event, e.body? = none ∧
            ∀ o clock, (machine P cfg).enabled p' (.consumer e o clock)) ∨
          (call = .joinPublisher ∧
            ∃ e, (machine P cfg).enabled p' (.publisher e))) := by
  intro p p'
  obtain ⟨hbefore, hduring⟩ := Machine.admissible_append.mp hadm
  have horderly : Orderly p := orderly_run hbefore
  have heach : (machine P cfg).Each
      (fun p e => (machine P cfg).enabled p e ∧ e.isCall = false) p during :=
    Machine.Each.and hduring
      (Machine.each_of_forall fun e he _ => hwaits e he)
  refine ⟨fun hwaiting => ?_, fun hwaiting => ?_, fun hcrashed call hcall => ?_⟩
  · have hbound := Machine.countP_le_of_measure
      (fun p => Orderly p ∧ p.consumer.loop.stopping = true)
      (fun p => p.consumer.left) Event.ofConsumer
      (fun p e hp he => by
        obtain ⟨hstopping, hleft⟩ := consumer_left hp.1 hp.2 he.1 he.2
        exact ⟨⟨orderly_step P cfg p e hp.1 he.1, hstopping⟩, hleft⟩)
      ⟨horderly, hwaiting⟩ heach
    have hfew := MqConsumer.Life.left_le p.consumer
    omega
  · have hbound := Machine.countP_le_of_measure
      (fun p => Orderly p ∧ p.publisher.loop.stopping = true)
      (fun p => p.publisher.left) Event.ofPublisher
      (fun p e hp he => by
        obtain ⟨hstopping, hleft⟩ := publisher_left hp.1 hp.2 he.1 he.2
        exact ⟨⟨orderly_step P cfg p e hp.1 he.1, hstopping⟩, hleft⟩)
      ⟨horderly, hwaiting⟩ heach
    have hfew := MqPublisher.Life.left_le p.publisher
    omega
  · obtain ⟨calls, hcalls⟩ := List.head?_eq_some_iff.mp hcall
    exact call_or_move hcrashed hcalls ⟨0, 0, []⟩

/-- In every run that no exception has ended, when the module has nothing left to
call: if it was last to start the threads, both work; if it was to stop them, both
are gone, neither holds a connection, and no task is in hand. -/
theorem at_rest (P : Platform) (cfg : ChatConfig) (es : List Event)
    (hadm : (machine P cfg).Admissible (initial cfg) es) :
    let p := (machine P cfg).run (initial cfg) es
    p.consumer.crashed = false → p.calls = [] →
      (p.wanted = true → p.consumer.loop.Works ∧ p.publisher.loop.Works) ∧
      (p.wanted = false → p.consumer.loop.Idle ∧ p.publisher.loop.Idle ∧
        p.consumer.consumer.client.connected = false ∧
          p.publisher.pub.client.connected = false ∧ p.publisher.pub.held = none) := by
  intro p _ hcalls
  obtain ⟨hscripted, hconsumer, hpublisher⟩ : Orderly p := orderly_run hadm
  obtain ⟨hfree, hfree'⟩ := hscripted.free hcalls
  have hflags : p.flags = (p.wanted, p.wanted) := by
    have houtlook := hscripted.outlook
    rwa [hcalls] at houtlook
  have hrunning : p.consumer.loop.running = p.wanted := congrArg Prod.fst hflags
  have hrunning' : p.publisher.loop.running = p.wanted := congrArg Prod.snd hflags
  refine ⟨fun hwanted => ?_, fun hwanted => ?_⟩
  · rw [hwanted] at hrunning hrunning'
    exact ⟨⟨(hconsumer.loop.running hrunning).1, hrunning⟩,
      (hpublisher.loop.running hrunning').1, hrunning'⟩
  · rw [hwanted] at hrunning hrunning'
    have hidle := hconsumer.loop.idle hrunning hfree
    have hidle' := hpublisher.loop.idle hrunning' hfree'
    refine ⟨hidle, hidle', hconsumer.idle hidle, hpublisher.idle hidle', ?_⟩
    by_contra hheld
    have hinside := hpublisher.inside (Option.isSome_iff_ne_none.mpr hheld)
    have halive := hpublisher.loop.inside hinside
    rw [hidle'.1] at halive
    contradiction

namespace ProgramWitness

open Hub.HubWitness (cfg)

/-- The day up to where the module waits for the consumer's thread, and the
moves of that thread. -/
theorem calls_return_day :
    ((day.drop 16).take 1).countP Event.ofConsumer ≤ 2 :=
  (calls_return platform cfg (day.take 16) ((day.drop 16).take 1) (by decide +kernel)
    (by decide)).1 (by decide +kernel)

theorem at_rest_day :
    let p := (machine platform cfg).run (initial cfg) day
    p.consumer.loop.Idle ∧ p.publisher.loop.Idle ∧
      p.consumer.consumer.client.connected = false ∧
        p.publisher.pub.client.connected = false ∧ p.publisher.pub.held = none :=
  (at_rest platform cfg day admissible_day (by decide +kernel)
    (by decide +kernel)).2 (by decide +kernel)

end ProgramWitness

end Program

end FlzChat
