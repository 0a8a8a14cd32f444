/-
What the program puts on the wire.  Every message it publishes is a task that the
server has had accepted, each at most once and in that order, and speaks for a
user who has logged in.
-/
import FlzChat.Accounting
import FlzChat.Parts

namespace FlzChat

namespace AmqpClient

/-- A call that publishes nothing. -/
def Silent (call : AmqpCall) : Prop :=
  call.isPublish = false

/-- The messages a client has published. -/
def published (client : AmqpClient) : List AmqpCall :=
  client.calls.filter AmqpCall.isPublish

theorem Extends.published {client client' : AmqpClient}
    (hextends : Extends Silent client client') :
    client'.published = client.published := by
  obtain ⟨calls, hcalls, hsilent⟩ := hextends
  have hnone : calls.filter AmqpCall.isPublish = [] := by
    rw [List.filter_eq_nil_iff]
    intro call hcall
    exact Bool.eq_false_iff.mp (hsilent call hcall)
  rw [AmqpClient.published, hcalls, List.filter_append, hnone, List.append_nil]
  rfl

theorem silent_close (client : AmqpClient) : Extends Silent client client.close :=
  extends_close client ⟨rfl, rfl, rfl⟩

theorem silent_requestAll (replies : Replies) {calls : List AmqpCall}
    (hcalls : ∀ call ∈ calls, call.isPublish = false) (client : AmqpClient) :
    Extends Silent client (requestAll replies calls client).2 :=
  extends_requestAll replies hcalls client

theorem silent_openChannel (replies : Replies) (client : AmqpClient) :
    Extends Silent client (openChannel replies 0 client).2 := by
  simp only [openChannel]
  split_ifs
  · exact Extends.refl client
  · contradiction
  · exact silent_requestAll replies (by simp [AmqpCall.isPublish]) client

theorem silent_declareForPublisher (replies : Replies) (client : AmqpClient) :
    Extends Silent client (declareForPublisher replies client).2 := by
  have hbusiness : Extends Silent client (client.declareBusinessExchange replies).2 :=
    silent_requestAll replies (by simp [businessExchange, AmqpCall.isPublish]) client
  simp only [declareForPublisher]
  split
  · next heq =>
      rw [heq] at hbusiness
      exact hbusiness
  · next next heq =>
      rw [heq] at hbusiness
      have hchat : Extends Silent next (next.declareChatTopology replies).2 :=
        silent_requestAll replies (by simp [chatTopology, AmqpCall.isPublish]) next
      exact hbusiness.trans hchat

/-- Setting up publishes nothing. -/
theorem silent_ensureConnected (replies : Replies) (client : AmqpClient)
    (metrics : ChatMetrics) :
    Extends Silent client (MqPublisher.ensureConnected replies client metrics).2.1 := by
  apply extends_ensureConnected (p := Silent) ⟨rfl, rfl, rfl⟩
    (by simp [Silent, AmqpCall.isPublish])
  intro step hstep
  simp only [List.mem_cons, List.not_mem_nil, or_false] at hstep
  rcases hstep with rfl | rfl
  · exact silent_openChannel replies
  · exact silent_declareForPublisher replies

end AmqpClient

namespace MqPublisher

/-- The call publishes the task, in an envelope built at some time. -/
def Publishes (P : Platform) (call : AmqpCall) (task : Task) : Prop :=
  ∃ clock msgId, call = publishCall P clock msgId task

/-- What has been published, what is held and what waits are tasks accepted in
that order; the broker has confirmed some of the first. -/
def Wired (P : Platform) (pub : MqPublisher) : Prop :=
  ∃ tasks, List.Forall₂ (Publishes P) pub.client.published tasks ∧
    pub.handed.Sublist tasks ∧
      (tasks ++ pub.held.toList ++ pub.queue).Sublist pub.accepted

section

variable {P : Platform} {cfg : ChatConfig} {pub : MqPublisher}

theorem wired_initial (P : Platform) (cfg : ChatConfig) : Wired P (initial cfg) :=
  ⟨[], List.Forall₂.nil, List.Sublist.refl _, List.Sublist.refl _⟩

/-- What publishes nothing and loses at most the task in hand keeps it so. -/
theorem Wired.keep (hwired : Wired P pub) {next : MqPublisher}
    (hclient : AmqpClient.Extends AmqpClient.Silent pub.client next.client)
    (hhanded : next.handed = pub.handed) (haccepted : next.accepted = pub.accepted)
    (hqueue : (next.held.toList ++ next.queue).Sublist
      (pub.held.toList ++ pub.queue)) : Wired P next := by
  obtain ⟨tasks, hcalls, hconfirmed, horder⟩ := hwired
  refine ⟨tasks, by rw [hclient.published]; exact hcalls,
    by rw [hhanded]; exact hconfirmed, ?_⟩
  rw [haccepted]
  rw [List.append_assoc] at horder ⊢
  exact (hqueue.append_left tasks).trans horder

theorem Wired.publish (hwired : Wired P pub) (cfg : ChatConfig) (task : Task) :
    Wired P (pub.publish cfg task).2 := by
  obtain ⟨tasks, hcalls, hconfirmed, horder⟩ := hwired
  simp only [MqPublisher.publish, enqueue]
  split_ifs
  · exact ⟨tasks, hcalls, hconfirmed, horder⟩
  · refine ⟨tasks, hcalls, hconfirmed, ?_⟩
    rw [← List.append_assoc]
    exact horder.append (List.Sublist.refl [task])

theorem Wired.dequeue (hwired : Wired P pub) (hheld : pub.held = none) :
    Wired P pub.dequeue := by
  simp only [MqPublisher.dequeue]
  split
  · exact hwired
  · next task queue heq =>
      refine hwired.keep (AmqpClient.Extends.refl _) rfl rfl ?_
      simp [hheld, heq]

theorem Wired.connectStep (hwired : Wired P pub) (cfg : ChatConfig)
    (replies : Replies) (task : Task) :
    Wired P (pub.connectStep cfg replies task) := by
  have hsilent := AmqpClient.silent_ensureConnected replies pub.client pub.metrics
  rw [← (connectStep_client cfg replies task pub).1] at hsilent
  refine hwired.keep hsilent ?_ ?_ ?_
  · simp only [MqPublisher.connectStep]
    split <;> rfl
  · simp only [MqPublisher.connectStep]
    split <;> rfl
  · simp only [MqPublisher.connectStep]
    split
    · exact List.sublist_append_right _ _
    · exact List.Sublist.refl _

theorem Wired.sendStep (hwired : Wired P pub) (replies : Replies) (clock : Clock)
    (msgId : StdString) {task : Task} (hheld : pub.held = some task) :
    Wired P (pub.sendStep P replies clock msgId task) := by
  obtain ⟨tasks, hcalls, hconfirmed, horder⟩ := hwired
  let call := publishCall P clock msgId task
  have hmore : List.Forall₂ (Publishes P) (pub.client.published ++ [call])
      (tasks ++ [task]) :=
    List.rel_append hcalls (.cons ⟨clock, msgId, rfl⟩ .nil)
  have hrequested : (AmqpClient.requestAll replies [call] pub.client).2.published =
      pub.client.published ++ [call] := by
    rw [AmqpClient.requestAll_singleton]
    exact List.filter_append _ _
  rw [hheld] at horder
  simp only [MqPublisher.sendStep]
  split
  · next client heq =>
      rw [heq] at hrequested
      refine ⟨tasks ++ [task], ?_,
        hconfirmed.trans (List.sublist_append_left _ _), by simpa using horder⟩
      rw [(AmqpClient.silent_close client).published, hrequested]
      exact hmore
  · next client heq =>
      rw [heq] at hrequested
      refine ⟨tasks ++ [task], ?_, hconfirmed.append (List.Sublist.refl _),
        by simpa using horder⟩
      rw [hrequested]
      exact hmore

namespace Life

theorem wired_step (P : Platform) (cfg : ChatConfig) (life : Life) (e : Event)
    (hwired : Wired P life.pub) (henabled : (machine P cfg).enabled life e) :
    Wired P ((machine P cfg).step life e).pub := by
  cases e with
  | does e =>
      have hact := enabled_of_does henabled
      cases e with
      | publish task => exact hwired.publish cfg task
      | dequeue => exact hwired.dequeue hact
      | connect replies =>
          obtain ⟨task, hheld⟩ := Option.isSome_iff_exists.mp hact.1
          simp only [machine, act, MqPublisher.machine, hheld]
          exact hwired.connectStep cfg replies task
      | send replies clock msgId =>
          obtain ⟨task, hheld⟩ := Option.isSome_iff_exists.mp hact.1
          simp only [machine, act, MqPublisher.machine, hheld]
          exact hwired.sendStep replies clock msgId hheld
  | start =>
      simp only [machine]
      rw [(start_spec cfg life).2]
      exact hwired
  | check => exact hwired
  | stop => exact hwired
  | join replies =>
      exact hwired.keep (AmqpClient.silent_close _) rfl rfl (List.Sublist.refl _)

end Life

end

end MqPublisher

namespace Hub

/-- A user who has logged in with a token that verifies. -/
def LoggedIn (P : Platform) (cfg : ChatConfig) (hub : Hub) (uid : UInt64) : Prop :=
  ∃ login ∈ hub.opened, Verified P cfg login ∧ login.userId = uid

/-- Every task on record speaks for a user who has logged in. -/
structure Attributed (P : Platform) (cfg : ChatConfig) (hub : Hub) : Prop where
  proven : Proven P cfg hub
  actors : ∀ task, Effect.enqueued task ∈ hub.server.effects →
    ∃ uid, task.actor? = some uid ∧ hub.LoggedIn P cfg uid

theorem attributed_initial (P : Platform) (cfg : ChatConfig) :
    Attributed P cfg {} :=
  ⟨proven_initial P cfg, by simp⟩

/-- A login lasts. -/
theorem opened_subset_step (P : Platform) (cfg : ChatConfig) (hub : Hub)
    (e : Event) : hub.opened ⊆ ((machine P cfg).step hub e).opened := by
  rcases opened_step P cfg hub e with hsame | ⟨_, _, _, _, _, _, _, _, hopened⟩
  · rw [hsame]
    exact List.Subset.refl _
  · rw [hopened]
    exact List.subset_cons_self _ _

theorem attributed_step (P : Platform) (cfg : ChatConfig) (hub : Hub) (e : Event)
    (hattributed : Attributed P cfg hub) (henabled : (machine P cfg).enabled hub e) :
    Attributed P cfg ((machine P cfg).step hub e) := by
  refine ⟨proven_step P cfg hub e hattributed.proven henabled, fun task htask => ?_⟩
  rw [effects_step] at htask
  rcases List.mem_append.mp htask with hold | hnew
  · obtain ⟨uid, hactor, login, hlogin, hverified, huser⟩ :=
      hattributed.actors task hold
    exact ⟨uid, hactor, login, opened_subset_step P cfg hub e hlogin, hverified,
      huser⟩
  · obtain ⟨login, hlogin, _, hverified, hactor⟩ :=
      hattributed.proven.speaksFor henabled hnew
    exact ⟨login.userId, hactor, login, hlogin, hverified, rfl⟩

end Hub

namespace Program

section

variable {P : Platform} {cfg : ChatConfig} {p : Program}

/-- What the publisher has accepted is what the server has published. -/
def Recorded (p : Program) : Prop :=
  p.publisher.pub.accepted = p.hub.server.effects.filterMap Effect.task?

theorem Recorded.serve (hrecorded : p.Recorded) {es : List Hub.Event}
    (hdrain : ∀ e ∈ es, e ≠ .drain) : (p.serve P cfg es).Recorded := by
  obtain ⟨said, heffects, _⟩ := Hub.queued_run P cfg hdrain p.hub
  have htasks := enqueued_of_said heffects
  simp only [Recorded, Program.serve]
  rw [hrecorded, htasks, heffects, List.filterMap_append]

theorem Recorded.publisherStep (hrecorded : p.Recorded)
    {e : MqPublisher.Life.Event} (hpublish : ∀ task, e ≠ .does (.publish task)) :
    (p.publisherStep P cfg e).Recorded := by
  have haccepted := (MqPublisher.Life.queue_step P cfg hpublish p.publisher).2
  exact haccepted.trans hrecorded

theorem Recorded.perform (hrecorded : p.Recorded) (replies : Replies)
    (call : ModuleCall) : (p.perform P cfg replies call).Recorded := by
  cases call with
  | startPublisher => exact hrecorded.publisherStep (by simp)
  | stopPublisher => exact hrecorded.publisherStep (by simp)
  | joinPublisher =>
      simp only [Program.perform]
      split_ifs
      · exact hrecorded.publisherStep (by simp)
      · exact hrecorded
  | joinConsumer =>
      simp only [Program.perform]
      split_ifs <;> exact hrecorded
  | _ => exact hrecorded

theorem recorded_step (P : Platform) (cfg : ChatConfig) (p : Program) (e : Event)
    (hrecorded : p.Recorded) (henabled : (machine P cfg).enabled p e) :
    ((machine P cfg).step p e).Recorded := by
  cases e with
  | ready http ws scheduler =>
      simp only [machine, onServerReady]
      split_ifs <;> exact hrecorded
  | unload => exact hrecorded
  | call replies =>
      simp only [machine]
      cases p.calls with
      | nil => exact hrecorded
      | cons call calls => exact hrecorded.perform replies call
  | publisher e =>
      refine hrecorded.publisherStep fun task htask => ?_
      rw [htask] at henabled
      exact absurd henabled.2.1 (by simp [MqPublisher.Life.Event.isMove])
  | socket e =>
      apply hrecorded.serve
      refine served_of_socket P cfg p (e := .socket e) ?_ (by simp)
      rintro _ ⟨⟩
      exact henabled.2.2.1
  | timer nowMs => exact hrecorded.serve (by simp)
  | consumer e o clock => exact hrecorded.serve (by simp)
  | job i o clock => exact hrecorded.serve (by simp)

end

/-- Every message a run of the program has tried to publish is that of a task the
server has had accepted and that waits no longer, each once and in that order,
and it speaks for a user whose token has been verified; what the broker has
confirmed is among them. -/
theorem wire_in_order (P : Platform) (cfg : ChatConfig) (es : List Event)
    (hadm : (machine P cfg).Admissible (initial cfg) es) :
    let p := (machine P cfg).run (initial cfg) es
    ∃ tasks, List.Forall₂ (MqPublisher.Publishes P)
        p.publisher.pub.client.published tasks ∧
      p.publisher.pub.handed.Sublist tasks ∧
      (tasks ++ p.publisher.pub.queue).Sublist
        (p.hub.server.effects.filterMap Effect.task?) ∧
      ∀ task ∈ tasks, ∃ uid, task.actor? = some uid ∧ p.hub.LoggedIn P cfg uid := by
  intro p
  have hrecorded : p.Recorded := Machine.run_of_step (recorded_step P cfg) rfl hadm
  obtain ⟨hpublisher, hlast⟩ := publisher_run (scripted_initial cfg) hadm
  have hwired : MqPublisher.Wired P p.publisher.pub := by
    rw [show p.publisher = _ from hlast.symm]
    exact Machine.run_of_step (MqPublisher.Life.wired_step P cfg)
      (MqPublisher.wired_initial P cfg) hpublisher
  obtain ⟨hserver, hend⟩ := hub_run (scripted_initial cfg) hadm
  have hattributed : p.hub.Attributed P cfg := by
    rw [show p.hub = _ from hend.symm]
    exact Machine.run_of_step (Hub.attributed_step P cfg)
      (Hub.attributed_initial P cfg) hserver
  obtain ⟨tasks, hcalls, hconfirmed, horder⟩ := hwired
  rw [show p.publisher.pub.accepted = _ from hrecorded] at horder
  have hshort : (tasks ++ p.publisher.pub.queue).Sublist
      (p.hub.server.effects.filterMap Effect.task?) :=
    ((List.sublist_append_left tasks _).append_right _).trans horder
  refine ⟨tasks, hcalls, hconfirmed, hshort, fun task htask => ?_⟩
  have hmem := hshort.subset (List.mem_append_left _ htask)
  obtain ⟨effect, heffect, heq⟩ := List.mem_filterMap.mp hmem
  cases effect with
  | enqueued other =>
      obtain rfl : other = task := Option.some.inj heq
      exact hattributed.actors other heffect
  | _ => contradiction

namespace ProgramWitness

open Hub.HubWitness (cfg)

theorem wire_in_order_day :
    let p := (machine platform cfg).run (initial cfg) day
    ∃ tasks, List.Forall₂ (MqPublisher.Publishes platform)
        p.publisher.pub.client.published tasks ∧
      p.publisher.pub.handed.Sublist tasks ∧
      (tasks ++ p.publisher.pub.queue).Sublist
        (p.hub.server.effects.filterMap Effect.task?) ∧
      ∀ task ∈ tasks, ∃ uid, task.actor? = some uid ∧
        p.hub.LoggedIn platform cfg uid :=
  wire_in_order platform cfg day admissible_day

end ProgramWitness

end Program

end FlzChat
