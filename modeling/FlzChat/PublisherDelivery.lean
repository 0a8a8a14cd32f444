/-
What becomes of an accepted task.  The thread takes a task off the queue
before it knows whether the broker can be reached and never puts it back, so
a task survives exactly the iterations whose broker calls all succeed.
-/
import FlzChat.Publisher

namespace FlzChat

namespace MqPublisher

/-- Every accepted task is in the queue, held by the current iteration, or
handed to the broker. -/
def NothingLost (pub : MqPublisher) : Prop :=
  pub.accepted.Subperm (pub.handed ++ pub.held.toList ++ pub.queue)

/-- The broker calls of the step succeed: the set-up of a publisher that is
not connected, and the publication of the held task. -/
def BrokerAccepts (P : Platform) (pub : MqPublisher) : Event → Prop
  | .publish _ => True
  | .dequeue => True
  | .connect replies =>
      pub.client.connected = true ∨ ∀ call ∈ setupCalls, replies call = true
  | .send replies clock msgId =>
      ∀ task ∈ pub.held, replies (publishCall P clock msgId task) = true

/-- No task appears from nowhere. -/
def Accounted (pub : MqPublisher) : Prop :=
  pub.handed.length + pub.held.toList.length + pub.queue.length ≤
    pub.accepted.length

/-- The declarations of a publisher are the last seven calls of its set-up. -/
theorem requests_declareForPublisher (replies : Replies) :
    AmqpClient.Requests replies (setupCalls.drop 5)
      (AmqpClient.declareForPublisher replies) := by
  intro client hconnected
  have hbusiness := AmqpClient.requests_requestAll replies
    [AmqpClient.businessExchange] client hconnected
  simp only [AmqpClient.declareForPublisher, AmqpClient.declareBusinessExchange]
  split
  · next heq =>
      rw [heq] at hbusiness
      refine ⟨?_, hbusiness.2⟩
      have hfalse : replies AmqpClient.businessExchange = false := by
        simpa using hbusiness.1.symm
      simp [setupCalls, hfalse]
  · next next heq =>
      rw [heq] at hbusiness
      have htrue : replies AmqpClient.businessExchange = true := by
        simpa using hbusiness.1.symm
      have htopology := AmqpClient.requests_requestAll replies
        AmqpClient.chatTopology next hbusiness.2
      rw [AmqpClient.declareChatTopology]
      refine ⟨?_, htopology.2⟩
      rw [htopology.1]
      simp [setupCalls, htrue]

/-- The steps of `EnsureConnected` after `Connect`, with their calls. -/
theorem requests_setup (replies : Replies) :
    ∀ step ∈ [([AmqpCall.channelOpen], AmqpClient.openChannel replies 0),
      (setupCalls.drop 5, AmqpClient.declareForPublisher replies)],
      AmqpClient.Requests replies step.1 step.2 := by
  simpa using ⟨AmqpClient.requests_openChannel replies 0,
    requests_declareForPublisher replies⟩

theorem ensureConnected_fst_iff (replies : Replies) (client : AmqpClient)
    (metrics : ChatMetrics) :
    (ensureConnected replies client metrics).1 = true ↔
      client.connected = true ∨ ∀ call ∈ setupCalls, replies call = true := by
  have hfst := AmqpClient.ensureConnected_fst (lit "publisher")
    (requests_setup replies) client metrics
  rw [show (ensureConnected replies client metrics).1 =
    (client.connected || setupCalls.all replies) from hfst]
  simp only [Bool.or_eq_true, List.all_eq_true]

/-- Whether the thread's next move keeps the held task. -/
theorem connectStep_held (P : Platform) (cfg : ChatConfig) (replies : Replies)
    {task : Task} {pub : MqPublisher} (hheld : pub.held = some task) :
    (pub.connectStep cfg replies task).queue = pub.queue ∧
      (pub.connectStep cfg replies task).handed = pub.handed ∧
      (pub.connectStep cfg replies task).accepted = pub.accepted ∧
      (BrokerAccepts P pub (.connect replies) →
        (pub.connectStep cfg replies task).held = some task) ∧
      (¬ BrokerAccepts P pub (.connect replies) →
        (pub.connectStep cfg replies task).held = none) := by
  have hiff : (ensureConnected replies pub.client pub.metrics).1 = true ↔
      BrokerAccepts P pub (.connect replies) :=
    ensureConnected_fst_iff replies pub.client pub.metrics
  rw [← hiff]
  simp only [connectStep]
  split
  · next heq => simp [heq]
  · next heq => simp [heq, hheld]

theorem sendStep_handed (P : Platform) (replies : Replies) (clock : Clock)
    (msgId : StdString) {task : Task} {pub : MqPublisher}
    (hheld : pub.held = some task) :
    (pub.sendStep P replies clock msgId task).queue = pub.queue ∧
      (pub.sendStep P replies clock msgId task).accepted = pub.accepted ∧
      (pub.sendStep P replies clock msgId task).held = none ∧
      (BrokerAccepts P pub (.send replies clock msgId) →
        (pub.sendStep P replies clock msgId task).handed = pub.handed ++ [task]) ∧
      (¬ BrokerAccepts P pub (.send replies clock msgId) →
        (pub.sendStep P replies clock msgId task).handed = pub.handed) := by
  have hfst := AmqpClient.requestAll_fst replies [publishCall P clock msgId task]
    pub.client
  have hiff : BrokerAccepts P pub (.send replies clock msgId) ↔
      replies (publishCall P clock msgId task) = true := by
    simp [BrokerAccepts, hheld]
  rw [hiff]
  simp only [sendStep]
  split
  · next heq =>
      rw [heq] at hfst
      have : replies (publishCall P clock msgId task) = false := by
        simpa using hfst.symm
      simp [this]
  · next heq =>
      rw [heq] at hfst
      have : replies (publishCall P clock msgId task) = true := by
        simpa using hfst.symm
      simp [this]

/-- What one step does to the three places a task can be in. -/
theorem machine_step_places (P : Platform) (cfg : ChatConfig) (pub : MqPublisher)
    (e : Event) (henabled : (machine P cfg).enabled pub e) :
    let next := (machine P cfg).step pub e
    (BrokerAccepts P pub e →
      ∃ new, next.accepted = pub.accepted ++ new ∧
        next.handed ++ next.held.toList ++ next.queue =
          pub.handed ++ pub.held.toList ++ pub.queue ++ new) ∧
    (¬ BrokerAccepts P pub e →
      next.accepted = pub.accepted ∧
        (next.handed ++ next.held.toList ++ next.queue).length + 1 =
          (pub.handed ++ pub.held.toList ++ pub.queue).length) := by
  cases e with
  | publish task =>
      refine ⟨fun _ => ?_, fun hnot => absurd trivial hnot⟩
      change ∃ new, (pub.publish cfg task).2.accepted = _ ∧
        (pub.publish cfg task).2.handed ++ (pub.publish cfg task).2.held.toList ++
          (pub.publish cfg task).2.queue = _
      simp only [publish, enqueue]
      split_ifs with hfull
      · exact ⟨[], by simp, by simp⟩
      · exact ⟨[task], rfl, by simp⟩
  | dequeue =>
      refine ⟨fun _ => ⟨[], ?_, ?_⟩, fun hnot => absurd trivial hnot⟩
      · change (pub.dequeue).accepted = _
        simp only [dequeue]
        split <;> simp
      · have hheld : pub.held = none := henabled
        change (pub.dequeue).handed ++ (pub.dequeue).held.toList ++
          (pub.dequeue).queue = _
        simp only [dequeue]
        split
        · simp
        · next heq => simp [heq, hheld]
  | connect replies =>
      obtain ⟨task, hheld⟩ := Option.isSome_iff_exists.mp henabled.1
      obtain ⟨hqueue, hhanded, haccepted, hkept, hdropped⟩ :=
        connectStep_held P cfg replies hheld
      simp only [machine, hheld, hqueue, hhanded, haccepted]
      refine ⟨fun hok => ⟨[], by simp, by simp [hkept hok]⟩, fun hnot => ⟨trivial, ?_⟩⟩
      simp only [hdropped hnot, Option.toList_none, Option.toList_some,
        List.length_append, List.length_nil, List.length_cons]
      omega
  | send replies clock msgId =>
      obtain ⟨task, hheld⟩ := Option.isSome_iff_exists.mp henabled.1
      obtain ⟨hqueue, haccepted, hnone, hgiven, hdropped⟩ :=
        sendStep_handed P replies clock msgId hheld
      simp only [machine, hheld, hqueue, haccepted, hnone]
      refine ⟨fun hok => ⟨[], by simp, by simp [hgiven hok]⟩, fun hnot => ⟨trivial, ?_⟩⟩
      simp only [hdropped hnot, Option.toList_none, Option.toList_some,
        List.length_append, List.length_nil, List.length_cons]
      omega

theorem accounted_step (P : Platform) (cfg : ChatConfig) (pub : MqPublisher)
    (e : Event) (hpub : Accounted pub)
    (henabled : (machine P cfg).enabled pub e) :
    Accounted ((machine P cfg).step pub e) := by
  obtain ⟨haccepts, hrefuses⟩ := machine_step_places P cfg pub e henabled
  unfold Accounted at hpub ⊢
  by_cases hok : BrokerAccepts P pub e
  · obtain ⟨new, haccepted, hplaces⟩ := haccepts hok
    have hlength := congrArg List.length hplaces
    simp only [List.length_append] at hlength
    rw [haccepted, List.length_append]
    omega
  · obtain ⟨haccepted, hlength⟩ := hrefuses hok
    simp only [List.length_append] at hlength
    rw [haccepted]
    omega

/-- Along every run of callers and the thread, nothing is lost exactly when
no iteration that holds a task meets a failing broker call. -/
theorem nothingLost_iff_brokerAccepts (P : Platform) (cfg : ChatConfig)
    (es : List Event) (hadm : (machine P cfg).Admissible (initial cfg) es) :
    (machine P cfg).Always NothingLost (initial cfg) es ↔
      (machine P cfg).Each (BrokerAccepts P) (initial cfg) es := by
  refine Machine.always_iff_each (accounted_step P cfg) ?_ ?_ ?_ ?_ hadm
  · intro pub e _ hkept henabled hok
    obtain ⟨new, haccepted, hplaces⟩ :=
      (machine_step_places P cfg pub e henabled).1 hok
    unfold NothingLost at hkept ⊢
    rw [haccepted, hplaces]
    exact (List.subperm_append_right new).mpr hkept
  · intro pub e hpub _ henabled hfail hkept
    obtain ⟨haccepted, hlength⟩ :=
      (machine_step_places P cfg pub e henabled).2 hfail
    have hle := hkept.length_le
    rw [haccepted] at hle
    simp only [Accounted] at hpub
    simp only [List.length_append] at hle hlength
    omega
  · simp [Accounted, initial]
  · simp [NothingLost, initial]

namespace MqPublisherWitness

def platform : Platform :=
  Platform.ofTables [] [] [] []

def clock : Clock := ⟨0, 0, []⟩

/-- A caller queues a presence event; the thread takes it and finds the broker
up. -/
def delivered : List Event :=
  [.publish (userOnlineTask 7), .dequeue, .connect (fun _ => true),
    .send (fun _ => true) clock (lit "m1")]

/-- The same with the broker down. -/
def dropped : List Event :=
  [.publish (userOnlineTask 7), .dequeue, .connect (fun _ => false)]

theorem nothingLost_delivered :
    (machine platform {}).Always NothingLost (initial {}) delivered :=
  (nothingLost_iff_brokerAccepts platform {} delivered
    ⟨trivial, rfl, ⟨rfl, rfl⟩, ⟨rfl, rfl⟩, trivial⟩).mpr
    ⟨trivial, trivial, Or.inr fun _ _ => rfl, fun _ _ => rfl, trivial⟩

theorem not_always_nothingLost :
    ¬ ∀ (P : Platform) (cfg : ChatConfig) (es : List Event),
      (machine P cfg).Admissible (initial cfg) es →
        (machine P cfg).Always NothingLost (initial cfg) es := by
  intro hall
  have hlost := hall platform {} dropped ⟨trivial, rfl, ⟨rfl, rfl⟩, trivial⟩
  have hle : 1 ≤ 0 := hlost.2.2.2.length_le
  exact absurd hle (by decide)

end MqPublisherWitness

end MqPublisher

end FlzChat
