/-
The publisher's books: every call of `Publish` is in the queue, in the hands of
the thread, or counted once as ok or as failed, and tasks reach the broker in
the order they were accepted in.
-/
import FlzChat.PublisherDelivery

namespace FlzChat

namespace MqPublisher

/-- The call is of `Publish` with that routing key. -/
def Event.publishes (routingKey : StdString) : Event → Bool
  | publish task => task.routingKey = routingKey
  | _ => false

/-- How often `Publish` was called with the routing key. -/
def callsOf (routingKey : StdString) (es : List Event) : Nat :=
  es.countP (Event.publishes routingKey)

/-- The count of `IncMqPublish` under a routing key and a result. -/
def published (pub : MqPublisher) (routingKey result : StdString) : UInt64 :=
  pub.metrics.mqPublish.count (routingKey ++ lit "|" ++ result)

/-- How many tasks of the list have the routing key. -/
def tasksOf (routingKey : StdString) (tasks : List Task) : Nat :=
  tasks.countP fun task => task.routingKey = routingKey

theorem callsOf_cons (routingKey : StdString) (e : Event) (es : List Event) :
    callsOf routingKey (e :: es) =
      callsOf routingKey es + if e.publishes routingKey = true then 1 else 0 :=
  List.countP_cons

theorem tasksOf_cons (routingKey : StdString) (task : Task)
    (tasks : List Task) :
    tasksOf routingKey (task :: tasks) =
      tasksOf routingKey tasks +
        if task.routingKey = routingKey then 1 else 0 := by
  simp only [tasksOf, List.countP_cons, decide_eq_true_eq]

theorem tasksOf_append (routingKey : StdString) (l l' : List Task) :
    tasksOf routingKey (l ++ l') = tasksOf routingKey l + tasksOf routingKey l' :=
  List.countP_append

/-- `ok` and `fail` have been counted, and with what waits they make up `n`. -/
def Books (routingKey : StdString) (n : Nat) (pub : MqPublisher) : Prop :=
  ∃ ok fail, pub.published routingKey (lit "ok") = UInt64.ofNat ok ∧
    pub.published routingKey (lit "fail") = UInt64.ofNat fail ∧
    n = ok + fail + tasksOf routingKey (pub.held.toList ++ pub.queue)

/-! The labels of `IncMqPublish`. -/

theorem label_result_inj {routingKey routingKey' : StdString} :
    routingKey ++ lit "|" ++ lit "ok" ≠ routingKey' ++ lit "|" ++ lit "fail" := by
  intro heq
  have := congrArg List.getLast? heq
  rw [List.getLast?_append_of_ne_nil _ (by decide),
    List.getLast?_append_of_ne_nil _ (by decide)] at this
  exact absurd this (by decide)

theorem label_eq_iff {routingKey routingKey' result : StdString} :
    routingKey ++ lit "|" ++ result = routingKey' ++ lit "|" ++ result ↔
      routingKey = routingKey' := by
  simp

/-- Counting a task as ok. -/
theorem count_incMqPublish_ok (m : ChatMetrics) (counted routingKey : StdString) :
    let m' := m.incMqPublish counted (lit "ok")
    m'.mqPublish.count (routingKey ++ lit "|" ++ lit "ok") =
        m.mqPublish.count (routingKey ++ lit "|" ++ lit "ok") +
          (if counted = routingKey then 1 else 0) ∧
      m'.mqPublish.count (routingKey ++ lit "|" ++ lit "fail") =
        m.mqPublish.count (routingKey ++ lit "|" ++ lit "fail") := by
  simp only [ChatMetrics.incMqPublish, Counter.count_increment, label_eq_iff,
    if_neg label_result_inj.symm, and_true]
  by_cases heq : counted = routingKey
  · simp [heq]
  · have hother : ¬ routingKey = counted := fun h => heq h.symm
    simp [heq, hother]

/-- Counting a task as failed. -/
theorem count_incMqPublish_fail (m : ChatMetrics)
    (counted routingKey : StdString) :
    let m' := m.incMqPublish counted (lit "fail")
    m'.mqPublish.count (routingKey ++ lit "|" ++ lit "ok") =
        m.mqPublish.count (routingKey ++ lit "|" ++ lit "ok") ∧
      m'.mqPublish.count (routingKey ++ lit "|" ++ lit "fail") =
        m.mqPublish.count (routingKey ++ lit "|" ++ lit "fail") +
          (if counted = routingKey then 1 else 0) := by
  simp only [ChatMetrics.incMqPublish, Counter.count_increment, label_eq_iff,
    if_neg label_result_inj, true_and]
  by_cases heq : counted = routingKey
  · simp [heq]
  · have hother : ¬ routingKey = counted := fun h => heq h.symm
    simp [heq, hother]

/-- Connecting counts reconnects only. -/
theorem ensureConnected_mqPublish (replies : Replies) (client : AmqpClient)
    (metrics : ChatMetrics) :
    (ensureConnected replies client metrics).2.2.mqPublish =
      metrics.mqPublish := by
  simp only [ensureConnected, AmqpClient.ensureConnected]
  split_ifs
  · rfl
  · split
    · rfl
    · split <;> rfl

/-! One entry in the books for each step. -/

section

variable {routingKey : StdString} {n : Nat} {pub pub' : MqPublisher}

/-- The thread gives up the task it holds. -/
theorem Books.fail {task : Task} (hbooks : Books routingKey n pub)
    (hheld : pub.held = some task) (hheld' : pub'.held = none)
    (hqueue : pub'.queue = pub.queue)
    (hmetrics : pub'.metrics.mqPublish =
      (pub.metrics.incMqPublish task.routingKey (lit "fail")).mqPublish) :
    Books routingKey n pub' := by
  obtain ⟨ok, fail, hok, hfail, hn⟩ := hbooks
  obtain ⟨hkept, hcounted⟩ :=
    count_incMqPublish_fail pub.metrics task.routingKey routingKey
  rw [hheld, Option.toList_some, List.singleton_append, tasksOf_cons] at hn
  refine ⟨ok, fail + if task.routingKey = routingKey then 1 else 0, ?_, ?_, ?_⟩
  · rw [published, hmetrics, hkept]
    exact hok
  · rw [published, hmetrics, hcounted]
    rw [published] at hfail
    rw [hfail]
    split_ifs <;> simp
  · rw [hheld', hqueue, Option.toList_none, List.nil_append]
    omega

/-- The broker takes the task the thread holds. -/
theorem Books.ok {task : Task} (hbooks : Books routingKey n pub)
    (hheld : pub.held = some task) (hheld' : pub'.held = none)
    (hqueue : pub'.queue = pub.queue)
    (hmetrics : pub'.metrics.mqPublish =
      (pub.metrics.incMqPublish task.routingKey (lit "ok")).mqPublish) :
    Books routingKey n pub' := by
  obtain ⟨ok, fail, hok, hfail, hn⟩ := hbooks
  obtain ⟨hcounted, hkept⟩ :=
    count_incMqPublish_ok pub.metrics task.routingKey routingKey
  rw [hheld, Option.toList_some, List.singleton_append, tasksOf_cons] at hn
  refine ⟨ok + if task.routingKey = routingKey then 1 else 0, fail, ?_, ?_, ?_⟩
  · rw [published, hmetrics, hcounted]
    rw [published] at hok
    rw [hok]
    split_ifs <;> simp
  · rw [published, hmetrics, hkept]
    exact hfail
  · rw [hheld', hqueue, Option.toList_none, List.nil_append]
    omega

/-- A step that counts nothing and moves no task in or out. -/
theorem Books.keep (hbooks : Books routingKey n pub)
    (hplaces : pub'.held.toList ++ pub'.queue = pub.held.toList ++ pub.queue)
    (hmetrics : pub'.metrics.mqPublish = pub.metrics.mqPublish) :
    Books routingKey n pub' := by
  obtain ⟨ok, fail, hok, hfail, hn⟩ := hbooks
  refine ⟨ok, fail, ?_, ?_, ?_⟩
  · rw [published, hmetrics]
    exact hok
  · rw [published, hmetrics]
    exact hfail
  · rw [hplaces]
    exact hn

/-- A call of `Publish` is queued or counted as failed. -/
theorem Books.publish (hbooks : Books routingKey n pub) (cfg : ChatConfig)
    (task : Task) :
    Books routingKey (n + if task.routingKey = routingKey then 1 else 0)
      (pub.publish cfg task).2 := by
  obtain ⟨ok, fail, hok, hfail, hn⟩ := hbooks
  simp only [MqPublisher.publish, enqueue]
  by_cases hfull :
      toSizeT cfg.rabbitmq.publisherQueueCapacity ≤ pub.queue.length
  · obtain ⟨hkept, hcounted⟩ :=
      count_incMqPublish_fail pub.metrics task.routingKey routingKey
    simp only [hfull, if_true]
    refine ⟨ok, fail + if task.routingKey = routingKey then 1 else 0, ?_, ?_, ?_⟩
    · exact hkept.trans hok
    · refine hcounted.trans ?_
      rw [published] at hfail
      rw [hfail]
      split_ifs <;> simp
    · simp only
      omega
  · simp only [hfull, if_false]
    refine ⟨ok, fail, hok, hfail, ?_⟩
    have hlast := tasksOf_cons routingKey task []
    rw [← List.append_assoc, tasksOf_append, hlast, hn]
    simp only [tasksOf, List.countP_nil]
    omega

end

theorem books_initial (routingKey : StdString) (cfg : ChatConfig) :
    Books routingKey 0 (initial cfg) :=
  ⟨0, 0, rfl, rfl, rfl⟩

/-- Each step keeps the books, with one more call if it is a `Publish`. -/
theorem Books.step {routingKey : StdString} {n : Nat} {pub : MqPublisher}
    (hbooks : Books routingKey n pub) {P : Platform} {cfg : ChatConfig}
    {e : Event} (henabled : (machine P cfg).enabled pub e) :
    Books routingKey (n + if e.publishes routingKey = true then 1 else 0)
      ((machine P cfg).step pub e) := by
  cases e with
  | publish task =>
      simp only [Event.publishes, decide_eq_true_eq]
      exact hbooks.publish cfg task
  | dequeue =>
      have hheld : pub.held = none := henabled
      change Books routingKey n _
      apply hbooks.keep
      · simp only [machine, dequeue]
        split
        · rfl
        · next heq => simp [heq, hheld]
      · simp only [machine, dequeue]
        split <;> rfl
  | connect replies =>
      obtain ⟨task, hheld⟩ := Option.isSome_iff_exists.mp henabled.1
      have hmetrics := ensureConnected_mqPublish replies pub.client pub.metrics
      change Books routingKey n _
      simp only [machine, hheld, connectStep]
      split
      · next heq =>
          rw [heq] at hmetrics
          apply hbooks.fail hheld
          · rfl
          · rfl
          · simp only [ChatMetrics.incMqPublish]
            rw [hmetrics]
      · next heq =>
          rw [heq] at hmetrics
          exact hbooks.keep (by rw [hheld]) hmetrics
  | send replies clock msgId =>
      obtain ⟨task, hheld⟩ := Option.isSome_iff_exists.mp henabled.1
      change Books routingKey n _
      simp only [machine, hheld, sendStep]
      split
      · exact hbooks.fail hheld rfl rfl rfl
      · exact hbooks.ok hheld rfl rfl rfl

theorem Books.run {routingKey : StdString} {n : Nat} {pub : MqPublisher}
    (hbooks : Books routingKey n pub) {P : Platform} {cfg : ChatConfig}
    {es : List Event} (hadm : (machine P cfg).Admissible pub es) :
    Books routingKey (n + callsOf routingKey es) ((machine P cfg).run pub es) := by
  induction es generalizing n pub with
  | nil => exact hbooks
  | cons e es ih =>
      have hnext := ih (hbooks.step hadm.1) hadm.2
      rw [callsOf_cons, Nat.add_comm (callsOf routingKey es), ← Nat.add_assoc]
      exact hnext

/-! The length of the queue and the order of the tasks. -/

/-- The queue is within its capacity; what has been handed over, is held or
waits stands in the order it was accepted in. -/
structure InOrder (cfg : ChatConfig) (pub : MqPublisher) : Prop where
  length : pub.queue.length ≤ toSizeT cfg.rabbitmq.publisherQueueCapacity
  order : (pub.handed ++ pub.held.toList ++ pub.queue).Sublist pub.accepted

theorem inOrder_initial (cfg : ChatConfig) : InOrder cfg (initial cfg) :=
  ⟨Nat.zero_le _, List.Sublist.refl _⟩

theorem inOrder_step (P : Platform) (cfg : ChatConfig) (pub : MqPublisher)
    (e : Event) (horder : InOrder cfg pub)
    (henabled : (machine P cfg).enabled pub e) :
    InOrder cfg ((machine P cfg).step pub e) := by
  obtain ⟨hlength, horder⟩ := horder
  cases e with
  | publish task =>
      simp only [machine, publish, enqueue]
      split_ifs with hfull
      · exact ⟨hlength, horder⟩
      · refine ⟨?_, ?_⟩
        · simp only [List.length_append, List.length_singleton]
          omega
        · simp only
          rw [← List.append_assoc]
          exact horder.append (List.Sublist.refl [task])
  | dequeue =>
      have hheld : pub.held = none := henabled
      simp only [machine, dequeue]
      split
      · exact ⟨hlength, horder⟩
      · next task queue heq =>
          rw [heq] at hlength horder
          refine ⟨Nat.le_of_succ_le hlength, ?_⟩
          simpa [hheld] using horder
  | connect replies =>
      obtain ⟨task, hheld⟩ := Option.isSome_iff_exists.mp henabled.1
      obtain ⟨hqueue, hhanded, haccepted, hkept, hdropped⟩ :=
        connectStep_held P cfg replies hheld
      simp only [machine, hheld]
      refine ⟨by rw [hqueue]; exact hlength, ?_⟩
      rw [hqueue, hhanded, haccepted]
      rw [hheld] at horder
      by_cases hok : BrokerAccepts P pub (.connect replies)
      · rw [hkept hok]
        exact horder
      · rw [hdropped hok]
        exact (((List.nil_sublist [task]).append_left pub.handed).append_right
          pub.queue).trans horder
  | send replies clock msgId =>
      obtain ⟨task, hheld⟩ := Option.isSome_iff_exists.mp henabled.1
      obtain ⟨hqueue, haccepted, hnone, hgiven, hdropped⟩ :=
        sendStep_handed P replies clock msgId hheld
      simp only [machine, hheld]
      refine ⟨by rw [hqueue]; exact hlength, ?_⟩
      rw [hqueue, haccepted, hnone]
      rw [hheld] at horder
      by_cases hok : BrokerAccepts P pub (.send replies clock msgId)
      · rw [hgiven hok]
        simpa using horder
      · rw [hdropped hok]
        exact (((List.nil_sublist [task]).append_left pub.handed).append_right
          pub.queue).trans horder

/-- Between two iterations every call of `Publish` is counted once or waits in
the queue (the counters count modulo `2 ^ 64`), the queue is within its
capacity, and what the broker has been handed was accepted in that order. -/
theorem accounts_balance (P : Platform) (cfg : ChatConfig) (es : List Event)
    (hadm : (machine P cfg).Admissible (initial cfg) es)
    (hbetween : ((machine P cfg).run (initial cfg) es).held = none) :
    let pub := (machine P cfg).run (initial cfg) es
    (∀ routingKey,
      UInt64.ofNat (callsOf routingKey es) =
          pub.published routingKey (lit "ok") +
            pub.published routingKey (lit "fail") +
            UInt64.ofNat (tasksOf routingKey pub.queue) ∧
        (callsOf routingKey es < 2 ^ 64 →
          callsOf routingKey es =
            (pub.published routingKey (lit "ok")).toNat +
              (pub.published routingKey (lit "fail")).toNat +
              tasksOf routingKey pub.queue)) ∧
      (0 ≤ cfg.rabbitmq.publisherQueueCapacity.toInt →
        (pub.queue.length : Int) ≤
          cfg.rabbitmq.publisherQueueCapacity.toInt) ∧
      pub.handed.Sublist pub.accepted := by
  intro pub
  have horder := Machine.run_of_step (inOrder_step P cfg) (inOrder_initial cfg)
    hadm
  refine ⟨fun routingKey => ?_, fun hcapacity => ?_, ?_⟩
  · obtain ⟨ok, fail, hok, hfail, hn⟩ := (books_initial routingKey cfg).run hadm
    rw [hbetween, Nat.zero_add, Option.toList_none, List.nil_append] at hn
    constructor
    · rw [hok, hfail, hn]
      simp only [pub, UInt64.ofNat_add]
    · intro hlt
      rw [hok, hfail, UInt64.toNat_ofNat_of_lt', UInt64.toNat_ofNat_of_lt']
      · exact hn
      · change fail < 2 ^ 64
        omega
      · change ok < 2 ^ 64
        omega
  · have hlength := horder.length
    rw [toSizeT_of_nonneg hcapacity] at hlength
    exact Int.le_toNat hcapacity |>.mp hlength
  · exact ((List.sublist_append_left _ _).trans
      (List.sublist_append_left _ _)).trans horder.order

namespace AccountingWitness

open MqPublisherWitness (platform clock)

/-- Two calls, the broker takes the first task and the second waits. -/
def calls : List Event :=
  [.publish (userOnlineTask 7), .publish (userOnlineTask 8), .dequeue,
    .connect (fun _ => true), .send (fun _ => true) clock (lit "m1")]

theorem accounts_balance_calls :
    callsOf (lit "business.user.online") calls =
      ((((machine platform {}).run (initial {}) calls).published
          (lit "business.user.online") (lit "ok")).toNat +
        (((machine platform {}).run (initial {}) calls).published
          (lit "business.user.online") (lit "fail")).toNat +
        tasksOf (lit "business.user.online")
          ((machine platform {}).run (initial {}) calls).queue) :=
  ((accounts_balance platform {} calls
    ⟨trivial, trivial, rfl, ⟨rfl, rfl⟩, ⟨rfl, rfl⟩, trivial⟩
    (by decide +kernel)).1 (lit "business.user.online")).2 (by decide +kernel)

end AccountingWitness

end MqPublisher

end FlzChat
