/-
Duplicates, over every start and stop of the consumer.  A message is handed to
the handler again only when its mark has expired or so many others have come
since that the cache has dropped it.
-/
import FlzChat.ConsumerDelivery
import FlzChat.Lifecycle
import FlzChat.SlidingWindow

namespace FlzChat

namespace LruIdempotencyCache

/-- Newest first, two marks of a key are a ttl apart or have `capacity` others
between them. -/
def Spaced (capacity : Nat) (ttlMs : Int) (marks : List (StdString × Int)) :
    Prop :=
  ∀ newer between older key t t',
    marks = newer ++ (key, t') :: (between ++ (key, t) :: older) →
      t + ttlMs ≤ t' ∨ capacity ≤ between.length

theorem spaced_nil (capacity : Nat) (ttlMs : Int) : Spaced capacity ttlMs [] := by
  intro newer between older key t t' hsplit
  simp at hsplit

theorem Spaced.cons {capacity : Nat} {ttlMs : Int}
    {marks : List (StdString × Int)} (hspaced : Spaced capacity ttlMs marks)
    {key : StdString} {nowMs : Int}
    (hfar : ∀ between older t, marks = between ++ (key, t) :: older →
      t + ttlMs ≤ nowMs ∨ capacity ≤ between.length) :
    Spaced capacity ttlMs ((key, nowMs) :: marks) := by
  intro newer between older key' t t' hsplit
  cases newer with
  | nil =>
      rw [List.nil_append, List.cons.injEq, Prod.mk.injEq] at hsplit
      obtain ⟨⟨rfl, rfl⟩, hmarks⟩ := hsplit
      exact hfar between older t hmarks
  | cons first newer =>
      rw [List.cons_append, List.cons.injEq] at hsplit
      exact hspaced newer between older key' t t' hsplit.2

/-- A key is granted only when its earlier marks are far. -/
theorem Tracks.far_of_granted {c : LruIdempotencyCache}
    {marks : List (StdString × Int)} {last nowMs : Int}
    (htracks : Tracks c marks last) (hlast : last ≤ nowMs) {key : StdString}
    (hgranted : (c.tryMark key nowMs).1 = true) {between older : List (StdString × Int)}
    {t : Int} (hsplit : marks = between ++ (key, t) :: older) :
    t + c.ttlMs ≤ nowMs ∨ c.capacity ≤ between.length := by
  by_contra hnear
  rw [not_or, not_le, not_le] at hnear
  have hkey : key ≠ [] := by
    rintro rfl
    simp [LruIdempotencyCache.tryMark] at hgranted
  have hwindow : (key, t) ∈ marks.take c.capacity :=
    (mem_take_iff_split _ _ _).mpr ⟨between, older, hsplit, hnear.2⟩
  have hlive := (htracks.live_iff hlast key).mpr ⟨t, hwindow, hnear.1⟩
  rw [← tryMark_refuses_iff htracks.coherent htracks.bounded hkey, hgranted]
    at hlive
  contradiction

/-- What one call keeps of a spaced history. -/
theorem Tracks.spaced_tryMark {c : LruIdempotencyCache}
    {marks : List (StdString × Int)} {last nowMs : Int}
    (htracks : Tracks c marks last) (hlast : last ≤ nowMs)
    (hspaced : Spaced c.capacity c.ttlMs marks) (key : StdString) :
    Spaced c.capacity c.ttlMs
      (if (c.tryMark key nowMs).1 = true then (key, nowMs) :: marks else marks) := by
  split_ifs with hgranted
  · exact hspaced.cons fun _ _ _ hsplit =>
      htracks.far_of_granted hlast hgranted hsplit
  · exact hspaced

end LruIdempotencyCache

namespace MqConsumer

/-- The envelope an iteration presents to the cache. -/
def presented (P : Platform) (reply : ConsumeReply) (running : Bool) :
    Option Envelope :=
  if running = false then none
  else match reply with
    | .delivery d =>
        match envelopeFromString P d.body with
        | .ok (.ok env) => some env
        | _ => none
    | _ => none

/-- The cache changes by the mark of what is presented, and the handler is run
only on what is granted. -/
theorem consumeStep_marks (P : Platform) (replies : Replies)
    (reply : ConsumeReply) (running : Bool) (nowMs : Int)
    (answer : Option Invocation) (consumer : MqConsumer) :
    let after := (consumer.consumeStep P replies reply running nowMs answer).2
    match presented P reply running with
    | none => after.idempotency = consumer.idempotency ∧
        after.invocations = consumer.invocations
    | some env =>
        after.idempotency = (consumer.idempotency.tryMark env.msgId nowMs).2 ∧
          after.invocations = consumer.invocations ++
            if (consumer.idempotency.tryMark env.msgId nowMs).1 = true ∧
                consumer.hasHandler = true then [(env, answer)] else [] := by
  simp only [consumeStep, presented]
  by_cases hrunning : running = false
  · simp [hrunning]
  · simp only [hrunning]
    cases reply with
    | timeout => exact ⟨rfl, rfl⟩
    | failure => exact ⟨rfl, rfl⟩
    | delivery d =>
        simp only [handleDelivery]
        rcases envelopeFromString P d.body with thrown | text | env
        · exact ⟨rfl, rfl⟩
        · exact ⟨rfl, rfl⟩
        · simp only
          rcases hmark : consumer.idempotency.tryMark env.msgId nowMs with
            ⟨_ | _, idempotency⟩
          · simp [hmark]
          · cases consumer.hasHandler with
            | false => simp [dispatchToScheduler, settle, hmark]
            | true => simp [dispatchToScheduler, settle, hmark]

namespace Life

/-- The envelope an event presents to the cache, and when. -/
def presented? (P : Platform) (life : Life) : Event → Option (Envelope × Int)
  | .consume _ reply nowMs _ =>
      (presented P reply life.loop.running).map fun env => (env, nowMs)
  | _ => none

/-- The messages an event lets through to the handler, and when. -/
def granted (P : Platform) (life : Life) (e : Event) : List (StdString × Int) :=
  match life.presented? P e with
  | none => []
  | some (env, nowMs) =>
      if (life.consumer.idempotency.tryMark env.msgId nowMs).1 = true then
        [(env.msgId, nowMs)] else []

/-- The envelopes an event runs the handler on. -/
def invoked (P : Platform) (cfg : RabbitMqConfig) (life : Life) (e : Event) :
    List Envelope :=
  (((machine P cfg).step life e).consumer.invocations.drop
    life.consumer.invocations.length).map (·.1)

/-- The reading of the clock in an event. -/
def Event.reading? : Event → Option Int
  | .consume _ _ nowMs _ => some nowMs
  | _ => none

section

variable {P : Platform} {cfg : RabbitMqConfig} {life : Life}

/-- What an event does to the cache and the invocations. -/
theorem step_marks (P : Platform) (cfg : RabbitMqConfig) (life : Life)
    (e : Event) :
    let next := ((machine P cfg).step life e).consumer
    match life.presented? P e with
    | none => next.idempotency = life.consumer.idempotency ∧
        next.invocations = life.consumer.invocations
    | some (env, nowMs) =>
        next.idempotency = (life.consumer.idempotency.tryMark env.msgId nowMs).2 ∧
          ∃ answer, next.invocations = life.consumer.invocations ++
            if (life.consumer.idempotency.tryMark env.msgId nowMs).1 = true ∧
                life.consumer.hasHandler = true then [(env, answer)] else [] := by
  cases e with
  | start scheduler hasHandler =>
      simp only [presented?, machine, start]
      split_ifs <;> exact ⟨rfl, rfl⟩
  | connect replies =>
      simp only [presented?, machine, connectStep]
      split <;> exact ⟨rfl, rfl⟩
  | consume replies reply nowMs answer =>
      have hmarks := consumeStep_marks P replies reply life.loop.running nowMs
        answer life.consumer
      have hconsumer := (consume_cases P replies reply nowMs answer life).1
      simp only [presented?, machine, hconsumer]
      cases hpresented : presented P reply life.loop.running with
      | none =>
          rw [hpresented] at hmarks
          exact hmarks
      | some env =>
          rw [hpresented] at hmarks
          exact ⟨hmarks.1, answer, hmarks.2⟩
  | _ => exact ⟨rfl, rfl⟩

/-- The handler is run on what has been granted. -/
theorem invoked_sublist (P : Platform) (cfg : RabbitMqConfig) (life : Life)
    (e : Event) :
    ((invoked P cfg life e).map (·.msgId)).Sublist
      ((granted P life e).map (·.1)) := by
  have hmarks := step_marks P cfg life e
  rw [invoked, granted]
  cases hpresented : life.presented? P e with
  | none =>
      rw [hpresented] at hmarks
      simp [hmarks.2]
  | some one =>
      obtain ⟨env, nowMs⟩ := one
      rw [hpresented] at hmarks
      obtain ⟨_, answer, hinvocations⟩ := hmarks
      rw [hinvocations, List.drop_left]
      simp only
      by_cases hgranted :
          (life.consumer.idempotency.tryMark env.msgId nowMs).1 = true
      · simp only [hgranted, true_and, if_true]
        split_ifs
        · exact List.Sublist.refl _
        · exact List.nil_sublist _
      · simp [hgranted]

/-- The clock of an event presents at its reading. -/
theorem reading_of_presented {e : Event} {env : Envelope} {nowMs : Int}
    (hpresented : life.presented? P e = some (env, nowMs)) :
    e.reading? = some nowMs := by
  cases e with
  | consume replies reply at_ answer =>
      simp only [presented?, Option.map_eq_some_iff, Prod.mk.injEq] at hpresented
      obtain ⟨_, _, _, rfl⟩ := hpresented
      rfl
  | _ => contradiction

/-- The history of what has been granted is spaced. -/
theorem spaced_run {marks : List (StdString × Int)} {last : Int} {es : List Event}
    (htracks : life.consumer.idempotency.Tracks marks last)
    (hspaced : LruIdempotencyCache.Spaced life.consumer.idempotency.capacity
      life.consumer.idempotency.ttlMs marks)
    (hclock : (last :: es.filterMap Event.reading?).Pairwise (· ≤ ·)) :
    LruIdempotencyCache.Spaced life.consumer.idempotency.capacity
      life.consumer.idempotency.ttlMs (((machine P cfg).trace (granted P) life es).reverse ++ marks) := by
  induction es generalizing life marks last with
  | nil => exact hspaced
  | cons e es ih =>
      have hmarks := step_marks P cfg life e
      rw [Machine.trace, List.reverse_append, List.append_assoc]
      cases hpresented : life.presented? P e with
      | none =>
          rw [hpresented] at hmarks
          have hgranted : granted P life e = [] := by rw [granted, hpresented]
          have hlater : (last :: es.filterMap Event.reading?).Pairwise (· ≤ ·) := by
            refine List.Pairwise.sublist (List.Sublist.cons_cons last ?_) hclock
            cases hreading : e.reading? <;> simp [hreading]
          rw [hgranted, ← hmarks.1]
          rw [← hmarks.1] at htracks hspaced
          exact ih htracks hspaced hlater
      | some one =>
          obtain ⟨env, nowMs⟩ := one
          rw [hpresented] at hmarks
          have hreading := reading_of_presented hpresented
          rw [List.filterMap_cons_some hreading] at hclock
          obtain ⟨hfirst, hlater⟩ := List.pairwise_cons.mp hclock
          have hlast : last ≤ nowMs := hfirst nowMs List.mem_cons_self
          have hnext := htracks.tryMark hlast env.msgId
          have hstill := htracks.spaced_tryMark hlast hspaced env.msgId
          obtain ⟨hcapacity, httl⟩ :=
            life.consumer.idempotency.tryMark_settings env.msgId nowMs
          have hgranted : (granted P life e).reverse ++ marks =
              if (life.consumer.idempotency.tryMark env.msgId nowMs).1 = true then
                (env.msgId, nowMs) :: marks else marks := by
            rw [granted, hpresented]
            simp only
            split_ifs <;> rfl
          rw [hgranted, ← hcapacity, ← httl, ← hmarks.1]
          rw [← hcapacity, ← httl, ← hmarks.1] at hstill
          rw [← hmarks.1] at hnext
          exact ih hnext hstill hlater

theorem invoked_sublist_run (es : List Event) :
    (((machine P cfg).trace (invoked P cfg) life es).map (·.msgId)).Sublist
      (((machine P cfg).trace (granted P) life es).map (·.1)) := by
  rw [← Machine.trace_map, ← Machine.trace_map]
  exact Machine.trace_sublist (invoked_sublist P cfg)

end

/-- Two grants of a message are 24 hours apart or have 100000 others between
them. -/
theorem granted_far (P : Platform) (cfg : RabbitMqConfig) {es : List Event}
    (hclock : (es.filterMap Event.reading?).Pairwise (· ≤ ·))
    {older between newer : List (StdString × Int)} {msgId : StdString} {t t' : Int}
    (hsplit : (machine P cfg).trace (granted P) (initial cfg) es =
      older ++ (msgId, t) :: (between ++ (msgId, t') :: newer)) :
    t + 24 * 3600 * 1000 ≤ t' ∨ 100000 ≤ between.length := by
  -- before the first reading any time not after it will do
  obtain ⟨start, hstart⟩ : ∃ start : Int,
      ∀ nowMs ∈ es.filterMap Event.reading?, start ≤ nowMs := by
    cases hreadings : es.filterMap Event.reading? with
    | nil => exact ⟨0, by simp⟩
    | cons first rest =>
        rw [hreadings] at hclock
        refine ⟨first, fun nowMs hmem => ?_⟩
        rcases List.mem_cons.mp hmem with rfl | hmem
        · exact le_refl _
        · exact (List.pairwise_cons.mp hclock).1 nowMs hmem
  have hspaced : LruIdempotencyCache.Spaced 100000 (24 * 3600 * 1000)
      (((machine P cfg).trace (granted P) (initial cfg) es).reverse ++ []) :=
    spaced_run (LruIdempotencyCache.tracks_new 100000 (24 * 3600 * 1000) start)
      (LruIdempotencyCache.spaced_nil _ _)
      (List.pairwise_cons.mpr ⟨hstart, hclock⟩)
  have hreverse := congrArg List.reverse hsplit
  have hfar := hspaced newer.reverse between.reverse older.reverse msgId t t'
    (by simpa using hreverse)
  simpa using hfar

/-- However often the consumer is started and stopped: where the clock does not
go back, the handler is run only on what the cache grants, and a message is
granted again only after 24 hours or 100000 others. -/
theorem handled_once_in_window (P : Platform) (cfg : RabbitMqConfig)
    (es : List Event) (hclock : (es.filterMap Event.reading?).Pairwise (· ≤ ·)) :
    let record := (machine P cfg).trace (granted P) (initial cfg) es
    (((machine P cfg).trace (invoked P cfg) (initial cfg) es).map
        (·.msgId)).Sublist (record.map (·.1)) ∧
      ∀ older between newer msgId t t',
        record = older ++ (msgId, t) :: (between ++ (msgId, t') :: newer) →
          t + 24 * 3600 * 1000 ≤ t' ∨ 100000 ≤ between.length := by
  intro record
  exact ⟨invoked_sublist_run es,
    fun _ _ _ _ _ _ hsplit => granted_far P cfg hclock hsplit⟩

namespace HandledOnceWitness

open BrokerWitness (body platform)

/-- The same message twice, five milliseconds apart. -/
def twice : List Event :=
  [.start none true, .check, .connect fun _ => true,
    .consume (fun _ => true) (.delivery ⟨1, lit "chat.msg.send", body⟩) 0
      (some (.returned .nackRequeue)),
    .check, .connect fun _ => true,
    .consume (fun _ => true) (.delivery ⟨2, lit "chat.msg.send", body⟩) 5
      (some (.returned .ack))]

theorem handled_once_in_window_twice :
    (((machine platform {}).trace (invoked platform {}) (initial {}) twice).map
      (·.msgId)).Sublist
        (((machine platform {}).trace (granted platform) (initial {}) twice).map
          (·.1)) :=
  (handled_once_in_window platform {} twice (by decide)).1

end HandledOnceWitness

end Life

end MqConsumer

end FlzChat
