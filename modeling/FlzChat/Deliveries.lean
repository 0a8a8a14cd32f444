/-
From the broker to the sockets.  What the consumer lets through the server
handles, at once or late, and each message at most once within the window of the
cache; no frame reaches a socket but as an answer to it or because a message that
names its user has been delivered.
-/
import FlzChat.Parts

namespace FlzChat

def Hub.Event.envelope? : Hub.Event → Option Envelope
  | .envelope _ _ env => some env
  | _ => none

namespace MqConsumer.Life

/-- The message an event delivers. -/
def Event.body? : Event → Option StdString
  | .consume _ (.delivery d) _ _ => some d.body
  | _ => none

section

variable {P : Platform} {cfg : RabbitMqConfig} {life : Life}

/-- What is presented to the cache has been delivered. -/
theorem body_of_presented {e : Event} {env : Envelope} {nowMs : Int}
    (hpresented : life.presented? P e = some (env, nowMs)) :
    ∃ body, e.body? = some body ∧ envelopeFromString P body = .ok (.ok env) := by
  cases e with
  | consume replies reply at_ answer =>
      simp only [presented?, Option.map_eq_some_iff, Prod.mk.injEq] at hpresented
      obtain ⟨other, hother, rfl, _⟩ := hpresented
      cases reply with
      | delivery d =>
          refine ⟨d.body, rfl, ?_⟩
          simp only [presented] at hother
          split_ifs at hother
          split at hother
          · next env henv =>
              rw [henv, Option.some.inj hother]
          · contradiction
      | _ =>
          simp only [presented] at hother
          split_ifs at hother
  | _ => contradiction

/-- The handler calls of an event come after those before; there is at most one,
for the message the event delivers. -/
theorem invocations_step (P : Platform) (cfg : RabbitMqConfig) (life : Life)
    (e : Event) :
    let next := ((machine P cfg).step life e).consumer
    next.invocations = life.consumer.invocations ∨
      ∃ env answer body, e.body? = some body ∧
        envelopeFromString P body = .ok (.ok env) ∧
          next.invocations = life.consumer.invocations ++ [(env, answer)] := by
  intro next
  have hmarks := step_marks P cfg life e
  cases hpresented : life.presented? P e with
  | none =>
      rw [hpresented] at hmarks
      exact Or.inl hmarks.2
  | some one =>
      obtain ⟨env, nowMs⟩ := one
      rw [hpresented] at hmarks
      obtain ⟨_, answer, hinvocations⟩ := hmarks
      obtain ⟨body, hbody, henv⟩ := body_of_presented hpresented
      by_cases hlet : (life.consumer.idempotency.tryMark env.msgId nowMs).1 = true ∧
          life.consumer.hasHandler = true
      · rw [if_pos hlet] at hinvocations
        exact Or.inr ⟨env, answer, body, hbody, henv, hinvocations⟩
      · rw [if_neg hlet, List.append_nil] at hinvocations
        exact Or.inl hinvocations

/-- A grant is one of a delivery, at the reading of its clock. -/
theorem granted_spec (P : Platform) (life : Life) (e : Event) :
    ((granted P life e).map (·.2)).Sublist e.reading?.toList ∧
      (granted P life e).length ≤ e.body?.toList.length := by
  rw [granted]
  cases hpresented : life.presented? P e with
  | none => simp
  | some one =>
      obtain ⟨env, nowMs⟩ := one
      obtain ⟨body, hbody, _⟩ := body_of_presented hpresented
      rw [reading_of_presented hpresented, hbody]
      simp only
      split_ifs
      · exact ⟨List.Sublist.refl _, Nat.le_refl _⟩
      · exact ⟨List.nil_sublist _, Nat.zero_le _⟩

/-- Within 24 hours and 100000 deliveries no message is granted twice. -/
theorem granted_nodup (P : Platform) (cfg : RabbitMqConfig) {es : List Event}
    (hclock : (es.filterMap Event.reading?).Pairwise (· ≤ ·))
    (hday : ∀ t ∈ es.filterMap Event.reading?, ∀ t' ∈ es.filterMap Event.reading?,
      t' < t + 24 * 3600 * 1000)
    (hfew : (es.filterMap Event.body?).length ≤ 100000) :
    (((machine P cfg).trace (granted P) (initial cfg) es).map (·.1)).Nodup := by
  let record := (machine P cfg).trace (granted P) (initial cfg) es
  have htimes : (record.map (·.2)).Sublist (es.filterMap Event.reading?) := by
    rw [← Machine.trace_of_event Event.reading? (initial cfg) es,
      ← Machine.trace_map]
    exact Machine.trace_sublist fun life e => (granted_spec P life e).1
  have hlength : record.length ≤ 100000 := by
    refine Nat.le_trans (Machine.length_trace_le
      (fun life e => (granted_spec P life e).2) (initial cfg) es) ?_
    rw [Machine.trace_of_event]
    exact hfew
  have htime : ∀ one ∈ record, one.2 ∈ es.filterMap Event.reading? :=
    fun one hone => htimes.subset (List.mem_map_of_mem hone)
  change (record.map (·.1)).Nodup
  rw [List.Nodup, List.pairwise_map, List.pairwise_iff_forall_sublist]
  rintro ⟨msgId, t⟩ ⟨other, t'⟩ hsublist rfl
  obtain ⟨first, rest, hrecord, hfirst, hsecond⟩ := List.cons_sublist_iff.mp hsublist
  obtain ⟨older, skipped, rfl⟩ := List.append_of_mem hfirst
  obtain ⟨later, newer, rfl⟩ :=
    List.append_of_mem (List.singleton_sublist.mp hsecond)
  have hsplit : record = older ++ (msgId, t) ::
      ((skipped ++ later) ++ (msgId, t') :: newer) := by
    rw [hrecord]
    simp
  rcases granted_far P cfg hclock hsplit with hlate | hmany
  · have hnow := htime (msgId, t) (by rw [hsplit]; simp)
    have hlater := htime (msgId, t') (by rw [hsplit]; simp)
    have := hday t hnow t' hlater
    omega
  · rw [hsplit] at hlength
    simp only [List.length_append, List.length_cons] at hlength hmany
    omega

end

end MqConsumer.Life

namespace Program

/-- The move of the consumer's thread in an event. -/
def Event.move? : Event → Option MqConsumer.Life.Event
  | .consumer e _ _ => some e
  | _ => none

/-- The message an event delivers. -/
def Event.body? (e : Event) : Option StdString :=
  e.move?.bind MqConsumer.Life.Event.body?

/-- The clock of the cache in an event. -/
def Event.reading? (e : Event) : Option Int :=
  e.move?.bind MqConsumer.Life.Event.reading?

/-- The envelopes the consumer's thread lets through to the handler. -/
def letThrough (P : Platform) (cfg : ChatConfig) (p : Program) :
    Event → List Envelope
  | .consumer e _ _ => (p.dispatched P cfg e).map (·.1)
  | _ => []

/-- The envelopes the server handles. -/
def handled (P : Platform) (cfg : ChatConfig) (p : Program) (e : Event) :
    List Envelope :=
  (p.served P cfg e).filterMap Hub.Event.envelope?

section

variable {P : Platform} {cfg : ChatConfig} {p : Program}

/-- A move dispatches nothing, or the message it delivers. -/
theorem dispatched_cases (P : Platform) (cfg : ChatConfig) (p : Program)
    (e : MqConsumer.Life.Event) :
    p.dispatched P cfg e = [] ∨
      ∃ env answer body, e.body? = some body ∧
        envelopeFromString P body = .ok (.ok env) ∧
          p.dispatched P cfg e = [(env, answer)] := by
  rw [dispatched]
  rcases MqConsumer.Life.invocations_step P cfg.rabbitmq p.consumer e with
    hsame | ⟨env, answer, body, hbody, henv, hmore⟩
  · exact Or.inl (by rw [hsame, List.drop_length])
  · exact Or.inr ⟨env, answer, body, hbody, henv, by rw [hmore, List.drop_left]⟩

/-! What is let through is handled or waits. -/

theorem inTime_overdue (given : List (Envelope × Option Invocation)) :
    (inTime given ++ overdue given).Perm (given.map (·.1)) := by
  have hsplit := (List.filter_append_perm (fun one => one.2.isSome) given).map
    (fun one : Envelope × Option Invocation => one.1)
  have hrest : (fun one : Envelope × Option Invocation => !one.2.isSome) =
      fun one => one.2.isNone := by
    funext one
    exact Option.not_isSome one.2
  rw [hrest, List.map_append] at hsplit
  exact hsplit

theorem envelopes_of_envelopes (o : IterOrder Devices.Entry) (clock : Clock)
    (envs : List Envelope) :
    (envs.map fun env => Hub.Event.envelope o clock env).filterMap
      Hub.Event.envelope? = envs := by
  rw [List.filterMap_map]
  exact List.filterMap_some

theorem handled_step {e : Event} (henabled : (machine P cfg).enabled p e) :
    (letThrough P cfg p e ++ p.jobs).Perm
      (handled P cfg p e ++ ((machine P cfg).step p e).jobs) := by
  have hsame : ∀ p' : Program, p'.jobs = p.jobs →
      ([] ++ p.jobs).Perm ([] ++ p'.jobs) := fun p' hjobs => by rw [hjobs]
  cases e with
  | ready http ws scheduler =>
      apply hsame
      simp only [machine, onServerReady]
      split_ifs <;> rfl
  | unload => exact hsame _ rfl
  | call replies =>
      apply hsame
      simp only [machine]
      cases p.calls with
      | nil => rfl
      | cons call calls =>
          cases call with
          | joinConsumer =>
              simp only [perform]
              split_ifs <;> rfl
          | joinPublisher =>
              simp only [perform]
              split_ifs <;> rfl
          | _ => rfl
  | socket e =>
      obtain ⟨_, _, hsocket, _⟩ := henabled
      have hnone : handled P cfg p (.socket e) = [] := by
        cases e with
        | envelope o clock env => contradiction
        | _ => rfl
      rw [hnone]
      exact hsame _ rfl
  | timer nowMs => exact hsame _ rfl
  | publisher e =>
      have hnone : handled P cfg p (.publisher e) = [] := by
        rw [handled, List.filterMap_eq_nil_iff]
        intro e' he'
        rw [MqPublisher.Life.drain_of_mem_drains he']
        rfl
      rw [hnone]
      exact hsame _ rfl
  | consumer e o clock =>
      have hhandled : handled P cfg p (.consumer e o clock) =
          inTime (p.dispatched P cfg e) := envelopes_of_envelopes o clock _
      rw [hhandled]
      change (_ ++ p.jobs).Perm (_ ++ (p.jobs ++ overdue (p.dispatched P cfg e)))
      have hfirst := (inTime_overdue (p.dispatched P cfg e)).symm.append_right p.jobs
      rw [List.append_assoc] at hfirst
      exact hfirst.trans (List.perm_append_comm.append_left _)
  | job i o clock =>
      have hlt : i < p.jobs.length := henabled.2
      have hhandled : handled P cfg p (.job i o clock) = [p.jobs[i]] := by
        rw [handled, served, envelopes_of_envelopes, List.getElem?_eq_getElem hlt]
        rfl
      rw [hhandled]
      exact (List.getElem_cons_eraseIdx_perm hlt).symm

theorem trace_letThrough {es : List Event} (hscripted : Scripted p)
    (hadm : (machine P cfg).Admissible p es) :
    (MqConsumer.Life.machine P cfg.rabbitmq).trace
        (MqConsumer.Life.invoked P cfg.rabbitmq) p.consumer
        ((machine P cfg).trace consumerDoes p es) =
      (machine P cfg).trace (letThrough P cfg) p es := by
  refine Machine.trace_refines (scripted_step P cfg)
    (fun _ _ hscripted henabled => (hscripted.consumerDoes henabled).2)
    (fun p e _ _ => ?_) hscripted hadm
  have hquiet : ∀ (life : MqConsumer.Life) (e : MqConsumer.Life.Event),
      e.body? = none → MqConsumer.Life.invoked P cfg.rabbitmq life e = [] := by
    intro life e hbody
    rw [MqConsumer.Life.invoked]
    rcases MqConsumer.Life.invocations_step P cfg.rabbitmq life e with
      hsame | ⟨_, _, _, hsome, _⟩
    · rw [hsame, List.drop_length]
      rfl
    · rw [hbody] at hsome
      contradiction
  cases e with
  | call replies =>
      simp only [consumerDoes, letThrough]
      cases p.calls.head? with
      | none => rfl
      | some call =>
          cases call with
          | joinConsumer =>
              simp only [Option.toList_some, List.flatMap_cons, List.flatMap_nil,
                List.append_nil, consumerCall]
              split_ifs
              · exact (List.append_nil _).trans (hquiet _ (.join replies) rfl)
              · rfl
          | startConsumer scheduler =>
              exact (List.append_nil _).trans
                (hquiet _ (.start (some scheduler) true) rfl)
          | stopConsumer => exact (List.append_nil _).trans (hquiet _ .stop rfl)
          | _ => rfl
  | consumer e o clock => exact List.append_nil _
  | _ => rfl

/-- What the moves of the thread bring in a run the events bring. -/
theorem brought_by_moves {ω : Type} {brings : MqConsumer.Life.Event → Option ω}
    (hmoves : ∀ e, e.isMove = false → brings e = none) (P : Platform)
    (cfg : ChatConfig) (p : Program) (es : List Event) :
    ((machine P cfg).trace consumerDoes p es).filterMap brings =
      es.filterMap fun e => e.move?.bind brings := by
  have hcalls : ∀ (p : Program) (replies : Replies) (call : ModuleCall),
      (p.consumerCall replies call).filterMap brings = [] := by
    intro p replies call
    rw [List.filterMap_eq_nil_iff]
    intro e he
    apply hmoves
    cases call with
    | startConsumer scheduler => rw [List.mem_singleton.mp he]; rfl
    | stopConsumer => rw [List.mem_singleton.mp he]; rfl
    | joinConsumer =>
        simp only [consumerCall] at he
        split_ifs at he
        · rw [List.mem_singleton.mp he]; rfl
        · contradiction
    | _ => contradiction
  have hone : ∀ (p : Program) (e : Event), (p.consumerDoes e).filterMap brings =
      (e.move?.bind brings).toList := by
    intro p e
    cases e with
    | call replies =>
        simp only [consumerDoes, Event.move?]
        cases p.calls.head? with
        | none => rfl
        | some call => simpa using hcalls p replies call
    | consumer e o clock =>
        cases hbrings : brings e <;> simp [consumerDoes, Event.move?, hbrings]
    | _ => rfl
  induction es generalizing p with
  | nil => rfl
  | cons e es ih =>
      rw [Machine.trace, List.filterMap_append, hone, ih]
      cases hbrings : e.move?.bind brings <;> simp [hbrings]

end

/-- In every run the envelopes the server has handled and those whose handler is
overdue are the ones the consumer has let through.  Where the clock does not go
back, within 24 hours and 100000 deliveries no two of them are of one message. -/
theorem handled_at_most_once (P : Platform) (cfg : ChatConfig) (es : List Event)
    (hadm : (machine P cfg).Admissible (initial cfg) es) :
    let p := (machine P cfg).run (initial cfg) es
    let envs := (machine P cfg).trace (handled P cfg) (initial cfg) es ++ p.jobs
    envs.Perm ((machine P cfg).trace (letThrough P cfg) (initial cfg) es) ∧
      ((es.filterMap Event.reading?).Pairwise (· ≤ ·) →
        (∀ t ∈ es.filterMap Event.reading?, ∀ t' ∈ es.filterMap Event.reading?,
          t' < t + 24 * 3600 * 1000) →
        (es.filterMap Event.body?).length ≤ 100000 →
          (envs.map (·.msgId)).Nodup) := by
  intro p envs
  have hconserved : envs.Perm
      ((machine P cfg).trace (letThrough P cfg) (initial cfg) es) := by
    have hall : ((machine P cfg).trace (letThrough P cfg) (initial cfg) es ++
        (initial cfg).jobs).Perm envs :=
      Machine.conserved_run (scripted_step P cfg)
        (fun _ _ _ henabled => handled_step henabled) (scripted_initial cfg) hadm
    rw [show (initial cfg).jobs = [] from rfl, List.append_nil] at hall
    exact hall.symm
  refine ⟨hconserved, fun hclock hday hfew => ?_⟩
  have hmoves : ∀ e : MqConsumer.Life.Event, e.isMove = false →
      e.reading? = none ∧ e.body? = none := by
    intro e hmove
    cases e <;> first | exact ⟨rfl, rfl⟩ | contradiction
  have hreadings : _ = es.filterMap Event.reading? :=
    brought_by_moves (fun e hmove => (hmoves e hmove).1) P cfg (initial cfg) es
  have hbodies : _ = es.filterMap Event.body? :=
    brought_by_moves (fun e hmove => (hmoves e hmove).2) P cfg (initial cfg) es
  rw [← hreadings] at hclock hday
  rw [← hbodies] at hfew
  have hgranted := MqConsumer.Life.granted_nodup P cfg.rabbitmq hclock hday hfew
  have hlet : _ = (machine P cfg).trace (letThrough P cfg) (initial cfg) es :=
    trace_letThrough (scripted_initial cfg) hadm
  have honce := hgranted.sublist (MqConsumer.Life.invoked_sublist_run _)
  rw [show MqConsumer.Life.initial cfg.rabbitmq = (initial cfg).consumer from rfl,
    hlet] at honce
  exact (hconserved.map (·.msgId)).nodup_iff.mpr honce

/-! Who hears of what. -/

/-- Some message that has been delivered reads as the envelope. -/
def Delivered (P : Platform) (bodies : List StdString) (env : Envelope) : Prop :=
  ∃ body ∈ bodies, envelopeFromString P body = .ok (.ok env)

section

variable {P : Platform} {cfg : ChatConfig} {p : Program}

/-- Whatever waits for its handler has been delivered. -/
theorem delivered_step (P : Platform) (cfg : ChatConfig) (p : Program)
    (bodies : List StdString) (e : Event)
    (hjobs : ∀ env ∈ p.jobs, Delivered P bodies env)
    (henabled : (machine P cfg).enabled p e) :
    ∀ env ∈ ((machine P cfg).step p e).jobs,
      Delivered P (bodies ++ e.body?.toList) env := by
  have hkept : ∀ {env}, Delivered P bodies env →
      Delivered P (bodies ++ e.body?.toList) env :=
    fun ⟨body, hbody, henv⟩ => ⟨body, List.mem_append_left _ hbody, henv⟩
  intro env henv
  have hperm := handled_step henabled
  have hmem : env ∈ letThrough P cfg p e ++ p.jobs :=
    hperm.mem_iff.mpr (List.mem_append_right _ henv)
  rcases List.mem_append.mp hmem with hlet | hold
  · cases e with
    | consumer e o clock =>
        rcases dispatched_cases P cfg p e with
          hnone | ⟨other, answer, body, hbody, hother, hone⟩
        · simp [letThrough, hnone] at hlet
        · simp only [letThrough, hone, List.map_cons, List.map_nil,
            List.mem_singleton] at hlet
          rw [hlet]
          refine ⟨body, List.mem_append_right _ ?_, hother⟩
          simp [Event.body?, Event.move?, hbody]
    | _ => contradiction
  · exact hkept (hjobs env hold)

/-- The server does nothing or one thing in an event; an envelope it handles has
been delivered. -/
theorem served_cases {bodies : List StdString}
    (hjobs : ∀ env ∈ p.jobs, Delivered P bodies env) (e : Event) :
    p.served P cfg e = [] ∨ (∃ e', e = .socket e' ∧ p.served P cfg e = [e']) ∨
      (∃ nowMs, p.served P cfg e = [.timer nowMs]) ∨ p.served P cfg e = [.drain] ∨
        ∃ o clock env, p.served P cfg e = [.envelope o clock env] ∧
          Delivered P (bodies ++ e.body?.toList) env := by
  cases e with
  | socket e => exact Or.inr (Or.inl ⟨e, rfl, rfl⟩)
  | timer nowMs => exact Or.inr (Or.inr (Or.inl ⟨nowMs, rfl⟩))
  | publisher e =>
      by_cases hdequeue : e = .does .dequeue
      · rw [hdequeue]
        exact Or.inr (Or.inr (Or.inr (Or.inl rfl)))
      · left
        cases e with
        | does e =>
            cases e with
            | dequeue => exact absurd rfl hdequeue
            | _ => rfl
        | _ => rfl
  | consumer e o clock =>
      rcases dispatched_cases P cfg p e with
        hnone | ⟨env, answer, body, hbody, henv, hone⟩
      · left
        simp [served, hnone, inTime]
      · cases answer with
        | none =>
            left
            simp [served, hone, inTime]
        | some answer =>
            refine Or.inr (Or.inr (Or.inr (Or.inr ⟨o, clock, env, ?_, body, ?_, henv⟩)))
            · simp [served, hone, inTime]
            · simp [Event.body?, Event.move?, hbody]
  | job i o clock =>
      simp only [served]
      cases hjob : p.jobs[i]? with
      | none => exact Or.inl rfl
      | some env =>
          obtain ⟨body, hbody, henv⟩ := hjobs env (List.mem_of_getElem? hjob)
          exact Or.inr (Or.inr (Or.inr (Or.inr ⟨o, clock, env, rfl, body,
            List.mem_append_left _ hbody, henv⟩)))
  | _ => exact Or.inl rfl

end

/-- The frames the server sends in an event. -/
def sent (P : Platform) (cfg : ChatConfig) (p : Program) (e : Event) :
    List (SessionId × Frame) :=
  (((machine P cfg).step p e).hub.server.effects.drop
    p.hub.server.effects.length).flatMap Effect.frames

/-- In every run a frame goes to those who may hear what a socket has done, or to
a user who has logged in and whom a message names that the broker has delivered
by then. -/
theorem heard_of_deliveries (P : Platform) (cfg : ChatConfig) (before : List Event)
    (e : Event) (hadm : (machine P cfg).Admissible (initial cfg) (before ++ [e])) :
    let p := (machine P cfg).run (initial cfg) before
    ∀ one ∈ sent P cfg p e,
      (∃ e', e = .socket e' ∧ p.hub.MayHear P cfg e' one) ∨
        ∃ env uid, Delivered P ((before ++ [e]).filterMap Event.body?) env ∧
          env.Mentions P.json uid ∧ p.hub.Owns P cfg uid one.1 := by
  intro p one hone
  obtain ⟨hbefore, henabled⟩ := Machine.admissible_concat.mp hadm
  have hjobs : ∀ env ∈ p.jobs, Delivered P (before.filterMap Event.body?) env := by
    have hinv := Machine.inv_run_trace (delivered_step P cfg)
      (show ∀ env ∈ (initial cfg).jobs, Delivered P [] env by simp [initial]) hbefore
    rwa [Machine.trace_of_event] at hinv
  obtain ⟨hserver, hhub⟩ := hub_run (scripted_initial cfg) hbefore
  have hproven : p.hub.Proven P cfg := by
    rw [show p.hub = _ from hhub.symm]
    exact Machine.run_of_step (Hub.proven_step P cfg) (Hub.proven_initial P cfg) hserver
  have hstep := step_hub henabled
  have hallowed := admissible_served henabled
  have hheard : ∀ e', p.served P cfg e = [e'] → p.hub.MayHear P cfg e' one := by
    intro e' hserved
    rw [show (machine P cfg).run (initial cfg) before = p from rfl, hserved]
      at hstep hallowed
    refine hproven.mayHear hallowed.1 ?_
    rw [sent, ← hstep] at hone
    exact hone
  rw [List.filterMap_append, show [e].filterMap Event.body? = e.body?.toList by
    cases hbody : e.body? <;> simp [hbody]]
  rcases served_cases hjobs e with
    hnone | ⟨e', he, hserved⟩ | ⟨nowMs, hserved⟩ | hserved |
      ⟨o, clock, env, hserved, hdelivered⟩
  · rw [sent, ← hstep, show (machine P cfg).run (initial cfg) before = p from rfl,
      hnone, Machine.run_nil, List.drop_length] at hone
    contradiction
  · exact Or.inl ⟨e', he, hheard e' hserved⟩
  · exact absurd (hheard _ hserved) id
  · exact absurd (hheard _ hserved) id
  · obtain ⟨uid, hmentions, howns⟩ := hheard _ hserved
    exact Or.inr ⟨env, uid, hdelivered, hmentions, howns⟩

namespace ProgramWitness

open Hub.HubWitness (clock cfg)

theorem handled_at_most_once_day :
    let p := (machine platform cfg).run (initial cfg) day
    (((machine platform cfg).trace (handled platform cfg) (initial cfg) day ++
      p.jobs).map (·.msgId)).Nodup :=
  (handled_at_most_once platform cfg day admissible_day).2 (by decide) (by decide)
    (by decide)

/-- The day up to the overdue handler. -/
def morning : List Event := day.take 12

def late : Event := .job 0 (IterOrder.asKept _) clock

theorem heard_of_deliveries_late :
    let p := (machine platform cfg).run (initial cfg) morning
    ∀ one ∈ sent platform cfg p late,
      (∃ e', late = .socket e' ∧ p.hub.MayHear platform cfg e' one) ∨
        ∃ env uid,
          Delivered platform ((morning ++ [late]).filterMap Event.body?) env ∧
            env.Mentions platform.json uid ∧ p.hub.Owns platform cfg uid one.1 :=
  heard_of_deliveries platform cfg morning late (by decide +kernel)

end ProgramWitness

end Program

end FlzChat
