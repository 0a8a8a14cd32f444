/-
From deliveries to frames: the consumer hands one handler at a time to its
scheduler and waits for it, the handler's frames go to the threads of the
connections.  The wait ends after five seconds whether there is an answer or not.
-/
import FlzChat.Consumer
import FlzChat.FifoOrder
import FlzChat.Pushes
import FlzChat.Runs

namespace FlzChat

/-- The envelope `Run` dispatches for a delivery: none if the body is no
envelope, or one seen before. -/
def MqConsumer.toDispatch (P : Platform) (d : AmqpDelivery) (nowMs : Int)
    (idempotency : LruIdempotencyCache) : Option Envelope × LruIdempotencyCache :=
  match envelopeFromString P d.body with
  | .ok (.ok env) =>
      match idempotency.tryMark env.msgId nowMs with
      | (true, idempotency) => (some env, idempotency)
      | (false, idempotency) => (none, idempotency)
  | _ => (none, idempotency)

/-- It is the one the handler is called with. -/
theorem MqConsumer.handleDelivery_toDispatch (P : Platform) (replies : Replies)
    (d : AmqpDelivery) (nowMs : Int) (answer : Option Invocation)
    {consumer : MqConsumer} (hhandler : consumer.hasHandler = true) :
    let handled := (consumer.handleDelivery P replies d nowMs answer).2
    let admitted := toDispatch P d nowMs consumer.idempotency
    handled.idempotency = admitted.2 ∧
      handled.invocations = consumer.invocations ++
        admitted.1.toList.map fun env => (env, answer) := by
  simp only [handleDelivery, toDispatch]
  rcases envelopeFromString P d.body with thrown | err | env
  · simp
  · simp
  · simp only
    rcases consumer.idempotency.tryMark env.msgId nowMs with ⟨fresh, idempotency⟩
    cases fresh with
    | false => simp
    | true => simp [dispatchToScheduler, hhandler, settle]

/-- The consumer with the handlers it has dispatched, numbered in that order,
and what became of them; it waits for the last one. -/
structure Relay where
  idempotency : LruIdempotencyCache := ⟨100000, 24 * 3600 * 1000, [], ∅, 0⟩
  registry : SessionRegistry := {}
  dispatched : Nat := 0
  waiting : Bool := false
  workers : Workers IoManager Push Effect Nat := {}

namespace Relay

inductive Event where
  | deliver (d : AmqpDelivery) (nowMs : Int) (pending : Option PendingSend)
  | resume
  | add (o : IterOrder Devices.Entry) (conn : OnlineConn) (maxDevices : Nat)
  | remove (userId : UInt64) (deviceId : StdString)
  | start (iom : IoManager)
  | advance (o : IterOrder Devices.Entry) (thread : Nat)

/-- `DispatchToScheduler` up to its wait; without a scheduler the consumer's own
thread runs the handler. -/
def dispatch (P : Platform) (scheduler : Option IoManager)
    (pending : Option PendingSend) (env : Envelope) (r : Relay) : Relay :=
  let job := ⟨r.dispatched, none, Push.jobOf P pending env⟩
  { r with
    dispatched := r.dispatched + 1
    waiting := true
    workers := match scheduler with
      | none => r.workers.launch job
      | some iom => r.workers.submit iom job }

/-- No handler is waiting to be started or running. -/
def Answered (scheduler : Option IoManager) (r : Relay) : Prop :=
  (∀ iom ∈ scheduler, ∀ job ∈ r.workers.queue iom, job.place.isSome) ∧
    ∀ job ∈ r.workers.running, job.place.isNone → job.todo.isEmpty

instance (scheduler : Option IoManager) (r : Relay) :
    Decidable (r.Answered scheduler) :=
  inferInstanceAs (Decidable (_ ∧ _))

/-- Deliveries, logins and closing connections, and the threads' own pace; `home`
is the `io_manager` each session's connection is created with. -/
def machine (P : Platform) (scheduler : Option IoManager)
    (home : SessionId → Option IoManager) : Machine Relay Event where
  enabled r
    | .deliver _ _ _ => r.waiting = false
    | .resume => r.waiting = true ∧ (scheduler.isSome ∨ r.Answered scheduler)
    | .add _ conn _ => conn.ioManager = home conn.session
    | _ => True
  step r
    | .deliver d nowMs pending =>
        let admitted := MqConsumer.toDispatch P d nowMs r.idempotency
        let r := { r with idempotency := admitted.2 }
        match admitted.1 with
        | none => r
        | some env => r.dispatch P scheduler pending env
    | .resume => { r with waiting := false }
    | .add o conn maxDevices =>
        { r with registry := (r.registry.add o conn maxDevices).registry }
    | .remove userId deviceId =>
        { r with registry := (r.registry.remove userId deviceId).2 }
    | .start iom => { r with workers := r.workers.start iom }
    | .advance o thread =>
        let answer := Push.answer o r.registry
        { r with workers := r.workers.advance answer thread }

/-- The session an effect sends a frame on. -/
def channel : Effect → Option SessionId
  | .now (.sendFrame session _) => some session
  | _ => none

/-- The sessions a callback has still a frame for. -/
def sessionsOf (job : Job IoManager Push Effect Nat) : List SessionId :=
  if job.place.isNone then [] else
    job.todo.filterMap fun
      | .emit effect => channel effect
      | _ => none

/-- On every session the frames come in the order their envelopes were
dispatched in. -/
def FramesInOrder (r : Relay) : Prop := r.workers.Ordered channel

/-- A handler that has been started finds all earlier ones finished. -/
def HandlersInTurn (r : Relay) : Prop :=
  ∀ job ∈ r.workers.running, job.place.isNone → ∀ m < job.origin,
    ∃ earlier ∈ r.workers.running, earlier.place.isNone ∧
      earlier.origin = m ∧ earlier.todo.isEmpty

instance : DecidablePred FramesInOrder := fun r =>
  inferInstanceAs (Decidable (r.workers.shown.Pairwise fun one other =>
    ∀ c ∈ channel one.2, c ∈ channel other.2 → one.1 ≤ other.1))

/-- The consumer goes on when the handler has answered, and a connection's
callback starts when those of earlier envelopes have sent their frame. -/
def InTime (scheduler : Option IoManager) (r : Relay) : Event → Prop
  | .resume => r.Answered scheduler
  | .start iom => ∀ job ∈ (r.workers.queue iom).head?, ∀ c ∈ sessionsOf job,
      ∀ other ∈ r.workers.running, c ∈ sessionsOf other →
        job.origin ≤ other.origin
  | _ => True

instance (scheduler : Option IoManager) (r : Relay) :
    ∀ e, Decidable (r.InTime scheduler e)
  | .resume => inferInstanceAs (Decidable (r.Answered scheduler))
  | .start iom => inferInstanceAs (Decidable (
      ∀ job ∈ (r.workers.queue iom).head?, ∀ c ∈ sessionsOf job,
        ∀ other ∈ r.workers.running, c ∈ sessionsOf other →
          job.origin ≤ other.origin))
  | .deliver _ _ _ | .add _ _ _ | .remove _ _ | .advance _ _ => isTrue trivial

theorem mem_sessionsOf {job : Job IoManager Push Effect Nat} {c : SessionId} :
    c ∈ sessionsOf job ↔ job.Shows channel c := by
  rw [sessionsOf, Job.Shows]
  cases hplace : job.place with
  | none => simp
  | some place =>
      simp only [Option.isNone_some, Bool.false_eq_true, if_false, ne_eq,
        reduceCtorEq, not_false_eq_true, true_and, List.mem_filterMap]
      constructor
      · rintro ⟨op, hop, hc⟩
        cases op with
        | emit shown => exact ⟨shown, hop, hc⟩
        | handOver executor todo => contradiction
        | call push => contradiction
      · rintro ⟨shown, hop, hc⟩
        exact ⟨.emit shown, hop, hc⟩

/-- Every registered connection has the `io_manager` of its session. -/
def AtHome (home : SessionId → Option IoManager) (registry : SessionRegistry) :
    Prop :=
  ∀ u d c, registry.get u d = some c → c.ioManager = home c.session

theorem atHome_empty (home : SessionId → Option IoManager) : AtHome home {} := by
  intro u d c hget
  simp [SessionRegistry.get] at hget

theorem AtHome.add {home : SessionId → Option IoManager}
    {registry : SessionRegistry} (hregistry : AtHome home registry)
    (o : IterOrder Devices.Entry) {conn : OnlineConn} (maxDevices : Nat)
    (hconn : conn.ioManager = home conn.session) :
    AtHome home (registry.add o conn maxDevices).registry := by
  intro u d c hget
  rcases (SessionRegistry.add_spec o registry conn maxDevices).get_cases hget with
    ⟨_, _, rfl⟩ | ⟨_, hold⟩
  · exact hconn
  · exact hregistry u d c hold

theorem AtHome.remove {home : SessionId → Option IoManager}
    {registry : SessionRegistry} (hregistry : AtHome home registry)
    (userId : UInt64) (deviceId : StdString) :
    AtHome home (registry.remove userId deviceId).2 :=
  fun u d c hget => hregistry u d c (SessionRegistry.get_of_get_remove hget)

/-- A push sends on a connection's own thread, or at once when it has none. -/
theorem AtHome.answer {home : SessionId → Option IoManager}
    {registry : SessionRegistry} (hregistry : AtHome home registry)
    (o : IterOrder Devices.Entry) (push : Push) :
    ∀ op ∈ push.answer o registry, op.AtHome channel home none := by
  intro op hop
  obtain ⟨effect, heffect, rfl⟩ := List.mem_map.mp hop
  obtain ⟨conn, hconn, howner⟩ := List.mem_flatMap.mp heffect
  obtain ⟨d, hget⟩ := SessionRegistry.mem_getByUser.mp hconn
  have hhome := hregistry push.uid d conn hget
  have hactions : ∀ action ∈ [Action.sendFrame conn.session (push.frame conn),
      .incWsOut (push.frame conn).type], ∀ c ∈ channel (.now action),
      home c = conn.ioManager := by
    intro action haction c hc
    rw [hhome]
    rcases List.mem_cons.mp haction with rfl | haction
    · rw [Option.some.inj hc]
    · rw [List.mem_singleton.mp haction] at hc
      contradiction
  cases hiom : conn.ioManager with
  | none =>
      rw [hiom, ownerEffects] at howner
      obtain ⟨action, haction, rfl⟩ := List.mem_map.mp howner
      rw [hiom] at hactions
      exact hactions action haction
  | some iom =>
      rw [hiom, ownerEffects] at howner
      rw [List.mem_singleton.mp howner]
      rw [hiom] at hactions
      refine ⟨rfl, ?_⟩
      intro shown hshown
      obtain ⟨action, haction, rfl⟩ := List.mem_map.mp hshown
      exact hactions action haction

/-- One handler at a time: only the last one dispatched may wait or have
something left to do, and only while the consumer waits for it. -/
structure OneAtATime (scheduler : Option IoManager) (r : Relay) : Prop where
  bounded : ∀ one ∈ r.workers.shown, one.1 < r.dispatched
  dispatched : ∀ job, r.workers.Has job → job.origin < r.dispatched
  queued : ∀ iom, ∀ job ∈ r.workers.queue iom, job.place = none →
    scheduler = some iom ∧ r.waiting = true ∧ job.origin + 1 = r.dispatched
  running : ∀ job ∈ r.workers.running, job.place = none →
    job.todo = [] ∨ r.waiting = true ∧ job.origin + 1 = r.dispatched
  present : ∀ m < r.dispatched, ∃ job, r.workers.Has job ∧ job.place = none ∧
    job.origin = m

theorem OneAtATime.handlersInTurn {scheduler : Option IoManager} {r : Relay}
    (hone : OneAtATime scheduler r) : r.HandlersInTurn := by
  intro job hjob _ m hm
  have hbound := hone.dispatched job (Or.inl hjob)
  obtain ⟨earlier, hhas, hplace, rfl⟩ := hone.present m (by omega)
  rcases hhas with hrunning | ⟨iom, hqueued⟩
  · refine ⟨earlier, hrunning, by simp [hplace], rfl, ?_⟩
    rcases hone.running earlier hrunning hplace with htodo | ⟨_, hlast⟩
    · simp [htodo]
    · omega
  · have hlast := (hone.queued iom earlier hqueued hplace).2.2
    omega

/-- While the consumer does not wait, no handler does anything. -/
theorem OneAtATime.answered {scheduler : Option IoManager} {r : Relay}
    (hone : OneAtATime scheduler r) (hidle : r.waiting = false) :
    (∀ iom, ∀ job ∈ r.workers.queue iom, job.place ≠ none) ∧
      ∀ job ∈ r.workers.running, job.place = none → job.todo = [] := by
  constructor
  · intro iom job hjob hplace
    have hwaiting := (hone.queued iom job hjob hplace).2.1
    rw [hidle] at hwaiting
    contradiction
  · intro job hjob hplace
    apply (hone.running job hjob hplace).resolve_right
    rintro ⟨hwaiting, _⟩
    rw [hidle] at hwaiting
    contradiction

/-- The next handler is dispatched while none is under way. -/
theorem OneAtATime.dispatch {scheduler : Option IoManager} {r : Relay}
    (hone : OneAtATime scheduler r) (hidle : r.waiting = false)
    (job : Job IoManager Push Effect Nat) (hplace : job.place = none)
    (horigin : job.origin = r.dispatched)
    {workers : Workers IoManager Push Effect Nat}
    (hshown : workers.shown = r.workers.shown)
    (hold : ∀ other, workers.Has other → other = job ∨ r.workers.Has other)
    (hqueue : ∀ iom, ∀ other ∈ workers.queue iom,
      other ∈ r.workers.queue iom ∨ other = job ∧ scheduler = some iom)
    (hrunning : ∀ other ∈ workers.running,
      other ∈ r.workers.running ∨ other = job)
    (hnew : ∀ other, other = job ∨ r.workers.Has other → workers.Has other) :
    OneAtATime scheduler { r with
      dispatched := r.dispatched + 1, waiting := true, workers := workers } := by
  obtain ⟨hnoQueued, hnoRunning⟩ := hone.answered hidle
  constructor
  · intro one hmem
    rw [hshown] at hmem
    exact Nat.lt_succ_of_lt (hone.bounded one hmem)
  · intro other hhas
    rcases hold other hhas with rfl | hbefore
    · exact horigin ▸ Nat.lt_succ_self _
    · exact Nat.lt_succ_of_lt (hone.dispatched other hbefore)
  · intro iom other hother hplace'
    rcases hqueue iom other hother with hbefore | ⟨rfl, hscheduler⟩
    · exact absurd hplace' (hnoQueued iom other hbefore)
    · exact ⟨hscheduler, rfl, congrArg (· + 1) horigin⟩
  · intro other hother hplace'
    rcases hrunning other hother with hbefore | rfl
    · exact Or.inl (hnoRunning other hbefore hplace')
    · exact Or.inr ⟨rfl, congrArg (· + 1) horigin⟩
  · intro m hm
    rcases Nat.lt_succ_iff_lt_or_eq.mp hm with hbefore | rfl
    · obtain ⟨other, hhas, hother⟩ := hone.present m hbefore
      exact ⟨other, hnew other (Or.inr hhas), hother⟩
    · exact ⟨job, hnew job (Or.inl rfl), hplace, horigin⟩

structure Inv (scheduler : Option IoManager) (home : SessionId → Option IoManager)
    (r : Relay) : Prop where
  registry : AtHome home r.registry
  fifo : r.workers.Fifo channel home
  one : OneAtATime scheduler r

/-- The next handler is dispatched while none is under way. -/
theorem Inv.dispatch {scheduler : Option IoManager}
    {home : SessionId → Option IoManager} {r : Relay}
    (hinv : Inv scheduler home r) (hidle : r.waiting = false) (P : Platform)
    (pending : Option PendingSend) (env : Envelope) :
    Inv scheduler home (r.dispatch P scheduler pending env) := by
  have hhome : ∀ op ∈ Push.jobOf P pending env, op.AtHome channel home none := by
    intro op hop
    obtain ⟨push, _, rfl⟩ := List.mem_map.mp hop
    exact rfl
  let job : Job IoManager Push Effect Nat :=
    ⟨r.dispatched, none, Push.jobOf P pending env⟩
  have hlatest : r.workers.UpTo job.origin :=
    ⟨fun one hone => (hinv.one.bounded one hone).le,
      fun other hother => (hinv.one.dispatched other hother).le⟩
  cases scheduler with
  | none =>
      refine ⟨hinv.registry, Workers.fifo_launch hinv.fifo rfl hhome, ?_⟩
      have hshown : (r.workers.launch job).shown = r.workers.shown := rfl
      apply hinv.one.dispatch hidle job rfl rfl hshown
      · intro other hhas
        exact hhas.of_launch
      · intro iom other hother
        exact Or.inl hother
      · intro other hother
        simpa using List.mem_append.mp hother
      · rintro other (rfl | hbefore)
        · exact Workers.has_launch _ r.workers
        · exact hbefore.launch job
  | some iom =>
      refine ⟨hinv.registry, Workers.fifo_submit hinv.fifo (by simp) hhome hlatest, ?_⟩
      have hshown : (r.workers.submit iom job).shown = r.workers.shown := rfl
      apply hinv.one.dispatch hidle job rfl rfl hshown
      · intro other hhas
        exact hhas.of_submit
      · intro k other hother
        rcases Workers.mem_queue_submit.mp hother with hbefore | ⟨rfl, rfl⟩
        · exact Or.inl hbefore
        · exact Or.inr ⟨rfl, rfl⟩
      · intro other hother
        exact Or.inl hother
      · rintro other (rfl | hbefore)
        · exact Workers.has_submit iom _ r.workers
        · exact hbefore.submit iom job

/-- The wait ends when the handler has answered. -/
theorem Inv.resume {scheduler : Option IoManager}
    {home : SessionId → Option IoManager} {r : Relay}
    (hinv : Inv scheduler home r) (hanswered : r.Answered scheduler) :
    Inv scheduler home { r with waiting := false } := by
  refine ⟨hinv.registry, hinv.fifo, hinv.one.bounded, hinv.one.dispatched, ?_, ?_,
    hinv.one.present⟩
  · intro iom job hjob hplace
    obtain ⟨hscheduler, _⟩ := hinv.one.queued iom job hjob hplace
    have hplaced := hanswered.1 iom hscheduler job hjob
    rw [hplace] at hplaced
    contradiction
  · intro job hjob hplace
    left
    simpa using hanswered.2 job hjob (by simp [hplace])

theorem Inv.start {scheduler : Option IoManager}
    {home : SessionId → Option IoManager} {r : Relay}
    (hinv : Inv scheduler home r) {iom : IoManager}
    (hclear : r.InTime scheduler (.start iom)) :
    Inv scheduler home { r with workers := r.workers.start iom } := by
  refine ⟨hinv.registry, ?_, ?_, fun job hhas =>
    hinv.one.dispatched job hhas.of_start, fun k job hjob =>
    hinv.one.queued k job (Workers.mem_queue_start hjob), ?_, fun m hm => ?_⟩
  · apply Workers.fifo_start hinv.fifo
    intro job hhead c hshows other hother hshows'
    exact hclear job hhead c (mem_sessionsOf.mpr hshows) other hother
      (mem_sessionsOf.mpr hshows')
  · rw [Workers.shown_start]
    exact hinv.one.bounded
  · intro job hjob hplace
    rcases Workers.mem_running_start.mp hjob with hold | hhead
    · exact hinv.one.running job hold hplace
    · have hqueued := List.mem_of_mem_head? hhead
      exact Or.inr (hinv.one.queued iom job hqueued hplace).2
  · obtain ⟨job, hhas, hjob⟩ := hinv.one.present m hm
    exact ⟨job, hhas.start iom, hjob⟩

theorem Inv.advance {scheduler : Option IoManager}
    {home : SessionId → Option IoManager} {r : Relay}
    (hinv : Inv scheduler home r) (o : IterOrder Devices.Entry) (thread : Nat) :
    Inv scheduler home
      { r with workers := r.workers.advance (Push.answer o r.registry) thread } := by
  refine ⟨hinv.registry, ?_, ?_, ?_, ?_, ?_, ?_⟩
  · apply Workers.fifo_advance hinv.fifo (hinv.registry.answer o)
    intro job hjob hplace htodo
    have hmem := List.mem_of_getElem? hjob
    obtain ⟨_, hlast⟩ := (hinv.one.running job hmem hplace).resolve_left htodo
    refine ⟨fun one hone => ?_, fun other hother => ?_⟩
    · have hbound := hinv.one.bounded one hone
      omega
    · have hbound := hinv.one.dispatched other hother
      omega
  · intro one hone
    rcases Workers.shown_advance (Push.answer o r.registry) thread r.workers with
      hsame | ⟨job, shown, rest, hjob, _, hshown⟩
    · simp only [hsame] at hone
      exact hinv.one.bounded one hone
    · simp only [hshown] at hone
      rcases List.mem_append.mp hone with hold | hnew
      · exact hinv.one.bounded one hold
      · rw [List.mem_singleton.mp hnew]
        exact hinv.one.dispatched job (Or.inl (List.mem_of_getElem? hjob))
  · intro job hhas
    rcases hhas.of_advance with hold | ⟨next, op, rest, hnext, _, hnew⟩
    · exact hinv.one.dispatched job hold
    · have hbound := hinv.one.dispatched next
        (Or.inl (List.mem_of_getElem? hnext))
      rcases hnew with rfl | ⟨executor, todo, _, rfl⟩ <;> exact hbound
  · intro k job hjob hplace
    rcases Workers.mem_queue_advance hjob with hold | ⟨next, todo, rest, _, _, rfl⟩
    · exact hinv.one.queued k job hold hplace
    · contradiction
  · intro job hjob hplace
    rcases Workers.mem_running_advance hjob with hold | ⟨next, op, rest, hnext, htodo, rfl⟩
    · exact hinv.one.running job hold hplace
    · have hlast := hinv.one.running next (List.mem_of_getElem? hnext) hplace
      exact Or.inr (hlast.resolve_left (by simp [htodo]))
  · intro m hm
    obtain ⟨job, hhas, hplace, rfl⟩ := hinv.one.present m hm
    obtain ⟨later, hlater, horigin, hplace'⟩ :=
      hhas.advance (Push.answer o r.registry) thread
    exact ⟨later, hlater, hplace'.trans hplace, horigin⟩

theorem Inv.step {P : Platform} {scheduler : Option IoManager}
    {home : SessionId → Option IoManager} (r : Relay) (e : Event)
    (hinv : Inv scheduler home r) (henabled : (machine P scheduler home).enabled r e)
    (hinTime : r.InTime scheduler e) :
    Inv scheduler home ((machine P scheduler home).step r e) := by
  cases e with
  | deliver d nowMs pending =>
      simp only [machine]
      rcases MqConsumer.toDispatch P d nowMs r.idempotency with ⟨env, idempotency⟩
      have hmarked : Inv scheduler home { r with idempotency := idempotency } :=
        ⟨hinv.registry, hinv.fifo, hinv.one.bounded, hinv.one.dispatched,
          hinv.one.queued, hinv.one.running, hinv.one.present⟩
      cases env with
      | none => exact hmarked
      | some env => exact hmarked.dispatch henabled P pending env
  | resume => exact hinv.resume hinTime
  | add o conn maxDevices =>
      exact ⟨hinv.registry.add o maxDevices henabled, hinv.fifo, hinv.one.bounded,
        hinv.one.dispatched, hinv.one.queued, hinv.one.running, hinv.one.present⟩
  | remove userId deviceId =>
      exact ⟨hinv.registry.remove userId deviceId, hinv.fifo, hinv.one.bounded,
        hinv.one.dispatched, hinv.one.queued, hinv.one.running, hinv.one.present⟩
  | start iom => exact hinv.start hinTime
  | advance o thread => exact hinv.advance o thread

theorem inv_initial (scheduler : Option IoManager)
    (home : SessionId → Option IoManager) : Inv scheduler home {} where
  registry := atHome_empty home
  fifo := Workers.fifo_empty channel home
  one :=
    { bounded := fun _ hone => absurd hone List.not_mem_nil
      dispatched := fun job hhas => absurd hhas (Workers.not_has_empty job)
      queued := fun _ _ hjob => absurd hjob List.not_mem_nil
      running := fun _ hjob => absurd hjob List.not_mem_nil
      present := fun m hm => absurd hm (Nat.not_lt_zero m) }

/-- In a run in which every handler answers in time and the callbacks of a
connection do not overtake each other, the handlers take turns and every session
gets its frames in the order of the envelopes. -/
theorem framesInOrder_of_inTime (P : Platform) (scheduler : Option IoManager)
    (home : SessionId → Option IoManager) {es : List Event}
    (hadm : (machine P scheduler home).Admissible {} es)
    (hinTime : (machine P scheduler home).Each (InTime scheduler) {} es) :
    (machine P scheduler home).Always
      (fun r => r.FramesInOrder ∧ r.HandlersInTurn) {} es :=
  (Machine.always_of_guarded Inv.step (inv_initial scheduler home) hadm
    hinTime).imp fun _ hinv => ⟨hinv.fifo.ordered, hinv.one.handlersInTurn⟩

namespace DeliveryOrderWitness

/-- A friend request for user 7 under the given message id. -/
def body (msgId : String) : StdString :=
  lit "\x7b\"msgId\":\"" ++ lit msgId ++
    lit "\",\"version\":1,\"type\":\"chat.friend.request\",\"payload\":\x7b\"toUserId\":7\x7d\x7d"

def json (msgId : String) : Json :=
  .object [("msgId", .str (lit msgId)), ("version", .int 1),
    ("type", .str (lit "chat.friend.request")),
    ("payload", .object [("toUserId", .int 7)])]

def platform : Platform :=
  Platform.ofTables [(body "m1", json "m1"), (body "m2", json "m2")] [] [] []

/-- Connections live on `io_manager` 1. -/
def home (_ : SessionId) : Option IoManager := some 1

def logIn : Event :=
  .add (IterOrder.asKept _) (.create 7 (lit "d1") 5 (some 1) 0 20) 5

def deliver (msgId : String) : Event := .deliver ⟨1, [], body msgId⟩ 0 none

def work (thread : Nat) : Event := .advance (IterOrder.asKept _) thread

/-- One handler after the other, and each callback before the next is started. -/
def inTurn : List Event :=
  [logIn, deliver "m1", .start 0, work 0, work 0, .resume,
    deliver "m2", .start 0, work 1, work 1, .resume,
    .start 1, work 2, .start 1, work 3]

/-- The wait for the first handler ends while it is running. -/
def slowHandler : List Event :=
  [logIn, deliver "m1", .start 0, .resume, deliver "m2", .start 0,
    work 1, work 1, .start 1, work 2, work 0, work 0, .start 1, work 3]

/-- Both callbacks are started and the second one is faster. -/
def overtaking : List Event :=
  [logIn, deliver "m1", .start 0, work 0, work 0, .resume,
    deliver "m2", .start 0, work 1, work 1, .resume,
    .start 1, .start 1, work 3, work 2]

instance (scheduler : Option IoManager) (r : Relay) :
    ∀ e, Decidable ((machine platform scheduler home).enabled r e)
  | .deliver _ _ _ => inferInstanceAs (Decidable (r.waiting = false))
  | .resume => inferInstanceAs (Decidable (
      r.waiting = true ∧ (scheduler.isSome ∨ r.Answered scheduler)))
  | .add _ conn _ =>
      inferInstanceAs (Decidable (conn.ioManager = home conn.session))
  | .remove _ _ | .start _ | .advance _ _ => isTrue trivial

theorem framesInOrder_inTurn : (machine platform (some 0) home).Always
    (fun r => r.FramesInOrder ∧ r.HandlersInTurn) {} inTurn :=
  framesInOrder_of_inTime platform (some 0) home (by decide +kernel)
    (by decide +kernel)

theorem not_always_framesInOrder :
    ¬ ∀ (P : Platform) (scheduler : Option IoManager)
      (home : SessionId → Option IoManager) (es : List Event),
      (machine P scheduler home).Admissible {} es →
        (machine P scheduler home).Always FramesInOrder {} es := by
  intro hall
  exact absurd (hall platform (some 0) home slowHandler (by decide +kernel))
    (by decide +kernel)

example : ¬ (machine platform (some 0) home).Always FramesInOrder {}
    overtaking := by decide +kernel

end DeliveryOrderWitness

end Relay

end FlzChat
