/-
The state the handlers share and the effects they have: frames sent at once or
scheduled on a connection's own thread, sessions closed, tasks queued for the
broker.
-/
import FlzChat.Publisher
import FlzChat.SessionRegistry

namespace FlzChat

/-- The arguments of `Protocol::SendFrame`. -/
structure Frame where
  type : StdString
  data : Json
  hasSeq : Bool := false
  seq : Int64 := 0

/-- `Protocol::BuildFrame` -/
def buildFrame (frame : Frame) : Json :=
  .object ([("type", .str frame.type)] ++
    (if frame.hasSeq then [("seq", .int frame.seq)] else []) ++
    [("data", frame.data)])

/-- The frame of `Protocol::SendError`. -/
def errorFrame (code : Int64) (msg : StdString) (hasSeq : Bool) (seq : Int64) :
    Frame :=
  ⟨lit "error", .object [("code", .int code), ("msg", .str msg)], hasSeq, seq⟩

inductive Action where
  | sendFrame (session : SessionId) (frame : Frame)
  | incWsOut (type : StdString)
  | cancelAll (session : SessionId)
  | close (session : SessionId)

inductive Effect where
  | now (action : Action)
  | scheduled (iom : IoManager) (actions : List Action)
  | enqueued (task : Task)

/-- The frame an action sends, with the session it goes to. -/
def Action.frame? : Action → Option (SessionId × Frame)
  | sendFrame session frame => some (session, frame)
  | _ => none

/-- The frames an effect sends, at once or later. -/
def Effect.frames : Effect → List (SessionId × Frame)
  | now action => action.frame?.toList
  | scheduled _ actions => actions.filterMap Action.frame?
  | enqueued _ => []

/-- The task an effect puts on the queue. -/
def Effect.task? : Effect → Option Task
  | enqueued task => some task
  | _ => none

/-- What `onOwner` adds to the effects. -/
def ownerEffects : Option IoManager → List Action → List Effect
  | none, actions => actions.map .now
  | some iom, actions => [.scheduled iom actions]

/-- The presence event a task publishes for a user: `true` for online. -/
def Task.presence? (userId : UInt64) (task : Task) : Option Bool :=
  match task.payload.find (lit "userId") with
  | .ok (some (.uint n)) =>
      if n ≠ userId then none
      else if task.routingKey = lit "business.user.online" then some true
      else if task.routingKey = lit "business.user.offline" then some false
      else none
  | _ => none

def Effect.presence? (userId : UInt64) : Effect → Option Bool
  | enqueued task => task.presence? userId
  | _ => none

/-- The user a published task speaks for. -/
def Task.actor? (task : Task) : Option UInt64 :=
  let field :=
    if task.routingKey = lit "business.msg.persist" then lit "senderId"
    else if task.routingKey = lit "business.msg.ack" then lit "receiverId"
    else lit "userId"
  match task.payload.find field with
  | .ok (some (.uint uid)) => some uid
  | _ => none

structure PendingSend where
  senderUserId : UInt64 := 0
  senderDeviceId : StdString := []
  createdMs : Int := 0
  hasSeq : Bool := false
  seq : Int64 := 0
deriving DecidableEq

structure Server where
  registry : SessionRegistry := {}
  pending : KeyMap StdString PendingSend := ∅
  queue : List Task := []
  metrics : ChatMetrics := {}
  fallbackDeviceSeq : UInt64 := 0
  effects : List Effect := []

namespace Server

def perform (action : Action) (s : Server) : Server :=
  { s with
    effects := s.effects ++ [.now action]
    metrics := match action with
      | .incWsOut type => s.metrics.incWsOut type
      | _ => s.metrics }

/-- Run the actions on the connection's own thread, or at once when the
connection has none. -/
def onOwner (iom : Option IoManager) (actions : List Action) (s : Server) :
    Server :=
  match iom with
  | none => actions.foldl (fun s action => s.perform action) s
  | some iom => { s with effects := s.effects ++ [.scheduled iom actions] }

def sendFrame (session : SessionId) (frame : Frame) : Server → Server :=
  perform (.sendFrame session frame)

def sendError (session : SessionId) (code : Int64) (msg : StdString)
    (hasSeq : Bool) (seq : Int64) : Server → Server :=
  sendFrame session (errorFrame code msg hasSeq seq)

/-- `MqPublisher::Publish` with the given answer. -/
def publishAs (accepted : Bool) (task : Task) (s : Server) : Bool × Server :=
  if accepted then
    (true, { s with
      queue := s.queue ++ [task]
      effects := s.effects ++ [.enqueued task] })
  else (false, { s with
    metrics := s.metrics.incMqPublish task.routingKey (lit "fail") })

/-- The publisher's queue has room. -/
def Accepting (cfg : ChatConfig) (s : Server) : Prop :=
  s.queue.length < toSizeT cfg.rabbitmq.publisherQueueCapacity

instance (cfg : ChatConfig) (s : Server) : Decidable (s.Accepting cfg) :=
  inferInstanceAs (Decidable (_ < _))

/-- `MqPublisher::Publish` as the handlers call it. -/
def publish (cfg : ChatConfig) (task : Task) (s : Server) : Bool × Server :=
  match MqPublisher.enqueue cfg s.queue s.metrics task with
  | (false, queue, metrics) =>
      (false, { s with queue := queue, metrics := metrics })
  | (true, queue, metrics) =>
      (true, { s with
        queue := queue
        metrics := metrics
        effects := s.effects ++ [.enqueued task] })

theorem publish_eq_publishAs (cfg : ChatConfig) (task : Task) (s : Server) :
    s.publish cfg task = s.publishAs (decide (s.Accepting cfg)) task := by
  simp only [publish, publishAs, MqPublisher.enqueue, Accepting]
  by_cases hroom : s.queue.length < toSizeT cfg.rabbitmq.publisherQueueCapacity
  · simp [hroom, Nat.not_le.mpr hroom]
  · simp [hroom, Nat.not_lt.mp hroom]

/-- What a publish does. -/
def publishEffects (cfg : ChatConfig) (task : Task) (s : Server) : List Effect :=
  if s.Accepting cfg then [.enqueued task] else []

theorem publishEffects_congr (cfg : ChatConfig) (task : Task) {s s' : Server}
    (hqueue : s'.queue = s.queue) :
    s'.publishEffects cfg task = s.publishEffects cfg task := by
  have haccepting : s'.Accepting cfg ↔ s.Accepting cfg := by
    rw [Accepting, Accepting, hqueue]
  exact if_congr haccepting rfl rfl

/-! What the effects leave alone, and the frames they send. -/

@[simp]
theorem perform_registry (action : Action) (s : Server) :
    (s.perform action).registry = s.registry := rfl

@[simp]
theorem perform_pending (action : Action) (s : Server) :
    (s.perform action).pending = s.pending := rfl

@[simp]
theorem perform_effects (action : Action) (s : Server) :
    (s.perform action).effects = s.effects ++ [.now action] := rfl

/-- All frames sent so far. -/
def frames (s : Server) : List (SessionId × Frame) :=
  s.effects.flatMap Effect.frames

/-- All presence events published for a user so far. -/
def presence (userId : UInt64) (s : Server) : List Bool :=
  s.effects.filterMap (Effect.presence? userId)

theorem frames_map_now (actions : List Action) :
    (actions.map Effect.now).flatMap Effect.frames =
      actions.filterMap Action.frame? := by
  rw [List.flatMap_map]
  induction actions with
  | nil => rfl
  | cons action actions ih =>
      rw [List.flatMap_cons, ih]
      cases hframe : action.frame? <;> simp [Effect.frames, hframe]

/-- Whether at once or later, the same frames are sent. -/
theorem frames_ownerEffects (iom : Option IoManager) (actions : List Action) :
    (ownerEffects iom actions).flatMap Effect.frames =
      actions.filterMap Action.frame? := by
  cases iom with
  | none => exact frames_map_now actions
  | some iom => simp [ownerEffects, Effect.frames]

@[simp]
theorem frames_sendFrame (session : SessionId) (frame : Frame) (s : Server) :
    (s.sendFrame session frame).frames = s.frames ++ [(session, frame)] := by
  simp [sendFrame, frames, Effect.frames, Action.frame?]

/-- Publishing leaves the registry, the pending map and the sessions alone. -/
theorem publishAs_same (accepted : Bool) (task : Task) (s : Server) :
    (s.publishAs accepted task).2.registry = s.registry ∧
      (s.publishAs accepted task).2.pending = s.pending ∧
      (s.publishAs accepted task).2.frames = s.frames ∧
      (s.publishAs accepted task).1 = accepted := by
  cases accepted with
  | true => simp [publishAs, frames, Effect.frames]
  | false => simp [publishAs, frames]

theorem publish_registry (cfg : ChatConfig) (task : Task) (s : Server) :
    (s.publish cfg task).2.registry = s.registry := by
  rw [publish_eq_publishAs]
  exact (publishAs_same _ task s).1

theorem presence?_eq_none (task : Task)
    (honline : task.routingKey ≠ lit "business.user.online")
    (hoffline : task.routingKey ≠ lit "business.user.offline") (u : UInt64) :
    task.presence? u = none := by
  simp only [Task.presence?]
  split
  · simp [honline, hoffline]
  · rfl

theorem publish_presence {cfg : ChatConfig} {s : Server}
    (haccepting : s.Accepting cfg) (userId : UInt64) (task : Task) :
    (s.publish cfg task).2.presence userId =
      s.presence userId ++ (task.presence? userId).toList := by
  rw [publish_eq_publishAs]
  simp only [haccepting, decide_true, publishAs, if_true, presence]
  rw [List.filterMap_append]
  cases htask : task.presence? userId <;> simp [Effect.presence?, htask]

@[simp]
theorem presence?_userOnlineTask (userId other : UInt64) :
    (MqPublisher.userOnlineTask other).presence? userId =
      if other = userId then some true else none := by
  by_cases heq : other = userId <;>
    simp [Task.presence?, MqPublisher.userOnlineTask, Json.object, Json.find, heq]

@[simp]
theorem presence?_userOfflineTask (userId other : UInt64) :
    (MqPublisher.userOfflineTask other).presence? userId =
      if other = userId then some false else none := by
  by_cases heq : other = userId <;>
    simp [Task.presence?, MqPublisher.userOfflineTask, Json.object, Json.find, heq]

end Server

@[simp]
theorem actor?_msgAckTask (clock : Clock) (messageId : Int64) (uid : UInt64) :
    (MqPublisher.msgAckTask clock messageId uid).actor? = some uid := by
  simp [Task.actor?, MqPublisher.msgAckTask, Json.object, Json.find,
    List.lookup_cons]

@[simp]
theorem actor?_userOnlineTask (uid : UInt64) :
    (MqPublisher.userOnlineTask uid).actor? = some uid := by
  simp [Task.actor?, MqPublisher.userOnlineTask, Json.object, Json.find]

@[simp]
theorem actor?_userOfflineTask (uid : UInt64) :
    (MqPublisher.userOfflineTask uid).actor? = some uid := by
  simp [Task.actor?, MqPublisher.userOfflineTask, Json.object, Json.find]

end FlzChat
