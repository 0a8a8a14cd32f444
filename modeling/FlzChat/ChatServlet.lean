/-
`ChatWSServlet`: login, close and client frames, and the module's timer.
-/
import FlzChat.Jwt
import FlzChat.WsToMq

namespace FlzChat

/-- `ExtractToken`: query parameter, bearer header or subprotocol. -/
def extractToken (request : HttpRequest) : StdString :=
  let stripped := fun (value start : StdString) =>
    if value.take start.length = start ∧ start.length < value.length then
      some (value.drop start.length)
    else none
  let token := request.param (lit "token")
  if token ≠ [] then token
  else match stripped (request.header (lit "Authorization")) (lit "Bearer ") with
    | some token => token
    | none =>
        (stripped (request.header (lit "Sec-WebSocket-Protocol"))
          (lit "bearer.")).getD []

/-- What `onConnect` returns and leaves in the request; `login` is the
connection it has registered, `handedBack` what `Add` has returned as replaced
or evicted. -/
structure ConnectResult where
  code : Int32
  request : HttpRequest
  login : Option OnlineConn
  handedBack : List OnlineConn

/-- What a login or a close may touch. -/
def Scope.ofPresence (cfg : ChatConfig) : Scope where
  room := toSizeT cfg.rabbitmq.publisherQueueCapacity
  publishes _ := True
  registers _ _ := True

namespace Server

def closeSessionOnOwner (conn : OnlineConn) (s : Server) : Server :=
  match conn.ioManager with
  | none => s.perform (.close conn.session)
  | some iom => s.onOwner (some iom) [.cancelAll conn.session, .close conn.session]

def sendKickedOnOwner (reason : StdString) (conn : OnlineConn) :
    Server → Server :=
  onOwner conn.ioManager
    [.sendFrame conn.session ⟨lit "kicked", .object [("reason", .str reason)],
      false, 0⟩]

def kick (reason : StdString) (conn : OnlineConn) (s : Server) : Server :=
  (s.sendKickedOnOwner reason conn).closeSessionOnOwner conn

/-- `AllocFallbackDeviceId` -/
def allocFallbackDeviceId (uid : UInt64) (s : Server) : StdString × Server :=
  let seq := s.fallbackDeviceSeq + 1
  (lit "device-" ++ decimal uid.toNat ++ lit "-" ++ decimal seq.toNat,
    { s with fallbackDeviceSeq := seq })

/-- The device id of a login. -/
def deviceIdFor (claims : JwtClaims) (s : Server) : StdString × Server :=
  if claims.deviceId = [] then s.allocFallbackDeviceId claims.userId
  else (claims.deviceId, s)

/-- The three headers a login leaves in the request. -/
def markRequest (claims : JwtClaims) (deviceId : StdString)
    (request : HttpRequest) : HttpRequest :=
  ((request.setHeader (lit "$uid") (decimal claims.userId.toNat)).setHeader
    (lit "$did") deviceId).setHeader (lit "$exp") (decimalInt claims.exp.toInt)

/-- Tell the connections `Add` has handed back. -/
def kickHandedBack (added : SessionRegistry.AddResult) (s : Server) : Server :=
  let s := match added.replaced with
    | none => s
    | some conn => s.kick (lit "login_elsewhere") conn
  added.evicted.foldl (fun s conn => s.kick (lit "too_many_devices") conn) s

/-- The answer to a login. -/
def sendAuthOk (clock : Clock) (conn : OnlineConn) (s : Server) : Server :=
  (s.sendFrame conn.session ⟨lit "auth_ok", .object [
      ("userId", .uint conn.userId),
      ("deviceId", .str conn.deviceId),
      ("serverTime", .str clock.iso8601Now)], false, 0⟩).perform
    (.incWsOut (lit "auth_ok"))

/-- The connection a login creates. -/
def newConn (cfg : ChatConfig) (clock : Clock) (iom : Option IoManager)
    (session : SessionId) (userId : UInt64) (deviceId : StdString) :
    OnlineConn :=
  OnlineConn.create userId deviceId session iom clock.nowMs
    cfg.chat.frameRateLimitPerSecond.toInt

/-- `onConnect` once the token has been accepted. -/
def login (cfg : ChatConfig) (clock : Clock) (o : IterOrder Devices.Entry)
    (iom : Option IoManager) (request : HttpRequest) (session : SessionId)
    (claims : JwtClaims) (s : Server) : ConnectResult × Server :=
  let named := s.deviceIdFor claims
  let s := named.2
  let firstDevice := !s.registry.isUserOnline claims.userId
  let conn := newConn cfg clock iom session claims.userId named.1
  let added := s.registry.add o conn (toSizeT cfg.chat.maxDevicesPerUser)
  let s := { s with registry := added.registry }
  let s := (s.kickHandedBack added).sendAuthOk clock conn
  let s := if firstDevice then
    (s.publish cfg (MqPublisher.userOnlineTask claims.userId)).2 else s
  (⟨0, markRequest claims named.1 request, some conn,
    added.replaced.toList ++ added.evicted⟩, s)

/-- `onConnect` when there is no token or it is refused. -/
def refuse (err : StdString) (request : HttpRequest) (session : SessionId)
    (s : Server) : ConnectResult × Server :=
  let s := { s with
    metrics := s.metrics.incJwtVerifyFail
      (if err = [] then lit "empty_token" else err) }
  let s := s.sendFrame session ⟨lit "auth_fail", .object [("code", .int 401),
    ("msg", .str (if err = [] then lit "missing token" else err))], false, 0⟩
  (⟨-1, request, none, []⟩, s.perform (.close session))

def onConnect (P : Platform) (cfg : ChatConfig) (clock : Clock)
    (o : IterOrder Devices.Entry) (iom : Option IoManager)
    (request : HttpRequest) (session : SessionId) (s : Server) :
    Except Thrown ConnectResult × Server :=
  let token := extractToken request
  if token = [] then
    let refused := s.refuse [] request session
    (.ok refused.1, refused.2)
  else match JwtVerifier.verify P cfg.jwt clock.time token with
    | .error thrown => (.error thrown, s)
    | .ok (.error err) =>
        let refused := s.refuse err request session
        (.ok refused.1, refused.2)
    | .ok (.ok claims) =>
        let accepted := s.login cfg clock o iom request session claims
        (.ok accepted.1, accepted.2)

/-- The user id and device id the handlers read from the request. -/
def identity (P : Platform) (request : HttpRequest) : UInt64 × StdString :=
  (P.atoi (request.header (lit "$uid")), request.header (lit "$did"))

/-- `onClose`; the session it is called for is not used. -/
def onClose (P : Platform) (cfg : ChatConfig) (request : HttpRequest)
    (s : Server) : Server :=
  match identity P request with
  | (uid, did) =>
      if uid = 0 ∨ did = [] then s
      else
        let s := { s with registry := (s.registry.remove uid did).2 }
        if s.registry.isUserOnline uid then s
        else (s.publish cfg (MqPublisher.userOfflineTask uid)).2

/-- Take a token from the registered connection; without one there is nothing
to take it from. -/
def spendToken (cfg : ChatConfig) (nowMs : Int) (uid : UInt64)
    (did : StdString) (s : Server) : Bool × Server :=
  let rateLimit := cfg.chat.frameRateLimitPerSecond.toInt
  match s.registry.get uid did with
  | none => (true, s)
  | some conn =>
      ((conn.consumeToken nowMs rateLimit).1,
        { s with
          registry := s.registry.modify uid did fun conn =>
            (conn.consumeToken nowMs rateLimit).2 })

/-- `handle` once a frame has been parsed. -/
def dispatchFrame (P : Platform) (cfg : ChatConfig) (clock : Clock)
    (uid : UInt64) (did : StdString) (session : SessionId) (frame : ClientFrame)
    (s : Server) : Except Thrown Int32 × Server :=
  let s := { s with metrics := s.metrics.incWsIn frame.type }
  if frame.type = lit "ping" then
    match frame.data.get (lit "ts") (.int (Int64.ofInt clock.nowMs)) with
    | .error thrown => (.error thrown, s)
    | .ok ts =>
        (.ok 0, (s.sendFrame session ⟨lit "pong", .object [("ts", ts)],
          frame.hasSeq, frame.seq⟩).perform (.incWsOut (lit "pong")))
  else if frame.type = lit "msg.send" then
    s.handleMsgSend P cfg clock uid did session frame.hasSeq frame.seq frame.data
  else if frame.type = lit "msg.ack" then
    s.handleMsgAck P cfg clock uid session frame.hasSeq frame.seq frame.data
  else if frame.type = lit "msg.read" then s.handleMsgRead P frame.data
  else if frame.type = lit "bye" then (.ok 1, s)
  else (.ok 0, s.sendError session 404 (lit "unknown type") frame.hasSeq frame.seq)

/-- `handle`; `isText` is whether the message is a text frame. -/
def handle (P : Platform) (cfg : ChatConfig) (clock : Clock)
    (request : HttpRequest) (isText : Bool) (data : StdString)
    (session : SessionId) (s : Server) : Except Thrown Int32 × Server :=
  if isText = false then
    (.ok 1, s.sendError session 400 (lit "text frame required") false 0)
  else match identity P request with
    | (uid, did) =>
        if uid = 0 ∨ did = [] then
          (.ok 1, s.sendError session 401 (lit "unauthorized") false 0)
        else match s.spendToken cfg clock.nowMs uid did with
          | (false, s) =>
              (.ok 1, s.sendError session 429 (lit "too many frames") false 0)
          | (true, s) =>
              let s := { s with
                registry := s.registry.touch uid did clock.nowMs }
              match parseClientFrame P data with
              | .error thrown => (.error thrown, s)
              | .ok (.error err) => (.ok 0, s.sendError session 400 err false 0)
              | .ok (.ok frame) =>
                  s.dispatchFrame P cfg clock uid did session frame

/-- The timer of `onServerReady`: close what is silent, sweep what is pending. -/
def onTimer (cfg : ChatConfig) (nowMs : Int) (s : Server) : Server :=
  let deadline := nowMs - cfg.chat.heartbeatTimeoutSeconds.toInt * 1000
  let s := (s.registry.collectTimeouted deadline).foldl
    (fun s conn => s.closeSessionOnOwner conn) s
  s.sweepPending cfg nowMs

/-! What a login does. -/

/-- The frame that tells a connection why it is closed. -/
def kickedFrame (reason : StdString) (conn : OnlineConn) : SessionId × Frame :=
  (conn.session, ⟨lit "kicked", .object [("reason", .str reason)], false, 0⟩)

/-- The frame that tells a connection it has been accepted. -/
def authOkFrame (clock : Clock) (conn : OnlineConn) : SessionId × Frame :=
  (conn.session, ⟨lit "auth_ok", .object [
    ("userId", .uint conn.userId),
    ("deviceId", .str conn.deviceId),
    ("serverTime", .str clock.iso8601Now)], false, 0⟩)

def closeEffects (conn : OnlineConn) : List Effect :=
  match conn.ioManager with
  | none => [.now (.close conn.session)]
  | some iom => [.scheduled iom [.cancelAll conn.session, .close conn.session]]

def kickEffects (reason : StdString) (conn : OnlineConn) : List Effect :=
  ownerEffects conn.ioManager [.sendFrame conn.session (kickedFrame reason conn).2] ++
    closeEffects conn

/-- What a login does to the connections `Add` has handed back. -/
def handedBackEffects (added : SessionRegistry.AddResult) : List Effect :=
  added.replaced.toList.flatMap (kickEffects (lit "login_elsewhere")) ++
    added.evicted.flatMap (kickEffects (lit "too_many_devices"))

/-- How a login greets its own session. -/
def authOkEffects (clock : Clock) (conn : OnlineConn) : List Effect :=
  [.now (.sendFrame conn.session (authOkFrame clock conn).2),
    .now (.incWsOut (lit "auth_ok"))]

/-- The frames that tell the connections `Add` has handed back. -/
def kickedFrames (added : SessionRegistry.AddResult) :
    List (SessionId × Frame) :=
  added.replaced.toList.map (kickedFrame (lit "login_elsewhere")) ++
    added.evicted.map (kickedFrame (lit "too_many_devices"))

/-- What the refusal of a request does on its session. -/
def refuseEffects (err : StdString) (session : SessionId) : List Effect :=
  [.now (.sendFrame session ⟨lit "auth_fail", .object [("code", .int 401),
    ("msg", .str (if err = [] then lit "missing token" else err))], false, 0⟩),
    .now (.close session)]

/-- The connection a login creates and what `Add` makes of it. -/
def joining (cfg : ChatConfig) (clock : Clock) (o : IterOrder Devices.Entry)
    (iom : Option IoManager) (session : SessionId) (claims : JwtClaims)
    (s : Server) : OnlineConn × SessionRegistry.AddResult :=
  let conn := newConn cfg clock iom session claims.userId
    (s.deviceIdFor claims).1
  (conn, s.registry.add o conn (toSizeT cfg.chat.maxDevicesPerUser))

/-- The presence event of a login, if there is one. -/
def onlineEffects (cfg : ChatConfig) (uid : UInt64) (s : Server) : List Effect :=
  if s.registry.isUserOnline uid then []
  else s.publishEffects cfg (MqPublisher.userOnlineTask uid)

section

variable {scope : Scope}

theorem does_closeSessionOnOwner (conn : OnlineConn) (s : Server) :
    Does scope (closeEffects conn) s (s.closeSessionOnOwner conn) := by
  rw [closeSessionOnOwner, closeEffects]
  cases conn.ioManager with
  | none => exact .perform _ s
  | some iom => exact does_onOwner (some iom) _ s

theorem does_kick (reason : StdString) (conn : OnlineConn) (s : Server) :
    Does scope (kickEffects reason conn) s (s.kick reason conn) :=
  (does_onOwner conn.ioManager _ s).andThen (does_closeSessionOnOwner conn _)

theorem does_kickHandedBack (added : SessionRegistry.AddResult) (s : Server) :
    Does scope (handedBackEffects added) s (s.kickHandedBack added) := by
  have hevicted : ∀ s' : Server, Does scope
      (added.evicted.flatMap (kickEffects (lit "too_many_devices"))) s' _ :=
    does_foldl (fun s conn => does_kick (lit "too_many_devices") conn s) added.evicted
  simp only [kickHandedBack, handedBackEffects]
  cases added.replaced with
  | none => exact hevicted s
  | some conn =>
      rw [Option.toList_some, List.flatMap_singleton]
      exact (does_kick (lit "login_elsewhere") conn s).andThen (hevicted _)

theorem does_sendAuthOk (clock : Clock) (conn : OnlineConn) (s : Server) :
    Does scope (authOkEffects clock conn) s (s.sendAuthOk clock conn) :=
  (Does.perform (.sendFrame conn.session (authOkFrame clock conn).2) s).andThen
    (.perform (.incWsOut (lit "auth_ok")) _)

theorem does_deviceIdFor (claims : JwtClaims) (s : Server) :
    Does scope [] s (s.deviceIdFor claims).2 := by
  simp only [deviceIdFor]
  split_ifs
  · exact .number _ s
  · exact .nothing s

theorem does_refuse (err : StdString) (request : HttpRequest)
    (session : SessionId) (s : Server) :
    Does scope (refuseEffects err session) s (s.refuse err request session).2 := by
  have hcounted : Does scope [] s { s with
      metrics := s.metrics.incJwtVerifyFail
        (if err = [] then lit "empty_token" else err) } := .count _ s rfl rfl
  exact hcounted.after
    ((Does.perform (.sendFrame session _) _).andThen (.perform (.close session) _))

@[simp]
theorem deviceIdFor_registry (claims : JwtClaims) (s : Server) :
    (s.deviceIdFor claims).2.registry = s.registry := by
  simp only [deviceIdFor]
  split_ifs <;> rfl

theorem deviceIdFor_ne_nil (claims : JwtClaims) (s : Server) :
    (s.deviceIdFor claims).1 ≠ [] := by
  simp only [deviceIdFor, allocFallbackDeviceId]
  split_ifs with hempty
  · simp
  · exact hempty

/-- The server between `Add` and the presence event of a login. -/
def announced (cfg : ChatConfig) (clock : Clock) (o : IterOrder Devices.Entry)
    (iom : Option IoManager) (session : SessionId) (claims : JwtClaims)
    (s : Server) : Server :=
  let named := s.deviceIdFor claims
  let conn := newConn cfg clock iom session claims.userId named.1
  let added := s.registry.add o conn (toSizeT cfg.chat.maxDevicesPerUser)
  ({ named.2 with registry := added.registry }.kickHandedBack added).sendAuthOk
    clock conn

/-- `login` ends with the presence event of a first device. -/
theorem login_server (cfg : ChatConfig) (clock : Clock)
    (o : IterOrder Devices.Entry) (iom : Option IoManager)
    (request : HttpRequest) (session : SessionId) (claims : JwtClaims)
    (s : Server) :
    (s.login cfg clock o iom request session claims).2 =
      if s.registry.isUserOnline claims.userId then
        s.announced cfg clock o iom session claims
      else ((s.announced cfg clock o iom session claims).publish cfg
        (MqPublisher.userOnlineTask claims.userId)).2 := by
  simp only [login, announced]
  simp only [deviceIdFor_registry]
  cases s.registry.isUserOnline claims.userId <;> rfl

/-- Those handed back are dealt with, then the session is greeted. -/
theorem does_announced (hregisters : ∀ r r', scope.registers r r')
    (cfg : ChatConfig) (clock : Clock) (o : IterOrder Devices.Entry)
    (iom : Option IoManager) (session : SessionId) (claims : JwtClaims)
    (s : Server) :
    let joined := s.joining cfg clock o iom session claims
    Does scope (handedBackEffects joined.2 ++ authOkEffects clock joined.1) s
      (s.announced cfg clock o iom session claims) :=
  (does_deviceIdFor claims s).after ((Does.register _ _ (hregisters _ _)).after
    ((does_kickHandedBack _ _).andThen (does_sendAuthOk clock _ _)))

/-- Announcing a login adds its connection to the registry and touches
neither the queue nor the presence events. -/
theorem announced_spec (cfg : ChatConfig) (clock : Clock)
    (o : IterOrder Devices.Entry) (iom : Option IoManager)
    (session : SessionId) (claims : JwtClaims) (s : Server) :
    (s.announced cfg clock o iom session claims).registry =
        (s.registry.add o
          (newConn cfg clock iom session claims.userId (s.deviceIdFor claims).1)
          (toSizeT cfg.chat.maxDevicesPerUser)).registry ∧
      (s.announced cfg clock o iom session claims).queue = s.queue ∧
      ∀ u, (s.announced cfg clock o iom session claims).presence u =
        s.presence u := by
  have hannounced : Does { registers := fun _ _ => True } _ s _ :=
    does_announced (fun _ _ => trivial) cfg clock o iom session claims s
  have hsaid : ∀ (added : SessionRegistry.AddResult) (conn : OnlineConn)
      (s' : Server), ((s'.kickHandedBack added).sendAuthOk clock conn).registry =
        s'.registry := by
    intro added conn s'
    have hboth : Does {} _ s' _ :=
      (does_kickHandedBack added s').andThen (does_sendAuthOk clock conn _)
    exact hboth.registry_eq fun _ _ => id
  exact ⟨hsaid _ _ _, hannounced.queue_eq fun _ => id,
    hannounced.presence_eq fun _ => False.elim⟩

/-- A first device publishes its presence at the end. -/
theorem does_login {cfg : ChatConfig} (claims : JwtClaims)
    (hroom : toSizeT cfg.rabbitmq.publisherQueueCapacity ≤ scope.room)
    (hpublishes : scope.publishes (MqPublisher.userOnlineTask claims.userId))
    (hregisters : ∀ r r', scope.registers r r') (clock : Clock)
    (o : IterOrder Devices.Entry) (iom : Option IoManager)
    (request : HttpRequest) (session : SessionId) (s : Server) :
    let joined := s.joining cfg clock o iom session claims
    Does scope (handedBackEffects joined.2 ++ authOkEffects clock joined.1 ++
        s.onlineEffects cfg claims.userId) s
      (s.login cfg clock o iom request session claims).2 := by
  intro joined
  have hannounced : Does scope _ s _ :=
    does_announced hregisters cfg clock o iom session claims s
  have hqueue := (announced_spec cfg clock o iom session claims s).2.1
  rw [login_server, onlineEffects]
  split_ifs
  · rw [List.append_nil]
    exact hannounced
  · rw [← publishEffects_congr cfg _ hqueue]
    exact hannounced.andThen (does_publish hroom hpublishes _)

end

/-- A login adds its connection and nothing else. -/
theorem login_registry (cfg : ChatConfig) (clock : Clock)
    (o : IterOrder Devices.Entry) (iom : Option IoManager)
    (request : HttpRequest) (session : SessionId) (claims : JwtClaims)
    (s : Server) :
    (s.login cfg clock o iom request session claims).2.registry =
      (s.registry.add o
        (newConn cfg clock iom session claims.userId (s.deviceIdFor claims).1)
        (toSizeT cfg.chat.maxDevicesPerUser)).registry := by
  have hannounced := (announced_spec cfg clock o iom session claims s).1
  rw [login_server]
  split_ifs
  · exact hannounced
  · rw [publish_registry, hannounced]

/-- A first device publishes one online event, any other login none. -/
theorem login_presence {cfg : ChatConfig} {s : Server}
    (haccepting : s.Accepting cfg) (clock : Clock)
    (o : IterOrder Devices.Entry) (iom : Option IoManager)
    (request : HttpRequest) (session : SessionId) (claims : JwtClaims)
    (u : UInt64) :
    (s.login cfg clock o iom request session claims).2.presence u =
      s.presence u ++
        if claims.userId = u ∧ s.registry.isUserOnline claims.userId = false
        then [true] else [] := by
  obtain ⟨_, hqueue, hpresence⟩ :=
    announced_spec cfg clock o iom session claims s
  rw [login_server]
  cases honline : s.registry.isUserOnline claims.userId with
  | true => simp [hpresence]
  | false =>
      have hstill : (s.announced cfg clock o iom session claims).Accepting cfg := by
        simp only [Accepting]
        rw [hqueue]
        exact haccepting
      simp only [Bool.false_eq_true, if_false, publish_presence hstill, hpresence,
        presence?_userOnlineTask, and_true]
      split_ifs <;> rfl

/-- The request of a login names its user and device. -/
theorem identity_markRequest (P : Platform) (claims : JwtClaims)
    (deviceId : StdString) (request : HttpRequest) :
    identity P (markRequest claims deviceId request) =
      (claims.userId, deviceId) := by
  simp [identity, markRequest, P.atoi_decimal]

/-! What a close does. -/

theorem onClose_registry {P : Platform} {cfg : ChatConfig}
    {request : HttpRequest} {s : Server} {uid : UInt64} {did : StdString}
    (hidentity : identity P request = (uid, did)) (huid : uid ≠ 0)
    (hdid : did ≠ []) :
    (s.onClose P cfg request).registry = (s.registry.remove uid did).2 := by
  simp only [onClose]
  rw [hidentity]
  simp only [huid, hdid, or_self, if_false]
  split_ifs
  · rfl
  · rw [publish_registry]

/-- A close publishes one offline event if it leaves the user without a
registered device. -/
theorem onClose_presence {P : Platform} {cfg : ChatConfig}
    {request : HttpRequest} {s : Server} {uid : UInt64} {did : StdString}
    (hidentity : identity P request = (uid, did)) (huid : uid ≠ 0)
    (hdid : did ≠ []) (haccepting : s.Accepting cfg) (u : UInt64) :
    (s.onClose P cfg request).presence u = s.presence u ++
      if uid = u ∧ (s.registry.remove uid did).2.isUserOnline uid = false
      then [false] else [] := by
  simp only [onClose]
  rw [hidentity]
  simp only [huid, hdid, or_self, if_false]
  cases honline : (s.registry.remove uid did).2.isUserOnline uid with
  | true => simp [presence]
  | false =>
      have hstill : Accepting cfg
          { s with registry := (s.registry.remove uid did).2 } := haccepting
      simp only [Bool.false_eq_true, if_false, publish_presence hstill,
        presence?_userOfflineTask, and_true]
      split_ifs <;> rfl

/-- The presence event of a close, if there is one. -/
def offlineEffects (cfg : ChatConfig) (uid : UInt64) (did : StdString)
    (s : Server) : List Effect :=
  if (s.registry.remove uid did).2.isUserOnline uid then []
  else s.publishEffects cfg (MqPublisher.userOfflineTask uid)

/-- What `onClose` does; a request that names nobody does nothing. -/
def leaveEffects (P : Platform) (cfg : ChatConfig) (request : HttpRequest)
    (s : Server) : List Effect :=
  match identity P request with
  | (uid, did) => if uid = 0 ∨ did = [] then [] else s.offlineEffects cfg uid did

section

variable {scope : Scope}

theorem does_onClose {cfg : ChatConfig}
    (hroom : toSizeT cfg.rabbitmq.publisherQueueCapacity ≤ scope.room)
    (hpublishes : ∀ uid, scope.publishes (MqPublisher.userOfflineTask uid))
    (hregisters : ∀ r r', scope.registers r r') (P : Platform)
    (request : HttpRequest) (s : Server) :
    Does scope (s.leaveEffects P cfg request) s (s.onClose P cfg request) := by
  simp only [onClose, leaveEffects]
  generalize identity P request = who
  obtain ⟨uid, did⟩ := who
  have hremoved : Does scope [] s
      { s with registry := (s.registry.remove uid did).2 } :=
    .register _ s (hregisters _ _)
  simp only [offlineEffects]
  split_ifs
  · exact .nothing s
  · exact hremoved
  · have hpublished : Does scope _ { s with
        registry := (s.registry.remove uid did).2 } _ :=
      does_publish hroom (hpublishes uid) _
    exact hremoved.after hpublished

/-! What a client frame does. -/

theorem does_spendToken (hregisters : ∀ r r', SessionRegistry.SameEntries r r' →
      scope.registers r r') (cfg : ChatConfig) (nowMs : Int) (uid : UInt64)
    (did : StdString) (s : Server) :
    Does scope [] s (s.spendToken cfg nowMs uid did).2 := by
  simp only [spendToken]
  cases s.registry.get uid did with
  | none => exact .nothing s
  | some conn =>
      exact .register _ s (hregisters _ _ (SessionRegistry.sameEntries_modify
        s.registry uid did fun c => c.sameConn_consumeToken nowMs _))

end

theorem answered_dispatchFrame (P : Platform) (cfg : ChatConfig) (clock : Clock)
    (registers : SessionRegistry → SessionRegistry → Prop) (uid : UInt64)
    (did : StdString) (session : SessionId) (frame : ClientFrame) (s : Server) :
    Answered (.ofFrame cfg clock registers) uid session s
      (s.dispatchFrame P cfg clock uid did session frame).2 := by
  have hcounted : Does (.ofFrame cfg clock registers) [] s
      { s with metrics := s.metrics.incWsIn frame.type } := .count _ s rfl rfl
  simp only [dispatchFrame]
  split_ifs
  · split
    · exact hcounted.answered
    · next ts _ =>
        refine ⟨_, ?_, .pong ts frame.hasSeq frame.seq⟩
        exact hcounted.after ((Does.perform (.sendFrame session _) _).andThen
          (.perform (.incWsOut (lit "pong")) _))
  · exact hcounted.then_answered (answered_handleMsgSend P le_rfl (fun _ => id)
      (fun _ => id) trivial did frame.hasSeq frame.seq frame.data _)
  · exact hcounted.then_answered (answered_handleMsgAck P le_rfl (fun _ => id)
      clock frame.hasSeq frame.seq frame.data _)
  · exact (hcounted.after (does_handleMsgRead P frame.data _)).answered
  · exact hcounted.answered
  · exact hcounted.then_answered (answered_error 404 _ frame.hasSeq frame.seq _)

/-- Whatever a client sends, only its own session hears of it at once, what is
published speaks for the user of the request, and of the registry buckets and
activity stamps change at most. -/
theorem answered_handle (P : Platform) (cfg : ChatConfig) (clock : Clock)
    (request : HttpRequest) (isText : Bool) (data : StdString)
    (session : SessionId) (s : Server) :
    Answered (.ofFrame cfg clock SessionRegistry.SameEntries)
      (identity P request).1 session s
      (s.handle P cfg clock request isText data session).2 := by
  unfold handle
  split_ifs
  · exact answered_error 400 _ false 0 s
  · generalize identity P request = who
    obtain ⟨uid, did⟩ := who
    simp only
    split_ifs
    · exact answered_error 401 _ false 0 s
    · have hspent : Does (.ofFrame cfg clock SessionRegistry.SameEntries) [] s
          (s.spendToken cfg clock.nowMs uid did).2 :=
        does_spendToken (fun _ _ => id) cfg clock.nowMs uid did s
      generalize s.spendToken cfg clock.nowMs uid did = spent at hspent
      obtain ⟨_ | _, s'⟩ := spent
      · exact hspent.then_answered (answered_error 429 _ false 0 s')
      · have htouched := hspent.after (.register _ s'
          (SessionRegistry.sameEntries_touch s'.registry uid did clock.nowMs))
        simp only
        rcases parseClientFrame P data with thrown | err | frame
        · exact htouched.answered
        · exact htouched.then_answered (answered_error 400 err false 0 _)
        · exact htouched.then_answered (answered_dispatchFrame P cfg clock _ uid did
            session frame _)

/-- A client frame changes buckets and activity stamps at most. -/
theorem handle_same (P : Platform) (cfg : ChatConfig) (clock : Clock)
    (request : HttpRequest) (isText : Bool) (data : StdString)
    (session : SessionId) (s : Server) :
    s.registry.SameEntries
        (s.handle P cfg clock request isText data session).2.registry ∧
      ∀ u, (s.handle P cfg clock request isText data session).2.presence u =
        s.presence u := by
  obtain ⟨said, hdoes, _⟩ := answered_handle P cfg clock request isText data session s
  exact ⟨hdoes.registry_related SessionRegistry.SameEntries.refl
      SessionRegistry.SameEntries.trans fun _ _ => id,
    hdoes.presence_eq fun _ => id⟩

/-! What the timer does. -/

theorem does_onTimer {scope : Scope} (hforgets : scope.forgets) (cfg : ChatConfig)
    (nowMs : Int) (s : Server) :
    Does scope ((s.registry.collectTimeouted
        (nowMs - cfg.chat.heartbeatTimeoutSeconds.toInt * 1000)).flatMap
          closeEffects) s (s.onTimer cfg nowMs) := by
  have hclosed : Does scope _ s _ :=
    does_foldl (fun s conn => does_closeSessionOnOwner conn s)
      (s.registry.collectTimeouted
        (nowMs - cfg.chat.heartbeatTimeoutSeconds.toInt * 1000)) s
  exact hclosed.silently (does_sweepPending hforgets cfg nowMs _)

theorem onTimer_same (cfg : ChatConfig) (nowMs : Int) (s : Server) :
    (s.onTimer cfg nowMs).registry = s.registry ∧
      ∀ u, (s.onTimer cfg nowMs).presence u = s.presence u := by
  have hdoes : Does { forgets := True } _ s _ := does_onTimer trivial cfg nowMs s
  exact ⟨hdoes.registry_eq fun _ _ => id, hdoes.presence_eq fun _ => False.elim⟩

/-! The frames of a login. -/

theorem frames_kickEffects (reason : StdString) (conn : OnlineConn) :
    (kickEffects reason conn).flatMap Effect.frames =
      [kickedFrame reason conn] := by
  have hclose : (closeEffects conn).flatMap Effect.frames = [] := by
    rw [closeEffects]
    cases conn.ioManager <;> simp [Effect.frames, Action.frame?]
  rw [kickEffects, List.flatMap_append, frames_ownerEffects, hclose]
  rfl

theorem frames_handedBackEffects (added : SessionRegistry.AddResult) :
    (handedBackEffects added).flatMap Effect.frames = kickedFrames added := by
  have heach : ∀ (reason : StdString) (conns : List OnlineConn),
      (conns.flatMap (kickEffects reason)).flatMap Effect.frames =
        conns.map (kickedFrame reason) := by
    intro reason conns
    rw [List.flatMap_assoc, List.map_eq_flatMap]
    exact List.flatMap_congr fun conn _ => frames_kickEffects reason conn
  rw [handedBackEffects, List.flatMap_append, heach, heach, kickedFrames]

theorem mem_kickedFrames {added : SessionRegistry.AddResult}
    {one : SessionId × Frame} (hone : one ∈ kickedFrames added) :
    ∃ conn ∈ added.replaced.toList ++ added.evicted, conn.session = one.1 := by
  rcases List.mem_append.mp hone with hreplaced | hevicted
  · obtain ⟨conn, hconn, rfl⟩ := List.mem_map.mp hreplaced
    exact ⟨conn, List.mem_append_left _ hconn, rfl⟩
  · obtain ⟨conn, hconn, rfl⟩ := List.mem_map.mp hevicted
    exact ⟨conn, List.mem_append_right _ hconn, rfl⟩

theorem frames_authOkEffects (clock : Clock) (conn : OnlineConn) :
    (authOkEffects clock conn).flatMap Effect.frames =
      [authOkFrame clock conn] := rfl

theorem frames_publishEffects (cfg : ChatConfig) (task : Task) (s : Server) :
    (s.publishEffects cfg task).flatMap Effect.frames = [] := by
  rw [publishEffects]
  split_ifs <;> rfl

theorem frames_onlineEffects (cfg : ChatConfig) (uid : UInt64) (s : Server) :
    (s.onlineEffects cfg uid).flatMap Effect.frames = [] := by
  rw [onlineEffects]
  split_ifs
  · rfl
  · exact frames_publishEffects cfg _ s

theorem frames_offlineEffects (cfg : ChatConfig) (uid : UInt64) (did : StdString)
    (s : Server) : (s.offlineEffects cfg uid did).flatMap Effect.frames = [] := by
  rw [offlineEffects]
  split_ifs
  · rfl
  · exact frames_publishEffects cfg _ s

/-- Those handed back are told first, then the newcomer is welcomed. -/
theorem frames_login (cfg : ChatConfig) (clock : Clock)
    (o : IterOrder Devices.Entry) (iom : Option IoManager)
    (request : HttpRequest) (session : SessionId) (claims : JwtClaims)
    (s : Server) :
    let conn := newConn cfg clock iom session claims.userId
      (s.deviceIdFor claims).1
    (s.login cfg clock o iom request session claims).2.frames =
      s.frames ++ (kickedFrames (s.registry.add o conn
        (toSizeT cfg.chat.maxDevicesPerUser)) ++ [authOkFrame clock conn]) := by
  intro conn
  have hannounced : Does { registers := fun _ _ => True } _ s _ :=
    does_announced (fun _ _ => trivial) cfg clock o iom session claims s
  have hframes := hannounced.frames
  rw [List.flatMap_append, frames_handedBackEffects, frames_authOkEffects] at hframes
  rw [login_server]
  split_ifs
  · exact hframes
  · rw [publish_eq_publishAs, (publishAs_same _ _ _).2.2.1]
    exact hframes

end Server

end FlzChat
