/-
Which sessions the server closes, and why.  A refusal closes its own session, a
login the connections `Add` has handed back, the timer those that have not been
heard of since the heartbeat timeout, and a frame the session that sends it when
it is no text, finds no token or says `bye`.
-/
import FlzChat.Audience
import FlzChat.FrameTokens
import FlzChat.LiveConnections
import FlzChat.RegistryInvariant

namespace FlzChat

/-- A token taken or refused is no sign of life by itself. -/
theorem OnlineConn.lastActiveTs_consumeToken (c : OnlineConn)
    (nowMs rateLimit : Int) :
    (c.consumeToken nowMs rateLimit).2.lastActiveTs = c.lastActiveTs := by
  have hrefill : (c.refill nowMs rateLimit).lastActiveTs = c.lastActiveTs := by
    simp only [refill]
    split <;> rfl
  simp only [consumeToken]
  split <;> exact hrefill

/-- The session an action closes. -/
def Action.close? : Action → Option SessionId
  | close session => some session
  | _ => none

/-- The sessions an effect closes, at once or later. -/
def Effect.closes : Effect → List SessionId
  | now action => action.close?.toList
  | scheduled _ actions => actions.filterMap Action.close?
  | enqueued _ => []

theorem SessionRegistry.mem_collectTimeouted {r : SessionRegistry}
    {deadlineMs : Int} {c : OnlineConn} :
    c ∈ r.collectTimeouted deadlineMs ↔
      (∃ u d, r.get u d = some c) ∧ c.lastActiveTs ≤ deadlineMs := by
  constructor
  · intro hc
    refine ⟨mem_of_mem_collectTimeouted hc, ?_⟩
    obtain ⟨user, _, hmem⟩ := List.mem_flatMap.mp hc
    simpa using (List.mem_filter.mp hmem).2
  · rintro ⟨⟨u, d, hget⟩, hsilent⟩
    simp only [get, Option.bind_eq_some_iff] at hget
    obtain ⟨devices, hdevices, hconn⟩ := hget
    refine List.mem_flatMap.mpr ⟨⟨u, devices⟩, AList.mem_lookup_iff.mp hdevices, ?_⟩
    refine List.mem_filter.mpr ⟨?_, by simpa using hsilent⟩
    exact List.mem_map.mpr ⟨⟨d, c⟩, AList.mem_lookup_iff.mp hconn, rfl⟩

namespace Server

/-- Whether at once or later, the same sessions are closed. -/
theorem closes_ownerEffects (iom : Option IoManager) (actions : List Action) :
    (ownerEffects iom actions).flatMap Effect.closes =
      actions.filterMap Action.close? := by
  cases iom with
  | some iom => simp [ownerEffects, Effect.closes]
  | none =>
      simp only [ownerEffects, List.flatMap_map]
      induction actions with
      | nil => rfl
      | cons action actions ih =>
          rw [List.flatMap_cons, ih]
          cases hclose : action.close? <;> simp [Effect.closes, hclose]

theorem closes_closeEffects (conn : OnlineConn) :
    (closeEffects conn).flatMap Effect.closes = [conn.session] := by
  rw [closeEffects]
  cases conn.ioManager <;> rfl

theorem closes_handedBackEffects (added : SessionRegistry.AddResult) :
    (handedBackEffects added).flatMap Effect.closes =
      added.handedBack.map (·.session) := by
  have hkick : ∀ reason conn,
      (kickEffects reason conn).flatMap Effect.closes = [conn.session] := by
    intro reason conn
    rw [kickEffects, List.flatMap_append, closes_ownerEffects,
      closes_closeEffects]
    rfl
  have heach : ∀ (reason : StdString) (conns : List OnlineConn),
      (conns.flatMap (kickEffects reason)).flatMap Effect.closes =
        conns.map (·.session) := by
    intro reason conns
    rw [List.flatMap_assoc, List.map_eq_flatMap]
    exact List.flatMap_congr fun conn _ => hkick reason conn
  rw [handedBackEffects, List.flatMap_append, heach, heach,
    SessionRegistry.AddResult.handedBack, List.map_append]

theorem closes_publishEffects (cfg : ChatConfig) (task : Task) (s : Server) :
    (s.publishEffects cfg task).flatMap Effect.closes = [] := by
  rw [publishEffects]
  split_ifs <;> rfl

theorem closes_pushEffects (o : IterOrder Devices.Entry)
    (registry : SessionRegistry) (pushes : List Push) :
    (pushEffects o registry pushes).flatMap Effect.closes = [] := by
  simp only [pushEffects, Push.effects, List.flatMap_assoc,
    closes_ownerEffects]
  simp [Action.close?]

theorem Answers.closes {uid : UInt64} {session : SessionId}
    {said : List Effect} (hanswers : Answers uid session said) :
    said.flatMap Effect.closes = [] := by
  cases hanswers <;> rfl

/-! The sessions `handle` ends by what it returns. -/

/-- `handle` returns, and not 0: the session is over. -/
def ends : Except Thrown Int32 → Bool
  | .ok code => code != 0
  | .error _ => false

theorem ends_handleMsgSend (P : Platform) (cfg : ChatConfig) (clock : Clock)
    (uid : UInt64) (did : StdString) (session : SessionId) (hasSeq : Bool)
    (seq : Int64) (data : Json) (s : Server) :
    ends (s.handleMsgSend P cfg clock uid did session hasSeq seq data).1 =
      false := by
  simp only [handleMsgSend, handleMsgSendWith]
  cases MsgSend.read P.json data with
  | error thrown => rfl
  | ok msg =>
      simp only
      generalize (if msg.sentAt = [] then { msg with sentAt := clock.iso8601Now }
        else msg) = msg
      split_ifs
      · rfl
      · rfl
      · split <;> rfl

theorem ends_handleMsgAck (P : Platform) (cfg : ChatConfig) (clock : Clock)
    (uid : UInt64) (session : SessionId) (hasSeq : Bool) (seq : Int64)
    (data : Json) (s : Server) :
    ends (s.handleMsgAck P cfg clock uid session hasSeq seq data).1 = false := by
  simp only [handleMsgAck]
  cases data.getInt64 P.json (lit "messageId") with
  | error thrown => rfl
  | ok messageId =>
      simp only
      split_ifs
      · rfl
      · split <;> rfl

theorem ends_handleMsgRead (P : Platform) (data : Json) (s : Server) :
    ends (s.handleMsgRead P data).1 = false := by
  simp only [handleMsgRead]
  split_ifs
  · rfl
  · split <;> rfl

/-- Of the frames that are parsed only `bye` ends its session. -/
theorem ends_dispatchFrame (P : Platform) (cfg : ChatConfig) (clock : Clock)
    (uid : UInt64) (did : StdString) (session : SessionId) (frame : ClientFrame)
    (s : Server) :
    ends (s.dispatchFrame P cfg clock uid did session frame).1 = true ↔
      frame.type = lit "bye" := by
  have hother : ∀ {type : String} {code : Except Thrown Int32},
      frame.type = lit type → type ≠ "bye" → ends code = false →
        (ends code = true ↔ frame.type = lit "bye") := by
    intro type code htype hne hcode
    rw [hcode, htype, lit_inj]
    simpa using hne
  simp only [dispatchFrame]
  split_ifs with hping hsend hack hread hbye
  · refine hother hping (by decide) ?_
    split <;> rfl
  · exact hother hsend (by decide) (ends_handleMsgSend ..)
  · exact hother hack (by decide) (ends_handleMsgAck ..)
  · exact hother hread (by decide) (ends_handleMsgRead ..)
  · exact iff_of_true rfl hbye
  · exact iff_of_false (by simp [ends]) hbye

/-- The text is a frame of type `bye`. -/
def SaysBye (P : Platform) (data : StdString) : Prop :=
  ∃ frame, parseClientFrame P data = .ok (.ok frame) ∧ frame.type = lit "bye"

/-- A frame of an identified request ends its session when it is no text, when
no token is left for it, or when it says `bye`. -/
theorem ends_handle {P : Platform} (cfg : ChatConfig) (clock : Clock)
    {request : HttpRequest} {uid : UInt64} {did : StdString}
    (hidentity : identity P request = (uid, did)) (huid : uid ≠ 0)
    (hdid : did ≠ []) (isText : Bool) (data : StdString) (session : SessionId)
    (s : Server) :
    ends (s.handle P cfg clock request isText data session).1 = true ↔
      isText = false ∨ (s.spendToken cfg clock.nowMs uid did).1 = false ∨
        SaysBye P data := by
  simp only [handle]
  rw [hidentity]
  cases isText with
  | false => simp [ends]
  | true =>
      simp only [Bool.true_eq_false, huid, hdid, or_self, if_false, false_or]
      rcases s.spendToken cfg clock.nowMs uid did with ⟨_ | _, s'⟩
      · simp [ends]
      · simp only [Bool.true_eq_false, false_or, SaysBye]
        cases parseClientFrame P data with
        | error thrown => simp [ends]
        | ok parsed =>
            cases parsed with
            | error err => simp [ends]
            | ok frame => simp [ends_dispatchFrame]

end Server

namespace Hub

/-- The session that is over once its frame has been handled. -/
def ended (P : Platform) (cfg : ChatConfig) (hub : Hub) : Event → List SessionId
  | .frame session clock isText data =>
      match hub.login? session with
      | none => []
      | some login =>
          if Server.ends (hub.server.handle P cfg clock login.request isText data
              session).1 then [session]
          else []
  | _ => []

/-- The sessions a step closes, by a call or by what `handle` returns. -/
def closings (P : Platform) (cfg : ChatConfig) (hub : Hub) (e : Event) :
    List SessionId :=
  (deeds P cfg hub e).flatMap Effect.closes ++ ended P cfg hub e

/-- What a step lets the server hear of, with the reading of the clock: a login,
or a text frame that passes the rate check, under user and device. -/
def heard (P : Platform) (cfg : ChatConfig) (hub : Hub) :
    Event → List ((UInt64 × StdString) × Int)
  | .connect clock _ _ request _ =>
      match Server.tokenVerdict P cfg clock request with
      | .ok (.ok claims) =>
          [((claims.userId, (hub.server.deviceIdFor claims).1), clock.nowMs)]
      | _ => []
  | .frame session clock true _ =>
      match hub.login? session with
      | none => []
      | some login =>
          if (hub.server.spendToken cfg clock.nowMs login.userId
              login.deviceId).1 then
            [((login.userId, login.deviceId), clock.nowMs)]
          else []
  | _ => []

/-- When a device was last heard of. -/
def lastHeard (record : List ((UInt64 × StdString) × Int))
    (device : UInt64 × StdString) : Option Int :=
  record.foldl (fun last one => if one.1 = device then some one.2 else last) none

@[simp]
theorem lastHeard_concat (record : List ((UInt64 × StdString) × Int))
    (one : (UInt64 × StdString) × Int) (device : UInt64 × StdString) :
    lastHeard (record ++ [one]) device =
      if one.1 = device then some one.2 else lastHeard record device := by
  simp [lastHeard]

/-- The activity stamps of the registered connections are the times their
devices were last heard of. -/
def Stamped (hub : Hub) (record : List ((UInt64 × StdString) × Int)) : Prop :=
  ∀ u d c, hub.registry.get u d = some c →
    lastHeard record (u, d) = some c.lastActiveTs

section

variable {P : Platform} {cfg : ChatConfig} {hub : Hub}
  {record : List ((UInt64 × StdString) × Int)}

theorem Stamped.of_get {hub' : Hub} (hstamped : hub.Stamped record)
    (hget : ∀ {u d c}, hub'.registry.get u d = some c →
      hub.registry.get u d = some c) : hub'.Stamped (record ++ []) := by
  intro u d c hnow
  rw [List.append_nil]
  exact hstamped u d c (hget hnow)

theorem Stamped.connect (hstamped : hub.Stamped record) (clock : Clock)
    (o : IterOrder Devices.Entry) (iom : Option IoManager)
    (request : HttpRequest) (session : SessionId) :
    ((machine P cfg).step hub (.connect clock o iom request session)).Stamped
      (record ++ heard P cfg hub (.connect clock o iom request session)) := by
  simp only [heard]
  rcases hverdict : Server.tokenVerdict P cfg clock request with
    thrown | err | claims
  · rw [step_connect_of_throw hverdict]
    exact hstamped.of_get id
  · rw [step_connect_of_refused hverdict]
    exact hstamped.of_get id
  · rw [step_connect_of_accepted hverdict]
    intro u d c hget
    rw [loggedIn_registry] at hget
    have hadd := added_spec cfg clock o iom session claims hub
    rw [lastHeard_concat]
    rcases hadd.get_cases hget with ⟨rfl, rfl, rfl⟩ | ⟨hkey, hold⟩
    · exact if_pos rfl
    · have hother : ¬ (claims.userId, (hub.server.deviceIdFor claims).1) =
          (u, d) := by
        intro heq
        obtain ⟨rfl, rfl⟩ := Prod.mk.inj heq
        exact hkey.elim (fun hne => hne rfl) fun hne => hne rfl
      rw [if_neg hother]
      exact hstamped u d c hold

/-- A frame stamps the connection of its device when a token is left for it. -/
theorem Stamped.frame (hsound : Sound P hub) (hstamped : hub.Stamped record)
    {login : Login} (hmem : login ∈ hub.opened) (clock : Clock) (isText : Bool)
    (data : StdString) :
    ((machine P cfg).step hub (.frame login.session clock isText data)).Stamped
      (record ++ heard P cfg hub (.frame login.session clock isText data)) := by
  rw [hsound.step_frame hmem]
  cases isText with
  | false => exact hstamped.of_get id
  | true =>
      simp only [heard, hsound.login?_of_mem hmem]
      intro u d c hget
      have hcharged := hsound.get_afterFrame cfg clock data hmem u d
      rw [afterFrame] at hcharged
      change (hub.server.handle P cfg clock login.request true data
        login.session).2.registry.get u d = some c at hget
      rw [hcharged] at hget
      by_cases hkey : u = login.userId ∧ d = login.deviceId
      · obtain ⟨rfl, rfl⟩ := hkey
        rw [if_pos ⟨rfl, rfl⟩] at hget
        obtain ⟨c₀, hc₀, hc⟩ := Option.map_eq_some_iff.mp hget
        have hspent : (hub.server.spendToken cfg clock.nowMs login.userId
            login.deviceId).1 = (c₀.consumeToken clock.nowMs
              cfg.chat.frameRateLimitPerSecond.toInt).1 := by
          have hget₀ : hub.server.registry.get login.userId login.deviceId =
            some c₀ := hc₀
          simp only [Server.spendToken, hget₀]
        rw [hspent]
        simp only at hc
        split_ifs at hc ⊢ with htoken
        · rw [lastHeard_concat, if_pos rfl, ← hc]
          rfl
        · rw [List.append_nil, hstamped _ _ _ hc₀, ← hc,
            OnlineConn.lastActiveTs_consumeToken]
      · rw [if_neg hkey] at hget
        have hother : ¬ (login.userId, login.deviceId) = (u, d) := by
          intro heq
          obtain ⟨rfl, rfl⟩ := Prod.mk.inj heq
          exact hkey ⟨rfl, rfl⟩
        split_ifs
        · rw [lastHeard_concat, if_neg hother]
          exact hstamped u d c hget
        · rw [List.append_nil]
          exact hstamped u d c hget

theorem Stamped.step (hsound : Sound P hub) (hstamped : hub.Stamped record)
    {e : Event} (henabled : (machine P cfg).enabled hub e) :
    ((machine P cfg).step hub e).Stamped (record ++ heard P cfg hub e) := by
  cases e with
  | connect clock o iom request session =>
      exact hstamped.connect clock o iom request session
  | close session =>
      obtain ⟨⟨login, hmem, rfl⟩, _⟩ := henabled
      rw [hsound.step_close hmem]
      refine hstamped.of_get fun hget => ?_
      rw [hsound.closeLogin_registry cfg hmem] at hget
      exact SessionRegistry.get_of_get_remove hget
  | frame session clock isText data =>
      obtain ⟨⟨login, hmem, rfl⟩, _⟩ := henabled
      exact hstamped.frame hsound hmem clock isText data
  | envelope o clock env =>
      refine hstamped.of_get fun hget => ?_
      have hsame := (Server.onEnvelope_same P o clock env hub.server).1
      rwa [registry, machine, hsame] at hget
  | timer nowMs =>
      refine hstamped.of_get fun hget => ?_
      have hsame := (Server.onTimer_same cfg nowMs hub.server).1
      rwa [registry, machine, hsame] at hget
  | drain => exact hstamped.of_get id

theorem stamped_run (P : Platform) (cfg : ChatConfig) (es : List Event)
    (hadm : (machine P cfg).Admissible {} es) :
    Proven P cfg ((machine P cfg).run {} es) ∧
      ((machine P cfg).run {} es).Stamped
        ((machine P cfg).trace (heard P cfg) {} es) := by
  have hinit : ({} : Hub).Stamped [] := by
    intro u d c hget
    simp [registry, SessionRegistry.get] at hget
  have hstep : ∀ (hub : Hub) record e,
      (Proven P cfg hub ∧ hub.Stamped record) → (machine P cfg).enabled hub e →
        (Proven P cfg ((machine P cfg).step hub e) ∧
          ((machine P cfg).step hub e).Stamped (record ++ heard P cfg hub e)) := by
    intro hub record e hinv henabled
    exact ⟨proven_step P cfg hub e hinv.1 henabled,
      hinv.2.step hinv.1.toSound henabled⟩
  exact Machine.inv_run_trace hstep ⟨proven_initial P cfg, hinit⟩ hadm

/-! Why a session is closed. -/

/-- The device of a login was last heard of before the heartbeat timeout. -/
def Silent (cfg : ChatConfig) (record : List ((UInt64 × StdString) × Int))
    (nowMs : Int) (login : Login) : Prop :=
  ∃ t, lastHeard record (login.userId, login.deviceId) = some t ∧
    t + cfg.chat.heartbeatTimeoutSeconds.toInt * 1000 ≤ nowMs

/-- No token is left for a frame of the login. -/
def Exhausted (cfg : ChatConfig) (hub : Hub) (nowMs : Int) (login : Login) : Prop :=
  ∃ c, hub.registry.get login.userId login.deviceId = some c ∧
    (c.consumeToken nowMs cfg.chat.frameRateLimitPerSecond.toInt).1 = false

/-- Why an event may close a session: it is the one refused, it has just been
handed back by `Add`, it sends what is no text, a frame for which no token is
left or a `bye`, or it is registered and its device is silent. -/
def ClosedFor (P : Platform) (cfg : ChatConfig) (hub : Hub)
    (record : List ((UInt64 × StdString) × Int)) (e : Event)
    (session : SessionId) : Prop :=
  match e with
  | .connect clock _ _ request newcomer =>
      (session = newcomer ∧
        ∃ err, Server.tokenVerdict P cfg clock request = .ok (.error err)) ∨
      (session ∈ ((machine P cfg).step hub e).kicked ∧ session ∉ hub.kicked)
  | .frame speaking clock isText data =>
      session = speaking ∧ ∃ login ∈ hub.opened, login.session = session ∧
        (isText = false ∨ hub.Exhausted cfg clock.nowMs login ∨
          Server.SaysBye P data)
  | .timer nowMs =>
      ∃ login ∈ hub.opened, login.session = session ∧ hub.Registered login ∧
        Silent cfg record nowMs login
  | _ => False

theorem Sound.not_kicked_of_handedBack (hsound : Sound P hub)
    {session : SessionId}
    (hfresh : ∀ login ∈ hub.opened, login.session ≠ session) (clock : Clock)
    (o : IterOrder Devices.Entry) (iom : Option IoManager) (claims : JwtClaims)
    {conn : OnlineConn}
    (hconn : conn ∈ (hub.added cfg clock o iom session claims).handedBack) :
    conn.session ∉ hub.kicked := by
  intro hkicked
  have hadd := added_spec cfg clock o iom session claims hub
  rcases hadd.handedBack_cases hconn with ⟨rfl, _⟩ | ⟨d, hget, _⟩
  · obtain ⟨login, hmem, hsame⟩ := hsound.kicked _ hkicked
    exact hfresh login hmem hsame
  · obtain ⟨login, hlive, hsession, _⟩ := hsound.registered _ d conn hget
    rw [← hsession] at hkicked
    exact hlive.2.2 hkicked

theorem Sound.mem_closings_connect (hsound : Sound P hub) {clock : Clock}
    {o : IterOrder Devices.Entry} {iom : Option IoManager} {request : HttpRequest}
    {newcomer : SessionId}
    (hfresh : ∀ login ∈ hub.opened, login.session ≠ newcomer)
    (session : SessionId) :
    session ∈ closings P cfg hub (.connect clock o iom request newcomer) ↔
      ClosedFor P cfg hub record (.connect clock o iom request newcomer)
        session := by
  simp only [closings, ended, List.append_nil, deeds_connect, ClosedFor]
  rcases hverdict : Server.tokenVerdict P cfg clock request with
    thrown | err | claims
  · rw [step_connect_of_throw hverdict]
    simp
  · rw [step_connect_of_refused hverdict]
    simp [Server.refuseEffects, Effect.closes, Action.close?]
  · rw [step_connect_of_accepted hverdict]
    have hpublished : (hub.server.onlineEffects cfg
        claims.userId).flatMap Effect.closes = [] := by
      rw [Server.onlineEffects]
      split_ifs
      · rfl
      · exact Server.closes_publishEffects cfg _ _
    have hgreeted : ∀ conn, (Server.authOkEffects clock conn).flatMap
        Effect.closes = [] := fun _ => rfl
    simp only [List.flatMap_append, Server.closes_handedBackEffects, hgreeted,
      hpublished, List.append_nil]
    constructor
    · intro hmem
      obtain ⟨conn, hconn, rfl⟩ := List.mem_map.mp hmem
      exact Or.inr ⟨List.mem_append_left _ hmem,
        hsound.not_kicked_of_handedBack hfresh clock o iom claims hconn⟩
    · rintro (⟨_, _, hrefused⟩ | ⟨hkicked, hnot⟩)
      · simp at hrefused
      · exact (List.mem_append.mp hkicked).resolve_right hnot

/-- Without a connection nothing is taken, and nothing found wanting. -/
theorem spendToken_eq_false_iff (cfg : ChatConfig) (nowMs : Int) (login : Login) :
    (hub.server.spendToken cfg nowMs login.userId login.deviceId).1 = false ↔
      hub.Exhausted cfg nowMs login := by
  simp only [Exhausted, registry, Server.spendToken]
  cases hub.server.registry.get login.userId login.deviceId <;> simp

theorem Sound.mem_closings_frame (hsound : Sound P hub) {login : Login}
    (hmem : login ∈ hub.opened) (clock : Clock) (isText : Bool) (data : StdString)
    (session : SessionId) :
    session ∈ closings P cfg hub (.frame login.session clock isText data) ↔
      ClosedFor P cfg hub record (.frame login.session clock isText data)
        session := by
  obtain ⟨hidentity, huser, hdevice⟩ := hsound.identified login hmem
  have hends := Server.ends_handle cfg clock hidentity huser hdevice isText data
    login.session hub.server
  rw [spendToken_eq_false_iff] at hends
  simp only [closings, (hsound.deeds_frame hmem clock isText data).closes, ended,
    hsound.login?_of_mem hmem, List.nil_append, ClosedFor]
  constructor
  · intro hended
    split_ifs at hended with hover
    · obtain rfl := List.mem_singleton.mp hended
      exact ⟨rfl, login, hmem, rfl, hends.mp hover⟩
    · contradiction
  · rintro ⟨rfl, other, hother, hsame, hcause⟩
    obtain rfl := hsound.login_unique hother hmem hsame
    rw [if_pos (hends.mpr hcause)]
    exact List.mem_singleton_self _

theorem Proven.mem_closings_timer (hproven : Proven P cfg hub)
    (hstamped : hub.Stamped record) (nowMs : Int) (session : SessionId) :
    session ∈ closings P cfg hub (.timer nowMs) ↔
      ClosedFor P cfg hub record (.timer nowMs) session := by
  have hclosings : closings P cfg hub (.timer nowMs) =
      (hub.registry.collectTimeouted
        (nowMs - cfg.chat.heartbeatTimeoutSeconds.toInt * 1000)).map
          (·.session) := by
    simp only [closings, ended, List.append_nil]
    rw [deeds_timer, List.flatMap_assoc, List.map_eq_flatMap]
    exact List.flatMap_congr fun conn _ => Server.closes_closeEffects conn
  rw [hclosings, List.mem_map]
  constructor
  · rintro ⟨c, hc, rfl⟩
    obtain ⟨⟨u, d, hget⟩, hsilent⟩ := SessionRegistry.mem_collectTimeouted.mp hc
    obtain ⟨login, hlive, hsession, rfl, rfl⟩ := hproven.registered u d c hget
    refine ⟨login, hlive.1, hsession, ⟨c, hget, hsession.symm⟩, _,
      hstamped _ _ _ hget, ?_⟩
    omega
  · rintro ⟨login, _, hsession, ⟨c, hget, hsame⟩, t, hlast, hsilent⟩
    refine ⟨c, SessionRegistry.mem_collectTimeouted.mpr ⟨⟨_, _, hget⟩, ?_⟩,
      hsame.trans hsession⟩
    rw [hstamped _ _ _ hget, Option.some.injEq] at hlast
    omega

/-- In every run the server closes a session exactly when it refuses it, hands
it back from `Add`, gets from it what is no text, what finds no token or a `bye`,
or at a tick has not heard of its device for the timeout. -/
theorem closed_exactly_for_cause (P : Platform) (cfg : ChatConfig)
    (es : List Event) (e : Event)
    (hadm : (machine P cfg).Admissible {} (es ++ [e])) (session : SessionId) :
    session ∈ closings P cfg ((machine P cfg).run {} es) e ↔
      ClosedFor P cfg ((machine P cfg).run {} es)
        ((machine P cfg).trace (heard P cfg) {} es) e session := by
  obtain ⟨hadm, henabled⟩ := Machine.admissible_concat.mp hadm
  obtain ⟨hproven, hstamped⟩ := stamped_run P cfg es hadm
  generalize (machine P cfg).run {} es = hub at henabled hproven hstamped ⊢
  generalize (machine P cfg).trace (heard P cfg) {} es = record at hstamped ⊢
  cases e with
  | connect clock o iom request newcomer =>
      exact hproven.mem_closings_connect henabled session
  | close closing =>
      obtain ⟨⟨login, hmem, rfl⟩, _⟩ := henabled
      simp only [closings, ended, List.append_nil, ClosedFor, iff_false]
      rw [hproven.deeds_close hmem, Server.offlineEffects]
      split_ifs
      · simp
      · simp [Server.closes_publishEffects]
  | frame speaking clock isText data =>
      obtain ⟨⟨login, hmem, rfl⟩, _⟩ := henabled
      exact hproven.mem_closings_frame hmem clock isText data session
  | envelope o clock env =>
      simp only [closings, ended, List.append_nil, ClosedFor, iff_false]
      rw [deeds_envelope, Server.closes_pushEffects]
      exact List.not_mem_nil
  | timer nowMs => exact hproven.mem_closings_timer hstamped nowMs session
  | drain =>
      simp only [closings, ended, List.append_nil, ClosedFor, iff_false]
      rw [deeds_drain]
      exact List.not_mem_nil

/-- Under a configuration that loads, no tick closes the connection of a device
heard of within the heartbeat interval. -/
theorem heartbeat_keeps_open (P : Platform)
    {getenv : StdString → Option StdString} {values cfg : ChatConfig}
    (hload : ChatConfig.load getenv values = .ok cfg) (es : List Event)
    (hadm : (machine P cfg).Admissible {} es) {login : Login}
    (hmem : login ∈ ((machine P cfg).run {} es).opened) {t nowMs : Int}
    (hheard : lastHeard ((machine P cfg).trace (heard P cfg) {} es)
      (login.userId, login.deviceId) = some t)
    (hkept : nowMs ≤ t + cfg.chat.heartbeatIntervalSeconds.toInt * 1000) :
    login.session ∉
      closings P cfg ((machine P cfg).run {} es) (.timer nowMs) := by
  obtain ⟨hproven, hstamped⟩ := stamped_run P cfg es hadm
  have hless := ChatConfig.load_heartbeat hload
  rw [hproven.mem_closings_timer hstamped]
  rintro ⟨other, hother, hsession, _, t', hlast, hsilent⟩
  obtain rfl := hproven.login_unique hother hmem hsession
  rw [hheard, Option.some.injEq] at hlast
  omega

end

namespace ClosingsWitness

open HubWitness

theorem closed_exactly_for_cause_silent :
    1 ∈ closings platform cfg ((machine platform cfg).run {} [logIn 1])
        (.timer 80000) ↔
      ClosedFor platform cfg ((machine platform cfg).run {} [logIn 1])
        ((machine platform cfg).trace (heard platform cfg) {} [logIn 1])
        (.timer 80000) 1 :=
  closed_exactly_for_cause platform cfg [logIn 1] (.timer 80000)
    (by decide +kernel) 1

theorem heartbeat_keeps_open_login :
    ∃ login ∈ ((machine platform cfg).run {} [logIn 1]).opened,
      login.session = 1 ∧
        1 ∉ closings platform cfg ((machine platform cfg).run {} [logIn 1])
          (.timer 25000) := by
  have hopened : ((machine platform cfg).run {} [logIn 1]).opened.length = 1 := by
    decide +kernel
  obtain ⟨login, hlogin⟩ := List.length_eq_one_iff.mp hopened
  have hmem : login ∈ ((machine platform cfg).run {} [logIn 1]).opened := by
    rw [hlogin]
    exact List.mem_singleton_self login
  have hfacts : ((machine platform cfg).run {} [logIn 1]).opened.map
      (fun login => (login.session, login.userId, login.deviceId)) =
        [(1, 7, lit "d1")] := by decide +kernel
  rw [hlogin, List.map_singleton, List.singleton_inj] at hfacts
  obtain ⟨hsession, hdevice⟩ := Prod.mk.inj hfacts
  have hheard : lastHeard ((machine platform cfg).trace (heard platform cfg) {}
      [logIn 1]) (login.userId, login.deviceId) = some 0 := by
    rw [hdevice]
    decide +kernel
  have hload : ChatConfig.load (fun _ => none) cfg = .ok cfg := rfl
  have hkept : login.session ∉ closings platform cfg
      ((machine platform cfg).run {} [logIn 1]) (.timer 25000) :=
    heartbeat_keeps_open platform hload [logIn 1] (by decide +kernel) hmem hheard
      (by decide)
  rw [hsession] at hkept
  exact ⟨login, hmem, hsession, hkept⟩

end ClosingsWitness

end Hub

end FlzChat
