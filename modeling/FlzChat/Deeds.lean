/-
What each step of the server does: the effects it adds to the record, event by
event, and what it may touch.
-/
import FlzChat.Greeting

namespace FlzChat

namespace Server

theorem frames_closeEffects (conn : OnlineConn) :
    (closeEffects conn).flatMap Effect.frames = [] := by
  rw [closeEffects]
  cases conn.ioManager <;> rfl

theorem conn_of_mem_kickedFrames {added : SessionRegistry.AddResult}
    {sent : SessionId × Frame} (hsent : sent ∈ kickedFrames added) :
    ∃ conn ∈ added.handedBack,
      conn.session = sent.1 ∧ sent.2.type = lit "kicked" := by
  rcases List.mem_append.mp hsent with hsent | hsent
  · obtain ⟨conn, hconn, rfl⟩ := List.mem_map.mp hsent
    exact ⟨conn, List.mem_append_left _ hconn, rfl, rfl⟩
  · obtain ⟨conn, hconn, rfl⟩ := List.mem_map.mp hsent
    exact ⟨conn, List.mem_append_right _ hconn, rfl, rfl⟩

end Server

namespace Hub

/-- What a step adds to the record. -/
def deeds (P : Platform) (cfg : ChatConfig) (hub : Hub) (e : Event) :
    List Effect :=
  ((machine P cfg).step hub e).server.effects.drop hub.server.effects.length

theorem deeds_eq {P : Platform} {cfg : ChatConfig} {hub : Hub} {e : Event}
    {said : List Effect}
    (hsaid : ((machine P cfg).step hub e).server.effects =
      hub.server.effects ++ said) : deeds P cfg hub e = said := by
  rw [deeds, hsaid, List.drop_left]

variable {P : Platform} {cfg : ChatConfig} {hub : Hub}

/-- An `onConnect` that throws changes nothing. -/
theorem step_connect_of_throw {clock : Clock} {request : HttpRequest}
    {thrown : Thrown}
    (hverdict : Server.tokenVerdict P cfg clock request = .error thrown)
    (o : IterOrder Devices.Entry) (iom : Option IoManager)
    (session : SessionId) :
    (machine P cfg).step hub (.connect clock o iom request session) = hub := by
  change hub.connect P cfg clock o iom request session = hub
  rw [connect, Server.onConnect_eq_verdict, hverdict]

theorem step_connect_of_refused {clock : Clock} {request : HttpRequest}
    {err : StdString}
    (hverdict : Server.tokenVerdict P cfg clock request = .ok (.error err))
    (o : IterOrder Devices.Entry) (iom : Option IoManager)
    (session : SessionId) :
    (machine P cfg).step hub (.connect clock o iom request session) =
      { hub with server := (hub.server.refuse err request session).2 } := by
  change hub.connect P cfg clock o iom request session = _
  rw [connect, Server.onConnect_eq_verdict, hverdict]
  rfl

theorem step_connect_of_accepted {clock : Clock} {request : HttpRequest}
    {claims : JwtClaims}
    (hverdict : Server.tokenVerdict P cfg clock request = .ok (.ok claims))
    (o : IterOrder Devices.Entry) (iom : Option IoManager)
    (session : SessionId) :
    (machine P cfg).step hub (.connect clock o iom request session) =
      hub.loggedIn cfg clock o iom request session claims := by
  change hub.connect P cfg clock o iom request session = _
  rw [connect, Server.onConnect_eq_verdict, hverdict]
  simp [loggedIn, newLogin, added, Server.login, Server.newConn,
    OnlineConn.create, registry, SessionRegistry.AddResult.handedBack]

theorem Sound.step_close (hsound : Sound P hub) {login : Login}
    (hmem : login ∈ hub.opened) :
    (machine P cfg).step hub (.close login.session) =
      hub.closeLogin P cfg login := by
  simp only [machine, hsound.login?_of_mem hmem]

theorem Sound.step_frame (hsound : Sound P hub) {login : Login}
    (hmem : login ∈ hub.opened) (clock : Clock) (isText : Bool)
    (data : StdString) :
    (machine P cfg).step hub (.frame login.session clock isText data) =
      { hub with
        server := (hub.server.handle P cfg clock login.request isText data
          login.session).2 } := by
  simp only [machine, hsound.login?_of_mem hmem]

/-! The effects of the events. -/

/-- A refusal is sent and the session closed; a login deals with those handed
back, greets its session and publishes. -/
theorem deeds_connect (clock : Clock) (o : IterOrder Devices.Entry)
    (iom : Option IoManager) (request : HttpRequest) (session : SessionId) :
    deeds P cfg hub (.connect clock o iom request session) =
      match Server.tokenVerdict P cfg clock request with
      | .error _ => []
      | .ok (.error err) => Server.refuseEffects err session
      | .ok (.ok claims) =>
          let joined := hub.server.joining cfg clock o iom session claims
          Server.handedBackEffects joined.2 ++
            Server.authOkEffects clock joined.1 ++
              hub.server.onlineEffects cfg claims.userId := by
  rcases hverdict : Server.tokenVerdict P cfg clock request with
    thrown | err | claims
  · apply deeds_eq
    rw [step_connect_of_throw hverdict, List.append_nil]
  · have hrefused : Server.Does {} _ hub.server _ :=
      Server.does_refuse err request session hub.server
    apply deeds_eq
    rw [step_connect_of_refused hverdict]
    exact hrefused.effects
  · have hlogin : Server.Does (.ofPresence cfg) _ hub.server _ :=
      Server.does_login claims le_rfl trivial (fun _ _ => trivial) clock o iom
        request session hub.server
    apply deeds_eq
    rw [step_connect_of_accepted hverdict]
    exact hlogin.effects

/-- A close of a session nobody has opened is no event. -/
theorem deeds_close (session : SessionId) :
    deeds P cfg hub (.close session) =
      (hub.login? session).elim [] fun login =>
        hub.server.leaveEffects P cfg login.request := by
  apply deeds_eq
  simp only [machine]
  cases hub.login? session with
  | none => exact (List.append_nil _).symm
  | some login =>
      have hclosed : Server.Does (.ofPresence cfg) _ hub.server _ :=
        Server.does_onClose le_rfl (fun _ => trivial) (fun _ _ => trivial) P
          login.request hub.server
      exact hclosed.effects

theorem Sound.deeds_close (hsound : Sound P hub) {login : Login}
    (hmem : login ∈ hub.opened) :
    deeds P cfg hub (.close login.session) =
      hub.server.offlineEffects cfg login.userId login.deviceId := by
  obtain ⟨hidentity, huser, hdevice⟩ := hsound.identified login hmem
  rw [Hub.deeds_close, hsound.login?_of_mem hmem, Option.elim_some,
    Server.leaveEffects, hidentity]
  simp only [huser, hdevice, or_self, if_false]

theorem deeds_frame_of_none {session : SessionId}
    (hnone : hub.login? session = none) (clock : Clock) (isText : Bool)
    (data : StdString) : deeds P cfg hub (.frame session clock isText data) = [] := by
  apply deeds_eq
  simp only [machine, hnone, List.append_nil]

theorem deeds_frame {session : SessionId} {login : Login}
    (hlogin : hub.login? session = some login) (clock : Clock) (isText : Bool)
    (data : StdString) :
    Server.Answers (Server.identity P login.request).1 session
      (deeds P cfg hub (.frame session clock isText data)) := by
  obtain ⟨said, hdoes, hanswers⟩ := Server.answered_handle P cfg clock
    login.request isText data session hub.server
  rw [deeds_eq (by simp only [machine, hlogin]; exact hdoes.effects)]
  exact hanswers

theorem Sound.deeds_frame (hsound : Sound P hub) {login : Login}
    (hmem : login ∈ hub.opened) (clock : Clock) (isText : Bool)
    (data : StdString) :
    Server.Answers login.userId login.session
      (deeds P cfg hub (.frame login.session clock isText data)) := by
  have hanswers : Server.Answers _ login.session (deeds P cfg hub _) :=
    Hub.deeds_frame (hsound.login?_of_mem hmem) clock isText data
  rwa [(hsound.identified login hmem).1] at hanswers

theorem deeds_envelope (o : IterOrder Devices.Entry) (clock : Clock)
    (env : Envelope) :
    deeds P cfg hub (.envelope o clock env) =
      Server.pushEffects o hub.registry (Push.ofEnvelope P
        (hub.server.pendingOf P.json env.payload) env) := by
  have hdoes : Server.Does { forgets := True, observes := True } _ hub.server _ :=
    Server.does_onEnvelope env (fun _ => ⟨trivial, trivial⟩) P o clock hub.server
  exact deeds_eq hdoes.effects

theorem deeds_timer (nowMs : Int) :
    deeds P cfg hub (.timer nowMs) =
      (hub.registry.collectTimeouted
        (nowMs - cfg.chat.heartbeatTimeoutSeconds.toInt * 1000)).flatMap
          Server.closeEffects := by
  have hdoes : Server.Does { forgets := True } _ hub.server _ :=
    Server.does_onTimer trivial cfg nowMs hub.server
  exact deeds_eq hdoes.effects

theorem deeds_drain : deeds P cfg hub .drain = [] :=
  deeds_eq (List.append_nil _).symm

/-! What the events touch. -/

/-- What an event may touch; a dequeue belongs to the publisher. -/
def Event.scope (cfg : ChatConfig) : Event → Scope
  | .connect _ _ _ _ _ | .close _ => .ofPresence cfg
  | .frame _ clock _ _ => .ofFrame cfg clock SessionRegistry.SameEntries
  | .envelope _ _ env =>
      { forgets := env.type = lit "chat.msg.send"
        observes := env.type = lit "chat.msg.send" }
  | .timer _ => { forgets := True }
  | .drain => {}

/-- Every step but a dequeue stays within the scope of its event. -/
theorem does_step (P : Platform) (cfg : ChatConfig) (hub : Hub) {e : Event}
    (hdrain : e ≠ .drain) :
    Server.Does (e.scope cfg) (deeds P cfg hub e) hub.server
      ((machine P cfg).step hub e).server := by
  suffices hdoes : ∃ said, Server.Does (e.scope cfg) said hub.server
      ((machine P cfg).step hub e).server by
    obtain ⟨said, hdoes⟩ := hdoes
    rwa [deeds_eq hdoes.effects]
  cases e with
  | connect clock o iom request session =>
      rcases hverdict : Server.tokenVerdict P cfg clock request with
        thrown | err | claims
      · rw [step_connect_of_throw hverdict]
        exact ⟨_, .nothing _⟩
      · rw [step_connect_of_refused hverdict]
        exact ⟨_, Server.does_refuse err request session hub.server⟩
      · rw [step_connect_of_accepted hverdict]
        exact ⟨_, Server.does_login claims le_rfl trivial (fun _ _ => trivial) clock o
          iom request session hub.server⟩
  | close session =>
      simp only [machine]
      cases hub.login? session with
      | none => exact ⟨_, .nothing _⟩
      | some login =>
          exact ⟨_, Server.does_onClose le_rfl (fun _ => trivial)
            (fun _ _ => trivial) P login.request hub.server⟩
  | frame session clock isText data =>
      simp only [machine]
      cases hub.login? session with
      | none => exact ⟨_, .nothing _⟩
      | some login =>
          obtain ⟨said, hdoes, _⟩ := Server.answered_handle P cfg clock
            login.request isText data session hub.server
          exact ⟨said, hdoes⟩
  | envelope o clock env =>
      exact ⟨_, Server.does_onEnvelope env (fun htype => ⟨htype, htype⟩) P o clock
        hub.server⟩
  | timer nowMs => exact ⟨_, Server.does_onTimer trivial cfg nowMs hub.server⟩
  | drain => contradiction

/-- The record only grows. -/
theorem effects_step (P : Platform) (cfg : ChatConfig) (hub : Hub) (e : Event) :
    ((machine P cfg).step hub e).server.effects =
      hub.server.effects ++ deeds P cfg hub e := by
  by_cases hdrain : e = .drain
  · rw [hdrain, deeds_drain, List.append_nil]
    rfl
  · exact (does_step P cfg hub hdrain).effects

/-- A run records what its steps have done. -/
theorem effects_run (P : Platform) (cfg : ChatConfig) (es : List Event)
    (hub : Hub) :
    ((machine P cfg).run hub es).server.effects =
      hub.server.effects ++ (machine P cfg).trace (deeds P cfg) hub es := by
  induction es generalizing hub with
  | nil => exact (List.append_nil _).symm
  | cons e es ih =>
      rw [Machine.run_cons, ih, effects_step, Machine.trace, List.append_assoc]

end Hub

end FlzChat
