/-
The whole server as a machine: sockets log in, send frames and close, events
arrive, the timer ticks and the publisher drains the queue.  Beside the server
it keeps the history that statements about connections need.
-/
import FlzChat.ChatServlet
import FlzChat.Pushes
import FlzChat.Runs

namespace FlzChat

/-- A connection whose `onConnect` has returned 0. -/
structure Login where
  session : SessionId
  userId : UInt64
  deviceId : StdString
  request : HttpRequest

/-- `closed` are the sessions whose `onClose` has run, `kicked` those `Add`
has handed back as replaced or evicted. -/
structure Hub where
  server : Server := {}
  opened : List Login := []
  closed : List SessionId := []
  kicked : List SessionId := []

namespace Hub

def registry (hub : Hub) : SessionRegistry :=
  hub.server.registry

/-- The login of a session. -/
def login? (hub : Hub) (session : SessionId) : Option Login :=
  hub.opened.find? fun login => login.session == session

/-- The connection has neither closed nor been handed back. -/
def Live (hub : Hub) (login : Login) : Prop :=
  login ∈ hub.opened ∧ login.session ∉ hub.closed ∧ login.session ∉ hub.kicked

theorem forall_live (hub : Hub) (p : Login → Prop) :
    (∀ login, hub.Live login → p login) ↔
      ∀ login ∈ hub.opened, login.session ∉ hub.closed →
        login.session ∉ hub.kicked → p login :=
  ⟨fun h login hmem hclosed hkicked => h login ⟨hmem, hclosed, hkicked⟩,
    fun h login hlive => h login hlive.1 hlive.2.1 hlive.2.2⟩

instance (hub : Hub) (p : Login → Prop) [DecidablePred p] :
    Decidable (∀ login, hub.Live login → p login) :=
  decidable_of_iff' _ (hub.forall_live p)

inductive Event where
  | connect (clock : Clock) (o : IterOrder Devices.Entry)
      (iom : Option IoManager) (request : HttpRequest) (session : SessionId)
  | close (session : SessionId)
  | frame (session : SessionId) (clock : Clock) (isText : Bool) (data : StdString)
  | envelope (o : IterOrder Devices.Entry) (clock : Clock) (env : Envelope)
  | timer (nowMs : Int)
  | drain

/-- `onConnect` on a new session. -/
def connect (P : Platform) (cfg : ChatConfig) (clock : Clock)
    (o : IterOrder Devices.Entry) (iom : Option IoManager)
    (request : HttpRequest) (session : SessionId) (hub : Hub) : Hub :=
  match hub.server.onConnect P cfg clock o iom request session with
  | (.error _, server) => { hub with server := server }
  | (.ok result, server) =>
      { hub with
        server := server
        opened := (result.login.map fun conn =>
          ⟨session, conn.userId, conn.deviceId, result.request⟩).toList ++ hub.opened
        kicked := result.handedBack.map (·.session) ++ hub.kicked }

/-- `onClose` of a connection. -/
def closeLogin (P : Platform) (cfg : ChatConfig) (login : Login) (hub : Hub) :
    Hub :=
  { hub with
    server := hub.server.onClose P cfg login.request
    closed := login.session :: hub.closed }

/-- A session is new when it connects; the framework closes a connection once
and passes on frames of open ones only. -/
def machine (P : Platform) (cfg : ChatConfig) : Machine Hub Event where
  enabled hub
    | .connect _ _ _ _ session => ∀ login ∈ hub.opened, login.session ≠ session
    | .close session =>
        (∃ login ∈ hub.opened, login.session = session) ∧ session ∉ hub.closed
    | .frame session _ _ _ =>
        (∃ login ∈ hub.opened, login.session = session) ∧ session ∉ hub.closed
    | .envelope _ _ _ => True
    | .timer _ => True
    | .drain => True
  step hub
    | .connect clock o iom request session =>
        hub.connect P cfg clock o iom request session
    | .close session =>
        match hub.login? session with
        | none => hub
        | some login => hub.closeLogin P cfg login
    | .frame session clock isText data =>
        match hub.login? session with
        | none => hub
        | some login =>
            { hub with
              server := (hub.server.handle P cfg clock login.request isText data
                session).2 }
    | .envelope o clock env =>
        { hub with server := (hub.server.onEnvelope P o clock env).2 }
    | .timer nowMs => { hub with server := hub.server.onTimer cfg nowMs }
    | .drain => { hub with server := { hub.server with
        queue := hub.server.queue.tail } }

instance (P : Platform) (cfg : ChatConfig) (hub : Hub) :
    ∀ e, Decidable ((machine P cfg).enabled hub e)
  | .connect _ _ _ _ session =>
      inferInstanceAs (Decidable (∀ login ∈ hub.opened, login.session ≠ session))
  | .close session => inferInstanceAs (Decidable
      ((∃ login ∈ hub.opened, login.session = session) ∧ session ∉ hub.closed))
  | .frame session _ _ _ => inferInstanceAs (Decidable
      ((∃ login ∈ hub.opened, login.session = session) ∧ session ∉ hub.closed))
  | .envelope _ _ _ => isTrue trivial
  | .timer _ => isTrue trivial
  | .drain => isTrue trivial

/-- The history agrees with itself and with the registry: sessions are
distinct, requests name their logins, and what is registered is live. -/
structure Sound (P : Platform) (hub : Hub) : Prop where
  sessions : (hub.opened.map (·.session)).Nodup
  closed : ∀ session ∈ hub.closed, ∃ login ∈ hub.opened, login.session = session
  kicked : ∀ session ∈ hub.kicked, ∃ login ∈ hub.opened, login.session = session
  identified : ∀ login ∈ hub.opened,
    Server.identity P login.request = (login.userId, login.deviceId) ∧
      login.userId ≠ 0 ∧ login.deviceId ≠ []
  registered : ∀ u d c, hub.registry.get u d = some c →
    ∃ login, hub.Live login ∧ login.session = c.session ∧
      login.userId = u ∧ login.deviceId = d

theorem sound_initial (P : Platform) : Sound P {} :=
  ⟨List.nodup_nil, by simp, by simp, by simp,
    fun u d c hget => by simp [registry, SessionRegistry.get] at hget⟩

theorem Sound.login_unique {P : Platform} {hub : Hub} (hsound : Sound P hub)
    {login login' : Login} (hmem : login ∈ hub.opened)
    (hmem' : login' ∈ hub.opened) (hsame : login.session = login'.session) :
    login = login' :=
  List.inj_on_of_nodup_map hsound.sessions hmem hmem' hsame

theorem Sound.login?_of_mem {P : Platform} {hub : Hub} (hsound : Sound P hub)
    {login : Login} (hmem : login ∈ hub.opened) :
    hub.login? login.session = some login := by
  simp only [login?]
  cases hfind : hub.opened.find? fun other => other.session == login.session with
  | none =>
      have := List.find?_eq_none.mp hfind login hmem
      simp at this
  | some other =>
      have hother := List.mem_of_find?_eq_some hfind
      have hsession : other.session = login.session := by
        simpa using List.find?_some hfind
      rw [hsound.login_unique hother hmem hsession]

/-- Two registered connections of one session are the same entry. -/
theorem Sound.distinct {P : Platform} {hub : Hub} (hsound : Sound P hub)
    {u u' : UInt64} {d d' : StdString} {c c' : OnlineConn}
    (hget : hub.registry.get u d = some c)
    (hget' : hub.registry.get u' d' = some c') (hsame : c.session = c'.session) :
    u = u' ∧ d = d' := by
  obtain ⟨login, hlive, hsession, rfl, rfl⟩ := hsound.registered u d c hget
  obtain ⟨login', hlive', hsession', rfl, rfl⟩ := hsound.registered u' d' c' hget'
  have heq := hsound.login_unique hlive.1 hlive'.1
    (hsession.trans (hsame.trans hsession'.symm))
  exact ⟨by rw [heq], by rw [heq]⟩

/-- The login a successful `onConnect` adds. -/
def newLogin (claims : JwtClaims) (request : HttpRequest) (session : SessionId)
    (hub : Hub) : Login :=
  let deviceId := (hub.server.deviceIdFor claims).1
  ⟨session, claims.userId, deviceId,
    Server.markRequest claims deviceId request⟩

/-- What `Add` returns in a successful `onConnect`. -/
def added (cfg : ChatConfig) (clock : Clock) (o : IterOrder Devices.Entry)
    (iom : Option IoManager) (session : SessionId) (claims : JwtClaims)
    (hub : Hub) : SessionRegistry.AddResult :=
  hub.registry.add o
    (Server.newConn cfg clock iom session claims.userId
      (hub.server.deviceIdFor claims).1)
    (toSizeT cfg.chat.maxDevicesPerUser)

theorem added_spec (cfg : ChatConfig) (clock : Clock)
    (o : IterOrder Devices.Entry) (iom : Option IoManager) (session : SessionId)
    (claims : JwtClaims) (hub : Hub) :
    SessionRegistry.AddSpec hub.registry
      (Server.newConn cfg clock iom session claims.userId
        (hub.server.deviceIdFor claims).1)
      (hub.added cfg clock o iom session claims) :=
  SessionRegistry.add_spec o hub.registry _ _

/-- The state after a successful `onConnect`. -/
def loggedIn (cfg : ChatConfig) (clock : Clock) (o : IterOrder Devices.Entry)
    (iom : Option IoManager) (request : HttpRequest) (session : SessionId)
    (claims : JwtClaims) (hub : Hub) : Hub :=
  let res := hub.added cfg clock o iom session claims
  { hub with
    server := (hub.server.login cfg clock o iom request session claims).2
    opened := hub.newLogin claims request session :: hub.opened
    kicked := res.handedBack.map (·.session) ++ hub.kicked }

/-- `onConnect` either leaves registry and history alone or logs in. -/
theorem connect_cases (P : Platform) (cfg : ChatConfig) (clock : Clock)
    (o : IterOrder Devices.Entry) (iom : Option IoManager)
    (request : HttpRequest) (session : SessionId) (hub : Hub) :
    (∃ server, hub.connect P cfg clock o iom request session =
        { hub with server := server } ∧
        server.registry = hub.server.registry ∧
        ∀ u, server.presence u = hub.server.presence u) ∨
      ∃ claims, claims.userId ≠ 0 ∧
        hub.connect P cfg clock o iom request session =
          hub.loggedIn cfg clock o iom request session claims := by
  have hrefused : ∀ err,
      (hub.server.refuse err request session).2.registry = hub.server.registry ∧
        ∀ u, (hub.server.refuse err request session).2.presence u =
          hub.server.presence u := by
    intro err
    refine ⟨rfl, fun u => ?_⟩
    simp [Server.refuse, Server.presence, Server.sendFrame, Effect.presence?]
  simp only [connect, Server.onConnect]
  split_ifs
  · exact Or.inl ⟨_, rfl, hrefused []⟩
  · cases hverify : JwtVerifier.verify P cfg.jwt clock.time
        (extractToken request) with
    | error thrown => exact Or.inl ⟨_, rfl, rfl, fun _ => rfl⟩
    | ok verdict =>
        cases verdict with
        | error err => exact Or.inl ⟨_, rfl, hrefused err⟩
        | ok claims =>
            have hid : claims.userId ≠ 0 :=
              JwtVerifier.yields_sensible_verify cfg.jwt clock.time _ _ hverify
            exact Or.inr ⟨claims, hid, by simp [loggedIn, newLogin, added,
              Server.login, Server.newConn, OnlineConn.create, registry,
              SessionRegistry.AddResult.handedBack]⟩

theorem loggedIn_registry (cfg : ChatConfig) (clock : Clock)
    (o : IterOrder Devices.Entry) (iom : Option IoManager)
    (request : HttpRequest) (session : SessionId) (claims : JwtClaims)
    (hub : Hub) :
    (hub.loggedIn cfg clock o iom request session claims).registry =
      (hub.added cfg clock o iom session claims).registry :=
  Server.login_registry cfg clock o iom request session claims hub.server

theorem Live.of_loggedIn {cfg : ChatConfig} {clock : Clock}
    {o : IterOrder Devices.Entry} {iom : Option IoManager}
    {request : HttpRequest} {session : SessionId} {claims : JwtClaims}
    {hub : Hub} {login : Login}
    (hlive : (hub.loggedIn cfg clock o iom request session claims).Live login) :
    login = hub.newLogin claims request session ∨ hub.Live login := by
  obtain ⟨hmem, hclosed, hkicked⟩ := hlive
  refine (List.mem_cons.mp hmem).imp id fun hold => ⟨hold, hclosed, ?_⟩
  exact fun hwas => hkicked (List.mem_append.mpr (Or.inr hwas))

/-- A registered connection belongs to a session seen before. -/
theorem Sound.session_ne {P : Platform} {hub : Hub} (hsound : Sound P hub)
    {session : SessionId}
    (hfresh : ∀ login ∈ hub.opened, login.session ≠ session) {u : UInt64}
    {d : StdString} {c : OnlineConn} (hget : hub.registry.get u d = some c) :
    c.session ≠ session := by
  obtain ⟨login, hlive, hsession, _⟩ := hsound.registered u d c hget
  rw [← hsession]
  exact hfresh login hlive.1

theorem Sound.loggedIn {P : Platform} {cfg : ChatConfig} {hub : Hub}
    (hsound : Sound P hub) {session : SessionId}
    (hfresh : ∀ login ∈ hub.opened, login.session ≠ session) (clock : Clock)
    (o : IterOrder Devices.Entry) (iom : Option IoManager)
    (request : HttpRequest) {claims : JwtClaims} (hid : claims.userId ≠ 0) :
    Sound P (hub.loggedIn cfg clock o iom request session claims) := by
  have hadd := added_spec cfg clock o iom session claims hub
  refine ⟨?_, ?_, ?_, ?_, ?_⟩
  · refine List.nodup_cons.mpr ⟨?_, hsound.sessions⟩
    rw [List.mem_map]
    rintro ⟨login, hmem, hsame⟩
    exact hfresh login hmem hsame
  · intro s hs
    obtain ⟨login, hmem, hsame⟩ := hsound.closed s hs
    exact ⟨login, List.mem_cons_of_mem _ hmem, hsame⟩
  · intro s hs
    rcases List.mem_append.mp hs with hs | hs
    · obtain ⟨c, hc, rfl⟩ := List.mem_map.mp hs
      rcases hadd.handedBack_cases hc with ⟨rfl, _⟩ | ⟨d, hget, _⟩
      · exact ⟨_, List.mem_cons_self, rfl⟩
      · obtain ⟨login, hlive, hsession, _⟩ := hsound.registered _ d c hget
        exact ⟨login, List.mem_cons_of_mem _ hlive.1, hsession⟩
    · obtain ⟨login, hmem, hsame⟩ := hsound.kicked s hs
      exact ⟨login, List.mem_cons_of_mem _ hmem, hsame⟩
  · intro login hmem
    rcases List.mem_cons.mp hmem with rfl | hmem
    · exact ⟨Server.identity_markRequest P claims _ request, hid,
        Server.deviceIdFor_ne_nil claims hub.server⟩
    · exact hsound.identified login hmem
  · intro u d c hget
    rw [loggedIn_registry] at hget
    have hkept : c.session ∉ (hub.added cfg clock o iom session
        claims).handedBack.map (·.session) := by
      rw [List.mem_map]
      rintro ⟨c', hmem, hsame⟩
      exact hadd.session_ne_of_handedBack hsound.distinct
        (fun _ _ _ hold => hsound.session_ne hfresh hold) hget hmem hsame
    rcases hadd.get_cases hget with ⟨rfl, rfl, rfl⟩ | ⟨_, hold⟩
    · refine ⟨_, ⟨List.mem_cons_self, fun hclosed => ?_, fun hkicked => ?_⟩,
        rfl, rfl, rfl⟩
      · obtain ⟨login, hmem, hsame⟩ := hsound.closed _ hclosed
        exact hfresh login hmem hsame
      · rcases List.mem_append.mp hkicked with hnow | hbefore
        · exact hkept hnow
        · obtain ⟨login, hmem, hsame⟩ := hsound.kicked _ hbefore
          exact hfresh login hmem hsame
    · obtain ⟨login, ⟨hmem, hclosed, hkicked⟩, hsession, hu, hd⟩ :=
        hsound.registered u d c hold
      refine ⟨login, ⟨List.mem_cons_of_mem _ hmem, hclosed, fun hnow => ?_⟩,
        hsession, hu, hd⟩
      rcases List.mem_append.mp hnow with hnow | hbefore
      · rw [hsession] at hnow
        exact hkept hnow
      · exact hkicked hbefore

theorem Sound.closeLogin_registry {P : Platform} {hub : Hub}
    (hsound : Sound P hub) (cfg : ChatConfig) {login : Login}
    (hmem : login ∈ hub.opened) :
    (hub.closeLogin P cfg login).registry =
      (hub.registry.remove login.userId login.deviceId).2 := by
  obtain ⟨hidentity, huser, hdevice⟩ := hsound.identified login hmem
  exact Server.onClose_registry hidentity huser hdevice

theorem Sound.closeLogin {P : Platform} {hub : Hub} (hsound : Sound P hub)
    (cfg : ChatConfig) {login : Login} (hmem : login ∈ hub.opened) :
    Sound P (hub.closeLogin P cfg login) := by
  refine ⟨hsound.sessions, ?_, hsound.kicked, hsound.identified, ?_⟩
  · intro s hs
    rcases List.mem_cons.mp hs with rfl | hs
    · exact ⟨login, hmem, rfl⟩
    · exact hsound.closed s hs
  · intro u d c hget
    rw [hsound.closeLogin_registry cfg hmem, SessionRegistry.get_remove] at hget
    split_ifs at hget with hkey
    obtain ⟨other, ⟨hopened, hclosed, hkicked⟩, hsession, hu, hd⟩ :=
      hsound.registered u d c hget
    refine ⟨other, ⟨hopened, ?_, hkicked⟩, hsession, hu, hd⟩
    intro hnow
    rcases List.mem_cons.mp hnow with hsame | hbefore
    · obtain rfl := hsound.login_unique hopened hmem hsame
      exact hkey ⟨hu.symm, hd.symm⟩
    · exact hclosed hbefore

/-- Steps that keep the history and the entries. -/
theorem Sound.sameEntries {P : Platform} {hub : Hub} (hsound : Sound P hub)
    {server : Server}
    (hsame : hub.registry.SameEntries server.registry) :
    Sound P { hub with server := server } := by
  refine ⟨hsound.sessions, hsound.closed, hsound.kicked, hsound.identified, ?_⟩
  intro u d c hget
  obtain ⟨c₀, hold, hc⟩ := hsame.back hget
  rw [hc.session]
  exact hsound.registered u d c₀ hold

/-- What a step does: a login, a close, or nothing to the history and the
entries. -/
theorem step_cases {P : Platform} (cfg : ChatConfig) {hub : Hub}
    (hsound : Sound P hub) {e : Event}
    (henabled : (machine P cfg).enabled hub e) :
    (∃ server, (∀ session, e ≠ .close session) ∧
        (machine P cfg).step hub e = { hub with server := server } ∧
        hub.registry.SameEntries server.registry ∧
        ∀ u, server.presence u = hub.server.presence u) ∨
      (∃ clock o iom request session claims,
        e = .connect clock o iom request session ∧ claims.userId ≠ 0 ∧
          (∀ login ∈ hub.opened, login.session ≠ session) ∧
          (machine P cfg).step hub e =
            hub.loggedIn cfg clock o iom request session claims) ∨
      ∃ login ∈ hub.opened, e = .close login.session ∧
        login.session ∉ hub.closed ∧
        (machine P cfg).step hub e = hub.closeLogin P cfg login := by
  cases e with
  | connect clock o iom request session =>
      rcases connect_cases P cfg clock o iom request session hub with
        ⟨server, hstep, hregistry, hpresence⟩ | ⟨claims, hid, hstep⟩
      · refine Or.inl ⟨server, by simp, hstep, ?_, hpresence⟩
        rw [hregistry]
        exact SessionRegistry.SameEntries.refl _
      · exact Or.inr (Or.inl ⟨clock, o, iom, request, session, claims, rfl, hid,
          henabled, hstep⟩)
  | close session =>
      obtain ⟨⟨login, hmem, rfl⟩, hclosed⟩ := henabled
      refine Or.inr (Or.inr ⟨login, hmem, rfl, hclosed, ?_⟩)
      change (match hub.login? login.session with
        | none => hub
        | some login => hub.closeLogin P cfg login) = _
      rw [hsound.login?_of_mem hmem]
  | frame session clock isText data =>
      obtain ⟨⟨login, hmem, rfl⟩, _⟩ := henabled
      refine Or.inl ⟨(hub.server.handle P cfg clock login.request isText data
        login.session).2, by simp, ?_,
        Server.handle_same P cfg clock login.request isText data login.session
          hub.server⟩
      change (match hub.login? login.session with
        | none => hub
        | some found => { hub with
            server := (hub.server.handle P cfg clock found.request isText data
              login.session).2 }) = _
      rw [hsound.login?_of_mem hmem]
  | envelope o clock env =>
      obtain ⟨hregistry, hpresence⟩ :=
        Server.onEnvelope_same P o clock env hub.server
      refine Or.inl ⟨_, by simp, rfl, ?_, hpresence⟩
      rw [hregistry]
      exact SessionRegistry.SameEntries.refl _
  | timer nowMs =>
      obtain ⟨hregistry, hpresence⟩ := Server.onTimer_same cfg nowMs hub.server
      refine Or.inl ⟨_, by simp, rfl, ?_, hpresence⟩
      rw [hregistry]
      exact SessionRegistry.SameEntries.refl _
  | drain =>
      exact Or.inl ⟨_, by simp, rfl, SessionRegistry.SameEntries.refl _,
        fun _ => rfl⟩

theorem sound_step (P : Platform) (cfg : ChatConfig) (hub : Hub) (e : Event)
    (hsound : Sound P hub) (henabled : (machine P cfg).enabled hub e) :
    Sound P ((machine P cfg).step hub e) := by
  rcases step_cases cfg hsound henabled with
    ⟨server, _, hstep, hsame, _⟩ |
    ⟨clock, o, iom, request, session, claims, _, hid, hfresh, hstep⟩ |
    ⟨login, hmem, _, _, hstep⟩
  · rw [hstep]
    exact hsound.sameEntries hsame
  · rw [hstep]
    exact hsound.loggedIn hfresh clock o iom request hid
  · rw [hstep]
    exact hsound.closeLogin cfg hmem

/-- An entry after a step is one from before or the newcomer of a login. -/
theorem Sound.get_step {P : Platform} {hub : Hub} (hsound : Sound P hub)
    (cfg : ChatConfig) {e : Event} (henabled : (machine P cfg).enabled hub e)
    {u : UInt64} {d : StdString} {c : OnlineConn}
    (hget : ((machine P cfg).step hub e).registry.get u d = some c) :
    (∃ c₀, hub.registry.get u d = some c₀ ∧ c₀.SameConn c) ∨
      ∃ clock o iom request session, e = .connect clock o iom request session ∧
        c.userId = u ∧ c.deviceId = d ∧ c.loginAt = clock.nowMs := by
  have hsame := SessionRegistry.SameEntries.refl hub.registry
  rcases step_cases cfg hsound henabled with
    ⟨server, _, hstep, hentries, _⟩ |
    ⟨clock, o, iom, request, session, claims, rfl, _, _, hstep⟩ |
    ⟨login, hmem, _, _, hstep⟩
  · rw [hstep] at hget
    exact Or.inl (hentries.back hget)
  · rw [hstep, loggedIn_registry] at hget
    rcases (added_spec cfg clock o iom session claims hub).get_cases hget with
      ⟨rfl, rfl, rfl⟩ | ⟨_, hold⟩
    · exact Or.inr ⟨clock, o, iom, request, session, rfl, rfl, rfl, rfl⟩
    · exact Or.inl (hsame.back hold)
  · rw [hstep, hsound.closeLogin_registry cfg hmem] at hget
    exact Or.inl (hsame.back (SessionRegistry.get_of_get_remove hget))

/-- Every registry a run reaches is separated. -/
theorem separated_step {P : Platform} {cfg : ChatConfig} (hub : Hub) (e : Event)
    (hinv : Sound P hub ∧ hub.registry.Separated)
    (henabled : (machine P cfg).enabled hub e) :
    Sound P ((machine P cfg).step hub e) ∧
      ((machine P cfg).step hub e).registry.Separated := by
  obtain ⟨hsound, hseparated⟩ := hinv
  have hnext := sound_step P cfg hub e hsound henabled
  refine ⟨hnext, ?_, fun hget hget' hsame => hnext.distinct hget hget' hsame⟩
  intro u d c hget
  rcases hsound.get_step cfg henabled hget with
    ⟨c₀, hold, hc⟩ | ⟨_, _, _, _, _, _, huser, hdevice, _⟩
  · rw [hc.userId, hc.deviceId]
    exact hseparated.keyed hold
  · exact ⟨huser, hdevice⟩

theorem separated_reachable (P : Platform) (cfg : ChatConfig) (es : List Event)
    (hadm : (machine P cfg).Admissible {} es) :
    ((machine P cfg).run {} es).registry.Separated :=
  (Machine.run_of_step separated_step
    ⟨sound_initial P, SessionRegistry.wellFormed_empty.toSeparated⟩ hadm).2

namespace HubWitness

/-- The header, the claims and the MAC of a token for user 7 on device `d1`. -/
def headerText : StdString := lit "\x7b\"alg\":\"HS256\"\x7d"

def claimsText : StdString :=
  lit "\x7b\"iss\":\"flz_chat_business\",\"sub\":\"7\",\"did\":\"d1\",\"exp\":4102444800\x7d"

def mac : StdString :=
  [225, 116, 218, 27, 199, 222, 102, 75, 5, 202, 192, 94, 87, 50, 103, 106,
    247, 196, 54, 23, 108, 141, 100, 166, 157, 172, 222, 115, 84, 72, 46, 157]

def signingInput : StdString :=
  lit "eyJhbGciOiJIUzI1NiJ9.eyJpc3MiOiJmbHpfY2hhdF9idXNpbmVzcyIsInN1YiI6IjciLCJkaWQiOiJkMSIsImV4cCI6NDEwMjQ0NDgwMH0"

def token : StdString :=
  signingInput ++ lit ".4XTaG8feZksFysBeVzJnavfENhdsjWSmnazec1RILp0"

def platform : Platform :=
  Platform.ofTables
    [(headerText, .object [("alg", .str (lit "HS256"))]),
      (claimsText, .object [("iss", .str (lit "flz_chat_business")),
        ("sub", .str (lit "7")), ("did", .str (lit "d1")),
        ("exp", .int 4102444800)]),
      (lit "\x7b\"type\":\"ping\"\x7d", .object [("type", .str (lit "ping"))])]
    [(lit "eyJhbGciOiJIUzI1NiJ9", headerText),
      (lit "eyJpc3MiOiJmbHpfY2hhdF9idXNpbmVzcyIsInN1YiI6IjciLCJkaWQiOiJkMSIsImV4cCI6NDEwMjQ0NDgwMH0=",
        claimsText)]
    [(mac, lit "4XTaG8feZksFysBeVzJnavfENhdsjWSmnazec1RILp0=")]
    [((lit "secret", signingInput), mac)]

def cfg : ChatConfig :=
  { jwt := { secret := lit "secret" } }

def clock : Clock := ⟨0, 1700000000, []⟩

/-- An upgrade request that brings the token as a query parameter. -/
def request : HttpRequest :=
  ⟨fun name => if name = lit "token" then token else [], fun _ => []⟩

def logIn (session : SessionId) : Event :=
  .connect clock (IterOrder.asKept _) none request session

example : ((machine platform cfg).run {} [logIn 1]).opened.map (·.session) =
    [1] := by decide +kernel

end HubWitness

end Hub

end FlzChat
