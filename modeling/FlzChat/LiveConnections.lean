/-
Who is registered.  `onClose` unregisters whatever connection holds the user
and device of the closing one, so a connection stays registered exactly as
long as no other session of its user and device closes under it.
-/
import FlzChat.Hub

namespace FlzChat

namespace Hub

/-- The login's connection is the one registered for its user and device. -/
def Registered (hub : Hub) (login : Login) : Prop :=
  ∃ c ∈ hub.registry.get login.userId login.deviceId,
    c.session = login.session

instance (hub : Hub) : DecidablePred hub.Registered := fun login =>
  inferInstanceAs (Decidable (∃ c ∈ hub.registry.get login.userId
    login.deviceId, c.session = login.session))

/-- Every live connection is registered. -/
def AllRegistered (hub : Hub) : Prop :=
  ∀ login, hub.Live login → hub.Registered login

instance : DecidablePred AllRegistered := fun hub =>
  inferInstanceAs (Decidable (∀ login, hub.Live login → hub.Registered login))

/-- A closing session finds itself registered under its user and device, or
nobody. -/
def ClosesOwn (hub : Hub) : Event → Prop
  | .close session => ∀ login ∈ hub.opened, login.session = session →
      ∀ c ∈ hub.registry.get login.userId login.deviceId, c.session = session
  | _ => True

instance (hub : Hub) : ∀ e, Decidable (hub.ClosesOwn e)
  | .close session => inferInstanceAs (Decidable (∀ login ∈ hub.opened,
      login.session = session → ∀ c ∈ hub.registry.get login.userId
        login.deviceId, c.session = session))
  | .connect _ _ _ _ _ => isTrue trivial
  | .frame _ _ _ _ => isTrue trivial
  | .envelope _ _ _ => isTrue trivial
  | .timer _ => isTrue trivial
  | .drain => isTrue trivial

theorem Registered.sameEntries {hub : Hub} {login : Login}
    (hregistered : hub.Registered login) {server : Server}
    (hsame : hub.registry.SameEntries server.registry) :
    Registered { hub with server := server } login := by
  obtain ⟨c, hget, hsession⟩ := hregistered
  obtain ⟨c', hget', hc⟩ := hsame.forth hget
  exact ⟨c', hget', hc.session.trans hsession⟩

theorem kicked_of_handedBack {cfg : ChatConfig} {clock : Clock}
    {o : IterOrder Devices.Entry} {iom : Option IoManager}
    {request : HttpRequest} {session : SessionId} {claims : JwtClaims}
    {hub : Hub} {c : OnlineConn}
    (hback : c ∈ (hub.added cfg clock o iom session claims).handedBack) :
    c.session ∈ (hub.loggedIn cfg clock o iom request session claims).kicked :=
  List.mem_append.mpr (Or.inl (List.mem_map.mpr ⟨c, hback, rfl⟩))

/-- A login registers its connection, or hands it back at once. -/
theorem registered_newLogin {cfg : ChatConfig} {clock : Clock}
    {o : IterOrder Devices.Entry} {iom : Option IoManager}
    {request : HttpRequest} {session : SessionId} {claims : JwtClaims}
    {hub : Hub}
    (hlive : (hub.loggedIn cfg clock o iom request session claims).Live
      (hub.newLogin claims request session)) :
    (hub.loggedIn cfg clock o iom request session claims).Registered
      (hub.newLogin claims request session) := by
  have hadd := added_spec cfg clock o iom session claims hub
  simp only [Registered]
  rw [loggedIn_registry]
  rcases hadd.newcomer with hnew | ⟨_, hevicted⟩
  · exact ⟨_, hnew, rfl⟩
  · exact absurd (kicked_of_handedBack (List.mem_append.mpr (Or.inr hevicted)))
      hlive.2.2

theorem Registered.loggedIn {cfg : ChatConfig} {clock : Clock}
    {o : IterOrder Devices.Entry} {iom : Option IoManager}
    {request : HttpRequest} {session : SessionId} {claims : JwtClaims}
    {hub : Hub} {login : Login} (hregistered : hub.Registered login)
    (hlive : (hub.loggedIn cfg clock o iom request session claims).Live login) :
    (hub.loggedIn cfg clock o iom request session claims).Registered login := by
  have hadd := added_spec cfg clock o iom session claims hub
  obtain ⟨c, hget, hsession⟩ := hregistered
  simp only [Registered]
  rw [loggedIn_registry]
  rcases hadd.kept_or_handedBack hget with hkept | hback
  · exact ⟨c, hkept, hsession⟩
  · exact absurd (hsession ▸ kicked_of_handedBack hback) hlive.2.2

/-- A close that finds its own session or nobody leaves the others registered. -/
theorem Registered.closeLogin {P : Platform} {hub : Hub} (hsound : Sound P hub)
    (cfg : ChatConfig) {login other : Login} (hmem : login ∈ hub.opened)
    (howns : ∀ c ∈ hub.registry.get login.userId login.deviceId,
      c.session = login.session)
    (hregistered : hub.Registered other)
    (hlive : (hub.closeLogin P cfg login).Live other) :
    (hub.closeLogin P cfg login).Registered other := by
  obtain ⟨c, hget, hsession⟩ := hregistered
  refine ⟨c, ?_, hsession⟩
  rw [hsound.closeLogin_registry cfg hmem, SessionRegistry.get_remove]
  split_ifs with hkey
  · rw [hkey.1, hkey.2] at hget
    have hsame : other.session = login.session := by rw [← hsession, howns c hget]
    exact absurd (hsame ▸ List.mem_cons_self) hlive.2.1
  · exact hget

theorem Live.of_closeLogin {P : Platform} {cfg : ChatConfig} {hub : Hub}
    {login other : Login} (hlive : (hub.closeLogin P cfg login).Live other) :
    hub.Live other :=
  ⟨hlive.1, fun hwas => hlive.2.1 (List.mem_cons_of_mem _ hwas), hlive.2.2⟩

/-- A close that finds another session unregisters a live connection. -/
theorem not_allRegistered_closeLogin {P : Platform} {hub : Hub}
    (hsound : Sound P hub) (cfg : ChatConfig) {login : Login}
    (hmem : login ∈ hub.opened) {c : OnlineConn}
    (hget : hub.registry.get login.userId login.deviceId = some c)
    (hother : c.session ≠ login.session) :
    ¬ (hub.closeLogin P cfg login).AllRegistered := by
  obtain ⟨victim, ⟨hopened, hclosed, hkicked⟩, hsession, huser, hdevice⟩ :=
    hsound.registered _ _ c hget
  have hlive : (hub.closeLogin P cfg login).Live victim := by
    refine ⟨hopened, ?_, hkicked⟩
    intro hnow
    rcases List.mem_cons.mp hnow with hsame | hwas
    · exact hother (hsession.symm.trans hsame)
    · exact hclosed hwas
  intro hall
  obtain ⟨c', hget', _⟩ := hall victim hlive
  rw [hsound.closeLogin_registry cfg hmem, huser, hdevice,
    SessionRegistry.get_remove, if_pos ⟨rfl, rfl⟩] at hget'
  contradiction

/-- Along every run, all live connections stay registered exactly when no
session closes while another one holds its user and device. -/
theorem allRegistered_iff_closesOwn (P : Platform) (cfg : ChatConfig)
    (es : List Event) (hadm : (machine P cfg).Admissible {} es) :
    (machine P cfg).Always AllRegistered {} es ↔
      (machine P cfg).Each ClosesOwn {} es := by
  refine Machine.always_iff_each (sound_step P cfg) ?_ ?_ (sound_initial P) ?_ hadm
  · intro hub e hsound hall henabled hguard login hlive
    rcases step_cases cfg hsound henabled with
      ⟨server, _, hstep, hsame, _⟩ |
      ⟨clock, o, iom, request, session, claims, _, _, _, hstep⟩ |
      ⟨closing, hmem, rfl, _, hstep⟩
    · rw [hstep] at hlive ⊢
      exact (hall login hlive).sameEntries hsame
    · rw [hstep] at hlive ⊢
      rcases hlive.of_loggedIn with rfl | hold
      · exact registered_newLogin hlive
      · exact (hall login hold).loggedIn hlive
    · rw [hstep] at hlive ⊢
      exact (hall login hlive.of_closeLogin).closeLogin hsound cfg hmem
        (hguard closing hmem rfl) hlive
  · intro hub e hsound _ henabled hguard
    rcases step_cases cfg hsound henabled with
      ⟨server, hnotClose, _⟩ |
      ⟨clock, o, iom, request, session, claims, rfl, _, _, _⟩ |
      ⟨login, hmem, rfl, _, hstep⟩
    · cases e with
      | close session => exact absurd rfl (hnotClose session)
      | _ => exact absurd trivial hguard
    · exact absurd trivial hguard
    · rw [hstep]
      simp only [ClosesOwn, not_forall] at hguard
      obtain ⟨same, hsame, hsession, c, hget, hother⟩ := hguard
      obtain rfl := hsound.login_unique hsame hmem hsession
      exact not_allRegistered_closeLogin hsound cfg hmem hget hother
  · rintro login ⟨hmem, _⟩
    cases hmem

namespace LiveConnectionsWitness

open HubWitness

/-- The device logs in, closes and logs in again. -/
def inTurn : List Event :=
  [logIn 1, .close 1, logIn 2]

/-- The device logs in again before its first connection has closed. -/
def overlapping : List Event :=
  [logIn 1, logIn 2, .close 1]

theorem allRegistered_inTurn :
    (machine platform cfg).Always AllRegistered {} inTurn :=
  (allRegistered_iff_closesOwn platform cfg inTurn (by decide +kernel)).mpr
    (by decide +kernel)

theorem not_always_allRegistered :
    ¬ ∀ (P : Platform) (cfg : ChatConfig) (es : List Event),
      (machine P cfg).Admissible {} es →
        (machine P cfg).Always AllRegistered {} es := by
  intro hall
  exact absurd (hall platform cfg overlapping (by decide +kernel))
    (by decide +kernel)

end LiveConnectionsWitness

end Hub

end FlzChat
