/-
The presence events of a user when every handler is one atomic step.  They
follow the registry as long as a close removes its own connection, or finds
nothing to remove while the user has another device.
-/
import FlzChat.Alternation
import FlzChat.LiveConnections

namespace FlzChat

namespace Hub

/-- The events alternate, and after an offline event no connection of the user
is live. -/
structure PresenceRight (u : UInt64) (hub : Hub) : Prop where
  alternates : Alternates (hub.server.presence u)
  offline : (hub.server.presence u).getLast? = some false →
    ∀ login, hub.Live login → login.userId ≠ u

/-- Publishing from `onConnect` and `onClose` is accepted. -/
def PresenceAccepted (cfg : ChatConfig) (hub : Hub) : Event → Prop
  | .connect _ _ _ _ _ => hub.server.Accepting cfg
  | .close _ => hub.server.Accepting cfg
  | _ => True

/-- A session of the user closes while it is registered, or while nothing is
registered under its device and the user has another device. -/
def ClosesOwnOrNothing (u : UInt64) (hub : Hub) : Event → Prop
  | .close session => ∀ login ∈ hub.opened, login.session = session →
      login.userId = u → hub.Registered login ∨
        hub.registry.get u login.deviceId = none ∧
          hub.registry.isUserOnline u = true
  | _ => True

instance (u : UInt64) : DecidablePred (PresenceRight u) := fun hub =>
  decidable_of_iff (Alternates (hub.server.presence u) ∧
      ((hub.server.presence u).getLast? = some false →
        ∀ login, hub.Live login → login.userId ≠ u))
    ⟨fun h => ⟨h.1, h.2⟩, fun h => ⟨h.alternates, h.offline⟩⟩

instance (cfg : ChatConfig) (hub : Hub) :
    ∀ e, Decidable (hub.PresenceAccepted cfg e)
  | .connect _ _ _ _ _ => inferInstanceAs (Decidable (hub.server.Accepting cfg))
  | .close _ => inferInstanceAs (Decidable (hub.server.Accepting cfg))
  | .frame _ _ _ _ => isTrue trivial
  | .envelope _ _ _ => isTrue trivial
  | .timer _ => isTrue trivial
  | .drain => isTrue trivial

instance (u : UInt64) (hub : Hub) : ∀ e, Decidable (hub.ClosesOwnOrNothing u e)
  | .close session => inferInstanceAs (Decidable (∀ login ∈ hub.opened,
      login.session = session → login.userId = u → hub.Registered login ∨
        hub.registry.get u login.deviceId = none ∧
          hub.registry.isUserOnline u = true))
  | .connect _ _ _ _ _ => isTrue trivial
  | .frame _ _ _ _ => isTrue trivial
  | .envelope _ _ _ => isTrue trivial
  | .timer _ => isTrue trivial
  | .drain => isTrue trivial

/-- The events agree with the registry, and so does what is live. -/
structure PresenceInv (P : Platform) (u : UInt64) (hub : Hub) : Prop where
  sound : Sound P hub
  wellFormed : hub.registry.WellFormed
  registered : ∀ login, hub.Live login → login.userId = u → hub.Registered login
  alternates : Alternates (hub.server.presence u)
  online : hub.registry.isUserOnline u = true ↔
    (hub.server.presence u).getLast? = some true

theorem presenceInv_initial (P : Platform) (u : UInt64) : PresenceInv P u {} :=
  ⟨sound_initial P, SessionRegistry.wellFormed_empty,
    fun login hlive => absurd hlive.1 List.not_mem_nil, alternates_nil,
    by simp [registry, SessionRegistry.isUserOnline, Server.presence]⟩

theorem PresenceInv.right {P : Platform} {u : UInt64} {hub : Hub}
    (hinv : PresenceInv P u hub) : PresenceRight u hub := by
  refine ⟨hinv.alternates, fun hlast login hlive huser => ?_⟩
  obtain ⟨c, hget, _⟩ := hinv.registered login hlive huser
  have honline := hinv.online.mp
    (huser ▸ SessionRegistry.isUserOnline_of_get hget)
  rw [hlast] at honline
  contradiction

theorem PresenceInv.sameEntries {P : Platform} {u : UInt64} {hub : Hub}
    (hinv : PresenceInv P u hub) {server : Server}
    (hsame : hub.registry.SameEntries server.registry)
    (hpresence : server.presence u = hub.server.presence u) :
    PresenceInv P u { hub with server := server } := by
  refine ⟨hinv.sound.sameEntries hsame, hinv.wellFormed.sameEntries hsame,
    fun login hlive huser => (hinv.registered login hlive huser).sameEntries hsame,
    ?_, ?_⟩
  · change Alternates (server.presence u)
    rw [hpresence]
    exact hinv.alternates
  · change server.registry.isUserOnline u = true ↔ _
    rw [hsame.online, hpresence]
    exact hinv.online

theorem PresenceInv.loggedIn {P : Platform} {u : UInt64} {cfg : ChatConfig}
    (hmax : 1 ≤ toSizeT cfg.chat.maxDevicesPerUser) {hub : Hub}
    (hinv : PresenceInv P u hub) (haccepting : hub.server.Accepting cfg)
    {session : SessionId}
    (hfresh : ∀ login ∈ hub.opened, login.session ≠ session) (clock : Clock)
    (o : IterOrder Devices.Entry) (iom : Option IoManager)
    (request : HttpRequest) {claims : JwtClaims} (hid : claims.userId ≠ 0) :
    PresenceInv P u (hub.loggedIn cfg clock o iom request session claims) := by
  have hregistry := loggedIn_registry cfg clock o iom request session claims hub
  have hadd := added_spec cfg clock o iom session claims hub
  have honline : (hub.loggedIn cfg clock o iom request session
      claims).registry.isUserOnline u =
        (decide (u = claims.userId) || hub.registry.isUserOnline u) := by
    rw [hregistry]
    exact hadd.online u
  have hpresence : (hub.loggedIn cfg clock o iom request session
      claims).server.presence u = hub.server.presence u ++
        if claims.userId = u ∧ hub.registry.isUserOnline claims.userId = false
        then [true] else [] :=
    Server.login_presence haccepting clock o iom request session claims u
  refine ⟨hinv.sound.loggedIn hfresh clock o iom request hid, ?_, ?_, ?_, ?_⟩
  · rw [hregistry]
    exact hinv.wellFormed.add o _ hmax
      fun _ _ _ hget => hinv.sound.session_ne hfresh hget
  · intro login hlive huser
    rcases hlive.of_loggedIn with rfl | hold
    · exact registered_newLogin hlive
    · exact (hinv.registered login hold huser).loggedIn hlive
  · rw [hpresence]
    split_ifs with hfirst
    · obtain ⟨rfl, hoffline⟩ := hfirst
      refine hinv.alternates.append_one (iff_of_true rfl ?_)
      rw [Ne, ← hinv.online, hoffline]
      simp
    · simpa using hinv.alternates
  · rw [honline, hpresence]
    by_cases huser : claims.userId = u
    · subst huser
      cases hwas : hub.registry.isUserOnline claims.userId with
      | true => simpa using hinv.online.mp hwas
      | false => simp
    · have hother : ¬ u = claims.userId := fun h => huser h.symm
      simpa [huser, hother] using hinv.online

/-- After a close the user is online exactly if a device is left, which is
also what the events say. -/
theorem PresenceInv.closeLogin {P : Platform} {u : UInt64} {cfg : ChatConfig}
    {hub : Hub} (hinv : PresenceInv P u hub)
    (haccepting : hub.server.Accepting cfg) {login : Login}
    (hmem : login ∈ hub.opened)
    (hguard : login.userId = u → hub.Registered login ∨
      hub.registry.get u login.deviceId = none ∧
        hub.registry.isUserOnline u = true) :
    PresenceInv P u (hub.closeLogin P cfg login) := by
  have hregistry := hinv.sound.closeLogin_registry cfg hmem
  obtain ⟨hidentity, hid, hdevice⟩ := hinv.sound.identified login hmem
  have hpresence : (hub.closeLogin P cfg login).server.presence u =
      hub.server.presence u ++
        if login.userId = u ∧ (hub.registry.remove login.userId
            login.deviceId).2.isUserOnline login.userId = false
        then [false] else [] :=
    Server.onClose_presence hidentity hid hdevice haccepting u
  have howns : login.userId = u →
      ∀ c ∈ hub.registry.get login.userId login.deviceId,
        c.session = login.session := by
    rintro rfl c hget
    rcases hguard rfl with ⟨own, hown, hsession⟩ | ⟨hnone, _⟩
    · rw [Option.mem_def.mp hget] at hown
      rw [← hsession, Option.some.inj hown]
    · rw [hnone] at hget
      contradiction
  have hwas : login.userId = u → (hub.server.presence u).getLast? = some true := by
    rintro rfl
    apply hinv.online.mp
    rcases hguard rfl with ⟨c, hget, _⟩ | ⟨_, honline⟩
    · exact SessionRegistry.isUserOnline_of_get hget
    · exact honline
  refine ⟨hinv.sound.closeLogin cfg hmem, ?_, ?_, ?_, ?_⟩
  · rw [hregistry]
    exact hinv.wellFormed.remove login.userId login.deviceId
  · intro other hlive huser
    have hbefore := hinv.registered other hlive.of_closeLogin huser
    by_cases hsame : login.userId = u
    · exact hbefore.closeLogin hinv.sound cfg hmem (howns hsame) hlive
    · obtain ⟨c, hget, hsession⟩ := hbefore
      refine ⟨c, ?_, hsession⟩
      have hne : ¬ (other.userId = login.userId ∧ other.deviceId = login.deviceId) :=
        fun hkey => hsame (hkey.1.symm.trans huser)
      rw [hregistry, SessionRegistry.get_remove, if_neg hne]
      exact hget
  · rw [hpresence]
    split_ifs with hlast
    · exact hinv.alternates.append_one
        (iff_of_false (by simp) (not_not.mpr (hwas hlast.1)))
    · simpa using hinv.alternates
  · rw [hregistry, hpresence]
    by_cases huser : login.userId = u
    · subst huser
      cases hleft : (hub.registry.remove login.userId
          login.deviceId).2.isUserOnline login.userId with
      | true => simpa using hwas rfl
      | false => simp
    · rw [SessionRegistry.isUserOnline_remove_of_ne _ _ fun h => huser h.symm]
      simpa [huser] using hinv.online

theorem presenceInv_step {P : Platform} {u : UInt64} {cfg : ChatConfig}
    (hmax : 1 ≤ toSizeT cfg.chat.maxDevicesPerUser) (hub : Hub) (e : Event)
    (hinv : PresenceInv P u hub) (henabled : (machine P cfg).enabled hub e)
    (hguard : hub.PresenceAccepted cfg e ∧ hub.ClosesOwnOrNothing u e) :
    PresenceInv P u ((machine P cfg).step hub e) := by
  rcases step_cases cfg hinv.sound henabled with
    ⟨server, _, hstep, hsame, hpresence⟩ |
    ⟨clock, o, iom, request, session, claims, rfl, hid, hfresh, hstep⟩ |
    ⟨login, hmem, rfl, _, hstep⟩
  · rw [hstep]
    exact hinv.sameEntries hsame (hpresence u)
  · rw [hstep]
    exact hinv.loggedIn hmax hguard.1 hfresh clock o iom request hid
  · rw [hstep]
    exact hinv.closeLogin hguard.1 hmem (hguard.2 login hmem rfl)

/-- Along every run in which every close finds its own connection, or nothing
while the user has another device, the presence events of the user are right. -/
theorem presenceRight_of_closesOwnOrNothing (P : Platform) (cfg : ChatConfig)
    (hmax : 1 ≤ toSizeT cfg.chat.maxDevicesPerUser) (u : UInt64)
    (es : List Event) (hadm : (machine P cfg).Admissible {} es)
    (haccepted : (machine P cfg).Each (PresenceAccepted cfg) {} es)
    (hcloses : (machine P cfg).Each (ClosesOwnOrNothing u) {} es) :
    (machine P cfg).Always (PresenceRight u) {} es := by
  have halways := Machine.always_of_guarded (presenceInv_step hmax)
    (presenceInv_initial P u) hadm (haccepted.and hcloses)
  exact halways.imp fun hub hinv => hinv.right

namespace PresenceWitness

open HubWitness

/-- The device logs in and closes, twice. -/
def twice : List Event :=
  [logIn 1, .close 1, logIn 2, .close 2]

/-- The second login replaces the first connection; both close afterwards. -/
def replaced : List Event :=
  [logIn 1, logIn 2, .close 1, .close 2]

example : ((machine platform cfg).run {} replaced).server.presence 7 =
    [true, false, false] := by decide +kernel

theorem presenceRight_twice :
    (machine platform cfg).Always (PresenceRight 7) {} twice :=
  presenceRight_of_closesOwnOrNothing platform cfg (by decide) 7 twice
    (by decide +kernel) (by decide +kernel) (by decide +kernel)

theorem not_always_presenceRight :
    ¬ ∀ (P : Platform) (cfg : ChatConfig) (u : UInt64) (es : List Event),
      1 ≤ toSizeT cfg.chat.maxDevicesPerUser →
      (machine P cfg).Admissible {} es →
      (machine P cfg).Each (PresenceAccepted cfg) {} es →
        (machine P cfg).Always (PresenceRight u) {} es := by
  intro hall
  exact absurd (hall platform cfg 7 replaced (by decide) (by decide +kernel)
    (by decide +kernel)) (by decide +kernel)

end PresenceWitness

end Hub

end FlzChat
