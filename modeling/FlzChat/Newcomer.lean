/-
Whether a login survives its own `Add`.  The newcomer takes part in the search
for the oldest connection, and among equal login times the iteration order
decides, so it survives every order only if enough others are strictly older.
-/
import FlzChat.Eviction
import FlzChat.Hub

namespace FlzChat

namespace SessionRegistry

/-- The user's connections on other devices than the newcomer's. -/
def others (r : SessionRegistry) (conn : OnlineConn) : List OnlineConn :=
  ((r.byDevice conn.userId).erase conn.deviceId).entries.map (·.2)

/-- How many connections `Add` evicts. -/
def surplus (r : SessionRegistry) (conn : OnlineConn) (maxDevices : Nat) : Nat :=
  (r.others conn).length + 1 - maxDevices

/-- `conn` logged in strictly before `newcomer`. -/
def older (newcomer conn : OnlineConn) : Bool :=
  decide (conn.loginAt < newcomer.loginAt)

/-- The iteration order that visits one device first. -/
def deviceFirst (deviceId : StdString) : IterOrder Devices.Entry where
  order entries := entries.filter (fun entry => entry.1 == deviceId) ++
    entries.filter fun entry => !(entry.1 == deviceId)
  perm entries := List.filter_append_perm _ entries

theorem map_joined (r : SessionRegistry) (conn : OnlineConn) :
    (r.joined conn).entries.map (·.2) = conn :: r.others conn := by
  rw [entries_joined, List.map_cons]
  rfl

theorem length_evicted (o : IterOrder Devices.Entry) (r : SessionRegistry)
    (conn : OnlineConn) (maxDevices : Nat) :
    (r.add o conn maxDevices).evicted.length = r.surplus conn maxDevices := by
  obtain ⟨hsplit, hcount⟩ := add_rankSplit o r conn maxDevices
  have hlength := hsplit.length_add
  rw [map_joined, length_connections, hcount] at hlength
  have hjoined : (r.joined conn).entries.length = (r.others conn).length + 1 := by
    rw [entries_joined, List.length_cons, others, List.length_map]
  rw [hjoined, List.length_cons] at hlength
  rw [surplus]
  omega

/-- With enough older connections the newcomer stays, in any order. -/
theorem newcomer_notMem_evicted (o : IterOrder Devices.Entry)
    {r : SessionRegistry} {conn : OnlineConn} {maxDevices : Nat}
    (holder : r.surplus conn maxDevices ≤ (r.others conn).countP (older conn)) :
    conn ∉ (r.add o conn maxDevices).evicted := by
  apply (add_rankSplit o r conn maxDevices).1.not_mem_gone
  rw [length_evicted, map_joined, List.countP_cons]
  exact Nat.le_add_right_of_le holder

theorem order_deviceFirst {devices : Devices} {conn : OnlineConn}
    (hself : devices.lookup conn.deviceId = some conn) :
    ∃ rest, (deviceFirst conn.deviceId).order devices.entries =
      ⟨conn.deviceId, conn⟩ :: rest := by
  have hmem : (⟨conn.deviceId, conn⟩ : Devices.Entry) ∈
      devices.entries.filter fun entry => entry.1 == conn.deviceId := by
    rw [List.mem_filter]
    exact ⟨AList.mem_lookup_iff.mp hself, by simp⟩
  simp only [deviceFirst]
  cases hfirst : devices.entries.filter fun entry =>
      entry.1 == conn.deviceId with
  | nil =>
      rw [hfirst] at hmem
      contradiction
  | cons entry rest =>
      have hentry : entry ∈ devices.entries.filter fun entry =>
          entry.1 == conn.deviceId := by
        rw [hfirst]
        exact List.mem_cons_self
      obtain ⟨hin, hkey⟩ := List.mem_filter.mp hentry
      have heq : entry = ⟨conn.deviceId, conn⟩ :=
        devices.nodupKeys.eq_of_fst_eq hin (AList.mem_lookup_iff.mp hself)
          (by simpa using hkey)
      exact ⟨_, by rw [heq, List.cons_append]⟩

/-- Visited first, the newcomer is taken as soon as nobody older is left. -/
theorem newcomer_mem_evictSurplus {conn : OnlineConn} {maxDevices : Nat}
    (rounds : Nat) (devices : Devices) (evicted : List OnlineConn)
    (hself : devices.lookup conn.deviceId = some conn)
    (hrounds : devices.entries.length ≤ rounds + maxDevices)
    (hfew : maxDevices + devices.entries.countP (fun entry => older conn entry.2) <
      devices.entries.length) :
    conn ∈ (evictSurplus (deviceFirst conn.deviceId) maxDevices rounds devices
        evicted).2 ∧
      (evictSurplus (deviceFirst conn.deviceId) maxDevices rounds devices
        evicted).1.lookup conn.deviceId = none := by
  induction rounds generalizing devices evicted with
  | zero => omega
  | succ rounds ih =>
      have hmem := AList.mem_lookup_iff.mp hself
      have hsurplus : maxDevices < devices.entries.length := by omega
      simp only [evictSurplus, hsurplus, if_true]
      cases holdest : oldest? (deviceFirst conn.deviceId) devices with
      | none =>
          rw [oldest?_eq_none holdest] at hmem
          simp at hmem
      | some oldest =>
          obtain ⟨rest, hfirst⟩ := order_deviceFirst hself
          have hmin := holdest
          rw [oldest?_eq_argmin, hfirst] at hmin
          rcases argmin_eq_head_or_lt hmin with rfl | hlt
          · -- the newcomer itself is found oldest
            obtain ⟨gone, hgone, hsplits⟩ := evictSurplus_splits
              (deviceFirst conn.deviceId) maxDevices rounds
              (devices.erase conn.deviceId) (evicted ++ [conn])
            refine ⟨by simp [hgone], ?_⟩
            cases hkept : (evictSurplus (deviceFirst conn.deviceId) maxDevices
                rounds (devices.erase conn.deviceId)
                (evicted ++ [conn])).1.lookup conn.deviceId with
            | none => rfl
            | some c =>
                have := hsplits.sub _ _ hkept
                rw [AList.lookup_erase] at this
                contradiction
          · have hperm := perm_cons_erase (oldest?_mem holdest)
            have hlength := length_erase_of_mem (oldest?_mem holdest)
            have hcount := hperm.countP_eq fun entry => older conn entry.2
            have hne : conn.deviceId ≠ oldest.1 := by
              intro heq
              have hlookup := AList.mem_lookup_iff.mpr (oldest?_mem holdest)
              rw [← heq, hself] at hlookup
              rw [← Option.some.inj hlookup] at hlt
              exact lt_irrefl _ hlt
            apply ih
            · rwa [AList.lookup_erase_ne hne]
            · omega
            · rw [List.countP_cons_of_pos (by simpa [older] using hlt)] at hcount
              omega

/-- The newcomer stays in every order exactly when enough are older. -/
theorem forall_notMem_evicted_iff (r : SessionRegistry) (conn : OnlineConn)
    (maxDevices : Nat) :
    (∀ o, conn ∉ (r.add o conn maxDevices).evicted) ↔
      r.surplus conn maxDevices ≤ (r.others conn).countP (older conn) := by
  constructor
  · intro hstays
    by_contra hfew
    have hself : (r.joined conn).lookup conn.deviceId = some conn := by
      simp [joined]
    have hlength : (r.joined conn).entries.length = (r.others conn).length + 1 := by
      rw [entries_joined, List.length_cons, others, List.length_map]
    have hcount : (r.joined conn).entries.countP
        (fun entry => older conn entry.2) = (r.others conn).countP (older conn) := by
      rw [entries_joined, List.countP_cons_of_neg (by simp [older]), others,
        List.countP_map]
      rfl
    have hexcess : maxDevices + (r.joined conn).entries.countP
        (fun entry => older conn entry.2) < (r.joined conn).entries.length := by
      rw [surplus] at hfew
      omega
    have hgone := (newcomer_mem_evictSurplus (r.joined conn).entries.length
      (r.joined conn) [] hself (by omega) hexcess).1
    exact hstays (deviceFirst conn.deviceId) hgone
  · intro holder o
    exact newcomer_notMem_evicted o holder

end SessionRegistry

namespace Hub

open SessionRegistry (older)

/-- The millisecond clock an `onConnect` reads. -/
def Event.reading? : Event → Option Int
  | .connect clock _ _ _ _ => some clock.nowMs
  | _ => none

/-- Nobody registered has logged in after `now`. -/
def LoggedBy (now : Int) (hub : Hub) : Prop :=
  ∀ u d c, hub.registry.get u d = some c → c.loginAt ≤ now

theorem loggedBy_step {P : Platform} {cfg : ChatConfig} {now : Int} (hub : Hub)
    (e : Event) (hinv : Sound P hub ∧ hub.LoggedBy now)
    (henabled : (machine P cfg).enabled hub e)
    (hreading : ∀ t ∈ e.reading?, t ≤ now) :
    Sound P ((machine P cfg).step hub e) ∧
      ((machine P cfg).step hub e).LoggedBy now := by
  obtain ⟨hsound, hlogged⟩ := hinv
  refine ⟨sound_step P cfg hub e hsound henabled, ?_⟩
  intro u d c hget
  rcases hsound.get_step cfg henabled hget with
    ⟨c₀, hold, hc⟩ | ⟨clock, _, _, _, _, rfl, _, _, hlogin⟩
  · rw [hc.loginAt]
    exact hlogged u d c₀ hold
  · rw [hlogin]
    exact hreading clock.nowMs rfl

theorem loggedBy_reachable {P : Platform} {cfg : ChatConfig} {es : List Event}
    (hadm : (machine P cfg).Admissible {} es) {now : Int}
    (hreadings : ∀ t ∈ es.filterMap Event.reading?, t ≤ now) :
    Sound P ((machine P cfg).run {} es) ∧
      ((machine P cfg).run {} es).LoggedBy now := by
  have hinit : Sound P {} ∧ LoggedBy now {} :=
    ⟨sound_initial P, fun u d c hget => by
      simp [registry, SessionRegistry.get] at hget⟩
  have hguard : (machine P cfg).Each (fun _ e => ∀ t ∈ e.reading?, t ≤ now)
      {} es := by
    apply Machine.each_of_forall
    intro e he _ t ht
    exact hreadings t (List.mem_filterMap.mpr ⟨e, he, ht⟩)
  have halways := Machine.always_of_guarded loggedBy_step hinit hadm hguard
  exact (Machine.always_iff_forall_prefix _ _ _ es).mp halways es
    (List.prefix_refl es)

/-- The newcomer's session is registered, has not been handed back and has not
been sent `kicked`. -/
def NewcomerKept (P : Platform) (cfg : ChatConfig) (clock : Clock)
    (o : IterOrder Devices.Entry) (iom : Option IoManager)
    (request : HttpRequest) (session : SessionId) (hub : Hub) : Prop :=
  match hub.server.onConnect P cfg clock o iom request session with
  | (.error _, _) => True
  | (.ok result, server) => ∀ conn ∈ result.login,
      server.registry.get conn.userId conn.deviceId = some conn ∧
        conn ∉ result.handedBack ∧
        ∀ frame, (session, frame) ∈ server.frames.drop hub.server.frames.length →
          frame.type ≠ lit "kicked"

/-- As many of the user's connections on other devices as `Add` must evict have
logged in at another reading of the clock. -/
def EnoughEarlier (hub : Hub) (conn : OnlineConn) (maxDevices : Nat) : Prop :=
  hub.registry.surplus conn maxDevices ≤
    (hub.registry.others conn).countP fun c => c.loginAt ≠ conn.loginAt

instance (hub : Hub) (conn : OnlineConn) (maxDevices : Nat) :
    Decidable (hub.EnoughEarlier conn maxDevices) :=
  inferInstanceAs (Decidable (_ ≤ _))

theorem countP_older_eq {hub : Hub} {conn : OnlineConn}
    (hlogged : hub.LoggedBy conn.loginAt) :
    (hub.registry.others conn).countP (older conn) =
      (hub.registry.others conn).countP fun c => c.loginAt ≠ conn.loginAt := by
  apply List.countP_congr
  intro c hc
  obtain ⟨entry, hentry, rfl⟩ := List.mem_map.mp hc
  have hkept : ((hub.registry.byDevice conn.userId).erase
      conn.deviceId).lookup entry.1 = some entry.2 :=
    AList.mem_lookup_iff.mpr hentry
  have hlookup : hub.registry.get conn.userId entry.1 = some entry.2 := by
    rw [SessionRegistry.get_eq_lookup_byDevice]
    by_cases hd : entry.1 = conn.deviceId
    · rw [hd, AList.lookup_erase] at hkept
      contradiction
    · rwa [AList.lookup_erase_ne hd] at hkept
  have hle := hlogged _ _ _ hlookup
  simp only [older, decide_eq_true_eq]
  exact ⟨fun hlt => hlt.ne, fun hne => lt_of_le_of_ne hle hne⟩

/-- A login keeps its newcomer unless `Add` has evicted it. -/
theorem Sound.newcomerKept_iff {P : Platform} {hub : Hub} (hsound : Sound P hub)
    {session : SessionId}
    (hfresh : ∀ login ∈ hub.opened, login.session ≠ session) (cfg : ChatConfig)
    {clock : Clock} (o : IterOrder Devices.Entry) (iom : Option IoManager)
    {request : HttpRequest} {claims : JwtClaims}
    (htoken : extractToken request ≠ [])
    (hverify : JwtVerifier.verify P cfg.jwt clock.time (extractToken request) =
      .ok (.ok claims)) :
    hub.NewcomerKept P cfg clock o iom request session ↔
      Server.newConn cfg clock iom session claims.userId
          (hub.server.deviceIdFor claims).1 ∉
        (hub.added cfg clock o iom session claims).evicted := by
  have hadd := added_spec cfg clock o iom session claims hub
  have hframes := Server.frames_login cfg clock o iom request session claims
    hub.server
  have hregistry := Server.login_registry cfg clock o iom request session claims
    hub.server
  have hlogin : hub.server.onConnect P cfg clock o iom request session =
      (.ok (hub.server.login cfg clock o iom request session claims).1,
        (hub.server.login cfg clock o iom request session claims).2) := by
    simp only [Server.onConnect]
    rw [if_neg htoken, hverify]
  have hhanded : (hub.server.login cfg clock o iom request session
      claims).1.handedBack =
        (hub.added cfg clock o iom session claims).handedBack := by
    simp [Server.login, added, SessionRegistry.AddResult.handedBack, registry]
  simp only [NewcomerKept]
  rw [hlogin]
  simp only
  rw [hregistry, hframes, List.drop_left, hhanded]
  constructor
  · intro hkept hevicted
    exact (hkept _ rfl).2.1 (List.mem_append.mpr (Or.inr hevicted))
  · intro hstays conn hconn
    obtain rfl := Option.some.inj hconn
    have hback : ∀ c ∈ (hub.added cfg clock o iom session claims).handedBack,
        c.session ≠ session := by
      intro c hc
      rcases hadd.handedBack_cases hc with ⟨rfl, hnone⟩ | ⟨d, hget, _⟩
      · rcases hadd.newcomer with hnew | ⟨_, hevicted⟩
        · rw [hnew] at hnone
          contradiction
        · exact absurd hevicted hstays
      · exact hsound.session_ne hfresh hget
    refine ⟨?_, fun hmem => hback _ hmem rfl, ?_⟩
    · rcases hadd.newcomer with hnew | ⟨_, hevicted⟩
      · exact hnew
      · exact absurd hevicted hstays
    · intro frame hframe
      rcases List.mem_append.mp hframe with hkicked | hwelcome
      · obtain ⟨c, hc, heq⟩ := Server.mem_kickedFrames hkicked
        exact absurd heq (hback c hc)
      · rw [List.mem_singleton.mp hwelcome |> Prod.mk.inj |>.2]
        simp

/-- After logins at readings of the clock that never went back, the next login
keeps its newcomer under every iteration order exactly when enough of the
user's other devices have logged in at another reading than it. -/
theorem newcomerKept_iff_enoughEarlier (P : Platform) (cfg : ChatConfig)
    {es : List Event} (hadm : (machine P cfg).Admissible {} es)
    {clock : Clock}
    (hclocks : (es.filterMap Event.reading? ++ [clock.nowMs]).Pairwise (· ≤ ·))
    {session : SessionId}
    (hfresh : ∀ login ∈ ((machine P cfg).run {} es).opened,
      login.session ≠ session)
    (cfg' : ChatConfig) (iom : Option IoManager) {request : HttpRequest}
    {claims : JwtClaims} (htoken : extractToken request ≠ [])
    (hverify : JwtVerifier.verify P cfg'.jwt clock.time (extractToken request) =
      .ok (.ok claims)) :
    let hub := (machine P cfg).run {} es
    (∀ o, hub.NewcomerKept P cfg' clock o iom request session) ↔
      hub.EnoughEarlier
        (Server.newConn cfg' clock iom session claims.userId
          (hub.server.deviceIdFor claims).1)
        (toSizeT cfg'.chat.maxDevicesPerUser) := by
  intro hub
  have hreadings : ∀ t ∈ es.filterMap Event.reading?, t ≤ clock.nowMs := by
    intro t ht
    exact (List.pairwise_append.mp hclocks).2.2 t ht clock.nowMs
      List.mem_cons_self
  obtain ⟨hsound, hlogged⟩ := loggedBy_reachable hadm hreadings
  have hkept := fun o => hsound.newcomerKept_iff hfresh cfg' o iom htoken hverify
  rw [EnoughEarlier, ← countP_older_eq hlogged,
    ← SessionRegistry.forall_notMem_evicted_iff]
  exact forall_congr' hkept

namespace NewcomerWitness

/-- A token for user 7 that names no device, so every login gets one of its
own. -/
def claimsText : StdString :=
  lit "\x7b\"iss\":\"flz_chat_business\",\"sub\":\"7\",\"exp\":4102444800\x7d"

def claimsJson : Json :=
  .object [("iss", .str (lit "flz_chat_business")), ("sub", .str (lit "7")),
    ("exp", .int 4102444800)]

def mac : StdString :=
  [85, 165, 232, 146, 171, 41, 32, 23, 82, 133, 183, 120, 225, 121, 198, 142,
    56, 188, 116, 1, 163, 21, 161, 230, 208, 12, 184, 140, 11, 22, 125, 205]

def signingInput : StdString :=
  lit "eyJhbGciOiJIUzI1NiJ9.eyJpc3MiOiJmbHpfY2hhdF9idXNpbmVzcyIsInN1YiI6IjciLCJleHAiOjQxMDI0NDQ4MDB9"

def token : StdString :=
  signingInput ++ lit ".VaXokqspIBdShbd44XnGjji8dAGjFaHm0Ay4jAsWfc0"

def platform : Platform :=
  Platform.ofTables
    [(HubWitness.headerText, .object [("alg", .str (lit "HS256"))]),
      (claimsText, claimsJson)]
    [(lit "eyJhbGciOiJIUzI1NiJ9", HubWitness.headerText),
      (lit "eyJpc3MiOiJmbHpfY2hhdF9idXNpbmVzcyIsInN1YiI6IjciLCJleHAiOjQxMDI0NDQ4MDB9",
        claimsText)]
    [(mac, lit "VaXokqspIBdShbd44XnGjji8dAGjFaHm0Ay4jAsWfc0=")]
    [((lit "secret", signingInput), mac)]

/-- One device a user. -/
def cfg : ChatConfig :=
  { jwt := { secret := lit "secret" }, chat := { maxDevicesPerUser := 1 } }

def request : HttpRequest :=
  ⟨fun name => if name = lit "token" then token else [], fun _ => []⟩

def clock (nowMs : Int) : Clock := ⟨nowMs, 1700000000, []⟩

/-- One login, at reading 10. -/
def es : List Event :=
  [.connect (clock 10) (IterOrder.asKept _) none request 1]

theorem es_admissible : (machine platform cfg).Admissible {} es := by
  decide +kernel

theorem two_fresh : ∀ login ∈ ((machine platform cfg).run {} es).opened,
    login.session ≠ 2 := by decide +kernel

theorem token_ne_nil : extractToken request ≠ [] := by decide +kernel

/-- The token is accepted and names user 7. -/
theorem exists_claims (nowMs : Int) :
    ∃ claims, JwtVerifier.verify platform cfg.jwt (clock nowMs).time
        (extractToken request) = .ok (.ok claims) ∧
      claims.userId = 7 ∧ claims.deviceId = [] := by
  have haccepted : ((JwtVerifier.verify platform cfg.jwt 1700000000
      (extractToken request)).toOption.bind Except.toOption).any
        (fun claims => decide (claims.userId = 7 ∧ claims.deviceId = [])) =
          true := by decide +kernel
  change ∃ claims, JwtVerifier.verify platform cfg.jwt 1700000000
    (extractToken request) = _ ∧ _
  rcases heq : JwtVerifier.verify platform cfg.jwt 1700000000
    (extractToken request) with thrown | err | claims
  · simp [heq, Except.toOption] at haccepted
  · simp [heq, Except.toOption] at haccepted
  · exact ⟨claims, rfl, by simpa [heq, Except.toOption] using haccepted⟩

theorem newConn_two {nowMs : Int} {claims : JwtClaims} (huser : claims.userId = 7)
    (hdevice : claims.deviceId = []) :
    Server.newConn cfg (clock nowMs) none 2 claims.userId
        (((machine platform cfg).run {} es).server.deviceIdFor claims).1 =
      OnlineConn.create 7 (lit "device-7-2") 2 none nowMs 20 := by
  have hname : (((machine platform cfg).run {} es).server.allocFallbackDeviceId
      7).1 = lit "device-7-2" := by decide +kernel
  rw [Server.deviceIdFor, if_pos hdevice, huser, hname]
  rfl

/-- One millisecond later the second device's login keeps its newcomer, also in
the iteration order that visits it first. -/
theorem newcomerKept_later :
    ((machine platform cfg).run {} es).NewcomerKept platform cfg (clock 11)
      (SessionRegistry.deviceFirst (lit "device-7-2")) none request 2 := by
  obtain ⟨claims, hverify, huser, hdevice⟩ := exists_claims 11
  have hclocks : (es.filterMap Event.reading? ++ [(clock 11).nowMs]).Pairwise
      (· ≤ ·) := by decide +kernel
  refine (newcomerKept_iff_enoughEarlier platform cfg es_admissible hclocks
    two_fresh cfg none token_ne_nil hverify).mpr ?_ _
  rw [newConn_two huser hdevice]
  decide +kernel

/-- In the same millisecond an iteration order that visits the newcomer first
evicts it. -/
theorem not_always_newcomerKept :
    (machine platform cfg).Admissible {} es ∧
      (es.filterMap Event.reading? ++ [(clock 10).nowMs]).Pairwise (· ≤ ·) ∧
      1 ≤ toSizeT cfg.chat.maxDevicesPerUser ∧
      ¬ ∀ o, ((machine platform cfg).run {} es).NewcomerKept platform cfg
        (clock 10) o none request 2 := by
  refine ⟨es_admissible, by decide +kernel, by decide +kernel, ?_⟩
  intro hkept
  obtain ⟨claims, hverify, huser, hdevice⟩ := exists_claims 10
  have hreadings : ∀ t ∈ es.filterMap Event.reading?, t ≤ 10 := by decide +kernel
  have hsound := (loggedBy_reachable es_admissible hreadings).1
  have hstays := (hsound.newcomerKept_iff two_fresh cfg
    (SessionRegistry.deviceFirst (lit "device-7-2")) none token_ne_nil
    hverify).mp (hkept _)
  rw [added, newConn_two huser hdevice] at hstays
  revert hstays
  decide +kernel

end NewcomerWitness

end Hub

end FlzChat
