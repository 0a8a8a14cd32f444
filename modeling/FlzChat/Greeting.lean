/-
What a session is sent first.  Between `Add` and its `auth_ok` a connection is
registered and not yet greeted; pushes and other logins can find it there.
-/
import FlzChat.FanOut
import FlzChat.Hub

namespace FlzChat

namespace Server

/-- The verdict on a request's token; a missing one is refused without a reason. -/
def tokenVerdict (P : Platform) (cfg : ChatConfig) (clock : Clock)
    (request : HttpRequest) : Except Thrown (Except StdString JwtClaims) :=
  let token := extractToken request
  if token = [] then .ok (.error []) else
    JwtVerifier.verify P cfg.jwt clock.time token

theorem onConnect_eq_verdict (P : Platform) (cfg : ChatConfig) (clock : Clock)
    (o : IterOrder Devices.Entry) (iom : Option IoManager)
    (request : HttpRequest) (session : SessionId) (s : Server) :
    s.onConnect P cfg clock o iom request session =
      match tokenVerdict P cfg clock request with
      | .error thrown => (.error thrown, s)
      | .ok (.error err) =>
          let refused := s.refuse err request session
          (.ok refused.1, refused.2)
      | .ok (.ok claims) =>
          let accepted := s.login cfg clock o iom request session claims
          (.ok accepted.1, accepted.2) := by
  simp only [onConnect, tokenVerdict]
  by_cases htoken : extractToken request = []
  · simp only [htoken, if_true]
  · rcases JwtVerifier.verify P cfg.jwt clock.time (extractToken request)
      with thrown | err | claims <;>
      simp only [htoken, if_false]

/-- In one piece `onConnect` does what its thread is left with after `Add`, and
then nothing that sends a frame. -/
theorem onConnect_effects (P : Platform) (cfg : ChatConfig) (clock : Clock)
    (o : IterOrder Devices.Entry) (iom : Option IoManager)
    (request : HttpRequest) (session : SessionId) (s : Server) :
    let s' := (s.onConnect P cfg clock o iom request session).2
    match tokenVerdict P cfg clock request with
    | .error _ => s' = s
    | .ok (.error err) => s'.effects = s.effects ++ refuseEffects err session
    | .ok (.ok claims) =>
        let joined := s.joining cfg clock o iom session claims
        s'.registry = joined.2.registry ∧
          ∃ published, published.flatMap Effect.frames = [] ∧
            s'.effects = s.effects ++ (handedBackEffects joined.2 ++
              authOkEffects clock joined.1) ++ published := by
  simp only [onConnect_eq_verdict]
  cases hverdict : tokenVerdict P cfg clock request with
  | error thrown => rfl
  | ok verdict =>
      cases verdict with
      | error err =>
          have hrefused : Does {} _ s _ := does_refuse err request session s
          exact hrefused.effects
      | ok claims =>
          have hdoes : Does (.ofPresence cfg) _ s _ :=
            does_login claims le_rfl trivial (fun _ _ => trivial) clock o iom request
              session s
          refine ⟨login_registry cfg clock o iom request session claims s, _,
            frames_onlineEffects cfg claims.userId s, ?_⟩
          rw [List.append_assoc]
          exact hdoes.effects

end Server

/-- Whose work a job is: an `onConnect` that has accepted or refused, or
`OnEnvelope`. -/
inductive Caller where
  | login (session : SessionId)
  | refusal (session : SessionId)
  | dispatcher

def Caller.login? : Caller → Option SessionId
  | login session => some session
  | _ => none

/-- The sessions `onConnect` has been called for, and what is under way. -/
structure Greeting where
  server : Server := {}
  connected : List SessionId := []
  refused : List SessionId := []
  workers : Workers IoManager Push Effect Caller := {}

namespace Greeting

inductive Event where
  | onConnect (clock : Clock) (o : IterOrder Devices.Entry)
      (iom : Option IoManager) (request : HttpRequest) (session : SessionId)
  | onEnvelope (pending : Option PendingSend) (env : Envelope)
  | onClose (userId : UInt64) (deviceId : StdString)
  | start (iom : IoManager)
  | advance (o : IterOrder Devices.Entry) (thread : Nat)

/-- `onConnect` up to its `Add`; the frames it owes are left to its thread.  The
presence event that follows them sends none. -/
def connect (P : Platform) (cfg : ChatConfig) (clock : Clock)
    (o : IterOrder Devices.Entry) (iom : Option IoManager)
    (request : HttpRequest) (session : SessionId) (g : Greeting) : Greeting :=
  let g := { g with connected := session :: g.connected }
  match Server.tokenVerdict P cfg clock request with
  | .error _ => g
  | .ok (.error err) =>
      { g with
        refused := session :: g.refused
        workers := g.workers.launch
          ⟨.refusal session, none,
            (Server.refuseEffects err session).map Effect.op⟩ }
  | .ok (.ok claims) =>
      let joined := g.server.joining cfg clock o iom session claims
      { g with
        server := { (g.server.deviceIdFor claims).2 with
          registry := joined.2.registry }
        workers := g.workers.launch
          ⟨.login session, none, (Server.handedBackEffects joined.2 ++
            Server.authOkEffects clock joined.1).map Effect.op⟩ }

/-- A thread does its next operation. -/
def work (o : IterOrder Devices.Entry) (thread : Nat) (g : Greeting) : Greeting :=
  let answer := Push.answer o g.server.registry
  { g with workers := g.workers.advance answer thread }

/-- Logins, pushes and closing connections; each session connects once.  The
pending entry an envelope finds may be any. -/
def machine (P : Platform) (cfg : ChatConfig) : Machine Greeting Event where
  enabled g
    | .onConnect _ _ _ _ session => session ∉ g.connected
    | _ => True
  step g
    | .onConnect clock o iom request session =>
        g.connect P cfg clock o iom request session
    | .onEnvelope pending env =>
        let job := ⟨.dispatcher, none, Push.jobOf P pending env⟩
        { g with workers := g.workers.launch job }
    | .onClose userId deviceId =>
        { g with server := { g.server with
          registry := (g.server.registry.remove userId deviceId).2 } }
    | .start iom => { g with workers := g.workers.start iom }
    | .advance o thread => g.work o thread

/-- The frames sent so far. -/
def sent (g : Greeting) : List (SessionId × Frame) :=
  g.workers.shown.flatMap fun one => one.2.frames

/-- The sessions whose `onConnect` has returned 0. -/
def returned (g : Greeting) : List SessionId :=
  g.workers.running.filterMap fun job =>
    if job.place.isNone ∧ job.todo.isEmpty then job.origin.login? else none

/-- Each of them has been sent its `auth_ok` before anything else. -/
def GreetedFirst (g : Greeting) : Prop :=
  ∀ session ∈ g.returned,
    (typesTo session g.sent).head? = some (lit "auth_ok")

instance : DecidablePred GreetedFirst :=
  fun g => inferInstanceAs (Decidable (∀ session ∈ g.returned,
    (typesTo session g.sent).head? = some (lit "auth_ok")))

/-- The session of the connection has been sent its `auth_ok`. -/
def Greeted (g : Greeting) (session : SessionId) : Prop :=
  lit "auth_ok" ∈ typesTo session g.sent

instance (g : Greeting) (session : SessionId) : Decidable (g.Greeted session) :=
  inferInstanceAs (Decidable (_ ∈ _))

/-- The connections a step finds: those `GetByUser` returns to a push, those
`Add` hands back to a login. -/
def found (P : Platform) (cfg : ChatConfig) (g : Greeting) :
    Event → List OnlineConn
  | .onConnect clock o iom request session =>
      match Server.tokenVerdict P cfg clock request with
      | .ok (.ok claims) =>
          let added := (g.server.joining cfg clock o iom session claims).2
          added.replaced.toList ++ added.evicted
      | _ => []
  | .advance o thread =>
      match (g.workers.running[thread]?).bind (·.todo.head?) with
      | some (.call push) => g.server.registry.getByUser o push.uid
      | _ => []
  | _ => []

/-- The step finds greeted connections only. -/
def FindsGreeted (P : Platform) (cfg : ChatConfig) (g : Greeting) (e : Event) :
    Prop :=
  ∀ conn ∈ g.found P cfg e, g.Greeted conn.session

instance (P : Platform) (cfg : ChatConfig) (g : Greeting) (e : Event) :
    Decidable (g.FindsGreeted P cfg e) :=
  inferInstanceAs (Decidable (∀ conn ∈ g.found P cfg e, g.Greeted conn.session))

/-- A frame may be sent: it greets, or its session needs no greeting any more. -/
def Permits (g : Greeting) (one : SessionId × Frame) : Prop :=
  one.2.type = lit "auth_ok" ∨ g.Greeted one.1 ∨ one.1 ∈ g.refused

/-- The session's own greeting is still among the operations. -/
def Owes (session : SessionId) (todo : List ServerOp) : Prop :=
  ∃ frame, frame.type = lit "auth_ok" ∧
    .emit (.now (.sendFrame session frame)) ∈ todo

structure Inv (g : Greeting) : Prop where
  known : g.refused ⊆ g.connected
  first : ∀ session, session ∉ g.refused → typesTo session g.sent = [] ∨
    (typesTo session g.sent).head? = some (lit "auth_ok")
  due : g.workers.EachOp fun _ op => ∀ one ∈ op.frames, g.Permits one
  login : ∀ job, g.workers.Has job → job.place = none →
    ∀ session, job.origin = .login session →
      session ∈ g.connected ∧ session ∉ g.refused ∧
        (g.Greeted session ∨ Owes session job.todo)

/-- More has been sent and refused. -/
structure Extends (g g' : Greeting) : Prop where
  sent : g.sent <+: g'.sent
  refused : g.refused ⊆ g'.refused

theorem Extends.greeted {g g' : Greeting} (hext : Extends g g')
    {session : SessionId} (hgreeted : g.Greeted session) :
    g'.Greeted session := by
  obtain ⟨new, hnew⟩ := hext.sent
  rw [Greeted, ← hnew, Server.typesTo_append]
  exact List.mem_append_left _ hgreeted

theorem Extends.permits {g g' : Greeting} (hext : Extends g g')
    {one : SessionId × Frame} (hpermits : g.Permits one) : g'.Permits one :=
  hpermits.imp_right (Or.imp hext.greeted (fun hrefused => hext.refused hrefused))

/-- The first frame stays the first, and the very first greets. -/
theorem first_append {types new : List StdString} {greeting : StdString}
    (hfirst : types = [] ∨ types.head? = some greeting)
    (hnew : ∀ type ∈ new, type = greeting ∨ greeting ∈ types) :
    types ++ new = [] ∨ (types ++ new).head? = some greeting := by
  rcases hfirst with rfl | hfirst
  · cases new with
    | nil => exact Or.inl rfl
    | cons type new =>
        have htype := hnew type List.mem_cons_self
        simp only [List.not_mem_nil, or_false] at htype
        exact Or.inr (by simp [htype])
  · cases types with
    | nil => simp at hfirst
    | cons type types => exact Or.inr hfirst

/-- Frames that may be sent leave the first frames in order. -/
theorem Inv.first_append {g : Greeting} (hinv : Inv g)
    {new : List (SessionId × Frame)} (hnew : ∀ one ∈ new, g.Permits one)
    {session : SessionId} (hopen : session ∉ g.refused) :
    typesTo session (g.sent ++ new) = [] ∨
      (typesTo session (g.sent ++ new)).head? = some (lit "auth_ok") := by
  rw [Server.typesTo_append]
  apply Greeting.first_append (hinv.first session hopen)
  intro type htype
  obtain ⟨one, hone, rfl⟩ := List.mem_map.mp htype
  obtain ⟨hmem, hsession⟩ := List.mem_filter.mp hone
  have hsession : one.1 = session := by simpa using hsession
  rcases hnew one hmem with hgreets | hgreeted | hrefused
  · exact Or.inl hgreets
  · rw [hsession] at hgreeted
    exact Or.inr hgreeted
  · rw [hsession] at hrefused
    exact absurd hrefused hopen

/-- Calling `onConnect` for a session says nothing yet. -/
theorem Inv.connecting {g : Greeting} (hinv : Inv g) (session : SessionId) :
    Inv { g with connected := session :: g.connected } where
  known other hother := List.mem_cons_of_mem session (hinv.known hother)
  first := hinv.first
  due := hinv.due
  login job hhas hplace other horigin := by
    obtain ⟨hknown, hrest⟩ := hinv.login job hhas hplace other horigin
    exact ⟨List.mem_cons_of_mem session hknown, hrest⟩

theorem Inv.refusing {g : Greeting} (hinv : Inv g) {session : SessionId}
    (hconnected : session ∈ g.connected)
    (hnew : ∀ job, g.workers.Has job → job.place = none →
      job.origin ≠ .login session) :
    Inv { g with refused := session :: g.refused } := by
  have hext : Extends g { g with refused := session :: g.refused } :=
    ⟨List.prefix_rfl, List.subset_cons_self session g.refused⟩
  refine ⟨?_, fun other hopen => ?_, fun job hhas op hop one hone => ?_,
    fun job hhas hplace other horigin => ?_⟩
  · intro other hother
    rcases List.mem_cons.mp hother with rfl | hother
    · exact hconnected
    · exact hinv.known hother
  · exact hinv.first other fun hrefused =>
      hopen (List.mem_cons_of_mem session hrefused)
  · exact hext.permits (hinv.due job hhas op hop one hone)
  · obtain ⟨hknown, hopen, howes⟩ := hinv.login job hhas hplace other horigin
    refine ⟨hknown, ?_, howes⟩
    intro hrefused
    rcases List.mem_cons.mp hrefused with rfl | hrefused
    · exact hnew job hhas hplace horigin
    · exact hopen hrefused

theorem Inv.setServer {g : Greeting} (hinv : Inv g) (server : Server) :
    Inv { g with server := server } :=
  ⟨hinv.known, hinv.first, hinv.due, hinv.login⟩

theorem Inv.launch {g : Greeting} (hinv : Inv g)
    {job : Job IoManager Push Effect Caller}
    (hdue : ∀ op ∈ job.todo, ∀ one ∈ op.frames, g.Permits one)
    (hlogin : ∀ session, job.origin = .login session →
      session ∈ g.connected ∧ session ∉ g.refused ∧ Owes session job.todo) :
    Inv { g with workers := g.workers.launch job } where
  known := hinv.known
  first := hinv.first
  due := hinv.due.launch hdue
  login other hhas hplace session horigin := by
    rcases hhas.of_launch with rfl | hold
    · obtain ⟨hknown, hopen, howes⟩ := hlogin session horigin
      exact ⟨hknown, hopen, Or.inr howes⟩
    · exact hinv.login other hold hplace session horigin

/-- A session that connects for the first time has no login yet. -/
theorem Inv.no_login {g : Greeting} (hinv : Inv g) {session : SessionId}
    (hfresh : session ∉ g.connected) (job : Job IoManager Push Effect Caller)
    (hhas : g.workers.Has job) (hplace : job.place = none) :
    job.origin ≠ .login session := by
  intro horigin
  exact hfresh (hinv.login job hhas hplace session horigin).1

/-- A login that hands back greeted connections only. -/
theorem Inv.connect {P : Platform} {cfg : ChatConfig} {g : Greeting}
    (hinv : Inv g) {clock : Clock} {o : IterOrder Devices.Entry}
    {iom : Option IoManager} {request : HttpRequest} {session : SessionId}
    (hfresh : session ∉ g.connected)
    (hfinds : g.FindsGreeted P cfg (.onConnect clock o iom request session)) :
    Inv (g.connect P cfg clock o iom request session) := by
  have hconnecting := hinv.connecting session
  rw [FindsGreeted, found] at hfinds
  rw [Greeting.connect]
  cases hverdict : Server.tokenVerdict P cfg clock request with
  | error thrown => exact hconnecting
  | ok verdict =>
      cases verdict with
      | error err =>
          have hrefusing := hconnecting.refusing List.mem_cons_self
            (hinv.no_login hfresh)
          apply hrefusing.launch
          · intro op hop one hone
            have hframe := mem_frames_of_mem_ops hop hone
            simp only [Server.refuseEffects, Effect.frames, Action.frame?,
              List.flatMap_cons, List.flatMap_nil, Option.toList_some,
              Option.toList_none, List.append_nil, List.mem_singleton] at hframe
            rw [hframe]
            exact Or.inr (Or.inr List.mem_cons_self)
          · intro other horigin
            contradiction
      | ok claims =>
          simp only [hverdict] at hfinds
          apply (hconnecting.setServer _).launch
          · intro op hop one hone
            have hframe := mem_frames_of_mem_ops hop hone
            rw [List.flatMap_append, Server.frames_handedBackEffects,
              Server.frames_authOkEffects] at hframe
            rcases List.mem_append.mp hframe with hkicked | hgreets
            · obtain ⟨conn, hconn, hsession⟩ := Server.mem_kickedFrames hkicked
              right
              left
              rw [← hsession]
              exact hfinds conn hconn
            · rw [List.mem_singleton.mp hgreets]
              exact Or.inl rfl
          · rintro other horigin
            obtain rfl := Caller.login.inj horigin
            let conn := (g.server.joining cfg clock o iom session claims).1
            refine ⟨List.mem_cons_self, fun hrefused =>
              hfresh (hinv.known hrefused),
              (Server.authOkFrame clock conn).2, rfl, ?_⟩
            apply List.mem_map.mpr
            exact ⟨_, List.mem_append_right _ List.mem_cons_self, rfl⟩

theorem Inv.start {g : Greeting} (hinv : Inv g) (iom : IoManager) :
    Inv { g with workers := g.workers.start iom } := by
  have hsent : ({ g with workers := g.workers.start iom } : Greeting).sent =
      g.sent := by
    simp only [sent, Workers.shown_start]
  have hext : Extends g { g with workers := g.workers.start iom } :=
    ⟨by rw [hsent], List.Subset.refl _⟩
  refine ⟨hinv.known, ?_, ?_, ?_⟩
  · rw [hsent]
    exact hinv.first
  · intro job hhas op hop one hone
    exact hext.permits (hinv.due job hhas.of_start op hop one hone)
  · intro job hhas hplace session horigin
    obtain ⟨hknown, hopen, howes⟩ :=
      hinv.login job hhas.of_start hplace session horigin
    exact ⟨hknown, hopen, howes.imp_left hext.greeted⟩

/-- A thread sends what its next operation emits. -/
theorem sent_work (g : Greeting) (o : IterOrder Devices.Entry) (thread : Nat) :
    (g.work o thread).sent = g.sent ∨
      ∃ job shown rest, g.workers.running[thread]? = some job ∧
        job.todo = .emit shown :: rest ∧
        (g.work o thread).sent = g.sent ++ shown.frames := by
  rcases Workers.shown_advance (Push.answer o g.server.registry) thread
    g.workers with hsame | ⟨job, shown, rest, hjob, htodo, hshown⟩
  · exact Or.inl (by simp only [sent, work, hsame])
  · exact Or.inr ⟨job, shown, rest, hjob, htodo, by simp [sent, work, hshown]⟩

theorem extends_work (g : Greeting) (o : IterOrder Devices.Entry)
    (thread : Nat) : Extends g (g.work o thread) := by
  refine ⟨?_, List.Subset.refl _⟩
  rcases g.sent_work o thread with hsame | ⟨_, shown, _, _, _, hsent⟩
  · rw [hsame]
  · rw [hsent]
    exact List.prefix_append _ _

/-- Once its thread has sent the greeting, the session is greeted. -/
theorem greeted_of_emit {g : Greeting} {o : IterOrder Devices.Entry}
    {thread : Nat} {job : Job IoManager Push Effect Caller}
    {session : SessionId} {frame : Frame} {rest : List ServerOp}
    (hjob : g.workers.running[thread]? = some job)
    (htodo : job.todo = .emit (.now (.sendFrame session frame)) :: rest)
    (hgreets : frame.type = lit "auth_ok") :
    (g.work o thread).Greeted session := by
  have hsent : (g.work o thread).sent = g.sent ++ [(session, frame)] := by
    simp [work, sent, Workers.advance, hjob, htodo, Workers.goOn, Effect.frames,
      Action.frame?]
  rw [Greeted, hsent, Server.typesTo_append]
  apply List.mem_append_right
  simp [typesTo, hgreets]

/-- A push that finds greeted connections only. -/
theorem Inv.advance {P : Platform} {cfg : ChatConfig} {g : Greeting}
    (hinv : Inv g) {o : IterOrder Devices.Entry} {thread : Nat}
    (hfinds : g.FindsGreeted P cfg (.advance o thread)) :
    Inv (g.work o thread) := by
  have hext := g.extends_work o thread
  refine ⟨hinv.known, ?_, ?_, ?_⟩
  · intro session hopen
    rcases g.sent_work o thread with hsame | ⟨job, shown, rest, hjob, htodo, hsent⟩
    · rw [hsame]
      exact hinv.first session hopen
    · rw [hsent]
      apply hinv.first_append _ hopen
      apply hinv.due job (Or.inl (List.mem_of_getElem? hjob)) (.emit shown)
      rw [htodo]
      exact List.mem_cons_self
  · have hlater : g.workers.EachOp fun _ op => ∀ one ∈ op.frames,
        (g.work o thread).Permits one := fun job hhas op hop one hone =>
      hext.permits (hinv.due job hhas op hop one hone)
    apply hlater.advance
    · intro job push rest hjob htodo op hop one hone
      have hframe := mem_frames_of_mem_ops hop hone
      rw [Push.frames_effects] at hframe
      obtain ⟨conn, hconn, rfl⟩ := List.mem_map.mp hframe
      rw [FindsGreeted, found, hjob, Option.bind_some, htodo] at hfinds
      exact hext.permits (Or.inr (Or.inl (hfinds conn hconn)))
    · intro place executor todo htodo effect heffect one hone
      exact htodo one (List.mem_flatMap.mpr ⟨effect, heffect, hone⟩)
  · intro job hhas hplace session horigin
    rcases hhas.of_advance with hold | ⟨next, op, rest, hjob, htodo, hrest⟩
    · obtain ⟨hknown, hopen, howes⟩ :=
        hinv.login job hold hplace session horigin
      exact ⟨hknown, hopen, howes.imp_left hext.greeted⟩
    · rcases hrest with rfl | ⟨executor, todo, _, rfl⟩
      · obtain ⟨hknown, hopen, howes⟩ := hinv.login next
          (Or.inl (List.mem_of_getElem? hjob)) hplace session horigin
        refine ⟨hknown, hopen, ?_⟩
        rcases howes with hgreeted | ⟨frame, hgreets, hmem⟩
        · exact Or.inl (hext.greeted hgreeted)
        · rw [htodo] at hmem
          rcases List.mem_cons.mp hmem with rfl | hmem
          · exact Or.inl (greeted_of_emit hjob htodo hgreets)
          · exact Or.inr ⟨frame, hgreets, List.mem_append_right _ hmem⟩
      · contradiction

theorem Inv.step {P : Platform} {cfg : ChatConfig} (g : Greeting) (e : Event)
    (hinv : Inv g) (henabled : (machine P cfg).enabled g e)
    (hfinds : g.FindsGreeted P cfg e) : Inv ((machine P cfg).step g e) := by
  cases e with
  | onConnect clock o iom request session => exact hinv.connect henabled hfinds
  | onEnvelope pending env =>
      apply hinv.launch
      · intro op hop one hone
        obtain ⟨push, _, rfl⟩ := List.mem_map.mp hop
        simp [Op.frames] at hone
      · intro session horigin
        contradiction
  | onClose userId deviceId => exact hinv.setServer _
  | start iom => exact hinv.start iom
  | advance o thread => exact hinv.advance hfinds

theorem inv_initial (server : Server) : Inv { server := server } where
  known := List.Subset.refl _
  first _ _ := Or.inl rfl
  due job hhas := absurd hhas (Workers.not_has_empty job)
  login job hhas := absurd hhas (Workers.not_has_empty job)

/-- A login that has nothing left to do has greeted its session. -/
theorem Inv.greetedFirst {g : Greeting} (hinv : Inv g) : g.GreetedFirst := by
  intro session hreturned
  obtain ⟨job, hjob, hlogin⟩ := List.mem_filterMap.mp hreturned
  split_ifs at hlogin with hdone
  obtain ⟨hplace, htodo⟩ := hdone
  have horigin : job.origin = .login session := by
    cases hcaller : job.origin <;> simp_all [Caller.login?]
  obtain ⟨_, hopen, howes⟩ := hinv.login job (Or.inl hjob)
    (Option.isNone_iff_eq_none.mp hplace) session horigin
  have hgreeted : g.Greeted session := by
    apply howes.resolve_right
    rintro ⟨frame, _, hmem⟩
    rw [List.isEmpty_iff.mp htodo] at hmem
    exact List.not_mem_nil hmem
  apply (hinv.first session hopen).resolve_left
  exact List.ne_nil_of_mem hgreeted

/-- In a run whose pushes and logins find greeted connections only, every
session whose `onConnect` returns 0 is sent its `auth_ok` first. -/
theorem greetedFirst_of_findsGreeted (P : Platform) (cfg : ChatConfig)
    (server : Server) {es : List Event}
    (hadm : (machine P cfg).Admissible { server := server } es)
    (hfinds : (machine P cfg).Each (FindsGreeted P cfg) { server := server } es) :
    (machine P cfg).Always GreetedFirst { server := server } es :=
  (Machine.always_of_guarded Inv.step (inv_initial server) hadm hfinds).imp
    fun _ hinv => hinv.greetedFirst

namespace GreetingWitness

open Hub.HubWitness (platform cfg clock request)

/-- A friend request for user 7. -/
def env : Envelope :=
  ⟨lit "m1", 1, [], [], lit "chat.friend.request",
    .object [("toUserId", .int 7)]⟩

def logIn : Event :=
  .onConnect clock (IterOrder.asKept _) (some 0) request 1

def work (thread : Nat) : Event := .advance (IterOrder.asKept _) thread

/-- The push looks at the registry after the greeting. -/
def pushAfter : List Event :=
  [logIn, work 0, .onEnvelope none env, work 0, work 1, work 1, .start 0, work 2]

/-- The push looks at the registry between `Add` and the greeting. -/
def pushBetween : List Event :=
  [logIn, .onEnvelope none env, work 1, work 1, .start 0, work 2, work 0, work 0]

instance (g : Greeting) : ∀ e, Decidable ((machine platform cfg).enabled g e)
  | .onConnect _ _ _ _ session =>
      inferInstanceAs (Decidable (session ∉ g.connected))
  | .onEnvelope _ _ | .onClose _ _ | .start _ | .advance _ _ => isTrue trivial

theorem greetedFirst_pushAfter :
    (machine platform cfg).Always GreetedFirst {} pushAfter :=
  greetedFirst_of_findsGreeted platform cfg {} (by decide +kernel)
    (by decide +kernel)

theorem not_always_greetedFirst :
    ¬ ∀ (P : Platform) (cfg : ChatConfig) (es : List Event),
      (machine P cfg).Admissible {} es →
        (machine P cfg).Always GreetedFirst {} es := by
  intro hall
  exact absurd (hall platform cfg pushBetween (by decide +kernel))
    (by decide +kernel)

example : typesTo 1 ((machine platform cfg).run {} pushBetween).sent =
    [lit "friend.request", lit "auth_ok"] := by decide +kernel

end GreetingWitness

end Greeting

end FlzChat
