/-
Who hears of what, and in whose name the server speaks.  Registered connections
belong to sessions that have shown a token, so what an event sends to a user
reaches only sessions proved to be that user's, and what a session makes the
server publish carries the user it has proved to be.
-/
import FlzChat.Deeds
import FlzChat.Notifications

namespace FlzChat

/-! The users an event names. -/

/-- The members in which an event of a type names one user. -/
def nameFields (type : StdString) : List StdString :=
  if type = lit "chat.msg.send" then [lit "senderId"]
  else if type = lit "chat.msg.replay" then [lit "targetUserId"]
  else if type = lit "chat.msg.recall" then [lit "operatorId"]
  else if type = lit "chat.friend.request" then [lit "toUserId"]
  else if type = lit "chat.friend.accept" then [lit "fromUserId", lit "toUserId"]
  else []

/-- The members in which it lists users. -/
def listFields (type : StdString) : List StdString :=
  if type = lit "chat.msg.send" then [lit "receivers"]
  else if type = lit "chat.msg.recall" then [lit "receivers"]
  else if type = lit "chat.conversation.created" then [lit "memberIds"]
  else if type = lit "chat.conversation.member_changed" then
    [lit "addedIds", lit "removedIds"]
  else []

/-- An array member has an element that converts to the id. -/
def Json.Lists (p : Json) (convert : Json → Except Thrown UInt64)
    (field : StdString) (uid : UInt64) : Prop :=
  ∃ elems, p.arrayMember field = .ok (some elems) ∧
    ∃ elem ∈ elems, convert elem = .ok uid

/-- The event names the user, as a single id, in a list of ids or as one whose
role has changed. -/
def Envelope.Mentions (J : Jsoncpp) (env : Envelope) (uid : UInt64) : Prop :=
  (∃ field ∈ nameFields env.type, env.payload.getUInt64 J field = .ok uid) ∨
    (∃ field ∈ listFields env.type, env.payload.Lists J.asUInt64 field uid) ∨
      (env.type = lit "chat.conversation.member_changed" ∧
        env.payload.Lists (·.getUInt64 J (lit "userId")) (lit "roleChanges") uid)

/-- What a list converts to comes from its elements. -/
theorem exists_of_mem_mapM {α β : Type} {f : α → Except Thrown β} {l : List α}
    {r : List β} (hmap : l.mapM f = .ok r) {b : β} (hb : b ∈ r) :
    ∃ a ∈ l, f a = .ok b := by
  induction l generalizing r with
  | nil =>
      simp only [List.mapM_nil, pure, Except.pure, Except.ok.injEq] at hmap
      rw [← hmap] at hb
      contradiction
  | cons a l ih =>
      simp only [List.mapM_cons, bind_eq_ok_iff] at hmap
      obtain ⟨b', ha, rest, hrest, hr⟩ := hmap
      simp only [pure, Except.pure, Except.ok.injEq] at hr
      rw [← hr] at hb
      rcases List.mem_cons.mp hb with rfl | hb
      · exact ⟨a, List.mem_cons_self, ha⟩
      · obtain ⟨a', ha', hf⟩ := ih hrest hb
        exact ⟨a', List.mem_cons_of_mem a ha', hf⟩

theorem Json.lists_of_mapM {p : Json} {convert : Json → Except Thrown UInt64}
    {field : StdString} {elems : Option (List Json)} {ids : List UInt64}
    (helems : p.arrayMember field = .ok elems)
    (hids : (elems.getD []).mapM convert = .ok ids) {uid : UInt64}
    (huid : uid ∈ ids) : p.Lists convert field uid := by
  obtain ⟨elem, helem, hconvert⟩ := exists_of_mem_mapM hids huid
  cases elems with
  | none => contradiction
  | some elems => exact ⟨elems, helems, elem, helem, hconvert⟩

theorem exists_of_mem_receiverIds {P : Platform} {senderId : UInt64}
    {elems : List Json} {pushedUsers : List UInt64} {uid : UInt64}
    (huid : uid ∈ Server.receiverIds P senderId elems pushedUsers) :
    ∃ elem ∈ elems, P.json.asUInt64 elem = .ok uid := by
  induction elems generalizing pushedUsers with
  | nil => contradiction
  | cons elem elems ih =>
      have hlater : ∀ {pushed}, uid ∈ Server.receiverIds P senderId elems pushed →
          ∃ e ∈ elem :: elems, P.json.asUInt64 e = .ok uid := by
        intro pushed hmem
        obtain ⟨e, he, hconvert⟩ := ih hmem
        exact ⟨e, List.mem_cons_of_mem elem he, hconvert⟩
      simp only [Server.receiverIds] at huid
      split at huid
      · contradiction
      · next first hfirst =>
          split_ifs at huid
          · exact hlater huid
          · exact hlater huid
          · rcases List.mem_cons.mp huid with rfl | huid
            · exact ⟨elem, List.mem_cons_self, hfirst⟩
            · exact hlater huid

theorem exists_of_mem_idsBefore {P : Platform} {elems : List Json} {uid : UInt64}
    (huid : uid ∈ Server.idsBefore P elems) :
    ∃ elem ∈ elems, P.json.asUInt64 elem = .ok uid := by
  induction elems with
  | nil => contradiction
  | cons elem elems ih =>
      simp only [Server.idsBefore] at huid
      split at huid
      · contradiction
      · next first hfirst =>
          rcases List.mem_cons.mp huid with rfl | huid
          · exact ⟨elem, List.mem_cons_self, hfirst⟩
          · obtain ⟨e, he, hconvert⟩ := ih huid
            exact ⟨e, List.mem_cons_of_mem elem he, hconvert⟩

namespace Push

theorem uid_mem_of_mem_pushAll {type : StdString} {data : Json}
    {uids : List UInt64} {push : Push} (hpush : push ∈ pushAll type data uids) :
    push.uid ∈ uids := by
  obtain ⟨uid, huid, rfl⟩ := List.mem_map.mp hpush
  exact huid

/-- The users `OnChatMsgSend` pushes to are its sender and its receivers. -/
theorem named_ofChatMsgSend {P : Platform} {pending : Option PendingSend}
    {p : Json} {push : Push} (hpush : push ∈ ofChatMsgSend P pending p) :
    p.getUInt64 P.json (lit "senderId") = .ok push.uid ∨
      p.Lists P.json.asUInt64 (lit "receivers") push.uid := by
  simp only [ofChatMsgSend] at hpush
  cases hread : ChatMsgSend.read P.json p with
  | error thrown =>
      rw [hread] at hpush
      contradiction
  | ok event =>
      rw [hread] at hpush
      rcases List.mem_append.mp hpush with hanswer | hreceiver
      · obtain ⟨_, _, rfl⟩ := List.mem_map.mp hanswer
        obtain ⟨_, _, hread⟩ := bind_eq_ok_iff.mp hread
        obtain ⟨_, _, hread⟩ := bind_eq_ok_iff.mp hread
        obtain ⟨senderId, hsender, hevent⟩ := bind_eq_ok_iff.mp hread
        simp only [pure, Except.pure, Except.ok.injEq] at hevent
        rw [← hevent]
        exact Or.inl hsender
      · cases hreceivers : p.arrayMember (lit "receivers") with
        | error thrown =>
            simp [hreceivers] at hreceiver
        | ok receivers =>
            simp only [hreceivers] at hreceiver
            obtain ⟨elem, helem, hconvert⟩ :=
              exists_of_mem_receiverIds (uid_mem_of_mem_pushAll hreceiver)
            cases receivers with
            | none => contradiction
            | some elems => exact Or.inr ⟨elems, hreceivers, elem, helem, hconvert⟩

theorem named_ofTarget {P : Platform} {field type : StdString} {p : Json}
    {push : Push} (hpush : push ∈ ofTarget P field type p) :
    p.getUInt64 P.json field = .ok push.uid := by
  simp only [ofTarget] at hpush
  cases htarget : p.getUInt64 P.json field with
  | error thrown => simp [htarget] at hpush
  | ok target =>
      simp only [htarget] at hpush
      split_ifs at hpush
      · contradiction
      · have huid := uid_mem_of_mem_pushAll hpush
        rw [List.mem_singleton.mp huid]

/-- A set of users is pushed to where its collection has not thrown. -/
theorem named_ofUsers {users : Except Thrown (List UInt64)} {type : StdString}
    {p : Json} {push : Push} (hpush : push ∈ ofUsers users type p) :
    ∃ ids, users = .ok ids ∧ push.uid ∈ ids := by
  cases users with
  | error thrown => contradiction
  | ok ids =>
      exact ⟨ids, rfl, List.mem_of_mem_filter (uid_mem_of_mem_pushAll hpush)⟩

theorem named_recalled {P : Platform} {p : Json} {ids : List UInt64}
    (hids : recalled P p = .ok ids) {uid : UInt64} (huid : uid ∈ ids) :
    p.getUInt64 P.json (lit "operatorId") = .ok uid ∨
      p.Lists P.json.asUInt64 (lit "receivers") uid := by
  obtain ⟨operatorId, hoperator, hids⟩ := bind_eq_ok_iff.mp hids
  obtain ⟨receivers, hreceivers, hids⟩ := bind_eq_ok_iff.mp hids
  obtain ⟨converted, hconverted, hids⟩ := bind_eq_ok_iff.mp hids
  simp only [pure, Except.pure, Except.ok.injEq] at hids
  rw [← hids, mem_idSet] at huid
  have hlisted : uid ∈ converted → p.Lists P.json.asUInt64 (lit "receivers") uid :=
    Json.lists_of_mapM hreceivers hconverted
  split_ifs at huid
  · rcases List.mem_cons.mp huid with rfl | huid
    · exact Or.inl hoperator
    · exact Or.inr (hlisted huid)
  · exact Or.inr (hlisted huid)

theorem named_changed {P : Platform} {p : Json} {ids : List UInt64}
    (hids : changed P p = .ok ids) {uid : UInt64} (huid : uid ∈ ids) :
    p.Lists P.json.asUInt64 (lit "addedIds") uid ∨
      p.Lists P.json.asUInt64 (lit "removedIds") uid ∨
        p.Lists (·.getUInt64 P.json (lit "userId")) (lit "roleChanges") uid := by
  obtain ⟨added, hadded, hids⟩ := bind_eq_ok_iff.mp hids
  obtain ⟨addedIds, haddedIds, hids⟩ := bind_eq_ok_iff.mp hids
  obtain ⟨removed, hremoved, hids⟩ := bind_eq_ok_iff.mp hids
  obtain ⟨removedIds, hremovedIds, hids⟩ := bind_eq_ok_iff.mp hids
  obtain ⟨changes, hchanges, hids⟩ := bind_eq_ok_iff.mp hids
  obtain ⟨changedIds, hchangedIds, hids⟩ := bind_eq_ok_iff.mp hids
  simp only [pure, Except.pure, Except.ok.injEq] at hids
  rw [← hids, mem_idSet, List.mem_append, List.mem_append] at huid
  rcases huid with (hmem | hmem) | hmem
  · exact Or.inl (Json.lists_of_mapM hadded haddedIds hmem)
  · exact Or.inr (Or.inl (Json.lists_of_mapM hremoved hremovedIds hmem))
  · exact Or.inr (Or.inr (Json.lists_of_mapM hchanges hchangedIds hmem))

theorem named_ofFriendAccept {P : Platform} {p : Json} {push : Push}
    (hpush : push ∈ ofFriendAccept P p) :
    p.getUInt64 P.json (lit "fromUserId") = .ok push.uid ∨
      p.getUInt64 P.json (lit "toUserId") = .ok push.uid := by
  simp only [ofFriendAccept] at hpush
  split at hpush
  · next fromUid toUid hfrom hto =>
      rcases List.mem_append.mp (uid_mem_of_mem_pushAll hpush) with hmem | hmem
      · split_ifs at hmem
        · rw [List.mem_singleton.mp hmem]
          exact Or.inl hfrom
        · contradiction
      · split_ifs at hmem
        · rw [List.mem_singleton.mp hmem]
          exact Or.inr hto
        · contradiction
  · contradiction

theorem named_ofConversationCreated {P : Platform} {p : Json} {push : Push}
    (hpush : push ∈ ofConversationCreated P p) :
    p.Lists P.json.asUInt64 (lit "memberIds") push.uid := by
  simp only [ofConversationCreated] at hpush
  split at hpush
  · next members hmembers =>
      obtain ⟨elem, helem, hconvert⟩ := exists_of_mem_idsBefore
        (List.mem_of_mem_filter (uid_mem_of_mem_pushAll hpush))
      exact ⟨members, hmembers, elem, helem, hconvert⟩
  · contradiction

/-- Whoever is pushed to is named by the event. -/
theorem mentions_of_mem_ofEnvelope {P : Platform} {pending : Option PendingSend}
    {env : Envelope} {push : Push} (hpush : push ∈ ofEnvelope P pending env) :
    env.Mentions P.json push.uid := by
  have hfield : ∀ {field}, env.payload.getUInt64 P.json field = .ok push.uid →
      field ∈ nameFields env.type → env.Mentions P.json push.uid :=
    fun hget hmem => Or.inl ⟨_, hmem, hget⟩
  have hlist : ∀ {field}, env.payload.Lists P.json.asUInt64 field push.uid →
      field ∈ listFields env.type → env.Mentions P.json push.uid :=
    fun hlists hmem => Or.inr (Or.inl ⟨_, hmem, hlists⟩)
  simp only [ofEnvelope] at hpush
  split_ifs at hpush with h₁ h₂ h₃ h₄ h₅ h₆ h₇
  · rcases named_ofChatMsgSend hpush with hsender | hreceiver
    · exact hfield hsender (by simp [nameFields, h₁])
    · exact hlist hreceiver (by simp [listFields, h₁])
  · exact hfield (named_ofTarget hpush) (by simp [nameFields, h₂])
  · obtain ⟨ids, hids, huid⟩ := named_ofUsers hpush
    rcases named_recalled hids huid with hoperator | hreceiver
    · exact hfield hoperator (by simp [nameFields, h₃])
    · exact hlist hreceiver (by simp [listFields, h₃])
  · exact hfield (named_ofTarget hpush) (by simp [nameFields, h₄])
  · rcases named_ofFriendAccept hpush with hfrom | hto
    · exact hfield hfrom (by simp [nameFields, h₅])
    · exact hfield hto (by simp [nameFields, h₅])
  · exact hlist (named_ofConversationCreated hpush) (by simp [listFields, h₆])
  · obtain ⟨ids, hids, huid⟩ := named_ofUsers hpush
    rcases named_changed hids huid with hadded | hremoved | hchanged
    · exact hlist hadded (by simp [listFields, h₇])
    · exact hlist hremoved (by simp [listFields, h₇])
    · exact Or.inr (Or.inr ⟨h₇, hchanged⟩)
  · contradiction

end Push

/-! Sessions that have shown a token. -/

/-- The headers a login sets are not those a token is read from. -/
theorem extractToken_markRequest (claims : JwtClaims) (deviceId : StdString)
    (request : HttpRequest) :
    extractToken (Server.markRequest claims deviceId request) =
      extractToken request := by
  have hheader : ∀ name : String, name ≠ "$uid" → name ≠ "$did" →
      name ≠ "$exp" →
        (Server.markRequest claims deviceId request).header (lit name) =
          request.header (lit name) := by
    intro name huid hdid hexp
    simp [Server.markRequest, huid, hdid, hexp]
  simp only [extractToken, hheader "Authorization" (by decide) (by decide)
    (by decide), hheader "Sec-WebSocket-Protocol" (by decide) (by decide)
    (by decide)]
  rfl

namespace Hub

section

variable {P : Platform} {cfg : ChatConfig} {hub : Hub}

/-- At some time the request of a login brought a token that verifies, for this
user and, where the token names one, for this device. -/
def Verified (P : Platform) (cfg : ChatConfig) (login : Login) : Prop :=
  ∃ clock claims, Server.tokenVerdict P cfg clock login.request =
      .ok (.ok claims) ∧ claims.userId = login.userId ∧
    (claims.deviceId ≠ [] → claims.deviceId = login.deviceId)

theorem verified_newLogin {clock : Clock} {request : HttpRequest}
    {claims : JwtClaims}
    (hverdict : Server.tokenVerdict P cfg clock request = .ok (.ok claims))
    (session : SessionId) (hub : Hub) :
    Verified P cfg (hub.newLogin claims request session) := by
  refine ⟨clock, claims, ?_, rfl, fun hdevice => ?_⟩
  · have hsame : ∀ deviceId, Server.tokenVerdict P cfg clock
        (Server.markRequest claims deviceId request) =
          Server.tokenVerdict P cfg clock request := by
      intro deviceId
      simp only [Server.tokenVerdict, extractToken_markRequest]
    exact (hsame _).trans hverdict
  · simp [newLogin, Server.deviceIdFor, hdevice]

/-- What every run keeps: the history agrees with the registry, and every login
has been verified. -/
structure Proven (P : Platform) (cfg : ChatConfig) (hub : Hub) : Prop
    extends Sound P hub where
  verified : ∀ login ∈ hub.opened, Verified P cfg login

theorem proven_initial (P : Platform) (cfg : ChatConfig) : Proven P cfg {} :=
  ⟨sound_initial P, by simp⟩

/-- A step leaves the logins alone or adds the one its verdict accepts. -/
theorem opened_step (P : Platform) (cfg : ChatConfig) (hub : Hub) (e : Event) :
    ((machine P cfg).step hub e).opened = hub.opened ∨
      ∃ clock o iom request session claims,
        e = .connect clock o iom request session ∧
          Server.tokenVerdict P cfg clock request = .ok (.ok claims) ∧
            ((machine P cfg).step hub e).opened =
              hub.newLogin claims request session :: hub.opened := by
  cases e with
  | connect clock o iom request session =>
      rcases hverdict : Server.tokenVerdict P cfg clock request with
        thrown | err | claims
      · rw [step_connect_of_throw hverdict]
        exact Or.inl rfl
      · rw [step_connect_of_refused hverdict]
        exact Or.inl rfl
      · rw [step_connect_of_accepted hverdict]
        exact Or.inr ⟨clock, o, iom, request, session, claims, rfl, hverdict, rfl⟩
  | close session =>
      simp only [machine]
      cases hub.login? session <;> exact Or.inl rfl
  | frame session clock isText data =>
      simp only [machine]
      cases hub.login? session <;> exact Or.inl rfl
  | envelope o clock env => exact Or.inl rfl
  | timer nowMs => exact Or.inl rfl
  | drain => exact Or.inl rfl

theorem proven_step (P : Platform) (cfg : ChatConfig) (hub : Hub) (e : Event)
    (hproven : Proven P cfg hub) (henabled : (machine P cfg).enabled hub e) :
    Proven P cfg ((machine P cfg).step hub e) := by
  refine ⟨sound_step P cfg hub e hproven.toSound henabled, ?_⟩
  rcases opened_step P cfg hub e with
    hsame | ⟨_, _, _, _, _, _, _, hverdict, hopened⟩
  · rw [hsame]
    exact hproven.verified
  · rw [hopened]
    intro login hlogin
    rcases List.mem_cons.mp hlogin with rfl | hlogin
    · exact verified_newLogin hverdict _ hub
    · exact hproven.verified login hlogin

/-! What an event sends, and to whom. -/

/-- A live connection of a user whose login has been verified. -/
def Owns (P : Platform) (cfg : ChatConfig) (hub : Hub) (uid : UInt64)
    (session : SessionId) : Prop :=
  ∃ login, hub.Live login ∧ login.session = session ∧ login.userId = uid ∧
    Verified P cfg login

theorem Proven.owns_of_get (hproven : Proven P cfg hub) {u : UInt64}
    {d : StdString} {c : OnlineConn} (hget : hub.registry.get u d = some c) :
    hub.Owns P cfg u c.session := by
  obtain ⟨login, hlive, hsession, huser, _⟩ := hproven.registered u d c hget
  exact ⟨login, hlive, hsession, huser, hproven.verified login hlive.1⟩

/-- Who may be sent a frame when the event happens: the session it is about; a
live connection of the user who logs in that `Add` hands back and that is told it
is kicked; of the users an event names a live connection. -/
def MayHear (P : Platform) (cfg : ChatConfig) (hub : Hub) (e : Event)
    (sent : SessionId × Frame) : Prop :=
  match e with
  | .connect clock o iom request session =>
      sent.1 = session ∨
        ∃ claims, Server.tokenVerdict P cfg clock request = .ok (.ok claims) ∧
          (∃ conn ∈ (hub.added cfg clock o iom session claims).handedBack,
            conn.session = sent.1) ∧
          hub.Owns P cfg claims.userId sent.1 ∧ sent.2.type = lit "kicked"
  | .frame session _ _ _ => sent.1 = session
  | .envelope _ _ env =>
      ∃ uid, env.Mentions P.json uid ∧ hub.Owns P cfg uid sent.1
  | _ => False

theorem Proven.mayHear_connect (hproven : Proven P cfg hub) {clock : Clock}
    {o : IterOrder Devices.Entry} {iom : Option IoManager} {request : HttpRequest}
    {session : SessionId} {sent : SessionId × Frame}
    (hsent : sent ∈ (deeds P cfg hub
      (.connect clock o iom request session)).flatMap Effect.frames) :
    MayHear P cfg hub (.connect clock o iom request session) sent := by
  rw [deeds_connect] at hsent
  cases hverdict : Server.tokenVerdict P cfg clock request with
  | error thrown =>
      rw [hverdict] at hsent
      contradiction
  | ok verdict =>
      rw [hverdict] at hsent
      cases verdict with
      | error err =>
          simp only [Server.refuseEffects, List.flatMap_cons, List.flatMap_nil,
            Effect.frames, Action.frame?, Option.toList, List.append_nil,
            List.mem_singleton] at hsent
          exact Or.inl (by rw [hsent])
      | ok claims =>
          simp only [List.flatMap_append, Server.frames_handedBackEffects,
            Server.frames_authOkEffects, Server.frames_onlineEffects,
            List.append_nil] at hsent
          rcases List.mem_append.mp hsent with hkicked | hwelcome
          · obtain ⟨conn, hconn, hframe⟩ := Server.conn_of_mem_kickedFrames hkicked
            have hadd := added_spec cfg clock o iom session claims hub
            rcases hadd.handedBack_cases hconn with ⟨rfl, _⟩ | ⟨d, hget, _⟩
            · exact Or.inl hframe.1.symm
            · refine Or.inr ⟨claims, hverdict, ⟨conn, hconn, hframe.1⟩, ?_, hframe.2⟩
              rw [← hframe.1]
              exact hproven.owns_of_get hget
          · rw [List.mem_singleton.mp hwelcome]
            exact Or.inl rfl

theorem Proven.mayHear_envelope (hproven : Proven P cfg hub)
    {o : IterOrder Devices.Entry} {clock : Clock} {env : Envelope}
    {sent : SessionId × Frame}
    (hsent : sent ∈ (deeds P cfg hub
      (.envelope o clock env)).flatMap Effect.frames) :
    MayHear P cfg hub (.envelope o clock env) sent := by
  rw [deeds_envelope, Server.pushEffects, List.flatMap_assoc] at hsent
  obtain ⟨push, hpush, hsent⟩ := List.mem_flatMap.mp hsent
  rw [Push.frames_effects] at hsent
  obtain ⟨conn, hconn, rfl⟩ := List.mem_map.mp hsent
  obtain ⟨d, hget⟩ := SessionRegistry.mem_getByUser.mp hconn
  exact ⟨push.uid, Push.mentions_of_mem_ofEnvelope hpush, hproven.owns_of_get hget⟩

theorem Proven.mayHear (hproven : Proven P cfg hub) {e : Event}
    (henabled : (machine P cfg).enabled hub e) {sent : SessionId × Frame}
    (hsent : sent ∈ (deeds P cfg hub e).flatMap Effect.frames) :
    MayHear P cfg hub e sent := by
  cases e with
  | connect clock o iom request session => exact hproven.mayHear_connect hsent
  | close session =>
      obtain ⟨⟨login, hmem, rfl⟩, _⟩ := henabled
      rw [hproven.deeds_close hmem, Server.frames_offlineEffects] at hsent
      contradiction
  | frame session clock isText data =>
      obtain ⟨⟨login, hmem, rfl⟩, _⟩ := henabled
      exact (hproven.deeds_frame hmem clock isText data).session_of_mem_frames hsent
  | envelope o clock env => exact hproven.mayHear_envelope hsent
  | timer nowMs =>
      rw [deeds_timer, List.flatMap_assoc] at hsent
      obtain ⟨conn, _, hsent⟩ := List.mem_flatMap.mp hsent
      rw [Server.frames_closeEffects] at hsent
      contradiction
  | drain =>
      rw [deeds_drain] at hsent
      contradiction

/-- In every run a frame is sent only to those who may hear it. -/
theorem heard_by_audience (P : Platform) (cfg : ChatConfig) (es : List Event)
    (hadm : (machine P cfg).Admissible {} es) :
    (machine P cfg).Each
      (fun hub e => ∀ sent ∈ (deeds P cfg hub e).flatMap Effect.frames,
        MayHear P cfg hub e sent) {} es :=
  Machine.each_of_inv (proven_step P cfg)
    (fun _ _ hproven henabled _ hsent => hproven.mayHear henabled hsent)
    (proven_initial P cfg) hadm

/-! What is published, and in whose name. -/

/-- The session an event is about. -/
def Event.session? : Event → Option SessionId
  | .connect _ _ _ _ session => some session
  | .close session => some session
  | .frame session _ _ _ => some session
  | _ => none

/-- The session has proved to be the user the task speaks for. -/
def SpeaksFor (P : Platform) (cfg : ChatConfig) (hub : Hub)
    (session : Option SessionId) (task : Task) : Prop :=
  ∃ login ∈ hub.opened, session = some login.session ∧
    Verified P cfg login ∧ task.actor? = some login.userId

theorem Proven.speaksFor (hproven : Proven P cfg hub) {e : Event}
    (henabled : (machine P cfg).enabled hub e) {task : Task}
    (htask : Effect.enqueued task ∈ deeds P cfg hub e) :
    SpeaksFor P cfg ((machine P cfg).step hub e) e.session? task := by
  have hopened := opened_step P cfg hub e
  cases e with
  | connect clock o iom request session =>
      rw [deeds_connect] at htask
      rcases hverdict : Server.tokenVerdict P cfg clock request with
        thrown | err | claims
      · rw [hverdict] at htask
        contradiction
      · rw [hverdict] at htask
        simp [Server.refuseEffects] at htask
      · rw [hverdict] at htask
        rw [step_connect_of_accepted hverdict]
        -- the only task there is room for in this scope is in the user's name
        let online : Scope :=
          { Scope.ofPresence cfg with
            publishes := fun task => task.actor? = some claims.userId }
        have hlogin : Server.Does online _ hub.server _ :=
          Server.does_login claims le_rfl (actor?_userOnlineTask claims.userId)
            (fun _ _ => trivial) clock o iom request session hub.server
        exact ⟨_, List.mem_cons_self, rfl, verified_newLogin hverdict session hub,
          hlogin.published htask⟩
  | close session =>
      obtain ⟨⟨login, hmem, rfl⟩, _⟩ := henabled
      rw [hproven.deeds_close hmem] at htask
      have hkept : login ∈ ((machine P cfg).step hub (.close login.session)).opened := by
        rcases hopened with hsame | ⟨_, _, _, _, _, _, hconnect, _⟩
        · rwa [hsame]
        · contradiction
      refine ⟨login, hkept, rfl, hproven.verified login hmem, ?_⟩
      rw [Server.offlineEffects, Server.publishEffects] at htask
      split_ifs at htask
      · contradiction
      · rw [List.mem_singleton, Effect.enqueued.injEq] at htask
        rw [htask]
        exact actor?_userOfflineTask login.userId
      · contradiction
  | frame session clock isText data =>
      obtain ⟨⟨login, hmem, rfl⟩, _⟩ := henabled
      have hkept : login ∈ ((machine P cfg).step hub
          (.frame login.session clock isText data)).opened := by
        rcases hopened with hsame | ⟨_, _, _, _, _, _, hconnect, _⟩
        · rwa [hsame]
        · contradiction
      have hanswers : Server.Answers login.userId login.session (deeds P cfg hub
          (.frame login.session clock isText data)) :=
        hproven.deeds_frame hmem clock isText data
      exact ⟨login, hkept, rfl, hproven.verified login hmem,
        hanswers.actor_of_mem htask⟩
  | envelope o clock env =>
      exact ((does_step P cfg hub (by simp)).published htask).elim
  | timer nowMs => exact ((does_step P cfg hub (by simp)).published htask).elim
  | drain =>
      rw [deeds_drain] at htask
      contradiction

/-- In every run each task published speaks for the user that the session it
comes from has proved to be. -/
theorem nobody_impersonated (P : Platform) (cfg : ChatConfig) (es : List Event)
    (hadm : (machine P cfg).Admissible {} es) :
    (machine P cfg).Each
      (fun hub e => ∀ task, Effect.enqueued task ∈ deeds P cfg hub e →
        SpeaksFor P cfg ((machine P cfg).step hub e) e.session? task) {} es :=
  Machine.each_of_inv (proven_step P cfg)
    (fun _ _ hproven henabled _ htask => hproven.speaksFor henabled htask)
    (proven_initial P cfg) hadm

end

namespace AudienceWitness

open HubWitness

/-- User 7 logs in, is replayed a message and leaves. -/
def visit : List Event :=
  [logIn 1,
    .envelope (IterOrder.asKept _) clock
      ⟨lit "m1", 1, [], [], lit "chat.msg.replay",
        .object [("targetUserId", .uint 7)]⟩,
    .close 1]

theorem heard_by_audience_visit :
    (machine platform cfg).Each
      (fun hub e => ∀ sent ∈ (deeds platform cfg hub e).flatMap Effect.frames,
        MayHear platform cfg hub e sent) {} visit :=
  heard_by_audience platform cfg visit (by decide +kernel)

theorem nobody_impersonated_visit :
    (machine platform cfg).Each
      (fun hub e => ∀ task, Effect.enqueued task ∈ deeds platform cfg hub e →
        SpeaksFor platform cfg ((machine platform cfg).step hub e) e.session?
          task) {} visit :=
  nobody_impersonated platform cfg visit (by decide +kernel)

end AudienceWitness

end Hub

end FlzChat
