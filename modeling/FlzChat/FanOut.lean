/-
The frames `OnChatMsgSend` sends: one list for the sender's connections, one
for the receivers'.  The sender's connections are served only while the send is
pending on this server.
-/
import FlzChat.Pushes

namespace FlzChat

/-- The frame a persisted message is pushed with. -/
def newMessage (p : Json) : Frame := ⟨lit "msg.new", p, false, 0⟩

namespace SessionRegistry

/-- The same frames sent on the connections of a user. -/
def sends (o : IterOrder Devices.Entry) (r : SessionRegistry) (uid : UInt64)
    (frame : OnlineConn → Frame) : List (SessionId × Frame) :=
  (r.getByUser o uid).map fun conn => (conn.session, frame conn)

theorem Separated.nodup_getByUser {r : SessionRegistry} (hr : r.Separated)
    (o : IterOrder Devices.Entry) (uid : UInt64) :
    (r.getByUser o uid).Nodup := by
  have hentries : (o.order (r.byDevice uid).entries).Nodup :=
    (o.perm _).nodup_iff.mpr (r.byDevice uid).nodupKeys.nodup
  refine List.Nodup.map_on ?_ hentries
  rintro ⟨d, c⟩ hmem ⟨d', c'⟩ hmem' (rfl : c = c')
  have hget : ∀ d c, (⟨d, c⟩ : Devices.Entry) ∈ o.order (r.byDevice uid).entries →
      r.get uid d = some c := by
    intro d c hmem
    rw [get_eq_lookup_byDevice]
    exact AList.mem_lookup_iff.mpr (o.mem_order _ _ |>.mp hmem)
  obtain ⟨_, rfl⟩ := hr.keyed (hget d c hmem)
  obtain ⟨_, hdevice⟩ := hr.keyed (hget d' c hmem')
  rw [hdevice]

/-- A registered connection gets exactly one of the frames sent to its user,
and none of those sent to another. -/
theorem Separated.filter_sends {r : SessionRegistry} (hr : r.Separated)
    (o : IterOrder Devices.Entry) (uid : UInt64) (frame : OnlineConn → Frame)
    {u : UInt64} {d : StdString} {c : OnlineConn} (hget : r.get u d = some c) :
    (r.sends o uid frame).filter (fun sent => sent.1 = c.session) =
      if uid = u then [(c.session, frame c)] else [] := by
  have hmatch : ∀ conn ∈ r.getByUser o uid,
      conn.session = c.session ↔ uid = u ∧ conn = c := by
    intro conn hmem
    obtain ⟨d', hget'⟩ := mem_getByUser.mp hmem
    constructor
    · intro hsession
      obtain ⟨rfl, rfl⟩ := hr.distinct hget' hget hsession
      rw [hget'] at hget
      exact ⟨rfl, Option.some.inj hget⟩
    · rintro ⟨_, rfl⟩
      rfl
  rw [sends, List.filter_map]
  by_cases huser : uid = u
  · subst huser
    have hfilter : (r.getByUser o uid).filter
        (fun conn => decide (conn.session = c.session)) = [c] := by
      have hcount := List.count_eq_one_of_mem (hr.nodup_getByUser o uid)
        (mem_getByUser.mpr ⟨d, hget⟩)
      rw [List.filter_congr (q := fun conn => decide (conn = c))
        fun conn hmem => by simp [hmatch conn hmem], List.filter_eq, hcount]
      rfl
    simp only [if_true, Function.comp_def, hfilter, List.map_cons, List.map_nil]
  · simp only [huser, if_false, List.map_eq_nil_iff, List.filter_eq_nil_iff]
    intro conn hmem hsession
    exact huser ((hmatch conn hmem).mp (by simpa using hsession)).1

theorem mem_sends {o : IterOrder Devices.Entry} {r : SessionRegistry}
    {uid : UInt64} {frame : OnlineConn → Frame} {sent : SessionId × Frame} :
    sent ∈ r.sends o uid frame ↔
      ∃ d c, r.get uid d = some c ∧ (c.session, frame c) = sent := by
  simp only [sends, List.mem_map, mem_getByUser]
  exact ⟨fun ⟨c, ⟨d, hget⟩, hsent⟩ => ⟨d, c, hget, hsent⟩,
    fun ⟨d, c, hget, hsent⟩ => ⟨c, ⟨d, hget⟩, hsent⟩⟩

end SessionRegistry

namespace Server

/-- The frames for the receivers. -/
def receiverFrames (P : Platform) (o : IterOrder Devices.Entry)
    (registry : SessionRegistry) (senderId : UInt64) (p : Json) :
    List (SessionId × Frame) :=
  match p.arrayMember (lit "receivers") with
  | .error _ => []
  | .ok receivers =>
      (receiverIds P senderId (receivers.getD []) []).flatMap fun uid =>
        registry.sends o uid fun _ => newMessage p

/-- The frames for the sender's connections. -/
def senderFrames (o : IterOrder Devices.Entry) (registry : SessionRegistry)
    (event : ChatMsgSend) (p : Json) : Option PendingSend →
    List (SessionId × Frame)
  | none => []
  | some pending => registry.sends o event.senderId (senderFrame event p pending)

/-! The frames a handler sends, as a list. -/

theorem frames_pushEffects (o : IterOrder Devices.Entry)
    (registry : SessionRegistry) (pushes : List Push) :
    (pushEffects o registry pushes).flatMap Effect.frames =
      pushes.flatMap fun push => registry.sends o push.uid push.frame := by
  rw [pushEffects, List.flatMap_assoc]
  exact List.flatMap_congr fun push _ => push.frames_effects _

theorem frames_pushEach (o : IterOrder Devices.Entry) (type : StdString)
    (data : Json) (uids : List UInt64) (s : Server) :
    (uids.foldl (fun s uid => s.pushToUser o uid type data) s).frames =
      s.frames ++ uids.flatMap fun uid =>
        s.registry.sends o uid fun _ => ⟨type, data, false, 0⟩ := by
  have hpushed : Does {} _ s _ := does_pushEach o type data uids s
  rw [hpushed.frames, frames_pushEffects, pushAll, List.flatMap_map]

/-- What `OnChatMsgSend` sends once it has read the event. -/
theorem frames_onChatMsgSend {P : Platform} {p : Json} {event : ChatMsgSend}
    (hread : ChatMsgSend.read P.json p = .ok event)
    (o : IterOrder Devices.Entry) (clock : Clock) (s : Server) :
    (s.onChatMsgSend P o clock p).2.frames = s.frames ++
      (senderFrames o s.registry event p (s.pending.lookup event.clientMsgId) ++
        receiverFrames P o s.registry event.senderId p) := by
  have hdoes : Does { forgets := True, observes := True } _ s _ :=
    does_onChatMsgSend trivial trivial P o clock p s
  rw [hdoes.frames, frames_pushEffects, Push.ofChatMsgSend, hread,
    pendingOf_of_read hread]
  simp only [List.flatMap_append, receiverFrames]
  congr 2
  · cases s.pending.lookup event.clientMsgId with
    | none => rfl
    | some pending => simp [senderFrames]
  · cases p.arrayMember (lit "receivers") with
    | error thrown => rfl
    | ok receivers =>
        simp only [pushAll, List.flatMap_map]
        rfl

end Server

/-! Who is told about a persisted message. -/

/-- The members of a value that is searched by name. -/
def Json.members : Json → List (StdString × Json)
  | .obj members => members
  | _ => []

/-- The other two fields `OnChatMsgSend` reads convert. -/
def Readable (p : Json) : Prop :=
  (Json.textMember p.members (lit "clientMsgId")).Scalar ∧
    ((Json.numberMember p.members (lit "messageId")).within (-2 ^ 63)
      (2 ^ 63 - 1)).isSome = true

theorem exists_read_iff {J : Jsoncpp} {p : Json} {senderId : UInt64}
    (hsender : p.getUInt64 J (lit "senderId") = .ok senderId) :
    (∃ event, ChatMsgSend.read J p = .ok event) ↔ Readable p := by
  have hread : (∃ event, ChatMsgSend.read J p = .ok event) ↔
      (∃ id, p.getString J (lit "clientMsgId") = .ok id) ∧
        ∃ n, p.getInt64 J (lit "messageId") = .ok n := by
    simp only [ChatMsgSend.read_eq_ok_iff]
    exact ⟨fun ⟨event, hid, hmessage, _⟩ => ⟨⟨_, hid⟩, ⟨_, hmessage⟩⟩,
      fun ⟨⟨id, hid⟩, ⟨n, hmessage⟩⟩ => ⟨⟨id, n, senderId⟩, hid, hmessage, hsender⟩⟩
  have hfields : (∀ key, p.getString J key =
        J.asString (Json.textMember p.members key)) ∧
      ∀ key, p.getInt64 J key = J.asInt64 (Json.numberMember p.members key) := by
    cases p with
    | null => exact ⟨fun _ => rfl, fun _ => rfl⟩
    | obj members => exact ⟨fun _ => rfl, fun _ => rfl⟩
    | _ => simp [Json.getUInt64, Json.get, Json.find, Except.map, Except.bind] at hsender
  rw [hread, hfields.1, hfields.2, J.exists_asString_iff, J.exists_asInt64_iff]
  rfl

/-- The sender and the receivers of an event are unsigned integers. -/
def Addressed (J : Jsoncpp) (p : Json) (senderId : UInt64)
    (receivers : List UInt64) : Prop :=
  p.getUInt64 J (lit "senderId") = .ok senderId ∧
    ∃ elems, p.arrayMember (lit "receivers") = .ok elems ∧
      (elems.getD []).mapM J.asUInt64 = .ok receivers

/-- The frame types a session is sent. -/
def typesTo (session : SessionId) (sent : List (SessionId × Frame)) :
    List StdString :=
  (sent.filter fun one => one.1 = session).map fun one => one.2.type

/-- The frame types that are due on a connection. -/
def dueTypes (pending : Option PendingSend) (senderId : UInt64)
    (receivers : List UInt64) (u : UInt64) (d : StdString) : List StdString :=
  if u = senderId then
    if pending.any (·.senderDeviceId = d) then [lit "msg.send.resp"]
    else [lit "msg.new"]
  else if u ≠ 0 ∧ u ∈ receivers then [lit "msg.new"]
  else []

namespace Server

/-- The frames sent between two states. -/
def newFrames (s s' : Server) : List (SessionId × Frame) :=
  s'.frames.drop s.frames.length

/-- Every registered connection is sent what is due, and nobody else anything. -/
structure CompleteFanOut (P : Platform) (o : IterOrder Devices.Entry)
    (clock : Clock) (p : Json) (senderId : UInt64) (receivers : List UInt64)
    (s : Server) : Prop where
  due : ∀ u d c, s.registry.get u d = some c →
    typesTo c.session (newFrames s (s.onChatMsgSend P o clock p).2) =
      dueTypes (s.pendingOf P.json p) senderId receivers u d
  nobodyElse : ∀ sent ∈ newFrames s (s.onChatMsgSend P o clock p).2,
    ∃ u d c, s.registry.get u d = some c ∧ c.session = sent.1

theorem newFrames_onChatMsgSend {P : Platform} {p : Json} {event : ChatMsgSend}
    (hread : ChatMsgSend.read P.json p = .ok event)
    (o : IterOrder Devices.Entry) (clock : Clock) (s : Server) :
    newFrames s (s.onChatMsgSend P o clock p).2 =
      senderFrames o s.registry event p (s.pending.lookup event.clientMsgId) ++
        receiverFrames P o s.registry event.senderId p := by
  rw [newFrames, frames_onChatMsgSend hread, List.drop_left]

theorem newFrames_of_throw {P : Platform} {p : Json} {thrown : Thrown}
    (hread : ChatMsgSend.read P.json p = .error thrown)
    (o : IterOrder Devices.Entry) (clock : Clock) (s : Server) :
    newFrames s (s.onChatMsgSend P o clock p).2 = [] := by
  rw [newFrames, onChatMsgSend_of_throw hread, List.drop_length]

theorem idsBefore_of_mapM {P : Platform} {elems : List Json}
    {ids : List UInt64} (hids : elems.mapM P.json.asUInt64 = .ok ids) :
    idsBefore P elems = ids := by
  induction elems generalizing ids with
  | nil => exact Except.ok.inj hids
  | cons elem elems ih =>
      simp only [List.mapM_cons, bind_eq_ok_iff] at hids
      obtain ⟨first, hfirst, rest, hrest, hids⟩ := hids
      rw [idsBefore, hfirst]
      simp only
      rw [ih hrest]
      exact Except.ok.inj hids

/-- The loop pushes to the ids it reaches other than zero and the sender. -/
theorem mem_receiverIds_iff (P : Platform) (senderId : UInt64)
    (elems : List Json) (pushedUsers : List UInt64) (uid : UInt64) :
    uid ∈ receiverIds P senderId elems pushedUsers ↔
      (uid ≠ 0 ∧ uid ≠ senderId) ∧ uid ∈ idsBefore P elems ∧
        uid ∉ pushedUsers := by
  induction elems generalizing pushedUsers with
  | nil => simp [receiverIds, idsBefore]
  | cons elem elems ih =>
      simp only [receiverIds, idsBefore]
      cases P.json.asUInt64 elem with
      | error thrown => simp
      | ok first =>
          simp only
          split_ifs with hskip hpushed
          · rw [ih]
            grind
          · rw [ih]
            grind
          · rw [List.mem_cons, ih]
            grind

/-- The loop pushes to the non-zero receivers other than the sender. -/
theorem mem_receiverIds {P : Platform} {senderId : UInt64} {elems : List Json}
    {ids : List UInt64} (hids : elems.mapM P.json.asUInt64 = .ok ids)
    (pushedUsers : List UInt64) (uid : UInt64) :
    uid ∈ receiverIds P senderId elems pushedUsers ↔
      (uid ≠ 0 ∧ uid ≠ senderId) ∧ uid ∈ ids ∧ uid ∉ pushedUsers := by
  rw [mem_receiverIds_iff, idsBefore_of_mapM hids]

/-- The loop pushes to nobody twice. -/
theorem nodup_receiverIds {P : Platform} {senderId : UInt64}
    {elems : List Json} {ids : List UInt64}
    (hids : elems.mapM P.json.asUInt64 = .ok ids) (pushedUsers : List UInt64) :
    (receiverIds P senderId elems pushedUsers).Nodup := by
  induction elems generalizing ids pushedUsers with
  | nil => exact List.nodup_nil
  | cons elem elems ih =>
      simp only [List.mapM_cons, bind_eq_ok_iff] at hids
      obtain ⟨first, hfirst, rest, hrest, _⟩ := hids
      rw [receiverIds, hfirst]
      simp only
      split_ifs
      · exact ih hrest pushedUsers
      · exact ih hrest pushedUsers
      · refine List.nodup_cons.mpr ⟨fun hmem => ?_, ih hrest _⟩
        exact ((mem_receiverIds hrest _ first).mp hmem).2.2 List.mem_cons_self

/-- A connection gets one frame if its user is among those pushed to. -/
theorem typesTo_flatMap {r : SessionRegistry} (hr : r.Separated)
    (o : IterOrder Devices.Entry) (frame : Frame) {ids : List UInt64}
    (hids : ids.Nodup) {u : UInt64} {d : StdString} {c : OnlineConn}
    (hget : r.get u d = some c) :
    typesTo c.session (ids.flatMap fun uid => r.sends o uid fun _ => frame) =
      if u ∈ ids then [frame.type] else [] := by
  simp only [typesTo]
  induction ids with
  | nil => rfl
  | cons uid ids ih =>
      obtain ⟨hnot, hnodup⟩ := List.nodup_cons.mp hids
      rw [List.flatMap_cons, List.filter_append, List.map_append, ih hnodup,
        hr.filter_sends o uid _ hget]
      by_cases huser : uid = u
      · subst huser
        simp [hnot]
      · have hother : ¬ u = uid := fun h => huser h.symm
        simp [huser, hother]

theorem typesTo_append (session : SessionId) (l l' : List (SessionId × Frame)) :
    typesTo session (l ++ l') = typesTo session l ++ typesTo session l' := by
  simp [typesTo]

/-- The receivers' frames reach a connection of a non-zero receiver once, and
no connection of the sender. -/
theorem typesTo_receiverFrames {P : Platform} {p : Json} {senderId : UInt64}
    {receivers : List UInt64} {r : SessionRegistry} (hr : r.Separated)
    (haddressed : Addressed P.json p senderId receivers)
    (o : IterOrder Devices.Entry) {u : UInt64} {d : StdString} {c : OnlineConn}
    (hget : r.get u d = some c) :
    typesTo c.session (receiverFrames P o r senderId p) =
      if u ≠ senderId ∧ u ≠ 0 ∧ u ∈ receivers then [lit "msg.new"] else [] := by
  obtain ⟨_, elems, helems, hids⟩ := haddressed
  rw [receiverFrames, helems]
  simp only
  rw [typesTo_flatMap hr o (newMessage p) (nodup_receiverIds hids []) hget]
  simp [mem_receiverIds hids, newMessage, and_comm, and_left_comm]

/-- The sender's frames: the answer on the pending device, the message on the
others. -/
theorem typesTo_senderFrames {event : ChatMsgSend} {p : Json}
    {pending : PendingSend} {r : SessionRegistry} (hr : r.Separated)
    (o : IterOrder Devices.Entry) {u : UInt64} {d : StdString} {c : OnlineConn}
    (hget : r.get u d = some c) :
    typesTo c.session (senderFrames o r event p (some pending)) =
      if event.senderId = u then
        if d = pending.senderDeviceId then [lit "msg.send.resp"]
        else [lit "msg.new"]
      else [] := by
  have hdevice : c.deviceId = d := (hr.keyed hget).2
  rw [typesTo, senderFrames, hr.filter_sends o event.senderId _ hget]
  split_ifs with huser hsame
  · simp [senderFrame, hdevice, hsame, ChatMsgSend.resp]
  · simp [senderFrame, hdevice, hsame]
  · rfl

/-- What a registered connection is sent once the event has been read. -/
theorem typesTo_onChatMsgSend {P : Platform} {p : Json} {event : ChatMsgSend}
    {receivers : List UInt64} {s : Server} (hr : s.registry.Separated)
    (hread : ChatMsgSend.read P.json p = .ok event)
    (haddressed : Addressed P.json p event.senderId receivers)
    (o : IterOrder Devices.Entry) (clock : Clock) {u : UInt64} {d : StdString}
    {c : OnlineConn} (hget : s.registry.get u d = some c) :
    typesTo c.session (newFrames s (s.onChatMsgSend P o clock p).2) =
      if u = event.senderId ∧ s.pending.lookup event.clientMsgId = none then []
      else dueTypes (s.pendingOf P.json p) event.senderId receivers u d := by
  rw [newFrames_onChatMsgSend hread, pendingOf_of_read hread, typesTo_append,
    typesTo_receiverFrames hr haddressed o hget]
  cases s.pending.lookup event.clientMsgId with
  | none =>
      by_cases huser : u = event.senderId
      · simp [huser, senderFrames, typesTo]
      · simp [huser, senderFrames, typesTo, dueTypes]
  | some pending =>
      rw [typesTo_senderFrames hr o hget]
      by_cases huser : u = event.senderId
      · subst huser
        simp [dueTypes, eq_comm]
      · have hother : ¬ event.senderId = u := fun h => huser h.symm
        simp [huser, hother, dueTypes]

/-- Frames go to registered connections only. -/
theorem registered_of_newFrames {P : Platform} {o : IterOrder Devices.Entry}
    {clock : Clock} {p : Json} {s : Server} {sent : SessionId × Frame}
    (hsent : sent ∈ newFrames s (s.onChatMsgSend P o clock p).2) :
    ∃ u d c, s.registry.get u d = some c ∧ c.session = sent.1 := by
  have hsends : ∀ {uid : UInt64} {frame : OnlineConn → Frame},
      sent ∈ s.registry.sends o uid frame →
        ∃ u d c, s.registry.get u d = some c ∧ c.session = sent.1 := by
    intro uid frame hmem
    obtain ⟨d, c, hget, rfl⟩ := SessionRegistry.mem_sends.mp hmem
    exact ⟨uid, d, c, hget, rfl⟩
  cases hread : ChatMsgSend.read P.json p with
  | error thrown =>
      rw [newFrames_of_throw hread] at hsent
      contradiction
  | ok event =>
      rw [newFrames_onChatMsgSend hread, List.mem_append] at hsent
      rcases hsent with hsender | hreceiver
      · unfold senderFrames at hsender
        split at hsender
        · contradiction
        · exact hsends hsender
      · unfold receiverFrames at hreceiver
        split at hreceiver
        · contradiction
        · obtain ⟨uid, _, hmem⟩ := List.mem_flatMap.mp hreceiver
          exact hsends hmem

/-- The sender or a non-zero receiver has a registered connection. -/
def SomeoneDue (senderId : UInt64) (receivers : List UInt64) (s : Server) : Prop :=
  0 < s.registry.userConnectionCount senderId ∨
    ∃ u ∈ receivers, u ≠ 0 ∧ 0 < s.registry.userConnectionCount u

theorem dueTypes_eq_nil {senderId : UInt64} {receivers : List UInt64}
    {s : Server} (hnobody : ¬ SomeoneDue senderId receivers s)
    (pending : Option PendingSend) {u : UInt64} {d : StdString} {c : OnlineConn}
    (hget : s.registry.get u d = some c) :
    dueTypes pending senderId receivers u d = [] ∧ u ≠ senderId := by
  have hcount := SessionRegistry.userConnectionCount_pos_iff.mpr ⟨d, c, hget⟩
  have hsender : u ≠ senderId := by
    rintro rfl
    exact hnobody (Or.inl hcount)
  have hreceiver : ¬ (u ≠ 0 ∧ u ∈ receivers) :=
    fun ⟨hzero, hmem⟩ => hnobody (Or.inr ⟨u, hmem, hzero, hcount⟩)
  exact ⟨by rw [dueTypes, if_neg hsender, if_neg hreceiver], hsender⟩

theorem dueTypes_ne_nil {senderId : UInt64} {receivers : List UInt64}
    (pending : Option PendingSend) {u : UInt64} (d : StdString)
    (hdue : u = senderId ∨ u ≠ 0 ∧ u ∈ receivers) :
    dueTypes pending senderId receivers u d ≠ [] := by
  simp only [dueTypes]
  split_ifs <;> simp_all

/-- An event that cannot be read tells nobody. -/
theorem completeFanOut_of_throw {P : Platform} {p : Json} {thrown : Thrown}
    (hread : ChatMsgSend.read P.json p = .error thrown)
    (o : IterOrder Devices.Entry) (clock : Clock) (senderId : UInt64)
    (receivers : List UInt64) (s : Server) :
    s.CompleteFanOut P o clock p senderId receivers ↔
      ¬ SomeoneDue senderId receivers s := by
  have hsilent := newFrames_of_throw hread o clock s
  constructor
  · intro hcomplete
    have hnone : ∀ u, (u = senderId ∨ u ≠ 0 ∧ u ∈ receivers) →
        ¬ 0 < s.registry.userConnectionCount u := by
      intro u hdue hcount
      obtain ⟨d, c, hget⟩ :=
        SessionRegistry.userConnectionCount_pos_iff.mp hcount
      have hsent := hcomplete.due u d c hget
      rw [hsilent] at hsent
      exact dueTypes_ne_nil _ d hdue hsent.symm
    rintro (hcount | ⟨u, hmem, hzero, hcount⟩)
    · exact hnone senderId (Or.inl rfl) hcount
    · exact hnone u (Or.inr ⟨hzero, hmem⟩) hcount
  · intro hnobody
    refine ⟨fun u d c hget => ?_, fun _ hsent => registered_of_newFrames hsent⟩
    rw [hsilent, (dueTypes_eq_nil hnobody _ hget).1]
    rfl

/-- An event that is read tells everybody but a sender without a pending
entry. -/
theorem completeFanOut_of_read {P : Platform} {p : Json} {event : ChatMsgSend}
    {receivers : List UInt64} {s : Server} (hr : s.registry.Separated)
    (hread : ChatMsgSend.read P.json p = .ok event)
    (haddressed : Addressed P.json p event.senderId receivers)
    (o : IterOrder Devices.Entry) (clock : Clock) :
    s.CompleteFanOut P o clock p event.senderId receivers ↔
      (s.pendingOf P.json p).isSome = true ∨
        s.registry.userConnectionCount event.senderId = 0 := by
  have htypes := fun {u d c} (hget : s.registry.get u d = some c) =>
    typesTo_onChatMsgSend hr hread haddressed o clock hget
  rw [pendingOf_of_read hread]
  constructor
  · intro hcomplete
    cases hfound : s.pending.lookup event.clientMsgId with
    | some pending => exact Or.inl rfl
    | none =>
        refine Or.inr (Nat.eq_zero_of_not_pos fun hcount => ?_)
        obtain ⟨d, c, hget⟩ :=
          SessionRegistry.userConnectionCount_pos_iff.mp hcount
        have hsent := hcomplete.due event.senderId d c hget
        rw [htypes hget, if_pos ⟨rfl, hfound⟩] at hsent
        exact dueTypes_ne_nil _ d (Or.inl rfl) hsent.symm
  · intro hcondition
    refine ⟨fun u d c hget => ?_, fun _ hsent => registered_of_newFrames hsent⟩
    rw [htypes hget]
    apply if_neg
    rintro ⟨rfl, hfound⟩
    have hcount := SessionRegistry.userConnectionCount_pos_iff.mpr ⟨d, c, hget⟩
    rcases hcondition with hsome | hnone
    · rw [hfound] at hsome
      contradiction
    · exact absurd hnone hcount.ne'

/-- The fan-out is complete exactly if the event can be read and either finds a
pending entry or a sender without registered connections, or if there is nobody
to tell. -/
theorem completeFanOut_iff (P : Platform) (o : IterOrder Devices.Entry)
    (clock : Clock) (p : Json) (senderId : UInt64) (receivers : List UInt64)
    (s : Server) (hr : s.registry.Separated)
    (haddressed : Addressed P.json p senderId receivers) :
    s.CompleteFanOut P o clock p senderId receivers ↔
      (Readable p ∧ ((s.pendingOf P.json p).isSome = true ∨
        s.registry.userConnectionCount senderId = 0)) ∨
      ¬ SomeoneDue senderId receivers s := by
  cases hread : ChatMsgSend.read P.json p with
  | error thrown =>
      have hunreadable : ¬ Readable p := by
        rw [← exists_read_iff haddressed.1]
        rintro ⟨event, hok⟩
        rw [hread] at hok
        contradiction
      rw [completeFanOut_of_throw hread]
      exact ⟨Or.inr, fun h => h.resolve_left fun hbad => hunreadable hbad.1⟩
  | ok event =>
      have hsender := (ChatMsgSend.read_eq_ok_iff.mp hread).2.2
      obtain rfl : event.senderId = senderId :=
        Except.ok.inj (hsender.symm.trans haddressed.1)
      have hreadable : Readable p := (exists_read_iff hsender).mp ⟨event, hread⟩
      rw [completeFanOut_of_read hr hread haddressed]
      constructor
      · exact fun hfound => Or.inl ⟨hreadable, hfound⟩
      · rintro (⟨_, hfound⟩ | hnobody)
        · exact hfound
        · exact Or.inr (Nat.eq_zero_of_not_pos fun hcount =>
            hnobody (Or.inl hcount))

namespace FanOutWitness

def platform : Platform := Platform.ofTables [] [] [] []

def clock : Clock := ⟨100, 0, []⟩

/-- A message of user 1 that names its receiver twice and the sender too. -/
def payload : Json :=
  .object [("clientMsgId", .str (lit "m1")), ("messageId", .int 5),
    ("senderId", .uint 1), ("receivers", .arr [.uint 2, .uint 2, .uint 1])]

def conn (userId : UInt64) (session : SessionId) : OnlineConn :=
  .create userId (lit "d1") session none 0 20

/-- Users 1 and 2 with one device each. -/
def registry : SessionRegistry :=
  (SessionRegistry.add (IterOrder.asKept _) (SessionRegistry.add
    (IterOrder.asKept _) {} (conn 1 1) 5).registry (conn 2 2) 5).registry

theorem separated_registry : registry.Separated := by
  have hfirst := SessionRegistry.wellFormed_empty.add (IterOrder.asKept _)
    (conn 1 1) (by decide : 1 ≤ 5) (fun u d c hget => by
      simp [SessionRegistry.get] at hget)
  refine (hfirst.add (IterOrder.asKept _) (conn 2 2) (by decide) ?_).toSeparated
  intro u d c hget
  rcases (SessionRegistry.add_spec (IterOrder.asKept _) {} (conn 1 1)
    5).get_cases hget with ⟨_, _, rfl⟩ | ⟨_, hold⟩
  · decide
  · simp [SessionRegistry.get] at hold

theorem addressed_payload : Addressed platform.json payload 1 [2, 2, 1] := by
  refine ⟨by decide +kernel, some [.uint 2, .uint 2, .uint 1], rfl, ?_⟩
  decide +kernel

/-- The send is still pending. -/
def waiting : Server :=
  { registry := registry
    pending := AList.insert (lit "m1") ⟨1, lit "d1", 0, true, 7⟩ ∅ }

/-- The entry has been swept. -/
def swept : Server := { registry := registry }

theorem completeFanOut_waiting :
    waiting.CompleteFanOut platform (IterOrder.asKept _) clock payload 1
      [2, 2, 1] :=
  (completeFanOut_iff platform (IterOrder.asKept _) clock payload 1 [2, 2, 1]
    waiting separated_registry addressed_payload).mpr
    (Or.inl ⟨by unfold Readable; decide +kernel, Or.inl (by decide +kernel)⟩)

theorem not_all_completeFanOut :
    ¬ ∀ (P : Platform) (o : IterOrder Devices.Entry) (clock : Clock) (p : Json)
      (senderId : UInt64) (receivers : List UInt64) (s : Server),
      s.registry.Separated → Addressed P.json p senderId receivers →
      (∀ pending ∈ s.pendingOf P.json p, pending.senderUserId = senderId) →
        s.CompleteFanOut P o clock p senderId receivers := by
  intro hall
  have hcomplete := hall platform (IterOrder.asKept _) clock payload 1 [2, 2, 1]
    swept separated_registry addressed_payload (by decide +kernel)
  have hsent := hcomplete.due 1 (lit "d1") (conn 1 1) (by decide +kernel)
  exact absurd hsent (by decide +kernel)

end FanOutWitness

end Server

end FlzChat
