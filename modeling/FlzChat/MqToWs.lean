/-
`MqToWsDispatcher`: what a consumed envelope makes the server send.  A handler
that throws keeps what it has already done.
-/
import FlzChat.Consumer
import FlzChat.WsToMq

namespace FlzChat

/-- The elements of an array member; `none` where the member is missing or
not an array. -/
def Json.arrayMember (p : Json) (key : StdString) :
    Except Thrown (Option (List Json)) := do
  if ← p.isMember key then
    match ← p.member key with
    | .arr elems => return some elems
    | _ => return none
  else return none

/-- A `std::set` of the given ids, in iteration order. -/
def idSet (ids : List UInt64) : List UInt64 :=
  ids.dedup.mergeSort fun a b => decide (a ≤ b)

/-- The fields `OnChatMsgSend` reads first. -/
structure ChatMsgSend where
  clientMsgId : StdString
  messageId : Int64
  senderId : UInt64

def ChatMsgSend.read (J : Jsoncpp) (p : Json) : Except Thrown ChatMsgSend := do
  let clientMsgId ← p.getString J (lit "clientMsgId")
  let messageId ← p.getInt64 J (lit "messageId")
  let senderId ← p.getUInt64 J (lit "senderId")
  return ⟨clientMsgId, messageId, senderId⟩

/-- The frame that answers a pending send. -/
def ChatMsgSend.resp (event : ChatMsgSend) (pending : PendingSend) : Frame :=
  ⟨lit "msg.send.resp", .object [("clientMsgId", .str event.clientMsgId),
    ("code", .int 200), ("messageId", .int event.messageId)],
    pending.hasSeq, pending.seq⟩

namespace Server

/-- Send one frame on a connection and count it. -/
def sendTo (conn : OnlineConn) (frame : Frame) : Server → Server :=
  onOwner conn.ioManager [.sendFrame conn.session frame, .incWsOut frame.type]

def pushToUser (o : IterOrder Devices.Entry) (uid : UInt64) (type : StdString)
    (data : Json) (s : Server) : Server :=
  (s.registry.getByUser o uid).foldl
    (fun s conn => s.sendTo conn ⟨type, data, false, 0⟩) s

/-- The frame one of the sender's connections gets while a send is pending. -/
def senderFrame (event : ChatMsgSend) (p : Json) (pending : PendingSend)
    (conn : OnlineConn) : Frame :=
  if conn.deviceId = pending.senderDeviceId then event.resp pending
  else ⟨lit "msg.new", p, false, 0⟩

/-- Answer a pending send and tell the sender's other devices. -/
def answerSender (o : IterOrder Devices.Entry) (clock : Clock)
    (event : ChatMsgSend) (p : Json) (pending : PendingSend) (s : Server) :
    Server :=
  let latency := UInt64.ofInt (clock.nowMs - pending.createdMs)
  let s := { s with metrics := s.metrics.observeMsgSendLatencyMs latency }
  (s.registry.getByUser o event.senderId).foldl
    (fun s conn => s.sendTo conn (senderFrame event p pending conn)) s

/-- The loop over the receivers. -/
def pushReceivers (P : Platform) (o : IterOrder Devices.Entry)
    (senderId : UInt64) (p : Json) :
    List Json → List UInt64 → Server → Except Thrown Unit × Server
  | [], _, s => (.ok (), s)
  | elem :: elems, pushedUsers, s =>
      match P.json.asUInt64 elem with
      | .error thrown => (.error thrown, s)
      | .ok uid =>
          if uid = 0 ∨ uid = senderId then
            pushReceivers P o senderId p elems pushedUsers s
          else if uid ∈ pushedUsers then
            pushReceivers P o senderId p elems pushedUsers s
          else
            pushReceivers P o senderId p elems (uid :: pushedUsers)
              (s.pushToUser o uid (lit "msg.new") p)

def onChatMsgSend (P : Platform) (o : IterOrder Devices.Entry) (clock : Clock)
    (p : Json) (s : Server) : Except Thrown ConsumeResult × Server :=
  match ChatMsgSend.read P.json p with
  | .error thrown => (.error thrown, s)
  | .ok event =>
      let taken := s.takePending event.clientMsgId
      let s := match taken.1 with
        | none => taken.2
        | some pending => taken.2.answerSender o clock event p pending
      match p.arrayMember (lit "receivers") with
      | .error thrown => (.error thrown, s)
      | .ok receivers =>
          let pushed := pushReceivers P o event.senderId p (receivers.getD []) [] s
          (pushed.1.map fun _ => .ack, pushed.2)

/-- The handlers of events with one target: no target, no delivery. -/
def pushToTarget (P : Platform) (o : IterOrder Devices.Entry)
    (field type : StdString) (p : Json) (s : Server) :
    Except Thrown ConsumeResult × Server :=
  match p.getUInt64 P.json field with
  | .error thrown => (.error thrown, s)
  | .ok target =>
      if target = 0 then (.ok .nackDrop, s)
      else (.ok .ack, s.pushToUser o target type p)

def onChatMsgReplay (P : Platform) (o : IterOrder Devices.Entry) : Json →
    Server → Except Thrown ConsumeResult × Server :=
  pushToTarget P o (lit "targetUserId") (lit "msg.replay")

def onFriendRequest (P : Platform) (o : IterOrder Devices.Entry) : Json →
    Server → Except Thrown ConsumeResult × Server :=
  pushToTarget P o (lit "toUserId") (lit "friend.request")

/-- Push to every non-zero user of a set. -/
def pushToUsers (o : IterOrder Devices.Entry) (users : List UInt64)
    (type : StdString) (data : Json) (s : Server) : Server :=
  (users.filter (· ≠ 0)).foldl (fun s uid => s.pushToUser o uid type data) s

def onChatMsgRecall (P : Platform) (o : IterOrder Devices.Entry) (p : Json)
    (s : Server) : Except Thrown ConsumeResult × Server :=
  let users : Except Thrown (List UInt64) := do
    let operatorId ← p.getUInt64 P.json (lit "operatorId")
    let receivers ← p.arrayMember (lit "receivers")
    let ids ← (receivers.getD []).mapM P.json.asUInt64
    return idSet (if 0 < operatorId then operatorId :: ids else ids)
  match users with
  | .error thrown => (.error thrown, s)
  | .ok users => (.ok .ack, s.pushToUsers o users (lit "msg.recall") p)

def onFriendAccept (P : Platform) (o : IterOrder Devices.Entry) (p : Json)
    (s : Server) : Except Thrown ConsumeResult × Server :=
  match p.getUInt64 P.json (lit "fromUserId"),
      p.getUInt64 P.json (lit "toUserId") with
  | .error thrown, _ => (.error thrown, s)
  | _, .error thrown => (.error thrown, s)
  | .ok fromUid, .ok toUid =>
      let s := if 0 < fromUid then
        s.pushToUser o fromUid (lit "friend.accept") p else s
      (.ok .ack, if 0 < toUid ∧ toUid ≠ fromUid then
        s.pushToUser o toUid (lit "friend.accept") p else s)

/-- The loop over the members of a new conversation. -/
def pushMembers (P : Platform) (o : IterOrder Devices.Entry) (p : Json) :
    List Json → Server → Except Thrown ConsumeResult × Server
  | [], s => (.ok .ack, s)
  | elem :: elems, s =>
      match P.json.asUInt64 elem with
      | .error thrown => (.error thrown, s)
      | .ok uid => pushMembers P o p elems <|
          if 0 < uid then s.pushToUser o uid (lit "conversation.created") p else s

def onConversationCreated (P : Platform) (o : IterOrder Devices.Entry)
    (p : Json) (s : Server) : Except Thrown ConsumeResult × Server :=
  match p.arrayMember (lit "memberIds") with
  | .error thrown => (.error thrown, s)
  | .ok none => (.ok .nackDrop, s)
  | .ok (some members) => pushMembers P o p members s

def onConversationMemberChanged (P : Platform) (o : IterOrder Devices.Entry)
    (p : Json) (s : Server) : Except Thrown ConsumeResult × Server :=
  let users : Except Thrown (List UInt64) := do
    let added ← p.arrayMember (lit "addedIds")
    let addedIds ← (added.getD []).mapM P.json.asUInt64
    let removed ← p.arrayMember (lit "removedIds")
    let removedIds ← (removed.getD []).mapM P.json.asUInt64
    let changes ← p.arrayMember (lit "roleChanges")
    let changedIds ← (changes.getD []).mapM fun change =>
      change.getUInt64 P.json (lit "userId")
    return idSet (addedIds ++ removedIds ++ changedIds)
  match users with
  | .error thrown => (.error thrown, s)
  | .ok users =>
      (.ok .ack, s.pushToUsers o users (lit "conversation.member_changed") p)

def onEnvelope (P : Platform) (o : IterOrder Devices.Entry) (clock : Clock)
    (env : Envelope) (s : Server) : Except Thrown ConsumeResult × Server :=
  if env.type = lit "chat.msg.send" then s.onChatMsgSend P o clock env.payload
  else if env.type = lit "chat.msg.replay" then s.onChatMsgReplay P o env.payload
  else if env.type = lit "chat.msg.recall" then s.onChatMsgRecall P o env.payload
  else if env.type = lit "chat.friend.request" then
    s.onFriendRequest P o env.payload
  else if env.type = lit "chat.friend.accept" then
    s.onFriendAccept P o env.payload
  else if env.type = lit "chat.conversation.created" then
    s.onConversationCreated P o env.payload
  else if env.type = lit "chat.conversation.member_changed" then
    s.onConversationMemberChanged P o env.payload
  else (.ok .ack, s)

/-! The loops that convert as they push are pushes to the ids they reach. -/

/-- The users the loop over the receivers pushes to, in order. -/
def receiverIds (P : Platform) (senderId : UInt64) :
    List Json → List UInt64 → List UInt64
  | [], _ => []
  | elem :: elems, pushedUsers =>
      match P.json.asUInt64 elem with
      | .error _ => []
      | .ok uid =>
          if uid = 0 ∨ uid = senderId then
            receiverIds P senderId elems pushedUsers
          else if uid ∈ pushedUsers then receiverIds P senderId elems pushedUsers
          else uid :: receiverIds P senderId elems (uid :: pushedUsers)

/-- The ids before the first element that does not convert. -/
def idsBefore (P : Platform) : List Json → List UInt64
  | [] => []
  | elem :: elems =>
      match P.json.asUInt64 elem with
      | .error _ => []
      | .ok uid => uid :: idsBefore P elems

/-- The loop over the receivers pushes to those it has not met before. -/
theorem pushReceivers_eq_foldl (P : Platform) (o : IterOrder Devices.Entry)
    (senderId : UInt64) (p : Json) (elems : List Json)
    (pushedUsers : List UInt64) (s : Server) :
    (pushReceivers P o senderId p elems pushedUsers s).2 =
      (receiverIds P senderId elems pushedUsers).foldl
        (fun s uid => s.pushToUser o uid (lit "msg.new") p) s := by
  induction elems generalizing pushedUsers s with
  | nil => rfl
  | cons elem elems ih =>
      simp only [pushReceivers, receiverIds]
      cases P.json.asUInt64 elem with
      | error thrown => rfl
      | ok uid =>
          simp only
          split_ifs
          · exact ih pushedUsers s
          · exact ih pushedUsers s
          · exact ih (uid :: pushedUsers) _

theorem pushMembers_eq_foldl (P : Platform) (o : IterOrder Devices.Entry)
    (p : Json) (elems : List Json) (s : Server) :
    (pushMembers P o p elems s).2 =
      ((idsBefore P elems).filter (0 < ·)).foldl
        (fun s uid => s.pushToUser o uid (lit "conversation.created") p) s := by
  induction elems generalizing s with
  | nil => rfl
  | cons elem elems ih =>
      simp only [pushMembers, idsBefore]
      cases P.json.asUInt64 elem with
      | error thrown => rfl
      | ok uid =>
          rw [ih]
          by_cases hpos : 0 < uid
          · simp [hpos]
          · simp [hpos]

/-- `OnChatMsgSend` between its pending entry and the receivers. -/
def answerPending (o : IterOrder Devices.Entry) (clock : Clock)
    (event : ChatMsgSend) (p : Json) (s : Server) : Server :=
  match s.pending.lookup event.clientMsgId with
  | none => s
  | some pending =>
      { s with pending := s.pending.erase event.clientMsgId }.answerSender o clock
        event p pending

theorem onChatMsgSend_of_read {P : Platform} {p : Json} {event : ChatMsgSend}
    (hread : ChatMsgSend.read P.json p = .ok event)
    (o : IterOrder Devices.Entry) (clock : Clock) (s : Server) :
    s.onChatMsgSend P o clock p =
      match p.arrayMember (lit "receivers") with
      | .error thrown => (.error thrown, s.answerPending o clock event p)
      | .ok receivers =>
          let pushed := pushReceivers P o event.senderId p (receivers.getD []) []
            (s.answerPending o clock event p)
          (pushed.1.map fun _ => .ack, pushed.2) := by
  rw [onChatMsgSend, hread]
  simp only [takePending, answerPending]
  cases s.pending.lookup event.clientMsgId <;> rfl

/-- An event that cannot be read has no effect. -/
theorem onChatMsgSend_of_throw {P : Platform} {p : Json} {thrown : Thrown}
    (hread : ChatMsgSend.read P.json p = .error thrown)
    (o : IterOrder Devices.Entry) (clock : Clock) (s : Server) :
    s.onChatMsgSend P o clock p = (.error thrown, s) := by
  rw [onChatMsgSend, hread]

end Server

theorem ChatMsgSend.read_eq_ok_iff {J : Jsoncpp} {p : Json}
    {event : ChatMsgSend} :
    ChatMsgSend.read J p = .ok event ↔
      p.getString J (lit "clientMsgId") = .ok event.clientMsgId ∧
      p.getInt64 J (lit "messageId") = .ok event.messageId ∧
      p.getUInt64 J (lit "senderId") = .ok event.senderId := by
  simp only [ChatMsgSend.read]
  simp only [bind_eq_ok_iff]
  constructor
  · rintro ⟨clientMsgId, hid, messageId, hmessage, senderId, hsender, hevent⟩
    obtain rfl : ChatMsgSend.mk clientMsgId messageId senderId = event :=
      Except.ok.inj hevent
    exact ⟨hid, hmessage, hsender⟩
  · rintro ⟨hid, hmessage, hsender⟩
    exact ⟨_, hid, _, hmessage, _, hsender, rfl⟩

end FlzChat
