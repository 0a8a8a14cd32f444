/-
The pushes of the dispatcher: every frame `OnEnvelope` sends belongs to one look
at the registry, after which the connections found are served one by one.
-/
import FlzChat.MqToWs
import FlzChat.Workers

namespace FlzChat

/-- One look at the registry and the frames for the connections it finds. -/
structure Push where
  uid : UInt64
  frame : OnlineConn → Frame

/-- What a push does on the connections it has found. -/
def Push.effects (conns : List OnlineConn) (push : Push) : List Effect :=
  conns.flatMap fun conn => ownerEffects conn.ioManager
    [.sendFrame conn.session (push.frame conn), .incWsOut (push.frame conn).type]

/-- The same frame for several users. -/
def pushAll (type : StdString) (data : Json) (uids : List UInt64) : List Push :=
  uids.map fun uid => ⟨uid, fun _ => ⟨type, data, false, 0⟩⟩

namespace Push

/-- The pushes of `OnChatMsgSend`; `pending` is what `TakePending` returns. -/
def ofChatMsgSend (P : Platform) (pending : Option PendingSend) (p : Json) :
    List Push :=
  match ChatMsgSend.read P.json p with
  | .error _ => []
  | .ok event =>
      (pending.toList.map fun pending =>
        ⟨event.senderId, Server.senderFrame event p pending⟩) ++
      match p.arrayMember (lit "receivers") with
      | .error _ => []
      | .ok receivers => pushAll (lit "msg.new") p
          (Server.receiverIds P event.senderId (receivers.getD []) [])

def ofTarget (P : Platform) (field type : StdString) (p : Json) : List Push :=
  match p.getUInt64 P.json field with
  | .error _ => []
  | .ok target => if target = 0 then [] else pushAll type p [target]

def ofUsers (users : Except Thrown (List UInt64)) (type : StdString) (p : Json) :
    List Push :=
  match users with
  | .error _ => []
  | .ok users => pushAll type p (users.filter (· ≠ 0))

/-- The set `OnChatMsgRecall` collects. -/
def recalled (P : Platform) (p : Json) : Except Thrown (List UInt64) := do
  let operatorId ← p.getUInt64 P.json (lit "operatorId")
  let receivers ← p.arrayMember (lit "receivers")
  let ids ← (receivers.getD []).mapM P.json.asUInt64
  return idSet (if 0 < operatorId then operatorId :: ids else ids)

def ofFriendAccept (P : Platform) (p : Json) : List Push :=
  match p.getUInt64 P.json (lit "fromUserId"),
      p.getUInt64 P.json (lit "toUserId") with
  | .ok fromUid, .ok toUid => pushAll (lit "friend.accept") p
      ((if 0 < fromUid then [fromUid] else []) ++
        if 0 < toUid ∧ toUid ≠ fromUid then [toUid] else [])
  | _, _ => []

def ofConversationCreated (P : Platform) (p : Json) : List Push :=
  match p.arrayMember (lit "memberIds") with
  | .ok (some members) => pushAll (lit "conversation.created") p
      ((Server.idsBefore P members).filter (0 < ·))
  | _ => []

/-- The set `OnConversationMemberChanged` collects. -/
def changed (P : Platform) (p : Json) : Except Thrown (List UInt64) := do
  let added ← p.arrayMember (lit "addedIds")
  let addedIds ← (added.getD []).mapM P.json.asUInt64
  let removed ← p.arrayMember (lit "removedIds")
  let removedIds ← (removed.getD []).mapM P.json.asUInt64
  let changes ← p.arrayMember (lit "roleChanges")
  let changedIds ← (changes.getD []).mapM fun change =>
    change.getUInt64 P.json (lit "userId")
  return idSet (addedIds ++ removedIds ++ changedIds)

/-- The pushes of `OnEnvelope`, in order. -/
def ofEnvelope (P : Platform) (pending : Option PendingSend) (env : Envelope) :
    List Push :=
  let p := env.payload
  if env.type = lit "chat.msg.send" then ofChatMsgSend P pending p
  else if env.type = lit "chat.msg.replay" then
    ofTarget P (lit "targetUserId") (lit "msg.replay") p
  else if env.type = lit "chat.msg.recall" then
    ofUsers (recalled P p) (lit "msg.recall") p
  else if env.type = lit "chat.friend.request" then
    ofTarget P (lit "toUserId") (lit "friend.request") p
  else if env.type = lit "chat.friend.accept" then ofFriendAccept P p
  else if env.type = lit "chat.conversation.created" then
    ofConversationCreated P p
  else if env.type = lit "chat.conversation.member_changed" then
    ofUsers (changed P p) (lit "conversation.member_changed") p
  else []

/-- A push sends each connection it finds its frame. -/
theorem frames_effects (conns : List OnlineConn) (push : Push) :
    (push.effects conns).flatMap Effect.frames =
      conns.map fun conn => (conn.session, push.frame conn) := by
  rw [effects, List.flatMap_assoc, List.map_eq_flatMap]
  apply List.flatMap_congr
  intro conn _
  rw [Server.frames_ownerEffects]
  rfl

/-! All but the answers to sends. -/

/-- The types of the frames that are pushed, besides the answers. -/
def pushTypes : List StdString :=
  [lit "msg.new", lit "msg.replay", lit "msg.recall", lit "friend.request",
    lit "friend.accept", lit "conversation.created",
    lit "conversation.member_changed"]

/-- No frame of the push is an answer. -/
def Plain (push : Push) : Prop :=
  ∀ conn, (push.frame conn).type ∈ pushTypes

theorem plain_of_mem_pushAll {type : StdString} {data : Json}
    {uids : List UInt64} {push : Push} (htype : type ∈ pushTypes)
    (hpush : push ∈ pushAll type data uids) : push.Plain := by
  obtain ⟨uid, _, rfl⟩ := List.mem_map.mp hpush
  exact fun _ => htype

theorem plain_ofTarget {P : Platform} {field type : StdString} {p : Json}
    {push : Push} (htype : type ∈ pushTypes)
    (hpush : push ∈ ofTarget P field type p) : push.Plain := by
  simp only [ofTarget] at hpush
  split at hpush
  · contradiction
  · split_ifs at hpush
    · contradiction
    · exact plain_of_mem_pushAll htype hpush

theorem plain_ofUsers {users : Except Thrown (List UInt64)} {type : StdString}
    {p : Json} {push : Push} (htype : type ∈ pushTypes)
    (hpush : push ∈ ofUsers users type p) : push.Plain := by
  cases users with
  | error thrown => contradiction
  | ok users => exact plain_of_mem_pushAll htype hpush

/-- Only a persisted message has an answer. -/
theorem plain_ofEnvelope {P : Platform} {pending : Option PendingSend}
    {env : Envelope} (htype : env.type ≠ lit "chat.msg.send") {push : Push}
    (hpush : push ∈ ofEnvelope P pending env) : push.Plain := by
  simp only [ofEnvelope, htype, if_false] at hpush
  split_ifs at hpush
  · exact plain_ofTarget (by decide) hpush
  · exact plain_ofUsers (by decide) hpush
  · exact plain_ofTarget (by decide) hpush
  · simp only [ofFriendAccept] at hpush
    split at hpush
    · exact plain_of_mem_pushAll (by decide) hpush
    · contradiction
  · simp only [ofConversationCreated] at hpush
    split at hpush
    · exact plain_of_mem_pushAll (by decide) hpush
    · contradiction
  · exact plain_ofUsers (by decide) hpush
  · contradiction

/-- Behind the answer to its sender a persisted message is pushed plainly. -/
theorem ofChatMsgSend_of_read {P : Platform} {p : Json} {event : ChatMsgSend}
    (hread : ChatMsgSend.read P.json p = .ok event)
    (pending : Option PendingSend) :
    ∃ later, ofChatMsgSend P pending p =
        (pending.toList.map fun pending =>
          ⟨event.senderId, Server.senderFrame event p pending⟩) ++ later ∧
      ∀ push ∈ later, push.Plain := by
  rw [ofChatMsgSend, hread]
  refine ⟨_, rfl, ?_⟩
  intro push hpush
  split at hpush
  · contradiction
  · exact plain_of_mem_pushAll (by decide) hpush

end Push

namespace Server

/-- What pushes do while the registry stays as it is. -/
def pushEffects (o : IterOrder Devices.Entry) (registry : SessionRegistry)
    (pushes : List Push) : List Effect :=
  pushes.flatMap fun push => push.effects (registry.getByUser o push.uid)

/-- The entry an event finds pending. -/
def pendingOf (J : Jsoncpp) (p : Json) (s : Server) : Option PendingSend :=
  match p.getString J (lit "clientMsgId") with
  | .ok clientMsgId => s.pending.lookup clientMsgId
  | .error _ => none

theorem pendingOf_of_read {J : Jsoncpp} {p : Json} {event : ChatMsgSend}
    (hread : ChatMsgSend.read J p = .ok event) (s : Server) :
    s.pendingOf J p = s.pending.lookup event.clientMsgId := by
  rw [pendingOf, (ChatMsgSend.read_eq_ok_iff.mp hread).1]

theorem pushEffects_singleton (o : IterOrder Devices.Entry)
    (registry : SessionRegistry) (push : Push) :
    pushEffects o registry [push] = push.effects (registry.getByUser o push.uid) := by
  simp [pushEffects]

section

variable {scope : Scope}

theorem does_sendAll (frame : OnlineConn → Frame) (conns : List OnlineConn)
    (uid : UInt64) (s : Server) :
    Does scope (Push.effects conns ⟨uid, frame⟩) s
      (conns.foldl (fun s conn => s.sendTo conn (frame conn)) s) :=
  does_foldl (fun s conn => does_onOwner conn.ioManager _ s) conns s

theorem does_pushToUser (o : IterOrder Devices.Entry) (uid : UInt64)
    (type : StdString) (data : Json) (s : Server) :
    Does scope (pushEffects o s.registry (pushAll type data [uid])) s
      (s.pushToUser o uid type data) := by
  rw [pushAll, List.map_singleton, pushEffects_singleton]
  exact does_sendAll (fun _ => ⟨type, data, false, 0⟩) _ uid s

theorem does_pushEach (o : IterOrder Devices.Entry) (type : StdString)
    (data : Json) (uids : List UInt64) (s : Server) :
    Does scope (pushEffects o s.registry (pushAll type data uids)) s
      (uids.foldl (fun s uid => s.pushToUser o uid type data) s) := by
  induction uids generalizing s with
  | nil => exact .nothing s
  | cons uid uids ih =>
      have hsame : (s.pushToUser o uid type data).registry = s.registry :=
        (does_pushToUser o uid type data s : Does {} _ s _).registry_eq fun _ _ => id
      have hboth := (does_pushToUser o uid type data s).andThen
        (ih (s.pushToUser o uid type data))
      rw [hsame] at hboth
      simpa [pushEffects, pushAll] using hboth

theorem does_answerPending (hforgets : scope.forgets) (hobserves : scope.observes)
    (o : IterOrder Devices.Entry) (clock : Clock) (event : ChatMsgSend) (p : Json)
    (s : Server) :
    Does scope (pushEffects o s.registry
        ((s.pending.lookup event.clientMsgId).toList.map fun pending =>
          ⟨event.senderId, senderFrame event p pending⟩)) s
      (s.answerPending o clock event p) := by
  rw [answerPending]
  cases s.pending.lookup event.clientMsgId with
  | none => exact .nothing s
  | some pending =>
      have hobserved := (does_erase hforgets event.clientMsgId s).after (.observe
        (UInt64.ofInt (clock.nowMs - pending.createdMs)) _ hobserves)
      rw [Option.toList_some, List.map_singleton, pushEffects_singleton]
      exact hobserved.after (does_sendAll (senderFrame event p pending) _
        event.senderId _)

/-- The entry of the event's id is gone, the others stay. -/
theorem pending_answerPending (o : IterOrder Devices.Entry) (clock : Clock)
    (event : ChatMsgSend) (p : Json) (s : Server) :
    (s.answerPending o clock event p).pending =
      s.pending.erase event.clientMsgId := by
  rw [answerPending]
  cases hfound : s.pending.lookup event.clientMsgId with
  | none => exact (KeyMap.erase_of_lookup_eq_none hfound).symm
  | some pending =>
      have hsent : ∀ conns s', Does {} _ s' _ := fun conns s' =>
        does_sendAll (senderFrame event p pending) conns event.senderId s'
      exact (hsent _ _).pending_eq (fun _ => id) id

/-- The receivers are served by pushes alone. -/
theorem does_receivers {P : Platform} {p : Json} {event : ChatMsgSend}
    (hread : ChatMsgSend.read P.json p = .ok event)
    (o : IterOrder Devices.Entry) (clock : Clock) (s : Server) :
    Does scope (pushEffects o s.registry
        (match p.arrayMember (lit "receivers") with
          | .error _ => []
          | .ok receivers => pushAll (lit "msg.new") p
              (receiverIds P event.senderId (receivers.getD []) [])))
      (s.answerPending o clock event p) (s.onChatMsgSend P o clock p).2 := by
  have hsame : (s.answerPending o clock event p).registry = s.registry :=
    (does_answerPending trivial trivial o clock event p s :
      Does { forgets := True, observes := True } _ s _).registry_eq fun _ _ => id
  rw [onChatMsgSend_of_read hread, ← hsame]
  cases p.arrayMember (lit "receivers") with
  | error thrown => exact .nothing _
  | ok receivers =>
      simp only [pushReceivers_eq_foldl]
      exact does_pushEach o (lit "msg.new") p _ _

/-- An event that is read takes the entry of its id. -/
theorem pending_onChatMsgSend {P : Platform} {p : Json} {event : ChatMsgSend}
    (hread : ChatMsgSend.read P.json p = .ok event)
    (o : IterOrder Devices.Entry) (clock : Clock) (s : Server) :
    (s.onChatMsgSend P o clock p).2.pending = s.pending.erase event.clientMsgId := by
  have hpushed : Does {} _ _ _ := does_receivers hread o clock s
  rw [hpushed.pending_eq (fun _ => id) id, pending_answerPending]

theorem does_onChatMsgSend (hforgets : scope.forgets) (hobserves : scope.observes)
    (P : Platform) (o : IterOrder Devices.Entry) (clock : Clock) (p : Json)
    (s : Server) :
    Does scope (pushEffects o s.registry
        (Push.ofChatMsgSend P (s.pendingOf P.json p) p)) s
      (s.onChatMsgSend P o clock p).2 := by
  rw [Push.ofChatMsgSend]
  cases hread : ChatMsgSend.read P.json p with
  | error thrown =>
      rw [onChatMsgSend_of_throw hread]
      exact .nothing s
  | ok event =>
      have hboth := (does_answerPending hforgets hobserves o clock event p s).andThen
        (does_receivers hread o clock s)
      rwa [pushEffects, pushEffects, ← List.flatMap_append,
        ← pendingOf_of_read hread] at hboth

theorem does_pushToTarget (P : Platform) (o : IterOrder Devices.Entry)
    (field type : StdString) (p : Json) (s : Server) :
    Does scope (pushEffects o s.registry (Push.ofTarget P field type p)) s
      (s.pushToTarget P o field type p).2 := by
  rw [pushToTarget, Push.ofTarget]
  cases p.getUInt64 P.json field with
  | error thrown => exact .nothing s
  | ok target =>
      simp only
      split_ifs
      · exact .nothing s
      · exact does_pushToUser o target type p s

theorem does_pushToUsers (o : IterOrder Devices.Entry) (users : List UInt64)
    (type : StdString) (p : Json) (s : Server) :
    Does scope (pushEffects o s.registry (Push.ofUsers (.ok users) type p)) s
      (s.pushToUsers o users type p) :=
  does_pushEach o type p (users.filter (· ≠ 0)) s

theorem does_onFriendAccept (P : Platform) (o : IterOrder Devices.Entry)
    (p : Json) (s : Server) :
    Does scope (pushEffects o s.registry (Push.ofFriendAccept P p)) s
      (s.onFriendAccept P o p).2 := by
  rw [onFriendAccept, Push.ofFriendAccept]
  cases p.getUInt64 P.json (lit "fromUserId") with
  | error thrown => exact .nothing s
  | ok fromUid =>
      cases p.getUInt64 P.json (lit "toUserId") with
      | error thrown => exact .nothing s
      | ok toUid =>
          have hpushed : Does scope _ s _ := does_pushEach o (lit "friend.accept") p
            ((if 0 < fromUid then [fromUid] else []) ++
              if 0 < toUid ∧ toUid ≠ fromUid then [toUid] else []) s
          simp only
          split_ifs at hpushed ⊢ <;> exact hpushed

theorem does_onConversationCreated (P : Platform) (o : IterOrder Devices.Entry)
    (p : Json) (s : Server) :
    Does scope (pushEffects o s.registry (Push.ofConversationCreated P p)) s
      (s.onConversationCreated P o p).2 := by
  rw [onConversationCreated, Push.ofConversationCreated]
  rcases p.arrayMember (lit "memberIds") with thrown | _ | members
  · exact .nothing s
  · exact .nothing s
  · simp only [pushMembers_eq_foldl]
    exact does_pushEach o (lit "conversation.created") p _ s

/-- Everything `OnEnvelope` does it does through its pushes; only a persisted
message takes a send. -/
theorem does_onEnvelope (env : Envelope)
    (hmay : env.type = lit "chat.msg.send" → scope.forgets ∧ scope.observes)
    (P : Platform) (o : IterOrder Devices.Entry) (clock : Clock) (s : Server) :
    Does scope (pushEffects o s.registry
        (Push.ofEnvelope P (s.pendingOf P.json env.payload) env)) s
      (s.onEnvelope P o clock env).2 := by
  have husers : ∀ (read : Except Thrown (List UInt64)) (type : StdString),
      Does scope (pushEffects o s.registry (Push.ofUsers read type env.payload)) s
        (match read with
          | .error thrown => ((.error thrown, s) : Except Thrown ConsumeResult × Server)
          | .ok users => (.ok .ack, s.pushToUsers o users type env.payload)).2 := by
    intro read type
    cases read with
    | error thrown => exact .nothing s
    | ok users => exact does_pushToUsers o users type env.payload s
  simp only [onEnvelope, Push.ofEnvelope]
  split_ifs with hsend
  · exact does_onChatMsgSend (hmay hsend).1 (hmay hsend).2 P o clock env.payload s
  · exact does_pushToTarget P o _ _ env.payload s
  · exact husers (Push.recalled P env.payload) _
  · exact does_pushToTarget P o _ _ env.payload s
  · exact does_onFriendAccept P o env.payload s
  · exact does_onConversationCreated P o env.payload s
  · exact husers (Push.changed P env.payload) _
  · exact .nothing s

end

/-- No event changes who is registered. -/
theorem onEnvelope_same (P : Platform) (o : IterOrder Devices.Entry)
    (clock : Clock) (env : Envelope) (s : Server) :
    (s.onEnvelope P o clock env).2.registry = s.registry ∧
      ∀ u, (s.onEnvelope P o clock env).2.presence u = s.presence u := by
  have hdoes : Does { forgets := True, observes := True } _ s _ :=
    does_onEnvelope env (fun _ => ⟨trivial, trivial⟩) P o clock s
  exact ⟨hdoes.registry_eq fun _ _ => id, hdoes.presence_eq fun _ => False.elim⟩

end Server

/-! Effects as operations of a worker. -/

/-- The operations of the server's threads. -/
abbrev ServerOp := Op IoManager Push Effect

/-- A scheduled callback is handed over, everything else is done at once. -/
def Effect.op : Effect → ServerOp
  | now action => .emit (.now action)
  | scheduled iom actions => .handOver iom (actions.map .now)
  | enqueued task => .emit (.enqueued task)

/-- The frames an operation is known to send, at once or later. -/
def Op.frames : ServerOp → List (SessionId × Frame)
  | emit shown => shown.frames
  | handOver _ todo => todo.flatMap Effect.frames
  | call _ => []

theorem Effect.frames_op (effect : Effect) :
    effect.op.frames = effect.frames := by
  cases effect with
  | now action => rfl
  | enqueued task => rfl
  | scheduled iom actions =>
      rw [Effect.op, Op.frames, Server.frames_map_now]
      rfl

/-- A frame an operation made of an effect sends is a frame of the effect. -/
theorem mem_frames_of_mem_ops {effects : List Effect} {op : ServerOp}
    (hop : op ∈ effects.map Effect.op) {sent : SessionId × Frame}
    (hsent : sent ∈ op.frames) : sent ∈ effects.flatMap Effect.frames := by
  obtain ⟨effect, heffect, rfl⟩ := List.mem_map.mp hop
  rw [Effect.frames_op] at hsent
  exact List.mem_flatMap.mpr ⟨effect, heffect, hsent⟩

/-- What a push finds to do. -/
def Push.answer (o : IterOrder Devices.Entry) (registry : SessionRegistry)
    (push : Push) : List ServerOp :=
  (push.effects (registry.getByUser o push.uid)).map Effect.op

/-- The job of `OnEnvelope`. -/
def Push.jobOf (P : Platform) (pending : Option PendingSend) (env : Envelope) :
    List ServerOp :=
  (Push.ofEnvelope P pending env).map .call

end FlzChat
