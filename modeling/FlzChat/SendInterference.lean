/-
Two runs of the dispatchers on the same calls, one with the sends of a user B
and one without, and what they show a user A.  Pending sends share one map under
ids the clients choose.
-/
import FlzChat.FanOut
import FlzChat.Runs

namespace FlzChat

/-- The arguments of `HandleMsgSend` and the clock it reads. -/
structure SendRequest where
  clock : Clock
  uid : UInt64
  did : StdString
  session : SessionId
  hasSeq : Bool
  seq : Int64
  data : Json

/-- The entry the send is kept as. -/
def SendRequest.entry (request : SendRequest) : PendingSend where
  senderUserId := request.uid
  senderDeviceId := request.did
  createdMs := request.clock.nowMs
  hasSeq := request.hasSeq
  seq := request.seq

/-- The id the send is kept under once it has passed the checks. -/
def SendRequest.storedId (J : Jsoncpp) (cfg : ChatConfig)
    (request : SendRequest) : Option StdString :=
  match MsgSend.read J request.data with
  | .error _ => none
  | .ok msg =>
      if msg.clientMsgId = [] ∨ msg.conversationId ≤ 0 ∨ msg.content = [] then
        none
      else if cfg.chat.maxTextContentBytes < Int32.ofNat msg.content.length then
        none
      else some msg.clientMsgId

/-- The task it publishes, with the time it is sent at filled in. -/
def SendRequest.task? (P : Platform) (request : SendRequest) : Option Task :=
  match MsgSend.read P.json request.data with
  | .error _ => none
  | .ok msg => some <| MsgSend.task P request.uid <|
      if msg.sentAt = [] then { msg with sentAt := request.clock.iso8601Now }
      else msg

/-- `HandleMsgSend` on the request. -/
def SendRequest.handle (P : Platform) (cfg : ChatConfig)
    (publish : Task → Server → Bool × Server) (request : SendRequest)
    (s : Server) : Except Thrown Int32 × Server :=
  s.handleMsgSendWith P cfg publish request.clock request.uid request.did
    request.session request.hasSeq request.seq request.data

/-- The time stamp is filled in; the id and the checks are the message's own. -/
theorem stamped_eq (request : SendRequest) (msg : MsgSend) :
    let stamped := if msg.sentAt = [] then
      { msg with sentAt := request.clock.iso8601Now } else msg
    stamped.clientMsgId = msg.clientMsgId ∧
      stamped.conversationId = msg.conversationId ∧
        stamped.content = msg.content := by
  intro stamped
  simp only [stamped]
  split_ifs <;> exact ⟨rfl, rfl, rfl⟩

/-- What is kept has been read and has passed the checks. -/
theorem SendRequest.read_of_stored {J : Jsoncpp} {cfg : ChatConfig}
    {request : SendRequest} {id : StdString}
    (hstored : request.storedId J cfg = some id) :
    ∃ msg, MsgSend.read J request.data = .ok msg ∧ msg.clientMsgId = id ∧
      ¬ (msg.clientMsgId = [] ∨ msg.conversationId ≤ 0 ∨ msg.content = []) ∧
        ¬ cfg.chat.maxTextContentBytes < Int32.ofNat msg.content.length := by
  rw [SendRequest.storedId] at hstored
  cases hread : MsgSend.read J request.data with
  | error thrown =>
      rw [hread] at hstored
      contradiction
  | ok msg =>
      rw [hread] at hstored
      simp only at hstored
      split_ifs at hstored with hbad hlong
      exact ⟨msg, rfl, Option.some.inj hstored, hbad, hlong⟩

/-- A request that passes the checks is kept before it is published, and taken
back with an error if `Publish` refuses. -/
theorem SendRequest.handle_of_stored {P : Platform} {cfg : ChatConfig}
    {request : SendRequest} {id : StdString}
    (hstored : request.storedId P.json cfg = some id) :
    ∃ task, request.task? P = some task ∧ ∀ publish s,
      request.handle P cfg publish s =
        match publish task
          { s with pending := s.pending.insert id request.entry } with
        | (false, s) => (.ok 0, { s with pending := s.pending.erase id }.sendError
            request.session 503 (lit "mq unavailable") request.hasSeq request.seq)
        | (true, s) => (.ok 0, s) := by
  obtain ⟨msg, hread, rfl, hbad, hlong⟩ := SendRequest.read_of_stored hstored
  obtain ⟨hid, hconversation, hcontent⟩ := stamped_eq request msg
  refine ⟨_, by rw [SendRequest.task?, hread], ?_⟩
  intro publish s
  simp only [handle, Server.handleMsgSendWith, hread]
  rw [hid, hconversation, hcontent]
  simp only [hbad, hlong, if_false]
  rfl

/-- A request that does not pass throws or is answered with an error. -/
theorem SendRequest.handle_of_not_stored {P : Platform} {cfg : ChatConfig}
    {request : SendRequest} (hstored : request.storedId P.json cfg = none) :
    (∃ thrown, ∀ publish s, request.handle P cfg publish s = (.error thrown, s)) ∨
      ∃ code msg, ∀ publish s, request.handle P cfg publish s = (.ok 0,
        s.sendError request.session code msg request.hasSeq request.seq) := by
  rw [SendRequest.storedId] at hstored
  simp only [handle, Server.handleMsgSendWith]
  cases hread : MsgSend.read P.json request.data with
  | error thrown => exact Or.inl ⟨thrown, fun _ _ => rfl⟩
  | ok msg =>
      rw [hread] at hstored
      obtain ⟨hid, hconversation, hcontent⟩ := stamped_eq request msg
      simp only at hstored ⊢
      rw [hid, hconversation, hcontent]
      split_ifs at hstored with hbad hlong
      · exact Or.inr ⟨400, lit "bad msg.send", by simp [hbad]⟩
      · exact Or.inr ⟨413, lit "content too long", by simp [hbad, hlong]⟩

namespace TwoRuns

/-- What the dispatchers are called with; a send carries the outcome of its
`Publish`. -/
inductive Dispatch where
  | send (request : SendRequest) (accepted : Bool)
  | event (o : IterOrder Devices.Entry) (clock : Clock) (payload : Json)
  | sweep (nowMs : Int)

def machine (P : Platform) (cfg : ChatConfig) : Machine Server Dispatch where
  enabled _ _ := True
  step s
    | .send request accepted =>
        (s.handleMsgSendWith P cfg (Server.publishAs accepted) request.clock
          request.uid request.did request.session request.hasSeq request.seq
          request.data).2
    | .event o clock payload => (s.onChatMsgSend P o clock payload).2
    | .sweep nowMs => s.sweepPending cfg nowMs

/-- The elements of `receivers`. -/
def receiversOf (p : Json) : List Json :=
  match p.arrayMember (lit "receivers") with
  | .ok (some elems) => elems
  | _ => []

/-- The event is of a message A sent, and not to itself. -/
def Concerns (J : Jsoncpp) (a : UInt64) (p : Json) : Prop :=
  p.getUInt64 J (lit "senderId") = .ok a ∧
    ∀ elem ∈ receiversOf p, J.asUInt64 elem ≠ .ok a

instance (J : Jsoncpp) (a : UInt64) (p : Json) : Decidable (Concerns J a p) :=
  inferInstanceAs (Decidable (_ ∧ _))

/-- The frames for A's connections, one list for each event that concerns A. -/
def replies (P : Platform) (a : UInt64) (s : Server) :
    Dispatch → List (List (SessionId × Frame))
  | .event o clock p =>
      if Concerns P.json a p then
        [(Server.newFrames s (s.onChatMsgSend P o clock p).2).filter fun sent =>
          sent.1 ∈ (s.registry.getByUser o a).map (·.session)]
      else []
  | _ => []

/-- A call both runs share, but for the outcomes of `Publish`: the first is the
one in the run with B's sends, the second the one in the run without. -/
inductive Call where
  | send (request : SendRequest) (accepted acceptedWithout : Bool)
  | event (o : IterOrder Devices.Entry) (clock : Clock) (payload : Json)
  | sweep (nowMs : Int)

def Call.whole : Call → Option Dispatch
  | send request accepted _ => some (.send request accepted)
  | event o clock payload => some (.event o clock payload)
  | sweep nowMs => some (.sweep nowMs)

def Call.without (b : UInt64) : Call → Option Dispatch
  | send request _ acceptedWithout =>
      if request.uid = b then none else some (.send request acceptedWithout)
  | event o clock payload => some (.event o clock payload)
  | sweep nowMs => some (.sweep nowMs)

theorem Call.without_send (b : UInt64) (request : SendRequest)
    (accepted acceptedWithout : Bool) :
    (Call.send request accepted acceptedWithout).without b =
      if request.uid = b then none else some (.send request acceptedWithout) :=
  rfl

/-- The outcome of A's `Publish` is the same in both runs. -/
def Call.Fixed (a : UInt64) : Call → Prop
  | send request accepted acceptedWithout =>
      request.uid = a → accepted = acceptedWithout
  | _ => True

/-- Keeps account of the ids under which the two runs may differ: those whose
last send, since an event last took them, was B's or met another outcome. -/
def disputes (P : Platform) (cfg : ChatConfig) (b : UInt64) :
    Machine (StdString → Bool) Call where
  enabled _ _ := True
  step disputed
    | .send request accepted acceptedWithout =>
        match request.storedId P.json cfg with
        | none => disputed
        | some id => Function.update disputed id
            (request.uid = b ∨ accepted ≠ acceptedWithout)
    | .event _ _ p =>
        match ChatMsgSend.read P.json p with
        | .error _ => disputed
        | .ok event => Function.update disputed event.clientMsgId false
    | .sweep _ => disputed

/-- An event that concerns A names no disputed id. -/
def Undisputed (P : Platform) (a : UInt64) (disputed : StdString → Bool) :
    Call → Prop
  | .event _ _ p => Concerns P.json a p →
      ∀ event ∈ (ChatMsgSend.read P.json p).toOption,
        disputed event.clientMsgId = false
  | _ => True

instance (a : UInt64) : DecidablePred (Call.Fixed a)
  | .send request accepted acceptedWithout => inferInstanceAs (Decidable (
      request.uid = a → accepted = acceptedWithout))
  | .event _ _ _ | .sweep _ => isTrue trivial

instance (P : Platform) (a : UInt64) (disputed : StdString → Bool) :
    DecidablePred (Undisputed P a disputed)
  | .event _ _ p => inferInstanceAs (Decidable (Concerns P.json a p →
      ∀ event ∈ (ChatMsgSend.read P.json p).toOption,
        disputed event.clientMsgId = false))
  | .send _ _ _ | .sweep _ => isTrue trivial

/-! What each call does to the pending map. -/

/-- The handler is the one with the outcome its `Publish` has. -/
theorem handleMsgSend_eq (P : Platform) (cfg : ChatConfig)
    (request : SendRequest) (s : Server) :
    s.handleMsgSend P cfg request.clock request.uid request.did request.session
        request.hasSeq request.seq request.data =
      s.handleMsgSendWith P cfg
        (Server.publishAs (decide (s.Accepting cfg))) request.clock request.uid
        request.did request.session request.hasSeq request.seq request.data := by
  simp only [Server.handleMsgSend, Server.handleMsgSendWith]
  simp only [Server.publish_eq_publishAs]
  rfl

theorem send_registry (P : Platform) (cfg : ChatConfig) (request : SendRequest)
    (accepted : Bool) (s : Server) :
    ((machine P cfg).step s (.send request accepted)).registry = s.registry := by
  change (request.handle P cfg (Server.publishAs accepted) s).2.registry = _
  cases hstored : request.storedId P.json cfg with
  | none =>
      rcases SendRequest.handle_of_not_stored hstored with
        ⟨thrown, hhandle⟩ | ⟨code, msg, hhandle⟩
      · rw [hhandle]
      · rw [hhandle]
        rfl
  | some id =>
      obtain ⟨task, _, hhandle⟩ := SendRequest.handle_of_stored hstored
      rw [hhandle]
      cases accepted <;> rfl

/-- A send that passes the checks replaces the entry of its id, and takes it
back if `Publish` refuses. -/
theorem lookup_send (P : Platform) (cfg : ChatConfig) (request : SendRequest)
    (accepted : Bool) (s : Server) (id : StdString) :
    ((machine P cfg).step s (.send request accepted)).pending.lookup id =
      if request.storedId P.json cfg = some id then
        if accepted then some request.entry else none
      else s.pending.lookup id := by
  change (request.handle P cfg (Server.publishAs accepted) s).2.pending.lookup id = _
  cases hstored : request.storedId P.json cfg with
  | none =>
      simp only [reduceCtorEq, if_false]
      rcases SendRequest.handle_of_not_stored hstored with
        ⟨thrown, hhandle⟩ | ⟨code, msg, hhandle⟩
      · rw [hhandle]
      · rw [hhandle]
        rfl
  | some stored =>
      obtain ⟨task, _, hhandle⟩ := SendRequest.handle_of_stored hstored
      rw [hhandle]
      simp only [Option.some.injEq]
      split_ifs with hsame haccepted
      · subst hsame
        simp [Server.publishAs, haccepted]
      · subst hsame
        simp [Server.publishAs, haccepted, Server.sendError, Server.sendFrame]
      · have hother : id ≠ stored := fun h => hsame h.symm
        cases accepted <;>
          simp [Server.publishAs, hother, Server.sendError, Server.sendFrame]

theorem event_registry (P : Platform) (cfg : ChatConfig)
    (o : IterOrder Devices.Entry) (clock : Clock) (p : Json) (s : Server) :
    ((machine P cfg).step s (.event o clock p)).registry = s.registry := by
  have hdoes : Server.Does { forgets := True, observes := True } _ s _ :=
    Server.does_onChatMsgSend trivial trivial P o clock p s
  exact hdoes.registry_eq fun _ _ => id

/-- An event takes the entry of its id. -/
theorem lookup_event {P : Platform} {p : Json} {event : ChatMsgSend}
    (hread : ChatMsgSend.read P.json p = .ok event) (cfg : ChatConfig)
    (o : IterOrder Devices.Entry) (clock : Clock) (s : Server) (id : StdString) :
    ((machine P cfg).step s (.event o clock p)).pending.lookup id =
      if id = event.clientMsgId then none else s.pending.lookup id := by
  simp only [machine, Server.pending_onChatMsgSend hread]
  exact KeyMap.lookup_erase_eq _ _ id

/-! Both runs agree on every id that is not disputed. -/

structure Agree (disputed : StdString → Bool) (s t : Server) : Prop where
  registry : t.registry = s.registry
  pending : ∀ id, disputed id = false →
    s.pending.lookup id = t.pending.lookup id

/-- A send is answered the same way in both runs, or its id is disputed. -/
theorem Agree.send {P : Platform} {cfg : ChatConfig} {b : UInt64}
    {disputed : StdString → Bool} {s t : Server} (hagree : Agree disputed s t)
    (request : SendRequest) (accepted acceptedWithout : Bool) :
    Agree ((disputes P cfg b).step disputed
        (.send request accepted acceptedWithout))
      ((machine P cfg).step s (.send request accepted))
      (((Call.send request accepted acceptedWithout).without b).elim t
        ((machine P cfg).step t)) := by
  have hdisputed : ∀ id, (disputes P cfg b).step disputed
        (.send request accepted acceptedWithout) id = false →
      if request.storedId P.json cfg = some id then
        request.uid ≠ b ∧ accepted = acceptedWithout
      else disputed id = false := by
    intro id hid
    simp only [disputes] at hid
    cases hstored : request.storedId P.json cfg with
    | none => simpa [hstored] using hid
    | some stored =>
        rw [hstored] at hid
        by_cases hsame : stored = id
        · subst hsame
          simpa using hid
        · have hother : id ≠ stored := fun h => hsame h.symm
          simpa [hsame, Function.update_of_ne hother] using hid
  refine ⟨?_, fun id hid => ?_⟩
  · rw [send_registry, Call.without_send]
    split_ifs
    · exact hagree.registry
    · exact (send_registry P cfg request acceptedWithout t).trans hagree.registry
  · have hcase := hdisputed id hid
    rw [lookup_send, Call.without_send]
    split_ifs at hcase with hstored
    · obtain ⟨huser, rfl⟩ := hcase
      simp only [huser, hstored, if_true, if_false, Option.elim_some,
        lookup_send]
    · simp only [hstored, if_false]
      split_ifs
      · exact hagree.pending id hcase
      · rw [Option.elim_some, lookup_send, if_neg hstored]
        exact hagree.pending id hcase

theorem Agree.event {P : Platform} {cfg : ChatConfig} {b : UInt64}
    {disputed : StdString → Bool} {s t : Server} (hagree : Agree disputed s t)
    (o : IterOrder Devices.Entry) (clock : Clock) (p : Json) :
    Agree ((disputes P cfg b).step disputed (.event o clock p))
      ((machine P cfg).step s (.event o clock p))
      ((machine P cfg).step t (.event o clock p)) := by
  refine ⟨by rw [event_registry, event_registry, hagree.registry],
    fun id hid => ?_⟩
  simp only [disputes] at hid
  cases hread : ChatMsgSend.read P.json p with
  | error thrown =>
      rw [hread] at hid
      change (s.onChatMsgSend P o clock p).2.pending.lookup id =
        (t.onChatMsgSend P o clock p).2.pending.lookup id
      rw [Server.onChatMsgSend_of_throw hread, Server.onChatMsgSend_of_throw hread]
      exact hagree.pending id hid
  | ok event =>
      rw [hread] at hid
      rw [lookup_event hread, lookup_event hread]
      split_ifs with hsame
      · rfl
      · exact hagree.pending id (by simpa [Function.update_of_ne hsame] using hid)

theorem Agree.sweep {cfg : ChatConfig} {disputed : StdString → Bool}
    {s t : Server} (hagree : Agree disputed s t) (nowMs : Int) :
    Agree disputed (s.sweepPending cfg nowMs) (t.sweepPending cfg nowMs) := by
  refine ⟨hagree.registry, fun id hid => ?_⟩
  simp only [Server.sweepPending, KeyMap.lookup_filterValues,
    hagree.pending id hid]

/-- Runs that agree show A the same. -/
theorem Agree.replies {P : Platform} {a : UInt64} {disputed : StdString → Bool}
    {s t : Server} (hagree : Agree disputed s t) {o : IterOrder Devices.Entry}
    {clock : Clock} {p : Json}
    (hundisputed : Undisputed P a disputed (.event o clock p)) :
    TwoRuns.replies P a s (.event o clock p) =
      TwoRuns.replies P a t (.event o clock p) := by
  simp only [TwoRuns.replies]
  simp only [hagree.registry]
  split_ifs with hconcerns
  · cases hread : ChatMsgSend.read P.json p with
    | error thrown =>
        rw [Server.newFrames_of_throw hread, Server.newFrames_of_throw hread]
    | ok event =>
        have hid := hundisputed hconcerns event (by simp [hread, Except.toOption])
        rw [Server.newFrames_onChatMsgSend hread,
          Server.newFrames_onChatMsgSend hread, hagree.registry,
          hagree.pending _ hid]
  · rfl

/-- If no event of A names an id whose last send was B's or met different
outcomes, A is shown the same with B's sends and without them. -/
theorem replies_eq_of_undisputed (P : Platform) (cfg : ChatConfig)
    (a b : UInt64) (s : Server) (calls : List Call)
    (hundisputed : (disputes P cfg b).Each (Undisputed P a) (fun _ => false)
      calls) :
    (machine P cfg).trace (replies P a) s (calls.filterMap Call.whole) =
      (machine P cfg).trace (replies P a) s
        (calls.filterMap (Call.without b)) := by
  refine Machine.trace_eq_of_related ?_ ⟨rfl, fun _ _ => rfl⟩ hundisputed
    (R := Agree)
  intro disputed s t call hagree hcall
  cases call with
  | send request accepted acceptedWithout =>
      refine ⟨?_, hagree.send request accepted acceptedWithout⟩
      simp only [Call.whole, Call.without_send]
      split_ifs <;> rfl
  | event o clock p => exact ⟨hagree.replies hcall, hagree.event o clock p⟩
  | sweep nowMs => exact ⟨rfl, hagree.sweep nowMs⟩

namespace SendWitness

open Server.FanOutWitness (platform clock registry)

def request (uid : UInt64) (clientMsgId : String) (seq : Int64) : SendRequest :=
  ⟨clock, uid, lit "d1", uid.toNat, true, seq,
    .object [("clientMsgId", .str (lit clientMsgId)),
      ("conversationId", .int 3), ("content", .str (lit "hello"))]⟩

/-- The message of user 1 comes back from the broker. -/
def persisted : Json :=
  .object [("clientMsgId", .str (lit "m1")), ("messageId", .int 5),
    ("senderId", .uint 1), ("receivers", .arr [.uint 2])]

/-- User 1 sends, user 2 sends under the given id, the first message returns. -/
def calls (clientMsgId : String) : List Call :=
  [.send (request 1 "m1" 7) true true, .send (request 2 clientMsgId 9) true true,
    .event (IterOrder.asKept _) clock persisted]

theorem replies_eq_ownIds :
    (machine platform {}).trace (replies platform 1) { registry := registry }
        ((calls "m2").filterMap Call.whole) =
      (machine platform {}).trace (replies platform 1) { registry := registry }
        ((calls "m2").filterMap (Call.without 2)) :=
  replies_eq_of_undisputed platform {} 1 2 { registry := registry } (calls "m2")
    (by decide +kernel)

/-- User 1 is answered with the `seq` of user 2. -/
theorem not_all_replies_eq :
    ¬ ∀ (P : Platform) (cfg : ChatConfig) (a b : UInt64) (s : Server)
      (calls : List Call), a ≠ b → (∀ call ∈ calls, call.Fixed a) →
        (machine P cfg).trace (replies P a) s (calls.filterMap Call.whole) =
          (machine P cfg).trace (replies P a) s
            (calls.filterMap (Call.without b)) := by
  intro hall
  have hsame := congrArg (List.map (List.map fun sent => sent.2.seq))
    (hall platform {} 1 2 { registry := registry } (calls "m1") (by decide)
      (by decide +kernel))
  exact absurd hsame (by decide +kernel)

end SendWitness

end TwoRuns

end FlzChat
