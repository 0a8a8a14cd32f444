/-
Client frames and `WsToMqDispatcher`: what a client sends, and how a send is
kept pending until its persisted message comes back.
-/
import FlzChat.Footprint

namespace FlzChat

structure ClientFrame where
  type : StdString
  hasSeq : Bool := false
  seq : Int64 := 0
  data : Json := .obj []

/-- `Protocol::ParseClientFrame`: what may be thrown, the text left in `err`,
or the frame. -/
def parseClientFrame (P : Platform) (raw : StdString) :
    Except Thrown (Except StdString ClientFrame) :=
  match P.fromString raw with
  | none => .ok (.error (lit "bad json"))
  | some json =>
      if json.isObject = false then .ok (.error (lit "frame must be object"))
      else do
        let type ← json.getString P.json (lit "type")
        if type = [] then return .error (lit "type required")
        let hasSeq ← json.isMember (lit "seq")
        let seqMember ← json.member (lit "seq")
        if hasSeq ∧ seqMember.isInt64 = false ∧ seqMember.isUInt64 = false ∧
            seqMember.isInt = false then
          return .error (lit "seq must be integer")
        let seq ← if hasSeq then P.json.asInt64 seqMember else pure 0
        let hasData ← json.isMember (lit "data")
        let data ← if hasData then json.member (lit "data") else pure (.obj [])
        return .ok ⟨type, hasSeq, seq, data⟩

/-- The fields `HandleMsgSend` reads. -/
structure MsgSend where
  clientMsgId : StdString
  conversationId : Int64
  content : StdString
  sentAt : StdString
  mediaMeta : Json

def MsgSend.read (J : Jsoncpp) (data : Json) : Except Thrown MsgSend := do
  let clientMsgId ← data.getString J (lit "clientMsgId")
  let conversationId ← data.getInt64 J (lit "conversationId")
  let content ← data.getString J (lit "content")
  let sentAt ← data.getString J (lit "sentAt")
  let mediaMeta ← data.member (lit "mediaMeta")
  return ⟨clientMsgId, conversationId, content, sentAt, mediaMeta⟩

/-- The task `HandleMsgSend` publishes. -/
def MsgSend.task (P : Platform) (uid : UInt64) (msg : MsgSend) : Task where
  routingKey := lit "business.msg.persist"
  payload := .object ([("clientMsgId", .str msg.clientMsgId),
    ("conversationId", .int msg.conversationId),
    ("senderId", .uint uid),
    ("type", .int 1),
    ("content", .str msg.content),
    ("sentAt", .str msg.sentAt)] ++
    match msg.mediaMeta with
    | .null => []
    | .str text => [("mediaMeta", .str text)]
    | v => [("mediaMeta", .str (P.toString v))])
  priority := 0

namespace Server

/-- `HandleMsgSend`, given what `MqPublisher::Publish` does. -/
def handleMsgSendWith (P : Platform) (cfg : ChatConfig)
    (publish : Task → Server → Bool × Server) (clock : Clock) (uid : UInt64)
    (did : StdString) (session : SessionId) (hasSeq : Bool) (seq : Int64)
    (data : Json) (s : Server) : Except Thrown Int32 × Server :=
  match MsgSend.read P.json data with
  | .error thrown => (.error thrown, s)
  | .ok msg =>
      let msg := if msg.sentAt = [] then { msg with sentAt := clock.iso8601Now }
        else msg
      if msg.clientMsgId = [] ∨ msg.conversationId ≤ 0 ∨ msg.content = [] then
        (.ok 0, s.sendError session 400 (lit "bad msg.send") hasSeq seq)
      else if cfg.chat.maxTextContentBytes < Int32.ofNat msg.content.length then
        (.ok 0, s.sendError session 413 (lit "content too long") hasSeq seq)
      else
        let stored := { s with
          pending := s.pending.insert msg.clientMsgId
            ⟨uid, did, clock.nowMs, hasSeq, seq⟩ }
        match publish (msg.task P uid) stored with
        | (false, s) =>
            (.ok 0, { s with pending := s.pending.erase msg.clientMsgId }.sendError
              session 503 (lit "mq unavailable") hasSeq seq)
        | (true, s) => (.ok 0, s)

def handleMsgSend (P : Platform) (cfg : ChatConfig) : Clock → UInt64 →
    StdString → SessionId → Bool → Int64 → Json → Server →
    Except Thrown Int32 × Server :=
  handleMsgSendWith P cfg (publish cfg)

def handleMsgAck (P : Platform) (cfg : ChatConfig) (clock : Clock)
    (uid : UInt64) (session : SessionId) (hasSeq : Bool) (seq : Int64)
    (data : Json) (s : Server) : Except Thrown Int32 × Server :=
  match data.getInt64 P.json (lit "messageId") with
  | .error thrown => (.error thrown, s)
  | .ok messageId =>
      if messageId ≤ 0 then
        (.ok 0, s.sendError session 400 (lit "bad msg.ack") hasSeq seq)
      else match s.publish cfg (MqPublisher.msgAckTask clock messageId uid) with
        | (false, s) =>
            (.ok 0, s.sendError session 503 (lit "mq unavailable") hasSeq seq)
        | (true, s) => (.ok 0, s)

/-- `HandleMsgRead` only logs two fields of the request. -/
def handleMsgRead (P : Platform) (data : Json) (s : Server) :
    Except Thrown Int32 × Server :=
  if P.logsInfo = false then (.ok 0, s)
  else match data.getInt64 P.json (lit "conversationId"),
      data.getInt64 P.json (lit "lastReadMessageId") with
    | .ok _, .ok _ => (.ok 0, s)
    | .error thrown, _ => (.error thrown, s)
    | _, .error thrown => (.error thrown, s)

def takePending (clientMsgId : StdString) (s : Server) :
    Option PendingSend × Server :=
  match s.pending.lookup clientMsgId with
  | none => (none, s)
  | some pending =>
      (some pending, { s with pending := s.pending.erase clientMsgId })

end Server

/-- Keep the entries whose value satisfies `keep`. -/
def KeyMap.filterValues {κ υ : Type} (keep : υ → Bool) (m : KeyMap κ υ) :
    KeyMap κ υ :=
  ⟨m.entries.filter fun entry => keep entry.2,
    m.nodupKeys.sublist List.filter_sublist⟩

theorem KeyMap.lookup_filterValues {κ υ : Type} [DecidableEq κ]
    (keep : υ → Bool) (m : KeyMap κ υ) (key : κ) :
    (m.filterValues keep).lookup key = (m.lookup key).filter keep := by
  apply Option.ext
  intro value
  rw [Option.filter_eq_some_iff]
  have hfiltered : (m.filterValues keep).lookup key = some value ↔
      (⟨key, value⟩ : Sigma fun _ : κ => υ) ∈ (m.filterValues keep).entries :=
    AList.mem_lookup_iff
  have hkept : m.lookup key = some value ↔
      (⟨key, value⟩ : Sigma fun _ : κ => υ) ∈ m.entries :=
    AList.mem_lookup_iff
  rw [hfiltered, hkept]
  simp [KeyMap.filterValues]

/-- `SweepPending`: drop the entries older than the time to live. -/
def Server.sweepPending (cfg : ChatConfig) (nowMs : Int) (s : Server) : Server :=
  let deadline := nowMs - cfg.chat.pendingSendTtlSeconds.toInt * 1000
  { s with pending := s.pending.filterValues fun p => !decide (p.createdMs ≤ deadline) }

@[simp]
theorem actor?_msgSend (P : Platform) (uid : UInt64) (msg : MsgSend) :
    (msg.task P uid).actor? = some uid := by
  simp [Task.actor?, MsgSend.task, Json.object, Json.find, List.lookup_cons]

/-- What a client frame may touch; of the registry, what is said. -/
def Scope.ofFrame (cfg : ChatConfig) (clock : Clock)
    (registers : SessionRegistry → SessionRegistry → Prop) : Scope where
  room := toSizeT cfg.rabbitmq.publisherQueueCapacity
  publishes task := ∀ u, task.presence? u = none
  keeps entry := entry.createdMs = clock.nowMs
  forgets := True
  registers := registers

namespace Server

/-! What a client frame can be answered with. -/

/-- The answers a client frame can get: nothing, an error, a pong, or a task
for the broker in the name of its user. -/
inductive Answers (uid : UInt64) (session : SessionId) : List Effect → Prop where
  | silence : Answers uid session []
  | error (code : Int64) (msg : StdString) (hasSeq : Bool) (seq : Int64) :
      Answers uid session
        [.now (.sendFrame session (errorFrame code msg hasSeq seq))]
  | pong (ts : Json) (hasSeq : Bool) (seq : Int64) :
      Answers uid session
        [.now (.sendFrame session
          ⟨lit "pong", .object [("ts", ts)], hasSeq, seq⟩),
          .now (.incWsOut (lit "pong"))]
  | task (task : Task) (hactor : task.actor? = some uid) :
      Answers uid session [.enqueued task]

/-- Only the session is spoken to. -/
theorem Answers.session_of_mem_frames {uid : UInt64} {session : SessionId}
    {said : List Effect} (hanswers : Answers uid session said)
    {sent : SessionId × Frame} (hsent : sent ∈ said.flatMap Effect.frames) :
    sent.1 = session := by
  cases hanswers with
  | silence => contradiction
  | error code msg hasSeq seq =>
      simp only [List.flatMap_cons, List.flatMap_nil, Effect.frames,
        Action.frame?, Option.toList, List.append_nil, List.mem_singleton] at hsent
      rw [hsent]
  | pong ts hasSeq seq =>
      simp only [List.flatMap_cons, List.flatMap_nil, Effect.frames,
        Action.frame?, Option.toList, List.append_nil, List.mem_singleton] at hsent
      rw [hsent]
  | task task hactor => simp [Effect.frames] at hsent

theorem Answers.actor_of_mem {uid : UInt64} {session : SessionId}
    {said : List Effect} (hanswers : Answers uid session said) {task : Task}
    (htask : Effect.enqueued task ∈ said) : task.actor? = some uid := by
  cases hanswers with
  | task other hactor =>
      rw [List.mem_singleton, Effect.enqueued.injEq] at htask
      rw [htask]
      exact hactor
  | _ => simp at htask

/-- The work within the scope is one of the answers. -/
def Answered (scope : Scope) (uid : UInt64) (session : SessionId)
    (s s' : Server) : Prop :=
  ∃ said, Does scope said s s' ∧ Answers uid session said

section

variable {scope : Scope} {uid : UInt64} {session : SessionId}

theorem Does.answered {s s' : Server} (hdoes : Does scope [] s s') :
    Answered scope uid session s s' :=
  ⟨[], hdoes, .silence⟩

theorem Does.then_answered {s₁ s₂ s₃ : Server} (hfirst : Does scope [] s₁ s₂)
    (hanswered : Answered scope uid session s₂ s₃) :
    Answered scope uid session s₁ s₃ := by
  obtain ⟨said, hlater, hanswers⟩ := hanswered
  exact ⟨said, hfirst.after hlater, hanswers⟩

theorem answered_error (code : Int64) (msg : StdString) (hasSeq : Bool)
    (seq : Int64) (s : Server) :
    Answered scope uid session s (s.sendError session code msg hasSeq seq) :=
  ⟨_, does_sendError session code msg hasSeq seq s, .error code msg hasSeq seq⟩

/-- A publish that is taken back and answered with 503 where it is refused. -/
theorem answered_publish {cfg : ChatConfig} {task : Task}
    (hroom : toSizeT cfg.rabbitmq.publisherQueueCapacity ≤ scope.room)
    (hmay : scope.publishes task) (hactor : task.actor? = some uid)
    {takeBack : Server → Server} (htaken : ∀ s, Does scope [] s (takeBack s))
    (hasSeq : Bool) (seq : Int64) (s : Server) :
    Answered scope uid session s
      (match s.publish cfg task with
        | (false, s) => ((.ok 0, (takeBack s).sendError session 503
            (lit "mq unavailable") hasSeq seq) : Except Thrown Int32 × Server)
        | (true, s) => (.ok 0, s)).2 := by
  rw [publish_eq_publishAs]
  by_cases haccepting : s.Accepting cfg
  · simp only [haccepting, decide_true, publishAs, if_true]
    exact ⟨_, .enqueue task s hmay (lt_of_lt_of_le haccepting hroom),
      .task task hactor⟩
  · simp only [haccepting, decide_false, publishAs, if_false, Bool.false_eq_true]
    have hcounted : Does scope [] s { s with
        metrics := s.metrics.incMqPublish task.routingKey (lit "fail") } :=
      .count _ s rfl rfl
    exact hcounted.then_answered
      ((htaken _).then_answered (answered_error 503 _ hasSeq seq _))

/-- `HandleMsgSend` keeps a send of now, and takes it back where it is refused. -/
theorem answered_handleMsgSend (P : Platform) {cfg : ChatConfig} {clock : Clock}
    (hroom : toSizeT cfg.rabbitmq.publisherQueueCapacity ≤ scope.room)
    (hpublishes : ∀ task, (∀ u, task.presence? u = none) → scope.publishes task)
    (hkeeps : ∀ entry, entry.createdMs = clock.nowMs → scope.keeps entry)
    (hforgets : scope.forgets) (did : StdString) (hasSeq : Bool) (seq : Int64)
    (data : Json) (s : Server) :
    Answered scope uid session s
      (s.handleMsgSend P cfg clock uid did session hasSeq seq data).2 := by
  simp only [handleMsgSend, handleMsgSendWith]
  cases MsgSend.read P.json data with
  | error thrown => exact (Does.nothing s).answered
  | ok msg =>
      simp only
      generalize (if msg.sentAt = [] then { msg with sentAt := clock.iso8601Now }
        else msg) = msg
      split_ifs
      · exact answered_error 400 _ hasSeq seq s
      · exact answered_error 413 _ hasSeq seq s
      · have hsilent := presence?_eq_none (msg.task P uid)
          (by simp [MsgSend.task]) (by simp [MsgSend.task])
        exact (Does.keep msg.clientMsgId _ s (hkeeps _ rfl)).then_answered
          (answered_publish hroom (hpublishes _ hsilent) (actor?_msgSend P uid msg)
            (does_erase hforgets msg.clientMsgId) hasSeq seq _)

theorem answered_handleMsgAck (P : Platform) {cfg : ChatConfig}
    (hroom : toSizeT cfg.rabbitmq.publisherQueueCapacity ≤ scope.room)
    (hpublishes : ∀ task, (∀ u, task.presence? u = none) → scope.publishes task)
    (clock : Clock) (hasSeq : Bool) (seq : Int64) (data : Json) (s : Server) :
    Answered scope uid session s
      (s.handleMsgAck P cfg clock uid session hasSeq seq data).2 := by
  simp only [handleMsgAck]
  cases data.getInt64 P.json (lit "messageId") with
  | error thrown => exact (Does.nothing s).answered
  | ok messageId =>
      have hsilent := presence?_eq_none (MqPublisher.msgAckTask clock messageId uid)
        (by simp [MqPublisher.msgAckTask]) (by simp [MqPublisher.msgAckTask])
      simp only
      split_ifs
      · exact answered_error 400 _ hasSeq seq s
      · have htaken : ∀ s : Server, Does scope [] s (id s) := fun s => .nothing s
        exact answered_publish hroom (hpublishes _ hsilent)
          (actor?_msgAckTask clock messageId uid) htaken hasSeq seq s

theorem does_handleMsgRead (P : Platform) (data : Json) (s : Server) :
    Does scope [] s (s.handleMsgRead P data).2 := by
  simp only [handleMsgRead]
  split_ifs
  · exact .nothing s
  · split <;> exact .nothing s

theorem does_sweepPending (hforgets : scope.forgets) (cfg : ChatConfig)
    (nowMs : Int) (s : Server) : Does scope [] s (s.sweepPending cfg nowMs) := by
  refine .forget _ s hforgets fun id entry hlookup => ?_
  rw [KeyMap.lookup_filterValues, Option.filter_eq_some_iff] at hlookup
  exact hlookup.1

end

end Server

end FlzChat
