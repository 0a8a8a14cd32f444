/-
What becomes of a send.  A send the publisher accepts is kept under the id its
client has chosen and leaves the map once: answered, replaced by a later send of
the same id, discarded with a retry that is refused, or swept.
-/
import FlzChat.Audience
import FlzChat.LatencyClock
import FlzChat.SendInterference

namespace FlzChat

namespace KeyMap

variable {κ υ : Type}

/-- The entries as pairs. -/
def pairs (m : KeyMap κ υ) : List (κ × υ) :=
  m.entries.map fun entry => (entry.1, entry.2)

/-- What is found under a key, with the key. -/
def found [DecidableEq κ] (m : KeyMap κ υ) (key : κ) : List (κ × υ) :=
  (m.lookup key).toList.map fun value => (key, value)

/-- Erasing takes out what is found under the key. -/
theorem perm_erase [DecidableEq κ] (m : KeyMap κ υ) (key : κ) :
    (pairs m).Perm (found m key ++ pairs (m.erase key)) := by
  by_cases hkey : key ∈ m.entries.keys
  · obtain ⟨value, before, after, hbefore, hentries, herased⟩ :=
      List.exists_of_kerase hkey
    have hlookup : m.lookup key = some value := by
      refine AList.mem_lookup_iff.mpr ?_
      rw [hentries]
      simp
    have herased' : (m.erase key).entries = before ++ after := herased
    rw [pairs, pairs, found, hlookup, hentries, herased']
    simp only [Option.toList, List.map_cons, List.map_nil, List.map_append,
      List.singleton_append]
    exact List.perm_middle
  · have hlookup : m.lookup key = none := by
      rw [AList.lookup_eq_none]
      exact hkey
    have herased : (m.erase key).entries = m.entries :=
      List.kerase_of_notMem_keys hkey
    rw [pairs, pairs, found, hlookup, herased]
    exact List.Perm.refl _

/-- Inserting puts the entry in the place of what is found under the key. -/
theorem perm_insert [DecidableEq κ] (m : KeyMap κ υ) (key : κ) (value : υ) :
    ((key, value) :: pairs m).Perm (found m key ++ pairs (m.insert key value)) := by
  have hinserted : pairs (m.insert key value) =
      (key, value) :: pairs (m.erase key) := by
    rw [pairs, AList.entries_insert]
    rfl
  rw [hinserted]
  exact ((perm_erase m key).cons _).trans List.perm_middle.symm

/-- A sweep parts the entries. -/
theorem perm_filterValues (m : KeyMap κ υ) (keep : υ → Bool) :
    (pairs m).Perm ((pairs m).filter (fun entry => !keep entry.2) ++
      pairs (m.filterValues keep)) := by
  have hkept : pairs (m.filterValues keep) =
      (pairs m).filter fun entry => keep entry.2 := by
    simp only [pairs, filterValues, List.filter_map]
    rfl
  rw [hkept]
  refine (List.filter_append_perm (fun entry => keep entry.2) (pairs m)).symm.trans ?_
  exact List.perm_append_comm

end KeyMap

namespace Server

/-- The send a frame makes `HandleMsgSend` handle. -/
def request? (P : Platform) (cfg : ChatConfig) (clock : Clock) (uid : UInt64)
    (did : StdString) (session : SessionId) (isText : Bool) (data : StdString)
    (s : Server) : Option SendRequest :=
  if isText = false ∨ (s.spendToken cfg clock.nowMs uid did).1 = false then none
  else match parseClientFrame P data with
    | .ok (.ok frame) =>
        if frame.type = lit "msg.send" then
          some ⟨clock, uid, did, session, frame.hasSeq, frame.seq, frame.data⟩
        else none
    | _ => none

/-- The pending map once a request has been handled: a send that passes the
checks is kept, and taken back where `Publish` refuses its task. -/
def keep (J : Jsoncpp) (cfg : ChatConfig) (s : Server) (request : SendRequest) :
    KeyMap StdString PendingSend :=
  match request.storedId J cfg with
  | none => s.pending
  | some id =>
      if s.Accepting cfg then s.pending.insert id request.entry
      else s.pending.erase id

theorem keep_congr (J : Jsoncpp) (cfg : ChatConfig) {s s' : Server}
    (hpending : s'.pending = s.pending) (hqueue : s'.queue = s.queue)
    (request : SendRequest) :
    s'.keep J cfg request = s.keep J cfg request := by
  have haccepting : s'.Accepting cfg ↔ s.Accepting cfg := by
    rw [Accepting, Accepting, hqueue]
  simp only [keep]
  cases request.storedId J cfg with
  | none => exact hpending
  | some id =>
      rw [hpending]
      exact if_congr haccepting rfl rfl

theorem pending_handleSend (P : Platform) (cfg : ChatConfig)
    (request : SendRequest) (s : Server) :
    (request.handle P cfg (publish cfg) s).2.pending =
      s.keep P.json cfg request := by
  rw [keep]
  cases hstored : request.storedId P.json cfg with
  | none =>
      rcases SendRequest.handle_of_not_stored hstored with
        ⟨thrown, hhandle⟩ | ⟨code, msg, hhandle⟩
      · rw [hhandle]
      · rw [hhandle]
        rfl
  | some id =>
      obtain ⟨task, _, hhandle⟩ := SendRequest.handle_of_stored hstored
      rw [hhandle, publish_eq_publishAs]
      by_cases haccepting : s.Accepting cfg
      · have hstill : Accepting cfg
            { s with pending := s.pending.insert id request.entry } := haccepting
        simp [publishAs, haccepting, hstill]
      · have hstill : ¬ Accepting cfg
            { s with pending := s.pending.insert id request.entry } := haccepting
        simp only [publishAs, haccepting, hstill, decide_false, if_false,
          Bool.false_eq_true]
        apply AList.ext
        change List.kerase id (s.pending.insert id request.entry).entries =
          List.kerase id s.pending.entries
        rw [AList.entries_insert]
        exact List.kerase_cons_eq rfl

theorem pending_dispatchFrame (P : Platform) (cfg : ChatConfig) (clock : Clock)
    (uid : UInt64) (did : StdString) (session : SessionId) (frame : ClientFrame)
    (s : Server) :
    (s.dispatchFrame P cfg clock uid did session frame).2.pending =
      if frame.type = lit "msg.send" then
        s.keep P.json cfg ⟨clock, uid, did, session, frame.hasSeq, frame.seq,
          frame.data⟩
      else s.pending := by
  simp only [dispatchFrame]
  split_ifs with hping hsend hack hread hbye
  · rw [hping, lit_inj] at hsend
    exact absurd hsend (by decide)
  · split <;> rfl
  · exact pending_handleSend P cfg
      ⟨clock, uid, did, session, frame.hasSeq, frame.seq, frame.data⟩
      { s with metrics := s.metrics.incWsIn frame.type }
  · let publishing : Scope :=
      { room := toSizeT cfg.rabbitmq.publisherQueueCapacity
        publishes := fun _ => True }
    obtain ⟨_, hdoes, _⟩ : Answered publishing uid session _ _ :=
      answered_handleMsgAck P le_rfl (fun _ _ => trivial) clock frame.hasSeq
        frame.seq frame.data { s with metrics := s.metrics.incWsIn frame.type }
    exact hdoes.pending_eq (fun _ => id) id
  · have hdoes : Does {} _ _ _ := does_handleMsgRead P frame.data
      { s with metrics := s.metrics.incWsIn frame.type }
    exact hdoes.pending_eq (fun _ => id) id
  · rfl
  · rfl

/-- A frame of an identified request changes the map by the send it carries. -/
theorem pending_handle {P : Platform} (cfg : ChatConfig) (clock : Clock)
    {request : HttpRequest} {uid : UInt64} {did : StdString}
    (hidentity : identity P request = (uid, did)) (huid : uid ≠ 0)
    (hdid : did ≠ []) (isText : Bool) (data : StdString) (session : SessionId)
    (s : Server) :
    (s.handle P cfg clock request isText data session).2.pending =
      (s.request? P cfg clock uid did session isText data).elim s.pending
        (s.keep P.json cfg) := by
  have hspent : (s.spendToken cfg clock.nowMs uid did).2.pending = s.pending ∧
      (s.spendToken cfg clock.nowMs uid did).2.queue = s.queue := by
    have hdoes : Does { registers := fun _ _ => True } _ s _ :=
      does_spendToken (fun _ _ _ => trivial) cfg clock.nowMs uid did s
    exact ⟨hdoes.pending_eq (fun _ => id) id, hdoes.queue_eq fun _ => id⟩
  simp only [handle, request?]
  rw [hidentity]
  cases isText with
  | false => simp [sendError, sendFrame]
  | true =>
      simp only [Bool.true_eq_false, huid, hdid, or_self, if_false, false_or]
      generalize s.spendToken cfg clock.nowMs uid did = spent at hspent
      obtain ⟨_ | _, s'⟩ := spent
      · simpa [sendError, sendFrame] using hspent.1
      · simp only [Bool.true_eq_false, if_false]
        rcases parseClientFrame P data with thrown | err | frame
        · exact hspent.1
        · exact hspent.1
        · simp only [pending_dispatchFrame]
          split_ifs
          · exact keep_congr P.json cfg hspent.1 hspent.2 _
          · exact hspent.1

/-- No event but a persisted message takes a send. -/
theorem pending_onEnvelope (P : Platform) (o : IterOrder Devices.Entry)
    (clock : Clock) (env : Envelope) (s : Server) :
    (s.onEnvelope P o clock env).2.pending =
      if env.type = lit "chat.msg.send" then
        match ChatMsgSend.read P.json env.payload with
        | .error _ => s.pending
        | .ok event => s.pending.erase event.clientMsgId
      else s.pending := by
  by_cases htype : env.type = lit "chat.msg.send"
  · simp only [onEnvelope, htype, if_true]
    cases hread : ChatMsgSend.read P.json env.payload with
    | error thrown => rw [onChatMsgSend_of_throw hread]
    | ok event => exact pending_onChatMsgSend hread o clock s
  · have hdoes : Does {} _ s _ :=
      does_onEnvelope env (fun hsend => absurd hsend htype) P o clock s
    rw [if_neg htype]
    exact hdoes.pending_eq (fun _ => id) id

end Server

/-- How a send leaves the pending map. -/
inductive Fate where
  | answered
  | replaced
  | discarded
  | swept
deriving DecidableEq

namespace Hub

/-- The send an event makes `HandleMsgSend` handle. -/
def asked (P : Platform) (cfg : ChatConfig) (hub : Hub) :
    Event → Option SendRequest
  | .frame session clock isText data =>
      (hub.login? session).bind fun login =>
        hub.server.request? P cfg clock login.userId login.deviceId session isText
          data
  | _ => none

/-- The send an event adds to the pending map, under its id. -/
def kept (P : Platform) (cfg : ChatConfig) (hub : Hub) (e : Event) :
    List (StdString × SendRequest) :=
  match asked P cfg hub e with
  | none => []
  | some request =>
      match request.storedId P.json cfg with
      | none => []
      | some id => if hub.server.Accepting cfg then [(id, request)] else []

/-- The entry of a send. -/
def entryOf (one : StdString × SendRequest) : StdString × PendingSend :=
  (one.1, one.2.entry)

/-- The entries an event takes out of the pending map, and why. -/
def departed (P : Platform) (cfg : ChatConfig) (hub : Hub) (e : Event) :
    List (Fate × StdString × PendingSend) :=
  match e with
  | .frame _ _ _ _ =>
      match (asked P cfg hub e).bind (·.storedId P.json cfg) with
      | none => []
      | some id => (KeyMap.found hub.server.pending id).map fun entry =>
          (if hub.server.Accepting cfg then .replaced else .discarded, entry)
  | .envelope _ _ env =>
      if env.type = lit "chat.msg.send" then
        match ChatMsgSend.read P.json env.payload with
        | .error _ => []
        | .ok event => (KeyMap.found hub.server.pending event.clientMsgId).map
            fun entry => (.answered, entry)
      else []
  | .timer nowMs =>
      ((KeyMap.pairs hub.server.pending).filter fun entry =>
        decide (entry.2.createdMs ≤
          nowMs - cfg.chat.pendingSendTtlSeconds.toInt * 1000)).map
        fun entry => (.swept, entry)
  | _ => []

/-- The sends that wait for their answer. -/
def waiting (hub : Hub) : List (StdString × PendingSend) :=
  KeyMap.pairs hub.server.pending

section

variable {P : Platform} {cfg : ChatConfig} {hub : Hub}

theorem perm_of_pending_eq {e : Event} (hkept : kept P cfg hub e = [])
    (hdeparted : departed P cfg hub e = [])
    (hsame : ((machine P cfg).step hub e).server.pending = hub.server.pending) :
    ((kept P cfg hub e).map entryOf ++ hub.waiting).Perm
      ((departed P cfg hub e).map (·.2) ++
        ((machine P cfg).step hub e).waiting) := by
  rw [hkept, hdeparted, waiting, waiting, hsame]
  exact List.Perm.refl _

theorem map_found_snd (fate : Fate) (m : KeyMap StdString PendingSend)
    (id : StdString) :
    ((KeyMap.found m id).map fun entry => (fate, entry)).map (·.2) =
      KeyMap.found m id := by
  rw [List.map_map]
  exact List.map_id _

/-- A send that is kept takes the place of an earlier one of the same id; one
that is refused takes it out. -/
theorem perm_frame (hsound : Sound P hub) {login : Login}
    (hmem : login ∈ hub.opened) (clock : Clock) (isText : Bool)
    (data : StdString) :
    let e := Event.frame login.session clock isText data
    ((kept P cfg hub e).map entryOf ++ hub.waiting).Perm
      ((departed P cfg hub e).map (·.2) ++
        ((machine P cfg).step hub e).waiting) := by
  intro e
  obtain ⟨hidentity, huser, hdevice⟩ := hsound.identified login hmem
  have hasked : asked P cfg hub e = hub.server.request? P cfg clock login.userId
      login.deviceId login.session isText data := by
    simp only [e, asked, hsound.login?_of_mem hmem, Option.bind_some]
  have hpending : ((machine P cfg).step hub e).server.pending =
      (asked P cfg hub e).elim hub.server.pending
        (hub.server.keep P.json cfg) := by
    rw [hasked, hsound.step_frame hmem]
    exact Server.pending_handle cfg clock hidentity huser hdevice isText data
      login.session hub.server
  cases hrequest : asked P cfg hub e with
  | none =>
      refine perm_of_pending_eq (by simp [kept, hrequest]) ?_
        (by rw [hpending, hrequest]; rfl)
      simp only [e] at hrequest
      simp [e, departed, hrequest]
  | some request =>
      rw [hrequest, Option.elim_some, Server.keep] at hpending
      have hdeparted : departed P cfg hub e =
          match request.storedId P.json cfg with
          | none => []
          | some id => (KeyMap.found hub.server.pending id).map fun entry =>
              (if hub.server.Accepting cfg then .replaced else .discarded,
                entry) := by
        simp only [e] at hrequest
        simp only [e, departed, hrequest, Option.bind_some]
      simp only [kept, hrequest, hdeparted, waiting]
      cases hstored : request.storedId P.json cfg with
      | none =>
          rw [hstored] at hpending
          rw [hpending]
          exact List.Perm.refl _
      | some id =>
          rw [hstored] at hpending
          simp only at hpending
          simp only [map_found_snd]
          by_cases haccepting : hub.server.Accepting cfg
          · rw [if_pos haccepting] at hpending
            rw [if_pos haccepting, hpending]
            exact KeyMap.perm_insert hub.server.pending id request.entry
          · rw [if_neg haccepting] at hpending
            rw [if_neg haccepting, hpending]
            exact KeyMap.perm_erase hub.server.pending id

/-- What an event keeps and what was waiting is what it takes out and what
waits afterwards. -/
theorem perm_step (hsound : Sound P hub) {e : Event}
    (henabled : (machine P cfg).enabled hub e) :
    ((kept P cfg hub e).map entryOf ++ hub.waiting).Perm
      ((departed P cfg hub e).map (·.2) ++
        ((machine P cfg).step hub e).waiting) := by
  cases e with
  | connect clock o iom request session =>
      exact perm_of_pending_eq rfl rfl
        ((does_step P cfg hub (by simp)).pending_eq (fun _ => id) id)
  | close session =>
      exact perm_of_pending_eq rfl rfl
        ((does_step P cfg hub (by simp)).pending_eq (fun _ => id) id)
  | frame session clock isText data =>
      obtain ⟨⟨login, hmem, rfl⟩, _⟩ := henabled
      exact perm_frame hsound hmem clock isText data
  | envelope o clock env =>
      have hpending := Server.pending_onEnvelope P o clock env hub.server
      simp only [kept, asked, departed, List.map_nil, List.nil_append, waiting,
        machine]
      rw [hpending]
      split_ifs
      · cases ChatMsgSend.read P.json env.payload with
        | error thrown => exact List.Perm.refl _
        | ok event =>
            simp only [map_found_snd]
            exact KeyMap.perm_erase hub.server.pending event.clientMsgId
      · exact List.Perm.refl _
  | timer nowMs =>
      have hsweep := KeyMap.perm_filterValues hub.server.pending fun p =>
        !decide (p.createdMs ≤
          nowMs - cfg.chat.pendingSendTtlSeconds.toInt * 1000)
      have hdoes : Server.Does {} _ hub.server _ :=
        Server.does_foldl (fun s conn => Server.does_closeSessionOnOwner conn s)
          (hub.server.registry.collectTimeouted
            (nowMs - cfg.chat.heartbeatTimeoutSeconds.toInt * 1000)) hub.server
      have hclosed := hdoes.pending_eq (fun _ => id) id
      simp only [kept, asked, departed, List.map_nil, List.nil_append, waiting,
        machine, Server.onTimer, Server.sweepPending, hclosed, List.map_map,
        Function.comp_def, List.map_id']
      simpa only [Bool.not_not] using hsweep
  | drain => exact perm_of_pending_eq rfl rfl rfl

theorem perm_run (P : Platform) (cfg : ChatConfig) (es : List Event)
    (hadm : (machine P cfg).Admissible {} es) :
    (((machine P cfg).trace (kept P cfg) {} es).map entryOf).Perm
      (((machine P cfg).trace (departed P cfg) {} es).map (·.2) ++
        ((machine P cfg).run {} es).waiting) := by
  have hconserved : ((machine P cfg).trace
      (fun hub e => (kept P cfg hub e).map entryOf) {} es ++ waiting {}).Perm
        ((machine P cfg).trace
          (fun hub e => (departed P cfg hub e).map (·.2)) {} es ++
            waiting ((machine P cfg).run {} es)) :=
    Machine.conserved_run (sound_step P cfg)
      (fun hub e hsound henabled => perm_step hsound henabled) (sound_initial P)
      hadm
  rw [Machine.trace_map, Machine.trace_map] at hconserved
  have hempty : waiting {} = [] := rfl
  rwa [hempty, List.append_nil] at hconserved

/-- Every send that has been kept is waiting or has left the map once. -/
theorem sends_conserved (P : Platform) (cfg : ChatConfig) (es : List Event)
    (hadm : (machine P cfg).Admissible {} es) :
    (((machine P cfg).trace (kept P cfg) {} es).map entryOf).Perm
      (((machine P cfg).trace (departed P cfg) {} es).map (·.2) ++
        ((machine P cfg).run {} es).waiting) :=
  perm_run P cfg es hadm

end

namespace PendingSendsWitness

open HubWitness (cfg)
open LatencyClockWitness (platform forward)

theorem sends_conserved_forward :
    (((machine platform cfg).trace (kept platform cfg) {} forward).map
      entryOf).Perm
        (((machine platform cfg).trace (departed platform cfg) {} forward).map
          (·.2) ++ ((machine platform cfg).run {} forward).waiting) :=
  sends_conserved platform cfg forward (by decide +kernel)

end PendingSendsWitness

end Hub

end FlzChat
