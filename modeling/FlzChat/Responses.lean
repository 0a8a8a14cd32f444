/-
Answers to sends.  The responses of a run are matched with persisted messages it
has read and with sends it has kept: none is sent twice for one send, and each
goes to a connection of the user the message names as its sender, on the device
that asked.  Whether that user has sent it is not compared.
-/
import FlzChat.PendingSends

namespace FlzChat

/-- A frame that answers a send. -/
def Frame.IsResp (frame : Frame) : Prop :=
  frame.type = lit "msg.send.resp"

instance (frame : Frame) : Decidable frame.IsResp :=
  inferInstanceAs (Decidable (frame.type = lit "msg.send.resp"))

theorem not_isResp_of_type {frame : Frame} {type : String}
    (htype : frame.type = lit type) (hne : type ≠ "msg.send.resp") :
    ¬ frame.IsResp := by
  rw [Frame.IsResp, htype, lit_inj]
  exact hne

/-- The answers among the frames that have been sent. -/
def respsOf (sent : List (SessionId × Frame)) : List (SessionId × Frame) :=
  sent.filter fun one => decide one.2.IsResp

theorem respsOf_eq_nil {sent : List (SessionId × Frame)}
    (hnone : ∀ one ∈ sent, ¬ one.2.IsResp) : respsOf sent = [] := by
  rw [respsOf, List.filter_eq_nil_iff]
  intro one hone
  simpa using hnone one hone

namespace SessionRegistry

/-- Of a user's connections one at most belongs to a device: the one found
under it. -/
theorem Separated.filter_device {r : SessionRegistry} (hr : r.Separated)
    (o : IterOrder Devices.Entry) (uid : UInt64) (did : StdString) :
    (r.getByUser o uid).filter (fun conn => decide (conn.deviceId = did)) =
      (r.get uid did).toList := by
  have hfound : ∀ conn ∈ r.getByUser o uid, conn.deviceId = did →
      r.get uid did = some conn := by
    intro conn hmem hdevice
    obtain ⟨d, hget⟩ := mem_getByUser.mp hmem
    rwa [← hdevice, (hr.keyed hget).2]
  cases hget : r.get uid did with
  | none =>
      rw [Option.toList_none, List.filter_eq_nil_iff]
      intro conn hmem hdevice
      have hsome := hfound conn hmem (by simpa using hdevice)
      rw [hget] at hsome
      contradiction
  | some c =>
      have hsame : ∀ conn ∈ r.getByUser o uid,
          decide (conn.deviceId = did) = decide (conn = c) := by
        intro conn hmem
        rw [decide_eq_decide]
        constructor
        · intro hdevice
          have hsome := hfound conn hmem hdevice
          rw [hget] at hsome
          exact (Option.some.inj hsome).symm
        · rintro rfl
          exact (hr.keyed hget).2
      have hcount := List.count_eq_one_of_mem (hr.nodup_getByUser o uid)
        (mem_getByUser.mpr ⟨did, hget⟩)
      rw [List.filter_congr hsame, List.filter_eq, hcount]
      rfl

end SessionRegistry

namespace Push

theorem Plain.not_isResp {push : Push} (hplain : push.Plain) (conn : OnlineConn) :
    ¬ (push.frame conn).IsResp := by
  intro hresp
  have htype := hplain conn
  rw [hresp] at htype
  exact absurd htype (by decide)

theorem respsOf_pushEffects {o : IterOrder Devices.Entry}
    {r : SessionRegistry} {pushes : List Push}
    (hplain : ∀ push ∈ pushes, push.Plain) :
    respsOf ((Server.pushEffects o r pushes).flatMap Effect.frames) =
      [] := by
  apply respsOf_eq_nil
  intro one hone
  rw [Server.pushEffects, List.flatMap_assoc] at hone
  obtain ⟨push, hpush, hone⟩ := List.mem_flatMap.mp hone
  rw [frames_effects] at hone
  obtain ⟨conn, _, rfl⟩ := List.mem_map.mp hone
  exact (hplain push hpush).not_isResp conn

end Push

namespace Server

/-- A pending send is answered on the connection its device has at the time. -/
theorem respsOf_senderFrame {r : SessionRegistry} (hr : r.Separated)
    (o : IterOrder Devices.Entry) (event : ChatMsgSend) (p : Json)
    (pending : PendingSend) :
    respsOf (r.sends o event.senderId (senderFrame event p pending)) =
      (r.get event.senderId pending.senderDeviceId).toList.map fun conn =>
        (conn.session, event.resp pending) := by
  have hresp : ∀ conn, decide (senderFrame event p pending conn).IsResp =
      decide (conn.deviceId = pending.senderDeviceId) := by
    intro conn
    rw [decide_eq_decide, senderFrame]
    by_cases hdevice : conn.deviceId = pending.senderDeviceId
    · simp only [hdevice, if_true, iff_true]
      rfl
    · simp only [hdevice, if_false, iff_false]
      exact not_isResp_of_type rfl (by decide)
  rw [respsOf, SessionRegistry.sends, List.filter_map, ← hr.filter_device o]
  simp only [Function.comp_def, hresp]
  apply List.map_congr_left
  intro conn hconn
  have hdevice : conn.deviceId = pending.senderDeviceId := by
    simpa using (List.mem_filter.mp hconn).2
  simp only [senderFrame, hdevice, if_true]

/-- The answer to a send is the only one of its event. -/
theorem respsOf_onChatMsgSend {P : Platform} {r : SessionRegistry}
    (hr : r.Separated) (o : IterOrder Devices.Entry) {p : Json}
    {event : ChatMsgSend} (hread : ChatMsgSend.read P.json p = .ok event)
    (pending : Option PendingSend) :
    respsOf ((pushEffects o r (Push.ofChatMsgSend P pending p)).flatMap
      Effect.frames) =
        (pending.toList.flatMap fun pending =>
          (r.get event.senderId pending.senderDeviceId).toList.map fun conn =>
            (conn.session, event.resp pending)) := by
  obtain ⟨later, hpushes, hplain⟩ := Push.ofChatMsgSend_of_read hread pending
  have hlater := Push.respsOf_pushEffects (o := o) (r := r) hplain
  rw [hpushes]
  simp only [pushEffects, List.flatMap_append, respsOf,
    List.filter_append] at hlater ⊢
  rw [hlater, List.append_nil]
  cases pending with
  | none => rfl
  | some pending =>
      simp only [Option.toList_some, List.map_cons, List.map_nil,
        List.flatMap_cons, List.flatMap_nil, List.append_nil, Push.frames_effects]
      exact respsOf_senderFrame hr o event p pending

theorem Answers.not_isResp {uid : UInt64} {session : SessionId}
    {said : List Effect} (hanswers : Answers uid session said)
    {sent : SessionId × Frame} (hsent : sent ∈ said.flatMap Effect.frames) :
    ¬ sent.2.IsResp := by
  cases hanswers with
  | silence => contradiction
  | error code msg hasSeq seq =>
      simp only [List.flatMap_cons, List.flatMap_nil, Effect.frames,
        Action.frame?, Option.toList, List.append_nil, List.mem_singleton] at hsent
      rw [hsent]
      exact not_isResp_of_type rfl (by decide)
  | pong ts hasSeq seq =>
      simp only [List.flatMap_cons, List.flatMap_nil, Effect.frames,
        Action.frame?, Option.toList, List.append_nil, List.mem_singleton] at hsent
      rw [hsent]
      exact not_isResp_of_type rfl (by decide)
  | task task hactor => simp [Effect.frames] at hsent

end Server

namespace Hub

/-- The answers to sends an event makes the server send. -/
def responses (P : Platform) (cfg : ChatConfig) (hub : Hub) (e : Event) :
    List (SessionId × Frame) :=
  respsOf ((deeds P cfg hub e).flatMap Effect.frames)

/-- The persisted message an event brings, with the send it takes out of the map
to answer it. -/
def takenUp (P : Platform) (hub : Hub) :
    Event → List (ChatMsgSend × StdString × PendingSend)
  | .envelope _ _ env =>
      if env.type = lit "chat.msg.send" then
        match ChatMsgSend.read P.json env.payload with
        | .error _ => []
        | .ok event => (KeyMap.found hub.server.pending event.clientMsgId).map
            fun entry => (event, entry)
      else []
  | _ => []

/-- The frame answers the send with what the message says of it, on a session of
the user the message names and of the device that asked. -/
def AnswerTo (hub : Hub) (sent : SessionId × Frame)
    (asked : ChatMsgSend × StdString × PendingSend) : Prop :=
  asked.1.clientMsgId = asked.2.1 ∧ sent.2 = asked.1.resp asked.2.2 ∧
    ∃ login ∈ hub.opened, login.session = sent.1 ∧
      login.userId = asked.1.senderId ∧ login.deviceId = asked.2.2.senderDeviceId

section

variable {P : Platform} {cfg : ChatConfig} {hub : Hub}

theorem AnswerTo.step {sent : SessionId × Frame}
    {asked : ChatMsgSend × StdString × PendingSend}
    (hanswer : AnswerTo hub sent asked) (e : Event) :
    AnswerTo ((machine P cfg).step hub e) sent asked := by
  obtain ⟨hid, hframe, login, hmem, hlogin⟩ := hanswer
  have hkept : login ∈ ((machine P cfg).step hub e).opened := by
    rcases opened_step P cfg hub e with hsame | ⟨_, _, _, _, _, _, _, _, hopened⟩
    · rwa [hsame]
    · rw [hopened]
      exact List.mem_cons_of_mem _ hmem
  exact ⟨hid, hframe, login, hkept, hlogin⟩

/-- Nobody who logs in is answered. -/
theorem responses_connect (clock : Clock) (o : IterOrder Devices.Entry)
    (iom : Option IoManager) (request : HttpRequest) (session : SessionId) :
    responses P cfg hub (.connect clock o iom request session) = [] := by
  rw [responses, deeds_connect]
  rcases hverdict : Server.tokenVerdict P cfg clock request with
    thrown | err | claims
  · rfl
  · apply respsOf_eq_nil
    intro one hone
    simp only [Server.refuseEffects, List.flatMap_cons, List.flatMap_nil,
      Effect.frames, Action.frame?, Option.toList, List.append_nil,
      List.mem_singleton] at hone
    rw [hone]
    exact not_isResp_of_type rfl (by decide)
  · apply respsOf_eq_nil
    intro one hone
    simp only [List.flatMap_append, Server.frames_handedBackEffects,
      Server.frames_authOkEffects, Server.frames_onlineEffects,
      List.append_nil] at hone
    rcases List.mem_append.mp hone with hkicked | hwelcome
    · obtain ⟨_, _, hframe⟩ := Server.conn_of_mem_kickedFrames hkicked
      exact not_isResp_of_type hframe.2 (by decide)
    · rw [List.mem_singleton.mp hwelcome]
      exact not_isResp_of_type rfl (by decide)

/-- What an event answers it has taken out of the map. -/
theorem matched_envelope (hsound : Sound P hub) (hr : hub.registry.Separated)
    (o : IterOrder Devices.Entry) (clock : Clock) (env : Envelope) :
    let e := Event.envelope o clock env
    ∃ matched, matched.Sublist (takenUp P hub e) ∧
      List.Forall₂ (AnswerTo ((machine P cfg).step hub e))
        (responses P cfg hub e) matched := by
  intro e
  simp only [e, responses, takenUp, deeds_envelope]
  by_cases htype : env.type = lit "chat.msg.send"
  · rw [Push.ofEnvelope, if_pos htype, if_pos htype]
    cases hread : ChatMsgSend.read P.json env.payload with
    | error thrown =>
        refine ⟨[], List.nil_sublist _, ?_⟩
        rw [Push.ofChatMsgSend, hread]
        exact List.Forall₂.nil
    | ok event =>
        rw [Server.respsOf_onChatMsgSend hr o hread,
          Server.pendingOf_of_read hread]
        cases hlookup : hub.server.pending.lookup event.clientMsgId with
        | none => exact ⟨[], List.nil_sublist _, List.Forall₂.nil⟩
        | some pending =>
            cases hget : hub.registry.get event.senderId
                pending.senderDeviceId with
            | none =>
                refine ⟨[], List.nil_sublist _, ?_⟩
                simp [hget]
            | some conn =>
                obtain ⟨login, hlive, hsession, huser, hdevice⟩ :=
                  hsound.registered _ _ conn hget
                have hanswer : AnswerTo hub (conn.session, event.resp pending)
                    (event, event.clientMsgId, pending) :=
                  ⟨rfl, rfl, login, hlive.1, hsession, huser, hdevice⟩
                refine ⟨[(event, event.clientMsgId, pending)], ?_, ?_⟩
                · simp [KeyMap.found, hlookup]
                · simpa [hget] using hanswer.step e
  · refine ⟨[], List.nil_sublist _, ?_⟩
    have hplain : ∀ push ∈ Push.ofEnvelope P
        (hub.server.pendingOf P.json env.payload) env, push.Plain :=
      fun _ hpush => Push.plain_ofEnvelope htype hpush
    rw [Push.respsOf_pushEffects hplain]
    exact List.Forall₂.nil

theorem matched_step (hsound : Sound P hub) (hr : hub.registry.Separated)
    {e : Event} (henabled : (machine P cfg).enabled hub e) :
    ∃ matched, matched.Sublist (takenUp P hub e) ∧
      List.Forall₂ (AnswerTo ((machine P cfg).step hub e))
        (responses P cfg hub e) matched := by
  have hnone : responses P cfg hub e = [] →
      ∃ matched, matched.Sublist (takenUp P hub e) ∧
        List.Forall₂ (AnswerTo ((machine P cfg).step hub e))
          (responses P cfg hub e) matched := by
    intro hnil
    rw [hnil]
    exact ⟨[], List.nil_sublist _, List.Forall₂.nil⟩
  cases e with
  | connect clock o iom request session =>
      exact hnone (responses_connect clock o iom request session)
  | close session =>
      obtain ⟨⟨login, hmem, rfl⟩, _⟩ := henabled
      apply hnone
      rw [responses, hsound.deeds_close hmem, Server.frames_offlineEffects]
      rfl
  | frame session clock isText data =>
      obtain ⟨⟨login, hmem, rfl⟩, _⟩ := henabled
      apply hnone
      apply respsOf_eq_nil
      intro one hone
      exact (hsound.deeds_frame hmem clock isText data).not_isResp hone
  | envelope o clock env => exact matched_envelope hsound hr o clock env
  | timer nowMs =>
      apply hnone
      rw [responses, deeds_timer, List.flatMap_assoc]
      apply respsOf_eq_nil
      intro one hone
      obtain ⟨conn, _, hone⟩ := List.mem_flatMap.mp hone
      rw [Server.frames_closeEffects] at hone
      contradiction
  | drain =>
      apply hnone
      rw [responses, deeds_drain]
      rfl

/-- What is taken up leaves the map. -/
theorem takenUp_sublist (P : Platform) (cfg : ChatConfig) (hub : Hub) (e : Event) :
    ((takenUp P hub e).map (·.2)).Sublist
      ((departed P cfg hub e).map (·.2)) := by
  cases e with
  | envelope o clock env =>
      simp only [takenUp, departed]
      split_ifs
      · cases ChatMsgSend.read P.json env.payload <;> simp
      · exact List.nil_sublist _
  | _ => exact List.nil_sublist _

/-- The sends taken up to be answered are sends that have been kept. -/
theorem takenUp_subperm (P : Platform) (cfg : ChatConfig) (es : List Event)
    (hadm : (machine P cfg).Admissible {} es) :
    (((machine P cfg).trace (takenUp P) {} es).map (·.2)).Subperm
      (((machine P cfg).trace (kept P cfg) {} es).map entryOf) := by
  have htaken : (((machine P cfg).trace (takenUp P) {} es).map (·.2)).Sublist
      (((machine P cfg).trace (departed P cfg) {} es).map (·.2)) := by
    rw [← Machine.trace_map, ← Machine.trace_map]
    exact Machine.trace_sublist (takenUp_sublist P cfg)
  have hconserved := perm_run P cfg es hadm
  exact (htaken.trans (List.sublist_append_left _ _)).subperm.trans
    hconserved.symm.subperm

/-- The responses of a run are matched, in order, with persisted messages the run
has read and the sends these have taken out of the map, each a send of its own
that has been kept. -/
theorem responses_match_sends (P : Platform) (cfg : ChatConfig) (es : List Event)
    (hadm : (machine P cfg).Admissible {} es) :
    ∃ asked : List (ChatMsgSend × StdString × PendingSend),
      asked.Sublist ((machine P cfg).trace (takenUp P) {} es) ∧
      (asked.map (·.2)).Subperm
        (((machine P cfg).trace (kept P cfg) {} es).map entryOf) ∧
      List.Forall₂ (AnswerTo ((machine P cfg).run {} es))
        ((machine P cfg).trace (responses P cfg) {} es) asked := by
  obtain ⟨asked, htaken, hmatched⟩ := Machine.matched_run separated_step
    (fun _ e _ _ hanswer => hanswer.step e)
    (fun _ _ hinv henabled => matched_step hinv.1 hinv.2 henabled)
    ⟨sound_initial P, SessionRegistry.wellFormed_empty.toSeparated⟩ hadm
  exact ⟨asked, htaken,
    (htaken.map _).subperm.trans (takenUp_subperm P cfg es hadm), hmatched⟩

end

namespace ResponsesWitness

open HubWitness (cfg)
open LatencyClockWitness (platform forward)

example : ((machine platform cfg).trace (responses platform cfg) {} forward).map
    (·.1) = [1] := by decide +kernel

theorem responses_match_sends_forward :
    ∃ asked : List (ChatMsgSend × StdString × PendingSend),
      asked.Sublist ((machine platform cfg).trace (takenUp platform) {} forward) ∧
      (asked.map (·.2)).Subperm (((machine platform cfg).trace
        (kept platform cfg) {} forward).map entryOf) ∧
      List.Forall₂ (AnswerTo ((machine platform cfg).run {} forward))
        ((machine platform cfg).trace (responses platform cfg) {} forward) asked :=
  responses_match_sends platform cfg forward (by decide +kernel)

end ResponsesWitness

end Hub

end FlzChat
