/-
What a rejected `msg.send` leaves behind.  The entry is written before the
outcome of `Publish` is known and taken back by its id, not to what the id held
before.
-/
import FlzChat.SendInterference

namespace FlzChat

/-- `HandleMsgSend` with the publisher's own answer. -/
def SendRequest.run (P : Platform) (cfg : ChatConfig) (request : SendRequest)
    (s : Server) : Except Thrown Int32 × Server :=
  s.handleMsgSend P cfg request.clock request.uid request.did request.session
    request.hasSeq request.seq request.data

/-- The request is answered with an error frame. -/
def SendRequest.Rejected (P : Platform) (cfg : ChatConfig)
    (request : SendRequest) (s : Server) : Prop :=
  ∃ code msg, Server.newFrames s (request.run P cfg s).2 =
    [(request.session, errorFrame code msg request.hasSeq request.seq)]

namespace Server

/-- The pending map is the same map and nothing has been enqueued. -/
structure NoTrace (s s' : Server) : Prop where
  pending : ∀ id, s'.pending.lookup id = s.pending.lookup id
  queue : s'.queue = s.queue

/-- An error frame on its own leaves no trace. -/
theorem noTrace_sendError (session : SessionId) (code : Int64)
    (msg : StdString) (hasSeq : Bool) (seq : Int64) (s : Server) :
    NoTrace s (s.sendError session code msg hasSeq seq) :=
  ⟨fun _ => rfl, rfl⟩

theorem newFrames_sendError (session : SessionId) (code : Int64)
    (msg : StdString) (hasSeq : Bool) (seq : Int64) {s s' : Server}
    (hframes : s'.frames = s.frames) :
    newFrames s (s'.sendError session code msg hasSeq seq) =
      [(session, errorFrame code msg hasSeq seq)] := by
  rw [newFrames, sendError, frames_sendFrame, hframes, List.drop_left]

end Server

section

variable {P : Platform} {cfg : ChatConfig} {request : SendRequest} {s : Server}

/-- A request that passes the checks: kept and enqueued while there is room,
else kept, taken back and answered with an error. -/
theorem SendRequest.run_of_stored {id : StdString}
    (hstored : request.storedId P.json cfg = some id) :
    ∃ task,
      (s.Accepting cfg → request.run P cfg s = (.ok 0,
        (Server.publishAs true task
          { s with pending := s.pending.insert id request.entry }).2)) ∧
      (¬ s.Accepting cfg → request.run P cfg s = (.ok 0,
        Server.sendError request.session 503 (lit "mq unavailable")
          request.hasSeq request.seq
          { s with
            pending := (s.pending.insert id request.entry).erase id
            metrics := s.metrics.incMqPublish task.routingKey (lit "fail") })) := by
  obtain ⟨task, _, hhandle⟩ := SendRequest.handle_of_stored hstored
  refine ⟨task, fun hroom => ?_, fun hfull => ?_⟩
  · have hrun := TwoRuns.handleMsgSend_eq P cfg request s
    simp only [hroom, decide_true] at hrun
    exact hrun.trans (hhandle (Server.publishAs true) s)
  · have hrun := TwoRuns.handleMsgSend_eq P cfg request s
    simp only [hfull, decide_false] at hrun
    exact hrun.trans (hhandle (Server.publishAs false) s)

/-- With room in the queue, only the checks reject, before anything is
written. -/
theorem SendRequest.not_rejected_of_accepting {id : StdString}
    (hstored : request.storedId P.json cfg = some id)
    (hroom : s.Accepting cfg) : ¬ request.Rejected P cfg s := by
  obtain ⟨task, haccepted, _⟩ := SendRequest.run_of_stored (s := s) hstored
  have hsilent : Server.newFrames s (request.run P cfg s).2 = [] := by
    rw [haccepted hroom, Server.newFrames,
      (Server.publishAs_same true task _).2.2.1]
    exact List.drop_length
  rintro ⟨code, msg, hframes⟩
  rw [hsilent] at hframes
  contradiction

theorem SendRequest.noTrace_of_not_stored
    (hstored : request.storedId P.json cfg = none) :
    Server.NoTrace s (request.run P cfg s).2 := by
  rcases SendRequest.handle_of_not_stored hstored with
    ⟨thrown, hhandle⟩ | ⟨code, msg, hhandle⟩
  · have hrun := hhandle (Server.publish cfg) s
    rw [show request.run P cfg s = (.error thrown, s) from hrun]
    exact ⟨fun _ => rfl, rfl⟩
  · have hrun := hhandle (Server.publish cfg) s
    rw [show request.run P cfg s = (.ok 0, _) from hrun]
    exact Server.noTrace_sendError _ _ _ _ _ s

/-- A full queue: the request is rejected, and its id is no longer pending. -/
theorem SendRequest.rejected_of_full {id : StdString}
    (hstored : request.storedId P.json cfg = some id)
    (hfull : ¬ s.Accepting cfg) :
    request.Rejected P cfg s ∧ (request.run P cfg s).2.queue = s.queue ∧
      ∀ other, (request.run P cfg s).2.pending.lookup other =
        if other = id then none else s.pending.lookup other := by
  obtain ⟨task, _, hrefused⟩ := SendRequest.run_of_stored (s := s) hstored
  have hrun := hrefused hfull
  refine ⟨⟨503, lit "mq unavailable", ?_⟩, ?_, ?_⟩
  · rw [hrun]
    exact Server.newFrames_sendError _ _ _ _ _ rfl
  · rw [hrun]
    rfl
  · intro other
    rw [hrun]
    change ((s.pending.insert id request.entry).erase id).lookup other = _
    by_cases heq : other = id
    · subst heq
      simp
    · rw [AList.lookup_erase_ne heq, AList.lookup_insert_ne heq, if_neg heq]

/-- A rejected send leaves no trace exactly when the checks reject it, the
queue has room, or nothing is pending under its id. -/
theorem SendRequest.rejected_noTrace_iff (P : Platform) (cfg : ChatConfig)
    (request : SendRequest) (s : Server) :
    (request.Rejected P cfg s → Server.NoTrace s (request.run P cfg s).2) ↔
      ∀ id, request.storedId P.json cfg = some id →
        s.Accepting cfg ∨ s.pending.lookup id = none := by
  cases hstored : request.storedId P.json cfg with
  | none =>
      constructor
      · intro _ id hid
        contradiction
      · exact fun _ _ => SendRequest.noTrace_of_not_stored hstored
  | some id =>
      by_cases hroom : s.Accepting cfg
      · constructor
        · exact fun _ _ _ => Or.inl hroom
        · exact fun _ hrejected =>
            absurd hrejected (SendRequest.not_rejected_of_accepting hstored hroom)
      · obtain ⟨hrejected, hqueue, hpending⟩ :=
          SendRequest.rejected_of_full hstored hroom
        constructor
        · intro hlaw other hother
          obtain rfl := Option.some.inj hother
          have hsame := (hlaw hrejected).pending id
          rw [hpending id, if_pos rfl] at hsame
          exact Or.inr hsame.symm
        · intro hfree _
          have hnone := (hfree id rfl).resolve_left hroom
          refine ⟨fun other => ?_, hqueue⟩
          rw [hpending other]
          split_ifs with heq
          · rw [heq, hnone]
          · rfl

end

namespace RejectedSendWitness

open TwoRuns.SendWitness (request)
open Server.FanOutWitness (platform registry)

/-- One task fills the queue. -/
def cfg : ChatConfig := { rabbitmq := { publisherQueueCapacity := 1 } }

/-- User 1 has sent `m1`, which waits in the queue. -/
def afterFirst : Server :=
  ((request 1 "m1" 7).run platform cfg { registry := registry }).2

/-- The retry is rejected and takes the entry of the first send with it. -/
theorem not_always_noTrace :
    ¬ ∀ (P : Platform) (cfg : ChatConfig) (request : SendRequest) (s : Server),
      request.Rejected P cfg s → Server.NoTrace s (request.run P cfg s).2 := by
  intro hall
  have hstored : (request 1 "m1" 8).storedId platform.json cfg =
      some (lit "m1") := by decide +kernel
  have hfull : ¬ afterFirst.Accepting cfg := by decide +kernel
  obtain ⟨hrejected, _, hpending⟩ :=
    SendRequest.rejected_of_full hstored hfull
  have hsame := (hall platform cfg (request 1 "m1" 8) afterFirst
    hrejected).pending (lit "m1")
  rw [hpending, if_pos rfl] at hsame
  exact absurd hsame (by decide +kernel)

end RejectedSendWitness

end FlzChat
