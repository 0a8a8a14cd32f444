/-
The verdicts on `msg.send` requests when handlers, events and sweeps interleave.
A request's pending entry is visible before the outcome of its `Publish`, under
an id that retries share.
-/
import FlzChat.SendInterference

namespace FlzChat

/-- Any number of requests, each with its own `seq` on its connection. -/
structure Requests (κ : Type) where
  request : κ → SendRequest
  numbered : ∀ i, (request i).hasSeq = true
  distinct : ∀ i j, (request i).session = (request j).session →
    (request i).seq = (request j).seq → i = j

/-- The frame is a verdict on the request. -/
def isVerdict (request : SendRequest) (sent : SessionId × Frame) : Bool :=
  sent.1 = request.session ∧ sent.2.hasSeq = true ∧ sent.2.seq = request.seq ∧
    (sent.2.type = lit "error" ∨ sent.2.type = lit "msg.send.resp")

/-- Where the handler of a request stands: `stored` is after its insert,
`published` and `refused` after its `Publish`, `erased` after it has taken the
entry back. -/
inductive Stage where
  | fresh
  | stored
  | published
  | refused
  | erased
  | over
deriving DecidableEq

/-- The dispatchers between two steps; `owner` keeps account of whose entry is
the last one under an id. -/
structure Verdicts (κ : Type) where
  server : Server := {}
  stage : κ → Stage := fun _ => .fresh
  owner : StdString → Option κ := fun _ => none

namespace Verdicts

inductive Event (κ : Type) where
  | receive (i : κ)
  | publish (i : κ) (accepted : Bool)
  | erase (i : κ)
  | reply (i : κ)
  | event (o : IterOrder Devices.Entry) (clock : Clock) (payload : Json)
  | sweep (nowMs : Int)

variable {κ : Type} [DecidableEq κ]

/-- `HandleMsgSend` up to its insert, or to its end if it does not get there. -/
def receive (P : Platform) (cfg : ChatConfig) (R : Requests κ) (i : κ)
    (v : Verdicts κ) : Verdicts κ :=
  match (R.request i).storedId P.json cfg with
  | none =>
      { v with
        server := ((R.request i).handle P cfg (Server.publishAs true) v.server).2
        stage := Function.update v.stage i .over }
  | some id =>
      { server := { v.server with
          pending := v.server.pending.insert id (R.request i).entry }
        stage := Function.update v.stage i .stored
        owner := Function.update v.owner id (some i) }

def publish (P : Platform) (R : Requests κ) (i : κ) (accepted : Bool)
    (v : Verdicts κ) : Verdicts κ :=
  { v with
    server := match (R.request i).task? P with
      | none => v.server
      | some task => (v.server.publishAs accepted task).2
    stage := Function.update v.stage i (if accepted then .published else .refused) }

def erase (P : Platform) (cfg : ChatConfig) (R : Requests κ) (i : κ)
    (v : Verdicts κ) : Verdicts κ :=
  match (R.request i).storedId P.json cfg with
  | none => v
  | some id =>
      { v with
        server := { v.server with pending := v.server.pending.erase id }
        stage := Function.update v.stage i .erased }

def reply (R : Requests κ) (i : κ) (v : Verdicts κ) : Verdicts κ :=
  { v with
    server := v.server.sendError (R.request i).session 503 (lit "mq unavailable")
      (R.request i).hasSeq (R.request i).seq
    stage := Function.update v.stage i .over }

/-- Requests step by step, whole events and sweeps.  Once an event has taken
its entry, what it sends depends on the registry alone, which stays as it is. -/
def machine (P : Platform) (cfg : ChatConfig) (R : Requests κ) :
    Machine (Verdicts κ) (Event κ) where
  enabled v
    | .receive i => v.stage i = .fresh
    | .publish i _ => v.stage i = .stored
    | .erase i => v.stage i = .refused
    | .reply i => v.stage i = .erased
    | .event _ _ _ | .sweep _ => True
  step v
    | .receive i => v.receive P cfg R i
    | .publish i accepted => v.publish P R i accepted
    | .erase i => v.erase P cfg R i
    | .reply i => v.reply R i
    | .event o clock p => { v with server := (v.server.onChatMsgSend P o clock p).2 }
    | .sweep nowMs => { v with server := v.server.sweepPending cfg nowMs }

/-- The verdicts on a request so far. -/
def on (request : SendRequest) (v : Verdicts κ) : List (SessionId × Frame) :=
  v.server.frames.filter (isVerdict request)

/-- No request is answered twice, be it with an error or with a response. -/
def AtMostOne (R : Requests κ) (v : Verdicts κ) : Prop :=
  ∀ i, (v.on (R.request i)).length ≤ 1

/-- The request whose entry an event under the id would take. -/
def entryOf (id : StdString) (v : Verdicts κ) : Option κ :=
  if (v.server.pending.lookup id).isSome then v.owner id else none

/-- An event that takes an entry takes that of a request already published, and
the connection it answers is the one the request came on. -/
def AnswersOwn (P : Platform) (R : Requests κ) (v : Verdicts κ) : Event κ → Prop
  | .event _ _ p => ∀ event ∈ (ChatMsgSend.read P.json p).toOption,
      ∀ i ∈ v.entryOf event.clientMsgId, v.stage i = .published ∧
        ∀ conn ∈ v.server.registry.get event.senderId (R.request i).did,
          conn.session = (R.request i).session
  | _ => True

instance [Fintype κ] (R : Requests κ) : DecidablePred (AtMostOne R) :=
  fun v => inferInstanceAs (Decidable (∀ i, (v.on (R.request i)).length ≤ 1))

instance (P : Platform) (cfg : ChatConfig) (R : Requests κ) (v : Verdicts κ) :
    ∀ e, Decidable ((machine P cfg R).enabled v e)
  | .receive i => inferInstanceAs (Decidable (v.stage i = .fresh))
  | .publish i _ => inferInstanceAs (Decidable (v.stage i = .stored))
  | .erase i => inferInstanceAs (Decidable (v.stage i = .refused))
  | .reply i => inferInstanceAs (Decidable (v.stage i = .erased))
  | .event _ _ _ | .sweep _ => isTrue trivial

instance (P : Platform) (R : Requests κ) (v : Verdicts κ) :
    ∀ e, Decidable (v.AnswersOwn P R e)
  | .event _ _ p => inferInstanceAs (Decidable (
      ∀ event ∈ (ChatMsgSend.read P.json p).toOption,
        ∀ i ∈ v.entryOf event.clientMsgId, v.stage i = .published ∧
          ∀ conn ∈ v.server.registry.get event.senderId (R.request i).did,
            conn.session = (R.request i).session))
  | .receive _ | .publish _ _ | .erase _ | .reply _ | .sweep _ => isTrue trivial

/-! The frames that are verdicts. -/

theorem isVerdict_errorFrame (R : Requests κ) (i j : κ) (code : Int64)
    (msg : StdString) :
    isVerdict (R.request i) ((R.request j).session,
      errorFrame code msg (R.request j).hasSeq (R.request j).seq) =
        decide (i = j) := by
  by_cases hij : i = j
  · subst hij
    simp [isVerdict, errorFrame, R.numbered]
  · have hother : ¬ ((R.request j).session = (R.request i).session ∧
        (R.request j).seq = (R.request i).seq) :=
      fun hsame => hij (R.distinct j i hsame.1 hsame.2).symm
    simp only [isVerdict, errorFrame, hij, decide_false, decide_eq_false_iff_not]
    rintro ⟨hsession, _, hseq, _⟩
    exact hother ⟨hsession, hseq⟩

theorem not_isVerdict_newMessage (request : SendRequest) (session : SessionId)
    (p : Json) : isVerdict request (session, newMessage p) = false := by
  simp [isVerdict, newMessage]

omit [DecidableEq κ] in
/-- The receivers of an event get no verdicts. -/
theorem verdicts_receiverFrames (P : Platform) (o : IterOrder Devices.Entry)
    (r : SessionRegistry) (senderId : UInt64) (p : Json)
    (request : SendRequest) :
    (Server.receiverFrames P o r senderId p).filter (isVerdict request) = [] := by
  rw [List.filter_eq_nil_iff]
  intro one hone
  rw [Server.receiverFrames] at hone
  cases hreceivers : p.arrayMember (lit "receivers") with
  | error thrown =>
      rw [hreceivers] at hone
      exact absurd hone List.not_mem_nil
  | ok receivers =>
      rw [hreceivers] at hone
      obtain ⟨uid, _, hsent⟩ := List.mem_flatMap.mp hone
      obtain ⟨d, c, _, rfl⟩ := SessionRegistry.mem_sends.mp hsent
      simp [not_isVerdict_newMessage]

omit [DecidableEq κ] in
/-- A verdict among the frames for the sender is the response on the connection
of the entry's device. -/
theorem get_of_isVerdict {r : SessionRegistry} (hr : r.Separated)
    {o : IterOrder Devices.Entry} {event : ChatMsgSend} {p : Json}
    {pending : PendingSend} {request : SendRequest} {one : SessionId × Frame}
    (hone : one ∈ Server.senderFrames o r event p (some pending))
    (hverdict : isVerdict request one = true) :
    ∃ conn, r.get event.senderId pending.senderDeviceId = some conn ∧
      one = (conn.session, event.resp pending) := by
  obtain ⟨d, conn, hget, rfl⟩ := SessionRegistry.mem_sends.mp hone
  by_cases hdevice : conn.deviceId = pending.senderDeviceId
  · refine ⟨conn, ?_, ?_⟩
    · rw [← hdevice, (hr.keyed hget).2]
      exact hget
    · rw [Server.senderFrame, if_pos hdevice]
  · rw [Server.senderFrame, if_neg hdevice] at hverdict
    have hnot := not_isVerdict_newMessage request conn.session p
    rw [newMessage, hverdict] at hnot
    contradiction

omit [DecidableEq κ] in
/-- No request gets more than one verdict from an event. -/
theorem length_verdicts_senderFrames {r : SessionRegistry} (hr : r.Separated)
    (o : IterOrder Devices.Entry) (event : ChatMsgSend) (p : Json)
    (pending : PendingSend) (request : SendRequest) :
    ((Server.senderFrames o r event p (some pending)).filter
      (isVerdict request)).length ≤ 1 := by
  cases hfound : r.get event.senderId pending.senderDeviceId with
  | none =>
      have hnone : (Server.senderFrames o r event p (some pending)).filter
          (isVerdict request) = [] := by
        rw [List.filter_eq_nil_iff]
        intro one hone hverdict
        obtain ⟨conn, hget, _⟩ := get_of_isVerdict hr hone hverdict
        rw [hfound] at hget
        contradiction
      simp [hnone]
  | some conn =>
      have hsession : ∀ one ∈ Server.senderFrames o r event p (some pending),
          isVerdict request one = true → one.1 = conn.session := by
        intro one hone hverdict
        obtain ⟨conn', hget, rfl⟩ := get_of_isVerdict hr hone hverdict
        rw [hfound] at hget
        rw [Option.some.inj hget]
      have hsub : ((Server.senderFrames o r event p (some pending)).filter
          (isVerdict request)).length ≤
          ((Server.senderFrames o r event p (some pending)).filter
            fun one => one.1 = conn.session).length := by
        rw [← List.countP_eq_length_filter, ← List.countP_eq_length_filter]
        apply List.countP_mono_left
        intro one hone hverdict
        simpa using hsession one hone hverdict
      apply hsub.trans
      rw [Server.senderFrames, hr.filter_sends o event.senderId _ hfound]
      simp

/-! What a run keeps. -/

/-- The handler has still to store the entry, to learn the outcome of `Publish`
or to reply. -/
def Undecided : Stage → Prop
  | .fresh | .stored | .refused | .erased => True
  | .published | .over => False

/-- An entry belongs to a request between its insert and its erase, and a
request that may still get a verdict has none yet. -/
structure Inv (P : Platform) (cfg : ChatConfig) (R : Requests κ)
    (v : Verdicts κ) : Prop where
  separated : v.server.registry.Separated
  owned : ∀ id pending, v.server.pending.lookup id = some pending →
    ∃ i, v.owner id = some i ∧ pending = (R.request i).entry ∧
      (R.request i).storedId P.json cfg = some id ∧
      (v.stage i = .stored ∨ v.stage i = .published ∨ v.stage i = .refused)
  silent : ∀ i, Undecided (v.stage i) ∨ (∃ id, v.entryOf id = some i) →
    v.on (R.request i) = []
  one : v.AtMostOne R

section

variable {P : Platform} {cfg : ChatConfig} {R : Requests κ} {v : Verdicts κ}

omit [DecidableEq κ] in
theorem entryOf_eq_some {id : StdString} {i : κ} :
    v.entryOf id = some i ↔
      (∃ pending, v.server.pending.lookup id = some pending) ∧
        v.owner id = some i := by
  rw [entryOf, ← Option.isSome_iff_exists]
  split_ifs with hsome
  · simp [hsome]
  · simp [hsome]

omit [DecidableEq κ] in
/-- The request of an entry, and its stage. -/
theorem Inv.stored (hinv : Inv P cfg R v) {id : StdString} {i : κ}
    (hentry : v.entryOf id = some i) :
    (R.request i).storedId P.json cfg = some id ∧
      (v.stage i = .stored ∨ v.stage i = .published ∨ v.stage i = .refused) := by
  obtain ⟨⟨pending, hlookup⟩, howner⟩ := entryOf_eq_some.mp hentry
  obtain ⟨j, hj, _, hstored, hstage⟩ := hinv.owned id pending hlookup
  obtain rfl := Option.some.inj (hj.symm.trans howner)
  exact ⟨hstored, hstage⟩

/-- A request without an entry is answered and done with. -/
theorem Inv.close (hinv : Inv P cfg R v) {i : κ}
    (hundecided : Undecided (v.stage i)) (hnone : ∀ id, v.entryOf id ≠ some i)
    {server : Server} {new : List (SessionId × Frame)}
    (hserver : server.registry = v.server.registry ∧
      server.pending = v.server.pending ∧ server.frames = v.server.frames ++ new)
    (hnew : new = [] ∨ ∃ code msg, new = [((R.request i).session,
      errorFrame code msg (R.request i).hasSeq (R.request i).seq)]) :
    Inv P cfg R { v with
      server := server
      stage := Function.update v.stage i .over } := by
  obtain ⟨hregistry, hpending, hframes⟩ := hserver
  let v' : Verdicts κ :=
    { v with server := server, stage := Function.update v.stage i .over }
  have hon : ∀ j, v'.on (R.request j) =
      v.on (R.request j) ++ new.filter (isVerdict (R.request j)) := by
    intro j
    simp only [on, v', hframes, List.filter_append]
  have hother : ∀ j, j ≠ i → v'.on (R.request j) = v.on (R.request j) := by
    intro j hj
    rw [hon]
    rcases hnew with rfl | ⟨code, msg, rfl⟩
    · simp
    · simp [isVerdict_errorFrame, hj]
  have hentry : ∀ id, v'.entryOf id = v.entryOf id := by
    intro id
    simp only [entryOf, v', hpending]
  have hsilent : v.on (R.request i) = [] := hinv.silent i (Or.inl hundecided)
  refine ⟨by rw [hregistry]; exact hinv.separated, ?_, ?_, ?_⟩
  · intro id pending hlookup
    simp only [hpending] at hlookup
    obtain ⟨j, howner, hpendingEq, hstored, hstage⟩ :=
      hinv.owned id pending hlookup
    have hj : j ≠ i := by
      rintro rfl
      exact hnone id (entryOf_eq_some.mpr ⟨⟨pending, hlookup⟩, howner⟩)
    refine ⟨j, howner, hpendingEq, hstored, ?_⟩
    simpa only [Function.update_of_ne hj] using hstage
  · intro j hj
    change v'.on (R.request j) = []
    by_cases hji : j = i
    · subst hji
      rcases hj with hstage | ⟨id, hid⟩
      · simp [Undecided] at hstage
      · exact absurd ((hentry id).symm.trans hid) (hnone id)
    · rw [hother j hji]
      apply hinv.silent j
      rcases hj with hstage | ⟨id, hid⟩
      · left
        simpa only [Function.update_of_ne hji] using hstage
      · exact Or.inr ⟨id, (hentry id).symm.trans hid⟩
  · intro j
    change (v'.on (R.request j)).length ≤ 1
    by_cases hji : j = i
    · subst hji
      rw [hon, hsilent, List.nil_append]
      rcases hnew with rfl | ⟨code, msg, rfl⟩
      · simp
      · exact List.length_filter_le _ _
    · rw [hother j hji]
      exact hinv.one j

omit [DecidableEq κ] in
/-- A step that sends nothing. -/
theorem Inv.quiet (hinv : Inv P cfg R v) {v' : Verdicts κ}
    (hregistry : v'.server.registry = v.server.registry)
    (hframes : v'.server.frames = v.server.frames)
    (howned : ∀ id pending, v'.server.pending.lookup id = some pending →
      ∃ i, v'.owner id = some i ∧ pending = (R.request i).entry ∧
        (R.request i).storedId P.json cfg = some id ∧
        (v'.stage i = .stored ∨ v'.stage i = .published ∨ v'.stage i = .refused))
    (hsilent : ∀ i, Undecided (v'.stage i) ∨ (∃ id, v'.entryOf id = some i) →
      Undecided (v.stage i) ∨ ∃ id, v.entryOf id = some i) :
    Inv P cfg R v' := by
  have hon : ∀ request, v'.on request = v.on request := by
    intro request
    simp only [on, hframes]
  refine ⟨by rw [hregistry]; exact hinv.separated, howned, ?_, ?_⟩
  · intro i hi
    rw [hon]
    exact hinv.silent i (hsilent i hi)
  · intro i
    rw [hon]
    exact hinv.one i

theorem Inv.receive (hinv : Inv P cfg R v) {i : κ} (hfresh : v.stage i = .fresh) :
    Inv P cfg R (v.receive P cfg R i) := by
  have hundecided : Undecided (v.stage i) := by simp [hfresh, Undecided]
  have hnone : ∀ id, v.entryOf id ≠ some i := by
    intro id hentry
    have hstage := (hinv.stored hentry).2
    simp [hfresh] at hstage
  rw [Verdicts.receive]
  cases hstored : (R.request i).storedId P.json cfg with
  | none =>
      simp only
      rcases SendRequest.handle_of_not_stored hstored with
        ⟨thrown, hhandle⟩ | ⟨code, msg, hhandle⟩
      · rw [hhandle]
        exact hinv.close hundecided hnone ⟨rfl, rfl, (List.append_nil _).symm⟩
          (Or.inl rfl)
      · rw [hhandle]
        exact hinv.close hundecided hnone
          ⟨rfl, rfl, Server.frames_sendFrame _ _ _⟩ (Or.inr ⟨code, msg, rfl⟩)
  | some id =>
      apply hinv.quiet
      · rfl
      · rfl
      · intro id' pending hlookup
        by_cases hid : id' = id
        · subst hid
          simp only [AList.lookup_insert, Option.some.injEq] at hlookup
          exact ⟨i, by simp, hlookup.symm, hstored, by simp⟩
        · simp only [AList.lookup_insert_ne hid] at hlookup
          obtain ⟨j, howner, hpending, hstoredj, hstage⟩ :=
            hinv.owned id' pending hlookup
          have hj : j ≠ i := by
            rintro rfl
            simp [hfresh] at hstage
          refine ⟨j, ?_, hpending, hstoredj, ?_⟩
          · simpa only [Function.update_of_ne hid] using howner
          · simpa only [Function.update_of_ne hj] using hstage
      · intro j hj
        by_cases hji : j = i
        · subst hji
          exact Or.inl hundecided
        · rcases hj with hstage | ⟨id', hid'⟩
          · left
            simpa only [Function.update_of_ne hji] using hstage
          · right
            obtain ⟨⟨pending, hlookup⟩, howner⟩ := entryOf_eq_some.mp hid'
            have hid : id' ≠ id := by
              rintro rfl
              simp only [Function.update_self, Option.some.injEq] at howner
              exact hji howner.symm
            simp only [AList.lookup_insert_ne hid] at hlookup
            simp only [Function.update_of_ne hid] at howner
            exact ⟨id', entryOf_eq_some.mpr ⟨⟨pending, hlookup⟩, howner⟩⟩

theorem Inv.publish (hinv : Inv P cfg R v) {i : κ} (hstage : v.stage i = .stored)
    (accepted : Bool) : Inv P cfg R (v.publish P R i accepted) := by
  have hsame : (v.publish P R i accepted).server.registry = v.server.registry ∧
      (v.publish P R i accepted).server.pending = v.server.pending ∧
      (v.publish P R i accepted).server.frames = v.server.frames := by
    rw [Verdicts.publish]
    cases (R.request i).task? P with
    | none => exact ⟨rfl, rfl, rfl⟩
    | some task =>
        obtain ⟨hregistry, hpending, hframes, _⟩ :=
          Server.publishAs_same accepted task v.server
        exact ⟨hregistry, hpending, hframes⟩
  have hnext : (v.publish P R i accepted).stage =
      Function.update v.stage i (if accepted then .published else .refused) := rfl
  apply hinv.quiet hsame.1 hsame.2.2
  · intro id pending hlookup
    rw [hsame.2.1] at hlookup
    obtain ⟨j, howner, hpending, hstored, hj⟩ := hinv.owned id pending hlookup
    refine ⟨j, howner, hpending, hstored, ?_⟩
    rw [hnext]
    by_cases hji : j = i
    · subst hji
      cases accepted <;> simp
    · simpa only [Function.update_of_ne hji] using hj
  · intro j hj
    by_cases hji : j = i
    · subst hji
      exact Or.inl (by simp [hstage, Undecided])
    · rw [hnext, Function.update_of_ne hji] at hj
      refine hj.imp_right fun ⟨id, hid⟩ => ⟨id, ?_⟩
      rw [entryOf_eq_some, hsame.2.1] at hid
      exact entryOf_eq_some.mpr hid

theorem Inv.erase (hinv : Inv P cfg R v) {i : κ} (hstage : v.stage i = .refused) :
    Inv P cfg R (v.erase P cfg R i) := by
  rw [Verdicts.erase]
  cases hstored : (R.request i).storedId P.json cfg with
  | none => exact hinv
  | some id =>
      have hlookup : ∀ id', (v.server.pending.erase id).lookup id' =
          if id' = id then none else v.server.pending.lookup id' :=
        KeyMap.lookup_erase_eq v.server.pending id
      apply hinv.quiet
      · rfl
      · rfl
      · intro id' pending hpending
        simp only [hlookup] at hpending
        split_ifs at hpending with hid
        obtain ⟨j, howner, hentry, hstoredj, hj⟩ :=
          hinv.owned id' pending hpending
        have hji : j ≠ i := by
          rintro rfl
          rw [hstored] at hstoredj
          exact hid (Option.some.inj hstoredj).symm
        refine ⟨j, howner, hentry, hstoredj, ?_⟩
        simpa only [Function.update_of_ne hji] using hj
      · intro j hj
        by_cases hji : j = i
        · subst hji
          exact Or.inl (by simp [hstage, Undecided])
        · rcases hj with hundecided | ⟨id', hid'⟩
          · left
            simpa only [Function.update_of_ne hji] using hundecided
          · right
            obtain ⟨⟨pending, hpending⟩, howner⟩ := entryOf_eq_some.mp hid'
            simp only [hlookup] at hpending
            split_ifs at hpending
            exact ⟨id', entryOf_eq_some.mpr ⟨⟨pending, hpending⟩, howner⟩⟩

theorem Inv.reply (hinv : Inv P cfg R v) {i : κ} (hstage : v.stage i = .erased) :
    Inv P cfg R (v.reply R i) := by
  refine hinv.close (by simp [hstage, Undecided]) ?_
    ⟨rfl, rfl, Server.frames_sendFrame _ _ _⟩
    (Or.inr ⟨503, lit "mq unavailable", rfl⟩)
  intro id hentry
  have hstored := (hinv.stored hentry).2
  simp [hstage] at hstored

omit [DecidableEq κ] in
theorem Inv.sweep (hinv : Inv P cfg R v) (nowMs : Int) :
    Inv P cfg R { v with server := v.server.sweepPending cfg nowMs } := by
  have hkept : ∀ id pending,
      (v.server.sweepPending cfg nowMs).pending.lookup id = some pending →
        v.server.pending.lookup id = some pending := by
    intro id pending hlookup
    rw [Server.sweepPending, KeyMap.lookup_filterValues,
      Option.filter_eq_some_iff] at hlookup
    exact hlookup.1
  apply hinv.quiet
  · rfl
  · rfl
  · intro id pending hlookup
    exact hinv.owned id pending (hkept id pending hlookup)
  · intro i hi
    rcases hi with hundecided | ⟨id, hid⟩
    · exact .inl hundecided
    · obtain ⟨⟨pending, hlookup⟩, howner⟩ := entryOf_eq_some.mp hid
      exact .inr ⟨id, entryOf_eq_some.mpr ⟨⟨pending, hkept id pending hlookup⟩, howner⟩⟩

omit [DecidableEq κ] in
/-- What an event adds to the verdicts on a request. -/
theorem on_event {p : Json} {event : ChatMsgSend}
    (hread : ChatMsgSend.read P.json p = .ok event) (o : IterOrder Devices.Entry)
    (clock : Clock) (v : Verdicts κ) (request : SendRequest) :
    ({ v with server := (v.server.onChatMsgSend P o clock p).2 } :
      Verdicts κ).on request = v.on request ++
        (Server.senderFrames o v.server.registry event p
          (v.server.pending.lookup event.clientMsgId)).filter
            (isVerdict request) := by
  simp only [on]
  rw [Server.frames_onChatMsgSend hread, List.filter_append, List.filter_append,
    verdicts_receiverFrames, List.append_nil]

omit [DecidableEq κ] in
/-- The event gives a verdict on the request whose entry it takes, if on any. -/
theorem Inv.verdicts_event (hinv : Inv P cfg R v) {o : IterOrder Devices.Entry}
    {event : ChatMsgSend}
    (hguard : ∀ i ∈ v.entryOf event.clientMsgId, v.stage i = .published ∧
      ∀ conn ∈ v.server.registry.get event.senderId (R.request i).did,
        conn.session = (R.request i).session) (p : Json) (i : κ) :
    let after := v.on (R.request i) ++
      (Server.senderFrames o v.server.registry event p
        (v.server.pending.lookup event.clientMsgId)).filter
          (isVerdict (R.request i))
    after = v.on (R.request i) ∨
      v.entryOf event.clientMsgId = some i ∧ after.length ≤ 1 := by
  intro after
  cases hlookup : v.server.pending.lookup event.clientMsgId with
  | none =>
      left
      simp [after, hlookup, Server.senderFrames]
  | some pending =>
      obtain ⟨j, howner, rfl, hstored, _⟩ := hinv.owned _ _ hlookup
      have htaken : v.entryOf event.clientMsgId = some j :=
        entryOf_eq_some.mpr ⟨⟨_, hlookup⟩, howner⟩
      have hown := (hguard j htaken).2
      by_cases hij : i = j
      · subst hij
        right
        refine ⟨htaken, ?_⟩
        simp only [after, hinv.silent i (Or.inr ⟨_, htaken⟩), List.nil_append,
          hlookup]
        exact length_verdicts_senderFrames hinv.separated o event p _ _
      · left
        have hnone : (Server.senderFrames o v.server.registry event p
            (some (R.request j).entry)).filter (isVerdict (R.request i)) = [] := by
          rw [List.filter_eq_nil_iff]
          intro one hone hverdict
          obtain ⟨conn, hget, rfl⟩ :=
            get_of_isVerdict hinv.separated hone hverdict
          have hsession := hown conn hget
          simp only [isVerdict, decide_eq_true_eq] at hverdict
          obtain ⟨hsession', _, hseq, _⟩ := hverdict
          exact hij (R.distinct i j (hsession'.symm.trans hsession) hseq.symm)
        simp only [after, hlookup, hnone, List.append_nil]

omit [DecidableEq κ] in
/-- An event that answers the request whose entry it takes. -/
theorem Inv.event (hinv : Inv P cfg R v) {o : IterOrder Devices.Entry}
    {clock : Clock} {p : Json} (hanswers : v.AnswersOwn P R (.event o clock p)) :
    Inv P cfg R { v with server := (v.server.onChatMsgSend P o clock p).2 } := by
  cases hread : ChatMsgSend.read P.json p with
  | error thrown =>
      rw [Server.onChatMsgSend_of_throw hread]
      exact hinv
  | ok event =>
      have hguard := hanswers event (by simp [hread, Except.toOption])
      let v' : Verdicts κ :=
        { v with server := (v.server.onChatMsgSend P o clock p).2 }
      have hon := on_event hread o clock v
      have hlookup : ∀ id, v'.server.pending.lookup id =
          if id = event.clientMsgId then none else v.server.pending.lookup id :=
        TwoRuns.lookup_event hread cfg o clock v.server
      have hregistry : v'.server.registry = v.server.registry :=
        TwoRuns.event_registry P cfg o clock p v.server
      have hentry : ∀ id i, v'.entryOf id = some i →
          id ≠ event.clientMsgId ∧ v.entryOf id = some i := by
        intro id i hid
        obtain ⟨⟨pending, hpending⟩, howner⟩ := entryOf_eq_some.mp hid
        rw [hlookup] at hpending
        split_ifs at hpending with hne
        exact ⟨hne, entryOf_eq_some.mpr ⟨⟨pending, hpending⟩, howner⟩⟩
      -- a request that may still get a verdict is not the one the event takes
      have hkeep : ∀ i, Undecided (v.stage i) ∨
          (∃ id, v'.entryOf id = some i) →
            v.entryOf event.clientMsgId ≠ some i := by
        rintro i (hundecided | ⟨id, hid⟩) htaken
        · rw [(hguard i htaken).1] at hundecided
          exact hundecided
        · obtain ⟨hne, hold⟩ := hentry id i hid
          have hstored := (hinv.stored hold).1
          rw [(hinv.stored htaken).1] at hstored
          exact hne (Option.some.inj hstored).symm
      have hmine : ∀ i, (v'.on (R.request i) = v.on (R.request i)) ∨
          v.entryOf event.clientMsgId = some i ∧
            (v'.on (R.request i)).length ≤ 1 := by
        intro i
        rw [hon]
        exact hinv.verdicts_event hguard p i
      refine ⟨by rw [hregistry]; exact hinv.separated, ?_, ?_, ?_⟩
      · intro id pending hpending
        rw [hlookup] at hpending
        split_ifs at hpending
        exact hinv.owned id pending hpending
      · intro i hi
        have hnot := hkeep i hi
        rcases hmine i with hsame | ⟨htaken, _⟩
        · change v'.on (R.request i) = []
          rw [hsame]
          apply hinv.silent i
          rcases hi with hundecided | ⟨id, hid⟩
          · exact .inl hundecided
          · exact .inr ⟨id, (hentry id i hid).2⟩
        · exact absurd htaken hnot
      · intro i
        change (v'.on (R.request i)).length ≤ 1
        rcases hmine i with hsame | ⟨_, hlength⟩
        · rw [hsame]
          exact hinv.one i
        · exact hlength

theorem Inv.step (v : Verdicts κ) (e : Event κ) (hinv : Inv P cfg R v)
    (henabled : (machine P cfg R).enabled v e) (hanswers : v.AnswersOwn P R e) :
    Inv P cfg R ((machine P cfg R).step v e) := by
  cases e with
  | receive i => exact hinv.receive henabled
  | publish i accepted => exact hinv.publish henabled accepted
  | erase i => exact hinv.erase henabled
  | reply i => exact hinv.reply henabled
  | event o clock p => exact hinv.event hanswers
  | sweep nowMs => exact hinv.sweep nowMs

omit [DecidableEq κ] in
theorem inv_initial (P : Platform) (cfg : ChatConfig) (R : Requests κ)
    {registry : SessionRegistry} (hseparated : registry.Separated) :
    Inv P cfg R { server := { registry := registry } } where
  separated := hseparated
  owned id pending hlookup := by simp at hlookup
  silent _ _ := rfl
  one _ := Nat.zero_le 1

end

/-- In a run whose events answer only requests already published, each on the
connection it came on, no request gets two verdicts. -/
theorem atMostOne_of_answersOwn (P : Platform) (cfg : ChatConfig)
    (R : Requests κ) {registry : SessionRegistry}
    (hseparated : registry.Separated) {es : List (Event κ)}
    (hadm : (machine P cfg R).Admissible { server := { registry := registry } } es)
    (hanswers : (machine P cfg R).Each (AnswersOwn P R)
      { server := { registry := registry } } es) :
    (machine P cfg R).Always (AtMostOne R) { server := { registry := registry } }
      es :=
  (Machine.always_of_guarded Inv.step (inv_initial P cfg R hseparated) hadm
    hanswers).imp fun _ hinv => hinv.one

/-- The steps of a handler. -/
def sendSteps (P : Platform) (cfg : ChatConfig) (R : Requests κ) (i : κ)
    (accepted : Bool) : List (Event κ) :=
  match (R.request i).storedId P.json cfg with
  | none => [.receive i]
  | some _ => [.receive i, .publish i accepted] ++
      if accepted then [] else [.erase i, .reply i]

/-- In one piece the steps are `HandleMsgSend`. -/
theorem run_sendSteps (P : Platform) (cfg : ChatConfig) (R : Requests κ)
    (v : Verdicts κ) (i : κ) (accepted : Bool) :
    ((machine P cfg R).run v (sendSteps P cfg R i accepted)).server =
      ((R.request i).handle P cfg (Server.publishAs accepted) v.server).2 := by
  rw [sendSteps]
  cases hstored : (R.request i).storedId P.json cfg with
  | none =>
      simp only [Machine.run, machine, Verdicts.receive, hstored]
      rcases SendRequest.handle_of_not_stored hstored with
        ⟨thrown, hhandle⟩ | ⟨code, msg, hhandle⟩
      · rw [hhandle, hhandle]
      · rw [hhandle, hhandle]
  | some id =>
      obtain ⟨task, htask, hhandle⟩ := SendRequest.handle_of_stored hstored
      rw [hhandle]
      cases accepted <;>
        simp [Machine.run, machine, Verdicts.receive, Verdicts.publish,
          Verdicts.erase, Verdicts.reply, hstored, htask, Server.publishAs]

namespace VerdictsWitness

open Server.FanOutWitness (platform clock registry separated_registry)

/-- A send and its retry under the same id, from the one device of user 1. -/
def requests : Requests Bool where
  request retry := ⟨clock, 1, lit "d1", 1, true, if retry then 2 else 1,
    .object [("clientMsgId", .str (lit "m1")), ("conversationId", .int 3),
      ("content", .str (lit "hello"))]⟩
  numbered _ := rfl
  distinct := by decide

/-- The message comes back from the broker. -/
def persisted : Event Bool :=
  .event (IterOrder.asKept _) clock (.object [("clientMsgId", .str (lit "m1")),
    ("messageId", .int 5), ("senderId", .uint 1)])

/-- The retry is published before the message comes back. -/
def publishedFirst : List (Event Bool) :=
  [.receive false, .publish false true, .receive true, .publish true true,
    persisted]

/-- The message comes back before the retry's `Publish` is refused. -/
def takenFirst : List (Event Bool) :=
  [.receive false, .publish false true, .receive true, persisted,
    .publish true false, .erase true, .reply true]

theorem atMostOne_publishedFirst :
    (machine platform {} requests).Always (AtMostOne requests)
      { server := { registry := registry } } publishedFirst :=
  atMostOne_of_answersOwn platform {} requests separated_registry
    (by decide +kernel) (by decide +kernel)

theorem not_always_atMostOne :
    ¬ ∀ (P : Platform) (cfg : ChatConfig) (R : Requests Bool)
      (registry : SessionRegistry) (es : List (Event Bool)),
      registry.Separated →
      (machine P cfg R).Admissible { server := { registry := registry } } es →
        (machine P cfg R).Always (AtMostOne R)
          { server := { registry := registry } } es := by
  intro hall
  exact absurd (hall platform {} requests registry takenFirst separated_registry
    (by decide +kernel)) (by decide +kernel)

example : (((machine platform {} requests).run
    { server := { registry := registry } } takenFirst).on
      (requests.request true)).map (·.2.type) =
    [lit "msg.send.resp", lit "error"] := by decide +kernel

end VerdictsWitness

end Verdicts

end FlzChat
