/-
What an envelope whose handling throws has done before.  Most handlers read all
ids before they push; two convert and push in one loop, and `OnChatMsgSend` has
taken its pending entry by then.
-/
import FlzChat.FanOut

namespace FlzChat

namespace Server

/-- If handling the envelope throws, no frame has been sent and no pending
entry taken. -/
def AllOrNone (P : Platform) (o : IterOrder Devices.Entry) (clock : Clock)
    (env : Envelope) (s : Server) : Prop :=
  ∀ thrown, (s.onEnvelope P o clock env).1 = .error thrown →
    newFrames s (s.onEnvelope P o clock env).2 = [] ∧
      (s.onEnvelope P o clock env).2.pending = s.pending

/-- Every element converts to an id. -/
def AllIds (elems : List Json) : Prop :=
  ∀ elem ∈ elems, (elem.within 0 (2 ^ 64 - 1)).isSome = true

/-- A message event that can be read has receivers that all convert, or finds
nothing pending and nobody registered among the receivers before the bad one. -/
def SendAtomic (P : Platform) (p : Json) (s : Server) : Prop :=
  ∀ event elems, ChatMsgSend.read P.json p = .ok event →
    p.arrayMember (lit "receivers") = .ok (some elems) →
    AllIds elems ∨ s.pending.lookup event.clientMsgId = none ∧
      ∀ uid ∈ idsBefore P elems, uid ≠ 0 → uid ≠ event.senderId →
        s.registry.userConnectionCount uid = 0

/-- The members of a new conversation all convert, or nobody is registered
among those before the bad one. -/
def CreatedAtomic (P : Platform) (p : Json) (s : Server) : Prop :=
  ∀ elems, p.arrayMember (lit "memberIds") = .ok (some elems) →
    AllIds elems ∨ ∀ uid ∈ idsBefore P elems, uid ≠ 0 →
      s.registry.userConnectionCount uid = 0

/-- The condition on an envelope of any type. -/
def Atomic (P : Platform) (env : Envelope) (s : Server) : Prop :=
  (env.type = lit "chat.msg.send" → SendAtomic P env.payload s) ∧
    (env.type = lit "chat.conversation.created" →
      CreatedAtomic P env.payload s)

theorem sends_eq_nil_iff (o : IterOrder Devices.Entry) (r : SessionRegistry)
    (uid : UInt64) (frame : OnlineConn → Frame) :
    r.sends o uid frame = [] ↔ r.userConnectionCount uid = 0 := by
  have hlength : (r.sends o uid frame).length = r.userConnectionCount uid := by
    simp [SessionRegistry.sends, SessionRegistry.getByUser,
      SessionRegistry.userConnectionCount, (o.perm _).length_eq]
  rw [← hlength, List.length_eq_zero_iff]

theorem allIds_cons_iff (P : Platform) (elem : Json) (elems : List Json) :
    AllIds (elem :: elems) ↔
      (∃ uid, P.json.asUInt64 elem = .ok uid) ∧ AllIds elems := by
  simp only [AllIds, List.forall_mem_cons, P.json.exists_asUInt64_iff]

theorem allIds_cons_of_ok {P : Platform} {elem : Json} {uid : UInt64}
    (huid : P.json.asUInt64 elem = .ok uid) (elems : List Json) :
    AllIds (elem :: elems) ↔ AllIds elems := by
  rw [allIds_cons_iff P]
  exact and_iff_right ⟨uid, huid⟩

theorem not_allIds_cons_of_error {P : Platform} {elem : Json} {thrown : Thrown}
    (hthrown : P.json.asUInt64 elem = .error thrown) (elems : List Json) :
    ¬ AllIds (elem :: elems) := by
  rw [allIds_cons_iff P]
  rintro ⟨⟨uid, huid⟩, _⟩
  rw [hthrown] at huid
  contradiction

/-- The loop over the receivers throws exactly at an element that does not
convert. -/
theorem pushReceivers_throws_iff (P : Platform) (o : IterOrder Devices.Entry)
    (senderId : UInt64) (p : Json) (elems : List Json)
    (pushedUsers : List UInt64) (s : Server) :
    (∃ thrown, (pushReceivers P o senderId p elems pushedUsers s).1 =
        .error thrown) ↔ ¬ AllIds elems := by
  induction elems generalizing pushedUsers s with
  | nil => simp [pushReceivers, AllIds]
  | cons elem elems ih =>
      simp only [pushReceivers]
      cases huid : P.json.asUInt64 elem with
      | error thrown =>
          exact ⟨fun _ => not_allIds_cons_of_error huid elems,
            fun _ => ⟨thrown, rfl⟩⟩
      | ok uid =>
          rw [allIds_cons_of_ok huid]
          simp only
          split_ifs
          · exact ih pushedUsers s
          · exact ih pushedUsers s
          · exact ih _ _

theorem pushMembers_throws_iff (P : Platform) (o : IterOrder Devices.Entry)
    (p : Json) (elems : List Json) (s : Server) :
    (∃ thrown, (pushMembers P o p elems s).1 = .error thrown) ↔
      ¬ AllIds elems := by
  induction elems generalizing s with
  | nil => simp [pushMembers, AllIds]
  | cons elem elems ih =>
      simp only [pushMembers]
      cases huid : P.json.asUInt64 elem with
      | error thrown =>
          exact ⟨fun _ => not_allIds_cons_of_error huid elems,
            fun _ => ⟨thrown, rfl⟩⟩
      | ok uid =>
          rw [allIds_cons_of_ok huid]
          exact ih _

theorem receiverFrames_eq_nil_iff {P : Platform} {p : Json}
    {elems : List Json}
    (helems : p.arrayMember (lit "receivers") = .ok (some elems))
    (o : IterOrder Devices.Entry) (registry : SessionRegistry)
    (senderId : UInt64) :
    receiverFrames P o registry senderId p = [] ↔
      ∀ uid ∈ idsBefore P elems, uid ≠ 0 → uid ≠ senderId →
        registry.userConnectionCount uid = 0 := by
  simp only [receiverFrames, helems, Option.getD_some, List.flatMap_eq_nil_iff,
    mem_receiverIds_iff, sends_eq_nil_iff, List.not_mem_nil, not_false_eq_true,
    and_true]
  constructor
  · intro hnone uid hmem hzero hsender
    exact hnone uid ⟨⟨hzero, hsender⟩, hmem⟩
  · intro hnone uid hmem
    exact hnone uid hmem.2 hmem.1.1 hmem.1.2

/-- An event that answers nobody leaves the pending map as it finds it if it
finds no entry of its id. -/
theorem answer_silent_iff (o : IterOrder Devices.Entry)
    (event : ChatMsgSend) (p : Json) (s : Server) :
    senderFrames o s.registry event p (s.pending.lookup event.clientMsgId) = [] ∧
        s.pending.erase event.clientMsgId = s.pending ↔
      s.pending.lookup event.clientMsgId = none := by
  constructor
  · intro hsilent
    rw [← hsilent.2]
    exact AList.lookup_erase _ _
  · intro hnone
    rw [hnone]
    exact ⟨rfl, KeyMap.erase_of_lookup_eq_none hnone⟩

/-- What can be read is searched by name, so its receivers are found or
missing. -/
theorem exists_arrayMember_of_read {P : Platform} {p : Json} {event : ChatMsgSend}
    (hread : ChatMsgSend.read P.json p = .ok event) (key : StdString) :
    ∃ elems, p.arrayMember key = .ok elems := by
  have hid := (ChatMsgSend.read_eq_ok_iff.mp hread).1
  cases p with
  | null => exact ⟨none, rfl⟩
  | obj members =>
      simp only [Json.arrayMember, Json.isMember_obj, Json.member_obj, bind,
        Except.bind]
      split_ifs
      · split
        · exact ⟨_, rfl⟩
        · exact ⟨_, rfl⟩
      · exact ⟨_, rfl⟩
  | _ => simp [Json.getString, Json.get, Json.find, Except.map, Except.bind] at hid

/-- A message event that is read is atomic exactly under its condition. -/
theorem allOrNone_onChatMsgSend_iff (P : Platform) (o : IterOrder Devices.Entry)
    (clock : Clock) (p : Json) (s : Server) :
    (∀ thrown, (s.onChatMsgSend P o clock p).1 = .error thrown →
      newFrames s (s.onChatMsgSend P o clock p).2 = [] ∧
        (s.onChatMsgSend P o clock p).2.pending = s.pending) ↔
      SendAtomic P p s := by
  cases hread : ChatMsgSend.read P.json p with
  | error thrown =>
      have hvacuous : SendAtomic P p s := by
        intro event elems hok
        rw [hread] at hok
        contradiction
      rw [onChatMsgSend_of_throw hread]
      exact ⟨fun _ => hvacuous, fun _ _ _ => ⟨List.drop_length, rfl⟩⟩
  | ok event =>
      obtain ⟨receivers, hreceivers⟩ :=
        exists_arrayMember_of_read hread (lit "receivers")
      have hthrows : (∃ thrown, (s.onChatMsgSend P o clock p).1 =
          .error thrown) ↔ ¬ AllIds (receivers.getD []) := by
        rw [onChatMsgSend_of_read hread, hreceivers,
          ← pushReceivers_throws_iff P o event.senderId p _ []
            (s.answerPending o clock event p)]
        simp only
        cases (pushReceivers P o event.senderId p (receivers.getD []) []
          (s.answerPending o clock event p)).1 <;> simp [Except.map]
      rw [← exists_imp, hthrows, newFrames_onChatMsgSend hread,
        pending_onChatMsgSend hread, List.append_eq_nil_iff,
        and_right_comm, answer_silent_iff]
      cases receivers with
      | none => simp [AllIds, SendAtomic, hreceivers]
      | some elems =>
          rw [receiverFrames_eq_nil_iff hreceivers, ← or_iff_not_imp_left]
          constructor
          · intro hatomic event' elems' hread' hreceivers'
            obtain rfl := Except.ok.inj (hread.symm.trans hread')
            obtain rfl :=
              Option.some.inj (Except.ok.inj (hreceivers.symm.trans hreceivers'))
            exact hatomic
          · intro hatomic
            exact hatomic event elems hread hreceivers

theorem allOrNone_onConversationCreated_iff (P : Platform)
    (o : IterOrder Devices.Entry) (p : Json) (s : Server) :
    (∀ thrown, (s.onConversationCreated P o p).1 = .error thrown →
      newFrames s (s.onConversationCreated P o p).2 = [] ∧
        (s.onConversationCreated P o p).2.pending = s.pending) ↔
      CreatedAtomic P p s := by
  simp only [onConversationCreated, CreatedAtomic]
  cases p.arrayMember (lit "memberIds") with
  | error thrown => simp [newFrames]
  | ok members =>
      cases members with
      | none => simp
      | some elems =>
          simp only [Except.ok.injEq, Option.some.injEq, forall_eq']
          have hpushed : Does {} _ s _ :=
            does_pushEach o (lit "conversation.created") p
              ((idsBefore P elems).filter (0 < ·)) s
          rw [← exists_imp, pushMembers_throws_iff, ← or_iff_not_imp_left,
            newFrames, pushMembers_eq_foldl, frames_pushEach, List.drop_left,
            hpushed.pending_eq (fun _ => id) id]
          simp only [and_true, List.flatMap_eq_nil_iff, List.mem_filter,
            decide_eq_true_eq, sends_eq_nil_iff, and_imp, UInt64.pos_iff_ne_zero]

/-- The handlers that read all ids first do nothing when they throw. -/
theorem onEnvelope_of_throw {P : Platform} {o : IterOrder Devices.Entry}
    {clock : Clock} {env : Envelope} {s : Server} {thrown : Thrown}
    (hsend : env.type ≠ lit "chat.msg.send")
    (hcreated : env.type ≠ lit "chat.conversation.created")
    (hthrown : (s.onEnvelope P o clock env).1 = .error thrown) :
    (s.onEnvelope P o clock env).2 = s := by
  have htarget : ∀ field type, (s.pushToTarget P o field type env.payload).1 =
      .error thrown → (s.pushToTarget P o field type env.payload).2 = s := by
    intro field type
    simp only [pushToTarget]
    cases env.payload.getUInt64 P.json field with
    | error _ => exact fun _ => rfl
    | ok target =>
        simp only
        split_ifs
        · exact fun _ => rfl
        · intro hthrown
          contradiction
  simp only [onEnvelope, if_neg hsend, if_neg hcreated] at hthrown ⊢
  split_ifs at hthrown ⊢
  · exact htarget _ _ hthrown
  · simp only [onChatMsgRecall] at hthrown ⊢
    split at hthrown
    · rfl
    · contradiction
  · exact htarget _ _ hthrown
  · simp only [onFriendAccept] at hthrown ⊢
    split at hthrown
    · rfl
    · rfl
    · contradiction
  · simp only [onConversationMemberChanged] at hthrown ⊢
    split at hthrown
    · rfl
    · contradiction

/-- Handling an envelope is all or nothing exactly under the condition of its
type. -/
theorem allOrNone_iff_atomic (P : Platform) (o : IterOrder Devices.Entry)
    (clock : Clock) (env : Envelope) (s : Server) :
    s.AllOrNone P o clock env ↔ Atomic P env s := by
  by_cases hsend : env.type = lit "chat.msg.send"
  · have hother : env.type ≠ lit "chat.conversation.created" := by
      rw [hsend]
      simp
    have hhandler : s.onEnvelope P o clock env =
        s.onChatMsgSend P o clock env.payload := by
      simp only [onEnvelope, if_pos hsend]
    rw [AllOrNone, hhandler, allOrNone_onChatMsgSend_iff, Atomic]
    exact ⟨fun hatomic => ⟨fun _ => hatomic, fun heq => absurd heq hother⟩,
      fun hatomic => hatomic.1 hsend⟩
  · by_cases hcreated : env.type = lit "chat.conversation.created"
    · have hhandler : s.onEnvelope P o clock env =
          s.onConversationCreated P o env.payload := by
        simp [onEnvelope, hcreated]
      rw [AllOrNone, hhandler, allOrNone_onConversationCreated_iff, Atomic]
      exact ⟨fun hatomic => ⟨fun heq => absurd heq hsend, fun _ => hatomic⟩,
        fun hatomic => hatomic.2 hcreated⟩
    · have hvacuous : Atomic P env s :=
        ⟨fun heq => absurd heq hsend, fun heq => absurd heq hcreated⟩
      refine ⟨fun _ => hvacuous, fun _ thrown hthrown => ?_⟩
      rw [onEnvelope_of_throw hsend hcreated hthrown]
      exact ⟨List.drop_length, rfl⟩

namespace AllOrNoneWitness

open FanOutWitness (platform clock waiting)

/-- A message of user 1 whose second receiver is no id. -/
def payload : Json :=
  .object [("clientMsgId", .str (lit "m1")), ("messageId", .int 5),
    ("senderId", .uint 1), ("receivers", .arr [.uint 2, .str (lit "x")])]

def envelope : Envelope :=
  ⟨lit "e1", 1, [], lit "business", lit "chat.msg.send", payload⟩

theorem not_always_allOrNone :
    ¬ ∀ (P : Platform) (o : IterOrder Devices.Entry) (clock : Clock)
      (env : Envelope) (s : Server), s.AllOrNone P o clock env := by
  intro hall
  have hnone := hall platform (IterOrder.asKept _) clock envelope waiting
    .logicError (by decide +kernel)
  have hpending : (waiting.onEnvelope platform (IterOrder.asKept _) clock
      envelope).2.pending.lookup (lit "m1") = none := by decide +kernel
  rw [hnone.2] at hpending
  revert hpending
  decide +kernel

end AllOrNoneWitness

end Server

end FlzChat
