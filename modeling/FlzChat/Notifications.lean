/-
The notification events: who is named in the payload, and who is sent a frame.
Each handler collects its recipients in its own way; all but one collect them
without repetition.
-/
import FlzChat.FanOut

namespace FlzChat

/-- The ids in an array member; a missing one has none. -/
def Json.idList (J : Jsoncpp) (p : Json) (field : StdString) :
    Except Thrown (List UInt64) := do
  let elems ← p.arrayMember field
  (elems.getD []).mapM J.asUInt64

/-- The events that tell users about something. -/
def notificationTypes : List StdString :=
  [lit "chat.msg.replay", lit "chat.msg.recall", lit "chat.friend.request",
    lit "chat.friend.accept", lit "chat.conversation.created",
    lit "chat.conversation.member_changed"]

/-- The user ids a payload names as recipients, with repetitions; an error if
one of them is not an unsigned integer. -/
def namedIds (J : Jsoncpp) (env : Envelope) : Except Thrown (List UInt64) := do
  let p := env.payload
  if env.type = lit "chat.msg.replay" then
    let target ← p.getUInt64 J (lit "targetUserId")
    return [target]
  else if env.type = lit "chat.msg.recall" then
    let operatorId ← p.getUInt64 J (lit "operatorId")
    let receivers ← p.idList J (lit "receivers")
    return operatorId :: receivers
  else if env.type = lit "chat.friend.request" then
    let target ← p.getUInt64 J (lit "toUserId")
    return [target]
  else if env.type = lit "chat.friend.accept" then
    let fromUid ← p.getUInt64 J (lit "fromUserId")
    let toUid ← p.getUInt64 J (lit "toUserId")
    return [fromUid, toUid]
  else if env.type = lit "chat.conversation.created" then
    p.idList J (lit "memberIds")
  else if env.type = lit "chat.conversation.member_changed" then
    let added ← p.idList J (lit "addedIds")
    let removed ← p.idList J (lit "removedIds")
    let changes ← p.arrayMember (lit "roleChanges")
    let changed ← (changes.getD []).mapM fun change =>
      change.getUInt64 J (lit "userId")
    return added ++ removed ++ changed
  else return []

/-- How many of the frames go to a session. -/
def framesTo (session : SessionId) (sent : List (SessionId × Frame)) : Nat :=
  sent.countP fun one => one.1 = session

/-- Every registered connection of a named user gets one frame, and no session
but theirs gets any. -/
structure Server.NotifiesOnce (P : Platform) (o : IterOrder Devices.Entry)
    (clock : Clock) (env : Envelope) (ids : List UInt64) (s : Server) :
    Prop where
  named : ∀ u d c, s.registry.get u d = some c → u ≠ 0 → u ∈ ids →
    framesTo c.session (newFrames s (s.onEnvelope P o clock env).2) = 1
  others : ∀ session,
    (∀ u d c, s.registry.get u d = some c → c.session = session →
      ¬ (u ≠ 0 ∧ u ∈ ids)) →
    framesTo session (newFrames s (s.onEnvelope P o clock env).2) = 0

namespace Push

/-- The pushes go to the non-zero ids among those given, and as often as
`times` says. -/
def Reach (p : Json) (ids : List UInt64) (times : UInt64 → Nat)
    (pushes : List Push) : Prop :=
  ∃ type uids, pushes = pushAll type p uids ∧
    ∀ u, uids.count u = if u ≠ 0 ∧ u ∈ ids then times u else 0

/-- A list without repetition of the non-zero ids reaches each once. -/
theorem reach_once {p : Json} {ids uids : List UInt64} (type : StdString)
    (hnodup : uids.Nodup) (hmem : ∀ u, u ∈ uids ↔ u ≠ 0 ∧ u ∈ ids) :
    Reach p ids (fun _ => 1) (pushAll type p uids) := by
  refine ⟨type, uids, rfl, fun u => ?_⟩
  by_cases hu : u ∈ uids
  · rw [List.count_eq_one_of_mem hnodup hu, if_pos ((hmem u).mp hu)]
  · rw [List.count_eq_zero_of_not_mem hu, if_neg fun h => hu ((hmem u).mpr h)]

@[simp]
theorem mem_idSet {ids : List UInt64} {u : UInt64} : u ∈ idSet ids ↔ u ∈ ids := by
  simp [idSet]

theorem nodup_idSet (ids : List UInt64) : (idSet ids).Nodup :=
  (List.mergeSort_perm _ _).nodup_iff.mpr ids.nodup_dedup

theorem reach_idSet {p : Json} {ids collected : List UInt64} (type : StdString)
    (hmem : ∀ u, u ≠ 0 → (u ∈ collected ↔ u ∈ ids)) :
    Reach p ids (fun _ => 1) (ofUsers (.ok (idSet collected)) type p) := by
  apply reach_once type ((nodup_idSet collected).filter _)
  intro u
  simp only [List.mem_filter, mem_idSet, decide_eq_true_eq, ne_eq]
  constructor
  · rintro ⟨hu, hzero⟩
    exact ⟨hzero, (hmem u hzero).mp hu⟩
  · rintro ⟨hzero, hu⟩
    exact ⟨(hmem u hzero).mpr hu, hzero⟩

section

variable {P : Platform} {p : Json}

theorem reach_ofTarget {field : StdString} {target : UInt64}
    (htarget : p.getUInt64 P.json field = .ok target) (type : StdString) :
    Reach p [target] (fun _ => 1) (ofTarget P field type p) := by
  rw [ofTarget, htarget]
  simp only
  by_cases hzero : target = 0
  · rw [if_pos hzero]
    apply reach_once type List.nodup_nil
    simp [hzero]
  · rw [if_neg hzero]
    apply reach_once type (List.nodup_singleton target)
    intro u
    simp only [List.mem_singleton]
    constructor
    · rintro rfl
      exact ⟨hzero, rfl⟩
    · exact fun h => h.2

theorem reach_recalled {operatorId : UInt64} {receivers : List UInt64}
    (hoperator : p.getUInt64 P.json (lit "operatorId") = .ok operatorId)
    (hreceivers : p.idList P.json (lit "receivers") = .ok receivers)
    (type : StdString) :
    Reach p (operatorId :: receivers) (fun _ => 1)
      (ofUsers (recalled P p) type p) := by
  obtain ⟨elems, helems, hids⟩ := bind_eq_ok_iff.mp hreceivers
  have hcollected : recalled P p = .ok (idSet
      (if 0 < operatorId then operatorId :: receivers else receivers)) := by
    rw [recalled, hoperator, helems]
    change (((elems.getD []).mapM P.json.asUInt64).bind _) = _
    rw [hids]
    rfl
  rw [hcollected]
  apply reach_idSet
  intro u hu
  split_ifs with hpos
  · rfl
  · rw [UInt64.pos_iff_ne_zero, not_not] at hpos
    simp [hpos, hu]

theorem reach_ofFriendAccept {fromUid toUid : UInt64}
    (hfrom : p.getUInt64 P.json (lit "fromUserId") = .ok fromUid)
    (hto : p.getUInt64 P.json (lit "toUserId") = .ok toUid) :
    Reach p [fromUid, toUid] (fun _ => 1) (ofFriendAccept P p) := by
  rw [ofFriendAccept, hfrom, hto]
  simp only [UInt64.pos_iff_ne_zero]
  apply reach_once
  · split_ifs with hsome hother hother
    · simpa using fun h => hother.2 h.symm
    · simp
    · simp
    · simp
  · intro u
    split_ifs <;> grind

theorem reach_changed {added removed changed : List UInt64}
    {changes : Option (List Json)}
    (hadded : p.idList P.json (lit "addedIds") = .ok added)
    (hremoved : p.idList P.json (lit "removedIds") = .ok removed)
    (hchanges : p.arrayMember (lit "roleChanges") = .ok changes)
    (hchanged : ((changes.getD []).mapM fun change =>
      change.getUInt64 P.json (lit "userId")) = .ok changed)
    (type : StdString) :
    Reach p (added ++ removed ++ changed) (fun _ => 1)
      (ofUsers (Push.changed P p) type p) := by
  obtain ⟨addedElems, haddedElems, haddedIds⟩ := bind_eq_ok_iff.mp hadded
  obtain ⟨removedElems, hremovedElems, hremovedIds⟩ := bind_eq_ok_iff.mp hremoved
  have hcollected : Push.changed P p =
      .ok (idSet (added ++ removed ++ changed)) := by
    simp only [Push.changed, haddedElems, hremovedElems, hchanges]
    simp only [bind, Except.bind] at haddedIds hremovedIds hchanged ⊢
    simp only [haddedIds, hremovedIds, hchanged]
    rfl
  rw [hcollected]
  exact reach_idSet type fun _ _ => Iff.rfl

/-- The members of a new conversation are reached as often as they are
named. -/
theorem reach_ofConversationCreated {members : List UInt64}
    (hmembers : p.idList P.json (lit "memberIds") = .ok members) :
    Reach p members (fun u => members.count u) (ofConversationCreated P p) := by
  obtain ⟨elems, helems, hids⟩ := bind_eq_ok_iff.mp hmembers
  have hpushes : ofConversationCreated P p =
      pushAll (lit "conversation.created") p (members.filter (0 < ·)) := by
    rw [ofConversationCreated, helems]
    cases elems with
    | none =>
        obtain rfl : [] = members := Except.ok.inj hids
        rfl
    | some elems =>
        rw [Option.getD_some] at hids
        simp only [Server.idsBefore_of_mapM hids]
  refine ⟨_, _, hpushes, fun u => ?_⟩
  by_cases hzero : u = 0
  · subst hzero
    rw [if_neg (by simp), List.count_eq_zero_of_not_mem]
    simp
  · rw [List.count_filter (by simpa using UInt64.pos_iff_ne_zero.mpr hzero)]
    by_cases hmem : u ∈ members
    · rw [if_pos ⟨hzero, hmem⟩]
    · rw [if_neg fun h => hmem h.2, List.count_eq_zero_of_not_mem hmem]

end

/-- How often the handler of an event pushes to a user it names. -/
def times (env : Envelope) (ids : List UInt64) (u : UInt64) : Nat :=
  if env.type = lit "chat.conversation.created" then ids.count u else 1

theorem times_of_ne {env : Envelope} {type : StdString}
    (htype : env.type = type) (hne : type ≠ lit "chat.conversation.created")
    (ids : List UInt64) : times env ids = fun _ => 1 := by
  funext u
  rw [times, if_neg (htype ▸ hne)]

/-- Every notification reaches the users it names, each once but for the
members of a new conversation. -/
theorem reach_ofEnvelope {P : Platform} {env : Envelope} {ids : List UInt64}
    (htype : env.type ∈ notificationTypes)
    (hids : namedIds P.json env = .ok ids) (pending : Option PendingSend) :
    Reach env.payload ids (times env ids) (ofEnvelope P pending env) := by
  simp only [namedIds] at hids
  rw [ofEnvelope]
  split_ifs with hsend hreplay hrecall hrequest haccept hcreated hchanged
  · rw [hsend] at htype
    exact absurd htype (by decide)
  · rw [if_pos hreplay] at hids
    obtain ⟨target, htarget, hids⟩ := bind_eq_ok_iff.mp hids
    obtain rfl := Except.ok.inj hids
    rw [times_of_ne hreplay (by decide)]
    exact reach_ofTarget htarget _
  · rw [if_neg hreplay, if_pos hrecall] at hids
    obtain ⟨operatorId, hoperator, hids⟩ := bind_eq_ok_iff.mp hids
    obtain ⟨receivers, hreceivers, hids⟩ := bind_eq_ok_iff.mp hids
    obtain rfl := Except.ok.inj hids
    rw [times_of_ne hrecall (by decide)]
    exact reach_recalled hoperator hreceivers _
  · rw [if_neg hreplay, if_neg hrecall, if_pos hrequest] at hids
    obtain ⟨target, htarget, hids⟩ := bind_eq_ok_iff.mp hids
    obtain rfl := Except.ok.inj hids
    rw [times_of_ne hrequest (by decide)]
    exact reach_ofTarget htarget _
  · rw [if_neg hreplay, if_neg hrecall, if_neg hrequest, if_pos haccept] at hids
    obtain ⟨fromUid, hfrom, hids⟩ := bind_eq_ok_iff.mp hids
    obtain ⟨toUid, hto, hids⟩ := bind_eq_ok_iff.mp hids
    obtain rfl := Except.ok.inj hids
    rw [times_of_ne haccept (by decide)]
    exact reach_ofFriendAccept hfrom hto
  · rw [if_neg hreplay, if_neg hrecall, if_neg hrequest, if_neg haccept,
      if_pos hcreated] at hids
    have htimes : times env ids = fun u => ids.count u := by
      funext u
      rw [times, if_pos hcreated]
    rw [htimes]
    exact reach_ofConversationCreated hids
  · rw [if_neg hreplay, if_neg hrecall, if_neg hrequest, if_neg haccept,
      if_neg hcreated, if_pos hchanged] at hids
    obtain ⟨added, hadded, hids⟩ := bind_eq_ok_iff.mp hids
    obtain ⟨removed, hremoved, hids⟩ := bind_eq_ok_iff.mp hids
    obtain ⟨changes, hchanges, hids⟩ := bind_eq_ok_iff.mp hids
    obtain ⟨changedIds, hchangedIds, hids⟩ := bind_eq_ok_iff.mp hids
    obtain rfl := Except.ok.inj hids
    rw [times_of_ne hchanged (by decide)]
    exact reach_changed hadded hremoved hchanges hchangedIds _
  · simp only [notificationTypes, List.mem_cons, List.not_mem_nil, or_false]
      at htype
    tauto

end Push

namespace Server

theorem framesTo_append (session : SessionId)
    (l l' : List (SessionId × Frame)) :
    framesTo session (l ++ l') = framesTo session l + framesTo session l' :=
  List.countP_append

/-- A registered connection gets one frame each time its user is pushed to. -/
theorem framesTo_flatMap {r : SessionRegistry} (hr : r.Separated)
    (o : IterOrder Devices.Entry) (frame : Frame) (uids : List UInt64)
    {u : UInt64} {d : StdString} {c : OnlineConn} (hget : r.get u d = some c) :
    framesTo c.session (uids.flatMap fun uid => r.sends o uid fun _ => frame) =
      uids.count u := by
  induction uids with
  | nil => rfl
  | cons uid uids ih =>
      have hfirst : framesTo c.session (r.sends o uid fun _ => frame) =
          if uid = u then 1 else 0 := by
        rw [framesTo, List.countP_eq_length_filter,
          hr.filter_sends o uid _ hget]
        split_ifs <;> rfl
      rw [List.flatMap_cons, framesTo_append, ih, hfirst, List.count_cons,
        Nat.add_comm]
      simp only [beq_iff_eq]

/-- A session nobody pushed to has registered gets none. -/
theorem framesTo_flatMap_eq_zero {r : SessionRegistry}
    {o : IterOrder Devices.Entry} {frame : Frame} {uids : List UInt64}
    {session : SessionId}
    (hnone : ∀ u d c, r.get u d = some c → c.session = session → u ∉ uids) :
    framesTo session (uids.flatMap fun uid => r.sends o uid fun _ => frame) =
      0 := by
  apply List.countP_eq_zero.mpr
  intro sent hsent
  obtain ⟨uid, huid, hsent⟩ := List.mem_flatMap.mp hsent
  obtain ⟨d, c, hget, rfl⟩ := SessionRegistry.mem_sends.mp hsent
  simp only [decide_eq_true_eq]
  intro hsame
  exact hnone uid d c hget hsame huid

/-- The frames of a notification, as pushes of one frame. -/
theorem newFrames_of_pushAll {P : Platform} (o : IterOrder Devices.Entry)
    (clock : Clock) {env : Envelope} {s : Server} {type : StdString}
    {uids : List UInt64}
    (hpushes : Push.ofEnvelope P (s.pendingOf P.json env.payload) env =
      pushAll type env.payload uids) :
    newFrames s (s.onEnvelope P o clock env).2 =
      uids.flatMap fun uid => s.registry.sends o uid fun _ =>
        ⟨type, env.payload, false, 0⟩ := by
  have hdoes : Does { forgets := True, observes := True } _ s _ :=
    does_onEnvelope env (fun _ => ⟨trivial, trivial⟩) P o clock s
  rw [newFrames, hdoes.frames, List.drop_left, hpushes, frames_pushEffects, pushAll,
    List.flatMap_map]

/-- Each connection of a named user is sent one frame, and nobody else any,
exactly when no member of a new conversation who is named twice has a
registered connection. -/
theorem notifiesOnce_iff (P : Platform) (o : IterOrder Devices.Entry)
    (clock : Clock) (env : Envelope) (ids : List UInt64) (s : Server)
    (hr : s.registry.Separated) (htype : env.type ∈ notificationTypes)
    (hids : namedIds P.json env = .ok ids) :
    s.NotifiesOnce P o clock env ids ↔
      (env.type = lit "chat.conversation.created" →
        ∀ u, u ≠ 0 → 1 < ids.count u → s.registry.userConnectionCount u = 0) := by
  obtain ⟨type, uids, hpushes, hcount⟩ := Push.reach_ofEnvelope htype hids
    (s.pendingOf P.json env.payload)
  have hframes := newFrames_of_pushAll o clock hpushes
  constructor
  · intro honce hcreated u hu hrepeated
    apply Nat.eq_zero_of_not_pos
    intro hpos
    obtain ⟨d, c, hget⟩ := SessionRegistry.userConnectionCount_pos_iff.mp hpos
    have hmem : u ∈ ids := List.count_pos_iff.mp (Nat.zero_lt_of_lt hrepeated)
    have hone := honce.named u d c hget hu hmem
    rw [hframes, framesTo_flatMap hr o _ uids hget, hcount, if_pos ⟨hu, hmem⟩,
      Push.times, if_pos hcreated] at hone
    omega
  · intro hdistinct
    constructor
    · intro u d c hget hu hmem
      rw [hframes, framesTo_flatMap hr o _ uids hget, hcount, if_pos ⟨hu, hmem⟩,
        Push.times]
      split_ifs with hcreated
      · have hpos := SessionRegistry.userConnectionCount_pos_iff.mpr ⟨d, c, hget⟩
        have hle : ¬ 1 < ids.count u :=
          fun hrepeated => hpos.ne' (hdistinct hcreated u hu hrepeated)
        have := List.count_pos_iff.mpr hmem
        omega
      · rfl
    · intro session hnone
      rw [hframes]
      apply framesTo_flatMap_eq_zero
      intro u d c hget hsame hmem
      have hzero := hcount u
      rw [if_neg (hnone u d c hget hsame)] at hzero
      exact (List.count_eq_zero.mp hzero) hmem

namespace NotificationWitness

open FanOutWitness (platform clock separated_registry)

/-- A conversation whose member 2 is named twice. -/
def created : Envelope :=
  ⟨lit "e1", 1, [], [], lit "chat.conversation.created",
    .object [("memberIds", .arr [.uint 2, .uint 1, .uint 2])]⟩

/-- A recall with the same repetition. -/
def repeatedRecall : Envelope :=
  ⟨lit "e2", 1, [], [], lit "chat.msg.recall",
    .object [("operatorId", .uint 2),
      ("receivers", .arr [.uint 2, .uint 1, .uint 2])]⟩

theorem notifiesOnce_recall :
    ({ registry := FanOutWitness.registry } : Server).NotifiesOnce platform
      (IterOrder.asKept _) clock repeatedRecall [2, 2, 1, 2] :=
  (notifiesOnce_iff platform (IterOrder.asKept _) clock repeatedRecall [2, 2, 1, 2]
    { registry := FanOutWitness.registry } separated_registry (by decide +kernel)
    (by decide +kernel)).mpr fun hcreated => absurd hcreated (by decide)

/-- User 2 gets the event twice. -/
theorem not_all_notifiesOnce :
    ¬ ∀ (P : Platform) (o : IterOrder Devices.Entry) (clock : Clock)
      (env : Envelope) (ids : List UInt64) (s : Server),
      s.registry.Separated → env.type ∈ notificationTypes →
        namedIds P.json env = .ok ids → s.NotifiesOnce P o clock env ids := by
  intro hall
  have honce := hall platform (IterOrder.asKept _) clock created [2, 1, 2]
    { registry := FanOutWitness.registry } separated_registry (by decide +kernel)
    (by decide +kernel)
  have hone := honce.named 2 (lit "d1") (FanOutWitness.conn 2 2)
    (by decide +kernel) (by decide) (by decide)
  exact absurd hone (by decide +kernel)

end NotificationWitness

end Server

end FlzChat
