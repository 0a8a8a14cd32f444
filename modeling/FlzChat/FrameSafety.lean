/-
Which client frames make `handle` throw.  The checks `ParseClientFrame` makes do
not cover the conversions made afterwards, so the answer follows the members
each branch reads.
-/
import FlzChat.ChatServlet

namespace FlzChat

namespace Json

/-- What can be searched by name: the members of an object, none of null. -/
def members? : Json → Option (List (StdString × Json))
  | null => some []
  | obj members => some members
  | _ => none

/-- The value converts to a 64-bit integer. -/
def FitsInt64 (v : Json) : Prop :=
  (v.within (-2 ^ 63) (2 ^ 63 - 1)).isSome = true

instance (v : Json) : Decidable v.FitsInt64 :=
  inferInstanceAs (Decidable (_ = _))

/-- The check `ParseClientFrame` makes of `seq`. -/
def IntegerKind (v : Json) : Prop :=
  ¬ (v.isInt64 = false ∧ v.isUInt64 = false ∧ v.isInt = false)

instance (v : Json) : Decidable v.IntegerKind :=
  inferInstanceAs (Decidable (¬ _))

theorem get_eq_members (v : Json) (key : StdString) (default : Json) :
    v.get key default = v.members?.elim (.error .logicError)
      fun members => .ok ((members.lookup key).getD default) := by
  cases v <;> rfl

theorem exists_getString_iff (J : Jsoncpp) (v : Json) (key : StdString) :
    (∃ text, v.getString J key = .ok text) ↔
      ∃ members, v.members? = some members ∧ (textMember members key).Scalar := by
  rw [getString, get_eq_members]
  cases v.members? with
  | none => simp [Except.bind]
  | some members =>
      simp only [Option.elim_some, Except.bind, Option.some.injEq, exists_eq_left']
      exact J.exists_asString_iff _

theorem exists_getInt64_iff (J : Jsoncpp) (v : Json) (key : StdString) :
    (∃ n, v.getInt64 J key = .ok n) ↔
      ∃ members, v.members? = some members ∧
        (numberMember members key).FitsInt64 := by
  rw [getInt64, get_eq_members]
  cases v.members? with
  | none => simp [Except.bind]
  | some members =>
      simp only [Option.elim_some, Except.bind, Option.some.injEq, exists_eq_left']
      exact J.exists_asInt64_iff _

end Json

namespace Server

/-- What `HandleMsgSend` converts: three texts and a number. -/
def SendTyped (members : List (StdString × Json)) : Prop :=
  (Json.textMember members (lit "clientMsgId")).Scalar ∧
    (Json.numberMember members (lit "conversationId")).FitsInt64 ∧
    (Json.textMember members (lit "content")).Scalar ∧
    (Json.textMember members (lit "sentAt")).Scalar

/-- What the branch of a frame type converts. -/
def DataTyped (P : Platform) (type : StdString) (data : Json) : Prop :=
  if type = lit "ping" then data.members? ≠ none
  else if type = lit "msg.send" then
    ∃ members, data.members? = some members ∧ SendTyped members
  else if type = lit "msg.ack" then
    ∃ members, data.members? = some members ∧
      (Json.numberMember members (lit "messageId")).FitsInt64
  else if type = lit "msg.read" then
    P.logsInfo = true → ∃ members, data.members? = some members ∧
      (Json.numberMember members (lit "conversationId")).FitsInt64 ∧
      (Json.numberMember members (lit "lastReadMessageId")).FitsInt64
  else True

/-- What a frame object converts: its type, and where that is a text, its
sequence number if it passes the check of its kind, and its data. -/
def FrameTyped (P : Platform) (members : List (StdString × Json)) : Prop :=
  (Json.textMember members (lit "type")).Scalar ∧
    ∀ type, P.json.asString (Json.textMember members (lit "type")) = .ok type →
      type ≠ [] →
      match members.lookup (lit "seq") with
      | none => DataTyped P type ((members.lookup (lit "data")).getD (.obj []))
      | some seq => seq.IntegerKind → seq.FitsInt64 ∧
          DataTyped P type ((members.lookup (lit "data")).getD (.obj []))

/-- A payload that is a JSON object is well typed as far as it is read. -/
def PayloadTyped (P : Platform) (raw : StdString) : Prop :=
  ∀ members, P.fromString raw = some (.obj members) → FrameTyped P members

theorem read_returns_iff (J : Jsoncpp) (data : Json) :
    (∃ msg, MsgSend.read J data = .ok msg) ↔
      ∃ members, data.members? = some members ∧ SendTyped members := by
  have htexts : (∃ msg, MsgSend.read J data = .ok msg) ↔
      (∃ text, data.getString J (lit "clientMsgId") = .ok text) ∧
      (∃ n, data.getInt64 J (lit "conversationId") = .ok n) ∧
      (∃ text, data.getString J (lit "content") = .ok text) ∧
      (∃ text, data.getString J (lit "sentAt") = .ok text) ∧
      ∃ v, data.member (lit "mediaMeta") = .ok v := by
    simp only [MsgSend.read]
    cases data.getString J (lit "clientMsgId") <;>
      cases data.getInt64 J (lit "conversationId") <;>
      cases data.getString J (lit "content") <;>
      cases data.getString J (lit "sentAt") <;>
      cases data.member (lit "mediaMeta") <;>
      simp [bind, Except.bind, pure, Except.pure]
  rw [htexts]
  simp only [Json.exists_getString_iff, Json.exists_getInt64_iff, Json.member,
    Json.get_eq_members, SendTyped]
  cases data.members? with
  | none => simp
  | some members => simp

open JwtVerifier (Yields yields_ok)

variable {P : Platform}

theorem handleMsgSend_returns_iff (cfg : ChatConfig) (clock : Clock)
    (uid : UInt64) (did : StdString) (session : SessionId) (hasSeq : Bool)
    (seq : Int64) (data : Json) (s : Server) :
    (∃ code, (s.handleMsgSend P cfg clock uid did session hasSeq seq data).1 =
        .ok code) ↔
      ∃ members, data.members? = some members ∧ SendTyped members := by
  rw [← read_returns_iff P.json]
  simp only [handleMsgSend, handleMsgSendWith]
  cases MsgSend.read P.json data with
  | error thrown => simp
  | ok msg =>
      simp only [Except.ok.injEq, exists_eq', iff_true]
      generalize (if msg.sentAt = [] then { msg with sentAt := clock.iso8601Now }
        else msg) = msg
      split_ifs
      · exact ⟨0, rfl⟩
      · exact ⟨0, rfl⟩
      · split <;> exact ⟨0, rfl⟩

theorem handleMsgAck_returns_iff (cfg : ChatConfig) (clock : Clock)
    (uid : UInt64) (session : SessionId) (hasSeq : Bool) (seq : Int64)
    (data : Json) (s : Server) :
    (∃ code, (s.handleMsgAck P cfg clock uid session hasSeq seq data).1 =
        .ok code) ↔
      ∃ members, data.members? = some members ∧
        (Json.numberMember members (lit "messageId")).FitsInt64 := by
  rw [← Json.exists_getInt64_iff P.json]
  simp only [handleMsgAck]
  cases data.getInt64 P.json (lit "messageId") with
  | error thrown => simp
  | ok messageId =>
      simp only [Except.ok.injEq, exists_eq', iff_true]
      split_ifs
      · exact ⟨0, rfl⟩
      · split <;> exact ⟨0, rfl⟩

theorem handleMsgRead_returns_iff (data : Json) (s : Server) :
    (∃ code, (s.handleMsgRead P data).1 = .ok code) ↔
      (P.logsInfo = true → ∃ members, data.members? = some members ∧
        (Json.numberMember members (lit "conversationId")).FitsInt64 ∧
        (Json.numberMember members (lit "lastReadMessageId")).FitsInt64) := by
  have hboth : (∃ members, data.members? = some members ∧
      (Json.numberMember members (lit "conversationId")).FitsInt64 ∧
      (Json.numberMember members (lit "lastReadMessageId")).FitsInt64) ↔
      (∃ n, data.getInt64 P.json (lit "conversationId") = .ok n) ∧
        ∃ n, data.getInt64 P.json (lit "lastReadMessageId") = .ok n := by
    simp only [Json.exists_getInt64_iff]
    cases data.members? <;> simp
  rw [hboth]
  simp only [handleMsgRead]
  cases P.logsInfo with
  | false => simp
  | true =>
      cases data.getInt64 P.json (lit "conversationId") <;>
        cases data.getInt64 P.json (lit "lastReadMessageId") <;> simp

/-- The branch of a frame returns exactly when its data converts. -/
theorem dispatchFrame_returns_iff (cfg : ChatConfig) (clock : Clock)
    (uid : UInt64) (did : StdString) (session : SessionId) (frame : ClientFrame)
    (s : Server) :
    (∃ code, (s.dispatchFrame P cfg clock uid did session frame).1 =
        .ok code) ↔ DataTyped P frame.type frame.data := by
  simp only [dispatchFrame, DataTyped]
  split_ifs
  · rw [Json.get_eq_members]
    cases frame.data.members? <;> simp
  · exact handleMsgSend_returns_iff cfg clock uid did session _ _ _ _
  · exact handleMsgAck_returns_iff cfg clock uid session _ _ _ _
  · exact handleMsgRead_returns_iff frame.data _
  · simp
  · simp

/-- What a frame object comes to: nothing if a conversion throws, a refusal, or
a frame with its type and data. -/
theorem parseClientFrame_typed_iff {raw : StdString}
    {members : List (StdString × Json)}
    (hraw : P.fromString raw = some (.obj members)) :
    FrameTyped P members ↔ ∃ parsed, parseClientFrame P raw = .ok parsed ∧
      ∀ frame, parsed = .ok frame → DataTyped P frame.type frame.data := by
  have hfits : ∀ v : Json, v.FitsInt64 ↔ ∃ n, P.json.asInt64 v = .ok n :=
    fun v => (P.json.exists_asInt64_iff v).symm
  simp only [parseClientFrame, hraw, Json.isObject, FrameTyped,
    Bool.true_eq_false, if_false, Json.getString_obj, Json.isMember_obj,
    Json.member_obj, ← P.json.exists_asString_iff]
  cases P.json.asString (Json.textMember members (lit "type")) with
  | error thrown => simp [bind, Except.bind]
  | ok type =>
      by_cases htype : type = []
      · simp [bind, Except.bind, htype, pure, Except.pure]
      · cases hseq : members.lookup (lit "seq") with
        | none =>
            cases members.lookup (lit "data") <;>
              simp [bind, Except.bind, htype, pure, Except.pure]
        | some seq =>
            by_cases hkind : seq.IntegerKind
            · have hpasses := hkind
              simp only [Json.IntegerKind] at hpasses
              cases hread : P.json.asInt64 seq <;>
                cases members.lookup (lit "data") <;>
                simp [bind, Except.bind, htype, pure, Except.pure, hpasses, hkind,
                  hfits, hread]
            · have hfails := not_not.mp hkind
              simp [bind, Except.bind, htype, pure, Except.pure, hkind, hfails]

/-- Every branch answers 0 or 1. -/
theorem yields_dispatchFrame (cfg : ChatConfig) (clock : Clock) (uid : UInt64)
    (did : StdString) (session : SessionId) (frame : ClientFrame) (s : Server) :
    Yields (fun code => code = 0 ∨ code = 1)
      (s.dispatchFrame P cfg clock uid did session frame).1 := by
  have hzero : Yields (fun code : Int32 => code = 0 ∨ code = 1) (.ok 0) :=
    yields_ok (Or.inl rfl)
  have hthrown : ∀ thrown, Yields (fun code : Int32 => code = 0 ∨ code = 1)
      (.error thrown) := by
    intro thrown code hcode
    contradiction
  simp only [dispatchFrame]
  split_ifs
  · split
    · exact hthrown _
    · exact hzero
  · simp only [handleMsgSend, handleMsgSendWith]
    cases MsgSend.read P.json frame.data with
    | error thrown => exact hthrown thrown
    | ok msg =>
        simp only
        generalize (if msg.sentAt = [] then
          { msg with sentAt := clock.iso8601Now } else msg) = msg
        split_ifs
        · exact hzero
        · exact hzero
        · split <;> exact hzero
  · simp only [handleMsgAck]
    cases frame.data.getInt64 P.json (lit "messageId") with
    | error thrown => exact hthrown thrown
    | ok messageId =>
        simp only
        split_ifs
        · exact hzero
        · split <;> exact hzero
  · simp only [handleMsgRead]
    split_ifs
    · exact hzero
    · split
      · exact hzero
      · exact hthrown _
      · exact hthrown _
  · exact yields_ok (Or.inr rfl)
  · exact hzero

/-- A text frame of a logged-in connection is handled without an exception
exactly when it is dropped by the rate limit or well typed as far as it is
read. -/
theorem handle_returns_iff_payloadTyped (P : Platform) (cfg : ChatConfig)
    (clock : Clock) {request : HttpRequest} {uid : UInt64} {did : StdString}
    (hidentity : identity P request = (uid, did)) (huid : uid ≠ 0)
    (hdid : did ≠ []) (raw : StdString) (session : SessionId) (s : Server) :
    (∃ code, (s.handle P cfg clock request true raw session).1 = .ok code ∧
        (code = 0 ∨ code = 1)) ↔
      (s.spendToken cfg clock.nowMs uid did).1 = false ∨ PayloadTyped P raw := by
  simp only [handle, hidentity, Bool.true_eq_false, huid, hdid, or_self, if_false]
  obtain ⟨spent, s'⟩ := s.spendToken cfg clock.nowMs uid did
  cases spent with
  | false => simp
  | true =>
      simp only [Bool.true_eq_false, false_or, PayloadTyped]
      generalize ({ s' with registry := s'.registry.touch uid did clock.nowMs } :
        Server) = s'
      cases hraw : P.fromString raw with
      | none => simp [parseClientFrame, hraw]
      | some json =>
          cases json with
          | obj members =>
              have htyped : (∀ members', some (Json.obj members) =
                  some (Json.obj members') → FrameTyped P members') ↔
                  FrameTyped P members := by simp
              rw [htyped, parseClientFrame_typed_iff hraw]
              cases parseClientFrame P raw with
              | error thrown => simp
              | ok parsed =>
                  cases parsed with
                  | error err => simp
                  | ok frame =>
                      have hreturns := dispatchFrame_returns_iff (P := P) cfg
                        clock uid did session frame s'
                      have hcode := yields_dispatchFrame (P := P) cfg clock uid
                        did session frame s'
                      simp only [Except.ok.injEq, exists_eq_left', forall_eq']
                      rw [← hreturns]
                      exact ⟨fun ⟨code, heq, _⟩ => ⟨code, heq⟩,
                        fun ⟨code, heq⟩ => ⟨code, heq, hcode code heq⟩⟩
          | _ => simp [parseClientFrame, hraw, Json.isObject]

/-- What `BuildFrame` builds, `ParseClientFrame` takes apart. -/
theorem parseClientFrame_buildFrame {P : Platform} {raw : StdString}
    {frame : Frame} (hraw : P.fromString raw = some (buildFrame frame))
    (htype : frame.type ≠ []) :
    parseClientFrame P raw = .ok (.ok ⟨frame.type, frame.hasSeq,
      if frame.hasSeq then frame.seq else 0, frame.data⟩) := by
  have hname : P.json.asString (.str frame.type) = .ok frame.type :=
    P.json.asString_str frame.type
  have hbind : ∀ {α β : Type} (a : α) (f : α → Except Thrown β),
      (Except.ok a >>= f) = f a := fun _ _ => rfl
  simp only [parseClientFrame, hraw, buildFrame, Json.object]
  cases frame.hasSeq with
  | false =>
      simp [Json.isObject, Json.textMember, List.lookup_cons, hname, htype, hbind]
      rfl
  | true =>
      simp [Json.isObject, Json.textMember, List.lookup_cons, hname, htype, hbind,
        Json.isInt64]

namespace FrameSafetyWitness

/-- A `seq` above the range of `int64_t` passes the check of its kind. -/
def hugeSeq : StdString := lit "\x7b\"type\":\"bye\",\"seq\":9223372036854775808\x7d"

def ping : StdString := lit "\x7b\"type\":\"ping\"\x7d"

def platform : Platform :=
  Platform.ofTables
    [(hugeSeq, .object [("type", .str (lit "bye")),
      ("seq", .uint 9223372036854775808)]),
    (ping, .object [("type", .str (lit "ping"))])] [] [] []

/-- The request of user 7 on device `d1`. -/
def request : HttpRequest :=
  ⟨fun _ => [], fun name =>
    if name = lit "$uid" then lit "7" else if name = lit "$did" then lit "d1"
    else []⟩

def clock : Clock := ⟨0, 0, []⟩

theorem identity_request : identity platform request = (7, lit "d1") := by
  decide +kernel

theorem handle_returns_ping :
    ∃ code, (handle platform {} clock request true ping 1 {}).1 = .ok code ∧
      (code = 0 ∨ code = 1) := by
  apply (handle_returns_iff_payloadTyped platform {} clock identity_request
    (by decide) (by decide) ping 1 {}).mpr
  right
  intro members hmembers
  obtain rfl : [(lit "type", .str (lit "ping"))] = members := by
    have hparsed : platform.fromString ping =
        some (.obj [(lit "type", .str (lit "ping"))]) := rfl
    rw [hparsed] at hmembers
    simpa using hmembers
  refine ⟨by decide +kernel, ?_⟩
  intro type htype _
  have hping : lit "ping" = type := by
    have hread : platform.json.asString (Json.textMember
        [(lit "type", .str (lit "ping"))] (lit "type")) = .ok (lit "ping") := rfl
    rw [hread] at htype
    exact Except.ok.inj htype
  subst hping
  change DataTyped platform (lit "ping") (.obj [])
  simp [DataTyped, Json.members?]

theorem not_always_returns :
    identity platform request = (7, lit "d1") ∧
      (handle platform {} clock request true hugeSeq 1 {}).1 =
        .error .logicError := by
  exact ⟨identity_request, rfl⟩

end FrameSafetyWitness

end Server

end FlzChat
