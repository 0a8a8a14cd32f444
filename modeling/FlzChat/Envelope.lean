/-
The envelope every broker message is wrapped in.
-/
import FlzChat.Platform

namespace FlzChat

structure Envelope where
  msgId : StdString
  version : Int32
  occurredAt : StdString
  source : StdString
  type : StdString
  payload : Json

def envelopeToJson (env : Envelope) : Json :=
  .object [("msgId", .str env.msgId),
    ("version", .int (Int64.ofInt env.version.toInt)),
    ("occurredAt", .str env.occurredAt),
    ("source", .str env.source),
    ("type", .str env.type),
    ("payload", env.payload)]

def envelopeToString (P : Platform) (env : Envelope) : StdString :=
  P.toString (envelopeToJson env)

/-- `EnvelopeFromJson`.  The outer result is what jsoncpp may throw, the inner
one the text left in `err` when the function returns false. -/
def envelopeFromJson (J : Jsoncpp) (v : Json) :
    Except Thrown (Except StdString Envelope) :=
  if v.isObject = false then .ok (.error (lit "envelope must be object"))
  else do
    let msgId ← v.getString J (lit "msgId")
    let version ← v.getInt J (lit "version")
    let occurredAt ← v.getString J (lit "occurredAt")
    let source ← v.getString J (lit "source")
    let type ← v.getString J (lit "type")
    let payload ← v.member (lit "payload")
    if msgId = [] ∨ type = [] ∨ version ≤ 0 then
      return .error (lit "envelope required fields missing")
    let payload :=
      if payload.isObject = false ∧ payload.isArray = false then .obj []
      else payload
    return .ok ⟨msgId, version, occurredAt, source, type, payload⟩

def envelopeFromString (P : Platform) (body : StdString) :
    Except Thrown (Except StdString Envelope) :=
  match P.fromString body with
  | none => .ok (.error (lit "envelope json parse failed"))
  | some v => envelopeFromJson P.json v

/-- `BuildEnvelope`; `msgId` is the fresh `Uuid::V4`. -/
def buildEnvelope (clock : Clock) (msgId source type : StdString)
    (payload : Json) : Envelope :=
  ⟨msgId, 1, clock.iso8601Now, source, type, payload⟩

/-- The member types `EnvelopeFromJson` can convert. -/
structure EnvelopeTyped (members : List (StdString × Json)) : Prop where
  msgId : (Json.textMember members (lit "msgId")).Scalar
  version : ((Json.numberMember members (lit "version")).within
    (-2 ^ 31) (2 ^ 31 - 1)).isSome = true
  occurredAt : (Json.textMember members (lit "occurredAt")).Scalar
  source : (Json.textMember members (lit "source")).Scalar
  type : (Json.textMember members (lit "type")).Scalar

/-- Decoding an object returns exactly when the five members it converts have
a convertible type. -/
theorem envelopeFromJson_returns_iff (J : Jsoncpp)
    (members : List (StdString × Json)) :
    (∃ res, envelopeFromJson J (.obj members) = .ok res) ↔
      EnvelopeTyped members := by
  constructor
  · rintro ⟨res, hres⟩
    simp only [envelopeFromJson, Json.isObject, Bool.true_eq_false, if_false,
      Json.getString_obj, Json.getInt_obj] at hres
    obtain ⟨msgId, hmsgId, hres⟩ := bind_eq_ok_iff.mp hres
    obtain ⟨version, hversion, hres⟩ := bind_eq_ok_iff.mp hres
    obtain ⟨occurredAt, hoccurredAt, hres⟩ := bind_eq_ok_iff.mp hres
    obtain ⟨source, hsource, hres⟩ := bind_eq_ok_iff.mp hres
    obtain ⟨type, htype, hres⟩ := bind_eq_ok_iff.mp hres
    exact ⟨(J.exists_asString_iff _).mp ⟨msgId, hmsgId⟩,
      (J.exists_asInt_iff _).mp ⟨version, hversion⟩,
      (J.exists_asString_iff _).mp ⟨occurredAt, hoccurredAt⟩,
      (J.exists_asString_iff _).mp ⟨source, hsource⟩,
      (J.exists_asString_iff _).mp ⟨type, htype⟩⟩
  · rintro ⟨hmsgId, hversion, hoccurredAt, hsource, htype⟩
    obtain ⟨msgId, hmsgId⟩ := (J.exists_asString_iff _).mpr hmsgId
    obtain ⟨version, hversion⟩ := (J.exists_asInt_iff _).mpr hversion
    obtain ⟨occurredAt, hoccurredAt⟩ := (J.exists_asString_iff _).mpr hoccurredAt
    obtain ⟨source, hsource⟩ := (J.exists_asString_iff _).mpr hsource
    obtain ⟨type, htype⟩ := (J.exists_asString_iff _).mpr htype
    simp only [envelopeFromJson, Json.isObject, Bool.true_eq_false, if_false,
      Json.getString_obj, Json.getInt_obj, Json.member_obj, bind, Except.bind,
      hmsgId, hversion, hoccurredAt, hsource, htype]
    split
    · exact ⟨_, rfl⟩
    · exact ⟨_, rfl⟩

/-- What decoding yields: an id, a type, a version from one on, and a payload
with members or elements. -/
structure Envelope.WellFormed (env : Envelope) : Prop where
  msgId : env.msgId ≠ []
  type : env.type ≠ []
  version : 0 < env.version
  payload : env.payload.isObject = true ∨ env.payload.isArray = true

theorem wellFormed_of_envelopeFromJson {J : Jsoncpp} {v : Json}
    {env : Envelope} (hdecodes : envelopeFromJson J v = .ok (.ok env)) :
    env.WellFormed := by
  unfold envelopeFromJson at hdecodes
  split_ifs at hdecodes with hobject
  · simp at hdecodes
  · obtain ⟨msgId, _, hdecodes⟩ := bind_eq_ok_iff.mp hdecodes
    obtain ⟨version, _, hdecodes⟩ := bind_eq_ok_iff.mp hdecodes
    obtain ⟨occurredAt, _, hdecodes⟩ := bind_eq_ok_iff.mp hdecodes
    obtain ⟨source, _, hdecodes⟩ := bind_eq_ok_iff.mp hdecodes
    obtain ⟨type, _, hdecodes⟩ := bind_eq_ok_iff.mp hdecodes
    obtain ⟨payload, _, hdecodes⟩ := bind_eq_ok_iff.mp hdecodes
    split at hdecodes
    · simp [pure, Except.pure] at hdecodes
    · next hvalid =>
        simp only [not_or, Int32.not_le] at hvalid
        obtain ⟨hmsgId, htype, hversion⟩ := hvalid
        simp only [pure, Except.pure, Except.ok.injEq] at hdecodes
        rw [← hdecodes]
        refine ⟨hmsgId, htype, hversion, ?_⟩
        -- a payload of another kind has been replaced by an object
        by_cases hkind : payload.isObject = false ∧ payload.isArray = false
        · rw [if_pos hkind]
          exact Or.inl rfl
        · rw [if_neg hkind]
          rw [not_and_or, Bool.not_eq_false, Bool.not_eq_false] at hkind
          exact hkind

/-- The members an envelope is written to, as they are read back. -/
theorem read_envelopeToJson (J : Jsoncpp) (env : Envelope) :
    (envelopeToJson env).getString J (lit "msgId") = .ok env.msgId ∧
      (envelopeToJson env).getInt J (lit "version") = .ok env.version ∧
      (envelopeToJson env).getString J (lit "occurredAt") = .ok env.occurredAt ∧
      (envelopeToJson env).getString J (lit "source") = .ok env.source ∧
      (envelopeToJson env).getString J (lit "type") = .ok env.type ∧
      (envelopeToJson env).member (lit "payload") = .ok env.payload :=
  ⟨J.asString_str _, J.asInt_ofInt _, J.asString_str _, J.asString_str _,
    J.asString_str _, rfl⟩

/-- A well-formed envelope is read back from the members it is written to. -/
theorem envelopeFromJson_toJson (J : Jsoncpp) {env : Envelope}
    (hwellFormed : env.WellFormed) :
    envelopeFromJson J (envelopeToJson env) = .ok (.ok env) := by
  obtain ⟨hmsgId, htype, hversion, hpayload⟩ := hwellFormed
  have hrequired : ¬ (env.msgId = [] ∨ env.type = [] ∨ env.version ≤ 0) := by
    simp only [not_or, Int32.not_le]
    exact ⟨hmsgId, htype, hversion⟩
  have hkept : ¬ (env.payload.isObject = false ∧ env.payload.isArray = false) := by
    rw [not_and_or, Bool.not_eq_false, Bool.not_eq_false]
    exact hpayload
  obtain ⟨hreadMsgId, hreadVersion, hreadOccurredAt, hreadSource, hreadType,
    hreadPayload⟩ := read_envelopeToJson J env
  have hobject : (envelopeToJson env).isObject = true := rfl
  simp only [envelopeFromJson, hobject, Bool.true_eq_false, hreadMsgId, hreadVersion, hreadOccurredAt,
    hreadSource, hreadType, hreadPayload, hrequired, hkept, if_false, bind,
    Except.bind, pure, Except.pure]

theorem wellFormed_of_envelopeFromString {P : Platform} {body : StdString}
    {env : Envelope} (hdecodes : envelopeFromString P body = .ok (.ok env)) :
    env.WellFormed := by
  unfold envelopeFromString at hdecodes
  split at hdecodes
  · simp at hdecodes
  · exact wellFormed_of_envelopeFromJson hdecodes

/-- Writing undoes reading: what is read back from a well-formed envelope, and
from any envelope that was itself read from something, is that envelope.  The
same holds of texts as far as what is printed is read back. -/
theorem decoding_retracts (P : Platform) :
    (∀ env : Envelope, env.WellFormed →
        envelopeFromJson P.json (envelopeToJson env) = .ok (.ok env)) ∧
      (∀ v env, envelopeFromJson P.json v = .ok (.ok env) →
        envelopeFromJson P.json (envelopeToJson env) = .ok (.ok env)) ∧
      ∀ env : Envelope,
        P.fromString (P.toString (envelopeToJson env)) =
          some (envelopeToJson env) →
        (env.WellFormed →
          envelopeFromString P (envelopeToString P env) = .ok (.ok env)) ∧
        ∀ body, envelopeFromString P body = .ok (.ok env) →
          envelopeFromString P (envelopeToString P env) = .ok (.ok env) := by
  refine ⟨fun env => envelopeFromJson_toJson P.json, fun v env hdecodes => ?_,
    fun env hinverse => ?_⟩
  · exact envelopeFromJson_toJson P.json (wellFormed_of_envelopeFromJson hdecodes)
  · have hprinted : env.WellFormed →
        envelopeFromString P (envelopeToString P env) = .ok (.ok env) := by
      intro hwellFormed
      rw [envelopeFromString, envelopeToString, hinverse]
      exact envelopeFromJson_toJson P.json hwellFormed
    exact ⟨hprinted,
      fun body hdecodes => hprinted (wellFormed_of_envelopeFromString hdecodes)⟩

namespace EnvelopeWitness

/-- Ids of other types, a version with a fraction, a payload that is none. -/
def loose : Json :=
  .object [("msgId", .int 7), ("version", .real (.finite (3 / 2))),
    ("type", .bool true), ("payload", .str (lit "none"))]

def normal : Envelope := ⟨lit "7", 1, [], [], lit "true", .obj []⟩

def text : StdString :=
  lit "\x7b\"msgId\":\"7\",\"occurredAt\":\"\",\"payload\":\x7b\x7d,\"source\":\"\",\"type\":\"true\",\"version\":1\x7d"

def platform : Platform :=
  { Platform.ofTables [(text, envelopeToJson normal)] [] [] [] with
    toString := fun _ => text }

theorem decodes_loose :
    envelopeFromJson platform.json loose = .ok (.ok normal) := by
  have hversion : loose.getInt platform.json (lit "version") = .ok 1 := by
    have hone : platform.json.asInt (.real (.finite (3 / 2))) = .ok 1 := by
      rw [platform.json.asInt_eq]
      norm_num [Json.within, Json.number?, Json.truncate]
      rfl
    exact hone
  have hmsgId : loose.getString platform.json (lit "msgId") = .ok (lit "7") := rfl
  have htype : loose.getString platform.json (lit "type") = .ok (lit "true") := rfl
  simp only [envelopeFromJson, hmsgId, hversion, htype, bind, Except.bind]
  rfl

theorem decoding_retracts_loose :
    envelopeFromJson platform.json (envelopeToJson normal) = .ok (.ok normal) ∧
      envelopeFromString platform (envelopeToString platform normal) =
        .ok (.ok normal) :=
  ⟨(decoding_retracts platform).2.1 loose normal decodes_loose,
    ((decoding_retracts platform).2.2 normal rfl).1
      (wellFormed_of_envelopeFromJson decodes_loose)⟩

end EnvelopeWitness

end FlzChat
