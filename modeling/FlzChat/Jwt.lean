/-
`JwtVerifier::Verify` and what it is built from: base64url, the split at dots
and the C library's number parser.
-/
import FlzChat.Config
import FlzChat.Platform

namespace FlzChat

namespace Base64Url

/-- `Encode`: standard base64 with two characters replaced and the padding
stripped. -/
def encode (P : Platform) (input : StdString) : StdString :=
  let out := (P.base64encode input).map fun b =>
    if b = 43 then 45 else if b = 47 then 95 else b
  (out.reverse.dropWhile (· = 61)).reverse

/-- `Decode` never fails. -/
def decode (P : Platform) (input : StdString) : StdString :=
  let base := input.map fun b =>
    if b = 45 then 43 else if b = 95 then 47 else b
  P.base64decode (base ++ List.replicate ((4 - base.length % 4) % 4) 61)

end Base64Url

/-- `Split` at every occurrence of a byte. -/
def split (ch : UInt8) : StdString → List StdString
  | [] => [[]]
  | b :: rest =>
      match split ch rest with
      | [] => [[b]]
      | part :: parts =>
          if b = ch then [] :: part :: parts else (b :: part) :: parts

/-- What C sees of a string: the bytes before the first NUL. -/
def cStr (s : StdString) : StdString :=
  s.takeWhile (· ≠ 0)

/-- `strtoull` in base 10: the value and what is left at `*end`. -/
def strtoull (s : StdString) : UInt64 × StdString :=
  let isSpace : UInt8 → Bool := fun b => b = 32 || (9 ≤ b && b ≤ 13)
  let isDigit : UInt8 → Bool := fun b => 48 ≤ b && b ≤ 57
  let unsigned : Bool × StdString := match s.dropWhile isSpace with
    | 45 :: rest => (true, rest)
    | 43 :: rest => (false, rest)
    | rest => (false, rest)
  let digits := unsigned.2.takeWhile isDigit
  if digits = [] then (0, s)
  else
    let value := readDecimal digits
    let rest := unsigned.2.dropWhile isDigit
    if 2 ^ 64 ≤ value then (UInt64.ofNat (2 ^ 64 - 1), rest)
    else if unsigned.1 then (-UInt64.ofNat value, rest)
    else (UInt64.ofNat value, rest)

def parseUInt64 (input : StdString) : Option UInt64 :=
  if input = [] then none
  else
    let parsed := strtoull (cStr input)
    if parsed.2 ≠ [] then none else some parsed.1

structure JwtClaims where
  userId : UInt64 := 0
  deviceId : StdString := []
  iat : Int64 := 0
  exp : Int64 := 0
  iss : StdString := []
  rawPayload : Json := .null

namespace JwtVerifier

/-- The expiry check of `Verify`. -/
def Expired (cfg : JwtConfig) (now exp : Int64) : Prop :=
  exp ≤ 0 ∨ exp + Int64.ofInt cfg.clockSkewSeconds.toInt < now

/-- The check of the time of issue. -/
def IssuedLater (cfg : JwtConfig) (now iat : Int64) : Prop :=
  0 < iat ∧ now + Int64.ofInt cfg.clockSkewSeconds.toInt < iat

instance (cfg : JwtConfig) (now exp : Int64) : Decidable (Expired cfg now exp) :=
  inferInstanceAs (Decidable (_ ∨ _))

instance (cfg : JwtConfig) (now iat : Int64) :
    Decidable (IssuedLater cfg now iat) :=
  inferInstanceAs (Decidable (_ ∧ _))

/-- The user id a subject text stands for, if it is one. -/
def subject? (sub : StdString) : Option UInt64 :=
  (parseUInt64 sub).filter (· ≠ 0)

/-- The text of `sub`, with a second look at an empty one. -/
def subjectText (P : Platform) (payload : Json) : Except Thrown StdString := do
  let sub ← payload.getString P.json (lit "sub")
  if sub ≠ [] then return sub
  let member ← payload.member (lit "sub")
  if member.isUInt64 ∨ member.isInt64 then P.json.asString member
  else return sub

/-- `Verify` from the subject on. -/
def verifySubject (P : Platform) (payload : Json) (iss : StdString)
    (exp iat : Int64) : Except Thrown (Except StdString JwtClaims) := do
  let sub ← subjectText P payload
  match subject? sub with
  | none => return .error (lit "token sub invalid")
  | some userId =>
      let deviceId ← payload.getString P.json (lit "did")
      return .ok ⟨userId, deviceId, iat, exp, iss, payload⟩

/-- `Verify` once the signature has been found right. -/
def verifyClaims (P : Platform) (cfg : JwtConfig) (now : Int64)
    (payload : Json) : Except Thrown (Except StdString JwtClaims) := do
  let iss ← payload.getString P.json (lit "iss")
  if iss ≠ cfg.issuer then return .error (lit "token issuer mismatch")
  let exp ← payload.getInt64 P.json (lit "exp")
  let iat ← payload.getInt64 P.json (lit "iat")
  if Expired cfg now exp then return .error (lit "token expired")
  if IssuedLater cfg now iat then return .error (lit "token iat invalid")
  verifySubject P payload iss exp iat

/-- `Verify` once header and payload have been decoded. -/
def verifyDecoded (P : Platform) (cfg : JwtConfig) (now : Int64)
    (signingInput signature : StdString) (header payload : Json) :
    Except Thrown (Except StdString JwtClaims) := do
  let alg ← header.getString P.json (lit "alg")
  if alg ≠ lit "HS256" then return .error (lit "token alg invalid")
  match P.hmacSha256 cfg.secret signingInput with
  | none => return .error (lit "hmac failed")
  | some digest =>
      if Base64Url.encode P digest ≠ signature then
        return .error (lit "token signature invalid")
      verifyClaims P cfg now payload

/-- `Verify`: what may be thrown, the text left in `err`, or the claims. -/
def verify (P : Platform) (cfg : JwtConfig) (now : Int64) (token : StdString) :
    Except Thrown (Except StdString JwtClaims) :=
  match split 46 token with
  | [header64, payload64, signature] =>
      if header64 = [] ∨ payload64 = [] ∨ signature = [] then
        .ok (.error (lit "token format invalid"))
      else match P.fromString (Base64Url.decode P header64) with
        | some (.obj header) =>
            match P.fromString (Base64Url.decode P payload64) with
            | some (.obj payload) =>
                verifyDecoded P cfg now (header64 ++ lit "." ++ payload64)
                  signature (.obj header) (.obj payload)
            | _ => .ok (.error (lit "token payload invalid"))
        | _ => .ok (.error (lit "token header invalid"))
  | _ => .ok (.error (lit "token format invalid"))

/-! What a returning `Verify` can return. -/

/-- A refusal says why, and an accepted user id is not zero. -/
def Sensible : Except StdString JwtClaims → Prop
  | .error err => err ≠ []
  | .ok claims => claims.userId ≠ 0

/-- Whatever `x` returns satisfies `Q`. -/
def Yields {α : Type} (Q : α → Prop) (x : Except Thrown α) : Prop :=
  ∀ a, x = .ok a → Q a

theorem yields_ok {α : Type} {Q : α → Prop} {a : α} (ha : Q a) :
    Yields Q (.ok a) := by
  rintro _ ⟨⟩
  exact ha

theorem yields_bind {α β : Type} {Q : α → Prop} {x : Except Thrown β}
    {f : β → Except Thrown α} (hf : ∀ b, Yields Q (f b)) :
    Yields Q (x >>= f) := by
  intro a ha
  obtain ⟨b, _, hb⟩ := bind_eq_ok_iff.mp ha
  exact hf b a hb

theorem yields_refusal {text : String} (htext : text ≠ "") :
    Yields Sensible (.ok (.error (lit text))) :=
  yields_ok (show lit text ≠ [] by simpa using htext)

variable {P : Platform}

theorem yields_sensible_verifySubject (payload : Json) (iss : StdString)
    (exp iat : Int64) :
    Yields Sensible (verifySubject P payload iss exp iat) := by
  apply yields_bind
  intro sub
  cases hsubject : subject? sub with
  | none => exact yields_refusal (by decide)
  | some userId =>
      have hpositive : userId ≠ 0 := by
        simpa using (Option.filter_eq_some_iff.mp hsubject).2
      exact yields_bind fun deviceId => yields_ok hpositive

theorem yields_sensible_verifyClaims (cfg : JwtConfig) (now : Int64)
    (payload : Json) : Yields Sensible (verifyClaims P cfg now payload) := by
  apply yields_bind
  intro iss
  split_ifs
  · exact yields_refusal (by decide)
  · refine yields_bind fun exp => yields_bind fun iat => ?_
    split_ifs
    · exact yields_refusal (by decide)
    · exact yields_refusal (by decide)
    · exact yields_sensible_verifySubject payload iss exp iat

theorem yields_sensible_verifyDecoded (cfg : JwtConfig) (now : Int64)
    (signingInput signature : StdString) (header payload : Json) :
    Yields Sensible
      (verifyDecoded P cfg now signingInput signature header payload) := by
  apply yields_bind
  intro alg
  split_ifs
  · exact yields_refusal (by decide)
  · cases P.hmacSha256 cfg.secret signingInput with
    | none => exact yields_refusal (by decide)
    | some digest =>
        simp only
        split_ifs
        · exact yields_refusal (by decide)
        · exact yields_sensible_verifyClaims cfg now payload

theorem yields_sensible_verify (cfg : JwtConfig) (now : Int64)
    (token : StdString) : Yields Sensible (verify P cfg now token) := by
  simp only [verify]
  split
  · split_ifs
    · exact yields_refusal (by decide)
    · split
      · split
        · exact yields_sensible_verifyDecoded cfg now _ _ _ _
        · exact yields_refusal (by decide)
      · exact yields_refusal (by decide)
  · exact yields_refusal (by decide)

end JwtVerifier

end FlzChat
