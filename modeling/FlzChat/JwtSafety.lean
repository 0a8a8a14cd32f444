/-
Which tokens make `Verify` throw.  The conversions of header and payload
members are the only partial steps, so the answer follows the order in which
the members are read and the checks that come between them.
-/
import FlzChat.Jwt

namespace FlzChat

namespace JwtVerifier

variable {P : Platform}

/-- `Verify` returns, and with a text when it does not accept. -/
def Returns (P : Platform) (cfg : JwtConfig) (now : Int64) (token : StdString) :
    Prop :=
  ∃ res, verify P cfg now token = .ok res ∧ ∀ err, res = .error err → err ≠ []

/-- `sub` converts to text, and so does `did` if the text is a user id. -/
def SubjectTyped (P : Platform) (payload : List (StdString × Json)) : Prop :=
  (Json.textMember payload (lit "sub")).Scalar ∧
    ∀ text userId,
      P.json.asString (Json.textMember payload (lit "sub")) = .ok text →
      subject? text = some userId →
      (Json.textMember payload (lit "did")).Scalar

/-- `iss` converts to text; where it is the issuer, `exp` and `iat` are
integers in range; where these are in force, the subject is well typed. -/
def ClaimsTyped (P : Platform) (cfg : JwtConfig) (now : Int64)
    (payload : List (StdString × Json)) : Prop :=
  (Json.textMember payload (lit "iss")).Scalar ∧
    (P.json.asString (Json.textMember payload (lit "iss")) = .ok cfg.issuer →
      ((Json.numberMember payload (lit "exp")).within
          (-2 ^ 63) (2 ^ 63 - 1)).isSome = true ∧
        ((Json.numberMember payload (lit "iat")).within
          (-2 ^ 63) (2 ^ 63 - 1)).isSome = true ∧
        ∀ exp iat,
          P.json.asInt64 (Json.numberMember payload (lit "exp")) = .ok exp →
          P.json.asInt64 (Json.numberMember payload (lit "iat")) = .ok iat →
          ¬ Expired cfg now exp → ¬ IssuedLater cfg now iat →
          SubjectTyped P payload)

/-- The signature is the one the configured secret gives. -/
def Signed (P : Platform) (cfg : JwtConfig)
    (signingInput signature : StdString) : Prop :=
  (P.hmacSha256 cfg.secret signingInput).map (Base64Url.encode P) =
    some signature

/-- `alg` converts to text; where it is HS256 and the signature right, the
claims are well typed. -/
def DecodedTyped (P : Platform) (cfg : JwtConfig) (now : Int64)
    (signingInput signature : StdString)
    (header payload : List (StdString × Json)) : Prop :=
  (Json.textMember header (lit "alg")).Scalar ∧
    (P.json.asString (Json.textMember header (lit "alg")) = .ok (lit "HS256") →
      Signed P cfg signingInput signature → ClaimsTyped P cfg now payload)

/-- A token whose header and payload are JSON objects has well typed members
as far as `Verify` reads them. -/
def TokenTyped (P : Platform) (cfg : JwtConfig) (now : Int64)
    (token : StdString) : Prop :=
  ∀ header64 payload64 signature header payload,
    split 46 token = [header64, payload64, signature] →
    header64 ≠ [] → payload64 ≠ [] → signature ≠ [] →
    P.fromString (Base64Url.decode P header64) = some (.obj header) →
    P.fromString (Base64Url.decode P payload64) = some (.obj payload) →
    DecodedTyped P cfg now (header64 ++ lit "." ++ payload64) signature
      header payload

/-- A member that prints as the empty text is no integer, so the second look
at `sub` never changes it. -/
theorem not_integer_of_empty_text {payload : List (StdString × Json)}
    {key : StdString}
    (hempty : P.json.asString (Json.textMember payload key) = .ok []) :
    ((payload.lookup key).getD .null).isUInt64 = false ∧
      ((payload.lookup key).getD .null).isInt64 = false := by
  unfold Json.textMember at hempty
  cases hlookup : payload.lookup key with
  | none => exact ⟨rfl, rfl⟩
  | some v =>
      simp only [hlookup, Option.getD_some] at hempty ⊢
      cases v with
      | int n =>
          simp only [Jsoncpp.asString_int, Except.ok.injEq, decimalInt] at hempty
          split_ifs at hempty
          · simp at hempty
          · exact absurd hempty (decimal_ne_nil _)
      | uint n =>
          simp only [Jsoncpp.asString_uint, Except.ok.injEq] at hempty
          exact absurd hempty (decimal_ne_nil _)
      | real x =>
          obtain ⟨text, htext, heq⟩ := P.json.asString_real x
          rw [heq, Except.ok.injEq] at hempty
          exact absurd hempty htext
      | _ => exact ⟨rfl, rfl⟩

theorem subjectText_obj (payload : List (StdString × Json)) :
    subjectText P (.obj payload) =
      P.json.asString (Json.textMember payload (lit "sub")) := by
  simp only [subjectText]
  rw [Json.getString_obj]
  cases hsub : P.json.asString (Json.textMember payload (lit "sub")) with
  | error thrown => rfl
  | ok text =>
      by_cases hempty : text = []
      · subst hempty
        obtain ⟨huint, hint⟩ := not_integer_of_empty_text hsub
        simp [bind, Except.bind, huint, hint, pure, Except.pure]
      · simp [bind, Except.bind, hempty, pure, Except.pure]

theorem verifySubject_returns_iff (payload : List (StdString × Json))
    (iss : StdString) (exp iat : Int64) :
    (∃ res, verifySubject P (.obj payload) iss exp iat = .ok res) ↔
      SubjectTyped P payload := by
  rw [verifySubject, subjectText_obj, SubjectTyped, Json.getString_obj,
    ← P.json.exists_asString_iff, ← P.json.exists_asString_iff]
  cases P.json.asString (Json.textMember payload (lit "sub")) with
  | error thrown => simp [bind, Except.bind]
  | ok text =>
      simp only [bind, Except.bind, Except.ok.injEq, exists_eq', true_and]
      cases hsubject : subject? text with
      | none =>
          simp only [pure, Except.pure, Except.ok.injEq, exists_eq', true_iff]
          rintro text' userId rfl hsome
          simp [hsubject] at hsome
      | some userId =>
          cases hdid : P.json.asString (Json.textMember payload (lit "did")) with
          | error thrown =>
              simp only [reduceCtorEq, exists_false, false_iff, not_forall]
              exact ⟨text, userId, rfl, hsubject, id⟩
          | ok deviceId => simp [pure, Except.pure]

theorem verifyClaims_returns_iff (cfg : JwtConfig) (now : Int64)
    (payload : List (StdString × Json)) :
    (∃ res, verifyClaims P cfg now (.obj payload) = .ok res) ↔
      ClaimsTyped P cfg now payload := by
  simp only [verifyClaims, ClaimsTyped]
  simp only [Json.getString_obj, Json.getInt64_obj]
  rw [← P.json.exists_asString_iff, ← P.json.exists_asInt64_iff,
    ← P.json.exists_asInt64_iff]
  cases P.json.asString (Json.textMember payload (lit "iss")) with
  | error thrown => simp [bind, Except.bind]
  | ok iss =>
      by_cases hissuer : iss = cfg.issuer
      · cases P.json.asInt64 (Json.numberMember payload (lit "exp")) with
        | error thrown => simp [bind, Except.bind, hissuer]
        | ok exp =>
            cases P.json.asInt64 (Json.numberMember payload (lit "iat")) with
            | error thrown => simp [bind, Except.bind, hissuer]
            | ok iat =>
                by_cases hexpired : Expired cfg now exp
                · simp [bind, Except.bind, hissuer, hexpired, pure, Except.pure]
                · by_cases hlater : IssuedLater cfg now iat
                  · simp [bind, Except.bind, hissuer, hexpired, hlater, pure,
                      Except.pure]
                  · simpa [bind, Except.bind, hissuer, hexpired, hlater] using
                      verifySubject_returns_iff payload cfg.issuer exp iat
      · simp [bind, Except.bind, hissuer, pure, Except.pure]

theorem verifyDecoded_returns_iff (cfg : JwtConfig) (now : Int64)
    (signingInput signature : StdString)
    (header payload : List (StdString × Json)) :
    (∃ res, verifyDecoded P cfg now signingInput signature (.obj header)
        (.obj payload) = .ok res) ↔
      DecodedTyped P cfg now signingInput signature header payload := by
  simp only [verifyDecoded, DecodedTyped, Signed]
  rw [Json.getString_obj, ← P.json.exists_asString_iff]
  cases P.json.asString (Json.textMember header (lit "alg")) with
  | error thrown => simp [bind, Except.bind]
  | ok alg =>
      by_cases halg : alg = lit "HS256"
      · cases P.hmacSha256 cfg.secret signingInput with
        | none => simp [bind, Except.bind, halg, pure, Except.pure]
        | some digest =>
            by_cases hsignature : Base64Url.encode P digest = signature
            · simpa [bind, Except.bind, halg, hsignature] using
                verifyClaims_returns_iff cfg now payload
            · simp [bind, Except.bind, halg, hsignature, pure, Except.pure]
      · simp [bind, Except.bind, halg, pure, Except.pure]

/-- `Verify` returns on exactly the tokens whose members are well typed as far
as it reads them. -/
theorem returns_iff_tokenTyped (P : Platform) (cfg : JwtConfig) (now : Int64)
    (token : StdString) :
    Returns P cfg now token ↔ TokenTyped P cfg now token := by
  have hreturns : Returns P cfg now token ↔
      ∃ res, verify P cfg now token = .ok res := by
    refine ⟨fun ⟨res, hres, _⟩ => ⟨res, hres⟩, fun ⟨res, hres⟩ => ⟨res, hres, ?_⟩⟩
    rintro err rfl
    exact yields_sensible_verify cfg now token _ hres
  rw [hreturns]
  constructor
  · rintro ⟨res, hres⟩ header64 payload64 signature header payload hsplit
      hheader64 hpayload64 hsignature hheader hpayload
    simp only [verify, hsplit, hheader64, hpayload64, hsignature, or_self,
      if_false, hheader, hpayload] at hres
    exact (verifyDecoded_returns_iff cfg now _ _ _ _).mp ⟨res, hres⟩
  · intro htyped
    simp only [verify]
    split
    · next header64 payload64 signature hsplit =>
        split_ifs with hempty
        · exact ⟨_, rfl⟩
        · simp only [not_or] at hempty
          split
          · next header hheader =>
              split
              · next payload hpayload =>
                  exact (verifyDecoded_returns_iff cfg now _ _ _ _).mpr
                    (htyped _ _ _ _ _ hsplit hempty.1 hempty.2.1 hempty.2.2
                      hheader hpayload)
              · exact ⟨_, rfl⟩
          · exact ⟨_, rfl⟩
    · exact ⟨_, rfl⟩

namespace VerifyWitness

/-- The base64url text of `\x7b"alg":\x7b\x7d\x7d`, that of `\x7b\x7d`, and a letter. -/
def token : StdString := lit "eyJhbGciOnt9fQ.e30.x"

def platform : Platform :=
  Platform.ofTables
    [(lit "\x7b\"alg\":\x7b\x7d\x7d", .obj [(lit "alg", .obj [])]),
      (lit "\x7b\x7d", .obj [])]
    [(lit "eyJhbGciOnt9fQ==", lit "\x7b\"alg\":\x7b\x7d\x7d"),
      (lit "e30=", lit "\x7b\x7d")] [] []

theorem not_all_return :
    ¬ ∀ (P : Platform) (cfg : JwtConfig) (now : Int64) (token : StdString),
      Returns P cfg now token := by
  intro hall
  obtain ⟨res, hres, _⟩ := hall platform { secret := lit "secret" } 0 token
  have hthrows : verify platform { secret := lit "secret" } 0 token =
      .error .logicError := by
    rfl
  rw [hthrows] at hres
  contradiction

end VerifyWitness

end JwtVerifier

end FlzChat
