/-
What an accepted token is: three parts without dots, signed over the bytes that
were decoded, of the configured issuer and in force by the clock.
-/
import FlzChat.Hub
import FlzChat.JwtSafety

namespace FlzChat

/-- There is always a first part. -/
theorem exists_split (ch : UInt8) (s : StdString) :
    ∃ part parts, split ch s = part :: parts := by
  cases s with
  | nil => exact ⟨[], [], rfl⟩
  | cons b rest =>
      simp only [split]
      cases split ch rest with
      | nil => exact ⟨[b], [], rfl⟩
      | cons part parts =>
          simp only
          split_ifs
          · exact ⟨[], part :: parts, rfl⟩
          · exact ⟨b :: part, parts, rfl⟩

/-- The parts joined by the separator give the string back. -/
theorem eq_join_of_split {ch : UInt8} {s part : StdString}
    {parts : List StdString} (hsplit : split ch s = part :: parts) :
    s = part ++ parts.flatMap (ch :: ·) := by
  induction s generalizing part parts with
  | nil =>
      obtain ⟨rfl, rfl⟩ := List.cons.inj hsplit
      rfl
  | cons b rest ih =>
      obtain ⟨first, others, hrest⟩ := exists_split ch rest
      simp only [split, hrest] at hsplit
      split_ifs at hsplit with hch
      · obtain ⟨rfl, rfl⟩ := List.cons.inj hsplit
        rw [ih hrest, hch]
        simp
      · obtain ⟨rfl, rfl⟩ := List.cons.inj hsplit
        rw [ih hrest]
        simp

/-- No part contains the separator. -/
theorem notMem_of_mem_split {ch : UInt8} {s part : StdString}
    (hpart : part ∈ split ch s) : ch ∉ part := by
  induction s generalizing part with
  | nil =>
      rw [split, List.mem_singleton] at hpart
      simp [hpart]
  | cons b rest ih =>
      obtain ⟨first, others, hrest⟩ := exists_split ch rest
      simp only [split, hrest] at hpart
      rw [hrest] at ih
      split_ifs at hpart with hch
      · rcases List.mem_cons.mp hpart with rfl | hpart
        · simp
        · exact ih hpart
      · rcases List.mem_cons.mp hpart with rfl | hpart
        · have hfirst := ih List.mem_cons_self
          simp only [List.mem_cons, not_or]
          exact ⟨fun heq => hch heq.symm, hfirst⟩
        · exact ih (List.mem_cons_of_mem _ hpart)

namespace JwtVerifier

variable {P : Platform}

/-- Adding the clock skew to a time from the epoch on is exact unless it
overflows, and an overflow turns negative. -/
theorem toInt_add_skew (cfg : JwtConfig) {t : Int64} (ht : 0 ≤ t.toInt) :
    (t.toInt + cfg.clockSkewSeconds.toInt < 2 ^ 63 ∧
        (t + Int64.ofInt cfg.clockSkewSeconds.toInt).toInt =
          t.toInt + cfg.clockSkewSeconds.toInt) ∨
      (2 ^ 63 ≤ t.toInt + cfg.clockSkewSeconds.toInt ∧
        (t + Int64.ofInt cfg.clockSkewSeconds.toInt).toInt < 0) := by
  have hlow : -2 ^ 31 ≤ cfg.clockSkewSeconds.toInt := cfg.clockSkewSeconds.le_toInt
  have hhigh : cfg.clockSkewSeconds.toInt < 2 ^ 31 := cfg.clockSkewSeconds.toInt_lt
  have hmax : t.toInt < 2 ^ 63 := t.toInt_lt
  have hskew : (Int64.ofInt cfg.clockSkewSeconds.toInt).toInt =
      cfg.clockSkewSeconds.toInt :=
    Int64.toInt_ofInt_of_le (by omega) (by omega)
  rw [Int64.toInt_add, hskew]
  rw [Int.bmod_def]
  omega

/-- A token in force expires no earlier than the skew before now. -/
theorem exp_of_not_expired {cfg : JwtConfig} {now exp : Int64}
    (hnow : 0 ≤ now.toInt) (hlive : ¬ Expired cfg now exp) :
    0 < exp.toInt ∧ now.toInt ≤ exp.toInt + cfg.clockSkewSeconds.toInt := by
  simp only [Expired, not_or, Int64.le_iff_toInt_le, Int64.lt_iff_toInt_lt] at hlive
  obtain ⟨hpositive, hbefore⟩ := hlive
  have hpositive : 0 < exp.toInt := by simpa using hpositive
  rcases toInt_add_skew cfg hpositive.le with ⟨_, hsum⟩ | ⟨_, hsum⟩ <;> omega

theorem iat_of_not_issuedLater {cfg : JwtConfig} {now iat : Int64}
    (hnow : 0 ≤ now.toInt) (hissued : ¬ IssuedLater cfg now iat) :
    iat.toInt ≤ 0 ∨ iat.toInt ≤ now.toInt + cfg.clockSkewSeconds.toInt := by
  simp only [IssuedLater, not_and_or, Int64.lt_iff_toInt_lt] at hissued
  rcases hissued with hzero | hbefore
  · exact Or.inl (by simpa using hzero)
  · rcases toInt_add_skew cfg hnow with ⟨_, hsum⟩ | ⟨_, hsum⟩ <;> omega

/-- What accepted claims have in common with the payload they come from. -/
structure Conveyed (P : Platform) (payload : Json) (claims : JwtClaims) :
    Prop where
  iss : payload.getString P.json (lit "iss") = .ok claims.iss
  exp : payload.getInt64 P.json (lit "exp") = .ok claims.exp
  iat : payload.getInt64 P.json (lit "iat") = .ok claims.iat
  did : payload.getString P.json (lit "did") = .ok claims.deviceId
  userId : claims.userId ≠ 0

theorem accepted_verifyClaims {cfg : JwtConfig} {now : Int64} {payload : Json}
    {claims : JwtClaims}
    (haccepted : verifyClaims P cfg now payload = .ok (.ok claims)) :
    Conveyed P payload claims ∧ claims.iss = cfg.issuer ∧
      ¬ Expired cfg now claims.exp ∧ ¬ IssuedLater cfg now claims.iat := by
  obtain ⟨iss, hiss, haccepted⟩ := bind_eq_ok_iff.mp haccepted
  split_ifs at haccepted with hissuer
  · cases haccepted
  obtain ⟨exp, hexp, haccepted⟩ := bind_eq_ok_iff.mp haccepted
  obtain ⟨iat, hiat, haccepted⟩ := bind_eq_ok_iff.mp haccepted
  split_ifs at haccepted with hexpired hlater
  · cases haccepted
  · cases haccepted
  have hsensible := yields_sensible_verifySubject payload iss exp iat _ haccepted
  obtain ⟨sub, _, haccepted⟩ := bind_eq_ok_iff.mp haccepted
  cases hsubject : subject? sub with
  | none =>
      rw [hsubject] at haccepted
      cases haccepted
  | some userId =>
      rw [hsubject] at haccepted
      obtain ⟨deviceId, hdid, haccepted⟩ := bind_eq_ok_iff.mp haccepted
      cases haccepted
      exact ⟨⟨hiss, hexp, hiat, hdid, hsensible⟩, not_not.mp hissuer, hexpired,
        hlater⟩

theorem accepted_verifyDecoded {cfg : JwtConfig} {now : Int64}
    {signingInput signature : StdString} {header payload : Json}
    {claims : JwtClaims}
    (haccepted : verifyDecoded P cfg now signingInput signature header payload =
      .ok (.ok claims)) :
    header.getString P.json (lit "alg") = .ok (lit "HS256") ∧
      Signed P cfg signingInput signature ∧
      verifyClaims P cfg now payload = .ok (.ok claims) := by
  obtain ⟨alg, halg, haccepted⟩ := bind_eq_ok_iff.mp haccepted
  split_ifs at haccepted with hname
  · cases haccepted
  cases hdigest : P.hmacSha256 cfg.secret signingInput with
  | none =>
      rw [hdigest] at haccepted
      cases haccepted
  | some digest =>
      rw [hdigest] at haccepted
      simp only at haccepted
      split_ifs at haccepted with hsignature
      · cases haccepted
      · refine ⟨by rw [halg, not_not.mp hname], ?_, haccepted⟩
        rw [Signed, hdigest, Option.map_some, not_not.mp hsignature]

theorem accepted_verify {cfg : JwtConfig} {now : Int64} {token : StdString}
    {claims : JwtClaims} (haccepted : verify P cfg now token = .ok (.ok claims)) :
    ∃ h p s header payload, split 46 token = [h, p, s] ∧
      h ≠ [] ∧ p ≠ [] ∧ s ≠ [] ∧
      P.fromString (Base64Url.decode P h) = some (.obj header) ∧
      P.fromString (Base64Url.decode P p) = some (.obj payload) ∧
      verifyDecoded P cfg now (h ++ lit "." ++ p) s (.obj header)
        (.obj payload) = .ok (.ok claims) := by
  simp only [verify] at haccepted
  split at haccepted
  · next h p s hsplit =>
      split_ifs at haccepted with hempty
      · cases haccepted
      simp only [not_or] at hempty
      split at haccepted
      · next header hheader =>
          split at haccepted
          · next payload hpayload =>
              exact ⟨h, p, s, header, payload, hsplit, hempty.1, hempty.2.1,
                hempty.2.2, hheader, hpayload, haccepted⟩
          · cases haccepted
      · cases haccepted
  · cases haccepted

/-- An accepted token is three dotless parts, the third the signature of the
first two, of the configured issuer and in force; the claims are its own. -/
theorem verify_sound (P : Platform) (cfg : JwtConfig) {now : Int64}
    (hnow : 0 ≤ now.toInt) {token : StdString} {claims : JwtClaims}
    (haccepted : verify P cfg now token = .ok (.ok claims)) :
    ∃ h p s header payload,
      token = h ++ lit "." ++ p ++ lit "." ++ s ∧
        (∀ part ∈ [h, p, s], part ≠ [] ∧ 46 ∉ part) ∧
        (P.hmacSha256 cfg.secret (h ++ lit "." ++ p)).map (Base64Url.encode P) =
          some s ∧
        P.fromString (Base64Url.decode P h) = some (.obj header) ∧
        (Json.obj header).getString P.json (lit "alg") = .ok (lit "HS256") ∧
        P.fromString (Base64Url.decode P p) = some (.obj payload) ∧
        Conveyed P (.obj payload) claims ∧ claims.iss = cfg.issuer ∧
        0 < claims.exp.toInt ∧
        now.toInt ≤ claims.exp.toInt + cfg.clockSkewSeconds.toInt ∧
        (claims.iat.toInt ≤ 0 ∨
          claims.iat.toInt ≤ now.toInt + cfg.clockSkewSeconds.toInt) := by
  obtain ⟨h, p, s, header, payload, hsplit, hh, hp, hs, hheader, hpayload,
    hdecoded⟩ := accepted_verify haccepted
  obtain ⟨halg, hsigned, hclaims⟩ := accepted_verifyDecoded hdecoded
  obtain ⟨hconveyed, hissuer, hlive, hissued⟩ := accepted_verifyClaims hclaims
  obtain ⟨hpositive, hfresh⟩ := exp_of_not_expired hnow hlive
  have hjoin : token = h ++ lit "." ++ p ++ lit "." ++ s := by
    rw [eq_join_of_split hsplit]
    simp [show lit "." = [46] from rfl]
  have hdotless : ∀ part ∈ [h, p, s], 46 ∉ part := by
    intro part hpart
    exact notMem_of_mem_split (hsplit ▸ hpart)
  refine ⟨h, p, s, header, payload, hjoin, ?_, hsigned, hheader, halg, hpayload,
    hconveyed, hissuer, hpositive, hfresh, iat_of_not_issuedLater hnow hissued⟩
  intro part hpart
  refine ⟨?_, hdotless part hpart⟩
  simp only [List.mem_cons, List.not_mem_nil, or_false] at hpart
  rcases hpart with rfl | rfl | rfl
  · exact hh
  · exact hp
  · exact hs

namespace JwtSoundnessWitness

open Hub.HubWitness (platform cfg token)

/-- The accepted token of the examples: its expiry is as far off as it says. -/
theorem verify_sound_token :
    ∃ claims, verify platform cfg.jwt 1700000000 token = .ok (.ok claims) ∧
      1700000000 ≤ claims.exp.toInt + 60 := by
  have haccepted : ((verify platform cfg.jwt 1700000000 token).toOption.bind
      Except.toOption).isSome = true := by decide +kernel
  rcases heq : verify platform cfg.jwt 1700000000 token with thrown | err | claims
  · simp [heq, Except.toOption] at haccepted
  · simp [heq, Except.toOption] at haccepted
  · obtain ⟨h, p, s, header, payload, hjoin, hparts, hsigned, hheader, halg,
      hpayload, hconveyed, hissuer, hpositive, hfresh, hissued⟩ :=
      verify_sound platform cfg.jwt (by decide) heq
    exact ⟨claims, rfl, hfresh⟩

end JwtSoundnessWitness

end JwtVerifier

end FlzChat
