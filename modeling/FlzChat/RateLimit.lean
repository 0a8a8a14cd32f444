/-
The frame limiter of a connection.  `ConsumeToken` is a token bucket with a
window of one second, so the bounds of the bucket are bounds on the frames a
client may send.
-/
import FlzChat.ChatServlet
import FlzChat.TokenBucket

namespace FlzChat

namespace OnlineConn

/-- The bucket of a connection. -/
def bucket (c : OnlineConn) : TokenBucket := ⟨c.bucketRefillTs, c.bucketTokens⟩

/-- The calls of `ConsumeToken` made one after another, with their answers. -/
def consumeTokens (rateLimit : Int) : OnlineConn → List Int → List (Int × Bool)
  | _, [] => []
  | c, now :: nows =>
      (now, (c.consumeToken now rateLimit).1) ::
        consumeTokens rateLimit (c.consumeToken now rateLimit).2 nows

/-- The connection those calls leave behind. -/
def afterTokens (rateLimit : Int) (c : OnlineConn) (nows : List Int) :
    OnlineConn :=
  nows.foldl (fun c now => (c.consumeToken now rateLimit).2) c

theorem bucket_refill (c : OnlineConn) (now rateLimit : Int) :
    (c.refill now rateLimit).bucket = c.bucket.refilled 1000 rateLimit now := by
  simp only [refill, TokenBucket.refilled, bucket]
  by_cases hfull : 1000 ≤ now - c.bucketRefillTs
  · simp [hfull]
  · simp [hfull]

/-- `ConsumeToken` takes a token from the bucket. -/
theorem take_bucket (c : OnlineConn) (now rateLimit : Int) :
    c.bucket.take 1000 rateLimit now =
      ((c.consumeToken now rateLimit).1,
        (c.consumeToken now rateLimit).2.bucket) := by
  simp only [TokenBucket.take, ← bucket_refill, consumeToken]
  split_ifs with hdry hempty hempty
  · rfl
  · exact absurd hdry hempty
  · exact absurd hempty hdry
  · rfl

theorem consumeTokens_eq_answers (rateLimit : Int) (c : OnlineConn)
    (nows : List Int) :
    consumeTokens rateLimit c nows =
      TokenBucket.answers 1000 rateLimit c.bucket nows := by
  induction nows generalizing c with
  | nil => rfl
  | cons now nows ih =>
      rw [consumeTokens, ih, TokenBucket.answers, take_bucket]

@[simp]
theorem bucket_create (userId : UInt64) (deviceId : StdString)
    (session : SessionId) (ioManager : Option IoManager)
    (nowMs rateLimit : Int) :
    (create userId deviceId session ioManager nowMs rateLimit).bucket =
      ⟨nowMs, rateLimit⟩ :=
  rfl

/-- The answer of a later call is that of the connection the earlier ones
leave behind. -/
theorem consumeTokens_append (rateLimit : Int) (c : OnlineConn)
    (before after : List Int) :
    consumeTokens rateLimit c (before ++ after) =
      consumeTokens rateLimit c before ++
        consumeTokens rateLimit (c.afterTokens rateLimit before) after := by
  induction before generalizing c with
  | nil => rfl
  | cons now before ih =>
      simp only [List.cons_append, consumeTokens, ih, afterTokens,
        List.foldl_cons]

/-- Two connections with one bucket get the same answer. -/
theorem consumeToken_fst_of_bucket {c c' : OnlineConn} {now rateLimit : Int}
    (heq : c.bucket = c'.bucket) :
    (c.consumeToken now rateLimit).1 = (c'.consumeToken now rateLimit).1 := by
  have h := c.take_bucket now rateLimit
  rw [heq, c'.take_bucket now rateLimit] at h
  exact (congrArg Prod.fst h).symm

end OnlineConn

/-- In any second twice the limit at most is granted, and a client that keeps
to the limit in every second is granted all of its frames: the token `handle`
takes before it reads the frame is always there. -/
theorem OnlineConn.frames_granted_two_sided (userId : UInt64)
    (deviceId : StdString) (session : SessionId)
    (ioManager : Option IoManager) (t₀ rateLimit : Int) (hrate : 0 ≤ rateLimit)
    (nows : List Int) (hstart : ∀ now ∈ nows, t₀ ≤ now)
    (hsorted : nows.Pairwise (· ≤ ·)) :
    let conn := OnlineConn.create userId deviceId session ioManager t₀ rateLimit
    (∀ start, (TokenBucket.grantsIn 1000 start
        (conn.consumeTokens rateLimit nows) : Int) ≤ 2 * rateLimit) ∧
      ((∀ start, (TokenBucket.callsIn 1000 start nows : Int) ≤ rateLimit) →
        (∀ answer ∈ conn.consumeTokens rateLimit nows, answer.2 = true) ∧
        ∀ before now after, nows = before ++ now :: after →
          ∀ (cfg : ChatConfig) (s : Server) (uid : UInt64) (did : StdString),
            cfg.chat.frameRateLimitPerSecond.toInt = rateLimit →
            (s.registry.get uid did).map OnlineConn.bucket =
              some (conn.afterTokens rateLimit before).bucket →
            (s.spendToken cfg now uid did).1 = true) := by
  intro conn
  constructor
  · intro start
    rw [OnlineConn.consumeTokens_eq_answers]
    exact TokenBucket.grantsIn_le hsorted hrate (le_refl rateLimit) start
  · intro hwithin
    have hall : ∀ answer ∈ conn.consumeTokens rateLimit nows,
        answer.2 = true := by
      rw [OnlineConn.consumeTokens_eq_answers]
      exact TokenBucket.granted_of_within hsorted (by decide) hstart
        (hwithin t₀) hwithin
    apply And.intro hall
    intro before now after hsplit cfg s uid did hcfg hbucket
    obtain ⟨c, hget, hsame⟩ := Option.map_eq_some_iff.mp hbucket
    have hanswer := hall (now,
      ((conn.afterTokens rateLimit before).consumeToken now rateLimit).1) (by
        rw [hsplit, OnlineConn.consumeTokens_append]
        exact List.mem_append_right _ List.mem_cons_self)
    simp only [Server.spendToken, hget, hcfg]
    rw [OnlineConn.consumeToken_fst_of_bucket hsame]
    exact hanswer

namespace RateLimitWitness

/-- Two calls a second keep to the limit of two. -/
theorem callsIn_le_two (start : Int) :
    (TokenBucket.callsIn 1000 start [0, 500, 1000, 1500] : Int) ≤ 2 := by
  have hnil : TokenBucket.callsIn 1000 start [] = 0 := rfl
  simp only [TokenBucket.callsIn_cons, hnil]
  push_cast
  split_ifs <;> omega

/-- The bounds at that limit, for a client that keeps to it. -/
theorem frames_granted_two_sided_two :
    (TokenBucket.grantsIn 1000 900 (OnlineConn.consumeTokens 2
        (OnlineConn.create 7 (lit "d") 1 none 0 2) [0, 500, 1000, 1500]) : Int)
        ≤ 4 ∧
      ∀ answer ∈ OnlineConn.consumeTokens 2
        (OnlineConn.create 7 (lit "d") 1 none 0 2) [0, 500, 1000, 1500],
        answer.2 = true := by
  have hboth := OnlineConn.frames_granted_two_sided 7 (lit "d") 1 none 0 2
    (by decide) [0, 500, 1000, 1500] (by decide) (by decide)
  exact ⟨hboth.1 900, (hboth.2 callsIn_le_two).1⟩

end RateLimitWitness

end FlzChat
