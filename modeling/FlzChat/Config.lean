/-
The configuration: `ChatConfig::Load` and the records it fills.
-/
import FlzChat.StdString

namespace FlzChat

structure RabbitMqConfig where
  port : Int32 := 5672
  publisherQueueCapacity : Int32 := 10000
  consumerQueue : StdString := lit "chat.delivery.queue"
  consumerPrefetch : Int32 := 64
  consumerAutoAck : Bool := false
  consumerTag : StdString := lit "chat-svc-1"
  reconnectInitialBackoffMs : Int32 := 1000
  reconnectMaxBackoffMs : Int32 := 30000
deriving DecidableEq

structure JwtConfig where
  algorithm : StdString := lit "HS256"
  secret : StdString := []
  issuer : StdString := lit "flz_chat_business"
  clockSkewSeconds : Int32 := 60
deriving DecidableEq

structure ChatRuntimeConfig where
  maxDevicesPerUser : Int32 := 5
  heartbeatIntervalSeconds : Int32 := 25
  heartbeatTimeoutSeconds : Int32 := 75
  pendingSendTtlSeconds : Int32 := 30
  frameRateLimitPerSecond : Int32 := 20
  maxTextContentBytes : Int32 := 8192
deriving DecidableEq

structure ChatConfig where
  rabbitmq : RabbitMqConfig := {}
  jwt : JwtConfig := {}
  chat : ChatRuntimeConfig := {}
deriving DecidableEq

/-- `static_cast<size_t>` of an `int`. -/
def toSizeT (n : Int32) : Nat :=
  (n.toInt % 2 ^ 64).toNat

theorem toSizeT_of_nonneg {n : Int32} (hn : 0 ≤ n.toInt) :
    toSizeT n = n.toInt.toNat := by
  have hlt : n.toInt < 2 ^ 31 := n.toInt_lt
  rw [toSizeT, Int.emod_eq_of_lt hn (by omega)]

/-- `ResolveEnv`: a value of the form `$\x7bENV:NAME\x7d` reads the
environment, an unset variable as the empty string. -/
def resolveEnv (getenv : StdString → Option StdString) (value : StdString) :
    StdString :=
  let kPrefix := lit "$\x7bENV:"
  if value.length ≤ kPrefix.length + 1 then value
  else if value.take kPrefix.length ≠ kPrefix ∨
      value.getLast? ≠ (lit "\x7d").head? then value
  else
    let envKey := (value.drop kPrefix.length).dropLast
    (getenv envKey).getD []

/-- `ChatConfig::Load` on the values of the configuration variables; an error
is the text left in `err`. -/
def ChatConfig.load (getenv : StdString → Option StdString)
    (values : ChatConfig) : Except StdString ChatConfig :=
  let cfg := { values with
    jwt := { values.jwt with secret := resolveEnv getenv values.jwt.secret } }
  if cfg.jwt.algorithm ≠ lit "HS256" then
    .error (lit "jwt.algorithm must be HS256")
  else if cfg.jwt.secret = [] then
    .error (lit "jwt.secret is empty")
  else if cfg.chat.maxDevicesPerUser ≤ 0 ∨ cfg.chat.heartbeatTimeoutSeconds ≤ 0 ∨
      cfg.chat.heartbeatIntervalSeconds ≤ 0 then
    .error (lit "chat config has non-positive value")
  else if cfg.chat.heartbeatTimeoutSeconds ≤ cfg.chat.heartbeatIntervalSeconds then
    .error (lit "heartbeat_timeout_seconds must be greater than heartbeat_interval_seconds")
  else if cfg.rabbitmq.port ≤ 0 ∨ 65535 < cfg.rabbitmq.port then
    .error (lit "rabbitmq.port out of range")
  else .ok cfg

/-- The conversion to `size_t` keeps the values from zero on and no others. -/
theorem toSizeT_eq_iff (n : Int32) :
    ((toSizeT n : Nat) : Int) = n.toInt ↔ 0 ≤ n.toInt := by
  constructor
  · intro heq
    rw [← heq]
    exact Int.natCast_nonneg _
  · intro hn
    rw [toSizeT_of_nonneg hn, Int.toNat_of_nonneg hn]

theorem toSizeT_pos_iff (n : Int32) : 0 < toSizeT n ↔ n.toInt ≠ 0 := by
  have hlt : n.toInt < 2 ^ 31 := n.toInt_lt
  have hle : -2 ^ 31 ≤ n.toInt := n.le_toInt
  rw [toSizeT]
  omega

theorem ChatConfig.load_maxDevices_pos {getenv : StdString → Option StdString}
    {values cfg : ChatConfig} (hload : ChatConfig.load getenv values = .ok cfg) :
    0 < cfg.chat.maxDevicesPerUser.toInt := by
  unfold ChatConfig.load at hload
  simp only at hload
  split_ifs at hload with halg hsecret hpositive hbeat hport
  injection hload with hcfg
  subst hcfg
  simp only [not_or] at hpositive
  have hpos : ¬ values.chat.maxDevicesPerUser ≤ 0 := hpositive.1
  rw [Int32.le_iff_toInt_le] at hpos
  simpa using hpos

/-- A loaded configuration waits longer than it asks clients to. -/
theorem ChatConfig.load_heartbeat {getenv : StdString → Option StdString}
    {values cfg : ChatConfig} (hload : ChatConfig.load getenv values = .ok cfg) :
    cfg.chat.heartbeatIntervalSeconds.toInt <
      cfg.chat.heartbeatTimeoutSeconds.toInt := by
  unfold ChatConfig.load at hload
  simp only at hload
  split_ifs at hload with halg hsecret hpositive hbeat hport
  injection hload with hcfg
  subst hcfg
  rw [Int32.le_iff_toInt_le, not_le] at hbeat
  exact hbeat

end FlzChat
