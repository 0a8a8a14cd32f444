/-
The conversions between the `int` settings and the types at their points of
use.  `Load` checks the cap on devices; the other three settings reach their
casts unchecked.
-/
import FlzChat.Consumer
import FlzChat.RejectedSends

namespace FlzChat

/-- `static_cast<uint16_t>` of the prefetch setting. -/
def MqConsumer.prefetchCount (cfg : RabbitMqConfig) : Nat :=
  (cfg.consumerPrefetch.toInt % 2 ^ 16).toNat

/-- It is what `EnsureConnected` opens its channel with. -/
theorem MqConsumer.ensureConnected_prefetch (cfg : RabbitMqConfig)
    (replies : Replies) :
    MqConsumer.ensureConnected cfg replies =
      AmqpClient.ensureConnected replies (lit "consumer")
        [AmqpClient.openChannel replies (MqConsumer.prefetchCount cfg),
          AmqpClient.declareForConsumer replies,
          AmqpClient.startConsume replies cfg.consumerQueue cfg.consumerTag
            cfg.consumerAutoAck] :=
  rfl

theorem MqConsumer.prefetchCount_eq_iff (cfg : RabbitMqConfig) :
    ((MqConsumer.prefetchCount cfg : Nat) : Int) = cfg.consumerPrefetch.toInt ↔
      0 ≤ cfg.consumerPrefetch.toInt ∧ cfg.consumerPrefetch.toInt ≤ 65535 := by
  rw [MqConsumer.prefetchCount]
  omega

/-- `HandleMsgSend` enqueues the content only if its length is at most the
configured maximum, as integers. -/
def SizeChecked (P : Platform) (cfg : ChatConfig) (content : StdString) : Prop :=
  ∀ (request : SendRequest) (s : Server),
    request.data.getString P.json (lit "content") = .ok content →
    (request.run P cfg s).2.queue ≠ s.queue →
      (content.length : Int) ≤ cfg.chat.maxTextContentBytes.toInt

/-- No conversion changes a value. -/
structure ConversionsExact (P : Platform) (cfg : ChatConfig)
    (content : StdString) : Prop where
  capacity : ((toSizeT cfg.rabbitmq.publisherQueueCapacity : Nat) : Int) =
    cfg.rabbitmq.publisherQueueCapacity.toInt
  prefetch : ((MqConsumer.prefetchCount cfg.rabbitmq : Nat) : Int) =
    cfg.rabbitmq.consumerPrefetch.toInt
  maxDevices : ((toSizeT cfg.chat.maxDevicesPerUser : Nat) : Int) =
    cfg.chat.maxDevicesPerUser.toInt
  size : SizeChecked P cfg content

/-- The length passes the check as an `int` although it is over the maximum. -/
def LengthWraps (cfg : ChatConfig) (content : StdString) : Prop :=
  cfg.chat.maxTextContentBytes.toInt < content.length ∧
    Int32.ofNat content.length ≤ cfg.chat.maxTextContentBytes

instance (cfg : ChatConfig) (content : StdString) :
    Decidable (LengthWraps cfg content) :=
  inferInstanceAs (Decidable (_ ∧ _))

/-- What is stored has passed the check on its length. -/
theorem length_le_of_stored {P : Platform} {cfg : ChatConfig}
    {request : SendRequest} {id content : StdString}
    (hstored : request.storedId P.json cfg = some id)
    (hcontent : request.data.getString P.json (lit "content") = .ok content) :
    Int32.ofNat content.length ≤ cfg.chat.maxTextContentBytes := by
  obtain ⟨msg, hread, _, _, hlong⟩ := SendRequest.read_of_stored hstored
  have hsame : msg.content = content := by
    simp only [MsgSend.read, bind_eq_ok_iff] at hread
    obtain ⟨_, _, _, _, content', hread', _, _, _, _, hmsg⟩ := hread
    rw [hcontent, Except.ok.injEq] at hread'
    rw [← Except.ok.inj hmsg]
    exact hread'.symm
  rw [hsame] at hlong
  exact Int32.not_lt.mp hlong

/-- A send of the content. -/
def sendOf (content : StdString) : SendRequest :=
  ⟨⟨0, 0, []⟩, 1, lit "d", 1, false, 0,
    .object [("clientMsgId", .str (lit "m")), ("conversationId", .int 1),
      ("content", .str content)]⟩

theorem read_sendOf (P : Platform) (content : StdString) :
    MsgSend.read P.json (sendOf content).data =
      .ok ⟨lit "m", 1, content, [], .null⟩ := by
  have hid : (sendOf content).data.getString P.json (lit "clientMsgId") =
      .ok (lit "m") := P.json.asString_str _
  have hconversation : (sendOf content).data.getInt64 P.json
      (lit "conversationId") = .ok 1 := P.json.asInt64_int 1
  have hcontent : (sendOf content).data.getString P.json (lit "content") =
      .ok content := P.json.asString_str content
  have hsentAt : (sendOf content).data.getString P.json (lit "sentAt") =
      .ok [] := P.json.asString_str []
  simp only [MsgSend.read, hid, hconversation, hcontent, hsentAt]
  rfl

theorem storedId_sendOf (P : Platform) (cfg : ChatConfig) {content : StdString}
    (hcontent : content ≠ [])
    (hlength : Int32.ofNat content.length ≤ cfg.chat.maxTextContentBytes) :
    (sendOf content).storedId P.json cfg = some (lit "m") := by
  have hid : lit "m" ≠ [] := by decide
  have hconversation : ¬ ((1 : Int64) ≤ 0) := by decide
  simp only [SendRequest.storedId, read_sendOf, hid, hconversation, hcontent,
    Int32.not_lt.mpr hlength, or_self, if_false]

/-- A queue of capacity zero enqueues nothing; any other lets a long text
through whose length wraps. -/
theorem sizeChecked_iff (P : Platform) (cfg : ChatConfig)
    (content : StdString) :
    SizeChecked P cfg content ↔
      cfg.rabbitmq.publisherQueueCapacity.toInt = 0 ∨
        ¬ LengthWraps cfg content := by
  constructor
  · intro hchecked
    by_contra hneither
    rw [not_or, not_not] at hneither
    obtain ⟨hcapacity, hover, hpasses⟩ := hneither
    have hroom : Server.Accepting cfg {} := (toSizeT_pos_iff _).mpr hcapacity
    have hcontent : content ≠ [] := by
      rintro rfl
      rw [Int32.le_iff_toInt_le] at hpasses
      simp at hover hpasses
      omega
    have hstored := storedId_sendOf P cfg hcontent hpasses
    obtain ⟨task, haccepted, _⟩ := SendRequest.run_of_stored (s := {}) hstored
    have hle := hchecked (sendOf content) {} (P.json.asString_str content) (by
      rw [haccepted hroom]
      simp [Server.publishAs])
    omega
  · intro hwhen request s hcontent hqueue
    cases hstored : request.storedId P.json cfg with
    | none => exact absurd (SendRequest.noTrace_of_not_stored hstored).queue hqueue
    | some id =>
        by_cases hroom : s.Accepting cfg
        · have hcapacity := (toSizeT_pos_iff _).mp (Nat.zero_lt_of_lt hroom)
          have hpasses := length_le_of_stored hstored hcontent
          have hwraps := hwhen.resolve_left hcapacity
          by_contra hover
          exact hwraps ⟨not_le.mp hover, hpasses⟩
        · exact absurd (SendRequest.rejected_of_full hstored hroom).2.1 hqueue

/-- Of a loaded configuration the conversions keep the values exactly when the
capacity is not negative, the prefetch fits sixteen bits, and the length of the
content does not wrap below the maximum (or nothing is ever enqueued). -/
theorem conversionsExact_iff (P : Platform)
    (getenv : StdString → Option StdString) (values cfg : ChatConfig)
    (hload : ChatConfig.load getenv values = .ok cfg) (content : StdString) :
    ConversionsExact P cfg content ↔
      0 ≤ cfg.rabbitmq.publisherQueueCapacity.toInt ∧
        (0 ≤ cfg.rabbitmq.consumerPrefetch.toInt ∧
          cfg.rabbitmq.consumerPrefetch.toInt ≤ 65535) ∧
        (cfg.rabbitmq.publisherQueueCapacity.toInt = 0 ∨
          ¬ LengthWraps cfg content) := by
  constructor
  · intro hexact
    exact ⟨(toSizeT_eq_iff _).mp hexact.capacity,
      (MqConsumer.prefetchCount_eq_iff _).mp hexact.prefetch,
      (sizeChecked_iff P cfg content).mp hexact.size⟩
  · rintro ⟨hcapacity, hprefetch, hsize⟩
    exact ⟨(toSizeT_eq_iff _).mpr hcapacity,
      (MqConsumer.prefetchCount_eq_iff _).mpr hprefetch,
      (toSizeT_eq_iff _).mpr (ChatConfig.load_maxDevices_pos hload).le,
      (sizeChecked_iff P cfg content).mpr hsize⟩

namespace ConversionsWitness

open Server.FanOutWitness (platform)

/-- A configuration with the given capacity. -/
def values (capacity : Int32) : ChatConfig :=
  { jwt := { secret := lit "s" }
    rabbitmq := { publisherQueueCapacity := capacity } }

theorem conversionsExact_default :
    ConversionsExact platform (values 10000) (lit "hello") :=
  (conversionsExact_iff platform (fun _ => none) (values 10000) (values 10000)
    (by decide +kernel) (lit "hello")).mpr
    ⟨by decide, by decide, Or.inr (by decide +kernel)⟩

/-- A negative capacity loads and becomes a queue without bound. -/
theorem not_all_conversionsExact :
    ¬ ∀ (P : Platform) (getenv : StdString → Option StdString)
      (values cfg : ChatConfig), ChatConfig.load getenv values = .ok cfg →
        ∀ content, ConversionsExact P cfg content := by
  intro hall
  have hexact := hall platform (fun _ => none) (values (-1)) (values (-1))
    (by decide +kernel) (lit "hello")
  exact absurd hexact.capacity (by decide)

end ConversionsWitness

end FlzChat
