/-
The latency of a send is the difference of two readings of the wall clock, one
when the send is kept and one when its event is answered.  It is cast to an
unsigned number, so the sum on the metrics page stays the sum of the times that
have passed exactly while no event is answered before its send was kept.
-/
import FlzChat.Deeds
import FlzChat.LatencyPage

namespace FlzChat

/-- A send taken for its event: the time it was kept at and the time it is. -/
structure Elapsed where
  createdMs : Int
  nowMs : Int
deriving DecidableEq

namespace Elapsed

/-- The latency that is recorded. -/
def recorded (e : Elapsed) : UInt64 :=
  UInt64.ofInt (e.nowMs - e.createdMs)

/-- The time that has passed. -/
def passed (e : Elapsed) : Nat :=
  (max 0 (e.nowMs - e.createdMs)).toNat

/-- A reading that fits an `int64_t`. -/
def IsInt64 (ms : Int) : Prop :=
  -2 ^ 63 ≤ ms ∧ ms < 2 ^ 63

instance : DecidablePred IsInt64 := fun _ => inferInstanceAs (Decidable (_ ∧ _))

theorem toNat_recorded (e : Elapsed) :
    (e.recorded.toNat : Int) = (e.nowMs - e.createdMs) % 2 ^ 64 := by
  have hnonneg : 0 ≤ (e.nowMs - e.createdMs) % 2 ^ 64 :=
    Int.emod_nonneg _ (by norm_num)
  have hlt : (e.nowMs - e.createdMs) % 2 ^ 64 < 2 ^ 64 :=
    Int.emod_lt_of_pos _ (by norm_num)
  rw [recorded, UInt64.ofInt, UInt64.toNat_ofNat_of_lt' (by
    rw [UInt64.size]
    omega), Int.toNat_of_nonneg hnonneg]

/-- A latency is right when the clock has not gone back, -/
theorem recorded_of_le {e : Elapsed} (hcreated : IsInt64 e.createdMs)
    (hnow : IsInt64 e.nowMs) (hle : e.createdMs ≤ e.nowMs) :
    e.recorded.toNat = e.passed := by
  have hrecorded := e.toNat_recorded
  have hcreatedMin := hcreated.1
  have hnowMax := hnow.2
  rw [Int.emod_eq_of_lt (by omega) (by omega)] at hrecorded
  rw [passed]
  omega

/-- and too large when it has. -/
theorem recorded_le_iff {e : Elapsed} (hcreated : IsInt64 e.createdMs)
    (hnow : IsInt64 e.nowMs) :
    e.recorded.toNat ≤ e.passed ↔ e.createdMs ≤ e.nowMs := by
  constructor
  · intro hle
    by_contra hback
    have hrecorded := e.toNat_recorded
    have hpassed : e.passed = 0 := by
      rw [passed]
      omega
    have hcreatedMax := hcreated.2
    have hnowMin := hnow.1
    omega
  · intro hle
    exact (recorded_of_le hcreated hnow hle).le

end Elapsed

/-! The sum on the page. -/

/-- The sums the metrics page shows. -/
def Server.shownSums (s : Server) : List Nat :=
  ((s.metrics.samples s.registry).filter fun sample =>
    decide (sample.name = lit "chat_msg_send_latency_ms_sum")).map (·.value)

theorem Server.shownSums_eq (s : Server) :
    s.shownSums = [s.metrics.histSum.toNat] := by
  have hsplit : (s.metrics.samples s.registry).filter (fun sample =>
        decide (sample.name = lit "chat_msg_send_latency_ms_sum")) =
      (latencyRendered s.metrics).filter fun sample =>
        decide (sample.name = lit "chat_msg_send_latency_ms_sum") := by
    rw [← Histogram.filter_samples s.registry, List.filter_filter]
    apply List.filter_congr
    intro sample _
    by_cases hname : sample.name = lit "chat_msg_send_latency_ms_sum"
    · simp [Histogram.isLatency, Histogram.sampleNames, hname]
    · simp [hname]
  have hbuckets : ((s.metrics.histBuckets.zip
      (ChatMetrics.cumulative 0 s.metrics.histBucketCounts)).map (fun bucket =>
        bucketSample (decimal bucket.1.toNat) bucket.2.toNat)).filter (fun sample =>
          decide (sample.name = lit "chat_msg_send_latency_ms_sum")) = [] := by
    rw [List.filter_eq_nil_iff]
    intro sample hsample
    obtain ⟨bucket, _, rfl⟩ := List.mem_map.mp hsample
    simp [bucketSample, labelled, lit_inj]
  rw [Server.shownSums, hsplit, latencyRendered, List.filter_append, hbuckets]
  simp [totalSamples, bucketSample, labelled, lit_inj]

/-! What the steps of the server do to the histogram. -/

/-- The send an event takes. -/
def Server.taken? (P : Platform) (clock : Clock) (p : Json) (s : Server) :
    Option Elapsed :=
  match ChatMsgSend.read P.json p with
  | .error _ => none
  | .ok event => (s.pending.lookup event.clientMsgId).map fun pending =>
      ⟨pending.createdMs, clock.nowMs⟩

/-- The histogram of a server after one more latency. -/
def observe (m : ChatMetrics) (e : Elapsed) : ChatMetrics :=
  m.observeMsgSendLatencyMs e.recorded

/-- An event observes the latency of the send it takes. -/
theorem Server.latencyPart_onChatMsgSend (P : Platform)
    (o : IterOrder Devices.Entry) (clock : Clock) (p : Json) (s : Server) :
    latencyPart (s.onChatMsgSend P o clock p).2.metrics =
      (s.taken? P clock p).toList.foldl observe (latencyPart s.metrics) := by
  cases hread : ChatMsgSend.read P.json p with
  | error thrown =>
      rw [onChatMsgSend_of_throw hread, taken?, hread]
      rfl
  | ok event =>
      have hanswered : latencyPart (s.answerPending o clock event p).metrics =
          (s.taken? P clock p).toList.foldl observe (latencyPart s.metrics) := by
        simp only [answerPending, taken?, hread]
        cases s.pending.lookup event.clientMsgId with
        | none => rfl
        | some pending =>
            have hsent : ∀ conns s', Does {} _ s' _ := fun conns s' =>
              does_sendAll (senderFrame event p pending) conns event.senderId s'
            exact (hsent _ _).latency_eq id
      have hpushed : Does {} _ _ _ := does_receivers hread o clock s
      rw [hpushed.latency_eq id, hanswered]

namespace Hub

/-- The readings of the clock in a step. -/
def Event.readings : Event → List Int
  | .connect clock _ _ _ _ => [clock.nowMs]
  | .frame _ clock _ _ => [clock.nowMs]
  | .envelope _ clock _ => [clock.nowMs]
  | .timer nowMs => [nowMs]
  | .close _ | .drain => []

/-- The send a step takes for its event. -/
def taken (P : Platform) (hub : Hub) : Event → List Elapsed
  | .envelope _ clock env =>
      if env.type = lit "chat.msg.send" then
        (hub.server.taken? P clock env.payload).toList
      else []
  | _ => []

def histogram (hub : Hub) : ChatMetrics :=
  latencyPart hub.server.metrics

theorem histogram_step (P : Platform) (cfg : ChatConfig) (hub : Hub) (e : Event) :
    ((machine P cfg).step hub e).histogram =
      (taken P hub e).foldl observe hub.histogram := by
  by_cases hobserves : (e.scope cfg).observes
  · -- only a persisted message has the scope to observe
    cases e with
    | envelope o clock env =>
        have htype : env.type = lit "chat.msg.send" := hobserves
        simp only [histogram, machine, Server.onEnvelope, taken, htype, if_true]
        exact Server.latencyPart_onChatMsgSend P o clock env.payload hub.server
    | _ => exact False.elim hobserves
  · have hnone : taken P hub e = [] := by
      cases e with
      | envelope o clock env => exact if_neg hobserves
      | _ => rfl
    rw [hnone]
    by_cases hdrain : e = .drain
    · rw [hdrain]
      rfl
    · exact (does_step P cfg hub hdrain).latency_eq hobserves

theorem pending_step (P : Platform) (cfg : ChatConfig) (hub : Hub) (e : Event)
    {id : StdString} {entry : PendingSend}
    (hlookup : ((machine P cfg).step hub e).server.pending.lookup id = some entry) :
    hub.server.pending.lookup id = some entry ∨ entry.createdMs ∈ e.readings := by
  by_cases hdrain : e = .drain
  · rw [hdrain] at hlookup
    exact Or.inl hlookup
  · rcases (does_step P cfg hub hdrain).pending_cases hlookup with hold | hkept
    · exact Or.inl hold
    · cases e with
      | frame session clock isText data =>
          exact Or.inr (List.mem_singleton.mpr hkept)
      | _ => exact False.elim hkept

/-- What a step takes had been kept, and is looked at now. -/
theorem exists_of_mem_taken {P : Platform} {hub : Hub} {e : Event} {t : Elapsed}
    (ht : t ∈ taken P hub e) :
    (∃ id entry, hub.server.pending.lookup id = some entry ∧
      entry.createdMs = t.createdMs) ∧ t.nowMs ∈ e.readings := by
  cases e with
  | envelope o clock env =>
      simp only [taken, Server.taken?] at ht
      split_ifs at ht
      · split at ht
        · contradiction
        · obtain ⟨entry, hlookup, rfl⟩ :=
            Option.map_eq_some_iff.mp (Option.mem_toList.mp ht)
          exact ⟨⟨_, entry, hlookup, rfl⟩, List.mem_cons_self⟩
      · contradiction
  | connect | close | frame | timer | drain => contradiction

/-! Runs. -/

/-- The sends a run takes for their events. -/
def answered (P : Platform) (cfg : ChatConfig) (es : List Event) : List Elapsed :=
  (machine P cfg).trace (taken P) {} es

/-- No latency is larger than the time that has passed, and the sum on the page
does not go down while the true one fits 64 bits. -/
structure SumSteady (P : Platform) (cfg : ChatConfig) (es : List Event) : Prop where
  recorded : ∀ e ∈ answered P cfg es, e.recorded.toNat ≤ e.passed
  nondecreasing : ∀ fs gs, fs <+: gs → gs <+: es →
    ((answered P cfg gs).map Elapsed.passed).sum < 2 ^ 64 →
      ∀ before ∈ ((machine P cfg).run {} fs).server.shownSums,
        ∀ after ∈ ((machine P cfg).run {} gs).server.shownSums, before ≤ after

/-- A run observes the latencies of the sends it takes, in order. -/
theorem histogram_run (P : Platform) (cfg : ChatConfig) (es : List Event) :
    ((machine P cfg).run {} es).histogram =
      ChatMetrics.observeAll {} ((answered P cfg es).map Elapsed.recorded) := by
  rw [ChatMetrics.observeAll, List.foldl_map]
  exact Machine.project_run (histogram_step P cfg) {} es

/-- Every latency of a run is in the sum. -/
theorem histSum_run (P : Platform) (cfg : ChatConfig) (es : List Event) :
    ((machine P cfg).run {} es).server.metrics.histSum.toNat =
      ((answered P cfg es).map (·.recorded.toNat)).sum % 2 ^ 64 := by
  have hsum := congrArg ChatMetrics.histSum (histogram_run P cfg es)
  rw [(ChatMetrics.histSum_observeAll _ _).1, List.map_map] at hsum
  change ((machine P cfg).run {} es).server.metrics.histSum = _ at hsum
  rw [hsum]
  change (0 + UInt64.ofNat _).toNat = _
  rw [UInt64.zero_add, UInt64.toNat_ofNat']
  rfl

/-- Every time in a run has been read in it. -/
theorem isInt64_of_mem_trace {P : Platform} {cfg : ChatConfig} {hub : Hub}
    {es : List Event}
    (hkept : ∀ id entry, hub.server.pending.lookup id = some entry →
      Elapsed.IsInt64 entry.createdMs)
    (hreadings : ∀ e ∈ es, ∀ ms ∈ e.readings, Elapsed.IsInt64 ms) :
    ∀ t ∈ (machine P cfg).trace (taken P) hub es,
      Elapsed.IsInt64 t.createdMs ∧ Elapsed.IsInt64 t.nowMs := by
  induction es generalizing hub with
  | nil => simp [Machine.trace]
  | cons e es ih =>
      obtain ⟨hnow, hlater⟩ := List.forall_mem_cons.mp hreadings
      rw [Machine.trace, List.forall_mem_append]
      refine ⟨?_, ih ?_ hlater⟩
      · intro t ht
        obtain ⟨⟨id, entry, hlookup, hcreated⟩, hread⟩ := exists_of_mem_taken ht
        exact ⟨hcreated ▸ hkept id entry hlookup, hnow _ hread⟩
      · intro id entry hlookup
        rcases pending_step P cfg hub e hlookup with hbefore | hread
        · exact hkept id entry hbefore
        · exact hnow _ hread

/-- Under such latencies the sum on the page is the true one. -/
theorem shownSums_run {P : Platform} {cfg : ChatConfig} {es : List Event}
    (hrecorded : ∀ e ∈ answered P cfg es, e.recorded.toNat = e.passed)
    (hfits : ((answered P cfg es).map Elapsed.passed).sum < 2 ^ 64) :
    ((machine P cfg).run {} es).server.shownSums =
      [((answered P cfg es).map Elapsed.passed).sum] := by
  rw [Server.shownSums_eq, histSum_run, List.map_congr_left hrecorded,
    Nat.mod_eq_of_lt hfits]

/-- A run observes the latencies of the sends it takes; they and their sum are
right exactly when no event is answered at a time before its send was kept. -/
theorem sumSteady_iff (P : Platform) (cfg : ChatConfig) {es : List Event}
    (hreadings : ∀ e ∈ es, ∀ ms ∈ e.readings, Elapsed.IsInt64 ms) :
    ((machine P cfg).run {} es).histogram =
        ChatMetrics.observeAll {} ((answered P cfg es).map Elapsed.recorded) ∧
      (SumSteady P cfg es ↔ (machine P cfg).Each
        (fun hub e => ∀ t ∈ taken P hub e, t.createdMs ≤ t.nowMs) {} es) := by
  refine ⟨histogram_run P cfg es, ?_⟩
  have hrange : ∀ t ∈ answered P cfg es,
      Elapsed.IsInt64 t.createdMs ∧ Elapsed.IsInt64 t.nowMs :=
    isInt64_of_mem_trace (by simp) hreadings
  rw [Machine.each_iff_forall_trace]
  constructor
  · rintro ⟨hrecorded, _⟩ t ht
    obtain ⟨hcreated, hnow⟩ := hrange t ht
    exact (Elapsed.recorded_le_iff hcreated hnow).mp (hrecorded t ht)
  · intro hforward
    have hrecorded : ∀ t ∈ answered P cfg es, t.recorded.toNat = t.passed := by
      intro t ht
      obtain ⟨hcreated, hnow⟩ := hrange t ht
      exact Elapsed.recorded_of_le hcreated hnow (hforward t ht)
    refine ⟨fun t ht => (hrecorded t ht).le, ?_⟩
    intro fs gs hfs hgs hfits before hbefore after hafter
    have hlater : answered P cfg gs <+: answered P cfg es :=
      Machine.trace_prefix hgs
    have hearlier : answered P cfg fs <+: answered P cfg gs :=
      Machine.trace_prefix hfs
    -- the sum of the shorter run is a part of the longer one's
    have hle : ((answered P cfg fs).map Elapsed.passed).sum ≤
        ((answered P cfg gs).map Elapsed.passed).sum := by
      obtain ⟨rest, hrest⟩ := hearlier
      rw [← hrest, List.map_append, List.sum_append]
      exact Nat.le_add_right _ _
    rw [shownSums_run (fun t ht => hrecorded t (hlater.subset ht)) hfits,
      List.mem_singleton] at hafter
    rw [shownSums_run
      (fun t ht => hrecorded t (hlater.subset (hearlier.subset ht)))
      (hle.trans_lt hfits), List.mem_singleton] at hbefore
    rw [hbefore, hafter]
    exact hle

namespace LatencyClockWitness

open HubWitness (cfg logIn)

def sendText : StdString :=
  lit "\x7b\"type\":\"msg.send\",\"data\":\x7b\"clientMsgId\":\"m1\",\"conversationId\":3,\"content\":\"hello\"\x7d\x7d"

def platform : Platform :=
  { HubWitness.platform with
    fromString := fun text =>
      if text = sendText then
        some (.object [("type", .str (lit "msg.send")),
          ("data", .object [("clientMsgId", .str (lit "m1")),
            ("conversationId", .int 3), ("content", .str (lit "hello"))])])
      else HubWitness.platform.fromString text }

def clock (nowMs : Int) : Clock := ⟨nowMs, 1700000000, []⟩

/-- The message comes back from the broker. -/
def persisted : Envelope :=
  ⟨lit "e1", 1, [], lit "business", lit "chat.msg.send",
    .object [("clientMsgId", .str (lit "m1")), ("messageId", .int 5),
      ("senderId", .uint 7)]⟩

/-- A send is kept at reading 1000 and answered at another. -/
def answeredAt (nowMs : Int) : List Event :=
  [.frame 1 (clock 1000) true sendText,
    .envelope (IterOrder.asKept _) (clock nowMs) persisted]

def forward : List Event :=
  logIn 1 :: answeredAt 1250

/-- After a first send the clock is set back. -/
def setBack : List Event :=
  forward ++ answeredAt 999

theorem answered_forward : answered platform cfg forward = [⟨1000, 1250⟩] := by
  decide +kernel

theorem answered_setBack :
    answered platform cfg setBack = [⟨1000, 1250⟩, ⟨1000, 999⟩] := by
  decide +kernel

theorem sumSteady_forward : SumSteady platform cfg forward := by
  have hforward : ∀ t ∈ answered platform cfg forward, t.createdMs ≤ t.nowMs := by
    rw [answered_forward]
    decide
  exact (sumSteady_iff platform cfg (by decide +kernel)).2.mpr
    (Machine.each_iff_forall_trace.mpr hforward)

/-- The sum on the page goes from 250 to 249. -/
theorem not_always_sumSteady :
    ¬ ∀ (P : Platform) (cfg : ChatConfig) (es : List Event),
      (machine P cfg).Admissible {} es →
        (∀ e ∈ es, ∀ ms ∈ e.readings, Elapsed.IsInt64 ms) →
          SumSteady P cfg es := by
  intro hall
  have hsteady := hall platform cfg setBack (by decide +kernel) (by decide +kernel)
  have hbefore : 250 ∈ ((machine platform cfg).run {} forward).server.shownSums := by
    rw [Server.shownSums_eq, List.mem_singleton, histSum_run, answered_forward]
    decide +kernel
  have hafter : 249 ∈ ((machine platform cfg).run {} setBack).server.shownSums := by
    rw [Server.shownSums_eq, List.mem_singleton, histSum_run, answered_setBack]
    decide +kernel
  have hle := hsteady.nondecreasing forward setBack (List.prefix_append _ _)
    (List.prefix_refl setBack) (by rw [answered_setBack]; decide +kernel)
    250 hbefore 249 hafter
  exact absurd hle (by decide)

end LatencyClockWitness

end Hub

end FlzChat
