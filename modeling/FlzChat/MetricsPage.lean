/-
`RenderPrometheus`.  Labels go onto the page as they were recorded, without an
escape, and routing key and result come out of one joined key; the page is that
of the samples the keys are taken apart into.
-/
import FlzChat.LatencyHistogram
import FlzChat.RawPage
import FlzChat.SessionRegistry

namespace FlzChat

/-- The entries of a `std::map` in the order of their keys. -/
def Counter.inOrder (c : Counter) : List (StdString × UInt64) :=
  (c.keys.mergeSort fun a b => decide (a ≤ b)).map fun label =>
    (label, c.count label)

namespace ChatMetrics

/-- A joined key taken apart at its first bar; without one the result reads
`ok`. -/
def splitKey (key : StdString) : StdString × StdString :=
  match key.dropWhile (· ≠ 124) with
  | [] => (key, lit "ok")
  | _ :: result => (key.takeWhile (· ≠ 124), result)

/-- A line without a recorded label. -/
def plainLine (head : String) (count : Nat) : StdString :=
  lit head ++ decimal count ++ lit "\n"

/-- A line with a text between quotes. -/
def labelledLine (head : String) (text : StdString) (count : UInt64) : StdString :=
  lit head ++ text ++ lit "\"\x7d " ++ decimal count.toNat ++ lit "\n"

def counterLine (head : String) (it : StdString × UInt64) : StdString :=
  labelledLine head it.1 it.2

/-- The line of a counter kept under a joined key. -/
def keyedLine (head : String) (it : StdString × UInt64) : StdString :=
  lit head ++ (splitKey it.1).1 ++ lit "\",result=\"" ++ (splitKey it.1).2 ++
    lit "\"\x7d " ++ decimal it.2.toNat ++ lit "\n"

def bucketLine (head : String) (bucket : UInt64 × UInt64) : StdString :=
  labelledLine head (decimal bucket.1.toNat) bucket.2

def renderPrometheus (reg : SessionRegistry) (m : ChatMetrics) : StdString :=
  plainLine "chat_online_users " reg.onlineUsers ++
  plainLine "chat_online_connections " reg.onlineConnections ++
  m.wsIn.inOrder.flatMap
    (counterLine "chat_ws_frames_total\x7bdirection=\"in\",type=\"") ++
  m.wsOut.inOrder.flatMap
    (counterLine "chat_ws_frames_total\x7bdirection=\"out\",type=\"") ++
  m.mqPublish.inOrder.flatMap
    (keyedLine "chat_mq_publish_total\x7brouting_key=\"") ++
  m.mqConsume.inOrder.flatMap
    (keyedLine "chat_mq_consume_total\x7brouting_key=\"") ++
  m.mqReconnect.inOrder.flatMap
    (counterLine "chat_mq_reconnect_total\x7brole=\"") ++
  (m.histBuckets.zip (cumulative 0 m.histBucketCounts)).flatMap
    (bucketLine "chat_msg_send_latency_ms_bucket\x7ble=\"") ++
  plainLine "chat_msg_send_latency_ms_bucket\x7ble=\"+Inf\"\x7d "
    m.histCount.toNat ++
  plainLine "chat_msg_send_latency_ms_sum " m.histSum.toNat ++
  plainLine "chat_msg_send_latency_ms_count " m.histCount.toNat ++
  m.jwtFail.inOrder.flatMap
    (counterLine "chat_jwt_verify_fail_total\x7breason=\"")

end ChatMetrics

open Prometheus (Sample Numerals rawPage)

/-- The numbers on the page. -/
def pageNumbers : Numerals Nat where
  print := decimal
  read text := if IsDecimal text then some (readDecimal text) else none
  read_print n := by rw [if_pos (isDecimal_decimal n), readDecimal_decimal]
  print_word n := by
    intro b hb
    have hdigit := (isDecimal_decimal n).2 b hb
    simp only [isDigit, Prometheus.isBlank, Bool.and_eq_true, decide_eq_true_eq,
      Bool.or_eq_false_iff, decide_eq_false_iff_not, UInt8.le_iff_toNat_le,
      ← UInt8.toNat_inj, ne_eq] at hdigit ⊢
    simp at hdigit ⊢
    omega

/-- A sample under a literal name with literal label names. -/
def labelled (name : String) (labels : List (String × StdString)) (count : Nat) :
    Sample Nat :=
  ⟨lit name, labels.map fun label => (lit label.1, label.2), count, []⟩

/-! The families of counters on the page. -/

def framesSample (direction : String) (type : StdString) : Nat → Sample Nat :=
  labelled "chat_ws_frames_total" [("direction", lit direction), ("type", type)]

def publishSample (key : StdString × StdString) : Nat → Sample Nat :=
  labelled "chat_mq_publish_total" [("routing_key", key.1), ("result", key.2)]

def consumeSample (key : StdString × StdString) : Nat → Sample Nat :=
  labelled "chat_mq_consume_total" [("routing_key", key.1), ("result", key.2)]

def reconnectSample (role : StdString) : Nat → Sample Nat :=
  labelled "chat_mq_reconnect_total" [("role", role)]

def bucketSample (bucket : StdString) : Nat → Sample Nat :=
  labelled "chat_msg_send_latency_ms_bucket" [("le", bucket)]

def verifyFailSample (reason : StdString) : Nat → Sample Nat :=
  labelled "chat_jwt_verify_fail_total" [("reason", reason)]

/-- The samples of the sessions that are online. -/
def onlineSamples (reg : SessionRegistry) : List (Sample Nat) :=
  [labelled "chat_online_users" [] reg.onlineUsers,
    labelled "chat_online_connections" [] reg.onlineConnections]

/-- The samples after the buckets of the histogram. -/
def totalSamples (sum count : Nat) : List (Sample Nat) :=
  [bucketSample (lit "+Inf") count,
    labelled "chat_msg_send_latency_ms_sum" [] sum,
    labelled "chat_msg_send_latency_ms_count" [] count]

namespace ChatMetrics

/-- The samples the page is written for. -/
def samples (reg : SessionRegistry) (m : ChatMetrics) : List (Sample Nat) :=
  onlineSamples reg ++
  m.wsIn.inOrder.map (fun it => framesSample "in" it.1 it.2.toNat) ++
  m.wsOut.inOrder.map (fun it => framesSample "out" it.1 it.2.toNat) ++
  m.mqPublish.inOrder.map (fun it => publishSample (splitKey it.1) it.2.toNat) ++
  m.mqConsume.inOrder.map (fun it => consumeSample (splitKey it.1) it.2.toNat) ++
  m.mqReconnect.inOrder.map (fun it => reconnectSample it.1 it.2.toNat) ++
  (m.histBuckets.zip (cumulative 0 m.histBucketCounts)).map (fun bucket =>
    bucketSample (decimal bucket.1.toNat) bucket.2.toNat) ++
  totalSamples m.histSum.toNat m.histCount.toNat ++
  m.jwtFail.inOrder.map (fun it => verifyFailSample it.1 it.2.toNat)

/-! The page is that of its samples, written raw. -/

theorem plainLine_eq {head name : String} (hhead : lit head = lit name ++ [32])
    (count : Nat) :
    plainLine head count =
      (labelled name [] count).rawLine pageNumbers ++ [10] := by
  simp [plainLine, hhead, labelled, Sample.rawLine, Sample.stem,
    Prometheus.rawLabelSet, pageNumbers]
  rfl

theorem labelledLine_eq {head name key : String}
    (hhead : lit head = lit name ++ 123 :: (lit key ++ [61, 34]))
    (text : StdString) (count : UInt64) :
    labelledLine head text count =
      (labelled name [(key, text)] count.toNat).rawLine pageNumbers ++ [10] := by
  simp [labelledLine, hhead, labelled, Sample.rawLine, Sample.stem,
    Prometheus.rawLabelSet, Prometheus.rawLabels, Prometheus.rawLabel, pageNumbers]
  rfl

theorem framesLine_eq {head direction : String}
    (hhead : lit head = lit "chat_ws_frames_total" ++ 123 :: (lit "direction" ++
      61 :: 34 :: (lit direction ++ 34 :: 44 :: (lit "type" ++ [61, 34]))))
    (text : StdString) (count : UInt64) :
    labelledLine head text count =
      (framesSample direction text count.toNat).rawLine pageNumbers ++ [10] := by
  simp [labelledLine, framesSample, hhead, labelled, Sample.rawLine, Sample.stem,
    Prometheus.rawLabelSet, Prometheus.rawLabels, Prometheus.rawLabel, pageNumbers]
  rfl

theorem keyedLine_eq {head name : String}
    (hhead : lit head = lit name ++ 123 :: (lit "routing_key" ++ [61, 34]))
    (it : StdString × UInt64) :
    keyedLine head it =
      (labelled name [("routing_key", (splitKey it.1).1),
        ("result", (splitKey it.1).2)] it.2.toNat).rawLine pageNumbers ++ [10] := by
  simp [keyedLine, hhead, labelled, Sample.rawLine, Sample.stem,
    Prometheus.rawLabelSet, Prometheus.rawLabels, Prometheus.rawLabel, pageNumbers]
  rfl

theorem infLine_eq (count : Nat) :
    plainLine "chat_msg_send_latency_ms_bucket\x7ble=\"+Inf\"\x7d " count =
      (bucketSample (lit "+Inf") count).rawLine pageNumbers ++ [10] := by
  simp only [plainLine, bucketSample, labelled, Sample.rawLine, Sample.stem,
    Prometheus.rawLabelSet, List.append_assoc]
  rfl

theorem flatMap_eq_rawPage {α : Type} {text : α → StdString} {sample : α → Sample Nat}
    (hline : ∀ a, text a = (sample a).rawLine pageNumbers ++ [10]) (entries : List α) :
    entries.flatMap text = rawPage pageNumbers (entries.map sample) := by
  rw [rawPage, List.flatMap_map]
  exact List.flatMap_congr fun a _ => hline a

theorem rawPage_append (samples samples' : List (Sample Nat)) :
    rawPage pageNumbers (samples ++ samples') =
      rawPage pageNumbers samples ++ rawPage pageNumbers samples' :=
  List.flatMap_append

theorem append_congr {a b c d : StdString} (hab : a = b) (hcd : c = d) :
    a ++ c = b ++ d := by
  rw [hab, hcd]

/-- The page is written raw. -/
theorem renderPrometheus_eq (reg : SessionRegistry) (m : ChatMetrics) :
    renderPrometheus reg m = rawPage pageNumbers (samples reg m) := by
  have honline : rawPage pageNumbers (onlineSamples reg) =
      plainLine "chat_online_users " reg.onlineUsers ++
        plainLine "chat_online_connections " reg.onlineConnections := by
    rw [onlineSamples, rawPage, List.flatMap_cons, List.flatMap_singleton]
    exact append_congr (plainLine_eq rfl _).symm (plainLine_eq rfl _).symm
  have htotals : ∀ sum count, rawPage pageNumbers (totalSamples sum count) =
      plainLine "chat_msg_send_latency_ms_bucket\x7ble=\"+Inf\"\x7d " count ++
        (plainLine "chat_msg_send_latency_ms_sum " sum ++
          plainLine "chat_msg_send_latency_ms_count " count) := by
    intro sum count
    rw [totalSamples, rawPage, List.flatMap_cons, List.flatMap_cons,
      List.flatMap_singleton]
    exact append_congr (infLine_eq count).symm
      (append_congr (plainLine_eq rfl _).symm (plainLine_eq rfl _).symm)
  rw [renderPrometheus, samples]
  simp only [rawPage_append, honline, htotals, List.append_assoc]
  refine append_congr rfl (append_congr rfl ?_)
  refine append_congr (flatMap_eq_rawPage (fun it => framesLine_eq rfl _ _) _) ?_
  refine append_congr (flatMap_eq_rawPage (fun it => framesLine_eq rfl _ _) _) ?_
  refine append_congr (flatMap_eq_rawPage (fun it => keyedLine_eq rfl _) _) ?_
  refine append_congr (flatMap_eq_rawPage (fun it => keyedLine_eq rfl _) _) ?_
  refine append_congr (flatMap_eq_rawPage (fun it => labelledLine_eq rfl _ _) _) ?_
  refine append_congr (flatMap_eq_rawPage (fun it => labelledLine_eq rfl _ _) _) ?_
  refine append_congr rfl (append_congr rfl (append_congr rfl ?_))
  exact flatMap_eq_rawPage (fun it => labelledLine_eq rfl _ _) _

end ChatMetrics

end FlzChat
