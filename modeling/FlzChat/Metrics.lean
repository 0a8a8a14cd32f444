/-
`ChatMetrics`: labelled counters and the latency histogram.
-/
import FlzChat.StdString
import Mathlib.Data.List.AList

namespace FlzChat

/-- A `std::map` or `std::unordered_map`: a list of entries with distinct
keys. -/
abbrev KeyMap (κ υ : Type) := AList (fun _ : κ => υ)

namespace KeyMap

variable {κ υ : Type} [DecidableEq κ]

theorem lookup_erase_eq (m : KeyMap κ υ) (key other : κ) :
    (m.erase key).lookup other = if other = key then none else m.lookup other := by
  split_ifs with hkey
  · rw [hkey, AList.lookup_erase]
  · exact AList.lookup_erase_ne hkey

theorem erase_of_lookup_eq_none {m : KeyMap κ υ} {key : κ}
    (hnone : m.lookup key = none) : m.erase key = m :=
  AList.ext (List.kerase_of_notMem_keys (AList.lookup_eq_none.mp hnone))

end KeyMap

/-- A family of counters; an absent label counts zero. -/
abbrev Counter := KeyMap StdString UInt64

def Counter.count (c : Counter) (label : StdString) : UInt64 :=
  (c.lookup label).getD 0

def Counter.increment (c : Counter) (label : StdString) : Counter :=
  c.insert label (c.count label + 1)

theorem Counter.count_increment (c : Counter) (label other : StdString) :
    (c.increment label).count other =
      if other = label then c.count label + 1 else c.count other := by
  by_cases heq : other = label
  · subst heq
    simp [count, increment]
  · simp [count, increment, heq]

structure ChatMetrics where
  wsIn : Counter := ∅
  wsOut : Counter := ∅
  mqPublish : Counter := ∅
  mqConsume : Counter := ∅
  mqReconnect : Counter := ∅
  jwtFail : Counter := ∅
  histBuckets : List UInt64 := [5, 10, 20, 50, 100, 200, 500, 1000]
  histBucketCounts : List UInt64 := [0, 0, 0, 0, 0, 0, 0, 0]
  histSum : UInt64 := 0
  histCount : UInt64 := 0

namespace ChatMetrics

def incWsIn (m : ChatMetrics) (type : StdString) : ChatMetrics :=
  { m with wsIn := m.wsIn.increment type }

def incWsOut (m : ChatMetrics) (type : StdString) : ChatMetrics :=
  { m with wsOut := m.wsOut.increment type }

def incMqPublish (m : ChatMetrics) (routingKey result : StdString) :
    ChatMetrics :=
  { m with mqPublish := m.mqPublish.increment (routingKey ++ lit "|" ++ result) }

def incMqConsume (m : ChatMetrics) (routingKey result : StdString) :
    ChatMetrics :=
  { m with mqConsume := m.mqConsume.increment (routingKey ++ lit "|" ++ result) }

def incMqReconnect (m : ChatMetrics) (role : StdString) : ChatMetrics :=
  { m with mqReconnect := m.mqReconnect.increment role }

def incJwtVerifyFail (m : ChatMetrics) (reason : StdString) : ChatMetrics :=
  { m with jwtFail := m.jwtFail.increment reason }

/-- Count a value in the first bucket that holds it. -/
def bump (value : UInt64) : List UInt64 → List UInt64 → List UInt64
  | bucket :: buckets, count :: counts =>
      if value ≤ bucket then (count + 1) :: counts
      else count :: bump value buckets counts
  | _, counts => counts

def observeMsgSendLatencyMs (m : ChatMetrics) (valueMs : UInt64) :
    ChatMetrics :=
  { m with
    histBucketCounts := bump valueMs m.histBuckets m.histBucketCounts
    histSum := m.histSum + valueMs
    histCount := m.histCount + 1 }

end ChatMetrics

/-- The histogram on its own. -/
def latencyPart (m : ChatMetrics) : ChatMetrics :=
  { histBuckets := m.histBuckets, histBucketCounts := m.histBucketCounts,
    histSum := m.histSum, histCount := m.histCount }

end FlzChat
