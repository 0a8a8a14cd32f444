/-
The latency histogram as the metrics page shows it, after any calls of the
counting functions.  Its counters have 64 bits: every number on the page is the
right one modulo `2 ^ 64`, and below that many observations it is the right one.
-/
import FlzChat.PageFidelity

namespace FlzChat

open Prometheus (Sample rawPage)

/-- A latency histogram: the limits of the buckets with what they hold, the
bucket without a limit, the sum and the count. -/
structure Histogram where
  buckets : List (Nat × Nat)
  inf : Nat
  sum : Nat
  count : Nat

namespace Histogram

/-- The samples a histogram is shown by. -/
def samples (h : Histogram) : List (Sample Nat) :=
  h.buckets.map (fun bucket => bucketSample (decimal bucket.1) bucket.2) ++
    [bucketSample (lit "+Inf") h.inf,
      labelled "chat_msg_send_latency_ms_sum" [] h.sum,
      labelled "chat_msg_send_latency_ms_count" [] h.count]

/-- The lines of the histogram stand on the page. -/
def Shown (page : StdString) (h : Histogram) : Prop :=
  ∃ before after, page = before ++ 10 :: (rawPage pageNumbers h.samples ++ after)

/-- The names of the histogram's samples. -/
def sampleNames : List StdString :=
  [lit "chat_msg_send_latency_ms_bucket", lit "chat_msg_send_latency_ms_sum",
    lit "chat_msg_send_latency_ms_count"]

/-- Whoever reads the page finds the histogram on it and no other. -/
def Read (page : StdString) (h : Histogram) : Prop :=
  (Prometheus.parse pageNumbers page).map
      (List.filter fun s => decide (s.name ∈ sampleNames)) = some h.samples

/-- The number of values a bucket holds. -/
def held (values : List UInt64) (limit : Nat) : Nat :=
  values.countP (·.toNat ≤ limit)

/-- The histogram counts the values in 64 bits. -/
structure Wraps (values : List UInt64) (h : Histogram) : Prop where
  limits : h.buckets.map Prod.fst = [5, 10, 20, 50, 100, 200, 500, 1000]
  buckets : ∀ bucket ∈ h.buckets, bucket.2 = held values bucket.1 % 2 ^ 64
  inf : h.inf = values.length % 2 ^ 64
  sum : h.sum = (values.map UInt64.toNat).sum % 2 ^ 64
  count : h.count = values.length % 2 ^ 64

/-- The histogram counts the values. -/
structure Counts (values : List UInt64) (h : Histogram) : Prop where
  limits : h.buckets.map Prod.fst = [5, 10, 20, 50, 100, 200, 500, 1000]
  buckets : ∀ bucket ∈ h.buckets, bucket.2 = held values bucket.1
  nondecreasing : ∀ bucket ∈ h.buckets, ∀ other ∈ h.buckets,
    bucket.1 ≤ other.1 → bucket.2 ≤ other.2
  atMostInf : ∀ bucket ∈ h.buckets, bucket.2 ≤ h.inf
  inf : h.inf = values.length
  sum : h.sum = (values.map UInt64.toNat).sum % 2 ^ 64
  count : h.count = values.length

theorem held_mono (values : List UInt64) {limit limit' : Nat}
    (hle : limit ≤ limit') : held values limit ≤ held values limit' := by
  apply List.countP_mono_left
  intro value _ hvalue
  exact decide_eq_true ((of_decide_eq_true hvalue).trans hle)

theorem held_le (values : List UInt64) (limit : Nat) :
    held values limit ≤ values.length :=
  List.countP_le_length

/-- Nothing has wrapped around exactly below `2 ^ 64` values. -/
theorem Wraps.counts_iff {values : List UInt64} {h : Histogram}
    (hwraps : Wraps values h) : Counts values h ↔ values.length < 2 ^ 64 := by
  constructor
  · intro hcounts
    rw [← hcounts.count, hwraps.count]
    exact Nat.mod_lt _ (by norm_num)
  · intro hlength
    have hheld : ∀ bucket ∈ h.buckets, bucket.2 = held values bucket.1 := by
      intro bucket hbucket
      rw [hwraps.buckets bucket hbucket]
      exact Nat.mod_eq_of_lt ((held_le values _).trans_lt hlength)
    have hinf : h.inf = values.length := by
      rw [hwraps.inf, Nat.mod_eq_of_lt hlength]
    refine ⟨hwraps.limits, hheld, ?_, ?_, hinf, hwraps.sum, ?_⟩
    · intro bucket hbucket other hother hle
      rw [hheld bucket hbucket, hheld other hother]
      exact held_mono values hle
    · intro bucket hbucket
      rw [hheld bucket hbucket, hinf]
      exact held_le values _
    · rw [hwraps.count, Nat.mod_eq_of_lt hlength]

/-- The histogram that counts values in 64 bits. -/
def ofValues (values : List UInt64) : Histogram where
  buckets := [5, 10, 20, 50, 100, 200, 500, 1000].map fun limit =>
    (limit, held values limit % 2 ^ 64)
  inf := values.length % 2 ^ 64
  sum := (values.map UInt64.toNat).sum % 2 ^ 64
  count := values.length % 2 ^ 64

theorem wraps_ofValues (values : List UInt64) : Wraps values (ofValues values) where
  limits := rfl
  buckets := by
    intro bucket hbucket
    obtain ⟨limit, _, rfl⟩ := List.mem_map.mp hbucket
    rfl
  inf := rfl
  sum := rfl
  count := rfl

theorem samples_ofValues (values : List UInt64) :
    (ofValues values).samples = latencySamples values := rfl

/-! The samples of the page that are the histogram's. -/

def isLatency (s : Sample Nat) : Bool :=
  decide (s.name ∈ sampleNames)

theorem filter_rendered {κ : Type} (F : Family κ) (name : String)
    (hsample : ∀ key count, (F.sample key count).name = lit name)
    (hname : lit name ∉ sampleNames) (m : ChatMetrics) :
    (F.rendered m).filter isLatency = [] := by
  rw [List.filter_eq_nil_iff]
  intro s hs
  obtain ⟨it, _, rfl⟩ := List.mem_map.mp hs
  rw [isLatency, hsample, decide_eq_true_eq]
  exact hname

theorem filter_onlineSamples (reg : SessionRegistry) :
    (onlineSamples reg).filter isLatency = [] := by
  rw [List.filter_eq_nil_iff]
  simp only [onlineSamples, List.forall_mem_cons, List.not_mem_nil, isLatency,
    decide_eq_true_eq, labelled]
  exact ⟨by decide +kernel, by decide +kernel, by simp⟩

theorem filter_latencyRendered (m : ChatMetrics) :
    (latencyRendered m).filter isLatency = latencyRendered m := by
  rw [List.filter_eq_self]
  simp only [latencyRendered, totalSamples, List.forall_mem_append,
    List.forall_mem_map, List.forall_mem_cons, List.not_mem_nil, isLatency,
    decide_eq_true_eq, bucketSample, labelled]
  exact ⟨fun _ _ => by decide +kernel, by decide +kernel, by decide +kernel,
    by decide +kernel, by simp⟩

theorem filter_samples (reg : SessionRegistry) (m : ChatMetrics) :
    (m.samples reg).filter isLatency = latencyRendered m := by
  have hwsIn := filter_rendered wsInFamily "chat_ws_frames_total"
    (fun _ _ => rfl) (by decide +kernel) m
  have hwsOut := filter_rendered wsOutFamily "chat_ws_frames_total"
    (fun _ _ => rfl) (by decide +kernel) m
  have hpublish := filter_rendered mqPublishFamily "chat_mq_publish_total"
    (fun _ _ => rfl) (by decide +kernel) m
  have hconsume := filter_rendered mqConsumeFamily "chat_mq_consume_total"
    (fun _ _ => rfl) (by decide +kernel) m
  have hreconnect := filter_rendered mqReconnectFamily "chat_mq_reconnect_total"
    (fun _ _ => rfl) (by decide +kernel) m
  have hfail := filter_rendered jwtVerifyFailFamily "chat_jwt_verify_fail_total"
    (fun _ _ => rfl) (by decide +kernel) m
  rw [samples_eq]
  simp only [List.filter_append, filter_onlineSamples, hwsIn, hwsOut, hpublish,
    hconsume, hreconnect, hfail, filter_latencyRendered, List.nil_append,
    List.append_nil]

/-- The lines of the histogram, whatever the other calls have recorded. -/
theorem shown_ofValues (reg : SessionRegistry) (calls : List MetricsCall) :
    Shown (ChatMetrics.renderPrometheus reg (ChatMetrics.after calls))
      (ofValues (calls.filterMap MetricsCall.latency?)) := by
  rw [ChatMetrics.renderPrometheus_eq, samples_eq, latencyRendered_after,
    ← samples_ofValues, ChatMetrics.rawPage_append, ChatMetrics.rawPage_append]
  -- the page starts with the lines of the sessions, so some line comes before
  have hsome : onlineSamples reg ++ wsInFamily.rendered (ChatMetrics.after calls) ++
      wsOutFamily.rendered (ChatMetrics.after calls) ++
      mqPublishFamily.rendered (ChatMetrics.after calls) ++
      mqConsumeFamily.rendered (ChatMetrics.after calls) ++
      mqReconnectFamily.rendered (ChatMetrics.after calls) ≠ [] := by
    simp [onlineSamples]
  obtain ⟨before, hbefore⟩ := Prometheus.exists_rawPage_eq pageNumbers hsome
  rw [hbefore]
  refine ⟨before, rawPage pageNumbers
    (jwtVerifyFailFamily.rendered (ChatMetrics.after calls)), ?_⟩
  simp only [List.append_assoc, List.cons_append, List.nil_append]

/-- The histogram that is read off the page when the other calls leave it
readable. -/
theorem read_ofValues (reg : SessionRegistry) {calls : List MetricsCall}
    (hplain : ∀ call ∈ calls, call.Plain) :
    Read (ChatMetrics.renderPrometheus reg (ChatMetrics.after calls))
      (ofValues (calls.filterMap MetricsCall.latency?)) := by
  have hkeys := (forall_plain_iff calls).mp hplain
  have hfilter := filter_samples reg (ChatMetrics.after calls)
  rw [latencyRendered_after, ← samples_ofValues] at hfilter
  rw [Read, ChatMetrics.renderPrometheus_eq,
    Prometheus.parse_rawPage_of_clean pageNumbers (named_samples reg _)
      (clean_samples hkeys reg), Option.map_some]
  exact congrArg some hfilter

/-- The page shows the observed latencies as a histogram of 64 bits, and that
one is read off it when the other calls leave it readable; it counts them
exactly below `2 ^ 64` of them. -/
theorem exists_counts_iff (reg : SessionRegistry) (calls : List MetricsCall) :
    let page := ChatMetrics.renderPrometheus reg (ChatMetrics.after calls)
    let values := calls.filterMap MetricsCall.latency?
    ∃ h, Shown page h ∧ ((∀ call ∈ calls, call.Plain) → Read page h) ∧
      Wraps values h ∧ (Counts values h ↔ values.length < 2 ^ 64) :=
  ⟨ofValues _, shown_ofValues reg calls, read_ofValues reg, wraps_ofValues _,
    (wraps_ofValues _).counts_iff⟩

theorem Read.count_eq {page : StdString} {h h' : Histogram} (hread : Read page h)
    (hread' : Read page h') : h.count = h'.count := by
  rw [Read, hread, Option.some.injEq] at hread'
  have hlast := congrArg List.getLast? hread'
  simpa [samples, labelled] using hlast

namespace LatencyPageWitness

theorem read_observed (reg : SessionRegistry) (values : List UInt64) :
    Read (ChatMetrics.renderPrometheus reg (ChatMetrics.after
      (values.map MetricsCall.observeMsgSendLatencyMs))) (ofValues values) := by
  have hvalues : (values.map MetricsCall.observeMsgSendLatencyMs).filterMap
      MetricsCall.latency? = values := by
    rw [List.filterMap_map]
    exact List.filterMap_some
  have hplain : ∀ call ∈ values.map MetricsCall.observeMsgSendLatencyMs,
      call.Plain := List.forall_mem_map.mpr fun _ _ => trivial
  have hread := read_ofValues reg hplain
  rwa [hvalues] at hread

/-- The `2 ^ 64`-th observation takes the count back to zero. -/
theorem not_all_counts :
    ¬ ∀ (reg : SessionRegistry) (values : List UInt64), ∃ h,
      Read (ChatMetrics.renderPrometheus reg (ChatMetrics.after
        (values.map MetricsCall.observeMsgSendLatencyMs))) h ∧
      Counts values h := by
  intro hall
  obtain ⟨h, hread, hcounts⟩ := hall {} (List.replicate (2 ^ 64) 0)
  have hlength : (List.replicate (2 ^ 64) (0 : UInt64)).length = 2 ^ 64 :=
    List.length_replicate
  have hcount := hread.count_eq (read_observed {} _)
  rw [hcounts.count, ofValues, hlength] at hcount
  exact absurd hcount (by norm_num)

end LatencyPageWitness

end Histogram

end FlzChat
