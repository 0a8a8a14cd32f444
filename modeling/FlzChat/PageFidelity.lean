/-
What the metrics page says of the calls made before it.  Every family of
counters is rendered from the keys of its map; the page is read as the counts of
the calls exactly when no recorded text needs an escape and no routing key holds
the bar the keys are joined with.
-/
import FlzChat.MetricsPage

namespace FlzChat

open Prometheus (Sample rawPage)

/-- A call of one of the counting functions. -/
inductive MetricsCall where
  | incWsIn (type : StdString)
  | incWsOut (type : StdString)
  | incMqPublish (routingKey result : StdString)
  | incMqConsume (routingKey result : StdString)
  | incMqReconnect (role : StdString)
  | incJwtVerifyFail (reason : StdString)
  | observeMsgSendLatencyMs (valueMs : UInt64)

namespace MetricsCall

def wsIn? : MetricsCall → Option StdString
  | incWsIn type => some type
  | _ => none

def wsOut? : MetricsCall → Option StdString
  | incWsOut type => some type
  | _ => none

def mqPublish? : MetricsCall → Option (StdString × StdString)
  | incMqPublish routingKey result => some (routingKey, result)
  | _ => none

def mqConsume? : MetricsCall → Option (StdString × StdString)
  | incMqConsume routingKey result => some (routingKey, result)
  | _ => none

def mqReconnect? : MetricsCall → Option StdString
  | incMqReconnect role => some role
  | _ => none

def jwtVerifyFail? : MetricsCall → Option StdString
  | incJwtVerifyFail reason => some reason
  | _ => none

def latency? : MetricsCall → Option UInt64
  | observeMsgSendLatencyMs valueMs => some valueMs
  | _ => none

/-- Nothing in the texts of the call needs an escape, and a routing key does not
hold the bar. -/
def Plain : MetricsCall → Prop
  | incWsIn text | incWsOut text | incMqReconnect text | incJwtVerifyFail text =>
      Prometheus.Clean text
  | incMqPublish routingKey result | incMqConsume routingKey result =>
      Prometheus.Clean routingKey ∧ Prometheus.Clean result ∧ 124 ∉ routingKey
  | observeMsgSendLatencyMs _ => True

instance : DecidablePred Plain := by
  intro call
  cases call <;> (unfold Plain; infer_instance)

end MetricsCall

namespace ChatMetrics

def record (m : ChatMetrics) : MetricsCall → ChatMetrics
  | .incWsIn type => m.incWsIn type
  | .incWsOut type => m.incWsOut type
  | .incMqPublish routingKey result => m.incMqPublish routingKey result
  | .incMqConsume routingKey result => m.incMqConsume routingKey result
  | .incMqReconnect role => m.incMqReconnect role
  | .incJwtVerifyFail reason => m.incJwtVerifyFail reason
  | .observeMsgSendLatencyMs valueMs => m.observeMsgSendLatencyMs valueMs

def after (calls : List MetricsCall) : ChatMetrics :=
  calls.foldl record {}

end ChatMetrics

/-- One sample for each key that occurs, with the number of its occurrences. -/
def tally {κ : Type} [DecidableEq κ] (sample : κ → Nat → Sample Nat)
    (keys : List κ) : List (Sample Nat) :=
  keys.dedup.map fun key => sample key (keys.count key % 2 ^ 64)

/-- The samples of the observed latencies: a bucket counts the values up to its
limit. -/
def latencySamples (values : List UInt64) : List (Sample Nat) :=
  [5, 10, 20, 50, 100, 200, 500, 1000].map (fun limit =>
    bucketSample (decimal limit) (values.countP (·.toNat ≤ limit) % 2 ^ 64)) ++
  totalSamples ((values.map UInt64.toNat).sum % 2 ^ 64) (values.length % 2 ^ 64)

/-- What calls have recorded: the counters of the program have 64 bits. -/
def recorded (reg : SessionRegistry) (calls : List MetricsCall) :
    List (Sample Nat) :=
  onlineSamples reg ++
  tally (framesSample "in") (calls.filterMap MetricsCall.wsIn?) ++
  tally (framesSample "out") (calls.filterMap MetricsCall.wsOut?) ++
  tally publishSample (calls.filterMap MetricsCall.mqPublish?) ++
  tally consumeSample (calls.filterMap MetricsCall.mqConsume?) ++
  tally reconnectSample (calls.filterMap MetricsCall.mqReconnect?) ++
  latencySamples (calls.filterMap MetricsCall.latency?) ++
  tally verifyFailSample (calls.filterMap MetricsCall.jwtVerifyFail?)

/-- The page reads as what was recorded, in some order. -/
def Faithful (reg : SessionRegistry) (calls : List MetricsCall) : Prop :=
  ∃ samples, Prometheus.parse pageNumbers
      (ChatMetrics.renderPrometheus reg (ChatMetrics.after calls)) = some samples ∧
    samples.Perm (recorded reg calls)

/-! Counters after a run of calls. -/

theorem foldl_filterMap {ι κ σ τ : Type} {step : σ → ι → σ} (field : σ → τ)
    {key? : ι → Option κ} (update : τ → κ → τ)
    (hstep : ∀ s i, field (step s i) = (key? i).elim (field s) (update (field s)))
    (is : List ι) (s : σ) :
    field (is.foldl step s) = (is.filterMap key?).foldl update (field s) := by
  induction is generalizing s with
  | nil => rfl
  | cons i is ih =>
      rw [List.foldl_cons, ih, hstep]
      cases hkey : key? i with
      | none => simp [hkey]
      | some key => simp [hkey]

theorem Counter.count_foldl (c : Counter) (labels : List StdString)
    (label : StdString) :
    (labels.foldl Counter.increment c).count label =
      c.count label + UInt64.ofNat (labels.count label) := by
  induction labels generalizing c with
  | nil => simp
  | cons first labels ih =>
      rw [List.foldl_cons, ih, Counter.count_increment]
      by_cases hfirst : label = first
      · rw [if_pos hfirst, hfirst, List.count_cons_self, Nat.add_comm,
          UInt64.ofNat_add, ← UInt64.add_assoc]
        rfl
      · rw [if_neg hfirst, List.count_cons_of_ne (Ne.symm hfirst)]

theorem Counter.mem_keys_foldl (c : Counter) (labels : List StdString)
    (label : StdString) :
    label ∈ (labels.foldl Counter.increment c).keys ↔
      label ∈ c.keys ∨ label ∈ labels := by
  induction labels generalizing c with
  | nil => simp
  | cons first labels ih =>
      have hkeys : label ∈ (c.increment first).keys ↔
          label = first ∨ label ∈ c.keys := AList.mem_insert _
      rw [List.foldl_cons, ih, hkeys, List.mem_cons]
      tauto

/-- The keys of a family of counters with their counts, in map order. -/
theorem Counter.inOrder_foldl_perm (labels : List StdString) :
    (labels.foldl Counter.increment ∅).inOrder.Perm
      (labels.dedup.map fun label => (label, UInt64.ofNat (labels.count label))) := by
  have hkeys : (labels.foldl Counter.increment ∅).keys.Perm labels.dedup := by
    apply (List.perm_ext_iff_of_nodup (AList.keys_nodup _) labels.nodup_dedup).mpr
    intro label
    rw [Counter.mem_keys_foldl, List.mem_dedup]
    simp
  have hcounts : ∀ label, (labels.foldl Counter.increment ∅).count label =
      UInt64.ofNat (labels.count label) := by
    intro label
    rw [Counter.count_foldl]
    simp [Counter.count]
  simp only [Counter.inOrder, hcounts]
  exact ((List.mergeSort_perm _ _).trans hkeys).map _

section

variable {α β : Type} [DecidableEq α] {f : α → β} {l : List α}

theorem dedup_map_perm [DecidableEq β] (hinj : ∀ a ∈ l, ∀ b ∈ l, f a = f b → a = b) :
    (l.map f).dedup.Perm (l.dedup.map f) := by
  apply (List.perm_ext_iff_of_nodup (List.nodup_dedup _) _).mpr
  · intro label
    simp
  · apply List.Nodup.map_on _ (List.nodup_dedup _)
    intro a ha b hb
    exact hinj a (List.mem_dedup.mp ha) b (List.mem_dedup.mp hb)

theorem count_map_of_inj [BEq β] [LawfulBEq β]
    (hinj : ∀ a ∈ l, ∀ b ∈ l, f a = f b → a = b) {a : α} (ha : a ∈ l) : (l.map f).count (f a) = l.count a := by
  rw [List.count, List.count, List.countP_map]
  apply List.countP_congr
  intro b hb
  simp only [Function.comp_apply, beq_iff_eq]
  exact ⟨hinj b hb a ha, fun heq => by rw [heq]⟩

end

/-! Families of counters. -/

/-- A family of counters: the map it is kept in, the key a call counts under,
how the key is written into the map and read back, and its sample. -/
structure Family (κ : Type) where
  counter : ChatMetrics → Counter
  key? : MetricsCall → Option κ
  join : κ → StdString
  split : StdString → κ
  sample : κ → Nat → Sample Nat
  initial : counter {} = ∅
  counts : ∀ m call, counter (m.record call) =
    (key? call).elim (counter m) fun key => (counter m).increment (join key)
  named : ∀ key count, (sample key count).Named
  /-- What is read back takes as many bytes as what was written. -/
  length_split : ∀ key count count',
    (sample (split (join key)) count).stem.length = (sample key count').stem.length
  clean_split : ∀ key count count',
    (sample (split (join key)) count).Clean ↔ (sample key count').Clean

namespace Family

variable {κ : Type} (F : Family κ)

def rendered (m : ChatMetrics) : List (Sample Nat) :=
  (F.counter m).inOrder.map fun it => F.sample (F.split it.1) it.2.toNat

def keys (calls : List MetricsCall) : List κ :=
  calls.filterMap F.key?

theorem counter_after (calls : List MetricsCall) :
    F.counter (ChatMetrics.after calls) =
      ((F.keys calls).map F.join).foldl Counter.increment ∅ := by
  rw [ChatMetrics.after, foldl_filterMap F.counter
    (fun c key => c.increment (F.join key)) F.counts, F.initial, List.foldl_map]
  rfl

theorem rendered_perm (calls : List MetricsCall) :
    (F.rendered (ChatMetrics.after calls)).Perm
      (((F.keys calls).map F.join).dedup.map fun label =>
        F.sample (F.split label)
          (((F.keys calls).map F.join).count label % 2 ^ 64)) := by
  have hperm := (Counter.inOrder_foldl_perm ((F.keys calls).map F.join)).map
    fun it : StdString × UInt64 => F.sample (F.split it.1) it.2.toNat
  rw [List.map_map] at hperm
  rw [rendered, F.counter_after]
  exact hperm

theorem exists_key_of_mem_rendered {calls : List MetricsCall} {s : Sample Nat}
    (hs : s ∈ F.rendered (ChatMetrics.after calls)) :
    ∃ key ∈ F.keys calls, ∃ count, s = F.sample (F.split (F.join key)) count := by
  obtain ⟨label, hlabel, rfl⟩ := List.mem_map.mp ((F.rendered_perm calls).mem_iff.mp hs)
  obtain ⟨key, hkey, rfl⟩ := List.mem_map.mp (List.mem_dedup.mp hlabel)
  exact ⟨key, hkey, _, rfl⟩

variable [DecidableEq κ]

def tallied (calls : List MetricsCall) : List (Sample Nat) :=
  tally F.sample (F.keys calls)

theorem exists_mem_tallied {calls : List MetricsCall} {key : κ}
    (hkey : key ∈ F.keys calls) :
    ∃ count, F.sample key count ∈ F.tallied calls :=
  ⟨_, List.mem_map_of_mem (List.mem_dedup.mpr hkey)⟩

/-- For every sample on the page one of its size was recorded. -/
theorem exists_tallied_of_mem_rendered {calls : List MetricsCall} {r : Sample Nat}
    (hr : r ∈ F.rendered (ChatMetrics.after calls)) (hunclean : ¬ r.Clean) :
    ∃ s ∈ F.tallied calls, ¬ s.Clean ∧ r.stem.length ≤ s.stem.length := by
  obtain ⟨key, hkey, count, rfl⟩ := F.exists_key_of_mem_rendered hr
  obtain ⟨recordedCount, hrecorded⟩ := F.exists_mem_tallied hkey
  refine ⟨_, hrecorded, ?_, (F.length_split key count recordedCount).le⟩
  rwa [← F.clean_split key count recordedCount]

/-- With keys that are read back the page shows what was recorded. -/
theorem rendered_perm_tallied {calls : List MetricsCall}
    (hsplit : ∀ key ∈ F.keys calls, F.split (F.join key) = key) :
    (F.rendered (ChatMetrics.after calls)).Perm (F.tallied calls) := by
  have hinj : ∀ key ∈ F.keys calls, ∀ other ∈ F.keys calls,
      F.join key = F.join other → key = other := by
    intro key hkey other hother hjoin
    rw [← hsplit key hkey, hjoin, hsplit other hother]
  have hsame : (F.keys calls).dedup.map (fun key => F.sample (F.split (F.join key))
      (((F.keys calls).map F.join).count (F.join key) % 2 ^ 64)) = F.tallied calls := by
    apply List.map_congr_left
    intro key hkey
    have hkey := List.mem_dedup.mp hkey
    rw [hsplit key hkey, count_map_of_inj hinj hkey]
  have hperm := (F.rendered_perm calls).trans ((dedup_map_perm hinj).map _)
  rw [List.map_map] at hperm
  rw [← hsame]
  exact hperm

end Family

theorem named_labelled {name : String} {labels : List (String × StdString)}
    (keys : List String) (hkeys : labels.map Prod.fst = keys)
    (hname : Prometheus.IsName Prometheus.isNameByte (lit name))
    (hlabels : ∀ key ∈ keys, Prometheus.IsName Prometheus.isLabelByte (lit key))
    (count : Nat) : (labelled name labels count).Named where
  name := hname
  labels := by
    intro label hlabel
    obtain ⟨original, horiginal, rfl⟩ := List.mem_map.mp hlabel
    apply hlabels
    rw [← hkeys]
    exact List.mem_map_of_mem horiginal
  timestamp := rfl

/-- Routing key and result as `IncMqPublish` and `IncMqConsume` join them. -/
def joinKey (key : StdString × StdString) : StdString :=
  key.1 ++ lit "|" ++ key.2

open ChatMetrics (splitKey)

theorem joinKey_eq (key : StdString × StdString) :
    joinKey key = key.1 ++ 124 :: key.2 := by
  simp [joinKey, show lit "|" = [124] from rfl]

theorem splitKey_append {before : StdString} (hbefore : 124 ∉ before)
    (after : StdString) : splitKey (before ++ 124 :: after) = (before, after) := by
  have hkept : ∀ b ∈ before, decide (b ≠ 124) = true := by
    intro b hb
    apply decide_eq_true
    rintro rfl
    exact hbefore hb
  have hdrop : (before ++ 124 :: after).dropWhile (· ≠ 124) = 124 :: after := by
    rw [List.dropWhile_append_of_pos hkept]
    rfl
  have htake : (before ++ 124 :: after).takeWhile (· ≠ 124) = before := by
    rw [List.takeWhile_append_of_pos hkept]
    simp
  simp only [splitKey, hdrop, htake]

/-- Taking a joined key apart loses nothing but the place of the bar. -/
theorem splitKey_joinKey (key : StdString × StdString) :
    (splitKey (joinKey key)).1 ++ 124 :: (splitKey (joinKey key)).2 =
        key.1 ++ 124 :: key.2 ∧
      124 ∉ (splitKey (joinKey key)).1 := by
  have hmem : 124 ∈ joinKey key := by
    rw [joinKey_eq]
    simp
  obtain ⟨before, after, hjoin, hbefore⟩ := List.eq_append_cons_of_mem hmem
  rw [← joinKey_eq key, hjoin, splitKey_append hbefore]
  exact ⟨rfl, hbefore⟩

theorem splitKey_joinKey_of_notMem {key : StdString × StdString}
    (hkey : 124 ∉ key.1) : splitKey (joinKey key) = key := by
  rw [joinKey_eq, splitKey_append hkey]

/-- A family kept under its label. -/
def labelFamily (counter : ChatMetrics → Counter)
    (key? : MetricsCall → Option StdString)
    (name : String) (fixed : List (String × StdString)) (key : String)
    (initial : counter {} = ∅)
    (counts : ∀ m call, counter (m.record call) =
      (key? call).elim (counter m) (counter m).increment)
    (hname : Prometheus.IsName Prometheus.isNameByte (lit name))
    (hlabels : ∀ label ∈ fixed.map Prod.fst ++ [key],
      Prometheus.IsName Prometheus.isLabelByte (lit label)) : Family StdString where
  counter := counter
  key? := key?
  join := id
  split := id
  sample text := labelled name (fixed ++ [(key, text)])
  initial := initial
  counts := counts
  named text count := named_labelled _ (by simp) hname hlabels count
  length_split _ _ _ := rfl
  clean_split _ _ _ := Iff.rfl

theorem length_stem_keyed {name : String} {key key' : StdString × StdString}
    (hlength : key.1.length + key.2.length = key'.1.length + key'.2.length)
    (count count' : Nat) :
    (labelled name [("routing_key", key.1), ("result", key.2)] count).stem.length =
      (labelled name [("routing_key", key'.1), ("result", key'.2)]
        count').stem.length := by
  simp only [labelled, Sample.stem, Prometheus.rawLabelSet, Prometheus.rawLabels,
    Prometheus.rawLabel, List.map_cons, List.map_nil, List.length_append,
    List.length_cons, reduceCtorEq, if_false, List.length_nil]
  omega

theorem clean_keyed {name : String} {key : StdString × StdString} {count : Nat} :
    (labelled name [("routing_key", key.1), ("result", key.2)] count).Clean ↔
      Prometheus.Clean (key.1 ++ 124 :: key.2) := by
  simp only [labelled, Sample.Clean, List.map_cons, List.map_nil,
    List.forall_mem_cons, List.not_mem_nil, Prometheus.Clean, List.forall_mem_append]
  simp

/-- A family kept under routing key and result. -/
def keyedFamily (counter : ChatMetrics → Counter)
    (key? : MetricsCall → Option (StdString × StdString)) (name : String)
    (initial : counter {} = ∅)
    (counts : ∀ m call, counter (m.record call) =
      (key? call).elim (counter m) fun key => (counter m).increment (joinKey key))
    (hname : Prometheus.IsName Prometheus.isNameByte (lit name)) :
    Family (StdString × StdString) where
  counter := counter
  key? := key?
  join := joinKey
  split := splitKey
  sample key := labelled name [("routing_key", key.1), ("result", key.2)]
  initial := initial
  counts := counts
  named key count := named_labelled ["routing_key", "result"] rfl hname
    (by decide +kernel) count
  length_split key := by
    have hlength := congrArg List.length (splitKey_joinKey key).1
    simp only [List.length_append, List.length_cons] at hlength
    exact length_stem_keyed (by omega)
  clean_split key _ _ := by
    rw [clean_keyed, clean_keyed, (splitKey_joinKey key).1]

/-! The families of the program. -/

def wsInFamily : Family StdString :=
  labelFamily ChatMetrics.wsIn MetricsCall.wsIn? "chat_ws_frames_total"
    [("direction", lit "in")] "type" rfl (fun m call => by cases call <;> rfl)
    (by decide +kernel) (by decide +kernel)

def wsOutFamily : Family StdString :=
  labelFamily ChatMetrics.wsOut MetricsCall.wsOut? "chat_ws_frames_total"
    [("direction", lit "out")] "type" rfl (fun m call => by cases call <;> rfl)
    (by decide +kernel) (by decide +kernel)

def mqPublishFamily : Family (StdString × StdString) :=
  keyedFamily ChatMetrics.mqPublish MetricsCall.mqPublish? "chat_mq_publish_total"
    rfl (fun m call => by cases call <;> rfl) (by decide +kernel)

def mqConsumeFamily : Family (StdString × StdString) :=
  keyedFamily ChatMetrics.mqConsume MetricsCall.mqConsume? "chat_mq_consume_total"
    rfl (fun m call => by cases call <;> rfl) (by decide +kernel)

def mqReconnectFamily : Family StdString :=
  labelFamily ChatMetrics.mqReconnect MetricsCall.mqReconnect?
    "chat_mq_reconnect_total" [] "role" rfl (fun m call => by cases call <;> rfl)
    (by decide +kernel) (by decide +kernel)

def jwtVerifyFailFamily : Family StdString :=
  labelFamily ChatMetrics.jwtFail MetricsCall.jwtVerifyFail?
    "chat_jwt_verify_fail_total" [] "reason" rfl
    (fun m call => by cases call <;> rfl) (by decide +kernel) (by decide +kernel)

/-- The samples of the histogram as they are rendered. -/
def latencyRendered (m : ChatMetrics) : List (Sample Nat) :=
  (m.histBuckets.zip (ChatMetrics.cumulative 0 m.histBucketCounts)).map (fun bucket =>
    bucketSample (decimal bucket.1.toNat) bucket.2.toNat) ++
  totalSamples m.histSum.toNat m.histCount.toNat

theorem latencyPart_after (calls : List MetricsCall) :
    latencyPart (ChatMetrics.after calls) =
      ChatMetrics.observeAll {} (calls.filterMap MetricsCall.latency?) :=
  foldl_filterMap latencyPart ChatMetrics.observeMsgSendLatencyMs
    (fun m call => by cases call <;> rfl) calls {}

/-- The page shows the observed latencies. -/
theorem latencyRendered_after (calls : List MetricsCall) :
    latencyRendered (ChatMetrics.after calls) =
      latencySamples (calls.filterMap MetricsCall.latency?) := by
  have hpart : latencyRendered (ChatMetrics.after calls) =
      latencyRendered (latencyPart (ChatMetrics.after calls)) := rfl
  rw [hpart, latencyPart_after]
  generalize calls.filterMap MetricsCall.latency? = values
  have hcumulative := ChatMetrics.cumulative_observeAll values (m := {})
    (by decide +kernel) rfl
  obtain ⟨hsum, hcount⟩ := ChatMetrics.histSum_observeAll {} values
  have hholds : ∀ limit : UInt64, values.countP (fun value => decide (value ≤ limit)) =
      values.countP fun value => decide (value.toNat ≤ limit.toNat) := by
    intro limit
    rfl
  rw [latencyRendered, hcumulative, hsum, hcount, latencySamples,
    ChatMetrics.histBuckets_observeAll]
  simp [ChatMetrics.cumulative, hholds]

theorem samples_eq (reg : SessionRegistry) (m : ChatMetrics) :
    m.samples reg = onlineSamples reg ++ wsInFamily.rendered m ++
      wsOutFamily.rendered m ++ mqPublishFamily.rendered m ++
      mqConsumeFamily.rendered m ++ mqReconnectFamily.rendered m ++
      latencyRendered m ++ jwtVerifyFailFamily.rendered m := by
  rw [ChatMetrics.samples, latencyRendered, ← List.append_assoc]
  rfl

/-- What holds of every part of the page holds of all its samples. -/
theorem forall_mem_samples {reg : SessionRegistry} {m : ChatMetrics}
    {Q : Sample Nat → Prop} (honline : ∀ s ∈ onlineSamples reg, Q s)
    (hwsIn : ∀ s ∈ wsInFamily.rendered m, Q s)
    (hwsOut : ∀ s ∈ wsOutFamily.rendered m, Q s)
    (hpublish : ∀ s ∈ mqPublishFamily.rendered m, Q s)
    (hconsume : ∀ s ∈ mqConsumeFamily.rendered m, Q s)
    (hreconnect : ∀ s ∈ mqReconnectFamily.rendered m, Q s)
    (hlatency : ∀ s ∈ latencyRendered m, Q s)
    (hfail : ∀ s ∈ jwtVerifyFailFamily.rendered m, Q s) :
    ∀ s ∈ m.samples reg, Q s := by
  rw [samples_eq]
  simp only [List.forall_mem_append]
  exact ⟨⟨⟨⟨⟨⟨⟨honline, hwsIn⟩, hwsOut⟩, hpublish⟩, hconsume⟩, hreconnect⟩,
    hlatency⟩, hfail⟩

theorem recorded_eq (reg : SessionRegistry) (calls : List MetricsCall) :
    recorded reg calls = onlineSamples reg ++ wsInFamily.tallied calls ++
      wsOutFamily.tallied calls ++ mqPublishFamily.tallied calls ++
      mqConsumeFamily.tallied calls ++ mqReconnectFamily.tallied calls ++
      latencySamples (calls.filterMap MetricsCall.latency?) ++
      jwtVerifyFailFamily.tallied calls := rfl

/-! The page reads as it should exactly when every call is plain. -/

theorem Family.named_of_mem_rendered {κ : Type} (F : Family κ)
    {m : ChatMetrics} : ∀ s ∈ F.rendered m, s.Named := by
  intro s hs
  obtain ⟨it, _, rfl⟩ := List.mem_map.mp hs
  exact F.named _ _

theorem named_bucketSample (bucket : StdString) (count : Nat) :
    (bucketSample bucket count).Named :=
  named_labelled ["le"] rfl (by decide +kernel) (by decide +kernel) count

theorem named_plain {name : String}
    (hname : Prometheus.IsName Prometheus.isNameByte (lit name)) (count : Nat) :
    (labelled name [] count).Named :=
  named_labelled [] rfl hname (by decide +kernel) count

theorem named_samples (reg : SessionRegistry) (m : ChatMetrics) :
    ∀ s ∈ m.samples reg, s.Named := by
  have honline : ∀ s ∈ onlineSamples reg, s.Named := by
    simp only [onlineSamples, List.forall_mem_cons, List.not_mem_nil]
    exact ⟨named_plain (by decide +kernel) _, named_plain (by decide +kernel) _, by simp⟩
  have hlatency : ∀ s ∈ latencyRendered m, s.Named := by
    simp only [latencyRendered, totalSamples, List.forall_mem_append,
      List.forall_mem_map, List.forall_mem_cons, List.not_mem_nil]
    exact ⟨fun bucket _ => named_bucketSample _ _, named_bucketSample _ _,
      named_plain (by decide +kernel) _, named_plain (by decide +kernel) _, by simp⟩
  exact forall_mem_samples honline (Family.named_of_mem_rendered _)
    (Family.named_of_mem_rendered _) (Family.named_of_mem_rendered _)
    (Family.named_of_mem_rendered _) (Family.named_of_mem_rendered _) hlatency
    (Family.named_of_mem_rendered _)

theorem clean_of_isDecimal {text : StdString} (htext : IsDecimal text) :
    Prometheus.Clean text := by
  intro b hb
  have hdigit := htext.2 b hb
  refine ⟨?_, ?_, ?_⟩
  all_goals
    rintro rfl
    exact absurd hdigit (by decide)

theorem clean_onlineSamples (reg : SessionRegistry) :
    ∀ s ∈ onlineSamples reg, s.Clean := by
  simp [onlineSamples, labelled, Sample.Clean]

theorem clean_latencyRendered (m : ChatMetrics) :
    ∀ s ∈ latencyRendered m, s.Clean := by
  have hbucket : ∀ (bucket : StdString) (count : Nat), Prometheus.Clean bucket →
      (bucketSample bucket count).Clean := by
    intro bucket count hbucket
    simpa [bucketSample, labelled, Sample.Clean] using hbucket
  simp only [latencyRendered, totalSamples, List.forall_mem_append,
    List.forall_mem_map, List.forall_mem_cons, List.not_mem_nil]
  refine ⟨fun bucket _ => hbucket _ _ (clean_of_isDecimal (isDecimal_decimal _)),
    hbucket _ _ (by decide +kernel), ?_, ?_, by simp⟩
  · simp [labelled, Sample.Clean]
  · simp [labelled, Sample.Clean]

namespace Family

variable {κ : Type} (F : Family κ) {calls : List MetricsCall}

/-- A key that is shown as it is. -/
def PlainKey (key : κ) : Prop :=
  (F.sample key 0).Clean ∧ F.split (F.join key) = key

theorem clean_of_plainKey (hplain : ∀ key ∈ F.keys calls, F.PlainKey key) :
    ∀ s ∈ F.rendered (ChatMetrics.after calls), s.Clean := by
  intro s hs
  obtain ⟨key, hkey, count, rfl⟩ := F.exists_key_of_mem_rendered hs
  exact (F.clean_split key count 0).mpr (hplain key hkey).1

end Family

theorem plainKey_labelFamily {counter : ChatMetrics → Counter}
    {key? : MetricsCall → Option StdString} {name : String}
    (fixed : List (String × StdString)) {key : String} {initial} {counts} {hname}
    {hlabels} (hfixed : ∀ label ∈ fixed, Prometheus.Clean label.2)
    (text : StdString) :
    (labelFamily counter key? name fixed key initial counts hname hlabels).PlainKey
        text ↔ Prometheus.Clean text := by
  have hclean : ∀ label ∈ fixed.map fun label => (lit label.1, label.2),
      Prometheus.Clean label.2 := by
    intro label hlabel
    obtain ⟨original, horiginal, rfl⟩ := List.mem_map.mp hlabel
    exact hfixed original horiginal
  simp only [Family.PlainKey, labelFamily, labelled, Sample.Clean, List.map_append,
    List.map_cons, List.map_nil, List.forall_mem_append, List.forall_mem_cons,
    List.not_mem_nil, id, and_true]
  exact ⟨fun hall => hall.2.1, fun htext => ⟨hclean, htext, by simp⟩⟩

theorem plainKey_keyedFamily {counter : ChatMetrics → Counter}
    {key? : MetricsCall → Option (StdString × StdString)} {name : String} {initial}
    {counts} {hname} (key : StdString × StdString) :
    (keyedFamily counter key? name initial counts hname).PlainKey key ↔
      Prometheus.Clean key.1 ∧ Prometheus.Clean key.2 ∧ 124 ∉ key.1 := by
  have hbar : Prometheus.Clean (key.1 ++ 124 :: key.2) ↔
      Prometheus.Clean key.1 ∧ Prometheus.Clean key.2 := by
    simp only [Prometheus.Clean, List.forall_mem_append, List.forall_mem_cons]
    exact and_congr_right fun _ => and_iff_right (by decide)
  have hsplit : splitKey (joinKey key) = key ↔ 124 ∉ key.1 := by
    constructor
    · intro hsame
      have hbefore := (splitKey_joinKey key).2
      rwa [hsame] at hbefore
    · exact splitKey_joinKey_of_notMem
  rw [Family.PlainKey, ← and_assoc, ← hbar, ← hsplit]
  exact and_congr_left fun _ => clean_keyed

/-- Every key that calls count under is shown as it is. -/
@[mk_iff]
structure PlainKeys (calls : List MetricsCall) : Prop where
  wsIn : ∀ key ∈ wsInFamily.keys calls, wsInFamily.PlainKey key
  wsOut : ∀ key ∈ wsOutFamily.keys calls, wsOutFamily.PlainKey key
  mqPublish : ∀ key ∈ mqPublishFamily.keys calls, mqPublishFamily.PlainKey key
  mqConsume : ∀ key ∈ mqConsumeFamily.keys calls, mqConsumeFamily.PlainKey key
  mqReconnect : ∀ key ∈ mqReconnectFamily.keys calls, mqReconnectFamily.PlainKey key
  jwtVerifyFail : ∀ key ∈ jwtVerifyFailFamily.keys calls,
    jwtVerifyFailFamily.PlainKey key

/-- The calls are plain when the keys they count under are. -/
theorem forall_plain_iff (calls : List MetricsCall) :
    (∀ call ∈ calls, call.Plain) ↔ PlainKeys calls := by
  rw [plainKeys_iff]
  simp only [wsInFamily, wsOutFamily, mqPublishFamily, mqConsumeFamily,
    mqReconnectFamily, jwtVerifyFailFamily, plainKey_keyedFamily]
  simp only [plainKey_labelFamily [] (by simp),
    plainKey_labelFamily [("direction", lit "in")] (by decide +kernel),
    plainKey_labelFamily [("direction", lit "out")] (by decide +kernel)]
  constructor
  · intro hplain
    have hkeys : ∀ {κ : Type} {key? : MetricsCall → Option κ} {Q : κ → Prop},
        (∀ call key, call.Plain → key? call = some key → Q key) →
        ∀ key ∈ calls.filterMap key?, Q key := by
      intro κ key? Q himp key hkey
      obtain ⟨call, hcall, hkey⟩ := List.mem_filterMap.mp hkey
      exact himp call key (hplain call hcall) hkey
    refine ⟨hkeys ?_, hkeys ?_, hkeys ?_, hkeys ?_, hkeys ?_, hkeys ?_⟩
    all_goals
      intro call key hcall hkey
      cases call <;> cases hkey
      exact hcall
  · rintro ⟨hwsIn, hwsOut, hpublish, hconsume, hreconnect, hfail⟩ call hcall
    cases call with
    | incWsIn type => exact hwsIn type (List.mem_filterMap.mpr ⟨_, hcall, rfl⟩)
    | incWsOut type => exact hwsOut type (List.mem_filterMap.mpr ⟨_, hcall, rfl⟩)
    | incMqPublish routingKey result =>
        exact hpublish (routingKey, result) (List.mem_filterMap.mpr ⟨_, hcall, rfl⟩)
    | incMqConsume routingKey result =>
        exact hconsume (routingKey, result) (List.mem_filterMap.mpr ⟨_, hcall, rfl⟩)
    | incMqReconnect role =>
        exact hreconnect role (List.mem_filterMap.mpr ⟨_, hcall, rfl⟩)
    | incJwtVerifyFail reason =>
        exact hfail reason (List.mem_filterMap.mpr ⟨_, hcall, rfl⟩)
    | observeMsgSendLatencyMs valueMs => trivial

/-- A routing key on the page holds no bar. -/
def BarFree (s : Sample Nat) : Prop :=
  ∀ label ∈ s.labels, label.1 = lit "routing_key" → 124 ∉ label.2

theorem barFree_of_keys {name : String} {labels : List (String × StdString)}
    (hkeys : ∀ label ∈ labels, label.1 ≠ "routing_key") (count : Nat) :
    BarFree (labelled name labels count) := by
  intro label hlabel hkey
  obtain ⟨original, horiginal, rfl⟩ := List.mem_map.mp hlabel
  exact absurd (lit_inj.mp hkey) (hkeys original horiginal)

theorem barFree_labelFamily {counter : ChatMetrics → Counter}
    {key? : MetricsCall → Option StdString} {name : String}
    {fixed : List (String × StdString)} {key : String} {initial} {counts} {hname}
    {hlabels} (hkeys : ∀ label ∈ fixed.map Prod.fst ++ [key], label ≠ "routing_key")
    (m : ChatMetrics) :
    ∀ s ∈ (labelFamily counter key? name fixed key initial counts hname
      hlabels).rendered m, BarFree s := by
  intro s hs
  obtain ⟨it, _, rfl⟩ := List.mem_map.mp hs
  apply barFree_of_keys
  intro label hlabel
  apply hkeys
  rcases List.mem_append.mp hlabel with hfixed | hlast
  · exact List.mem_append_left _ (List.mem_map_of_mem hfixed)
  · rw [List.mem_singleton.mp hlast]
    simp

theorem barFree_keyedFamily {counter : ChatMetrics → Counter}
    {key? : MetricsCall → Option (StdString × StdString)} {name : String} {initial}
    {counts} {hname} (calls : List MetricsCall) :
    ∀ s ∈ (keyedFamily counter key? name initial counts hname).rendered
      (ChatMetrics.after calls), BarFree s := by
  intro s hs
  obtain ⟨key, _, count, rfl⟩ := Family.exists_key_of_mem_rendered _ hs
  intro label hlabel hkey
  simp only [keyedFamily, labelled, List.map_cons, List.map_nil, List.mem_cons,
    List.not_mem_nil, or_false] at hlabel
  rcases hlabel with rfl | rfl
  · exact (splitKey_joinKey key).2
  · exact absurd (lit_inj.mp hkey) (by decide)

theorem barFree_samples (reg : SessionRegistry) (calls : List MetricsCall) :
    ∀ s ∈ (ChatMetrics.after calls).samples reg, BarFree s := by
  have hplain : ∀ name count, BarFree (labelled name [] count) :=
    fun name count => barFree_of_keys (by simp) count
  have hbucket : ∀ bucket count, BarFree (bucketSample bucket count) :=
    fun bucket count => barFree_of_keys (by simp) count
  have honline : ∀ s ∈ onlineSamples reg, BarFree s := by
    simp only [onlineSamples, List.forall_mem_cons, List.not_mem_nil]
    exact ⟨hplain _ _, hplain _ _, by simp⟩
  have hlatency : ∀ s ∈ latencyRendered (ChatMetrics.after calls), BarFree s := by
    simp only [latencyRendered, totalSamples, List.forall_mem_append,
      List.forall_mem_map, List.forall_mem_cons, List.not_mem_nil]
    exact ⟨fun bucket _ => hbucket _ _, hbucket _ _, hplain _ _, hplain _ _, by simp⟩
  exact forall_mem_samples honline (barFree_labelFamily (by decide +kernel) _)
    (barFree_labelFamily (by decide +kernel) _) (barFree_keyedFamily calls)
    (barFree_keyedFamily calls) (barFree_labelFamily (by decide +kernel) _) hlatency
    (barFree_labelFamily (by decide +kernel) _)

/-- What a family has recorded is recorded. -/
theorem tallied_subset (reg : SessionRegistry) (calls : List MetricsCall) :
    wsInFamily.tallied calls ⊆ recorded reg calls ∧
      wsOutFamily.tallied calls ⊆ recorded reg calls ∧
      mqPublishFamily.tallied calls ⊆ recorded reg calls ∧
      mqConsumeFamily.tallied calls ⊆ recorded reg calls ∧
      mqReconnectFamily.tallied calls ⊆ recorded reg calls ∧
      jwtVerifyFailFamily.tallied calls ⊆ recorded reg calls := by
  rw [recorded_eq]
  refine ⟨?_, ?_, ?_, ?_, ?_, ?_⟩
  all_goals
    intro s hs
    simp only [List.mem_append]
    tauto

/-- For every sample on the page in need of escapes one of its size was
recorded. -/
theorem exists_recorded_of_mem_samples (reg : SessionRegistry)
    (calls : List MetricsCall) :
    ∀ r ∈ (ChatMetrics.after calls).samples reg, ¬ r.Clean →
      ∃ s ∈ recorded reg calls, ¬ s.Clean ∧ r.stem.length ≤ s.stem.length := by
  have hfamily : ∀ {κ : Type} [DecidableEq κ] (F : Family κ),
      F.tallied calls ⊆ recorded reg calls →
      ∀ r ∈ F.rendered (ChatMetrics.after calls), ¬ r.Clean →
        ∃ s ∈ recorded reg calls, ¬ s.Clean ∧ r.stem.length ≤ s.stem.length := by
    intro κ _ F hsub r hr hunclean
    obtain ⟨s, hs, hmeant⟩ := F.exists_tallied_of_mem_rendered hr hunclean
    exact ⟨s, hsub hs, hmeant⟩
  obtain ⟨hwsIn, hwsOut, hpublish, hconsume, hreconnect, hfail⟩ :=
    tallied_subset reg calls
  exact forall_mem_samples
    (fun r hr hunclean => absurd (clean_onlineSamples reg r hr) hunclean)
    (hfamily _ hwsIn) (hfamily _ hwsOut) (hfamily _ hpublish) (hfamily _ hconsume)
    (hfamily _ hreconnect)
    (fun r hr hunclean => absurd (clean_latencyRendered _ r hr) hunclean)
    (hfamily _ hfail)

/-- A page read as what was recorded is that of its samples, all of them in no
need of escapes. -/
theorem perm_of_faithful {reg : SessionRegistry} {calls : List MetricsCall}
    (hfaithful : Faithful reg calls) :
    ((ChatMetrics.after calls).samples reg).Perm (recorded reg calls) ∧
      ∀ s ∈ (ChatMetrics.after calls).samples reg, s.Clean := by
  obtain ⟨samples, hread, hperm⟩ := hfaithful
  rw [ChatMetrics.renderPrometheus_eq] at hread
  have hclean := Prometheus.clean_of_parse_rawPage pageNumbers
    (named_samples reg (ChatMetrics.after calls)) hread (by
      intro r hr hunclean
      obtain ⟨s, hs, hmeant⟩ :=
        exists_recorded_of_mem_samples reg calls r hr hunclean
      exact ⟨s, hperm.mem_iff.mpr hs, hmeant⟩)
  rw [Prometheus.parse_rawPage_of_clean pageNumbers (named_samples reg _) hclean,
    Option.some.injEq] at hread
  rw [hread]
  exact ⟨hperm, hread ▸ hclean⟩

/-- From a page read as what was recorded every key has come back. -/
theorem plainKeys_of_faithful {reg : SessionRegistry} {calls : List MetricsCall}
    (hfaithful : Faithful reg calls) : PlainKeys calls := by
  obtain ⟨hperm, hclean⟩ := perm_of_faithful hfaithful
  obtain ⟨hwsIn, hwsOut, hpublish, hconsume, hreconnect, hfail⟩ :=
    tallied_subset reg calls
  have hshown : ∀ {κ : Type} [DecidableEq κ] (F : Family κ),
      F.tallied calls ⊆ recorded reg calls → ∀ key ∈ F.keys calls,
      (F.sample key 0).Clean ∧ ∃ count, BarFree (F.sample key count) := by
    intro κ _ F hsub key hkey
    obtain ⟨count, hcount⟩ := F.exists_mem_tallied hkey
    have hmem := hperm.mem_iff.mpr (hsub hcount)
    refine ⟨?_, count, barFree_samples reg calls _ hmem⟩
    rw [← F.clean_split key 0 0, F.clean_split key 0 count]
    exact hclean _ hmem
  have hbar : ∀ {key : StdString × StdString} {name : String} {count : Nat},
      BarFree (labelled name [("routing_key", key.1), ("result", key.2)] count) →
      splitKey (joinKey key) = key := by
    intro key name count hfree
    exact splitKey_joinKey_of_notMem (hfree _ List.mem_cons_self rfl)
  constructor
  · exact fun key hkey => ⟨(hshown _ hwsIn key hkey).1, rfl⟩
  · exact fun key hkey => ⟨(hshown _ hwsOut key hkey).1, rfl⟩
  · intro key hkey
    obtain ⟨hkeyClean, count, hfree⟩ := hshown _ hpublish key hkey
    exact ⟨hkeyClean, hbar hfree⟩
  · intro key hkey
    obtain ⟨hkeyClean, count, hfree⟩ := hshown _ hconsume key hkey
    exact ⟨hkeyClean, hbar hfree⟩
  · exact fun key hkey => ⟨(hshown _ hreconnect key hkey).1, rfl⟩
  · exact fun key hkey => ⟨(hshown _ hfail key hkey).1, rfl⟩

theorem clean_samples {calls : List MetricsCall} (hplain : PlainKeys calls)
    (reg : SessionRegistry) :
    ∀ s ∈ (ChatMetrics.after calls).samples reg, s.Clean :=
  forall_mem_samples (clean_onlineSamples reg) (Family.clean_of_plainKey _ hplain.wsIn)
    (Family.clean_of_plainKey _ hplain.wsOut)
    (Family.clean_of_plainKey _ hplain.mqPublish)
    (Family.clean_of_plainKey _ hplain.mqConsume)
    (Family.clean_of_plainKey _ hplain.mqReconnect) (clean_latencyRendered _)
    (Family.clean_of_plainKey _ hplain.jwtVerifyFail)

/-- With such keys the samples of the page are what was recorded. -/
theorem samples_perm_recorded {calls : List MetricsCall} (hplain : PlainKeys calls)
    (reg : SessionRegistry) :
    ((ChatMetrics.after calls).samples reg).Perm (recorded reg calls) := by
  have hperm : ∀ {κ : Type} [DecidableEq κ] (F : Family κ),
      (∀ key ∈ F.keys calls, F.PlainKey key) →
      (F.rendered (ChatMetrics.after calls)).Perm (F.tallied calls) := by
    intro κ _ F hkeys
    exact F.rendered_perm_tallied fun key hkey => (hkeys key hkey).2
  rw [samples_eq, recorded_eq, latencyRendered_after]
  exact (((((((List.Perm.refl _).append (hperm _ hplain.wsIn)).append
    (hperm _ hplain.wsOut)).append (hperm _ hplain.mqPublish)).append
    (hperm _ hplain.mqConsume)).append (hperm _ hplain.mqReconnect)).append
    (List.Perm.refl _)).append (hperm _ hplain.jwtVerifyFail)

/-- The metrics page is read as what was recorded exactly when no recorded text
needs an escape and no routing key holds the bar. -/
theorem faithful_iff (reg : SessionRegistry) (calls : List MetricsCall) :
    Faithful reg calls ↔ ∀ call ∈ calls, call.Plain := by
  rw [forall_plain_iff]
  constructor
  · exact plainKeys_of_faithful
  · intro hplain
    refine ⟨(ChatMetrics.after calls).samples reg, ?_, samples_perm_recorded hplain reg⟩
    rw [ChatMetrics.renderPrometheus_eq]
    exact Prometheus.parse_rawPage_of_clean pageNumbers (named_samples reg _)
      (clean_samples hplain reg)

namespace PageFidelityWitness

/-- A client sends one frame whose type holds a double quote. -/
def calls : List MetricsCall :=
  [.incWsIn (lit "a\"b")]

example : Prometheus.parse pageNumbers
    (ChatMetrics.renderPrometheus {} (ChatMetrics.after calls)) = none := by
  decide +kernel

theorem not_all_faithful : ¬ ∀ reg calls, Faithful reg calls := by
  intro hall
  have hclean := (perm_of_faithful (hall {} calls)).2
  revert hclean
  decide +kernel

end PageFidelityWitness

end FlzChat
