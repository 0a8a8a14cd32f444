/-
The latency histogram.  An observation is counted in its first bucket only, and
the page sums the buckets up: the sum at a bucket is the number of observations
it holds.
-/
import FlzChat.Metrics

namespace FlzChat

namespace ChatMetrics

/-- The running sums of the rendering loop. -/
def cumulative (sum : UInt64) : List UInt64 → List UInt64
  | [] => []
  | count :: counts => (sum + count) :: cumulative (sum + count) counts

def observeAll (m : ChatMetrics) (values : List UInt64) : ChatMetrics :=
  values.foldl observeMsgSendLatencyMs m

@[simp]
theorem length_bump (value : UInt64) (buckets counts : List UInt64) :
    (bump value buckets counts).length = counts.length := by
  induction buckets generalizing counts with
  | nil => cases counts <;> rfl
  | cons bucket buckets ih =>
      cases counts with
      | nil => rfl
      | cons count counts =>
          simp only [bump]
          split_ifs
          · rfl
          · simp [ih]

theorem cumulative_succ (sum : UInt64) (counts : List UInt64) :
    cumulative (sum + 1) counts = (cumulative sum counts).map (· + 1) := by
  induction counts generalizing sum with
  | nil => rfl
  | cons count counts ih =>
      have hsum : sum + 1 + count = sum + count + 1 := by
        rw [UInt64.add_assoc, UInt64.add_comm 1 count, ← UInt64.add_assoc]
      simp only [cumulative, List.map_cons, hsum, ih]

@[simp]
theorem length_cumulative (sum : UInt64) (counts : List UInt64) :
    (cumulative sum counts).length = counts.length := by
  induction counts generalizing sum with
  | nil => rfl
  | cons count counts ih => simp [cumulative, ih]

/-- The sums at the buckets after one more value. -/
def addTo (value : UInt64) (buckets totals : List UInt64) : List UInt64 :=
  List.zipWith (fun bucket total => if value ≤ bucket then total + 1 else total)
    buckets totals

theorem addTo_of_le {value : UInt64} {buckets totals : List UInt64}
    (hholds : ∀ bucket ∈ buckets, value ≤ bucket)
    (hlength : buckets.length = totals.length) :
    addTo value buckets totals = totals.map (· + 1) := by
  induction buckets generalizing totals with
  | nil =>
      obtain rfl := List.length_eq_zero_iff.mp hlength.symm
      rfl
  | cons bucket buckets ih =>
      cases totals with
      | nil => contradiction
      | cons total totals =>
          obtain ⟨hfirst, hrest⟩ := List.forall_mem_cons.mp hholds
          have hlength : buckets.length = totals.length := by simpa using hlength
          have htail := ih hrest hlength
          rw [addTo] at htail
          rw [addTo, List.zipWith_cons_cons, if_pos hfirst, htail, List.map_cons]

/-- One observation adds one to the sum of every bucket that holds it. -/
theorem cumulative_bump (value : UInt64) {buckets counts : List UInt64}
    (hsorted : buckets.Pairwise (· ≤ ·)) (hlength : buckets.length = counts.length)
    (sum : UInt64) :
    cumulative sum (bump value buckets counts) =
      addTo value buckets (cumulative sum counts) := by
  induction buckets generalizing counts sum with
  | nil =>
      obtain rfl := List.length_eq_zero_iff.mp hlength.symm
      rfl
  | cons bucket buckets ih =>
      cases counts with
      | nil => contradiction
      | cons count counts =>
          obtain ⟨hfirst, hrest⟩ := List.pairwise_cons.mp hsorted
          have htail : buckets.length = counts.length := by simpa using hlength
          simp only [bump]
          split_ifs with hholds
          · -- the later buckets are larger and hold the value as well
            have hall : ∀ other ∈ bucket :: buckets, value ≤ other := by
              intro other hother
              rcases List.mem_cons.mp hother with rfl | hother
              · exact hholds
              · exact UInt64.le_trans hholds (hfirst other hother)
            rw [addTo_of_le hall (by simpa using hlength)]
            simp only [cumulative, List.map_cons, ← UInt64.add_assoc, cumulative_succ]
          · have hrest := ih hrest htail (sum + count)
            rw [addTo] at hrest
            simp only [cumulative, addTo, List.zipWith_cons_cons, hholds, if_false, hrest]

/-- The sums after any values count what each bucket holds. -/
theorem cumulative_observeAll (values : List UInt64) {m : ChatMetrics}
    (hsorted : m.histBuckets.Pairwise (· ≤ ·))
    (hlength : m.histBuckets.length = m.histBucketCounts.length) :
    cumulative 0 (m.observeAll values).histBucketCounts =
      List.zipWith (fun bucket total =>
        total + UInt64.ofNat (values.countP (· ≤ bucket)))
        m.histBuckets (cumulative 0 m.histBucketCounts) := by
  induction values generalizing m with
  | nil =>
      apply List.ext_getElem
      · simp [observeAll, hlength]
      · intro i _ _
        simp [observeAll]
  | cons value values ih =>
      have hstep := ih (m := m.observeMsgSendLatencyMs value) hsorted
        (by simpa [observeMsgSendLatencyMs] using hlength)
      rw [observeAll, List.foldl_cons, ← observeAll, hstep]
      simp only [observeMsgSendLatencyMs, cumulative_bump value hsorted hlength, addTo]
      apply List.ext_getElem
      · simp
      · intro i _ _
        simp only [List.getElem_zipWith, List.countP_cons, decide_eq_true_eq]
        split_ifs
        · rw [Nat.add_comm, UInt64.ofNat_add, ← UInt64.add_assoc]
          rfl
        · rfl

@[simp]
theorem histBuckets_observeAll (m : ChatMetrics) (values : List UInt64) :
    (m.observeAll values).histBuckets = m.histBuckets := by
  induction values generalizing m with
  | nil => rfl
  | cons value values ih => exact ih (m.observeMsgSendLatencyMs value)

/-- Sum and count after any values. -/
theorem histSum_observeAll (m : ChatMetrics) (values : List UInt64) :
    (m.observeAll values).histSum =
        m.histSum + UInt64.ofNat (values.map UInt64.toNat).sum ∧
      (m.observeAll values).histCount =
        m.histCount + UInt64.ofNat values.length := by
  induction values generalizing m with
  | nil => simp [observeAll]
  | cons value values ih =>
      obtain ⟨hsum, hcount⟩ := ih (m.observeMsgSendLatencyMs value)
      rw [observeAll, List.foldl_cons, ← observeAll, hsum, hcount]
      constructor
      · rw [List.map_cons, List.sum_cons, UInt64.ofNat_add, UInt64.ofNat_toNat,
          ← UInt64.add_assoc]
        rfl
      · rw [List.length_cons, Nat.add_comm, UInt64.ofNat_add, ← UInt64.add_assoc]
        rfl

end ChatMetrics

end FlzChat
