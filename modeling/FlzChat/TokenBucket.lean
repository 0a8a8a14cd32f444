/-
A bucket of tokens refilled whole, not drop by drop.  A refill is anchored at
the call that finds the last one a full window ago, so the windows of two
refills never overlap, and an interval of that width meets at most two fills.
-/
import Mathlib.Data.List.Basic
import Mathlib.Tactic.Linarith

namespace FlzChat

structure TokenBucket where
  refillTs : Int
  tokens : Int
deriving DecidableEq

namespace TokenBucket

/-- The bucket a call at `now` finds, after the refill it makes first. -/
def refilled (width capacity : Int) (b : TokenBucket) (now : Int) :
    TokenBucket :=
  if width ≤ now - b.refillTs then ⟨now, capacity⟩ else b

/-- Whether a token is left, and the bucket without it. -/
def take (width capacity : Int) (b : TokenBucket) (now : Int) :
    Bool × TokenBucket :=
  let b := b.refilled width capacity now
  if b.tokens ≤ 0 then (false, b) else (true, { b with tokens := b.tokens - 1 })

/-- The calls made one after another, each with its answer. -/
def answers (width capacity : Int) : TokenBucket → List Int → List (Int × Bool)
  | _, [] => []
  | b, now :: nows =>
      (now, (b.take width capacity now).1) ::
        answers width capacity (b.take width capacity now).2 nows

/-- The calls of the half-open interval of that width from `start` on. -/
def callsIn (width start : Int) (nows : List Int) : Nat :=
  nows.countP fun now => decide (start ≤ now ∧ now < start + width)

/-- Those of them that were granted. -/
def grantsIn (width start : Int) (answers : List (Int × Bool)) : Nat :=
  answers.countP fun answer =>
    decide (start ≤ answer.1 ∧ answer.1 < start + width) && answer.2

@[simp]
theorem grantsIn_nil (width start : Int) : grantsIn width start [] = 0 := rfl

theorem grantsIn_cons (width start now : Int) (granted : Bool)
    (rest : List (Int × Bool)) :
    grantsIn width start ((now, granted) :: rest) =
      grantsIn width start rest +
        if (start ≤ now ∧ now < start + width) ∧ granted = true then 1 else 0 := by
  simp only [grantsIn, List.countP_cons, Bool.and_eq_true, decide_eq_true_eq]

/-- A call adds one at most, and only when it is granted. -/
theorem grantsIn_cons_le (width start now : Int) (granted : Bool)
    (rest : List (Int × Bool)) :
    grantsIn width start ((now, granted) :: rest) ≤
      grantsIn width start rest + if granted = true then 1 else 0 := by
  rw [grantsIn_cons]
  cases granted with
  | false => simp
  | true =>
      simp only [and_true, if_true, Nat.add_le_add_iff_left]
      split_ifs <;> omega

theorem callsIn_cons (width start now : Int) (nows : List Int) :
    callsIn width start (now :: nows) =
      callsIn width start nows +
        if start ≤ now ∧ now < start + width then 1 else 0 := by
  simp only [callsIn, List.countP_cons, decide_eq_true_eq]

section

variable {width capacity : Int}

theorem map_fst_answers (b : TokenBucket) (nows : List Int) :
    (answers width capacity b nows).map Prod.fst = nows := by
  induction nows generalizing b with
  | nil => rfl
  | cons now nows ih => simp [answers, ih]

theorem tokens_refilled_le {b : TokenBucket} (hb : b.tokens ≤ capacity)
    (now : Int) : (b.refilled width capacity now).tokens ≤ capacity := by
  simp only [refilled]
  split_ifs
  · exact le_refl capacity
  · exact hb

/-- A call never leaves more tokens than the refill it made. -/
theorem tokens_take_le (b : TokenBucket) (now : Int) :
    (b.take width capacity now).2.tokens ≤
      (b.refilled width capacity now).tokens := by
  simp only [take]
  split_ifs
  · exact le_refl _
  · simp

@[simp]
theorem refillTs_take (b : TokenBucket) (now : Int) :
    (b.take width capacity now).2.refillTs =
      (b.refilled width capacity now).refillTs := by
  simp only [take]
  split_ifs <;> rfl

/-- A call costs a token when it is granted and nothing when it is not. -/
theorem take_cost (width capacity : Int) (b : TokenBucket) (now : Int) :
    max (b.take width capacity now).2.tokens 0 +
        (if (b.take width capacity now).1 = true then 1 else 0) =
      max (b.refilled width capacity now).tokens 0 := by
  simp only [take]
  by_cases hdry : (b.refilled width capacity now).tokens ≤ 0
  · simp [hdry]
  · simp only [hdry, if_false, if_true]
    omega

/-- Nothing is granted in an interval that has passed. -/
theorem grantsIn_of_past {start : Int} {nows : List Int}
    (hpast : ∀ now ∈ nows, start + width ≤ now) (b : TokenBucket) :
    grantsIn width start (answers width capacity b nows) = 0 := by
  apply List.countP_eq_zero.mpr
  intro answer hanswer
  have hmem := List.mem_map_of_mem (f := Prod.fst) hanswer
  rw [map_fst_answers] at hmem
  have := hpast answer.1 hmem
  simp only [Bool.and_eq_true, decide_eq_true_eq]
  omega

/-- Once a refill lies in the interval, there is no other in it. -/
theorem grantsIn_le_tokens (width capacity : Int) {start : Int} {nows : List Int}
    (hsorted : nows.Pairwise (· ≤ ·)) {b : TokenBucket}
    (hrefill : start ≤ b.refillTs) :
    (grantsIn width start (answers width capacity b nows) : Int) ≤
      max b.tokens 0 := by
  induction nows generalizing b with
  | nil => simp [answers]
  | cons now nows ih =>
      obtain ⟨hlater, hrest⟩ := List.pairwise_cons.mp hsorted
      by_cases hin : now < start + width
      · have hkept : b.refilled width capacity now = b := by
          simp only [refilled]
          rw [if_neg]
          omega
        have hnext := ih hrest (b := (b.take width capacity now).2)
          (by rw [refillTs_take, hkept]; exact hrefill)
        have hcost := take_cost width capacity b now
        have hcons := grantsIn_cons_le width start now
          (b.take width capacity now).1
          (answers width capacity (b.take width capacity now).2 nows)
        rw [hkept] at hcost
        rw [answers]
        split_ifs at hcost hcons <;> omega
      · rw [grantsIn_of_past]
        · simp
        · intro other hother
          rcases List.mem_cons.mp hother with rfl | hother
          · omega
          · have := hlater other hother
            omega

/-- From the start of the interval on: what is left of the old fill, and one
more fill. -/
theorem grantsIn_le_tokens_add (width : Int) {start : Int} {nows : List Int}
    (hsorted : nows.Pairwise (· ≤ ·)) (hstart : ∀ now ∈ nows, start ≤ now)
    (hcapacity : 0 ≤ capacity) (b : TokenBucket) :
    (grantsIn width start (answers width capacity b nows) : Int) ≤
      max b.tokens 0 + capacity := by
  induction nows generalizing b with
  | nil =>
      simp only [answers, grantsIn_nil]
      omega
  | cons now nows ih =>
      obtain ⟨hlater, hrest⟩ := List.pairwise_cons.mp hsorted
      have hcost := take_cost width capacity b now
      have hfrom : ∀ now ∈ nows, start ≤ now :=
        fun now hnow => hstart now (List.mem_cons_of_mem _ hnow)
      have hnow := hstart now List.mem_cons_self
      have hcons := grantsIn_cons_le width start now
        (b.take width capacity now).1
        (answers width capacity (b.take width capacity now).2 nows)
      rw [answers]
      by_cases hfull : width ≤ now - b.refillTs
      · have hkept : b.refilled width capacity now = ⟨now, capacity⟩ :=
          if_pos hfull
        have hstarted : start ≤ (b.take width capacity now).2.refillTs := by
          rw [refillTs_take, hkept]
          exact hnow
        have hnext := grantsIn_le_tokens width capacity hrest hstarted
        rw [hkept] at hcost
        split_ifs at hcost hcons <;> simp only at hcost <;> omega
      · have hkept : b.refilled width capacity now = b := if_neg hfull
        have hnext := ih hrest hfrom (b.take width capacity now).2
        rw [hkept] at hcost
        split_ifs at hcost hcons <;> omega

/-- No interval sees more than two fills. -/
theorem grantsIn_le {nows : List Int} (hsorted : nows.Pairwise (· ≤ ·))
    (hcapacity : 0 ≤ capacity) {b : TokenBucket} (hb : b.tokens ≤ capacity)
    (start : Int) :
    (grantsIn width start (answers width capacity b nows) : Int) ≤
      2 * capacity := by
  induction nows generalizing b with
  | nil =>
      simp only [answers, grantsIn_nil]
      omega
  | cons now nows ih =>
      obtain ⟨hlater, hrest⟩ := List.pairwise_cons.mp hsorted
      by_cases hbefore : now < start
      · have hnext := ih hrest (b := (b.take width capacity now).2)
          (le_trans (tokens_take_le b now) (tokens_refilled_le hb now))
        rw [answers, grantsIn_cons, if_neg (by omega)]
        exact hnext
      · have hstart : ∀ other ∈ now :: nows, start ≤ other := by
          intro other hother
          rcases List.mem_cons.mp hother with rfl | hother
          · omega
          · have := hlater other hother
            omega
        have hwhole := grantsIn_le_tokens_add width hsorted hstart hcapacity b
        omega

/-- Calls that keep to the capacity in every interval are all granted: the
tokens left always cover the calls that come before the next refill. -/
theorem granted_of_within {nows : List Int} (hsorted : nows.Pairwise (· ≤ ·))
    (hwidth : 0 < width) {b : TokenBucket}
    (hstart : ∀ now ∈ nows, b.refillTs ≤ now)
    (hcovered : (callsIn width b.refillTs nows : Int) ≤ b.tokens)
    (hwithin : ∀ start, (callsIn width start nows : Int) ≤ capacity) :
    ∀ answer ∈ answers width capacity b nows, answer.2 = true := by
  induction nows generalizing b with
  | nil => simp [answers]
  | cons now nows ih =>
      obtain ⟨hlater, hrest⟩ := List.pairwise_cons.mp hsorted
      have hbound : ∀ start, (callsIn width start nows : Int) ≤ capacity := by
        intro start
        have := hwithin start
        rw [callsIn_cons] at this
        push_cast at this
        split_ifs at this <;> omega
      -- the refill of this call, if any, also covers the calls after it
      have hrefilled : ∀ later ∈ now :: nows,
          (b.refilled width capacity now).refillTs ≤ later := by
        intro later hmem
        simp only [refilled]
        split_ifs
        · rcases List.mem_cons.mp hmem with rfl | hmem
          · exact le_refl _
          · exact hlater later hmem
        · exact hstart later hmem
      have hcover : (callsIn width (b.refilled width capacity now).refillTs
          (now :: nows) : Int) ≤ (b.refilled width capacity now).tokens := by
        simp only [refilled]
        split_ifs
        · exact hwithin now
        · exact hcovered
      have hin : now < (b.refilled width capacity now).refillTs + width := by
        simp only [refilled]
        split_ifs
        · simpa using hwidth
        · omega
      rw [callsIn_cons, if_pos ⟨hrefilled now List.mem_cons_self, hin⟩] at hcover
      push_cast at hcover
      have hleft : ¬ (b.refilled width capacity now).tokens ≤ 0 := by omega
      have htake : b.take width capacity now =
          (true, { b.refilled width capacity now with
            tokens := (b.refilled width capacity now).tokens - 1 }) := by
        simp only [take, hleft, if_false]
      rw [answers, htake]
      intro answer hanswer
      rcases List.mem_cons.mp hanswer with rfl | hanswer
      · rfl
      · apply ih hrest _ _ hbound answer hanswer
        · intro later hmem
          exact hrefilled later (List.mem_cons_of_mem now hmem)
        · simp only
          omega

end

end TokenBucket

end FlzChat
