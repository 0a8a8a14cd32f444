/-
How long the two threads sleep between attempts to connect.  Both double the
delay after each failure, cap the doubled one and start over after a success;
the settings they start from reach the loops unchecked, so the first sleep is
not capped and the doubling may leave `int`.
-/
import FlzChat.ConnectionSetup
import Mathlib.Logic.Function.Iterate

/-! Delays between retries.  A loop that waits after each failure, stretches its
delay and starts over after a success has waited `next^[k] initial` after a
failure that comes after exactly `k` failures in a row. -/

namespace Retries

universe u

/-- For each failure the number of failures right before it, when `k` of them
are past already. -/
def streaksFrom : Nat → List Bool → List Nat
  | _, [] => []
  | _, true :: attempts => streaksFrom 0 attempts
  | k, false :: attempts => k :: streaksFrom (k + 1) attempts

def streaks : List Bool → List Nat :=
  streaksFrom 0

/-- The next delay and the delays so far, after one more attempt. -/
def attempt {α : Type u} (next : α → α) (initial : α) (timer : α × List α)
    (succeeded : Bool) : α × List α :=
  if succeeded then (initial, timer.2) else (next timer.1, timer.2 ++ [timer.1])

variable {α : Type u}

theorem delays_foldl_attempt (next : α → α) (initial : α)
    (attempts : List Bool) (k : Nat) (delays : List α) :
    (attempts.foldl (attempt next initial) (next^[k] initial, delays)).2 =
      delays ++ (streaksFrom k attempts).map fun k => next^[k] initial := by
  induction attempts generalizing k delays with
  | nil => simp [streaksFrom]
  | cons succeeded attempts ih =>
      cases succeeded with
      | true => exact ih 0 delays
      | false =>
          have hnext := ih (k + 1) (delays ++ [next^[k] initial])
          rw [Function.iterate_succ_apply'] at hnext
          rw [List.foldl_cons, streaksFrom, List.map_cons]
          simp only [attempt, Bool.false_eq_true, if_false]
          rw [hnext, List.append_assoc, List.singleton_append]

/-- A failure is preceded by the shorter streaks it has grown from. -/
theorem mem_streaksFrom_of_le {attempts : List Bool} {j k m : Nat}
    (hk : k ∈ streaksFrom m attempts) (hle : j ≤ k) :
    j < m ∨ j ∈ streaksFrom m attempts := by
  induction attempts generalizing m with
  | nil => simp [streaksFrom] at hk
  | cons succeeded attempts ih =>
      cases succeeded with
      | true =>
          rcases ih (m := 0) hk with hlt | hmem
          · exact absurd hlt (Nat.not_lt_zero j)
          · exact Or.inr hmem
      | false =>
          simp only [streaksFrom, List.mem_cons] at hk ⊢
          rcases hk with rfl | hk
          · rcases Nat.lt_or_eq_of_le hle with hlt | rfl
            · exact Or.inl hlt
            · exact Or.inr (Or.inl rfl)
          · rcases ih hk with hlt | hmem
            · rcases Nat.lt_or_eq_of_le (Nat.le_of_lt_succ hlt) with hlt | rfl
              · exact Or.inl hlt
              · exact Or.inr (Or.inl rfl)
            · exact Or.inr (Or.inr hmem)

theorem mem_streaks_of_le {attempts : List Bool} {j k : Nat}
    (hk : k ∈ streaks attempts) (hle : j ≤ k) : j ∈ streaks attempts :=
  (mem_streaksFrom_of_le hk hle).resolve_left (Nat.not_lt_zero j)

/-- Failures without a success between them. -/
theorem streaksFrom_replicate (k n : Nat) :
    streaksFrom k (List.replicate n false) = List.range' k n := by
  induction n generalizing k with
  | zero => rfl
  | succ n ih =>
      rw [List.replicate_succ, streaksFrom, ih, List.range'_succ]

end Retries

namespace FlzChat

open Retries (streaks)

/-- The delay after a failure with `k` failures in a row before it. -/
def cappedDelay (cfg : RabbitMqConfig) (k : Nat) : Int :=
  min cfg.reconnectMaxBackoffMs.toInt (cfg.reconnectInitialBackoffMs.toInt * 2 ^ k)

/-- The sleeps of a loop are the capped doubling sequence, start over after each
success and are positive; each is doubled for the next, within `int`. -/
structure CapsAndDoubles (cfg : RabbitMqConfig) (attempts : List Bool)
    (sleeps : List Int32) : Prop where
  capped : sleeps.map Int32.toInt = (streaks attempts).map (cappedDelay cfg)
  positive : ∀ ms ∈ sleeps, 0 < ms.toInt
  fits : ∀ ms ∈ sleeps, -2 ^ 31 ≤ ms.toInt * 2 ∧ ms.toInt * 2 < 2 ^ 31

/-- What the settings have to meet for a failure after `k` failures. -/
def DelayFits (cfg : RabbitMqConfig) (k : Nat) : Prop :=
  0 < cfg.reconnectInitialBackoffMs.toInt ∧
    cfg.reconnectInitialBackoffMs.toInt ≤ cfg.reconnectMaxBackoffMs.toInt ∧
      cappedDelay cfg k < 2 ^ 30

/-! The delays, one after another. -/

section

variable {cfg : RabbitMqConfig}

/-- The `k`-th delay of the loop. -/
def delay (cfg : RabbitMqConfig) (k : Nat) : Int32 :=
  (doubleBackoff cfg.reconnectMaxBackoffMs)^[k] cfg.reconnectInitialBackoffMs

theorem delay_succ (cfg : RabbitMqConfig) (k : Nat) :
    delay cfg (k + 1) = doubleBackoff cfg.reconnectMaxBackoffMs (delay cfg k) :=
  Function.iterate_succ_apply' _ _ _

/-- Within `int` the doubling is that of the integers. -/
theorem toInt_doubleBackoff {maxBackoff backoff : Int32}
    (hfits : -2 ^ 31 ≤ backoff.toInt * 2 ∧ backoff.toInt * 2 < 2 ^ 31) :
    (doubleBackoff maxBackoff backoff).toInt =
      min maxBackoff.toInt (backoff.toInt * 2) := by
  have hdouble : (backoff * 2).toInt = backoff.toInt * 2 := by
    rw [Int32.toInt_mul]
    exact Int.bmod_eq_of_le (by simpa using hfits.1) (by simpa using hfits.2)
  simp only [doubleBackoff, Int32.lt_iff_toInt_lt]
  split_ifs with hlt
  · rw [hdouble] at hlt ⊢
    exact (min_eq_right hlt.le).symm
  · rw [hdouble, not_lt] at hlt
    exact (min_eq_left hlt).symm

theorem cappedDelay_succ (hpos : 0 < cfg.reconnectMaxBackoffMs.toInt) (k : Nat) :
    cappedDelay cfg (k + 1) =
      min cfg.reconnectMaxBackoffMs.toInt (cappedDelay cfg k * 2) := by
  simp only [cappedDelay, pow_succ, ← mul_assoc]
  omega

theorem cappedDelay_le_of_le (hpos : 0 < cfg.reconnectInitialBackoffMs.toInt)
    {j k : Nat} (hle : j ≤ k) : cappedDelay cfg j ≤ cappedDelay cfg k := by
  have hpow : (2 : Int) ^ j ≤ 2 ^ k := pow_le_pow_right₀ (by norm_num) hle
  exact min_le_min_left _ (mul_le_mul_of_nonneg_left hpow hpos.le)

theorem cappedDelay_zero
    (hle : cfg.reconnectInitialBackoffMs.toInt ≤ cfg.reconnectMaxBackoffMs.toInt) :
    cappedDelay cfg 0 = cfg.reconnectInitialBackoffMs.toInt := by
  rw [cappedDelay, pow_zero, mul_one]
  exact min_eq_right hle

theorem DelayFits.of_le {j k : Nat} (hfits : DelayFits cfg k) (hle : j ≤ k) :
    DelayFits cfg j :=
  ⟨hfits.1, hfits.2.1, (cappedDelay_le_of_le hfits.1 hle).trans_lt hfits.2.2⟩

theorem DelayFits.positive {k : Nat} (hfits : DelayFits cfg k) :
    0 < cappedDelay cfg k := by
  have hfirst := cappedDelay_le_of_le hfits.1 (Nat.zero_le k)
  rw [cappedDelay_zero hfits.2.1] at hfirst
  exact hfits.1.trans_le hfirst

/-- The delays are those of the integers as long as they fit. -/
theorem DelayFits.toInt_delay {k : Nat} (hfits : DelayFits cfg k) :
    (delay cfg k).toInt = cappedDelay cfg k := by
  induction k with
  | zero => exact (cappedDelay_zero hfits.2.1).symm
  | succ k ih =>
      have hbefore := hfits.of_le (Nat.le_succ k)
      have hdelay := ih hbefore
      have hpositive := hbefore.positive
      have hbound := hbefore.2.2
      rw [delay_succ, toInt_doubleBackoff (by rw [hdelay]; omega), hdelay,
        cappedDelay_succ (hfits.1.trans_le hfits.2.1)]

/-- The sleeps of a machine whose steps move its timer by the attempts they
make. -/
theorem sleeps_of_timer {σ ε : Type} {M : Machine σ ε}
    {timer : σ → Int32 × List Int32} {attempts : σ → ε → List Bool}
    (hstep : ∀ s e, timer (M.step s e) = (attempts s e).foldl
      (Retries.attempt (doubleBackoff cfg.reconnectMaxBackoffMs)
        cfg.reconnectInitialBackoffMs) (timer s))
    {s : σ} (hinitial : timer s = (cfg.reconnectInitialBackoffMs, []))
    (es : List ε) :
    (timer (M.run s es)).2 = (streaks (M.trace attempts s es)).map (delay cfg) := by
  rw [Machine.project_run hstep, hinitial]
  exact Retries.delays_foldl_attempt (doubleBackoff cfg.reconnectMaxBackoffMs)
    cfg.reconnectInitialBackoffMs (M.trace attempts s es) 0 []

/-- The sleeps are as they should be exactly while their delays fit. -/
theorem capsAndDoubles_iff (cfg : RabbitMqConfig) (attempts : List Bool) :
    CapsAndDoubles cfg attempts ((streaks attempts).map (delay cfg)) ↔
      ∀ k ∈ streaks attempts, DelayFits cfg k := by
  constructor
  · rintro ⟨hcapped, hpositive, hfits⟩ k hk
    have hdelay : ∀ j ∈ streaks attempts, (delay cfg j).toInt = cappedDelay cfg j := by
      rw [List.map_map] at hcapped
      exact List.map_inj_left.mp hcapped
    -- the first failure of the streak sleeps for the initial delay
    have hzero := Retries.mem_streaks_of_le hk (Nat.zero_le k)
    have hfirst : cfg.reconnectInitialBackoffMs.toInt = cappedDelay cfg 0 :=
      hdelay 0 hzero
    have hinitial : 0 < cfg.reconnectInitialBackoffMs.toInt :=
      hpositive _ (List.mem_map_of_mem hzero)
    refine ⟨hinitial, ?_, ?_⟩
    · rw [hfirst]
      exact min_le_left _ _
    · have hlast := (hfits _ (List.mem_map_of_mem hk)).2
      rw [hdelay k hk] at hlast
      omega
  · intro hall
    refine ⟨?_, ?_, ?_⟩
    · rw [List.map_map]
      exact List.map_congr_left fun k hk => (hall k hk).toInt_delay
    · intro ms hms
      obtain ⟨k, hk, rfl⟩ := List.mem_map.mp hms
      rw [(hall k hk).toInt_delay]
      exact (hall k hk).positive
    · intro ms hms
      obtain ⟨k, hk, rfl⟩ := List.mem_map.mp hms
      rw [(hall k hk).toInt_delay]
      have hpositive := (hall k hk).positive
      have hbound := (hall k hk).2.2
      omega

/-- Every delay fits exactly under bounds on the two settings. -/
theorem forall_delayFits_iff (cfg : RabbitMqConfig) :
    (∀ k, DelayFits cfg k) ↔
      0 < cfg.reconnectInitialBackoffMs.toInt ∧
        cfg.reconnectInitialBackoffMs.toInt ≤ cfg.reconnectMaxBackoffMs.toInt ∧
          cfg.reconnectMaxBackoffMs.toInt < 2 ^ 30 := by
  constructor
  · intro hall
    obtain ⟨hpos, hle, hlast⟩ := hall 30
    refine ⟨hpos, hle, ?_⟩
    rcases min_lt_iff.mp hlast with hmax | hinitial
    · exact hmax
    · omega
  · rintro ⟨hpos, hle, hmax⟩ k
    exact ⟨hpos, hle, (min_le_left _ _).trans_lt hmax⟩

end

/-! The loops. -/

namespace MqConsumer

namespace Thread

/-- The outcome of `EnsureConnected`, in the steps that call it. -/
def attempts (cfg : RabbitMqConfig) (t : Thread) : Watched.Event → List Bool
  | .connect replies =>
      [(ensureConnected cfg replies t.consumer.client t.consumer.metrics).1]
  | .consume _ _ _ _ _ => []

/-- The delay to come and the sleeps so far. -/
def timer (t : Thread) : Int32 × List Int32 :=
  (t.consumer.backoff, t.consumer.sleeps)

end Thread

theorem consumeStep_timer (P : Platform) (replies : Replies)
    (reply : ConsumeReply) (running : Bool) (nowMs : Int)
    (answer : Option Invocation) (consumer : MqConsumer) :
    let after := (consumer.consumeStep P replies reply running nowMs answer).2
    after.backoff = consumer.backoff ∧ after.sleeps = consumer.sleeps := by
  simp only [consumeStep]
  split_ifs
  · exact ⟨rfl, rfl⟩
  · cases reply with
    | timeout => exact ⟨rfl, rfl⟩
    | failure => exact ⟨rfl, rfl⟩
    | delivery d =>
        simp only [handleDelivery]
        rcases envelopeFromString P d.body with thrown | text | env
        · exact ⟨rfl, rfl⟩
        · exact ⟨rfl, rfl⟩
        · simp only
          rcases consumer.idempotency.tryMark env.msgId nowMs with
            ⟨_ | _, idempotency⟩
          · exact ⟨rfl, rfl⟩
          · simp only [dispatchToScheduler]
            split_ifs
            · exact ⟨rfl, rfl⟩
            · exact ⟨rfl, rfl⟩

theorem Thread.timer_step (P : Platform) (cfg : RabbitMqConfig) (t : Thread)
    (e : Watched.Event) :
    ((machine P cfg).step t e).timer = (t.attempts cfg e).foldl
      (Retries.attempt (doubleBackoff cfg.reconnectMaxBackoffMs)
        cfg.reconnectInitialBackoffMs) t.timer := by
  cases e with
  | connect replies =>
      simp only [machine, attempts, connectStep]
      rcases ensureConnected cfg replies t.consumer.client t.consumer.metrics with
        ⟨_ | _, client, metrics⟩
      · rfl
      · rfl
  | consume replies reply running nowMs answer =>
      obtain ⟨hbackoff, hsleeps⟩ := consumeStep_timer P replies reply running
        nowMs answer t.consumer
      exact Prod.ext hbackoff hsleeps

/-- The sleeps of a run of the consumer's thread. -/
theorem Thread.sleeps_run (P : Platform) (cfg : RabbitMqConfig)
    (scheduler : Option IoManager) (es : List Watched.Event) :
    ((machine P cfg).run ⟨.initial cfg scheduler, false⟩ es).consumer.sleeps =
      (streaks ((machine P cfg).trace (attempts cfg)
        ⟨.initial cfg scheduler, false⟩ es)).map (delay cfg) :=
  sleeps_of_timer (timer_step P cfg) rfl es

end MqConsumer

namespace MqPublisher

/-- The outcome of `EnsureConnected`, in the steps that call it. -/
def attempts (pub : MqPublisher) : Event → List Bool
  | .connect replies =>
      if pub.held.isSome then
        [(ensureConnected replies pub.client pub.metrics).1]
      else []
  | _ => []

/-- The delay to come and the sleeps so far. -/
def timer (pub : MqPublisher) : Int32 × List Int32 :=
  (pub.backoff, pub.sleeps)

theorem timer_step (P : Platform) (cfg : ChatConfig) (pub : MqPublisher)
    (e : Event) :
    ((machine P cfg).step pub e).timer = (pub.attempts e).foldl
      (Retries.attempt (doubleBackoff cfg.rabbitmq.reconnectMaxBackoffMs)
        cfg.rabbitmq.reconnectInitialBackoffMs) pub.timer := by
  cases e with
  | publish task =>
      simp only [machine, publish, enqueue]
      split_ifs
      · rfl
      · rfl
  | dequeue =>
      simp only [machine, dequeue]
      split
      · rfl
      · rfl
  | connect replies =>
      simp only [machine, attempts]
      cases pub.held with
      | none => rfl
      | some task =>
          simp only [connectStep]
          rcases ensureConnected replies pub.client pub.metrics with
            ⟨_ | _, client, metrics⟩
          · rfl
          · rfl
  | send replies clock msgId =>
      simp only [machine]
      cases pub.held with
      | none => rfl
      | some task =>
          simp only [sendStep]
          split
          · rfl
          · rfl

/-- The sleeps of a run of the publisher's thread. -/
theorem sleeps_run (P : Platform) (cfg : ChatConfig) (es : List Event) :
    ((machine P cfg).run (.initial cfg) es).sleeps =
      (streaks ((machine P cfg).trace attempts (.initial cfg) es)).map
        (delay cfg.rabbitmq) :=
  sleeps_of_timer (timer_step P cfg) rfl es

end MqPublisher

/-- The sleeps of a run of the consumer's thread are as they should be. -/
def MqConsumer.BacksOff (P : Platform) (cfg : RabbitMqConfig)
    (scheduler : Option IoManager) (es : List Watched.Event) : Prop :=
  CapsAndDoubles cfg
    ((Thread.machine P cfg).trace (Thread.attempts cfg)
      ⟨.initial cfg scheduler, false⟩ es)
    ((Thread.machine P cfg).run ⟨.initial cfg scheduler, false⟩ es).consumer.sleeps

/-- The sleeps of a run of the publisher's thread are as they should be. -/
def MqPublisher.BacksOff (P : Platform) (cfg : ChatConfig) (es : List Event) :
    Prop :=
  CapsAndDoubles cfg.rabbitmq ((machine P cfg).trace attempts (.initial cfg) es)
    ((machine P cfg).run (.initial cfg) es).sleeps

/-! A broker that is away. -/

/-- Without a connection to be had `EnsureConnected` fails at once. -/
theorem AmqpClient.ensureConnected_refused {client : AmqpClient}
    (hdown : client.connected = false) {replies : Replies}
    (hrefused : replies .newConnection = false) (role : StdString)
    (steps : List (AmqpClient → Bool × AmqpClient)) (metrics : ChatMetrics) :
    (client.ensureConnected replies role steps metrics).1 = false := by
  simp [ensureConnected, hdown, connect, request, hrefused]

/-- The consumer of a broker that is away. -/
def MqConsumer.refusals (n : Nat) : List Watched.Event :=
  List.replicate n (.connect fun _ => false)

theorem MqConsumer.refusals_run (P : Platform) (cfg : RabbitMqConfig) (n : Nat)
    {t : Thread} (hrunning : t.stopped = false)
    (hready : t.consumer.ready = false)
    (hdown : t.consumer.client.connected = false) :
    (Thread.machine P cfg).Admissible t (refusals n) ∧
      (Thread.machine P cfg).trace (Thread.attempts cfg) t (refusals n) =
        List.replicate n false := by
  induction n generalizing t with
  | zero => exact ⟨trivial, rfl⟩
  | succ n ih =>
      have hfail : (ensureConnected cfg (fun _ => false) t.consumer.client
          t.consumer.metrics).1 = false :=
        AmqpClient.ensureConnected_refused hdown rfl _ _ _
      obtain ⟨hclient, hunready⟩ :=
        connectStep_client cfg (fun _ => false) t.consumer
      obtain ⟨_, hclosed⟩ := AmqpClient.ensureConnected_closed _ _ _ _ _ hfail
      obtain ⟨hadm, htrace⟩ := ih
        (t := (Thread.machine P cfg).step t (.connect fun _ => false)) hrunning
        (by simpa [Thread.machine, hfail, hready] using hunready)
        ((congrArg AmqpClient.connected hclient).trans hclosed)
      refine ⟨⟨⟨hrunning, hready⟩, hadm⟩, ?_⟩
      rw [refusals, List.replicate_succ, Machine.trace, ← refusals, htrace,
        Thread.attempts, hfail]
      rfl

/-- A run of either thread sleeps as it should exactly while the delays of its
streaks of failures fit; all runs do exactly under bounds on the two settings. -/
theorem backsOff_iff (P : Platform) (cfg : ChatConfig)
    (scheduler : Option IoManager) :
    (∀ es, MqConsumer.BacksOff P cfg.rabbitmq scheduler es ↔
        ∀ k ∈ streaks ((MqConsumer.Thread.machine P cfg.rabbitmq).trace
          (MqConsumer.Thread.attempts cfg.rabbitmq)
          ⟨.initial cfg.rabbitmq scheduler, false⟩ es), DelayFits cfg.rabbitmq k) ∧
      (∀ es, MqPublisher.BacksOff P cfg es ↔
        ∀ k ∈ streaks ((MqPublisher.machine P cfg).trace MqPublisher.attempts
          (.initial cfg) es), DelayFits cfg.rabbitmq k) ∧
      ((∀ es, (MqConsumer.Thread.machine P cfg.rabbitmq).Admissible
            ⟨.initial cfg.rabbitmq scheduler, false⟩ es →
            MqConsumer.BacksOff P cfg.rabbitmq scheduler es) ∧
          (∀ es, (MqPublisher.machine P cfg).Admissible (.initial cfg) es →
            MqPublisher.BacksOff P cfg es) ↔
        0 < cfg.rabbitmq.reconnectInitialBackoffMs.toInt ∧
          cfg.rabbitmq.reconnectInitialBackoffMs.toInt ≤
            cfg.rabbitmq.reconnectMaxBackoffMs.toInt ∧
          cfg.rabbitmq.reconnectMaxBackoffMs.toInt < 2 ^ 30) := by
  have hconsumer : ∀ es, MqConsumer.BacksOff P cfg.rabbitmq scheduler es ↔
      ∀ k ∈ streaks ((MqConsumer.Thread.machine P cfg.rabbitmq).trace
        (MqConsumer.Thread.attempts cfg.rabbitmq)
        ⟨.initial cfg.rabbitmq scheduler, false⟩ es), DelayFits cfg.rabbitmq k := by
    intro es
    rw [MqConsumer.BacksOff, MqConsumer.Thread.sleeps_run]
    exact capsAndDoubles_iff _ _
  have hpublisher : ∀ es, MqPublisher.BacksOff P cfg es ↔
      ∀ k ∈ streaks ((MqPublisher.machine P cfg).trace MqPublisher.attempts
        (.initial cfg) es), DelayFits cfg.rabbitmq k := by
    intro es
    rw [MqPublisher.BacksOff, MqPublisher.sleeps_run]
    exact capsAndDoubles_iff _ _
  refine ⟨hconsumer, hpublisher, ?_⟩
  rw [← forall_delayFits_iff]
  constructor
  · rintro ⟨hall, _⟩ k
    -- a broker that stays away drives the delay through every step
    obtain ⟨hadm, htrace⟩ := MqConsumer.refusals_run P cfg.rabbitmq (k + 1)
      (t := ⟨.initial cfg.rabbitmq scheduler, false⟩) rfl rfl rfl
    apply (hconsumer _).mp (hall _ hadm)
    rw [htrace, streaks, Retries.streaksFrom_replicate, List.mem_range'_1]
    omega
  · intro hall
    exact ⟨fun es _ => (hconsumer es).mpr fun k _ => hall k,
      fun es _ => (hpublisher es).mpr fun k _ => hall k⟩

namespace ReconnectBackoffWitness

open MqPublisher.MqPublisherWitness (platform)

/-- A first delay above the maximum. -/
def values : ChatConfig :=
  { jwt := { secret := lit "s" }
    rabbitmq := { reconnectInitialBackoffMs := 60000 } }

/-- The first sleep is 60 s where the maximum is 30 s. -/
theorem not_all_backsOff :
    ¬ ∀ (P : Platform) (getenv : StdString → Option StdString)
      (values cfg : ChatConfig), ChatConfig.load getenv values = .ok cfg →
        ∀ scheduler es, (MqConsumer.Thread.machine P cfg.rabbitmq).Admissible
          ⟨.initial cfg.rabbitmq scheduler, false⟩ es →
            MqConsumer.BacksOff P cfg.rabbitmq scheduler es := by
  intro hall
  have hrun := hall platform (fun _ => none) values values (by decide +kernel)
    none (MqConsumer.refusals 1) ⟨⟨rfl, rfl⟩, trivial⟩
  exact absurd hrun.capped (by decide +kernel)

end ReconnectBackoffWitness

end FlzChat
