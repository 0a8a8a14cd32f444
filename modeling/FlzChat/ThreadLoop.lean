/-
A thread that works while a flag is set.  Starting sets the flag and spawns the
thread, stopping clears the flag and waits; the thread reads the flag where its
loop begins.
-/
import Mathlib.Tactic.SplitIfs

namespace FlzChat

/-- `running` is the flag, `alive` whether the thread is in its function,
`inside` whether it has passed the loop condition, `stopping` whether the owner
waits for it. -/
structure ThreadLoop where
  running : Bool := false
  alive : Bool := false
  inside : Bool := false
  stopping : Bool := false
deriving DecidableEq

namespace ThreadLoop

/-- A thread that runs is not started again. -/
def start (loop : ThreadLoop) : ThreadLoop :=
  if loop.running then loop
  else { loop with running := true, alive := true, inside := false }

/-- A thread that does not run is not waited for. -/
def stop (loop : ThreadLoop) : ThreadLoop :=
  if loop.running then { loop with running := false, stopping := true } else loop

/-- The thread reads the flag. -/
def check (loop : ThreadLoop) : ThreadLoop :=
  if loop.running then { loop with inside := true } else { loop with alive := false }

/-- The thread is back at the loop condition, or still inside. -/
def stay (loop : ThreadLoop) (inside : Bool) : ThreadLoop :=
  { loop with inside := inside }

/-- The thread leaves its loop from inside. -/
def leave (loop : ThreadLoop) : ThreadLoop :=
  { loop with alive := false, inside := false }

/-- The owner has waited to the end. -/
def join (loop : ThreadLoop) : ThreadLoop :=
  { loop with stopping := false }

/-- No thread, and nobody who waits for one. -/
def Idle (loop : ThreadLoop) : Prop :=
  loop.alive = false ∧ loop.stopping = false

instance (loop : ThreadLoop) : Decidable loop.Idle :=
  inferInstanceAs (Decidable (_ ∧ _))

/-- The flag is set only for a living thread nobody waits for, and a living
thread has its flag set or somebody waiting. -/
structure Sound (loop : ThreadLoop) : Prop where
  running : loop.running = true → loop.alive = true ∧ loop.stopping = false
  alive : loop.alive = true → loop.running = true ∨ loop.stopping = true
  inside : loop.inside = true → loop.alive = true

theorem sound_initial : Sound {} :=
  ⟨by simp, by simp, by simp⟩

variable {loop : ThreadLoop}

theorem Sound.start (hsound : Sound loop) (hstopping : loop.stopping = false) :
    Sound loop.start := by
  simp only [ThreadLoop.start]
  split_ifs
  · exact hsound
  · exact ⟨fun _ => ⟨rfl, hstopping⟩, fun _ => Or.inl rfl, by simp⟩

theorem Sound.stop (hsound : Sound loop) : Sound loop.stop := by
  simp only [ThreadLoop.stop]
  split_ifs
  · exact ⟨by simp, fun _ => Or.inr rfl, hsound.inside⟩
  · exact hsound

theorem Sound.check (hsound : Sound loop) (hinside : loop.inside = false) :
    Sound loop.check := by
  simp only [ThreadLoop.check]
  split_ifs with hrunning
  · exact ⟨hsound.running, hsound.alive, fun _ => (hsound.running hrunning).1⟩
  · exact ⟨fun hup => absurd hup hrunning, by simp,
      fun hin => absurd hin (by simp [hinside])⟩

theorem Sound.stay (hsound : Sound loop) {inside : Bool}
    (hinside : inside = true → loop.inside = true) : Sound (loop.stay inside) :=
  ⟨hsound.running, hsound.alive, fun hin => hsound.inside (hinside hin)⟩

/-- From inside the thread leaves only once its flag has been cleared. -/
theorem Sound.leave (hrunning : loop.running = false) : Sound loop.leave :=
  ⟨fun hup => absurd hup (by simp [ThreadLoop.leave, hrunning]),
    by simp [ThreadLoop.leave], by simp [ThreadLoop.leave]⟩

/-! The owner's calls neither drop the thread nor end its iteration. -/

theorem idle_start (hidle : loop.start.Idle) : loop.Idle := by
  obtain ⟨halive, hstopping⟩ := hidle
  simp only [ThreadLoop.start] at halive hstopping
  split_ifs at halive hstopping
  exact ⟨halive, hstopping⟩

theorem idle_stop (hidle : loop.stop.Idle) : loop.Idle := by
  obtain ⟨halive, hstopping⟩ := hidle
  simp only [ThreadLoop.stop] at halive hstopping
  split_ifs at halive hstopping
  exact ⟨halive, hstopping⟩

theorem Sound.inside_start (hsound : Sound loop)
    (hstopping : loop.stopping = false) (hinside : loop.inside = true) :
    loop.start.inside = true := by
  simp only [ThreadLoop.start]
  split_ifs with hrunning
  · exact hinside
  · rcases hsound.alive (hsound.inside hinside) with hup | hwaiting
    · exact absurd hup hrunning
    · rw [hstopping] at hwaiting
      contradiction

theorem inside_stop (hinside : loop.inside = true) : loop.stop.inside = true := by
  simp only [ThreadLoop.stop]
  split_ifs <;> exact hinside

theorem inside_check (hinside : loop.inside = true) : loop.check.inside = true := by
  simp only [ThreadLoop.check]
  split_ifs
  · rfl
  · exact hinside

/-- Somebody waits for a thread that leaves. -/
theorem Sound.not_idle_of_alive (hsound : Sound loop) (halive : loop.alive = true)
    {next : ThreadLoop} (hrunning : next.alive = false → loop.running = false)
    (hstopping : next.stopping = loop.stopping) : ¬ next.Idle := by
  rintro ⟨hdead, hnobody⟩
  rcases hsound.alive halive with hup | hwaiting
  · rw [hrunning hdead] at hup
    contradiction
  · rw [hstopping, hwaiting] at hnobody
    contradiction

theorem Sound.not_idle_check (hsound : Sound loop) (halive : loop.alive = true) :
    ¬ loop.check.Idle := by
  apply hsound.not_idle_of_alive halive
  · simp only [ThreadLoop.check]
    split_ifs with hrunning
    · rw [halive]
      exact fun hdead => absurd hdead (by decide)
    · exact fun _ => by simpa using hrunning
  · simp only [ThreadLoop.check]
    split_ifs <;> rfl

theorem Sound.not_idle_stay (hsound : Sound loop) (hinside : loop.inside = true)
    (inside : Bool) : ¬ (loop.stay inside).Idle := by
  rintro ⟨hdead, _⟩
  have halive := hsound.inside hinside
  rw [show loop.alive = false from hdead] at halive
  contradiction

theorem Sound.join (hsound : Sound loop) (halive : loop.alive = false) :
    Sound loop.join := by
  have hrunning : loop.running ≠ true := by
    intro hup
    rw [(hsound.running hup).1] at halive
    contradiction
  exact ⟨fun hup => absurd hup hrunning,
    fun hup => absurd hup (by simp [ThreadLoop.join, halive]), hsound.inside⟩

end ThreadLoop

end FlzChat
