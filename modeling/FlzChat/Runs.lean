/-
Runs of event-driven machines.  Everything nondeterministic (inputs, schedules,
clock readings, outcomes of the outside world) sits in the event, so a run is
the list of its events and every induction is over that list.
-/
import Mathlib.Data.List.Basic
import Mathlib.Data.List.Forall2

namespace FlzChat

universe u v w w' w''

/-- A machine driven by events.  `enabled` states what the environment
promises about the next event; `step` is total, also on events that break the
promise. -/
structure Machine (σ : Type u) (ε : Type v) where
  enabled : σ → ε → Prop
  step : σ → ε → σ

namespace Machine

variable {σ : Type u} {ε : Type v}

def run (M : Machine σ ε) : σ → List ε → σ
  | s, [] => s
  | s, e :: es => M.run (M.step s e) es

/-- Every event satisfies `guard` in the state it happens in. -/
def Each (M : Machine σ ε) (guard : σ → ε → Prop) : σ → List ε → Prop
  | _, [] => True
  | s, e :: es => guard s e ∧ M.Each guard (M.step s e) es

/-- The environment keeps its promise throughout. -/
def Admissible (M : Machine σ ε) : σ → List ε → Prop :=
  M.Each M.enabled

/-- `P` holds in every state the run goes through, the first and the last
included. -/
def Always (M : Machine σ ε) (P : σ → Prop) : σ → List ε → Prop
  | s, [] => P s
  | s, e :: es => P s ∧ M.Always P (M.step s e) es

instance Each.decidable (M : Machine σ ε) (guard : σ → ε → Prop)
    [∀ s e, Decidable (guard s e)] :
    ∀ (s : σ) (es : List ε), Decidable (M.Each guard s es)
  | _, [] => isTrue trivial
  | s, e :: es =>
      @instDecidableAnd _ _ (inferInstance : Decidable (guard s e))
        (Each.decidable M guard (M.step s e) es)

instance (M : Machine σ ε) [∀ s e, Decidable (M.enabled s e)] (s : σ)
    (es : List ε) : Decidable (M.Admissible s es) :=
  Each.decidable M M.enabled s es

instance Always.decidable (M : Machine σ ε) (P : σ → Prop) [DecidablePred P] :
    ∀ (s : σ) (es : List ε), Decidable (M.Always P s es)
  | s, [] => inferInstanceAs (Decidable (P s))
  | s, e :: es =>
      @instDecidableAnd _ _ (inferInstance : Decidable (P s))
        (Always.decidable M P (M.step s e) es)

@[simp]
theorem run_nil (M : Machine σ ε) (s : σ) : M.run s [] = s := rfl

@[simp]
theorem run_cons (M : Machine σ ε) (s : σ) (e : ε) (es : List ε) :
    M.run s (e :: es) = M.run (M.step s e) es := rfl

theorem Each.and {M : Machine σ ε} {guard guard' : σ → ε → Prop} {s : σ}
    {es : List ε} (heach : M.Each guard s es) (heach' : M.Each guard' s es) :
    M.Each (fun s e => guard s e ∧ guard' s e) s es := by
  induction es generalizing s with
  | nil => trivial
  | cons e es ih => exact ⟨⟨heach.1, heach'.1⟩, ih heach.2 heach'.2⟩

@[simp]
theorem run_append (M : Machine σ ε) (s : σ) (es fs : List ε) :
    M.run s (es ++ fs) = M.run (M.run s es) fs := by
  induction es generalizing s with
  | nil => rfl
  | cons e es ih => exact ih (M.step s e)

theorem admissible_append {M : Machine σ ε} {s : σ} {es fs : List ε} :
    M.Admissible s (es ++ fs) ↔
      M.Admissible s es ∧ M.Admissible (M.run s es) fs := by
  induction es generalizing s with
  | nil => simp [Admissible, Each]
  | cons e es ih =>
      have hrest := ih (s := M.step s e)
      simp only [Admissible, List.cons_append, Each, run_cons, and_assoc] at hrest ⊢
      rw [hrest]

theorem admissible_concat {M : Machine σ ε} {s : σ} {es : List ε} {e : ε} :
    M.Admissible s (es ++ [e]) ↔
      M.Admissible s es ∧ M.enabled (M.run s es) e := by
  rw [admissible_append]
  exact and_congr_right fun _ => and_iff_left trivial

theorem each_of_forall {M : Machine σ ε} {guard : σ → ε → Prop} {s : σ}
    {es : List ε} (hall : ∀ e ∈ es, ∀ s, guard s e) : M.Each guard s es := by
  induction es generalizing s with
  | nil => trivial
  | cons e es ih =>
      refine ⟨hall e List.mem_cons_self s, ih ?_⟩
      intro e' he'
      exact hall e' (List.mem_cons_of_mem e he')

theorem Always.head {M : Machine σ ε} {P : σ → Prop} {s : σ} {es : List ε}
    (halways : M.Always P s es) : P s := by
  cases es with
  | nil => exact halways
  | cons e es => exact halways.1

/-- `Always` is the statement about every prefix of the run. -/
theorem always_iff_forall_prefix (M : Machine σ ε) (P : σ → Prop) (s : σ)
    (es : List ε) :
    M.Always P s es ↔ ∀ fs, fs <+: es → P (M.run s fs) := by
  induction es generalizing s with
  | nil => simp [Always]
  | cons e es ih =>
      simp only [Always, ih]
      constructor
      · rintro ⟨hnow, hlater⟩ fs hfs
        cases fs with
        | nil => exact hnow
        | cons f fs =>
            obtain ⟨rfl, htail⟩ := List.cons_prefix_cons.mp hfs
            exact hlater fs htail
      · intro hall
        refine ⟨hall [] List.nil_prefix, fun fs hfs => ?_⟩
        exact hall (e :: fs) (List.cons_prefix_cons.mpr ⟨rfl, hfs⟩)

theorem run_of_step {M : Machine σ ε} {Inv : σ → Prop}
    (hstep : ∀ s e, Inv s → M.enabled s e → Inv (M.step s e))
    {s : σ} {es : List ε} (hinit : Inv s) (hadm : M.Admissible s es) :
    Inv (M.run s es) := by
  induction es generalizing s with
  | nil => exact hinit
  | cons e es ih => exact ih (hstep s e hinit hadm.1) hadm.2

/-- Invariant rule for runs whose steps meet a further condition. -/
theorem always_of_guarded {M : Machine σ ε} {Inv : σ → Prop}
    {guard : σ → ε → Prop}
    (hstep : ∀ s e, Inv s → M.enabled s e → guard s e → Inv (M.step s e))
    {s : σ} {es : List ε} (hinit : Inv s) (hadm : M.Admissible s es)
    (hguard : M.Each guard s es) : M.Always Inv s es := by
  induction es generalizing s with
  | nil => exact hinit
  | cons e es ih =>
      exact ⟨hinit, ih (hstep s e hinit hadm.1 hguard.1) hadm.2 hguard.2⟩

theorem Always.imp {M : Machine σ ε} {P Q : σ → Prop} (himp : ∀ s, P s → Q s)
    {s : σ} {es : List ε} (halways : M.Always P s es) : M.Always Q s es := by
  induction es generalizing s with
  | nil => exact himp s halways
  | cons e es ih => exact ⟨himp s halways.1, ih halways.2⟩

/-- Exactness rule: if steps under the guard keep `P` and every other step
breaks it at once, the guard is the exact condition for `P` along a run. -/
theorem always_iff_each {M : Machine σ ε} {Inv P : σ → Prop}
    {guard : σ → ε → Prop}
    (hinv : ∀ s e, Inv s → M.enabled s e → Inv (M.step s e))
    (hkeep : ∀ s e, Inv s → P s → M.enabled s e → guard s e → P (M.step s e))
    (hbreak : ∀ s e, Inv s → P s → M.enabled s e → ¬ guard s e →
      ¬ P (M.step s e))
    {s : σ} {es : List ε} (hs : Inv s) (hP : P s) (hadm : M.Admissible s es) :
    M.Always P s es ↔ M.Each guard s es := by
  induction es generalizing s with
  | nil => exact ⟨fun _ => trivial, fun _ => hP⟩
  | cons e es ih =>
      by_cases hguard : guard s e
      · have hnext := ih (hinv s e hs hadm.1)
          (hkeep s e hs hP hadm.1 hguard) hadm.2
        exact ⟨fun halways => ⟨hguard, hnext.mp halways.2⟩,
          fun heach => ⟨hP, hnext.mpr heach.2⟩⟩
      · have hbroken := hbreak s e hs hP hadm.1 hguard
        exact ⟨fun halways => absurd halways.2.head hbroken,
          fun heach => absurd heach.1 hguard⟩

/-- What a run shows, step by step. -/
def trace {ω : Type w} (M : Machine σ ε) (obs : σ → ε → List ω) :
    σ → List ε → List ω
  | _, [] => []
  | s, e :: es => obs s e ++ M.trace obs (M.step s e) es

/-- What a longer run shows starts with what the shorter one has shown. -/
theorem trace_prefix {ω : Type w} {M : Machine σ ε} {obs : σ → ε → List ω} {s : σ}
    {fs es : List ε} (hstart : fs <+: es) :
    M.trace obs s fs <+: M.trace obs s es := by
  induction fs generalizing s es with
  | nil => exact List.nil_prefix
  | cons f fs ih =>
      obtain ⟨rest, rfl⟩ := hstart
      exact (List.prefix_append_right_inj _).mpr (ih (List.prefix_append fs rest))

/-- What each step shows of a part the run shows of it, in order. -/
theorem trace_sublist {ω : Type w} {M : Machine σ ε} {obs obs' : σ → ε → List ω}
    (hstep : ∀ s e, (obs s e).Sublist (obs' s e)) {s : σ} {es : List ε} :
    (M.trace obs s es).Sublist (M.trace obs' s es) := by
  induction es generalizing s with
  | nil => exact List.Sublist.refl _
  | cons e es ih => exact (hstep s e).append ih

/-- What the events alone show. -/
theorem trace_of_event {ω : Type w} {M : Machine σ ε} (f : ε → Option ω) (s : σ)
    (es : List ε) : M.trace (fun _ e => (f e).toList) s es = es.filterMap f := by
  induction es generalizing s with
  | nil => rfl
  | cons e es ih => cases hshown : f e <;> simp [trace, ih, hshown]

theorem trace_map {ω : Type w} {τ : Type w'} {M : Machine σ ε}
    {obs : σ → ε → List ω} {f : ω → τ} {s : σ} {es : List ε} :
    M.trace (fun s e => (obs s e).map f) s es = (M.trace obs s es).map f := by
  induction es generalizing s with
  | nil => rfl
  | cons e es ih => rw [trace, trace, List.map_append, ih]

theorem trace_append {ω : Type w} (M : Machine σ ε) (obs : σ → ε → List ω) (s : σ)
    (es fs : List ε) :
    M.trace obs s (es ++ fs) = M.trace obs s es ++ M.trace obs (M.run s es) fs := by
  induction es generalizing s with
  | nil => rfl
  | cons e es ih => rw [List.cons_append, trace, trace, ih, List.append_assoc, run_cons]

/-- A run shows no more than what it is measured by, step by step. -/
theorem length_trace_le {ω : Type w} {τ : Type w'} {M : Machine σ ε}
    {obs : σ → ε → List ω} {obs' : σ → ε → List τ}
    (hstep : ∀ s e, (obs s e).length ≤ (obs' s e).length) (s : σ) (es : List ε) :
    (M.trace obs s es).length ≤ (M.trace obs' s es).length := by
  induction es generalizing s with
  | nil => exact Nat.le_refl _
  | cons e es ih =>
      rw [trace, trace, List.length_append, List.length_append]
      exact Nat.add_le_add (hstep s e) (ih (M.step s e))

/-- A guard on what each step shows is one on what the run shows. -/
theorem each_iff_forall_trace {ω : Type w} {M : Machine σ ε}
    {obs : σ → ε → List ω} {Q : ω → Prop} {s : σ} {es : List ε} :
    M.Each (fun s e => ∀ shown ∈ obs s e, Q shown) s es ↔
      ∀ shown ∈ M.trace obs s es, Q shown := by
  induction es generalizing s with
  | nil => simp [Each, trace]
  | cons e es ih => rw [Each, trace, List.forall_mem_append, ih]

/-- Conservation rule: if in each step what comes in and what is held before is
what goes out and what is held after, then so it is over the run. -/
theorem conserved_run {ω : Type w} {M : Machine σ ε} {comes goes : σ → ε → List ω}
    {held : σ → List ω} {Inv : σ → Prop}
    (hinv : ∀ s e, Inv s → M.enabled s e → Inv (M.step s e))
    (hstep : ∀ s e, Inv s → M.enabled s e →
      (comes s e ++ held s).Perm (goes s e ++ held (M.step s e)))
    {s : σ} {es : List ε} (hinit : Inv s) (hadm : M.Admissible s es) :
    (M.trace comes s es ++ held s).Perm
      (M.trace goes s es ++ held (M.run s es)) := by
  induction es generalizing s with
  | nil => exact List.Perm.refl _
  | cons e es ih =>
      have hnow := hstep s e hinit hadm.1
      have hlater := ih (hinv s e hinit hadm.1) hadm.2
      rw [trace, trace, run_cons]
      generalize M.trace comes (M.step s e) es = later at hlater ⊢
      have hfirst : ((comes s e ++ later) ++ held s).Perm
          (later ++ (comes s e ++ held s)) := by
        rw [← List.append_assoc]
        exact List.perm_append_comm.append_right (held s)
      have hswap : (later ++ (goes s e ++ held (M.step s e))).Perm
          (goes s e ++ (later ++ held (M.step s e))) := by
        rw [← List.append_assoc, ← List.append_assoc]
        exact List.perm_append_comm.append_right _
      rw [List.append_assoc (goes s e)]
      exact ((hfirst.trans (hnow.append_left later)).trans hswap).trans
        (hlater.append_left (goes s e))

/-- Matching rule: if what each step shows is matched, item by item and in
order, with some of what the step gives, and a match once made lasts, then so it
is over the run. -/
theorem matched_run {α : Type w} {β : Type w'} {M : Machine σ ε}
    {shown : σ → ε → List α} {given : σ → ε → List β} {R : σ → α → β → Prop}
    {Inv : σ → Prop}
    (hinv : ∀ s e, Inv s → M.enabled s e → Inv (M.step s e))
    (hlast : ∀ s e a b, R s a b → R (M.step s e) a b)
    (hstep : ∀ s e, Inv s → M.enabled s e → ∃ matched, matched.Sublist (given s e) ∧
      List.Forall₂ (R (M.step s e)) (shown s e) matched)
    {s : σ} {es : List ε} (hinit : Inv s) (hadm : M.Admissible s es) :
    ∃ matched, matched.Sublist (M.trace given s es) ∧
      List.Forall₂ (R (M.run s es)) (M.trace shown s es) matched := by
  have hlasts : ∀ (es : List ε) s a b, R s a b → R (M.run s es) a b := by
    intro es
    induction es with
    | nil => exact fun _ _ _ hR => hR
    | cons e es ih => exact fun s a b hR => ih _ a b (hlast s e a b hR)
  induction es generalizing s with
  | nil => exact ⟨[], List.nil_sublist _, List.Forall₂.nil⟩
  | cons e es ih =>
      obtain ⟨now, hnow, hfirst⟩ := hstep s e hinit hadm.1
      obtain ⟨later, hlater, hrest⟩ := ih (hinv s e hinit hadm.1) hadm.2
      have hkept := hfirst.imp (hlasts es (M.step s e))
      exact ⟨now ++ later, hnow.append hlater, List.rel_append hkept hrest⟩

/-- Measure rule: where some events lower a measure and none raises it, they
happen no more often than it allows. -/
theorem countP_le_of_measure {M : Machine σ ε} {guard : σ → ε → Prop}
    (Inv : σ → Prop) (measure : σ → Nat) (lowers : ε → Bool)
    (hstep : ∀ s e, Inv s → guard s e → Inv (M.step s e) ∧
      (lowers e).toNat + measure (M.step s e) ≤ measure s)
    {s : σ} {es : List ε} (hinit : Inv s) (heach : M.Each guard s es) :
    es.countP lowers + measure (M.run s es) ≤ measure s := by
  induction es generalizing s with
  | nil => simp
  | cons e es ih =>
      obtain ⟨hinv, hfirst⟩ := hstep s e hinit heach.1
      have hrest := ih hinv heach.2
      rw [List.countP_cons, run_cons]
      cases hlowers : lowers e
      · rw [hlowers] at hfirst
        simp only [Bool.toNat_false] at hfirst
        simp only [Bool.false_eq_true, if_false]
        omega
      · rw [hlowers] at hfirst
        simp only [Bool.toNat_true] at hfirst
        simp only [if_true]
        omega

/-- History rule: what each step keeps between the state and what has been
shown, the run keeps. -/
theorem inv_run_trace {ω : Type w} {M : Machine σ ε} {obs : σ → ε → List ω}
    {Inv : σ → List ω → Prop}
    (hstep : ∀ s shown e, Inv s shown → M.enabled s e →
      Inv (M.step s e) (shown ++ obs s e))
    {s : σ} {shown : List ω} {es : List ε} (hinit : Inv s shown)
    (hadm : M.Admissible s es) :
    Inv (M.run s es) (shown ++ M.trace obs s es) := by
  induction es generalizing s shown with
  | nil =>
      rw [trace, List.append_nil]
      exact hinit
  | cons e es ih =>
      rw [run_cons, trace, ← List.append_assoc]
      exact ih (hstep s shown e hinit hadm.1) hadm.2

/-- Projection rule: if each step folds what it shows into a part of the state,
the run folds its trace into it. -/
theorem project_run {τ : Type w} {ω : Type w'} {M : Machine σ ε}
    {obs : σ → ε → List ω} {project : σ → τ} {fold : τ → ω → τ}
    (hstep : ∀ s e, project (M.step s e) = (obs s e).foldl fold (project s))
    (s : σ) (es : List ε) :
    project (M.run s es) = (M.trace obs s es).foldl fold (project s) := by
  induction es generalizing s with
  | nil => rfl
  | cons e es ih => rw [run_cons, ih, hstep, trace, List.foldl_append]

/-- Refinement rule: if each step is, seen through `view`, a run of another
machine, then so is every run. -/
theorem run_refines {τ : Type w} {δ : Type w'} {M : Machine σ ε} {N : Machine τ δ}
    {view : σ → τ} {image : σ → ε → List δ} {Inv : σ → Prop}
    (hinv : ∀ s e, Inv s → M.enabled s e → Inv (M.step s e))
    (hstep : ∀ s e, Inv s → M.enabled s e →
      N.Admissible (view s) (image s e) ∧
        N.run (view s) (image s e) = view (M.step s e))
    {s : σ} {es : List ε} (hinit : Inv s) (hadm : M.Admissible s es) :
    N.Admissible (view s) (M.trace image s es) ∧
      N.run (view s) (M.trace image s es) = view (M.run s es) := by
  induction es generalizing s with
  | nil => exact ⟨trivial, rfl⟩
  | cons e es ih =>
      obtain ⟨hfirst, hnext⟩ := hstep s e hinit hadm.1
      obtain ⟨hrest, hlast⟩ := ih (hinv s e hinit hadm.1) hadm.2
      rw [trace, admissible_append, run_append, hnext]
      exact ⟨⟨hfirst, hrest⟩, hlast⟩

/-- What the other machine shows of each step it then shows of the run. -/
theorem trace_refines {τ : Type w} {δ : Type w'} {ω : Type w''} {M : Machine σ ε}
    {N : Machine τ δ} {view : σ → τ} {image : σ → ε → List δ} {Inv : σ → Prop}
    {obs : τ → δ → List ω} {obs' : σ → ε → List ω}
    (hinv : ∀ s e, Inv s → M.enabled s e → Inv (M.step s e))
    (hstep : ∀ s e, Inv s → M.enabled s e →
      N.run (view s) (image s e) = view (M.step s e))
    (hshown : ∀ s e, Inv s → M.enabled s e →
      N.trace obs (view s) (image s e) = obs' s e)
    {s : σ} {es : List ε} (hinit : Inv s) (hadm : M.Admissible s es) :
    N.trace obs (view s) (M.trace image s es) = M.trace obs' s es := by
  induction es generalizing s with
  | nil => rfl
  | cons e es ih =>
      have hrest := ih (hinv s e hinit hadm.1) hadm.2
      rw [trace, trace_append, hshown s e hinit hadm.1, hstep s e hinit hadm.1, hrest]
      rfl

/-- The machine with a record of what its run has shown. -/
def recording {ω : Type w} (M : Machine σ ε) (obs : σ → ε → List ω) :
    Machine (σ × List ω) ε where
  enabled s e := M.enabled s.1 e
  step s e := (M.step s.1 e, s.2 ++ obs s.1 e)

/-- Guard rule: what every step keeps, and what follows from it for the step
that comes next. -/
theorem each_of_inv {M : Machine σ ε} {Inv : σ → Prop} {guard : σ → ε → Prop}
    (hstep : ∀ s e, Inv s → M.enabled s e → Inv (M.step s e))
    (hguard : ∀ s e, Inv s → M.enabled s e → guard s e)
    {s : σ} {es : List ε} (hinit : Inv s) (hadm : M.Admissible s es) :
    M.Each guard s es := by
  induction es generalizing s with
  | nil => trivial
  | cons e es ih =>
      exact ⟨hguard s e hinit hadm.1, ih (hstep s e hinit hadm.1) hadm.2⟩

/-- Two-run rule: two machines read the same inputs, each its own part of them.
If `R` ties their states together, keeps doing so under the guard, and makes
each step show the same, then the runs show the same.  The guard may depend on
a third machine, which keeps account of the inputs. -/
theorem trace_eq_of_related {ι : Type w} {γ : Type w'} {ω : Type w''}
    {M : Machine σ ε} {obs : σ → ε → List ω} {G : Machine γ ι}
    {guard : γ → ι → Prop} {left right : ι → Option ε} {R : γ → σ → σ → Prop}
    (hstep : ∀ g s t i, R g s t → guard g i →
      (left i).elim [] (obs s) = (right i).elim [] (obs t) ∧
        R (G.step g i) ((left i).elim s (M.step s)) ((right i).elim t (M.step t)))
    {g : γ} {s t : σ} {is : List ι} (hR : R g s t)
    (hguard : G.Each guard g is) :
    M.trace obs s (is.filterMap left) = M.trace obs t (is.filterMap right) := by
  induction is generalizing g s t with
  | nil => rfl
  | cons i is ih =>
      have hsplit : ∀ (part : ι → Option ε) (s : σ),
          M.trace obs s ((i :: is).filterMap part) =
            (part i).elim [] (obs s) ++
              M.trace obs ((part i).elim s (M.step s)) (is.filterMap part) := by
        intro part s
        cases hpart : part i <;> simp [hpart, trace]
      obtain ⟨hshown, hnext⟩ := hstep g s t i hR hguard.1
      rw [hsplit left s, hsplit right t, hshown, ih hnext hguard.2]

end Machine

end FlzChat
