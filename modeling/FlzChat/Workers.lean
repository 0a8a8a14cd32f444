/-
Jobs on executors with any number of worker threads.  An executor starts its
jobs in the order they were handed over; the jobs that run interleave operation
by operation, and each may take any length of time.
-/
import Mathlib.Data.List.Basic
import Mathlib.Logic.Function.Basic

namespace FlzChat

universe u v w x

/-- What a job does next: something visible, handing a callback to an executor,
or something that depends on the state it is done in. -/
inductive Op (κ : Type u) (β : Type v) (ω : Type w) where
  | emit (shown : ω)
  | handOver (executor : κ) (todo : List ω)
  | call (request : β)

/-- The operations a request is replaced by. -/
def Op.next {κ : Type u} {β : Type v} {ω : Type w} (answer : β → List (Op κ β ω)) :
    Op κ β ω → List (Op κ β ω)
  | call request => answer request
  | _ => []

/-- The rest of a job.  A callback has the executor it was handed to as its
`place`; `origin` is what it is done for. -/
structure Job (κ : Type u) (β : Type v) (ω : Type w) (τ : Type x) where
  origin : τ
  place : Option κ := none
  todo : List (Op κ β ω)

/-- A callback emits what it was handed over with. -/
def Job.callback {κ : Type u} {β : Type v} {ω : Type w} {τ : Type x}
    (origin : τ) (executor : κ) (todo : List ω) : Job κ β ω τ :=
  ⟨origin, some executor, todo.map .emit⟩

/-- Finished jobs stay among those that run, with nothing left to do. -/
structure Workers (κ : Type u) (β : Type v) (ω : Type w) (τ : Type x) where
  queue : κ → List (Job κ β ω τ) := fun _ => []
  running : List (Job κ β ω τ) := []
  shown : List (τ × ω) := []

namespace Workers

variable {κ : Type u} {β : Type v} {ω : Type w} {τ : Type x}

/-- Run a job on a thread of its own. -/
def launch (job : Job κ β ω τ) (w : Workers κ β ω τ) : Workers κ β ω τ :=
  { w with running := w.running ++ [job] }

/-- Let a job that runs go on with other operations. -/
def goOn (i : Nat) (job : Job κ β ω τ) (todo : List (Op κ β ω))
    (w : Workers κ β ω τ) : Workers κ β ω τ :=
  { w with running := w.running.set i { job with todo := todo } }

variable [DecidableEq κ]

/-- Hand a job to an executor. -/
def submit (executor : κ) (job : Job κ β ω τ) (w : Workers κ β ω τ) :
    Workers κ β ω τ :=
  { w with
    queue := Function.update w.queue executor (w.queue executor ++ [job]) }

/-- The executor starts the next of its jobs. -/
def start (executor : κ) (w : Workers κ β ω τ) : Workers κ β ω τ :=
  match w.queue executor with
  | [] => w
  | job :: rest =>
      { w with queue := Function.update w.queue executor rest }.launch job

/-- A job that runs does its next operation; `answer` is what the state makes of
a request. -/
def advance (answer : β → List (Op κ β ω)) (i : Nat) (w : Workers κ β ω τ) :
    Workers κ β ω τ :=
  match w.running[i]? with
  | none => w
  | some job =>
      match job.todo with
      | [] => w
      | op :: rest =>
          let w := w.goOn i job (op.next answer ++ rest)
          match op with
          | .emit shown => { w with shown := w.shown ++ [(job.origin, shown)] }
          | .handOver executor todo =>
              w.submit executor (.callback job.origin executor todo)
          | .call _ => w

/-- What a step of a job that runs can be. -/
theorem advance_cases (answer : β → List (Op κ β ω)) (i : Nat)
    (w : Workers κ β ω τ) :
    w.advance answer i = w ∨
      ∃ job op rest, w.running[i]? = some job ∧ job.todo = op :: rest ∧
        w.advance answer i =
          let w := w.goOn i job (op.next answer ++ rest)
          match op with
          | .emit shown => { w with shown := w.shown ++ [(job.origin, shown)] }
          | .handOver executor todo =>
              w.submit executor (.callback job.origin executor todo)
          | .call _ => w := by
  rw [advance]
  cases hjob : w.running[i]? with
  | none => exact Or.inl rfl
  | some job =>
      cases htodo : job.todo with
      | nil => exact Or.inl (by simp only [htodo])
      | cons op rest =>
          exact Or.inr ⟨job, op, rest, rfl, htodo, by simp only [htodo]⟩

/-- The first job of the queue runs, the others wait on. -/
theorem running_start (executor : κ) (w : Workers κ β ω τ) :
    (w.start executor).running =
      w.running ++ (w.queue executor).head?.toList := by
  rw [start]
  cases w.queue executor with
  | nil => exact (List.append_nil _).symm
  | cons job rest => rfl

theorem queue_start (executor k : κ) (w : Workers κ β ω τ) :
    (w.start executor).queue k =
      if k = executor then (w.queue k).tail else w.queue k := by
  rw [start]
  split_ifs with hk
  · subst hk
    cases hqueue : w.queue k with
    | nil => exact hqueue
    | cons job rest => simp only [launch, Function.update_self, List.tail_cons]
  · cases w.queue executor with
    | nil => rfl
    | cons job rest => simp only [launch, Function.update_of_ne hk]

@[simp]
theorem shown_start (executor : κ) (w : Workers κ β ω τ) :
    (w.start executor).shown = w.shown := by
  rw [start]
  cases w.queue executor <;> rfl

/-! What holds of every job. -/

/-- The job waits or runs. -/
def Has (w : Workers κ β ω τ) (job : Job κ β ω τ) : Prop :=
  job ∈ w.running ∨ ∃ executor, job ∈ w.queue executor

omit [DecidableEq κ] in
theorem not_has_empty (job : Job κ β ω τ) : ¬ ({} : Workers κ β ω τ).Has job := by
  rintro (hrunning | ⟨executor, hqueued⟩)
  · exact List.not_mem_nil hrunning
  · exact List.not_mem_nil hqueued

omit [DecidableEq κ] in
theorem Has.of_launch {job other : Job κ β ω τ} {w : Workers κ β ω τ}
    (hhas : (w.launch job).Has other) : other = job ∨ w.Has other := by
  rcases hhas with hrunning | hqueued
  · rcases List.mem_append.mp hrunning with hold | hnew
    · exact Or.inr (Or.inl hold)
    · exact Or.inl (List.mem_singleton.mp hnew)
  · exact Or.inr (Or.inr hqueued)

omit [DecidableEq κ] in
theorem Has.of_goOn {job other : Job κ β ω τ} {todo : List (Op κ β ω)} {i : Nat}
    {w : Workers κ β ω τ} (hhas : (w.goOn i job todo).Has other) :
    other = { job with todo := todo } ∨ w.Has other := by
  rcases hhas with hrunning | hqueued
  · rcases List.mem_or_eq_of_mem_set hrunning with hold | hnew
    · exact Or.inr (Or.inl hold)
    · exact Or.inl hnew
  · exact Or.inr (Or.inr hqueued)

omit [DecidableEq κ] in
theorem has_launch (job : Job κ β ω τ) (w : Workers κ β ω τ) :
    (w.launch job).Has job :=
  Or.inl (List.mem_append_right _ (List.mem_singleton.mpr rfl))

omit [DecidableEq κ] in
theorem Has.launch {other : Job κ β ω τ} {w : Workers κ β ω τ}
    (hhas : w.Has other) (job : Job κ β ω τ) : (w.launch job).Has other :=
  hhas.imp_left (List.mem_append_left _)

theorem mem_queue_submit {job other : Job κ β ω τ} {executor k : κ}
    {w : Workers κ β ω τ} :
    other ∈ (w.submit executor job).queue k ↔
      other ∈ w.queue k ∨ k = executor ∧ other = job := by
  by_cases hk : k = executor
  · subst hk
    simp [submit]
  · simp [submit, hk]

theorem has_submit (executor : κ) (job : Job κ β ω τ) (w : Workers κ β ω τ) :
    (w.submit executor job).Has job :=
  Or.inr ⟨executor, mem_queue_submit.mpr (Or.inr ⟨rfl, rfl⟩)⟩

theorem Has.submit {other : Job κ β ω τ} {w : Workers κ β ω τ}
    (hhas : w.Has other) (executor : κ) (job : Job κ β ω τ) :
    (w.submit executor job).Has other :=
  hhas.imp_right fun ⟨k, hqueued⟩ => ⟨k, mem_queue_submit.mpr (Or.inl hqueued)⟩

theorem Has.of_submit {job other : Job κ β ω τ} {executor : κ}
    {w : Workers κ β ω τ} (hhas : (w.submit executor job).Has other) :
    other = job ∨ w.Has other := by
  rcases hhas with hrunning | ⟨k, hqueued⟩
  · exact Or.inr (Or.inl hrunning)
  · rcases mem_queue_submit.mp hqueued with hold | ⟨_, hnew⟩
    · exact Or.inr (Or.inr ⟨k, hold⟩)
    · exact Or.inl hnew

theorem mem_running_start {executor : κ} {job : Job κ β ω τ}
    {w : Workers κ β ω τ} :
    job ∈ (w.start executor).running ↔
      job ∈ w.running ∨ job ∈ (w.queue executor).head? := by
  rw [running_start, List.mem_append, Option.mem_toList, Option.mem_def]

theorem mem_queue_start {executor k : κ} {job : Job κ β ω τ}
    {w : Workers κ β ω τ} (hjob : job ∈ (w.start executor).queue k) :
    job ∈ w.queue k := by
  rw [queue_start] at hjob
  split_ifs at hjob
  · exact List.mem_of_mem_tail hjob
  · exact hjob

/-- Starting a job adds none. -/
theorem Has.of_start {executor : κ} {job : Job κ β ω τ} {w : Workers κ β ω τ}
    (hhas : (w.start executor).Has job) : w.Has job := by
  rcases hhas with hrunning | ⟨k, hqueued⟩
  · rcases mem_running_start.mp hrunning with hold | hhead
    · exact Or.inl hold
    · exact Or.inr ⟨executor, List.mem_of_mem_head? hhead⟩
  · exact Or.inr ⟨k, mem_queue_start hqueued⟩

/-- Starting a job loses none. -/
theorem Has.start {job : Job κ β ω τ} {w : Workers κ β ω τ} (hhas : w.Has job)
    (executor : κ) : (w.start executor).Has job := by
  rcases hhas with hrunning | ⟨k, hqueued⟩
  · exact Or.inl (mem_running_start.mpr (Or.inl hrunning))
  · by_cases hk : k = executor
    · subst hk
      obtain ⟨next, rest, hqueue⟩ :=
        List.exists_cons_of_ne_nil (List.ne_nil_of_mem hqueued)
      rw [hqueue] at hqueued
      rcases List.mem_cons.mp hqueued with rfl | hrest
      · left
        apply mem_running_start.mpr
        right
        rw [hqueue]
        rfl
      · refine Or.inr ⟨k, ?_⟩
        rw [queue_start, if_pos rfl, hqueue]
        exact hrest
    · refine Or.inr ⟨k, ?_⟩
      rw [queue_start, if_neg hk]
      exact hqueued

/-- What runs after a step: the other jobs and the rest of the one that made
it. -/
theorem mem_running_advance {answer : β → List (Op κ β ω)} {i : Nat}
    {job : Job κ β ω τ} {w : Workers κ β ω τ}
    (hjob : job ∈ (w.advance answer i).running) :
    job ∈ w.running ∨ ∃ next op rest, w.running[i]? = some next ∧
      next.todo = op :: rest ∧
      job = { next with todo := op.next answer ++ rest } := by
  rcases advance_cases answer i w with hsame | ⟨next, op, rest, hnext, htodo, hadvance⟩
  · rw [hsame] at hjob
    exact Or.inl hjob
  · have hset : job ∈ (w.goOn i next (op.next answer ++ rest)).running := by
      rw [hadvance] at hjob
      cases op <;> exact hjob
    rcases List.mem_or_eq_of_mem_set hset with hold | hnew
    · exact Or.inl hold
    · exact Or.inr ⟨next, op, rest, hnext, htodo, hnew⟩

/-- What waits after a step: what did, and a callback it may have handed over. -/
theorem mem_queue_advance {answer : β → List (Op κ β ω)} {i : Nat} {k : κ}
    {job : Job κ β ω τ} {w : Workers κ β ω τ}
    (hjob : job ∈ (w.advance answer i).queue k) :
    job ∈ w.queue k ∨ ∃ next todo rest, w.running[i]? = some next ∧
      next.todo = .handOver k todo :: rest ∧
      job = .callback next.origin k todo := by
  rcases advance_cases answer i w with hsame | ⟨next, op, rest, hnext, htodo, hadvance⟩
  · rw [hsame] at hjob
    exact Or.inl hjob
  · rw [hadvance] at hjob
    cases op with
    | emit shown => exact Or.inl hjob
    | call request => exact Or.inl hjob
    | handOver executor todo =>
        rcases mem_queue_submit.mp hjob with hold | ⟨rfl, rfl⟩
        · exact Or.inl hold
        · exact Or.inr ⟨next, todo, rest, hnext, htodo, rfl⟩

/-- After a step there are the other jobs, the rest of the one that made it and
the callback it may have handed over. -/
theorem Has.of_advance {answer : β → List (Op κ β ω)} {i : Nat}
    {job : Job κ β ω τ} {w : Workers κ β ω τ}
    (hhas : (w.advance answer i).Has job) :
    w.Has job ∨ ∃ next op rest, w.running[i]? = some next ∧
      next.todo = op :: rest ∧
      (job = { next with todo := op.next answer ++ rest } ∨
        ∃ executor todo, op = .handOver executor todo ∧
          job = .callback next.origin executor todo) := by
  rcases hhas with hrunning | ⟨k, hqueued⟩
  · rcases mem_running_advance hrunning with hold | ⟨next, op, rest, hnext, htodo, hrest⟩
    · exact Or.inl (Or.inl hold)
    · exact Or.inr ⟨next, op, rest, hnext, htodo, Or.inl hrest⟩
  · rcases mem_queue_advance hqueued with hold | ⟨next, todo, rest, hnext, htodo, hnew⟩
    · exact Or.inl (Or.inr ⟨k, hold⟩)
    · exact Or.inr ⟨next, _, rest, hnext, htodo, Or.inr ⟨k, todo, rfl, hnew⟩⟩

/-- A step loses no job, it only shortens one. -/
theorem Has.advance {job : Job κ β ω τ} {w : Workers κ β ω τ} (hhas : w.Has job)
    (answer : β → List (Op κ β ω)) (i : Nat) :
    ∃ later, (w.advance answer i).Has later ∧ later.origin = job.origin ∧
      later.place = job.place := by
  rcases advance_cases answer i w with hsame | ⟨next, op, rest, hnext, htodo, hadvance⟩
  · exact ⟨job, by rwa [hsame], rfl, rfl⟩
  · have hgoOn : ∃ later, (w.goOn i next (op.next answer ++ rest)).Has later ∧
        later.origin = job.origin ∧ later.place = job.place := by
      rcases hhas with hrunning | hqueued
      · obtain ⟨j, hj⟩ := List.getElem?_of_mem hrunning
        by_cases hij : i = j
        · subst hij
          obtain rfl : next = job := Option.some.inj (hnext.symm.trans hj)
          have hi := (List.getElem?_eq_some_iff.mp hnext).1
          exact ⟨_, Or.inl (List.mem_set hi _), rfl, rfl⟩
        · refine ⟨job, Or.inl ?_, rfl, rfl⟩
          apply List.mem_of_getElem?
          rw [goOn, List.getElem?_set_ne hij]
          exact hj
      · exact ⟨job, Or.inr hqueued, rfl, rfl⟩
    obtain ⟨later, hlater, hsame⟩ := hgoOn
    refine ⟨later, ?_, hsame⟩
    rw [hadvance]
    cases op with
    | emit shown => exact hlater
    | call request => exact hlater
    | handOver executor todo => exact hlater.submit executor _

/-- Every operation that is left satisfies `q`, which may look at where it will
be done. -/
def EachOp (q : Option κ → Op κ β ω → Prop) (w : Workers κ β ω τ) : Prop :=
  ∀ job, w.Has job → ∀ op ∈ job.todo, q job.place op

section

variable {q : Option κ → Op κ β ω → Prop} {w : Workers κ β ω τ}

omit [DecidableEq κ] in
theorem EachOp.launch (heach : w.EachOp q) {job : Job κ β ω τ}
    (hjob : ∀ op ∈ job.todo, q job.place op) : (w.launch job).EachOp q := by
  intro other hhas
  rcases hhas.of_launch with rfl | hold
  · exact hjob
  · exact heach other hold

theorem EachOp.submit (heach : w.EachOp q) {job : Job κ β ω τ}
    (hjob : ∀ op ∈ job.todo, q job.place op) (executor : κ) :
    (w.submit executor job).EachOp q := by
  intro other hhas
  rcases hhas.of_submit with rfl | hold
  · exact hjob
  · exact heach other hold

theorem EachOp.start (heach : w.EachOp q) (executor : κ) :
    (w.start executor).EachOp q :=
  fun job hhas => heach job hhas.of_start

/-- A step keeps what holds of every operation if requests are answered with
such operations and callbacks are made of them. -/
theorem EachOp.advance (heach : w.EachOp q) {answer : β → List (Op κ β ω)}
    {i : Nat}
    (hcall : ∀ job request rest, w.running[i]? = some job →
      job.todo = .call request :: rest → ∀ op ∈ answer request, q job.place op)
    (hcallback : ∀ place executor todo, q place (.handOver executor todo) →
      ∀ shown ∈ todo, q (some executor) (.emit shown)) :
    (w.advance answer i).EachOp q := by
  intro job hhas
  rcases hhas.of_advance with hold | ⟨next, op, rest, hnext, htodo, hnew⟩
  · exact heach job hold
  · have hnextOps := heach next (Or.inl (List.mem_of_getElem? hnext))
    rw [htodo] at hnextOps
    rcases hnew with rfl | ⟨executor, todo, rfl, rfl⟩
    · intro later hlater
      rcases List.mem_append.mp hlater with hanswer | hrest
      · cases op with
        | call request => exact hcall next request rest hnext htodo later hanswer
        | emit shown => simp [Op.next] at hanswer
        | handOver executor todo => simp [Op.next] at hanswer
      · exact hnextOps later (List.mem_cons_of_mem op hrest)
    · intro later hlater
      obtain ⟨shown, hshown, rfl⟩ := List.mem_map.mp hlater
      exact hcallback next.place executor todo (hnextOps _ List.mem_cons_self) shown
        hshown

end

/-- What is shown after a step: what was, and what the step emits. -/
theorem shown_advance (answer : β → List (Op κ β ω)) (i : Nat)
    (w : Workers κ β ω τ) :
    (w.advance answer i).shown = w.shown ∨
      ∃ job shown rest, w.running[i]? = some job ∧
        job.todo = .emit shown :: rest ∧
        (w.advance answer i).shown = w.shown ++ [(job.origin, shown)] := by
  rcases advance_cases answer i w with hsame | ⟨next, op, rest, hnext, htodo, hadvance⟩
  · exact Or.inl (by rw [hsame])
  · rw [hadvance]
    cases op with
    | emit shown => exact Or.inr ⟨next, shown, rest, hnext, htodo, rfl⟩
    | handOver executor todo => exact Or.inl rfl
    | call request => exact Or.inl rfl

end Workers

end FlzChat
