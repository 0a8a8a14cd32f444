/-
When executors keep an order.  What is shown on a channel comes in the order of
its origins if all callbacks of a channel go to one executor and none is started
while one of an earlier origin has still something to show there.
-/
import FlzChat.Workers
import Mathlib.Order.Lattice

namespace FlzChat

universe u v w x y

variable {κ : Type u} {β : Type v} {ω : Type w} {τ : Type x} {γ : Type y}

/-- A callback that has still something to show on a channel. -/
def Job.Shows (channel : ω → Option γ) (job : Job κ β ω τ) (c : γ) : Prop :=
  job.place ≠ none ∧ ∃ shown, .emit shown ∈ job.todo ∧ c ∈ channel shown

/-- A job shows something on a channel only where the channel is at home, and
callbacks do nothing but show. -/
def Op.AtHome (channel : ω → Option γ) (home : γ → Option κ) (place : Option κ) :
    Op κ β ω → Prop
  | emit shown => ∀ c ∈ channel shown, home c = place
  | handOver executor todo => place = none ∧
      ∀ shown ∈ todo, ∀ c ∈ channel shown, home c = some executor
  | call _ => place = none

namespace Workers

variable [DecidableEq κ] [LinearOrder τ]

/-- Nothing is of a later origin. -/
structure UpTo (w : Workers κ β ω τ) (latest : τ) : Prop where
  shown : ∀ one ∈ w.shown, one.1 ≤ latest
  jobs : ∀ job, w.Has job → job.origin ≤ latest

/-- On every channel the origins of what is shown never decrease. -/
def Ordered (channel : ω → Option γ) (w : Workers κ β ω τ) : Prop :=
  w.shown.Pairwise fun one other =>
    ∀ c ∈ channel one.2, c ∈ channel other.2 → one.1 ≤ other.1

/-- What keeps a run ordered: what is shown, what runs and what waits on a
channel follow each other. -/
structure Fifo (channel : ω → Option γ) (home : γ → Option κ)
    (w : Workers κ β ω τ) : Prop where
  homed : w.EachOp (Op.AtHome channel home)
  placed : ∀ executor, ∀ job ∈ w.queue executor, ∀ place ∈ job.place,
    place = executor
  ordered : w.Ordered channel
  behind : ∀ one ∈ w.shown, ∀ job, w.Has job → ∀ c ∈ channel one.2,
    job.Shows channel c → one.1 ≤ job.origin
  queued : ∀ executor, (w.queue executor).Pairwise fun job later =>
    job.place ≠ none → later.place ≠ none → job.origin ≤ later.origin
  started : ∀ job ∈ w.running, ∀ executor, ∀ later ∈ w.queue executor, ∀ c,
    job.Shows channel c → later.Shows channel c → job.origin ≤ later.origin
  together : ∀ job ∈ w.running, ∀ other ∈ w.running, ∀ c,
    job.Shows channel c → other.Shows channel c → job.origin = other.origin

section

variable {channel : ω → Option γ} {home : γ → Option κ} {w : Workers κ β ω τ}

omit [DecidableEq κ] in
/-- A callback shows on a channel where the channel is at home. -/
theorem Fifo.home_eq (hfifo : w.Fifo channel home) {job : Job κ β ω τ}
    (hhas : w.Has job) {c : γ} (hshows : job.Shows channel c) :
    home c = job.place := by
  obtain ⟨_, shown, hmem, hc⟩ := hshows
  exact hfifo.homed job hhas (.emit shown) hmem c hc

omit [DecidableEq κ] in
/-- Callbacks for one channel wait in one queue. -/
theorem Fifo.executor_eq (hfifo : w.Fifo channel home) {job later : Job κ β ω τ}
    {executor k : κ} (hjob : job ∈ w.queue executor) (hlater : later ∈ w.queue k)
    {c : γ} (hshows : job.Shows channel c) (hshows' : later.Shows channel c) :
    executor = k := by
  have hplaces : job.place = later.place :=
    (hfifo.home_eq (Or.inr ⟨executor, hjob⟩) hshows).symm.trans
      (hfifo.home_eq (Or.inr ⟨k, hlater⟩) hshows')
  obtain ⟨place, hplace⟩ := Option.ne_none_iff_exists'.mp hshows.1
  have hhere : place = executor := hfifo.placed executor job hjob place hplace
  have hthere : place = k :=
    hfifo.placed k later hlater place (hplaces ▸ hplace)
  exact hhere.symm.trans hthere

omit [DecidableEq κ] [LinearOrder τ] in
theorem not_shows_of_place {job : Job κ β ω τ} (hplace : job.place = none)
    (c : γ) : ¬ job.Shows channel c :=
  fun hshows => hshows.1 hplace

omit [DecidableEq κ] in
theorem fifo_empty (channel : ω → Option γ) (home : γ → Option κ) :
    ({} : Workers κ β ω τ).Fifo channel home where
  homed job hhas := absurd hhas (not_has_empty job)
  placed _ _ hjob := absurd hjob List.not_mem_nil
  ordered := List.Pairwise.nil
  behind _ hone := absurd hone List.not_mem_nil
  queued _ := List.Pairwise.nil
  started _ hjob := absurd hjob List.not_mem_nil
  together _ hone := absurd hone List.not_mem_nil

omit [DecidableEq κ] in
/-- A job of its own is launched. -/
theorem fifo_launch (hfifo : w.Fifo channel home) {job : Job κ β ω τ}
    (hplace : job.place = none) (hhome : ∀ op ∈ job.todo, op.AtHome channel home none) :
    (w.launch job).Fifo channel home := by
  have hsilent : ∀ c, ¬ job.Shows channel c := not_shows_of_place hplace
  refine ⟨hfifo.homed.launch (hplace ▸ hhome), hfifo.placed, hfifo.ordered, ?_,
    hfifo.queued, ?_, ?_⟩
  · intro one hone other hhas c hc hshows
    rcases hhas.of_launch with rfl | hold
    · exact absurd hshows (hsilent c)
    · exact hfifo.behind one hone other hold c hc hshows
  · intro other hrunning executor later hlater c hshows hshows'
    rcases List.mem_append.mp hrunning with hold | hnew
    · exact hfifo.started other hold executor later hlater c hshows hshows'
    · rw [List.mem_singleton.mp hnew] at hshows
      exact absurd hshows (hsilent c)
  · intro one hone other hother c hshows hshows'
    rcases List.mem_append.mp hone with hold | hnew
    · rcases List.mem_append.mp hother with hold' | hnew'
      · exact hfifo.together one hold other hold' c hshows hshows'
      · rw [List.mem_singleton.mp hnew'] at hshows'
        exact absurd hshows' (hsilent c)
    · rw [List.mem_singleton.mp hnew] at hshows
      exact absurd hshows (hsilent c)

/-- The latest job is handed to an executor, a callback to its own. -/
theorem fifo_submit (hfifo : w.Fifo channel home) {job : Job κ β ω τ}
    {executor : κ} (hplace : ∀ place ∈ job.place, place = executor)
    (hhome : ∀ op ∈ job.todo, op.AtHome channel home job.place)
    (hlatest : w.UpTo job.origin) : (w.submit executor job).Fifo channel home := by
  refine ⟨hfifo.homed.submit hhome executor, ?_, hfifo.ordered, ?_, ?_, ?_,
    hfifo.together⟩
  · intro k other hother
    rcases mem_queue_submit.mp hother with hold | ⟨rfl, rfl⟩
    · exact hfifo.placed k other hold
    · exact hplace
  · intro one hone other hhas c hc hshows
    rcases hhas.of_submit with rfl | hold
    · exact hlatest.shown one hone
    · exact hfifo.behind one hone other hold c hc hshows
  · intro k
    by_cases hk : k = executor
    · subst hk
      simp only [submit, Function.update_self, List.pairwise_append]
      refine ⟨hfifo.queued k, List.pairwise_singleton _ _, ?_⟩
      intro other hother later hlater _ _
      rw [List.mem_singleton.mp hlater]
      exact hlatest.jobs other (Or.inr ⟨k, hother⟩)
    · simpa only [submit, Function.update_of_ne hk] using hfifo.queued k
  · intro other hother k later hlater c hshows hshows'
    rcases mem_queue_submit.mp hlater with hold | ⟨_, rfl⟩
    · exact hfifo.started other hother k later hold c hshows hshows'
    · exact hlatest.jobs other (Or.inl hother)

/-- An executor starts a job when no callback of an earlier origin has anything
left to show on its channels. -/
theorem fifo_start (hfifo : w.Fifo channel home) {executor : κ}
    (hclear : ∀ job ∈ (w.queue executor).head?, ∀ c, job.Shows channel c →
      ∀ other ∈ w.running, other.Shows channel c → job.origin ≤ other.origin) :
    (w.start executor).Fifo channel home := by
  have hfirst : ∀ job ∈ (w.queue executor).head?, ∀ other ∈ w.running, ∀ c,
      job.Shows channel c → other.Shows channel c →
        other.origin = job.origin := by
    intro job hhead other hother c hshows hshows'
    have hjob := List.mem_of_mem_head? hhead
    apply le_antisymm
    · exact hfifo.started other hother executor job hjob c hshows' hshows
    · exact hclear job hhead c hshows other hother hshows'
  refine ⟨hfifo.homed.start executor, ?_, ?_, ?_, ?_, ?_, ?_⟩
  · intro k other hother
    exact hfifo.placed k other (mem_queue_start hother)
  · rw [Ordered, shown_start]
    exact hfifo.ordered
  · rw [shown_start]
    intro one hone other hhas
    exact hfifo.behind one hone other hhas.of_start
  · intro k
    rw [queue_start]
    split_ifs
    · exact (hfifo.queued k).tail
    · exact hfifo.queued k
  · intro other hother k later hlater c hshows hshows'
    have hbefore := mem_queue_start hlater
    rcases mem_running_start.mp hother with hold | hhead
    · exact hfifo.started other hold k later hbefore c hshows hshows'
    · obtain rfl := hfifo.executor_eq (List.mem_of_mem_head? hhead) hbefore
        hshows hshows'
      have hqueued := hfifo.queued executor
      rw [List.eq_cons_of_mem_head? hhead] at hqueued
      rw [queue_start, if_pos rfl] at hlater
      exact (List.pairwise_cons.mp hqueued).1 later hlater hshows.1 hshows'.1
  · intro one hone other hother c hshows hshows'
    rcases mem_running_start.mp hone with hold | hhead
    · rcases mem_running_start.mp hother with hold' | hhead'
      · exact hfifo.together one hold other hold' c hshows hshows'
      · exact hfirst other hhead' one hold c hshows' hshows
    · rcases mem_running_start.mp hother with hold' | hhead'
      · exact (hfirst one hhead other hold' c hshows hshows').symm
      · rw [Option.mem_unique hhead hhead']

omit [DecidableEq κ] in
/-- A job goes on with operations that show nothing new. -/
theorem fifo_goOn (hfifo : w.Fifo channel home) {i : Nat} {job : Job κ β ω τ}
    (hjob : job ∈ w.running) {todo : List (Op κ β ω)}
    (hhome : ∀ op ∈ todo, op.AtHome channel home job.place)
    (hless : ∀ c, ({ job with todo := todo } : Job κ β ω τ).Shows channel c →
      job.Shows channel c) :
    (w.goOn i job todo).Fifo channel home := by
  have hrunning : ∀ other ∈ (w.goOn i job todo).running, ∃ before ∈ w.running,
      other.origin = before.origin ∧
        ∀ c, other.Shows channel c → before.Shows channel c := by
    intro other hother
    rcases List.mem_or_eq_of_mem_set hother with hold | rfl
    · exact ⟨other, hold, rfl, fun _ hshows => hshows⟩
    · exact ⟨job, hjob, rfl, hless⟩
  refine ⟨?_, hfifo.placed, hfifo.ordered, ?_, hfifo.queued, ?_, ?_⟩
  · intro other hhas
    rcases hhas.of_goOn with rfl | hold
    · exact hhome
    · exact hfifo.homed other hold
  · intro one hone other hhas c hc hshows
    rcases hhas with hother | hqueued
    · obtain ⟨before, hbefore, horigin, hshown⟩ := hrunning other hother
      rw [horigin]
      exact hfifo.behind one hone before (Or.inl hbefore) c hc (hshown c hshows)
    · exact hfifo.behind one hone other (Or.inr hqueued) c hc hshows
  · intro other hother k later hlater c hshows hshows'
    obtain ⟨before, hbefore, horigin, hshown⟩ := hrunning other hother
    rw [horigin]
    exact hfifo.started before hbefore k later hlater c (hshown c hshows) hshows'
  · intro one hone other hother c hshows hshows'
    obtain ⟨before, hbefore, horigin, hshown⟩ := hrunning one hone
    obtain ⟨before', hbefore', horigin', hshown'⟩ := hrunning other hother
    rw [horigin, horigin']
    exact hfifo.together before hbefore before' hbefore' c (hshown c hshows)
      (hshown' c hshows')

omit [DecidableEq κ] in
/-- Something is shown in its turn. -/
theorem fifo_show (hfifo : w.Fifo channel home) {origin : τ} {shown : ω}
    (hafter : ∀ one ∈ w.shown, ∀ c ∈ channel one.2, c ∈ channel shown →
      one.1 ≤ origin)
    (hbefore : ∀ job, w.Has job → ∀ c ∈ channel shown, job.Shows channel c →
      origin ≤ job.origin) :
    ({ w with shown := w.shown ++ [(origin, shown)] } :
      Workers κ β ω τ).Fifo channel home := by
  refine ⟨hfifo.homed, hfifo.placed, ?_, ?_, hfifo.queued, hfifo.started,
    hfifo.together⟩
  · rw [Ordered, List.pairwise_append]
    refine ⟨hfifo.ordered, List.pairwise_singleton _ _, ?_⟩
    intro one hone other hother
    rw [List.mem_singleton.mp hother]
    exact hafter one hone
  · intro one hone job hhas
    rcases List.mem_append.mp hone with hold | hnew
    · exact hfifo.behind one hold job hhas
    · rw [List.mem_singleton.mp hnew]
      exact hbefore job hhas

/-- A running job takes a step: a callback shows what it has to, and any other
job is the latest. -/
theorem fifo_advance (hfifo : w.Fifo channel home)
    {answer : β → List (Op κ β ω)} {i : Nat}
    (hanswer : ∀ request, ∀ op ∈ answer request, op.AtHome channel home none)
    (hlatest : ∀ job, w.running[i]? = some job → job.place = none →
      job.todo ≠ [] → w.UpTo job.origin) :
    (w.advance answer i).Fifo channel home := by
  rcases advance_cases answer i w with hsame | ⟨job, op, rest, hi, htodo, hadvance⟩
  · rwa [hsame]
  · have hjob : job ∈ w.running := List.mem_of_getElem? hi
    have hops : ∀ later ∈ op :: rest, later.AtHome channel home job.place := by
      rw [← htodo]
      exact hfifo.homed job (Or.inl hjob)
    have hop := hops op List.mem_cons_self
    have hrest : ∀ later ∈ rest, later.AtHome channel home job.place :=
      fun later hlater => hops later (List.mem_cons_of_mem op hlater)
    have hless : ∀ c, ({ job with todo := rest } : Job κ β ω τ).Shows channel c →
        job.Shows channel c := by
      rintro c ⟨hplace, shown, hmem, hc⟩
      exact ⟨hplace, shown, htodo ▸ List.mem_cons_of_mem op hmem, hc⟩
    rw [hadvance]
    cases op with
    | emit shown =>
        apply fifo_show (fifo_goOn hfifo hjob hrest hless)
        · intro one hone c hc hc'
          by_cases hplace : job.place = none
          · exact (hlatest job hi hplace (by simp [htodo])).shown one hone
          · exact hfifo.behind one hone job (Or.inl hjob) c hc
              ⟨hplace, shown, htodo ▸ List.mem_cons_self, hc'⟩
        · intro other hhas c hc hshows
          have hplaced : home c = job.place := hop c hc
          rcases Has.of_goOn hhas with rfl | hold
          · exact le_refl _
          · have hplace : job.place ≠ none := by
              rw [← hplaced, hfifo.home_eq hold hshows]
              exact hshows.1
            have hshowing : job.Shows channel c :=
              ⟨hplace, shown, htodo ▸ List.mem_cons_self, hc⟩
            rcases hold with hrunning | ⟨executor, hqueued⟩
            · exact le_of_eq
                (hfifo.together job hjob other hrunning c hshowing hshows)
            · exact hfifo.started job hjob executor other hqueued c hshowing hshows
    | handOver executor todo =>
        obtain ⟨hplace, hhome⟩ := hop
        have hupTo := hlatest job hi hplace (by simp [htodo])
        apply fifo_submit (fifo_goOn hfifo hjob hrest hless)
        · intro place hmem
          exact (Option.some.inj hmem).symm
        · intro later hlater
          obtain ⟨shown, hshown, rfl⟩ := List.mem_map.mp hlater
          exact hhome shown hshown
        · refine ⟨hupTo.shown, ?_⟩
          intro other hhas
          rcases hhas.of_goOn with rfl | hold
          · exact le_refl _
          · exact hupTo.jobs other hold
    | call request =>
        have hplace : job.place = none := hop
        apply fifo_goOn hfifo hjob
        · intro later hlater
          rcases List.mem_append.mp hlater with hnew | hold
          · rw [hplace]
            exact hanswer request later hnew
          · exact hrest later hold
        · intro c hshows
          exact absurd hplace hshows.1

end

end Workers

end FlzChat
