/-
What a piece of the server's work may touch.  Whatever an event makes the server
do is a sequence of a few kinds of steps, so what each kind keeps, every handler
keeps that has the scope for no other.
-/
import FlzChat.Server

namespace FlzChat

/-- What a piece of work may touch besides acting and counting: the queue while
it is shorter than `room`, the pending sends, the histogram and the registry. -/
structure Scope where
  room : Nat := 0
  publishes : Task → Prop := fun _ => False
  keeps : PendingSend → Prop := fun _ => False
  forgets : Prop := False
  observes : Prop := False
  registers : SessionRegistry → SessionRegistry → Prop := fun _ _ => False

namespace Server

/-- Work within a scope, from one state to another, and the effects it has. -/
inductive Does (scope : Scope) : List Effect → Server → Server → Prop where
  | nothing (s : Server) : Does scope [] s s
  | perform (action : Action) (s : Server) :
      Does scope [.now action] s (s.perform action)
  | schedule (iom : IoManager) (actions : List Action) (s : Server) :
      Does scope [.scheduled iom actions] s
        { s with effects := s.effects ++ [.scheduled iom actions] }
  | enqueue (task : Task) (s : Server) (hmay : scope.publishes task)
      (hroom : s.queue.length < scope.room) :
      Does scope [.enqueued task] s { s with
        queue := s.queue ++ [task]
        effects := s.effects ++ [.enqueued task] }
  | count (metrics : ChatMetrics) (s : Server)
      (hframes : metrics.wsOut = s.metrics.wsOut)
      (hlatency : latencyPart metrics = latencyPart s.metrics) :
      Does scope [] s { s with metrics := metrics }
  | observe (latencyMs : UInt64) (s : Server) (hmay : scope.observes) :
      Does scope [] s { s with
        metrics := s.metrics.observeMsgSendLatencyMs latencyMs }
  | register (registry : SessionRegistry) (s : Server)
      (hmay : scope.registers s.registry registry) :
      Does scope [] s { s with registry := registry }
  | keep (id : StdString) (entry : PendingSend) (s : Server)
      (hmay : scope.keeps entry) :
      Does scope [] s { s with pending := s.pending.insert id entry }
  | forget (pending : KeyMap StdString PendingSend) (s : Server)
      (hmay : scope.forgets)
      (hless : ∀ id entry, pending.lookup id = some entry →
        s.pending.lookup id = some entry) :
      Does scope [] s { s with pending := pending }
  | number (seq : UInt64) (s : Server) :
      Does scope [] s { s with fallbackDeviceSeq := seq }
  | andThen {first later : List Effect} {s₁ s₂ s₃ : Server}
      (hfirst : Does scope first s₁ s₂) (hlater : Does scope later s₂ s₃) :
      Does scope (first ++ later) s₁ s₃

section

variable {scope : Scope} {said : List Effect} {s s' : Server}

/-! What the parts of the handlers do. -/

theorem Does.after {s₁ s₂ s₃ : Server} (hfirst : Does scope [] s₁ s₂)
    (hlater : Does scope said s₂ s₃) : Does scope said s₁ s₃ :=
  hfirst.andThen hlater

theorem Does.silently {s₁ s₂ s₃ : Server} (hfirst : Does scope said s₁ s₂)
    (hlater : Does scope [] s₂ s₃) : Does scope said s₁ s₃ := by
  have hboth := hfirst.andThen hlater
  rwa [List.append_nil] at hboth

/-- A loop does what its rounds do. -/
theorem does_foldl {α : Type} {f : Server → α → Server} {each : α → List Effect}
    (hf : ∀ s a, Does scope (each a) s (f s a)) (l : List α) (s : Server) :
    Does scope (l.flatMap each) s (l.foldl f s) := by
  induction l generalizing s with
  | nil => exact .nothing s
  | cons a l ih =>
      rw [List.flatMap_cons]
      exact (hf s a).andThen (ih (f s a))

theorem does_onOwner (iom : Option IoManager) (actions : List Action)
    (s : Server) :
    Does scope (ownerEffects iom actions) s (s.onOwner iom actions) := by
  cases iom with
  | none =>
      rw [ownerEffects, List.map_eq_flatMap]
      exact does_foldl (fun s action => .perform action s) actions s
  | some iom => exact .schedule iom actions s

theorem does_sendError (session : SessionId) (code : Int64) (msg : StdString)
    (hasSeq : Bool) (seq : Int64) (s : Server) :
    Does scope [.now (.sendFrame session (errorFrame code msg hasSeq seq))] s
      (s.sendError session code msg hasSeq seq) :=
  .perform _ s

theorem does_erase (hforgets : scope.forgets) (id : StdString) (s : Server) :
    Does scope [] s { s with pending := s.pending.erase id } := by
  refine .forget _ s hforgets fun other entry hlookup => ?_
  rw [KeyMap.lookup_erase_eq] at hlookup
  split_ifs at hlookup
  exact hlookup

/-- A task that finds no room is counted as failed. -/
theorem does_publish {cfg : ChatConfig} {task : Task}
    (hroom : toSizeT cfg.rabbitmq.publisherQueueCapacity ≤ scope.room)
    (hmay : scope.publishes task) (s : Server) :
    Does scope (s.publishEffects cfg task) s (s.publish cfg task).2 := by
  rw [publish_eq_publishAs, publishEffects]
  by_cases haccepting : s.Accepting cfg
  · simp only [haccepting, decide_true, if_true, publishAs]
    exact .enqueue task s hmay (lt_of_lt_of_le haccepting hroom)
  · simp only [haccepting, decide_false, if_false, publishAs, Bool.false_eq_true]
    exact .count _ s rfl rfl

/-! What the scope says of the states and the effects. -/

theorem Does.effects (hdoes : Does scope said s s') :
    s'.effects = s.effects ++ said := by
  induction hdoes with
  | perform | schedule | enqueue => rfl
  | andThen _ _ ihfirst ihlater => rw [ihlater, ihfirst, List.append_assoc]
  | _ => exact (List.append_nil _).symm

theorem Does.frames (hdoes : Does scope said s s') :
    s'.frames = s.frames ++ said.flatMap Effect.frames := by
  rw [Server.frames, hdoes.effects, List.flatMap_append]
  rfl

/-- What is published is within the scope. -/
theorem Does.published (hdoes : Does scope said s s') {task : Task}
    (htask : Effect.enqueued task ∈ said) : scope.publishes task := by
  induction hdoes with
  | enqueue published s hmay =>
      rw [List.mem_singleton, Effect.enqueued.injEq] at htask
      rwa [htask]
  | andThen _ _ ihfirst ihlater =>
      exact (List.mem_append.mp htask).elim ihfirst ihlater
  | _ => simp at htask

/-- Every task is on record. -/
theorem Does.queue (hdoes : Does scope said s s') :
    s'.queue = s.queue ++ said.filterMap Effect.task? := by
  induction hdoes with
  | enqueue => rfl
  | andThen _ _ ihfirst ihlater =>
      rw [ihlater, ihfirst, List.filterMap_append, List.append_assoc]
  | _ => exact (List.append_nil _).symm

/-- What is added to the queue finds room there. -/
theorem Does.queue_le (hdoes : Does scope said s s') :
    said.filterMap Effect.task? = [] ∨ s'.queue.length ≤ scope.room := by
  induction hdoes with
  | enqueue task s _ hroom =>
      right
      rw [List.length_append, List.length_singleton]
      exact hroom
  | andThen _ hlater ihfirst ihlater =>
      rcases ihlater with hnone | hle
      · rw [List.filterMap_append, hlater.queue, hnone, List.append_nil,
          List.append_nil]
        exact ihfirst
      · exact Or.inr hle
  | _ => exact Or.inl rfl

theorem Does.queue_eq (hdoes : Does scope said s s')
    (hpublishes : ∀ task, ¬ scope.publishes task) : s'.queue = s.queue := by
  have hnone : said.filterMap Effect.task? = [] := by
    rw [List.filterMap_eq_nil_iff]
    intro effect heffect
    cases effect with
    | enqueued task => exact absurd (hdoes.published heffect) (hpublishes task)
    | _ => rfl
  rw [hdoes.queue, hnone, List.append_nil]

theorem Does.presence_eq (hdoes : Does scope said s s')
    (hpublishes : ∀ task, scope.publishes task → ∀ u, task.presence? u = none)
    (u : UInt64) : s'.presence u = s.presence u := by
  have hnone : said.filterMap (Effect.presence? u) = [] := by
    rw [List.filterMap_eq_nil_iff]
    intro effect heffect
    cases effect with
    | enqueued task => exact hpublishes task (hdoes.published heffect) u
    | _ => rfl
  rw [Server.presence, hdoes.effects, List.filterMap_append, hnone,
    List.append_nil]
  rfl

/-- What every change of the registry keeps, the work keeps. -/
theorem Does.registry_related (hdoes : Does scope said s s')
    {R : SessionRegistry → SessionRegistry → Prop} (hrefl : ∀ r, R r r)
    (htrans : ∀ {r₁ r₂ r₃}, R r₁ r₂ → R r₂ r₃ → R r₁ r₃)
    (hregisters : ∀ r r', scope.registers r r' → R r r') :
    R s.registry s'.registry := by
  induction hdoes with
  | register registry s hmay => exact hregisters _ _ hmay
  | andThen _ _ ihfirst ihlater => exact htrans ihfirst ihlater
  | _ => exact hrefl _

theorem Does.registry_eq (hdoes : Does scope said s s')
    (hregisters : ∀ r r', ¬ scope.registers r r') : s'.registry = s.registry :=
  (hdoes.registry_related Eq.refl Eq.trans
    fun r r' hmay => absurd hmay (hregisters r r')).symm

/-- An entry was there before or is one the scope keeps. -/
theorem Does.pending_cases (hdoes : Does scope said s s') {id : StdString}
    {entry : PendingSend} (hlookup : s'.pending.lookup id = some entry) :
    s.pending.lookup id = some entry ∨ scope.keeps entry := by
  induction hdoes with
  | keep key kept s hmay =>
      by_cases hid : id = key
      · rw [hid, AList.lookup_insert, Option.some.injEq] at hlookup
        exact Or.inr (hlookup ▸ hmay)
      · rw [AList.lookup_insert_ne hid] at hlookup
        exact Or.inl hlookup
  | forget pending s hmay hless => exact Or.inl (hless id entry hlookup)
  | andThen _ _ ihfirst ihlater => exact (ihlater hlookup).elim ihfirst Or.inr
  | _ => exact Or.inl hlookup

theorem Does.pending_eq (hdoes : Does scope said s s')
    (hkeeps : ∀ entry, ¬ scope.keeps entry) (hforgets : ¬ scope.forgets) :
    s'.pending = s.pending := by
  induction hdoes with
  | keep key kept s hmay => exact absurd hmay (hkeeps kept)
  | forget pending s hmay => exact absurd hmay hforgets
  | andThen _ _ ihfirst ihlater => exact ihlater.trans ihfirst
  | _ => rfl

theorem Does.latency_eq (hdoes : Does scope said s s')
    (hobserves : ¬ scope.observes) :
    latencyPart s'.metrics = latencyPart s.metrics := by
  induction hdoes with
  | perform action => cases action <;> rfl
  | count metrics s hframes hlatency => exact hlatency
  | observe latencyMs s hmay => exact absurd hmay hobserves
  | andThen _ _ ihfirst ihlater => exact ihlater.trans ihfirst
  | _ => rfl

end

end Server

end FlzChat
