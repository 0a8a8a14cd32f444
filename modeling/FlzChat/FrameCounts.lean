/-
What the server counts of the frames it sends.  Refusals, kicks and errors are
not counted; every other frame is counted once, at once or by the callback that
sends it.
-/
import FlzChat.Deeds

namespace FlzChat

/-- The type an action counts. -/
def Action.counts? : Action → Option StdString
  | incWsOut type => some type
  | _ => none

/-- What an effect counts at once. -/
def Effect.countsNow : Effect → List StdString
  | now action => action.counts?.toList
  | _ => []

/-- What an effect leaves to a callback to count. -/
def Effect.countsLater : Effect → List StdString
  | scheduled _ actions => actions.filterMap Action.counts?
  | _ => []

/-- The types of the frames that are sent without being counted. -/
def uncounted : List StdString :=
  [lit "auth_fail", lit "kicked", lit "error"]

/-- The types of the frames that should be counted. -/
def countable (sent : List (SessionId × Frame)) : List StdString :=
  (sent.map (·.2.type)).filter fun type => !uncounted.contains type

theorem count_countable (sent : List (SessionId × Frame)) (type : StdString) :
    (countable sent).count type =
      if type ∈ uncounted then 0
      else sent.countP fun one => decide (one.2.type = type) := by
  split_ifs with htype
  · apply List.count_eq_zero_of_not_mem
    intro hmem
    simpa [htype] using (List.mem_filter.mp hmem).2
  · rw [countable, List.count_filter (by simpa using htype), List.count,
      List.countP_map]
    exact List.countP_congr fun one _ => by simp

/-- The effects count what they send. -/
def Balanced (said : List Effect) : Prop :=
  said.flatMap (fun effect => effect.countsNow ++ effect.countsLater) =
    countable (said.flatMap Effect.frames)

theorem balanced_nil : Balanced [] := rfl

theorem Balanced.append {first later : List Effect} (hfirst : Balanced first)
    (hlater : Balanced later) : Balanced (first ++ later) := by
  simp only [Balanced, countable, List.flatMap_append, List.map_append,
    List.filter_append] at hfirst hlater ⊢
  rw [hfirst, hlater]

theorem balanced_flatMap {α : Type} {f : α → List Effect} {l : List α}
    (hf : ∀ a ∈ l, Balanced (f a)) : Balanced (l.flatMap f) := by
  induction l with
  | nil => exact balanced_nil
  | cons a l ih =>
      rw [List.flatMap_cons]
      exact (hf a List.mem_cons_self).append
        (ih fun a' ha' => hf a' (List.mem_cons_of_mem a ha'))

/-- Who runs the actions does not matter to the balance. -/
theorem counts_ownerEffects (iom : Option IoManager) (actions : List Action) :
    (ownerEffects iom actions).flatMap
        (fun effect => effect.countsNow ++ effect.countsLater) =
      actions.filterMap Action.counts? := by
  cases iom with
  | some iom => simp [ownerEffects, Effect.countsNow, Effect.countsLater]
  | none =>
      rw [ownerEffects, List.flatMap_map]
      induction actions with
      | nil => rfl
      | cons action actions ih =>
          rw [List.flatMap_cons, ih]
          cases action <;> rfl

theorem balanced_ownerEffects {iom : Option IoManager} {actions : List Action}
    (hactions : actions.filterMap Action.counts? =
      countable (actions.filterMap Action.frame?)) :
    Balanced (ownerEffects iom actions) := by
  rw [Balanced, counts_ownerEffects, Server.frames_ownerEffects]
  exact hactions

/-- A frame that is counted with its own type. -/
theorem balanced_sendTo {conn : OnlineConn} {frame : Frame}
    (htype : frame.type ∉ uncounted) :
    Balanced (ownerEffects conn.ioManager
      [.sendFrame conn.session frame, .incWsOut frame.type]) := by
  apply balanced_ownerEffects
  change [frame.type] = countable [(conn.session, frame)]
  simp [countable, htype]

namespace Push

/-- The frames of the push are counted. -/
def Counted (push : Push) : Prop :=
  ∀ conn, (push.frame conn).type ∉ uncounted

theorem Plain.counted {push : Push} (hplain : push.Plain) : push.Counted := by
  have hcounted : ∀ type ∈ pushTypes, type ∉ uncounted := by decide
  exact fun conn => hcounted _ (hplain conn)

/-- Whatever an event pushes is counted. -/
theorem counted_ofEnvelope {P : Platform} {pending : Option PendingSend}
    {env : Envelope} {push : Push} (hpush : push ∈ ofEnvelope P pending env) :
    push.Counted := by
  by_cases htype : env.type = lit "chat.msg.send"
  · rw [ofEnvelope, if_pos htype] at hpush
    cases hread : ChatMsgSend.read P.json env.payload with
    | error thrown =>
        rw [ofChatMsgSend, hread] at hpush
        contradiction
    | ok event =>
        obtain ⟨later, hpushes, hplain⟩ := ofChatMsgSend_of_read hread pending
        rw [hpushes] at hpush
        rcases List.mem_append.mp hpush with hanswer | hlater
        · obtain ⟨entry, _, rfl⟩ := List.mem_map.mp hanswer
          intro conn
          simp only [Server.senderFrame]
          split_ifs
          · exact (by decide : lit "msg.send.resp" ∉ uncounted)
          · exact (by decide : lit "msg.new" ∉ uncounted)
        · exact (hplain push hlater).counted
  · exact (plain_ofEnvelope htype hpush).counted

end Push

namespace Server

theorem balanced_pushEffects (o : IterOrder Devices.Entry) (r : SessionRegistry)
    {pushes : List Push} (hcounted : ∀ push ∈ pushes, push.Counted) :
    Balanced (pushEffects o r pushes) := by
  apply balanced_flatMap
  intro push hpush
  apply balanced_flatMap
  intro conn _
  exact balanced_sendTo (hcounted push hpush conn)

theorem balanced_closeEffects (conn : OnlineConn) :
    Balanced (closeEffects conn) := by
  rw [closeEffects]
  cases conn.ioManager <;> rfl

/-- Nobody counts a kick. -/
theorem balanced_kickEffects (reason : StdString) (conn : OnlineConn) :
    Balanced (kickEffects reason conn) := by
  refine Balanced.append ?_ (balanced_closeEffects conn)
  apply balanced_ownerEffects
  simp [countable, Action.counts?, Action.frame?, kickedFrame, uncounted]

theorem balanced_handedBackEffects (added : SessionRegistry.AddResult) :
    Balanced (handedBackEffects added) :=
  (balanced_flatMap fun conn _ => balanced_kickEffects _ conn).append
    (balanced_flatMap fun conn _ => balanced_kickEffects _ conn)

theorem balanced_authOkEffects (clock : Clock) (conn : OnlineConn) :
    Balanced (authOkEffects clock conn) := by
  have htype : lit "auth_ok" ∉ uncounted := by decide
  simp [Balanced, countable, authOkEffects, authOkFrame, Effect.countsNow,
    Effect.countsLater, Effect.frames, Action.counts?, Action.frame?, htype]

theorem balanced_refuseEffects (err : StdString) (session : SessionId) :
    Balanced (refuseEffects err session) := by
  simp [Balanced, countable, refuseEffects, Effect.countsNow, Effect.countsLater,
    Effect.frames, Action.counts?, Action.frame?, uncounted]

theorem balanced_publishEffects (cfg : ChatConfig) (task : Task) (s : Server) :
    Balanced (s.publishEffects cfg task) := by
  rw [publishEffects]
  split_ifs <;> rfl

/-- An `onClose` sends nothing. -/
theorem balanced_leaveEffects (P : Platform) (cfg : ChatConfig)
    (request : HttpRequest) (s : Server) :
    Balanced (s.leaveEffects P cfg request) := by
  simp only [leaveEffects, offlineEffects]
  split_ifs
  · exact balanced_nil
  · exact balanced_nil
  · exact balanced_publishEffects cfg _ s

theorem Answers.balanced {uid : UInt64} {session : SessionId}
    {said : List Effect} (hanswers : Answers uid session said) :
    Balanced said := by
  cases hanswers with
  | silence => rfl
  | error code msg hasSeq seq =>
      simp [Balanced, countable, errorFrame, Effect.countsNow,
        Effect.countsLater, Effect.frames, Action.counts?, Action.frame?,
        uncounted]
  | pong ts hasSeq seq =>
      have htype : lit "pong" ∉ uncounted := by decide
      simp [Balanced, countable, Effect.countsNow, Effect.countsLater,
        Effect.frames, Action.counts?, Action.frame?, htype]
  | task task hactor => rfl

/-! The counter follows what is counted at once. -/

/-- The counter of every type is the number of times it has been counted. -/
def Tallied (s : Server) : Prop :=
  ∀ type, s.metrics.wsOut.count type =
    UInt64.ofNat ((s.effects.flatMap Effect.countsNow).count type)

/-- What neither counts a frame nor does anything. -/
theorem Tallied.of_same {s s' : Server} (htallied : s.Tallied)
    (heffects : s'.effects = s.effects)
    (hcounter : s'.metrics.wsOut = s.metrics.wsOut) : s'.Tallied := by
  rw [Tallied, heffects, hcounter]
  exact htallied

theorem Tallied.appended {s s' : Server} (htallied : s.Tallied) {effect : Effect}
    (heffects : s'.effects = s.effects ++ [effect])
    (hsilent : effect.countsNow = [])
    (hcounter : s'.metrics.wsOut = s.metrics.wsOut) : s'.Tallied := by
  intro type
  rw [heffects, hcounter, htallied type]
  simp [hsilent]

theorem tallied_perform (action : Action) {s : Server} (htallied : s.Tallied) :
    (s.perform action).Tallied := by
  cases action with
  | incWsOut counted =>
      intro type
      have hcount := htallied type
      simp only [perform, ChatMetrics.incWsOut, Counter.count_increment,
        List.flatMap_append, List.count_append]
      by_cases htype : type = counted
      · subst htype
        simp [hcount, Effect.countsNow, Action.counts?]
      · have hother : ¬ counted = type := fun heq => htype heq.symm
        simp [hcount, Effect.countsNow, Action.counts?, htype, hother]
  | sendFrame session frame => exact htallied.appended rfl rfl rfl
  | cancelAll session => exact htallied.appended rfl rfl rfl
  | close session => exact htallied.appended rfl rfl rfl

/-- Whatever is done, the counters keep in step with it. -/
theorem Does.tallied {scope : Scope} {said : List Effect} {s s' : Server}
    (hdoes : Does scope said s s') (htallied : s.Tallied) : s'.Tallied := by
  induction hdoes with
  | nothing => exact htallied
  | perform action => exact tallied_perform action htallied
  | schedule iom actions => exact htallied.appended rfl rfl rfl
  | enqueue task => exact htallied.appended rfl rfl rfl
  | count metrics _ hframes => exact htallied.of_same rfl hframes
  | andThen _ _ ihfirst ihlater => exact ihlater (ihfirst htallied)
  | _ => exact htallied.of_same rfl rfl

end Server

namespace Hub

theorem tallied_step (P : Platform) (cfg : ChatConfig) (hub : Hub) (e : Event)
    (htallied : hub.server.Tallied) :
    ((machine P cfg).step hub e).server.Tallied := by
  by_cases hdrain : e = .drain
  · rw [hdrain]
    exact htallied.of_same rfl rfl
  · exact (does_step P cfg hub hdrain).tallied htallied

/-- Every step counts, now or later, the frames it sends. -/
theorem balanced_deeds (P : Platform) (cfg : ChatConfig) (hub : Hub) (e : Event) :
    Balanced (deeds P cfg hub e) := by
  cases e with
  | connect clock o iom request session =>
      rw [deeds_connect]
      split
      · exact balanced_nil
      · exact Server.balanced_refuseEffects _ session
      · refine ((Server.balanced_handedBackEffects _).append
          (Server.balanced_authOkEffects clock _)).append ?_
        rw [Server.onlineEffects]
        split_ifs
        · exact balanced_nil
        · exact Server.balanced_publishEffects cfg _ _
  | close session =>
      rw [deeds_close]
      cases hub.login? session with
      | none => exact balanced_nil
      | some login => exact Server.balanced_leaveEffects P cfg login.request hub.server
  | frame session clock isText data =>
      cases hlogin : hub.login? session with
      | none =>
          rw [deeds_frame_of_none hlogin]
          exact balanced_nil
      | some login => exact (deeds_frame hlogin clock isText data).balanced
  | envelope o clock env =>
      rw [deeds_envelope]
      exact Server.balanced_pushEffects o _ fun _ => Push.counted_ofEnvelope
  | timer nowMs =>
      rw [deeds_timer]
      exact balanced_flatMap fun conn _ => Server.balanced_closeEffects conn
  | drain =>
      rw [deeds_drain]
      exact balanced_nil

theorem counted_run (P : Platform) (cfg : ChatConfig) (es : List Event) (hub : Hub)
    (htallied : hub.server.Tallied) (hbalanced : Balanced hub.server.effects) :
    ((machine P cfg).run hub es).server.Tallied ∧
      Balanced ((machine P cfg).run hub es).server.effects := by
  induction es generalizing hub with
  | nil => exact ⟨htallied, hbalanced⟩
  | cons e es ih =>
      apply ih _ (tallied_step P cfg hub e htallied)
      rw [effects_step]
      exact hbalanced.append (balanced_deeds P cfg hub e)

/-- In every run the counter of a type, with what the callbacks handed over have
still to count, is the number of its frames; refusals, kicks and errors have not
been counted and will not be. -/
theorem frames_counted (P : Platform) (cfg : ChatConfig) (es : List Event)
    (type : StdString) :
    let server := ((machine P cfg).run {} es).server
    let later := (server.effects.flatMap Effect.countsLater).count type
    (type ∈ uncounted → server.metrics.wsOut.count type = 0 ∧ later = 0) ∧
      (type ∉ uncounted → server.metrics.wsOut.count type + UInt64.ofNat later =
        UInt64.ofNat
          (server.frames.countP fun sent => decide (sent.2.type = type))) := by
  intro server later
  obtain ⟨htallied, hbalanced⟩ :=
    counted_run P cfg es {} (fun _ => rfl) balanced_nil
  change server.Tallied at htallied
  change Balanced server.effects at hbalanced
  have hparts : ∀ said : List Effect,
      (said.flatMap fun effect => effect.countsNow ++ effect.countsLater).count
          type = (said.flatMap Effect.countsNow).count type +
            (said.flatMap Effect.countsLater).count type := by
    intro said
    induction said with
    | nil => rfl
    | cons effect said ih =>
        simp only [List.flatMap_cons, List.count_append, ih]
        omega
  have htotal : (server.effects.flatMap Effect.countsNow).count type + later =
      if type ∈ uncounted then 0
      else server.frames.countP fun sent => decide (sent.2.type = type) := by
    rw [← hparts, hbalanced, count_countable]
    rfl
  constructor
  · intro htype
    rw [if_pos htype, Nat.add_eq_zero_iff] at htotal
    exact ⟨by rw [htallied type, htotal.1]; rfl, htotal.2⟩
  · intro htype
    rw [if_neg htype] at htotal
    rw [htallied type, ← UInt64.ofNat_add, htotal]

end Hub

end FlzChat
