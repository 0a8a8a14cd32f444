/-
The presence events of a user when the handlers of several sockets interleave.
Every registry call and every `Publish` is one step; what a handler found in
one step it acts on in a later one.
-/
import FlzChat.Alternation
import FlzChat.ChatServlet
import FlzChat.Runs
import Mathlib.Data.Fintype.Basic

namespace FlzChat

/-- Sockets of one user on distinct devices. -/
structure Sockets (κ : Type) where
  userId : UInt64
  conn : κ → OnlineConn
  user : ∀ i, (conn i).userId = userId
  devices : Function.Injective fun i => (conn i).deviceId

/-- Where the handlers of a socket stand: `probed` is `onConnect` after
`IsUserOnline`, `owesOnline` after an `Add` it took for the first; `removed` is
`onClose` after `Remove`, with the status that call left, and `owesOffline`
after it has found the user offline. -/
inductive Phase where
  | fresh
  | probed (firstDevice : Bool)
  | owesOnline
  | isOpen
  | removed (stillOnline : Bool)
  | owesOffline
  | closed
deriving DecidableEq

/-- No handler of the socket is in progress. -/
def Phase.Idle : Phase → Prop
  | fresh | isOpen | closed => True
  | _ => False

/-- The socket is registered. -/
def Phase.Registered : Phase → Prop
  | owesOnline | isOpen => True
  | _ => False

/-- `Remove` took the user offline and the event is yet to come. -/
def Phase.OwesOffline : Phase → Prop
  | removed false | owesOffline => True
  | _ => False

instance : DecidablePred Phase.Idle
  | .fresh | .isOpen | .closed => isTrue trivial
  | .probed _ | .owesOnline | .removed _ | .owesOffline => isFalse id

instance : DecidablePred Phase.OwesOffline
  | .removed false | .owesOffline => isTrue trivial
  | .fresh | .probed _ | .owesOnline | .isOpen | .removed true | .closed =>
      isFalse id

structure Race (κ : Type) where
  server : Server := {}
  phase : κ → Phase := fun _ => .fresh

namespace Race

inductive Event (κ : Type) where
  | probe (i : κ)
  | add (i : κ)
  | publishOnline (i : κ)
  | remove (i : κ)
  | probeClose (i : κ)
  | publishOffline (i : κ)
  | drain

variable {κ : Type} [DecidableEq κ]

def moveTo (race : Race κ) (i : κ) (phase : Phase) (server : Server) : Race κ :=
  { server := server, phase := Function.update race.phase i phase }

/-- The steps of `onConnect` and `onClose`; there is room for every device and
in the publisher's queue. -/
def machine (cfg : ChatConfig) (o : IterOrder Devices.Entry) (S : Sockets κ) :
    Machine (Race κ) (Event κ) where
  enabled race
    | .probe i => race.phase i = .fresh
    | .add i => (∃ first, race.phase i = .probed first) ∧
        race.server.registry.userConnectionCount S.userId <
          toSizeT cfg.chat.maxDevicesPerUser
    | .publishOnline i => race.phase i = .owesOnline ∧ race.server.Accepting cfg
    | .remove i => race.phase i = .isOpen
    | .probeClose i => ∃ still, race.phase i = .removed still
    | .publishOffline i => race.phase i = .owesOffline ∧ race.server.Accepting cfg
    | .drain => True
  step race
    | .probe i => race.moveTo i
        (.probed (!race.server.registry.isUserOnline S.userId)) race.server
    | .add i => race.moveTo i
        (if race.phase i = .probed true then .owesOnline else .isOpen)
        { race.server with
          registry := (race.server.registry.add o (S.conn i)
            (toSizeT cfg.chat.maxDevicesPerUser)).registry }
    | .publishOnline i => race.moveTo i .isOpen
        (race.server.publish cfg (MqPublisher.userOnlineTask S.userId)).2
    | .remove i =>
        let registry := (race.server.registry.remove S.userId
          (S.conn i).deviceId).2
        race.moveTo i (.removed (registry.isUserOnline S.userId))
          { race.server with registry := registry }
    | .probeClose i => race.moveTo i
        (if race.server.registry.isUserOnline S.userId then .closed
          else .owesOffline) race.server
    | .publishOffline i => race.moveTo i .closed
        (race.server.publish cfg (MqPublisher.userOfflineTask S.userId)).2
    | .drain => { race with server := { race.server with
        queue := race.server.queue.tail } }

def online (S : Sockets κ) (race : Race κ) : Bool :=
  race.server.registry.isUserOnline S.userId

def events (S : Sockets κ) (race : Race κ) : List Bool :=
  race.server.presence S.userId

/-- No two events in a row are equal, and while no handler is in progress the
last one tells whether the user is online. -/
structure PresenceAgrees (S : Sockets κ) (race : Race κ) : Prop where
  turns : (race.events S).IsChain (· ≠ ·)
  settled : (∀ i, (race.phase i).Idle) →
    ((race.events S).getLast? = some true ↔ race.online S = true)

/-- The step acts on what it finds: `Add` on the status its handler has probed,
the probe of `onClose` on the status its `Remove` left, and no online event
overtakes an offline event that is due. -/
def Undisturbed (S : Sockets κ) (race : Race κ) : Event κ → Prop
  | .add i => race.phase i = .probed (!race.online S)
  | .probeClose i => race.phase i = .removed (race.online S)
  | .publishOnline _ => ∀ j, ¬ (race.phase j).OwesOffline
  | _ => True

instance (cfg : ChatConfig) (o : IterOrder Devices.Entry) (S : Sockets κ)
    (race : Race κ) : ∀ e, Decidable ((machine cfg o S).enabled race e)
  | .probe i => inferInstanceAs (Decidable (race.phase i = .fresh))
  | .add i => inferInstanceAs (Decidable (
      (∃ first, race.phase i = .probed first) ∧
        race.server.registry.userConnectionCount S.userId <
          toSizeT cfg.chat.maxDevicesPerUser))
  | .publishOnline i => inferInstanceAs (Decidable (
      race.phase i = .owesOnline ∧ race.server.Accepting cfg))
  | .remove i => inferInstanceAs (Decidable (race.phase i = .isOpen))
  | .probeClose i => inferInstanceAs (Decidable (
      ∃ still, race.phase i = .removed still))
  | .publishOffline i => inferInstanceAs (Decidable (
      race.phase i = .owesOffline ∧ race.server.Accepting cfg))
  | .drain => isTrue trivial

instance [Fintype κ] (S : Sockets κ) : DecidablePred (PresenceAgrees S) :=
  fun race => decidable_of_iff ((race.events S).IsChain (· ≠ ·) ∧
      ((∀ i, (race.phase i).Idle) →
        ((race.events S).getLast? = some true ↔ race.online S = true)))
    ⟨fun h => ⟨h.1, h.2⟩, fun h => ⟨h.turns, h.settled⟩⟩

instance [Fintype κ] (S : Sockets κ) (race : Race κ) :
    ∀ e, Decidable (Undisturbed S race e)
  | .add i => inferInstanceAs (Decidable (
      race.phase i = .probed (!race.online S)))
  | .probeClose i => inferInstanceAs (Decidable (
      race.phase i = .removed (race.online S)))
  | .publishOnline _ => inferInstanceAs (Decidable (
      ∀ j, ¬ (race.phase j).OwesOffline))
  | .probe _ | .remove _ | .publishOffline _ | .drain => isTrue trivial

/-- Who owes an event, and what the last event was. -/
structure EventInv (phase : κ → Phase) (online : Bool) (events : List Bool) :
    Prop where
  online_iff : online = true ↔ ∃ i, (phase i).Registered
  oneOnline : ∀ i j, phase i = .owesOnline → phase j = .owesOnline → i = j
  oneOffline : ∀ i j, (phase i).OwesOffline → (phase j).OwesOffline → i = j
  alternates : Alternates events
  last : events.getLast? = some true ↔
    (online = true ∧ ∀ i, phase i ≠ .owesOnline) ∨ ∃ i, (phase i).OwesOffline
  returning : ∀ i, (phase i).OwesOffline → online = true →
    ∃ j, phase j = .owesOnline

section

variable {phase : κ → Phase} {online : Bool} {events : List Bool} {i : κ}

/-- A phase of the same kind leaves the kind of every socket as it was. -/
theorem update_iff {p : Phase → Prop} {next : Phase}
    (hsame : p next ↔ p (phase i)) (j : κ) :
    p (Function.update phase i next j) ↔ p (phase j) := by
  by_cases hj : j = i
  · rw [hj, Function.update_self]
    exact hsame
  · rw [Function.update_of_ne hj]

/-- A move that changes nothing of what is owed. -/
theorem EventInv.update (hinv : EventInv phase online events) {next : Phase}
    (hregistered : online = true ↔
      ∃ j, (Function.update phase i next j).Registered)
    (honline : next = .owesOnline ↔ phase i = .owesOnline)
    (hoffline : next.OwesOffline ↔ (phase i).OwesOffline) :
    EventInv (Function.update phase i next) online events := by
  have hon := update_iff (p := (· = .owesOnline)) honline
  have hoff := update_iff hoffline
  refine ⟨hregistered, fun j k hj hk => ?_, fun j k hj hk => ?_,
    hinv.alternates, ?_, fun j hj hstill => ?_⟩
  · exact hinv.oneOnline j k ((hon j).mp hj) ((hon k).mp hk)
  · exact hinv.oneOffline j k ((hoff j).mp hj) ((hoff k).mp hk)
  · rw [hinv.last]
    exact or_congr (and_congr_right fun _ => forall_congr' fun j =>
      not_congr (hon j).symm) (exists_congr fun j => (hoff j).symm)
  · obtain ⟨k, hk⟩ := hinv.returning j ((hoff j).mp hj) hstill
    exact ⟨k, (hon k).mpr hk⟩

/-- A move that changes neither what is registered nor what is owed. -/
theorem EventInv.move (hinv : EventInv phase online events) {next : Phase}
    (hregistered : next.Registered ↔ (phase i).Registered)
    (honline : next = .owesOnline ↔ phase i = .owesOnline)
    (hoffline : next.OwesOffline ↔ (phase i).OwesOffline) :
    EventInv (Function.update phase i next) online events := by
  apply hinv.update _ honline hoffline
  rw [hinv.online_iff]
  exact exists_congr fun j => (update_iff hregistered j).symm

/-- The first device of an offline user is added and owes the online event. -/
theorem EventInv.add_first (hinv : EventInv phase false events)
    (hphase : phase i = .probed true) :
    EventInv (Function.update phase i .owesOnline) true events := by
  have hnobody : ∀ j, ¬ (phase j).Registered := by
    intro j hj
    have := hinv.online_iff.mpr ⟨j, hj⟩
    contradiction
  have hnone : ∀ j, phase j ≠ .owesOnline := by
    intro j hj
    exact hnobody j (by simp [hj, Phase.Registered])
  have honly : ∀ j, Function.update phase i .owesOnline j = .owesOnline →
      j = i := by
    intro j hj
    by_contra hne
    rw [Function.update_of_ne hne] at hj
    exact hnone j hj
  have hoffline : ∀ j, (Function.update phase i .owesOnline j).OwesOffline ↔
      (phase j).OwesOffline :=
    update_iff (by simp [hphase, Phase.OwesOffline])
  refine ⟨?_, fun j k hj hk => (honly j hj).trans (honly k hk).symm,
    fun j k hj hk => hinv.oneOffline j k ((hoffline j).mp hj) ((hoffline k).mp hk),
    hinv.alternates, ?_, fun _ _ _ => ⟨i, by simp⟩⟩
  · exact iff_of_true rfl ⟨i, by simp [Phase.Registered]⟩
  · rw [hinv.last]
    simp only [Bool.false_eq_true, false_and, false_or, true_and, hoffline]
    exact ⟨Or.inr, fun h => h.resolve_left fun hno => hno i (by simp)⟩

/-- A further device of an online user is added and owes nothing. -/
theorem EventInv.add_further (hinv : EventInv phase true events)
    (hphase : phase i = .probed false) :
    EventInv (Function.update phase i .isOpen) true events := by
  apply hinv.update
  · exact iff_of_true rfl ⟨i, by simp [Phase.Registered]⟩
  · simp [hphase]
  · simp [hphase, Phase.OwesOffline]

/-- The online event is published while no offline event is due. -/
theorem EventInv.publishOnline (hinv : EventInv phase online events)
    (hphase : phase i = .owesOnline) (hdue : ∀ j, ¬ (phase j).OwesOffline) :
    EventInv (Function.update phase i .isOpen) online (events ++ [true]) := by
  have honline : online = true :=
    hinv.online_iff.mpr ⟨i, by simp [hphase, Phase.Registered]⟩
  have hlast : events.getLast? ≠ some true := by
    rw [Ne, hinv.last]
    rintro (⟨_, hno⟩ | ⟨j, hj⟩)
    · exact hno i hphase
    · exact hdue j hj
  have hnone : ∀ j, Function.update phase i .isOpen j ≠ .owesOnline := by
    intro j hj
    by_cases hji : j = i
    · subst hji
      simp at hj
    · rw [Function.update_of_ne hji] at hj
      exact hji (hinv.oneOnline j i hj hphase)
  have hoffline : ∀ j, ¬ (Function.update phase i .isOpen j).OwesOffline := by
    intro j
    by_cases hji : j = i
    · subst hji
      simp [Phase.OwesOffline]
    · rw [Function.update_of_ne hji]
      exact hdue j
  refine ⟨iff_of_true honline ⟨i, by simp [Phase.Registered]⟩,
    fun j _ hj _ => absurd hj (hnone j), fun j _ hj _ => absurd hj (hoffline j),
    hinv.alternates.append_one (iff_of_true rfl hlast), ?_,
    fun j hj _ => absurd hj (hoffline j)⟩
  exact iff_of_true (by simp) (Or.inl ⟨honline, hnone⟩)

/-- A device is removed and others stay. -/
theorem EventInv.remove_further (hinv : EventInv phase true events)
    (hphase : phase i = .isOpen) (hleft : ∃ j, j ≠ i ∧ (phase j).Registered) :
    EventInv (Function.update phase i (.removed true)) true events := by
  obtain ⟨j, hne, hj⟩ := hleft
  apply hinv.update
  · exact iff_of_true rfl ⟨j, by rwa [Function.update_of_ne hne]⟩
  · simp [hphase]
  · simp [hphase, Phase.OwesOffline]

/-- The last device is removed and its handler owes the offline event. -/
theorem EventInv.remove_last (hinv : EventInv phase true events)
    (hphase : phase i = .isOpen) (hleft : ∀ j, j ≠ i → ¬ (phase j).Registered) :
    EventInv (Function.update phase i (.removed false)) false events := by
  have hnone : ∀ j, phase j ≠ .owesOnline := by
    intro j hj
    by_cases hji : j = i
    · subst hji
      rw [hphase] at hj
      contradiction
    · exact hleft j hji (by simp [hj, Phase.Registered])
  have hdue : ∀ j, ¬ (phase j).OwesOffline := by
    intro j hj
    obtain ⟨k, hk⟩ := hinv.returning j hj rfl
    exact hnone k hk
  have honly : ∀ j, (Function.update phase i (.removed false) j).OwesOffline →
      j = i := by
    intro j hj
    by_contra hne
    rw [Function.update_of_ne hne] at hj
    exact hdue j hj
  refine ⟨?_, ?_, fun j k hj hk => (honly j hj).trans (honly k hk).symm,
    hinv.alternates, ?_, fun _ _ hon => by contradiction⟩
  · simp only [Bool.false_eq_true, false_iff, not_exists]
    intro j
    by_cases hji : j = i
    · subst hji
      simp [Phase.Registered]
    · rw [Function.update_of_ne hji]
      exact hleft j hji
  · intro j k hj _
    by_cases hji : j = i
    · subst hji
      simp at hj
    · rw [Function.update_of_ne hji] at hj
      exact absurd hj (hnone j)
  · exact iff_of_true (hinv.last.mpr (Or.inl ⟨rfl, hnone⟩))
      (Or.inr ⟨i, by simp [Phase.OwesOffline]⟩)

/-- The offline event that is due is published. -/
theorem EventInv.publishOffline (hinv : EventInv phase online events)
    (hphase : phase i = .owesOffline) :
    EventInv (Function.update phase i .closed) online (events ++ [false]) := by
  have hdue : (phase i).OwesOffline := by simp [hphase, Phase.OwesOffline]
  have hlast : events.getLast? = some true := hinv.last.mpr (Or.inr ⟨i, hdue⟩)
  have hsame : ∀ j, ((Function.update phase i .closed j).Registered ↔
        (phase j).Registered) ∧
      (Function.update phase i .closed j = .owesOnline ↔
        phase j = .owesOnline) := fun j =>
    ⟨update_iff (by simp [hphase, Phase.Registered]) j,
      update_iff (p := (· = .owesOnline)) (by simp [hphase]) j⟩
  have hoffline : ∀ j, ¬ (Function.update phase i .closed j).OwesOffline := by
    intro j hj
    by_cases hji : j = i
    · subst hji
      simp [Phase.OwesOffline] at hj
    · rw [Function.update_of_ne hji] at hj
      exact hji (hinv.oneOffline j i hj hdue)
  refine ⟨?_, fun j k hj hk => hinv.oneOnline j k ((hsame j).2.mp hj)
      ((hsame k).2.mp hk), fun j _ hj _ => absurd hj (hoffline j),
    hinv.alternates.append_one (iff_of_false (by simp) (not_not.mpr hlast)), ?_,
    fun j hj _ => absurd hj (hoffline j)⟩
  · rw [hinv.online_iff]
    exact exists_congr fun j => (hsame j).1.symm
  · apply iff_of_false (by simp)
    rintro (⟨hon, hno⟩ | ⟨j, hj⟩)
    · obtain ⟨k, hk⟩ := hinv.returning i hdue hon
      exact hno k ((hsame k).2.mpr hk)
    · exact hoffline j hj

end

/-- The registry holds the registered sockets and nothing else of the user. -/
structure Tracks (S : Sockets κ) (phase : κ → Phase)
    (registry : SessionRegistry) : Prop where
  source : ∀ {d c}, registry.get S.userId d = some c →
    ∃ i, (phase i).Registered ∧ (S.conn i).deviceId = d
  present : ∀ {i}, (phase i).Registered →
    ∃ c, registry.get S.userId (S.conn i).deviceId = some c

section

variable {S : Sockets κ} {phase : κ → Phase} {registry : SessionRegistry}
  {i : κ} {next : Phase}

theorem Tracks.move (htracks : Tracks S phase registry)
    (hregistered : next.Registered ↔ (phase i).Registered) :
    Tracks S (Function.update phase i next) registry := by
  have hpoint := update_iff hregistered
  refine ⟨fun hget => ?_, fun {j} hj => htracks.present ((hpoint j).mp hj)⟩
  obtain ⟨j, hj, hdevice⟩ := htracks.source hget
  exact ⟨j, (hpoint j).mpr hj, hdevice⟩

theorem Tracks.add (htracks : Tracks S phase registry)
    (o : IterOrder Devices.Entry) {maxDevices : Nat}
    (hroom : registry.userConnectionCount S.userId < maxDevices)
    (hnext : next.Registered) :
    Tracks S (Function.update phase i next)
      (registry.add o (S.conn i) maxDevices).registry := by
  have hplace : registry.userConnectionCount (S.conn i).userId < maxDevices := by
    rwa [S.user i]
  have hget := SessionRegistry.get_add_of_room o hplace S.userId
  have hself : (Function.update phase i next i).Registered := by simpa using hnext
  have hother : ∀ j, j ≠ i → Function.update phase i next j = phase j :=
    fun j hj => Function.update_of_ne hj _ _
  refine ⟨fun {d c} hd => ?_, fun {j} hj => ?_⟩
  · rw [hget] at hd
    split_ifs at hd with hkey
    · exact ⟨i, hself, hkey.2.symm⟩
    · obtain ⟨j, hj, hdevice⟩ := htracks.source hd
      by_cases hji : j = i
      · exact ⟨i, hself, hji ▸ hdevice⟩
      · exact ⟨j, by rwa [hother j hji], hdevice⟩
  · rw [hget]
    split_ifs with hkey
    · exact ⟨S.conn i, rfl⟩
    · by_cases hji : j = i
      · exact absurd ⟨(S.user i).symm, by rw [hji]⟩ hkey
      · rw [hother j hji] at hj
        exact htracks.present hj

theorem Tracks.remove (htracks : Tracks S phase registry)
    (hnext : ¬ next.Registered) :
    Tracks S (Function.update phase i next)
      (registry.remove S.userId (S.conn i).deviceId).2 := by
  have hother : ∀ j, j ≠ i → Function.update phase i next j = phase j :=
    fun j hj => Function.update_of_ne hj _ _
  refine ⟨fun {d c} hd => ?_, fun {j} hj => ?_⟩
  · rw [SessionRegistry.get_remove] at hd
    split_ifs at hd with hkey
    obtain ⟨j, hj, hdevice⟩ := htracks.source hd
    have hji : j ≠ i := by
      rintro rfl
      exact hkey ⟨rfl, hdevice.symm⟩
    exact ⟨j, by rwa [hother j hji], hdevice⟩
  · by_cases hji : j = i
    · subst hji
      simp only [Function.update_self] at hj
      contradiction
    · rw [hother j hji] at hj
      have hdevice : (S.conn j).deviceId ≠ (S.conn i).deviceId :=
        fun heq => hji (S.devices heq)
      rw [SessionRegistry.get_remove, if_neg (fun hkey => hdevice hkey.2)]
      exact htracks.present hj

omit [DecidableEq κ] in
/-- After `Remove` the user is online exactly if another socket is registered. -/
theorem Tracks.online_remove (htracks : Tracks S phase registry) :
    (registry.remove S.userId (S.conn i).deviceId).2.isUserOnline S.userId =
        true ↔ ∃ j, j ≠ i ∧ (phase j).Registered := by
  rw [SessionRegistry.isUserOnline_remove]
  constructor
  · rintro ⟨d, c, hd, hget⟩
    obtain ⟨j, hj, hdevice⟩ := htracks.source hget
    refine ⟨j, ?_, hj⟩
    rintro rfl
    exact hd hdevice.symm
  · rintro ⟨j, hji, hj⟩
    obtain ⟨c, hget⟩ := htracks.present hj
    exact ⟨_, c, fun heq => hji (S.devices heq), hget⟩

end

structure Inv (S : Sockets κ) (race : Race κ) : Prop where
  tracks : Tracks S race.phase race.server.registry
  events : EventInv race.phase (race.online S) (race.events S)

/-- A step that leaves the registry and the events alone. -/
theorem Inv.moveTo {S : Sockets κ} {race : Race κ} (hinv : Inv S race) {i : κ}
    {next : Phase} (hregistered : next.Registered ↔ (race.phase i).Registered)
    (honline : next = .owesOnline ↔ race.phase i = .owesOnline)
    (hoffline : next.OwesOffline ↔ (race.phase i).OwesOffline) :
    Inv S (race.moveTo i next race.server) :=
  ⟨hinv.tracks.move hregistered, hinv.events.move hregistered honline hoffline⟩

theorem Inv.add {S : Sockets κ} {race : Race κ} (hinv : Inv S race)
    (o : IterOrder Devices.Entry) {maxDevices : Nat} {i : κ}
    (hroom : race.server.registry.userConnectionCount S.userId < maxDevices)
    (hprobed : race.phase i = .probed (!race.online S)) :
    Inv S (race.moveTo i
      (if race.phase i = .probed true then .owesOnline else .isOpen)
      { race.server with
        registry := (race.server.registry.add o (S.conn i)
          maxDevices).registry }) := by
  have honline : (race.server.registry.add o (S.conn i)
      maxDevices).registry.isUserOnline S.userId = true := by
    rw [(SessionRegistry.add_spec o race.server.registry (S.conn i)
      maxDevices).online, S.user]
    simp
  cases hwas : race.online S with
  | false =>
      rw [hwas] at hprobed
      have hevents := hinv.events
      rw [hwas] at hevents
      simp only [hprobed, Bool.not_false, if_true]
      refine ⟨hinv.tracks.add o hroom (by simp [Phase.Registered]), ?_⟩
      simp only [Race.online]
      simp only [Race.moveTo, honline]
      exact hevents.add_first hprobed
  | true =>
      rw [hwas] at hprobed
      have hevents := hinv.events
      rw [hwas] at hevents
      simp only [hprobed, Bool.not_true, Phase.probed.injEq, Bool.false_eq_true,
        if_false]
      refine ⟨hinv.tracks.add o hroom (by simp [Phase.Registered]), ?_⟩
      simp only [Race.online]
      simp only [Race.moveTo, honline]
      exact hevents.add_further hprobed

theorem Inv.remove {S : Sockets κ} {race : Race κ} (hinv : Inv S race) {i : κ}
    (hopen : race.phase i = .isOpen) :
    Inv S (race.moveTo i
      (.removed ((race.server.registry.remove S.userId
        (S.conn i).deviceId).2.isUserOnline S.userId))
      { race.server with
        registry := (race.server.registry.remove S.userId
          (S.conn i).deviceId).2 }) := by
  have hwas : race.online S = true :=
    hinv.events.online_iff.mpr ⟨i, by simp [hopen, Phase.Registered]⟩
  have hevents := hinv.events
  rw [hwas] at hevents
  have hleft := hinv.tracks.online_remove (i := i)
  refine ⟨hinv.tracks.remove (by simp [Phase.Registered]), ?_⟩
  simp only [Race.online]
  simp only [Race.moveTo]
  cases hstill : (race.server.registry.remove S.userId
      (S.conn i).deviceId).2.isUserOnline S.userId with
  | true => exact hevents.remove_further hopen (hleft.mp hstill)
  | false =>
      apply hevents.remove_last hopen
      intro j hji hj
      rw [hleft.mpr ⟨j, hji, hj⟩] at hstill
      contradiction

/-- A publication reaches the queue and leaves the registry alone. -/
theorem Inv.publish {S : Sockets κ} {race : Race κ} (hinv : Inv S race)
    {cfg : ChatConfig} (haccepting : race.server.Accepting cfg) {task : Task}
    {event : Bool} (htask : task.presence? S.userId = some event) {i : κ}
    {next : Phase} (hregistered : next.Registered ↔ (race.phase i).Registered)
    (hevents : EventInv (Function.update race.phase i next) (race.online S)
      (race.events S ++ [event])) :
    Inv S (race.moveTo i next (race.server.publish cfg task).2) := by
  refine ⟨?_, ?_⟩
  · simp only [Race.moveTo, Server.publish_registry]
    exact hinv.tracks.move hregistered
  · simp only [Race.online, Race.events]
    simp only [Race.moveTo, Server.publish_registry,
      Server.publish_presence haccepting, htask, Option.toList_some]
    exact hevents

/-- One undisturbed step keeps the registry and the events in agreement. -/
theorem Inv.step {cfg : ChatConfig} {o : IterOrder Devices.Entry}
    {S : Sockets κ} (race : Race κ) (e : Event κ) (hinv : Inv S race)
    (henabled : (machine cfg o S).enabled race e)
    (hguard : Undisturbed S race e) : Inv S ((machine cfg o S).step race e) := by
  cases e with
  | probe i =>
      have hfresh : race.phase i = .fresh := henabled
      exact hinv.moveTo (by simp [hfresh, Phase.Registered]) (by simp [hfresh])
        (by simp [hfresh, Phase.OwesOffline])
  | add i => exact hinv.add o henabled.2 hguard
  | publishOnline i =>
      obtain ⟨howes, haccepting⟩ := henabled
      exact hinv.publish haccepting (by simp) (by simp [howes, Phase.Registered])
        (hinv.events.publishOnline howes hguard)
  | remove i => exact hinv.remove henabled
  | probeClose i =>
      have hfound : race.phase i = .removed (race.online S) := hguard
      change Inv S (race.moveTo i (if race.online S then .closed
        else .owesOffline) race.server)
      cases hstill : race.online S with
      | true =>
          rw [hstill] at hfound
          exact hinv.moveTo (by simp [hfound, Phase.Registered])
            (by simp [hfound]) (by simp [hfound, Phase.OwesOffline])
      | false =>
          rw [hstill] at hfound
          exact hinv.moveTo (by simp [hfound, Phase.Registered])
            (by simp [hfound]) (by simp [hfound, Phase.OwesOffline])
  | publishOffline i =>
      obtain ⟨howes, haccepting⟩ := henabled
      exact hinv.publish haccepting (by simp) (by simp [howes, Phase.Registered])
        (hinv.events.publishOffline howes)
  | drain => exact ⟨hinv.tracks, hinv.events⟩

omit [DecidableEq κ] in
/-- With no handler in progress nothing is owed. -/
theorem Inv.agrees {S : Sockets κ} {race : Race κ} (hinv : Inv S race) :
    PresenceAgrees S race := by
  refine ⟨hinv.events.alternates.turns, fun hidle => ?_⟩
  have hnone : ∀ i, race.phase i ≠ .owesOnline := by
    intro i hi
    have := hidle i
    rw [hi] at this
    exact this
  have hdue : ¬ ∃ i, (race.phase i).OwesOffline := by
    rintro ⟨i, hi⟩
    have := hidle i
    cases hphase : race.phase i <;>
      simp_all [Phase.Idle, Phase.OwesOffline]
  rw [hinv.events.last]
  exact ⟨fun h => (h.resolve_right hdue).1, fun h => Or.inl ⟨h, hnone⟩⟩

omit [DecidableEq κ] in
theorem inv_initial (S : Sockets κ) {server : Server}
    (hoffline : server.registry.isUserOnline S.userId = false)
    (hsilent : server.presence S.userId = []) :
    Inv S { server := server } := by
  have hempty : ∀ d c, server.registry.get S.userId d ≠ some c := by
    intro d c hget
    rw [SessionRegistry.isUserOnline_of_get hget] at hoffline
    contradiction
  refine ⟨⟨fun hget => absurd hget (hempty _ _), fun hi => hi.elim⟩, ?_⟩
  simp only [Race.online, Race.events]
  rw [hoffline, hsilent]
  refine ⟨?_, ?_, fun _ _ hi => hi.elim, alternates_nil, ?_, fun _ hi => hi.elim⟩
  · simp [Phase.Registered]
  · intro i j hi
    exact absurd hi (by simp)
  · simp [Phase.OwesOffline]

/-- In a run of undisturbed steps the presence events agree with the registry
whenever no handler is in progress, and alternate throughout. -/
theorem presenceAgrees_of_undisturbed {cfg : ChatConfig}
    {o : IterOrder Devices.Entry} {S : Sockets κ} (server : Server)
    (hoffline : server.registry.isUserOnline S.userId = false)
    (hsilent : server.presence S.userId = []) {events : List (Event κ)}
    (hadm : (machine cfg o S).Admissible { server := server } events)
    (hundisturbed : (machine cfg o S).Each (Undisturbed S) { server := server }
      events) :
    (machine cfg o S).Always (PresenceAgrees S) { server := server } events :=
  (Machine.always_of_guarded Inv.step (inv_initial S hoffline hsilent) hadm
    hundisturbed).imp fun _ hinv => hinv.agrees

/-! The handlers run without interruption. -/

/-- The steps of `onConnect`: the event is published for a first device. -/
def connectSteps (S : Sockets κ) (race : Race κ) (i : κ) : List (Event κ) :=
  [.probe i, .add i] ++ if race.online S then [] else [.publishOnline i]

/-- The steps of `onClose`. -/
def closeSteps (S : Sockets κ) (race : Race κ) (i : κ) : List (Event κ) :=
  [.remove i, .probeClose i] ++
    if (race.server.registry.remove S.userId
      (S.conn i).deviceId).2.isUserOnline S.userId then [] else [.publishOffline i]

theorem publish_presence_setRegistry {cfg : ChatConfig} {s : Server}
    (haccepting : s.Accepting cfg) (registry : SessionRegistry) (u : UInt64)
    (task : Task) :
    (Server.publish cfg task { s with registry := registry }).2.presence u =
      s.presence u ++ (task.presence? u).toList :=
  Server.publish_presence (s := { s with registry := registry }) haccepting u task

/-- In one piece the steps of `onConnect` are the servlet's login. -/
theorem run_connectSteps {cfg : ChatConfig} {o : IterOrder Devices.Entry}
    {S : Sockets κ} {race : Race κ} {i : κ} (haccepting : race.server.Accepting cfg)
    (clock : Clock) (iom : Option IoManager) (request : HttpRequest)
    (session : SessionId) {claims : JwtClaims}
    (hconn : S.conn i = Server.newConn cfg clock iom session claims.userId
      (race.server.deviceIdFor claims).1) :
    let handled := (machine cfg o S).run race (connectSteps S race i)
    let login := (race.server.login cfg clock o iom request session claims).2
    handled.server.registry = login.registry ∧
      handled.server.presence S.userId = login.presence S.userId := by
  have huser : claims.userId = S.userId := by
    rw [← S.user i, hconn]
    rfl
  simp only [Server.login_registry, Server.login_presence haccepting, huser,
    true_and, connectSteps]
  have honline : race.online S = race.server.registry.isUserOnline S.userId := rfl
  cases hwas : race.server.registry.isUserOnline S.userId with
  | true =>
      simp [honline, hwas, Machine.run, machine, moveTo, hconn, huser,
        Server.presence]
  | false =>
      simp [honline, hwas, Machine.run, machine, moveTo, hconn, huser,
        Server.publish_registry, publish_presence_setRegistry haccepting]

/-- In one piece the steps of `onClose` are the servlet's. -/
theorem run_closeSteps {P : Platform} {cfg : ChatConfig}
    {o : IterOrder Devices.Entry} {S : Sockets κ} {race : Race κ} {i : κ}
    (haccepting : race.server.Accepting cfg) {request : HttpRequest}
    (hidentity : Server.identity P request = (S.userId, (S.conn i).deviceId))
    (hid : S.userId ≠ 0) (hdevice : (S.conn i).deviceId ≠ []) :
    let handled := (machine cfg o S).run race (closeSteps S race i)
    let closed := race.server.onClose P cfg request
    handled.server.registry = closed.registry ∧
      handled.server.presence S.userId = closed.presence S.userId := by
  simp only [Server.onClose_registry hidentity hid hdevice,
    Server.onClose_presence hidentity hid hdevice haccepting, true_and, closeSteps]
  cases hleft : (race.server.registry.remove S.userId
      (S.conn i).deviceId).2.isUserOnline S.userId with
  | true => simp [hleft, Machine.run, machine, moveTo, Server.presence]
  | false =>
      simp [hleft, Machine.run, machine, moveTo, Server.publish_registry,
        publish_presence_setRegistry haccepting]

namespace RaceWitness

/-- Two devices of user 7. -/
def sockets : Sockets Bool where
  userId := 7
  conn i := .create 7 (if i then lit "d1" else lit "d0") (if i then 1 else 0)
    none 0 20
  user _ := rfl
  devices := by decide

/-- The second device joins before the first is announced and leaves last. -/
def overlapping : List (Event Bool) :=
  [.probe false, .add false, .probe true, .publishOnline false, .add true,
    .remove false, .probeClose false, .remove true, .probeClose true,
    .publishOffline true]

/-- Both devices find the user offline before either is added. -/
def bothFirst : List (Event Bool) :=
  [.probe false, .probe true, .add false, .add true, .publishOnline false,
    .publishOnline true]

theorem presenceAgrees_overlapping :
    (machine {} (IterOrder.asKept _) sockets).Always (PresenceAgrees sockets) {}
      overlapping :=
  presenceAgrees_of_undisturbed {} rfl rfl (by decide +kernel) (by decide +kernel)

theorem not_always_presenceAgrees :
    ¬ ∀ (cfg : ChatConfig) (o : IterOrder Devices.Entry) (S : Sockets Bool)
      (events : List (Event Bool)), (machine cfg o S).Admissible {} events →
        (machine cfg o S).Always (PresenceAgrees S) {} events := by
  intro hall
  exact absurd (hall {} (IterOrder.asKept _) sockets bothFirst
    (by decide +kernel)) (by decide +kernel)

example : ((machine {} (IterOrder.asKept _) sockets).run {} bothFirst).events
    sockets = [true, true] := by decide +kernel

end RaceWitness

end Race

end FlzChat
