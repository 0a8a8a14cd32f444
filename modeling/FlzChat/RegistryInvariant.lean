/-
The registry over whole runs of its operations: every connection sits under its
own keys, nobody is kept without a device or with too many, and so the queries
agree with one another.
-/
import FlzChat.Eviction
import FlzChat.Runs

namespace FlzChat

namespace SessionRegistry

/-- A call of the registry; the pointer `Add` is given may be null. -/
inductive Operation where
  | add (o : IterOrder Devices.Entry) (conn : Option OnlineConn)
  | remove (userId : UInt64) (deviceId : StdString)
  | get (userId : UInt64) (deviceId : StdString)
  | getByUser (o : IterOrder Devices.Entry) (userId : UInt64)
  | touch (userId : UInt64) (deviceId : StdString) (nowMs : Int)
  | collectTimeouted (deadlineMs : Int)

/-- The registry under any calls, with one cap on the devices of a user. -/
def machine (maxDevices : Nat) : Machine SessionRegistry Operation where
  enabled _ _ := True
  step r
    | .add _ none => r
    | .add o (some conn) => (r.add o conn maxDevices).registry
    | .remove userId deviceId => (r.remove userId deviceId).2
    | .get _ _ => r
    | .getByUser _ _ => r
    | .touch userId deviceId nowMs => r.touch userId deviceId nowMs
    | .collectTimeouted _ => r

/-- The representation invariant under a cap. -/
structure Capped (maxDevices : Nat) (r : SessionRegistry) : Prop
    extends Representation r where
  capped : ∀ u, r.userConnectionCount u ≤ maxDevices

theorem capped_empty (maxDevices : Nat) : Capped maxDevices {} :=
  ⟨representation_empty, fun _ => Nat.zero_le _⟩

theorem Capped.add {maxDevices : Nat} {r : SessionRegistry}
    (hr : r.Capped maxDevices) (hmax : 1 ≤ maxDevices)
    (o : IterOrder Devices.Entry) (conn : OnlineConn) :
    (r.add o conn maxDevices).registry.Capped maxDevices where
  toRepresentation := hr.toRepresentation.add o conn hmax
  capped u := by
    by_cases hu : u = conn.userId
    · subst hu
      rw [(add_rankSplit o r conn maxDevices).2]
      exact Nat.min_le_left _ _
    · rw [userConnectionCount_add_of_ne o r conn maxDevices hu]
      exact hr.capped u

theorem Capped.remove {maxDevices : Nat} {r : SessionRegistry}
    (hr : r.Capped maxDevices) (userId : UInt64) (deviceId : StdString) :
    (r.remove userId deviceId).2.Capped maxDevices where
  keyed hget := hr.keyed (get_of_get_remove hget)
  occupied honline := by
    apply userConnectionCount_pos_iff.mpr
    refine exists_get_remove (fun hbefore => ?_) honline
    exact userConnectionCount_pos_iff.mp (hr.occupied hbefore)
  capped u := by
    simp only [userConnectionCount, byDevice_remove]
    split_ifs with hu
    · exact (List.kerase_sublist _ _).length_le.trans (hr.capped userId)
    · exact hr.capped u

theorem userConnectionCount_modify (r : SessionRegistry) (userId u : UInt64)
    (deviceId : StdString) (f : OnlineConn → OnlineConn) :
    (r.modify userId deviceId f).userConnectionCount u =
      r.userConnectionCount u := by
  simp only [modify]
  cases hget : r.get userId deviceId with
  | none => rfl
  | some conn =>
      simp only [userConnectionCount, byDevice_setDevices]
      split_ifs with hu
      · subst hu
        rw [get_eq_lookup_byDevice] at hget
        have hlength := length_erase_of_mem (AList.mem_lookup_iff.mp hget)
        rw [← hlength, AList.entries_insert]
        rfl
      · rfl

theorem Capped.touch {maxDevices : Nat} {r : SessionRegistry}
    (hr : r.Capped maxDevices) (userId : UInt64) (deviceId : StdString)
    (nowMs : Int) : (r.touch userId deviceId nowMs).Capped maxDevices where
  keyed hget := by
    obtain ⟨c₀, hold, hc⟩ := (sameEntries_touch r userId deviceId nowMs).back hget
    rw [hc.userId, hc.deviceId]
    exact hr.keyed hold
  occupied {u} honline := by
    rw [(sameEntries_touch r userId deviceId nowMs).online] at honline
    rw [SessionRegistry.touch, userConnectionCount_modify]
    exact hr.occupied honline
  capped u := by
    rw [SessionRegistry.touch, userConnectionCount_modify]
    exact hr.capped u

theorem capped_step {maxDevices : Nat} (hmax : 1 ≤ maxDevices)
    (r : SessionRegistry) (op : Operation) (hr : r.Capped maxDevices)
    (_ : (machine maxDevices).enabled r op) :
    ((machine maxDevices).step r op).Capped maxDevices := by
  cases op with
  | add o conn =>
      cases conn with
      | none => exact hr
      | some conn => exact hr.add hmax o conn
  | remove userId deviceId => exact hr.remove userId deviceId
  | get _ _ => exact hr
  | getByUser _ _ => exact hr
  | touch userId deviceId nowMs => exact hr.touch userId deviceId nowMs
  | collectTimeouted _ => exact hr

theorem capped_reachable {maxDevices : Nat} (hmax : 1 ≤ maxDevices)
    (ops : List Operation) :
    ((machine maxDevices).run {} ops).Capped maxDevices := by
  apply Machine.run_of_step (capped_step hmax) (capped_empty maxDevices)
  exact Machine.each_of_forall fun _ _ _ => trivial

/-! What the invariant says about the queries. -/

theorem isUserOnline_of_mem {r : SessionRegistry} {user : Sigma fun _ : UInt64 => Devices}
    (hmem : user ∈ r.conns.entries) :
    r.isUserOnline user.1 = true ∧ r.byDevice user.1 = user.2 := by
  have hlookup : r.conns.lookup user.1 = some user.2 :=
    AList.mem_lookup_iff.mpr hmem
  simp [isUserOnline, byDevice, hlookup]

theorem Representation.isUserOnline_iff {r : SessionRegistry}
    (hr : r.Representation) (u : UInt64) :
    r.isUserOnline u = true ↔ 0 < r.userConnectionCount u := by
  refine ⟨hr.occupied, ?_⟩
  intro hcount
  obtain ⟨d, c, hget⟩ := userConnectionCount_pos_iff.mp hcount
  exact isUserOnline_of_get hget

theorem getByUser_ne_nil_iff (o : IterOrder Devices.Entry)
    (r : SessionRegistry) (u : UInt64) :
    r.getByUser o u ≠ [] ↔ 0 < r.userConnectionCount u := by
  have hlength : (r.getByUser o u).length = r.userConnectionCount u := by
    simp [getByUser, userConnectionCount, (o.perm _).length_eq]
  rw [← hlength, List.length_pos_iff]

theorem onlineConnections_eq_sum (r : SessionRegistry) :
    r.onlineConnections = (r.conns.keys.map r.userConnectionCount).sum := by
  simp only [onlineConnections, AList.keys, List.keys, List.map_map]
  congr 1
  apply List.map_congr_left
  intro user huser
  simp only [Function.comp_apply, userConnectionCount]
  rw [(isUserOnline_of_mem huser).2]

theorem Representation.onlineUsers_le {r : SessionRegistry}
    (hr : r.Representation) : r.onlineUsers ≤ r.onlineConnections := by
  rw [onlineConnections_eq_sum]
  have hlength : r.onlineUsers = (r.conns.keys.map r.userConnectionCount).length := by
    simp [onlineUsers, AList.keys, List.keys]
  rw [hlength]
  apply List.length_le_sum_of_one_le
  intro count hcount
  obtain ⟨u, hu, rfl⟩ := List.mem_map.mp hcount
  obtain ⟨user, huser, rfl⟩ := List.mem_map.mp hu
  exact hr.occupied (isUserOnline_of_mem huser).1

/-- Different users' connections differ, and so do different devices'. -/
theorem Representation.nodup_collectTimeouted {r : SessionRegistry}
    (hr : r.Representation) (deadlineMs : Int) :
    (r.collectTimeouted deadlineMs).Nodup := by
  have hdevices : ∀ user ∈ r.conns.entries,
      user.2.entries.map (·.2) = r.connections user.1 := by
    intro user huser
    rw [connections, (isUserOnline_of_mem huser).2]
  have howner : ∀ u, ∀ c ∈ r.connections u, c.userId = u := by
    intro u c hc
    obtain ⟨d, hget⟩ := mem_connections.mp hc
    exact (hr.keyed hget).1
  rw [collectTimeouted, List.nodup_flatMap]
  constructor
  · intro user huser
    rw [hdevices user huser]
    exact (hr.nodup_connections user.1).filter _
  · apply (List.nodupKeys_iff_pairwise.mp r.conns.nodupKeys).imp_of_mem
    intro user user' huser huser' hne
    rw [Function.onFun, hdevices user huser, hdevices user' huser']
    intro c hc hc'
    apply hne
    rw [← howner user.1 c (List.mem_of_mem_filter hc),
      ← howner user'.1 c (List.mem_of_mem_filter hc')]

theorem mem_of_mem_collectTimeouted {r : SessionRegistry} {deadlineMs : Int}
    {c : OnlineConn} (hc : c ∈ r.collectTimeouted deadlineMs) :
    ∃ u d, r.get u d = some c := by
  obtain ⟨user, huser, hmem⟩ := List.mem_flatMap.mp hc
  have hconn : c ∈ r.connections user.1 := by
    rw [connections, (isUserOnline_of_mem huser).2]
    exact List.mem_of_mem_filter hmem
  obtain ⟨d, hget⟩ := mem_connections.mp hconn
  exact ⟨user.1, d, hget⟩

/-- After any calls from the empty registry, connections sit under their own
keys, users have between one device and the cap, and the queries agree. -/
theorem queries_agree {maxDevices : Nat} (hmax : 1 ≤ maxDevices)
    (ops : List Operation) :
    let r := (machine maxDevices).run {} ops
    (∀ u d c, r.get u d = some c → c.userId = u ∧ c.deviceId = d) ∧
      (∀ u, r.isUserOnline u = true →
        1 ≤ r.userConnectionCount u ∧ r.userConnectionCount u ≤ maxDevices) ∧
      (∀ u, (r.isUserOnline u = true ↔ 0 < r.userConnectionCount u) ∧
        ∀ o, 0 < r.userConnectionCount u ↔ r.getByUser o u ≠ []) ∧
      r.onlineConnections = (r.conns.keys.map r.userConnectionCount).sum ∧
      r.conns.keys.length = r.onlineUsers ∧
      r.onlineUsers ≤ r.onlineConnections ∧
      ∀ deadlineMs, (r.collectTimeouted deadlineMs).Nodup ∧
        ∀ c ∈ r.collectTimeouted deadlineMs, ∃ u d, r.get u d = some c := by
  intro r
  have hr : r.Capped maxDevices := capped_reachable hmax ops
  refine ⟨fun u d c hget => hr.keyed hget, ?_, ?_, onlineConnections_eq_sum r,
    by simp [onlineUsers, AList.keys, List.keys], hr.onlineUsers_le, ?_⟩
  · intro u honline
    exact ⟨hr.occupied honline, hr.capped u⟩
  · intro u
    exact ⟨hr.isUserOnline_iff u, fun o => (getByUser_ne_nil_iff o r u).symm⟩
  · intro deadlineMs
    refine ⟨hr.nodup_collectTimeouted deadlineMs, ?_⟩
    intro c hc
    exact mem_of_mem_collectTimeouted hc

namespace RegistryInvariantWitness

open EvictionWitness (conn)

/-- Three logins of one user under a cap of two, a call without a connection, a
repeated login, a removal of a device that is not there, and a removal of one
that is. -/
def ops : List Operation :=
  [.add (IterOrder.asKept _) (conn "d1" 1 10),
    .add (IterOrder.asKept _) (conn "d2" 2 20),
    .add (IterOrder.asKept _) none,
    .add (IterOrder.asKept _) (conn "d2" 3 30),
    .add (IterOrder.asKept _) (conn "d3" 4 40),
    .remove 7 (lit "d1"), .touch 7 (lit "d2") 50, .remove 7 (lit "d3")]

theorem queries_agree_logins :
    ((machine 2).run {} ops).onlineUsers = 1 ∧
      ((machine 2).run {} ops).onlineUsers ≤
        ((machine 2).run {} ops).onlineConnections :=
  ⟨by decide +kernel, (queries_agree (by decide) ops).2.2.2.2.2.1⟩

end RegistryInvariantWitness

end SessionRegistry

end FlzChat
