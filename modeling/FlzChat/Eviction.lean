/-
What `Add` does with a user's connections: the newcomer joins them, the one of
the same device is replaced, and the surplus is evicted oldest first.
-/
import FlzChat.SessionRegistry

namespace FlzChat

/-! Taking lowest-ranked entries out of a list: what is taken and what is left
split the list, and nothing taken ranks above anything left. -/

section

universe u v

variable {α : Type u} {β : Type v} [LinearOrder β] {rank : α → β}

/-- `whole` splits into `gone` and `kept`, the former ranked no higher. -/
structure RankSplit (rank : α → β) (whole gone kept : List α) : Prop where
  perm : whole.Perm (gone ++ kept)
  below : ∀ g ∈ gone, ∀ k ∈ kept, rank g ≤ rank k

namespace RankSplit

theorem refl (rank : α → β) (whole : List α) : RankSplit rank whole [] whole :=
  ⟨List.Perm.refl whole, by simp⟩

/-- Take out one entry of least rank, then go on. -/
theorem cons {whole rest gone kept : List α} {least : α}
    (hleast : ∀ a ∈ whole, rank least ≤ rank a)
    (hperm : whole.Perm (least :: rest)) (hrest : RankSplit rank rest gone kept) :
    RankSplit rank whole (least :: gone) kept where
  perm := hperm.trans (hrest.perm.cons least)
  below := by
    intro g hg k hk
    rcases List.mem_cons.mp hg with rfl | hg
    · apply hleast
      apply hperm.mem_iff.mpr
      apply List.mem_cons_of_mem
      exact hrest.perm.mem_iff.mpr (List.mem_append.mpr (Or.inr hk))
    · exact hrest.below g hg k hk

theorem length_add {whole gone kept : List α}
    (hsplit : RankSplit rank whole gone kept) :
    gone.length + kept.length = whole.length := by
  rw [hsplit.perm.length_eq, List.length_append]

/-- Whoever has enough entries strictly below is not taken. -/
theorem not_mem_gone {whole gone kept : List α}
    (hsplit : RankSplit rank whole gone kept) {a : α}
    (hbelow : gone.length ≤ whole.countP fun b => decide (rank b < rank a)) :
    a ∉ gone := by
  intro hgone
  have hkept : kept.countP (fun b => decide (rank b < rank a)) = 0 := by
    rw [List.countP_eq_zero]
    intro k hk
    simpa using hsplit.below a hgone k hk
  have hless : gone.countP (fun b => decide (rank b < rank a)) < gone.length := by
    rw [List.countP_eq_length_filter, List.length_filter_lt_length_iff_exists]
    exact ⟨a, hgone, by simp⟩
  rw [hsplit.perm.countP_eq, List.countP_append, hkept] at hbelow
  omega

end RankSplit

/-- A search that starts at the head moves on to strictly lower ranks only. -/
theorem argmin_eq_head_or_lt {a m : α} {l : List α}
    (hmin : m ∈ (a :: l).argmin rank) : m = a ∨ rank m < rank a := by
  rw [List.argmin_cons] at hmin
  cases htail : l.argmin rank with
  | none =>
      simp only [htail, Option.mem_def, Option.some.injEq] at hmin
      exact Or.inl hmin.symm
  | some c =>
      simp only [htail] at hmin
      split_ifs at hmin with hlt
      · obtain rfl := Option.some.inj hmin
        exact Or.inr hlt
      · exact Or.inl (Option.some.inj hmin).symm

end

namespace SessionRegistry

/-- The connections of a user. -/
def connections (r : SessionRegistry) (userId : UInt64) : List OnlineConn :=
  (r.byDevice userId).entries.map (·.2)

/-- The user's devices once the newcomer stands among them. -/
def joined (r : SessionRegistry) (conn : OnlineConn) : Devices :=
  ((r.byDevice conn.userId).erase conn.deviceId).insert conn.deviceId conn

/-- Connections sit under their own keys and no user is kept without one. -/
structure Representation (r : SessionRegistry) : Prop where
  keyed : ∀ {u d c}, r.get u d = some c → c.userId = u ∧ c.deviceId = d
  occupied : ∀ {u}, r.isUserOnline u = true → 0 < r.userConnectionCount u

theorem length_connections (r : SessionRegistry) (userId : UInt64) :
    (r.connections userId).length = r.userConnectionCount userId := by
  simp [connections, userConnectionCount]

theorem mem_connections {r : SessionRegistry} {userId : UInt64}
    {conn : OnlineConn} :
    conn ∈ r.connections userId ↔ ∃ d, r.get userId d = some conn := by
  rw [← mem_getByUser (o := IterOrder.asKept _)]
  rfl

/-- What holds of every registered connection can be checked entry by entry. -/
theorem forall_get_iff {r : SessionRegistry} {p : OnlineConn → Prop} :
    (∀ u d c, r.get u d = some c → p c) ↔
      ∀ user ∈ r.conns.entries, ∀ entry ∈ user.2.entries, p entry.2 := by
  constructor
  · intro hall user huser entry hentry
    have hdevices : r.conns.lookup user.1 = some user.2 :=
      AList.mem_lookup_iff.mpr huser
    apply hall user.1 entry.1
    simp only [get, hdevices, Option.bind_some]
    exact AList.mem_lookup_iff.mpr hentry
  · intro hall u d c hget
    obtain ⟨devices, hdevices, hlookup⟩ := Option.bind_eq_some_iff.mp hget
    exact hall ⟨u, devices⟩ (AList.mem_lookup_iff.mp hdevices) ⟨d, c⟩
      (AList.mem_lookup_iff.mp hlookup)

theorem entries_joined (r : SessionRegistry) (conn : OnlineConn) :
    (r.joined conn).entries = ⟨conn.deviceId, conn⟩ ::
      ((r.byDevice conn.userId).erase conn.deviceId).entries := by
  apply AList.entries_insert_of_notMem
  simp [AList.mem_erase]

theorem perm_connections (r : SessionRegistry) (userId : UInt64)
    (deviceId : StdString) :
    (r.connections userId).Perm ((r.get userId deviceId).toList ++
      ((r.byDevice userId).erase deviceId).entries.map (·.2)) := by
  rw [get_eq_lookup_byDevice]
  cases hlookup : (r.byDevice userId).lookup deviceId with
  | none =>
      have habsent : deviceId ∉ (r.byDevice userId).entries.keys :=
        AList.lookup_eq_none.mp hlookup
      have hsame : ((r.byDevice userId).erase deviceId).entries =
          (r.byDevice userId).entries := List.kerase_of_notMem_keys habsent
      rw [hsame]
      exact List.Perm.refl _
  | some conn =>
      exact (perm_cons_erase (AList.mem_lookup_iff.mp hlookup)).map (·.2)

/-- Nobody is lost when the newcomer joins: it takes the place of the
connection of its own device. -/
theorem perm_joined (r : SessionRegistry) (conn : OnlineConn) :
    (conn :: r.connections conn.userId).Perm
      ((r.get conn.userId conn.deviceId).toList ++
        (r.joined conn).entries.map (·.2)) := by
  rw [entries_joined, List.map_cons]
  exact ((perm_connections r conn.userId conn.deviceId).cons conn).trans
    List.perm_middle.symm

/-- The loop takes out the oldest until the cap is met, and no more. -/
theorem evictSurplus_rankSplit (o : IterOrder Devices.Entry)
    (maxDevices rounds : Nat) (devices : Devices) (evicted : List OnlineConn)
    (hrounds : devices.entries.length ≤ rounds + maxDevices) :
    ∃ gone, (evictSurplus o maxDevices rounds devices evicted).2 =
        evicted ++ gone ∧
      RankSplit OnlineConn.loginAt (devices.entries.map (·.2)) gone
        ((evictSurplus o maxDevices rounds devices evicted).1.entries.map (·.2)) ∧
      (evictSurplus o maxDevices rounds devices evicted).1.entries.length =
        min maxDevices devices.entries.length := by
  induction rounds generalizing devices evicted with
  | zero =>
      refine ⟨[], by simp [evictSurplus], RankSplit.refl _ _, ?_⟩
      simp only [evictSurplus]
      omega
  | succ rounds ih =>
      simp only [evictSurplus]
      by_cases hsurplus : maxDevices < devices.entries.length
      · cases holdest : oldest? o devices with
        | none =>
            rw [oldest?_eq_none holdest] at hsurplus
            simp at hsurplus
        | some oldest =>
            have hperm := perm_cons_erase (oldest?_mem holdest)
            have hlength := length_erase_of_mem (oldest?_mem holdest)
            obtain ⟨gone, hgone, hsplit, hkept⟩ :=
              ih (devices.erase oldest.1) (evicted ++ [oldest.2]) (by omega)
            simp only [hsurplus, if_true]
            refine ⟨oldest.2 :: gone, by simp [hgone], ?_, by omega⟩
            apply RankSplit.cons _ (hperm.map (·.2)) hsplit
            intro conn hconn
            obtain ⟨entry, hentry, rfl⟩ := List.mem_map.mp hconn
            exact oldest?_le holdest entry hentry
      · simp only [hsurplus, if_false]
        exact ⟨[], by simp, RankSplit.refl _ _, by omega⟩

theorem byDevice_add (o : IterOrder Devices.Entry) (r : SessionRegistry)
    (conn : OnlineConn) (maxDevices : Nat) :
    (r.add o conn maxDevices).registry.byDevice conn.userId =
      (evictSurplus o maxDevices (r.joined conn).entries.length
        (r.joined conn) []).1 := by
  simp [add, byDevice_setDevices, joined]

/-- `Add` splits the user's devices by login time and keeps as many as the
cap allows. -/
theorem add_rankSplit (o : IterOrder Devices.Entry) (r : SessionRegistry)
    (conn : OnlineConn) (maxDevices : Nat) :
    RankSplit OnlineConn.loginAt ((r.joined conn).entries.map (·.2))
        (r.add o conn maxDevices).evicted
        ((r.add o conn maxDevices).registry.connections conn.userId) ∧
      (r.add o conn maxDevices).registry.userConnectionCount conn.userId =
        min maxDevices (r.joined conn).entries.length := by
  obtain ⟨gone, hgone, hsplit, hkept⟩ := evictSurplus_rankSplit o maxDevices
    (r.joined conn).entries.length (r.joined conn) [] (by omega)
  have hevicted : (r.add o conn maxDevices).evicted = gone := by
    simpa [add, joined] using hgone
  rw [hevicted, connections, userConnectionCount, byDevice_add]
  exact ⟨hsplit, hkept⟩

/-- Under the invariant a user's connections name their devices. -/
theorem Representation.map_deviceId {r : SessionRegistry}
    (hr : r.Representation) (userId : UInt64) :
    (r.connections userId).map (·.deviceId) = (r.byDevice userId).keys := by
  simp only [connections, List.map_map, AList.keys, List.keys]
  apply List.map_congr_left
  intro entry hentry
  have hlookup : (r.byDevice userId).lookup entry.1 = some entry.2 :=
    AList.mem_lookup_iff.mpr hentry
  rw [← get_eq_lookup_byDevice] at hlookup
  exact (hr.keyed hlookup).2

theorem Representation.nodup_connections {r : SessionRegistry}
    (hr : r.Representation) (userId : UInt64) :
    (r.connections userId).Nodup := by
  apply List.Nodup.of_map (·.deviceId)
  rw [hr.map_deviceId]
  exact (r.byDevice userId).nodupKeys

/-- As many devices stand in line as there are different ones. -/
theorem Representation.length_joined {r : SessionRegistry}
    (hr : r.Representation) (conn : OnlineConn) :
    (r.joined conn).entries.length =
      (((conn :: r.connections conn.userId).map (·.deviceId)).toFinset).card := by
  have hkeys : (r.joined conn).keys.length = (r.joined conn).entries.length := by
    simp [AList.keys, List.keys]
  have hnodup : (r.joined conn).keys.Nodup := (r.joined conn).nodupKeys
  rw [← hkeys, ← List.toFinset_card_of_nodup hnodup]
  congr 1
  ext d
  rw [List.mem_toFinset, List.mem_toFinset, List.map_cons, hr.map_deviceId,
    List.mem_cons, ← AList.mem_keys, ← AList.mem_keys, joined,
    AList.mem_insert, AList.mem_erase]
  tauto

/-- Only the newcomer's user gets another map of devices. -/
theorem lookup_add_of_ne (o : IterOrder Devices.Entry) (r : SessionRegistry)
    (conn : OnlineConn) (maxDevices : Nat) {u : UInt64} (hu : u ≠ conn.userId) :
    (r.add o conn maxDevices).registry.conns.lookup u = r.conns.lookup u := by
  simp [add, setDevices, hu]

theorem userConnectionCount_add_of_ne (o : IterOrder Devices.Entry)
    (r : SessionRegistry) (conn : OnlineConn) (maxDevices : Nat) {u : UInt64}
    (hu : u ≠ conn.userId) :
    (r.add o conn maxDevices).registry.userConnectionCount u =
      r.userConnectionCount u := by
  simp only [userConnectionCount, byDevice]
  rw [lookup_add_of_ne o r conn maxDevices hu]

theorem representation_empty : Representation {} :=
  ⟨fun h => by simp [get] at h, fun h => by simp [isUserOnline] at h⟩

theorem Representation.add {r : SessionRegistry} (hr : r.Representation)
    (o : IterOrder Devices.Entry) (conn : OnlineConn) {maxDevices : Nat}
    (hmax : 1 ≤ maxDevices) :
    (r.add o conn maxDevices).registry.Representation where
  keyed := (add_spec o r conn maxDevices).keyed hr.keyed
  occupied {u} honline := by
    by_cases hu : u = conn.userId
    · subst hu
      rw [(add_rankSplit o r conn maxDevices).2, entries_joined, List.length_cons]
      omega
    · rw [userConnectionCount_add_of_ne o r conn maxDevices hu]
      apply hr.occupied
      rw [(add_spec o r conn maxDevices).online] at honline
      simpa [hu] using honline

/-- `Add` partitions the newcomer and the user's connections into the replaced
one, the evicted ones and those registered afterwards: as many as the cap
allows, none older than an evicted one.  Other users' devices stay. -/
theorem add_partition (o : IterOrder Devices.Entry) {r : SessionRegistry}
    (hr : r.Representation) (conn : OnlineConn)
    (hfresh : ∀ u d c, r.get u d = some c → c.session ≠ conn.session)
    (maxDevices : Nat) :
    let res := r.add o conn maxDevices
    (conn :: r.connections conn.userId).Perm (res.replaced.toList ++
        res.evicted ++ res.registry.connections conn.userId) ∧
      (res.replaced.toList ++ res.evicted ++
        res.registry.connections conn.userId).Nodup ∧
      res.replaced = r.get conn.userId conn.deviceId ∧
      res.registry.userConnectionCount conn.userId = min maxDevices
        (((conn :: r.connections conn.userId).map (·.deviceId)).toFinset).card ∧
      (∀ gone ∈ res.evicted, ∀ kept ∈ res.registry.connections conn.userId,
        gone.loginAt ≤ kept.loginAt) ∧
      ∀ u, u ≠ conn.userId → res.registry.conns.lookup u = r.conns.lookup u := by
  intro res
  obtain ⟨hsplit, hcount⟩ := add_rankSplit o r conn maxDevices
  have hreplaced : res.replaced = r.get conn.userId conn.deviceId :=
    (add_spec o r conn maxDevices).replaced
  have hperm : (conn :: r.connections conn.userId).Perm (res.replaced.toList ++
      res.evicted ++ res.registry.connections conn.userId) := by
    rw [hreplaced, List.append_assoc]
    exact (perm_joined r conn).trans (hsplit.perm.append_left _)
  have hnodup : (conn :: r.connections conn.userId).Nodup := by
    apply List.nodup_cons.mpr
    refine ⟨?_, hr.nodup_connections conn.userId⟩
    intro hmem
    obtain ⟨d, hget⟩ := mem_connections.mp hmem
    exact hfresh conn.userId d conn hget rfl
  refine ⟨hperm, hperm.nodup_iff.mp hnodup, hreplaced, ?_, hsplit.below, ?_⟩
  · rw [hcount, hr.length_joined]
  · intro u hu
    exact lookup_add_of_ne o r conn maxDevices hu

namespace EvictionWitness

def conn (device : String) (session : SessionId) (loginAt : Int) : OnlineConn :=
  OnlineConn.create 7 (lit device) session none loginAt 20

def registry : SessionRegistry :=
  (add (IterOrder.asKept _) (add (IterOrder.asKept _) {} (conn "d1" 1 10)
    2).registry (conn "d2" 2 20) 2).registry

theorem registry_representation : registry.Representation :=
  (representation_empty.add _ _ (by decide)).add _ _ (by decide)

/-- A third device under a cap of two: the older of the first two leaves. -/
theorem add_partition_third :
    let res := registry.add (IterOrder.asKept _) (conn "d3" 3 30) 2
    (conn "d3" 3 30 :: registry.connections 7).Perm (res.replaced.toList ++
        res.evicted ++ res.registry.connections 7) ∧
      res.evicted = [conn "d1" 1 10] := by
  intro res
  refine ⟨(add_partition (IterOrder.asKept _) registry_representation
    (conn "d3" 3 30) ?_ 2).1, by decide +kernel⟩
  exact (forall_get_iff (p := fun c => c.session ≠ 3)).mpr (by decide +kernel)

end EvictionWitness

end SessionRegistry

end FlzChat
