/-
The table of live connections: user id, then device id, then connection.  The
table owns the mutable part of a connection (its bucket and its activity
stamp), since every access to them goes through the registered object.
-/
import FlzChat.Platform
import FlzChat.Metrics
import Mathlib.Data.Int.ConditionallyCompleteOrder
import Mathlib.Data.List.MinMax
import Mathlib.Data.List.Perm.Basic

namespace FlzChat

/-- A logged-in connection; `session` is its identity. -/
structure OnlineConn where
  userId : UInt64
  deviceId : StdString
  session : SessionId
  ioManager : Option IoManager
  loginAt : Int
  lastActiveTs : Int
  bucketRefillTs : Int
  bucketTokens : Int
deriving DecidableEq

namespace OnlineConn

/-- The constructor: the bucket starts full. -/
def create (userId : UInt64) (deviceId : StdString) (session : SessionId)
    (ioManager : Option IoManager) (nowMs rateLimit : Int) : OnlineConn where
  userId := userId
  deviceId := deviceId
  session := session
  ioManager := ioManager
  loginAt := nowMs
  lastActiveTs := nowMs
  bucketRefillTs := nowMs
  bucketTokens := rateLimit

/-- The bucket after the refill `ConsumeToken` makes first. -/
def refill (c : OnlineConn) (nowMs rateLimit : Int) : OnlineConn :=
  if 1000 ≤ nowMs - c.bucketRefillTs then
    { c with bucketRefillTs := nowMs, bucketTokens := rateLimit }
  else c

def consumeToken (c : OnlineConn) (nowMs rateLimit : Int) : Bool × OnlineConn :=
  let c := c.refill nowMs rateLimit
  if c.bucketTokens ≤ 0 then (false, c)
  else (true, { c with bucketTokens := c.bucketTokens - 1 })

def touch (c : OnlineConn) (nowMs : Int) : OnlineConn :=
  { c with lastActiveTs := nowMs }

/-- The fields that never change after construction. -/
structure SameConn (c c' : OnlineConn) : Prop where
  userId : c'.userId = c.userId
  deviceId : c'.deviceId = c.deviceId
  session : c'.session = c.session
  ioManager : c'.ioManager = c.ioManager
  loginAt : c'.loginAt = c.loginAt

theorem SameConn.trans {c₁ c₂ c₃ : OnlineConn} (hfirst : c₁.SameConn c₂)
    (hsecond : c₂.SameConn c₃) : c₁.SameConn c₃ :=
  ⟨hsecond.userId.trans hfirst.userId, hsecond.deviceId.trans hfirst.deviceId,
    hsecond.session.trans hfirst.session,
    hsecond.ioManager.trans hfirst.ioManager, hsecond.loginAt.trans hfirst.loginAt⟩

theorem sameConn_refill (c : OnlineConn) (nowMs rateLimit : Int) :
    c.SameConn (c.refill nowMs rateLimit) := by
  simp only [refill]
  split <;> exact ⟨rfl, rfl, rfl, rfl, rfl⟩

theorem sameConn_consumeToken (c : OnlineConn) (nowMs rateLimit : Int) :
    c.SameConn (c.consumeToken nowMs rateLimit).2 := by
  have hrefill := sameConn_refill c nowMs rateLimit
  simp only [consumeToken]
  split
  · exact hrefill
  · exact ⟨hrefill.1, hrefill.2, hrefill.3, hrefill.4, hrefill.5⟩

theorem sameConn_touch (c : OnlineConn) (nowMs : Int) :
    c.SameConn (c.touch nowMs) :=
  ⟨rfl, rfl, rfl, rfl, rfl⟩

end OnlineConn

/-- The connections of one user by device id. -/
abbrev Devices := KeyMap StdString OnlineConn

abbrev Devices.Entry := Sigma fun _ : StdString => OnlineConn

structure SessionRegistry where
  conns : KeyMap UInt64 Devices := ∅

namespace SessionRegistry

/-- `m_conns[user_id]`: an absent user has an empty map of devices. -/
def byDevice (r : SessionRegistry) (userId : UInt64) : Devices :=
  (r.conns.lookup userId).getD ∅

def setDevices (r : SessionRegistry) (userId : UInt64) (devices : Devices) :
    SessionRegistry :=
  ⟨r.conns.insert userId devices⟩

/-- The linear search of `Add`: the first entry in iteration order that no
earlier or later entry undercuts. -/
def oldest? (o : IterOrder Devices.Entry) (byDevice : Devices) :
    Option Devices.Entry :=
  match o.order byDevice.entries with
  | [] => none
  | first :: rest => some <|
      rest.foldl
        (fun oldest it =>
          if it.2.loginAt < oldest.2.loginAt then it else oldest)
        first

/-- The eviction loop of `Add`.  Each round erases one entry, so as many
rounds as there are entries suffice. -/
def evictSurplus (o : IterOrder Devices.Entry) (maxDevices : Nat) :
    Nat → Devices → List OnlineConn → Devices × List OnlineConn
  | 0, byDevice, evicted => (byDevice, evicted)
  | rounds + 1, byDevice, evicted =>
      if maxDevices < byDevice.entries.length then
        match oldest? o byDevice with
        | none => (byDevice, evicted)
        | some oldest =>
            evictSurplus o maxDevices rounds (byDevice.erase oldest.1)
              (evicted ++ [oldest.2])
      else (byDevice, evicted)

structure AddResult where
  registry : SessionRegistry
  replaced : Option OnlineConn
  evicted : List OnlineConn

def add (o : IterOrder Devices.Entry) (r : SessionRegistry) (conn : OnlineConn)
    (maxDevices : Nat) : AddResult :=
  let byDevice := r.byDevice conn.userId
  let replaced := byDevice.lookup conn.deviceId
  let byDevice := (byDevice.erase conn.deviceId).insert conn.deviceId conn
  let kept := evictSurplus o maxDevices byDevice.entries.length byDevice []
  { registry := r.setDevices conn.userId kept.1
    replaced := replaced
    evicted := kept.2 }

def remove (r : SessionRegistry) (userId : UInt64) (deviceId : StdString) :
    Bool × SessionRegistry :=
  match r.conns.lookup userId with
  | none => (false, r)
  | some byDevice =>
      let byDevice := byDevice.erase deviceId
      if byDevice.entries.isEmpty then (true, ⟨r.conns.erase userId⟩)
      else (true, r.setDevices userId byDevice)

def get (r : SessionRegistry) (userId : UInt64) (deviceId : StdString) :
    Option OnlineConn :=
  (r.conns.lookup userId).bind fun byDevice => byDevice.lookup deviceId

def getByUser (o : IterOrder Devices.Entry) (r : SessionRegistry)
    (userId : UInt64) : List OnlineConn :=
  (o.order (r.byDevice userId).entries).map (·.2)

def isUserOnline (r : SessionRegistry) (userId : UInt64) : Bool :=
  (r.conns.lookup userId).isSome

def userConnectionCount (r : SessionRegistry) (userId : UInt64) : Nat :=
  (r.byDevice userId).entries.length

/-- Update the registered object in place. -/
def modify (r : SessionRegistry) (userId : UInt64) (deviceId : StdString)
    (f : OnlineConn → OnlineConn) : SessionRegistry :=
  match r.get userId deviceId with
  | none => r
  | some conn =>
      r.setDevices userId ((r.byDevice userId).insert deviceId (f conn))

def touch (r : SessionRegistry) (userId : UInt64) (deviceId : StdString)
    (nowMs : Int) : SessionRegistry :=
  r.modify userId deviceId (·.touch nowMs)

def collectTimeouted (r : SessionRegistry) (deadlineMs : Int) :
    List OnlineConn :=
  r.conns.entries.flatMap fun user =>
    (user.2.entries.map (·.2)).filter (·.lastActiveTs ≤ deadlineMs)

def onlineUsers (r : SessionRegistry) : Nat :=
  r.conns.entries.length

def onlineConnections (r : SessionRegistry) : Nat :=
  (r.conns.entries.map fun user => user.2.entries.length).sum

/-! Lookups after each operation. -/

theorem get_eq_lookup_byDevice (r : SessionRegistry) (userId : UInt64)
    (deviceId : StdString) :
    r.get userId deviceId = (r.byDevice userId).lookup deviceId := by
  cases hlookup : r.conns.lookup userId with
  | none => simp [get, byDevice, hlookup]
  | some byDevice => simp [get, SessionRegistry.byDevice, hlookup]

theorem byDevice_setDevices (r : SessionRegistry) (userId userId' : UInt64)
    (devices : Devices) :
    (r.setDevices userId devices).byDevice userId' =
      if userId' = userId then devices else r.byDevice userId' := by
  by_cases huser : userId' = userId
  · subst huser
    simp [byDevice, setDevices]
  · simp [byDevice, setDevices, huser]

theorem isUserOnline_setDevices (r : SessionRegistry)
    (userId userId' : UInt64) (devices : Devices) :
    (r.setDevices userId devices).isUserOnline userId' =
      (decide (userId' = userId) || r.isUserOnline userId') := by
  by_cases huser : userId' = userId
  · subst huser
    simp [isUserOnline, setDevices]
  · simp [isUserOnline, setDevices, huser]

theorem isUserOnline_of_get {r : SessionRegistry} {userId : UInt64}
    {deviceId : StdString} {conn : OnlineConn}
    (hget : r.get userId deviceId = some conn) :
    r.isUserOnline userId = true := by
  cases hlookup : r.conns.lookup userId with
  | none => simp [get, hlookup] at hget
  | some byDevice => simp [isUserOnline, hlookup]

theorem mem_getByUser {o : IterOrder Devices.Entry} {r : SessionRegistry}
    {userId : UInt64} {conn : OnlineConn} :
    conn ∈ r.getByUser o userId ↔
      ∃ deviceId, r.get userId deviceId = some conn := by
  simp only [getByUser, List.mem_map, get_eq_lookup_byDevice, o.mem_order]
  constructor
  · rintro ⟨⟨deviceId, conn'⟩, hmem, rfl⟩
    exact ⟨deviceId, AList.mem_lookup_iff.mpr hmem⟩
  · rintro ⟨deviceId, hlookup⟩
    exact ⟨⟨deviceId, conn⟩, AList.mem_lookup_iff.mp hlookup, rfl⟩

theorem get_modify (r : SessionRegistry) (userId userId' : UInt64)
    (deviceId deviceId' : StdString) (f : OnlineConn → OnlineConn) :
    (r.modify userId deviceId f).get userId' deviceId' =
      if userId' = userId ∧ deviceId' = deviceId then
        (r.get userId deviceId).map f
      else r.get userId' deviceId' := by
  simp only [modify]
  cases hget : r.get userId deviceId with
  | none =>
      by_cases hkey : userId' = userId ∧ deviceId' = deviceId
      · simp [hkey.1, hkey.2, hget]
      · simp [hkey]
  | some conn =>
      simp only [get_eq_lookup_byDevice, byDevice_setDevices]
      by_cases huser : userId' = userId
      · subst huser
        by_cases hdevice : deviceId' = deviceId
        · subst hdevice
          simp
        · simp [hdevice]
      · simp [huser]

theorem isUserOnline_modify (r : SessionRegistry) (userId userId' : UInt64)
    (deviceId : StdString) (f : OnlineConn → OnlineConn) :
    (r.modify userId deviceId f).isUserOnline userId' =
      r.isUserOnline userId' := by
  simp only [modify]
  cases hget : r.get userId deviceId with
  | none => rfl
  | some conn =>
      by_cases huser : userId' = userId
      · subst huser
        simp [isUserOnline_setDevices, isUserOnline_of_get hget]
      · simp [isUserOnline_setDevices, huser]

/-- An emptied map of devices is dropped, so a removal acts on the devices of
its user alone. -/
theorem byDevice_remove (r : SessionRegistry) (userId userId' : UInt64)
    (deviceId : StdString) :
    (r.remove userId deviceId).2.byDevice userId' =
      if userId' = userId then (r.byDevice userId).erase deviceId
      else r.byDevice userId' := by
  simp only [remove]
  cases hlookup : r.conns.lookup userId with
  | none =>
      by_cases huser : userId' = userId
      · subst huser
        simp only [byDevice, hlookup, Option.getD_none, if_true]
        exact AList.ext rfl
      · simp [huser]
  | some devices =>
      have hdevices : r.byDevice userId = devices := by
        simp [byDevice, hlookup]
      by_cases hempty : (devices.erase deviceId).entries.isEmpty = true
      · have hnil : devices.erase deviceId = ∅ :=
          AList.ext (List.isEmpty_iff.mp hempty)
        by_cases huser : userId' = userId
        · subst huser
          simp [byDevice, hlookup, hnil]
        · simp [byDevice, hnil, huser]
      · simp only [hempty, Bool.false_eq_true, if_false,
          byDevice_setDevices, hdevices]

theorem get_remove (r : SessionRegistry) (userId userId' : UInt64)
    (deviceId deviceId' : StdString) :
    (r.remove userId deviceId).2.get userId' deviceId' =
      if userId' = userId ∧ deviceId' = deviceId then none
      else r.get userId' deviceId' := by
  rw [get_eq_lookup_byDevice, get_eq_lookup_byDevice, byDevice_remove]
  by_cases huser : userId' = userId
  · subst huser
    by_cases hdevice : deviceId' = deviceId
    · subst hdevice
      simp
    · simp [hdevice]
  · simp [huser]

theorem isUserOnline_remove_of_ne (r : SessionRegistry)
    {userId userId' : UInt64} (deviceId : StdString) (hne : userId' ≠ userId) :
    (r.remove userId deviceId).2.isUserOnline userId' =
      r.isUserOnline userId' := by
  simp only [remove]
  cases hlookup : r.conns.lookup userId with
  | none => rfl
  | some byDevice =>
      by_cases hempty : (byDevice.erase deviceId).entries.isEmpty = true
      · simp [isUserOnline, hempty, hne]
      · simp [isUserOnline_setDevices, hempty, hne]

/-! What the eviction loop keeps and what it hands back. -/

/-- The search is the library's: the first entry of least login time. -/
theorem oldest?_eq_argmin (o : IterOrder Devices.Entry) (byDevice : Devices) :
    oldest? o byDevice =
      (o.order byDevice.entries).argmin fun entry => entry.2.loginAt := by
  simp only [oldest?]
  cases o.order byDevice.entries with
  | nil => rfl
  | cons first rest =>
      have hfold : ∀ (l : List Devices.Entry) (start : Devices.Entry),
          some (l.foldl (fun oldest it =>
            if it.2.loginAt < oldest.2.loginAt then it else oldest) start) =
            l.foldl (List.argAux fun b c => b.2.loginAt < c.2.loginAt)
              (some start) := by
        intro l
        induction l with
        | nil =>
            intro start
            rfl
        | cons it l ih =>
            intro start
            rw [List.foldl_cons, List.foldl_cons, ih]
            simp only [List.argAux]
            split_ifs <;> rfl
      exact hfold rest first

theorem oldest?_mem {o : IterOrder Devices.Entry} {byDevice : Devices}
    {entry : Devices.Entry} (holdest : oldest? o byDevice = some entry) :
    entry ∈ byDevice.entries := by
  rw [oldest?_eq_argmin] at holdest
  exact (o.mem_order byDevice.entries entry).mp (List.argmin_mem holdest)

theorem oldest?_le {o : IterOrder Devices.Entry} {byDevice : Devices}
    {entry : Devices.Entry} (holdest : oldest? o byDevice = some entry) :
    ∀ other ∈ byDevice.entries, entry.2.loginAt ≤ other.2.loginAt := by
  intro other hmem
  rw [oldest?_eq_argmin] at holdest
  have hsearched := (o.mem_order byDevice.entries other).mpr hmem
  exact List.le_of_mem_argmin (f := fun e : Devices.Entry => e.2.loginAt)
    hsearched holdest

theorem oldest?_eq_none {o : IterOrder Devices.Entry} {byDevice : Devices}
    (hnone : oldest? o byDevice = none) : byDevice.entries = [] := by
  rw [oldest?_eq_argmin, List.argmin_eq_none] at hnone
  exact ((o.perm byDevice.entries).symm.trans (hnone ▸ List.Perm.refl _)).eq_nil

/-- `kept` and `gone` split the devices between them. -/
structure Splits (devices kept : Devices) (gone : List OnlineConn) : Prop where
  sub : ∀ d c, kept.lookup d = some c → devices.lookup d = some c
  covers : ∀ d c, devices.lookup d = some c →
    kept.lookup d = some c ∨ c ∈ gone
  source : ∀ c ∈ gone, ∃ d, devices.lookup d = some c ∧ kept.lookup d = none

theorem Splits.refl (devices : Devices) : Splits devices devices [] :=
  ⟨fun _ _ h => h, fun _ _ h => Or.inl h, fun _ h => by simp at h⟩

theorem Splits.erase {devices : Devices} {entry : Devices.Entry}
    (hmem : entry ∈ devices.entries) :
    Splits devices (devices.erase entry.1) [entry.2] where
  sub d c hkept := by
    by_cases hd : d = entry.1
    · subst hd
      rw [AList.lookup_erase] at hkept
      contradiction
    · rwa [AList.lookup_erase_ne hd] at hkept
  covers d c hlookup := by
    by_cases hd : d = entry.1
    · subst hd
      have hentry : devices.lookup entry.1 = some entry.2 :=
        AList.mem_lookup_iff.mpr hmem
      rw [hentry] at hlookup
      exact Or.inr (by simp [Option.some.inj hlookup])
    · exact Or.inl (by rwa [AList.lookup_erase_ne hd])
  source c hc := by
    rw [List.mem_singleton.mp hc]
    exact ⟨entry.1, AList.mem_lookup_iff.mpr hmem, AList.lookup_erase entry.1 devices⟩

theorem Splits.trans {devices middle kept : Devices}
    {gone₁ gone₂ : List OnlineConn} (hfirst : Splits devices middle gone₁)
    (hsecond : Splits middle kept gone₂) :
    Splits devices kept (gone₁ ++ gone₂) where
  sub d c hkept := hfirst.sub d c (hsecond.sub d c hkept)
  covers d c hlookup := by
    rcases hfirst.covers d c hlookup with hmiddle | hgone
    · rcases hsecond.covers d c hmiddle with hkept | hgone
      · exact Or.inl hkept
      · exact Or.inr (List.mem_append.mpr (Or.inr hgone))
    · exact Or.inr (List.mem_append.mpr (Or.inl hgone))
  source c hc := by
    rcases List.mem_append.mp hc with hgone | hgone
    · obtain ⟨d, hlookup, hmiddle⟩ := hfirst.source c hgone
      refine ⟨d, hlookup, ?_⟩
      cases hkept : kept.lookup d with
      | none => rfl
      | some c' => simp [hsecond.sub d c' hkept] at hmiddle
    · obtain ⟨d, hmiddle, hkept⟩ := hsecond.source c hgone
      exact ⟨d, hfirst.sub d c hmiddle, hkept⟩

theorem evictSurplus_splits (o : IterOrder Devices.Entry) (maxDevices rounds : Nat)
    (devices : Devices) (evicted : List OnlineConn) :
    ∃ gone, (evictSurplus o maxDevices rounds devices evicted).2 =
        evicted ++ gone ∧
      Splits devices (evictSurplus o maxDevices rounds devices evicted).1
        gone := by
  induction rounds generalizing devices evicted with
  | zero => exact ⟨[], by simp [evictSurplus], Splits.refl devices⟩
  | succ rounds ih =>
      simp only [evictSurplus]
      by_cases hsurplus : maxDevices < devices.entries.length
      · cases holdest : oldest? o devices with
        | none => exact ⟨[], by simp [hsurplus], by simpa [hsurplus] using Splits.refl devices⟩
        | some entry =>
            obtain ⟨gone, hgone, hsplits⟩ :=
              ih (devices.erase entry.1) (evicted ++ [entry.2])
            refine ⟨entry.2 :: gone, ?_, ?_⟩
            · simp [hsurplus, hgone]
            · simpa [hsurplus] using
                (Splits.erase (oldest?_mem holdest)).trans hsplits
      · exact ⟨[], by simp [hsurplus], by simpa [hsurplus] using Splits.refl devices⟩

/-- Erasing the key of an entry takes out that entry. -/
theorem perm_cons_erase {devices : Devices} {entry : Devices.Entry}
    (hmem : entry ∈ devices.entries) :
    devices.entries.Perm (entry :: (devices.erase entry.1).entries) := by
  obtain ⟨value, front, back, hfront, hsplit, hkerase⟩ :=
    List.exists_of_kerase (List.mem_keys_of_mem hmem)
  have hvalue : ⟨entry.1, value⟩ = entry := by
    have hfound : ⟨entry.1, value⟩ ∈ devices.entries := by
      rw [hsplit]
      simp
    have hsame := (AList.mem_lookup_iff.mpr hfound).symm.trans
      (AList.mem_lookup_iff.mpr hmem)
    rw [Option.some.inj hsame]
  change devices.entries.Perm (entry :: List.kerase entry.1 devices.entries)
  rw [hkerase, hsplit, hvalue]
  exact List.perm_middle

theorem length_erase_of_mem {devices : Devices} {entry : Devices.Entry}
    (hmem : entry ∈ devices.entries) :
    (devices.erase entry.1).entries.length + 1 = devices.entries.length := by
  rw [(perm_cons_erase hmem).length_eq, List.length_cons]

/-- The loop stops above the cap or at it, never below. -/
theorem evictSurplus_ne_empty (o : IterOrder Devices.Entry)
    {maxDevices : Nat} (hmax : 1 ≤ maxDevices) (rounds : Nat)
    (devices : Devices) (evicted : List OnlineConn)
    (hdevices : devices.entries ≠ []) :
    (evictSurplus o maxDevices rounds devices evicted).1.entries ≠ [] := by
  induction rounds generalizing devices evicted with
  | zero => exact hdevices
  | succ rounds ih =>
      simp only [evictSurplus]
      by_cases hsurplus : maxDevices < devices.entries.length
      · cases holdest : oldest? o devices with
        | none => simpa [hsurplus] using hdevices
        | some entry =>
            have hrest : (devices.erase entry.1).entries ≠ [] := by
              intro hnil
              have hlength := length_erase_of_mem (oldest?_mem holdest)
              rw [hnil, List.length_nil] at hlength
              omega
            simpa [hsurplus] using ih (devices.erase entry.1) _ hrest
      · simpa [hsurplus] using hdevices

/-- What `Add` does to the table. -/
structure AddSpec (r : SessionRegistry) (conn : OnlineConn)
    (res : AddResult) : Prop where
  others : ∀ u d, u ≠ conn.userId → res.registry.get u d = r.get u d
  online : ∀ u, res.registry.isUserOnline u =
    (decide (u = conn.userId) || r.isUserOnline u)
  replaced : res.replaced = r.get conn.userId conn.deviceId
  newcomer : res.registry.get conn.userId conn.deviceId = some conn ∨
    res.registry.get conn.userId conn.deviceId = none ∧ conn ∈ res.evicted
  sub : ∀ d c, d ≠ conn.deviceId → res.registry.get conn.userId d = some c →
    r.get conn.userId d = some c
  covers : ∀ d c, d ≠ conn.deviceId → r.get conn.userId d = some c →
    res.registry.get conn.userId d = some c ∨ c ∈ res.evicted
  source : ∀ c ∈ res.evicted,
    c = conn ∧ res.registry.get conn.userId conn.deviceId = none ∨
    ∃ d, d ≠ conn.deviceId ∧ r.get conn.userId d = some c ∧
      res.registry.get conn.userId d = none

theorem add_spec (o : IterOrder Devices.Entry) (r : SessionRegistry)
    (conn : OnlineConn) (maxDevices : Nat) :
    AddSpec r conn (r.add o conn maxDevices) := by
  let start := ((r.byDevice conn.userId).erase conn.deviceId).insert
    conn.deviceId conn
  obtain ⟨gone, hgone, hsplits⟩ :=
    evictSurplus_splits o maxDevices start.entries.length start []
  have hget : ∀ d, (r.add o conn maxDevices).registry.get conn.userId d =
      (evictSurplus o maxDevices start.entries.length start []).1.lookup d := by
    intro d
    rw [get_eq_lookup_byDevice]
    simp [add, byDevice_setDevices, start]
  have hevicted : (r.add o conn maxDevices).evicted = gone := by
    simpa [add, start] using hgone
  have hself : start.lookup conn.deviceId = some conn := by simp [start]
  have hother : ∀ d, d ≠ conn.deviceId →
      start.lookup d = r.get conn.userId d := by
    intro d hd
    simp [start, hd, get_eq_lookup_byDevice]
  refine ⟨?_, ?_, ?_, ?_, ?_, ?_, ?_⟩
  · intro u d hu
    simp only [get_eq_lookup_byDevice, add, byDevice_setDevices, if_neg hu]
  · intro u
    simp only [add, isUserOnline_setDevices]
  · simp only [add, get_eq_lookup_byDevice]
  · rw [hget, hevicted]
    rcases hsplits.covers conn.deviceId conn hself with hkept | hmem
    · exact Or.inl hkept
    · obtain ⟨d, hlookup, hnone⟩ := hsplits.source conn hmem
      cases hkept : (evictSurplus o maxDevices start.entries.length start []).1.lookup
          conn.deviceId with
      | none => exact Or.inr ⟨rfl, hmem⟩
      | some c =>
          have hc := hsplits.sub conn.deviceId c hkept
          rw [hself] at hc
          exact Or.inl hc.symm
  · intro d c hd hkept
    rw [hget] at hkept
    rw [← hother d hd]
    exact hsplits.sub d c hkept
  · intro d c hd hlookup
    rw [hget, hevicted]
    exact hsplits.covers d c (by rwa [hother d hd])
  · intro c hc
    rw [hevicted] at hc
    obtain ⟨d, hlookup, hnone⟩ := hsplits.source c hc
    by_cases hd : d = conn.deviceId
    · subst hd
      rw [hself] at hlookup
      exact Or.inl ⟨(Option.some.inj hlookup).symm, by rwa [hget]⟩
    · exact Or.inr ⟨d, hd, by rwa [← hother d hd], by rwa [hget]⟩

/-- A user stays online after a removal exactly when another device is left. -/
theorem isUserOnline_remove (r : SessionRegistry) (userId : UInt64)
    (deviceId : StdString) :
    (r.remove userId deviceId).2.isUserOnline userId = true ↔
      ∃ d c, d ≠ deviceId ∧ r.get userId d = some c := by
  have hremaining : ∀ d, d ≠ deviceId →
      (r.remove userId deviceId).2.get userId d = r.get userId d := by
    intro d hd
    simp [get_remove, hd]
  constructor
  · intro honline
    unfold remove at honline
    cases hlookup : r.conns.lookup userId with
    | none => simp [isUserOnline, hlookup] at honline
    | some devices =>
        by_cases hempty : (devices.erase deviceId).entries.isEmpty = true
        · simp [isUserOnline, hlookup, hempty] at honline
        · obtain ⟨entry, hmem⟩ := List.exists_mem_of_ne_nil _
            (fun hnil => hempty (List.isEmpty_iff.mpr hnil))
          have hentry : (devices.erase deviceId).lookup entry.1 = some entry.2 :=
            AList.mem_lookup_iff.mpr hmem
          have hne : entry.1 ≠ deviceId := by
            intro heq
            rw [heq, AList.lookup_erase] at hentry
            contradiction
          refine ⟨entry.1, entry.2, hne, ?_⟩
          rw [AList.lookup_erase_ne hne] at hentry
          simp [get, hlookup, hentry]
  · rintro ⟨d, c, hd, hget⟩
    exact isUserOnline_of_get ((hremaining d hd).trans hget)

/-- Connections sit under their own keys and no session is registered twice. -/
structure Separated (r : SessionRegistry) : Prop where
  keyed : ∀ {u d c}, r.get u d = some c → c.userId = u ∧ c.deviceId = d
  distinct : ∀ {u d c u' d' c'}, r.get u d = some c → r.get u' d' = some c' →
    c.session = c'.session → u = u' ∧ d = d'

/-- Representation invariant under a positive cap: no user keeps an empty map
of devices. -/
structure WellFormed (r : SessionRegistry) : Prop extends Separated r where
  inhabited : ∀ {u}, r.isUserOnline u = true → ∃ d c, r.get u d = some c

theorem wellFormed_empty : WellFormed {} :=
  ⟨⟨fun h => by simp [get] at h, fun h => by simp [get] at h⟩,
    fun h => by simp [isUserOnline] at h⟩

theorem userConnectionCount_pos_iff {r : SessionRegistry} {u : UInt64} :
    0 < r.userConnectionCount u ↔ ∃ d c, r.get u d = some c := by
  simp only [userConnectionCount]
  rw [List.length_pos_iff_exists_mem]
  simp only [get_eq_lookup_byDevice]
  exact ⟨fun ⟨entry, hmem⟩ => ⟨entry.1, entry.2, AList.mem_lookup_iff.mpr hmem⟩,
    fun ⟨d, c, hlookup⟩ => ⟨⟨d, c⟩, AList.mem_lookup_iff.mp hlookup⟩⟩

/-- Every entry after `Add` is the newcomer or an entry from before. -/
theorem AddSpec.get_cases {r : SessionRegistry} {conn : OnlineConn}
    {res : AddResult} (hadd : AddSpec r conn res) {u : UInt64} {d : StdString}
    {c : OnlineConn} (hget : res.registry.get u d = some c) :
    (u = conn.userId ∧ d = conn.deviceId ∧ c = conn) ∨
      ((u ≠ conn.userId ∨ d ≠ conn.deviceId) ∧ r.get u d = some c) := by
  by_cases hu : u = conn.userId
  · subst hu
    by_cases hd : d = conn.deviceId
    · subst hd
      rcases hadd.newcomer with hnew | ⟨hnone, _⟩
      · rw [hnew] at hget
        exact Or.inl ⟨rfl, rfl, (Option.some.inj hget).symm⟩
      · rw [hnone] at hget
        contradiction
    · exact Or.inr ⟨Or.inr hd, hadd.sub d c hd hget⟩
  · exact Or.inr ⟨Or.inl hu, by rwa [← hadd.others u d hu]⟩

/-- Under their own keys before, the entries are so after `Add`. -/
theorem AddSpec.keyed {r : SessionRegistry} {conn : OnlineConn} {res : AddResult}
    (hadd : AddSpec r conn res)
    (hkeyed : ∀ {u d c}, r.get u d = some c → c.userId = u ∧ c.deviceId = d)
    {u : UInt64} {d : StdString} {c : OnlineConn}
    (hget : res.registry.get u d = some c) : c.userId = u ∧ c.deviceId = d := by
  rcases hadd.get_cases hget with ⟨rfl, rfl, rfl⟩ | ⟨_, hold⟩
  · exact ⟨rfl, rfl⟩
  · exact hkeyed hold

/-- The connections `Add` hands back. -/
def AddResult.handedBack (res : AddResult) : List OnlineConn :=
  res.replaced.toList ++ res.evicted

/-- Every entry from before is kept or handed back. -/
theorem AddSpec.kept_or_handedBack {r : SessionRegistry} {conn : OnlineConn}
    {res : AddResult} (hadd : AddSpec r conn res) {u : UInt64} {d : StdString}
    {c : OnlineConn} (hget : r.get u d = some c) :
    res.registry.get u d = some c ∨ c ∈ res.handedBack := by
  by_cases hu : u = conn.userId
  · subst hu
    by_cases hd : d = conn.deviceId
    · subst hd
      refine Or.inr (List.mem_append.mpr (Or.inl ?_))
      rw [hadd.replaced, hget]
      simp
    · exact (hadd.covers d c hd hget).imp id
        fun hmem => List.mem_append.mpr (Or.inr hmem)
  · exact Or.inl (by rwa [hadd.others u d hu])

/-- What is handed back is the newcomer itself or an entry from before, and no
longer registered. -/
theorem AddSpec.handedBack_cases {r : SessionRegistry} {conn : OnlineConn}
    {res : AddResult} (hadd : AddSpec r conn res) {c : OnlineConn}
    (hmem : c ∈ res.handedBack) :
    (c = conn ∧ res.registry.get conn.userId conn.deviceId = none) ∨
      ∃ d, r.get conn.userId d = some c ∧
        (d = conn.deviceId ∨ res.registry.get conn.userId d = none) := by
  rcases List.mem_append.mp hmem with hreplaced | hevicted
  · rw [hadd.replaced, Option.mem_toList] at hreplaced
    exact Or.inr ⟨conn.deviceId, hreplaced, Or.inl rfl⟩
  · exact (hadd.source c hevicted).imp id
      fun ⟨d, _, hget, hnone⟩ => ⟨d, hget, Or.inr hnone⟩

/-- What stays registered does not share its session with what is handed back. -/
theorem AddSpec.session_ne_of_handedBack {r : SessionRegistry}
    {conn : OnlineConn} {res : AddResult} (hadd : AddSpec r conn res)
    (hdistinct : ∀ {u d c u' d' c'}, r.get u d = some c →
      r.get u' d' = some c' → c.session = c'.session → u = u' ∧ d = d')
    (hfresh : ∀ u d c, r.get u d = some c → c.session ≠ conn.session)
    {u : UInt64} {d : StdString} {c : OnlineConn}
    (hget : res.registry.get u d = some c) {c' : OnlineConn}
    (hmem : c' ∈ res.handedBack) : c'.session ≠ c.session := by
  rcases hadd.get_cases hget with ⟨rfl, rfl, rfl⟩ | ⟨hkey, hold⟩
  · rcases hadd.handedBack_cases hmem with ⟨_, hnone⟩ | ⟨d', hget', _⟩
    · rw [hnone] at hget
      contradiction
    · exact hfresh _ _ _ hget'
  · rcases hadd.handedBack_cases hmem with ⟨rfl, _⟩ | ⟨d', hget', hgone⟩
    · exact (hfresh _ _ _ hold).symm
    · intro hsame
      obtain ⟨rfl, rfl⟩ := hdistinct hget' hold hsame
      rcases hgone with hdevice | hnone
      · exact hkey.elim (fun hne => hne rfl) fun hne => hne hdevice
      · rw [hnone] at hget
        contradiction

theorem add_entries_ne_nil (o : IterOrder Devices.Entry) (r : SessionRegistry)
    (conn : OnlineConn) {maxDevices : Nat} (hmax : 1 ≤ maxDevices) :
    ∃ d c, (r.add o conn maxDevices).registry.get conn.userId d = some c := by
  let start := ((r.byDevice conn.userId).erase conn.deviceId).insert
    conn.deviceId conn
  have hstart : start.entries ≠ [] := by
    intro hnil
    have hself : start.lookup conn.deviceId = some conn := by simp [start]
    have hmem := AList.mem_lookup_iff.mp hself
    simp [hnil] at hmem
  obtain ⟨entry, hmem⟩ := List.exists_mem_of_ne_nil _
    (evictSurplus_ne_empty o hmax start.entries.length start [] hstart)
  refine ⟨entry.1, entry.2, ?_⟩
  rw [get_eq_lookup_byDevice]
  simp only [add, byDevice_setDevices, if_true]
  exact AList.mem_lookup_iff.mpr hmem

/-- With a free place nobody is evicted. -/
theorem get_add_of_room (o : IterOrder Devices.Entry) {r : SessionRegistry}
    {conn : OnlineConn} {maxDevices : Nat}
    (hroom : r.userConnectionCount conn.userId < maxDevices) (u : UInt64)
    (d : StdString) :
    (r.add o conn maxDevices).registry.get u d =
      if u = conn.userId ∧ d = conn.deviceId then some conn else r.get u d := by
  let start := ((r.byDevice conn.userId).erase conn.deviceId).insert
    conn.deviceId conn
  have hlength : start.entries.length ≤ maxDevices := by
    have herase : ((r.byDevice conn.userId).erase conn.deviceId).entries.length ≤
        (r.byDevice conn.userId).entries.length :=
      (List.kerase_sublist _ _).length_le
    have hinsert : start.entries.length ≤
        ((r.byDevice conn.userId).erase conn.deviceId).entries.length + 1 := by
      simp only [start, AList.entries_insert, List.length_cons]
      exact Nat.succ_le_succ (List.kerase_sublist _ _).length_le
    unfold userConnectionCount at hroom
    omega
  have hkept : (evictSurplus o maxDevices start.entries.length start []).1 =
      start := by
    cases start.entries.length with
    | zero => rfl
    | succ rounds => simp [evictSurplus, Nat.not_lt.mpr hlength]
  rw [get_eq_lookup_byDevice]
  simp only [add, byDevice_setDevices]
  by_cases huser : u = conn.userId
  · subst huser
    change AList.lookup d (if conn.userId = conn.userId then
      (evictSurplus o maxDevices start.entries.length start []).1 else _) = _
    rw [if_pos rfl, hkept]
    by_cases hdevice : d = conn.deviceId
    · subst hdevice
      simp [start]
    · simp [start, hdevice, get_eq_lookup_byDevice]
  · simp [huser, get_eq_lookup_byDevice]

theorem WellFormed.add {r : SessionRegistry} (hr : r.WellFormed)
    (o : IterOrder Devices.Entry) (conn : OnlineConn) {maxDevices : Nat}
    (hmax : 1 ≤ maxDevices)
    (hfresh : ∀ u d c, r.get u d = some c → c.session ≠ conn.session) :
    (r.add o conn maxDevices).registry.WellFormed where
  keyed := (add_spec o r conn maxDevices).keyed hr.keyed
  inhabited {u} honline := by
    have hadd := add_spec o r conn maxDevices
    by_cases hu : u = conn.userId
    · subst hu
      exact add_entries_ne_nil o r conn hmax
    · rw [hadd.online] at honline
      obtain ⟨d, c, hget⟩ := hr.inhabited (by simpa [hu] using honline)
      exact ⟨d, c, (hadd.others u d hu).trans hget⟩
  distinct hget hget' hsame := by
    have hadd := add_spec o r conn maxDevices
    rcases hadd.get_cases hget with ⟨rfl, rfl, rfl⟩ | ⟨_, hold⟩ <;>
      rcases hadd.get_cases hget' with ⟨rfl, rfl, rfl⟩ | ⟨_, hold'⟩
    · exact ⟨rfl, rfl⟩
    · exact absurd hsame.symm (hfresh _ _ _ hold')
    · exact absurd hsame (hfresh _ _ _ hold)
    · exact hr.distinct hold hold' hsame

theorem get_of_get_remove {r : SessionRegistry} {userId u : UInt64}
    {deviceId d : StdString} {c : OnlineConn}
    (hget : (r.remove userId deviceId).2.get u d = some c) :
    r.get u d = some c := by
  rw [get_remove] at hget
  split_ifs at hget
  exact hget

/-- Whoever is still online after a removal still has an entry. -/
theorem exists_get_remove {r : SessionRegistry} {userId u : UInt64}
    {deviceId : StdString}
    (hinhabited : r.isUserOnline u = true → ∃ d c, r.get u d = some c)
    (honline : (r.remove userId deviceId).2.isUserOnline u = true) :
    ∃ d c, (r.remove userId deviceId).2.get u d = some c := by
  by_cases hu : u = userId
  · subst hu
    obtain ⟨d, c, hd, hget⟩ := (isUserOnline_remove r u deviceId).mp honline
    exact ⟨d, c, by simpa [get_remove, hd] using hget⟩
  · rw [isUserOnline_remove_of_ne r deviceId hu] at honline
    obtain ⟨d, c, hget⟩ := hinhabited honline
    exact ⟨d, c, by simpa [get_remove, hu] using hget⟩

theorem WellFormed.remove {r : SessionRegistry} (hr : r.WellFormed)
    (userId : UInt64) (deviceId : StdString) :
    (r.remove userId deviceId).2.WellFormed where
  keyed hget := hr.keyed (get_of_get_remove hget)
  inhabited honline := exists_get_remove hr.inhabited honline
  distinct hget hget' hsame :=
    hr.distinct (get_of_get_remove hget) (get_of_get_remove hget') hsame

/-- An entry after an update in place comes from one with the same identity. -/
theorem get_of_get_modify {r : SessionRegistry} {userId u : UInt64}
    {deviceId d : StdString} {f : OnlineConn → OnlineConn}
    (hf : ∀ c : OnlineConn, c.SameConn (f c)) {c : OnlineConn}
    (hget : (r.modify userId deviceId f).get u d = some c) :
    ∃ c₀, r.get u d = some c₀ ∧ c₀.SameConn c := by
  rw [get_modify] at hget
  split_ifs at hget with hkey
  · obtain ⟨c₀, hc₀, rfl⟩ := Option.map_eq_some_iff.mp hget
    exact ⟨c₀, by rw [hkey.1, hkey.2]; exact hc₀, hf c₀⟩
  · exact ⟨c, hget, ⟨rfl, rfl, rfl, rfl, rfl⟩⟩

theorem get_modify_of_get {r : SessionRegistry} {u : UInt64} {d : StdString}
    (userId : UInt64) (deviceId : StdString) {f : OnlineConn → OnlineConn}
    (hf : ∀ c : OnlineConn, c.SameConn (f c)) {c : OnlineConn}
    (hget : r.get u d = some c) :
    ∃ c', (r.modify userId deviceId f).get u d = some c' ∧ c.SameConn c' := by
  rw [get_modify]
  split_ifs with hkey
  · rw [hkey.1, hkey.2] at hget
    exact ⟨f c, by simp [hget], hf c⟩
  · exact ⟨c, hget, ⟨rfl, rfl, rfl, rfl, rfl⟩⟩

/-- The same connections under the same keys, whatever became of their buckets
and activity stamps. -/
structure SameEntries (r r' : SessionRegistry) : Prop where
  back : ∀ {u d c}, r'.get u d = some c → ∃ c₀, r.get u d = some c₀ ∧ c₀.SameConn c
  forth : ∀ {u d c}, r.get u d = some c → ∃ c', r'.get u d = some c' ∧ c.SameConn c'
  online : ∀ u, r'.isUserOnline u = r.isUserOnline u

theorem SameEntries.refl (r : SessionRegistry) : SameEntries r r :=
  ⟨fun hget => ⟨_, hget, rfl, rfl, rfl, rfl, rfl⟩,
    fun hget => ⟨_, hget, rfl, rfl, rfl, rfl, rfl⟩, fun _ => rfl⟩

theorem SameEntries.trans {r₁ r₂ r₃ : SessionRegistry}
    (hfirst : SameEntries r₁ r₂) (hsecond : SameEntries r₂ r₃) :
    SameEntries r₁ r₃ where
  back hget := by
    obtain ⟨c₂, hget₂, hsame₂⟩ := hsecond.back hget
    obtain ⟨c₁, hget₁, hsame₁⟩ := hfirst.back hget₂
    exact ⟨c₁, hget₁, hsame₁.trans hsame₂⟩
  forth hget := by
    obtain ⟨c₂, hget₂, hsame₂⟩ := hfirst.forth hget
    obtain ⟨c₃, hget₃, hsame₃⟩ := hsecond.forth hget₂
    exact ⟨c₃, hget₃, hsame₂.trans hsame₃⟩
  online u := (hsecond.online u).trans (hfirst.online u)

theorem sameEntries_modify (r : SessionRegistry) (userId : UInt64)
    (deviceId : StdString) {f : OnlineConn → OnlineConn}
    (hf : ∀ c : OnlineConn, c.SameConn (f c)) :
    SameEntries r (r.modify userId deviceId f) :=
  ⟨fun hget => get_of_get_modify hf hget,
    fun hget => get_modify_of_get userId deviceId hf hget,
    fun u => isUserOnline_modify r userId u deviceId f⟩

theorem sameEntries_touch (r : SessionRegistry) (userId : UInt64)
    (deviceId : StdString) (nowMs : Int) :
    SameEntries r (r.touch userId deviceId nowMs) :=
  sameEntries_modify r userId deviceId fun c => c.sameConn_touch nowMs

theorem WellFormed.sameEntries {r r' : SessionRegistry} (hr : r.WellFormed)
    (hsame : SameEntries r r') : r'.WellFormed where
  keyed hget := by
    obtain ⟨c₀, hold, hc⟩ := hsame.back hget
    rw [hc.userId, hc.deviceId]
    exact hr.keyed hold
  inhabited {u} honline := by
    rw [hsame.online] at honline
    obtain ⟨d, c, hget⟩ := hr.inhabited honline
    obtain ⟨c', hget', _⟩ := hsame.forth hget
    exact ⟨d, c', hget'⟩
  distinct hget hget' hsession := by
    obtain ⟨c₀, hold, hc⟩ := hsame.back hget
    obtain ⟨c₀', hold', hc'⟩ := hsame.back hget'
    exact hr.distinct hold hold' (by rw [← hc.session, ← hc'.session, hsession])

end SessionRegistry

end FlzChat
