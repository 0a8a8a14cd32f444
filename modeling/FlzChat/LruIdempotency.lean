/-
The idempotency cache: a list of marks in order of age and an index from keys
into the list.  A list node keeps the address an iterator refers to, so that
the index can be wrong in the way the original could be.
-/
import FlzChat.Metrics

namespace FlzChat

structure LruNode where
  address : Nat
  key : StdString
  expireAtMs : Int
deriving DecidableEq

structure LruIdempotencyCache where
  capacity : Nat
  ttlMs : Int
  lru : List LruNode := []
  index : KeyMap StdString Nat := ∅
  nextAddress : Nat := 0

namespace LruIdempotencyCache

/-- The node an iterator refers to; a dangling one refers to none, which
`Coherent` rules out for the iterators of the index. -/
def deref (c : LruIdempotencyCache) (address : Nat) : Option LruNode :=
  c.lru.find? fun node => node.address == address

/-- Drop the oldest node and its index entry. -/
def popBack (c : LruIdempotencyCache) (tail : LruNode) : LruIdempotencyCache :=
  { c with lru := c.lru.dropLast, index := c.index.erase tail.key }

/-- The loop of `Sweep`; each round drops a node. -/
def sweepRounds (nowMs : Int) : Nat → LruIdempotencyCache → LruIdempotencyCache
  | 0, c => c
  | rounds + 1, c =>
      match c.lru.getLast? with
      | none => c
      | some tail =>
          if nowMs < tail.expireAtMs ∧ c.lru.length ≤ c.capacity then c
          else sweepRounds nowMs rounds (c.popBack tail)

def sweep (c : LruIdempotencyCache) (nowMs : Int) : LruIdempotencyCache :=
  sweepRounds nowMs c.lru.length c

/-- The overflow loop at the end of `TryMark`. -/
def trimRounds : Nat → LruIdempotencyCache → LruIdempotencyCache
  | 0, c => c
  | rounds + 1, c =>
      if c.capacity < c.lru.length then
        match c.lru.getLast? with
        | none => c
        | some tail => trimRounds rounds (c.popBack tail)
      else c

def pushFront (c : LruIdempotencyCache) (key : StdString) (nowMs : Int) :
    LruIdempotencyCache :=
  { c with
    lru := ⟨c.nextAddress, key, nowMs + c.ttlMs⟩ :: c.lru
    index := c.index.insert key c.nextAddress
    nextAddress := c.nextAddress + 1 }

def mark (c : LruIdempotencyCache) (key : StdString) (nowMs : Int) :
    LruIdempotencyCache :=
  let c := c.pushFront key nowMs
  trimRounds c.lru.length c

/-- Erase the node an index entry refers to, then the entry. -/
def eraseAt (c : LruIdempotencyCache) (key : StdString) (address : Nat) :
    LruIdempotencyCache :=
  { c with
    lru := c.lru.filter fun node => node.address != address
    index := c.index.erase key }

def tryMark (c : LruIdempotencyCache) (key : StdString) (nowMs : Int) :
    Bool × LruIdempotencyCache :=
  if key = [] then (false, c)
  else
    let c := c.sweep nowMs
    match c.index.lookup key with
    | none => (true, c.mark key nowMs)
    | some address =>
        if (c.deref address).any fun node => decide (nowMs < node.expireAtMs)
        then (false, c)
        else (true, (c.eraseAt key address).mark key nowMs)

/-- The list and the index agree. -/
structure Coherent (c : LruIdempotencyCache) : Prop where
  keys : (c.lru.map (·.key)).Nodup
  addresses : (c.lru.map (·.address)).Nodup
  allocated : ∀ node ∈ c.lru, node.address < c.nextAddress
  nonempty : ∀ node ∈ c.lru, node.key ≠ []
  index_iff : ∀ key address, c.index.lookup key = some address ↔
    ∃ node ∈ c.lru, node.key = key ∧ node.address = address

theorem coherent_new (capacity : Nat) (ttlMs : Int) :
    Coherent ⟨capacity, ttlMs, [], ∅, 0⟩ :=
  ⟨List.nodup_nil, List.nodup_nil, by simp, by simp, by simp⟩

/-- Within the capacity, as every call of `TryMark` leaves the cache. -/
def Bounded (c : LruIdempotencyCache) : Prop :=
  c.lru.length ≤ c.capacity

/-- The key has a mark that has not expired. -/
def Live (c : LruIdempotencyCache) (key : StdString) (nowMs : Int) : Prop :=
  ∃ node ∈ c.lru, node.key = key ∧ nowMs < node.expireAtMs

instance (c : LruIdempotencyCache) (key : StdString) (nowMs : Int) :
    Decidable (c.Live key nowMs) :=
  inferInstanceAs (Decidable (∃ node ∈ c.lru, _))

theorem deref_eq_some {c : LruIdempotencyCache} {address : Nat}
    {node : LruNode} (hderef : c.deref address = some node) :
    node ∈ c.lru ∧ node.address = address :=
  ⟨List.mem_of_find?_eq_some hderef, by
    simpa using List.find?_some hderef⟩

/-- An index entry leads to the node that holds its key. -/
theorem Coherent.deref_of_mem {c : LruIdempotencyCache} (hc : c.Coherent)
    {node : LruNode} (hnode : node ∈ c.lru) :
    c.deref node.address = some node := by
  cases hderef : c.deref node.address with
  | none =>
      have := List.find?_eq_none.mp hderef node hnode
      simp at this
  | some found =>
      obtain ⟨hfound, haddress⟩ := deref_eq_some hderef
      exact congrArg some
        (List.inj_on_of_nodup_map hc.addresses hfound hnode haddress)

/-- The last node splits off the list. -/
theorem lru_eq_dropLast_append {c : LruIdempotencyCache} {tail : LruNode}
    (htail : c.lru.getLast? = some tail) : c.lru = c.lru.dropLast ++ [tail] :=
  (List.dropLast_append_getLast? tail htail).symm

theorem Coherent.popBack {c : LruIdempotencyCache} (hc : c.Coherent)
    {tail : LruNode} (htail : c.lru.getLast? = some tail) :
    (c.popBack tail).Coherent := by
  have hsplit := lru_eq_dropLast_append htail
  have hkeys := hc.keys
  rw [hsplit, List.map_append, List.nodup_append'] at hkeys
  have hother : ∀ node ∈ c.lru.dropLast, node.key ≠ tail.key := by
    intro node hnode heq
    exact hkeys.2.2 (List.mem_map_of_mem hnode) (by simp [heq])
  have hsub : ∀ node ∈ c.lru.dropLast, node ∈ c.lru :=
    fun node hnode => List.mem_of_mem_dropLast hnode
  refine ⟨hkeys.1, ?_, fun node hnode => hc.allocated node (hsub node hnode),
    fun node hnode => hc.nonempty node (hsub node hnode), ?_⟩
  · exact hc.addresses.sublist ((List.dropLast_sublist c.lru).map _)
  · intro key address
    change (c.index.erase tail.key).lookup key = some address ↔
      ∃ node ∈ c.lru.dropLast, _
    by_cases hkey : key = tail.key
    · subst hkey
      simp only [AList.lookup_erase, reduceCtorEq, false_iff]
      rintro ⟨node, hnode, heq, _⟩
      exact hother node hnode heq
    · rw [AList.lookup_erase_ne hkey, hc.index_iff]
      constructor
      · rintro ⟨node, hnode, heq, haddress⟩
        rw [hsplit, List.mem_append, List.mem_singleton] at hnode
        rcases hnode with hnode | rfl
        · exact ⟨node, hnode, heq, haddress⟩
        · exact absurd heq.symm hkey
      · rintro ⟨node, hnode, heq, haddress⟩
        exact ⟨node, hsub node hnode, heq, haddress⟩

theorem Coherent.sweepRounds {c : LruIdempotencyCache} (hc : c.Coherent)
    (nowMs : Int) (rounds : Nat) :
    (sweepRounds nowMs rounds c).Coherent := by
  induction rounds generalizing c with
  | zero => exact hc
  | succ rounds ih =>
      simp only [LruIdempotencyCache.sweepRounds]
      cases htail : c.lru.getLast? with
      | none => exact hc
      | some tail =>
          simp only
          split_ifs
          · exact hc
          · exact ih (hc.popBack htail)

theorem Coherent.sweep {c : LruIdempotencyCache} (hc : c.Coherent)
    (nowMs : Int) : (c.sweep nowMs).Coherent :=
  hc.sweepRounds nowMs c.lru.length

theorem Coherent.trimRounds {c : LruIdempotencyCache} (hc : c.Coherent)
    (rounds : Nat) : (trimRounds rounds c).Coherent := by
  induction rounds generalizing c with
  | zero => exact hc
  | succ rounds ih =>
      simp only [LruIdempotencyCache.trimRounds]
      split_ifs
      · cases htail : c.lru.getLast? with
        | none => exact hc
        | some tail => exact ih (hc.popBack htail)
      · exact hc

theorem Coherent.pushFront {c : LruIdempotencyCache} (hc : c.Coherent)
    {key : StdString} (hkey : key ≠ []) (habsent : c.index.lookup key = none)
    (nowMs : Int) : (c.pushFront key nowMs).Coherent := by
  have hnew : ∀ node ∈ c.lru, node.key ≠ key := by
    intro node hnode heq
    have := (hc.index_iff key node.address).mpr ⟨node, hnode, heq, rfl⟩
    rw [habsent] at this
    contradiction
  have hfresh : ∀ node ∈ c.lru, node.address ≠ c.nextAddress :=
    fun node hnode => (hc.allocated node hnode).ne
  refine ⟨?_, ?_, ?_, ?_, ?_⟩
  · simp only [LruIdempotencyCache.pushFront, List.map_cons, List.nodup_cons,
      List.mem_map, not_exists, not_and]
    exact ⟨hnew, hc.keys⟩
  · simp only [LruIdempotencyCache.pushFront, List.map_cons, List.nodup_cons,
      List.mem_map, not_exists, not_and]
    exact ⟨hfresh, hc.addresses⟩
  · intro node hnode
    rcases List.mem_cons.mp hnode with rfl | hnode
    · exact Nat.lt_succ_self _
    · exact Nat.lt_succ_of_lt (hc.allocated node hnode)
  · intro node hnode
    rcases List.mem_cons.mp hnode with rfl | hnode
    · exact hkey
    · exact hc.nonempty node hnode
  · intro key' address
    simp only [LruIdempotencyCache.pushFront, List.exists_mem_cons_iff]
    by_cases heq : key' = key
    · subst heq
      simp only [AList.lookup_insert, Option.some.injEq, true_and]
      constructor
      · exact Or.inl
      · rintro (hnode | ⟨node, hnode, hsame, _⟩)
        · exact hnode
        · exact absurd hsame (hnew node hnode)
    · rw [AList.lookup_insert_ne heq, hc.index_iff]
      constructor
      · exact Or.inr
      · rintro (⟨hsame, _⟩ | hold)
        · exact absurd hsame.symm heq
        · exact hold

theorem Coherent.mark {c : LruIdempotencyCache} (hc : c.Coherent)
    {key : StdString} (hkey : key ≠ []) (habsent : c.index.lookup key = none)
    (nowMs : Int) : (c.mark key nowMs).Coherent :=
  (hc.pushFront hkey habsent nowMs).trimRounds _

theorem Coherent.eraseAt {c : LruIdempotencyCache} (hc : c.Coherent)
    {key : StdString} {address : Nat}
    (hlookup : c.index.lookup key = some address) :
    (c.eraseAt key address).Coherent := by
  obtain ⟨target, htarget, hkey, haddress⟩ := (hc.index_iff key address).mp hlookup
  have hmem : ∀ node, node ∈ (c.eraseAt key address).lru ↔
      node ∈ c.lru ∧ node.address ≠ address := by
    intro node
    simp [LruIdempotencyCache.eraseAt]
  have hsub : (c.eraseAt key address).lru.Sublist c.lru := List.filter_sublist
  refine ⟨hc.keys.sublist (hsub.map _), hc.addresses.sublist (hsub.map _),
    fun node hnode => hc.allocated node ((hmem node).mp hnode).1,
    fun node hnode => hc.nonempty node ((hmem node).mp hnode).1, ?_⟩
  intro key' address'
  by_cases heq : key' = key
  · subst heq
    have hnone : (c.eraseAt key' address).index.lookup key' = none := by
      simp [LruIdempotencyCache.eraseAt]
    rw [hnone]
    simp only [reduceCtorEq, false_iff]
    rintro ⟨node, hnode, hsame, _⟩
    obtain ⟨hnode, hne⟩ := (hmem node).mp hnode
    have := List.inj_on_of_nodup_map hc.keys hnode htarget (hsame.trans hkey.symm)
    exact hne (this ▸ haddress)
  · have hother : (c.eraseAt key address).index.lookup key' =
        c.index.lookup key' := AList.lookup_erase_ne heq
    rw [hother, hc.index_iff]
    constructor
    · rintro ⟨node, hnode, hsame, hat⟩
      refine ⟨node, (hmem node).mpr ⟨hnode, ?_⟩, hsame, hat⟩
      intro hclash
      have := List.inj_on_of_nodup_map hc.addresses hnode htarget
        (hclash.trans haddress.symm)
      exact heq (hsame.symm.trans (this ▸ hkey))
    · rintro ⟨node, hnode, hsame, hat⟩
      exact ⟨node, ((hmem node).mp hnode).1, hsame, hat⟩

theorem Coherent.tryMark {c : LruIdempotencyCache} (hc : c.Coherent)
    (key : StdString) (nowMs : Int) : (c.tryMark key nowMs).2.Coherent := by
  simp only [LruIdempotencyCache.tryMark]
  by_cases hkey : key = []
  · simpa [hkey] using hc
  · have hswept := hc.sweep nowMs
    simp only [hkey, if_false]
    cases hlookup : (c.sweep nowMs).index.lookup key with
    | none => exact hswept.mark hkey hlookup nowMs
    | some address =>
        simp only
        split_ifs
        · exact hswept
        · exact (hswept.eraseAt hlookup).mark hkey
            (by simp [LruIdempotencyCache.eraseAt]) nowMs

/-! The size of the list. -/

@[simp]
theorem popBack_length (c : LruIdempotencyCache) (tail : LruNode) :
    (c.popBack tail).lru.length = c.lru.length - 1 := by
  simp [popBack]

theorem Bounded.sweepRounds {c : LruIdempotencyCache} (hc : c.Bounded)
    (nowMs : Int) (rounds : Nat) : (sweepRounds nowMs rounds c).Bounded := by
  induction rounds generalizing c with
  | zero => exact hc
  | succ rounds ih =>
      simp only [LruIdempotencyCache.sweepRounds]
      cases c.lru.getLast? with
      | none => exact hc
      | some tail =>
          simp only
          split_ifs
          · exact hc
          · apply ih
            change (c.popBack tail).lru.length ≤ c.capacity
            rw [popBack_length]
            exact Nat.le_trans (Nat.sub_le _ _) hc

theorem Bounded.sweep {c : LruIdempotencyCache} (hc : c.Bounded)
    (nowMs : Int) : (c.sweep nowMs).Bounded :=
  hc.sweepRounds nowMs c.lru.length

/-- As many rounds as nodes bring the list down to the capacity. -/
theorem bounded_trimRounds {c : LruIdempotencyCache} {rounds : Nat}
    (hrounds : c.lru.length ≤ rounds) : (trimRounds rounds c).Bounded := by
  induction rounds generalizing c with
  | zero =>
      have : c.lru.length = 0 := Nat.le_zero.mp hrounds
      simp [trimRounds, Bounded, this]
  | succ rounds ih =>
      simp only [trimRounds]
      split_ifs with hsurplus
      · cases htail : c.lru.getLast? with
        | none => simp [List.getLast?_eq_none_iff.mp htail] at hsurplus
        | some tail => exact ih (by simp only [popBack_length]; omega)
      · exact Nat.le_of_not_lt hsurplus

theorem bounded_mark (c : LruIdempotencyCache) (key : StdString)
    (nowMs : Int) : (c.mark key nowMs).Bounded :=
  bounded_trimRounds (Nat.le_refl _)

theorem Bounded.tryMark {c : LruIdempotencyCache} (hc : c.Bounded)
    (key : StdString) (nowMs : Int) : (c.tryMark key nowMs).2.Bounded := by
  simp only [LruIdempotencyCache.tryMark]
  by_cases hkey : key = []
  · simpa [hkey] using hc
  · simp only [hkey, if_false]
    cases (c.sweep nowMs).index.lookup key with
    | none => exact bounded_mark _ key nowMs
    | some address =>
        simp only
        split_ifs
        · exact hc.sweep nowMs
        · exact bounded_mark _ key nowMs

/-! Which calls are refused. -/

/-- Within the capacity a sweep removes expired marks only. -/
theorem live_sweepRounds {c : LruIdempotencyCache} (hbounded : c.Bounded)
    (key : StdString) (nowMs : Int) (rounds : Nat) :
    (sweepRounds nowMs rounds c).Live key nowMs ↔ c.Live key nowMs := by
  induction rounds generalizing c with
  | zero => rfl
  | succ rounds ih =>
      simp only [sweepRounds]
      cases htail : c.lru.getLast? with
      | none => rfl
      | some tail =>
          simp only
          split_ifs with hstop
          · rfl
          · have hexpired : ¬ nowMs < tail.expireAtMs :=
              fun hlt => hstop ⟨hlt, hbounded⟩
            have hnext : (c.popBack tail).Bounded :=
              Nat.le_trans (by simp) hbounded
            rw [ih hnext, Live, Live, lru_eq_dropLast_append htail]
            constructor
            · rintro ⟨node, hnode, hlive⟩
              exact ⟨node, List.mem_append.mpr (Or.inl hnode), hlive⟩
            · rintro ⟨node, hnode, hkey, hlt⟩
              rcases List.mem_append.mp hnode with hnode | hnode
              · exact ⟨node, hnode, hkey, hlt⟩
              · rw [List.mem_singleton.mp hnode] at hlt
                exact absurd hlt hexpired

theorem live_sweep {c : LruIdempotencyCache} (hbounded : c.Bounded)
    (key : StdString) (nowMs : Int) :
    (c.sweep nowMs).Live key nowMs ↔ c.Live key nowMs :=
  live_sweepRounds hbounded key nowMs c.lru.length

/-- `TryMark` refuses a non-empty key exactly while it has a live mark. -/
theorem tryMark_refuses_iff {c : LruIdempotencyCache} (hc : c.Coherent)
    (hbounded : c.Bounded) {key : StdString} (hkey : key ≠ []) (nowMs : Int) :
    (c.tryMark key nowMs).1 = false ↔ c.Live key nowMs := by
  rw [← live_sweep hbounded]
  have hswept := hc.sweep nowMs
  simp only [tryMark]
  simp only [hkey, if_false]
  cases hlookup : (c.sweep nowMs).index.lookup key with
  | none =>
      simp only [Bool.true_eq_false, false_iff]
      rintro ⟨node, hnode, hsame, _⟩
      have := (hswept.index_iff key node.address).mpr ⟨node, hnode, hsame, rfl⟩
      rw [hlookup] at this
      contradiction
  | some address =>
      obtain ⟨node, hnode, hsame, rfl⟩ := (hswept.index_iff key address).mp hlookup
      simp only [hswept.deref_of_mem hnode, Option.any_some, decide_eq_true_eq]
      split_ifs with hlt
      · exact ⟨fun _ => ⟨node, hnode, hsame, hlt⟩, fun _ => rfl⟩
      · simp only [false_iff]
        rintro ⟨other, hother, hsame', hlt'⟩
        have heq := List.inj_on_of_nodup_map hswept.keys hother hnode
          (hsame'.trans hsame.symm)
        exact hlt (heq ▸ hlt')

/-! No call changes the settings. -/

@[simp]
theorem popBack_capacity (c : LruIdempotencyCache) (tail : LruNode) :
    (c.popBack tail).capacity = c.capacity := rfl

@[simp]
theorem popBack_ttlMs (c : LruIdempotencyCache) (tail : LruNode) :
    (c.popBack tail).ttlMs = c.ttlMs := rfl

theorem trimRounds_settings (rounds : Nat) (c : LruIdempotencyCache) :
    (trimRounds rounds c).capacity = c.capacity ∧
      (trimRounds rounds c).ttlMs = c.ttlMs := by
  induction rounds generalizing c with
  | zero => exact ⟨rfl, rfl⟩
  | succ rounds ih =>
      simp only [trimRounds]
      split_ifs
      · cases c.lru.getLast? with
        | none => exact ⟨rfl, rfl⟩
        | some tail => exact ih (c.popBack tail)
      · exact ⟨rfl, rfl⟩

theorem sweepRounds_settings (nowMs : Int) (rounds : Nat)
    (c : LruIdempotencyCache) :
    (sweepRounds nowMs rounds c).capacity = c.capacity ∧
      (sweepRounds nowMs rounds c).ttlMs = c.ttlMs := by
  induction rounds generalizing c with
  | zero => exact ⟨rfl, rfl⟩
  | succ rounds ih =>
      simp only [sweepRounds]
      cases c.lru.getLast? with
      | none => exact ⟨rfl, rfl⟩
      | some tail =>
          simp only
          split_ifs
          · exact ⟨rfl, rfl⟩
          · exact ih (c.popBack tail)

theorem sweep_settings (c : LruIdempotencyCache) (nowMs : Int) :
    (c.sweep nowMs).capacity = c.capacity ∧ (c.sweep nowMs).ttlMs = c.ttlMs :=
  sweepRounds_settings nowMs _ c

theorem mark_settings (c : LruIdempotencyCache) (key : StdString)
    (nowMs : Int) :
    (c.mark key nowMs).capacity = c.capacity ∧
      (c.mark key nowMs).ttlMs = c.ttlMs :=
  trimRounds_settings _ (c.pushFront key nowMs)

theorem tryMark_settings (c : LruIdempotencyCache) (key : StdString)
    (nowMs : Int) :
    (c.tryMark key nowMs).2.capacity = c.capacity ∧
      (c.tryMark key nowMs).2.ttlMs = c.ttlMs := by
  have hsweep := c.sweep_settings nowMs
  simp only [tryMark]
  by_cases hkey : key = []
  · simp [hkey]
  · simp only [hkey, if_false]
    cases (c.sweep nowMs).index.lookup key with
    | none =>
        have hmark := mark_settings (c.sweep nowMs) key nowMs
        exact ⟨hmark.1.trans hsweep.1, hmark.2.trans hsweep.2⟩
    | some address =>
        simp only
        split_ifs
        · exact hsweep
        · have hmark := mark_settings ((c.sweep nowMs).eraseAt key address)
            key nowMs
          exact ⟨hmark.1.trans hsweep.1, hmark.2.trans hsweep.2⟩

/-! Calls in any order, at times that may step back. -/

/-- A call of one of the two public functions. -/
inductive Call where
  | tryMark (key : StdString) (nowMs : Int)
  | sweep (nowMs : Int)

def afterCall (c : LruIdempotencyCache) : Call → LruIdempotencyCache
  | .tryMark key nowMs => (c.tryMark key nowMs).2
  | .sweep nowMs => c.sweep nowMs

def afterCalls (c : LruIdempotencyCache) (calls : List Call) :
    LruIdempotencyCache :=
  calls.foldl afterCall c

/-- The list holds at most `capacity` nodes with distinct non-empty keys, and the
index leads from each of these keys, and from no other, to its node. -/
structure InStep (capacity : Nat) (c : LruIdempotencyCache) : Prop where
  nonempty : ∀ node ∈ c.lru, node.key ≠ []
  distinct : (c.lru.map (·.key)).Nodup
  keys : ∀ key, key ∈ c.index ↔ ∃ node ∈ c.lru, node.key = key
  refers : ∀ key address, c.index.lookup key = some address →
    ∃ node ∈ c.lru, c.deref address = some node ∧ node.key = key
  bounded : c.lru.length ≤ capacity

theorem Coherent.inStep {c : LruIdempotencyCache} (hc : c.Coherent)
    (hbounded : c.Bounded) : InStep c.capacity c := by
  refine ⟨hc.nonempty, hc.keys, fun key => ?_, fun key address hlookup => ?_,
    hbounded⟩
  · rw [← AList.lookup_isSome, Option.isSome_iff_exists]
    constructor
    · rintro ⟨address, hlookup⟩
      obtain ⟨node, hnode, hkey, _⟩ := (hc.index_iff key address).mp hlookup
      exact ⟨node, hnode, hkey⟩
    · rintro ⟨node, hnode, hkey⟩
      exact ⟨node.address, (hc.index_iff key _).mpr ⟨node, hnode, hkey, rfl⟩⟩
  · obtain ⟨node, hnode, hkey, rfl⟩ := (hc.index_iff key address).mp hlookup
    exact ⟨node, hnode, hc.deref_of_mem hnode, hkey⟩

/-- What one call keeps. -/
theorem Coherent.afterCall {c : LruIdempotencyCache} (hc : c.Coherent)
    (hbounded : c.Bounded) (call : Call) :
    (c.afterCall call).Coherent ∧ (c.afterCall call).Bounded ∧
      (c.afterCall call).capacity = c.capacity := by
  cases call with
  | tryMark key nowMs =>
      exact ⟨hc.tryMark key nowMs, hbounded.tryMark key nowMs,
        (c.tryMark_settings key nowMs).1⟩
  | sweep nowMs =>
      exact ⟨hc.sweep nowMs, hbounded.sweep nowMs, (c.sweep_settings nowMs).1⟩

theorem Coherent.inStep_afterCalls {c : LruIdempotencyCache} (hc : c.Coherent)
    (hbounded : c.Bounded) (calls : List Call) :
    InStep c.capacity (c.afterCalls calls) := by
  induction calls generalizing c with
  | nil => exact hc.inStep hbounded
  | cons call calls ih =>
      obtain ⟨hcoherent, hnext, hcapacity⟩ := hc.afterCall hbounded call
      have hrest := ih hcoherent hnext
      rw [hcapacity] at hrest
      exact hrest

/-- However the clock steps, the list and the index of a cache stay in step. -/
theorem inStep_new_afterCalls (capacity : Nat) (ttlMs : Int)
    (calls : List Call) :
    InStep capacity (afterCalls ⟨capacity, ttlMs, [], ∅, 0⟩ calls) :=
  (coherent_new capacity ttlMs).inStep_afterCalls (Nat.zero_le capacity) calls

end LruIdempotencyCache

end FlzChat
