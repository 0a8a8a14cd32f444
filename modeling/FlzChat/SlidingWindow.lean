/-
The idempotency cache against its purpose: a key is refused while one of the
last `capacity` successful marks holds it and is younger than the ttl.  The
list of the cache is a front part of the history of successful marks, newest
first, and what it has dropped of the last `capacity` marks has expired.
-/
import FlzChat.LruIdempotency

namespace FlzChat

/-- An element of the first `n` of a list has fewer than `n` before it. -/
theorem mem_take_iff_split {α : Type} (l : List α) (n : Nat) (x : α) :
    x ∈ l.take n ↔
      ∃ newer older, l = newer ++ x :: older ∧ newer.length < n := by
  constructor
  · intro hmem
    obtain ⟨newer, older, hsplit⟩ := List.append_of_mem hmem
    refine ⟨newer, older ++ l.drop n, ?_, ?_⟩
    · rw [← List.cons_append, ← List.append_assoc, ← hsplit, List.take_append_drop]
    · have hlength := congrArg List.length hsplit
      simp only [List.length_take, List.length_append, List.length_cons] at hlength
      omega
  · rintro ⟨newer, older, rfl, hlt⟩
    rw [List.take_append]
    apply List.mem_append_right
    obtain ⟨extra, hextra⟩ := Nat.exists_eq_add_of_lt hlt
    rw [show n - newer.length = extra + 1 by omega, List.take_succ_cons]
    exact List.mem_cons_self

namespace LruIdempotencyCache

/-- The cache the calls leave behind; a call is its key and its time. -/
def afterMarks (c : LruIdempotencyCache) (calls : List (StdString × Int)) :
    LruIdempotencyCache :=
  calls.foldl (fun c call => (c.tryMark call.1 call.2).2) c

/-- The calls that returned true, in the order they were made. -/
def successes :
    LruIdempotencyCache → List (StdString × Int) → List (StdString × Int)
  | _, [] => []
  | c, call :: calls =>
      if (c.tryMark call.1 call.2).1 = true then
        call :: successes (c.tryMark call.1 call.2).2 calls
      else successes (c.tryMark call.1 call.2).2 calls

/-- The overflow loop keeps the newest nodes up to the capacity. -/
theorem lru_trimRounds {c : LruIdempotencyCache} {rounds : Nat}
    (hrounds : c.lru.length ≤ rounds) :
    (trimRounds rounds c).lru = c.lru.take c.capacity := by
  induction rounds generalizing c with
  | zero =>
      have hnil : c.lru = [] := List.length_eq_zero_iff.mp (by omega)
      simp [trimRounds, hnil]
  | succ rounds ih =>
      simp only [trimRounds]
      split_ifs with hsurplus
      · cases htail : c.lru.getLast? with
        | none => simp [List.getLast?_eq_none_iff.mp htail] at hsurplus
        | some tail =>
            simp only
            rw [ih (by simp only [popBack_length]; omega)]
            simp only [popBack, List.dropLast_eq_take, List.take_take]
            rw [Nat.min_eq_left (by omega)]
      · exact (List.take_of_length_le (by omega)).symm

theorem afterMarks_settings (c : LruIdempotencyCache)
    (calls : List (StdString × Int)) :
    (c.afterMarks calls).capacity = c.capacity ∧
      (c.afterMarks calls).ttlMs = c.ttlMs := by
  induction calls generalizing c with
  | nil => exact ⟨rfl, rfl⟩
  | cons call calls ih =>
      have hcall := c.tryMark_settings call.1 call.2
      have hrest := ih (c.tryMark call.1 call.2).2
      exact ⟨hrest.1.trans hcall.1, hrest.2.trans hcall.2⟩

theorem lru_mark (c : LruIdempotencyCache) (key : StdString) (nowMs : Int) :
    (c.mark key nowMs).lru =
      (⟨c.nextAddress, key, nowMs + c.ttlMs⟩ :: c.lru).take c.capacity :=
  lru_trimRounds (le_refl _)

/-- A sweep drops expired nodes from the end until the last one is live. -/
structure Swept (nowMs : Int) (c c' : LruIdempotencyCache) : Prop where
  split : ∃ dropped, c.lru = c'.lru ++ dropped ∧
    ∀ node ∈ dropped, node.expireAtMs ≤ nowMs
  tail : ∀ node, c'.lru.getLast? = some node → nowMs < node.expireAtMs

theorem swept_sweepRounds {c : LruIdempotencyCache} (hbounded : c.Bounded)
    (nowMs : Int) {rounds : Nat} (hrounds : c.lru.length ≤ rounds) :
    Swept nowMs c (sweepRounds nowMs rounds c) := by
  induction rounds generalizing c with
  | zero =>
      have hnil : c.lru = [] := List.length_eq_zero_iff.mp (by omega)
      exact ⟨⟨[], by simp [sweepRounds], by simp⟩, by simp [sweepRounds, hnil]⟩
  | succ rounds ih =>
      simp only [sweepRounds]
      cases htail : c.lru.getLast? with
      | none => exact ⟨⟨[], by simp, by simp⟩, by simp [htail]⟩
      | some tail =>
          simp only
          split_ifs with hstop
          · refine ⟨⟨[], by simp, by simp⟩, ?_⟩
            intro node hnode
            rw [htail, Option.some.injEq] at hnode
            exact hnode ▸ hstop.1
          · have hexpired : tail.expireAtMs ≤ nowMs :=
              not_lt.mp fun hlt => hstop ⟨hlt, hbounded⟩
            have hshorter : (c.popBack tail).lru.length ≤ rounds := by
              rw [popBack_length]
              omega
            have hkept : (c.popBack tail).Bounded :=
              Nat.le_trans (by simp) hbounded
            have hrest := ih hkept hshorter
            obtain ⟨dropped, hsplit, hdropped⟩ := hrest.split
            refine ⟨⟨dropped ++ [tail], ?_, ?_⟩, hrest.tail⟩
            · rw [lru_eq_dropLast_append htail, ← List.append_assoc, ← hsplit]
              rfl
            · intro node hnode
              rcases List.mem_append.mp hnode with hnode | hnode
              · exact hdropped node hnode
              · rw [List.mem_singleton.mp hnode]
                exact hexpired

theorem swept_sweep {c : LruIdempotencyCache} (hbounded : c.Bounded)
    (nowMs : Int) : Swept nowMs c (c.sweep nowMs) :=
  swept_sweepRounds hbounded nowMs (le_refl _)

/-! The history behind the list. -/

/-- The node a mark at that time leaves. -/
def markOf (ttlMs : Int) (mark : StdString × Int) : StdString × Int :=
  (mark.1, mark.2 + ttlMs)

/-- The cache holds the front part `held` of the successful marks, newest
first; those it no longer holds have expired or are too far back to count. -/
structure Tracks (c : LruIdempotencyCache) (marks : List (StdString × Int))
    (last : Int) : Prop where
  coherent : c.Coherent
  bounded : c.Bounded
  sorted : marks.Pairwise fun newer older => older.2 ≤ newer.2
  past : ∀ mark ∈ marks, mark.2 ≤ last
  window : ∃ held dropped, marks = held ++ dropped ∧
    c.lru.map (fun node => (node.key, node.expireAtMs)) =
      held.map (markOf c.ttlMs) ∧
    ∀ mark ∈ dropped.take (c.capacity - held.length),
      mark.2 + c.ttlMs ≤ last

theorem tracks_new (capacity : Nat) (ttlMs last : Int) :
    Tracks ⟨capacity, ttlMs, [], ∅, 0⟩ [] last where
  coherent := coherent_new capacity ttlMs
  bounded := Nat.zero_le _
  sorted := List.Pairwise.nil
  past := by simp
  window := ⟨[], [], rfl, rfl, by simp⟩

variable {c : LruIdempotencyCache} {marks : List (StdString × Int)}
  {last nowMs : Int}

/-- Time passes. -/
theorem Tracks.mono (htracks : Tracks c marks last) (hlast : last ≤ nowMs) :
    Tracks c marks nowMs := by
  obtain ⟨held, dropped, hmarks, hheld, hdropped⟩ := htracks.window
  exact ⟨htracks.coherent, htracks.bounded, htracks.sorted,
    fun mark hmark => (htracks.past mark hmark).trans hlast,
    held, dropped, hmarks, hheld,
    fun mark hmark => (hdropped mark hmark).trans hlast⟩

theorem Tracks.length_le_of_held (htracks : Tracks c marks last)
    {held : List (StdString × Int)}
    (hheld : c.lru.map (fun node => (node.key, node.expireAtMs)) =
      held.map (markOf c.ttlMs)) : held.length ≤ c.capacity := by
  have hlengths := congrArg List.length hheld
  simp only [List.length_map] at hlengths
  exact hlengths ▸ htracks.bounded

/-- A live node is a mark among the last `capacity` that has not expired. -/
theorem Tracks.live_iff (htracks : Tracks c marks last) (hlast : last ≤ nowMs)
    (key : StdString) :
    c.Live key nowMs ↔
      ∃ t, (key, t) ∈ marks.take c.capacity ∧ nowMs < t + c.ttlMs := by
  obtain ⟨held, dropped, rfl, hheld, hdropped⟩ := htracks.window
  have hlength := htracks.length_le_of_held hheld
  have hnodes : c.Live key nowMs ↔
      ∃ t, (key, t) ∈ held ∧ nowMs < t + c.ttlMs := by
    constructor
    · rintro ⟨node, hnode, rfl, hlt⟩
      have hmem := List.mem_map_of_mem (f := fun node : LruNode =>
        (node.key, node.expireAtMs)) hnode
      rw [hheld] at hmem
      obtain ⟨mark, hmark, heq⟩ := List.mem_map.mp hmem
      simp only [markOf, Prod.mk.injEq] at heq
      refine ⟨mark.2, ?_, by omega⟩
      rw [← heq.1]
      exact hmark
    · rintro ⟨t, hmark, hlt⟩
      have hmem := List.mem_map_of_mem (f := markOf c.ttlMs) hmark
      rw [← hheld] at hmem
      obtain ⟨node, hnode, heq⟩ := List.mem_map.mp hmem
      simp only [markOf, Prod.mk.injEq] at heq
      exact ⟨node, hnode, heq.1, by omega⟩
  rw [hnodes, List.take_append, List.take_of_length_le hlength]
  constructor
  · rintro ⟨t, hmem, hlt⟩
    exact ⟨t, List.mem_append_left _ hmem, hlt⟩
  · rintro ⟨t, hmem, hlt⟩
    rcases List.mem_append.mp hmem with hmem | hmem
    · exact ⟨t, hmem, hlt⟩
    · have := hdropped _ hmem
      simp only at this
      omega

theorem Tracks.sweep (htracks : Tracks c marks last) (hlast : last ≤ nowMs) :
    Tracks (c.sweep nowMs) marks nowMs := by
  have hswept := swept_sweep htracks.bounded nowMs
  obtain ⟨hcapacity, httl⟩ := c.sweep_settings nowMs
  obtain ⟨gone, hgone, hexpired⟩ := hswept.split
  obtain ⟨held, dropped, rfl, hheld, hdropped⟩ := htracks.window
  rw [hgone, List.map_append] at hheld
  obtain ⟨kept, swept, rfl, hkept, hpast⟩ := List.map_eq_append_iff.mp hheld.symm
  refine ⟨htracks.coherent.sweep nowMs, htracks.bounded.sweep nowMs,
    htracks.sorted, fun mark hmark => (htracks.past mark hmark).trans hlast,
    kept, swept ++ dropped, List.append_assoc .., ?_, ?_⟩
  · rw [httl]
    exact hkept.symm
  · intro mark hmark
    rw [hcapacity, List.take_append] at hmark
    rw [httl]
    rcases List.mem_append.mp hmark with hmark | hmark
    · have hmem := List.mem_map_of_mem (f := markOf c.ttlMs)
        (List.mem_of_mem_take hmark)
      rw [hpast] at hmem
      obtain ⟨node, hnode, heq⟩ := List.mem_map.mp hmem
      have hnode := hexpired node hnode
      simp only [markOf, Prod.mk.injEq] at heq
      omega
    · refine (hdropped mark ?_).trans hlast
      rw [List.length_append, Nat.sub_add_eq]
      exact hmark

/-- A sweep leaves live nodes only, since older marks expire first. -/
theorem Tracks.live_of_mem_sweep (htracks : Tracks c marks last)
    (hlast : last ≤ nowMs) {node : LruNode}
    (hnode : node ∈ (c.sweep nowMs).lru) : nowMs < node.expireAtMs := by
  have hswept := swept_sweep htracks.bounded nowMs
  obtain ⟨held, dropped, hmarks, hheld, _⟩ := (htracks.sweep hlast).window
  have haged : ((c.sweep nowMs).lru.map fun node => (node.key, node.expireAtMs)).Pairwise
      fun newer older => older.2 ≤ newer.2 := by
    rw [hheld]
    apply List.Pairwise.map _ _
      ((hmarks ▸ htracks.sorted).sublist (List.sublist_append_left _ _))
    intro newer older hle
    simp only [markOf]
    omega
  cases htail : (c.sweep nowMs).lru.getLast? with
  | none =>
      rw [List.getLast?_eq_none_iff.mp htail] at hnode
      simp at hnode
  | some tail =>
      have hlive := hswept.tail tail htail
      rw [lru_eq_dropLast_append htail] at hnode haged
      rcases List.mem_append.mp hnode with hnode | hnode
      · rw [List.map_append, List.pairwise_append] at haged
        have hle := haged.2.2 _ (List.mem_map_of_mem hnode) _
          (List.mem_map_of_mem List.mem_cons_self)
        exact lt_of_lt_of_le hlive hle
      · rw [List.mem_singleton.mp hnode]
        exact hlive

theorem Tracks.mark (htracks : Tracks c marks last) {key : StdString}
    (hkey : key ≠ []) (habsent : c.index.lookup key = none) :
    Tracks (c.mark key last) ((key, last) :: marks) last := by
  obtain ⟨held, dropped, rfl, hheld, hdropped⟩ := htracks.window
  have hlength := htracks.length_le_of_held hheld
  obtain ⟨hcapacity, httl⟩ := mark_settings c key last
  refine ⟨htracks.coherent.mark hkey habsent last, bounded_mark c key last,
    List.pairwise_cons.mpr ⟨htracks.past, htracks.sorted⟩, ?_,
    ((key, last) :: held).take c.capacity,
    ((key, last) :: held).drop c.capacity ++ dropped, ?_, ?_, ?_⟩
  · intro mark hmark
    rcases List.mem_cons.mp hmark with rfl | hmark
    · exact le_refl _
    · exact htracks.past mark hmark
  · rw [← List.append_assoc, List.take_append_drop, List.cons_append]
  · rw [lru_mark, httl, List.map_take, List.map_take, List.map_cons,
      List.map_cons, hheld]
    rfl
  · rw [hcapacity, httl]
    intro mark hmark
    by_cases hfull : c.capacity ≤ held.length
    · have hzero : c.capacity -
          (((key, last) :: held).take c.capacity).length = 0 := by
        simp only [List.length_take, List.length_cons]
        omega
      rw [hzero] at hmark
      simp at hmark
    · rw [List.drop_of_length_le (by simp only [List.length_cons]; omega),
        List.nil_append] at hmark
      apply hdropped
      apply (List.take_sublist_take_left _).subset hmark
      simp only [List.length_take, List.length_cons]
      omega

/-- What one call does to a cache and its history. -/
theorem Tracks.tryMark (htracks : Tracks c marks last) (hlast : last ≤ nowMs)
    (key : StdString) :
    Tracks (c.tryMark key nowMs).2
      (if (c.tryMark key nowMs).1 = true then (key, nowMs) :: marks else marks)
      nowMs := by
  have hswept := htracks.sweep hlast
  by_cases hkey : key = []
  · have hrefused : c.tryMark key nowMs = (false, c) := by
      simp only [LruIdempotencyCache.tryMark, hkey, if_true]
    rw [hrefused]
    exact htracks.mono hlast
  · cases hlookup : (c.sweep nowMs).index.lookup key with
    | none =>
        have hgranted : c.tryMark key nowMs =
            (true, (c.sweep nowMs).mark key nowMs) := by
          simp only [LruIdempotencyCache.tryMark, hkey, if_false, hlookup]
        rw [hgranted]
        exact hswept.mark hkey hlookup
    | some address =>
        obtain ⟨node, hnode, hsame, rfl⟩ :=
          (hswept.coherent.index_iff key address).mp hlookup
        have hlive := htracks.live_of_mem_sweep hlast hnode
        have hrefused : c.tryMark key nowMs = (false, c.sweep nowMs) := by
          simp only [LruIdempotencyCache.tryMark, hkey, if_false, hlookup,
            hswept.coherent.deref_of_mem hnode, Option.any_some,
            decide_eq_true_eq, hlive, if_true]
        rw [hrefused]
        exact hswept

/-- Along calls whose times never decrease, the history is that of the
successful ones. -/
theorem Tracks.afterMarks {calls : List (StdString × Int)}
    (htracks : Tracks c marks last)
    (hsorted : calls.Pairwise fun earlier later => earlier.2 ≤ later.2)
    (hfrom : ∀ call ∈ calls, last ≤ call.2)
    (hupto : ∀ call ∈ calls, call.2 ≤ nowMs) (hlast : last ≤ nowMs) :
    Tracks (c.afterMarks calls) ((c.successes calls).reverse ++ marks) nowMs := by
  induction calls generalizing c marks last with
  | nil => exact htracks.mono hlast
  | cons call calls ih =>
      obtain ⟨hlater, hrest⟩ := List.pairwise_cons.mp hsorted
      have hcall := htracks.tryMark (hfrom call List.mem_cons_self) call.1
      have hnext := ih hcall hrest hlater
        (fun later hmem => hupto later (List.mem_cons_of_mem call hmem))
        (hupto call List.mem_cons_self)
      simp only [successes]
      split_ifs at hnext ⊢
      · rw [List.reverse_cons, List.append_assoc]
        exact hnext
      · exact hnext

/-- A call is refused exactly when its key is empty or one of the last
`capacity` successful marks is on the key and younger than the ttl. -/
theorem tryMark_refuses_iff_in_window (capacity : Nat) (ttlMs : Int)
    (before : List (StdString × Int)) (key : StdString) (nowMs : Int)
    (hsorted : (before ++ [(key, nowMs)]).Pairwise
      fun earlier later => earlier.2 ≤ later.2) :
    let c : LruIdempotencyCache := ⟨capacity, ttlMs, [], ∅, 0⟩
    ((c.afterMarks before).tryMark key nowMs).1 = false ↔
      key = [] ∨ ∃ earlier later t,
        c.successes before = earlier ++ (key, t) :: later ∧
        nowMs < t + ttlMs ∧ later.length < capacity := by
  intro c
  obtain ⟨hbefore, _, hupto⟩ := List.pairwise_append.mp hsorted
  have hupto : ∀ call ∈ before, call.2 ≤ nowMs :=
    fun call hcall => hupto call hcall _ List.mem_cons_self
  -- before the first call any time not after it will do
  obtain ⟨start, hfrom, hstart⟩ : ∃ start : Int,
      (∀ call ∈ before, start ≤ call.2) ∧ start ≤ nowMs := by
    cases before with
    | nil => exact ⟨nowMs, by simp, le_refl nowMs⟩
    | cons first rest =>
        refine ⟨first.2, ?_, hupto first List.mem_cons_self⟩
        intro call hcall
        rcases List.mem_cons.mp hcall with rfl | hcall
        · exact le_refl _
        · exact (List.pairwise_cons.mp hbefore).1 call hcall
  have htracks := (tracks_new capacity ttlMs start).afterMarks hbefore hfrom
    hupto hstart
  rw [List.append_nil] at htracks
  obtain ⟨hcapacity, httl⟩ := afterMarks_settings c before
  by_cases hkey : key = []
  · simp [tryMark, hkey]
  · rw [tryMark_refuses_iff htracks.coherent htracks.bounded hkey,
      htracks.live_iff (le_refl nowMs)]
    simp only [hkey, false_or]
    rw [hcapacity, httl]
    constructor
    · rintro ⟨t, hmem, hlt⟩
      obtain ⟨newer, older, hsplit, hlength⟩ :=
        (mem_take_iff_split _ capacity _).mp hmem
      refine ⟨older.reverse, newer.reverse, t, ?_, hlt, by simpa using hlength⟩
      have := congrArg List.reverse hsplit
      simpa using this
    · rintro ⟨earlier, later, t, hsplit, hlt, hlength⟩
      refine ⟨t, (mem_take_iff_split _ capacity _).mpr
        ⟨later.reverse, earlier.reverse, ?_, by simpa using hlength⟩, hlt⟩
      have := congrArg List.reverse hsplit
      simpa using this

end LruIdempotencyCache

namespace SlidingWindowWitness

/-- A second mark within the ttl. -/
theorem tryMark_refuses_second :
    ((LruIdempotencyCache.afterMarks ⟨2, 10, [], ∅, 0⟩ [(lit "a", 0)]).tryMark
        (lit "a") 9).1 = false :=
  (LruIdempotencyCache.tryMark_refuses_iff_in_window 2 10 [(lit "a", 0)]
    (lit "a") 9 (by decide)).mpr
      (Or.inr ⟨[], [], 0, by decide +kernel, by decide, by decide⟩)

end SlidingWindowWitness

end FlzChat
