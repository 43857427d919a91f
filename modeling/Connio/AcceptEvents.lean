import Connio.Lib.TailList
import Connio.Lib.Transition

/-!
# The cache of accept events

The poll thread hands an `AcceptEvent` to a thread for each connection it accepts, and gets it back by the safe list
(`sockcommon.c`, `sockunix.c`).  It keeps a few of them in an array of its own.

* `AcceptEventCache` with `acceptEventPop`, `acceptEventRelease`, `refillSafe` — the list and the array;
* `AecSystem`, `aecStep` — the poll thread in `AECRefill`, `acceptEventAcquire` and `AECFlush`, and any other threads in
  `acceptEventAlloc` and `acceptEventRelease`;
* `AecSound` — the array and the list are well formed, and every event is in one place;
* `refillSafe_holds` — **PROVED**: the locked loop of `AECRefill` moves events from the list to the array;
* `aecStep_inv`, `reachable_aecSound` — **PROVED**: a step keeps this, and so does a run;
* `aecShutdown_frees` — **PROVED**: `AECShutdown` frees the events of the list, each once.

A locked section is one step, with the stores to the array that belong to it: only the poll thread sees the array.
-/

namespace Connio

open Connio.Lib

/-! ### The cache -/

/-- `ACCEPT_EVENT_FAST_CACHE_SIZE` -/
def acceptEventFastCacheSize : ℕ := 5

/-- `AcceptEventCache`; the array has one entry more than the size. -/
structure AcceptEventCache where
  safeList : TailList ℕ
  fastList : ℕ → Option ℕ
  next : ℕ

namespace AcceptEventCache

variable (c : AcceptEventCache)

/-- `AECInit`, whatever the memory of the events holds -/
def aecInit (memory : ℕ → Option ℕ) : AcceptEventCache where
  safeList := .empty memory
  fastList := fun _ => none
  next := acceptEventFastCacheSize

/-- `acceptEventPop` -/
def acceptEventPop : Option ℕ × AcceptEventCache := (c.safeList.pop.1, { c with safeList := c.safeList.pop.2 })

/-- `acceptEventRelease` -/
def acceptEventRelease (e : ℕ) : AcceptEventCache := { c with safeList := c.safeList.push e }

/-- The locked loop of `AECRefill`, with `next` events missing in the array. -/
def refillSafe : ℕ → AcceptEventCache → AcceptEventCache
  | 0, c => c
  | n + 1, c =>
    let c' := { c.acceptEventPop.2 with next := n, fastList := Function.update c.fastList n c.acceptEventPop.1 }
    match c.acceptEventPop.1 with
    | none => { c' with next := n + 1 }
    | some _ => refillSafe n c'

/-- One round of the second loop of `AECRefill`, with what `AEMalloc` answers. -/
def refillNew (ae : Option ℕ) : AcceptEventCache :=
  let c' := { c with next := c.next - 1, fastList := Function.update c.fastList (c.next - 1) ae }
  match ae with
  | none => { c' with next := c'.next + 1 }
  | some _ => c'

/-- The entry at `next` is taken out of the array. -/
def takeFast : AcceptEventCache :=
  { c with fastList := Function.update c.fastList c.next none, next := c.next + 1 }

/-- `AECShutdown`: what it frees, in at most `fuel` rounds. -/
def aecShutdown (fuel : ℕ) : List ℕ × AcceptEventCache :=
  ((TailList.drain fuel c.safeList).1, { c with safeList := (TailList.drain fuel c.safeList).2 })

/-- The events in the array. -/
def fastEvents : List ℕ := (List.range acceptEventFastCacheSize).filterMap c.fastList

end AcceptEventCache

/-! ### The threads -/

/-- Where the poll thread is. -/
inductive AecPlace where
  | idle
  /-- in the second loop of `AECRefill` -/
  | creating
  /-- in `acceptEventAlloc`, before `AEMalloc` -/
  | allocating
  /-- in `AECFlush` -/
  | flushing
  deriving DecidableEq, Repr

structure AecSystem where
  cache : AcceptEventCache
  poll : AecPlace := .idle
  /-- the other threads in `acceptEventAlloc`, before `AEMalloc` -/
  allocating : ℕ := 0
  /-- the events that have been handed out -/
  out : List ℕ := []
  /-- the events below this number exist -/
  created : ℕ := 0

inductive AecAction where
  /-- the poll thread calls `AECRefill` -/
  | refill
  | create (ok : Bool)
  /-- the poll thread calls `acceptEventAcquire` -/
  | acquire
  | acquireNew (ok : Bool)
  /-- the poll thread calls `AECFlush` -/
  | flush
  | flushOne
  /-- another thread calls `acceptEventAlloc` -/
  | alloc
  | allocNew (ok : Bool)
  /-- a thread gives an event back that it has -/
  | release (e : ℕ)
  deriving DecidableEq, Repr

namespace AecSystem

variable (s : AecSystem)

/-- `AEMalloc` for a thread -/
def malloc (ok : Bool) : AecSystem := if ok then { s with out := s.created :: s.out, created := s.created + 1 } else s

/-- The first part of `acceptEventAlloc`: an event of the safe list; else the thread is going to call `AEMalloc`. -/
def popOr (otherwise : AecSystem) : AecSystem :=
  match s.cache.acceptEventPop with
  | (some e, c) => { s with cache := c, out := e :: s.out }
  | (none, _) => otherwise

end AecSystem

/-- **One step;** `none` when it is not enabled. -/
def aecStep (s : AecSystem) : AecAction → Option AecSystem
  | .refill =>
    if s.poll = .idle then
      if 0 < s.cache.next then some { s with cache := .refillSafe s.cache.next s.cache, poll := .creating } else some s
    else none
  | .create ok =>
    if s.poll = .creating then
      if 0 < s.cache.next then
        if ok then some { s with cache := s.cache.refillNew (some s.created), created := s.created + 1 }
        else some { s with cache := s.cache.refillNew none, poll := .idle }
      else some { s with poll := .idle }
    else none
  | .acquire =>
    if s.poll = .idle then
      match s.cache.fastList s.cache.next with
      | some e => some { s with cache := s.cache.takeFast, out := e :: s.out }
      | none => some (s.popOr { s with poll := .allocating })
    else none
  | .acquireNew ok => if s.poll = .allocating then some { s.malloc ok with poll := .idle } else none
  | .flush => if s.poll = .idle then some { s with poll := .flushing } else none
  | .flushOne =>
    if s.poll = .flushing then
      match s.cache.fastList s.cache.next with
      | some e => some { s with cache := (s.cache.acceptEventRelease e).takeFast }
      | none => some { s with poll := .idle }
    else none
  | .alloc => some (s.popOr { s with allocating := s.allocating + 1 })
  | .allocNew ok => if 0 < s.allocating then some { s.malloc ok with allocating := s.allocating - 1 } else none
  | .release e =>
    if e ∈ s.out then some { s with cache := s.cache.acceptEventRelease e, out := s.out.erase e } else none

/-! ### What is to hold -/

/-- **The array is filled from `next` on, and the safe list holds `l`:** its tail is the address of the last `next`
field, or that of the head. -/
structure AcceptEventCache.Holds (c : AcceptEventCache) (l : List ℕ) : Prop where
  next_le : c.next ≤ acceptEventFastCacheSize
  fast : ∀ i, (c.fastList i).isSome = true ↔ c.next ≤ i ∧ i < acceptEventFastCacheSize
  safe : c.safeList.Holds l

/-- The events in the array, those of the safe list, and those that have been handed out. -/
def AecSystem.places (s : AecSystem) (l : List ℕ) : List ℕ := s.cache.fastEvents ++ l ++ s.out

/-- **The cache is well formed, and every event that exists is in one place.** -/
structure AecSound (s : AecSystem) (l : List ℕ) : Prop where
  cache : s.cache.Holds l
  places : (s.places l).Perm (List.range s.created)

/-! ### The array -/

section Array

variable {f : ℕ → Option ℕ} {n k e : ℕ}

theorem filterMap_range_congr {g : ℕ → Option ℕ} (h : ∀ i < k, g i = f i) :
    (List.range k).filterMap g = (List.range k).filterMap f :=
  List.filterMap_congr fun i hi => h i (List.mem_range.mp hi)

/-- An entry of an array is filled. -/
theorem filterMap_range_update (hn : n < k) (hf : f n = none) :
    ((List.range k).filterMap (Function.update f n (some e))).Perm (e :: (List.range k).filterMap f) := by
  induction k with
  | zero => exact absurd hn (Nat.not_lt_zero n)
  | succ k ih =>
    rw [List.range_succ, List.filterMap_append, List.filterMap_append]
    rcases Nat.lt_succ_iff_lt_or_eq.mp hn with hlt | rfl
    · have hk : Function.update f n (some e) k = f k := Function.update_of_ne (Nat.ne_of_gt hlt) ..
      rw [List.filterMap_cons, List.filterMap_cons, hk]
      exact (ih hlt).append_right _
    · have hbelow : ∀ i < n, Function.update f n (some e) i = f i :=
        fun i hi => Function.update_of_ne (Nat.ne_of_lt hi) ..
      rw [filterMap_range_congr hbelow]
      have hself : List.filterMap (Function.update f n (some e)) [n] = [e] := by
        rw [List.filterMap_cons, Function.update_self]
        rfl
      have hnone : List.filterMap f [n] = [] := by
        rw [List.filterMap_cons, hf]
        rfl
      rw [hself, hnone, List.append_nil]
      exact List.perm_append_singleton e _

end Array

namespace AcceptEventCache

variable {c : AcceptEventCache} {l : List ℕ} {e n : ℕ}

/-- The entries below `next` are empty, and so is the one behind the array. -/
theorem Holds.fast_none (h : c.Holds l) {i : ℕ} (hi : i < c.next ∨ acceptEventFastCacheSize ≤ i) :
    c.fastList i = none := by
  by_contra hsome
  have hfilled := (h.fast i).mp (Option.isSome_iff_ne_none.mpr hsome)
  omega

/-- The array with the entry below `next` filled. -/
theorem Holds.fill (h : c.Holds l) (hn : c.next = n + 1) (e : ℕ) : ∀ i,
    (Function.update c.fastList n (some e) i).isSome = true ↔ n ≤ i ∧ i < acceptEventFastCacheSize := by
  intro i
  have hle := h.next_le
  by_cases hi : i = n
  · rw [hi, Function.update_self]
    exact iff_of_true rfl ⟨Nat.le_refl n, by omega⟩
  · rw [Function.update_of_ne hi, h.fast]
    omega

/-- The array with the entry below `next` set to NULL, which it was. -/
theorem Holds.fill_none (h : c.Holds l) (hn : c.next = n + 1) : Function.update c.fastList n none = c.fastList := by
  have hnone : c.fastList n = none := h.fast_none (Or.inl (by omega))
  rw [← hnone, Function.update_eq_self]

/-- The array without its entry at `next`. -/
theorem Holds.takeFast (h : c.Holds l) (he : c.fastList c.next = some e) :
    c.takeFast.Holds l ∧ c.fastEvents.Perm (e :: c.takeFast.fastEvents) := by
  have hlt : c.next < acceptEventFastCacheSize := ((h.fast c.next).mp (by rw [he]; rfl)).2
  refine ⟨⟨hlt, fun i => ?_, h.safe⟩, ?_⟩
  · show (Function.update c.fastList c.next none i).isSome = true ↔ c.next + 1 ≤ i ∧ i < acceptEventFastCacheSize
    by_cases hi : i = c.next
    · rw [hi, Function.update_self]
      exact iff_of_false Bool.false_ne_true (by omega)
    · rw [Function.update_of_ne hi, h.fast]
      omega
  · have hfill := filterMap_range_update (f := Function.update c.fastList c.next none) (e := e) hlt
      (Function.update_self ..)
    rw [Function.update_idem, ← he, Function.update_eq_self] at hfill
    exact hfill

/-- **`acceptEventRelease` (proved).** -/
theorem Holds.release (h : c.Holds l) (he : e ∉ l) : (c.acceptEventRelease e).Holds (l ++ [e]) :=
  ⟨h.next_le, h.fast, TailList.holds_push h.safe he⟩

/-- **`acceptEventPop` (proved)** takes the first event of the safe list. -/
theorem Holds.pop (h : c.Holds (e :: l)) : ∃ c', c.acceptEventPop = (some e, c') ∧ c'.Holds l ∧
    c'.fastList = c.fastList ∧ c'.next = c.next := by
  obtain ⟨d, hpop, _, hd⟩ := TailList.holds_pop h.safe
  refine ⟨{ c with safeList := d }, ?_, ⟨h.next_le, h.fast, hd⟩, rfl, rfl⟩
  unfold acceptEventPop
  rw [hpop]

theorem Holds.pop_nil (h : c.Holds []) : c.acceptEventPop = (none, c) := by
  unfold acceptEventPop
  rw [TailList.pop_nil h.safe]

/-- **The locked loop of `AECRefill` (proved):** events go from the safe list to the array, and none is lost. -/
theorem refillSafe_holds (n : ℕ) : ∀ {c : AcceptEventCache} {l : List ℕ}, c.Holds l → c.next = n →
    ∃ l', (refillSafe n c).Holds l' ∧ ((refillSafe n c).fastEvents ++ l').Perm (c.fastEvents ++ l) := by
  induction n with
  | zero => exact fun h _ => ⟨_, h, .refl _⟩
  | succ n ih =>
    intro c l h hn
    have hnone : c.fastList n = none := h.fast_none (Or.inl (by omega))
    have hlt : n < acceptEventFastCacheSize := by
      have hle := h.next_le
      omega
    cases l with
    | nil =>
      have hsame : refillSafe (n + 1) c = c := by
        unfold refillSafe
        simp only [h.pop_nil, h.fill_none hn, ← hn]
      rw [hsame]
      exact ⟨[], h, .refl _⟩
    | cons e l =>
      obtain ⟨c', hpop, hc', hfast, hnext⟩ := h.pop
      have hc'n : c'.next = n + 1 := hnext.trans hn
      let c₁ : AcceptEventCache := { c' with next := n, fastList := Function.update c'.fastList n (some e) }
      have hc₁ : c₁.Holds l := ⟨Nat.le_of_lt hlt, hc'.fill hc'n e, hc'.safe⟩
      have hstep : refillSafe (n + 1) c = refillSafe n c₁ := by
        rw [refillSafe]
        simp only [hpop, ← hfast]
        rfl
      obtain ⟨l', hholds, hperm⟩ := ih hc₁ rfl
      have hfilled : c₁.fastEvents.Perm (e :: c.fastEvents) := by
        have hfill := filterMap_range_update (e := e) hlt hnone
        rw [← hfast] at hfill
        unfold fastEvents
        rw [← hfast]
        exact hfill
      rw [hstep]
      refine ⟨l', hholds, hperm.trans ((hfilled.append_right l).trans ?_)⟩
      exact List.perm_middle.symm

end AcceptEventCache

/-! ### A step -/

section Step

variable {s t : AecSystem} {l l' : List ℕ}

/-- Events change their places, and none is created. -/
theorem AecSound.move (h : AecSound s l) (hcache : t.cache.Holds l') (hcreated : t.created = s.created)
    (hplaces : (t.places l').Perm (s.places l)) : AecSound t l' := by
  refine ⟨hcache, ?_⟩
  rw [hcreated]
  exact hplaces.trans h.places

/-- One event is created. -/
theorem AecSound.new (h : AecSound s l) (hcache : t.cache.Holds l') (hcreated : t.created = s.created + 1)
    (hplaces : (t.places l').Perm (s.created :: s.places l)) : AecSound t l' := by
  refine ⟨hcache, ?_⟩
  rw [hcreated, List.range_succ]
  exact hplaces.trans ((h.places.cons s.created).trans (List.perm_append_singleton _ _).symm)

/-- An event is in one place only. -/
theorem AecSound.nodup (h : AecSound s l) : (s.places l).Nodup := h.places.nodup_iff.mpr List.nodup_range

/-- **`AEMalloc` for a thread (proved).** -/
theorem AecSound.malloc (h : AecSound s l) (ok : Bool) (hcache : t.cache = s.cache)
    (hout : t.out = (s.malloc ok).out) (hcreated : t.created = (s.malloc ok).created) : AecSound t l := by
  cases ok with
  | false =>
    refine h.move (hcache ▸ h.cache) hcreated ?_
    unfold AecSystem.places
    rw [hcache, hout]
    exact .refl _
  | true =>
    refine h.new (hcache ▸ h.cache) hcreated ?_
    unfold AecSystem.places
    rw [hcache, hout]
    exact List.perm_middle

/-- **The locked section of `acceptEventAlloc` (proved).** -/
theorem AecSound.popOr (h : AecSound s l) {otherwise : AecSystem} (hcache : otherwise.cache = s.cache)
    (hout : otherwise.out = s.out) (hcreated : otherwise.created = s.created) :
    ∃ l', AecSound (s.popOr otherwise) l' := by
  unfold AecSystem.popOr
  cases l with
  | nil =>
    rw [h.cache.pop_nil]
    refine ⟨[], h.move (hcache ▸ h.cache) hcreated ?_⟩
    unfold AecSystem.places
    rw [hcache, hout]
  | cons e l =>
    obtain ⟨c, hpop, hc, hfast, _⟩ := h.cache.pop
    rw [hpop]
    refine ⟨l, h.move hc rfl ?_⟩
    have hsame : c.fastEvents = s.cache.fastEvents := by
      unfold AcceptEventCache.fastEvents
      rw [hfast]
    show (c.fastEvents ++ l ++ e :: s.out).Perm (s.cache.fastEvents ++ e :: l ++ s.out)
    rw [hsame, List.append_assoc, List.append_assoc]
    exact List.perm_middle.append_left _

/-- **`AECRefill` (proved),** its locked section. -/
theorem AecSound.refill (h : AecSound s l) :
    ∃ l', AecSound { s with cache := .refillSafe s.cache.next s.cache, poll := .creating } l' := by
  obtain ⟨l', hholds, hperm⟩ := AcceptEventCache.refillSafe_holds s.cache.next h.cache rfl
  exact ⟨l', h.move hholds rfl (hperm.append_right s.out)⟩

/-- **A round of the second loop of `AECRefill` (proved)** in which there is memory. -/
theorem AecSound.refillNew (h : AecSound s l) (hpos : 0 < s.cache.next) :
    AecSound { s with cache := s.cache.refillNew (some s.created), created := s.created + 1 } l := by
  obtain ⟨n, hn⟩ : ∃ n, s.cache.next = n + 1 := ⟨s.cache.next - 1, by omega⟩
  have hle := h.cache.next_le
  have hlt : n < acceptEventFastCacheSize := by omega
  have hnone : s.cache.fastList n = none := h.cache.fast_none (Or.inl (by omega))
  have hnew : s.cache.refillNew (some s.created) = { s.cache with
      next := n, fastList := Function.update s.cache.fastList n (some s.created) } := by
    unfold AcceptEventCache.refillNew
    rw [hn, Nat.add_sub_cancel]
  rw [hnew]
  refine h.new ⟨Nat.le_of_lt hlt, h.cache.fill hn s.created, h.cache.safe⟩ rfl ?_
  exact ((filterMap_range_update hlt hnone).append_right l).append_right s.out

/-- A round without memory ends the loop, and leaves the array as it is. -/
theorem AecSound.refillNone (h : AecSound s l) (hpos : 0 < s.cache.next) :
    AecSound { s with cache := s.cache.refillNew none, poll := .idle } l := by
  obtain ⟨n, hn⟩ : ∃ n, s.cache.next = n + 1 := ⟨s.cache.next - 1, by omega⟩
  have hsame : s.cache.refillNew none = s.cache := by
    have hnext : (s.cache.refillNew none).next = s.cache.next := Nat.sub_add_cancel hpos
    have hfast : (s.cache.refillNew none).fastList = s.cache.fastList := by
      unfold AcceptEventCache.refillNew
      rw [hn, Nat.add_sub_cancel]
      exact h.cache.fill_none hn
    cases hcache : s.cache.refillNew none
    rw [hcache] at hnext hfast
    cases hnext
    cases hfast
    have hsafe := congrArg AcceptEventCache.safeList hcache
    cases hsafe
    rfl
  rw [hsame]
  exact h.move h.cache rfl (.refl _)

/-- **The fast way of `acceptEventAcquire` (proved).** -/
theorem AecSound.takeFast (h : AecSound s l) {e : ℕ} (he : s.cache.fastList s.cache.next = some e) :
    AecSound { s with cache := s.cache.takeFast, out := e :: s.out } l := by
  obtain ⟨hholds, hperm⟩ := h.cache.takeFast he
  refine h.move hholds rfl ?_
  show (s.cache.takeFast.fastEvents ++ l ++ e :: s.out).Perm (s.cache.fastEvents ++ l ++ s.out)
  exact List.perm_middle.trans ((hperm.append_right l).append_right s.out).symm

/-- **A round of `AECFlush` (proved).** -/
theorem AecSound.flushOne (h : AecSound s l) {e : ℕ} (he : s.cache.fastList s.cache.next = some e) :
    AecSound { s with cache := (s.cache.acceptEventRelease e).takeFast } (l ++ [e]) := by
  obtain ⟨_, hperm⟩ := h.cache.takeFast he
  have hnot : e ∉ l := by
    intro hmem
    have hnodup := (List.nodup_append.mp h.nodup).1
    exact (List.nodup_append.mp hnodup).2.2 e (hperm.mem_iff.mpr List.mem_cons_self) e hmem rfl
  obtain ⟨hholds, _⟩ := (h.cache.release hnot).takeFast he
  refine h.move hholds rfl ?_
  show (s.cache.takeFast.fastEvents ++ (l ++ [e]) ++ s.out).Perm (s.cache.fastEvents ++ l ++ s.out)
  refine List.Perm.append_right s.out ?_
  rw [← List.append_assoc]
  exact (List.perm_append_singleton e _).trans (hperm.append_right l).symm

/-- **A thread gives an event back (proved).** -/
theorem AecSound.release (h : AecSound s l) {e : ℕ} (he : e ∈ s.out) :
    AecSound { s with cache := s.cache.acceptEventRelease e, out := s.out.erase e } (l ++ [e]) := by
  have hnot : e ∉ l := by
    intro hmem
    exact (List.nodup_append.mp h.nodup).2.2 e (List.mem_append_right _ hmem) e he rfl
  refine h.move (h.cache.release hnot) rfl ?_
  show (s.cache.fastEvents ++ (l ++ [e]) ++ s.out.erase e).Perm (s.cache.fastEvents ++ l ++ s.out)
  rw [← List.append_assoc, List.append_assoc]
  exact (List.perm_cons_erase he).symm.append_left _

/-- **The step lemma (proved).** -/
theorem aecStep_inv {a : AecAction} (h : AecSound s l) (hs : aecStep s a = some t) : ∃ l', AecSound t l' := by
  cases a with
  | refill =>
    simp only [aecStep] at hs
    split at hs
    · split at hs <;> cases hs
      · exact h.refill
      · exact ⟨l, h⟩
    · cases hs
  | create ok =>
    simp only [aecStep] at hs
    split at hs
    · split at hs
      next hpos =>
        cases ok <;> cases hs
        · exact ⟨l, h.refillNone hpos⟩
        · exact ⟨l, h.refillNew hpos⟩
      · cases hs
        exact ⟨l, h.move h.cache rfl (.refl _)⟩
    · cases hs
  | acquire =>
    simp only [aecStep] at hs
    split at hs
    · split at hs <;> cases hs
      next e he => exact ⟨l, h.takeFast he⟩
      · exact h.popOr rfl rfl rfl
    · cases hs
  | acquireNew ok =>
    simp only [aecStep] at hs
    split at hs <;> cases hs
    exact ⟨l, h.malloc ok (by cases ok <;> rfl) rfl rfl⟩
  | flush =>
    simp only [aecStep] at hs
    split at hs <;> cases hs
    exact ⟨l, h.move h.cache rfl (.refl _)⟩
  | flushOne =>
    simp only [aecStep] at hs
    split at hs
    · split at hs <;> cases hs
      next e he => exact ⟨_, h.flushOne he⟩
      · exact ⟨l, h.move h.cache rfl (.refl _)⟩
    · cases hs
  | alloc =>
    cases hs
    exact h.popOr rfl rfl rfl
  | allocNew ok =>
    simp only [aecStep] at hs
    split at hs <;> cases hs
    exact ⟨l, h.malloc ok (by cases ok <;> rfl) rfl rfl⟩
  | release e =>
    simp only [aecStep] at hs
    split at hs <;> cases hs
    next he => exact ⟨_, h.release he⟩

end Step

/-! ### A run -/

/-- The cache of a new engine; nobody has an event. -/
def AecSystem.start (memory : ℕ → Option ℕ) : AecSystem where
  cache := .aecInit memory

theorem aecSound_start (memory : ℕ → Option ℕ) : AecSound (.start memory) [] where
  cache := by
    refine ⟨Nat.le_refl _, fun i => ?_, TailList.holds_empty memory⟩
    exact iff_of_false Bool.false_ne_true fun hi => Nat.not_lt.mpr hi.1 hi.2
  places := .refl _

/-- **The cache of accept events is sound in every state of a run (proved).** -/
theorem reachable_aecSound {memory : ℕ → Option ℕ} {s : AecSystem}
    (h : Reachable (enabled aecStep) (.start memory) s) : ∃ l, AecSound s l := by
  have hstart : ∃ l, AecSound (.start memory) l := ⟨[], aecSound_start memory⟩
  refine h.invariant (P := fun s => ∃ l, AecSound s l) hstart fun s a t hs _ hstep => ?_
  obtain ⟨l, hl⟩ := hs
  exact aecStep_inv hl hstep

/-- The poll thread hands an event out, another thread gives it back, the array is flushed, and a thread asks for one. -/
theorem reachable_aecSound_released :
    ∃ s, Reachable (enabled aecStep) (.start fun _ => none) s ∧ s.cache.safeList.head = some 0 ∧
      ∃ l, AecSound s l := by
  have hrun : ∃ s, runFrom aecStep (.start fun _ => none)
      [.refill, .create true, .create true, .create false, .acquire, .release 1, .flush, .flushOne, .flushOne,
        .alloc] = some s := ⟨_, rfl⟩
  obtain ⟨s, hs⟩ := hrun
  have hreach := reachable_of_runFrom hs
  refine ⟨s, hreach, ?_, reachable_aecSound hreach⟩
  cases hs
  rfl

/-- **`AECShutdown` (proved)** frees the events of the safe list, each once, and leaves the list empty. -/
theorem aecShutdown_frees {c : AcceptEventCache} {l : List ℕ} (h : c.Holds l) {fuel : ℕ} (hfuel : l.length ≤ fuel) :
    (c.aecShutdown fuel).1 = l ∧ (c.aecShutdown fuel).2.Holds [] := by
  unfold AcceptEventCache.aecShutdown
  rw [TailList.drain_spec l h.safe hfuel]
  exact ⟨rfl, h.next_le, h.fast, TailList.holds_empty _⟩

end Connio
