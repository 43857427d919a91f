import Connio.ListenerIndependent

/-!
# Listeners that have been removed

`ConnARemoveListenerEx` counts a listener with a conn when it has stopped it; the rest is for `ConnAListenerCallback`
(`_ConnARemoveListenerEx`, `connio.c`), which leaves the record in the list.

* `BookAction.Revives` — a step starts a listener, or returns it from `ConnAAddListenerEx`;
* `RemovedStays` — a removed listener is out of the list when the callback of its conn has run, and is not revived;
* `RemovesUnused` — a listener is removed while it has no conn, and no thread and no conn refers to it;
* `removal_step` — **PROVED**: the step lemma;
* `reachable_removal` — **PROVED**: removed listeners stay removed as long as they are removed so;
* `removal_fails` — **PROVED**: a removed listener is in the list when its callback has run.
-/

namespace Connio

open Connio.Lib

/-! ### Removed listeners -/

/-- The conn whose `ConnAListenerCallback` a thread is in. -/
def RecordThread.callbackOf : RecordThread → Option ℕ
  | freeing c _ | clearing c _ => some c
  | _ => none

/-- `ConnAListenerCallback` of a conn has run. -/
def ManagedListeners.CallbackRan (s : ManagedListeners) (c : ℕ) : Prop :=
  (s.conn c).freed = true ∧ ∀ t ∈ s.threads, t.callbackOf ≠ some c

/-- **A step starts `l`,** or returns it from `ConnAAddListenerEx`. -/
def BookAction.Revives (s : ListenerBook) (l : ℕ) : BookAction → Prop
  | .records (.lock only which) => s.managed.pick only which (s.managed.candidates only) = some l
  | .records (.relock only which l') => (s.managed.settle l').pick only which (s.managed.rest only l') = some l
  | .records (.listen _ _ l' _) | .records (.restart l') | .moved l' _ _ => l' = l
  | .add args _ => s.managed.closing = false ∧ s.found args = some l
  | _ => False

/-- **A removed listener stays removed.** -/
def RemovedStays (s : ListenerBook) : Prop :=
  ∀ p ∈ s.removed, ((∀ c, p.2 = some c → s.managed.CallbackRan c) → p.1 ∉ s.managed.list) ∧
    ∀ a, bookStep s a ≠ none → ¬ a.Revives s p.1

/-- Nobody refers to a listener. -/
structure ListenerBook.Unreferred (s : ListenerBook) (l : ℕ) : Prop where
  threads : ∀ t ∈ s.managed.threads, t.refers ≠ some l
  callers : ∀ t ∈ s.callers, t.refers ≠ some l
  data : ∀ c, (s.managed.conn c).data ≠ some l

/-- **A listener is removed while it has no conn,** and nobody refers to it. -/
def RemovesUnused (s : ListenerBook) : BookAction → Prop
  | .records (.remove which only _) =>
    ∀ l ∈ s.managed.list, s.managed.selected which only l = true →
      (s.managed.record l).conn = none ∧ s.Unreferred l
  | _ => True

/-- **The invariant of removed listeners.** -/
structure RemovalInv (s : ListenerBook) : Prop where
  bounded : BookBounded s
  gone : ∀ p ∈ s.removed, p.1 ∉ s.managed.list
  unreferred : ∀ p ∈ s.removed, s.Unreferred p.1

section Removal

variable {s s' : ListenerBook} {l : ℕ}

theorem pick_mem {m : ManagedListeners} {only : Option ℕ} {which : ℕ} {from_ : List ℕ}
    (hpick : m.pick only which from_ = some l) : l ∈ from_ :=
  List.mem_of_find?_eq_some hpick

/-- A record that `ConnAStartListenerEx` looks at is in the list, or its caller has named it. -/
theorem candidates_mem {m : ManagedListeners} {only : Option ℕ} (h : l ∈ m.candidates only) :
    l ∈ m.list ∨ only = some l := by
  cases only with
  | none => exact Or.inl h
  | some l' => exact Or.inr (congrArg some (List.mem_singleton.mp h).symm)

theorem rest_mem {m : ManagedListeners} {only : Option ℕ} {l' : ℕ} (h : l ∈ m.rest only l') : l ∈ m.list := by
  unfold ManagedListeners.rest at h
  split at h
  · cases h
  · exact (List.dropWhile_sublist _).subset (List.mem_of_mem_tail h)

/-- A new thread does not refer to a listener that is gone. -/
theorem spawned_refers {a : RecordAction} {m : ManagedListeners} (hm : RecordsMoved s.managed m a)
    (hgone : l ∉ s.managed.list) (hun : s.Unreferred l) : ∀ t ∈ a.spawned s.managed, t.refers ≠ some l := by
  intro t ht heq
  cases a with
  | start only which =>
    rw [List.mem_singleton.mp ht] at heq
    exact hgone (hm.start only which rfl l heq)
  | lock only which =>
    obtain ⟨l', hpick, rfl⟩ := mem_scan ht
    cases heq
    rcases candidates_mem (pick_mem hpick) with hin | rfl
    · exact hgone hin
    · exact hun.threads (.starting (some l) which) (hm.goesOn _ rfl) rfl
  | listen only which l' ok =>
    rw [List.mem_singleton.mp ht] at heq
    exact hun.threads (.listening only which l') (hm.goesOn _ rfl) heq
  | store only which l' c =>
    rw [List.mem_singleton.mp ht] at heq
    exact hun.threads (.submitted only which l' c) (hm.goesOn _ rfl) heq
  | relock only which l' =>
    obtain ⟨l'', hpick, rfl⟩ := mem_scan ht
    cases heq
    exact hgone (rest_mem (pick_mem hpick))
  | callback c =>
    rw [List.mem_singleton.mp ht] at heq
    exact hun.data c heq
  | free c l' =>
    obtain ⟨l'', hl'', rfl⟩ := List.mem_map.mp ht
    cases heq
    exact hun.threads (.freeing c l') (hm.goesOn _ rfl) (Option.mem_toList.mp hl'')
  | clear c l' =>
    simp only [RecordAction.spawned] at ht
    split at ht
    · rw [List.mem_singleton.mp ht] at heq
      exact hun.threads (.clearing c l') (hm.goesOn _ rfl) heq
    · cases ht
  | stop _ _ | remove _ _ _ | status _ _ _ | restart _ | close => cases ht

/-- **What the invariant says about the removed listeners (proved).** -/
theorem RemovalInv.removedStays (h : RemovalInv s) : RemovedStays s := by
  intro p hp
  have hgone := h.gone p hp
  have hun := h.unreferred p hp
  have hgoes : ∀ (a : RecordAction), (∀ which only cllist, a ≠ .remove which only cllist) →
      bookStep s (.records a) ≠ none → (∀ t ∈ a.goesOn, t ∈ s.managed.threads) := by
    intro a ha hne
    obtain ⟨s', hs⟩ := Option.ne_none_iff_exists'.mp hne
    obtain ⟨m, _, hm⟩ := bookMove_records (bookMove_of_step hs) ha
    exact hm.goesOn
  refine ⟨fun _ => hgone, fun a hne hrevive => ?_⟩
  unfold BookAction.Revives at hrevive
  split at hrevive
  next only which =>
    rcases candidates_mem (pick_mem hrevive) with hin | honly
    · exact hgone hin
    · exact hun.threads (.starting only which) (hgoes _ (fun _ _ _ h => by cases h) hne _ rfl) honly
  next only which l' => exact hgone (rest_mem (pick_mem hrevive))
  next only which l' ok =>
    exact hun.threads (.listening only which l') (hgoes _ (fun _ _ _ h => by cases h) hne _ rfl)
      (congrArg some hrevive)
  next l' =>
    exact hun.threads (.restarting l') (hgoes _ (fun _ _ _ h => by cases h) hne _ rfl) (congrArg some hrevive)
  next l' c memory =>
    obtain ⟨s', hs⟩ := Option.ne_none_iff_exists'.mp hne
    have hs := bookMove_of_step hs
    simp only [bookMove] at hs
    split at hs
    next hmem => exact hun.callers (.moving l' c) hmem (congrArg some hrevive)
    · cases hs
  next args independent => exact hgone (found_mem hrevive.2)
  · exact hrevive

/-- Only the callers change. -/
theorem RemovalInv.callers (h : RemovalInv s) (hb : BookBounded s') (hremoved : s'.removed = s.removed)
    (hlist : ∀ l ∈ s'.managed.list, l ∈ s.managed.list ∨ l = s.added)
    (hthreads : s'.managed.threads = s.managed.threads) (hconn : s'.managed.conn = s.managed.conn)
    (hcallers : ∀ t ∈ s'.callers, t ∈ s.callers ∨ ∀ l, t.refers = some l → l ∈ s.managed.list ∨ l = s.added) :
    RemovalInv s' := by
  have hold : ∀ p ∈ s'.removed, p ∈ s.removed ∧ p.1 ≠ s.added := by
    intro p hp
    rw [hremoved] at hp
    exact ⟨hp, Nat.ne_of_lt (h.bounded.removed p hp)⟩
  refine ⟨hb, fun p hp hin => ?_, fun p hp => ⟨?_, fun t ht heq => ?_, ?_⟩⟩
  · obtain ⟨hp, hne⟩ := hold p hp
    rcases hlist _ hin with hin | heq
    · exact h.gone p hp hin
    · exact hne heq
  · rw [hthreads]
    exact (h.unreferred p (hold p hp).1).threads
  · obtain ⟨hp, hne⟩ := hold p hp
    rcases hcallers t ht with ht | hnew
    · exact (h.unreferred p hp).callers t ht heq
    · rcases hnew _ heq with hin | hadded
      · exact h.gone p hp hin
      · exact hne hadded
  · rw [hconn]
    exact (h.unreferred p (hold p hp).1).data

/-- **The step lemma (proved).** -/
theorem removal_step {a : BookAction} (h : RemovalInv s) (hok : RemovesUnused s a) (hs : bookStep s a = some s') :
    RemovalInv s' := by
  have hb := bookStep_bounded h.bounded hs
  have hs := bookMove_of_step hs
  cases a with
  | records a =>
    by_cases ha : ∃ which only cllist, a = .remove which only cllist
    · obtain ⟨which, only, cllist, rfl⟩ := ha
      cases hs
      refine ⟨hb, fun p hp hin => ?_, fun p hp => ?_⟩
      · obtain ⟨hin, hused⟩ := List.mem_filter.mp hin
        rcases List.mem_append.mp hp with hp | hp
        · obtain ⟨l, hl, rfl⟩ := List.mem_map.mp hp
          obtain ⟨hlist, hselected⟩ := List.mem_filter.mp hl
          obtain ⟨hconn, _⟩ := hok l hlist hselected
          simp [ManagedListeners.unused, hselected, hconn] at hused
        · exact h.gone p hp hin
      · rcases List.mem_append.mp hp with hp | hp
        · obtain ⟨l, hl, rfl⟩ := List.mem_map.mp hp
          obtain ⟨hlist, hselected⟩ := List.mem_filter.mp hl
          obtain ⟨_, hun⟩ := hok l hlist hselected
          exact ⟨hun.threads, hun.callers, hun.data⟩
        · have hun := h.unreferred p hp
          exact ⟨hun.threads, hun.callers, hun.data⟩
    · obtain ⟨m, rfl, hm⟩ := bookMove_records hs fun which only cllist heq => ha ⟨which, only, cllist, heq⟩
      refine ⟨hb, fun p hp hin => h.gone p hp (hm.list _ hin), fun p hp => ?_⟩
      have hun := h.unreferred p hp
      refine ⟨fun t ht => ?_, hun.callers, fun c hdata => ?_⟩
      · rcases hm.threads t ht with ht | ht
        · exact hun.threads t ht
        · exact spawned_refers hm (h.gone p hp) hun t ht
      · rcases hm.data c _ hdata with hold | ⟨only, which, hmem⟩
        · exact hun.data c hold
        · exact hun.threads _ hmem rfl
  | shutdown | suspend _ | resume _ | expire _ =>
    cases hs
    exact h.callers hb rfl (fun _ hl => Or.inl hl) rfl rfl fun t ht => Or.inl ht
  | add args independent =>
    cases hs
    split
    · exact h
    next hopen =>
      rw [if_neg hopen] at hb
      unfold ListenerBook.add at hb ⊢
      split
      next l' hfound =>
        rw [hfound] at hb
        refine h.callers hb rfl (fun _ hl => Or.inl hl) rfl rfl fun t ht => ?_
        cases independent with
        | false => exact Or.inl ht
        | true =>
          rcases List.mem_cons.mp ht with rfl | ht
          · right
            rintro l ⟨⟩
            exact Or.inl (found_mem hfound)
          · exact Or.inl ht
      next hfound =>
        rw [hfound] at hb
        refine h.callers hb rfl (fun _ hl => Or.inl hl) rfl rfl fun t ht => ?_
        rcases List.mem_cons.mp ht with rfl | ht
        · exact Or.inr fun l heq => by cases heq
        · exact Or.inl ht
  | link args independent memory =>
    simp only [bookMove] at hs
    split at hs
    · split at hs
      · cases hs
        refine h.callers hb rfl (fun l hl => ?_) rfl rfl fun t ht => ?_
        · exact (List.mem_append.mp hl).imp_right List.mem_singleton.mp
        · rcases mem_proceed ht with ht | ht
          · exact Or.inl ht
          · cases independent with
            | false => cases ht
            | true =>
              rw [List.mem_singleton.mp ht]
              right
              rintro l ⟨⟩
              exact Or.inr rfl
      · cases hs
        refine h.callers hb rfl (fun _ hl => Or.inl hl) rfl rfl fun t ht => ?_
        exact (mem_proceed ht).imp_right fun h => by cases h
    · cases hs
  | mark l' =>
    simp only [bookMove] at hs
    split at hs
    · cases hs
      refine h.callers hb rfl (fun _ hl => Or.inl hl) rfl rfl fun t ht => ?_
      exact (mem_proceed ht).imp_right fun h => by cases h
    · cases hs
  | move l' sa =>
    simp only [bookMove] at hs
    split at hs
    next hmem =>
      split at hs
      · cases hs
        exact h
      · split at hs
        · split at hs
          · cases hs
            exact h
          · cases hs
            exact h.callers hb rfl (fun _ hl => Or.inl hl) rfl rfl fun t ht => Or.inl ht
        · cases hs
          refine h.callers hb rfl (fun _ hl => Or.inl hl) rfl rfl fun t ht => ?_
          rcases List.mem_cons.mp ht with rfl | ht
          · right
            rintro l ⟨⟩
            exact Or.inl hmem
          · exact Or.inl ht
    · cases hs
  | moved l' c memory =>
    simp only [bookMove] at hs
    split at hs
    · split at hs
      · cases hs
        exact h.callers hb rfl (fun _ hl => Or.inl hl) rfl rfl fun t ht => Or.inl ht
      · cases hs
        refine h.callers hb rfl (fun _ hl => Or.inl hl) rfl rfl fun t ht => ?_
        exact (mem_proceed ht).imp_right fun h => by cases h
    · cases hs

end Removal

/-- **Removed listeners stay removed (proved)** in every run that removes listeners without conns only. -/
theorem reachable_removal {s : ListenerBook} (h : ReachableVia (enabled bookStep) RemovesUnused .new s) :
    RemovedStays s := by
  have hinv : RemovalInv s := h.invariant (P := RemovalInv)
    ⟨bookBounded_new, fun _ hp => (by cases hp), fun _ hp => (by cases hp)⟩
    fun _ _ _ hi hok hs => removal_step hi hok hs
  exact hinv.removedStays

/-- Two listeners are added, and the second one is being started. -/
def oneStarting : List BookAction :=
  [.add ⟨[], 1, 1, none⟩ false, .link ⟨[], 1, 1, none⟩ false true, .add ⟨[], 2, 1, none⟩ false,
    .link ⟨[], 2, 1, none⟩ false true, .records (.start (some 1) 0), .records (.lock (some 1) 15),
    .records (.listen (some 1) 15 1 true)]

/-- It is started, is stopped and called back, and another thread starts all that there are. -/
def calledBackThen : List BookAction :=
  [.records (.store (some 1) 15 1 (some 0)), .records (.relock (some 1) 15 1), .records (.stop 0 (some 1)),
    .records (.callback 0), .records (.free 0 (some 1)), .records (.clear 0 1), .records (.start none 0),
    .records (.lock none 15)]

/-- The first one is removed in between. -/
theorem reachable_removal_unused : ∃ s : ListenerBook, RemovedStays s ∧ s.removed = [(0, none)] ∧
    s.managed.list = [1] ∧ s.managed.threads = [.listening none 15 1] := by
  obtain ⟨s, s', t, hs, hs', ht, hok, hobs⟩ : ∃ s s' t, runFrom bookStep .new oneStarting = some s ∧
      bookStep s (.records (.remove 0 (some 0) false)) = some s' ∧ runFrom bookStep s' calledBackThen = some t ∧
      RemovesUnused s (.records (.remove 0 (some 0) false)) ∧
      t.removed = [(0, none)] ∧ t.managed.list = [1] ∧ t.managed.threads = [.listening none 15 1] := by
    refine ⟨_, _, _, rfl, rfl, rfl, fun l hl hselected => ?_, rfl, rfl, rfl⟩
    -- the thread that starts a listener and its new conn are those of the second one
    rcases List.mem_cons.mp hl with rfl | hl
    · refine ⟨rfl, fun u hu => ?_, fun u hu => (by cases hu), fun c => ?_⟩
      · rw [List.mem_singleton.mp hu]
        decide
      · show (if c = 0 then ({ live := true } : ListenerConn) else {}).data ≠ some 0
        split <;> nofun
    · obtain rfl := List.mem_singleton.mp hl
      exact absurd hselected (by decide)
  have hprepared : ReachableVia (enabled bookStep) RemovesUnused .new s := by
    refine reachableVia_of_forall RemovesUnused (fun a ha u => ?_) hs
    simp only [oneStarting, List.mem_cons, List.not_mem_nil, or_false] at ha
    rcases ha with rfl | rfl | rfl | rfl | rfl | rfl | rfl <;> trivial
  have hthen : ReachableVia (enabled bookStep) RemovesUnused s' t := by
    refine reachableVia_of_forall RemovesUnused (fun a ha u => ?_) ht
    simp only [calledBackThen, List.mem_cons, List.not_mem_nil, or_false] at ha
    rcases ha with rfl | rfl | rfl | rfl | rfl | rfl | rfl | rfl <;> trivial
  exact ⟨t, reachable_removal ((hprepared.next hok hs').trans hthen), hobs⟩

/-- **A removed listener is still there (proved):** it had a conn, whose callback has run. -/
theorem removal_fails : ¬ ∀ s : ListenerBook, Reachable (enabled bookStep) .new s → RemovedStays s := by
  intro hall
  have hrun : ∃ s, runFrom bookStep .new
      [.add ⟨[], 1, 1, none⟩ false, .link ⟨[], 1, 1, none⟩ false true, .records (.start none 0),
        .records (.lock none 15), .records (.listen none 15 0 true), .records (.store none 15 0 (some 0)),
        .records (.relock none 15 0), .records (.remove 0 (some 0) false), .records (.callback 0),
        .records (.free 0 (some 0)), .records (.clear 0 0)] = some s ∧
      s.removed = [(0, some 0)] ∧ s.managed.list = [0] ∧ (s.managed.conn 0).freed = true ∧ s.managed.threads = [] :=
    ⟨_, rfl, rfl, rfl, rfl, rfl⟩
  obtain ⟨s, hs, hremoved, hlist, hfreed, hthreads⟩ := hrun
  have hgone := (hall s (reachable_of_runFrom hs) (0, some 0) (by rw [hremoved]; decide)).1
  refine hgone ?_ (by rw [hlist]; decide)
  rintro c ⟨⟩
  refine ⟨hfreed, fun t ht => ?_⟩
  rw [hthreads] at ht
  cases ht

end Connio
