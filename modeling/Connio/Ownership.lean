import Connio.EngineInv

/-!
# Every event is owned once, and released once

* `ReleaseInv`, `releaseInv_step` — **PROVED**: the client buffer of an event is given back once, its
  send IOBuffer is freed once, and both before the memory of the event is freed;
* `CompletionOk`, `completionOk_step` — **PROVED**: what a thread inside `QueueCompleteCallback`
  knows of its transaction; when it calls the consumer all events of the transaction have been freed;
* `LinearOwnership`, `OwnershipInv.linearOwnership` — **PROVED**: every event that `EventEnqueue` has taken
  over is in exactly one place;
* `OwnershipInv`, `reachable_ownershipInv` — **PROVED**: the invariants together, along every run.
-/

namespace Connio

open Connio.Lib

/-! ### Resources -/

/-- **What has been released so far.** -/
structure ReleaseInv (c : Conn) : Prop where
  client : ∀ x ∈ allocated c.log, (c.events x).type = .writeFromClientBuffer →
    (clientFreed c.log).count x + (c.events x).bufferStart.toNat = 1
  iob : ∀ x ∈ allocated c.log, (c.events x).type.eventClass = .send →
    (c.events x).type ≠ .writeFromClientBuffer →
      (iobFreed c.log).count x + (c.events x).ioBuffer.toNat = 1
  clientOnly : ∀ x, (x ∈ allocated c.log → (c.events x).type ≠ .writeFromClientBuffer) →
    (clientFreed c.log).count x = 0
  iobOnly : ∀ x, (x ∈ allocated c.log → (c.events x).type.eventClass ≠ .send ∨
    (c.events x).type = .writeFromClientBuffer) → (iobFreed c.log).count x = 0
  released : ∀ x ∈ freed c.log, (c.events x).Released

namespace ReleaseInv

variable {c c' : Conn}

/-- The event lock releases nothing, and new events have their resources. -/
theorem of_owned {given taken : List EventId} (hinv : ReleaseInv c) (h : Owned c given c' taken)
    (hfreed : ∀ x ∈ freed c.log, x ∈ allocated c.log) : ReleaseInv c' := by
  have hclient := clientFreed_of_releases h.released
  have hiob := iobFreed_of_releases h.released
  have hsub : ∀ x ∈ allocated c.log, x ∈ allocated c'.log := fun _ => allocated_mono h.suffix
  have hsame : ∀ x ∈ allocated c.log, (c'.events x).type = (c.events x).type ∧
      (c'.events x).bufferStart = (c.events x).bufferStart ∧
      (c'.events x).ioBuffer = (c.events x).ioBuffer := by
    intro x hx
    have := h.resources x hx
    simpa only [ConnEvent.resources, Prod.mk.injEq] using this
  -- nothing has been released of an event that is not allocated
  have hclient0 : ∀ x, x ∉ allocated c.log → (clientFreed c.log).count x = 0 := fun x hx =>
    hinv.clientOnly x fun h => absurd h hx
  have hiob0 : ∀ x, x ∉ allocated c.log → (iobFreed c.log).count x = 0 := fun x hx =>
    hinv.iobOnly x fun h => absurd h hx
  refine ⟨fun x hx ht => ?_, fun x hx hc ht => ?_, fun x hx => ?_, fun x hx => ?_, fun x hx => ?_⟩
  · rw [hclient]
    by_cases hold : x ∈ allocated c.log
    · obtain ⟨h1, h2, _⟩ := hsame x hold
      rw [h2]
      exact hinv.client x hold (h1 ▸ ht)
    · rw [hclient0 x hold, (h.assigned x hx hold).bufferStart ht]
      rfl
  · rw [hiob]
    by_cases hold : x ∈ allocated c.log
    · obtain ⟨h1, _, h2⟩ := hsame x hold
      rw [h2]
      rw [h1] at hc ht
      exact hinv.iob x hold hc ht
    · rw [hiob0 x hold, (h.assigned x hx hold).ioBuffer hc ht]
      rfl
  · rw [hclient]
    by_cases hold : x ∈ allocated c.log
    · have ht := hx (hsub x hold)
      rw [(hsame x hold).1] at ht
      exact hinv.clientOnly x fun _ => ht
    · exact hclient0 x hold
  · rw [hiob]
    by_cases hold : x ∈ allocated c.log
    · have ht := hx (hsub x hold)
      rw [(hsame x hold).1] at ht
      exact hinv.iobOnly x fun _ => ht
    · exact hiob0 x hold
  · rw [freed_of_releases h.released] at hx
    obtain ⟨h1, h2, h3⟩ := hsame x (hfreed x hx)
    have hr := hinv.released x hx
    refine ⟨fun ht => ?_, fun hc ht => ?_⟩
    · rw [h2]
      exact hr.bufferStart (h1 ▸ ht)
    · rw [h1] at hc ht
      rw [h3]
      exact hr.ioBuffer hc ht

/-- A release gives up a resource. -/
theorem of_balanced (hinv : ReleaseInv c) (h : Balanced (fun x => x ∈ allocated c.log) c c')
    (halloc : allocated c'.log = allocated c.log) : ReleaseInv c' := by
  refine ⟨fun x hx ht => ?_, fun x hx hc ht => ?_, fun x hx => ?_, fun x hx => ?_, fun x hx => ?_⟩
  · rw [h.client x]
    exact hinv.client x (halloc ▸ hx) (h.typeOf x ▸ ht)
  · rw [h.iob x]
    rw [h.typeOf x] at hc ht
    exact hinv.iob x (halloc ▸ hx) hc ht
  · rw [halloc, h.typeOf x] at hx
    rcases h.clientOnly x with ⟨hmem, ht⟩ | heq
    · exact absurd ht (hx hmem)
    · rw [heq]
      exact hinv.clientOnly x hx
  · rw [halloc, h.typeOf x] at hx
    rcases h.iobOnly x with ⟨hmem, hc, ht⟩ | heq
    · rcases hx hmem with hx | hx
      · exact absurd hc hx
      · exact absurd hx ht
    · rw [heq]
      exact hinv.iobOnly x hx
  · rcases h.freed x hx with hx | hx
    · have hr := hinv.released x hx
      refine ⟨fun ht => ?_, fun hc ht => ?_⟩
      · exact h.bufferStart x (hr.bufferStart (h.typeOf x ▸ ht))
      · rw [h.typeOf x] at hc ht
        exact h.ioBuffer x (hr.ioBuffer hc ht)
    · exact hx

end ReleaseInv

/-- **Resources are released once (proved).** -/
theorem releaseInv_step {s s' : AsyncSystem} {a : AsyncAction} (hinv : AsyncInv s) (hrel : ReleaseInv s.conn)
    (h : asyncStep s a = some s') : ReleaseInv s'.conn := by
  obtain ⟨_, hchange⟩ := asyncStep_effect hinv h
  cases hchange with
  | lock effect _ => exact hrel.of_owned effect.toOwned fun x hx => hinv.freed_allocated hx
  | quiet quiet balanced => exact hrel.of_balanced balanced quiet.projections.1

theorem ReleaseInv.initial {s : AsyncSystem} (hinit : s.Initial) : ReleaseInv s.conn := by
  refine ⟨?_, ?_, ?_, ?_, ?_⟩ <;> simp [hinit.log, allocated, freed, clientFreed, iobFreed]

/-! ### The thread that calls the consumer -/

/-- What a thread inside `QueueCompleteCallback` knows of the transaction it has ended: `t` is the history
at its end. -/
def CompletionOk (log : List LogEntry) : Completion → Prop
  | .starting => True
  | .destroying sm freeList mark => ∃ t, mark = .prepare sm :: t ∧ mark.IsSuffix log ∧
      (∀ e ∈ accepted (txnLog t), e ∈ freeList ∨ e ∈ freed log) ∧
      ∀ e ∈ freeList, e ∉ accepted (txnLog log)
  | .calling sm mark => ∃ t, mark = .prepare sm :: t ∧ mark.IsSuffix log ∧
      ∀ e ∈ accepted (txnLog t), e ∈ freed log

/-- An event of the running transaction was one before, or has just been accepted. -/
theorem accepted_txnLog_append {xs log : List LogEntry} {e : EventId}
    (h : e ∈ accepted (txnLog (xs ++ log))) : e ∈ accepted xs ∨ e ∈ accepted (txnLog log) := by
  induction xs with
  | nil => exact .inr h
  | cons x xs ih =>
    cases hx : x.isPrepare with
    | true =>
      rw [List.cons_append, txnLog, List.takeWhile_cons_of_neg (by simp [hx])] at h
      cases h
    | false =>
      rw [List.cons_append, txnLog_cons hx] at h
      have hcons : ∀ l, accepted (x :: l) = (LogEntry.accept? x).toList ++ accepted l := fun l => by
        cases x <;> rfl
      rw [hcons] at h ⊢
      rcases List.mem_append.mp h with h | h
      · exact .inl (List.mem_append_left _ h)
      · exact (ih h).imp_left fun h => List.mem_append_right _ h

variable {P : Prop} {s s' : AsyncSystem}

/-- Events on a grabbed free list are never accepted again. -/
theorem Change.accepted_txnLog (h : Change P s s') (hinv' : AsyncInv s') {e : EventId}
     (halloc : e ∈ allocated s.conn.log) (hcaller : e ∉ s.caller)
    (he : e ∈ accepted (txnLog s'.conn.log)) : e ∈ accepted (txnLog s.conn.log) := by
  cases h with
  | lock effect given_caller =>
    obtain ⟨xs, hlog⟩ := effect.suffix
    rw [← hlog] at he
    refine (accepted_txnLog_append he).resolve_left fun hxs => ?_
    have hnd := hinv'.queue.accepted_nodup
    rw [show (view s'.conn).log = s'.conn.log from rfl, ← hlog, accepted, List.filterMap_append]
      at hnd
    have hacc : e ∈ accepted s'.conn.log := by
      rw [← hlog, accepted, List.filterMap_append]
      exact List.mem_append_left _ hxs
    rcases effect.accepts e hacc with h | h | h
    · exact (List.nodup_append.mp hnd).2.2 e hxs e h rfl
    · exact hcaller (given_caller e h)
    · exact h halloc
  | quiet quiet _ =>
    obtain ⟨xs, hxs, hlog⟩ := quiet.log
    rw [hlog] at he
    refine (accepted_txnLog_append he).resolve_left fun h => ?_
    obtain ⟨x, hx, hxe⟩ := List.mem_filterMap.mp h
    have hq := hxs x hx
    cases x <;> cases hxe
    cases hq

theorem Change.suffix (h : Change P s s') : s.conn.log.IsSuffix s'.conn.log := by
  cases h with
  | lock effect _ => exact effect.suffix
  | quiet quiet _ =>
    obtain ⟨xs, _, hlog⟩ := quiet.log
    rw [hlog]
    exact List.suffix_append xs _

theorem CompletionOk.change (h : Change P s s') (hinv : AsyncInv s) (hinv' : AsyncInv s')
    {x : Completion} (hx : x ∈ s.completions) (hok : CompletionOk s.conn.log x) :
    CompletionOk s'.conn.log x := by
  have hfreed : ∀ e ∈ freed s.conn.log, e ∈ freed s'.conn.log := fun e he =>
    mem_of_suffix h.suffix he
  cases x with
  | starting => trivial
  | destroying sm freeList mark =>
    obtain ⟨t, hmark, hsuffix, hall, hold⟩ := hok
    refine ⟨t, hmark, hsuffix.trans h.suffix, fun e he => (hall e he).imp_right (hfreed e),
      fun e he hacc => hold e he ?_⟩
    refine h.accepted_txnLog hinv' (hinv.grabbed_allocated (.inr ⟨_, hx, he⟩)) (fun hc => ?_) hacc
    -- the event would be in two places
    have hone := hinv.ledger_le_one e
    have h1 := List.count_pos_iff.mpr hc
    have h2 := List.count_pos_iff.mpr (List.mem_flatMap.mpr ⟨_, hx, he⟩ :
      e ∈ s.completions.flatMap Completion.grabbed)
    simp only [AsyncSystem.outside, List.count_append] at hone
    omega
  | calling sm mark =>
    obtain ⟨t, hmark, hsuffix, hall⟩ := hok
    exact ⟨t, hmark, hsuffix.trans h.suffix, fun e he => hfreed e (hall e he)⟩

/-- Where the threads inside `QueueCompleteCallback` come from. -/
theorem asyncStep_completions {a : AsyncAction} (h : asyncStep s a = some s') :
    ∀ y ∈ s'.completions, y ∈ s.completions ∨ y = .starting ∨
      (a = .prepare ∧ .starting ∈ s.completions ∧
        y = .destroying (prepareForCallback s.conn).1 (prepareForCallback s.conn).2.1
          (prepareForCallback s.conn).2.2.log ∧ s'.conn = (prepareForCallback s.conn).2.2) ∨
      ∃ sm freeList mark, .destroying sm freeList mark ∈ s.completions ∧ y = .calling sm mark ∧
        s'.conn = connEventFreeListDestroy s.conn freeList := by
  have houtcome : ∀ (s₀ : AsyncSystem) (r : Outcome × Conn), s₀.completions = s.completions →
      ∀ y ∈ (s₀.outcome r).completions, y ∈ s.completions ∨ y = .starting := by
    rintro s₀ ⟨o, c⟩ h0 y hy
    match o, hy with
    | .work e freeList, hy => exact .inl (h0 ▸ hy)
    | .leave true, hy => exact .inl (h0 ▸ hy)
    | .leave false, hy =>
      rcases List.mem_cons.mp hy with rfl | hy
      · exact .inr rfl
      · exact .inl (h0 ▸ hy)
  have hor : ∀ {y : Completion} {p q : Prop}, (y ∈ s.completions ∨ y = .starting) →
      y ∈ s.completions ∨ y = .starting ∨ p ∨ q := fun h => h.imp_right .inl
  intro y hy
  cases a with
  | enqueue connEvent allocs source =>
    simp only [asyncStep] at h
    split at h <;> cases h
    refine hor ?_
    unfold AsyncSystem.enqueue at hy
    split at hy
    · exact houtcome { s with caller := connEvent.elim s.caller s.caller.erase } _ rfl y hy
    · cases connEvent with
      | none => exact .inl hy
      | some e => exact .inl hy
  | submit qFailure client source =>
    simp only [asyncStep] at h
    split at h <;> cases h
    · exact hor (houtcome s _ rfl y hy)
    · exact .inl hy
  | relock w =>
    simp only [asyncStep] at h
    split at h
    · split at h <;> cases h
      exact hor (houtcome { s with workers := s.workers.erase w } _ rfl y hy)
    · cases h
  | enter cb =>
    simp only [asyncStep] at h
    split at h <;> cases h
    exact hor (houtcome { s with callbacks := s.callbacks.erase cb } _ rfl y hy)
  | prepare =>
    simp only [asyncStep] at h
    split at h <;> cases h
    next hmem =>
    rcases List.mem_cons.mp hy with rfl | hy
    · exact .inr (.inr (.inl ⟨rfl, hmem, rfl, rfl⟩))
    · exact .inl (List.mem_of_mem_erase hy)
  | destroy x =>
    simp only [asyncStep] at h
    split at h
    next sm freeList mark =>
      split at h <;> cases h
      next hx =>
      rcases List.mem_cons.mp hy with rfl | hy
      · exact .inr (.inr (.inr ⟨sm, freeList, mark, hx, rfl, rfl⟩))
      · exact .inl (List.mem_of_mem_erase hy)
    · cases h
  | call x =>
    simp only [asyncStep] at h
    split at h
    · split at h <;> cases h
      exact .inl (List.mem_of_mem_erase hy)
    · cases h
  | alloc | free | work | handle | store =>
    simp only [asyncStep] at h
    repeat' split at h
    all_goals first | cases h; exact .inl hy | cases h
  | _ =>
    cases h
    exact .inl hy

/-- At the end of a transaction its events are on the free list, or freed. -/
theorem AsyncInv.prepare_freeList (hinv : AsyncInv s) (h : .starting ∈ s.completions)
    (hok : ∀ x ∈ s.completions, CompletionOk s.conn.log x) {e : EventId}
    (he : e ∈ accepted (txnLog s.conn.log)) :
    e ∈ s.conn.transaction.freeList ∨ e ∈ freed s.conn.log := by
  obtain ⟨hq, hactive, hthreads⟩ := hinv.queue.state.complete (hinv.complete_of_starting h)
  have hacc : e ∈ accepted s.conn.log := ((List.takeWhile_sublist _).filterMap _).subset he
  have halloc : e ∈ allocated s.conn.log := hinv.queue.order.accepted_allocated e hacc
  have hqueued : e ∉ s.conn.queued := by
    rw [show s.conn.queued = [] from hq]
    exact List.not_mem_nil
  have hslots : e ∉ s.conn.activeEvent.occupied := fun hmem => by
    obtain ⟨k, hk⟩ := Slots.mem_occupied.mp hmem
    exact absurd ((hactive k).symm.trans hk) (by simp)
  have hcaller : e ∉ s.caller ++ s.refused := fun hmem => hinv.caller_fresh e hmem hacc
  have hworkers : s.workers = [] := List.eq_nil_of_length_eq_zero (hinv.threads.symm.trans hthreads)
  have hgrabbed : e ∉ s.completions.flatMap Completion.grabbed := fun hmem => by
    obtain ⟨x, hx, hxe⟩ := List.mem_flatMap.mp hmem
    have hxok := hok x hx
    cases x with
    | destroying sm freeList mark =>
      obtain ⟨_, _, _, _, hold⟩ := hxok
      exact hold e hxe he
    | starting | calling => cases hxe
  have h1 := hinv.ledger e
  have h2 := List.count_pos_iff.mpr halloc
  rw [AsyncSystem.outside, hworkers] at h1
  simp only [Conn.held, List.count_append, List.count_eq_zero.mpr hqueued,
    List.count_eq_zero.mpr hslots, List.count_eq_zero.mpr hgrabbed, List.flatMap_nil,
    List.count_nil] at h1
  rw [← List.count_append, List.count_eq_zero.mpr hcaller] at h1
  by_cases hmem : e ∈ s.conn.transaction.freeList
  · exact .inl hmem
  · rw [List.count_eq_zero.mpr hmem] at h1
    exact .inr (List.count_pos_iff.mp (by omega))

/-- **Every thread inside `QueueCompleteCallback` knows its transaction (proved).** -/
theorem completionOk_step {a : AsyncAction} (hinv : AsyncInv s)
    (hok : ∀ x ∈ s.completions, CompletionOk s.conn.log x) (h : asyncStep s a = some s') :
    ∀ x ∈ s'.completions, CompletionOk s'.conn.log x := by
  obtain ⟨hinv', hchange⟩ := asyncStep_effect hinv h
  intro y hy
  rcases asyncStep_completions h y hy with hy | rfl | ⟨_, hmem, rfl, hconn⟩ |
    ⟨sm, freeList, mark, hx, rfl, hconn⟩
  · exact (hok y hy).change hchange hinv hinv' hy
  · trivial
  · refine ⟨s.conn.log, rfl, ?_, fun e he => ?_, fun e _ hacc => ?_⟩
    · exact hconn ▸ List.suffix_rfl
    · rw [hconn]
      exact hinv.prepare_freeList hmem hok he
    · rw [hconn] at hacc
      cases hacc
  · obtain ⟨t, hmark, hsuffix, hall, _⟩ := hok _ hx
    refine ⟨t, hmark, hsuffix.trans hchange.suffix, fun e he => ?_⟩
    rw [hconn, (connEventFreeListDestroy_spec freeList s.conn).2.2.1]
    rcases hall e he with h1 | h1
    · exact List.mem_append_left _ (List.mem_reverse.mpr h1)
    · exact List.mem_append_right _ h1

/-- **The invariants of ownership together.** -/
structure OwnershipInv (s : AsyncSystem) : Prop where
  inv : AsyncInv s
  release : ReleaseInv s.conn
  completion : ∀ x ∈ s.completions, CompletionOk s.conn.log x

theorem OwnershipInv.initial (hinit : s.Initial) : OwnershipInv s := by
  refine ⟨.initial hinit, .initial hinit, ?_⟩
  rw [hinit.completions]
  simp

/-- **Every step keeps the invariants of ownership (proved).** -/
theorem ownershipInv_step {a : AsyncAction} (hinv : OwnershipInv s) (h : asyncStep s a = some s') :
    OwnershipInv s' :=
  ⟨(asyncStep_effect hinv.inv h).1, releaseInv_step hinv.inv hinv.release h,
    completionOk_step hinv.inv hinv.completion h⟩

/-- **The invariants of ownership hold along every run (proved).** -/
theorem reachable_ownershipInv {ok : AsyncSystem → AsyncAction → Prop} (hinit : s.Initial)
    (h : ReachableVia (enabled asyncStep) ok s s') : OwnershipInv s' :=
  h.invariant (P := OwnershipInv) (.initial hinit) fun _ _ _ hinv _ hstep => ownershipInv_step hinv hstep

/-! ### Where an event is -/

/-- The places of an event that `EventEnqueue` has taken over: the queue, the active slots, the free list,
the free lists that threads have grabbed, and the freed memory. -/
def AsyncSystem.places (s : AsyncSystem) : List EventId :=
  s.conn.queued ++ s.conn.activeEvent.occupied ++ s.conn.transaction.freeList ++
    s.workers.flatMap Worker.grabbed ++ s.completions.flatMap Completion.grabbed ++ freed s.conn.log

/-- **Linear ownership.** -/
structure LinearOwnership (s : AsyncSystem) : Prop where
  /-- the queue is a well-formed doubly linked list; its count is its length -/
  queue : s.conn.transaction.queue.Represents s.conn.queued
  /-- an accepted event is in exactly one place -/
  place : ∀ e ∈ accepted s.conn.log, s.places.count e = 1
  /-- an active event is held by one thread or by the socket engine -/
  active : ∀ e, s.processing.count e = s.conn.activeEvent.occupied.count e
  /-- an event that `EventEnqueue` did not take over is with its caller only -/
  refused : ∀ e ∈ s.refused, s.refused.count e = 1 ∧ s.places.count e = 0
  client : ∀ e ∈ accepted s.conn.log, (s.conn.events e).type = .writeFromClientBuffer →
    (clientFreed s.conn.log).count e ≤ 1 ∧
      (e ∈ freed s.conn.log → (clientFreed s.conn.log).count e = 1)
  iob : ∀ e ∈ accepted s.conn.log, (s.conn.events e).type.eventClass = .send →
    (s.conn.events e).type ≠ .writeFromClientBuffer →
      (iobFreed s.conn.log).count e ≤ 1 ∧ (e ∈ freed s.conn.log → (iobFreed s.conn.log).count e = 1)
  /-- when the consumer is called, the events of its transaction have been freed -/
  called : ∀ sm mark, .calling sm mark ∈ s.completions → ∃ t, mark = .prepare sm :: t ∧
    mark.IsSuffix s.conn.log ∧ ∀ e ∈ accepted (txnLog t), e ∈ freed s.conn.log

/-- **Where the invariants hold, every event has one place (proved).** -/
theorem OwnershipInv.linearOwnership (h : OwnershipInv s) : LinearOwnership s := by
  obtain ⟨hinv, hrel, hok⟩ := h
  have halloc : ∀ e ∈ accepted s.conn.log, e ∈ allocated s.conn.log :=
    hinv.queue.order.accepted_allocated
  refine ⟨hinv.wf, fun e he => ?_, hinv.processing, fun e he => ?_, fun e he ht => ?_,
    fun e he hc ht => ?_, fun sm mark hx => hok _ hx⟩
  · have hcaller : e ∉ s.caller ++ s.refused := fun hmem => hinv.caller_fresh e hmem he
    have hone : (allocated s.conn.log).count e = 1 :=
      List.count_eq_one_of_mem hinv.queue.allocated_nodup (halloc e he)
    have h1 := hinv.ledger e
    have h2 := List.count_eq_zero.mpr hcaller
    simp only [AsyncSystem.places, Conn.held, AsyncSystem.outside, List.count_append] at h1 h2 ⊢
    omega
  · have h1 := hinv.ledger_le_one e
    have h2 := List.count_pos_iff.mpr he
    simp only [AsyncSystem.places, Conn.held, AsyncSystem.outside, List.count_append] at h1 ⊢
    omega
  · have h1 := hrel.client e (halloc e he) ht
    refine ⟨by omega, fun hf => ?_⟩
    rw [(hrel.released e hf).bufferStart ht] at h1
    exact h1
  · have h1 := hrel.iob e (halloc e he) hc ht
    refine ⟨by omega, fun hf => ?_⟩
    rw [(hrel.released e hf).ioBuffer hc ht] at h1
    exact h1

/-- A refused event stays with its caller until it is freed. -/
theorem asyncStep_refused {a : AsyncAction} (h : asyncStep s a = some s') {e : EventId}
    (he : e ∈ s.refused) : e ∈ s'.refused ∨ e ∈ freed s'.conn.log := by
  have houtcome : ∀ (s₀ : AsyncSystem) (r : Outcome × Conn), s₀.refused = s.refused →
      e ∈ (s₀.outcome r).refused := by
    rintro s₀ ⟨o, c⟩ h0
    rcases o with _ | (_ | _) <;> exact h0 ▸ he
  cases a with
  | enqueue connEvent allocs source =>
    simp only [asyncStep] at h
    split at h <;> cases h
    left
    unfold AsyncSystem.enqueue
    split
    · exact houtcome { s with caller := connEvent.elim s.caller s.caller.erase } _ rfl
    · cases connEvent with
      | none => exact he
      | some f => exact List.mem_cons_of_mem _ he
  | submit qFailure client source =>
    simp only [asyncStep] at h
    split at h <;> cases h
    · exact .inl (houtcome s _ rfl)
    · exact .inl he
  | relock w =>
    simp only [asyncStep] at h
    split at h
    · split at h <;> cases h
      exact .inl (houtcome { s with workers := s.workers.erase w } _ rfl)
    · cases h
  | enter cb =>
    simp only [asyncStep] at h
    split at h <;> cases h
    exact .inl (houtcome { s with callbacks := s.callbacks.erase cb } _ rfl)
  | free f =>
    simp only [asyncStep] at h
    split at h
    · cases h
      exact .inl he
    · split at h <;> cases h
      by_cases hef : e = f
      · exact .inr (hef ▸ List.mem_cons_self)
      · exact .inl ((List.mem_erase_of_ne hef).mpr he)
  | alloc | work | handle | store | prepare | destroy | call =>
    simp only [asyncStep] at h
    repeat' split at h
    all_goals first | cases h; exact .inl he | cases h
  | _ =>
    cases h
    exact .inl he

end Connio
