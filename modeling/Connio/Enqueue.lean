import Connio.Abort
import Connio.LockFrame

/-!
# What `EventEnqueue` appends

An event is appended behind those that `EventEnqueue` inserts before it.

* `flushInserted`, `sslDisconnectInserted` — the events that are inserted;
* `Enqueued` — what has been appended, and what is left in the send buffer;
* `enqueueEvents_enqueued`, `eventEnqueue_enqueued` — **PROVED**: this is what is appended when no problem is
  recorded.
-/

namespace Connio

open Connio.Lib

variable {c c' : Conn} {e : EventId} {allocs : Allocs} {source : CodeSource}

/-- What the queue does not see appends nothing. -/
theorem Quiet.appends (h : Quiet c c') : Appends c c' [] := by
  obtain ⟨xs, hxs, hlog⟩ := h.log
  refine ⟨xs, fun x hx => ?_, ?_, hlog⟩
  · have hq := hxs x hx
    cases x <;> first | rfl | cases hq
  · rw [appended, List.reverse_nil, List.filterMap_eq_nil_iff]
    intro x hx
    have hq := hxs x hx
    cases x <;> first | rfl | cases hq

/-! ### Single events -/

theorem eventEngineQueueAdd_sendBuffer (c : Conn) (e : EventId) :
    (eventEngineQueueAdd c e).sendBuffer = c.sendBuffer := by
  unfold eventEngineQueueAdd setAsyncProblem
  repeat' split
  all_goals rfl

/-- An event that is added without a problem is appended. -/
theorem eventEngineQueueAdd_appends (hp : (eventEngineQueueAdd c e).transaction.problem = none) :
    Appends c (eventEngineQueueAdd c e) [e] ∧ (eventEngineQueueAdd c e).typeOf e = c.typeOf e ∧
      c.transaction.problem = none := by
  have happend : Appends c (eventQueueAppendEvent c e) [e] := ⟨[.append e], by simp [LogEntry.isPrepare], rfl, rfl⟩
  have htype : (eventQueueAppendEvent c e).typeOf e = c.typeOf e := by
    simp [eventQueueAppendEvent, Conn.typeOf, Conn.setEvent, Conn.note]
  unfold eventEngineQueueAdd at hp ⊢
  split at hp
  next hnone =>
    split at hp
    next hopen =>
      rw [if_pos hnone, if_pos hopen]
      exact ⟨happend, htype, hnone⟩
    next hshut =>
      split at hp
      next ht =>
        rw [if_pos hnone, if_neg hshut, if_pos ht]
        exact ⟨happend, htype, hnone⟩
      · simp only [setAsyncProblem, hnone] at hp
        cases hp
  next hsome => exact absurd hp hsome

/-- An event that is inserted without a problem is appended. -/
theorem insertEvent_appends (hwf : c.Wf) {newEvent : Option (EventId × ConnEvent)}
    (hp : (insertEvent c newEvent source).transaction.problem = none) :
    ∃ f ce, newEvent = some (f, ce) ∧ Appends c (insertEvent c newEvent source) [f] ∧
      (insertEvent c newEvent source).typeOf f = ce.type ∧
      (insertEvent c newEvent source).transaction.sslEnabled = c.transaction.sslEnabled := by
  match newEvent with
  | some (f, ce) =>
    obtain ⟨happends, htype, _⟩ := eventEngineQueueAdd_appends hp
    have hbefore : Appends c (((c.setEvent f { ce with inserted := true }).note (.alloc f)).note (.accept f)) [] :=
      ⟨[.accept f, .alloc f], by simp [LogEntry.isPrepare], rfl, rfl⟩
    refine ⟨f, ce, rfl, hbefore.trans happends, htype.trans ?_, eventEngineQueueAdd_sslEnabled _ f⟩
    simp [Conn.typeOf, Conn.setEvent, Conn.note]
  | none => exact absurd hp (eventQueueAbort_problem hwf _ _)

theorem insertEvent_sendBuffer (newEvent : Option (EventId × ConnEvent)) :
    (insertEvent c newEvent source).sendBuffer = c.sendBuffer := by
  match newEvent with
  | some (f, ce) => exact eventEngineQueueAdd_sendBuffer _ f
  | none => exact (eventQueueAbort_run c _ _).sendBuffer (by decide) (by decide)

/-! ### What is inserted -/

/-- The flush that is inserted first. -/
def flushInserted (c : Conn) (e : EventId) (allocs : Allocs) : List EventId :=
  if FlushNeeded c e then allocs.flush.toList else []

/-- The SSL disconnect that is inserted before a disconnect. -/
def sslDisconnectInserted (c : Conn) (e : EventId) (allocs : Allocs) : List EventId :=
  if c.typeOf e = .disconnect ∧ c.transaction.sslEnabled = true then allocs.sslDisconnect.toList else []

/-- **What `EventEnqueue` appends:** the events it inserts, and the event itself. -/
structure Enqueued (c : Conn) (e : EventId) (allocs : Allocs) (c' : Conn) : Prop where
  appends : Appends c c' (flushInserted c e allocs ++ sslDisconnectInserted c e allocs ++ [e])
  flush : (flushInserted c e allocs).map c'.typeOf = if FlushNeeded c e then [.flush] else []
  sslDisconnect : (sslDisconnectInserted c e allocs).map c'.typeOf =
    if c.typeOf e = .disconnect ∧ c.transaction.sslEnabled = true then [.sslDisconnect] else []
  type : c'.typeOf e = c.typeOf e
  /-- the flag follows the event -/
  sslEnabled : c'.transaction.sslEnabled = (sslDisconnectEventNeeded c e).2.transaction.sslEnabled
  /-- only the send events leave the buffer to what follows -/
  sendBuffer : c'.sendBuffer = if c.classOf e = .send then c.sendBuffer else none

/-- `FlushAEventNeededEx` takes the send buffer unless the event is a send. -/
theorem insertFlush_sendBuffer (alloc : Option EventId) :
    (insertFlush c e alloc source).sendBuffer = if c.classOf e = .send then c.sendBuffer else none := by
  have htaken : (bufferedSendDataGet c).2.sendBuffer = none := by
    unfold bufferedSendDataGet
    split
    · rfl
    next hnone => exact hnone
  unfold insertFlush
  split
  · rfl
  · split
    next heq =>
      rw [heq] at htaken
      exact htaken
    next heq =>
      rw [heq] at htaken
      exact (insertEvent_sendBuffer _).trans htaken

/-- **The flush (proved).** -/
theorem insertFlush_appends (hwf : c.Wf) {alloc : Option EventId}
    (hp : (insertFlush c e alloc source).transaction.problem = none) :
    Appends c (insertFlush c e alloc source) (if FlushNeeded c e then alloc.toList else []) ∧
      (if FlushNeeded c e then alloc.toList else []).map (insertFlush c e alloc source).typeOf =
        (if FlushNeeded c e then [.flush] else []) ∧
      (insertFlush c e alloc source).transaction.sslEnabled = c.transaction.sslEnabled := by
  have hsame := bufferedSendDataGet_transaction c
  obtain ⟨hget, _, hlog⟩ := bufferedSendDataGet_effect (P := False) hwf
  by_cases hneeded : FlushNeeded c e
  · simp only [if_pos hneeded]
    unfold insertFlush at hp ⊢
    rw [if_neg hneeded.1] at hp ⊢
    split at hp
    next heq => exact absurd hneeded.2 (by rw [heq]; simp)
    next c₁ heq =>
      rw [heq] at hget hlog hsame
      obtain ⟨f, ce, hf, happends, htype, hssl⟩ := insertEvent_appends hget.wf hp
      obtain ⟨g, hg, hce⟩ := Option.map_eq_some_iff.mp hf
      cases hce
      rw [hg] at happends htype hssl ⊢
      have htaken : Appends c c₁ [] := .of_log hlog
      exact ⟨htaken.trans happends, congrArg (fun t => [t]) htype, hssl.trans (by rw [hsame])⟩
  · have htrans := insertFlush_of_not hneeded alloc source
    simp only [if_neg hneeded]
    refine ⟨.of_log ?_, rfl, by rw [htrans]⟩
    unfold insertFlush
    split
    · rfl
    next hclass =>
      split
      next heq =>
        rw [heq] at hlog
        exact hlog
      next heq => exact absurd ⟨hclass, by rw [heq]⟩ hneeded

theorem insertSslDisconnect_sendBuffer (alloc : Option EventId) :
    (insertSslDisconnect c e alloc source).sendBuffer = c.sendBuffer := by
  have hkept : (sslDisconnectEventNeeded c e).2.sendBuffer = c.sendBuffer := by
    unfold sslDisconnectEventNeeded
    repeat' split
    all_goals rfl
  unfold insertSslDisconnect
  split
  next heq =>
    rw [heq] at hkept
    exact hkept
  next heq =>
    rw [heq] at hkept
    exact (insertEvent_sendBuffer _).trans hkept

/-- **The SSL disconnect (proved).** -/
theorem insertSslDisconnect_appends (hwf : c.Wf) {alloc : Option EventId}
    (hp : (insertSslDisconnect c e alloc source).transaction.problem = none) :
    Appends c (insertSslDisconnect c e alloc source)
        (if c.typeOf e = .disconnect ∧ c.transaction.sslEnabled = true then alloc.toList else []) ∧
      (if c.typeOf e = .disconnect ∧ c.transaction.sslEnabled = true then alloc.toList else []).map
          (insertSslDisconnect c e alloc source).typeOf =
        (if c.typeOf e = .disconnect ∧ c.transaction.sslEnabled = true then [.sslDisconnect] else []) ∧
      (insertSslDisconnect c e alloc source).transaction.sslEnabled =
        (sslDisconnectEventNeeded c e).2.transaction.sslEnabled := by
  obtain ⟨hneed, _, hlog⟩ := sslDisconnectEventNeeded_effect (P := False) (e := e) hwf
  by_cases hset : c.typeOf e = .disconnect ∧ c.transaction.sslEnabled = true
  · have hneeded : sslDisconnectEventNeeded c e = (true, { c with transaction.sslEnabled := false }) := by
      simp only [sslDisconnectEventNeeded, hset.1, hset.2, if_true]
    simp only [if_pos hset]
    unfold insertSslDisconnect at hp ⊢
    rw [hneeded] at hp hneed hlog ⊢
    obtain ⟨d, ce, hd, happends, htype, hssl⟩ := insertEvent_appends hneed.wf hp
    obtain ⟨g, hg, hce⟩ := Option.map_eq_some_iff.mp hd
    cases hce
    simp only [hg, Option.map_some] at happends htype hssl ⊢
    have htaken : Appends c { c with transaction.sslEnabled := false } [] := .of_log rfl
    exact ⟨htaken.trans happends, congrArg (fun t => [t]) htype, hssl⟩
  · have hnot : insertSslDisconnect c e alloc source = (sslDisconnectEventNeeded c e).2 := by
      unfold insertSslDisconnect sslDisconnectEventNeeded
      cases ht : c.typeOf e with
      | disconnect =>
        have hclear : c.transaction.sslEnabled = false := by simpa [ht] using hset
        simp [hclear]
      | _ => rfl
    simp only [if_neg hset, hnot]
    exact ⟨.of_log hlog, rfl, trivial⟩

/-! ### `EventEnqueue` -/

/-- `EventEnqueue` without an event only enters client mode. -/
theorem eventEnqueue_none_run {r : Outcome × Conn} (h : eventEnqueue c none allocs source = some r) :
    LockRun .plain (asyncClientEnter c) r.2 := by
  simp only [eventEnqueue] at h
  split at h
  · split at h <;> cases h
    · exact .refl _
    · exact connEventsProcess_run _ none
  · cases h

/-- A conn that may queue an event is not idle after that. -/
theorem asyncClientEnter_not_idle (c : Conn) : (asyncClientEnter c).state ≠ .idle := by
  unfold asyncClientEnter
  split
  · simp [connChangeState]
  next h =>
    intro hidle
    rw [not_not.mp h] at hidle
    cases hidle

theorem eventEnqueue_state {c : Conn} {connEvent : Option EventId} {allocs : Allocs} {source : CodeSource}
    {r : Outcome × Conn} (h : eventEnqueue c connEvent allocs source = some r) :
    queueingPermitted c = true ∧ r.2.state ≠ .idle := by
  simp only [eventEnqueue] at h
  split at h
  next hperm =>
    refine ⟨hperm, fun hidle => asyncClientEnter_not_idle c ?_⟩
    have hadd : LockRun .queueing (asyncClientEnter c) (connEvent.elim (asyncClientEnter c) fun e =>
        enqueueEvents (asyncClientEnter c) e allocs source) := by
      cases connEvent with
      | none => exact .refl _
      | some e => exact enqueueEvents_run _ e allocs source
    split at h <;> cases h
    · exact hadd.idle_of_idle hidle
    · exact (hadd.trans (connEventsProcess_run _ none).any).idle_of_idle hidle
  · cases h

/-- **The part of `EventEnqueue` that queues events (proved).** -/
theorem enqueueEvents_enqueued (hwf : c.Wf) (hinv : QueueInv (view c)) (hstate : c.state = .asynchronousClient)
    (halloc : e ∈ allocated c.log) (haccepted : e ∉ accepted c.log) (hnew : allocs.Fresh c)
    (hp : (enqueueEvents c e allocs source).transaction.problem = none) :
    Enqueued c e allocs (enqueueEvents c e allocs source) := by
  obtain ⟨h1, hs1⟩ := insertFlush_effect (P := False) (e := e) hwf hinv hstate hnew.flush source
  have hinv1 := h1.inv hinv
  have hstate1 := hs1.state.trans hstate
  have hfresh : ∀ d, allocs.sslDisconnect = some d →
      d ∉ allocated (insertFlush c e allocs.flush source).log := by
    intro d hd hmem
    rcases insertFlush_allocated hwf allocs.flush source d hmem with h | h
    · exact hnew.sslDisconnect d hd h
    · exact hnew.ne d h hd
  obtain ⟨h2, hs2⟩ := insertSslDisconnect_effect (P := False) (e := e) h1.wf hinv1 hstate1
    allocs.sslDisconnect hfresh source
  have h12 := h1.trans h2
  obtain ⟨h3, _⟩ := eventEngineQueueAdd_effect (P := False) (e := e) h2.wf (h2.inv hinv1)
    (hs2.state.trans hstate1) (allocated_mono h12.suffix halloc)
    (fun hacc => by
      rcases h12.accepts e hacc with h | h | h
      · exact haccepted h
      · cases h
      · exact h halloc) (fun h => h.elim)
  -- no function has recorded a problem
  unfold enqueueEvents at hp ⊢
  obtain ⟨happends, htype, hp2⟩ := eventEngineQueueAdd_appends hp
  have hp1 : (insertFlush c e allocs.flush source).transaction.problem = none := by
    by_contra hsome
    exact (insertSslDisconnect_run _ e allocs.sslDisconnect source).frame.problem hsome hp2
  obtain ⟨hflush, hflushType, hflag1⟩ := insertFlush_appends hwf hp1
  obtain ⟨hssl, hsslType, hflag2⟩ := insertSslDisconnect_appends h1.wf hp2
  have htype1 : (insertFlush c e allocs.flush source).typeOf e = c.typeOf e := h1.typeOf e halloc
  simp only [htype1, hflag1] at hssl hsslType
  have haccept : Appends _ ((insertSslDisconnect (insertFlush c e allocs.flush source) e allocs.sslDisconnect
      source).note (.accept e)) [] := (Appends.of_log rfl).note rfl rfl
  -- what has been appended is allocated, and keeps its type
  have hin : ∀ {c₁ c₂ : Conn} {new : List EventId}, QueueInv (view c₂) → Appends c₁ c₂ new →
      ∀ x ∈ new, x ∈ allocated c₂.log := by
    intro c₁ c₂ new hinv₂ happ x hx
    refine hinv₂.order.accepted_allocated x (hinv₂.order.appended_accepted x ?_)
    show x ∈ appended c₂.log
    rw [happ.appended]
    exact List.mem_append_left _ (List.mem_reverse.mpr hx)
  have hkept : ∀ {c₁ c₂ c₃ : Conn} {g t new : List EventId}, QueueInv (view c₂) → Appends c₁ c₂ new →
      LockEffect False c₂ g c₃ t → new.map c₃.typeOf = new.map c₂.typeOf := fun hinv₂ happ heff =>
    List.map_congr_left fun x hx => heff.typeOf x (hin hinv₂ happ x hx)
  refine ⟨?_, ?_, ?_, ?_, ?_, ?_⟩
  · simpa [flushInserted, sslDisconnectInserted] using ((hflush.trans hssl).trans haccept).trans happends
  · rw [← hflushType]
    exact hkept hinv1 hflush (h2.trans h3)
  · rw [← hsslType]
    exact hkept (h2.inv hinv1) hssl h3
  · exact (h12.trans h3).typeOf e halloc
  · rw [eventEngineQueueAdd_sslEnabled]
    refine hflag2.trans ?_
    unfold sslDisconnectEventNeeded
    rw [htype1, hflag1]
    cases c.typeOf e with
    | disconnect => cases c.transaction.sslEnabled <;> simp [hflag1]
    | _ => simp [hflag1]
  · rw [eventEngineQueueAdd_sendBuffer]
    exact (insertSslDisconnect_sendBuffer _).trans (insertFlush_sendBuffer _)

/-- What follows under the event lock. -/
theorem Enqueued.of_run {c₁ : Conn} {g t : List EventId} (h : Enqueued c e allocs c₁) (hinv : QueueInv (view c₁))
    (hrun : LockRun .plain c₁ c') (heff : LockEffect False c₁ g c' t) : Enqueued c e allocs c' := by
  have htype : ∀ x ∈ flushInserted c e allocs ++ sslDisconnectInserted c e allocs ++ [e],
      c'.typeOf x = c₁.typeOf x := by
    intro x hx
    refine heff.typeOf x (hinv.order.accepted_allocated x (hinv.order.appended_accepted x ?_))
    show x ∈ appended c₁.log
    rw [h.appends.appended]
    exact List.mem_append_left _ (List.mem_reverse.mpr hx)
  refine ⟨by simpa using h.appends.trans (hrun.appends (by decide)), ?_, ?_, ?_,
    (hrun.sslEnabled (by decide)).trans h.sslEnabled, (hrun.sendBuffer (by decide) (by decide)).trans h.sendBuffer⟩
  · rw [← h.flush]
    exact List.map_congr_left fun x hx => htype x (by simp [hx])
  · rw [← h.sslDisconnect]
    exact List.map_congr_left fun x hx => htype x (by simp [hx])
  · exact (htype e (by simp)).trans h.type

/-- **`EventEnqueue` (proved).** -/
theorem eventEnqueue_enqueued (hwf : c.Wf) (hinv : QueueInv (view c)) (halloc : e ∈ allocated c.log)
    (haccepted : e ∉ accepted c.log) (hnew : allocs.Fresh c) {r : Outcome × Conn}
    (h : eventEnqueue c (some e) allocs source = some r) (hp : r.2.transaction.problem = none) :
    Enqueued (asyncClientEnter c) e allocs r.2 := by
  simp only [eventEnqueue] at h
  split at h
  next hperm =>
    obtain ⟨h1, hstate1, _, _, hlog1⟩ := asyncClientEnter_effect (P := False) hwf hperm
    have hinv1 := h1.inv hinv
    have hnew1 : allocs.Fresh (asyncClientEnter c) :=
      ⟨fun f hf => hlog1.symm ▸ hnew.flush f hf, fun d hd => hlog1.symm ▸ hnew.sslDisconnect d hd, hnew.ne⟩
    have halloc1 : e ∈ allocated (asyncClientEnter c).log := hlog1.symm ▸ halloc
    have haccepted1 : e ∉ accepted (asyncClientEnter c).log := hlog1.symm ▸ haccepted
    have hqueue := fun hp : (enqueueEvents (asyncClientEnter c) e allocs source).transaction.problem = none =>
      enqueueEvents_enqueued h1.wf hinv1 hstate1 halloc1 haccepted1 hnew1 hp
    split at h <;> cases h
    · exact hqueue hp
    · obtain ⟨h2, hs2⟩ := enqueueEvents_effect (P := False) h1.wf hinv1 hstate1 halloc1 haccepted1 hnew1
        source (fun h => h.elim)
      have hrun := connEventsProcess_run (enqueueEvents (asyncClientEnter c) e allocs source) none
      have heff := (connEventsProcess_effect (P := False) h2.wf (.inl (hs2.state.trans hstate1)) none).effect
      have hbefore : (enqueueEvents (asyncClientEnter c) e allocs source).transaction.problem = none := by
        by_contra hsome
        exact hrun.frame.problem hsome hp
      exact (hqueue hbefore).of_run (h2.inv hinv1) hrun heff
  · cases h

end Connio
