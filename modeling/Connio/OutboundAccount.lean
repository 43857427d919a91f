import Connio.Outbound

/-!
# The account of a conn

The account of `SendOrder` for a conn with all that runs on it, and what the steps of the conn do to it when there
is no problem.

* `SentOut` — a thread that brings back a complete send event has sent all it held;
* `OutAccount` — the account of the conn;
* `OutAccount.async`, `OutAccount.assign`, `OutAccount.push`, `OutAccount.write` — **PROVED**: a step of another
  thread, a new event, an event that takes over what was written, and a write keep it;
* `OutAccount.process` — **PROVED**: so does the process function of a send event.
-/

namespace Connio

open Connio.Lib

/-! ### Threads that have sent everything -/

/-- A thread that brings back a complete send event has sent all it held. -/
structure SentOut (s : AsyncSystem) (events : EventId → WriteState) : Prop where
  handshaking : ∀ w ∈ s.workers, w.stage = .handshaking → (s.conn.typeOf w.event).isHandshake = true
  complete : ∀ w ∈ s.workers, w.stage = .returned .complete → s.conn.classOf w.event = .send →
    (events w.event).buffer = []

section SentOut

variable {s s' : AsyncSystem} {a : AsyncAction} {events events' : EventId → WriteState}

theorem processReturned_complete {c c' : Conn} {e : EventId} {r : Errno × SocketEventType}
    (h : processReturned c e r = (.returned .complete, c')) : r.1 = 0 := by
  obtain ⟨err, blockedOn⟩ := r
  simp only [processReturned] at h
  split at h
  next h0 => exact h0
  · split at h <;> cases h

/-- A result is complete when the process function has returned 0. -/
theorem eventProcessStep_complete {c c' : Conn} {e : EventId} {stage : Stage} {m : StageMove}
    (h : eventProcessStep c e stage m = some (.returned .complete, c')) :
    stage = .handshaking ∨ ∃ p, m = .process p := by
  cases eventProcessStep_cases h with
  | handshake => exact .inl rfl
  | @move p | @processed p => exact .inr ⟨p, rfl⟩
  | overflow _ _ hresult => exact absurd (processReturned_complete hresult) (by decide)
  | start hresult =>
    have hstage := congrArg Prod.fst hresult
    simp only [] at hstage
    split at hstage <;> cases hstage
  | submit blockedOn epollErr hresult =>
    unfold submitToEngine at hresult
    simp only [] at hresult
    split at hresult <;> cases hresult
  | judge hresult =>
    exact absurd (Stage.returned.inj (congrArg Prod.fst hresult)) (abortStatus_ne_complete (c.events e))
  | destroy _ hresult | empty _ _ hresult | cancelled _ _ hresult | unproblematic _ _ hresult | abort hresult =>
    cases hresult

theorem isHandshake_not_send {t : ConnEventType} (h : t.isHandshake = true) : t.eventClass ≠ .send := by
  cases t <;> first | decide | cases h

/-- An event keeps its class. -/
theorem asyncStep_classOf (hinv : AsyncInv s) (h : asyncStep s a = some s') {e : EventId}
    (he : e ∈ allocated s.conn.log) : s'.conn.classOf e = s.conn.classOf e :=
  congrArg ConnEventType.eventClass (asyncStep_typeOf hinv h he)

/-- **A step that processes no send event (proved).** -/
theorem SentOut.step (hsent : SentOut s events) (hinv : AsyncInv s) (h : asyncStep s a = some s')
    (hsend : ∀ w p, a = .work w (.process p) → s.conn.classOf w.event ≠ .send) : SentOut s' events := by
  have hold : ∀ w ∈ s.workers, w.stage.holding = true →
      s'.conn.typeOf w.event = s.conn.typeOf w.event := fun w hw hh =>
    asyncStep_typeOf hinv h (hinv.worker_allocated hw hh)
  have hkept : ∀ w ∈ s.workers, (w.stage = .handshaking → (s'.conn.typeOf w.event).isHandshake = true) ∧
      (w.stage = .returned .complete → s'.conn.classOf w.event = .send → (events w.event).buffer = []) := by
    intro w hw
    refine ⟨fun hstage => ?_, fun hstage hclass => ?_⟩
    · rw [hold w hw (by rw [hstage]; rfl)]
      exact hsent.handshaking w hw hstage
    · rw [Conn.classOf, hold w hw (by rw [hstage]; rfl)] at hclass
      exact hsent.complete w hw hstage hclass
  by_cases hwork : ∃ w m, a = .work w m
  · obtain ⟨w, m, rfl⟩ := hwork
    have hasync := h
    simp only [asyncStep] at h
    split at h
    next hw =>
      split at h <;> cases h
      next stage c' hstep =>
      have hh := (eventProcessStep_local hinv.socket hstep).holding
      have htype := asyncStep_typeOf hinv hasync (hinv.worker_allocated hw hh)
      refine ⟨fun x hx hstage => ?_, fun x hx hstage hclass => ?_⟩
      · rcases List.mem_cons.mp hx with rfl | hx
        · rw [htype]
          obtain rfl : stage = .handshaking := hstage
          exact eventProcessStep_handshaking hstep
        · exact (hkept x (List.mem_of_mem_erase hx)).1 hstage
      · rcases List.mem_cons.mp hx with rfl | hx
        · obtain rfl : stage = .returned .complete := hstage
          have hclass : s.conn.classOf w.event = .send := (asyncStep_classOf hinv hasync
            (hinv.worker_allocated hw hh)).symm.trans hclass
          rcases eventProcessStep_complete hstep with hhand | ⟨p, rfl⟩
          · exact absurd hclass (isHandshake_not_send (hsent.handshaking w hw hhand))
          · exact absurd hclass (hsend w p rfl)
        · exact (hkept x (List.mem_of_mem_erase hx)).2 hstage hclass
    · cases h
  · have hother := asyncStep_other hinv h fun w m heq => hwork ⟨w, m, heq⟩
    refine ⟨fun w hw hstage => ?_, fun w hw hstage hclass => ?_⟩
    · rcases hother.workers w hw with hw | ⟨freeList, hnew⟩
      · exact (hkept w hw).1 hstage
      · rw [hnew] at hstage
        cases hstage
    · rcases hother.workers w hw with hw | ⟨freeList, hnew⟩
      · exact (hkept w hw).2 hstage hclass
      · rw [hnew] at hstage
        cases hstage

/-- Only the events threads work on matter. -/
theorem SentOut.congr (hsent : SentOut s events) (hinv : AsyncInv s)
    (hevents : ∀ e ∈ allocated s.conn.log, events' e = events e) : SentOut s events' := by
  refine ⟨hsent.handshaking, fun w hw hstage hclass => ?_⟩
  rw [hevents _ (hinv.worker_allocated hw (by rw [hstage]; rfl))]
  exact hsent.complete w hw hstage hclass

end SentOut

/-! ### The account of a conn -/

/-- **The account of a conn,** with `rest` in no event yet. -/
structure OutAccount (s : OutSystem) (rest : List Written) : Prop where
  sentOut : SentOut s.sys s.events
  callbacks : ∀ e ∈ callbacks s.writes, e ∈ allocated s.sys.conn.log
  awaiting : ∀ p ∈ s.pending, p.event ∈ allocated s.sys.conn.log ∧ p.event ∉ appended s.sys.conn.log
  account : ∃ done part, Accounts s.sys.conn.typeOf s.sys.conn.activeEvent.send
    (s.sys.conn.queued ++ s.awaiting) (started s.sys.conn.log) s.outgoing rest done part

section Account

variable {s : OutSystem} {sys' : AsyncSystem} {a : AsyncAction} {rest : List Written} {o : Outgoing}
  {done : List Written} {part : EventId → List Written} {new more : List EventId}

/-- What the account speaks of has been appended. -/
theorem AsyncInv.active_appended {s : AsyncSystem} (hinv : AsyncInv s) {e : EventId}
    (he : e ∈ s.conn.activeEvent.send.toList) : e ∈ appended s.conn.log :=
  hinv.queue.order.started_appended e (hinv.queue.order.active_started .send e (Option.mem_toList.mp he)).1

theorem AsyncInv.queued_appended {s : AsyncSystem} (hinv : AsyncInv s) {e : EventId}
    (he : e ∈ s.conn.queued) : e ∈ appended s.conn.log :=
  hinv.queue.order.queued_sublist.subset (List.mem_reverse.mpr he)

theorem AsyncInv.appended_allocated {s : AsyncSystem} (hinv : AsyncInv s) {e : EventId}
    (he : e ∈ appended s.conn.log) : e ∈ allocated s.conn.log :=
  hinv.queue.order.accepted_allocated e (hinv.queue.order.appended_accepted e he)

theorem AsyncInv.started_allocated {s : AsyncSystem} (hinv : AsyncInv s) {e : EventId}
    (he : e ∈ started s.conn.log) : e ∈ allocated s.conn.log :=
  hinv.appended_allocated (hinv.queue.order.started_appended e he)

/-- The types a step leaves. -/
theorem Accounts.of_step (hinv : AsyncInv s.sys) (hs : asyncStep s.sys a = some sys')
    (h : Accounts s.sys.conn.typeOf s.sys.conn.activeEvent.send (s.sys.conn.queued ++ more)
      (started s.sys.conn.log) o rest done part) (hmore : ∀ e ∈ more, e ∈ allocated s.sys.conn.log) :
    Accounts sys'.conn.typeOf s.sys.conn.activeEvent.send (s.sys.conn.queued ++ more)
      (started s.sys.conn.log) o rest done part := by
  refine h.congr fun e he => asyncStep_typeOf hinv hs ?_
  rcases List.mem_append.mp he with he | he
  · rcases List.mem_append.mp he with he | he
    · exact hinv.appended_allocated (hinv.active_appended he)
    · rcases List.mem_append.mp he with he | he
      · exact hinv.appended_allocated (hinv.queued_appended he)
      · exact hmore e he
  · exact hinv.started_allocated he

/-- **A step of the conn keeps the account (proved):** `new` is what it appends. -/
theorem Accounts.step (new more : List EventId) (hinv : AsyncInv s.sys) (hs : asyncStep s.sys a = some sys')
    (hclean : problems sys'.conn.log = [])
    (happended : appended sys'.conn.log = new.reverse ++ appended s.sys.conn.log)
    (hleft : ∀ w ∈ s.sys.workers, w.stage = .returned .complete → s.sys.conn.classOf w.event = .send →
      o.content w.event = [])
    (h : Accounts sys'.conn.typeOf s.sys.conn.activeEvent.send (s.sys.conn.queued ++ (new ++ more))
      (started s.sys.conn.log) o rest done part) :
    ∃ done', Accounts sys'.conn.typeOf sys'.conn.activeEvent.send (sys'.conn.queued ++ more)
      (started sys'.conn.log) o rest done' part := by
  obtain ⟨hinv', hchange⟩ := asyncStep_effect hinv hs
  have hrun : ReachableVia QueueStep _ (view s.sys.conn) (view sys'.conn) := hchange.refines
  refine accounts_reachable hinv.queue hrun hclean (fun _ _ => rfl) happended (fun e he hnew hclass => ?_) h
  obtain ⟨w, hw, rfl, hstage⟩ := asyncStep_left hinv hs hclean he hnew
  have halloc := hinv.worker_allocated hw (by rw [hstage]; rfl)
  refine hleft w hw hstage ?_
  rw [← asyncStep_classOf hinv hs halloc]
  exact hclass

/-- The send event that is queued next keeps its type. -/
theorem OutAccount.awaiting_allocated (h : OutAccount s rest) : ∀ e ∈ s.awaiting, e ∈ allocated s.sys.conn.log := by
  intro e he
  obtain ⟨p, hp, rfl⟩ := List.mem_map.mp (mem_sends he).1
  exact (h.awaiting p (Option.mem_toList.mp hp)).1

/-- A step that appends nothing, with what the threads have sent after it. -/
theorem OutAccount.of_sentOut (h : OutAccount s rest) (hinv : AsyncInv s.sys) (hs : asyncStep s.sys a = some sys')
    (hclean : problems sys'.conn.log = []) (happended : appended sys'.conn.log = appended s.sys.conn.log)
    (hsent : SentOut sys' s.events) : OutAccount { s with sys := sys' } rest := by
  have hmono : ∀ e ∈ allocated s.sys.conn.log, e ∈ allocated sys'.conn.log := fun e he =>
    allocated_mono (reachable_suffix (asyncStep_effect hinv hs).2.refines) he
  obtain ⟨done, part, hacc⟩ := h.account
  have hawaiting : OutSystem.awaiting { s with sys := sys' } = s.awaiting := by
    refine sends_congr fun e he => ?_
    obtain ⟨p, hp, rfl⟩ := List.mem_map.mp he
    exact asyncStep_typeOf hinv hs (h.awaiting p (Option.mem_toList.mp hp)).1
  have hnew := hacc.of_step hinv hs h.awaiting_allocated
  obtain ⟨done', hacc'⟩ := Accounts.step [] _ hinv hs hclean happended
    (fun w hw hstage hclass => h.sentOut.complete w hw hstage hclass) hnew
  refine ⟨hsent, fun e he => hmono e (h.callbacks e he),
    fun p hp => ⟨hmono _ (h.awaiting p hp).1, happended ▸ (h.awaiting p hp).2⟩, done', part, ?_⟩
  rw [hawaiting]
  exact hacc'

/-- **A step that appends nothing (proved).** -/
theorem OutAccount.async (h : OutAccount s rest) (hinv : AsyncInv s.sys) (hs : asyncStep s.sys a = some sys')
    (hclean : problems sys'.conn.log = []) (happended : appended sys'.conn.log = appended s.sys.conn.log)
    (hsend : ∀ w p, a = .work w (.process p) → s.sys.conn.classOf w.event ≠ .send) :
    OutAccount { s with sys := sys' } rest :=
  h.of_sentOut hinv hs hclean happended (h.sentOut.step hinv hs hsend)

/-- More is written. -/
theorem OutAccount.write (h : OutAccount s rest) {items : List Written}
    (honce : (Connio.callbacks (s.writes ++ items)).Nodup)
    (hitems : ∀ e ∈ Connio.callbacks items, e ∈ allocated s.sys.conn.log) :
    OutAccount { s with writes := s.writes ++ items } (rest ++ items) := by
  obtain ⟨done, part, hacc⟩ := h.account
  refine ⟨h.sentOut, fun e he => ?_, h.awaiting, done, part, hacc.write honce⟩
  rw [callbacks_append] at he
  rcases List.mem_append.mp he with he | he
  · exact h.callbacks e he
  · exact hitems e he

theorem OutAccount.once (h : OutAccount s rest) : (Connio.callbacks s.writes).Nodup := by
  obtain ⟨done, part, hacc⟩ := h.account
  exact hacc.once

/-- Data is written. -/
theorem OutAccount.writeData (h : OutAccount s rest) (data : List UInt8) :
    OutAccount { s with writes := s.writes ++ data.map Written.octet } (rest ++ data.map Written.octet) := by
  apply h.write
  · rw [callbacks_append, callbacks_octet, List.append_nil]
    exact h.once
  · rw [callbacks_octet]
    exact fun e he => (by cases he)

/-- What is known of an event that is not allocated does not matter. -/
theorem OutAccount.fresh (h : OutAccount s rest) (hinv : AsyncInv s.sys) {e : EventId}
    (he : e ∉ allocated s.sys.conn.log) (held : WriteState) {n : ℕ} (hn : n ≤ s.writes.length) :
    OutAccount { s with
      events := Function.update s.events e held
      before := Function.update s.before e n } rest := by
  have hne : ∀ x ∈ allocated s.sys.conn.log, x ≠ e := fun x hx heq => he (heq ▸ hx)
  have hevents : ∀ x ∈ allocated s.sys.conn.log, Function.update s.events e held x = s.events x := fun x hx =>
    Function.update_of_ne (hne x hx) _ _
  obtain ⟨done, part, hacc⟩ := h.account
  have hqueue : ∀ x ∈ s.sys.conn.queued ++ s.awaiting, x ∈ allocated s.sys.conn.log := by
    intro x hx
    rcases List.mem_append.mp hx with hx | hx
    · exact hinv.appended_allocated (hinv.queued_appended hx)
    · exact h.awaiting_allocated x hx
  refine ⟨h.sentOut.congr hinv hevents, h.callbacks, h.awaiting, done, part, ?_⟩
  refine hacc.outgoing rfl rfl (fun x hx => ?_) (fun x hx => ?_) (fun x hx => ?_) fun x => ?_
  · show (Function.update s.events e held x).supplied = _
    rw [hevents x (h.callbacks x hx)]
    rfl
  · show (Function.update s.events e held x).buffer = _
    rcases List.mem_append.mp hx with hx | hx
    · rw [hevents x (hinv.appended_allocated (hinv.active_appended hx))]
      rfl
    · rw [hevents x (hqueue x hx)]
      rfl
  · refine Function.update_of_ne (hne x ?_) _ _
    rcases List.mem_append.mp hx with hx | hx
    · exact hqueue x hx
    · exact hinv.started_allocated hx
  · show Function.update s.before e n x ≤ s.writes.length
    by_cases hx : x = e
    · rw [hx, Function.update_self]
      exact hn
    · rw [Function.update_of_ne hx]
      exact hacc.bound x

/-- What `ConnEventAssign` leaves. -/
structure Assigned (s : AsyncSystem) (e : EventId) (ce : ConnEvent) (s' : AsyncSystem) : Prop where
  fresh : e ∉ Connio.allocated s.conn.log
  allocated : e ∈ Connio.allocated s'.conn.log
  type : s'.conn.typeOf e = ce.type
  notAppended : e ∉ Connio.appended s'.conn.log
  appended : Connio.appended s'.conn.log = Connio.appended s.conn.log
  sendBuffer : s'.conn.sendBuffer = s.conn.sendBuffer

theorem asyncStep_assigned {s s' : AsyncSystem} {e : EventId} {ce : ConnEvent} (hinv : AsyncInv s)
    (hs : asyncStep s (.alloc e ce) = some s') : Assigned s e ce s' := by
  simp only [asyncStep] at hs
  split at hs <;> cases hs
  next hok =>
    refine ⟨hok.1, List.mem_cons_self, ?_, fun he => hok.1 ?_, rfl, rfl⟩
    · simp [Conn.note, Conn.setEvent, Conn.typeOf]
    · exact hinv.queue.order.accepted_allocated e (hinv.queue.order.appended_accepted e he)

/-- A new event. -/
theorem OutAccount.assign (h : OutAccount s rest) (hinv : AsyncInv s.sys) {e : EventId} {ce : ConnEvent}
    (hs : asyncStep s.sys (.alloc e ce) = some sys') (hclean : problems sys'.conn.log = []) (held : WriteState) :
    OutAccount { s with sys := sys', events := Function.update s.events e held } rest := by
  have hassigned := asyncStep_assigned hinv hs
  have hbefore : s.before e ≤ s.writes.length := by
    obtain ⟨done, part, hacc⟩ := h.account
    exact hacc.bound e
  have hfresh := h.fresh hinv hassigned.fresh held hbefore
  rw [Function.update_eq_self] at hfresh
  exact hfresh.async hinv hs hclean hassigned.appended fun w p heq => by cases heq

theorem awaiting_of_none (hpending : s.pending = none) : s.awaiting = [] := by
  rw [OutSystem.awaiting, hpending]
  rfl

/-- A send event takes over the first of what is in no event yet. -/
theorem OutAccount.push {e : EventId} {items : List Written} (h : OutAccount s (items ++ rest))
    (hinv : AsyncInv s.sys) (hpending : s.pending = none) (source : CodeSource) (abort : Bool)
    (halloc : e ∈ allocated s.sys.conn.log)
    (hnew : e ∉ appended s.sys.conn.log) (hclass : s.sys.conn.classOf e = .send)
    (hcontent : octets s.outgoing.supplied items = s.outgoing.content e)
    (hlast : s.sys.conn.typeOf e = .writeFromCb → ∃ l, items = l ++ [.callback e]) :
    OutAccount { s with pending := some ⟨e, source, abort⟩ } rest := by
  obtain ⟨done, part, hacc⟩ := h.account
  have hnone := awaiting_of_none hpending
  have hone : OutSystem.awaiting { s with pending := some ⟨e, source, abort⟩ } = [e] := sends_send hclass []
  rw [hnone, List.append_nil] at hacc
  refine ⟨h.sentOut, h.callbacks, fun p hp => ?_, done, Function.update part e items, ?_⟩
  · obtain rfl : _ = p := Option.some.inj (Option.mem_def.mp hp)
    exact ⟨halloc, hnew⟩
  · rw [hone]
    refine hacc.queueSend items hclass (fun he => hnew ?_) hcontent hlast
    rcases List.mem_append.mp he with he | he
    · exact hinv.active_appended he
    · exact hinv.queued_appended he

/-- Another event is assigned. -/
theorem OutAccount.pushOther {e : EventId} (h : OutAccount s rest) (hpending : s.pending = none)
    {source : CodeSource} {abort : Bool} (halloc : e ∈ allocated s.sys.conn.log)
    (hnew : e ∉ appended s.sys.conn.log) (hclass : s.sys.conn.classOf e ≠ .send) :
    OutAccount { s with pending := some ⟨e, source, abort⟩ } rest := by
  obtain ⟨done, part, hacc⟩ := h.account
  have hnone := awaiting_of_none hpending
  have hone : OutSystem.awaiting { s with pending := some ⟨e, source, abort⟩ } = [] := sends_other hclass []
  refine ⟨h.sentOut, h.callbacks, fun p hp => ?_, done, part, ?_⟩
  · obtain rfl : _ = p := Option.some.inj (Option.mem_def.mp hp)
    exact ⟨halloc, hnew⟩
  · rw [hone, ← hnone]
    exact hacc

/-- A send event is complete when its process function has returned 0. -/
theorem sendReturn_complete {c c' : Conn} {e : EventId} {err : Errno} {blockedOn : SocketEventType}
    (hclass : c.classOf e = .send)
    (h : eventProcessStep c e .processing (.process (.ret err blockedOn)) = some (.returned .complete, c')) :
    err = 0 := by
  simp only [eventProcessStep, processMove] at h
  split at h
  · cases h
  next r c₁ heq =>
    obtain ⟨r', hr', hpair⟩ := Option.map_eq_some_iff.mp heq
    have hcomplete := processReturned_complete (Option.some.inj h)
    have hr : r'.1 = err := by
      unfold processReturn at hr'
      unfold Conn.classOf at hclass
      split at hr'
      next ht =>
        rw [ht] at hclass
        cases hclass
      next ht =>
        rw [ht] at hclass
        cases hclass
      next ht =>
        rw [ht] at hclass
        cases hclass
      · rw [if_neg (by rw [hclass]; decide)] at hr'
        split at hr' <;> cases hr'
        rfl
    cases hpair
    exact hr.symm.trans hcomplete
  · cases h

/-- **The process function of a send event (proved).** -/
theorem sendProcess_ok {e : EventId} {clear : SendInput Errno} {ssl : SendInput SslResult} {r : WriteReturn}
    (haccept : ∀ call ∈ ssl.calls, ¬ FailsAfterShort call) (h : s.sendProcess e clear ssl = some r) :
    (∃ data, r.2.supplied = (s.events e).supplied ++ data ∧
      r.2.sent ++ r.2.buffer = s.wire ++ (s.events e).buffer ++ data ∧
      (data ≠ [] → s.sys.conn.typeOf e = .writeFromCb)) ∧
    s.wire <+: r.2.sent ∧ (r.1.1 = 0 → r.2.buffer = []) := by
  have hkept : ∀ {ε : Type} {socketSend : ℕ → ℕ → ℕ → List (TransportAnswer ε) → Option SendReturn}
      {good : List (TransportAnswer ε) → Prop} {input : SendInput ε}, SendOk socketSend good →
      (∀ call ∈ input.calls, good call) →
      sendEventProcess socketSend (s.sys.conn.typeOf e) { s.events e with sent := s.wire } input = some r →
      (∃ data, r.2.supplied = (s.events e).supplied ++ data ∧
        r.2.sent ++ r.2.buffer = s.wire ++ (s.events e).buffer ++ data ∧
        (data ≠ [] → s.sys.conn.typeOf e = .writeFromCb)) ∧
      s.wire <+: r.2.sent ∧ (r.1.1 = 0 → r.2.buffer = []) := by
    intro ε socketSend good input hsend hgood hrun
    have hok := sendEventProcess_ok hsend hrun
    have hall := hok.kept hgood
    obtain ⟨data, hsupplied, hsent⟩ := hall.octets
    refine ⟨⟨data, hsupplied, hsent, fun hne => ?_⟩, hall.sent, hok.empty⟩
    by_contra htype
    have hsame := sendEventProcess_supplied htype hrun
    rw [hsame] at hsupplied
    exact hne (List.append_right_eq_self.mp hsupplied.symm)
  unfold OutSystem.sendProcess at h
  split at h
  · exact hkept sslSend_ok haccept h
  · exact hkept clearSend_ok (fun _ _ => trivial) h

/-- **A send event is processed (proved).** -/
theorem OutAccount.process (h : OutAccount s rest) (hinv : AsyncInv s.sys) {w : Worker} {clear : SendInput Errno}
    {ssl : SendInput SslResult} {r : WriteReturn} (haccept : ∀ call ∈ ssl.calls, ¬ FailsAfterShort call)
    (hclass : s.sys.conn.classOf w.event = .send) (hr : s.sendProcess w.event clear ssl = some r)
    (hs : asyncStep s.sys (.work w (.process (.ret r.1.1 r.1.2))) = some sys')
    (hclean : problems sys'.conn.log = []) :
    OutAccount { s with
      sys := sys', events := Function.update s.events w.event r.2, wire := r.2.sent } rest := by
  obtain ⟨⟨data, hsupplied, hsent, hcallback⟩, hwire, hempty⟩ := sendProcess_ok haccept hr
  have hasync := hs
  simp only [asyncStep] at hs
  split at hs
  next hw =>
    split at hs <;> cases hs
    next stage c' hstep =>
    have hlocal := eventProcessStep_local hinv.socket hstep
    have hslot := hinv.slot_of_worker hw hlocal.holding
    have halloc := hinv.worker_allocated hw hlocal.holding
    rw [hclass] at hslot
    have hactive : s.sys.conn.activeEvent.send = some w.event := hslot
    have hprocessing : w.stage = .processing := by
      revert hstep
      cases w.stage <;> simp only [eventProcessStep, reduceCtorEq, false_implies, implies_true]
    have happended := hinv.active_appended (Option.mem_toList.mpr hactive)
    have hqueue : w.event ∉ s.sys.conn.queued ++ s.awaiting := by
      intro he
      rcases List.mem_append.mp he with he | he
      · exact hinv.queue.order.queued_fresh _ he (hinv.queue.order.active_started .send _ hactive).1
      · obtain ⟨p, hp, heq⟩ := List.mem_map.mp (mem_sends he).1
        exact (h.awaiting p (Option.mem_toList.mp hp)).2 (heq ▸ happended)
    have hne : ∀ x, x ≠ w.event → Function.update s.events w.event r.2 x = s.events x := fun x hx =>
      Function.update_of_ne hx _ _
    have hself : Function.update s.events w.event r.2 w.event = r.2 := Function.update_self _ _ _
    -- the account with what the event has sent
    obtain ⟨done, part, hacc⟩ := h.account
    rw [hactive] at hacc
    have hsentAcc := hacc.process (fun e => (Function.update s.events w.event r.2 e).buffer)
      (fun e => (Function.update s.events w.event r.2 e).supplied) r.2.sent data
      hqueue (fun x hx => by rw [hne x hx]; rfl) (fun x hx => by rw [hne x hx]; rfl)
      (by rw [hself]; exact hsupplied) (by rw [hself]; exact hsent) hwire hcallback
    rw [← hactive] at hsentAcc
    have hold : SentOut s.sys (Function.update s.events w.event r.2) := by
      refine ⟨h.sentOut.handshaking, fun x hx hstage hxclass => ?_⟩
      have hxw : x ∈ s.sys.workers.erase w := (List.mem_erase_of_ne fun heq => by
        rw [heq, hprocessing] at hstage
        cases hstage).mpr hx
      rw [hne _ (hinv.event_ne hw hxw hlocal.holding (by rw [hstage]; rfl))]
      exact h.sentOut.complete x hx hstage hxclass
    have hkept : OutAccount { s with events := Function.update s.events w.event r.2, wire := r.2.sent } rest :=
      ⟨hold, h.callbacks, h.awaiting, done, part, hsentAcc⟩
    refine hkept.of_sentOut hinv hasync hclean hlocal.quiet.appends.appended ⟨fun x hx hstage => ?_,
      fun x hx hstage hxclass => ?_⟩
    · rcases List.mem_cons.mp hx with rfl | hx
      · rw [asyncStep_typeOf hinv hasync halloc]
        obtain rfl : stage = .handshaking := hstage
        exact eventProcessStep_handshaking hstep
      · have hxw := List.mem_of_mem_erase hx
        rw [asyncStep_typeOf hinv hasync (hinv.worker_allocated hxw (by rw [hstage]; rfl))]
        exact h.sentOut.handshaking x hxw hstage
    · rcases List.mem_cons.mp hx with rfl | hx
      · obtain rfl : stage = .returned .complete := hstage
        rw [hprocessing] at hstep
        show (Function.update s.events w.event r.2 w.event).buffer = []
        rw [hself]
        exact hempty (sendReturn_complete hclass hstep)
      · have hxw := List.mem_of_mem_erase hx
        rw [asyncStep_classOf hinv hasync (hinv.worker_allocated hxw (by rw [hstage]; rfl))] at hxclass
        exact hold.complete x hxw hstage hxclass
  · cases hs

end Account

end Connio
