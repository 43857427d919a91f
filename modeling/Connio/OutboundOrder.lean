import Connio.OutboundAccount

/-!
# The order of the octets a consumer writes

As long as no call reports an error and no transaction has a problem, the octets a consumer has written are in
order, when no implicit flush of a synchronous call is disturbed.

* `OutAction.Accepting`, `OutAction.Undisturbed` — `SocketSend` reports the prefix that is accepted; no implicit
  flush is disturbed;
* `OutBook`, `OutInv` — the account with what a call has left to do, and the invariant;
* `OutInv.enqueue`, `OutInv.sync` — **PROVED**: `EventEnqueue` and the synchronous calls keep the account;
* `outStep_inv` — **PROVED**: so does every step;
* `written_ordered` — **PROVED**: in every run whose implicit flushes are not disturbed, the octets are in order;
* `written_lost` — **PROVED**: an implicit flush that is disturbed loses octets without a word.
-/

namespace Connio

open Connio.Lib

/-! ### What the steps meet -/

/-- **`SocketSend` reports the prefix that is accepted.** -/
def OutAction.Accepting : OutAction → Prop
  | .process _ _ ssl => ∀ call ∈ ssl.calls, ¬ FailsAfterShort call
  | .sync _ call => call.Accepting
  | _ => True

/-- **The implicit flush of a synchronous call is not disturbed,** when there is data to flush. -/
def OutAction.Undisturbed (s : OutSystem) : OutAction → Prop
  | .sync _ call => ∀ first, call.implicit = some first → s.buffer ≠ [] →
      first.Undisturbed s.sys.conn.sp.sslConn.isSome
  | _ => True

/-! ### The invariant -/

/-- No call has reported an error, and no transaction has had a problem. -/
def OutSystem.Clean (s : OutSystem) : Prop := s.reported = false ∧ problems s.sys.conn.log = []

/-- **The account with what a call has left to do.** -/
structure OutBook (s : OutSystem) : Prop where
  account : OutAccount s s.rest
  buffer : s.sys.conn.sendBuffer.getD 0 = s.buffer.length
  /-- a call that reads or connects has nothing left to write -/
  request : ∀ p ∈ s.pending, s.sys.conn.classOf p.event ≠ .send → s.work = .none
  /-- the client's buffer comes after a flush -/
  large : ∀ data source, s.work = .clientBuffer data source → s.buffer = []

structure OutInv (s : OutSystem) : Prop where
  inv : AsyncInv s.sys
  book : s.Clean → OutBook s

section Steps

variable {s t : OutSystem} {sys' : AsyncSystem} {a : AsyncAction}

/-- A step of the conn only adds to its history. -/
theorem problems_of_step (hinv : AsyncInv s.sys) (hs : asyncStep s.sys a = some sys')
    (hclean : problems sys'.conn.log = []) : problems s.sys.conn.log = [] :=
  problems_of_suffix (reachable_suffix (asyncStep_effect hinv hs).2.refines) hclean

/-- An event a call has assigned keeps its class. -/
theorem OutBook.request_step (h : OutBook s) (hinv : AsyncInv s.sys) (hs : asyncStep s.sys a = some sys') :
    ∀ p ∈ s.pending, sys'.conn.classOf p.event ≠ .send → s.work = .none := fun p hp hclass =>
  h.request p hp (asyncStep_classOf hinv hs (h.account.awaiting p hp).1 ▸ hclass)

/-- **A step of another thread (proved).** -/
theorem OutBook.engine (h : OutBook s) (hinv : AsyncInv s.sys) (hs : asyncStep s.sys a = some sys')
    (ha : a.isEngine s.sys.conn = true) (hclean : problems sys'.conn.log = []) :
    OutBook { s with sys := sys' } := by
  obtain ⟨happended, hbuffer⟩ := asyncStep_engine hinv hs ha
  refine ⟨h.account.async hinv hs hclean happended fun w p heq => ?_, ?_, h.request_step hinv hs, h.large⟩
  · rw [heq] at ha
    simpa [AsyncAction.isEngine] using ha
  · show sys'.conn.sendBuffer.getD 0 = _
    rw [hbuffer]
    exact h.buffer

/-- **The process function of a send event (proved).** -/
theorem OutBook.process (h : OutBook s) (hinv : AsyncInv s.sys) {w : Worker} {clear : SendInput Errno}
    {ssl : SendInput SslResult} {r : WriteReturn} (haccept : ∀ call ∈ ssl.calls, ¬ FailsAfterShort call)
    (hclass : s.sys.conn.classOf w.event = .send) (hr : s.sendProcess w.event clear ssl = some r)
    (hs : asyncStep s.sys (.work w (.process (.ret r.1.1 r.1.2))) = some sys')
    (hclean : problems sys'.conn.log = []) :
    OutBook { s with
      sys := sys', events := Function.update s.events w.event r.2, wire := r.2.sent } := by
  refine ⟨h.account.process hinv haccept hclass hr hs hclean, ?_, h.request_step hinv hs, h.large⟩
  have hquiet : sys'.conn.sendBuffer = s.sys.conn.sendBuffer := by
    simp only [asyncStep] at hs
    split at hs
    · split at hs <;> cases hs
      next hstep => exact (eventProcessStep_local hinv.socket hstep).quiet.sendBuffer
    · cases hs
  show sys'.conn.sendBuffer.getD 0 = _
  rw [hquiet]
  exact h.buffer

/-! ### Writes -/

/-- A write into the send buffer appends nothing. -/
theorem asyncStep_sendBuffer {async : Bool} {used : Option ℕ}
    (hs : asyncStep s.sys (.sendBuffer async used) = some sys') :
    appended sys'.conn.log = appended s.sys.conn.log ∧ sys'.conn.sendBuffer = used := by
  cases hs
  exact ⟨((writeClientData_run s.sys.conn async used).appends (by decide)).appended, rfl⟩

/-- A report ends the account. -/
theorem OutInv.report {a : AsyncAction} (hinv : AsyncInv s.sys) (ht : s.report a = some t) : OutInv t := by
  obtain ⟨sys', hs, rfl⟩ := Option.map_eq_some_iff.mp ht
  exact ⟨(asyncStep_effect hinv hs).1, fun hclean => by cases hclean.1⟩

/-- The send buffer is empty, and `content` comes before what the call has left to write. -/
structure Taken (s : OutSystem) (content : List UInt8) : Prop where
  account : OutAccount s (content.map Written.octet ++ s.work.data.map Written.octet)
  buffer : s.buffer = []
  sendBuffer : s.sys.conn.sendBuffer.getD 0 = 0

/-- **A new event takes over `content` (proved).** -/
theorem OutInv.assign (hinv : AsyncInv s.sys) {content : List UInt8} (htaken : s.Clean → Taken s content)
    (hpending : s.pending = none) {e : EventId} {ce : ConnEvent} {abort : Bool}
    (hclass : ce.type.eventClass = .send) (htype : ce.type ≠ .writeFromCb)
    (ht : s.assign e ce { buffer := content } abort = some t) : OutInv t := by
  obtain ⟨sys', hs, rfl⟩ := Option.map_eq_some_iff.mp ht
  have hassigned := asyncStep_assigned hinv hs
  refine ⟨(asyncStep_effect hinv hs).1, fun hclean => ?_⟩
  obtain ⟨hacc, hbuffer, hsend⟩ := htaken ⟨hclean.1, problems_of_step hinv hs hclean.2⟩
  have hnew := hacc.assign hinv hs hclean.2 { buffer := content }
  have hsame : sys'.conn.classOf e = .send := by
    rw [Conn.classOf, hassigned.type]
    exact hclass
  have hpushed := hnew.push (asyncStep_effect hinv hs).1 hpending ce.source abort
    hassigned.allocated hassigned.notAppended hsame (by
      show octets _ (content.map Written.octet) = (Function.update s.events e { buffer := content } e).buffer
      rw [octets_octet, Function.update_self])
    (fun hcb => absurd (hassigned.type.symm.trans hcb) htype)
  refine ⟨?_, ?_, fun p hp hother => ?_, fun _ _ _ => hbuffer⟩
  · have hrest : (s.buffer ++ s.work.data).map Written.octet = s.work.data.map Written.octet := by
      rw [hbuffer, List.nil_append]
    show OutAccount _ ((s.buffer ++ s.work.data).map Written.octet)
    rw [hrest]
    exact hpushed
  · show sys'.conn.sendBuffer.getD 0 = s.buffer.length
    rw [hassigned.sendBuffer, hsend, hbuffer]
    rfl
  · obtain rfl : _ = p := Option.some.inj (Option.mem_def.mp hp)
    exact absurd hsame hother

/-- **`flushAEventCreate` (proved).** -/
theorem OutInv.flushAEventCreate (hinv : AsyncInv s.sys) {content : List UInt8}
    (htaken : s.Clean → Taken s content) (hpending : s.pending = none) {source : CodeSource}
    {flush : Option EventId} (ht : s.flushAEventCreate content source flush = some t) : OutInv t := by
  unfold OutSystem.flushAEventCreate at ht
  split at ht
  · exact .assign hinv htaken hpending rfl (fun h => ConnEventType.noConfusion h) ht
  · exact .report hinv ht

/-- The send buffer is taken; what was in it is in no event yet. -/
theorem OutInv.take (hinv : AsyncInv s.sys) (hacc : s.Clean → OutAccount s s.rest) (ht : s.take = some t) :
    ∃ sys', t = { s with sys := sys', buffer := [] } ∧ AsyncInv sys' ∧ sys'.conn.sendBuffer = none ∧
      (t.Clean → OutAccount t s.rest) := by
  obtain ⟨sys', hs, rfl⟩ := Option.map_eq_some_iff.mp ht
  obtain ⟨happended, hbuffer⟩ := asyncStep_sendBuffer hs
  refine ⟨sys', rfl, (asyncStep_effect hinv hs).1, hbuffer, fun hclean => ?_⟩
  have hold := hacc ⟨hclean.1, problems_of_step hinv hs hclean.2⟩
  have hnew := hold.async hinv hs hclean.2 happended fun w p heq => by cases heq
  exact ⟨hnew.sentOut, hnew.callbacks, hnew.awaiting, hnew.account⟩

/-- **The send buffer is flushed when it holds data (proved).** -/
theorem OutInv.flushBuffered (hinv : AsyncInv s.sys) (hacc : s.Clean → OutAccount s s.rest)
    (hpending : s.pending = none) {source : CodeSource} {flush : Option EventId}
    (ht : s.flushBuffered source flush = some t) : OutInv t := by
  obtain ⟨u, hu, ht⟩ := Option.bind_eq_some_iff.mp ht
  obtain ⟨sys', rfl, hinv', hsend, htaken⟩ := OutInv.take hinv hacc hu
  split at ht
  next hnil =>
    cases ht
    refine ⟨hinv', fun hclean => ⟨?_, by rw [hsend]; rfl, fun p hp => ?_, fun _ _ _ => rfl⟩⟩
    · have hrest := htaken hclean
      rw [OutSystem.rest, hnil] at hrest
      exact hrest
    · rw [show s.pending = some p from hp] at hpending
      cases hpending
  · refine OutInv.flushAEventCreate (s := { s with sys := sys', buffer := [] }) hinv' (fun hclean => ?_) hpending ht
    have hrest := htaken hclean
    rw [OutSystem.rest, List.map_append] at hrest
    exact ⟨hrest, rfl, by rw [hsend]; rfl⟩

/-- **`ConnAWrite` begins (proved).** -/
theorem OutInv.beginWrite (h : OutInv s) (hreturned : s.Returned) {data : List UInt8} {source : CodeSource}
    (ht : s.beginWrite data source = some t) : OutInv t := by
  obtain ⟨sys', hs, rfl⟩ := Option.map_eq_some_iff.mp ht
  obtain ⟨happended, hbuffer⟩ := asyncStep_sendBuffer hs
  refine ⟨(asyncStep_effect h.inv hs).1, fun hclean => ?_⟩
  have hbook := h.book ⟨hclean.1, problems_of_step h.inv hs hclean.2⟩
  have hacc := (hbook.account.async h.inv hs hclean.2 happended fun w p heq => by cases heq).writeData data
  have hdata : (if data = [] then ClientWork.none else .write data source).data = data := by
    split
    next hnil => rw [hnil]; rfl
    · rfl
  refine ⟨⟨hacc.sentOut, hacc.callbacks, hacc.awaiting, ?_⟩, ?_, fun p hp => ?_, fun d src hwork => ?_⟩
  · obtain ⟨done, part, hall⟩ := hacc.account
    refine ⟨done, part, ?_⟩
    rw [OutSystem.rest, hdata, List.map_append]
    rw [OutSystem.rest, hreturned.2, ClientWork.data, List.append_nil] at hall
    exact hall
  · show sys'.conn.sendBuffer.getD 0 = s.buffer.length
    rw [hbuffer]
    exact hbook.buffer
  · have hnone := hreturned.1
    rw [show s.pending = some p from hp] at hnone
    cases hnone
  · revert hwork
    show (if data = [] then ClientWork.none else .write data source) = _ → _
    split <;> exact fun hwork => by cases hwork

/-- What is written comes after what is in the buffer. -/
theorem OutInv.written (h : OutInv s) (hreturned : s.Returned) (data : List UInt8) (work : ClientWork)
    (hclean : s.Clean) : OutAccount { s with work := work, writes := s.writes ++ data.map Written.octet }
      ((s.buffer ++ data).map Written.octet) := by
  have hacc := (h.book hclean).account.writeData data
  rw [OutSystem.rest, hreturned.2, ClientWork.data, List.append_nil, ← List.map_append] at hacc
  exact ⟨hacc.sentOut, hacc.callbacks, hacc.awaiting, hacc.account⟩

/-- **`ConnAWriteFromBuffer` with a large buffer begins (proved).** -/
theorem OutInv.beginLargeBuffer (h : OutInv s) (hreturned : s.Returned) {data : List UInt8} {source : CodeSource}
    {flush : Option EventId} (ht : s.beginLargeBuffer data source flush = some t) : OutInv t :=
  OutInv.flushBuffered (s := { s with
    work := .clientBuffer data source, writes := s.writes ++ data.map Written.octet })
    h.inv (h.written hreturned data _) hreturned.1 ht

/-- **The client's buffer gets its event (proved).** -/
theorem OutInv.largeBuffer (h : OutInv s) (hpending : s.pending = none) {data : List UInt8} {source : CodeSource}
    (hwork : s.work = .clientBuffer data source) {event : Option EventId}
    (ht : s.largeBuffer data source event = some t) : OutInv t := by
  unfold OutSystem.largeBuffer at ht
  split at ht
  · refine OutInv.assign (s := { s with work := .none }) h.inv (fun hclean => ?_) hpending rfl
      (fun h => ConnEventType.noConfusion h) ht
    have hbook := h.book hclean
    have hbuffer := hbook.large data source hwork
    have hacc := hbook.account
    rw [OutSystem.rest, hbuffer, List.nil_append, hwork] at hacc
    refine ⟨?_, hbuffer, hbook.buffer.trans (by rw [hbuffer]; rfl)⟩
    show OutAccount _ (data.map Written.octet ++ [])
    rw [List.append_nil]
    exact ⟨hacc.sentOut, hacc.callbacks, hacc.awaiting, hacc.account⟩
  · exact OutInv.report (s := { s with work := .none }) h.inv ht

/-- **One round of the loop of `writeClientData` (proved).** -/
theorem OutInv.writeRound (h : OutInv s) (hpending : s.pending = none) {data : List UInt8} {source : CodeSource}
    (hwork : s.work = .write data source) {memory : Bool} {flush : Option EventId}
    (ht : s.writeRound data source memory flush = some t) : OutInv t := by
  unfold OutSystem.writeRound at ht
  split at ht
  · exact OutInv.report (s := { s with work := .none }) h.inv ht
  split at ht
  · obtain ⟨sys', hs, rfl⟩ := Option.map_eq_some_iff.mp ht
    obtain ⟨happended, hbuffer⟩ := asyncStep_sendBuffer hs
    refine ⟨(asyncStep_effect h.inv hs).1, fun hclean => ?_⟩
    have hbook := h.book ⟨hclean.1, problems_of_step h.inv hs hclean.2⟩
    have hacc := hbook.account.async h.inv hs hclean.2 happended fun w p heq => by cases heq
    refine ⟨⟨hacc.sentOut, hacc.callbacks, hacc.awaiting, ?_⟩, ?_, fun p hp => ?_, fun d src hw => by cases hw⟩
    · obtain ⟨done, part, hall⟩ := hacc.account
      refine ⟨done, part, ?_⟩
      rw [OutSystem.rest, ClientWork.data, List.append_nil]
      rw [OutSystem.rest, hwork, ClientWork.data] at hall
      exact hall
    · show sys'.conn.sendBuffer.getD 0 = (s.buffer ++ data).length
      rw [hbuffer, List.length_append]
      split
      · rfl
      next hzero => exact (Nat.eq_zero_of_not_pos hzero).symm
    · rw [show s.pending = some p from hp] at hpending
      cases hpending
  · obtain ⟨u, hu, ht⟩ := Option.bind_eq_some_iff.mp ht
    obtain ⟨sys', rfl, hinv', hsend, htaken⟩ := OutInv.take h.inv (fun hclean => (h.book hclean).account) hu
    refine OutInv.flushAEventCreate (s := { s with
      sys := sys', buffer := [], work := .write (data.drop (connIobSize - s.buffer.length)) source })
      hinv' (fun hclean => ⟨?_, rfl, by rw [hsend]; rfl⟩) hpending ht
    have hacc := htaken hclean
    have hsplit : (s.buffer ++ data).map Written.octet =
        (s.buffer ++ data.take (connIobSize - s.buffer.length)).map Written.octet ++
          (data.drop (connIobSize - s.buffer.length)).map Written.octet := by
      rw [← List.map_append, List.append_assoc, List.take_append_drop]
    rw [OutSystem.rest, hwork, ClientWork.data, hsplit] at hacc
    exact ⟨hacc.sentOut, hacc.callbacks, hacc.awaiting, hacc.account⟩

/-- **`ConnAWriteFromCB` (proved):** its event takes over the send buffer, and the octets of its callback come
behind. -/
theorem OutInv.writeFromCB (h : OutInv s) (hreturned : s.Returned) {count : ℕ} {source : CodeSource}
    {memory : Bool} {event : Option EventId} (ht : s.writeFromCB count source memory event = some t) :
    OutInv t := by
  unfold OutSystem.writeFromCB at ht
  split at ht
  next e used _ =>
    obtain ⟨u, hu, ht⟩ := Option.bind_eq_some_iff.mp ht
    obtain ⟨sys', rfl, hinv', hsend, htaken⟩ := OutInv.take h.inv (fun hclean => (h.book hclean).account) hu
    obtain ⟨sys'', hs, rfl⟩ := Option.map_eq_some_iff.mp ht
    have hassigned := asyncStep_assigned hinv' hs
    refine ⟨(asyncStep_effect hinv' hs).1, fun hclean => ?_⟩
    have hold := htaken ⟨hclean.1, problems_of_step (s := { s with sys := sys', buffer := [] }) hinv' hs hclean.2⟩
    have hne : ∀ x ∈ callbacks s.writes, x ≠ e := fun x hx heq => hassigned.fresh (heq ▸ hold.callbacks x hx)
    have honce : (callbacks (s.writes ++ [Written.callback e])).Nodup := by
      rw [callbacks_append]
      refine List.nodup_append.mpr ⟨hold.once, List.nodup_singleton e, fun x hx y hy => ?_⟩
      obtain rfl : y = e := List.mem_singleton.mp hy
      exact hne x hx
    have hacc := (hold.assign hinv' hs hclean.2 { buffer := s.buffer, count := count }).write honce fun x hx => by
      obtain rfl : x = e := List.mem_singleton.mp hx
      exact hassigned.allocated
    rw [OutSystem.rest, hreturned.2, ClientWork.data, List.append_nil] at hacc
    have hsame : sys''.conn.classOf e = .send := by
      rw [Conn.classOf, hassigned.type]
      rfl
    have hself : Function.update s.events e { buffer := s.buffer, count := count } e =
        { buffer := s.buffer, count := count } := Function.update_self _ _ _
    have hitems : s.buffer.map Written.octet ++ [Written.callback e] =
        (s.buffer.map Written.octet ++ [Written.callback e]) ++ [] := (List.append_nil _).symm
    rw [hitems] at hacc
    have hpushed := hacc.push (asyncStep_effect hinv' hs).1 hreturned.1 source false
      hassigned.allocated hassigned.notAppended hsame (by
        show octets (fun x => (Function.update s.events e { buffer := s.buffer, count := count } x).supplied)
          (s.buffer.map Written.octet ++ [Written.callback e]) =
            (Function.update s.events e { buffer := s.buffer, count := count } e).buffer
        rw [octets_append, octets_octet, hself]
        show s.buffer ++ ((Function.update s.events e { buffer := s.buffer, count := count } e).supplied ++ []) = _
        rw [hself]
        exact List.append_nil _)
      fun _ => ⟨_, rfl⟩
    refine ⟨⟨hpushed.sentOut, hpushed.callbacks, hpushed.awaiting, ?_⟩, ?_, fun p hp hother => ?_, fun _ _ _ => rfl⟩
    · obtain ⟨done, part, hall⟩ := hpushed.account
      refine ⟨done, part, ?_⟩
      rw [OutSystem.rest, hreturned.2]
      exact hall
    · show sys''.conn.sendBuffer.getD 0 = 0
      rw [hassigned.sendBuffer, hsend]
      rfl
    · obtain rfl : _ = p := Option.some.inj (Option.mem_def.mp hp)
      exact absurd hsame hother
  · obtain ⟨sys₁, h₁, ht⟩ := Option.bind_eq_some_iff.mp ht
    obtain ⟨sys₂, h₂, ht⟩ := Option.bind_eq_some_iff.mp ht
    have hinv₁ := (asyncStep_effect h.inv h₁).1
    exact OutInv.report (s := { s with sys := sys₂ }) (asyncStep_effect hinv₁ h₂).1 ht
  · exact OutInv.report h.inv ht

/-- **A call that reads or connects assigns its event (proved).** -/
theorem OutInv.request (h : OutInv s) (hreturned : s.Returned) {e : EventId} {ce : ConnEvent}
    (hclass : ce.type.eventClass ≠ .send)
    (ht : { s with before := Function.update s.before e s.writes.length }.assign e ce { buffer := [] } false =
      some t) : OutInv t := by
  obtain ⟨sys', hs, rfl⟩ := Option.map_eq_some_iff.mp ht
  have hassigned := asyncStep_assigned h.inv hs
  refine ⟨(asyncStep_effect h.inv hs).1, fun hclean => ?_⟩
  have hbook := h.book ⟨hclean.1, problems_of_step h.inv hs hclean.2⟩
  have hfresh := hbook.account.fresh h.inv hassigned.fresh { buffer := [] } (Nat.le_refl s.writes.length)
  have hnew := hfresh.async h.inv hs hclean.2 hassigned.appended fun w p heq => by cases heq
  have hother : sys'.conn.classOf e ≠ .send := by
    rw [Conn.classOf, hassigned.type]
    exact hclass
  refine ⟨hnew.pushOther hreturned.1 hassigned.allocated hassigned.notAppended hother, ?_,
    fun _ _ _ => hreturned.2, hbook.large⟩
  show sys'.conn.sendBuffer.getD 0 = s.buffer.length
  rw [hassigned.sendBuffer]
  exact hbook.buffer

/-! ### `EventEnqueue` -/

/-- **What `EventEnqueue` has appended to a conn,** when there is no problem. -/
theorem asyncStep_enqueued {s s' : AsyncSystem} {e : EventId} {allocs : Allocs} {source : CodeSource}
    (hinv : AsyncInv s) (hs : asyncStep s (.enqueue (some e) allocs source) = some s')
    (hperm : queueingPermitted s.conn = true) (hclean : problems s'.conn.log = []) :
    allocs.Fresh s.conn ∧ Enqueued (asyncClientEnter s.conn) e allocs s'.conn := by
  have hnone : s'.conn.transaction.problem = none :=
    problem_none (asyncStep_effect hinv hs).1.queue hclean
  simp only [asyncStep] at hs
  split at hs <;> cases hs
  next hok =>
    have hfresh := Allocs.fresh_iff hok.2
    refine ⟨hfresh, ?_⟩
    obtain ⟨halloc, haccepted⟩ := hinv.caller_new (hok.1 e rfl)
    unfold AsyncSystem.enqueue at hnone ⊢
    simp only [] at hnone ⊢
    split at hnone
    next r hr =>
      rw [AsyncSystem.outcome_conn] at hnone
      show Enqueued _ e allocs (AsyncSystem.outcome _ r).conn
      rw [AsyncSystem.outcome_conn]
      exact eventEnqueue_enqueued hinv.wf hinv.queue halloc haccepted hfresh hr hnone
    next hr =>
      refine absurd hr ?_
      simp only [eventEnqueue, hperm, if_true]
      split <;> exact fun h => by cases h

/-- The events of the account take their place in the queue. -/
theorem OutAccount.enqueued {rest : List Written} {new : List EventId} (h : OutAccount s rest)
    (hinv : AsyncInv s.sys) {e : EventId} {allocs : Allocs} {source : CodeSource}
    (hs : asyncStep s.sys (.enqueue (some e) allocs source) = some sys') (hclean : problems sys'.conn.log = [])
    (happended : appended sys'.conn.log = new.reverse ++ appended s.sys.conn.log)
    {rest' : List Written} (hacc : ∃ done part, Accounts sys'.conn.typeOf s.sys.conn.activeEvent.send
      (s.sys.conn.queued ++ new) (started s.sys.conn.log) s.outgoing rest' done part) :
    OutAccount { s with sys := sys', pending := none } rest' := by
  obtain ⟨done, part, hacc⟩ := hacc
  rw [← List.append_nil new] at hacc
  obtain ⟨done', hacc'⟩ := Accounts.step _ [] hinv hs hclean happended
    (fun w hw hstage hclass => h.sentOut.complete w hw hstage hclass) hacc
  refine ⟨h.sentOut.step hinv hs fun w p heq => (by cases heq), fun x hx => ?_, fun p hp => (by cases hp),
    done', part, hacc'⟩
  exact allocated_mono (reachable_suffix (asyncStep_effect hinv hs).2.refines) (h.callbacks x hx)

/-- **A send event is queued (proved):** it is the one that comes next in the account. -/
theorem OutAccount.enqueueSend {rest : List Written} (h : OutAccount s rest) (hinv : AsyncInv s.sys) {p : Pending}
    (hp : s.pending = some p) (hclass : s.sys.conn.classOf p.event = .send) {allocs : Allocs}
    (hs : asyncStep s.sys (.enqueue (some p.event) allocs p.source) = some sys')
    (hclean : problems sys'.conn.log = []) (hqueued : Enqueued (asyncClientEnter s.sys.conn) p.event allocs sys'.conn)
    (hlog : (asyncClientEnter s.sys.conn).log = s.sys.conn.log)
    (htype : (asyncClientEnter s.sys.conn).typeOf p.event = s.sys.conn.typeOf p.event) :
    OutAccount { s with sys := sys', pending := none } rest := by
  have hone : s.awaiting = [p.event] := by
    rw [OutSystem.awaiting, hp]
    exact sends_send hclass []
  have hflush : flushInserted (asyncClientEnter s.sys.conn) p.event allocs = [] := by
    refine if_neg fun hneeded => hneeded.1 ?_
    rw [Conn.classOf, htype]
    exact hclass
  have hssl : sslDisconnectInserted (asyncClientEnter s.sys.conn) p.event allocs = [] := by
    refine if_neg fun hneeded => ?_
    rw [Conn.classOf, ← htype, hneeded.1] at hclass
    cases hclass
  have happended := hqueued.appends.appended
  rw [hflush, hssl, hlog] at happended
  obtain ⟨done, part, hacc⟩ := h.account
  have hnew := hacc.of_step hinv hs h.awaiting_allocated
  rw [hone] at hnew
  exact h.enqueued hinv hs hclean happended ⟨done, part, hnew⟩

/-- **Another event is queued (proved),** once all that is buffered is in an event. -/
theorem OutAccount.enqueueOther (flush : List EventId) (h : OutAccount s (s.buffer.map Written.octet))
    (hinv : AsyncInv s.sys) {p : Pending} (hp : s.pending = some p) (hclass : s.sys.conn.classOf p.event ≠ .send)
    {allocs : Allocs} (hs : asyncStep s.sys (.enqueue (some p.event) allocs p.source) = some sys')
    (hclean : problems sys'.conn.log = []) (hqueued : Enqueued (asyncClientEnter s.sys.conn) p.event allocs sys'.conn)
    (hlog : (asyncClientEnter s.sys.conn).log = s.sys.conn.log)
    (hflush : flushInserted (asyncClientEnter s.sys.conn) p.event allocs = flush)
    (hbuffer : flush = [] → s.buffer = []) (hheld : ∀ f ∈ flush, (s.events f).buffer = s.buffer)
    (hfresh : ∀ f ∈ flush, f ∉ allocated s.sys.conn.log) :
    OutAccount { s with sys := sys', pending := none } [] := by
  have hinv' := (asyncStep_effect hinv hs).1
  have hnone : s.awaiting = [] := by
    rw [OutSystem.awaiting, hp]
    exact sends_other hclass []
  have hother : (sys'.conn.typeOf p.event).eventClass ≠ .send := by
    have hkept := asyncStep_classOf hinv hs (h.awaiting p hp).1
    rw [Conn.classOf] at hkept
    rw [hkept]
    exact hclass
  have happended := hqueued.appends.appended
  rw [hflush, hlog] at happended
  obtain ⟨done, part, hacc⟩ := h.account
  have hstart := hacc.of_step hinv hs h.awaiting_allocated
  rw [hnone, List.append_nil] at hstart
  -- the flush takes over what is buffered
  obtain ⟨part', hflushed⟩ : ∃ part', Accounts sys'.conn.typeOf s.sys.conn.activeEvent.send
      (s.sys.conn.queued ++ flush) (started s.sys.conn.log) s.outgoing [] done part' := by
    have htypes := hqueued.flush
    rw [hflush] at htypes
    by_cases hneeded : FlushNeeded (asyncClientEnter s.sys.conn) p.event
    · rw [if_pos hneeded] at htypes
      obtain ⟨f, rfl, hflushType⟩ : ∃ f, flush = [f] ∧ sys'.conn.typeOf f = .flush := by
        obtain ⟨f, rest, rfl, hf, hrest⟩ := List.map_eq_cons_iff.mp htypes
        rw [List.map_eq_nil_iff] at hrest
        exact ⟨f, by rw [hrest], hf⟩
      rw [← List.append_nil (s.buffer.map Written.octet)] at hstart
      refine ⟨_, hstart.queueSend _ (by rw [hflushType]; rfl) (fun he => ?_) ?_ fun hcb => ?_⟩
      · refine hfresh f List.mem_cons_self (hinv.appended_allocated ?_)
        rcases List.mem_append.mp he with he | he
        · exact hinv.active_appended he
        · exact hinv.queued_appended he
      · rw [octets_octet]
        exact (hheld f List.mem_cons_self).symm
      · rw [hflushType] at hcb
        cases hcb
    · rw [if_neg hneeded, List.map_eq_nil_iff] at htypes
      rw [hbuffer htypes] at hstart
      rw [htypes, List.append_nil]
      exact ⟨part, hstart⟩
  have hssl : ∀ d ∈ sslDisconnectInserted (asyncClientEnter s.sys.conn) p.event allocs,
      (sys'.conn.typeOf d).eventClass ≠ .send := by
    intro d hd
    have hmem := List.mem_map_of_mem (f := sys'.conn.typeOf) hd
    rw [hqueued.sslDisconnect] at hmem
    split at hmem
    · rw [List.mem_singleton.mp hmem]
      decide
    · cases hmem
  have hall := hflushed.queueOthers (l := sslDisconnectInserted (asyncClientEnter s.sys.conn) p.event allocs ++ [p.event])
    fun d hd => (List.mem_append.mp hd).elim (hssl d) fun hd => List.mem_singleton.mp hd ▸ hother
  refine h.enqueued hinv hs hclean happended ⟨done, part', ?_⟩
  simpa only [List.append_assoc] using hall

/-- **`EventEnqueue` (proved).** -/
theorem OutInv.enqueue (h : OutInv s) {p : Pending} (hp : s.pending = some p) {allocs : Allocs}
    (ht : s.enqueue p allocs = some t) : OutInv t := by
  obtain ⟨sys', hs, ht⟩ := Option.bind_eq_some_iff.mp ht
  have hinv' := (asyncStep_effect h.inv hs).1
  split at ht
  next hperm =>
    -- what entering client mode leaves alone
    have hlog : (asyncClientEnter s.sys.conn).log = s.sys.conn.log :=
      (asyncClientEnter_effect (P := False) h.inv.wf hperm).2.2.2.2
    obtain ⟨_, _, hevents, _, hsend⟩ := asyncClientEnter_frame s.sys.conn
    have htype : (asyncClientEnter s.sys.conn).typeOf p.event = s.sys.conn.typeOf p.event := by
      rw [Conn.typeOf, hevents]
      rfl
    have hclassOf : (asyncClientEnter s.sys.conn).classOf p.event = s.sys.conn.classOf p.event :=
      congrArg ConnEventType.eventClass htype
    have hbuffered : ∀ {e : EventId}, s.sys.conn.classOf e ≠ .send → ¬ FlushNeeded s.sys.conn e → OutBook s →
        s.buffer = [] := by
      intro e hclass hnot hbook
      have hbuf := hbook.buffer
      by_contra hne
      refine hnot ⟨hclass, ?_⟩
      unfold bufferedSendDataGet
      cases hused : s.sys.conn.sendBuffer with
      | none =>
        rw [hused] at hbuf
        exact absurd (List.eq_nil_of_length_eq_zero hbuf.symm) hne
      | some used =>
        rw [hused] at hbuf
        have hused : used = s.buffer.length := hbuf
        simpa [hused] using hne
    split at ht <;> cases ht
    next hneeded =>
      refine ⟨hinv', fun hclean => ?_⟩
      have hbook := h.book ⟨hclean.1, problems_of_step h.inv hs hclean.2⟩
      obtain ⟨hfresh, hqueued⟩ := asyncStep_enqueued h.inv hs hperm hclean.2
      have hneeded' : FlushNeeded (asyncClientEnter s.sys.conn) p.event :=
        FlushNeeded.asyncClientEnter_iff.mpr hneeded
      have hwork := hbook.request p hp hneeded.1
      obtain ⟨f, hf⟩ : ∃ f, allocs.flush = some f := by
        have hone := hqueued.flush
        rw [flushInserted, if_pos hneeded', if_pos hneeded'] at hone
        cases hflush : allocs.flush with
        | none =>
          rw [hflush] at hone
          cases hone
        | some f => exact ⟨f, rfl⟩
      have hbound : s.before f ≤ s.writes.length := by
        obtain ⟨done, part, hacc⟩ := hbook.account.account
        exact hacc.bound f
      have hheld := hbook.account.fresh h.inv (hfresh.flush f hf) { buffer := s.buffer } hbound
      rw [Function.update_eq_self, OutSystem.rest, hwork, ClientWork.data, List.append_nil] at hheld
      have hacc := OutAccount.enqueueOther [f] hheld h.inv hp hneeded.1 hs hclean.2 hqueued hlog
        (by rw [flushInserted, if_pos hneeded', hf]; rfl) (fun hnil => (by cases hnil))
        (fun x hx => by
          rw [List.mem_singleton.mp hx]
          show (Function.update s.events f { buffer := s.buffer } f).buffer = _
          rw [Function.update_self])
        (fun x hx => List.mem_singleton.mp hx ▸ hfresh.flush f hf)
      refine ⟨?_, ?_, fun q hq => (by cases hq), fun data source hlarge => rfl⟩
      · rw [hf]
        show OutAccount _ (([] ++ s.work.data).map Written.octet)
        rw [hwork]
        exact ⟨hacc.sentOut, hacc.callbacks, hacc.awaiting, hacc.account⟩
      · show sys'.conn.sendBuffer.getD 0 = 0
        rw [hqueued.sendBuffer, hclassOf, if_neg hneeded.1]
        rfl
    next hnot =>
      refine ⟨hinv', fun hclean => ?_⟩
      have hbook := h.book ⟨hclean.1, problems_of_step h.inv hs hclean.2⟩
      obtain ⟨_, hqueued⟩ := asyncStep_enqueued h.inv hs hperm hclean.2
      by_cases hclass : s.sys.conn.classOf p.event = .send
      · have hacc := hbook.account.enqueueSend h.inv hp hclass hs hclean.2 hqueued hlog htype
        refine ⟨⟨hacc.sentOut, hacc.callbacks, hacc.awaiting, hacc.account⟩, ?_, fun q hq => (by cases hq),
          hbook.large⟩
        show sys'.conn.sendBuffer.getD 0 = s.buffer.length
        rw [hqueued.sendBuffer, hclassOf, if_pos hclass, hsend]
        exact hbook.buffer
      · have hwork := hbook.request p hp hclass
        have hnil := hbuffered hclass hnot hbook
        have hrest : s.rest = s.buffer.map Written.octet := by
          rw [OutSystem.rest, hwork, ClientWork.data, List.append_nil]
        have hempty : flushInserted (asyncClientEnter s.sys.conn) p.event allocs = [] :=
          if_neg fun hneeded => hnot (FlushNeeded.asyncClientEnter_iff.mp hneeded)
        have hold := hbook.account
        rw [hrest] at hold
        have hacc := hold.enqueueOther _ h.inv hp hclass hs hclean.2 hqueued hlog hempty (fun _ => hnil)
          (fun f hf => (by cases hf)) (fun f hf => (by cases hf))
        refine ⟨?_, ?_, fun q hq => (by cases hq), hbook.large⟩
        · show OutAccount _ ((s.buffer ++ s.work.data).map Written.octet)
          rw [hnil, hwork]
          exact ⟨hacc.sentOut, hacc.callbacks, hacc.awaiting, hacc.account⟩
        · show sys'.conn.sendBuffer.getD 0 = s.buffer.length
          rw [hqueued.sendBuffer, hclassOf, if_neg hclass, hnil]
          rfl
  · obtain ⟨sys'', hs', ht⟩ := Option.bind_eq_some_iff.mp ht
    exact OutInv.report (s := { s with sys := sys'', pending := none, work := s.work.refused })
      (asyncStep_effect hinv' hs').1 ht

/-! ### Synchronous calls -/

/-- What the engine and its threads see of a conn stays when a synchronous call works on its buffers and its socket. -/
theorem AsyncInv.buffers {s : AsyncSystem} (hinv : AsyncInv s) (sendBuffer : Option ℕ) (receiveBuffer : List Octet)
    (sp : SOCK) :
    AsyncInv { s with
      conn := { s.conn with
        sp := { sp with event := s.conn.sp.event }
        sendBuffer := sendBuffer
        receiveBuffer := receiveBuffer } } := by
  have hstep : asyncStep s (.sendBuffer false sendBuffer) =
      some { s with conn := { s.conn with sendBuffer := sendBuffer } } := by
    simp [asyncStep, writeClientData]
  refine (asyncStep_effect hinv hstep).1.of_quiet ⟨rfl, rfl, rfl, rfl, rfl, [], fun x hx => (by cases hx), rfl⟩ rfl
    rfl hinv.socket (fun x => rfl) (fun x => rfl) (fun x hx => hx) hinv.returned

theorem AsyncInv.synced (hinv : AsyncInv s.sys) (r : SyncReturn) :
    AsyncInv { s.sys with conn := s.synced r } :=
  hinv.buffers _ _ r.conn.sp

/-- A synchronous call sees what is buffered. -/
theorem OutBook.buffered (h : OutBook s) : s.syncConn.buffered = s.buffer := by
  have hlength := h.buffer
  show (s.sys.conn.sendBuffer.map fun _ => s.buffer).getD [] = s.buffer
  cases hused : s.sys.conn.sendBuffer with
  | none =>
    rw [hused] at hlength
    exact (List.eq_nil_of_length_eq_zero hlength.symm).symm
  | some used => rfl

/-- **A synchronous call (proved).** -/
theorem OutInv.sync (h : OutInv s) (hreturned : s.Returned) (hidle : s.sys.conn.state = .idle) {iob : IOBufferLib}
    {call : ConsumerCall} {r : SyncReturn} (hr : call.run iob s.syncConn = some r) (haccept : call.Accepting)
    (hquiet : ∀ first, call.implicit = some first → s.buffer ≠ [] →
      first.Undisturbed s.sys.conn.sp.sslConn.isSome) : OutInv (s.afterSync call r) := by
  refine ⟨h.inv.synced r, fun hclean => ?_⟩
  obtain ⟨hreported, hproblems⟩ := hclean
  obtain ⟨hsilent, hok⟩ := Bool.or_eq_false_iff.mp hreported
  have hbook := h.book ⟨hsilent, hproblems⟩
  have hbuffered := hbook.buffered
  have hunreported : ¬ (r.errno ≠ 0 ∨ r.result = some false) := of_decide_eq_false hok
  obtain ⟨hsent, hwire⟩ := call_sent hr hunreported haccept fun first hfirst hne =>
    hquiet first hfirst (hbuffered ▸ hne)
  rw [hbuffered] at hsent
  obtain ⟨sent, hsplit⟩ := hwire
  have hsplit : s.wire ++ sent = r.conn.wire := hsplit
  rw [← hsplit, List.append_assoc] at hsent
  have hdirect : sent ++ r.conn.buffered = s.buffer ++ call.written r :=
    List.append_cancel_left (hsent.trans (List.append_assoc ..))
  -- an idle conn has nothing in its queue
  obtain ⟨hqueued, hinactive, _⟩ := h.inv.queue.state.idle hidle
  obtain ⟨done, part, hacc⟩ := hbook.account.account
  have hawaiting := awaiting_of_none hreturned.1
  have hrest : s.rest = s.buffer.map Written.octet := by
    rw [OutSystem.rest, hreturned.2, ClientWork.data, List.append_nil]
  have hempty : s.sys.conn.queued = [] := hqueued
  have hactive : s.sys.conn.activeEvent.send = none := hinactive .send
  rw [hawaiting, hempty, hactive, hrest] at hacc
  have hnew := hacc.direct hdirect
  refine ⟨⟨⟨hbook.account.sentOut.handshaking, hbook.account.sentOut.complete⟩, fun e he => ?_, fun p hp => ?_,
    done ++ sent.map Written.octet, part, ?_⟩, ?_, fun p hp => ?_, fun data source hwork => ?_⟩
  · have he : e ∈ callbacks (s.writes ++ (call.written r).map Written.octet) := he
    rw [callbacks_append, callbacks_octet, List.append_nil] at he
    exact hbook.account.callbacks e he
  · exact hbook.account.awaiting p hp
  · show Accounts s.sys.conn.typeOf s.sys.conn.activeEvent.send (s.sys.conn.queued ++ s.awaiting)
      (started s.sys.conn.log)
      { s.outgoing with writes := s.writes ++ (call.written r).map Written.octet, wire := r.conn.wire }
      ((r.conn.buffered ++ s.work.data).map Written.octet) _ part
    rw [hawaiting, hempty, hactive, hreturned.2, ClientWork.data, List.append_nil r.conn.buffered, ← hsplit]
    exact hnew
  · show (r.conn.sendBuffer.map List.length).getD 0 = (r.conn.sendBuffer.getD []).length
    cases r.conn.sendBuffer <;> rfl
  · have hnone := hreturned.1
    rw [show s.pending = some p from hp] at hnone
    cases hnone
  · have hnone := hreturned.2
    rw [show s.work = .clientBuffer data source from hwork] at hnone
    cases hnone

/-! ### Every step -/

/-- **Every step (proved):** an accepting and undisturbed one keeps the invariant. -/
theorem outStep_inv {a : OutAction} (h : OutInv s) (hs : outStep s a = some t)
    (hgood : a.Accepting ∧ a.Undisturbed s) : OutInv t := by
  cases a with
  | engine a =>
    simp only [outStep] at hs
    split at hs
    next ha =>
      obtain ⟨sys', hstep, rfl⟩ := Option.map_eq_some_iff.mp hs
      refine ⟨(asyncStep_effect h.inv hstep).1, fun hclean => ?_⟩
      exact (h.book ⟨hclean.1, problems_of_step h.inv hstep hclean.2⟩).engine h.inv hstep ha hclean.2
    · cases hs
  | process w clear ssl =>
    simp only [outStep, OutSystem.process] at hs
    split at hs
    next hclass =>
      obtain ⟨r, hr, hs⟩ := Option.bind_eq_some_iff.mp hs
      obtain ⟨sys', hstep, rfl⟩ := Option.map_eq_some_iff.mp hs
      refine ⟨(asyncStep_effect h.inv hstep).1, fun hclean => ?_⟩
      exact (h.book ⟨hclean.1, problems_of_step h.inv hstep hclean.2⟩).process h.inv hgood.1 hclass hr hstep
        hclean.2
    · cases hs
  | aWrite data source =>
    simp only [outStep] at hs
    split at hs
    next hreturned => exact h.beginWrite hreturned hs
    · cases hs
  | aWriteFromBuffer data source flush =>
    simp only [outStep] at hs
    split at hs
    next hreturned =>
      split at hs
      · exact h.beginWrite hreturned hs
      · exact h.beginLargeBuffer hreturned hs
    · cases hs
  | aWriteFromCB count source memory event =>
    simp only [outStep] at hs
    split at hs
    next hreturned => exact h.writeFromCB hreturned hs
    · cases hs
  | aFlush source flush =>
    simp only [outStep] at hs
    split at hs
    next hreturned => exact .flushBuffered h.inv (fun hclean => (h.book hclean).account) hreturned.1 hs
    · cases hs
  | request e ce =>
    simp only [outStep] at hs
    split at hs
    next hreturned => exact h.request hreturned.1 hreturned.2 hs
    · cases hs
  | fail errno source =>
    simp only [outStep] at hs
    split at hs
    · exact .report h.inv hs
    · cases hs
  | round memory flush =>
    simp only [outStep] at hs
    split at hs
    next hpending hwork => exact h.writeRound hpending hwork hs
    · cases hs
  | largeBuffer event =>
    simp only [outStep] at hs
    split at hs
    next hpending hwork => exact h.largeBuffer hpending hwork hs
    · cases hs
  | enqueue allocs =>
    obtain ⟨p, hp, hs⟩ := Option.bind_eq_some_iff.mp hs
    exact h.enqueue hp hs
  | sync iob call =>
    simp only [outStep] at hs
    split at hs
    next hready =>
      obtain ⟨r, hr, rfl⟩ := Option.map_eq_some_iff.mp hs
      exact h.sync hready.1 hready.2 hr hgood.1 hgood.2
    · cases hs

/-! ### Every run -/

/-- A new conn. -/
theorem OutInv.initial (h : s.Initial) : OutInv s := by
  have hinv := AsyncInv.initial h.sys
  refine ⟨hinv, fun _ => ?_⟩
  have hrest : s.rest = [] := by
    rw [OutSystem.rest, h.buffer, h.returned.2]
    rfl
  have hawaiting := awaiting_of_none h.returned.1
  have hstarted : started s.sys.conn.log = [] := by
    rw [h.sys.log]
    rfl
  have hqueued : s.sys.conn.queued = [] := by
    rw [Conn.queued, h.sys.queue]
    rfl
  refine ⟨⟨⟨fun w hw => ?_, fun w hw => ?_⟩, fun e he => ?_, fun p hp => ?_, [], fun _ => [], ?_⟩, ?_, fun p hp => ?_,
    fun data source hwork => h.buffer⟩
  · rw [h.sys.workers] at hw
    cases hw
  · rw [h.sys.workers] at hw
    cases hw
  · rw [h.writes] at he
    cases he
  · have hnone := h.returned.1
    rw [show s.pending = some p from hp] at hnone
    cases hnone
  · have hactive : s.sys.conn.activeEvent.send = none := h.sys.active .send
    rw [hrest, hawaiting, hstarted, hqueued, hactive]
    refine ⟨h.writes, ?_, fun e he => (by cases he), List.nil_prefix, fun a e b hq => ?_, fun e he => (by cases he),
      fun e he => (by cases he), fun e he => (by cases he), ?_, fun e => ?_⟩
    · show [] = s.wire ++ []
      rw [h.wire]
      rfl
    · simp at hq
    · show (callbacks s.writes).Nodup
      rw [h.writes]
      exact List.nodup_nil
    · show s.before e ≤ _
      rw [h.before e]
      exact Nat.zero_le _
  · rw [h.sendBuffer, h.buffer]
    rfl
  · have hnone := h.returned.1
    rw [show s.pending = some p from hp] at hnone
    cases hnone

/-- **The account puts the octets in order (proved).** -/
theorem OutBook.ordered (h : OutBook s) (hinv : AsyncInv s.sys) : Ordered s := by
  obtain ⟨done, part, hacc⟩ := h.account.account
  have htotal : s.written = s.wire ++ s.underway ++ s.buffer ++ s.work.data := by
    have hall := hacc.total
    rw [OutSystem.rest, octets_octet, ← List.append_assoc] at hall
    exact hall
  have hawaiting : ∀ {a b : List EventId} {x : EventId}, s.sys.conn.queued = a ++ x :: b →
      ∀ e ∈ sends s.sys.conn.typeOf a, e ∈ sends s.sys.conn.typeOf (s.sys.conn.queued ++ s.awaiting) := by
    intro a b x hq e he
    rw [hq, sends_append, sends_append]
    exact List.mem_append_left _ (List.mem_append_left _ he)
  refine ⟨htotal, fun hidle hreturned => ?_, fun e he hclass => ?_, fun a e b hq hclass => ?_,
    fun e he hclass => ?_⟩
  · obtain ⟨hqueued, hinactive, _⟩ := hinv.queue.state.idle hidle
    have hempty : s.sys.conn.queued = [] := hqueued
    have hactive : s.sys.conn.activeEvent.send = none := hinactive .send
    have hnothing : s.underway = [] := by
      rw [OutSystem.underway, OutSystem.held, hempty, hactive, OutSystem.awaiting, hreturned.1]
      rfl
    rw [htotal, hnothing, hreturned.2, ClientWork.data, List.append_nil, List.append_nil]
  · exact (octets_mono s.outgoing.supplied (hacc.begun e he hclass)).trans hacc.sent
  · have hahead := octets_mono s.outgoing.supplied
      (hacc.ahead a e (b ++ s.awaiting) (by rw [hq, List.append_assoc, List.cons_append]) hclass)
    rw [hacc.octets_held (hawaiting hq)] at hahead
    exact hahead
  · have hpast := octets_mono s.outgoing.supplied (hacc.past e he hclass)
    rw [hacc.octets_held fun x hx => hx] at hpast
    exact hpast

end Steps

/-- What was written before a synchronous call that reads or connects is on the wire when its event starts. -/
def OutSystem.FlushedFirst (s : OutSystem) : OutAction → Prop
  | .sync _ call => ∀ first, call.implicit = some first →
      ∀ err dropped c, s.syncConn.implicitFlush first = some (err, dropped, c) → c.wire = s.written
  | _ => True

/-- A new conn on socket `number`. -/
def OutSystem.new (number : Option ℕ) : OutSystem where
  sys := .new number
  pending := none
  work := .none
  buffer := []
  events := fun _ => { buffer := [] }
  writes := []
  wire := []
  before := fun _ => 0
  reported := false

theorem OutSystem.new_initial (number : Option ℕ) : (OutSystem.new number).Initial :=
  ⟨AsyncSystem.new_initial number, ⟨rfl, rfl⟩, rfl, rfl, rfl, rfl, fun _ => rfl⟩

/-- **The octets are in order (proved),** in every run without a reported error and without a problem whose implicit
flushes are not disturbed. -/
theorem written_ordered {s₀ s : OutSystem} (hinit : s₀.Initial)
    (hrun : ReachableVia (enabled outStep) (fun s a => a.Accepting ∧ a.Undisturbed s) s₀ s)
    (hreported : s.reported = false) (hproblems : problems s.sys.conn.log = []) :
    Ordered s ∧ ∀ a t, outStep s a = some t → a.Accepting → a.Undisturbed s → s.FlushedFirst a := by
  have hinv : OutInv s := 
    hrun.invariant (OutInv.initial hinit) fun s a t h hok hs => outStep_inv (a := a) h hs hok
  have hbook := hinv.book ⟨hreported, hproblems⟩
  have hordered := hbook.ordered hinv.inv
  refine ⟨hordered, fun a t hs haccept hquiet => ?_⟩
  cases a with
  | sync iob call =>
    intro first hfirst err dropped c hflush
    simp only [outStep] at hs
    split at hs
    next hready =>
      have hbuffered := hbook.buffered
      have haccept : first.Accepting := by
        cases call <;> cases hfirst <;> exact haccept
      obtain ⟨hwire, _⟩ := afterFlush_sent haccept (fun hne => hquiet first hfirst (hbuffered ▸ hne)) hflush
      rw [hwire, hbuffered]
      exact (hordered.idle hready.2 hready.1).symm
    · cases hs
  | _ => exact trivial

/-- One octet is written, a disconnect is requested, the flush in front of it is sent, and the disconnect starts. -/
def flushedRun : List OutAction :=
  [.aWrite [71] ⟨0, 1⟩, .round true none, .request 1 { type := .disconnect, source := ⟨0, 2⟩ },
    .enqueue ⟨some 2, none⟩, .engine (.work ⟨2, .destroying []⟩ .destroy), .engine (.work ⟨2, .starting⟩ .test),
    .process ⟨2, .processing⟩ (.flush ⟨.onePiece, [[.accepts 1]]⟩) (.flush ⟨.onePiece, []⟩),
    .engine (.relock ⟨2, .returned .complete⟩)]

theorem written_ordered_flushed : ∃ s,
    ReachableVia (enabled outStep) (fun s a => a.Accepting ∧ a.Undisturbed s) (.new (some 3)) s ∧
      s.wire = [71] ∧ started s.sys.conn.log = [1, 2] ∧
      (Ordered s ∧ ∀ a t, outStep s a = some t → a.Accepting → a.Undisturbed s → s.FlushedFirst a) := by
  have hseen : (runFrom outStep (.new (some 3)) flushedRun).map (fun s =>
      (s.wire, started s.sys.conn.log, s.reported, problems s.sys.conn.log)) =
        some ([71], [1, 2], false, []) := by decide +kernel
  obtain ⟨s, hs, hobs⟩ := Option.map_eq_some_iff.mp hseen
  simp only [Prod.mk.injEq] at hobs
  obtain ⟨hwire, hstarted, hreported, hproblems⟩ := hobs
  have hrun := reachableVia_of_forall (fun s a => OutAction.Accepting a ∧ OutAction.Undisturbed s a)
    (fun a ha s => by
      simp only [flushedRun, List.mem_cons, List.not_mem_nil, or_false] at ha
      rcases ha with rfl | rfl | rfl | rfl | rfl | rfl | rfl | rfl
      all_goals exact ⟨by simp [OutAction.Accepting, SendInput.calls], trivial⟩) hs
  exact ⟨s, hrun, hwire, hstarted, written_ordered (OutSystem.new_initial _) hrun hreported hproblems⟩

/-- **A disturbed implicit flush loses octets without a word (proved):** the flush of a synchronous `ConnRead` times
out, and the read is answered. -/
theorem written_lost : ¬ ∀ (number : ℕ) (s : OutSystem),
    ReachableVia (enabled outStep) (fun _ a => a.Accepting) (.new (some number)) s → s.reported = false →
      problems s.sys.conn.log = [] → s.sys.conn.state = .idle → s.Returned → s.written = s.wire ++ s.buffer := by
  intro hall
  have hseen : (runFrom outStep (.new (some 3)) [.sync .onePiece bufferedWrite,
      .sync .onePiece (.read (connReadEx ⟨true, 16⟩) .timesOut
        [(⟨none, some (.conditional [⟨0, some (some (.data [72]))⟩, ⟨0, none⟩])⟩, none)])]).map (fun s =>
          ((s.written, s.wire, s.buffer), s.reported, problems s.sys.conn.log, decide (s.sys.conn.state = .idle),
            decide s.Returned)) =
        some (([71], [], []), false, [], true, true) := by decide +kernel
  obtain ⟨s, hs, hobs⟩ := Option.map_eq_some_iff.mp hseen
  simp only [Prod.mk.injEq, decide_eq_true_eq] at hobs
  obtain ⟨⟨hwritten, hwire, hbuffer⟩, hreported, hproblems, hidle, hreturned⟩ := hobs
  have hrun := reachableVia_of_forall (fun _ a => OutAction.Accepting a)
    (fun a ha s => by
      simp only [List.mem_cons, List.not_mem_nil, or_false] at ha
      rcases ha with rfl | rfl
      all_goals simp [OutAction.Accepting, ConsumerCall.Accepting, bufferedWrite, FlushInput.Accepting,
        FlushInput.timesOut]) hs
  have hlost := hall 3 s hrun hreported hproblems hidle hreturned
  rw [hwritten, hwire, hbuffer] at hlost
  cases hlost

end Connio
