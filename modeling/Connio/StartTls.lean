import Connio.StreamInv

/-!
# Nothing is injected before a handshake

What a peer sends in clear before a handshake must not be read after it as if it had come through the session.

* `Delivery.Sound` — an octet that is handed over is one of those received, no earlier than the last handshake, and
  came through the session if there is one;
* `recordedStep_sealed` — **PROVED**: every step keeps the book sound;
* `Securing`, `Completes` — the event of a handshake is being processed, and completes;
* `streamStep_securing` — **PROVED**: nothing is received beside it, and it completes on an empty receive buffer;
* `reachable_noInjection` — **PROVED**: every run is free of injection, and two runs that differ in the octets that no
  read has consumed are one run as soon as both handshakes complete;
* `clear_after_disconnect` — **PROVED**: after an SSL disconnect octets are delivered that came in clear.
-/

namespace Connio

open Connio.Lib

/-! ### What is handed over -/

/-- **An octet that is handed over.** -/
structure Delivery.Sound (received : List Octet) (d : Delivery) : Prop where
  octet : received[d.index]? = some d.octet
  /-- it has been received after the last handshake completed -/
  sealed : ∀ n, d.sealedAt = some n → n ≤ d.index
  /-- on an established session it has come through SSL -/
  secured : d.secured = true → d.octet.secured = true

/-- **The book of one conn:** what is in the receive buffer was received last, and after the last handshake. -/
structure Sealed (r : Recorded) : Prop where
  buffer : r.system.conn.receiveBuffer <:+ r.book.received
  sealed : ∀ n, r.book.sealedAt = some n → n + r.system.conn.receiveBuffer.length ≤ r.book.received.length
  secured : r.system.conn.sp.sslConn ≠ none →
    ∃ n, r.book.sealedAt = some n ∧ ∀ o ∈ r.book.received.drop n, o.secured = true
  handed : ∀ d ∈ r.book.handed, d.Sound r.book.received

section

variable {r t : Recorded} {a : StreamAction}

theorem Delivery.Sound.append {received : List Octet} {d : Delivery} (h : d.Sound received) (more : List Octet) :
    d.Sound (received ++ more) :=
  ⟨(List.getElem?_append_left (List.getElem?_eq_some_iff.mp h.octet).1).trans h.octet, h.sealed, h.secured⟩

/-- What is received while a session is established comes through it. -/
theorem obtained_secured {s t : StreamSystem} (h : StreamInv s) (hs : streamStep s a = some t) :
    ∀ o ∈ s.obtained a, o.secured = s.conn.sp.sslConn.isSome := by
  intro o ho
  cases streamStep_move h hs with
  | rest moving _ =>
    rw [StreamSystem.obtained, moving] at ho
    cases ho
  | @work c c' e m stage stage' moving step sp _ _ _ _ =>
    rw [StreamSystem.obtained, moving] at ho
    cases m with
    | process m =>
      cases m with
      | receive data =>
        simp only [StageMove.obtained] at ho
        split at ho
        · obtain ⟨v, _, rfl⟩ := List.mem_map.mp ho
          rw [sp]
        · cases ho
      | _ => cases ho
    | _ => cases ho

/-- What is handed over lies in the receive buffer. -/
theorem delivered_take {s t : StreamSystem} (h : StreamInv s) (hs : streamStep s a = some t) :
    ∃ count, s.delivered a = s.conn.receiveBuffer.take count := by
  cases streamStep_move h hs with
  | rest moving _ => exact ⟨0, by rw [StreamSystem.delivered, moving]; rfl⟩
  | @work c c' e m stage stage' moving step _ buffer _ _ _ =>
    rw [StreamSystem.delivered, moving]
    split
    next heq =>
      cases heq
      exact ⟨_, by rw [buffer]⟩
    · exact ⟨0, rfl⟩

/-- The octets handed over in one step. -/
theorem Sealed.handOver (h : Sealed r) (count : ℕ) :
    ∀ d ∈ (r.system.conn.receiveBuffer.take count).mapIdx (fun i o => Delivery.mk
      (r.book.received.length - r.system.conn.receiveBuffer.length + i) o r.book.sealedAt
        r.system.conn.sp.sslConn.isSome), d.Sound r.book.received := by
  intro d hd
  obtain ⟨i, hi, rfl⟩ := List.mem_mapIdx.mp hd
  obtain ⟨before, hreceived⟩ := h.buffer
  have hlength : r.book.received.length - r.system.conn.receiveBuffer.length = before.length := by
    rw [← hreceived, List.length_append]
    omega
  have hindex : r.book.received[before.length + i]? = some (r.system.conn.receiveBuffer.take count)[i] := by
    rw [← hreceived, List.getElem?_append_right (Nat.le_add_right _ _), Nat.add_sub_cancel_left, List.getElem_take]
    exact List.getElem?_eq_getElem _
  have hlater : ∀ n, r.book.sealedAt = some n → n ≤ before.length + i := by
    intro n hn
    have hle := h.sealed n hn
    omega
  rw [hlength]
  refine ⟨hindex, hlater, fun hsecured => ?_⟩
  obtain ⟨n, hn, hall⟩ := h.secured (Option.isSome_iff_ne_none.mp hsecured)
  refine hall _ (List.mem_of_getElem? (i := before.length + i - n) ?_)
  rw [List.getElem?_drop, Nat.add_sub_of_le (hlater n hn)]
  exact hindex

/-- **Every step (proved):** what is handed over is sound. -/
theorem recordedStep_sealed (hinv : StreamInv r.system) (h : Sealed r) (hs : recordedStep r a = some t) : Sealed t := by
  obtain ⟨s', hstep, rfl⟩ := Option.map_eq_some_iff.mp hs
  obtain ⟨n, hn⟩ := streamStep_buffer hinv hstep
  have hobtained := obtained_secured hinv hstep
  have hsuffix : s'.conn.receiveBuffer <:+ r.book.received ++ r.system.obtained a := by
    rw [hn]
    exact (List.drop_suffix _ _).trans ((List.suffix_append_self_iff).mpr h.buffer)
  have hshort : s'.conn.receiveBuffer.length ≤ r.system.conn.receiveBuffer.length + (r.system.obtained a).length := by
    rw [hn, List.length_drop, List.length_append]
    omega
  refine ⟨hsuffix, fun k hk => ?_, fun hsecured => ?_, fun d hd => ?_⟩
  · simp only [Book.record, List.length_append] at hk ⊢
    split at hk
    next hnew =>
      -- a handshake completes
      cases hk
      rcases streamStep_session hinv hstep with hsame | ⟨_, _, hempty, _⟩ | ⟨hnone, _⟩
      · exact absurd (hsame.trans hnew.1) hnew.2
      · rw [hempty, List.length_nil]
        omega
      · exact absurd hnone hnew.2
    · have hle := h.sealed k hk
      omega
  · rcases streamStep_session hinv hstep with hsame | ⟨hclear, _, _, hnothing⟩ | ⟨hnone, _⟩
    · have hbefore : r.system.conn.sp.sslConn ≠ none := hsame ▸ hsecured
      obtain ⟨k, hk, hall⟩ := h.secured hbefore
      refine ⟨k, ?_, ?_⟩
      · simp only [Book.record]
        rw [if_neg (fun hnew => hbefore hnew.1), hk]
      · have hle := h.sealed k hk
        show ∀ o ∈ (r.book.received ++ r.system.obtained a).drop k, o.secured = true
        rw [List.drop_append_of_le_length (by omega)]
        intro o ho
        rcases List.mem_append.mp ho with ho | ho
        · exact hall o ho
        · rw [hobtained o ho]
          exact Option.isSome_iff_ne_none.mpr hbefore
    · refine ⟨r.book.received.length, ?_, ?_⟩
      · simp only [Book.record]
        rw [if_pos ⟨hclear, hsecured⟩]
      · show ∀ o ∈ (r.book.received ++ r.system.obtained a).drop r.book.received.length, o.secured = true
        rw [hnothing, List.append_nil, List.drop_length]
        exact fun o ho => by cases ho
    · exact absurd hnone hsecured
  · rcases List.mem_append.mp hd with hd | hd
    · exact (h.handed d hd).append _
    · obtain ⟨count, hcount⟩ := delivered_take hinv hstep
      rw [hcount] at hd
      exact (h.handOver count d hd).append _

end

/-! ### The event of a handshake -/

namespace StreamSystem

variable (s : StreamSystem)

/-- `ConnEventProcess` has returned `CONN_EVENT_COMPLETE` for the event. -/
def Completed (e : EventId) : Prop :=
  ⟨e, .returned .complete⟩ ∈ s.sys.workers ∨ ∃ h ∈ s.calls, h.event = e ∧ (s.task e).stage = .returned .complete

/-- **The event of a handshake is being processed:** by a thread of the queue or in the engine, or by a synchronous
call. -/
def Securing (e : EventId) : Prop :=
  (e ∈ s.sys.processing ∧ (s.conn.typeOf e).isHandshake = true ∧ ¬ s.Completed e) ∨
    ∃ h ∈ s.calls, h.event = e ∧ (s.task e).ce.type.isHandshake = true ∧ (s.task e).stage.isReturned = false

/-- **The handshake completes:** from `s` on its event is being processed, until it has completed in `t`. -/
def Completes (e : EventId) (t : StreamSystem) : Prop :=
  ∃ u a, ReachableVia (enabled streamStep) (fun v _ => v.Securing e) s u ∧ u.Securing e ∧ streamStep u a = some t ∧
    t.Completed e

/-- The conn with other octets left in its receive buffer. -/
def withBuffer (receiveBuffer : List Octet) : StreamSystem :=
  s.setConn { s.conn with receiveBuffer := receiveBuffer }

end StreamSystem

section

variable {s t : StreamSystem} {a : StreamAction} {e : EventId}

/-- Beside the event of a synchronous handshake no other call works. -/
theorem StreamInv.securing_call (h : StreamInv s) {x : SyncCall} (hx : x ∈ s.calls)
    (htype : (s.task x.event).ce.type.isHandshake = true) (hbusy : (s.task x.event).stage.isReturned = false)
    (hs : streamStep s a = some t) :
    t.conn.receiveBuffer = s.conn.receiveBuffer ∧ (t.Completed x.event → s.conn.receiveBuffer = []) := by
  have hapart := h.standing.apart_of hx
  obtain ⟨hkind, hcalls⟩ := hapart.handshake hx htype
  have hself : ∀ y ∈ s.calls, y = x := by
    rw [hcalls]
    exact fun y hy => List.mem_singleton.mp hy
  have hrest : ∀ {u : StreamSystem}, u.sys.workers = s.sys.workers → (u.task x.event).stage ≠ .returned .complete →
      u.Completed x.event → s.conn.receiveBuffer = [] := by
    rintro u hworkers hstage (hmem | ⟨_, _, _, hcomplete⟩)
    · rw [hworkers, hapart.workers] at hmem
      cases hmem
    · exact absurd hcomplete hstage
  have hbusy' : (s.task x.event).stage ≠ .returned .complete := by
    intro heq
    rw [heq] at hbusy
    cases hbusy
  have hwaited : ∀ err, (s.waited x err).conn.receiveBuffer = s.conn.receiveBuffer ∧
      ((s.waited x err).Completed x.event → s.conn.receiveBuffer = []) := by
    intro err
    unfold StreamSystem.waited
    split <;>
    · refine ⟨rfl, hrest rfl fun heq => ?_⟩
      rw [StreamSystem.setTask_task] at heq
      cases heq
  cases a with
  | async a =>
    simp only [streamStep] at hs
    split at hs
    next hq =>
      rw [(h.standing.toQueue hq).2] at hcalls
      cases hcalls
    · cases hs
  | enter kind e =>
    -- the connect slot is not empty
    simp only [streamStep, StreamSystem.enter] at hs
    split at hs
    · split at hs <;> cases hs
      next hok =>
        obtain ⟨_, _, _, _, hconnect, _⟩ := insert_ok hok
        have hslot := hapart.holds x hx
        rw [show x.slot = .connect by rw [SyncCall.slot, hkind]] at hslot
        cases hconnect.symm.trans hslot
    · cases hs
  | assign y ce =>
    simp only [streamStep] at hs
    split at hs <;> cases hs
    next hy =>
      rw [hself y hy.1, hbusy] at hy
      cases hy.2.1
  | work y m =>
    simp only [streamStep] at hs
    split at hs
    · cases hs
    · split at hs
      next hy =>
        obtain rfl := hself y hy
        obtain ⟨⟨stage, c⟩, hprocess, rfl⟩ := Option.map_eq_some_iff.mp hs
        obtain ⟨hsame, _, hcomplete⟩ := eventProcessStep_sealed (s.callConn_typeOf y ▸ htype) hprocess
        refine ⟨hsame, ?_⟩
        by_cases hstage : stage = .returned .complete
        · exact fun _ => h.empty (.inr ⟨y, hy, hcomplete hstage⟩)
        · refine hrest rfl fun heq => hstage ?_
          have heq : (Function.update s.task y.event ⟨c.events y.event, stage⟩ y.event).stage = _ := heq
          rwa [Function.update_self] at heq
      · cases hs
  | wait y answer =>
    simp only [streamStep] at hs
    split at hs
    · split at hs
      next hy =>
        obtain rfl := hself y hy
        obtain ⟨err, _, rfl⟩ := Option.map_eq_some_iff.mp hs
        exact hwaited err
      · cases hs
    · cases hs
  | giveUp y =>
    simp only [streamStep] at hs
    split at hs
    · split at hs <;> cases hs
      next hy =>
        obtain rfl := hself y hy.1
        exact hwaited _
    · cases hs
  | sendBuffer y used =>
    simp only [streamStep] at hs
    split at hs <;> cases hs
    exact ⟨rfl, hrest rfl hbusy'⟩
  | close source =>
    have hsame : t.conn.receiveBuffer = s.conn.receiveBuffer := by
      cases streamStep_move h hs with
      | work moving => cases moving
      | rest _ same => exact same.receiveBuffer
    simp only [streamStep] at hs
    split at hs <;> cases hs
    exact ⟨hsame, hrest rfl hbusy'⟩
  | leave y =>
    simp only [streamStep] at hs
    split at hs <;> cases hs
    next hy =>
      rw [hself y hy.1, hbusy] at hy
      cases hy.2

/-- Beside the event of an asynchronous handshake no other event is processed. -/
theorem StreamInv.securing_queue (h : StreamInv s) (hprocessing : e ∈ s.sys.processing)
    (htype : (s.conn.typeOf e).isHandshake = true) (hcompleted : ¬ s.Completed e) (hs : streamStep s a = some t) :
    t.conn.receiveBuffer = s.conn.receiveBuffer ∧ (t.Completed e → s.conn.receiveBuffer = []) := by
  cases h.standing with
  | apart apart =>
    -- nothing is processed beside synchronous calls
    have hslot := apart.inv.slot_of_processing (x := e) hprocessing
    cases hc : s.rested.conn.classOf e <;> rw [hc] at hslot <;> cases hslot
  | queue inv calls =>
    have hclass := (ConnEventType.class_of_isHandshake htype).1
    have hnone : ∀ y ∈ s.calls, False := by
      rw [calls]
      exact fun y hy => by cases hy
    have hbusy : s.conn.state ≠ .idle ∧ s.conn.state ≠ .synchronous := by
      rcases inv.busy_of_slot (inv.slot_of_processing hprocessing) with hs | hs
      · exact ⟨fun heq => (by cases heq.symm.trans hs), fun heq => (by cases heq.symm.trans hs)⟩
      · exact ⟨fun heq => (by cases heq.symm.trans hs), fun heq => (by cases heq.symm.trans hs)⟩
    cases a with
    | async a =>
      simp only [streamStep] at hs
      split at hs
      · obtain ⟨sys, hstep, rfl⟩ := Option.map_eq_some_iff.mp hs
        -- the event completes in a thread of the queue
        suffices hworkers : sys.conn.receiveBuffer = s.conn.receiveBuffer ∧
            (⟨e, .returned .complete⟩ ∈ sys.workers → s.conn.receiveBuffer = []) by
          refine ⟨hworkers.1, ?_⟩
          rintro (hmem | ⟨y, hy, _⟩)
          · exact hworkers.2 hmem
          · exact (hnone y hy).elim
        by_cases hwork : ∃ w m, a = .work w m
        · obtain ⟨w, m, rfl⟩ := hwork
          simp only [asyncStep] at hstep
          split at hstep
          next hw =>
            split at hstep <;> cases hstep
            next stage c hprocess =>
              have hholding := (eventProcessStep_local inv.socket hprocess).holding
              have hmine : w.event = e :=
                inv.connect_alone hprocessing hclass (AsyncSystem.processing_of_worker hw hholding)
              rw [← hmine] at htype hcompleted ⊢
              obtain ⟨hsame, _, hcomplete⟩ := eventProcessStep_sealed htype hprocess
              refine ⟨hsame, fun hmem => ?_⟩
              rcases List.mem_cons.mp hmem with heq | hmem
              · cases heq
                exact h.empty (.inl ⟨w, hw, hcomplete rfl⟩)
              · exact absurd (.inl (List.mem_of_mem_erase hmem)) hcompleted
          · cases hstep
        · have hother := asyncStep_other inv hstep fun w m heq => hwork ⟨w, m, heq⟩
          refine ⟨hother.receiveBuffer, fun hmem => ?_⟩
          rcases hother.workers _ hmem with hold | ⟨freeList, hdestroying⟩
          · exact absurd (.inl hold) hcompleted
          · cases hdestroying
      · cases hs
    | enter kind x =>
      simp only [streamStep, StreamSystem.enter] at hs
      split at hs
      · split at hs <;> cases hs
        next hok => exact absurd (insert_frame hok).1 (not_or.mpr hbusy)
      · cases hs
    | close source =>
      simp only [streamStep] at hs
      rw [if_neg (not_or.mpr hbusy)] at hs
      cases hs
    | assign x | sendBuffer x | leave x =>
      simp only [streamStep] at hs
      split at hs <;> cases hs
      next hx => first | exact (hnone x hx).elim | exact (hnone x hx.1).elim
    | work x m =>
      simp only [streamStep] at hs
      split at hs
      · cases hs
      · split at hs
        next hx => exact (hnone x hx).elim
        · cases hs
    | wait x | giveUp x =>
      simp only [streamStep] at hs
      split at hs
      · split at hs
        next hx => first | exact (hnone x hx).elim | exact (hnone x hx.1).elim
        · cases hs
      · cases hs

/-- **Beside the event of a handshake (proved)** nothing is received, and it completes on an empty receive buffer. -/
theorem streamStep_securing (h : StreamInv s) (hsecuring : s.Securing e) (hs : streamStep s a = some t) :
    t.conn.receiveBuffer = s.conn.receiveBuffer ∧ (t.Completed e → s.conn.receiveBuffer = []) := by
  rcases hsecuring with ⟨hprocessing, htype, hcompleted⟩ | ⟨x, hx, rfl, htype, hbusy⟩
  · exact h.securing_queue hprocessing htype hcompleted hs
  · exact h.securing_call hx htype hbusy hs

/-- A handshake that completes has found nothing in the receive buffer. -/
theorem Completes.empty (h : StreamInv s) (hcompletes : s.Completes e t) : s.conn.receiveBuffer = [] := by
  obtain ⟨u, a, hrun, hsecuring, hstep, hcompleted⟩ := hcompletes
  have hkept : StreamInv u ∧ u.conn.receiveBuffer = s.conn.receiveBuffer := by
    refine hrun.invariant (P := fun u => StreamInv u ∧ u.conn.receiveBuffer = s.conn.receiveBuffer) ⟨h, rfl⟩ ?_
    rintro u a v ⟨hinv, hsame⟩ hsecuring hstep
    exact ⟨streamStep_inv hinv hstep, (streamStep_securing hinv hsecuring hstep).1.trans hsame⟩
  exact hkept.2.symm.trans ((streamStep_securing hkept.1 hsecuring hstep).2 hcompleted)

end

/-! ### Every run -/

/-- **Nothing is injected.** -/
structure NoInjection (r : Recorded) : Prop where
  /-- what is handed over has been received after the last handshake, and on an established session it has come through
  SSL -/
  sound : ∀ d ∈ r.book.handed, d.Sound r.book.received
  /-- a handshake does not complete while octets are left that no read has consumed -/
  complete : ∀ e t, r.system.Completes e t → r.system.conn.receiveBuffer = []
  /-- **two runs** that differ in these octets are one from here on when the handshake completes in both -/
  twoRuns : ∀ r₀' r' receiveBuffer e t t', r₀'.Initial → Reachable (enabled recordedStep) r₀' r' →
    r'.system = r.system.withBuffer receiveBuffer → r.system.Completes e t → r'.system.Completes e t' →
      r'.system = r.system

section

variable {r₀ r : Recorded}

theorem reachable_sealed (hinit : r₀.Initial) (hrun : Reachable (enabled recordedStep) r₀ r) :
    StreamInv r.system ∧ Sealed r := by
  have hstart : StreamInv r₀.system ∧ Sealed r₀ := by
    refine ⟨.initial hinit.1, ?_, fun n hn => ?_, fun hsecured => absurd hinit.1.sslConn hsecured, fun d hd => ?_⟩
    · rw [hinit.1.receiveBuffer]
      exact List.nil_suffix
    · rw [hinit.2] at hn
      cases hn
    · rw [hinit.2] at hd
      cases hd
  refine hrun.invariant (P := fun r => StreamInv r.system ∧ Sealed r) hstart ?_
  rintro r a t ⟨hinv, hsealed⟩ _ hstep
  refine ⟨?_, recordedStep_sealed hinv hsealed hstep⟩
  obtain ⟨s', hs', rfl⟩ := Option.map_eq_some_iff.mp hstep
  exact streamStep_inv hinv hs'

/-- **Every run (proved):** nothing is injected before a handshake. -/
theorem reachable_noInjection (hinit : r₀.Initial) (hrun : Reachable (enabled recordedStep) r₀ r) : NoInjection r := by
  obtain ⟨hinv, hsealed⟩ := reachable_sealed hinit hrun
  refine ⟨hsealed.handed, fun e t => Completes.empty hinv, ?_⟩
  intro r₀' r' receiveBuffer e t t' hinit' hrun' heq hcompletes hcompletes'
  have hempty := Completes.empty hinv hcompletes
  have hempty' := Completes.empty (reachable_sealed hinit' hrun').1 hcompletes'
  have hbuffer : receiveBuffer = [] := by
    rw [heq] at hempty'
    exact hempty'
  rw [heq, hbuffer, ← hempty]
  rfl

/-- A synchronous read receives an octet, and hands it over. -/
def readOctetRun : List StreamAction :=
  [.enter .receive 7, .assign ⟨.receive, 7, false⟩ { type := .read, source := ⟨0, 5⟩, ioBuffer := true },
    .work ⟨.receive, 7, false⟩ .test, .work ⟨.receive, 7, false⟩ (.process (.receive [65])),
    .work ⟨.receive, 7, false⟩ (.process (.deliver 1 1))]

/-- A client secures its conn, and reads. -/
theorem reachable_noInjection_client : ∃ r, NoInjection r ∧ r.book.handed = [⟨0, ⟨65, true⟩, some 0, true⟩] := by
  have hseen : (runFrom recordedStep (.new (some 3))
      (tlsRun 0 [] .success ++ .async (.relock ⟨0, .returned .complete⟩) :: endRun ++ readOctetRun)).map
        (fun r => r.book.handed) = some [⟨0, ⟨65, true⟩, some 0, true⟩] := by decide +kernel
  obtain ⟨r, hr, hobs⟩ := Option.map_eq_some_iff.mp hseen
  exact ⟨r, reachable_noInjection (Recorded.new_initial (some 3)) (reachable_of_runFrom hr), hobs⟩

/-- A synchronous call leaves the session. -/
def sslDisconnectRun : List StreamAction :=
  [.enter .connect 6, .assign ⟨.connect, 6, false⟩ { type := .sslDisconnect, source := ⟨0, 6⟩ },
    .work ⟨.connect, 6, false⟩ .test, .work ⟨.connect, 6, false⟩ (.process (.shutdown .success)),
    .leave ⟨.connect, 6, false⟩]

/-- **After an SSL disconnect octets come in clear (proved),** though a handshake has completed before. -/
theorem clear_after_disconnect : ¬ ∀ r₀ r : Recorded, r₀.Initial → Reachable (enabled recordedStep) r₀ r →
    ∀ d ∈ r.book.handed, d.sealedAt ≠ none → d.octet.secured = true := by
  intro hall
  have hseen : (runFrom recordedStep (.new (some 3)) (tlsRun 0 [] .success ++
      .async (.relock ⟨0, .returned .complete⟩) :: endRun ++ sslDisconnectRun ++ readOctetRun)).map
        (fun r => r.book.handed) = some [⟨0, ⟨65, false⟩, some 0, false⟩] := by decide +kernel
  obtain ⟨r, hr, hobs⟩ := Option.map_eq_some_iff.mp hseen
  have hbad := hall _ r (Recorded.new_initial (some 3)) (reachable_of_runFrom hr) ⟨0, ⟨65, false⟩, some 0, false⟩
  rw [hobs] at hbad
  exact absurd (hbad (List.mem_singleton.mpr rfl) (Option.some_ne_none 0)) Bool.false_ne_true

end

end Connio
