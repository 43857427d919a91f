import Connio.Stream

/-!
# Who may receive beside a handshake

* `StreamApart`, `StreamStanding` — a conn apart from its queue, and where a conn stands;
* `StreamInv` — no octet is in the receive buffer when the event of a handshake is about to call SSL;
* `streamStep_inv` — **PROVED**: every step keeps it, by the slots of the synchronous calls and by the barrier of the
  queue;
* `streamStep_buffer`, `streamStep_session` — **PROVED**: what a step does to the receive buffer and to the session.
-/

namespace Connio

open Connio.Lib

/-- The queue beside synchronous calls: that of an idle conn with empty slots. -/
def StreamSystem.rested (s : StreamSystem) : AsyncSystem :=
  { s.sys with conn := { s.conn with state := .idle, activeEvent := ⟨none, none, none⟩ } }

/-- **A conn in synchronous calls,** or idle. -/
structure StreamApart (s : StreamSystem) : Prop where
  state : s.conn.state = .idle ∨ s.conn.state = .synchronous
  inv : AsyncInv s.rested
  /-- each call is in its slot -/
  holds : ∀ h ∈ s.calls, s.conn.activeEvent.get h.slot = some h.event
  slots : (s.calls.map SyncCall.slot).Nodup
  events : (s.calls.map SyncCall.event).Nodup
  /-- a call that connects has the conn for itself -/
  alone : ∀ h ∈ s.calls, h.kind = .connect → s.calls = [h]
  serves : ∀ h ∈ s.calls, h.serves (s.task h.event).ce.type = true

/-- **Where a conn stands:** with its queue, or apart from it. -/
inductive StreamStanding (s : StreamSystem) : Prop
  | queue (inv : AsyncInv s.sys) (calls : s.calls = [])
  | apart (apart : StreamApart s)

/-- The event of a handshake is about to call SSL. -/
def StreamSystem.Handshaking (s : StreamSystem) : Prop :=
  (∃ w ∈ s.sys.workers, w.stage = .handshaking) ∨ ∃ h ∈ s.calls, (s.task h.event).stage = .handshaking

/-- **The receive buffer is empty when the event of a handshake is about to call SSL.** -/
structure StreamInv (s : StreamSystem) : Prop where
  standing : StreamStanding s
  workers : ∀ w ∈ s.sys.workers, w.stage = .handshaking → (s.conn.typeOf w.event).isHandshake = true
  calls : ∀ h ∈ s.calls, (s.task h.event).stage = .handshaking → (s.task h.event).ce.type.isHandshake = true
  empty : s.Handshaking → s.conn.receiveBuffer = []

section

variable {s t : StreamSystem}

/-! ### Slots -/

theorem StreamSystem.rested_of_idle (hidle : s.conn.state = .idle) (hempty : ∀ k, s.conn.activeEvent.get k = none) :
    s.rested = s.sys := by
  have hslots := Slots.eq_empty hempty
  obtain ⟨⟨conn, _⟩, _⟩ := s
  obtain ⟨_⟩ := conn
  simp only [StreamSystem.conn] at hidle hslots
  subst hidle hslots
  rfl

/-- No thread is inside `ConnEventsProcess` beside a synchronous call. -/
theorem StreamApart.workers (h : StreamApart s) : s.sys.workers = [] := by
  have hidle := h.inv.queue.state.idle rfl
  exact List.eq_nil_of_length_eq_zero (h.inv.threads.symm.trans hidle.2.2)

/-- **An idle conn with empty slots is with its queue again.** -/
theorem StreamApart.queue (h : StreamApart s) (hq : s.Queueing) : AsyncInv s.sys ∧ s.calls = [] := by
  have hidle : s.conn.state = .idle ∧ connEventsInProgress s.conn = false := by
    rcases hq with hq | hq
    · exact hq
    · rcases h.state with hs | hs <;> rw [hs] at hq <;> simp at hq
  have hempty := empty_of_connEventsInProgress hidle.2
  refine ⟨StreamSystem.rested_of_idle hidle.1 hempty ▸ h.inv, List.eq_nil_iff_forall_not_mem.mpr fun x hx => ?_⟩
  have hslot := h.holds x hx
  rw [hempty] at hslot
  cases hslot

theorem StreamStanding.toQueue (h : StreamStanding s) (hq : s.Queueing) : AsyncInv s.sys ∧ s.calls = [] := by
  cases h with
  | queue inv calls => exact ⟨inv, calls⟩
  | apart apart => exact apart.queue hq

/-- A conn that is idle or in synchronous calls is apart from its queue. -/
theorem StreamStanding.toApart (h : StreamStanding s) (hstate : s.conn.state = .idle ∨ s.conn.state = .synchronous) :
    StreamApart s := by
  cases h with
  | apart apart => exact apart
  | queue inv calls =>
    have hidle : s.conn.state = .idle := by
      refine hstate.resolve_right fun hsync => ?_
      rcases inv.queue.state.async with hs | hs | hs | hs <;> exact absurd (hsync.symm.trans hs) (by decide)
    have hempty : ∀ k, s.conn.activeEvent.get k = none := (inv.queue.state.idle hidle).2.1
    have hrested := StreamSystem.rested_of_idle hidle hempty
    refine ⟨.inl hidle, hrested.symm ▸ inv, ?_, ?_, ?_, ?_, ?_⟩ <;> rw [calls]
    · exact fun x hx => by cases hx
    · exact List.nodup_nil
    · exact List.nodup_nil
    · exact fun x hx => by cases hx
    · exact fun x hx => by cases hx

/-- A conn that is worked on by a synchronous call is apart from its queue. -/
theorem StreamStanding.apart_of (h : StreamStanding s) {x : SyncCall} (hx : x ∈ s.calls) : StreamApart s := by
  cases h with
  | apart apart => exact apart
  | queue inv calls =>
    rw [calls] at hx
    cases hx

/-- A synchronous call enters. -/
theorem StreamApart.enter (h : StreamApart s) {kind : ConnEventClass} {e : EventId}
    (hnew : ∀ x ∈ s.calls, x.event ≠ e) (ht : s.enter kind e = some t) : StreamApart t := by
  unfold StreamSystem.enter at ht
  split at ht <;> cases ht
  next x c hok =>
    obtain ⟨hkind, hevent, hstate, _, hconnect, _, hall, _⟩ := insert_ok hok
    obtain ⟨_, hframe⟩ := insert_frame hok
    have hinv := h.inv.buffers c.sendBuffer s.conn.receiveBuffer s.conn.sp
    refine ⟨.inr hstate, ?_, insert_holds hok h.holds, insert_slots_nodup hok h.holds h.slots, ?_, ?_, ?_⟩
    · show AsyncInv { s.sys with conn := { c with state := .idle, activeEvent := ⟨none, none, none⟩ } }
      rw [hframe]
      exact hinv
    · refine List.nodup_cons.mpr ⟨fun hmem => ?_, h.events⟩
      obtain ⟨y, hy, heq⟩ := List.mem_map.mp hmem
      exact hnew y hy (heq.trans hevent)
    · show ∀ y ∈ x :: s.calls, y.kind = .connect → x :: s.calls = [y]
      intro y hy hyconnect
      rcases List.mem_cons.mp hy with rfl | hy
      · -- every slot was empty
        have hnone : s.calls = [] := by
          refine List.eq_nil_iff_forall_not_mem.mpr fun z hz => ?_
          have hslot := h.holds z hz
          rw [hall (hkind.symm.trans hyconnect)] at hslot
          cases hslot
        rw [hnone]
      · -- the connect slot was not empty
        have hslot := h.holds y hy
        rw [show y.slot = .connect by rw [SyncCall.slot, hyconnect]] at hslot
        cases hconnect.symm.trans hslot
    · show ∀ y ∈ x :: s.calls, y.serves (Function.update s.task e .init y.event).ce.type = true
      intro y hy
      rcases List.mem_cons.mp hy with rfl | hy
      · rw [hevent, Function.update_self, SyncCall.serves]
        exact Bool.or_true _
      · rw [Function.update_of_ne (hnew y hy)]
        exact h.serves y hy

/-- A synchronous call leaves. -/
theorem StreamApart.leave (h : StreamApart s) {x : SyncCall} (hx : x ∈ s.calls) : StreamApart (s.leave x) := by
  have hslots : ((s.calls.erase x).map SyncCall.slot).Nodup := (List.erase_sublist.map _).nodup h.slots
  have hevents : ((s.calls.erase x).map SyncCall.event).Nodup := (List.erase_sublist.map _).nodup h.events
  have halone : ∀ y ∈ s.calls.erase x, y.kind = .connect → s.calls.erase x = [y] := by
    intro y hy hyconnect
    have hcalls := h.alone y (List.mem_of_mem_erase hy) hyconnect
    rw [hcalls] at hx hy
    rw [List.mem_singleton.mp hx, List.erase_cons_head] at hy
    cases hy
  have hserves : ∀ y ∈ s.calls.erase x, y.serves (s.task y.event).ce.type = true :=
    fun y hy => h.serves y (List.mem_of_mem_erase hy)
  unfold StreamSystem.leave
  split
  next c hok =>
    obtain ⟨_, hstate, hframe⟩ := remove_frame hok
    rw [hframe]
    exact ⟨hstate, h.inv, erase_holds h.slots hx h.holds, hslots, hevents, halone, hserves⟩
  · exact ⟨h.state, h.inv, fun y hy => h.holds y (List.mem_of_mem_erase hy), hslots, hevents, halone, hserves⟩

/-- A synchronous call works on the buffers, on the socket and on its event. -/
theorem StreamApart.io (h : StreamApart s) (sendBuffer : Option ℕ) (receiveBuffer : List Octet) (sp : SOCK)
    {task : EventId → SyncTask} (hserves : ∀ y ∈ s.calls, y.serves (task y.event).ce.type = true) :
    StreamApart { s.setConn { s.conn with
        sp := { sp with event := s.conn.sp.event }
        sendBuffer := sendBuffer
        receiveBuffer := receiveBuffer } with task := task } :=
  ⟨h.state, h.inv.buffers sendBuffer receiveBuffer sp, h.holds, h.slots, h.events, h.alone, hserves⟩

/-- The events of two calls lie at different addresses. -/
theorem StreamApart.call_eq (h : StreamApart s) {x y : SyncCall} (hx : x ∈ s.calls) (hy : y ∈ s.calls)
    (heq : y.event = x.event) : y = x :=
  List.inj_on_of_nodup_map h.events hy hx heq

/-- One event changes, and is still one of its call's. -/
theorem StreamApart.serves_update (h : StreamApart s) {x : SyncCall} (hx : x ∈ s.calls) (task : SyncTask)
    (hserve : x.serves task.ce.type = true) :
    ∀ y ∈ s.calls, y.serves (Function.update s.task x.event task y.event).ce.type = true := by
  intro y hy
  by_cases heq : y.event = x.event
  · rw [heq, Function.update_self, h.call_eq hx hy heq]
    exact hserve
  · rw [Function.update_of_ne heq]
    exact h.serves y hy

theorem ConnEventType.class_of_isHandshake {type : ConnEventType} (h : type.isHandshake = true) :
    type.eventClass = .connect ∧ type ≠ .flush := by
  cases type <;> first | cases h; done | exact ⟨rfl, fun heq => by cases heq⟩

/-- The event of a handshake is that of a call which holds the connect slot, and has the conn for itself. -/
theorem StreamApart.handshake (h : StreamApart s) {x : SyncCall} (hx : x ∈ s.calls)
    (htype : (s.task x.event).ce.type.isHandshake = true) : x.kind = .connect ∧ s.calls = [x] := by
  obtain ⟨hclass, hflush⟩ := ConnEventType.class_of_isHandshake htype
  have hserve := h.serves x hx
  rw [SyncCall.serves, hclass, decide_eq_false hflush, Bool.or_false] at hserve
  have hkind : x.kind = .connect := (of_decide_eq_true hserve).symm
  exact ⟨hkind, h.alone x hx hkind⟩

/-! ### The receive buffer -/

/-- A step in which no handshake comes to its SSL call and the receive buffer stays. -/
theorem StreamInv.keep (h : StreamInv s) (hapart : StreamApart t) (hbuffer : t.conn.receiveBuffer = s.conn.receiveBuffer)
    (hcalls : ∀ y ∈ t.calls, (t.task y.event).stage = .handshaking → y ∈ s.calls ∧ t.task y.event = s.task y.event) :
    StreamInv t := by
  have hnone : ∀ w ∈ t.sys.workers, w.stage = .handshaking → False := by
    rw [hapart.workers]
    exact fun w hw _ => by cases hw
  refine ⟨.apart hapart, fun w hw hstage => (hnone w hw hstage).elim, fun y hy hstage => ?_, fun hhand => ?_⟩
  · obtain ⟨hmem, htask⟩ := hcalls y hy hstage
    rw [htask] at hstage ⊢
    exact h.calls y hmem hstage
  · rw [hbuffer]
    rcases hhand with ⟨w, hw, hstage⟩ | ⟨y, hy, hstage⟩
    · exact (hnone w hw hstage).elim
    · obtain ⟨hmem, htask⟩ := hcalls y hy hstage
      rw [htask] at hstage
      exact h.empty (.inr ⟨y, hmem, hstage⟩)

/-- An event that is not about to call SSL changes. -/
theorem StreamInv.setTask (h : StreamInv s) {x : SyncCall} (hx : x ∈ s.calls) {ce : ConnEvent} {stage : Stage}
    (hserve : x.serves ce.type = true) (hstage : stage ≠ .handshaking) : StreamInv (s.setTask x ce stage) := by
  have hapart := h.standing.apart_of hx
  have hapart' := hapart.io s.conn.sendBuffer s.conn.receiveBuffer s.conn.sp
    (hapart.serves_update hx ⟨ce, stage⟩ hserve)
  refine h.keep hapart' rfl fun y hy hhand => ⟨hy, ?_⟩
  by_cases heq : y.event = x.event
  · have hhand : (Function.update s.task x.event ⟨ce, stage⟩ y.event).stage = .handshaking := hhand
    rw [heq, Function.update_self] at hhand
    exact absurd hhand hstage
  · exact Function.update_of_ne heq _ _

theorem StreamInv.waited (h : StreamInv s) {x : SyncCall} (hx : x ∈ s.calls) (err : Errno) :
    StreamInv (s.waited x err) := by
  have hserve := (h.standing.apart_of hx).serves x hx
  unfold StreamSystem.waited
  split <;> exact h.setTask hx hserve fun heq => by cases heq

/-- The event of a call keeps its type. -/
theorem StreamApart.typeOf (h : StreamApart s) {x : SyncCall} {m : StageMove} {stage : Stage} {c : Conn}
    (hstep : eventProcessStep (s.callConn x) x.event (s.task x.event).stage m = some (stage, c)) :
    (c.events x.event).type = (s.task x.event).ce.type := by
  have hok : (s.callConn x).sp.Ok := h.inv.socket
  have htype := congrFun (eventProcessStep_local hok hstep).quiet.typeOf x.event
  refine htype.trans ?_
  show (Function.update s.conn.events x.event (s.task x.event).ce x.event).type = _
  rw [Function.update_self]

theorem StreamSystem.callConn_typeOf (s : StreamSystem) (x : SyncCall) :
    (s.callConn x).typeOf x.event = (s.task x.event).ce.type := by
  show (Function.update s.conn.events x.event (s.task x.event).ce x.event).type = _
  rw [Function.update_self]

/-- **A step of a synchronous call (proved).** -/
theorem StreamInv.work (h : StreamInv s) {x : SyncCall} (hx : x ∈ s.calls) {m : StageMove} (ht : s.work x m = some t) :
    StreamInv t := by
  have hapart := h.standing.apart_of hx
  obtain ⟨⟨stage, c⟩, hstep, rfl⟩ := Option.map_eq_some_iff.mp ht
  have htype := hapart.typeOf hstep
  have hserve : x.serves (c.events x.event).type = true := htype ▸ hapart.serves x hx
  have hapart' := hapart.io s.conn.sendBuffer c.receiveBuffer c.sp
    (hapart.serves_update hx ⟨c.events x.event, stage⟩ hserve)
  have hnone : ∀ w ∈ s.sys.workers, w.stage = .handshaking → False := by
    rw [hapart.workers]
    exact fun w hw _ => by cases hw
  -- no other call is about to call SSL
  have hself : ∀ y ∈ s.calls, (Function.update s.task x.event ⟨c.events x.event, stage⟩ y.event).stage = .handshaking →
      y = x ∧ stage = .handshaking := by
    intro y hy hstage
    by_cases heq : y.event = x.event
    · rw [heq, Function.update_self] at hstage
      exact ⟨hapart.call_eq hx hy heq, hstage⟩
    · rw [Function.update_of_ne heq] at hstage
      have hcalls := (hapart.handshake hy (h.calls y hy hstage)).2
      rw [hcalls] at hx
      exact absurd (congrArg SyncCall.event (List.mem_singleton.mp hx)).symm heq
  have hhand : stage = .handshaking → (s.task x.event).ce.type.isHandshake = true := by
    rintro rfl
    exact s.callConn_typeOf x ▸ eventProcessStep_handshaking hstep
  refine ⟨.apart hapart', fun w hw hstage => (hnone w hw hstage).elim, fun y hy hstage => ?_, fun hhandshaking => ?_⟩
  · obtain ⟨rfl, hstage'⟩ := hself y hy hstage
    show (Function.update s.task y.event ⟨c.events y.event, stage⟩ y.event).ce.type.isHandshake = true
    rw [Function.update_self]
    exact htype ▸ hhand hstage'
  · rcases hhandshaking with ⟨w, hw, hstage⟩ | ⟨y, hy, hstage⟩
    · exact (hnone w hw hstage).elim
    · obtain ⟨_, hstage'⟩ := hself y hy hstage
      obtain ⟨hsame, hempty, _⟩ := eventProcessStep_sealed (s.callConn_typeOf x ▸ hhand hstage') hstep
      exact hsame.trans (hempty hstage')

/-- **A step of the queue (proved):** no other event is processed beside a handshake. -/
theorem StreamInv.async (h : StreamInv s) (hq : s.Queueing) {a : AsyncAction} {sys : AsyncSystem}
    (hs : asyncStep s.sys a = some sys) : StreamInv { s with sys := sys } := by
  obtain ⟨hinv, hcalls⟩ := h.standing.toQueue hq
  have hinv' := (asyncStep_effect hinv hs).1
  have hnone : ∀ y ∈ s.calls, False := by
    rw [hcalls]
    exact fun y hy => by cases hy
  suffices hworkers : ∀ w ∈ sys.workers, w.stage = .handshaking →
      (sys.conn.typeOf w.event).isHandshake = true ∧ sys.conn.receiveBuffer = [] by
    refine ⟨.queue hinv' hcalls, fun w hw hstage => (hworkers w hw hstage).1, fun y hy _ => (hnone y hy).elim, ?_⟩
    rintro (⟨w, hw, hstage⟩ | ⟨y, hy, _⟩)
    · exact (hworkers w hw hstage).2
    · exact (hnone y hy).elim
  intro w hw hstage
  have hkept : w ∈ s.sys.workers → (sys.conn.typeOf w.event).isHandshake = true := by
    intro hmem
    rw [asyncStep_typeOf hinv hs (hinv.worker_allocated hmem (by rw [hstage]; rfl))]
    exact h.workers w hmem hstage
  by_cases hwork : ∃ w₁ m, a = .work w₁ m
  · obtain ⟨w₁, m, rfl⟩ := hwork
    simp only [asyncStep] at hs
    split at hs
    next hw₁ =>
      split at hs <;> cases hs
      next stage c hstep =>
        have hlocal := eventProcessStep_local hinv.socket hstep
        rcases List.mem_cons.mp hw with rfl | hmem
        · -- the thread itself comes to its SSL call
          cases hstage
          have htype := eventProcessStep_handshaking hstep
          obtain ⟨hsame, hempty, _⟩ := eventProcessStep_sealed htype hstep
          refine ⟨?_, hsame.trans (hempty rfl)⟩
          rw [show c.typeOf w₁.event = _ from congrFun hlocal.quiet.typeOf w₁.event]
          exact htype
        · -- another thread is about to call SSL, and the barrier keeps this one out
          exfalso
          have hmem' := List.mem_of_mem_erase hmem
          have hclass := (ConnEventType.class_of_isHandshake (h.workers w hmem' hstage)).1
          have hholding : w.stage.holding = true := by
            rw [hstage]
            rfl
          have halone := hinv.connect_alone (AsyncSystem.processing_of_worker hmem' hholding) hclass
            (AsyncSystem.processing_of_worker hw₁ hlocal.holding)
          exact hinv.event_ne hw₁ hmem hlocal.holding hholding halone.symm
    · cases hs
  · have hother := asyncStep_other hinv hs fun w₁ m heq => hwork ⟨w₁, m, heq⟩
    rcases hother.workers w hw with hmem | ⟨freeList, hdestroying⟩
    · exact ⟨hkept hmem, hother.receiveBuffer.trans (h.empty (.inl ⟨w, hmem, hstage⟩))⟩
    · rw [hdestroying] at hstage
      cases hstage

/-- **Every step (proved):** when a handshake calls SSL the receive buffer is empty. -/
theorem streamStep_inv {a : StreamAction} (h : StreamInv s) (hs : streamStep s a = some t) : StreamInv t := by
  cases a with
  | async a =>
    simp only [streamStep] at hs
    split at hs
    next hq =>
      obtain ⟨sys, hstep, rfl⟩ := Option.map_eq_some_iff.mp hs
      exact h.async hq hstep
    · cases hs
  | enter kind e =>
    simp only [streamStep] at hs
    split at hs
    next hnew =>
      have hs' := hs
      unfold StreamSystem.enter at hs'
      split at hs' <;> cases hs'
      next x c hok =>
        obtain ⟨hstate, hframe⟩ := insert_frame hok
        obtain ⟨_, hevent, _⟩ := insert_ok hok
        have hbuffer := congrArg Conn.receiveBuffer hframe
        refine h.keep ((h.standing.toApart hstate).enter hnew hs) hbuffer ?_
        show ∀ y ∈ x :: s.calls, (Function.update s.task e .init y.event).stage = .handshaking → _
        intro y hy hstage
        rcases List.mem_cons.mp hy with rfl | hy
        · rw [hevent, Function.update_self] at hstage
          cases hstage
        · exact ⟨hy, Function.update_of_ne (hnew y hy) _ _⟩
    · cases hs
  | assign x ce =>
    simp only [streamStep] at hs
    split at hs <;> cases hs
    next hx => exact h.setTask hx.1 hx.2.2.1 fun heq => by cases heq
  | work x m =>
    simp only [streamStep] at hs
    split at hs
    · cases hs
    · split at hs
      next hx => exact h.work hx hs
      · cases hs
  | wait x answer =>
    simp only [streamStep] at hs
    split at hs
    · split at hs
      next hx =>
        obtain ⟨err, _, rfl⟩ := Option.map_eq_some_iff.mp hs
        exact h.waited hx err
      · cases hs
    · cases hs
  | giveUp x =>
    simp only [streamStep] at hs
    split at hs
    · split at hs <;> cases hs
      next hx => exact h.waited hx.1 _
    · cases hs
  | sendBuffer x used =>
    simp only [streamStep] at hs
    split at hs <;> cases hs
    next hx =>
      have hapart := h.standing.apart_of hx
      exact h.keep (hapart.io used s.conn.receiveBuffer s.conn.sp hapart.serves) rfl fun y hy _ => ⟨hy, rfl⟩
  | close source =>
    simp only [streamStep] at hs
    split at hs <;> cases hs
    next hstate =>
      have hapart := h.standing.toApart hstate
      have hclose : connKillEx s.conn source = { s.conn with sp := socketClose s.conn.sp } := by
        unfold connKillEx
        split <;> simp_all
      rw [hclose]
      exact h.keep (hapart.io s.conn.sendBuffer s.conn.receiveBuffer (socketClose s.conn.sp) hapart.serves) rfl
        fun y hy _ => ⟨hy, rfl⟩
  | leave x =>
    simp only [streamStep] at hs
    split at hs <;> cases hs
    next hx =>
      refine h.keep ((h.standing.apart_of hx.1).leave hx.1) ?_ ?_
      · unfold StreamSystem.leave
        split
        next c hok =>
          have hbuffer := congrArg Conn.receiveBuffer (remove_frame hok).2.2
          exact hbuffer
        · rfl
      · unfold StreamSystem.leave
        split <;> exact fun y hy _ => ⟨List.mem_of_mem_erase hy, rfl⟩

/-! ### The receive buffer and the session -/

/-- **What a step is:** one of a thread inside `ConnEventProcess`, or one that leaves the receive buffer and the session
alone. -/
inductive StreamMove (s : StreamSystem) (a : StreamAction) (t : StreamSystem) : Prop
  | work {c c' : Conn} {e : EventId} {m : StageMove} {stage stage' : Stage} (moving : s.moving a = some (c, e, m))
      (step : eventProcessStep c e stage m = some (stage', c')) (sp : c.sp = s.conn.sp)
      (buffer : c.receiveBuffer = s.conn.receiveBuffer) (after : SameSession c' t.conn)
      (number : t.conn.sp.number = c'.sp.number) (handshaking : stage = .handshaking → s.Handshaking)
  | rest (moving : s.moving a = none) (same : SameSession s.conn t.conn)

theorem streamStep_move {a : StreamAction} (h : StreamInv s) (hs : streamStep s a = some t) : StreamMove s a t := by
  cases a with
  | async a =>
    simp only [streamStep] at hs
    split at hs
    next hq =>
      obtain ⟨sys, hstep, rfl⟩ := Option.map_eq_some_iff.mp hs
      obtain ⟨hinv, _⟩ := h.standing.toQueue hq
      by_cases hwork : ∃ w m, a = .work w m
      · obtain ⟨w, m, rfl⟩ := hwork
        simp only [asyncStep] at hstep
        split at hstep
        next hw =>
          split at hstep <;> cases hstep
          next hprocess => exact .work rfl hprocess rfl rfl (.refl _) rfl fun hstage => .inl ⟨w, hw, hstage⟩
        · cases hstep
      · have hother := asyncStep_other hinv hstep fun w m heq => hwork ⟨w, m, heq⟩
        refine .rest ?_ ⟨hother.sslConn, hother.receiveBuffer⟩
        cases a <;> first | rfl | exact absurd ⟨_, _, rfl⟩ hwork
    · cases hs
  | work x m =>
    simp only [streamStep] at hs
    split at hs
    · cases hs
    · split at hs
      next hx =>
        obtain ⟨⟨stage, c⟩, hprocess, rfl⟩ := Option.map_eq_some_iff.mp hs
        exact .work rfl hprocess rfl rfl ⟨rfl, rfl⟩ rfl fun hstage => .inr ⟨x, hx, hstage⟩
      · cases hs
  | enter kind e =>
    simp only [streamStep, StreamSystem.enter] at hs
    split at hs
    · split at hs <;> cases hs
      next hok =>
        obtain ⟨_, hframe⟩ := insert_frame hok
        have hsp := congrArg (fun c => c.sp.sslConn) hframe
        have hbuffer := congrArg Conn.receiveBuffer hframe
        exact .rest rfl ⟨hsp, hbuffer⟩
    · cases hs
  | assign x ce =>
    simp only [streamStep] at hs
    split at hs <;> cases hs
    exact .rest rfl ⟨rfl, rfl⟩
  | wait x answer =>
    simp only [streamStep] at hs
    split at hs
    · split at hs
      · obtain ⟨err, _, rfl⟩ := Option.map_eq_some_iff.mp hs
        unfold StreamSystem.waited
        split <;> exact .rest rfl ⟨rfl, rfl⟩
      · cases hs
    · cases hs
  | giveUp x =>
    simp only [streamStep] at hs
    split at hs
    · split at hs <;> cases hs
      exact .rest rfl ⟨rfl, rfl⟩
    · cases hs
  | sendBuffer x used =>
    simp only [streamStep] at hs
    split at hs <;> cases hs
    exact .rest rfl ⟨rfl, rfl⟩
  | close source =>
    simp only [streamStep] at hs
    split at hs <;> cases hs
    next hstate =>
      refine .rest rfl ?_
      show SameSession s.conn (connKillEx s.conn source)
      unfold connKillEx
      split
      · exact ⟨rfl, rfl⟩
      · exact ⟨rfl, rfl⟩
      all_goals simp_all [SameSession.refl]
  | leave x =>
    simp only [streamStep] at hs
    split at hs <;> cases hs
    refine .rest rfl ?_
    unfold StreamSystem.leave
    split
    next hok =>
      obtain ⟨_, _, hframe⟩ := remove_frame hok
      have hsp := congrArg (fun c => c.sp.sslConn) hframe
      have hbuffer := congrArg Conn.receiveBuffer hframe
      exact ⟨hsp, hbuffer⟩
    · exact ⟨rfl, rfl⟩

/-- **The receive buffer (proved):** a step appends what it obtains and removes from the front. -/
theorem streamStep_buffer {a : StreamAction} (h : StreamInv s) (hs : streamStep s a = some t) :
    ∃ n, t.conn.receiveBuffer = (s.conn.receiveBuffer ++ s.obtained a).drop n := by
  cases streamStep_move h hs with
  | work moving step _ buffer after _ _ =>
    obtain ⟨n, hn⟩ := eventProcessStep_buffer step
    refine ⟨n, ?_⟩
    rw [after.receiveBuffer, hn, buffer, StreamSystem.obtained, moving]
  | rest moving same =>
    refine ⟨0, ?_⟩
    rw [same.receiveBuffer, StreamSystem.obtained, moving, List.append_nil, List.drop_zero]

/-- **The session (proved):** a handshake begins it on an empty receive buffer, an SSL disconnect that completes ends
it, and the abort of an event of SSL gives it up. -/
theorem streamStep_session {a : StreamAction} (h : StreamInv s) (hs : streamStep s a = some t) :
    t.conn.sp.sslConn = s.conn.sp.sslConn ∨
      (s.conn.sp.sslConn = none ∧ s.conn.receiveBuffer = [] ∧ t.conn.receiveBuffer = [] ∧ s.obtained a = []) ∨
      (t.conn.sp.sslConn = none ∧ (s.disconnects a = true ∨ s.abortsSession a = true)) := by
  cases streamStep_move h hs with
  | rest moving same => exact .inl same.sslConn
  | @work c c' e m stage stage' moving step sp buffer after _ handshaking =>
    rcases eventProcessStep_session step with hsame | ⟨rfl, hnone, hbuffer⟩ | ⟨hnone, hends⟩
    · exact .inl (after.sslConn.trans (hsame.trans (congrArg SOCK.sslConn sp)))
    · have hempty := h.empty (handshaking rfl)
      have hobtained : s.obtained a = [] := by
        rw [StreamSystem.obtained, moving]
        cases m with
        | process m => cases step
        | _ => rfl
      refine .inr (.inl ⟨(congrArg SOCK.sslConn sp).symm.trans hnone, hempty, ?_, hobtained⟩)
      rw [after.receiveBuffer, hbuffer, buffer, hempty]
    · have hnone' : t.conn.sp.sslConn = none := after.sslConn.trans hnone
      by_cases hsecured : s.conn.sp.sslConn = none
      · exact .inl (hnone'.trans hsecured.symm)
      · refine .inr (.inr ⟨hnone', ?_⟩)
        rcases hends with ⟨rfl, htype⟩ | ⟨rfl, haborts⟩
        · left
          rw [StreamSystem.disconnects, moving]
          simp only [htype, sp, decide_true, Bool.true_and]
          exact Option.isSome_iff_ne_none.mpr hsecured
        · right
          rw [StreamSystem.abortsSession, moving]
          exact haborts

/-- A new conn. -/
theorem StreamInv.initial (h : s.Initial) : StreamInv s := by
  have hworkers : ∀ w ∈ s.sys.workers, False := by
    rw [h.sys.workers]
    exact fun w hw => by cases hw
  have hcalls : ∀ y ∈ s.calls, False := by
    rw [h.calls]
    exact fun y hy => by cases hy
  exact ⟨.queue (.initial h.sys) h.calls, fun w hw _ => (hworkers w hw).elim, fun y hy _ => (hcalls y hy).elim,
    fun _ => h.receiveBuffer⟩

end

end Connio
