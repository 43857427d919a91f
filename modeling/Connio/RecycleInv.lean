import Connio.Custody
import Connio.Recycle

/-!
# What a free finds

* `Apart`, `Standing` — a conn that its queue does not work on, and all that a block can be at;
* `Standing.connFreeEx` — **PROVED**: `connFreeEx` refuses, or nothing works on the conn and it is recycled;
* `lifeStep_standing` — **PROVED**: every step keeps `Standing`;
* `LikeNew`, `reachable_recycled` — **PROVED**: in every history, a conn in the cache is like a new one.
-/

namespace Connio

open Connio.Lib

/-! ### The synchronous slots -/

/-- What an insert that succeeds finds, and what it writes. -/
theorem insert_frame {c c' : Conn} {kind : ConnEventClass} {e : EventId} {h : SyncCall}
    (hok : SyncCall.insert c kind e = .ok (h, c')) :
    (c.state = .idle ∨ c.state = .synchronous) ∧
      c' = { c with state := c'.state, activeEvent := c'.activeEvent, sendBuffer := c'.sendBuffer } := by
  cases kind with
  | connect =>
    simp only [SyncCall.insert, synchronousConnectEventInsert] at hok
    split_ifs at hok with hst hempty <;> cases hok
    exact ⟨.inl hst, rfl⟩
  | receive =>
    simp only [SyncCall.insert, synchronousReceiveEventInsert] at hok
    split_ifs at hok with hst hempty <;> cases hok
    all_goals
      refine ⟨hst, ?_⟩
      unfold bufferedSendDataGet
      cases hbuffer : (connChangeState c .synchronous).sendBuffer <;> rfl
  | send =>
    simp only [SyncCall.insert, synchronousSendEventInsert] at hok
    split_ifs at hok with hst hempty <;> cases hok
    exact ⟨hst, rfl⟩

/-- What a remove that succeeds finds, and what it writes. -/
theorem remove_frame {c c' : Conn} {h : SyncCall} (hok : SyncCall.remove c h = .ok c') :
    c.state = .synchronous ∧ (c'.state = .idle ∨ c'.state = .synchronous) ∧
      c' = { c with state := c'.state, activeEvent := c.activeEvent.set h.slot none } := by
  obtain ⟨kind, e, lock⟩ := h
  cases kind with
  | connect =>
    simp only [SyncCall.remove, synchronousConnectEventRemove] at hok
    split_ifs at hok with hst
    cases hok
    exact ⟨hst, .inl rfl, rfl⟩
  | receive =>
    simp only [SyncCall.remove, synchronousReceiveEventRemove] at hok
    split_ifs at hok with hst hconnect hreceive <;> cases hok
    · obtain ⟨rfl, _⟩ := hconnect
      exact ⟨hst, .inl rfl, rfl⟩
    · obtain ⟨rfl, _⟩ := hreceive
      exact ⟨hst, .inl rfl, rfl⟩
  | send =>
    simp only [SyncCall.remove, synchronousSendEventRemove] at hok
    split_ifs at hok with hst hsend hreceive <;> cases hok
    · exact ⟨hst, .inl rfl, rfl⟩
    · exact ⟨hst, .inr hst, rfl⟩

/-! ### Apart from the queue -/

/-- The queue beside a synchronous call or a listener: that of an idle conn with empty slots. -/
def OutSystem.rested (o : OutSystem) : AsyncSystem :=
  { o.sys with conn := { o.sys.conn with state := .idle, activeEvent := ⟨none, none, none⟩ } }

/-- **A conn that its queue does not work on:** it is idle, in synchronous calls, or listening. -/
structure Apart (s : ConnLife) : Prop where
  state : s.conn.state = .idle ∨ s.conn.state = .synchronous ∨ s.conn.state = .synchronousListener ∨
    s.conn.state = .asynchronousListener
  inv : AsyncInv s.out.rested
  rest : s.AtRest
  caller : s.out.sys.caller = []
  refused : s.out.sys.refused = []
  /-- each call is in its slot -/
  holds : ∀ h ∈ s.calls, s.conn.activeEvent.get h.slot = some h.event
  slots : (s.calls.map SyncCall.slot).Nodup
  listening : s.conn.state = .synchronousListener ∨ s.conn.state = .asynchronousListener → s.calls = []

/-- **What a block is at:** in the cache, with its queue, or apart from it. -/
inductive Standing (s : ConnLife) : Prop
  | cached (recycled : Recycled s)
  | queue (custody : Custody s.out) (calls : s.calls = [])
  | apart (apart : Apart s)

theorem Slots.eq_empty {a : Slots (Option EventId)} (h : ∀ k, a.get k = none) : a = ⟨none, none, none⟩ := by
  obtain ⟨connect, receive, send⟩ := a
  have hc : connect = none := h .connect
  have hr : receive = none := h .receive
  have hs : send = none := h .send
  rw [hc, hr, hs]

section

variable {s t : ConnLife}

/-- The queue of an idle conn with empty slots is at rest. -/
theorem rested_of_idle (hidle : s.conn.state = .idle) (hempty : ∀ k, s.conn.activeEvent.get k = none) :
    s.out.rested = s.out.sys := by
  have hslots := Slots.eq_empty hempty
  obtain ⟨⟨⟨conn, _⟩, _⟩, _⟩ := s
  obtain ⟨_⟩ := conn
  simp only [ConnLife.conn] at hidle hslots
  subst hidle hslots
  rfl

theorem empty_of_connEventsInProgress {c : Conn} (h : connEventsInProgress c = false) :
    ∀ k, c.activeEvent.get k = none := by
  obtain ⟨hc, hr, hs⟩ := connEventsInProgress_eq_false.mp h
  intro k
  cases k <;> assumption

/-- A conn with its queue is one of these. -/
theorem Custody.queueing (h : Custody s.out) : s.Queueing := by
  rcases h.inv.queue.state.async with hs | hs | hs | hs
  · refine .inl ⟨hs, connEventsInProgress_eq_false.mpr ?_⟩
    have hinactive := (h.inv.queue.state.idle hs).2.1
    exact ⟨hinactive .connect, hinactive .receive, hinactive .send⟩
  · exact .inr (.inl hs)
  · exact .inr (.inr (.inl hs))
  · exact .inr (.inr (.inr hs))

/-- **An idle conn with empty slots is with its queue again.** -/
theorem Apart.queue (h : Apart s) (hq : s.Queueing) : Custody s.out ∧ s.calls = [] := by
  have hidle : s.conn.state = .idle ∧ connEventsInProgress s.conn = false := by
    rcases hq with hq | hq
    · exact hq
    · rcases h.state with hs | hs | hs | hs <;> rw [hs] at hq <;> simp at hq
  have hempty := empty_of_connEventsInProgress hidle.2
  refine ⟨⟨rested_of_idle hidle.1 hempty ▸ h.inv, ?_, h.refused⟩, ?_⟩
  · rw [h.caller, h.rest.1.1]
    rfl
  · refine List.eq_nil_iff_forall_not_mem.mpr fun x hx => ?_
    have hslot := h.holds x hx
    rw [hempty] at hslot
    cases hslot

/-- **A conn leaves its queue** when nothing is queued and no callback is due. -/
theorem Custody.apart (h : Custody s.out) (hcalls : s.calls = []) (hidle : s.conn.state = .idle) (hrest : s.AtRest) :
    Apart s := by
  have hinactive : ∀ k, s.conn.activeEvent.get k = none := (h.inv.queue.state.idle hidle).2.1
  refine ⟨.inl hidle, (rested_of_idle hidle hinactive).symm ▸ h.inv, hrest, ?_, h.refused, ?_, ?_, fun _ => hcalls⟩
  · rw [h.caller, hrest.1.1]
    rfl
  · rw [hcalls]
    intro x hx
    cases hx
  · rw [hcalls]
    exact List.nodup_nil

/-- **Nothing works on an idle conn with empty slots** whose callback has been called. -/
theorem Custody.resting (h : Custody s.out) (hcalls : s.calls = []) (hidle : s.conn.state = .idle)
    (hreturned : s.out.Returned) (hcalled : ∀ x ∈ s.out.sys.completions, x = .starting) : Resting s := by
  have hidle' := h.inv.queue.state.idle hidle
  have hinactive : ∀ k, s.conn.activeEvent.get k = none := hidle'.2.1
  have hworkers : s.out.sys.workers = [] :=
    List.eq_nil_of_length_eq_zero (h.inv.threads.symm.trans hidle'.2.2)
  have hprocessing : ∀ x, x ∉ s.out.sys.processing := by
    intro x hx
    have hslot := h.inv.slot_of_processing hx
    rw [show s.out.sys.conn.activeEvent.get _ = none from hinactive _] at hslot
    cases hslot
  have hcallbacks : s.out.sys.callbacks = [] := by
    refine List.eq_nil_iff_forall_not_mem.mpr fun cb hcb => hprocessing cb.event ?_
    exact List.mem_append_left _ (List.mem_append_right _
      (List.mem_flatMap.mpr ⟨cb, hcb, List.mem_singleton.mpr rfl⟩))
  have hcompletions : s.out.sys.completions = [] := by
    refine List.eq_nil_iff_forall_not_mem.mpr fun x hx => ?_
    have hcount := h.inv.completing
    have hstate : s.out.sys.conn.state = .idle := hidle
    rw [hstate, if_neg (fun hs => by cases hs)] at hcount
    exact List.count_eq_zero.mp hcount (hcalled x hx ▸ hx)
  refine ⟨hworkers, hcallbacks, hcompletions, ?_, h.refused, hreturned, hcalls⟩
  rw [h.caller, hreturned.1]
  rfl

/-! ### Each step -/

/-- A step that writes fields the queue does not know. -/
theorem Standing.frame (h : Standing s) (hstate : s.conn.state ≠ .cached) (hout : t.out = s.out)
    (hcalls : t.calls = s.calls) : Standing t := by
  obtain ⟨out, calls, head, marked, timeOut⟩ := t
  subst hout hcalls
  cases h with
  | cached recycled => exact absurd recycled.state hstate
  | queue custody calls => exact .queue custody calls
  | apart apart =>
    exact .apart { apart with }

/-- A conn that is not in the cache and free for its queue is with its queue. -/
theorem Standing.custody (h : Standing s) (hq : s.Queueing) : Custody s.out ∧ s.calls = [] := by
  cases h with
  | cached recycled =>
    exfalso
    simp [ConnLife.Queueing, recycled.state] at hq
  | queue custody calls => exact ⟨custody, calls⟩
  | apart apart => exact apart.queue hq

/-- An idle conn at rest is apart from its queue. -/
theorem Standing.toApart (h : Standing s) (hidle : s.conn.state = .idle) (hrest : s.AtRest) : Apart s := by
  cases h with
  | cached recycled =>
    rw [recycled.state] at hidle
    cases hidle
  | queue custody calls => exact custody.apart calls hidle hrest
  | apart apart => exact apart

/-- In synchronous calls and listening a conn is apart from its queue. -/
theorem Standing.apart_of (h : Standing s) (hstate : s.conn.state = .synchronous ∨
    s.conn.state = .synchronousListener ∨ s.conn.state = .asynchronousListener) : Apart s := by
  cases h with
  | cached recycled =>
    rw [recycled.state] at hstate
    rcases hstate with hs | hs | hs <;> cases hs
  | queue custody calls =>
    have hq := custody.queueing
    rcases hstate with hs | hs | hs <;> simp [ConnLife.Queueing, hs] at hq
  | apart apart => exact apart

/-- A conn in the cache is as it was created. -/
theorem Standing.recycled (h : Standing s) (hstate : s.conn.state = .cached) : Recycled s := by
  cases h with
  | cached recycled => exact recycled
  | queue custody calls =>
    have hq := custody.queueing
    simp [ConnLife.Queueing, hstate] at hq
  | apart apart => rcases apart.state with hs | hs | hs | hs <;> rw [hstate] at hs <;> cases hs

/-- A handed out block. -/
theorem Recycled.alloc (h : Recycled s) (number : Option ℕ) (source : CodeSource) (previous : Option ℕ) :
    Standing (s.connAllocEx number source previous) := by
  rw [ConnLife.connAllocEx_recycled h]
  have hinitial : (((ConnLife.created s.timeOut s.conn.shuttingDown s.conn.waitForSubmit).connAllocEx number source
      previous).out.sys).Initial := by
    refine ⟨rfl, rfl, rfl, rfl, fun k => ?_, rfl, rfl, fun k => ?_, rfl, rfl, rfl, rfl, rfl⟩ <;> cases k <;> rfl
  exact .queue ⟨.initial hinitial, rfl, rfl⟩ rfl

/-- A step on the handle. -/
theorem Standing.onHandle (h : Standing s) {a : OutAction} (ha : a.onHandle = true) {out : OutSystem}
    (hs : outStep s.out a = some out) : Standing { s with out := out } := by
  have hrested : ∀ a, (a = .shuttingDown ∨ ∃ wait, a = .waitForSubmit wait) → outStep s.out (.engine a) = some out →
      Standing { s with out := out } := by
    intro a ha hs
    cases h with
    | queue custody calls => exact .queue (outStep_custody custody hs) calls
    | cached recycled =>
      rcases ha with rfl | ⟨wait, rfl⟩ <;> cases hs <;>
        exact .cached { recycled with resting := { recycled.resting with } }
    | apart apart =>
      rcases ha with rfl | ⟨wait, rfl⟩ <;> cases hs
      · exact .apart { apart with inv := (asyncStep_effect (a := .shuttingDown) apart.inv rfl).1 }
      · exact .apart { apart with inv := (asyncStep_effect (a := .waitForSubmit wait) apart.inv rfl).1 }
  cases a with
  | engine a =>
    cases a with
    | shuttingDown => exact hrested _ (.inl rfl) hs
    | waitForSubmit wait => exact hrested _ (.inr ⟨wait, rfl⟩) hs
    | _ => cases ha
  | _ => cases ha

/-- A synchronous call enters. -/
theorem Apart.syncInsert (h : Apart s) (kind : ConnEventClass) (e : EventId) : Apart (s.syncInsert kind e) := by
  unfold ConnLife.syncInsert
  split
  next x c hok =>
    obtain ⟨_, _, hstate, _⟩ := insert_ok hok
    obtain ⟨hbefore, hframe⟩ := insert_frame hok
    have hinv := h.inv.buffers c.sendBuffer s.conn.receiveBuffer s.conn.sp
    have hholds := insert_holds hok h.holds
    rw [hframe]
    refine ⟨.inr (.inl hstate), hinv, h.rest, h.caller, h.refused, hholds, insert_slots_nodup hok h.holds h.slots, ?_⟩
    intro hlisten
    rcases hlisten with hl | hl <;> exact absurd (hstate.symm.trans hl) (by decide)
  · exact h

/-- A synchronous call leaves. -/
theorem Apart.syncRemove (h : Apart s) {x : SyncCall} (hx : x ∈ s.calls) : Apart (s.syncRemove x) := by
  have hslots : ((s.calls.erase x).map SyncCall.slot).Nodup := (List.erase_sublist.map _).nodup h.slots
  unfold ConnLife.syncRemove
  split
  next c hok =>
    obtain ⟨_, hstate, hframe⟩ := remove_frame hok
    rw [hframe]
    refine ⟨hstate.imp_right .inl, h.inv, h.rest, h.caller, h.refused, erase_holds h.slots hx h.holds, hslots, ?_⟩
    intro hlisten
    rcases hstate with hs | hs <;> rcases hlisten with hl | hl <;> exact absurd (hs.symm.trans hl) (by decide)
  · refine { h with holds := fun y hy => h.holds y (List.mem_of_mem_erase hy), slots := hslots, listening := ?_ }
    intro hlisten
    rw [show s.calls = [] from h.listening hlisten] at hx
    cases hx

/-! ### Freeing -/

/-- Nothing works on a conn that is apart from its queue and in no synchronous call. -/
theorem Apart.resting (h : Apart s) (hcalls : s.calls = []) : Resting s := by
  have hcustody : Custody { s.out with sys := s.out.rested } := by
    refine ⟨h.inv, ?_, h.refused⟩
    show s.out.sys.caller = s.out.pending.toList.map Pending.event
    rw [h.caller, h.rest.1.1]
    rfl
  have hcalled : ∀ x ∈ s.out.sys.completions, x = .starting := by
    rw [h.rest.2]
    intro x hx
    cases hx
  have hresting : Resting { s with out := { s.out with sys := s.out.rested } } :=
    hcustody.resting hcalls rfl h.rest.1 hcalled
  exact { hresting with }

theorem Resting.hangUp (h : Resting s) {input : ConnLife.FreeInput} (ht : s.hangUp input = some t) : Resting t := by
  unfold ConnLife.hangUp at ht
  split at ht
  · cases ht
  · obtain ⟨sp, _, rfl⟩ := Option.map_eq_some_iff.mp ht
    exact { h with }

theorem Resting.connRecycle (h : Resting s) (e : EventId) : Recycled (s.connRecycle e) := by
  unfold ConnLife.connRecycle
  split <;> exact ConnLife.connectionInit_recycled { h with }

/-- **`connFreeEx` (proved):** it refuses and changes nothing, or nothing works on the conn and it is recycled. -/
theorem Standing.connFreeEx (h : Standing s) (hmay : s.MayFree) {input : ConnLife.FreeInput} {freed : Bool}
    (ht : s.connFreeEx input = some (freed, t)) : (freed = false ∧ t = s) ∨ (freed = true ∧ Resting s ∧ Recycled t) := by
  unfold ConnLife.connFreeEx at ht
  split at ht
  · cases ht
    exact .inl ⟨rfl, rfl⟩
  · cases ht
    exact .inl ⟨rfl, rfl⟩
  next hlisten =>
    cases ht
    have hapart := h.apart_of (.inr (.inl hlisten))
    have hresting : Resting s := hapart.resting (hapart.listening (.inl hlisten))
    exact .inr ⟨rfl, hresting, ConnLife.connectionInit_recycled { hresting with }⟩
  next hlisten => exact absurd hlisten hmay.2
  · split at ht
    · cases ht
      exact .inl ⟨rfl, rfl⟩
    next c hok =>
      obtain ⟨u, hu, hr⟩ := Option.map_eq_some_iff.mp ht
      cases hr
      have hready : s.conn.state = .idle ∧ connEventsInProgress s.conn = false := by
        unfold synchronousConnectEventInsert at hok
        split_ifs at hok with hidle hempty
        exact ⟨hidle, connEventsInProgress_eq_false.mpr hempty⟩
      obtain ⟨custody, calls⟩ := h.custody (.inl hready)
      obtain ⟨hreturned, hcalled⟩ := hmay.1 hready.1
      have hresting : Resting s := custody.resting calls hready.1 hreturned hcalled
      have hinserted : Resting (s.setConn c) := { hresting with }
      have hleft : Resting u := by
        split at hu
        · exact hinserted.hangUp hu
        · cases hu
          exact hinserted
      have hreleased : Resting u.release := { hleft with }
      exact .inr ⟨rfl, hresting, hreleased.connRecycle _⟩

/-! ### Every step -/

/-- **Every step (proved):** a block is in the cache as it was created, with its queue, or apart from it. -/
theorem lifeStep_standing {a : LifeAction} (h : Standing s) (hs : lifeStep s a = some t) : Standing t := by
  cases a with
  | alloc number source previous =>
    simp only [lifeStep] at hs
    split at hs <;> cases hs
    next hcached => exact (h.recycled hcached).alloc number source previous
  | use a =>
    simp only [lifeStep] at hs
    split at hs
    next henabled =>
      obtain ⟨out, hout, rfl⟩ := Option.map_eq_some_iff.mp hs
      by_cases ha : a.onHandle = true
      · exact h.onHandle ha hout
      · obtain ⟨custody, calls⟩ := h.custody (henabled.resolve_right ha)
        exact .queue (outStep_custody custody hout) calls
    · cases hs
  | remember | client | shutdownCallback | relink | callbacks | mark | unmark =>
    simp only [lifeStep] at hs
    split at hs <;> cases hs
    next hstate => exact h.frame hstate rfl rfl
  | syncInsert kind e =>
    simp only [lifeStep] at hs
    split at hs <;> cases hs
    next hready =>
      cases hinsert : SyncCall.insert s.conn kind e with
      | error errno =>
        rw [ConnLife.syncInsert, hinsert]
        exact h
      | ok r =>
        have hapart : Apart s := by
          rcases (insert_frame hinsert).1 with hidle | hsync
          · exact h.toApart hidle (hready.2.1 hidle)
          · exact h.apart_of (.inl hsync)
        exact .apart (hapart.syncInsert kind e)
  | syncIo sendBuffer receiveBuffer sp sent =>
    simp only [lifeStep] at hs
    split at hs <;> cases hs
    next hcalls =>
      cases h with
      | cached recycled => exact absurd recycled.resting.calls hcalls
      | queue custody calls => exact absurd calls hcalls
      | apart apart =>
        exact .apart { apart with inv := apart.inv.buffers (sendBuffer.map List.length) receiveBuffer sp }
  | syncRemove x =>
    simp only [lifeStep] at hs
    split at hs <;> cases hs
    next hx =>
      cases h with
      | cached recycled =>
        rw [recycled.resting.calls] at hx
        cases hx
      | queue custody calls =>
        rw [calls] at hx
        cases hx
      | apart apart => exact .apart (apart.syncRemove hx)
  | listen =>
    simp only [lifeStep] at hs
    split at hs <;> cases hs
    next hready =>
      obtain ⟨hidle, hq, hrest⟩ := hready
      have hapart := h.toApart hidle hrest
      obtain ⟨_, calls⟩ := h.custody hq
      exact .apart { hapart with state := .inr (.inr (.inl rfl)), listening := fun _ => calls }
  | closeListener =>
    simp only [lifeStep] at hs
    split at hs <;> cases hs
    next hlisten =>
      have hapart := h.apart_of (.inr (.inl hlisten))
      have calls := hapart.listening (.inl hlisten)
      have hinv := hapart.inv.buffers s.conn.sendBuffer s.conn.receiveBuffer (socketClose s.conn.sp)
      exact .apart { hapart with state := .inl rfl, inv := hinv, listening := fun _ => calls }
  | aListen e =>
    simp only [lifeStep] at hs
    split at hs <;> cases hs
    next hready =>
      obtain ⟨hidle, hq, hrest⟩ := hready
      have hapart := h.toApart hidle hrest
      obtain ⟨_, calls⟩ := h.custody hq
      refine .apart { hapart with state := .inr (.inr (.inr rfl)), listening := fun _ => calls, holds := ?_ }
      intro y hy
      have hy : y ∈ s.calls := hy
      rw [calls] at hy
      cases hy
  | aListenEnd closed =>
    simp only [lifeStep] at hs
    split at hs <;> cases hs
    next hlisten =>
      have hapart := h.apart_of (.inr (.inr hlisten))
      have calls := hapart.listening (.inr hlisten)
      have hinv : AsyncInv (OutSystem.rested (s.setConn { s.conn with
          sp := if closed then socketClose s.conn.sp else s.conn.sp }).out) := by
        split
        · exact hapart.inv.buffers s.conn.sendBuffer s.conn.receiveBuffer (socketClose s.conn.sp)
        · exact hapart.inv
      refine .apart { hapart with state := .inl rfl, inv := hinv, listening := fun _ => calls, holds := ?_ }
      intro y hy
      have hy : y ∈ s.calls := hy
      rw [calls] at hy
      cases hy
  | free input =>
    simp only [lifeStep] at hs
    split at hs
    next hmay =>
      obtain ⟨⟨freed, u⟩, hfree, rfl⟩ := Option.map_eq_some_iff.mp hs
      rcases h.connFreeEx hmay hfree with ⟨_, hsame⟩ | ⟨_, _, hrecycled⟩
      · exact hsame ▸ h
      · exact .cached hrecycled
    · cases hs

/-! ### Every history -/

/-- **A conn in the cache is like a new one.** -/
structure LikeNew (s : ConnLife) : Prop where
  /-- all that `ConnectionInit` writes is as it leaves it for a new conn, and nothing works on the conn -/
  recycled : Recycled s
  /-- handed out, it is on its new SOCK, with empty buffers, without a mark, and nothing is queued, active or on the
  free list -/
  alloc : ∀ number source previous, ∃ t, lifeStep s (.alloc number source previous) = some t ∧
    t.conn.sp = { number := number } ∧ t.conn.sendBuffer = none ∧ t.out.buffer = [] ∧ t.conn.receiveBuffer = [] ∧
      t.marked = 0 ∧ t.conn.queued = [] ∧ t.conn.transaction.freeList = [] ∧ t.conn.activeEvent = ⟨none, none, none⟩
  /-- **two runs:** from there on every run is one of a new conn, with the same octets delivered and sent -/
  runs : ∀ number source previous as, runFrom lifeStep s (.alloc number source previous :: as) =
    runFrom lifeStep (.created s.timeOut s.conn.shuttingDown s.conn.waitForSubmit)
      (.alloc number source previous :: as)

theorem Recycled.likeNew (h : Recycled s) : LikeNew s := by
  have hstep : ∀ number source previous,
      lifeStep s (.alloc number source previous) = some (s.connAllocEx number source previous) :=
    fun number source previous => if_pos h.state
  refine ⟨h, fun number source previous => ⟨_, hstep number source previous, ?_⟩, fun number source previous as => ?_⟩
  · rw [ConnLife.connAllocEx_recycled h]
    exact ⟨rfl, rfl, rfl, rfl, rfl, rfl, rfl, rfl⟩
  · simp only [runFrom]
    rw [hstep, ConnLife.connAllocEx_recycled h]
    rfl

/-- **Recycled conns are like new ones (proved):** in every history of a block, whenever it is in the cache. -/
theorem reachable_recycled (timeOut : Timeouts) (shuttingDown waitForSubmit : Bool)
    (hrun : Reachable (enabled lifeStep) (.created timeOut shuttingDown waitForSubmit) s)
    (hcached : s.conn.state = .cached) : LikeNew s := by
  have hstanding : Standing s :=
    hrun.invariant (P := Standing) (.cached (ConnLife.created_recycled _ _ _)) fun _ _ _ h _ hs => lifeStep_standing h hs
  exact (hstanding.recycled hcached).likeNew

end

/-- A client is written to, marked and freed; its octet is flushed to its own socket. -/
def recycledRun : List LifeAction :=
  [.alloc (some 3) ⟨0, 1⟩ none, .client (some 7) none, .use (.sync .onePiece bufferedWrite), .mark 5,
    .syncInsert .send 1, .free ⟨2, .timesOut, ⟨[], 0⟩⟩, .syncRemove ⟨.send, 1, false⟩,
    .free ⟨2, ⟨.onePiece, [([[.accepts 1]], none)], []⟩, ⟨[], 0⟩⟩]

theorem reachable_recycled_client : ∃ s,
    Reachable (enabled lifeStep) (.created ⟨1, 2, 3, 4⟩ false false) s ∧ s.out.wire = [71] ∧ LikeNew s := by
  have hseen : (runFrom lifeStep (.created ⟨1, 2, 3, 4⟩ false false) recycledRun).map (fun s =>
      (s.out.wire, decide (s.conn.state = .cached))) = some ([71], true) := by decide +kernel
  obtain ⟨s, hs, hobs⟩ := Option.map_eq_some_iff.mp hseen
  simp only [Prod.mk.injEq, decide_eq_true_eq] at hobs
  have hrun := reachable_of_runFrom hs
  exact ⟨s, hrun, hobs.1, reachable_recycled _ _ _ hrun hobs.2⟩

end Connio
