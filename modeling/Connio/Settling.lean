import Mathlib.Algebra.Order.Ring.Nat
import Connio.CallbackAccount
import Connio.Lib.Inevitable

/-!
# A conn that is left alone comes to rest

When the consumer makes no more calls, the threads of a conn, the socket engine and its callback threads go on until
nothing is left to do: there is a step as long as there is work, and work runs out.  A process function may make any
number of calls before it returns, and its event may be handed to the engine any number of times, so a run is given a
budget of such steps; whatever the budget, every run comes to rest.

* `AsyncAction.Internal` — the steps that are not the consumer's;
* `Stage.spends`, `SettleStep` — the steps that take from the budget, and a step with its budget;
* `AsyncSystem.rank`, `asyncStep_rank` — **PROVED**: every internal step lowers the work that is left, or takes from
  the budget;
* `AsyncInv.internal` — **PROVED**: while the conn is not at rest, some internal step can be made;
* `AsyncSystem.Settled`, `reachable_settles` — **PROVED**: from every reachable state every run settles: each transaction
  that was submitted has been called back, unless a problem was recorded while events were queued.
-/

namespace Connio

open Connio.Lib

/-! ### Internal steps -/

/-- **A step of the library:** of its threads, or of the poll thread for an event that is in the engine. -/
def AsyncAction.Internal (s : AsyncSystem) : AsyncAction → Prop
  | .work _ _ | .relock _ | .handle _ | .store _ | .enter _ | .prepare | .destroy _ | .call _ => True
  | .pollReady k _ | .pollTimeout k => (s.conn.sp.event.get k).inEngine = true
  | _ => False

/-- The process function goes on, or its event goes into the engine. -/
def Stage.spends (stage stage' : Stage) : Bool :=
  (decide (stage = .processing) && decide (stage' = .processing)) || decide (stage' = .returned .inProgress)

/-- A step that takes from the budget. -/
def AsyncAction.spends (s : AsyncSystem) : AsyncAction → Bool
  | .work w m => (eventProcessStep s.conn w.event w.stage m).any fun r => w.stage.spends r.1
  | _ => false

/-- **A step of the library with its budget.** -/
inductive SettleStep : AsyncSystem × ℕ → AsyncAction → AsyncSystem × ℕ → Prop
  | free {s s' : AsyncSystem} {a : AsyncAction} {budget : ℕ} (internal : a.Internal s)
      (step : asyncStep s a = some s') (spends : a.spends s = false) : SettleStep (s, budget) a (s', budget)
  | spend {s s' : AsyncSystem} {a : AsyncAction} {budget : ℕ} (internal : a.Internal s)
      (step : asyncStep s a = some s') (spends : a.spends s = true) : SettleStep (s, budget + 1) a (s', budget)

/-! ### The work that is left -/

/-- Steps until the event of the thread has left the conn, with those of a completion that may follow. -/
def Stage.rank : Stage → ℕ
  | .destroying _ => 12
  | .starting => 11
  | .processing => 10
  | .handshaking => 9
  | .blocked _ => 8
  | .submitting _ => 7
  | .aborting => 6
  | .aborted => 5
  | .returned _ => 4

def Callback.rank (cb : Callback) : ℕ := if cb.stored then 13 else 14

def Completion.rank : Completion → ℕ
  | .starting => 3
  | .destroying _ _ _ => 2
  | .calling _ _ => 1

def SocketEvent.rank (se : SocketEvent) : ℕ := if se.arg = none then 0 else if se.inEngine then 16 else 15

def SOCK.rank (sp : SOCK) : ℕ := sp.event.connect.rank + sp.event.receive.rank + sp.event.send.rank

/-- What waits in the engine and in the queue. -/
def Conn.rank (c : Conn) : ℕ := c.sp.rank + 12 * c.queued.length

def AsyncSystem.rank (s : AsyncSystem) : ℕ :=
  (s.workers.map fun w => w.stage.rank).sum + (s.callbacks.map Callback.rank).sum +
    (s.completions.map Completion.rank).sum + s.conn.rank

/-- Taking one member out of a list. -/
theorem sum_map_erase {α : Type} [DecidableEq α] {l : List α} {y : α} (hy : y ∈ l) (f : α → ℕ) :
    (l.map f).sum = f y + ((l.erase y).map f).sum := by
  rw [((List.perm_cons_erase hy).map f).sum_nat, List.map_cons, List.sum_cons]

/-! ### Socket events -/

theorem SOCK.rank_of_event {sp sp' : SOCK} (h : sp'.event = sp.event) : sp'.rank = sp.rank := by
  rw [SOCK.rank, h]
  rfl

theorem SOCK.rank_setSocketEvent (sp : SOCK) (k : ConnEventClass) (se : SocketEvent) :
    (sp.setSocketEvent k se).rank + (sp.event.get k).rank = sp.rank + se.rank := by
  cases k <;> simp only [SOCK.rank, SOCK.setSocketEvent, Slots.set, Slots.get] <;> omega

/-- A socket event that completes is closer to its callback. -/
theorem complete_rank (se : SocketEvent) (error : Errno) :
    (beginIf { se with error := error }.complete).rank ≤ se.rank ∧
      (se.arg ≠ none → se.inEngine = true → (beginIf { se with error := error }.complete).rank < se.rank) := by
  obtain ⟨harg, _, _, hin, _⟩ := beginIf_complete { se with error := error }
  by_cases hnone : se.arg = none
  · refine ⟨?_, fun hne => absurd hnone hne⟩
    rw [SocketEvent.rank, if_pos (harg.trans hnone)]
    exact Nat.zero_le _
  · have hrank : (beginIf { se with error := error }.complete).rank = 15 := by
      rw [SocketEvent.rank, if_neg (fun h => hnone (harg.symm.trans h)), hin]
      rfl
    have hse : se.rank = if se.inEngine then 16 else 15 := if_neg hnone
    rw [hrank, hse]
    refine ⟨?_, fun _ hengine => ?_⟩
    · split <;> omega
    · rw [if_pos hengine]
      omega

/-- The poll thread takes an event out of the engine. -/
theorem SOCK.Ok.completed_rank {sp : SOCK} (h : sp.Ok) {k : ConnEventClass} (hin : (sp.event.get k).inEngine = true)
    (error : Errno) :
    (sp.setSocketEvent k (beginIf { sp.event.get k with error := error }.complete)).rank < sp.rank := by
  have hset := sp.rank_setSocketEvent k (beginIf { sp.event.get k with error := error }.complete)
  have harg : (sp.event.get k).arg ≠ none := fun hnone => by
    rw [((h k).idle hnone).1] at hin
    cases hin
  have hlt : (beginIf { sp.event.get k with error := error }.complete).rank < (sp.event.get k).rank :=
    (complete_rank (sp.event.get k) error).2 harg hin
  omega

/-- The event lock puts nothing into the engine. -/
theorem Owned.sp_rank {c c' : Conn} {given taken : List EventId} (h : Owned c given c' taken) :
    c'.sp.rank ≤ c.sp.rank := by
  have hle : ∀ k, (c'.sp.event.get k).rank ≤ (c.sp.event.get k).rank := fun k => by
    rcases h.socket k with heq | heq
    · exact Nat.le_of_eq (congrArg SocketEvent.rank heq)
    · rw [heq]
      exact (complete_rank (c.sp.event.get k) Errno.ecanceled).1
  have h1 := hle .connect
  have h2 := hle .receive
  have h3 := hle .send
  simp only [Slots.get] at h1 h2 h3
  simp only [SOCK.rank]
  omega

/-! ### A thread inside `ConnEventsProcess` -/

/-- What follows the return of `socketEventProcess`: the event ends, blocks or is aborted. -/
theorem processReturned_rank (c : Conn) (e : EventId) (r : Errno × SocketEventType) :
    (processReturned c e r).1.rank ≤ 8 ∧ (∀ stage : Stage, stage.spends (processReturned c e r).1 = false) ∧
      (processReturned c e r).2.sp.event = c.sp.event := by
  obtain ⟨err, blockedOn⟩ := r
  simp only [processReturned]
  split
  · refine ⟨by simp [connEventProcessEnd, Stage.rank], fun stage => by simp [connEventProcessEnd, Stage.spends], ?_⟩
    exact ((socketEventComplete_mild c e).trans (connEventFreeResources_mild _ e)).socket
  split
  · exact ⟨Nat.le_refl _, fun stage => by simp [Stage.spends], rfl⟩
  · exact ⟨by simp [Stage.rank], fun stage => by simp [Stage.spends], rfl⟩

/-- `submitToEngine` by what `SocketEventWaitEx` returns. -/
theorem submitToEngine_eq {c : Conn} {e : EventId} {blockedOn : SocketEventType} {epollErr err : Errno} {sp : SOCK}
    (hw : socketEventWaitEx c.sp blockedOn e epollErr = (err, sp)) :
    submitToEngine c e blockedOn epollErr =
      if err = 0 then (.returned .inProgress, { c.setStatus e .inProgress with sp := sp }.note (.wait e))
      else (.aborting, ({ c.setStatus e .inProgress with sp := sp }.setStatus e .failed).setError e err) := by
  simp only [submitToEngine]
  rw [show (c.setStatus e .inProgress).sp = c.sp from rfl, hw]
  cases err with
  | zero => rfl
  | succ n => rfl

/-- An event that the engine takes costs one step of the budget; one that it refuses is aborted. -/
theorem submitToEngine_rank {c : Conn} (h : c.sp.Ok) (e : EventId) (blockedOn : SocketEventType) (epollErr : Errno) :
    (submitToEngine c e blockedOn epollErr).1.rank + (submitToEngine c e blockedOn epollErr).2.sp.rank + 1 ≤
      7 + c.sp.rank +
        if (Stage.submitting blockedOn).spends (submitToEngine c e blockedOn epollErr).1 then 16 else 0 := by
  cases hw : socketEventWaitEx c.sp blockedOn e epollErr with
  | mk err sp =>
  have heq := submitToEngine_eq hw
  rcases socketEventWaitEx_spec h hw with ⟨rfl, k, _, _, harg, rfl, _⟩ | ⟨herr, hsp⟩
  · -- in the engine
    rw [heq, if_pos rfl]
    have hset := c.sp.rank_setSocketEvent k { c.sp.event.get k with
      arg := some e, type := sockEventTranslate blockedOn, error := 0, inEngine := true }
    rw [show SocketEvent.rank { c.sp.event.get k with
      arg := some e, type := sockEventTranslate blockedOn, error := 0, inEngine := true } = 16 from rfl] at hset
    show 4 + (c.sp.setSocketEvent k _).rank + 1 ≤ 7 + c.sp.rank + 16
    omega
  · have hrank : sp.rank = c.sp.rank := by
      rcases hsp with rfl | ⟨k, harg, rfl, _⟩
      · rfl
      · have hset := c.sp.rank_setSocketEvent k { c.sp.event.get k with
          arg := none, type := sockEventTranslate blockedOn, error := 0, inEngine := false }
        rw [show SocketEvent.rank { c.sp.event.get k with
          arg := none, type := sockEventTranslate blockedOn, error := 0, inEngine := false } = 0 from rfl,
          show (c.sp.event.get k).rank = 0 from if_pos harg] at hset
        exact hset
    rw [heq, if_neg herr]
    show 6 + sp.rank + 1 ≤ 7 + c.sp.rank + 0
    omega

/-- **A thread goes on (proved):** with less to do, or from the budget. -/
theorem eventProcessStep_rank {c c' : Conn} {e : EventId} {stage stage' : Stage} {m : StageMove} (h : c.sp.Ok)
    (hs : eventProcessStep c e stage m = some (stage', c')) :
    stage'.rank + c'.sp.rank + 1 ≤ stage.rank + c.sp.rank + if stage.spends stage' then 16 else 0 := by
  have hreturned : ∀ {c₁ : Conn} {r : Errno × SocketEventType}, c₁.sp.event = c.sp.event →
      processReturned c₁ e r = (stage', c') → 9 ≤ stage.rank →
      stage'.rank + c'.sp.rank + 1 ≤ stage.rank + c.sp.rank + if stage.spends stage' then 16 else 0 := by
    intro c₁ r hevent hresult hstage
    obtain ⟨hrank, _, hsocket⟩ := processReturned_rank c₁ e r
    rw [hresult] at hrank hsocket
    have hsp : c'.sp.rank = c.sp.rank := SOCK.rank_of_event (hsocket.trans hevent)
    have hle : stage'.rank ≤ 8 := hrank
    omega
  cases eventProcessStep_cases hs with
  | destroy freeList hresult =>
    cases hresult
    have hsp := SOCK.rank_of_event (connEventFreeListDestroy_spec freeList c).2.2.2
    show 11 + _ + 1 ≤ 12 + c.sp.rank + 0
    omega
  | start hresult =>
    cases hresult
    split
    · show 10 + c.sp.rank + 1 ≤ 11 + c.sp.rank + 0
      omega
    · show 6 + c.sp.rank + 1 ≤ 11 + c.sp.rank + 0
      omega
  | move hmove hresult =>
    cases hresult
    have hsp := SOCK.rank_of_event (processMove_frame (S := fun _ => True) hmove).2.1.socket
    show 10 + c'.sp.rank + 1 ≤ 10 + c.sp.rank + 16
    omega
  | processed hmove hresult =>
    exact hreturned (processMove_frame (S := fun _ => True) hmove).2.1.socket hresult (by decide)
  | empty _ _ hresult =>
    cases hresult
    show 9 + c.sp.rank + 1 ≤ 10 + c.sp.rank + 0
    omega
  | overflow _ _ hresult => exact hreturned rfl hresult (by decide)
  | handshake new ret hresult =>
    exact hreturned (sslConnect_event c.sp new ret) hresult (by decide)
  | cancelled blockedOn _ hresult =>
    cases hresult
    show 6 + c.sp.rank + 1 ≤ 8 + c.sp.rank + 0
    omega
  | unproblematic blockedOn _ hresult =>
    cases hresult
    show 7 + c.sp.rank + 1 ≤ 8 + c.sp.rank + 0
    omega
  | submit blockedOn epollErr hresult =>
    have hrank := submitToEngine_rank h e blockedOn epollErr
    rw [hresult] at hrank
    exact hrank
  | abort hresult =>
    cases hresult
    have hsp := SOCK.rank_of_event (socketEventAbort_mild c e).socket
    show 5 + _ + 1 ≤ 6 + c.sp.rank + 0
    omega
  | judge hresult =>
    cases hresult
    have hsp := SOCK.rank_of_event (connEventFreeResources_mild c e).socket
    have hspends : Stage.aborted.spends (.returned (abortStatus (c.events e))) = false := by
      have hfinal := (abortStatus_final (c.events e)).2
      simp [Stage.spends, hfinal]
    rw [hspends]
    show 4 + (connEventFreeResources c e).sp.rank + 1 ≤ 5 + c.sp.rank + 0
    omega

/-! ### The queue under the event lock -/

/-- What a thread that gives the event lock back goes on with. -/
def Outcome.rank : Outcome → ℕ
  | .work _ _ => 12
  | .leave true => 0
  | .leave false => 3

theorem AsyncSystem.outcome_rank (s : AsyncSystem) (r : Outcome × Conn) :
    (s.outcome r).rank + s.conn.rank = s.rank + r.1.rank + r.2.rank := by
  obtain ⟨o, c'⟩ := r
  rcases o with ⟨e, freeList⟩ | (_ | _)
  · simp only [AsyncSystem.rank, AsyncSystem.outcome, Outcome.rank, List.map_cons, List.sum_cons, Stage.rank]
    omega
  · simp only [AsyncSystem.rank, AsyncSystem.outcome, Outcome.rank, List.map_cons, List.sum_cons, Completion.rank]
    omega
  · simp only [AsyncSystem.rank, AsyncSystem.outcome, Outcome.rank]
    omega

section Queue

variable {c : Conn}

/-- An abort empties the queue, or comes after another one. -/
theorem eventQueueAbort_queued (hwf : c.Wf) (current : Option EventId) (p : AsyncProblem) :
    (eventQueueAbort c current p).queued = c.queued ∨ (eventQueueAbort c current p).queued = [] := by
  by_cases hp : c.transaction.problem = none
  · exact .inr (congrArg QueueState.queued (view_eventQueueAbort hwf hp current p))
  · rw [eventQueueAbort_later hp]
    exact .inl rfl

theorem handleErrors_queued (hwf : c.Wf) (e : EventId) :
    (handleErrors c e).queued = c.queued ∨ (handleErrors c e).queued = [] := by
  obtain ⟨_, _, htransaction, howned⟩ := cancelEvent_frame c e
  have hcancel : (cancelEvent c e).queued = c.queued := by rw [Conn.queued, htransaction]; rfl
  unfold handleErrors
  simp only []
  split
  · exact .inl hcancel
  split
  · exact eventQueueAbort_queued hwf _ _
  split
  · unfold setAsyncProblem
    split <;> exact .inl rfl
  split
  · rw [← hcancel]
    exact eventQueueAbort_queued (howned hwf).wf _ _
  · exact .inl rfl

/-- An event that ends leaves the queue alone, or empties it. -/
theorem connEventsProcessResult_queued (hwf : c.Wf) (e : EventId) :
    (connEventsProcessResult c e).queued.length ≤ c.queued.length := by
  obtain ⟨c₁, hc₁⟩ : ∃ c₁, c₁ = (connEventInProgressClear c e).note
    (.leave e (c.events e).status (c.events e).error (c.events e).source) := ⟨_, rfl⟩
  have hresult : connEventsProcessResult c e = connEventFreeListAdd (handleErrors (captureStats c₁ e) e) e := by
    rw [hc₁]
    rfl
  have hwf₁ : c₁.Wf := by
    rw [hc₁]
    exact hwf
  obtain ⟨hview, _, _, _, howned⟩ := captureStats_frame c₁ e
  have hqueued : (captureStats c₁ e).queued = c.queued := by
    refine (congrArg QueueState.queued hview).trans ?_
    rw [hc₁]
    rfl
  rw [hresult]
  show (handleErrors (captureStats c₁ e) e).queued.length ≤ c.queued.length
  rcases handleErrors_queued (howned hwf₁).wf e with heq | heq
  · exact Nat.le_of_eq (congrArg List.length (heq.trans hqueued))
  · rw [heq]
    exact Nat.zero_le _

/-- A thread that starts an event takes it from the queue. -/
theorem connEventsProcessLoop_queued (hwf : c.Wf) :
    (connEventsProcessLoop c none).1.rank + 12 * (connEventsProcessLoop c none).2.queued.length ≤
      12 * c.queued.length + 3 := by
  cases hn : connEventNext c with
  | mk next c₁ =>
  cases next with
  | some e =>
    obtain ⟨a, b, q, hl, hq, rfl, _⟩ := connEventNext_some hwf hn
    simp only [connEventsProcessLoop, hn]
    have hqueued : q.toList = a ++ b := DList.toList_represents hq
    show 12 + 12 * q.toList.length ≤ _
    rw [hqueued, hl]
    simp only [List.length_append, List.length_cons]
    omega
  | none =>
    obtain ⟨rfl, _⟩ := connEventNext_none hwf hn
    simp only [connEventsProcessLoop, hn]
    have hleave : (connEventsProcessLeave c₁).2.queued = c₁.queued := by
      unfold connEventsProcessLeave
      simp only []
      split
      · rfl
      split
      · rfl
      split
      · rfl
      split <;> rfl
    rw [hleave]
    have hrank : Outcome.rank (.leave (connEventsProcessLeave c₁).1) ≤ 3 := by
      cases (connEventsProcessLeave c₁).1
      · exact Nat.le_refl 3
      · exact Nat.zero_le 3
    omega

end Queue

/-! ### Every internal step -/

/-- A thread that takes the event lock again goes on with the next event, or leaves. -/
theorem AsyncInv.relock_rank {s : AsyncSystem} (hinv : AsyncInv s) {w : Worker} (hw : w ∈ s.workers)
    {st : ConnEventStatus} (hst : w.stage = .returned st) :
    (connEventsProcessRelock s.conn w.event st).1.rank + (connEventsProcessRelock s.conn w.event st).2.rank ≤
      s.conn.rank + 3 := by
  obtain ⟨heffect, _⟩ := hinv.relock_effect (P := False) hw hst False.elim
  have hsocket := heffect.effect.toOwned.sp_rank
  have hqueue : (connEventsProcessRelock s.conn w.event st).1.rank +
      12 * (connEventsProcessRelock s.conn w.event st).2.queued.length ≤ 12 * s.conn.queued.length + 3 := by
    unfold connEventsProcessRelock
    split
    · exact connEventsProcessLoop_queued hinv.wf
    next hne =>
    rcases hinv.returned w hw st hst with rfl | ⟨hfinal, hstatus⟩
    · exact absurd rfl hne
    have hholding : w.stage.holding = true := by
      rw [hst]
      cases st <;> first | rfl | exact absurd rfl hne
    have hpos : 0 < s.conn.transaction.threads := hinv.threads ▸ List.length_pos_of_mem hw
    obtain ⟨hresult, _⟩ := connEventsProcessResult_effect (P := False) hinv.wf hinv.queue
      (hinv.slot_of_worker hw hholding) hpos (hstatus ▸ hfinal) False.elim
    have hloop := connEventsProcessLoop_queued hresult.wf
    have hle := connEventsProcessResult_queued hinv.wf w.event
    omega
  simp only [Conn.rank]
  omega

/-- **Every internal step (proved):** there is less left to do, or the step takes from the budget. -/
theorem asyncStep_rank {s s' : AsyncSystem} {a : AsyncAction} (hinv : AsyncInv s) (hinternal : a.Internal s)
    (h : asyncStep s a = some s') : s'.rank + 1 ≤ s.rank + if a.spends s then 16 else 0 := by
  have hsocket : ∀ sp : SOCK, sp.rank < s.conn.sp.rank →
      AsyncSystem.rank { s with conn := { s.conn with sp := sp } } + 1 ≤ s.rank := fun sp hlt => by
    have hqueued : Conn.queued { s.conn with sp := sp } = s.conn.queued := rfl
    simp only [AsyncSystem.rank, Conn.rank, hqueued]
    omega
  cases a with
  | work w m =>
    simp only [asyncStep] at h
    split at h
    next hw =>
      split at h <;> cases h
      next stage c' hstep =>
      have hrank := eventProcessStep_rank hinv.socket hstep
      have hqueued : c'.queued = s.conn.queued := by
        rw [Conn.queued, (eventProcessStep_local hinv.socket hstep).quiet.transaction]
        rfl
      have hspends : (AsyncAction.work w m).spends s = w.stage.spends stage := by
        rw [AsyncAction.spends, hstep]
        rfl
      have herase := sum_map_erase hw fun w => w.stage.rank
      rw [hspends]
      simp only [AsyncSystem.rank, Conn.rank, hqueued, List.map_cons, List.sum_cons]
      omega
    · cases h
  | relock w =>
    simp only [asyncStep] at h
    split at h
    next st hst =>
      split at h <;> cases h
      next hw =>
      have hrank := hinv.relock_rank hw hst
      have houtcome := AsyncSystem.outcome_rank { s with workers := s.workers.erase w }
        (connEventsProcessRelock s.conn w.event st)
      have herase := sum_map_erase hw fun w => w.stage.rank
      have hstage : w.stage.rank = 4 := by
        rw [hst]
        rfl
      simp only [AsyncSystem.rank] at houtcome ⊢
      show _ + 1 ≤ _ + 0
      omega
    · cases h
  | pollReady k events =>
    cases h
    have hin : (s.conn.sp.event.get k).inEngine = true := hinternal
    have hready : ∃ error, pollReady s.conn.sp k events =
        s.conn.sp.setSocketEvent k (beginIf { s.conn.sp.event.get k with error := error }.complete) := by
      obtain ⟨error, heq⟩ := socketEventHandle_eq (s.conn.sp.event.get k) events
      rw [pollReady, if_pos hin, heq]
      exact ⟨error, rfl⟩
    obtain ⟨error, heq⟩ := hready
    rw [heq]
    exact hsocket _ (hinv.socket.completed_rank hin error)
  | pollTimeout k =>
    cases h
    exact hsocket _ (hinv.socket.completed_rank hinternal Errno.etimedout)
  | handle k =>
    simp only [asyncStep] at h
    split at h <;> cases h
    next e type error sp heq =>
    obtain ⟨_, _, harg, hin, _, hsp⟩ := handleSocketEvent_some hinv.socket heq
    have hse : (s.conn.sp.event.get k).rank = 15 := by
      rw [SocketEvent.rank, if_neg (by simp [harg]), hin]
      rfl
    have hset : sp.rank + 15 = s.conn.sp.rank := by
      have hset := s.conn.sp.rank_setSocketEvent k { s.conn.sp.event.get k with arg := none, begun := 0 }
      rw [← hsp, hse] at hset
      exact hset
    have hqueued : Conn.queued { s.conn with sp := sp } = s.conn.queued := rfl
    have hnew : Callback.rank ⟨e, type, error, false⟩ = 14 := rfl
    simp only [AsyncSystem.rank, Conn.rank, hqueued, hnew, List.map_cons, List.sum_cons]
    show _ + 1 ≤ _ + 0
    omega
  | store cb =>
    simp only [asyncStep] at h
    split at h <;> cases h
    next hcb =>
    have herase := sum_map_erase hcb.1 Callback.rank
    have hrank : cb.rank = 14 := by
      rw [Callback.rank, hcb.2]
      rfl
    have hnew : Callback.rank { cb with stored := true } = 13 := rfl
    have hconn : (s.conn.setError cb.event (asyncEventError (s.conn.typeOf cb.event) cb.type cb.error)).rank =
      s.conn.rank := rfl
    simp only [AsyncSystem.rank, hnew, hconn, List.map_cons, List.sum_cons]
    show _ + 1 ≤ _ + 0
    omega
  | enter cb =>
    simp only [asyncStep] at h
    split at h <;> cases h
    next hcb =>
    have houtcome := AsyncSystem.outcome_rank { s with callbacks := s.callbacks.erase cb }
      (connEventsProcess s.conn (some cb.event))
    have herase := sum_map_erase hcb.1 Callback.rank
    have hrank : cb.rank = 13 := by
      rw [Callback.rank, hcb.2]
      rfl
    have hwork : (connEventsProcess s.conn (some cb.event)).1.rank = 12 := rfl
    have hconn : (connEventsProcess s.conn (some cb.event)).2.rank = s.conn.rank := rfl
    simp only [AsyncSystem.rank] at houtcome ⊢
    show _ + 1 ≤ _ + 0
    omega
  | prepare =>
    simp only [asyncStep] at h
    split at h <;> cases h
    next hmem =>
    have herase := sum_map_erase hmem Completion.rank
    have hqueued : s.conn.queued = [] := (hinv.queue.state.complete (hinv.complete_of_starting hmem)).1
    have hconn : (prepareForCallback s.conn).2.2.rank = s.conn.rank := by
      show s.conn.sp.rank + 0 = s.conn.sp.rank + 12 * s.conn.queued.length
      rw [hqueued]
      rfl
    simp only [AsyncSystem.rank, hconn, List.map_cons, List.sum_cons, Completion.rank] at herase ⊢
    show _ + 1 ≤ _ + 0
    omega
  | destroy x =>
    simp only [asyncStep] at h
    split at h
    next summary freeList mark =>
      split at h <;> cases h
      next hmem =>
      have herase := sum_map_erase hmem Completion.rank
      have hconn : (connEventFreeListDestroy s.conn freeList).rank = s.conn.rank := by
        rw [Conn.rank, Conn.queued, (connEventFreeListDestroy_quiet freeList s.conn).transaction,
          SOCK.rank_of_event (connEventFreeListDestroy_spec freeList s.conn).2.2.2]
        rfl
      simp only [AsyncSystem.rank, hconn, List.map_cons, List.sum_cons, Completion.rank] at herase ⊢
      show _ + 1 ≤ _ + 0
      omega
    · cases h
  | call x =>
    simp only [asyncStep] at h
    split at h
    next summary mark =>
      split at h <;> cases h
      next hmem =>
      have herase := sum_map_erase hmem Completion.rank
      have hconn : (callbackAsyncConsumer s.conn summary).rank = s.conn.rank := rfl
      simp only [AsyncSystem.rank, hconn, Completion.rank] at herase ⊢
      show _ + 1 ≤ _ + 0
      omega
    · cases h
  | _ => cases hinternal

/-! ### As long as there is work -/

/-- **Nothing is on its way:** no thread, no callback and no event in the engine. -/
structure AsyncSystem.Quiescent (s : AsyncSystem) : Prop where
  workers : s.workers = []
  callbacks : s.callbacks = []
  completions : s.completions = []
  linked : s.conn.sp.linked = []

/-- A thread inside `socketEventProcess` can leave it. -/
theorem eventProcessStep_leaves (c : Conn) (e : EventId) :
    ∃ m r, eventProcessStep c e .processing m = some r ∧ Stage.processing.spends r.1 = false := by
  -- a move of the process function that returns
  have hmoves : ∀ m : ProcessMove, (processMove c e m).any (fun r => r.1.isSome) = true →
      ∃ m r, eventProcessStep c e .processing m = some r ∧ Stage.processing.spends r.1 = false := by
    intro m hany
    obtain ⟨⟨r, c₁⟩, hmove, hsome⟩ := (Option.any_eq_true _ _).mp hany
    obtain ⟨r, rfl⟩ := Option.isSome_iff_exists.mp hsome
    refine ⟨.process m, processReturned c₁ e r, ?_, (processReturned_rank c₁ e r).2.1 _⟩
    simp only [eventProcessStep, hmove]
  by_cases hhandshake : (c.typeOf e).isHandshake = true
  · by_cases hempty : c.receiveBuffer = []
    · exact ⟨.checkBuffer, (.handshaking, c), by simp [eventProcessStep, hhandshake, hempty], rfl⟩
    · refine ⟨.checkBuffer, processReturned c e (Errno.eoverflow, .none), ?_,
        (processReturned_rank c e (Errno.eoverflow, .none)).2.1 _⟩
      simp [eventProcessStep, hhandshake, hempty]
  cases htype : c.typeOf e with
  | connect =>
    by_cases hstatus : (c.events e).status = .inProgress
    · exact hmoves (.ret 0 .none) (by simp [processMove, processReturn, htype, hstatus])
    · exact hmoves (.connectStart none Errno.enomem) (by simp [processMove, htype, hstatus])
  | disconnect =>
    by_cases hstatus : (c.events e).status = .inProgress
    · exact hmoves (.ret 0 .none) (by simp [processMove, processReturn, htype, hstatus])
    by_cases hnumber : c.sp.number = none
    · exact hmoves .disconnectStart (by simp [processMove, htype, hstatus, hnumber])
    · exact hmoves .disconnectStart (by simp [processMove, htype, hstatus, hnumber])
  | sslDisconnect => exact hmoves (.shutdown .failure) (by simp [processMove, htype])
  | accept => exact hmoves (.ret 0 .none) (by simp [processMove, processReturn, htype])
  | sslAccept | tlsAccept | sslConnect | tlsConnect => exact absurd (by rw [htype]; rfl) hhandshake
  | _ => exact hmoves (.ret 0 .none) (by simp [processMove, processReturn, htype, ConnEventType.eventClass])

/-- The engine takes no event when `epoll_ctl` fails. -/
theorem submitToEngine_refused {c : Conn} {e : EventId} {stage : Stage} {blockedOn : SocketEventType} {epollErr : Errno}
    (h : epollErr ≠ 0) : stage.spends (submitToEngine c e blockedOn epollErr).1 = false := by
  have hrefused : (socketEventWaitEx c.sp blockedOn e epollErr).1 ≠ 0 := by
    unfold socketEventWaitEx
    split
    · exact Nat.succ_ne_zero _
    split
    · exact Nat.succ_ne_zero _
    split
    · exact Nat.succ_ne_zero _
    next se _ =>
      simp only [sockEventAdd, if_pos h]
      obtain ⟨n, rfl⟩ := Nat.exists_eq_succ_of_ne_zero h
      exact Nat.succ_ne_zero n
  cases hw : socketEventWaitEx c.sp blockedOn e epollErr with
  | mk err sp =>
  rw [hw] at hrefused
  rw [submitToEngine_eq hw, if_neg hrefused]
  simp [Stage.spends]

/-- A thread inside `ConnEventsProcess` can go on. -/
theorem Worker.internal {s : AsyncSystem} {w : Worker} (hw : w ∈ s.workers) :
    ∃ a s', a.Internal s ∧ asyncStep s a = some s' ∧ a.spends s = false := by
  have hmoves : ∀ m r, eventProcessStep s.conn w.event w.stage m = some r → w.stage.spends r.1 = false →
      ∃ a s', AsyncAction.Internal s a ∧ asyncStep s a = some s' ∧ a.spends s = false := by
    intro m r hstep hspends
    have hwork : asyncStep s (.work w m) =
        some { s with conn := r.2, workers := ⟨w.event, r.1⟩ :: s.workers.erase w } := by
      simp only [asyncStep, if_pos hw, hstep]
    refine ⟨.work w m, _, trivial, hwork, ?_⟩
    rw [AsyncAction.spends, hstep]
    exact hspends
  cases hstage : w.stage with
  | destroying freeList => exact hmoves .destroy _ (by rw [hstage]; rfl) (by rw [hstage]; rfl)
  | starting =>
    refine hmoves .test _ (by rw [hstage]; rfl) ?_
    rw [hstage]
    split <;> rfl
  | processing =>
    obtain ⟨m, r, hstep, hspends⟩ := eventProcessStep_leaves s.conn w.event
    exact hmoves m r (hstage ▸ hstep) (hstage ▸ hspends)
  | handshaking =>
    refine hmoves (.handshake none .failure) _ (by rw [hstage]; rfl) ?_
    exact (processReturned_rank _ _ _).2.1 _
  | blocked blockedOn =>
    by_cases hproblem : s.conn.transaction.problem.isSome = true
    · exact hmoves .test (.aborting, _) (by rw [hstage, eventProcessStep, if_pos hproblem]) (by rw [hstage]; rfl)
    · exact hmoves .test (.submitting blockedOn, _) (by rw [hstage, eventProcessStep, if_neg hproblem])
        (by rw [hstage]; rfl)
  | submitting blockedOn =>
    -- `epoll_ctl` can fail
    refine hmoves (.submit Errno.enomem) _ (by rw [hstage]; rfl) ?_
    exact submitToEngine_refused (by decide)
  | aborting => exact hmoves .abort _ (by rw [hstage]; rfl) (by rw [hstage]; rfl)
  | aborted =>
    refine hmoves .judge _ (by rw [hstage]; rfl) ?_
    have hfinal := (abortStatus_final (s.conn.events w.event)).2
    simp [connEventProcessEnd, Stage.spends, hfinal]
  | returned st =>
    exact ⟨.relock w, _, trivial, by simp only [asyncStep, hstage, if_pos hw]; rfl, rfl⟩

/-- **While something is on its way, the conn can go on (proved),** without its budget. -/
theorem AsyncInv.internal {s : AsyncSystem} (hinv : AsyncInv s) (h : ¬ s.Quiescent) :
    ∃ a s', a.Internal s ∧ asyncStep s a = some s' ∧ a.spends s = false := by
  cases hworkers : s.workers with
  | cons w l => exact Worker.internal (hworkers ▸ List.mem_cons_self)
  | nil =>
  cases hcallbacks : s.callbacks with
  | cons cb l =>
    have hcb : cb ∈ s.callbacks := hcallbacks ▸ List.mem_cons_self
    cases hstored : cb.stored with
    | false => exact ⟨.store cb, _, trivial, if_pos ⟨hcb, hstored⟩, rfl⟩
    | true => exact ⟨.enter cb, _, trivial, if_pos ⟨hcb, hstored⟩, rfl⟩
  | nil =>
  cases hcompletions : s.completions with
  | cons x l =>
    have hx : x ∈ s.completions := hcompletions ▸ List.mem_cons_self
    cases x with
    | starting => exact ⟨.prepare, _, trivial, if_pos hx, rfl⟩
    | destroying summary freeList mark =>
      exact ⟨.destroy (.destroying summary freeList mark), _, trivial, if_pos hx, rfl⟩
    | calling summary mark => exact ⟨.call (.calling summary mark), _, trivial, if_pos hx, rfl⟩
  | nil =>
  have hlinked : s.conn.sp.linked ≠ [] := fun hnil => h ⟨hworkers, hcallbacks, hcompletions, hnil⟩
  obtain ⟨x, hx⟩ := List.exists_mem_of_ne_nil _ hlinked
  obtain ⟨k, harg⟩ := SOCK.mem_linked.mp hx
  cases hin : (s.conn.sp.event.get k).inEngine with
  | true => exact ⟨.pollTimeout k, _, hin, rfl, rfl⟩
  | false =>
    -- its thread has been begun
    have hbegun := (hinv.socket k).busy (by simp [harg])
    rw [hin] at hbegun
    have hhandle : handleSocketEvent s.conn.sp k = some (x, (s.conn.sp.event.get k).type,
        (s.conn.sp.event.get k).error,
        { s.conn.sp with event := s.conn.sp.event.set k (seUnlinkCe { s.conn.sp.event.get k with begun := 0 }) }) := by
      simp only [handleSocketEvent]
      rw [hbegun, harg]
      rfl
    exact ⟨.handle k, _, trivial, by simp only [asyncStep, hhandle]; rfl, rfl⟩

/-! ### Every run settles -/

/-- **Each transaction that was submitted has ended,** and the conn is idle with nothing queued, or the consumer has not
submitted what it queued. -/
structure AsyncSystem.Finished (s : AsyncSystem) : Prop where
  ended : submits s.conn.log = (prepared s.conn.log).length
  turn : s.conn.state = .idle ∧ s.conn.queued = [] ∨ s.conn.state = .asynchronousClient

/-- **A problem was recorded while events were queued:** no thread will start them. -/
def AsyncSystem.Stranded (s : AsyncSystem) : Prop := s.conn.state = .asynchronousEngine ∧ Stuck (view s.conn)

/-- **What is left when nothing is on its way.**  There is no completion thread, so each summary has been told. -/
structure AsyncSystem.Settled (s : AsyncSystem) : Prop extends s.Quiescent where
  outcome : s.Finished ∨ s.Stranded

/-- The events of a submitted transaction are not stranded, or they are for good. -/
theorem reachable_drains {s s' : AsyncSystem} (hinit : s.Initial) (h : Reachable (enabled asyncStep) s s') :
    DrainInv (view s'.conn) ∨ Stuck (view s'.conn) := by
  have key : AsyncInv s' ∧ (DrainInv (view s'.conn) ∨ Stuck (view s'.conn)) := by
    refine h.invariant (P := fun t => AsyncInv t ∧ (DrainInv (view t.conn) ∨ Stuck (view t.conn)))
      ⟨.initial hinit, .inl (.initial hinit)⟩ ?_
    rintro t a t' ⟨hinv, hdrains⟩ _ hstep
    obtain ⟨hinv', hchange⟩ := asyncStep_effect hinv hstep
    refine ⟨hinv', ?_⟩
    rcases hdrains with hdrain | hstuck
    · by_cases hsafe : StepSafe t a
      · have hrefines : ReachableVia QueueStep DrainSafe (view t.conn) (view t'.conn) :=
          hchange.refines.weaken fun _ _ himp => himp hsafe
        exact .inl (drainInv_reachable hinv.queue hdrain hrefines)
      · exact .inr (asyncStep_stuck hinv hstep hsafe)
    · exact .inr (stuck_reachable hinv.queue hstuck hchange.refines)
  exact key.2

theorem AsyncInv.settled {s : AsyncSystem} (hinv : AsyncInv s)
    (hdrains : DrainInv (view s.conn) ∨ Stuck (view s.conn)) (h : s.Quiescent) : s.Settled := by
  have hthreads : s.conn.transaction.threads = 0 := by
    rw [hinv.threads, h.workers]
    rfl
  have hinactive : ∀ k, s.conn.activeEvent.get k = none := fun k => by
    cases hk : s.conn.activeEvent.get k with
    | none => rfl
    | some x =>
      have hx := hinv.processing_of_slot hk
      rw [AsyncSystem.processing, AsyncSystem.owned, h.workers, h.callbacks, h.linked] at hx
      cases hx
  have hsubmits := hinv.queue.life.submits hinv.queue.state.async
  refine ⟨h, ?_⟩
  rcases hinv.queue.state.async with hs | hs | hs | hs
  · rw [hs, if_neg (by decide), if_neg (by decide)] at hsubmits
    exact .inl ⟨hsubmits, .inl ⟨hs, (hinv.queue.state.idle hs).1⟩⟩
  · rw [hs, if_neg (by decide), if_neg (by decide)] at hsubmits
    exact .inl ⟨hsubmits, .inr hs⟩
  · exact .inr ⟨hs, hdrains.resolve_left fun hdrain => hdrain.busy hs hthreads hinactive⟩
  · -- its completion thread would be on its way
    have hcount := hinv.completing
    rw [h.completions, if_pos (show s.conn.state = .asynchronousEngineComplete from hs)] at hcount
    cases hcount

theorem SettleStep.step {t t' : AsyncSystem × ℕ} {a : AsyncAction} (h : SettleStep t a t') :
    asyncStep t.1 a = some t'.1 := by
  cases h with
  | free _ hstep _ => exact hstep
  | spend _ hstep _ => exact hstep

/-- Nothing is stranded along runs of safe steps. -/
theorem not_stranded {s s' : AsyncSystem} (hinit : s.Initial) (h : ReachableVia (enabled asyncStep) StepSafe s s') :
    ¬ s'.Stranded := by
  have hdrain : DrainInv (view s'.conn) :=
    drainInv_reachable (AsyncInv.initial hinit).queue (.initial hinit) (view_reachable_safe hinit h)
  exact fun hstranded => hstranded.2.2 (hdrain.drained hstranded.2.1)

/-- Every run of the library arrives at a state where nothing is on its way. -/
theorem inevitably_settled {s s' : AsyncSystem} (hinit : s.Initial) (h : Reachable (enabled asyncStep) s s')
    (budget : ℕ) : Inevitably SettleStep (fun t => t.1.Settled) (s', budget) := by
  have hstart : Reachable (enabled asyncStep) s (s', budget).1 := h
  refine Inevitably.of_rank (I := fun t : AsyncSystem × ℕ => Reachable (enabled asyncStep) s t.1)
    (fun t => 16 * t.2 + t.1.rank) (fun t ht => ?_) hstart
  obtain ⟨u, budget⟩ := t
  have hinv : AsyncInv u := asyncInv_reachable hinit ht
  by_cases hquiescent : u.Quiescent
  · exact .inl (hinv.settled (reachable_drains hinit ht) hquiescent)
  · right
    obtain ⟨a, u', hinternal, hstep, hspends⟩ := hinv.internal hquiescent
    refine ⟨⟨a, _, .free hinternal hstep hspends⟩, fun b v hsettle => ?_⟩
    cases hsettle with
    | free hinternal hstep hspends =>
      have hrank := asyncStep_rank hinv hinternal hstep
      rw [hspends, if_neg (by simp)] at hrank
      refine ⟨ht.next trivial hstep, ?_⟩
      show 16 * budget + AsyncSystem.rank _ < 16 * budget + u.rank
      simp only []
      omega
    | @spend _ _ _ budget hinternal hstep hspends =>
      have hrank := asyncStep_rank hinv hinternal hstep
      rw [hspends, if_pos rfl] at hrank
      refine ⟨ht.next trivial hstep, ?_⟩
      show 16 * budget + AsyncSystem.rank _ < 16 * (budget + 1) + u.rank
      simp only []
      omega

/-- **A conn that is left alone settles (proved).**  Whatever the consumer has done so far, and however often a process
function makes calls or waits, as long as it does so only `budget` times.  Its transaction has ended, unless a problem
was recorded while events were queued, before or on the way: when each such step was safe, nothing is stranded. -/
theorem reachable_settles {s s' : AsyncSystem} (hinit : s.Initial) (h : Reachable (enabled asyncStep) s s')
    (budget : ℕ) : Inevitably SettleStep (fun t => t.1.Settled) (s', budget) ∧
      (ReachableVia (enabled asyncStep) StepSafe s s' → ∀ t : AsyncSystem × ℕ,
        ReachableVia SettleStep (fun t a => StepSafe t.1 a) (s', budget) t → ¬ t.1.Stranded) := by
  refine ⟨inevitably_settled hinit h budget, fun hsafe t ht => not_stranded hinit (hsafe.trans ?_)⟩
  have hsteps : ∀ u a u', True → StepSafe u.1 a → SettleStep u a u' →
      ReachableVia (enabled asyncStep) StepSafe u.1 u'.1 :=
    fun _ _ _ _ hok hstep => .single hok hstep.step
  exact ht.simulate Prod.fst (fun _ _ => trivial) hsteps

/-- The transaction that has a partial result, with nothing behind it: it is called back. -/
theorem reachable_settles_partialResult : ∃ s : AsyncSystem, s.conn.state = .asynchronousEngineComplete ∧
    Inevitably SettleStep (fun t => t.1.Settled) (s, 3) ∧ ¬ s.Stranded := by
  obtain ⟨s, hrun, hobs⟩ := Option.map_eq_some_iff.mp partialRun_complete
  simp only [AsyncSystem.observe, Prod.mk.injEq] at hobs
  have hsafe := reachableVia_of_runFrom hrun
  obtain ⟨hsettles, hnone⟩ := reachable_settles (AsyncSystem.new_initial (some 3)) hsafe.reachable 3
  exact ⟨s, hobs.1, hsettles, hnone hsafe (s, 3) .init⟩

end Connio
