import Connio.AsyncApi
import Connio.Duplex
import Connio.Enqueue
import Mathlib.Data.List.TakeWhile

/-!
# The SSL disconnect before a disconnect

`EventEnqueue` puts an SSL disconnect in front of a disconnect when `sslEnabled` is set, a flag that follows
some of the events that are queued.

* `queuedTypes` — the types of the events a transaction has queued;
* `wouldBeSecured` — whether the socket is secured once all of them have completed; `shadow` — what the flag
  says of them;
* `Begun`, `TrackedSystem`, `trackedStep` — the system, and how its transaction began;
* `Tracked`, `reachable_tracked` — **PROVED**: the flag is the shadow of the queued events;
* `Foreseen`, `shadow_eq_iff` — **PROVED**: when the shadow is right;
* `disconnect_preceded` — **PROVED**: a disconnect is queued as it has to be exactly when the shadow is right.
-/

namespace Connio

open Connio.Lib

/-! ### What the queued events do to the socket -/

/-- The types of the events the transaction has queued, newest first. -/
def queuedTypes (c : Conn) : List ConnEventType := (appended (txnLog c.log)).map c.typeOf

/-- The socket is secured once the events of a transaction have completed, newest first; `start` is what it
was when the transaction began. -/
def wouldBeSecured (start : Bool) : List ConnEventType → Bool
  | [] => start
  | t :: ts =>
    if t.isHandshake then true else if t = .sslDisconnect then false else wouldBeSecured start ts

/-- The events that end a session, or the connection. -/
def ConnEventType.endsSession (t : ConnEventType) : Bool := t = .sslDisconnect || t = .disconnect

/-- What `sslDisconnectEventNeeded` makes of the events of a transaction, newest first. -/
def shadow (start : Bool) : List ConnEventType → Bool
  | [] => start
  | t :: ts => if t = .sslConnect then true else if t.endsSession then false else shadow start ts

/-- How a transaction began: the socket, and whether its first call went through `AsyncQueueStatusInit`. -/
structure Begun where
  sp : SOCK
  initialised : Bool

/-- `AsyncQueueStatusInit` has found SSL active. -/
def Begun.recorded (b : Begun) : Bool := b.initialised && b.sp.number.isSome && b.sp.sslConn.isSome

/-- The events queued since the last one that ends a session. -/
def sinceEnd (types : List ConnEventType) : List ConnEventType := types.takeWhile (!·.endsSession)

/-- A handshake has been queued since then. -/
def handshakeSinceEnd (types : List ConnEventType) : Bool := (sinceEnd types).any ConnEventType.isHandshake

/-- **The shadow is right:** since the last SSL disconnect or disconnect, an SSL connect has been queued; or no
handshake has, and the last of them has left the socket in the clear; or there was none, and the session that
was active when the transaction began has been recorded. -/
def Foreseen (b : Begun) (types : List ConnEventType) : Prop :=
  .sslConnect ∈ sinceEnd types ∨
    match types.dropWhile (!·.endsSession) with
    | [] =>
      if b.sp.sslConn.isSome then b.sp.number.isSome ∧ b.initialised = true
      else handshakeSinceEnd types = false
    | .disconnect :: earlier =>
      handshakeSinceEnd types = false ∧ wouldBeSecured b.sp.sslConn.isSome earlier = false
    | _ :: _ => handshakeSinceEnd types = false

instance (b : Begun) (types : List ConnEventType) : Decidable (Foreseen b types) := by
  unfold Foreseen
  refine @instDecidableOr _ _ _ ?_
  split <;> infer_instance

section Shadow

variable {start : Bool} {types l : List ConnEventType}

theorem wouldBeSecured_append (start : Bool) (types : List ConnEventType) (h : ∀ t ∈ l, t.endsSession = false) :
    wouldBeSecured start (l ++ types) =
      (l.any ConnEventType.isHandshake || wouldBeSecured start types) := by
  induction l with
  | nil => rfl
  | cons t l ih =>
    have hrest := ih fun x hx => h x (List.mem_cons_of_mem _ hx)
    have hend := h t List.mem_cons_self
    have hne : t ≠ .sslDisconnect := by
      rintro rfl
      cases hend
    simp only [List.cons_append, wouldBeSecured, hrest, if_neg hne, List.any_cons]
    cases t.isHandshake <;> rfl

theorem shadow_append (start : Bool) (types : List ConnEventType) (h : ∀ t ∈ l, t.endsSession = false) :
    shadow start (l ++ types) = (decide (.sslConnect ∈ l) || shadow start types) := by
  induction l with
  | nil => rfl
  | cons t l ih =>
    have hrest := ih fun x hx => h x (List.mem_cons_of_mem _ hx)
    have hend := h t List.mem_cons_self
    simp only [List.cons_append, shadow, hrest, hend, List.mem_cons, Bool.false_eq_true, if_false]
    by_cases ht : t = .sslConnect
    · simp only [ht, true_or, if_true, decide_true, Bool.true_or]
    · simp only [if_neg ht, Ne.symm ht, false_or]

theorem sinceEnd_ends (types : List ConnEventType) : ∀ t ∈ sinceEnd types, t.endsSession = false := fun t ht => by
  simpa using List.mem_takeWhile_imp ht

/-- The event that `sinceEnd` stops at. -/
theorem dropWhile_ends {t : ConnEventType} {earlier : List ConnEventType}
    (h : types.dropWhile (!·.endsSession) = t :: earlier) : t = .sslDisconnect ∨ t = .disconnect := by
  have hhead := List.head?_dropWhile_not (fun t : ConnEventType => !t.endsSession) types
  rw [h] at hhead
  simpa [ConnEventType.endsSession, or_iff_not_imp_left] using hhead

/-- **When the shadow is right (proved).** -/
theorem shadow_eq_iff (b : Begun) (types : List ConnEventType) :
    shadow b.recorded types = wouldBeSecured b.sp.sslConn.isSome types ↔ Foreseen b types := by
  have hsplit : types = sinceEnd types ++ types.dropWhile (!·.endsSession) :=
    List.takeWhile_append_dropWhile.symm
  have hshadow := shadow_append b.recorded (types.dropWhile (!·.endsSession)) (sinceEnd_ends types)
  have hsecured := wouldBeSecured_append b.sp.sslConn.isSome (types.dropWhile (!·.endsSession))
    (sinceEnd_ends types)
  rw [← hsplit] at hshadow hsecured
  rw [hshadow, hsecured]
  unfold Foreseen
  by_cases hconnect : .sslConnect ∈ sinceEnd types
  · have hsome : (sinceEnd types).any ConnEventType.isHandshake = true :=
      List.any_eq_true.mpr ⟨_, hconnect, rfl⟩
    simp [hconnect, hsome]
  · simp only [hconnect, decide_false, Bool.false_or, false_or]
    show _ = (handshakeSinceEnd types || _) ↔ _
    cases hrest : types.dropWhile (!·.endsSession) with
    | nil =>
      simp only [shadow, wouldBeSecured, Begun.recorded]
      cases b.sp.sslConn.isSome <;> cases b.sp.number.isSome <;> cases b.initialised <;>
        cases handshakeSinceEnd types <;> decide
    | cons t earlier =>
      rcases dropWhile_ends hrest with rfl | rfl
      · have hclear : shadow b.recorded (.sslDisconnect :: earlier) = false := rfl
        have hclear' : wouldBeSecured b.sp.sslConn.isSome (.sslDisconnect :: earlier) = false := rfl
        rw [hclear, hclear']
        cases handshakeSinceEnd types <;> simp
      · have hclear : shadow b.recorded (.disconnect :: earlier) = false := rfl
        have hsame : wouldBeSecured b.sp.sslConn.isSome (.disconnect :: earlier) =
            wouldBeSecured b.sp.sslConn.isSome earlier := rfl
        rw [hclear, hsame]
        cases handshakeSinceEnd types <;> simp

end Shadow

/-! ### What leaves the queued events alone -/

/-- Nothing is queued, the flag stays, no problem is taken back and no transaction ends. -/
structure Unqueued (c c' : Conn) : Prop where
  sslEnabled : c'.transaction.sslEnabled = c.transaction.sslEnabled
  queued : appended (txnLog c'.log) = appended (txnLog c.log)
  problem : c'.transaction.problem = none → c.transaction.problem = none
  state : c'.state = .idle → c.state = .idle

section Frame

variable {c c' c'' : Conn}

theorem Unqueued.refl (c : Conn) : Unqueued c c := ⟨rfl, rfl, id, id⟩

theorem LockRun.unqueued {kind : LockKind} (h : LockRun kind c c') (hkind : kind ≠ .queueing) :
    Unqueued c c' :=
  ⟨h.sslEnabled hkind, (h.appends hkind).txn, fun hp => by_contra fun hsome => h.frame.problem hsome hp,
    h.idle_of_idle⟩

theorem Quiet.unqueued (h : Quiet c c') : Unqueued c c' :=
  ⟨by rw [h.transaction], h.appends.txn, fun hp => by rwa [h.transaction] at hp, fun hs => by rwa [h.state] at hs⟩

/-- The actions that queue events or end a transaction. -/
def AsyncAction.queues : AsyncAction → Bool
  | .enqueue _ _ _ | .enqueueFailure _ _ | .prepare => true
  | _ => false

/-- **Every other step (proved).** -/
theorem asyncStep_unqueued {s s' : AsyncSystem} {a : AsyncAction} (hinv : AsyncInv s)
    (h : asyncStep s a = some s') (ha : a.queues = false) : Unqueued s.conn s'.conn := by
  have hkind : a.lockKind ≠ .queueing := by
    cases a <;> first | exact fun h => LockKind.noConfusion h | cases ha
  have hprepare : a ≠ .prepare := by
    rintro rfl
    cases ha
  cases asyncStep_run hinv h hprepare with
  | lock run => exact run.unqueued hkind
  | quiet quiet => exact quiet.unqueued

end Frame

/-! ### What `EventEnqueue` queues -/

section Enqueue

variable {c c' : Conn} {e : EventId}

/-- What has queued `new` and kept the types. -/
theorem queuedTypes_of (new : List EventId) (hinv : QueueInv (view c))
    (htype : ∀ e ∈ allocated c.log, c'.typeOf e = c.typeOf e)
    (hnew : appended (txnLog c'.log) = new ++ appended (txnLog c.log)) :
    queuedTypes c' = new.map c'.typeOf ++ queuedTypes c := by
  rw [queuedTypes, hnew, List.map_append, queuedTypes]
  congr 1
  apply List.map_congr_left
  intro x hx
  have hmem : x ∈ appended c.log := by
    obtain ⟨y, hy, hxy⟩ := List.mem_filterMap.mp hx
    exact List.mem_filterMap.mpr ⟨y, (List.takeWhile_prefix _).subset hy, hxy⟩
  exact htype x (hinv.order.accepted_allocated x (hinv.order.appended_accepted x hmem))

/-- The flag after an event is the shadow of it. -/
theorem sslDisconnectEventNeeded_flag (c : Conn) (e : EventId) :
    (sslDisconnectEventNeeded c e).2.transaction.sslEnabled =
      shadow c.transaction.sslEnabled [c.typeOf e] := by
  unfold sslDisconnectEventNeeded
  cases c.typeOf e with
  | disconnect => cases hflag : c.transaction.sslEnabled <;> simp [hflag, shadow, ConnEventType.endsSession]
  | _ => rfl

/-- **`EventEnqueue` (proved):** what it queues, and the flag it leaves. -/
theorem eventEnqueue_queued (hwf : c.Wf) (hinv : QueueInv (view c)) (halloc : e ∈ allocated c.log)
    (haccepted : e ∉ accepted c.log) {allocs : Allocs} (hnew : allocs.Fresh c) {source : CodeSource}
    {r : Outcome × Conn} (htypes : ∀ e ∈ allocated c.log, r.2.typeOf e = c.typeOf e)
    (h : eventEnqueue c (some e) allocs source = some r) (hp : r.2.transaction.problem = none) :
    ∃ flush, (flush = [] ∨ flush = [.flush]) ∧
      queuedTypes r.2 = c.typeOf e ::
        ((if c.typeOf e = .disconnect ∧ (asyncClientEnter c).transaction.sslEnabled = true then
          [.sslDisconnect] else []) ++ (flush ++ queuedTypes c)) ∧
      r.2.transaction.sslEnabled = shadow (asyncClientEnter c).transaction.sslEnabled [c.typeOf e] := by
  have hqueued := eventEnqueue_enqueued hwf hinv halloc haccepted hnew h hp
  obtain ⟨hperm, _⟩ := eventEnqueue_state h
  have hlog := (asyncClientEnter_effect (P := False) hwf hperm).2.2.2.2
  have htypeOf : (asyncClientEnter c).typeOf = c.typeOf := by
    unfold Conn.typeOf
    rw [(asyncClientEnter_frame c).2.2.1]
  have htxn := hqueued.appends.txn
  rw [hlog] at htxn
  have hall := queuedTypes_of _ hinv htypes htxn
  refine ⟨if FlushNeeded (asyncClientEnter c) e then [.flush] else [], ?_, ?_, ?_⟩
  · split
    · exact .inr rfl
    · exact .inl rfl
  · rw [hall, List.map_reverse, List.map_append, List.map_append, hqueued.flush, hqueued.sslDisconnect,
      List.map_singleton, hqueued.type, htypeOf]
    by_cases hflush : FlushNeeded (asyncClientEnter c) e <;>
      by_cases hssl : c.typeOf e = .disconnect ∧ (asyncClientEnter c).transaction.sslEnabled = true <;>
        simp [hflush, hssl]
  · rw [hqueued.sslEnabled, sslDisconnectEventNeeded_flag, htypeOf]

end Enqueue

/-! ### The transaction and how it began -/

structure TrackedSystem where
  system : AsyncSystem
  /-- `none` while the conn is idle -/
  begun : Option Begun

/-- The calls that go through `AsyncQueueStatusInit` when they are the first of a transaction. -/
def AsyncAction.initialises : AsyncAction → Bool
  | .enqueue _ _ _ | .enqueueFailure _ _ => true
  | _ => false

def trackedStep (t : TrackedSystem) (a : AsyncAction) : Option TrackedSystem :=
  (asyncStep t.system a).map fun s =>
    ⟨s, if s.conn.state = .idle then none
      else some (t.begun.getD ⟨t.system.conn.sp, a.initialises⟩)⟩

/-- A conn between two transactions, or a new one. -/
structure AsyncSystem.Idle (s : AsyncSystem) : Prop where
  inv : AsyncInv s
  state : s.conn.state = .idle
  sslEnabled : s.conn.transaction.sslEnabled = false
  queued : queuedTypes s.conn = []

/-- **The flag is the shadow of the queued events,** as long as there is no problem. -/
structure Tracked (t : TrackedSystem) : Prop where
  inv : AsyncInv t.system
  begun : t.begun = none ↔ t.system.conn.state = .idle
  idle : t.system.conn.state = .idle → t.system.Idle
  flag : ∀ b, t.begun = some b → t.system.conn.transaction.problem = none →
    t.system.conn.transaction.sslEnabled = shadow b.recorded (queuedTypes t.system.conn)

section Tracking

variable {t t' : TrackedSystem} {s s' : AsyncSystem}

/-- The shadow of one more event. -/
theorem shadow_cons (start : Bool) (x : ConnEventType) (types : List ConnEventType) :
    shadow start (x :: types) = shadow (shadow start types) [x] := rfl

/-- Neither a flush nor an SSL disconnect before a disconnect shows behind it. -/
theorem shadow_queued {start : Bool} {x : ConnEventType} {flush types : List ConnEventType}
    (hflush : flush = [] ∨ flush = [.flush]) (inserted : Bool) :
    shadow start (x :: ((if x = .disconnect ∧ inserted = true then [.sslDisconnect] else []) ++
      (flush ++ types))) = shadow (shadow start types) [x] := by
  have hskip : shadow start (flush ++ types) = shadow start types := by
    rcases hflush with rfl | rfl <;> rfl
  rw [shadow_cons]
  split
  next h =>
    rw [h.1]
    rfl
  · rw [List.nil_append, hskip]

/-- The flag of a conn that has entered client mode. -/
theorem asyncClientEnter_flag (h : Tracked t) (hperm : queueingPermitted t.system.conn = true)
    (hp : t.system.conn.transaction.problem = none) :
    (asyncClientEnter t.system.conn).transaction.sslEnabled =
      shadow (t.begun.getD ⟨t.system.conn.sp, true⟩).recorded (queuedTypes t.system.conn) := by
  by_cases hidle : t.system.conn.state = .idle
  · have hnone := h.begun.mpr hidle
    have hold := h.idle hidle
    rw [hnone, hold.queued]
    unfold asyncClientEnter asyncQueueStatusInit
    rw [if_pos (by rw [hidle]; decide)]
    simp only [Option.getD_none, shadow, Begun.recorded, Bool.true_and]
    split
    next hssl => simp [connChangeState, hssl.1, hssl.2]
    next hssl =>
      show t.system.conn.transaction.sslEnabled = _
      rw [hold.sslEnabled]
      cases hn : t.system.conn.sp.number.isSome <;> cases hc : t.system.conn.sp.sslConn.isSome
      all_goals first | rfl | exact absurd ⟨hn, hc⟩ hssl
  · obtain ⟨b, hb⟩ := Option.ne_none_iff_exists'.mp fun h' => hidle (h.begun.mp h')
    have hclient : t.system.conn.state = .asynchronousClient := by
      unfold queueingPermitted at hperm
      split at hperm
      next hs => exact absurd hs hidle
      next hs => exact hs
      · cases hperm
    unfold asyncClientEnter
    rw [if_neg (by simp [hclient]), hb]
    exact h.flag b hb hp

/-- A step that queues nothing. -/
theorem tracked_unqueued {a : AsyncAction} (h : Tracked t) (hs : asyncStep t.system a = some s')
    (hsame : Unqueued t.system.conn s'.conn)
    (hfirst : t.begun = none → s'.conn.state ≠ .idle → a.initialises = false) :
    Tracked ⟨s', if s'.conn.state = .idle then none
      else some (t.begun.getD ⟨t.system.conn.sp, a.initialises⟩)⟩ := by
  have htypes : queuedTypes s'.conn = queuedTypes t.system.conn :=
    queuedTypes_of [] h.inv.queue (fun e he => asyncStep_typeOf h.inv hs he) hsame.queued
  have hinv := (asyncStep_effect h.inv hs).1
  refine ⟨hinv, ?_, fun hidle => ?_, fun b hb hp => ?_⟩
  · by_cases hidle : s'.conn.state = .idle <;> simp [hidle]
  · have hold := h.idle (hsame.state hidle)
    exact ⟨hinv, hidle, hsame.sslEnabled.trans hold.sslEnabled, htypes.trans hold.queued⟩
  · simp only at hb
    split at hb
    · cases hb
    next hidle =>
      rw [hsame.sslEnabled, htypes]
      cases hb
      cases hbegun : t.begun with
      | some b => exact h.flag b hbegun (hsame.problem hp)
      | none =>
        have hold := h.idle (h.begun.mp hbegun)
        rw [hold.sslEnabled, hold.queued, Option.getD_none, hfirst hbegun hidle]
        rfl

/-- What a consumer call queues is in the shadow. -/
theorem tracked_queued {a : AsyncAction} (hinv : AsyncInv s')
    (hstate : s'.conn.state ≠ .idle) (ha : a.initialises = true)
    (hflag : s'.conn.transaction.problem = none → s'.conn.transaction.sslEnabled =
      shadow (t.begun.getD ⟨t.system.conn.sp, true⟩).recorded (queuedTypes s'.conn)) :
    Tracked ⟨s', if s'.conn.state = .idle then none
      else some (t.begun.getD ⟨t.system.conn.sp, a.initialises⟩)⟩ := by
  rw [if_neg hstate, ha]
  refine ⟨hinv, ?_, fun hidle => absurd hidle hstate, fun b hb hp => ?_⟩
  · simp [hstate]
  · cases hb
    exact hflag hp

/-- **`EventEnqueue` keeps the shadow (proved).** -/
theorem tracked_enqueue {connEvent : Option EventId} {allocs : Allocs} {source : CodeSource}
    (h : Tracked t) (hs : asyncStep t.system (.enqueue connEvent allocs source) = some s') :
    Tracked ⟨s', if s'.conn.state = .idle then none
      else some (t.begun.getD ⟨t.system.conn.sp, true⟩)⟩ := by
  have hinv := (asyncStep_effect h.inv hs).1
  have hrefused := hs
  simp only [asyncStep] at hs
  split at hs <;> cases hs
  next hok =>
    cases hr : eventEnqueue t.system.conn connEvent allocs source with
    | none =>
      have hidle : t.begun ≠ none := fun hnone => by
        rw [eventEnqueue, queueingPermitted, h.begun.mp hnone] at hr
        simp only [if_true] at hr
        split at hr <;> cases hr
      refine tracked_unqueued (a := .enqueue connEvent allocs source) h hrefused ?_
        fun hnone => absurd hnone hidle
      unfold AsyncSystem.enqueue
      rw [hr]
      cases connEvent with
      | none => exact .refl _
      | some e =>
        have hrun : LockRun .plain t.system.conn (t.system.conn.note (.refuse e)) := (LockRun.refl _).note rfl
        exact hrun.unqueued (by decide)
    | some r =>
      have hconn : (t.system.enqueue connEvent allocs source).conn = r.2 := by
        unfold AsyncSystem.enqueue
        rw [hr]
        exact AsyncSystem.outcome_conn _ r
      obtain ⟨hperm, hstate⟩ := eventEnqueue_state hr
      refine tracked_queued (a := .enqueue connEvent allocs source) hinv (by rwa [hconn]) rfl ?_
      rw [hconn]
      intro hp
      have hbefore : t.system.conn.transaction.problem = none := by
        by_contra hsome
        exact (eventEnqueue_run _ hr).frame.problem hsome hp
      have hflag := asyncClientEnter_flag h hperm hbefore
      cases connEvent with
      | none =>
        have hsame := (eventEnqueue_none_run hr).unqueued (by decide)
        have hlog : (asyncClientEnter t.system.conn).log = t.system.conn.log :=
          (asyncClientEnter_effect (P := False) h.inv.wf hperm).2.2.2.2
        have htypes : queuedTypes r.2 = queuedTypes t.system.conn :=
          queuedTypes_of [] h.inv.queue
            (fun e he => hconn ▸ asyncStep_typeOf h.inv hrefused he) (by rw [hsame.queued, hlog]; rfl)
        rw [hsame.sslEnabled, htypes, hflag]
      | some e =>
        obtain ⟨halloc, haccepted⟩ := h.inv.caller_new (hok.1 e rfl)
        obtain ⟨flush, hflush, htypes, hafter⟩ := eventEnqueue_queued h.inv.wf h.inv.queue halloc haccepted
          (Allocs.fresh_iff hok.2) (fun e he => hconn ▸ asyncStep_typeOf h.inv hrefused he) hr hp
        rw [hafter, htypes, shadow_queued hflush, hflag]

/-- `PrepareForCallback` ends the transaction. -/
theorem prepareForCallback_queued (c : Conn) : queuedTypes (prepareForCallback c).2.2 = [] := by
  have hlog : (prepareForCallback c).2.2.log = .prepare (prepareForCallback c).1 :: c.log := rfl
  rw [queuedTypes, hlog, txnLog, List.takeWhile_cons_of_neg (by simp [LogEntry.isPrepare])]
  rfl

/-- `EventEnqueueFailure` records a problem. -/
theorem tracked_enqueueFailure {errno : Errno} {source : CodeSource} (h : Tracked t)
    (hs : asyncStep t.system (.enqueueFailure errno source) = some s') :
    Tracked ⟨s', if s'.conn.state = .idle then none
      else some (t.begun.getD ⟨t.system.conn.sp, true⟩)⟩ := by
  have hinv := (asyncStep_effect h.inv hs).1
  have hstep := hs
  cases hs
  by_cases hperm : queueingPermitted t.system.conn = true
  · have hconn : eventEnqueueFailure t.system.conn errno source =
        eventQueueAbort (asyncClientEnter t.system.conn) none ⟨.failed, errno, source⟩ := if_pos hperm
    refine tracked_queued (a := .enqueueFailure errno source) hinv (fun hidle => ?_) rfl fun hp => ?_
    · rw [hconn] at hidle
      exact asyncClientEnter_not_idle _ ((eventQueueAbort_run _ _ _).idle_of_idle hidle)
    · rw [hconn] at hp
      exact absurd hp (eventQueueAbort_problem (asyncClientEnter_effect (P := False) h.inv.wf hperm).1.wf _ _)
  · have hconn : eventEnqueueFailure t.system.conn errno source = t.system.conn := if_neg hperm
    refine tracked_unqueued (a := .enqueueFailure errno source) h hstep ?_ fun hnone => ?_
    · show Unqueued _ (eventEnqueueFailure t.system.conn errno source)
      rw [hconn]
      exact .refl _
    · exact absurd (by rw [queueingPermitted, h.begun.mp hnone]) hperm

/-- **One step keeps the shadow (proved).** -/
theorem trackedStep_tracked {a : AsyncAction} (h : Tracked t) (hstep : trackedStep t a = some t') :
    Tracked t' := by
  obtain ⟨s', hs, rfl⟩ := Option.map_eq_some_iff.mp hstep
  by_cases hq : a.queues = false
  · refine tracked_unqueued h hs (asyncStep_unqueued h.inv hs hq) fun _ _ => ?_
    cases a <;> first | rfl | cases hq
  · have hinv := (asyncStep_effect h.inv hs).1
    cases a with
    | enqueue connEvent allocs source => exact tracked_enqueue h hs
    | enqueueFailure errno source => exact tracked_enqueueFailure h hs
    | prepare =>
      simp only [asyncStep] at hs
      split at hs <;> cases hs
      refine ⟨hinv, by simp [prepareForCallback, connChangeState],
        fun _ => ⟨hinv, rfl, rfl, prepareForCallback_queued t.system.conn⟩, ?_⟩
      · intro b hb
        simp [prepareForCallback, connChangeState] at hb
    | _ => exact absurd rfl hq

/-- A new conn is idle. -/
theorem AsyncSystem.Initial.idle (h : s.Initial) (hssl : s.conn.transaction.sslEnabled = false) : s.Idle := by
  refine ⟨.initial h, h.state, hssl, ?_⟩
  rw [queuedTypes, h.log]
  rfl

/-- **The flag is the shadow in every state that is reached (proved).** -/
theorem reachable_tracked (hidle : s.Idle) (ht : Reachable (enabled trackedStep) ⟨s, none⟩ t) : Tracked t := by
  apply ht.invariant (P := Tracked)
  · exact ⟨hidle.inv, by simp [hidle.state], fun _ => hidle, fun b hb => (by cases hb)⟩
  · exact fun t a t' h _ hstep => trackedStep_tracked h hstep

/-! ### The SSL disconnect before a disconnect -/

/-- A disconnect has been queued behind `types`, with an SSL disconnect directly before it when the socket
would be secured there, and with none otherwise; a flush may have been inserted first. -/
def DisconnectPreceded (b : Begun) (types types' : List ConnEventType) : Prop :=
  ∃ flush, (flush = [] ∨ flush = [.flush]) ∧ types' = .disconnect ::
    ((if wouldBeSecured b.sp.sslConn.isSome types then [.sslDisconnect] else []) ++ (flush ++ types))

/-- What is inserted can be told from what is queued. -/
theorem inserted_inj {types flush flush' : List ConnEventType} {inserted inserted' : Bool}
    (hflush : flush = [] ∨ flush = [.flush]) (hflush' : flush' = [] ∨ flush' = [.flush])
    (h : (if inserted then [ConnEventType.sslDisconnect] else []) ++ (flush ++ types) =
      (if inserted' then [.sslDisconnect] else []) ++ (flush' ++ types)) : inserted = inserted' := by
  rw [← List.append_assoc, ← List.append_assoc, List.append_cancel_right_eq] at h
  revert h
  rcases hflush with rfl | rfl <;> rcases hflush' with rfl | rfl <;> cases inserted <;> cases inserted' <;>
    decide

/-- **The SSL disconnect before a disconnect (proved):** in every run, when a disconnect is queued without a
problem, it is preceded as it has to be exactly when the shadow of the transaction is right. -/
theorem disconnect_preceded (hidle : s.Idle) (ht : Reachable (enabled trackedStep) ⟨s, none⟩ t) {e : EventId}
    {allocs : Allocs} {source : CodeSource} (hstep : trackedStep t (.enqueue (some e) allocs source) = some t')
    (hperm : queueingPermitted t.system.conn = true) (htype : t.system.conn.typeOf e = .disconnect)
    (hp : t'.system.conn.transaction.problem = none) {b : Begun} (hb : t'.begun = some b) :
    DisconnectPreceded b (queuedTypes t.system.conn) (queuedTypes t'.system.conn) ↔
      Foreseen b (queuedTypes t.system.conn) := by
  have h := reachable_tracked hidle ht
  obtain ⟨s', hs, rfl⟩ := Option.map_eq_some_iff.mp hstep
  have hasync := hs
  simp only [asyncStep] at hs
  split at hs <;> cases hs
  next hok =>
    obtain ⟨r, hr⟩ : ∃ r, eventEnqueue t.system.conn (some e) allocs source = some r := by
      rw [eventEnqueue, if_pos hperm]
      simp only
      split
      · exact ⟨_, rfl⟩
      · exact ⟨_, rfl⟩
    have hconn : (t.system.enqueue (some e) allocs source).conn = r.2 := by
      unfold AsyncSystem.enqueue
      rw [hr]
      exact AsyncSystem.outcome_conn _ r
    simp only [hconn] at hp hb ⊢
    rw [if_neg (eventEnqueue_state hr).2] at hb
    cases hb
    have hbefore : t.system.conn.transaction.problem = none := by
      by_contra hsome
      exact (eventEnqueue_run _ hr).frame.problem hsome hp
    obtain ⟨halloc, haccepted⟩ := h.inv.caller_new (hok.1 e rfl)
    obtain ⟨flush, hflush, htypes, _⟩ := eventEnqueue_queued h.inv.wf h.inv.queue halloc haccepted
      (Allocs.fresh_iff hok.2) (fun e he => hconn ▸ asyncStep_typeOf h.inv hasync he) hr hp
    rw [asyncClientEnter_flag h hperm hbefore, htype] at htypes
    simp only [true_and] at htypes
    rw [← shadow_eq_iff, htypes]
    constructor
    · rintro ⟨flush', hflush', hsame⟩
      exact inserted_inj hflush hflush' (List.cons.inj hsame).2
    · intro hsame
      exact ⟨flush, hflush, by rw [← hsame]; rfl⟩

/-! ### A connection that is secured by an event -/

/-- A conn on which a handshake has been queued, and then a disconnect. -/
def handshakeThenDisconnect (handshake : ConnEventType) : List AsyncAction :=
  .waitForSubmit true :: queueRun 0 { type := handshake, source := ⟨0, 1⟩ } ++
    [.alloc 1 { type := .disconnect, source := ⟨0, 2⟩ }]

/-- What a disconnect meets, and what it leaves. -/
structure DisconnectSeen where
  permitted : Bool
  type : ConnEventType
  before : List ConnEventType
  /-- `ssl.conn` when the transaction began -/
  start : Option (Option ℕ)
  problem : Option AsyncProblem
  after : List ConnEventType
  deriving DecidableEq

def TrackedSystem.disconnected (t : TrackedSystem) : Option DisconnectSeen :=
  (trackedStep t (.enqueue (some 1) ⟨none, some 2⟩ ⟨0, 2⟩)).map fun t' =>
    ⟨queueingPermitted t.system.conn, t.system.conn.typeOf 1, queuedTypes t.system.conn,
      t'.begun.map (·.sp.sslConn), t'.system.conn.transaction.problem, queuedTypes t'.system.conn⟩

/-- An evaluated run of `handshakeThenDisconnect` as a run of the system. -/
theorem handshakeThenDisconnect_run (handshake : ConnEventType) (queued : List ConnEventType)
    (h : (runFrom trackedStep ⟨AsyncSystem.new (some 3), none⟩ (handshakeThenDisconnect handshake)).bind
      TrackedSystem.disconnected = some ⟨true, .disconnect, [handshake], some none, none, queued⟩) :
    ∃ t t', ∃ b : Begun, Reachable (enabled trackedStep) ⟨AsyncSystem.new (some 3), none⟩ t ∧
      trackedStep t (.enqueue (some 1) ⟨none, some 2⟩ ⟨0, 2⟩) = some t' ∧
      queueingPermitted t.system.conn = true ∧ t.system.conn.typeOf 1 = .disconnect ∧
      t'.system.conn.transaction.problem = none ∧ t'.begun = some b ∧ b.sp.sslConn = none ∧
      queuedTypes t.system.conn = [handshake] ∧ queuedTypes t'.system.conn = queued := by
  obtain ⟨t, hrun, hobs⟩ := Option.bind_eq_some_iff.mp h
  obtain ⟨t', hstep, hseen⟩ := Option.map_eq_some_iff.mp hobs
  simp only [DisconnectSeen.mk.injEq] at hseen
  obtain ⟨hperm, htype, hbefore, hstart, hp, hafter⟩ := hseen
  obtain ⟨b, hb, hclear⟩ := Option.map_eq_some_iff.mp hstart
  exact ⟨t, t', b, reachable_of_runFrom hrun, hstep, hperm, htype, hp, hb, hclear, hbefore, hafter⟩

/-- An SSL connect is foreseen. -/
theorem disconnect_preceded_sslConnect : ∃ t t', ∃ b : Begun,
    Reachable (enabled trackedStep) ⟨AsyncSystem.new (some 3), none⟩ t ∧
      trackedStep t (.enqueue (some 1) ⟨none, some 2⟩ ⟨0, 2⟩) = some t' ∧
      queueingPermitted t.system.conn = true ∧ t.system.conn.typeOf 1 = .disconnect ∧
      t'.system.conn.transaction.problem = none ∧ t'.begun = some b ∧
      DisconnectPreceded b (queuedTypes t.system.conn) (queuedTypes t'.system.conn) := by
  obtain ⟨t, t', b, ht, hstep, hperm, htype, hp, hb, _, hbefore, _⟩ :=
    handshakeThenDisconnect_run .sslConnect [.disconnect, .sslDisconnect, .sslConnect] (by decide +kernel)
  have hidle := (AsyncSystem.new_initial (some 3)).idle rfl
  refine ⟨t, t', b, ht, hstep, hperm, htype, hp, hb, ?_⟩
  apply (disconnect_preceded hidle ht hstep hperm htype hp hb).mpr
  rw [hbefore]
  exact .inl (by decide)

/-- **A TLS connect is not foreseen (proved):** the disconnect that follows it ends a secured connection
without an SSL disconnect. -/
theorem tlsConnect_not_preceded : ¬ ∀ (s : AsyncSystem) (t t' : TrackedSystem) (e : EventId) (allocs : Allocs)
    (source : CodeSource) (b : Begun), s.Idle → Reachable (enabled trackedStep) ⟨s, none⟩ t →
      trackedStep t (.enqueue (some e) allocs source) = some t' →
      queueingPermitted t.system.conn = true → t.system.conn.typeOf e = .disconnect →
      t'.system.conn.transaction.problem = none → t'.begun = some b →
      DisconnectPreceded b (queuedTypes t.system.conn) (queuedTypes t'.system.conn) := by
  intro hall
  obtain ⟨t, t', b, ht, hstep, hperm, htype, hp, hb, hclear, hbefore, hafter⟩ :=
    handshakeThenDisconnect_run .tlsConnect [.disconnect, .tlsConnect] (by decide +kernel)
  have hidle := (AsyncSystem.new_initial (some 3)).idle rfl
  obtain ⟨flush, hflush, hqueued⟩ := hall _ t t' 1 _ _ b hidle ht hstep hperm htype hp hb
  rw [hbefore, hafter, hclear] at hqueued
  revert hqueued
  rcases hflush with rfl | rfl <;> decide

end Tracking

end Connio
