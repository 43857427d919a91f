import Connio.ConnExit

/-!
# Shutting down a handle

`ConnHandleShutdownEx` waits for the conns of the handle, sets `handle->shuttingDown` and returns, while other threads
are in `ConnConnectEx`, `ConnAConnectEx`, `ConnListenEx`, `ConnAListenEx` and `ConnAcceptEx` (`connio.c`).  These test
`shuttingDown` without a lock, some of them before and some after they allocate a conn.

* `EntryPoint`, `EntryThread` — the calls that bring conns into `handle->inUse`;
* `ShutdownPoint`, `ShutdownSystem` — a handle with the thread that shuts it down;
* `ShutdownAction`, `shutdownStep` — who moves, and one step;
* `ShutdownBarrier` — once the last look at the list has found it empty, it stays empty;
* `Barred` — no thread is on its way into the list then, and none gets there later;
* `reachable_barrier` — **PROVED**: the shutdown is a barrier as long as all steps are barred;
* `barrier_fails` — **PROVED**: a conn is allocated on a handle that has been shut down.
-/

namespace Connio

open Connio.Lib

/-! ### The calls that allocate conns -/

inductive EntryPoint where
  | connConnectEx
  | connAConnectEx
  | connListenEx
  | connAListenEx
  | connAcceptEx
  deriving DecidableEq, Repr

/-- `notShuttingHandleDown` is called before `_ConnAllocEx`; the others call it afterwards. -/
def EntryPoint.testsFirst : EntryPoint → Bool
  | connAConnectEx | connAListenEx | connAcceptEx => true
  | connConnectEx | connListenEx => false

/-- Where a thread is in such a call. -/
inductive EntryPlace where
  | called
  /-- `notShuttingHandleDown` has returned `TRUE`, and `_ConnAllocEx` has not been called yet -/
  | allowed
  /-- `_ConnAllocEx` has returned a conn -/
  | allocated (conn : ℕ)
  deriving DecidableEq, Repr

structure EntryThread where
  entry : EntryPoint
  place : EntryPlace := .called
  deriving DecidableEq, Repr

/-- The next step of the thread may be `_ConnAllocEx`. -/
def EntryThread.mayAllocate (t : EntryThread) : Bool :=
  match t.place with
  | .called => !t.entry.testsFirst
  | .allowed => true
  | .allocated _ => false

/-! ### The thread that shuts the handle down -/

/-- The waits of `ConnHandleShutdownEx`: with `errorTimeout`, with `closeTimeout` after
`ConnHandleConnectionsAbortEx`, and without an end after `ConnHandleConnectionsCloseEx`. -/
inductive ShutdownRound where
  | exit
  | aborted
  | closed
  deriving DecidableEq, Repr

/-- Where `ConnHandleShutdownEx` is. -/
inductive ShutdownPoint where
  | notCalled
  /-- in `ConnAListenerWaitForShutdownEx` -/
  | listeners
  | waiting (round : ShutdownRound) (wait : ExitWait)
  /-- all conns have exited: about to set `shuttingDown` and return -/
  | storing
  /-- conns are left: about to set `shuttingDown` -/
  | barring
  /-- about to call `ConnHandleConnectionsAbortEx` -/
  | aborting
  /-- about to call `ConnHandleConnectionsCloseEx` -/
  | closing
  | returned
  deriving DecidableEq, Repr

/-- Where it goes on after a wait. -/
def ShutdownRound.next : ShutdownRound → Bool → ShutdownPoint
  | exit, true => .storing
  | exit, false => .barring
  | aborted, true => .returned
  | aborted, false => .closing
  | closed, _ => .returned

/-- A handle with its conns. -/
structure ShutdownSystem where
  conns : HandleConns := {}
  shuttingDown : Bool := false
  entries : List EntryThread := []
  shutdown : ShutdownPoint := .notCalled
  errorTimeout : ℤ := 0
  closeTimeout : ℤ := 0

inductive ShutdownAction where
  /-- a thread calls an entry point -/
  | enter (entry : EntryPoint)
  /-- a thread gives up before it allocates: an argument is wrong, or the handle does not allow the call -/
  | refuse (t : EntryThread)
  /-- `notShuttingHandleDown`, in a call that tests first -/
  | test (t : EntryThread)
  /-- `_ConnAllocEx`, which has no conn when memory runs out -/
  | alloc (t : EntryThread) (conn : Option ℕ)
  /-- the rest of the call; `ok` when it is to return its conn -/
  | finish (t : EntryThread) (ok : Bool)
  /-- the consumer frees a conn -/
  | free (conn : ℕ)
  /-- a thread goes on in `connFreeEx` -/
  | go (t : FreeThread)
  /-- `ConnHandleShutdownEx` is called -/
  | shutdown (errorTimeout closeTimeout : ℤ)
  /-- it goes on -/
  | goOn
  deriving DecidableEq, Repr

namespace ShutdownSystem

variable (s : ShutdownSystem)

/-- A thread leaves its call. -/
def leave (t : EntryThread) : ShutdownSystem := { s with entries := s.entries.erase t }

/-- A thread goes on in its call. -/
def become (t : EntryThread) (place : EntryPlace) : ShutdownSystem :=
  { s with entries := { t with place := place } :: s.entries.erase t }

/-- `ConnHandleShutdownEx` goes on. -/
def goOn : Option ShutdownSystem :=
  match s.shutdown with
  | .notCalled | .returned => none
  | .listeners => some { s with shutdown := .waiting .exit (exitWait s.errorTimeout) }
  | .waiting round wait =>
    match wait.point with
    | .returned result => some { s with shutdown := round.next result }
    | _ => (exitWaitStep s.conns wait).map fun wait' => { s with shutdown := .waiting round wait' }
  | .storing => some { s with shuttingDown := true, shutdown := .returned }
  | .barring => some { s with shuttingDown := true, shutdown := .aborting }
  | .aborting => some { s with shutdown := .waiting .aborted (exitWait s.closeTimeout) }
  | .closing => some { s with shutdown := .waiting .closed (exitWait (-2)) }

end ShutdownSystem

/-- **One step;** `none` when the action is not enabled. -/
def shutdownStep (s : ShutdownSystem) : ShutdownAction → Option ShutdownSystem
  | .enter entry => some { s with entries := { entry := entry } :: s.entries }
  | .refuse t => if t ∈ s.entries ∧ t.place = .called then some (s.leave t) else none
  | .test t =>
    if t ∈ s.entries ∧ t.place = .called ∧ t.entry.testsFirst then
      some (if s.shuttingDown then s.leave t else s.become t .allowed)
    else none
  | .alloc t conn =>
    if t ∈ s.entries ∧ t.mayAllocate then
      match conn with
      | some c => (connMove s.conns (.alloc c)).map fun conns => { s.become t (.allocated c) with conns := conns }
      | none => some (s.leave t)
    else none
  | .finish t ok =>
    match t.place with
    | .allocated c =>
      if t ∈ s.entries then
        if ok ∧ (t.entry.testsFirst ∨ s.shuttingDown = false) then some (s.leave t)
        else (connMove s.conns (.free c)).map fun conns => { s.leave t with conns := conns }
      else none
    | _ => none
  | .free conn =>
    if ∀ t ∈ s.entries, t.place ≠ .allocated conn then
      (connMove s.conns (.free conn)).map fun conns => { s with conns := conns }
    else none
  | .go t => (connMove s.conns (.go t)).map fun conns => { s with conns := conns }
  | .shutdown errorTimeout closeTimeout =>
    if s.shutdown = .notCalled then
      some { s with shutdown := .listeners, errorTimeout := errorTimeout, closeTimeout := closeTimeout }
    else none
  | .goOn => s.goOn

/-! ### The barrier -/

namespace ShutdownSystem

variable (s : ShutdownSystem)

/-- The last look at the conns has found none. -/
def checked : Bool :=
  match s.shutdown with
  | .waiting _ wait => wait.point = .returned true
  | .storing | .returned => true
  | _ => false

/-- The next look at the conns is the last. -/
def passing : Bool :=
  match s.shutdown with
  | .waiting _ wait => wait.point = .sawEmpty && s.conns.inCleanup = 0
  | _ => false

end ShutdownSystem

/-- **The shutdown is a barrier:** once it has returned, and already after its last look at the conns, there are none
in the list. -/
structure ShutdownBarrier (s : ShutdownSystem) : Prop where
  returned : s.shutdown = .returned → s.conns.list.toList = []
  checked : s.checked = true → s.conns.list.toList = []

/-- **The step is barred:** at the last look the list is still empty and nobody is on the way into it; from then on no
call begins that allocates before it tests, and none tests before `shuttingDown` is set. -/
def Barred (s : ShutdownSystem) : ShutdownAction → Prop
  | .goOn => s.passing = true → s.conns.list.head = none ∧ ∀ t ∈ s.entries, t.mayAllocate = false
  | .enter entry => s.checked = true → entry.testsFirst = true
  | .test _ => s.checked = true → s.shuttingDown = true
  | _ => True

instance (s : ShutdownSystem) (a : ShutdownAction) : Decidable (Barred s a) :=
  match a with
  | .goOn =>
    inferInstanceAs (Decidable (s.passing = true → s.conns.list.head = none ∧ ∀ t ∈ s.entries, t.mayAllocate = false))
  | .enter entry => inferInstanceAs (Decidable (s.checked = true → entry.testsFirst = true))
  | .test _ => inferInstanceAs (Decidable (s.checked = true → s.shuttingDown = true))
  | .refuse _ | .alloc _ _ | .finish _ _ | .free _ | .go _ | .shutdown _ _ => isTrue trivial

/-- `shuttingDown` has been set. -/
def ShutdownPoint.barred : ShutdownPoint → Bool
  | .aborting | .closing | .returned | .waiting .aborted _ | .waiting .closed _ => true
  | .notCalled | .listeners | .storing | .barring | .waiting .exit _ => false

/-- What holds in every state. -/
structure ShutdownInv (s : ShutdownSystem) (l : List ℕ) : Prop where
  conns : ConnsInv s.conns l
  checked : s.checked = true → l = [] ∧ ∀ t ∈ s.entries, t.mayAllocate = false
  shuttingDown : s.shutdown.barred = true → s.shuttingDown = true
  /-- the last wait ends only when all conns have exited -/
  endless : ∀ wait, s.shutdown = .waiting .closed wait → wait.timeout = -1 ∧ wait.point ≠ .returned false

section Steps

variable {s s' : ShutdownSystem} {l : List ℕ}

theorem ShutdownInv.barrier (h : ShutdownInv s l) : ShutdownBarrier s := by
  have hempty : s.checked = true → s.conns.list.toList = [] := fun hchecked => by
    rw [DList.toList_represents h.conns.represents]
    exact (h.checked hchecked).1
  refine ⟨fun hreturned => hempty ?_, hempty⟩
  unfold ShutdownSystem.checked
  rw [hreturned]

/-- The threads of the handle go on, and the one that shuts it down does not. -/
theorem ShutdownInv.others (h : ShutdownInv s l) {conns : HandleConns} {entries : List EntryThread} {l' : List ℕ}
    (hconns : ConnsInv conns l')
    (hchecked : s.checked = true → l' = [] ∧ ∀ t ∈ entries, t.mayAllocate = false) :
    ShutdownInv { s with conns := conns, entries := entries } l' :=
  ⟨hconns, hchecked, h.shuttingDown, h.endless⟩

/-- A thread goes on in `connFreeEx`, or is called. -/
theorem ShutdownInv.move (h : ShutdownInv s l) {conns : HandleConns} {entries : List EntryThread} {m : ConnMove}
    (hm : ∀ conn, m ≠ .alloc conn) (hs : connMove s.conns m = some conns)
    (hentries : ∀ t ∈ entries, t ∈ s.entries) :
    ∃ l', ShutdownInv { s with conns := conns, entries := entries } l' := by
  obtain ⟨l', hinv, hsub⟩ := connMove_inv h.conns hs
  refine ⟨l', h.others hinv fun hchecked => ?_⟩
  obtain ⟨hnil, hnobody⟩ := h.checked hchecked
  exact ⟨List.eq_nil_of_subset_nil (hnil ▸ hsub hm), fun t ht => hnobody t (hentries t ht)⟩

/-- The entries change, and the conns do not. -/
theorem ShutdownInv.entries (h : ShutdownInv s l) {entries : List EntryThread}
    (hentries : s.checked = true → ∀ t ∈ entries, t.mayAllocate = true → t ∈ s.entries) :
    ShutdownInv { s with entries := entries } l := by
  refine h.others h.conns fun hchecked => ⟨(h.checked hchecked).1, fun t ht => ?_⟩
  by_contra hmay
  have hmay' : t.mayAllocate = true := by simpa using hmay
  rw [(h.checked hchecked).2 t (hentries hchecked t ht hmay')] at hmay'
  cases hmay'

/-- A wait goes on. -/
theorem ShutdownInv.wait (h : ShutdownInv s l) (hbarred : Barred s .goOn) {round : ShutdownRound} {w w' : ExitWait}
    (hshut : s.shutdown = .waiting round w) (hs : exitWaitStep s.conns w = some w') :
    ShutdownInv { s with shutdown := .waiting round w' } l := by
  obtain ⟨htimeout, htrue, hfalse⟩ := exitWaitStep_returned hs
  have hround := h.shuttingDown
  rw [hshut] at hround
  refine ⟨h.conns, fun hchecked => ?_, ?_, fun x hx => ?_⟩
  · obtain ⟨hpoint, hcount⟩ := htrue (of_decide_eq_true hchecked)
    have hpassing : s.passing = true := by
      simp [ShutdownSystem.passing, hshut, hpoint, hcount]
    obtain ⟨hhead, hnobody⟩ := hbarred hpassing
    rw [h.conns.represents.head_eq] at hhead
    exact ⟨List.head?_eq_none_iff.mp hhead, hnobody⟩
  · cases round <;> exact hround
  · cases hx
    have hendless := (h.endless w hshut).1
    refine ⟨htimeout.trans hendless, fun hr => ?_⟩
    have hgt := hfalse hr
    rw [hendless] at hgt
    exact absurd hgt (by decide)

/-- A wait is over. -/
theorem ShutdownInv.next (h : ShutdownInv s l) {round : ShutdownRound} {w : ExitWait} {result : Bool}
    (hshut : s.shutdown = .waiting round w) (hpoint : w.point = .returned result) :
    ShutdownInv { s with shutdown := round.next result } l := by
  have hround := h.shuttingDown
  rw [hshut] at hround
  have hseen : result = true → l = [] ∧ ∀ t ∈ s.entries, t.mayAllocate = false := by
    intro hr
    refine h.checked ?_
    simp [ShutdownSystem.checked, hshut, hpoint, hr]
  cases round with
  | exit =>
    cases result with
    | true => exact ⟨h.conns, fun _ => hseen rfl, fun hb => (by cases hb), fun x hx => by cases hx⟩
    | false => exact ⟨h.conns, fun hc => (by cases hc), fun hb => (by cases hb), fun x hx => by cases hx⟩
  | aborted =>
    cases result with
    | true => exact ⟨h.conns, fun _ => hseen rfl, fun _ => hround rfl, fun x hx => by cases hx⟩
    | false => exact ⟨h.conns, fun hc => (by cases hc), fun _ => hround rfl, fun x hx => by cases hx⟩
  | closed =>
    cases result with
    | true => exact ⟨h.conns, fun _ => hseen rfl, fun _ => hround rfl, fun x hx => by cases hx⟩
    | false => exact absurd hpoint (h.endless w hshut).2

/-- `ConnHandleShutdownEx` goes on. -/
theorem ShutdownInv.goOn (h : ShutdownInv s l) (hbarred : Barred s .goOn) (hs : s.goOn = some s') :
    ShutdownInv s' l := by
  have hround := h.shuttingDown
  unfold ShutdownSystem.goOn at hs
  cases hshut : s.shutdown with
  | notCalled | returned =>
    rw [hshut] at hs
    cases hs
  | listeners | closing | aborting | barring =>
    rw [hshut] at hs hround
    cases hs
    refine ⟨h.conns, fun hc => (by cases hc), fun hb => ?_, fun x hx => ?_⟩
    · first | exact hround rfl | rfl | cases hb
    · cases hx <;> exact ⟨rfl, by simp [exitWait]⟩
  | storing =>
    rw [hshut] at hs
    cases hs
    have hchecked : s.checked = true := by simp [ShutdownSystem.checked, hshut]
    exact ⟨h.conns, fun _ => h.checked hchecked, fun _ => rfl, fun x hx => by cases hx⟩
  | waiting round w =>
    rw [hshut] at hs
    cases hpoint : w.point with
    | returned result =>
      simp only [hpoint] at hs
      cases hs
      exact h.next hshut hpoint
    | looking | sawEmpty | sawSome =>
      simp only [hpoint] at hs
      obtain ⟨w', hstep, rfl⟩ := Option.map_eq_some_iff.mp hs
      exact h.wait hbarred hshut hstep

/-- **Every barred step (proved).** -/
theorem shutdownStep_inv {a : ShutdownAction} (h : ∃ l, ShutdownInv s l) (hbarred : Barred s a)
    (hs : shutdownStep s a = some s') : ∃ l, ShutdownInv s' l := by
  obtain ⟨l, h⟩ := h
  cases a with
  | enter entry =>
    cases hs
    refine ⟨l, h.entries fun hchecked t ht hmay => ?_⟩
    rcases List.mem_cons.mp ht with heq | ht
    · have htests := hbarred hchecked
      rw [heq, EntryThread.mayAllocate, htests] at hmay
      cases hmay
    · exact ht
  | refuse t =>
    simp only [shutdownStep] at hs
    split at hs <;> cases hs
    exact ⟨l, h.entries fun _ x hx _ => List.mem_of_mem_erase hx⟩
  | test t =>
    simp only [shutdownStep] at hs
    split at hs
    next ht =>
      split at hs
      · cases hs
        exact ⟨l, h.entries fun _ x hx _ => List.mem_of_mem_erase hx⟩
      next hgoing =>
        cases hs
        refine ⟨l, h.entries fun hchecked x hx _ => ?_⟩
        exact absurd (hbarred hchecked) hgoing
    · cases hs
  | alloc t conn =>
    simp only [shutdownStep] at hs
    split at hs
    next ht =>
      cases conn with
      | none =>
        cases hs
        exact ⟨l, h.entries fun _ x hx _ => List.mem_of_mem_erase hx⟩
      | some c =>
        obtain ⟨conns, hmove, rfl⟩ := Option.map_eq_some_iff.mp hs
        obtain ⟨l', hinv, _⟩ := connMove_inv h.conns hmove
        refine ⟨l', h.others hinv fun hchecked => ?_⟩
        have hnot := (h.checked hchecked).2 t ht.1
        rw [ht.2] at hnot
        cases hnot
    · cases hs
  | finish t ok =>
    simp only [shutdownStep] at hs
    split at hs
    next c hplace =>
      split at hs
      · split at hs
        · cases hs
          exact ⟨l, h.entries fun _ x hx _ => List.mem_of_mem_erase hx⟩
        · obtain ⟨conns, hmove, rfl⟩ := Option.map_eq_some_iff.mp hs
          exact h.move (by simp) hmove fun x hx => List.mem_of_mem_erase hx
      · cases hs
    · cases hs
  | free conn =>
    simp only [shutdownStep] at hs
    split at hs
    · obtain ⟨conns, hmove, rfl⟩ := Option.map_eq_some_iff.mp hs
      exact h.move (by simp) hmove fun x hx => hx
    · cases hs
  | go t =>
    obtain ⟨conns, hmove, rfl⟩ := Option.map_eq_some_iff.mp hs
    exact h.move (by simp) hmove fun x hx => hx
  | shutdown errorTimeout closeTimeout =>
    simp only [shutdownStep] at hs
    split at hs <;> cases hs
    exact ⟨l, h.conns, fun hchecked => (by cases hchecked), fun hbar => (by cases hbar), fun wait hw => by cases hw⟩
  | goOn => exact ⟨l, h.goOn hbarred hs⟩

end Steps

/-! ### The main results -/

/-- **The shutdown of a handle is a barrier (proved)** in every run in which nobody is on the way into the list at its
last look, and nobody gets there later. -/
theorem reachable_barrier {s : ShutdownSystem} (h : ReachableVia (enabled shutdownStep) Barred {} s) :
    ShutdownBarrier s := by
  obtain ⟨l, hinv⟩ := h.invariant (P := fun s => ∃ l, ShutdownInv s l)
    ⟨[], connsInv_new, fun hc => (by cases hc), fun hb => (by cases hb), fun x hx => by cases hx⟩
    fun _ _ _ hinv hbarred hs => shutdownStep_inv hinv hbarred hs
  exact hinv.barrier

/-- A conn is connected and freed while the shutdown waits; a thread that calls later is turned away. -/
theorem reachable_barrier_freed : ∃ s : ShutdownSystem, ShutdownBarrier s ∧ s.shutdown = .returned ∧
    s.entries = [] := by
  have hrun : ∃ s, runFrom (guarded Barred shutdownStep) {}
      [.enter .connAConnectEx, .test ⟨.connAConnectEx, .called⟩, .alloc ⟨.connAConnectEx, .allowed⟩ (some 1),
        .finish ⟨.connAConnectEx, .allocated 1⟩ true, .shutdown (-1) (-1), .goOn, .goOn, .goOn, .free 1,
        .go ⟨1, .counting⟩, .go ⟨1, .removing⟩, .go ⟨1, .clearing⟩, .go ⟨1, .leaving⟩, .go ⟨1, .cleaning⟩,
        .go ⟨1, .initializing⟩, .go ⟨1, .returning⟩, .go ⟨1, .uncounting⟩, .goOn, .goOn, .goOn, .goOn,
        .enter .connAcceptEx, .test ⟨.connAcceptEx, .called⟩] = some s ∧
      s.shutdown = .returned ∧ s.entries = [] := ⟨_, rfl, rfl, rfl⟩
  obtain ⟨s, hs, hobs⟩ := hrun
  exact ⟨s, reachable_barrier (reachableVia_of_runFrom hs), hobs⟩

/-- **A conn gets past the shutdown (proved):** `ConnAConnectEx` has tested `shuttingDown`, and allocates its conn when
the shutdown has returned. -/
theorem barrier_fails : ¬ ∀ s : ShutdownSystem, Reachable (enabled shutdownStep) {} s → ShutdownBarrier s := by
  intro hall
  have hrun : ∃ s, runFrom shutdownStep {}
      [.enter .connAConnectEx, .test ⟨.connAConnectEx, .called⟩, .shutdown (-1) (-1), .goOn, .goOn, .goOn, .goOn, .goOn,
        .alloc ⟨.connAConnectEx, .allowed⟩ (some 1)] = some s ∧
      s.shutdown = .returned ∧ s.conns.list.toList = [1] := ⟨_, rfl, rfl, rfl⟩
  obtain ⟨s, hs, hreturned, hlist⟩ := hrun
  have hempty := (hall s (reachable_of_runFrom hs)).returned hreturned
  rw [hlist] at hempty
  cases hempty

end Connio
