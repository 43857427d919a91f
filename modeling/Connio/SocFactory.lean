import Connio.Lib.Transition
import Mathlib.Data.Int.Notation
import Mathlib.Data.List.Perm.Basic
import Mathlib.Logic.Function.Basic

/-!
# The socket factory

On Windows one thread creates the sockets that any thread asks for (`sockwin.c`): `socFactoryThread`, `socCreate` with
`FALSE`, `socFactoryStart` and `socFactoryStop`, by any number of threads.  A step is an operation on a semaphore, a
hold of `SocFactory.lock`, or what a thread does in between.

* `FactoryPlace`, `StopPlace`, `SocFactory` — where the threads are, and `SocFactory`;
* `FactoryAction`, `factoryStep` — who moves, and one step;
* `FactorySound` — each socket is in one place, no more are created than asked for, and nobody is left waiting;
* `Requested` — a socket is created for a request;
* `FactoryInv`, `factoryStep_inv` — **PROVED**: the invariant, with the sockets in the slots, and the step lemma;
* `reachable_factory` — **PROVED**: the factory is sound as long as sockets are created for requests;
* `factory_fails` — **PROVED**: a socket that nobody has asked for is created when the factory stops.
-/

namespace Connio

open Connio.Lib

/-! ### The factory -/

def socFactoryConcurrencyLimit : ℕ := 5

inductive SocFactoryState where
  | stopped
  | stoppingFactoryThread
  | stoppingRequestThreads
  | running
  deriving DecidableEq, Repr

def SocFactoryState.toNat : SocFactoryState → ℕ
  | stopped => 0
  | stoppingFactoryThread => 1
  | stoppingRequestThreads => 2
  | running => 3

/-- `!SocFactory.state == SOC_FACTORY_RUNNING` -/
def SocFactoryState.notRunning (state : SocFactoryState) : Bool :=
  (if state.toNat = 0 then 1 else 0) = SocFactoryState.running.toNat

/-- Where `socFactoryThread` is. -/
inductive FactoryPlace where
  /-- `XplThreadStart` is about to be called -/
  | unborn
  /-- about to test the state -/
  | testing
  /-- in `XplSemaWait( SocFactory.createSem )` -/
  | waiting
  /-- it has taken a token -/
  | taken
  /-- about to add the socket to the list -/
  | adding
  /-- about to post `pickupSem` -/
  | signaling
  /-- about to post `createSem`, with the socket that had no slot -/
  | repeating
  /-- about to close `soc` -/
  | closing
  /-- about to close the sockets in the list -/
  | emptying
  /-- about to set the state -/
  | exiting
  deriving DecidableEq, Repr

/-- Where a thread is in `socFactoryStop`, after it has set the state. -/
inductive StopPlace where
  /-- waits for the factory thread to exit -/
  | awaiting
  /-- about to call `XplSemaValue` -/
  | reading
  | read (semaValue : ℤ)
  /-- about to destroy the semaphores -/
  | destroying
  deriving DecidableEq, Repr

structure SocFactory where
  state : SocFactoryState := .stopped
  requests : ℤ := 0
  slot : ℤ := -1
  /-- none: `SOCKET_INVALID` -/
  list : ℕ → Option ℕ := fun _ => none
  /-- the tokens in the semaphores -/
  createSem : ℕ := 0
  pickupSem : ℕ := 0
  /-- the factory thread, and its `soc` -/
  thread : Option FactoryPlace := none
  soc : Option ℕ := none
  stopper : Option StopPlace := none
  /-- the threads in `socCreate` that are about to post `createSem` -/
  counted : ℕ := 0
  /-- that are about to wait for `pickupSem` -/
  posted : ℕ := 0
  /-- that wait for it -/
  waiting : ℕ := 0
  /-- that are about to pick up a socket -/
  woken : ℕ := 0
  /-- the requests made, the sockets created, and the creations that failed -/
  asked : ℕ := 0
  created : ℕ := 0
  failures : ℕ := 0
  /-- the requests that were answered with `SOCKET_INVALID` while the factory was running -/
  refused : ℕ := 0
  /-- the sockets handed to a requester, and those closed by the factory -/
  handed : List ℕ := []
  closed : List ℕ := []

namespace SocFactory

variable (s : SocFactory)

/-- The sockets in the slots. -/
def occupied : List ℕ := (List.range (s.slot + 1).toNat).filterMap s.list

/-- The thread has taken a token from `createSem`, and has not answered it. -/
def busy : Bool :=
  s.thread = some .taken ∨ s.thread = some .adding ∨ s.thread = some .signaling ∨ s.thread = some .repeating

/-- The thread has taken a token, and has no socket yet. -/
def unmade : Bool := s.thread = some .taken ∧ s.soc = none

/-- The thread has a socket that it has posted `createSem` for. -/
def again : Bool := s.soc ≠ none ∧ (s.thread = some .testing ∨ s.thread = some .waiting)

/-- The thread is behind its loop. -/
def leaving : Bool := s.thread = some .closing ∨ s.thread = some .emptying ∨ s.thread = some .exiting

/-- `socFactoryStop` has posted `createSem`. -/
def stopping : Bool := s.state = .stoppingFactoryThread ∨ s.state = .stoppingRequestThreads

/-- `pickupSem` is going to be posted. -/
def signals : Bool := s.thread = some .signaling

end SocFactory

inductive FactoryAction where
  /-- `socCreate( FALSE )` is called, and counts its request -/
  | request
  /-- it posts `createSem` -/
  | postCreate
  /-- it calls `XplSemaWait( SocFactory.pickupSem )` -/
  | wait
  /-- which returns -/
  | wake
  /-- it picks up a socket, and returns -/
  | pickUp
  /-- `socFactoryStart` has the lock -/
  | start
  /-- `XplThreadStart` -/
  | spawn
  /-- the loop of `socFactoryThread` -/
  | test
  | take
  /-- `XplIpSocket`, when there is no socket left; `ok`: it does not fail -/
  | create (ok : Bool)
  | add
  | post
  /-- behind the loop -/
  | close
  | empty
  | exit
  /-- `socFactoryStop` has the lock -/
  | stop
  /-- the factory thread has exited -/
  | seeExit
  /-- `XplSemaValue( SocFactory.pickupSem, ... )` -/
  | semaValue
  /-- what it does with the value -/
  | useValue
  | destroy
  deriving DecidableEq, Repr

/-- **One step;** `none` when it is not enabled. -/
def factoryStep (s : SocFactory) : FactoryAction → Option SocFactory
  | .request =>
    some (if s.state = .running then
      { s with requests := s.requests + 1, counted := s.counted + 1, asked := s.asked + 1 } else s)
  | .postCreate =>
    if 0 < s.counted then
      some { s with counted := s.counted - 1, posted := s.posted + 1, createSem := s.createSem + 1 }
    else none
  | .wait => if 0 < s.posted then some { s with posted := s.posted - 1, waiting := s.waiting + 1 } else none
  | .wake =>
    if 0 < s.waiting ∧ 0 < s.pickupSem then
      some { s with waiting := s.waiting - 1, woken := s.woken + 1, pickupSem := s.pickupSem - 1 }
    else none
  | .pickUp =>
    if 0 < s.woken then
      if -1 < s.slot then
        some { s with
          handed := (s.list s.slot.toNat).toList ++ s.handed
          list := Function.update s.list s.slot.toNat none
          slot := s.slot - 1
          requests := s.requests - 1
          woken := s.woken - 1 }
      else
        some { s with
          requests := s.requests - 1
          woken := s.woken - 1
          refused := if s.state = .running then s.refused + 1 else s.refused }
    else none
  | .start =>
    some (if s.state = .stopped then
      { s with state := .running, createSem := 0, pickupSem := 0, thread := some .unborn, soc := none } else s)
  | .spawn => if s.thread = some .unborn then some { s with thread := some .testing } else none
  | .test =>
    if s.thread = some .testing then
      some { s with thread := if s.state = .running then some .waiting else some .closing }
    else none
  | .take =>
    if s.thread = some .waiting ∧ 0 < s.createSem then
      some { s with
        createSem := s.createSem - 1
        thread := if s.state.notRunning then some .closing else some .taken }
    else none
  | .create ok =>
    if s.thread = some .taken then
      if s.soc = none then
        if ok then some { s with soc := some s.created, created := s.created + 1, thread := some .adding }
        else some { s with failures := s.failures + 1, thread := some .signaling }
      else some { s with thread := some .adding }
    else none
  | .add =>
    if s.thread = some .adding then
      if s.slot + 1 < socFactoryConcurrencyLimit then
        some { s with
          slot := s.slot + 1
          list := Function.update s.list (s.slot + 1).toNat s.soc
          soc := none
          thread := some .signaling }
      else some { s with thread := some .repeating }
    else none
  | .post =>
    if s.thread = some .signaling then some { s with pickupSem := s.pickupSem + 1, thread := some .testing }
    else if s.thread = some .repeating then some { s with createSem := s.createSem + 1, thread := some .testing }
    else none
  | .close =>
    if s.thread = some .closing then
      some { s with closed := s.soc.toList ++ s.closed, soc := none, thread := some .emptying }
    else none
  | .empty =>
    if s.thread = some .emptying then
      some { s with
        closed := s.occupied ++ s.closed
        list := fun i => if (i : ℤ) ≤ s.slot then none else s.list i
        slot := -1
        thread := some .exiting }
    else none
  | .exit =>
    if s.thread = some .exiting then some { s with state := .stoppingRequestThreads, thread := none } else none
  | .stop =>
    some (if s.state = .running then
      { s with state := .stoppingFactoryThread, createSem := s.createSem + 1, stopper := some .awaiting } else s)
  | .seeExit =>
    if s.stopper = some .awaiting ∧ s.state = .stoppingRequestThreads then some { s with stopper := some .reading }
    else none
  | .semaValue =>
    if s.stopper = some .reading then
      some { s with stopper := some (.read ((s.pickupSem : ℤ) - (s.waiting : ℤ))) }
    else none
  | .useValue =>
    match s.stopper with
    | some (.read semaValue) =>
      if semaValue < 0 then some { s with pickupSem := s.pickupSem + 1, stopper := some .reading }
      else some { s with stopper := if s.requests < 1 then some .destroying else some .reading }
    | _ => none
  | .destroy => if s.stopper = some .destroying then some { s with state := .stopped, stopper := none } else none

/-! ### What the factory is to keep -/

/-- **The factory is sound.** -/
structure FactorySound (s : SocFactory) : Prop where
  /-- the slots up to `slot` have a socket -/
  slot : -1 ≤ s.slot ∧ s.slot ≤ socFactoryConcurrencyLimit - 1 ∧ ∀ i : ℕ, (s.list i).isSome = true ↔ (i : ℤ) ≤ s.slot
  /-- each socket is with the thread, in a slot, handed to one requester, or closed -/
  sockets : (s.soc.toList ++ s.occupied ++ s.handed ++ s.closed).Perm (List.range s.created)
  /-- none is left behind -/
  ended : s.thread = none → s.soc = none ∧ s.slot = -1
  asked : s.created ≤ s.asked
  /-- each request that the running factory refuses has a creation that failed -/
  refused : s.refused ≤ s.failures
  /-- somebody is going to signal -/
  awake : s.state = .running → 0 < s.waiting → 0 < s.createSem ∨ 0 < s.pickupSem ∨ s.busy = true

/-- **A socket is created for a request:** the factory is running, or there is a token left, or about to be posted. -/
def Requested (s : SocFactory) : FactoryAction → Prop
  | .create ok => ok = true → s.soc = none → s.state = .running ∨ 0 < s.createSem ∨ 0 < s.counted
  | _ => True

instance (s : SocFactory) (a : FactoryAction) : Decidable (Requested s a) := by
  cases a <;> unfold Requested <;> infer_instance

/-- **The invariant of the factory,** with the sockets in the slots. -/
structure FactoryInv (s : SocFactory) (stack : List ℕ) : Prop where
  slot : s.slot = stack.length - 1
  limit : stack.length ≤ socFactoryConcurrencyLimit
  list : ∀ i, s.list i = stack[i]?
  sockets : (s.soc.toList ++ stack ++ s.handed ++ s.closed).Perm (List.range s.created)
  requests : s.requests = s.counted + s.posted + s.waiting + s.woken
  asked : s.created ≤ s.asked
  refused : s.refused ≤ s.failures
  /-- the tokens that may become sockets -/
  tokens : s.thread ≠ none → s.leaving = false →
    s.created + s.createSem + s.unmade.toNat + s.counted ≤ s.asked + s.again.toNat + s.stopping.toNat
  answers : s.state = .running → s.pickupSem + s.woken + s.signals.toNat + s.refused ≤ stack.length + s.failures
  pending : s.state = .running → s.posted + s.waiting ≤ s.createSem + s.pickupSem + s.busy.toNat
  stopped : s.state = .stopped → s.thread = none ∧ s.stopper = none ∧ s.requests = 0
  running : s.state = .running → s.thread ≠ none ∧ s.stopper = none
  thread : s.state = .stoppingFactoryThread → s.thread ≠ none ∧ s.stopper = some .awaiting
  gone : s.state = .stoppingRequestThreads → s.thread = none ∧ s.stopper ≠ none
  idle : s.thread = none → s.soc = none ∧ stack = []
  holds : s.thread = some .adding ∨ s.thread = some .repeating → s.soc ≠ none
  free : s.thread = some .unborn ∨ s.thread = some .signaling ∨ s.thread = some .emptying ∨
    s.thread = some .exiting → s.soc = none
  emptied : s.thread = some .exiting → stack = []
  out : s.leaving = true → s.state ≠ .running
  destroying : s.stopper = some .destroying → s.requests = 0 ∧ s.state = .stoppingRequestThreads

theorem factoryInv_new : FactoryInv {} [] where
  slot := rfl
  limit := Nat.zero_le _
  list := fun _ => rfl
  sockets := List.Perm.refl _
  requests := rfl
  asked := Nat.le_refl _
  refused := Nat.le_refl _
  tokens := fun h => absurd rfl h
  answers := fun h => (by cases h)
  pending := fun h => (by cases h)
  stopped := fun _ => ⟨rfl, rfl, rfl⟩
  running := fun h => (by cases h)
  thread := fun h => (by cases h)
  gone := fun h => (by cases h)
  idle := fun _ => ⟨rfl, rfl⟩
  holds := fun h => (by rcases h with h | h <;> cases h)
  free := fun h => (by rcases h with h | h | h | h <;> cases h)
  emptied := fun h => (by cases h)
  out := fun h => (by cases h)
  destroying := fun h => (by cases h)

section Steps

variable {s s' : SocFactory} {stack : List ℕ}

/-- The slip: the test is never true. -/
theorem notRunning_false (state : SocFactoryState) : state.notRunning = false := by
  cases state <;> rfl

/-- The first entries of a list, read one by one. -/
theorem filterMap_range_getElem (l : List ℕ) {n : ℕ} (hn : n ≤ l.length) :
    (List.range n).filterMap (fun i => l[i]?) = l.take n := by
  induction n with
  | zero => rfl
  | succ n ih =>
    have hlt : n < l.length := hn
    rw [List.range_succ, List.filterMap_append, ih (Nat.le_of_lt hlt), List.take_add_one,
      List.getElem?_eq_getElem hlt]
    simp [List.getElem?_eq_getElem hlt]

theorem FactoryInv.occupied_eq (h : FactoryInv s stack) : s.occupied = stack := by
  unfold SocFactory.occupied
  have hlist : s.list = fun i => stack[i]? := funext h.list
  have hslot : (s.slot + 1).toNat = stack.length := by
    rw [h.slot]
    omega
  rw [hlist, hslot, filterMap_range_getElem stack (Nat.le_refl _), List.take_length]

/-- **What the invariant says about the factory (proved).** -/
theorem FactoryInv.factorySound (h : FactoryInv s stack) : FactorySound s where
  slot := by
    have hlimit := h.limit
    refine ⟨?_, ?_, fun i => ?_⟩
    · rw [h.slot]
      omega
    · rw [h.slot]
      omega
    · rw [h.list i, h.slot]
      rw [Option.isSome_iff_ne_none, ne_eq, List.getElem?_eq_none_iff]
      omega
  sockets := by
    rw [h.occupied_eq]
    exact h.sockets
  ended := fun hthread => by
    obtain ⟨hsoc, hstack⟩ := h.idle hthread
    refine ⟨hsoc, ?_⟩
    rw [h.slot, hstack]
    rfl
  asked := h.asked
  refused := h.refused
  awake := fun hrunning hwaiting => by
    have hpending := h.pending hrunning
    cases hbusy : s.busy with
    | true => exact Or.inr (Or.inr rfl)
    | false =>
      rw [hbusy] at hpending
      simp only [Bool.toNat_false] at hpending
      omega

/-! ### The requesters -/

theorem FactoryInv.request (h : FactoryInv s stack) (hstate : s.state = .running) :
    FactoryInv { s with requests := s.requests + 1, counted := s.counted + 1, asked := s.asked + 1 } stack :=
  { h with
    requests := by
      change s.requests + 1 = ((s.counted + 1 : ℕ) : ℤ) + s.posted + s.waiting + s.woken
      rw [h.requests]
      omega
    asked := Nat.le_succ_of_le h.asked
    tokens := fun hthread hleaving => by
      have htokens : s.created + s.createSem + s.unmade.toNat + s.counted ≤
          s.asked + s.again.toNat + s.stopping.toNat := h.tokens hthread hleaving
      change s.created + s.createSem + s.unmade.toNat + (s.counted + 1) ≤
        s.asked + 1 + s.again.toNat + s.stopping.toNat
      omega
    stopped := fun hstopped => by
      rw [show s.state = .running from hstate] at hstopped
      cases hstopped
    destroying := fun hdestroying => by
      rw [(h.running hstate).2] at hdestroying
      cases hdestroying }

theorem FactoryInv.postCreate (h : FactoryInv s stack) (hcounted : 0 < s.counted) :
    FactoryInv { s with counted := s.counted - 1, posted := s.posted + 1, createSem := s.createSem + 1 } stack :=
  { h with
    requests := by
      change s.requests = ((s.counted - 1 : ℕ) : ℤ) + ((s.posted + 1 : ℕ) : ℤ) + s.waiting + s.woken
      rw [h.requests]
      omega
    tokens := fun hthread hleaving => by
      have htokens : s.created + s.createSem + s.unmade.toNat + s.counted ≤
          s.asked + s.again.toNat + s.stopping.toNat := h.tokens hthread hleaving
      change s.created + (s.createSem + 1) + s.unmade.toNat + (s.counted - 1) ≤
        s.asked + s.again.toNat + s.stopping.toNat
      omega
    pending := fun hrunning => by
      have hpending : s.posted + s.waiting ≤ s.createSem + s.pickupSem + s.busy.toNat := h.pending hrunning
      change s.posted + 1 + s.waiting ≤ s.createSem + 1 + s.pickupSem + s.busy.toNat
      omega }

theorem FactoryInv.wait (h : FactoryInv s stack) (hposted : 0 < s.posted) :
    FactoryInv { s with posted := s.posted - 1, waiting := s.waiting + 1 } stack :=
  { h with
    requests := by
      change s.requests = s.counted + ((s.posted - 1 : ℕ) : ℤ) + ((s.waiting + 1 : ℕ) : ℤ) + s.woken
      rw [h.requests]
      omega
    pending := fun hrunning => by
      have hpending : s.posted + s.waiting ≤ s.createSem + s.pickupSem + s.busy.toNat := h.pending hrunning
      change s.posted - 1 + (s.waiting + 1) ≤ s.createSem + s.pickupSem + s.busy.toNat
      omega }

theorem FactoryInv.wake (h : FactoryInv s stack) (hwaiting : 0 < s.waiting) (hpickup : 0 < s.pickupSem) :
    FactoryInv { s with waiting := s.waiting - 1, woken := s.woken + 1, pickupSem := s.pickupSem - 1 } stack :=
  { h with
    requests := by
      change s.requests = s.counted + s.posted + ((s.waiting - 1 : ℕ) : ℤ) + ((s.woken + 1 : ℕ) : ℤ)
      rw [h.requests]
      omega
    answers := fun hrunning => by
      have hanswers : s.pickupSem + s.woken + s.signals.toNat + s.refused ≤ stack.length + s.failures :=
        h.answers hrunning
      change s.pickupSem - 1 + (s.woken + 1) + s.signals.toNat + s.refused ≤ stack.length + s.failures
      omega
    pending := fun hrunning => by
      have hpending : s.posted + s.waiting ≤ s.createSem + s.pickupSem + s.busy.toNat := h.pending hrunning
      change s.posted + (s.waiting - 1) ≤ s.createSem + (s.pickupSem - 1) + s.busy.toNat
      omega }

/-- A requester that finds no socket. -/
theorem FactoryInv.refuse (h : FactoryInv s stack) (hwoken : 0 < s.woken) (hslot : ¬ -1 < s.slot) :
    FactoryInv { s with
      requests := s.requests - 1
      woken := s.woken - 1
      refused := if s.state = .running then s.refused + 1 else s.refused } stack := by
  have hempty : stack.length = 0 := by
    have hlength := h.slot
    omega
  have hrequests := h.requests
  exact { h with
    requests := by
      change s.requests - 1 = s.counted + s.posted + s.waiting + ((s.woken - 1 : ℕ) : ℤ)
      omega
    refused := by
      change (if s.state = .running then s.refused + 1 else s.refused) ≤ s.failures
      split
      next hrunning =>
        have hanswers := h.answers hrunning
        omega
      · exact h.refused
    answers := fun hrunning => by
      have hanswers := h.answers hrunning
      change s.pickupSem + (s.woken - 1) + s.signals.toNat + (if s.state = .running then s.refused + 1 else s.refused) ≤
        stack.length + s.failures
      rw [if_pos hrunning]
      omega
    stopped := fun hstopped => by
      have hzero := (h.stopped hstopped).2.2
      omega
    destroying := fun hdestroying => by
      have hzero := (h.destroying hdestroying).1
      omega }

/-- A requester that picks up the socket in the last slot. -/
theorem FactoryInv.pickUp (h : FactoryInv s stack) (hwoken : 0 < s.woken) (hslot : -1 < s.slot) :
    FactoryInv { s with
      handed := (s.list s.slot.toNat).toList ++ s.handed
      list := Function.update s.list s.slot.toNat none
      slot := s.slot - 1
      requests := s.requests - 1
      woken := s.woken - 1 } stack.dropLast := by
  have hlength := h.slot
  have hne : stack ≠ [] := by
    rintro rfl
    rw [hlength] at hslot
    exact absurd hslot (by decide)
  have hpos : 0 < stack.length := List.length_pos_of_ne_nil hne
  have htop : s.slot.toNat = stack.length - 1 := by omega
  have hlast : s.list s.slot.toNat = some (stack.getLast hne) := by
    rw [h.list, htop, List.getLast_eq_getElem, List.getElem?_eq_getElem]
  have hrequests := h.requests
  exact { h with
    slot := by
      change s.slot - 1 = _
      rw [List.length_dropLast, hlength]
      omega
    limit := by
      rw [List.length_dropLast]
      exact Nat.le_trans (Nat.sub_le _ _) h.limit
    list := fun i => by
      change Function.update s.list s.slot.toNat none i = _
      rw [htop, List.getElem?_dropLast]
      by_cases hi : i = stack.length - 1
      · rw [hi, Function.update_self, if_neg (Nat.lt_irrefl _)]
      · rw [Function.update_of_ne hi, h.list]
        split
        · rfl
        · exact List.getElem?_eq_none (by omega)
    sockets := by
      change (s.soc.toList ++ stack.dropLast ++ ((s.list s.slot.toNat).toList ++ s.handed) ++ s.closed).Perm _
      rw [hlast]
      refine List.Perm.trans (List.Perm.of_eq ?_) h.sockets
      conv_rhs => rw [← List.dropLast_append_getLast hne]
      simp
    requests := by
      change s.requests - 1 = s.counted + s.posted + s.waiting + ((s.woken - 1 : ℕ) : ℤ)
      omega
    answers := fun hrunning => by
      have hanswers := h.answers hrunning
      change s.pickupSem + (s.woken - 1) + s.signals.toNat + s.refused ≤ stack.dropLast.length + s.failures
      rw [List.length_dropLast]
      omega
    stopped := fun hstopped => by
      have hzero := (h.stopped hstopped).2.2
      omega
    idle := fun hthread => absurd (h.idle hthread).2 hne
    emptied := fun hexiting => absurd (h.emptied hexiting) hne
    destroying := fun hdestroying => by
      have hzero := (h.destroying hdestroying).1
      omega }

/-! ### Starting and stopping -/

theorem FactoryInv.start (h : FactoryInv s stack) (hstate : s.state = .stopped) :
    FactoryInv { s with
      state := .running
      createSem := 0
      pickupSem := 0
      thread := some .unborn
      soc := none } stack := by
  obtain ⟨hthread, hstopper, hrequests⟩ := h.stopped hstate
  obtain ⟨hsoc, hstack⟩ := h.idle hthread
  have hsum := h.requests
  rw [hrequests] at hsum
  have hsockets := h.sockets
  rw [hsoc] at hsockets
  have hrefused := h.refused
  exact { h with
    sockets := hsockets
    tokens := fun _ _ => by
      have hasked := h.asked
      change s.created + 0 + 0 + s.counted ≤ s.asked + 0 + 0
      omega
    answers := fun _ => by
      change 0 + s.woken + 0 + s.refused ≤ stack.length + s.failures
      omega
    pending := fun _ => by
      change s.posted + s.waiting ≤ 0 + 0 + 0
      omega
    stopped := fun hstopped => by cases hstopped
    running := fun _ => ⟨by simp, hstopper⟩
    thread := fun hstopping => by cases hstopping
    gone := fun hstopping => by cases hstopping
    idle := fun hnone => by cases hnone
    holds := fun hholds => by rcases hholds with hh | hh <;> cases hh
    free := fun _ => rfl
    emptied := fun hexiting => by cases hexiting
    out := fun hleaving => by cases hleaving
    destroying := fun hdestroying => by
      rw [hstopper] at hdestroying
      cases hdestroying }

theorem FactoryInv.stop (h : FactoryInv s stack) (hstate : s.state = .running) :
    FactoryInv { s with
      state := .stoppingFactoryThread
      createSem := s.createSem + 1
      stopper := some .awaiting } stack := by
  obtain ⟨hthread, hstopper⟩ := h.running hstate
  have hnot : s.stopping = false := by
    unfold SocFactory.stopping
    rw [hstate]
    rfl
  exact { h with
    tokens := fun _ hleaving => by
      have htokens := h.tokens hthread hleaving
      rw [hnot] at htokens
      change s.created + (s.createSem + 1) + s.unmade.toNat + s.counted ≤ s.asked + s.again.toNat + 1
      simp only [Bool.toNat_false] at htokens
      omega
    answers := fun hrunning => by cases hrunning
    pending := fun hrunning => by cases hrunning
    stopped := fun hstopped => by cases hstopped
    running := fun hrunning => by cases hrunning
    thread := fun _ => ⟨hthread, rfl⟩
    gone := fun hstopping => by cases hstopping
    out := fun _ hrunning => by cases hrunning
    destroying := fun hdestroying => by cases hdestroying }

/-! ### The factory thread -/

/-- What the invariant says of starting and stopping when the thread is at `q`. -/
structure FactoryThere (s : SocFactory) (q : FactoryPlace) : Prop where
  stopped : s.state = .stopped → some q = none ∧ s.stopper = none ∧ s.requests = 0
  running : s.state = .running → some q ≠ none ∧ s.stopper = none
  thread : s.state = .stoppingFactoryThread → some q ≠ none ∧ s.stopper = some .awaiting
  gone : s.state = .stoppingRequestThreads → some q = none ∧ s.stopper ≠ none

/-- The thread goes anywhere. -/
theorem FactoryInv.there (h : FactoryInv s stack) (hsome : s.thread ≠ none) (q : FactoryPlace) : FactoryThere s q where
  stopped := fun hstopped => absurd (h.stopped hstopped).1 hsome
  running := fun hrunning => ⟨Option.some_ne_none q, (h.running hrunning).2⟩
  thread := fun hstopping => ⟨Option.some_ne_none q, (h.thread hstopping).2⟩
  gone := fun hgone => absurd (h.gone hgone).1 hsome

/-- The factory thread goes on, and nothing else changes: what is to be shown about its new place. -/
theorem FactoryInv.goOn (h : FactoryInv s stack) {p q : FactoryPlace} (hp : s.thread = some p)
    (htokens : ∀ s' : SocFactory, s' = { s with thread := some q } → s'.leaving = false →
      s.created + s.createSem + s'.unmade.toNat + s.counted ≤ s.asked + s'.again.toNat + s.stopping.toNat)
    (hbusy : p = .taken ∨ p = .adding → q = .adding ∨ q = .repeating)
    (hp' : p ≠ .signaling ∧ p ≠ .repeating) (hq : q ≠ .signaling)
    (hholds : q = .adding ∨ q = .repeating → s.soc ≠ none)
    (hfree : q = .emptying ∨ q = .exiting ∨ q = .unborn → s.soc = none)
    (hemptied : q = .exiting → stack = []) (hout : q = .closing ∨ q = .emptying ∨ q = .exiting → s.state ≠ .running) :
    FactoryInv { s with thread := some q } stack := by
  have hsome : s.thread ≠ none := by
    rw [hp]
    simp
  exact { h.there hsome q, h with
    tokens := fun _ hleaving => htokens _ rfl hleaving
    answers := fun hrunning => by
      have hanswers := h.answers hrunning
      have hsignals : SocFactory.signals { s with thread := some q } = false := by
        simp [SocFactory.signals, hq]
      change s.pickupSem + s.woken + Bool.toNat (SocFactory.signals { s with thread := some q }) + s.refused ≤ _
      rw [hsignals]
      simp only [Bool.toNat_false]
      omega
    pending := fun hrunning => by
      have hpending := h.pending hrunning
      have hmono : s.busy.toNat ≤ (SocFactory.busy { s with thread := some q }).toNat := by
        cases hb : s.busy with
        | false => exact Nat.zero_le _
        | true =>
          have hplace : p = .taken ∨ p = .adding := by
            simp only [SocFactory.busy, hp, Option.some.injEq, decide_eq_true_eq] at hb
            rcases hb with hb | hb | hb | hb
            · exact Or.inl hb
            · exact Or.inr hb
            · exact absurd hb hp'.1
            · exact absurd hb hp'.2
          have hbusy' : SocFactory.busy { s with thread := some q } = true := by
            rcases hbusy hplace with rfl | rfl <;> rfl
          exact Nat.le_of_eq (congrArg Bool.toNat hbusy'.symm)
      change s.posted + s.waiting ≤ s.createSem + s.pickupSem + Bool.toNat (SocFactory.busy { s with thread := some q })
      omega
    idle := fun hnone => by cases hnone
    holds := fun hh => hholds (hh.imp Option.some.inj Option.some.inj)
    free := fun hf => by
      rcases hf with hf | hf | hf | hf
      · exact hfree (Or.inr (Or.inr (Option.some.inj hf)))
      · exact absurd (Option.some.inj hf) hq
      · exact hfree (Or.inl (Option.some.inj hf))
      · exact hfree (Or.inr (Or.inl (Option.some.inj hf)))
    emptied := fun hexiting => hemptied (Option.some.inj hexiting)
    out := fun hleaving => by
      simp only [SocFactory.leaving, Option.some.injEq, decide_eq_true_eq] at hleaving
      exact hout hleaving }

theorem FactoryInv.spawn (h : FactoryInv s stack) (hp : s.thread = some .unborn) :
    FactoryInv { s with thread := some .testing } stack := by
  have hsoc := h.free (Or.inl hp)
  refine h.goOn hp ?_ (by simp) (by simp) (by simp) (by simp) (by simp) (by simp) (by simp)
  rintro s' rfl _
  have htokens := h.tokens (by simp [hp]) (by simp [SocFactory.leaving, hp])
  simp only [SocFactory.unmade, SocFactory.again, hp, hsoc] at htokens ⊢
  simpa using htokens

theorem FactoryInv.test (h : FactoryInv s stack) (hp : s.thread = some .testing) :
    FactoryInv { s with thread := if s.state = .running then some .waiting else some .closing } stack := by
  have htokens := h.tokens (by simp [hp]) (by simp [SocFactory.leaving, hp])
  split
  next hrunning =>
    refine h.goOn hp ?_ (by simp) (by simp) (by simp) (by simp) (by simp) (by simp) (by simp)
    rintro s' rfl _
    simp only [SocFactory.unmade, SocFactory.again, hp] at htokens ⊢
    simpa using htokens
  next hnot =>
    refine h.goOn hp ?_ (by simp) (by simp) (by simp) (by simp) (by simp) (by simp) fun _ => hnot
    rintro s' rfl hleaving
    simp [SocFactory.leaving] at hleaving

theorem FactoryInv.take (h : FactoryInv s stack) (hp : s.thread = some .waiting) (hcreate : 0 < s.createSem) :
    FactoryInv { s with createSem := s.createSem - 1, thread := some .taken } stack := by
  have hsome : s.thread ≠ none := by
    rw [hp]
    simp
  exact { h.there hsome .taken, h with
    tokens := fun _ _ => by
      have htokens := h.tokens hsome (by simp [SocFactory.leaving, hp])
      change s.created + (s.createSem - 1) + Bool.toNat (decide (some FactoryPlace.taken = some .taken ∧ s.soc = none)) +
        s.counted ≤ s.asked + Bool.toNat (decide (s.soc ≠ none ∧ (some FactoryPlace.taken = some .testing ∨
          some FactoryPlace.taken = some .waiting))) + s.stopping.toNat
      simp only [SocFactory.unmade, SocFactory.again, hp] at htokens
      cases hsoc : s.soc with
      | none =>
        simp [hsoc] at htokens ⊢
        omega
      | some n =>
        simp [hsoc] at htokens ⊢
        omega
    answers := fun hrunning => by
      have hanswers := h.answers hrunning
      change s.pickupSem + s.woken + 0 + s.refused ≤ stack.length + s.failures
      omega
    pending := fun hrunning => by
      have hpending := h.pending hrunning
      simp only [SocFactory.busy, hp] at hpending
      change s.posted + s.waiting ≤ s.createSem - 1 + s.pickupSem + 1
      simp at hpending
      omega
    idle := fun hnone => by cases hnone
    holds := fun hh => by rcases hh with hh | hh <;> cases hh
    free := fun hf => by rcases hf with hf | hf | hf | hf <;> cases hf
    emptied := fun hexiting => by cases hexiting
    out := fun hleaving => by cases hleaving }

/-- The thread has a socket already. -/
theorem FactoryInv.keep (h : FactoryInv s stack) (hp : s.thread = some .taken) (hsoc : s.soc ≠ none) :
    FactoryInv { s with thread := some .adding } stack := by
  refine h.goOn hp ?_ (by simp) (by simp) (by simp) (fun _ => hsoc) (by simp) (by simp) (by simp)
  rintro s' rfl _
  have htokens := h.tokens (by simp [hp]) (by simp [SocFactory.leaving, hp])
  simp only [SocFactory.unmade, SocFactory.again, hp, hsoc] at htokens ⊢
  simpa using htokens

/-- The list has no slot for the socket. -/
theorem FactoryInv.full (h : FactoryInv s stack) (hp : s.thread = some .adding) :
    FactoryInv { s with thread := some .repeating } stack := by
  refine h.goOn hp ?_ (by simp) (by simp) (by simp) (fun _ => h.holds (Or.inl hp)) (by simp) (by simp) (by simp)
  rintro s' rfl _
  have htokens := h.tokens (by simp [hp]) (by simp [SocFactory.leaving, hp])
  simp only [SocFactory.unmade, SocFactory.again, hp] at htokens ⊢
  simpa using htokens

/-- **A socket is created (proved),** for a request. -/
theorem FactoryInv.create (h : FactoryInv s stack) (hp : s.thread = some .taken) (hsoc : s.soc = none)
    (hok : s.state = .running ∨ 0 < s.createSem ∨ 0 < s.counted) :
    FactoryInv { s with soc := some s.created, created := s.created + 1, thread := some .adding } stack := by
  have hsome : s.thread ≠ none := by
    rw [hp]
    simp
  have htokens := h.tokens hsome (by simp [SocFactory.leaving, hp])
  simp only [SocFactory.unmade, SocFactory.again, hp, hsoc] at htokens
  simp at htokens
  exact { h.there hsome .adding, h with
    sockets := by
      change ([s.created] ++ stack ++ s.handed ++ s.closed).Perm (List.range (s.created + 1))
      have hsockets := h.sockets
      rw [hsoc] at hsockets
      rw [List.range_succ]
      exact (List.Perm.cons s.created hsockets).trans (List.perm_append_singleton _ _).symm
    asked := by
      change s.created + 1 ≤ s.asked
      rcases hok with hrunning | hrest
      · have hnot : s.stopping = false := by
          unfold SocFactory.stopping
          rw [hrunning]
          rfl
        rw [hnot] at htokens
        simp only [Bool.toNat_false] at htokens
        omega
      · have hle : s.stopping.toNat ≤ 1 := Bool.toNat_le _
        omega
    tokens := fun _ _ => by
      change s.created + 1 + s.createSem + 0 + s.counted ≤ s.asked + Bool.toNat (decide ((some s.created ≠ none) ∧
        (some FactoryPlace.adding = some .testing ∨ some FactoryPlace.adding = some .waiting))) + s.stopping.toNat
      simp
      omega
    answers := fun hrunning => by
      have hanswers := h.answers hrunning
      change s.pickupSem + s.woken + 0 + s.refused ≤ stack.length + s.failures
      omega
    pending := fun hrunning => by
      have hpending := h.pending hrunning
      simp only [SocFactory.busy, hp] at hpending
      exact hpending
    idle := fun hnone => by cases hnone
    holds := fun _ => by simp
    free := fun hf => by rcases hf with hf | hf | hf | hf <;> cases hf
    emptied := fun hexiting => by cases hexiting
    out := fun hleaving => by cases hleaving }

/-- The creation of a socket fails. -/
theorem FactoryInv.fail (h : FactoryInv s stack) (hp : s.thread = some .taken) (hsoc : s.soc = none) :
    FactoryInv { s with failures := s.failures + 1, thread := some .signaling } stack := by
  have hsome : s.thread ≠ none := by
    rw [hp]
    simp
  have htokens := h.tokens hsome (by simp [SocFactory.leaving, hp])
  simp only [SocFactory.unmade, SocFactory.again, hp, hsoc] at htokens
  simp at htokens
  exact { h.there hsome .signaling, h with
    refused := Nat.le_succ_of_le h.refused
    tokens := fun _ _ => by
      change s.created + s.createSem + 0 + s.counted ≤ s.asked + Bool.toNat (decide ((s.soc ≠ none) ∧
        (some FactoryPlace.signaling = some .testing ∨ some FactoryPlace.signaling = some .waiting))) + s.stopping.toNat
      simp
      omega
    answers := fun hrunning => by
      have hanswers := h.answers hrunning
      change s.pickupSem + s.woken + 1 + s.refused ≤ stack.length + (s.failures + 1)
      omega
    pending := fun hrunning => by
      have hpending := h.pending hrunning
      simp only [SocFactory.busy, hp] at hpending
      exact hpending
    idle := fun hnone => by cases hnone
    holds := fun hh => by rcases hh with hh | hh <;> cases hh
    free := fun _ => hsoc
    emptied := fun hexiting => by cases hexiting
    out := fun hleaving => by cases hleaving }

/-- **A socket is stored in the next slot (proved).** -/
theorem FactoryInv.store (h : FactoryInv s stack) (hp : s.thread = some .adding)
    (hroom : s.slot + 1 < socFactoryConcurrencyLimit) {n : ℕ} (hsoc : s.soc = some n) :
    FactoryInv { s with
      slot := s.slot + 1
      list := Function.update s.list (s.slot + 1).toNat s.soc
      soc := none
      thread := some .signaling } (stack ++ [n]) := by
  have hsome : s.thread ≠ none := by
    rw [hp]
    simp
  have hslot := h.slot
  have htop : (s.slot + 1).toNat = stack.length := by omega
  exact { h.there hsome .signaling, h with
    slot := by
      change s.slot + 1 = _
      rw [List.length_append, List.length_singleton]
      omega
    limit := by
      rw [List.length_append, List.length_singleton]
      omega
    list := fun i => by
      change Function.update s.list (s.slot + 1).toNat s.soc i = _
      rw [htop, hsoc]
      by_cases hi : i = stack.length
      · rw [hi, Function.update_self, List.getElem?_concat_length]
      · rw [Function.update_of_ne hi, h.list]
        by_cases hlt : i < stack.length
        · rw [List.getElem?_append_left hlt]
        · rw [List.getElem?_eq_none (by omega), List.getElem?_eq_none (by simp; omega)]
    sockets := by
      change (stack ++ [n] ++ s.handed ++ s.closed).Perm (List.range s.created)
      have hsockets := h.sockets
      rw [hsoc] at hsockets
      refine List.Perm.trans ?_ hsockets
      refine ((List.perm_append_singleton n stack).append_right s.handed).append_right s.closed
    tokens := fun _ _ => by
      have htokens := h.tokens hsome (by simp [SocFactory.leaving, hp])
      simp only [SocFactory.unmade, SocFactory.again, hp, hsoc] at htokens
      change s.created + s.createSem + 0 + s.counted ≤ s.asked + 0 + s.stopping.toNat
      simpa using htokens
    answers := fun hrunning => by
      have hanswers := h.answers hrunning
      change s.pickupSem + s.woken + 1 + s.refused ≤ (stack ++ [n]).length + s.failures
      rw [List.length_append, List.length_singleton]
      simp only [SocFactory.signals, hp] at hanswers
      simp at hanswers
      omega
    pending := fun hrunning => by
      have hpending := h.pending hrunning
      simp only [SocFactory.busy, hp] at hpending
      exact hpending
    idle := fun hnone => by cases hnone
    holds := fun hh => by rcases hh with hh | hh <;> cases hh
    free := fun _ => rfl
    emptied := fun hexiting => by cases hexiting
    out := fun hleaving => by cases hleaving }

/-- `pickupSem` is posted. -/
theorem FactoryInv.signal (h : FactoryInv s stack) (hp : s.thread = some .signaling) :
    FactoryInv { s with pickupSem := s.pickupSem + 1, thread := some .testing } stack := by
  have hsome : s.thread ≠ none := by
    rw [hp]
    simp
  have hsoc := h.free (Or.inr (Or.inl hp))
  exact { h.there hsome .testing, h with
    tokens := fun _ _ => by
      have htokens := h.tokens hsome (by simp [SocFactory.leaving, hp])
      simp only [SocFactory.unmade, SocFactory.again, hp, hsoc] at htokens
      change s.created + s.createSem + 0 + s.counted ≤ s.asked + Bool.toNat (decide (s.soc ≠ none ∧
        (some FactoryPlace.testing = some .testing ∨ some FactoryPlace.testing = some .waiting))) + s.stopping.toNat
      simpa [hsoc] using htokens
    answers := fun hrunning => by
      have hanswers := h.answers hrunning
      simp only [SocFactory.signals, hp] at hanswers
      change s.pickupSem + 1 + s.woken + 0 + s.refused ≤ stack.length + s.failures
      simp at hanswers
      omega
    pending := fun hrunning => by
      have hpending := h.pending hrunning
      simp only [SocFactory.busy, hp] at hpending
      change s.posted + s.waiting ≤ s.createSem + (s.pickupSem + 1) + 0
      simp at hpending
      omega
    idle := fun hnone => by cases hnone
    holds := fun hh => by rcases hh with hh | hh <;> cases hh
    free := fun _ => hsoc
    emptied := fun hexiting => by cases hexiting
    out := fun hleaving => by cases hleaving }

/-- `createSem` is posted again. -/
theorem FactoryInv.repeat (h : FactoryInv s stack) (hp : s.thread = some .repeating) :
    FactoryInv { s with createSem := s.createSem + 1, thread := some .testing } stack := by
  have hsome : s.thread ≠ none := by
    rw [hp]
    simp
  have hsoc := h.holds (Or.inr hp)
  exact { h.there hsome .testing, h with
    tokens := fun _ _ => by
      have htokens := h.tokens hsome (by simp [SocFactory.leaving, hp])
      simp only [SocFactory.unmade, SocFactory.again, hp] at htokens
      change s.created + (s.createSem + 1) + Bool.toNat (decide (some FactoryPlace.testing = some .taken ∧ s.soc = none)) +
        s.counted ≤ s.asked + Bool.toNat (decide (s.soc ≠ none ∧ (some FactoryPlace.testing = some .testing ∨
          some FactoryPlace.testing = some .waiting))) + s.stopping.toNat
      simp [hsoc] at htokens ⊢
      omega
    answers := fun hrunning => by
      have hanswers := h.answers hrunning
      change s.pickupSem + s.woken + 0 + s.refused ≤ stack.length + s.failures
      omega
    pending := fun hrunning => by
      have hpending := h.pending hrunning
      simp only [SocFactory.busy, hp] at hpending
      change s.posted + s.waiting ≤ s.createSem + 1 + s.pickupSem + 0
      simp at hpending
      omega
    idle := fun hnone => by cases hnone
    holds := fun hh => by rcases hh with hh | hh <;> cases hh
    free := fun hf => by rcases hf with hf | hf | hf | hf <;> cases hf
    emptied := fun hexiting => by cases hexiting
    out := fun hleaving => by cases hleaving }

/-- The thread is behind its loop and goes on: what is to be shown about the sockets. -/
theorem FactoryInv.leave (h : FactoryInv s stack) {stack' : List ℕ} (hleaving : s.leaving = true) {q : FactoryPlace}
    (hq : q = .emptying ∨ q = .exiting) {list : ℕ → Option ℕ} {closed : List ℕ} {soc : Option ℕ} (hsoc : soc = none)
    (hlist : ∀ i, list i = stack'[i]?) (hlimit : stack'.length ≤ socFactoryConcurrencyLimit)
    (hsockets : (stack' ++ s.handed ++ closed).Perm (List.range s.created)) (hemptied : q = .exiting → stack' = []) :
    FactoryInv { s with
      closed := closed
      list := list
      slot := stack'.length - 1
      soc := soc
      thread := some q } stack' := by
  subst hsoc
  have hout := h.out hleaving
  have hsome : s.thread ≠ none := by
    intro hnone
    simp [SocFactory.leaving, hnone] at hleaving
  exact { h.there hsome q with
    slot := rfl
    limit := hlimit
    list := hlist
    sockets := hsockets
    requests := h.requests
    asked := h.asked
    refused := h.refused
    tokens := fun _ hnot => by rcases hq with rfl | rfl <;> cases hnot
    answers := fun hrunning => absurd hrunning hout
    pending := fun hrunning => absurd hrunning hout
    idle := fun hnone => by cases hnone
    holds := fun hh => by rcases hq with rfl | rfl <;> rcases hh with hh | hh <;> cases hh
    free := fun _ => rfl
    emptied := fun hexiting => hemptied (Option.some.inj hexiting)
    out := fun _ => hout
    destroying := h.destroying }

theorem FactoryInv.close (h : FactoryInv s stack) (hp : s.thread = some .closing) :
    FactoryInv { s with closed := s.soc.toList ++ s.closed, soc := none, thread := some .emptying } stack := by
  have hsockets : (stack ++ s.handed ++ (s.soc.toList ++ s.closed)).Perm (List.range s.created) := by
    refine List.Perm.trans ?_ h.sockets
    rw [← List.append_assoc, List.append_assoc s.soc.toList]
    exact (List.perm_append_comm).append_right s.closed
  have hleave := h.leave (q := .emptying) (by simp [SocFactory.leaving, hp]) (Or.inl rfl) rfl h.list h.limit
    hsockets (by simp)
  rw [← h.slot] at hleave
  exact hleave

theorem FactoryInv.empty (h : FactoryInv s stack) (hp : s.thread = some .emptying) :
    FactoryInv { s with
      closed := s.occupied ++ s.closed
      list := fun i => if (i : ℤ) ≤ s.slot then none else s.list i
      slot := -1
      thread := some .exiting } [] := by
  have hsoc := h.free (Or.inr (Or.inr (Or.inl hp)))
  have hlist : ∀ i : ℕ, (if (i : ℤ) ≤ s.slot then none else s.list i) = ([] : List ℕ)[i]? := by
    intro i
    have hslot := h.slot
    split
    · rfl
    · rw [h.list i, List.getElem?_eq_none (by omega)]
      rfl
  have hsockets : ([] ++ s.handed ++ (s.occupied ++ s.closed)).Perm (List.range s.created) := by
    have hsockets := h.sockets
    rw [hsoc] at hsockets
    rw [h.occupied_eq]
    refine List.Perm.trans ?_ hsockets
    rw [← List.append_assoc]
    exact (List.perm_append_comm).append_right s.closed
  have hleave := h.leave (q := .exiting) (by simp [SocFactory.leaving, hp]) (Or.inr rfl) hsoc hlist (Nat.zero_le _)
    hsockets (fun _ => rfl)
  exact hleave

theorem FactoryInv.exit (h : FactoryInv s stack) (hp : s.thread = some .exiting) :
    FactoryInv { s with state := .stoppingRequestThreads, thread := none } stack := by
  have hsome : s.thread ≠ none := by
    rw [hp]
    simp
  have hstate : s.state = .stoppingFactoryThread := by
    have hout := h.out (by simp [SocFactory.leaving, hp])
    cases hs : s.state with
    | stopped => exact absurd (h.stopped hs).1 hsome
    | stoppingFactoryThread => rfl
    | stoppingRequestThreads => exact absurd (h.gone hs).1 hsome
    | running => exact absurd hs hout
  have hstopper := (h.thread hstate).2
  exact { h with
    tokens := fun hthread => absurd rfl hthread
    answers := fun hrunning => by cases hrunning
    pending := fun hrunning => by cases hrunning
    stopped := fun hstopped => by cases hstopped
    running := fun hrunning => by cases hrunning
    thread := fun hstopping => by cases hstopping
    gone := fun _ => ⟨rfl, by rw [hstopper]; simp⟩
    idle := fun _ => ⟨h.free (Or.inr (Or.inr (Or.inr hp))), h.emptied hp⟩
    holds := fun hh => by rcases hh with hh | hh <;> cases hh
    free := fun hf => by rcases hf with hf | hf | hf | hf <;> cases hf
    emptied := fun hexiting => by cases hexiting
    out := fun hleaving => by cases hleaving
    destroying := fun hdestroying => by
      rw [hstopper] at hdestroying
      cases hdestroying }

/-! ### `socFactoryStop` -/

/-- The stopping thread goes on, and may post `pickupSem`. -/
theorem FactoryInv.stopOn (h : FactoryInv s stack) (hstate : s.state = .stoppingRequestThreads) {q : StopPlace}
    {pickupSem : ℕ} (hq : q = .destroying → s.requests = 0) :
    FactoryInv { s with pickupSem := pickupSem, stopper := some q } stack :=
  { h with
    answers := fun hrunning => by
      rw [show s.state = .running from hrunning] at hstate
      cases hstate
    pending := fun hrunning => by
      rw [show s.state = .running from hrunning] at hstate
      cases hstate
    stopped := fun hstopped => by
      rw [show s.state = .stopped from hstopped] at hstate
      cases hstate
    running := fun hrunning => by
      rw [show s.state = .running from hrunning] at hstate
      cases hstate
    thread := fun hstopping => by
      rw [show s.state = .stoppingFactoryThread from hstopping] at hstate
      cases hstate
    gone := fun hgone => ⟨(h.gone hgone).1, by simp⟩
    destroying := fun hdestroying => ⟨hq (Option.some.inj hdestroying), hstate⟩ }

/-- A thread that is behind the first wait of `socFactoryStop` has seen the factory thread exit. -/
theorem FactoryInv.stopping_state (h : FactoryInv s stack) {q : StopPlace} (hstopper : s.stopper = some q)
    (hq : q ≠ .awaiting) : s.state = .stoppingRequestThreads := by
  cases hs : s.state with
  | stopped =>
    rw [(h.stopped hs).2.1] at hstopper
    cases hstopper
  | stoppingFactoryThread =>
    rw [(h.thread hs).2] at hstopper
    cases hstopper
    exact absurd rfl hq
  | stoppingRequestThreads => rfl
  | running =>
    rw [(h.running hs).2] at hstopper
    cases hstopper

theorem FactoryInv.destroy (h : FactoryInv s stack) (hstopper : s.stopper = some .destroying) :
    FactoryInv { s with state := .stopped, stopper := none } stack := by
  obtain ⟨hrequests, hstate⟩ := h.destroying hstopper
  have hthread := (h.gone hstate).1
  exact { h with
    tokens := fun hsome => absurd hthread hsome
    answers := fun hrunning => by cases hrunning
    pending := fun hrunning => by cases hrunning
    stopped := fun _ => ⟨hthread, rfl, hrequests⟩
    running := fun hrunning => by cases hrunning
    thread := fun hstopping => by cases hstopping
    gone := fun hgone => by cases hgone
    out := fun hleaving => by
      change decide (s.thread = some .closing ∨ _) = true at hleaving
      rw [hthread] at hleaving
      simp at hleaving
    destroying := fun hdestroying => by cases hdestroying }

/-! ### Runs -/

/-- **The step lemma (proved).** -/
theorem factoryStep_inv {a : FactoryAction} (h : FactoryInv s stack) (hok : Requested s a)
    (hs : factoryStep s a = some s') : ∃ stack', FactoryInv s' stack' := by
  cases a with
  | request =>
    cases hs
    split
    next hstate => exact ⟨stack, h.request hstate⟩
    · exact ⟨stack, h⟩
  | postCreate =>
    simp only [factoryStep] at hs
    split at hs
    next hcounted =>
      cases hs
      exact ⟨stack, h.postCreate hcounted⟩
    · cases hs
  | wait =>
    simp only [factoryStep] at hs
    split at hs
    next hposted =>
      cases hs
      exact ⟨stack, h.wait hposted⟩
    · cases hs
  | wake =>
    simp only [factoryStep] at hs
    split at hs
    next hwake =>
      cases hs
      exact ⟨stack, h.wake hwake.1 hwake.2⟩
    · cases hs
  | pickUp =>
    simp only [factoryStep] at hs
    split at hs
    next hwoken =>
      split at hs
      next hslot =>
        cases hs
        exact ⟨stack.dropLast, h.pickUp hwoken hslot⟩
      next hslot =>
        cases hs
        exact ⟨stack, h.refuse hwoken hslot⟩
    · cases hs
  | start =>
    cases hs
    split
    next hstate => exact ⟨stack, h.start hstate⟩
    · exact ⟨stack, h⟩
  | spawn =>
    simp only [factoryStep] at hs
    split at hs
    next hp =>
      cases hs
      exact ⟨stack, h.spawn hp⟩
    · cases hs
  | test =>
    simp only [factoryStep] at hs
    split at hs
    next hp =>
      cases hs
      exact ⟨stack, h.test hp⟩
    · cases hs
  | take =>
    simp only [factoryStep, notRunning_false, Bool.false_eq_true, if_false] at hs
    split at hs
    next hp =>
      cases hs
      exact ⟨stack, h.take hp.1 hp.2⟩
    · cases hs
  | create ok =>
    simp only [factoryStep] at hs
    split at hs
    next hp =>
      split at hs
      next hsoc =>
        split at hs
        next hcreated =>
          cases hs
          exact ⟨stack, h.create hp hsoc (hok hcreated hsoc)⟩
        · cases hs
          exact ⟨stack, h.fail hp hsoc⟩
      next hsoc =>
        cases hs
        exact ⟨stack, h.keep hp hsoc⟩
    · cases hs
  | add =>
    simp only [factoryStep] at hs
    split at hs
    next hp =>
      split at hs
      next hroom =>
        cases hs
        obtain ⟨n, hn⟩ := Option.ne_none_iff_exists'.mp (h.holds (Or.inl hp))
        exact ⟨stack ++ [n], h.store hp hroom hn⟩
      · cases hs
        exact ⟨stack, h.full hp⟩
    · cases hs
  | post =>
    simp only [factoryStep] at hs
    split at hs
    next hp =>
      cases hs
      exact ⟨stack, h.signal hp⟩
    · split at hs
      next hp =>
        cases hs
        exact ⟨stack, h.repeat hp⟩
      · cases hs
  | close =>
    simp only [factoryStep] at hs
    split at hs
    next hp =>
      cases hs
      exact ⟨stack, h.close hp⟩
    · cases hs
  | empty =>
    simp only [factoryStep] at hs
    split at hs
    next hp =>
      cases hs
      exact ⟨[], h.empty hp⟩
    · cases hs
  | exit =>
    simp only [factoryStep] at hs
    split at hs
    next hp =>
      cases hs
      exact ⟨stack, h.exit hp⟩
    · cases hs
  | stop =>
    cases hs
    split
    next hstate => exact ⟨stack, h.stop hstate⟩
    · exact ⟨stack, h⟩
  | seeExit =>
    simp only [factoryStep] at hs
    split at hs
    next hsee =>
      cases hs
      exact ⟨stack, h.stopOn (q := .reading) hsee.2 (fun hq => by cases hq)⟩
    · cases hs
  | semaValue =>
    simp only [factoryStep] at hs
    split at hs
    next hstopper =>
      cases hs
      exact ⟨stack, h.stopOn (h.stopping_state hstopper (by simp)) (fun hq => by cases hq)⟩
    · cases hs
  | useValue =>
    simp only [factoryStep] at hs
    split at hs
    next semaValue hstopper =>
      have hstate := h.stopping_state hstopper (by simp)
      split at hs
      · cases hs
        exact ⟨stack, h.stopOn (q := .reading) hstate (fun hq => by cases hq)⟩
      · cases hs
        split
        next hrequests =>
          refine ⟨stack, h.stopOn (q := .destroying) hstate fun _ => ?_⟩
          have hsum := h.requests
          omega
        · exact ⟨stack, h.stopOn (q := .reading) hstate (fun hq => by cases hq)⟩
    · cases hs
  | destroy =>
    simp only [factoryStep] at hs
    split at hs
    next hstopper =>
      cases hs
      exact ⟨stack, h.destroy hstopper⟩
    · cases hs

end Steps

/-- **The factory is sound (proved)** in every run that creates sockets for requests. -/
theorem reachable_factory {s : SocFactory} (h : ReachableVia (enabled factoryStep) Requested {} s) :
    FactorySound s := by
  obtain ⟨stack, hinv⟩ := h.invariant (P := fun s => ∃ stack, FactoryInv s stack) ⟨[], factoryInv_new⟩
    fun _ _ _ hi hok hs => factoryStep_inv hi.choose_spec hok hs
  exact hinv.factorySound

/-- A requester gets a socket; the factory stops, fails to make a socket of the last token, and starts again. -/
theorem reachable_factory_restarted : ∃ s : SocFactory, FactorySound s ∧ s.created = 1 ∧ s.handed = [0] ∧
    s.state = .running ∧ s.failures = 1 := by
  have hrun : ∃ s, runFrom (guarded Requested factoryStep) {}
      [.start, .spawn, .test, .request, .postCreate, .wait, .take, .create true, .add, .post, .test, .wake, .pickUp,
        .stop, .take, .create false, .post, .test, .close, .empty, .exit, .seeExit, .semaValue, .useValue, .destroy,
        .start] = some s ∧ s.created = 1 ∧ s.handed = [0] ∧ s.state = .running ∧ s.failures = 1 :=
    ⟨_, rfl, rfl, rfl, rfl, rfl⟩
  obtain ⟨s, hs, hobs⟩ := hrun
  exact ⟨s, reachable_factory (reachableVia_of_runFrom hs), hobs⟩

/-- **A socket that nobody has asked for (proved):** the factory stops, and its thread takes the token to be a
request. -/
theorem factory_fails : ¬ ∀ s : SocFactory, Reachable (enabled factoryStep) {} s → FactorySound s := by
  intro hall
  have hrun : ∃ s, runFrom factoryStep {} [.start, .spawn, .test, .stop, .take, .create true] = some s ∧
      s.created = 1 ∧ s.asked = 0 := ⟨_, rfl, rfl, rfl⟩
  obtain ⟨s, hs, hcreated, hasked⟩ := hrun
  have hle := (hall s (reachable_of_runFrom hs)).asked
  rw [hcreated, hasked] at hle
  exact absurd hle (by decide)

end Connio
