import Mathlib.Data.Int.Init
import Connio.Lib.HeadLists
import Connio.Lib.TailList
import Connio.TimeoutWheel

/-!
# The links of the timeout lists

The pointers of `TimeoutWheel`: the slots of the two poll threads, and the fields of the events by which they are linked
(`sockunix.c`).

* `timeoutSlot`, `TimeoutEvents` — `TIMEOUT_INDEX`, and the slots with the events;
* `socketTimeoutAdd`, `socketTimeoutDelete`, `socketEventComplete`, `expire` — the functions of the source;
* `TimeoutsSound` — the slots are well formed, and an event is on a slot exactly while its timeout is pending;
* `detachLoop_spec` — **PROVED**: the loop that leads the chain through `async.next` ends, and the chain has the events
  of the slot;
* `timeoutStep_inv`, `reachable_timeoutsSound` — **PROVED**: an operation keeps this, and so does a run.

An operation is one step; the second loop of an expiry, which completes the events that the first one has detached, is
here one `complete` for each of them, at any time.
-/

namespace Connio

open Connio.Lib

/-! ### The slots and the events -/

/-- `engine->pollIn` and `engine->pollOut` -/
inductive PollWheel where
  | pollIn
  | pollOut
  deriving DecidableEq, Repr

/-- `TIMEOUT_INDEX`, with the division of C -/
def timeoutSlot (t : ℤ) : ℤ := (t.tdiv socketTimeoutGranularity).tmod socketTimeoutLists

/-- The two wheels, and what the events have to do with them. -/
structure TimeoutEvents where
  /-- `timeoutList[]` of both wheels, and `timeoutNext`, `timeoutPrev` and `timeoutList` of the events -/
  lists : HeadLists (PollWheel × ℤ) ℕ := .empty
  asyncNext : ℕ → Option ℕ
  now : PollWheel → ℤ
  timeoutIndex : PollWheel → ℤ
  /-- the type is `SOCK_EVENT_TYPE_LISTEN` -/
  listen : ℕ → Bool
  /-- `FSE_TIMEOUT_PENDING` -/
  pending : ℕ → Bool := fun _ => false
  /-- `FSE_IN_ENGINE` -/
  inEngine : ℕ → Bool := fun _ => false

namespace TimeoutEvents

variable (s : TimeoutEvents)

/-- The slot of a timeout, in milliseconds, that is added now. -/
def slotOf (poll : PollWheel) (timeout : ℤ) : PollWheel × ℤ :=
  (poll, timeoutSlot (s.now poll + timeout.tdiv 1000 + (socketTimeoutGranularity - 1 : ℤ)))

/-- `_SocketTimeoutAdd` -/
def socketTimeoutAdd (poll : PollWheel) (event : ℕ) (timeout : ℤ) : TimeoutEvents :=
  if timeout ≠ 0 ∧ s.listen event = false then
    { s with
      lists :=
        match s.lists.home event with
        | none => s.lists.insert (s.slotOf poll timeout) event
        | some _ => s.lists
      pending := Function.update s.pending event true }
  else s

/-- `_SocketTimeoutDelete` -/
def socketTimeoutDelete (event : ℕ) : TimeoutEvents :=
  { s with
    lists :=
      match s.lists.home event with
      | none => s.lists
      | some slot => if s.listen event = false then s.lists.remove slot event else s.lists
    pending := Function.update s.pending event false }

/-- `SocketEventComplete` -/
def socketEventComplete (event : ℕ) : Bool × TimeoutEvents :=
  let s := if s.pending event = true then s.socketTimeoutDelete event else s
  if s.inEngine event = true then (true, { s with inEngine := Function.update s.inEngine event false }) else (false, s)

/-- One round of the loop that detaches a slot. -/
def detachOne (event : ℕ) : TimeoutEvents :=
  { s with
    pending := Function.update s.pending event false
    asyncNext := Function.update s.asyncNext event (s.lists.next event)
    lists := s.lists.clear event }

/-- The loop that detaches a slot; `none` when it has not ended after `fuel` rounds. -/
def detachLoop : ℕ → Option ℕ → TimeoutEvents → Option TimeoutEvents
  | _, none, s => some s
  | 0, some _, _ => none
  | fuel + 1, some event, s => detachLoop fuel ((s.detachOne event).asyncNext event) (s.detachOne event)

/-- The slot that the clock has come to. -/
def dueSlot (poll : PollWheel) : PollWheel × ℤ := (poll, timeoutSlot (s.now poll))

/-- The slot loses its head, and the wheel goes on to its index. -/
def takeSlot (poll : PollWheel) : TimeoutEvents :=
  { s with
    timeoutIndex := Function.update s.timeoutIndex poll (s.dueSlot poll).2
    lists := { s.lists with head := Function.update s.lists.head (s.dueSlot poll) none } }

/-- What `_PollThread` does when it has read the clock: it detaches the slot of a new index.  The result is `events`, which
the second loop, `TimeoutThreads.cursor`, then works through. -/
def expire (poll : PollWheel) (fuel : ℕ) : Option (Option ℕ × TimeoutEvents) :=
  if s.timeoutIndex poll ≠ (s.dueSlot poll).2 then
    (detachLoop fuel (s.lists.head (s.dueSlot poll)) (s.takeSlot poll)).map fun t => (s.lists.head (s.dueSlot poll), t)
  else some (none, s)

/-- `sockEngineInit`, with events that are on no slot -/
def sockEngineInit (now : ℤ) (asyncNext : ℕ → Option ℕ) (listen : ℕ → Bool) : TimeoutEvents where
  asyncNext := asyncNext
  now := fun _ => now
  timeoutIndex := fun _ => timeoutSlot now
  listen := listen

end TimeoutEvents

inductive TimeoutAction where
  /-- `SeLinkCe`: an event that is on no slot gets its type -/
  | link (event : ℕ) (listen : Bool)
  /-- `sockEventAdd` sets `FSE_IN_ENGINE` -/
  | enter (event : ℕ)
  | add (poll : PollWheel) (event : ℕ) (timeout : ℤ)
  | complete (event : ℕ)
  /-- the poll thread reads the clock -/
  | clock (poll : PollWheel) (now : ℤ)
  | expire (poll : PollWheel) (fuel : ℕ)
  deriving DecidableEq, Repr

/-- **One step;** `none` when it is not enabled. -/
def timeoutStep (s : TimeoutEvents) : TimeoutAction → Option TimeoutEvents
  | .link event listen =>
    if s.lists.home event = none then some { s with listen := Function.update s.listen event listen } else none
  | .enter event => some { s with inEngine := Function.update s.inEngine event true }
  | .add poll event timeout => some (s.socketTimeoutAdd poll event timeout)
  | .complete event => some (s.socketEventComplete event).2
  | .clock poll now => some { s with now := Function.update s.now poll now }
  | .expire poll fuel => (s.expire poll fuel).map Prod.snd

/-- **The slots hold exactly the lists `l`,** and an event is on one of them exactly while its timeout is pending; one of
type `SOCK_EVENT_TYPE_LISTEN` is on none. -/
structure TimeoutsSound (s : TimeoutEvents) (l : PollWheel × ℤ → List ℕ) : Prop where
  lists : s.lists.Holds l
  pending : ∀ event, s.pending event = true ↔ ∃ slot, event ∈ l slot
  listen : ∀ event, s.listen event = true → s.lists.home event = none

/-! ### The index -/

theorem timeoutSlot_natCast (t : ℕ) : timeoutSlot t = timeoutIndex t := by
  unfold timeoutSlot timeoutIndex
  rw [Int.tdiv_eq_ediv_of_nonneg (Int.natCast_nonneg t), ← Int.natCast_ediv,
    Int.tmod_eq_emod_of_nonneg (Int.natCast_nonneg _), ← Int.natCast_emod]

/-! ### An operation -/

section Operations

variable {s t : TimeoutEvents} {l : PollWheel × ℤ → List ℕ}

/-- The timeout of an event is pending exactly while it says that it is on a slot. -/
theorem TimeoutsSound.pending_home (h : TimeoutsSound s l) (event : ℕ) :
    s.pending event = true ↔ s.lists.home event ≠ none := by
  rw [h.pending, Option.ne_none_iff_exists']
  exact exists_congr fun slot => (h.lists.home event slot).symm

/-- The slots are sound when the flags agree with what the events say. -/
theorem TimeoutsSound.of_home (hlists : s.lists.Holds l)
    (hpending : ∀ event, s.pending event = true ↔ s.lists.home event ≠ none)
    (hlisten : ∀ event, s.listen event = true → s.lists.home event = none) : TimeoutsSound s l := by
  refine ⟨hlists, fun event => ?_, hlisten⟩
  rw [hpending, Option.ne_none_iff_exists']
  exact exists_congr fun slot => hlists.home event slot

/-- A step that changes neither the slots nor the flag. -/
theorem TimeoutsSound.keep (h : TimeoutsSound s l) (hlists : t.lists = s.lists) (hpending : t.pending = s.pending)
    (hlisten : t.listen = s.listen) : TimeoutsSound t l := by
  refine ⟨?_, ?_, ?_⟩
  · rw [hlists]
    exact h.lists
  · rw [hpending]
    exact h.pending
  · rw [hlisten, hlists]
    exact h.listen

/-- One event goes on a slot or off it, and the flag with it. -/
theorem TimeoutsSound.change (h : TimeoutsSound s l) {l' : PollWheel × ℤ → List ℕ} {event : ℕ}
    {home : Option (PollWheel × ℤ)} {flag : Bool} (hlists : t.lists.Holds l')
    (hhome : t.lists.home = Function.update s.lists.home event home)
    (hpending : t.pending = Function.update s.pending event flag) (hflag : flag = true ↔ home ≠ none)
    (hlisten : t.listen = s.listen) (hquiet : s.listen event = true → home = none) : TimeoutsSound t l' := by
  refine .of_home hlists (fun e => ?_) fun e he => ?_
  · rw [hpending, hhome]
    by_cases heq : e = event
    · rw [heq, Function.update_self, Function.update_self]
      exact hflag
    · rw [Function.update_of_ne heq, Function.update_of_ne heq]
      exact h.pending_home e
  · rw [hlisten] at he
    rw [hhome]
    by_cases heq : e = event
    · rw [heq] at he ⊢
      rw [Function.update_self]
      exact hquiet he
    · rw [Function.update_of_ne heq]
      exact h.listen e he

/-- An event that is on no slot gets its type. -/
theorem TimeoutsSound.link (h : TimeoutsSound s l) {event : ℕ} {listen : Bool}
    (hstep : timeoutStep s (.link event listen) = some t) :
    t = { s with listen := Function.update s.listen event listen } ∧ TimeoutsSound t l := by
  simp only [timeoutStep] at hstep
  split at hstep <;> cases hstep
  next hnone =>
    refine ⟨rfl, h.lists, h.pending, fun e he => ?_⟩
    by_cases heq : e = event
    · rw [heq]
      exact hnone
    · exact h.listen e ((Function.update_of_ne heq ..).symm.trans he)

/-- **`_SocketTimeoutAdd` (proved)** puts an event that is on no slot at the head of one. -/
theorem TimeoutsSound.added (h : TimeoutsSound s l) (poll : PollWheel) {event : ℕ} {timeout : ℤ}
    (hadds : timeout ≠ 0 ∧ s.listen event = false) (hhome : s.lists.home event = none) :
    TimeoutsSound (s.socketTimeoutAdd poll event timeout)
      (Function.update l (s.slotOf poll timeout) (event :: l (s.slotOf poll timeout))) := by
  have hquiet : s.listen event = true → some (s.slotOf poll timeout) = none := by
    intro hlisten
    rw [hadds.2] at hlisten
    cases hlisten
  unfold TimeoutEvents.socketTimeoutAdd
  rw [if_pos hadds, hhome]
  exact h.change (HeadLists.holds_insert h.lists hhome _) rfl rfl (iff_of_true rfl (Option.some_ne_none _)) rfl hquiet

/-- It leaves one that is on a slot, and one without a timeout or of type `SOCK_EVENT_TYPE_LISTEN`. -/
theorem TimeoutsSound.add_same (h : TimeoutsSound s l) (poll : PollWheel) {event : ℕ} {timeout : ℤ}
    (hsame : timeout ≠ 0 ∧ s.listen event = false → s.lists.home event ≠ none) :
    TimeoutsSound (s.socketTimeoutAdd poll event timeout) l := by
  unfold TimeoutEvents.socketTimeoutAdd
  split
  next hadds =>
    obtain ⟨slot, hslot⟩ := Option.ne_none_iff_exists'.mp (hsame hadds)
    have hhome : s.lists.home = Function.update s.lists.home event (some slot) := by
      rw [← hslot, Function.update_eq_self]
    have hquiet : s.listen event = true → some slot = none := by
      intro hlisten
      rw [hadds.2] at hlisten
      cases hlisten
    rw [hslot]
    exact h.change h.lists hhome rfl (iff_of_true rfl (Option.some_ne_none _)) rfl hquiet
  next => exact h

theorem TimeoutsSound.add (h : TimeoutsSound s l) (poll : PollWheel) (event : ℕ) (timeout : ℤ) :
    ∃ l', TimeoutsSound (s.socketTimeoutAdd poll event timeout) l' := by
  by_cases hnew : (timeout ≠ 0 ∧ s.listen event = false) ∧ s.lists.home event = none
  · exact ⟨_, h.added poll hnew.1 hnew.2⟩
  · exact ⟨l, h.add_same poll fun hadds hhome => hnew ⟨hadds, hhome⟩⟩

/-- **`_SocketTimeoutDelete` (proved)** takes an event off its slot. -/
theorem TimeoutsSound.delete (h : TimeoutsSound s l) (event : ℕ) :
    TimeoutsSound (s.socketTimeoutDelete event) fun slot => (l slot).erase event := by
  unfold TimeoutEvents.socketTimeoutDelete
  have hflag : false = true ↔ (none : Option (PollWheel × ℤ)) ≠ none := iff_of_false Bool.false_ne_true (absurd rfl)
  cases hhome : s.lists.home event with
  | none =>
    have hsame : s.lists.home = Function.update s.lists.home event none := by
      rw [← hhome, Function.update_eq_self]
    rw [h.lists.erase_of_none hhome]
    exact h.change h.lists hsame rfl hflag rfl fun _ => rfl
  | some slot =>
    have hquiet : s.listen event = false := by
      cases hlisten : s.listen event with
      | false => rfl
      | true =>
        rw [h.listen event hlisten] at hhome
        cases hhome
    have hmem : event ∈ l slot := (h.lists.home event slot).mp hhome
    rw [h.lists.erase_of_some hhome]
    simp only [hquiet, if_true]
    exact h.change (HeadLists.holds_remove h.lists hhome) (HeadLists.remove_frame h.lists hmem).2.1 rfl hflag rfl
      fun _ => rfl

/-- **`SocketEventComplete` (proved)** does so too, whether or not the event is pending. -/
theorem TimeoutsSound.complete (h : TimeoutsSound s l) (event : ℕ) :
    TimeoutsSound (s.socketEventComplete event).2 fun slot => (l slot).erase event := by
  have hdeleted : TimeoutsSound (if s.pending event = true then s.socketTimeoutDelete event else s)
      fun slot => (l slot).erase event := by
    split
    next => exact h.delete event
    next hnot =>
      have hhome : s.lists.home event = none := not_not.mp fun hhome => hnot ((h.pending_home event).mpr hhome)
      rw [h.lists.erase_of_none hhome]
      exact h
  have hleft : ∀ u l', TimeoutsSound u l' → TimeoutsSound (if u.inEngine event = true then
      (true, { u with inEngine := Function.update u.inEngine event false }) else (false, u)).2 l' := by
    intro u l' hu
    split
    · exact hu.keep rfl rfl rfl
    · exact hu
  exact hleft _ _ hdeleted

/-! ### The expiry -/

/-- What the loop leaves of the events that are still linked, and of the others. -/
structure DetachedFrom (s : TimeoutEvents) (l : List ℕ) (t : TimeoutEvents) : Prop where
  head : t.lists.head = s.lists.head
  inside : ∀ e ∈ l, t.lists.next e = none ∧ t.lists.previous e = none ∧ t.lists.home e = none ∧ t.pending e = false
  outside : ∀ e, e ∉ l → t.lists.next e = s.lists.next e ∧ t.lists.previous e = s.lists.previous e ∧
    t.lists.home e = s.lists.home e ∧ t.pending e = s.pending e ∧ t.asyncNext e = s.asyncNext e
  chain : Chained t.asyncNext l
  listen : t.listen = s.listen

/-- **The loop that detaches a slot (proved)** ends after one round for each event that is linked. -/
theorem detachLoop_spec (l : List ℕ) : ∀ {s : TimeoutEvents} {fuel : ℕ}, Chained s.lists.next l → l.Nodup →
    l.length ≤ fuel → ∃ t, TimeoutEvents.detachLoop fuel l.head? s = some t ∧ DetachedFrom s l t := by
  induction l with
  | nil =>
    intro s fuel _ _ _
    have hloop : TimeoutEvents.detachLoop fuel none s = some s := by cases fuel <;> rfl
    exact ⟨s, hloop, rfl, fun _ he => absurd he List.not_mem_nil, fun _ _ => ⟨rfl, rfl, rfl, rfl, rfl⟩, trivial, rfl⟩
  | cons x xs ih =>
    intro s fuel hchain hnodup hfuel
    obtain ⟨hx, hxs⟩ := hchain
    obtain ⟨hnot, hnodup'⟩ := List.nodup_cons.mp hnodup
    cases fuel with
    | zero => exact absurd hfuel (Nat.not_succ_le_zero _)
    | succ fuel =>
      have hne : ∀ e ∈ xs, e ≠ x := fun e he heq => hnot (heq ▸ he)
      have hnext : (s.detachOne x).asyncNext x = xs.head? := (Function.update_self ..).trans hx
      have hchain' : Chained (s.detachOne x).lists.next xs :=
        hxs.congr fun e he => Function.update_of_ne (hne e he) ..
      obtain ⟨t, hloop, ht⟩ := ih hchain' hnodup' (Nat.le_of_succ_le_succ hfuel)
      refine ⟨t, ?_, ht.head, ?_, ?_, ⟨?_, ht.chain⟩, ht.listen⟩
      · show TimeoutEvents.detachLoop fuel ((s.detachOne x).asyncNext x) (s.detachOne x) = some t
        rw [hnext, hloop]
      · intro e he
        rcases List.mem_cons.mp he with rfl | he
        · obtain ⟨h1, h2, h3, h4, _⟩ := ht.outside e hnot
          rw [h1, h2, h3, h4]
          exact ⟨Function.update_self .., Function.update_self .., Function.update_self .., Function.update_self ..⟩
        · exact ht.inside e he
      · intro e he
        obtain ⟨hex, hexs⟩ := not_or.mp (List.mem_cons.not.mp he)
        obtain ⟨h1, h2, h3, h4, h5⟩ := ht.outside e hexs
        rw [h1, h2, h3, h4, h5]
        exact ⟨Function.update_of_ne hex .., Function.update_of_ne hex .., Function.update_of_ne hex ..,
          Function.update_of_ne hex .., Function.update_of_ne hex ..⟩
      · rw [(ht.outside x hnot).2.2.2.2]
        exact hnext

/-- A linked list is a chain. -/
theorem chained_of_linked {next previous : ℕ → Option ℕ} {m : List ℕ} :
    ∀ {p : Option ℕ}, Linked next previous p m none → Chained next m := by
  induction m with
  | nil => exact fun _ => trivial
  | cons x xs ih =>
    rintro p ⟨_, hnext, hxs⟩
    rw [Option.or_none] at hnext
    exact ⟨hnext, ih hxs⟩

/-- **The expiry (proved):** the loop ends, the chain has exactly the events of the slot, and the slot is empty. -/
theorem TimeoutsSound.expire (h : TimeoutsSound s l) {poll : PollWheel} {fuel : ℕ}
    (hnew : s.timeoutIndex poll ≠ (s.dueSlot poll).2) (hfuel : (l (s.dueSlot poll)).length ≤ fuel) :
    ∃ t, s.expire poll fuel = some ((l (s.dueSlot poll)).head?, t) ∧ Chained t.asyncNext (l (s.dueSlot poll)) ∧
      TimeoutsSound t (Function.update l (s.dueSlot poll) []) := by
  have hlinked := h.lists.linked (s.dueSlot poll)
  have hhead := h.lists.head (s.dueSlot poll)
  obtain ⟨t, hloop, ht⟩ := detachLoop_spec (l (s.dueSlot poll)) (s := s.takeSlot poll) (chained_of_linked hlinked)
    (h.lists.nodup _) hfuel
  have hholds : t.lists.Holds (Function.update l (s.dueSlot poll) []) := by
    refine HeadLists.holds_cleared h.lists ht.head (fun e he => ?_) fun e he => ?_
    · obtain ⟨h1, h2, h3, _⟩ := ht.inside e he
      exact ⟨h1, h2, h3⟩
    · obtain ⟨h1, h2, h3, _⟩ := ht.outside e he
      exact ⟨h1, h2, h3⟩
  refine ⟨t, ?_, ht.chain, .of_home hholds (fun e => ?_) fun e he => ?_⟩
  · unfold TimeoutEvents.expire
    rw [if_pos hnew, hhead, hloop]
    rfl
  · by_cases hmem : e ∈ l (s.dueSlot poll)
    · obtain ⟨_, _, hhome, hpending⟩ := ht.inside e hmem
      rw [hhome, hpending]
      exact iff_of_false Bool.false_ne_true (absurd rfl)
    · obtain ⟨_, _, hhome, hpending, _⟩ := ht.outside e hmem
      rw [hhome, hpending]
      exact h.pending_home e
  · rw [ht.listen] at he
    by_cases hmem : e ∈ l (s.dueSlot poll)
    · exact (ht.inside e hmem).2.2.1
    · exact (ht.outside e hmem).2.2.1.trans (h.listen e he)

/-- A loop that ends does not depend on the fuel. -/
theorem detachLoop_mono {fuel fuel' : ℕ} (hle : fuel ≤ fuel') : ∀ {cursor : Option ℕ} {s t : TimeoutEvents},
    TimeoutEvents.detachLoop fuel cursor s = some t → TimeoutEvents.detachLoop fuel' cursor s = some t := by
  induction fuel generalizing fuel' with
  | zero =>
    intro cursor s t hloop
    cases cursor with
    | none => cases fuel' <;> exact hloop
    | some e => cases hloop
  | succ fuel ih =>
    intro cursor s t hloop
    obtain ⟨n, rfl⟩ : ∃ n, fuel' = n + 1 := ⟨fuel' - 1, by omega⟩
    cases cursor with
    | none => exact hloop
    | some e => exact ih (Nat.le_of_succ_le_succ hle) hloop

/-- **An expiry that ends (proved):** the slot is empty when the index is new, and else nothing has changed. -/
theorem TimeoutsSound.expired (h : TimeoutsSound s l) {poll : PollWheel} {fuel : ℕ}
    (hstep : timeoutStep s (.expire poll fuel) = some t) :
    (s.timeoutIndex poll ≠ (s.dueSlot poll).2 ∧ TimeoutsSound t (Function.update l (s.dueSlot poll) [])) ∨
      (s.timeoutIndex poll = (s.dueSlot poll).2 ∧ t = s) := by
  by_cases hnew : s.timeoutIndex poll ≠ (s.dueSlot poll).2
  · obtain ⟨t', hexpire, _, ht'⟩ := h.expire hnew (Nat.le_max_left _ fuel)
    refine .inl ⟨hnew, (?_ : t' = t) ▸ ht'⟩
    simp only [timeoutStep, TimeoutEvents.expire, if_pos hnew, Option.map_map, Option.map_eq_some_iff] at hstep hexpire
    obtain ⟨u, hloop, hu⟩ := hstep
    obtain ⟨v, hloop', hv⟩ := hexpire
    rw [detachLoop_mono (Nat.le_max_right _ fuel) hloop] at hloop'
    have huv : u = v := Option.some.inj hloop'
    rw [huv] at hu
    exact (congrArg Prod.snd hv).symm.trans hu
  · simp only [timeoutStep, TimeoutEvents.expire, if_neg hnew] at hstep
    cases hstep
    exact .inr ⟨not_not.mp hnew, rfl⟩

end Operations

/-! ### A run -/

/-- **The step lemma (proved).** -/
theorem timeoutStep_inv {s t : TimeoutEvents} {l : PollWheel × ℤ → List ℕ} {a : TimeoutAction}
    (h : TimeoutsSound s l) (hstep : timeoutStep s a = some t) : ∃ l', TimeoutsSound t l' := by
  cases a with
  | link event listen => exact ⟨l, (h.link hstep).2⟩
  | enter event =>
    cases hstep
    exact ⟨l, h.keep rfl rfl rfl⟩
  | add poll event timeout =>
    cases hstep
    exact h.add poll event timeout
  | complete event =>
    cases hstep
    exact ⟨_, h.complete event⟩
  | clock poll now =>
    cases hstep
    exact ⟨l, h.keep rfl rfl rfl⟩
  | expire poll fuel =>
    rcases h.expired hstep with ⟨_, ht⟩ | ⟨_, rfl⟩
    · exact ⟨_, ht⟩
    · exact ⟨l, h⟩

theorem timeoutsSound_init (now : ℤ) (asyncNext : ℕ → Option ℕ) (listen : ℕ → Bool) :
    TimeoutsSound (.sockEngineInit now asyncNext listen) fun _ => [] where
  lists := HeadLists.holds_empty
  pending _ := iff_of_false Bool.false_ne_true fun ⟨_, hmem⟩ => List.not_mem_nil hmem
  listen _ _ := rfl

/-- **The timeout lists are sound in every state of a run (proved),** and an expiry detaches exactly the events of its
slot. -/
theorem reachable_timeoutsSound {now : ℤ} {asyncNext : ℕ → Option ℕ} {listen : ℕ → Bool} {s : TimeoutEvents}
    (h : Reachable (enabled timeoutStep) (.sockEngineInit now asyncNext listen) s) :
    ∃ l, TimeoutsSound s l ∧ ∀ poll fuel, s.timeoutIndex poll ≠ (s.dueSlot poll).2 →
      (l (s.dueSlot poll)).length ≤ fuel → ∃ t, s.expire poll fuel = some ((l (s.dueSlot poll)).head?, t) ∧
        Chained t.asyncNext (l (s.dueSlot poll)) ∧ TimeoutsSound t (Function.update l (s.dueSlot poll) []) := by
  have hstart : ∃ l, TimeoutsSound (.sockEngineInit now asyncNext listen) l :=
    ⟨_, timeoutsSound_init now asyncNext listen⟩
  obtain ⟨l, hl⟩ := h.invariant (P := fun s => ∃ l, TimeoutsSound s l) hstart fun _ _ _ hs _ hstep =>
    timeoutStep_inv hs.choose_spec hstep
  exact ⟨l, hl, fun _ _ hnew hfuel => hl.expire hnew hfuel⟩

/-- Three events are put on one slot, the one in the middle is completed, and the clock comes to the slot. -/
theorem reachable_timeoutsSound_due : ∃ s,
    Reachable (enabled timeoutStep) (.sockEngineInit 0 (fun _ => none) fun _ => false) s ∧
      s.lists.head (s.dueSlot .pollIn) = some 3 ∧ s.lists.next 3 = some 1 ∧
      ∃ l, TimeoutsSound s l ∧ ∀ poll fuel, s.timeoutIndex poll ≠ (s.dueSlot poll).2 →
        (l (s.dueSlot poll)).length ≤ fuel → ∃ t, s.expire poll fuel = some ((l (s.dueSlot poll)).head?, t) ∧
          Chained t.asyncNext (l (s.dueSlot poll)) ∧ TimeoutsSound t (Function.update l (s.dueSlot poll) []) := by
  have hrun : ∃ s, runFrom timeoutStep (.sockEngineInit 0 (fun _ => none) fun _ => false)
      [.add .pollIn 1 5000, .add .pollIn 2 5000, .add .pollIn 3 5000, .complete 2, .clock .pollIn 40] = some s :=
    ⟨_, rfl⟩
  obtain ⟨s, hs⟩ := hrun
  have hreach := reachable_of_runFrom hs
  refine ⟨s, hreach, ?_, ?_, reachable_timeoutsSound hreach⟩
  · cases hs
    decide
  · cases hs
    decide

end Connio
