import Connio.Lib.Resumable
import Connio.WriteFromCb

/-!
# A write from a callback, over all its rounds

`writeFromCB` is left when the transport blocks and entered again when it is writable.

* `Transport`, `Transport.send` — `SocketSend` over a clear socket and over SSL;
* `writeLoop` — the rounds of `writeFromCB` as a loop that is left and entered again;
* `WriteState.asked` — what a round asks the callback for, if it calls it;
* `DoneForGood` — the callback has said `CONN_IOCBR_DONE`, and is not called again;
* `doneForGood_iff` — **PROVED**: exactly when the event does not wait then, or `args.cb.count` remembers what was
  transferred.
-/

namespace Connio

open Connio.Lib

/-! ### The loop -/

inductive Transport where
  | clear
  | ssl
  deriving DecidableEq, Repr

/-- The failures a transport reports. -/
def Transport.Failure : Transport → Type
  | .clear => Errno
  | .ssl => SslResult

/-- `SocketSend` -/
def Transport.send : (t : Transport) → ℕ → ℕ → ℕ → List (TransportAnswer t.Failure) → Option SendReturn
  | .clear => clearSend
  | .ssl => sslSend

/-- Every `SocketSend` with these answers reports what the transport accepted. -/
def Transport.Reports : (t : Transport) → List (TransportAnswer t.Failure) → Prop
  | .clear, _ => True
  | .ssl, answers => ¬FailsAfterShort answers

theorem Transport.send_reports (t : Transport) : SendOk t.send t.Reports :=
  match t with
  | .clear => clearSend_ok
  | .ssl => sslSend_ok

/-- A write from a callback, and whether the callback has said `CONN_IOCBR_DONE`. -/
structure WriteCall where
  write : WriteState
  done : Bool := false
  deriving DecidableEq, Repr

/-- A process function returns to `EventProcess`, which waits for the socket. -/
def returnedOutcome {σ : Type} (err : Errno) (blockedOn : SocketEventType) (s : σ) : LoopOutcome Errno σ :=
  if err = Errno.ewouldblock ∧ blockedOn ≠ .none then .waits s else .ends err s

def WriteNext.outcome {σ : Type} (s : σ) : WriteNext → LoopOutcome Errno σ
  | .again => .again s
  | .ret err blockedOn => returnedOutcome err blockedOn s

section Loop

variable (t : Transport)

/-- What a round asks the callback for; `none` when it does not call it. -/
def WriteState.asked (s : WriteState) (round : WriteCbRound t.Failure) : Option ℕ :=
  match s.makeRoom t.send round with
  | some (bufferSpace, (err, _), s) => if err = 0 then s.request bufferSpace else none
  | none => none

/-- The callback is called and answers `CONN_IOCBR_DONE`. -/
def WriteState.saysDone (s : WriteState) (round : WriteCbRound t.Failure) : Bool :=
  (s.asked t round).isSome && round.callback.any fun answer => decide (answer.2.1 = .done)

/-- The rounds of `writeFromCB`; when the socket is writable, it is entered again where it was left. -/
def writeLoop : Loop WriteCall (WriteCbRound t.Failure) Unit Errno where
  round s round := (s.write.round t.send round).map fun (next, write) =>
    next.outcome ⟨write, s.done || s.write.saysDone t round⟩
  resume s _ := some (.again s)
  ok := 0

/-- A write from a callback of `count` octets, with `buffer` in the send buffer. -/
def WriteCall.start (count : ℕ) (buffer : List UInt8) : LoopState Errno WriteCall :=
  ⟨⟨{ buffer := buffer, count := count }, false⟩, .running⟩

/-- **The callback is not called again,** and the event completes exactly when all octets are gone; a callback that
claims more than it was asked for fails the event. -/
structure DoneForGood (p : LoopState Errno WriteCall) : Prop where
  quiet : ∀ q, Reachable (enabled (writeLoop t).step) p q → ∀ round q',
    (writeLoop t).step q (.round round) = some q' → q.state.write.asked t round = none
  completes : ∀ q, Reachable (enabled (writeLoop t).step) p q → q.phase ≠ .ended Errno.econniocblong →
    (q.phase = .ended 0 ↔ q.state.write.buffer = [])

end Loop

/-! ### One flush -/

section Flush

variable {t : Transport} {s s' : WriteState}

theorem Transport.send_ok (t : Transport) : ∃ good, SendOk t.send good :=
  match t with
  | .clear => ⟨_, clearSend_ok⟩
  | .ssl => ⟨_, sslSend_ok⟩

/-- A flush that fails leaves octets. -/
theorem flushSendBuffer_left {ε : Type} {socketSend : ℕ → ℕ → ℕ → List (TransportAnswer ε) → Option SendReturn}
    {good : List (TransportAnswer ε) → Prop} {total : ℕ} (hsend : SendOk socketSend good) (iob : SendBuffer total) :
    ∀ {calls : List (List (TransportAnswer ε))} {freed : ℕ} {r : ProcessReturn},
      flushSendBuffer socketSend iob freed calls = some r → r.error ≠ 0 → r.pos < total
  | [], freed, r, h, herr => by
    simp only [flushSendBuffer] at h
    split at h <;> cases h
    exact absurd rfl herr
  | call :: calls, freed, r, h, herr => by
    simp only [flushSendBuffer] at h
    split at h
    · cases h
    next hused =>
      have hlt : freed < total := by
        by_contra hnot
        exact hused (if_neg hnot)
      rw [SendBuffer.getUsed, if_pos hlt] at h
      have hbytes := iob.le freed hlt
      split at h
      · cases h
      next sent hs =>
        have hspec := hsend _ _ _ _ (iob.pos freed hlt) hs
        split at h
        next moved hcount =>
          split at h
          · obtain ⟨r', hr', rfl⟩ := Option.map_eq_some_iff.mp h
            change r'.pos < total
            exact flushSendBuffer_left hsend iob hr' herr
          next hshort =>
            split at h <;> cases h
            have hle := (hspec.count_le moved hcount).2
            change freed + moved < total
            omega
        · split at h <;> cases h
          exact hlt

/-- **A flush succeeds exactly when it empties the buffer (proved),** and changes nothing else of the event. -/
theorem flush_empty {f : FlushAnswers t.Failure} {r : WriteReturn} (h : s.flush t.send f = some r) :
    (r.1.1 = 0 ↔ r.2.buffer = []) ∧ r.2.count = s.count ∧ r.2.transferred = s.transferred ∧
      r.2.supplied = s.supplied := by
  obtain ⟨good, hsend⟩ := t.send_ok
  obtain ⟨p, hp, rfl⟩ := Option.map_eq_some_iff.mp h
  refine ⟨⟨(WriteState.flush_ok hsend h).empty, fun hempty => ?_⟩, rfl, rfl, rfl⟩
  by_contra herr
  have hlt := flushSendBuffer_left hsend _ hp herr
  have hlength := congrArg List.length hempty
  simp only [WriteState.handOver, List.length_drop, List.length_nil] at hlength
  omega

theorem finish_spec {last : Option (FlushAnswers t.Failure)} {next : WriteNext}
    (h : s.finish t.send last = some (next, s')) : ∃ err blockedOn, next = .ret err blockedOn ∧
      (err = 0 ↔ s'.buffer = []) ∧ s'.count = s.count ∧ s'.transferred = s.transferred ∧ s'.supplied = s.supplied := by
  obtain ⟨f, rfl, hf⟩ := Option.bind_eq_some_iff.mp h
  obtain ⟨r, hr, heq⟩ := Option.map_eq_some_iff.mp hf
  cases heq
  exact ⟨r.1.1, r.1.2, rfl, flush_empty hr⟩

theorem makeRoom_spec {round : WriteCbRound t.Failure} {bufferSpace : ℕ} {r : WriteReturn}
    (h : s.makeRoom t.send round = some (bufferSpace, r)) :
    (r.1.1 ≠ 0 → r.2.buffer ≠ []) ∧ r.2.count = s.count ∧ r.2.transferred = s.transferred ∧
      r.2.supplied = s.supplied := by
  unfold WriteState.makeRoom at h
  split at h
  · obtain ⟨r', hr', heq⟩ := Option.map_eq_some_iff.mp h
    cases heq
    obtain ⟨hiff, hsame⟩ := flush_empty hr'
    exact ⟨fun herr hempty => herr (hiff.mpr hempty), hsame⟩
  · cases h
    exact ⟨fun herr => absurd rfl herr, rfl, rfl, rfl⟩
  · cases h

end Flush

/-! ### One round -/

section Round

variable {t : Transport} {s s' : WriteState} {round : WriteCbRound t.Failure} {next : WriteNext}

/-- **What a round does (proved):** it cannot make room; or the count has been reached, and it flushes; or it asks the
callback. -/
theorem round_cases (h : s.round t.send round = some (next, s')) : ∃ bufferSpace err blockedOn room,
    s.makeRoom t.send round = some (bufferSpace, (err, blockedOn), room) ∧
      (err ≠ 0 ∧ s.asked t round = none ∧ next = .ret err blockedOn ∧ s' = room ∨
        err = 0 ∧ s.asked t round = none ∧ room.request bufferSpace = none ∧
          room.finish t.send round.last = some (next, s') ∨
        err = 0 ∧ ∃ request data response errno, s.asked t round = some request ∧
          room.request bufferSpace = some request ∧ round.callback = some (data, response, errno) ∧
          room.answered t.send round request data response errno = some (next, s')) := by
  unfold WriteState.round at h
  unfold WriteState.asked
  split at h
  · cases h
  next bufferSpace err blockedOn room hroom =>
    refine ⟨bufferSpace, err, blockedOn, room, hroom, ?_⟩
    rw [hroom]
    simp only
    split at h
    next herr =>
      cases h
      exact .inl ⟨herr, if_neg herr, rfl, rfl⟩
    next herr =>
      rw [not_not] at herr
      rw [if_pos herr]
      split at h
      next hrequest _ => exact .inr (.inl ⟨herr, hrequest, hrequest, h⟩)
      next request data response errno hrequest hcallback =>
        exact .inr (.inr ⟨herr, request, data, response, errno, hrequest, hrequest, hcallback, h⟩)
      · cases h

/-- A count that has been reached is not asked for again. -/
theorem asked_reached (hcount : s.count ≠ 0) (hle : s.count ≤ s.transferred) (round : WriteCbRound t.Failure) :
    s.asked t round = none := by
  unfold WriteState.asked
  split
  next bufferSpace err blockedOn room hroom =>
    obtain ⟨_, hsame, htransferred, _⟩ := makeRoom_spec hroom
    simp only at hsame htransferred
    split
    · unfold WriteState.request
      rw [hsame, htransferred, if_pos hcount, if_pos hle]
    · rfl
  · rfl

/-- **What an answer does to `args.cb.count` (proved)** when it is 0, and how `CONN_IOCBR_DONE` ends the round. -/
theorem answered_count {request : ℕ} {data : List UInt8} {response : ConnIOCBResponse} {errno : Errno}
    (hcount : s.count = 0) (h : s.answered t.send round request data response errno = some (next, s')) :
    (response ≠ .done → s'.count = 0) ∧ (response = .done → next = .ret Errno.econniocblong .none ∨
      ∃ err blockedOn, next = .ret err blockedOn ∧ (err = 0 ↔ s'.buffer = []) ∧
        s'.count = unsignedLong (.ofNat 32 s'.transferred)) := by
  simp only [WriteState.answered] at h
  split at h
  · cases h
    exact ⟨fun _ => hcount, fun _ => .inl rfl⟩
  split at h
  next hreached => exact absurd hcount hreached.2.1
  cases response with
  | goOn =>
    cases h
    exact ⟨fun _ => hcount, fun h0 => by cases h0⟩
  | needMoreBuffer =>
    refine ⟨fun _ => ?_, fun h0 => by cases h0⟩
    simp only at h
    split at h
    · cases h
      exact hcount
    · obtain ⟨f, _, hmap⟩ := Option.bind_eq_some_iff.mp h
      obtain ⟨r, hflush, heq⟩ := Option.map_eq_some_iff.mp hmap
      cases heq
      exact (flush_empty hflush).2.1.trans hcount
  | done =>
    refine ⟨fun hne => absurd rfl hne, fun _ => .inr ?_⟩
    simp only at h
    rw [if_pos (show (s.supply data).count = 0 from hcount)] at h
    obtain ⟨err, blockedOn, hnext, hiff, hsame, htransferred, _⟩ := finish_spec h
    exact ⟨err, blockedOn, hnext, hiff, by rw [hsame, htransferred]⟩
  | error =>
    cases h
    exact ⟨fun _ => hcount, fun h0 => by cases h0⟩
  | needMoreData =>
    cases h
    exact ⟨fun _ => hcount, fun h0 => by cases h0⟩

end Round

/-! ### Once the callback has said that it is done -/

section Done

variable {t : Transport} {p p' q : LoopState Errno WriteCall} {a : LoopAction (WriteCbRound t.Failure) Unit Errno}

theorem returnedOutcome_state {σ : Type} (err : Errno) (blockedOn : SocketEventType) (s : σ) :
    (returnedOutcome err blockedOn s).standing.state = s := by
  unfold returnedOutcome
  split <;> rfl

/-- Nothing to wait for. -/
theorem returnedOutcome_none {σ : Type} (err : Errno) (s : σ) : returnedOutcome err .none s = .ends err s :=
  if_neg fun hblocked => hblocked.2 rfl

theorem returnedOutcome_phase {σ : Type} (err : Errno) (blockedOn : SocketEventType) (s : σ) :
    err = Errno.ewouldblock ∧ (returnedOutcome err blockedOn s).standing.phase = .waiting ∨
      (returnedOutcome err blockedOn s).standing.phase = .ended err := by
  unfold returnedOutcome
  split
  next hblocked => exact .inl ⟨hblocked.1, rfl⟩
  · exact .inr rfl

theorem outcome_state {σ : Type} (next : WriteNext) (s : σ) : (next.outcome s).standing.state = s := by
  cases next with
  | again => rfl
  | ret err blockedOn => exact returnedOutcome_state err blockedOn s

/-- An outline holds when a process function has returned. -/
theorem returnedOutcome_holds {σ : Type} {I : Loop.Outline σ Errno} {s : σ} {err : Errno} {blockedOn : SocketEventType}
    (hwaiting : err = Errno.ewouldblock → I.waiting s) (hended : I.ended err s) :
    I.Holds (returnedOutcome err blockedOn s).standing := by
  unfold returnedOutcome
  split
  next hblocked => exact hwaiting hblocked.1
  · exact hended

/-- The count is 0 until the callback says that it is done. -/
def Unlimited (s : WriteCall) : Prop := s.done = false → s.write.count = 0

theorem unlimited_kept : (writeLoop t).Keeps ⟨Unlimited, Unlimited, fun _ => Unlimited⟩ where
  round := by
    intro s round o hs ho
    obtain ⟨⟨next, write⟩, hround, rfl⟩ := Option.map_eq_some_iff.mp ho
    have hunlimited : Unlimited ⟨write, s.done || s.write.saysDone t round⟩ := by
      intro hdone
      obtain ⟨hbefore, hsays⟩ := Bool.or_eq_false_iff.mp hdone
      have hcount := hs hbefore
      obtain ⟨bufferSpace, err, blockedOn, room, hroom, hcases⟩ := round_cases hround
      have hsame := (makeRoom_spec hroom).2.1.trans hcount
      rcases hcases with ⟨_, _, _, rfl⟩ | ⟨_, _, _, hfinish⟩ | ⟨_, request, data, response, errno, hasked, _,
        hcallback, hanswered⟩
      · exact hsame
      · obtain ⟨_, _, _, _, hkept, _⟩ := finish_spec hfinish
        exact hkept.trans hsame
      · refine (answered_count hsame hanswered).1 ?_
        rintro rfl
        unfold WriteState.saysDone at hsays
        rw [hasked, hcallback] at hsays
        cases hsays
    cases next with
    | again => exact hunlimited
    | ret err blockedOn => exact returnedOutcome_holds (fun _ => hunlimited) hunlimited
  resume := by
    intro s w o hs ho
    cases ho
    exact hs
  fail := fun s code hs _ => hs

/-- How the event stands when the callback has just said that it is done. -/
structure SaidDone (p : LoopState Errno WriteCall) : Prop where
  count : p.state.write.count = unsignedLong (.ofNat 32 p.state.write.transferred)
  phase : p.phase = .waiting ∧ p.state.write.buffer ≠ [] ∨
    ∃ err, p.phase = .ended err ∧ (err = 0 ↔ p.state.write.buffer = [])

/-- **The step in which the callback says that it is done (proved).** -/
theorem step_saidDone (hcount : p.state.write.count = 0) (hstep : (writeLoop t).step p a = some p')
    (hbefore : p.state.done = false) (hdone : p'.state.done = true) :
    p'.phase = .ended Errno.econniocblong ∨ SaidDone p' := by
  cases a with
  | round round =>
    obtain ⟨_, o, ho, rfl⟩ := Loop.step_round hstep
    obtain ⟨⟨next, write⟩, hround, rfl⟩ := Option.map_eq_some_iff.mp ho
    obtain ⟨bufferSpace, err, blockedOn, room, hroom, hcases⟩ := round_cases hround
    have hroomCount := (makeRoom_spec hroom).2.1.trans hcount
    rw [outcome_state] at hdone
    change (p.state.done || p.state.write.saysDone t round) = true at hdone
    rw [hbefore, Bool.false_or] at hdone
    obtain ⟨hcalled, hanswer⟩ := Bool.and_eq_true_iff.mp hdone
    rcases hcases with ⟨_, hnone, _⟩ | ⟨_, hnone, _⟩ | ⟨_, request, data, response, errno, _, _, hcallback, hanswered⟩
    · rw [hnone] at hcalled
      cases hcalled
    · rw [hnone] at hcalled
      cases hcalled
    · rw [hcallback] at hanswer
      obtain rfl : response = .done := of_decide_eq_true hanswer
      rcases (answered_count hroomCount hanswered).2 rfl with rfl | ⟨err, blockedOn, rfl, hiff, hkept⟩
      · exact .inl rfl
      · refine .inr ⟨?_, ?_⟩
        · rw [outcome_state]
          exact hkept
        · rw [outcome_state]
          rcases returnedOutcome_phase err blockedOn (⟨write, _⟩ : WriteCall) with ⟨hblock, hwaiting⟩ | hended
          · refine .inl ⟨hwaiting, fun hempty => ?_⟩
            exact absurd (hblock.symm.trans (hiff.mpr hempty)) (by decide)
          · exact .inr ⟨err, hended, hiff⟩
  | resume w =>
    obtain ⟨_, hmap⟩ := Option.ite_none_right_eq_some.mp hstep
    cases hmap
    exact absurd hdone (ne_true_of_eq_false hbefore)
  | fail code =>
    obtain ⟨_, heq⟩ := Option.ite_none_right_eq_some.mp hstep
    cases heq
    exact absurd hdone (ne_true_of_eq_false hbefore)

/-- The rest of an event whose count remembers that it is done: octets are left as long as it has not ended. -/
def Draining (s : WriteCall) : Prop :=
  s.write.count ≠ 0 ∧ s.write.count ≤ s.write.transferred ∧ s.write.buffer ≠ []

theorem draining_kept :
    (writeLoop t).Keeps ⟨Draining, Draining, fun err s => err = 0 ↔ s.write.buffer = []⟩ where
  round := by
    rintro s round o ⟨hcount, hle, hfull⟩ ho
    obtain ⟨⟨next, write⟩, hround, rfl⟩ := Option.map_eq_some_iff.mp ho
    obtain ⟨bufferSpace, err, blockedOn, room, hroom, hcases⟩ := round_cases hround
    obtain ⟨hleft, hsame, htransferred, _⟩ := makeRoom_spec hroom
    have hkept : ∀ {write : WriteState}, write.count = s.write.count → write.transferred = s.write.transferred →
        write.buffer ≠ [] → Draining ⟨write, s.done || s.write.saysDone t round⟩ := by
      intro write hc ht hb
      refine ⟨?_, ?_, hb⟩
      · exact hc ▸ hcount
      · exact hc ▸ ht ▸ hle
    rcases hcases with ⟨herr, _, rfl, rfl⟩ | ⟨_, _, _, hfinish⟩ | ⟨_, _, _, _, _, hasked, _⟩
    · exact returnedOutcome_holds (fun _ => hkept hsame htransferred (hleft herr))
        (iff_of_false herr (hleft herr))
    · obtain ⟨err, blockedOn, rfl, hiff, hsame', htransferred', _⟩ := finish_spec hfinish
      refine returnedOutcome_holds (fun hblock => ?_) hiff
      refine hkept (hsame'.trans hsame) (htransferred'.trans htransferred) fun hempty => ?_
      exact absurd (hblock.symm.trans (hiff.mpr hempty)) (by decide)
    · rw [asked_reached hcount hle] at hasked
      cases hasked
  resume := by
    intro s w o hs ho
    cases ho
    exact hs
  fail := fun s code hs hcode => iff_of_false hcode hs.2.2

/-- An event that waits and does not remember that it is done calls the callback again. -/
theorem calls_again (hwaiting : p.phase = .waiting)
    (hforgot : p.state.write.count = 0 ∨ p.state.write.transferred < p.state.write.count) : ¬ DoneForGood t p := by
  intro h
  have hresume : (writeLoop t).step p (.resume ()) = some ⟨p.state, .running⟩ := by
    unfold Loop.step
    exact if_pos hwaiting
  have hrunning : Reachable (enabled (writeLoop t).step) p ⟨p.state, .running⟩ := .single trivial hresume
  -- the callback is asked for one octet, and supplies none
  obtain ⟨request, hrequest⟩ : ∃ request, p.state.write.request 1 = some request := by
    unfold WriteState.request
    split
    next hcount => exact ⟨_, if_neg (by omega)⟩
    · exact ⟨_, rfl⟩
  have hasked : p.state.write.asked t ⟨1, none, some ([], .goOn, 0), false, none⟩ = some request := hrequest
  have hround : ∃ q', (writeLoop t).step ⟨p.state, .running⟩
      (.round ⟨1, none, some ([], .goOn, 0), false, none⟩) = some q' := by
    have hagain : p.state.write.round t.send ⟨1, none, some ([], .goOn, 0), false, none⟩ =
        some (.again, p.state.write.supply []) := by
      unfold WriteState.round WriteState.makeRoom
      simp only [ne_eq, not_true_eq_false, if_false, hrequest]
      unfold WriteState.answered
      simp only [List.length_nil, Nat.not_lt_zero, if_false, ne_eq, not_true_eq_false, false_and]
    unfold Loop.step writeLoop
    simp only [if_true, hagain, Option.map_some]
    exact ⟨_, rfl⟩
  obtain ⟨q', hq'⟩ := hround
  have hquiet := h.quiet _ hrunning _ _ hq'
  rw [hasked] at hquiet
  cases hquiet

/-- **The callback is not called again (proved)** exactly when the event does not wait any more, or when what was
transferred, as an `int`, is neither 0 nor negative: the count is then a limit that has been reached. -/
theorem doneForGood_iff (t : Transport) (buffer : List UInt8) (p p' : LoopState Errno WriteCall)
    (a : LoopAction (WriteCbRound t.Failure) Unit Errno)
    (hp : Reachable (enabled (writeLoop t).step) (WriteCall.start 0 buffer) p)
    (hstep : (writeLoop t).step p a = some p') (hbefore : p.state.done = false) (hdone : p'.state.done = true) :
    DoneForGood t p' ↔ p'.phase ≠ .waiting ∨
      unsignedLong (.ofNat 32 p'.state.write.transferred) ≠ 0 ∧
        unsignedLong (.ofNat 32 p'.state.write.transferred) ≤ p'.state.write.transferred := by
  have hcount : p.state.write.count = 0 := by
    have hunlimited := Loop.run unlimited_kept (show Loop.Outline.Holds _ (WriteCall.start 0 buffer) from fun _ => rfl) hp
    unfold Loop.Outline.Holds at hunlimited
    split at hunlimited <;> exact hunlimited hbefore
  rcases step_saidDone hcount hstep hbefore hdone with hlong | ⟨hstored, hphase⟩
  · -- the event has failed
    refine iff_of_true ⟨fun q hq round q' hround => ?_, fun q hq hne => ?_⟩ (.inl (by rw [hlong]; decide))
    · rw [Loop.ended_stays hlong hq] at hround
      exact absurd hlong (Loop.step_not_ended hround _)
    · rw [Loop.ended_stays hlong hq] at hne
      exact absurd hlong hne
  rcases hphase with ⟨hwaiting, hfull⟩ | ⟨err, hended, hiff⟩
  · refine Iff.trans ?_ (or_iff_right (not_not.mpr hwaiting)).symm
    rw [← hstored]
    constructor
    · intro h
      by_contra hforgot
      refine calls_again hwaiting ?_ h
      omega
    · rintro ⟨hne, hle⟩
      have hholds : ∀ q, Reachable (enabled (writeLoop t).step) p' q →
          Loop.Outline.Holds ⟨Draining, Draining, fun err s => err = 0 ↔ s.write.buffer = []⟩ q := fun q hq =>
        Loop.run draining_kept (by unfold Loop.Outline.Holds; rw [hwaiting]; exact ⟨hne, hle, hfull⟩) hq
      refine ⟨fun q hq round q' hround => ?_, fun q hq _ => ?_⟩
      · have hdraining := (hholds q hq).at_running (Loop.step_round hround).1
        exact asked_reached hdraining.1 hdraining.2.1 round
      · have hq := hholds q hq
        cases hphase : q.phase with
        | running => exact iff_of_false nofun (hq.at_running hphase).2.2
        | waiting => exact iff_of_false nofun (hq.at_waiting hphase).2.2
        | ended err =>
          rw [LoopPhase.ended.injEq]
          exact hq.at_ended hphase
  · refine iff_of_true ⟨fun q hq round q' hround => ?_, fun q hq _ => ?_⟩ (.inl (by rw [hended]; simp))
    · rw [Loop.ended_stays hended hq] at hround
      exact absurd hended (Loop.step_not_ended hround _)
    · rw [Loop.ended_stays hended hq, hended, LoopPhase.ended.injEq]
      exact hiff

end Done

/-- The callback supplies `data` and says that it is done; the flush blocks. -/
def doneBlocked (data : List UInt8) : LoopAction (WriteCbRound Errno) Unit Errno :=
  .round ⟨8, none, some (data, .done, 0), false, some ⟨SendBuffer.onePiece, [[.fails Errno.ewouldblock]]⟩⟩

/-- What it leaves when one octet was in the buffer. -/
def blockedCall (count : ℕ) (data : List UInt8) : LoopState Errno WriteCall :=
  ⟨⟨⟨[1] ++ data, count, data.length, data, []⟩, true⟩, .waiting⟩

/-- With an octet of its own the event remembers that it is done. -/
theorem doneForGood_one : DoneForGood .clear (blockedCall 1 [2]) := by
  have hstep : (writeLoop .clear).step (WriteCall.start 0 [1]) (doneBlocked [2]) = some (blockedCall 1 [2]) := rfl
  exact (doneForGood_iff .clear [1] _ _ _ .init hstep rfl rfl).mpr (.inr (by decide))

/-- **A callback that says at once that it is done (proved):** one octet is in the send buffer and the flush blocks;
when the socket is writable the callback is called again. -/
theorem done_called_again : ¬ ∀ (t : Transport) (buffer : List UInt8) (p p' : LoopState Errno WriteCall)
    (a : LoopAction (WriteCbRound t.Failure) Unit Errno),
    Reachable (enabled (writeLoop t).step) (WriteCall.start 0 buffer) p → (writeLoop t).step p a = some p' →
      p.state.done = false → p'.state.done = true → DoneForGood t p' := by
  intro h
  have hstep : (writeLoop .clear).step (WriteCall.start 0 [1]) (doneBlocked []) = some (blockedCall 0 []) := rfl
  exact calls_again rfl (.inl rfl) (h .clear [1] _ _ _ .init hstep rfl rfl)

end Connio
