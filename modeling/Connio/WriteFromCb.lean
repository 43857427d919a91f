import Connio.Read
import Connio.Send

/-!
# The process functions of the send events

`writeFromCB` (`process.c`) fills the buffer of its event from a callback of the consumer and flushes it; with
`flushSendBuffer` and `sendFromClientBuffer` these are all functions that send.

* `WriteState`, `WriteState.flush` — what they work on, and one flush;
* `writeFromCB` — the loop, cut into the parts of one round;
* `sendEventProcess` — `socketEventProcess` for a send event;
* `WriteState.Kept` — nothing that was in the buffer or came from the callback is lost, added or moved;
* `sendEventProcess_ok` — **PROVED**: this holds at every return, and 0 is returned with an empty buffer only.
-/

namespace Connio

open Connio.Lib

/-! ### The functions -/

/-- What a send event works on. -/
structure WriteState where
  /-- the octets in `ioBuffer`, or the rest of the client's buffer -/
  buffer : List UInt8
  /-- `args.cb.count`, as it is compared with `transferred` -/
  count : ℕ := 0
  transferred : ℕ := 0
  /-- all octets the callback has supplied -/
  supplied : List UInt8 := []
  /-- all octets the transport has accepted -/
  sent : List UInt8 := []
  deriving DecidableEq, Repr

/-- What a flush meets: how the buffer lies, and the answers to its calls of `SocketSend`. -/
structure FlushAnswers (ε : Type) where
  iob : (total : ℕ) → SendBuffer total
  calls : List (List (TransportAnswer ε))

/-- One round of the loop of `writeFromCB`. -/
structure WriteCbRound (ε : Type) where
  /-- `IOBGetFree` at the head of the loop -/
  space : ℕ
  /-- the flush of a full buffer, and `IOBGetFree` after it -/
  first : Option (FlushAnswers ε × ℕ)
  /-- the octets the callback writes, its response and `errno` after it -/
  callback : Option (List UInt8 × ConnIOCBResponse × Errno)
  /-- `IOBIncreaseFree` -/
  increased : Bool
  /-- the flush after the callback -/
  last : Option (FlushAnswers ε)

/-- What a process function returns. -/
abbrev WriteReturn := (Errno × SocketEventType) × WriteState

section Functions

variable {ε : Type} (socketSend : ℕ → ℕ → ℕ → List (TransportAnswer ε) → Option SendReturn)

/-- What has been handed over leaves the buffer. -/
def WriteState.handOver (s : WriteState) (r : ProcessReturn) : WriteReturn :=
  ((r.error, r.blockedOn),
    { s with buffer := s.buffer.drop r.pos, sent := s.sent ++ handed s.buffer r.offers })

/-- `flushSendBuffer` -/
def WriteState.flush (s : WriteState) (f : FlushAnswers ε) : Option WriteReturn :=
  (flushSendBuffer socketSend (f.iob s.buffer.length) 0 f.calls).map s.handOver

/-- `sendFromClientBuffer` -/
def WriteState.sendFromClient (s : WriteState) (calls : List (List (TransportAnswer ε))) :
    Option WriteReturn :=
  (sendFromClientBuffer socketSend s.buffer.length 0 calls).map s.handOver

/-- The free space of the buffer, which is flushed when there is none; with the result of the flush. -/
def WriteState.makeRoom (s : WriteState) (round : WriteCbRound ε) : Option (ℕ × WriteReturn) :=
  match round.space, round.first with
  | 0, some (f, space) => (s.flush socketSend f).map fun r => (space, r)
  | space + 1, none => some (space + 1, (0, .none), s)
  | _, _ => none

/-- How much the callback is asked for; `none` when the count has been reached. -/
def WriteState.request (s : WriteState) (bufferSpace : ℕ) : Option ℕ :=
  if s.count ≠ 0 then
    if s.count ≤ s.transferred then none else some (min bufferSpace (s.count - s.transferred))
  else some bufferSpace

/-- What a round of the loop ends with. -/
inductive WriteNext where
  | again
  | ret (error : Errno) (blockedOn : SocketEventType)
  deriving DecidableEq, Repr

/-- The flush that ends the event. -/
def WriteState.finish (s : WriteState) (last : Option (FlushAnswers ε)) : Option (WriteNext × WriteState) :=
  last.bind fun f => (s.flush socketSend f).map fun r => (.ret r.1.1 r.1.2, r.2)

/-- The octets of the callback go into the buffer. -/
def WriteState.supply (s : WriteState) (data : List UInt8) : WriteState :=
  { s with
    buffer := s.buffer ++ data
    transferred := s.transferred + data.length
    supplied := s.supplied ++ data }

/-- The error of a callback that fails. -/
def callbackError (errno : Errno) : Errno :=
  if errno = Errno.ewouldblock then Errno.econniomode
  else if errno ≠ 0 then errno
  else Errno.econniobug

/-- The rest of a round, after the callback was asked for `request` octets. -/
def WriteState.answered (s : WriteState) (round : WriteCbRound ε) (request : ℕ) (data : List UInt8)
    (response : ConnIOCBResponse) (errno : Errno) : Option (WriteNext × WriteState) :=
  if request < data.length then some (.ret Errno.econniocblong .none, s)
  else
    let s := s.supply data
    if data ≠ [] ∧ s.count ≠ 0 ∧ s.count ≤ s.transferred then s.finish socketSend round.last
    else
      match response with
      | .goOn => some (.again, s)
      | .needMoreBuffer =>
        if round.increased then some (.again, s)
        else
          round.last.bind fun f => (s.flush socketSend f).map fun r =>
            (if r.1.1 = 0 then .again else .ret r.1.1 r.1.2, r.2)
      | .done =>
        -- `args.cb.count` is an `int`
        if s.count = 0 then { s with count := unsignedLong (.ofNat 32 s.transferred) }.finish socketSend round.last
        else some (.ret Errno.econniocbshort .none, s)
      | .error => some (.ret (callbackError errno) .none, s)
      | .needMoreData => some (.ret Errno.econniomode .none, s)

/-- One round of the loop. -/
def WriteState.round (s : WriteState) (round : WriteCbRound ε) : Option (WriteNext × WriteState) :=
  match s.makeRoom socketSend round with
  | none => none
  | some (bufferSpace, (err, blockedOn), s) =>
    if err ≠ 0 then some (.ret err blockedOn, s)
    else
      match s.request bufferSpace, round.callback with
      | none, none => s.finish socketSend round.last
      | some request, some (data, response, errno) =>
        s.answered socketSend round request data response errno
      | _, _ => none

/-- `writeFromCB` -/
def writeFromCB (s : WriteState) : List (WriteCbRound ε) → Option WriteReturn
  | [] => none
  | round :: rounds =>
    match s.round socketSend round with
    | none => none
    | some (.again, s) => writeFromCB s rounds
    | some (.ret err blockedOn, s) => if rounds = [] then some ((err, blockedOn), s) else none

/-- What the process function of a send event meets. -/
inductive SendInput (ε : Type) where
  | flush (f : FlushAnswers ε)
  | client (calls : List (List (TransportAnswer ε)))
  | callback (rounds : List (WriteCbRound ε))

/-- `socketEventProcess` for the send events -/
def sendEventProcess (type : ConnEventType) (s : WriteState) : SendInput ε → Option WriteReturn
  | .flush f => if type = .flush then s.flush socketSend f else none
  | .client calls => if type = .writeFromClientBuffer then s.sendFromClient socketSend calls else none
  | .callback rounds => if type = .writeFromCb then writeFromCB socketSend s rounds else none

end Functions

/-! ### What they do -/

section Spec

variable {ε : Type} {socketSend : ℕ → ℕ → ℕ → List (TransportAnswer ε) → Option SendReturn}
  {good : List (TransportAnswer ε) → Prop} {s s' : WriteState}

/-- **Nothing is lost, added or moved:** what has been sent and what is in the buffer are what was there before,
followed by what the callback has supplied since. -/
structure WriteState.Kept (s s' : WriteState) : Prop where
  octets : ∃ data, s'.supplied = s.supplied ++ data ∧ s'.sent ++ s'.buffer = s.sent ++ s.buffer ++ data
  /-- what has been sent stays sent -/
  sent : s.sent <+: s'.sent

namespace WriteState

theorem Kept.refl (s : WriteState) : Kept s s := ⟨⟨[], by simp, by simp⟩, List.prefix_rfl⟩

theorem Kept.trans {s'' : WriteState} (h : Kept s s') (h' : Kept s' s'') : Kept s s'' := by
  obtain ⟨data, hsupplied, hsent⟩ := h.octets
  obtain ⟨data', hsupplied', hsent'⟩ := h'.octets
  refine ⟨⟨data ++ data', ?_, ?_⟩, h.sent.trans h'.sent⟩
  · rw [hsupplied', hsupplied, List.append_assoc]
  · rw [hsent', hsent, List.append_assoc]

theorem supply_kept (s : WriteState) (data : List UInt8) : Kept s (s.supply data) :=
  ⟨⟨data, rfl, by simp [supply]⟩, List.prefix_rfl⟩

end WriteState

/-- All calls of `SocketSend` in a round. -/
def WriteCbRound.calls (round : WriteCbRound ε) : List (List (TransportAnswer ε)) :=
  (round.first.elim [] fun f => f.1.calls) ++ round.last.elim [] FlushAnswers.calls

/-- All calls of `SocketSend` of a process function. -/
def SendInput.calls : SendInput ε → List (List (TransportAnswer ε))
  | .flush f => f.calls
  | .client calls => calls
  | .callback rounds => rounds.flatMap WriteCbRound.calls

/-- **What a process function does** whose calls of `SocketSend` report what was accepted when `P` holds: it
keeps the octets, and returns 0 with an empty buffer only. -/
structure WriteReturn.Ok (P : Prop) (s : WriteState) (r : WriteReturn) : Prop where
  kept : P → s.Kept r.2
  empty : r.1.1 = 0 → r.2.buffer = []

/-- The same of one round. -/
structure WriteNext.Ok (P : Prop) (s : WriteState) (next : WriteNext) (s' : WriteState) : Prop where
  kept : P → s.Kept s'
  empty : ∀ blockedOn, next = .ret 0 blockedOn → s'.buffer = []

/-- A step before it. -/
theorem WriteNext.Ok.after {P Q R : Prop} {next : WriteNext} {t : WriteState} (h : next.Ok Q t s')
    (hkept : R → s.Kept t) (hP : P → R ∧ Q) : next.Ok P s s' :=
  ⟨fun hp => (hkept (hP hp).1).trans (h.kept (hP hp).2), h.empty⟩

namespace WriteState

/-- A call that hands over a piece of the buffer. -/
theorem handOver_ok {r : ProcessReturn} {P : Prop} (hspec : ProcessSpec s.buffer.length 0 P r) :
    WriteReturn.Ok P s (s.handOver r) := by
  refine ⟨fun hP => ⟨⟨[], by simp [handOver], ?_⟩, List.prefix_append _ _⟩, fun herr => ?_⟩
  · obtain ⟨hin, hpos⟩ := hspec.inOrder hP
    have hhanded := hin.handed_eq
    rw [List.take_zero, List.nil_append, ← hpos] at hhanded
    simp only [handOver]
    rw [hhanded, List.append_assoc, List.take_append_drop, List.append_nil]
  · simp only [handOver]
    rw [hspec.complete herr, List.drop_length]

theorem flush_ok (hsend : SendOk socketSend good) {f : FlushAnswers ε} {r : WriteReturn}
    (h : s.flush socketSend f = some r) : r.Ok (∀ call ∈ f.calls, good call) s := by
  obtain ⟨p, hp, rfl⟩ := Option.map_eq_some_iff.mp h
  exact handOver_ok (flushSendBuffer_spec hsend _ (Nat.zero_le _) hp)

theorem sendFromClient_ok (hsend : SendOk socketSend good) {calls : List (List (TransportAnswer ε))}
    {r : WriteReturn} (h : s.sendFromClient socketSend calls = some r) :
    r.Ok (∀ call ∈ calls, good call) s := by
  obtain ⟨p, hp, rfl⟩ := Option.map_eq_some_iff.mp h
  exact handOver_ok (sendFromClientBuffer_spec hsend (Nat.zero_le _) hp)

theorem finish_ok (hsend : SendOk socketSend good) {last : Option (FlushAnswers ε)} {next : WriteNext}
    (h : s.finish socketSend last = some (next, s')) :
    next.Ok (∀ call ∈ last.elim [] FlushAnswers.calls, good call) s s' := by
  obtain ⟨f, rfl, hf⟩ := Option.bind_eq_some_iff.mp h
  obtain ⟨r, hr, heq⟩ := Option.map_eq_some_iff.mp hf
  have hok := flush_ok hsend hr
  cases heq
  exact ⟨hok.kept, fun blockedOn h0 => hok.empty (WriteNext.ret.inj h0).1⟩

theorem callbackError_ne_zero (errno : Errno) : callbackError errno ≠ 0 := by
  unfold callbackError
  split
  · decide
  split
  · assumption
  · decide

/-- **The rest of a round (proved).** -/
theorem answered_ok (hsend : SendOk socketSend good) {round : WriteCbRound ε} {request : ℕ} {data : List UInt8}
    {response : ConnIOCBResponse} {errno : Errno} {next : WriteNext}
    (h : s.answered socketSend round request data response errno = some (next, s')) :
    next.Ok (∀ call ∈ round.last.elim [] FlushAnswers.calls, good call) s s' := by
  have hsupply := supply_kept s data
  have hfails : ∀ {t : WriteState} {err : Errno} {P : Prop}, err ≠ 0 → s.Kept t →
      (WriteNext.ret err .none).Ok P s t := fun herr hkept =>
    ⟨fun _ => hkept, fun _ h0 => absurd (WriteNext.ret.inj h0).1 herr⟩
  simp only [answered] at h
  split at h
  · cases h
    exact hfails (by decide) (.refl s)
  split at h
  · exact (finish_ok hsend h).after (fun _ => hsupply) fun hP => ⟨hP, hP⟩
  cases response with
  | goOn =>
    cases h
    exact ⟨fun _ => hsupply, fun _ h0 => by cases h0⟩
  | needMoreBuffer =>
    simp only at h
    split at h
    · cases h
      exact ⟨fun _ => hsupply, fun _ h0 => by cases h0⟩
    · obtain ⟨f, hf, hr⟩ := Option.bind_eq_some_iff.mp h
      obtain ⟨r, hr, heq⟩ := Option.map_eq_some_iff.mp hr
      have hok := flush_ok hsend hr
      rw [hf]
      cases heq
      refine ⟨fun hP => hsupply.trans (hok.kept hP), fun _ h0 => ?_⟩
      split at h0
      · cases h0
      next herr => exact absurd (WriteNext.ret.inj h0).1 herr
  | done =>
    simp only at h
    split at h
    · have hcount : s.Kept { s.supply data with
          count := unsignedLong (.ofNat 32 (s.supply data).transferred) } := ⟨hsupply.octets, hsupply.sent⟩
      exact (finish_ok hsend h).after (fun _ => hcount) fun hP => ⟨hP, hP⟩
    · cases h
      exact hfails (by decide) hsupply
  | error =>
    cases h
    exact hfails (callbackError_ne_zero errno) hsupply
  | needMoreData =>
    cases h
    exact hfails (by decide) hsupply

theorem makeRoom_kept (hsend : SendOk socketSend good) {round : WriteCbRound ε} {bufferSpace : ℕ}
    {r : WriteReturn} (h : s.makeRoom socketSend round = some (bufferSpace, r)) :
    (∀ call ∈ round.first.elim [] (fun f => f.1.calls), good call) → s.Kept r.2 := by
  unfold makeRoom at h
  split at h
  next hfirst =>
    obtain ⟨r', hr', heq⟩ := Option.map_eq_some_iff.mp h
    rw [hfirst]
    cases heq
    exact (flush_ok hsend hr').kept
  · cases h
    exact fun _ => .refl s
  · cases h

/-- **One round of the loop (proved).** -/
theorem round_ok (hsend : SendOk socketSend good) {round : WriteCbRound ε} {next : WriteNext}
    (h : s.round socketSend round = some (next, s')) :
    next.Ok (∀ call ∈ round.calls, good call) s s' := by
  have hparts : (∀ call ∈ round.calls, good call) →
      (∀ call ∈ round.first.elim [] (fun f => f.1.calls), good call) ∧
        ∀ call ∈ round.last.elim [] FlushAnswers.calls, good call := fun hP =>
    ⟨fun call hcall => hP call (List.mem_append_left _ hcall),
      fun call hcall => hP call (List.mem_append_right _ hcall)⟩
  unfold WriteState.round at h
  split at h
  · cases h
  next bufferSpace err blockedOn t hroom =>
    have hkept := makeRoom_kept hsend hroom
    split at h
    next herr =>
      cases h
      exact ⟨fun hP => hkept (hparts hP).1, fun _ h0 => absurd (WriteNext.ret.inj h0).1 herr⟩
    · split at h
      · exact (finish_ok hsend h).after hkept hparts
      · exact (answered_ok hsend h).after hkept hparts
      · cases h

end WriteState

/-- **`writeFromCB` (proved):** in every run the octets are kept, and it returns 0 with an empty buffer only. -/
theorem writeFromCB_ok (hsend : SendOk socketSend good) : ∀ {rounds : List (WriteCbRound ε)} {s : WriteState}
    {r : WriteReturn}, writeFromCB socketSend s rounds = some r →
      r.Ok (∀ round ∈ rounds, ∀ call ∈ round.calls, good call) s
  | [], _, _, h => by cases h
  | round :: rounds, s, r, h => by
    simp only [writeFromCB] at h
    split at h
    · cases h
    next t hround =>
      have hok := WriteState.round_ok hsend hround
      have hrest := writeFromCB_ok hsend h
      refine ⟨fun hP => (hok.kept (hP round List.mem_cons_self)).trans (hrest.kept ?_), hrest.empty⟩
      exact fun x hx => hP x (List.mem_cons_of_mem _ hx)
    next err blockedOn t hround =>
      have hok := WriteState.round_ok hsend hround
      split at h <;> cases h
      exact ⟨fun hP => hok.kept (hP round List.mem_cons_self), fun h0 => hok.empty blockedOn (by rw [← h0])⟩

/-- **The process function of a send event (proved).** -/
theorem sendEventProcess_ok (hsend : SendOk socketSend good) {type : ConnEventType} {input : SendInput ε}
    {r : WriteReturn} (h : sendEventProcess socketSend type s input = some r) :
    r.Ok (∀ call ∈ input.calls, good call) s := by
  cases input with
  | flush f =>
    simp only [sendEventProcess] at h
    split at h
    · exact WriteState.flush_ok hsend h
    · cases h
  | client calls =>
    simp only [sendEventProcess] at h
    split at h
    · exact WriteState.sendFromClient_ok hsend h
    · cases h
  | callback rounds =>
    simp only [sendEventProcess] at h
    split at h
    · have hok := writeFromCB_ok hsend h
      refine ⟨fun hP => hok.kept fun round hround call hcall => ?_, hok.empty⟩
      exact hP call (List.mem_flatMap.mpr ⟨round, hround, hcall⟩)
    · cases h

/-- Only a callback supplies octets. -/
theorem sendEventProcess_supplied {type : ConnEventType} {input : SendInput ε} {r : WriteReturn}
    (htype : type ≠ .writeFromCb) (h : sendEventProcess socketSend type s input = some r) :
    r.2.supplied = s.supplied := by
  cases input with
  | flush f =>
    simp only [sendEventProcess] at h
    split at h
    · obtain ⟨p, _, rfl⟩ := Option.map_eq_some_iff.mp h
      rfl
    · cases h
  | client calls =>
    simp only [sendEventProcess] at h
    split at h
    · obtain ⟨p, _, rfl⟩ := Option.map_eq_some_iff.mp h
      rfl
    · cases h
  | callback rounds =>
    rw [sendEventProcess, if_neg htype] at h
    cases h

end Spec

end Connio
