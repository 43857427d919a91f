import Connio.SyncApi

/-!
# How the two receive paths classify what they meet

`sslErrorGet` (`sockcommon.c`) with the code of `SSL_get_error` and the error queue of the thread, beside
`clearReceive`.

* `sslErrorQueueClear`, `sslErrorReport` — the filter, and `sslErrorGet` with it;
* `clearReceive`, `SslRead.answer` — what the two receive paths make of `recv` and of `SSL_read`;
* `socketEventProcess_failed` — **PROVED**: a read whose last receive fails returns that error;
* `ClosesAlike` — an orderly close is seen over SSL as it is over a clear socket;
* `closesAlike_iff` — **PROVED**: the classification is right for every outcome but the orderly close, and a queued code
  that looks like it.
-/

namespace Connio

/-! ### The filter -/

def sslErrorNone : Int := 0
def sslErrorWantRead : Int := 2
def sslErrorWantWrite : Int := 3
def sslErrorZeroReturn : Int := 6

/-- `SSL_ERROR_WANT_READ` or `SSL_ERROR_WANT_WRITE` -/
def wantsSocket (sslError : Int) : Bool := decide (sslError = sslErrorWantWrite ∨ sslError = sslErrorWantRead)

/-- What `ERR_get_error` takes out of the queue: an error packed into 32 bits, which is not 0. -/
abbrev QueuedError := { code : BitVec 32 // code ≠ 0 }

/-- `threadError` -/
def QueuedError.threadError (e : QueuedError) : Int := e.val.toInt

/-- The loop that only cleans the queue out. -/
def cleanOut : List QueuedError → List QueuedError
  | [] => []
  | _ :: queue => cleanOut queue

/-- The loop that looks for a more serious error. -/
def mostSerious (sslError : Int) : List QueuedError → Int × List QueuedError
  | [] => (sslError, [])
  | e :: queue => mostSerious (if wantsSocket e.threadError then sslError else e.threadError) queue

/-- `sslErrorQueueClear`: what it returns, and the queue it leaves. -/
def sslErrorQueueClear (sslError : Int) (queue : List QueuedError) : Int × List QueuedError :=
  if sslError = sslErrorNone then (0, cleanOut queue)
  else if wantsSocket sslError then mostSerious sslError queue
  else (0, cleanOut queue)

/-- The cases of the switch in `sslErrorGet`. -/
def SslResult.ofCode (sslError : Int) : SslResult :=
  if sslError = sslErrorWantWrite then .wantWrite
  else if sslError = sslErrorWantRead then .wantRead
  else if sslError = sslErrorZeroReturn then .zeroReturn
  else if sslError = sslErrorNone then .success
  else .failure

/-- `sslErrorGet`, where `SSL_get_error` returns `sslError`: the error, `blockedOn`, and the queue it leaves. -/
def sslErrorReport (sslError : Int) (queue : List QueuedError) : (Errno × SocketEventType) × List QueuedError :=
  (sslErrorGet (.ofCode (sslErrorQueueClear sslError queue).1), (sslErrorQueueClear sslError queue).2)

/-! ### The receive paths -/

/-- What `recv` returns: octets, 0, or −1 with `errno`. -/
inductive RecvResult where
  | octets (data : List UInt8)
  | zero
  | fails (errno : Errno)
  deriving DecidableEq, Repr

/-- `clearReceive` without a timeout; an interrupted `recv` is repeated. -/
def clearReceive : List RecvResult → Option ReceiveAnswer
  | [] => none
  | .octets data :: results => if data ≠ [] ∧ results = [] then some (.data data) else none
  | .zero :: results => if results = [] then some (.fails Errno.econnclosedbypeer .none) else none
  | .fails errno :: results =>
    if errno = Errno.eintr then clearReceive results
    else if errno ≠ 0 ∧ results = [] then
      some (.fails errno (if errno = Errno.ewouldblock then .readable else .none))
    else none

/-- What `SSL_read` returns: octets, or the code of `SSL_get_error` and the queue then. -/
inductive SslRead where
  | octets (data : List UInt8)
  | fails (sslError : Int) (queue : List QueuedError)

/-- `sslReceive` without a timeout -/
def SslRead.answer : SslRead → ReceiveAnswer
  | .octets data => .data data
  | .fails sslError queue => .fails (sslErrorReport sslError queue).1.1 (sslErrorReport sslError queue).1.2

/-- What the last receive of a read met, if the read ended there. -/
def ReadRounds.lastAnswer : ReadRounds → Option ReceiveAnswer
  | .conditional rounds => rounds.getLast?.bind fun round => round.fill.join
  | .callback rounds => rounds.getLast?.bind fun round => round.fill.join
  | .conn rounds => rounds.getLast?.bind fun round =>
    if round.write = none then round.fills.getLast?.bind ConnFill.answer else none

def ReadInput.lastAnswer (input : ReadInput) : Option ReceiveAnswer :=
  match input.rounds with
  | some rounds => rounds.lastAnswer
  | none => input.resume.bind ReadResume.answer

/-! ### A receive that fails -/

section Failed

variable {iob : IOBufferLib} {err : Errno} {blockedOn : SocketEventType}

/-- A refill whose receive fails reports that error; it is not `ENOBUFS`. -/
theorem fillRecvBuffer_fails {s : ReadState} {r : Errno × SocketEventType × ReadState}
    (h : s.fillRecvBuffer (some (.fails err blockedOn)) = some r) :
    r = (err, blockedOn, s) ∧ err ≠ 0 ∧ err ≠ Errno.enobufs := by
  obtain ⟨⟨_, hno⟩, heq⟩ := Option.ite_none_right_eq_some.mp h
  refine ⟨(Option.some.inj heq).symm, ?_, ?_⟩
  · rintro rfl
    exact hno (by decide)
  · rintro rfl
    exact hno (by decide)

theorem conditionalReadProcess_failed : ∀ {rounds : List ReadRound} {s : ReadState} {r : ReadReturn},
    conditionalReadProcess iob s rounds = some r →
      (ReadRounds.conditional rounds).lastAnswer = some (.fails err blockedOn) → r.error = err
  | [], _, _, h, _ => by cases h
  | round :: rounds, s, r, h, hlast => by
    unfold conditionalReadProcess at h
    simp only at h
    split at h
    next hfill =>
      split at h <;> cases h
      next hend =>
        obtain rfl := hend.2
        unfold ReadRounds.lastAnswer at hlast
        simp [hfill] at hlast
    next answer hfill =>
      split at h
      · split at h
        · cases h
        · cases rounds with
          | nil => cases h
          | cons next rounds => exact conditionalReadProcess_failed h hlast
        next hrefill =>
          split at h <;> cases h
          next hend =>
            subst hend
            have hanswer : answer = some (.fails err blockedOn) := by
              unfold ReadRounds.lastAnswer at hlast
              simpa [hfill] using hlast
            subst hanswer
            obtain ⟨heq, _, hfull⟩ := fillRecvBuffer_fails hrefill
            cases heq
            unfold refillFailed
            rw [if_neg fun h => hfull h.1]
      · cases h

theorem readToCallbackProcess_failed : ∀ {rounds : List CallbackRound} {s : ReadState} {r : ReadReturn},
    readToCallbackProcess iob s rounds = some r →
      (ReadRounds.callback rounds).lastAnswer = some (.fails err blockedOn) → r.error = err
  | [], _, _, h, _ => by cases h
  | round :: rounds, s, r, h, hlast => by
    unfold readToCallbackProcess at h
    split at h
    · cases rounds with
      | nil => cases h
      | cons next rounds => exact readToCallbackProcess_failed h hlast
    next hfill =>
      split at h <;> cases h
      next hend =>
        subst hend
        unfold ReadRounds.lastAnswer at hlast
        simp [hfill] at hlast
    next answer _ hfill =>
      split at h
      · cases h
      · cases rounds with
        | nil => cases h
        | cons next rounds => exact readToCallbackProcess_failed h hlast
      next hrefill =>
        split at h <;> cases h
        next hend =>
          subst hend
          have hanswer : answer = some (.fails err blockedOn) := by
            unfold ReadRounds.lastAnswer at hlast
            simpa [hfill] using hlast
          subst hanswer
          cases (fillRecvBuffer_fails hrefill).1
          rfl
    · cases h

/-- The inner loop of a read to another conn ends with the error of its last receive. -/
theorem connFill_failed {needed : ℕ} : ∀ {fills : List ConnFill} {s s' : ReadState} {count : ℕ}
    {x : Errno × SocketEventType ⊕ ℕ}, connFill iob needed s count fills = some (x, s') →
      fills.getLast?.bind ConnFill.answer = some (.fails err blockedOn) → x = .inl (err, blockedOn)
  | [], _, _, _, _, _, hlast => by cases hlast
  | fill :: fills, s, s', count, x, h, hlast => by
    unfold connFill at h
    split at h
    · cases h
    split at h
    · cases h
    next hfill =>
      cases fills with
      | nil =>
        have hanswer : fill.answer = some (.fails err blockedOn) := by simpa using hlast
        rw [hanswer] at hfill
        cases (fillRecvBuffer_fails hfill).1
        exact absurd rfl (fillRecvBuffer_fails hfill).2.1
      | cons next fills => exact connFill_failed h hlast
    next hfill =>
      split at h
      · cases h
      next hend =>
        obtain rfl := not_ne_iff.mp hend
        have hanswer : fill.answer = some (.fails err blockedOn) := by simpa using hlast
        rw [hanswer] at hfill
        obtain ⟨heq, _, hfull⟩ := fillRecvBuffer_fails hfill
        cases heq
        rw [if_neg hfull] at h
        cases h
        rfl

theorem readToConnProcess_failed : ∀ {rounds : List ConnRound} {s : ReadState} {r : ReadReturn},
    readToConnProcess iob s rounds = some r →
      (ReadRounds.conn rounds).lastAnswer = some (.fails err blockedOn) → r.error = err
  | [], _, _, _, hlast => by cases hlast
  | round :: rounds, s, r, h, hlast => by
    unfold readToConnProcess at h
    simp only at h
    split at h
    · cases h
    split at h
    next hfill hwrite =>
      split at h <;> cases h
      next hend =>
        subst hend
        have hanswer : round.fills.getLast?.bind ConnFill.answer = some (.fails err blockedOn) := by
          unfold ReadRounds.lastAnswer at hlast
          simpa [hwrite] using hlast
        cases connFill_failed hfill hanswer
        rfl
    next hfill hwrite =>
      have hopen : rounds ≠ [] := by
        rintro rfl
        unfold ReadRounds.lastAnswer at hlast
        simp [hwrite] at hlast
      obtain ⟨next, rest, rfl⟩ := List.exists_cons_of_ne_nil hopen
      split at h
      · cases h
      split at h
      · exact readToConnProcess_failed h hlast
      · cases h
    · cases h

/-- **A read whose last receive fails returns that error (proved),** whatever it received before. -/
theorem socketEventProcess_failed {s : ReadState} {input : ReadInput} {r : ReadReturn}
    (h : socketEventProcess iob s input = some r) (hlast : input.lastAnswer = some (.fails err blockedOn)) :
    r.error = err := by
  obtain ⟨resume, rounds⟩ := input
  have hprocess : ∀ {s : ReadState} {rounds : ReadRounds}, readProcess iob s rounds = some r →
      rounds.lastAnswer = some (.fails err blockedOn) → r.error = err := by
    intro s rounds h hlast
    unfold readProcess at h
    split at h
    · exact conditionalReadProcess_failed h hlast
    · exact conditionalReadProcess_failed h hlast
    · exact conditionalReadProcess_failed h hlast
    · exact readToCallbackProcess_failed h hlast
    · exact readToConnProcess_failed h hlast
    · cases h
  unfold socketEventProcess at h
  simp only at h
  split at h
  · exact hprocess h hlast
  next resume rounds =>
    split at h
    · exact hprocess h hlast
    next hfill =>
      split at h <;> cases h
      next herr =>
        have hanswer : resume.answer = some (.fails err blockedOn) := hlast
        rw [hanswer] at hfill
        obtain ⟨heq, _, hfull⟩ := fillRecvBuffer_fails hfill
        cases heq
        unfold resumeFailed
        rw [if_neg fun h => hfull h.1]
    · cases h
  · cases h

end Failed

/-! ### The classification -/

/-- The last error in the queue that does not only want the socket. -/
def lastSerious (queue : List QueuedError) : Option Int :=
  (queue.map QueuedError.threadError).filter (fun code => !wantsSocket code) |>.getLast?

/-- **The outcomes are told apart:** would block, closed, and all others; the queue is empty afterwards. -/
structure SslClassified (sslError : Int) (queue : List QueuedError) : Prop where
  empties : (sslErrorReport sslError queue).2 = []
  readable : (sslErrorReport sslError queue).1 = (Errno.ewouldblock, .readable) ↔
    sslError = sslErrorWantRead ∧ lastSerious queue = none
  writable : (sslErrorReport sslError queue).1 = (Errno.ewouldblock, .writable) ↔
    sslError = sslErrorWantWrite ∧ lastSerious queue = none
  closed : (sslErrorReport sslError queue).1 = (Errno.econnclosedbypeer, .none) ↔ sslError = sslErrorZeroReturn
  otherwise : (sslErrorReport sslError queue).1 ∈
    [(Errno.ewouldblock, .readable), (Errno.ewouldblock, .writable), (Errno.econnclosedbypeer, .none), (Errno.eio, .none)]

/-- **The two paths classify alike:** an orderly close fails a read with `ECONNCLOSEDBYPEER` over a clear socket and over
SSL, and is the end of the stream for `drainWire`. -/
structure ClosesAlike (sslError : Int) (queue : List QueuedError) : Prop extends SslClassified sslError queue where
  clear : ∀ (iob : IOBufferLib) (s : ReadState) (input : ReadInput) (r : ReadReturn),
    socketEventProcess iob s input = some r → input.lastAnswer = clearReceive [.zero] →
      r.error = Errno.econnclosedbypeer
  ssl : sslError = sslErrorZeroReturn → ∀ (iob : IOBufferLib) (s : ReadState) (input : ReadInput) (r : ReadReturn),
    socketEventProcess iob s input = some r → input.lastAnswer = some (SslRead.fails sslError queue).answer →
      r.error = Errno.econnclosedbypeer
  drain : sslError = sslErrorZeroReturn →
    drainWire (sslErrorReport sslError queue).1.1 = drainWire Errno.econnclosedbypeer

section Classified

variable {sslError : Int} {queue : List QueuedError}

theorem cleanOut_eq : ∀ queue : List QueuedError, cleanOut queue = []
  | [] => rfl
  | _ :: queue => cleanOut_eq queue

theorem mostSerious_eq : ∀ (sslError : Int) (queue : List QueuedError),
    mostSerious sslError queue = ((lastSerious queue).getD sslError, [])
  | _, [] => rfl
  | sslError, e :: queue => by
    rw [mostSerious, mostSerious_eq, lastSerious, lastSerious, List.map_cons, List.filter_cons]
    cases wantsSocket e.threadError with
    | true => rfl
    | false =>
      simp only [Bool.false_eq_true, if_false, Bool.not_false, if_true, List.getLast?_cons, Option.getD_some]

/-- **What `sslErrorGet` returns (proved):** only a code that wants the socket lets a queued error through. -/
theorem sslErrorReport_eq (sslError : Int) (queue : List QueuedError) : sslErrorReport sslError queue =
    (sslErrorGet (.ofCode (if wantsSocket sslError then (lastSerious queue).getD sslError else 0)), []) := by
  unfold sslErrorReport sslErrorQueueClear
  by_cases hnone : sslError = sslErrorNone
  · subst hnone
    rw [if_pos rfl, cleanOut_eq]
    rfl
  · rw [if_neg hnone]
    cases wantsSocket sslError with
    | true => rw [if_pos rfl, mostSerious_eq, if_pos rfl]
    | false => rw [if_neg Bool.false_ne_true, cleanOut_eq, if_neg Bool.false_ne_true]

/-- A code that neither wants the socket nor is the orderly close. -/
theorem sslErrorGet_eio {code : Int} (hwants : wantsSocket code = false) (hclose : code ≠ sslErrorZeroReturn) :
    sslErrorGet (.ofCode code) = (Errno.eio, .none) := by
  obtain ⟨hwrite, hread⟩ := not_or.mp (of_decide_eq_false hwants)
  unfold SslResult.ofCode
  rw [if_neg hwrite, if_neg hread, if_neg hclose]
  split <;> rfl

theorem lastSerious_serious {code : Int} (h : lastSerious queue = some code) : wantsSocket code = false := by
  have hmem := (List.mem_filter.mp (List.mem_of_getLast? h)).2
  simpa using hmem

/-- An orderly close is reported as an error of the transport. -/
theorem sslErrorReport_zeroReturn (queue : List QueuedError) :
    sslErrorReport sslErrorZeroReturn queue = ((Errno.eio, .none), []) := sslErrorReport_eq _ _

/-- **The classification is right (proved)** unless the outcome is the orderly close, or the last serious error in the
queue has its code. -/
theorem sslClassified (hclose : sslError ≠ sslErrorZeroReturn)
    (hqueue : wantsSocket sslError = true → lastSerious queue ≠ some sslErrorZeroReturn) :
    SslClassified sslError queue := by
  have hreport := sslErrorReport_eq sslError queue
  cases hwants : wantsSocket sslError with
  | false =>
    obtain ⟨hwrite, hread⟩ := not_or.mp (of_decide_eq_false hwants)
    rw [hwants, if_neg Bool.false_ne_true, sslErrorGet_eio rfl (by decide)] at hreport
    refine ⟨by rw [hreport], ?_, ?_, ?_, ?_⟩ <;> rw [hreport]
    · exact iff_of_false (by decide) fun h => hread h.1
    · exact iff_of_false (by decide) fun h => hwrite h.1
    · exact iff_of_false (by decide) hclose
    · decide
  | true =>
    rw [hwants, if_pos rfl] at hreport
    cases hserious : lastSerious queue with
    | some code =>
      have hother : code ≠ sslErrorZeroReturn := fun h => hqueue hwants (by rw [hserious, h])
      rw [hserious, Option.getD_some, sslErrorGet_eio (lastSerious_serious hserious) hother] at hreport
      refine ⟨by rw [hreport], ?_, ?_, ?_, ?_⟩ <;> rw [hreport]
      · exact iff_of_false (by decide) fun h => absurd (hserious.symm.trans h.2) nofun
      · exact iff_of_false (by decide) fun h => absurd (hserious.symm.trans h.2) nofun
      · exact iff_of_false (by decide) hclose
      · decide
    | none =>
      rw [hserious, Option.getD_none] at hreport
      rcases of_decide_eq_true hwants with rfl | rfl
      · refine ⟨by rw [hreport], ?_, ?_, ?_, ?_⟩ <;> rw [hreport]
        · exact iff_of_false (by decide) fun h => absurd h.1 (by decide)
        · exact iff_of_true rfl ⟨rfl, hserious⟩
        · exact iff_of_false (by decide) hclose
        · decide
      · refine ⟨by rw [hreport], ?_, ?_, ?_, ?_⟩ <;> rw [hreport]
        · exact iff_of_true rfl ⟨rfl, hserious⟩
        · exact iff_of_false (by decide) fun h => absurd h.1 (by decide)
        · exact iff_of_false (by decide) hclose
        · decide

end Classified

/-! ### The theorem -/

/-- **The two receive paths classify alike (proved)** exactly when the outcome is not the orderly close of the peer,
`SSL_ERROR_ZERO_RETURN`, and a queued error does not look like it: `sslErrorQueueClear` returns 0 for a serious code, so
the case of the switch that returns `ECONNCLOSEDBYPEER` is reached through the queue only. -/
theorem closesAlike_iff (sslError : Int) (queue : List QueuedError) : ClosesAlike sslError queue ↔
    sslError ≠ sslErrorZeroReturn ∧
      (wantsSocket sslError = true → lastSerious queue ≠ some sslErrorZeroReturn) := by
  constructor
  · intro h
    refine ⟨?_, fun hwants hserious => ?_⟩
    · rintro rfl
      have hclosed := h.closed.mpr rfl
      rw [sslErrorReport_zeroReturn] at hclosed
      exact absurd hclosed (by decide)
    · have hreport := sslErrorReport_eq sslError queue
      rw [hwants, if_pos rfl, hserious, Option.getD_some] at hreport
      obtain rfl := h.closed.mp (congrArg Prod.fst hreport)
      exact absurd hwants (by decide)
  · rintro ⟨hclose, hqueue⟩
    exact ⟨sslClassified hclose hqueue, fun _ _ _ _ hrun hlast => socketEventProcess_failed hrun hlast,
      fun h => absurd h hclose, fun h => absurd h hclose⟩

/-- **An orderly close over SSL (proved):** a read fails with `EIO`, where it fails with `ECONNCLOSEDBYPEER` over a clear
socket, and a disconnect fails where it succeeds. -/
theorem zeroReturn_eio (queue : List QueuedError) :
    (∀ (iob : IOBufferLib) (s : ReadState) (input : ReadInput) (r : ReadReturn),
      socketEventProcess iob s input = some r →
        input.lastAnswer = some (SslRead.fails sslErrorZeroReturn queue).answer → r.error = Errno.eio) ∧
      drainWire (sslErrorReport sslErrorZeroReturn queue).1.1 = (Errno.eio, .none) ∧
      drainWire Errno.econnclosedbypeer = (0, .none) := by
  refine ⟨fun iob s input r hrun hlast => ?_, ?_, rfl⟩
  · have hanswer : (SslRead.fails sslErrorZeroReturn queue).answer = .fails Errno.eio .none := by
      simp only [SslRead.answer, sslErrorReport_zeroReturn]
    exact socketEventProcess_failed hrun (hlast.trans (congrArg some hanswer))
  · rw [sslErrorReport_zeroReturn]
    rfl

/-- **An orderly close is not told apart (proved).** -/
theorem zeroReturn_unclassified : ¬ ∀ (sslError : Int) (queue : List QueuedError), ClosesAlike sslError queue := by
  intro h
  have hclosed := (h sslErrorZeroReturn []).closed.mpr rfl
  rw [sslErrorReport_zeroReturn] at hclosed
  exact absurd hclosed (by decide)

end Connio
