import Connio.Lib.Handoff
import Connio.Socket

/-!
# Handing octets to the transport

`clearSend` and `sslSend` (`sockcommon.c`) with `flushSendBuffer` and `sendFromClientBuffer`
(`process.c`), two nested loops that share the responsibility for progress.

* `TransportAnswer`, `SendReturn`, `clearSend`, `sslSend` — one `SocketSend`, and what it reports;
* `SendBuffer`, `flushSendBuffer`, `sendFromClientBuffer`, `resumed` — one event, resumed after each
  `EWOULDBLOCK`;
* `SendReturn.Reported` — a call reports what the transport accepted; `clearSend_spec`,
  `sslSend_spec` — **PROVED**: `clearSend` always, `sslSend` unless `SSL_write` fails after a short count;
* `ExactlyOnce`, `exactlyOnce_iff` — **PROVED**: an event hands its buffer over exactly once when every
  call reports what was accepted, and only then.

The answers of the transport are those of one execution: a run with other answers is `none`.
-/

namespace Connio

open Connio.Lib

/-! ### One call of `SocketSend` -/

/-- What one call of `send` or `SSL_write` answers. -/
inductive TransportAnswer (ε : Type) where
  | accepts (ccode : ℕ)
  | fails (error : ε)
  deriving DecidableEq, Repr

/-- What `SocketSend` reports, with the offers it made. -/
structure SendReturn where
  /-- `none` is `SOCKET_ERROR` -/
  count : Option ℕ
  error : Errno
  blockedOn : SocketEventType
  offers : List Offer
  deriving DecidableEq, Repr

/-- An offer made before. -/
def SendReturn.after (o : Offer) (r : SendReturn) : SendReturn := { r with offers := o :: r.offers }

/-- The loop of `clearSend` for `bytes` octets from position `buffer` on, `writeCount` of which have been
accepted. -/
def clearSend (buffer bytes : ℕ) : ℕ → List (TransportAnswer Errno) → Option SendReturn
  | _, [] => none
  | writeCount, .accepts ccode :: answers =>
    let offer : Offer := ⟨buffer + writeCount, bytes - writeCount, ccode⟩
    if ccode = 0 ∨ bytes - writeCount < ccode then none
    else if bytes ≤ writeCount + ccode then
      if answers = [] then some ⟨some (writeCount + ccode), 0, .none, [offer]⟩ else none
    else (clearSend buffer bytes (writeCount + ccode) answers).map (.after offer)
  | writeCount, .fails errno :: answers =>
    let offer : Offer := ⟨buffer + writeCount, bytes - writeCount, 0⟩
    let blockedOn := if errno = Errno.ewouldblock then .writable else .none
    if errno = 0 ∨ answers ≠ [] then none
    else if writeCount ≠ 0 then some ⟨some writeCount, errno, blockedOn, [offer]⟩
    else some ⟨none, errno, blockedOn, [offer]⟩

/-- The loop of `sslSend`. -/
def sslSend (buffer bytes : ℕ) : ℕ → List (TransportAnswer SslResult) → Option SendReturn
  | _, [] => none
  | writeCount, .accepts ccode :: answers =>
    let offer : Offer := ⟨buffer + writeCount, bytes - writeCount, ccode⟩
    if ccode = 0 ∨ bytes - writeCount < ccode then none
    else if ccode = bytes - writeCount then
      if answers = [] then some ⟨some bytes, 0, .none, [offer]⟩ else none
    else (sslSend buffer bytes (writeCount + ccode) answers).map (.after offer)
  | writeCount, .fails ret :: answers =>
    let offer : Offer := ⟨buffer + writeCount, bytes - writeCount, 0⟩
    let (err, blockedOn) := sslErrorGet ret
    if answers ≠ [] then none else some ⟨none, err, blockedOn, [offer]⟩

/-- **`SocketSend` reports what the transport accepted:** the count, or `SOCKET_ERROR` when it accepted
nothing. -/
def SendReturn.Reported (r : SendReturn) : Prop :=
  r.count = some (taken r.offers) ∨ r.count = none ∧ taken r.offers = 0

/-- **What is known of one `SocketSend`,** whose report is right when its answers are `good`. -/
structure SendSpec (buffer bytes : ℕ) (good : Prop) (r : SendReturn) : Prop where
  inOrder : InOrder (buffer + bytes) buffer r.offers
  reported : r.Reported ↔ good
  /-- only a full count comes without an error -/
  complete : r.error = 0 ↔ r.count = some bytes
  count_le : ∀ moved, r.count = some moved → 0 < moved ∧ moved ≤ bytes

/-- A failure after a short count. -/
def FailsAfterShort {ε : Type} (answers : List (TransportAnswer ε)) : Prop :=
  ∃ error, .fails error ∈ answers.tail

section Calls

variable {buffer bytes : ℕ}

/-- The next offer takes up where the accepted octets end. -/
theorem inOrder_offer {writeCount ccode : ℕ} {l : List Offer} (hw : writeCount < bytes)
    (hle : ccode ≤ bytes - writeCount)
    (hrest : InOrder (buffer + bytes) (buffer + (writeCount + ccode)) l) :
    InOrder (buffer + bytes) (buffer + writeCount)
      (⟨buffer + writeCount, bytes - writeCount, ccode⟩ :: l) := by
  refine ⟨rfl, hle, ?_, ?_⟩
  · show buffer + writeCount + (bytes - writeCount) ≤ buffer + bytes
    omega
  · rw [Nat.add_assoc]
    exact hrest

/-- The loop of `clearSend`, with what has been accepted already. -/
theorem clearSend_loop : ∀ {answers : List (TransportAnswer Errno)} {writeCount : ℕ} {r : SendReturn},
    writeCount < bytes → clearSend buffer bytes writeCount answers = some r →
      InOrder (buffer + bytes) (buffer + writeCount) r.offers ∧
      (r.count = some (writeCount + taken r.offers) ∨
        writeCount = 0 ∧ r.count = none ∧ taken r.offers = 0) ∧
      (r.error = 0 ↔ r.count = some bytes) ∧
      ∀ moved, r.count = some moved → 0 < moved ∧ moved ≤ bytes
  | [], _, _, _, h => by cases h
  | .accepts ccode :: answers, writeCount, r, hw, h => by
    simp only [clearSend] at h
    split at h
    · cases h
    next hc =>
      obtain ⟨hpos, hle⟩ := not_or.mp hc
      split at h
      next hfull =>
        split at h <;> cases h
        have heq : writeCount + ccode = bytes := by omega
        refine ⟨inOrder_offer hw (by omega) trivial, .inl (by simp), by simp [heq], ?_⟩
        rintro moved ⟨⟩
        omega
      next hshort =>
        obtain ⟨r', hr', rfl⟩ := Option.map_eq_some_iff.mp h
        obtain ⟨hin, hcount, herr, hmoved⟩ := clearSend_loop (by omega) hr'
        refine ⟨inOrder_offer hw (by omega) hin, ?_, herr, hmoved⟩
        rcases hcount with hcount | ⟨h0, _⟩
        · refine .inl ?_
          simp only [SendReturn.after, taken_cons]
          rw [hcount, Nat.add_assoc]
        · omega
  | .fails errno :: answers, writeCount, r, hw, h => by
    simp only [clearSend] at h
    split at h
    · cases h
    next he =>
      obtain ⟨hne, _⟩ := not_or.mp he
      split at h <;> cases h
      next hwrite =>
        refine ⟨inOrder_offer hw (Nat.zero_le _) trivial, .inl (by simp), ?_, ?_⟩
        · simp only [hne, Option.some.injEq, false_iff]
          omega
        · rintro moved ⟨⟩
          omega
      next hwrite =>
        exact ⟨inOrder_offer hw (Nat.zero_le _) trivial, .inr ⟨by omega, rfl, by simp⟩, by simp [hne],
          fun moved hm => by cases hm⟩

/-- **`clearSend` (proved):** it always reports what was accepted. -/
theorem clearSend_spec {answers : List (TransportAnswer Errno)} {r : SendReturn} (hb : 0 < bytes)
    (h : clearSend buffer bytes 0 answers = some r) : SendSpec buffer bytes True r := by
  obtain ⟨hin, hcount, herr, hmoved⟩ := clearSend_loop hb h
  refine ⟨hin, iff_true_intro ?_, herr, hmoved⟩
  rcases hcount with hcount | ⟨_, hnone⟩
  · exact .inl (by rw [hcount, Nat.zero_add])
  · exact .inr hnone

theorem sslErrorGet_ne_zero (ret : SslResult) : (sslErrorGet ret).1 ≠ 0 := by
  cases ret <;> decide

/-- The loop of `sslSend`: after a failure the count is lost. -/
theorem sslSend_loop : ∀ {answers : List (TransportAnswer SslResult)} {writeCount : ℕ} {r : SendReturn},
    writeCount < bytes → sslSend buffer bytes writeCount answers = some r →
      InOrder (buffer + bytes) (buffer + writeCount) r.offers ∧
      ((r.count = some bytes ∧ writeCount + taken r.offers = bytes ∧ r.error = 0 ∧
          ∀ error, .fails error ∉ answers) ∨
        (r.count = none ∧ r.error ≠ 0 ∧ (∃ error, .fails error ∈ answers) ∧
          (taken r.offers = 0 ↔ ¬ FailsAfterShort answers)))
  | [], _, _, _, h => by cases h
  | .accepts ccode :: answers, writeCount, r, hw, h => by
    simp only [sslSend] at h
    split at h
    · cases h
    next hc =>
      obtain ⟨hpos, hle⟩ := not_or.mp hc
      split at h
      next hfull =>
        split at h
        next hnil =>
          cases h
          refine ⟨inOrder_offer hw (by omega) trivial, .inl ⟨rfl, ?_, rfl, by simp [hnil]⟩⟩
          simp only [taken_cons, taken_nil]
          omega
        · cases h
      next hshort =>
        obtain ⟨r', hr', rfl⟩ := Option.map_eq_some_iff.mp h
        obtain ⟨hin, hrest⟩ := sslSend_loop (by omega) hr'
        refine ⟨inOrder_offer hw (by omega) hin, ?_⟩
        rcases hrest with ⟨hcount, htaken, herr, hnot⟩ | ⟨hcount, herr, ⟨error, hmem⟩, _⟩
        · refine .inl ⟨hcount, ?_, herr, fun error hmem => ?_⟩
          · simp only [SendReturn.after, taken_cons]
            omega
          · exact hnot error ((List.mem_cons.mp hmem).resolve_left (by simp))
        · -- the failure comes after this short count
          refine .inr ⟨hcount, herr, ⟨error, List.mem_cons_of_mem _ hmem⟩, ?_⟩
          refine iff_of_false ?_ (fun hnot => hnot ⟨error, hmem⟩)
          simp only [SendReturn.after, taken_cons]
          omega
  | .fails ret :: answers, writeCount, r, hw, h => by
    simp only [sslSend] at h
    split at h
    · cases h
    next hnil =>
      cases h
      have hnil : answers = [] := Classical.not_not.mp hnil
      refine ⟨inOrder_offer hw (Nat.zero_le _) trivial,
        .inr ⟨rfl, sslErrorGet_ne_zero ret, ⟨ret, by simp⟩, ?_⟩⟩
      simp [FailsAfterShort, hnil]

/-- **`sslSend` (proved):** it reports what was accepted unless `SSL_write` fails after a short count. -/
theorem sslSend_spec {answers : List (TransportAnswer SslResult)} {r : SendReturn} (hb : 0 < bytes)
    (h : sslSend buffer bytes 0 answers = some r) :
    SendSpec buffer bytes (¬ FailsAfterShort answers) r := by
  obtain ⟨hin, hrest⟩ := sslSend_loop hb h
  rcases hrest with ⟨hcount, htaken, herr, hnot⟩ | ⟨hcount, herr, _, hzero⟩
  · rw [Nat.zero_add] at htaken
    refine ⟨hin, iff_of_true (.inl (by rw [hcount, htaken])) ?_, by simp [herr, hcount], ?_⟩
    · rintro ⟨error, hmem⟩
      exact hnot error (List.mem_of_mem_tail hmem)
    · intro moved hm
      rw [hcount] at hm
      cases hm
      omega
  · refine ⟨hin, Iff.trans ?_ hzero, by simp [herr, hcount], ?_⟩
    · simp [SendReturn.Reported, hcount]
    · intro moved hm
      rw [hcount] at hm
      cases hm

end Calls

/-! ### One event -/

/-- A send buffer of `total` octets.  `IOBGetUsed` hands back the octets that lie in one piece from
`freed` on, at least one as long as there are any. -/
structure SendBuffer (total : ℕ) where
  piece : ℕ → ℕ
  pos : ∀ freed < total, 0 < piece freed
  le : ∀ freed < total, freed + piece freed ≤ total

/-- `IOBGetUsed` after `freed` octets have been marked free -/
def SendBuffer.getUsed {total : ℕ} (iob : SendBuffer total) (freed : ℕ) : ℕ :=
  if freed < total then iob.piece freed else 0

/-- What a process function returns: `pos` octets of its buffer are gone, and these are the calls of
`SocketSend` it made. -/
structure ProcessReturn where
  error : Errno
  blockedOn : SocketEventType
  pos : ℕ
  sends : List SendReturn
  deriving DecidableEq, Repr

def ProcessReturn.after (sends : List SendReturn) (r : ProcessReturn) : ProcessReturn :=
  { r with sends := sends ++ r.sends }

def ProcessReturn.offers (r : ProcessReturn) : List Offer := r.sends.flatMap SendReturn.offers

variable {ε : Type} (socketSend : ℕ → ℕ → ℕ → List (TransportAnswer ε) → Option SendReturn)

/-- `flushSendBuffer`; each call of `SocketSend` has its list of answers. -/
def flushSendBuffer {total : ℕ} (iob : SendBuffer total) :
    ℕ → List (List (TransportAnswer ε)) → Option ProcessReturn
  | freed, [] => if iob.getUsed freed = 0 then some ⟨0, .none, freed, []⟩ else none
  | freed, call :: calls =>
    let count := iob.getUsed freed
    if count = 0 then none
    else
      match socketSend freed count 0 call with
      | none => none
      | some r =>
        match r.count with
        | some moved =>
          if moved = count then
            (flushSendBuffer iob (freed + moved) calls).map (.after [r])
          else if calls = [] then some ⟨r.error, r.blockedOn, freed + moved, [r]⟩ else none
        | none => if calls = [] then some ⟨r.error, r.blockedOn, freed, [r]⟩ else none

/-- `sendFromClientBuffer` for a client buffer of `total` octets, `read` of which are gone. -/
def sendFromClientBuffer (total : ℕ) : ℕ → List (List (TransportAnswer ε)) → Option ProcessReturn
  | read, [] => if total - read = 0 then some ⟨0, .none, read, []⟩ else none
  | read, call :: calls =>
    let remaining := total - read
    if remaining = 0 then none
    else
      match socketSend read remaining 0 call with
      | none => none
      | some r =>
        match r.count with
        | some sent => (sendFromClientBuffer total (read + sent) calls).map (.after [r])
        | none => if calls = [] then some ⟨r.error, r.blockedOn, read, [r]⟩ else none

/-- The process function is called again each time it returned `EWOULDBLOCK`. -/
def resumed (process : ℕ → List (List (TransportAnswer ε)) → Option ProcessReturn) :
    ℕ → List (List (List (TransportAnswer ε))) → Option ProcessReturn
  | _, [] => none
  | pos, attempt :: attempts =>
    if attempts = [] then process pos attempt
    else
      match process pos attempt with
      | none => none
      | some r =>
        if r.error = Errno.ewouldblock then (resumed process r.pos attempts).map (.after r.sends)
        else none

/-- **An event hands its buffer over exactly once:** no octet is offered again or skipped, what the
transport has accepted is a prefix of the buffer at all times, the event completes only when all of it is
accepted, and every call reports what was accepted. -/
structure ExactlyOnce {α : Type} (content : List α) (r : ProcessReturn) : Prop where
  inOrder : InOrder content.length 0 r.offers
  stream : ∀ offers, offers <+: r.offers → handed content offers <+: content
  complete : r.error = 0 → taken r.offers = content.length
  reported : ∀ s ∈ r.sends, s.Reported

/-! ### Every run of an event -/

section Runs

variable {good : List (TransportAnswer ε) → Prop} {total : ℕ}

/-- **What is known of a process function** that starts at `pos`: its calls report what was accepted when
all their answers are `good`, and then its position is right. -/
structure ProcessSpec (total pos : ℕ) (good : Prop) (r : ProcessReturn) : Prop where
  reported : (∀ s ∈ r.sends, s.Reported) ↔ good
  le : r.pos ≤ total
  complete : r.error = 0 → r.pos = total
  inOrder : good → InOrder total pos r.offers ∧ r.pos = pos + taken r.offers

namespace ProcessSpec

theorem congr {pos : ℕ} {P Q : Prop} {r : ProcessReturn} (h : ProcessSpec total pos P r)
    (hPQ : P ↔ Q) : ProcessSpec total pos Q r :=
  ⟨h.reported.trans hPQ, h.le, h.complete, fun hQ => h.inOrder (hPQ.mpr hQ)⟩

/-- A run that has nothing to send. -/
theorem done {pos : ℕ} (h : pos = total) : ProcessSpec total pos True ⟨0, .none, pos, []⟩ :=
  ⟨iff_of_true (fun _ hs => by cases hs) trivial, Nat.le_of_eq h, fun _ => h, fun _ => ⟨trivial, rfl⟩⟩

/-- **A call of `SocketSend`, and what comes after it.** -/
theorem after {pos bytes moved : ℕ} {P Q : Prop} {s : SendReturn} {r : ProcessReturn}
    (hbytes : pos + bytes ≤ total) (hs : SendSpec pos bytes P s) (hcount : s.count = some moved)
    (hr : ProcessSpec total (pos + moved) Q r) : ProcessSpec total pos (P ∧ Q) (r.after [s]) := by
  have hoffers : (r.after [s]).offers = s.offers ++ r.offers := by
    simp [ProcessReturn.after, ProcessReturn.offers]
  refine ⟨?_, hr.le, hr.complete, fun h => ?_⟩
  · rw [← hs.reported, ← hr.reported]
    simp [ProcessReturn.after]
  · have hmoved : taken s.offers = moved := by
      rcases hs.reported.mpr h.1 with hrep | ⟨hnone, _⟩
      · exact Option.some.inj (hrep.symm.trans hcount)
      · exact absurd (hnone.symm.trans hcount) (by simp)
    obtain ⟨hin, hpos⟩ := hr.inOrder h.2
    rw [hoffers, taken_append, hmoved, ← Nat.add_assoc]
    refine ⟨inOrder_append.mpr ⟨hs.inOrder.mono hbytes, ?_⟩, hpos⟩
    rw [hmoved]
    exact hin

/-- A call of `SocketSend` that ends the run with an error. -/
theorem last {pos bytes : ℕ} {P : Prop} {s : SendReturn} (hbytes : pos + bytes ≤ total)
    (hs : SendSpec pos bytes P s) (herr : s.error ≠ 0) :
    ProcessSpec total pos P ⟨s.error, s.blockedOn, pos + s.count.getD 0, [s]⟩ := by
  have hoffers : (ProcessReturn.mk s.error s.blockedOn (pos + s.count.getD 0) [s]).offers =
      s.offers := by
    simp [ProcessReturn.offers]
  refine ⟨?_, ?_, fun h => absurd h herr, fun h => ?_⟩
  · rw [← hs.reported]
    simp
  · show pos + s.count.getD 0 ≤ total
    cases hc : s.count with
    | none =>
      simp only [Option.getD_none]
      omega
    | some moved =>
      have hle := (hs.count_le moved hc).2
      simp only [Option.getD_some]
      omega
  · rw [hoffers]
    refine ⟨hs.inOrder.mono hbytes, ?_⟩
    rcases hs.reported.mpr h with hrep | ⟨hnone, hzero⟩
    · rw [hrep, Option.getD_some]
    · rw [hnone, hzero, Option.getD_none]

/-- A call of `SocketSend` that ends the run without a count. -/
theorem failed {pos bytes : ℕ} {P : Prop} {s : SendReturn} (hbytes : pos + bytes ≤ total)
    (hs : SendSpec pos bytes P s) (hcount : s.count = none) :
    ProcessSpec total pos P ⟨s.error, s.blockedOn, pos, [s]⟩ := by
  have herr : s.error ≠ 0 := by
    intro h0
    have hfull := hcount.symm.trans (hs.complete.mp h0)
    cases hfull
  have hlast := last hbytes hs herr
  rw [hcount, Option.getD_none, Nat.add_zero] at hlast
  exact hlast

/-- The process function is called again where it stopped. -/
theorem resume {pos : ℕ} {P Q : Prop} {r r' : ProcessReturn} (hr : ProcessSpec total pos P r)
    (hr' : ProcessSpec total r.pos Q r') : ProcessSpec total pos (P ∧ Q) (r'.after r.sends) := by
  have hoffers : (r'.after r.sends).offers = r.offers ++ r'.offers := by
    simp [ProcessReturn.after, ProcessReturn.offers]
  refine ⟨?_, hr'.le, hr'.complete, fun h => ?_⟩
  · rw [← hr.reported, ← hr'.reported]
    simp [ProcessReturn.after, or_imp, forall_and]
  · obtain ⟨hin, hpos⟩ := hr.inOrder h.1
    obtain ⟨hin', hpos'⟩ := hr'.inOrder h.2
    rw [hoffers, taken_append, ← Nat.add_assoc, ← hpos]
    refine ⟨inOrder_append.mpr ⟨hin, ?_⟩, hpos'⟩
    rw [← hpos]
    exact hin'

/-- **From the start of the buffer: exactly once, if and only if the answers are `good`.** -/
theorem exactlyOnce_iff {α : Type} {content : List α} {P : Prop} {r : ProcessReturn}
    (h : ProcessSpec content.length 0 P r) : ExactlyOnce content r ↔ P := by
  refine ⟨fun hr => h.reported.mp hr.reported, fun hP => ?_⟩
  obtain ⟨hin, hpos⟩ := h.inOrder hP
  rw [Nat.zero_add] at hpos
  refine ⟨hin, fun offers hpre => ?_, fun herr => ?_, h.reported.mpr hP⟩
  · obtain ⟨rest, heq⟩ := hpre
    rw [← heq] at hin
    exact hin.prefix
  · rw [← hpos]
    exact h.complete herr

end ProcessSpec

/-- `SocketSend` keeps its part: its reports are right when its answers are `good`. -/
def SendOk (good : List (TransportAnswer ε) → Prop) : Prop :=
  ∀ buffer bytes answers r, 0 < bytes → socketSend buffer bytes 0 answers = some r →
    SendSpec buffer bytes (good answers) r

variable {socketSend}

/-- **`flushSendBuffer` (proved).** -/
theorem flushSendBuffer_spec (hsend : SendOk socketSend good) (iob : SendBuffer total) :
    ∀ {calls : List (List (TransportAnswer ε))} {freed : ℕ} {r : ProcessReturn}, freed ≤ total →
      flushSendBuffer socketSend iob freed calls = some r →
        ProcessSpec total freed (∀ call ∈ calls, good call) r
  | [], freed, r, hle, h => by
    simp only [flushSendBuffer] at h
    split at h <;> cases h
    next hused =>
    refine (ProcessSpec.done ?_).congr (by simp)
    by_contra hne
    have hlt : freed < total := Nat.lt_of_le_of_ne hle hne
    rw [SendBuffer.getUsed, if_pos hlt] at hused
    exact absurd hused (Nat.ne_of_gt (iob.pos freed hlt))
  | call :: calls, freed, r, hle, h => by
    simp only [flushSendBuffer] at h
    split at h
    · cases h
    next hused =>
      have hlt : freed < total := by
        by_contra hnot
        exact hused (if_neg hnot)
      rw [SendBuffer.getUsed, if_pos hlt] at h
      have hbytes := iob.le freed hlt
      split at h
      · cases h
      next s hs =>
        have hspec := hsend _ _ _ _ (iob.pos freed hlt) hs
        split at h
        next moved hcount =>
          split at h
          next heq =>
            obtain ⟨r', hr', rfl⟩ := Option.map_eq_some_iff.mp h
            have hrest := flushSendBuffer_spec hsend iob (by omega) hr'
            exact (ProcessSpec.after hbytes hspec hcount hrest).congr (by simp)
          next hne =>
            split at h <;> cases h
            next hnil =>
              have herr : s.error ≠ 0 := fun h0 => hne (Option.some.inj
                (hcount.symm.trans (hspec.complete.mp h0)))
              have hlast := ProcessSpec.last hbytes hspec herr
              rw [hcount, Option.getD_some] at hlast
              exact hlast.congr (by simp [hnil])
        next hcount =>
          split at h <;> cases h
          next hnil =>
            exact (ProcessSpec.failed hbytes hspec hcount).congr (by simp [hnil])

/-- **`sendFromClientBuffer` (proved).** -/
theorem sendFromClientBuffer_spec (hsend : SendOk socketSend good) :
    ∀ {calls : List (List (TransportAnswer ε))} {read : ℕ} {r : ProcessReturn}, read ≤ total →
      sendFromClientBuffer socketSend total read calls = some r →
        ProcessSpec total read (∀ call ∈ calls, good call) r
  | [], read, r, hle, h => by
    simp only [sendFromClientBuffer] at h
    split at h <;> cases h
    exact (ProcessSpec.done (by omega)).congr (by simp)
  | call :: calls, read, r, hle, h => by
    simp only [sendFromClientBuffer] at h
    split at h
    · cases h
    next hremaining =>
      have hbytes : read + (total - read) ≤ total := by omega
      split at h
      · cases h
      next s hs =>
        have hspec := hsend _ _ _ _ (Nat.pos_of_ne_zero hremaining) hs
        split at h
        next sent hcount =>
          obtain ⟨r', hr', rfl⟩ := Option.map_eq_some_iff.mp h
          have hle := (hspec.count_le sent hcount).2
          have hrest := sendFromClientBuffer_spec hsend (by omega) hr'
          exact (ProcessSpec.after hbytes hspec hcount hrest).congr (by simp)
        next hcount =>
          split at h <;> cases h
          next hnil =>
            exact (ProcessSpec.failed hbytes hspec hcount).congr (by simp [hnil])

/-- **An event that is resumed (proved).** -/
theorem resumed_spec {process : ℕ → List (List (TransportAnswer ε)) → Option ProcessReturn}
    (hprocess : ∀ pos calls r, pos ≤ total → process pos calls = some r →
      ProcessSpec total pos (∀ call ∈ calls, good call) r) :
    ∀ {attempts : List (List (List (TransportAnswer ε)))} {pos : ℕ} {r : ProcessReturn}, pos ≤ total →
      resumed process pos attempts = some r →
        ProcessSpec total pos (∀ attempt ∈ attempts, ∀ call ∈ attempt, good call) r
  | [], _, _, _, h => by cases h
  | attempt :: attempts, pos, r, hle, h => by
    simp only [resumed] at h
    split at h
    next hnil => exact (hprocess pos attempt r hle h).congr (by simp [hnil])
    · split at h
      · cases h
      next r₁ hr₁ =>
        split at h
        · obtain ⟨r', hr', rfl⟩ := Option.map_eq_some_iff.mp h
          have hfirst := hprocess pos attempt r₁ hle hr₁
          exact (hfirst.resume (resumed_spec hprocess hfirst.le hr')).congr (by simp)
        · cases h

end Runs

/-! ### The two transports -/

theorem clearSend_ok : SendOk clearSend fun _ => True :=
  fun _ _ _ _ hb h => clearSend_spec hb h

theorem sslSend_ok : SendOk sslSend fun answers => ¬ FailsAfterShort answers :=
  fun _ _ _ _ hb h => sslSend_spec hb h

/-- **Exactly once (proved):** over a clear socket in every run; over SSL in the runs in which `SSL_write`
does not fail after a short count, and in no other. -/
theorem handsOver_exactlyOnce {α : Type} (content : List α) (iob : SendBuffer content.length) :
    (∀ attempts r, resumed (flushSendBuffer clearSend iob) 0 attempts = some r →
      ExactlyOnce content r) ∧
    (∀ attempts r, resumed (sendFromClientBuffer clearSend content.length) 0 attempts = some r →
      ExactlyOnce content r) ∧
    (∀ attempts r, resumed (flushSendBuffer sslSend iob) 0 attempts = some r →
      (ExactlyOnce content r ↔ ∀ attempt ∈ attempts, ∀ call ∈ attempt, ¬ FailsAfterShort call)) ∧
    ∀ attempts r, resumed (sendFromClientBuffer sslSend content.length) 0 attempts = some r →
      (ExactlyOnce content r ↔ ∀ attempt ∈ attempts, ∀ call ∈ attempt, ¬ FailsAfterShort call) := by
  refine ⟨fun attempts r h => ?_, fun attempts r h => ?_, fun attempts r h => ?_,
    fun attempts r h => ?_⟩
  · exact (resumed_spec (fun pos calls r hle hr =>
      flushSendBuffer_spec clearSend_ok iob hle hr) (Nat.zero_le _) h).exactlyOnce_iff.mpr (by simp)
  · exact (resumed_spec (fun pos calls r hle hr =>
      sendFromClientBuffer_spec clearSend_ok hle hr) (Nat.zero_le _) h).exactlyOnce_iff.mpr (by simp)
  · exact (resumed_spec (fun pos calls r hle hr =>
      flushSendBuffer_spec sslSend_ok iob hle hr) (Nat.zero_le _) h).exactlyOnce_iff
  · exact (resumed_spec (fun pos calls r hle hr =>
      sendFromClientBuffer_spec sslSend_ok hle hr) (Nat.zero_le _) h).exactlyOnce_iff

/-- A send buffer whose octets lie in one piece. -/
def SendBuffer.onePiece (total : ℕ) : SendBuffer total where
  piece := fun freed => total - freed
  pos := fun _ h => Nat.sub_pos_of_lt h
  le := fun _ h => by omega

/-- The transport accepts two octets of four, would block, and is called again: a clear socket, and an SSL
session that wants to write. -/
theorem handsOver_exactlyOnce_short :
    (∃ r, resumed (flushSendBuffer clearSend (.onePiece 4)) 0
      [[[.accepts 2, .fails Errno.ewouldblock]], [[.accepts 2]]] = some r ∧
        ExactlyOnce [71, 69, 84, 32] r) ∧
    ∃ r, resumed (sendFromClientBuffer sslSend 4) 0
      [[[.fails .wantWrite]], [[.accepts 2, .accepts 2]]] = some r ∧
        ExactlyOnce [71, 69, 84, 32] r := by
  obtain ⟨hclear, _, _, hssl⟩ := handsOver_exactlyOnce [71, 69, 84, 32] (.onePiece 4)
  refine ⟨⟨_, rfl, hclear [[[.accepts 2, .fails Errno.ewouldblock]], [[.accepts 2]]] _ rfl⟩, ⟨_, rfl,
    (hssl [[[.fails .wantWrite]], [[.accepts 2, .accepts 2]]] _ rfl).mpr ?_⟩⟩
  simp [FailsAfterShort]

/-- **After a short count and a failure `sslSend` offers the same octets again (proved).** -/
theorem exactlyOnce_fails : ¬ ∀ (content : List ℕ) (iob : SendBuffer content.length)
    (attempts : List (List (List (TransportAnswer SslResult)))) (r : ProcessReturn),
    resumed (flushSendBuffer sslSend iob) 0 attempts = some r → ExactlyOnce content r := by
  intro h
  have hrun := h [71, 69, 84, 32] (.onePiece 4)
    [[[.accepts 2, .fails .wantWrite]], [[.accepts 4]]] _ rfl
  have hbad : ¬ InOrder 4 0 [⟨0, 4, 2⟩, ⟨2, 2, 0⟩, ⟨0, 4, 4⟩] := by
    simp [InOrder]
  exact hbad hrun.inOrder

end Connio
