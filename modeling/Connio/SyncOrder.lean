import Connio.SyncApi

/-!
# What a synchronous call sends

A synchronous call that reports no error has sent or buffered what it was given, behind what was buffered
before.

* `FlushInput.Accepting`, `FlushInput.Undisturbed` — `SocketSend` reports the prefix the transport accepts; the
  transport blocks, and never fails;
* `flushEvent_undisturbed` — **PROVED**: a flush that is not disturbed completes;
* `flush_sent`, `implicitFlush_sent`, `syncWriteClientData_sent`, `connWriteFromCBEx_sent` — **PROVED**: no octet
  is lost, added or moved;
* `call_sent` — **PROVED**: the same for every call;
* `dropped_reported` — **PROVED**: in every sequence of calls whose implicit flushes are not disturbed, those that drop
  octets report it; `dropped_silently` — a call with a disturbed flush that does not.
-/

namespace Connio

open Connio.Lib

/-! ### The answers of the transport -/

/-- The transport blocks, and never fails; `blocks` are its errors that mean `EWOULDBLOCK`. -/
def BlocksAtMost {ε : Type} (blocks : ε → Prop)
    (rounds : List (List (List (TransportAnswer ε)) × Option Errno)) : Prop :=
  ∀ x ∈ rounds, (∀ call ∈ x.1, ∀ error, .fails error ∈ call → blocks error) ∧ ∀ err ∈ x.2, err = 0

/-- The errors of the SSL library that mean `EWOULDBLOCK`. -/
def SslResult.Blocks (ret : SslResult) : Prop := (sslErrorGet ret).1 = Errno.ewouldblock

instance (ret : SslResult) : Decidable ret.Blocks := inferInstanceAs (Decidable (_ = _))

/-- **A flush that is not disturbed:** the transport blocks at most, and `SocketWait` does not fail. -/
def FlushInput.Undisturbed (secured : Bool) (input : FlushInput) : Prop :=
  if secured then BlocksAtMost SslResult.Blocks input.ssl
  else BlocksAtMost (fun errno => errno = Errno.ewouldblock) input.clear

/-- **`SocketSend` reports the prefix that is accepted:** `SSL_write` does not fail after a short count. -/
def FlushInput.Accepting (input : FlushInput) : Prop :=
  ∀ x ∈ input.ssl, ∀ call ∈ x.1, ¬ FailsAfterShort call

/-- A call of `SocketSend` with answers that block at most. -/
def BlocksOnly {ε : Type} (socketSend : ℕ → ℕ → ℕ → List (TransportAnswer ε) → Option SendReturn)
    (blocks : ε → Prop) : Prop :=
  ∀ buffer bytes writeCount answers r, socketSend buffer bytes writeCount answers = some r →
    (∀ error, .fails error ∈ answers → blocks error) →
      r.error = 0 ∨ r.error = Errno.ewouldblock ∧ r.blockedOn ≠ .none

theorem clearSend_blocks : BlocksOnly clearSend fun errno => errno = Errno.ewouldblock := by
  intro buffer bytes writeCount answers
  induction answers generalizing writeCount with
  | nil =>
    intro r h
    cases h
  | cons answer answers ih =>
    intro r h hblocks
    have hrest : ∀ error, .fails error ∈ answers → error = Errno.ewouldblock := fun error herror =>
      hblocks error (List.mem_cons_of_mem _ herror)
    cases answer with
    | accepts ccode =>
      simp only [clearSend] at h
      split at h
      · cases h
      split at h
      · split at h <;> cases h
        exact .inl rfl
      · obtain ⟨r', hr', rfl⟩ := Option.map_eq_some_iff.mp h
        exact ih _ r' hr' hrest
    | fails errno =>
      have herrno := hblocks errno List.mem_cons_self
      subst herrno
      simp only [clearSend] at h
      split at h
      · cases h
      split at h <;> cases h
      · exact .inr ⟨rfl, by simp⟩
      · exact .inr ⟨rfl, by simp⟩

theorem sslSend_blocks : BlocksOnly sslSend SslResult.Blocks := by
  intro buffer bytes writeCount answers
  induction answers generalizing writeCount with
  | nil =>
    intro r h
    cases h
  | cons answer answers ih =>
    intro r h hblocks
    have hrest : ∀ error, .fails error ∈ answers → SslResult.Blocks error := fun error herror =>
      hblocks error (List.mem_cons_of_mem _ herror)
    cases answer with
    | accepts ccode =>
      simp only [sslSend] at h
      split at h
      · cases h
      split at h
      · split at h <;> cases h
        exact .inl rfl
      · obtain ⟨r', hr', rfl⟩ := Option.map_eq_some_iff.mp h
        exact ih _ r' hr' hrest
    | fails ret =>
      have hret := hblocks ret List.mem_cons_self
      simp only [sslSend] at h
      split at h <;> cases h
      cases ret with
      | wantWrite | wantRead => exact .inr ⟨rfl, by simp [sslErrorGet]⟩
      | success | zeroReturn | failure => exact absurd hret (by decide)

section Flush

variable {ε : Type} {socketSend : ℕ → ℕ → ℕ → List (TransportAnswer ε) → Option SendReturn}
  {blocks : ε → Prop} {good : List (TransportAnswer ε) → Prop} {total : ℕ}

/-- A flush of which no call fails blocks at most. -/
theorem flushSendBuffer_blocks (hsend : BlocksOnly socketSend blocks) (iob : SendBuffer total) :
    ∀ {calls : List (List (TransportAnswer ε))} {freed : ℕ} {r : ProcessReturn},
      flushSendBuffer socketSend iob freed calls = some r →
        (∀ call ∈ calls, ∀ error, .fails error ∈ call → blocks error) →
          r.error = 0 ∨ r.error = Errno.ewouldblock ∧ r.blockedOn ≠ .none
  | [], _, _, h, _ => by
    simp only [flushSendBuffer] at h
    split at h <;> cases h
    exact .inl rfl
  | call :: calls, freed, r, h, hblocks => by
    simp only [flushSendBuffer] at h
    split at h
    · cases h
    split at h
    · cases h
    next s hs =>
      have hcall := hsend _ _ _ _ _ hs (hblocks call List.mem_cons_self)
      split at h
      · split at h
        · obtain ⟨r', hr', rfl⟩ := Option.map_eq_some_iff.mp h
          exact flushSendBuffer_blocks (r := r') hsend iob hr' fun c hc => hblocks c (List.mem_cons_of_mem _ hc)
        · split at h <;> cases h
          exact hcall
      · split at h <;> cases h
        exact hcall

/-- A flush event that is not disturbed completes. -/
theorem flushProcess_undisturbed (hsend : BlocksOnly socketSend blocks) (iob : SendBuffer total) :
    ∀ {rounds : List (List (List (TransportAnswer ε)) × Option Errno)} {s s' : ℕ × List SendReturn}
      {err : Errno}, BlocksAtMost blocks rounds →
      eventProcess (flushProcess socketSend iob) id s rounds = some (err, s') → err = 0
  | [], _, _, _, _, h => by cases h
  | (calls, wait) :: rounds, s, s', err, hquiet, h => by
    have hround := hquiet (calls, wait) List.mem_cons_self
    simp only [eventProcess] at h
    split at h
    · cases h
    next err₁ blockedOn s₁ hprocess =>
      obtain ⟨r, hr, heq⟩ := Option.map_eq_some_iff.mp hprocess
      have hblocks := flushSendBuffer_blocks hsend iob hr hround.1
      cases heq
      split at h
      next hblocked =>
        have hwait : socketWait r.blockedOn wait = wait := by
          rcases hblocks with h0 | ⟨_, hdirection⟩
          · rw [h0] at hblocked
            cases hblocked
          · cases hr : r.blockedOn <;> first | rfl | exact absurd hr hdirection
        rw [hwait] at h
        split at h
        · cases h
        · exact flushProcess_undisturbed hsend iob (fun x hx => hquiet x (List.mem_cons_of_mem _ hx)) h
        next e hne => exact absurd (hround.2 e rfl) hne
      next hblocked =>
        split at h <;> cases h
        exact hblocks.resolve_right fun hb => hblocked hb.1

/-- What the process function keeps holds when a synchronous event ends. -/
theorem eventProcess_invariant {σ α : Type} {process : σ → α → Option ((Errno × SocketEventType) × σ)}
    {inProgress : σ → σ} {A : α → Prop} {I : σ → Prop}
    (hstep : ∀ s a r s', A a → I s → process s a = some (r, s') → I s')
    (hprogress : ∀ s, I s → I (inProgress s)) :
    ∀ {rounds : List (α × Option Errno)} {s s' : σ} {err : Errno}, (∀ x ∈ rounds, A x.1) → I s →
      eventProcess process inProgress s rounds = some (err, s') → I s'
  | [], _, _, _, _, _, h => by cases h
  | (a, wait) :: rounds, s, s', err, hA, hI, h => by
    simp only [eventProcess] at h
    split at h
    · cases h
    next err₁ blockedOn s₁ hprocess =>
      have hI₁ := hstep s a _ s₁ (hA _ List.mem_cons_self) hI hprocess
      split at h
      · split at h
        · cases h
        · exact eventProcess_invariant hstep hprogress (fun x hx => hA x (List.mem_cons_of_mem _ hx))
            (hprogress s₁ hI₁) h
        · split at h <;> cases h
          exact hI₁
      · split at h <;> cases h
        exact hI₁

/-- What a flush event has handed over. -/
structure HandedOver (total : ℕ) (s : ℕ × List SendReturn) : Prop where
  le : s.1 ≤ total
  inOrder : InOrder total 0 (s.2.flatMap SendReturn.offers)
  pos : s.1 = taken (s.2.flatMap SendReturn.offers)

/-- The calls of a flush event hand its buffer over in order. -/
theorem flushProcess_inOrder (hsend : SendOk socketSend good) (iob : SendBuffer total)
    {rounds : List (List (List (TransportAnswer ε)) × Option Errno)} {s' : ℕ × List SendReturn} {err : Errno}
    (hgood : ∀ x ∈ rounds, ∀ call ∈ x.1, good call)
    (h : eventProcess (flushProcess socketSend iob) id (0, []) rounds = some (err, s')) :
    HandedOver total s' := by
  have hstart : HandedOver total (0, []) := ⟨Nat.zero_le _, trivial, rfl⟩
  refine eventProcess_invariant (A := fun calls => ∀ call ∈ calls, good call) (I := HandedOver total) ?_
    (fun _ hI => hI) hgood hstart h
  intro s calls r s₁ hcalls hI hprocess
  obtain ⟨p, hp, heq⟩ := Option.map_eq_some_iff.mp hprocess
  have hspec := flushSendBuffer_spec hsend iob hI.le hp
  obtain ⟨hin, hpos⟩ := hspec.inOrder hcalls
  cases heq
  refine ⟨hspec.le, ?_, ?_⟩
  · rw [List.flatMap_append]
    refine inOrder_append.mpr ⟨hI.inOrder, ?_⟩
    rw [Nat.zero_add, ← hI.pos]
    exact hin
  · rw [List.flatMap_append, taken_append, ← hI.pos]
    exact hpos

end Flush

/-- **A flush that is not disturbed completes (proved).** -/
theorem flushEvent_undisturbed {secured : Bool} {total : ℕ} {input : FlushInput} {err : Errno}
    {s : ℕ × List SendReturn} (hquiet : input.Undisturbed secured)
    (h : flushEvent secured total input = some (err, s)) : err = 0 := by
  unfold FlushInput.Undisturbed at hquiet
  unfold flushEvent at h
  split at h
  next hsecured =>
    rw [if_pos hsecured] at hquiet
    exact flushProcess_undisturbed sslSend_blocks _ hquiet h
  next hclear =>
    rw [if_neg hclear] at hquiet
    exact flushProcess_undisturbed clearSend_blocks _ hquiet h

/-! ### What is sent -/

section Sent

variable {c c' : SyncConn}

/-- The octets in the send buffer. -/
def SyncConn.buffered (c : SyncConn) : List UInt8 := c.sendBuffer.getD []

/-- **A flush (proved):** its octets are on the wire or dropped. -/
theorem flush_sent {data dropped : List UInt8} {err : Errno} {input : FlushInput} (haccept : input.Accepting)
    (h : c.flush data input = some (err, dropped, c')) :
    c'.wire ++ dropped = c.wire ++ data ∧ c.wire <+: c'.wire ∧ c'.sendBuffer = c.sendBuffer := by
  obtain ⟨⟨err, pos, sends⟩, hevent, heq⟩ := Option.map_eq_some_iff.mp h
  cases heq
  have hin : HandedOver data.length (pos, sends) := by
    unfold flushEvent at hevent
    split at hevent
    · exact flushProcess_inOrder sslSend_ok _ haccept hevent
    · exact flushProcess_inOrder clearSend_ok _ (fun _ _ _ _ => trivial) hevent
  have hhanded := hin.inOrder.handed_eq
  rw [List.take_zero, List.nil_append, Nat.zero_add, ← hin.pos] at hhanded
  refine ⟨?_, List.prefix_append _ _, rfl⟩
  show (c.wire ++ handed data _) ++ data.drop pos = c.wire ++ data
  rw [hhanded, List.append_assoc, List.take_append_drop]

/-- **The implicit flush (proved).** -/
theorem implicitFlush_sent {dropped : List UInt8} {err : Errno} {input : FlushInput}
    (haccept : input.Accepting) (h : c.implicitFlush input = some (err, dropped, c')) :
    c'.wire ++ dropped = c.wire ++ c.buffered ∧ c.wire <+: c'.wire ∧ c'.sendBuffer = none := by
  simp only [SyncConn.implicitFlush, SyncConn.bufferedSendDataGet] at h
  split at h
  next heq =>
    obtain ⟨hnil, rfl⟩ := Prod.mk.inj heq
    cases h
    refine ⟨?_, List.prefix_rfl, rfl⟩
    rw [SyncConn.buffered, hnil]
  next heq =>
    obtain ⟨rfl, rfl⟩ := Prod.mk.inj heq
    exact flush_sent haccept h

/-- An implicit flush that is not disturbed, or has nothing to send, completes. -/
theorem implicitFlush_undisturbed {dropped : List UInt8} {err : Errno} {input : FlushInput}
    (hquiet : c.buffered ≠ [] → input.Undisturbed c.sp.sslConn.isSome)
    (h : c.implicitFlush input = some (err, dropped, c')) : err = 0 := by
  simp only [SyncConn.implicitFlush, SyncConn.bufferedSendDataGet] at h
  split at h
  next heq =>
    cases h
    rfl
  next data c₁ hne heq =>
    obtain ⟨rfl, rfl⟩ := Prod.mk.inj heq
    obtain ⟨⟨err, pos, sends⟩, hevent, heq'⟩ := Option.map_eq_some_iff.mp h
    cases heq'
    refine flushEvent_undisturbed (hquiet fun hnil => ?_) hevent
    exact hne hnil

/-- **A write (proved):** what it was given follows what was buffered. -/
theorem syncWriteClientData_sent : ∀ {rounds : List WriteRound} {c : SyncConn} {data : List UInt8}
    {transferred : ℕ} {r : SyncReturn}, (∀ round ∈ rounds, round.flush.Accepting) →
      syncWriteClientData c data transferred rounds = some r → r.errno = 0 →
        r.conn.wire ++ r.conn.buffered = c.wire ++ c.buffered ++ data ∧ c.wire <+: r.conn.wire
  | [], _, _, _, _, _, h, _ => by cases h
  | round :: rounds, c, data, transferred, r, haccept, h, herr => by
    simp only [syncWriteClientData] at h
    split at h
    · split at h <;> cases h
      cases herr
    split at h
    · split at h <;> cases h
      exact ⟨(List.append_assoc ..).symm, List.prefix_rfl⟩
    next hfull =>
      split at h
      · cases h
      next err dropped c₁ hflush =>
        obtain ⟨hwire, hprefix, hbuffer⟩ := flush_sent (haccept round List.mem_cons_self) hflush
        split at h
        next h0 =>
          subst h0
          have hempty : dropped = [] := flush_complete hflush
          obtain ⟨hrest, hprefix'⟩ := syncWriteClientData_sent
            (fun x hx => haccept x (List.mem_cons_of_mem _ hx)) h herr
          have hnone : c₁.buffered = [] := by
            rw [SyncConn.buffered, hbuffer]
            rfl
          rw [hempty, List.append_nil] at hwire
          refine ⟨?_, hprefix.trans hprefix'⟩
          calc r.conn.wire ++ r.conn.buffered
              = c₁.wire ++ data.drop (connIobSize - (c.sendBuffer.getD []).length) := by
                rw [hrest, hnone, List.append_nil]
            _ = c.wire ++ c.buffered ++ data := by
                rw [hwire, List.append_assoc, List.append_assoc, List.take_append_drop, List.append_assoc]
                rfl
        next hne =>
          split at h <;> cases h
          exact absurd herr hne

/-- **A write from a callback (proved):** what the callback supplies follows what was buffered. -/
theorem connWriteFromCBEx_sent {errno : Errno} {count : ℕ} {memory : Bool} {input : WriteFromCBInput}
    {r : SyncReturn}
    (haccept : ∀ x ∈ input.ssl, ∀ round ∈ x.1, ∀ call ∈ round.calls, ¬ FailsAfterShort call)
    (h : connWriteFromCBEx c errno count memory input = some r) (herr : r.errno = 0) :
    r.conn.wire ++ r.conn.buffered = c.wire ++ c.buffered ++ r.supplied ∧ c.wire <+: r.conn.wire := by
  have hkept : ∀ {ε : Type} {socketSend : ℕ → ℕ → ℕ → List (TransportAnswer ε) → Option SendReturn}
      {good : List (TransportAnswer ε) → Prop} {rounds : List (List (WriteCbRound ε) × Option Errno)}
      {s s' : WriteState} {err : Errno}, SendOk socketSend good →
      (∀ x ∈ rounds, ∀ round ∈ x.1, ∀ call ∈ round.calls, good call) →
      eventProcess (writeFromCB socketSend) id s rounds = some (err, s') → s.Kept s' := by
    intro ε socketSend good rounds s s' err hsend hgood hrun
    refine eventProcess_invariant (A := fun l : List (WriteCbRound ε) =>
      ∀ round ∈ l, ∀ call ∈ round.calls, good call) ?_ (fun _ hI => hI) hgood (.refl s) hrun
    exact fun s₁ a r s₂ hA hI hprocess => hI.trans ((writeFromCB_ok hsend hprocess).kept hA)
  simp only [connWriteFromCBEx] at h
  split at h
  next hrefused =>
    cases h
    exact absurd herr hrefused
  split at h
  · cases h
    cases herr
  · obtain ⟨⟨err, s⟩, hevent, rfl⟩ := Option.map_eq_some_iff.mp h
    have herr : err = 0 := herr
    subst herr
    have hempty := writeFromCB_dropped hevent
    have hall : WriteState.Kept { buffer := c.sendBuffer.getD [], count := count } s := by
      split at hevent
      · exact hkept sslSend_ok haccept hevent
      · exact hkept clearSend_ok (fun _ _ _ _ _ _ => trivial) hevent
    obtain ⟨data, hsupplied, hsent⟩ := hall.octets
    rw [List.nil_append] at hsupplied
    rw [hempty, List.append_nil, List.nil_append] at hsent
    refine ⟨?_, List.prefix_append _ _⟩
    show (c.wire ++ s.sent) ++ [] = c.wire ++ c.buffered ++ s.supplied
    rw [List.append_nil, hsent, hsupplied, List.append_assoc]
    rfl

end Sent

/-! ### Every call -/

/-- The implicit flush of a call that reads or connects. -/
def ConsumerCall.implicit : ConsumerCall → Option FlushInput
  | .write _ _ _ | .writeFromCB _ _ _ _ | .flush _ _ => none
  | .read _ first _ | .readToCB _ _ first _ | .readToConn _ _ first _ | .sslConnect _ _ first _
  | .sslAccept _ _ first _ | .sslDisconnect _ first _ | .disconnect _ first _ => some first

/-- `SocketSend` reports the prefix that is accepted, each time the call sends. -/
def ConsumerCall.Accepting : ConsumerCall → Prop
  | .write _ _ rounds => ∀ round ∈ rounds, round.flush.Accepting
  | .writeFromCB _ _ _ input => ∀ x ∈ input.ssl, ∀ round ∈ x.1, ∀ call ∈ round.calls, ¬ FailsAfterShort call
  | .flush _ input => input.Accepting
  | .read _ first _ | .readToCB _ _ first _ | .readToConn _ _ first _ | .sslConnect _ _ first _
  | .sslAccept _ _ first _ | .sslDisconnect _ first _ | .disconnect _ first _ => first.Accepting

/-- What the consumer writes with a call. -/
def ConsumerCall.written (r : SyncReturn) : ConsumerCall → List UInt8
  | .write _ data _ => data
  | .writeFromCB _ _ _ _ => r.supplied
  | _ => []

section Calls

variable {iob : IOBufferLib} {c : SyncConn} {r : SyncReturn}

/-- A call that reports nothing was not refused. -/
theorem not_refused_of_silent {err : Errno} {result : Option Bool} {rest : Option SyncReturn}
    (h : (if err ≠ 0 then some (.refused c err result) else rest) = some r) (hok : ¬ r.Reported) :
    rest = some r := by
  by_cases herr : err = 0
  · rwa [if_neg (not_not.mpr herr)] at h
  · rw [if_pos herr] at h
    cases h
    exact absurd (.inl herr) hok

/-- What is known of a call that reads or connects, once its implicit flush completes. -/
theorem afterFlush_sent {first : FlushInput} {err : Errno} {dropped : List UInt8} {c' : SyncConn}
    (haccept : first.Accepting) (hquiet : c.buffered ≠ [] → first.Undisturbed c.sp.sslConn.isSome)
    (h : c.implicitFlush first = some (err, dropped, c')) :
    c'.wire = c.wire ++ c.buffered ∧ c'.sendBuffer = none := by
  obtain ⟨hwire, _, hbuffer⟩ := implicitFlush_sent haccept h
  have herr := implicitFlush_undisturbed hquiet h
  subst herr
  rw [(implicitFlush_spec h).1 rfl, List.append_nil] at hwire
  exact ⟨hwire, hbuffer⟩

theorem flushAndRead_sent {event : ReadEvent} {first : FlushInput} {rounds : List (ReadInput × Option Errno)}
    (haccept : first.Accepting) (hquiet : c.buffered ≠ [] → first.Undisturbed c.sp.sslConn.isSome)
    (h : c.flushAndRead iob event first rounds = some r) :
    r.conn.wire = c.wire ++ c.buffered ∧ r.conn.sendBuffer = none := by
  unfold SyncConn.flushAndRead at h
  split at h
  · cases h
  next hflush =>
    obtain ⟨hwire, hbuffer⟩ := afterFlush_sent haccept hquiet hflush
    obtain ⟨⟨err, s⟩, _, rfl⟩ := Option.map_eq_some_iff.mp h
    exact ⟨hwire, hbuffer⟩

theorem flushAndConnect_sent {type : ConnEventType} {first : FlushInput} {input : ConnectInput}
    (haccept : first.Accepting) (hquiet : c.buffered ≠ [] → first.Undisturbed c.sp.sslConn.isSome)
    (h : c.flushAndConnect type first input = some r) :
    r.conn.wire = c.wire ++ c.buffered ∧ r.conn.sendBuffer = none := by
  unfold SyncConn.flushAndConnect at h
  split at h
  · cases h
  next hflush =>
    obtain ⟨hwire, hbuffer⟩ := afterFlush_sent haccept hquiet hflush
    obtain ⟨⟨err, s⟩, _, rfl⟩ := Option.map_eq_some_iff.mp h
    exact ⟨hwire, hbuffer⟩

/-- **Every call (proved):** when it reports nothing, what it wrote follows what was written before. -/
theorem call_sent {call : ConsumerCall} (h : call.run iob c = some r) (hok : ¬ r.Reported)
    (haccept : call.Accepting)
    (hquiet : ∀ first, call.implicit = some first → c.buffered ≠ [] →
      first.Undisturbed c.sp.sslConn.isSome) :
    r.conn.wire ++ r.conn.buffered = c.wire ++ c.buffered ++ call.written r ∧ c.wire <+: r.conn.wire := by
  have herrno : r.errno = 0 := by
    by_contra hne
    exact hok (.inl hne)
  -- a call whose flush leaves nothing behind, and that writes nothing itself
  have hflushed : r.conn.wire = c.wire ++ c.buffered ∧ r.conn.sendBuffer = none →
      r.conn.wire ++ r.conn.buffered = c.wire ++ c.buffered ++ [] ∧ c.wire <+: r.conn.wire := by
    rintro ⟨hwire, hbuffer⟩
    rw [SyncConn.buffered, hbuffer, hwire]
    exact ⟨rfl, List.prefix_append _ _⟩
  cases call with
  | write errno data rounds =>
    exact syncWriteClientData_sent haccept (not_refused_of_silent h hok) herrno
  | writeFromCB errno count memory input => exact connWriteFromCBEx_sent haccept h herrno
  | flush errno input =>
    obtain ⟨⟨err, dropped, c'⟩, hflush, rfl⟩ := Option.map_eq_some_iff.mp (not_refused_of_silent h hok)
    obtain ⟨hwire, hprefix, hbuffer⟩ := implicitFlush_sent haccept hflush
    rw [(implicitFlush_spec hflush).1 herrno, List.append_nil] at hwire
    exact hflushed ⟨hwire, hbuffer⟩
  | read call first rounds =>
    exact hflushed (flushAndRead_sent haccept (hquiet first rfl) (not_refused_of_silent h hok))
  | readToCB errno count first rounds =>
    exact hflushed (flushAndRead_sent haccept (hquiet first rfl) (not_refused_of_silent h hok))
  | readToConn errno count first rounds =>
    exact hflushed (flushAndRead_sent haccept (hquiet first rfl) (not_refused_of_silent h hok))
  | sslConnect errno tls first input =>
    exact hflushed (flushAndConnect_sent haccept (hquiet first rfl)
      (not_refused_of_silent (not_refused_of_silent h hok) hok))
  | sslAccept errno tls first input =>
    exact hflushed (flushAndConnect_sent haccept (hquiet first rfl)
      (not_refused_of_silent (not_refused_of_silent h hok) hok))
  | sslDisconnect errno first input =>
    have hsecured := not_refused_of_silent h hok
    split at hsecured
    · cases hsecured
      cases herrno
    · exact hflushed (flushAndConnect_sent haccept (hquiet first rfl) hsecured)
  | disconnect errno first input =>
    exact hflushed (flushAndConnect_sent haccept (hquiet first rfl)
      (not_refused_of_silent (not_refused_of_silent h hok) hok))

end Calls

/-! ### What is dropped -/

section Dropped

variable {iob : IOBufferLib} {c : SyncConn} {r : SyncReturn}

/-- A call that is refused drops nothing. -/
theorem not_refused {err : Errno} {result : Option Bool} {rest : Option SyncReturn}
    (h : (if err ≠ 0 then some (.refused c err result) else rest) = some r) (hdropped : r.dropped ≠ []) :
    rest = some r := by
  by_cases herr : err = 0
  · rwa [if_neg (not_not.mpr herr)] at h
  · rw [if_pos herr] at h
    cases h
    exact absurd rfl hdropped

/-- An implicit flush that is not disturbed drops nothing. -/
theorem implicitFlush_dropped {first : FlushInput} {err : Errno} {dropped : List UInt8} {c' : SyncConn}
    (hquiet : c.buffered ≠ [] → first.Undisturbed c.sp.sslConn.isSome)
    (h : c.implicitFlush first = some (err, dropped, c')) : dropped = [] :=
  (implicitFlush_spec h).1 (implicitFlush_undisturbed hquiet h)

theorem flushAndRead_dropped {event : ReadEvent} {first : FlushInput}
    {rounds : List (ReadInput × Option Errno)}
    (hquiet : c.buffered ≠ [] → first.Undisturbed c.sp.sslConn.isSome)
    (h : c.flushAndRead iob event first rounds = some r) : r.dropped = [] := by
  unfold SyncConn.flushAndRead at h
  split at h
  · cases h
  next hflush =>
    obtain ⟨⟨err, s⟩, _, rfl⟩ := Option.map_eq_some_iff.mp h
    exact implicitFlush_dropped hquiet hflush

theorem flushAndConnect_dropped {type : ConnEventType} {first : FlushInput} {input : ConnectInput}
    (hquiet : c.buffered ≠ [] → first.Undisturbed c.sp.sslConn.isSome)
    (h : c.flushAndConnect type first input = some r) : r.dropped = [] := by
  unfold SyncConn.flushAndConnect at h
  split at h
  · cases h
  next hflush =>
    obtain ⟨⟨err, s⟩, _, rfl⟩ := Option.map_eq_some_iff.mp h
    exact implicitFlush_dropped hquiet hflush

/-- **A call whose implicit flush is not disturbed (proved):** if it drops octets, it reports that. -/
theorem call_reported {call : ConsumerCall} (h : call.run iob c = some r)
    (hquiet : ∀ first ∈ call.implicit, c.buffered ≠ [] → first.Undisturbed c.sp.sslConn.isSome)
    (hdropped : r.dropped ≠ []) : r.Reported := by
  cases call with
  | write errno data rounds =>
    exact .inl fun h0 => hdropped (syncWriteClientData_dropped (not_refused h hdropped) h0)
  | writeFromCB errno count memory input =>
    refine .inl fun h0 => ?_
    have hrun := not_refused h hdropped
    split at hrun
    · cases hrun
      exact hdropped rfl
    · obtain ⟨⟨err, s⟩, hevent, rfl⟩ := Option.map_eq_some_iff.mp hrun
      have herr : err = 0 := h0
      subst herr
      exact hdropped (writeFromCB_dropped hevent)
  | flush errno input =>
    refine .inl fun h0 => ?_
    obtain ⟨⟨err, dropped, c'⟩, hflush, rfl⟩ := Option.map_eq_some_iff.mp (not_refused h hdropped)
    exact hdropped ((implicitFlush_spec hflush).1 h0)
  -- a call that reads or connects drops nothing
  | read call first rounds =>
    exact absurd (flushAndRead_dropped (hquiet first rfl) (not_refused h hdropped)) hdropped
  | readToCB errno count first rounds =>
    exact absurd (flushAndRead_dropped (hquiet first rfl) (not_refused h hdropped)) hdropped
  | readToConn errno count first rounds =>
    exact absurd (flushAndRead_dropped (hquiet first rfl) (not_refused h hdropped)) hdropped
  | sslConnect errno tls first input =>
    have hrun := not_refused (not_refused h hdropped) hdropped
    exact absurd (flushAndConnect_dropped (hquiet first rfl) hrun) hdropped
  | sslAccept errno tls first input =>
    have hrun := not_refused (not_refused h hdropped) hdropped
    exact absurd (flushAndConnect_dropped (hquiet first rfl) hrun) hdropped
  | sslDisconnect errno first input =>
    have hsecured := not_refused h hdropped
    split at hsecured
    · cases hsecured
      exact absurd rfl hdropped
    · exact absurd (flushAndConnect_dropped (hquiet first rfl) hsecured) hdropped
  | disconnect errno first input =>
    have hrun := not_refused (not_refused h hdropped) hdropped
    exact absurd (flushAndConnect_dropped (hquiet first rfl) hrun) hdropped

/-- **Every sequence of calls whose implicit flushes are not disturbed (proved):** the calls that drop octets report
it. -/
theorem dropped_reported {calls : List ConsumerCall} {runs : List SyncRun} (h : syncRun iob c calls = some runs)
    (hquiet : ∀ x ∈ runs, ∀ first ∈ x.call.implicit, x.before.buffered ≠ [] →
      first.Undisturbed x.before.sp.sslConn.isSome) :
    ∀ x ∈ runs, x.ret.dropped ≠ [] → x.ret.Reported := by
  induction calls generalizing c runs with
  | nil =>
    cases h
    simp
  | cons call calls ih =>
    simp only [syncRun] at h
    split at h
    · cases h
    next r hr =>
      obtain ⟨rest, hrest, rfl⟩ := Option.map_eq_some_iff.mp h
      rw [List.forall_mem_cons] at hquiet ⊢
      exact ⟨call_reported hr hquiet.1, ih hrest hquiet.2⟩

/-! ### A flush that times out -/

/-- The peer does not take any octets until the flush gives up. -/
def FlushInput.timesOut : FlushInput :=
  ⟨.onePiece, [([[.fails Errno.ewouldblock]], some Errno.etimedout)], []⟩

/-- The peer makes the flush wait once, and then takes one octet. -/
def FlushInput.takesOne : FlushInput :=
  ⟨.onePiece, [([[.fails Errno.ewouldblock]], some 0), ([[.accepts 1]], none)], []⟩

theorem FlushInput.takesOne_undisturbed : FlushInput.takesOne.Undisturbed false := by
  intro x hx
  rcases List.mem_pair.mp hx with rfl | rfl
  · simp
  · simp

/-- A write that stays in the buffer. -/
def bufferedWrite : ConsumerCall := .write 0 [71] [⟨true, .timesOut⟩]

/-- A read that one octet answers. -/
def answeredRead (first : FlushInput) : ConsumerCall :=
  .read (connReadEx ⟨true, 16⟩) first
    [(⟨none, some (.conditional [⟨0, some (some (.data [72]))⟩, ⟨0, none⟩])⟩, none)]

/-- What a call shows of a flush. -/
def SyncReturn.seen (r : SyncReturn) : Errno × Option Bool × List UInt8 := (r.errno, r.result, r.dropped)

theorem syncRun_calls {calls : List ConsumerCall} {runs : List SyncRun} (h : syncRun iob c calls = some runs) :
    runs.map SyncRun.call = calls := by
  induction calls generalizing c runs with
  | nil =>
    cases h
    rfl
  | cons call calls ih =>
    simp only [syncRun] at h
    split at h
    · cases h
    · obtain ⟨rest, hrest, rfl⟩ := Option.map_eq_some_iff.mp h
      rw [List.map_cons, ih hrest]

/-- The implicit flush of `ConnRead` waits and completes; `ConnFlush` times out and reports what is dropped. -/
theorem dropped_reported_flush : ∃ runs, syncRun .onePiece (.new (some 3))
    [bufferedWrite, answeredRead .takesOne, bufferedWrite, .flush 0 .timesOut] = some runs ∧
      runs.map (fun x => x.ret.dropped) = [[], [], [], [71]] ∧
      ∀ x ∈ runs, x.ret.dropped ≠ [] → x.ret.Reported := by
  have hseen : (syncRun .onePiece (.new (some 3))
      [bufferedWrite, answeredRead .takesOne, bufferedWrite, .flush 0 .timesOut]).map (fun runs =>
        (runs.map fun x => x.ret.dropped, runs.map fun x => x.before.sp.sslConn)) =
      some ([[], [], [], [71]], [none, none, none, none]) := by
    decide +kernel
  obtain ⟨runs, hrun, hobs⟩ := Option.map_eq_some_iff.mp hseen
  obtain ⟨hdropped, hclear⟩ := Prod.mk.inj hobs
  refine ⟨runs, hrun, hdropped, dropped_reported hrun fun x hx first hfirst _ => ?_⟩
  have hcall := syncRun_calls hrun ▸ List.mem_map_of_mem (f := SyncRun.call) hx
  have hssl : x.before.sp.sslConn = none := by
    have h := hclear ▸ List.mem_map_of_mem (f := fun x : SyncRun => x.before.sp.sslConn) hx
    simpa using h
  rw [hssl]
  simp only [List.mem_cons, List.not_mem_nil, or_false] at hcall
  rcases hcall with h | h | h | h <;> rw [h] at hfirst <;> cases hfirst
  exact FlushInput.takesOne_undisturbed

/-- **`ConnRead` with a flush that times out does not (proved):** the read that follows the flush is answered. -/
theorem dropped_silently : ¬ ∀ (iob : IOBufferLib) (number : ℕ) (calls : List ConsumerCall) (runs : List SyncRun),
    syncRun iob (.new (some number)) calls = some runs →
      ∀ x ∈ runs, x.ret.dropped ≠ [] → x.ret.Reported := by
  intro hall
  have hseen : (syncRun .onePiece (.new (some 3)) [bufferedWrite, answeredRead .timesOut]).map
        (fun runs => runs.map fun x => x.ret.seen) = some [(0, none, []), (0, none, [71])] := by
    decide +kernel
  obtain ⟨runs, hrun, hobs⟩ := Option.map_eq_some_iff.mp hseen
  obtain ⟨x, hx, hsilent⟩ := List.mem_map.mp (hobs ▸ List.mem_cons_of_mem _ List.mem_cons_self :
    (0, none, [71]) ∈ runs.map fun x => x.ret.seen)
  simp only [SyncReturn.seen, Prod.mk.injEq] at hsilent
  obtain ⟨herrno, hresult, hdropped⟩ := hsilent
  rcases hall .onePiece 3 _ runs hrun x hx (by rw [hdropped]; decide) with h | h
  · exact h herrno
  · rw [hresult] at h
    cases h

end Dropped

end Connio
