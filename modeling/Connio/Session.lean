import Connio.Duplex

/-!
# The SSL session and the receive buffer

What a thread that processes an event does to `ssl.conn`, which decides whether the socket is used in clear, and to the
receive buffer.

* `StageMove.obtained` — the octets that a step obtains from `SocketReceive`;
* `SameSession` — a step that touches neither;
* `eventProcessStep_buffer`, `eventProcessStep_session` — **PROVED**: what each step does to them;
* `eventProcessStep_sealed` — **PROVED**: a handshake leaves the receive buffer alone, and completes in its SSL call.
-/

namespace Connio

open Connio.Lib

/-! ### A thread that processes an event -/

/-- The session and the receive buffer are as before. -/
structure SameSession (c c' : Conn) : Prop where
  sslConn : c'.sp.sslConn = c.sp.sslConn
  receiveBuffer : c'.receiveBuffer = c.receiveBuffer

namespace SameSession

variable {c c' c'' : Conn}

theorem refl (c : Conn) : SameSession c c := ⟨rfl, rfl⟩

theorem trans (h : SameSession c c') (h' : SameSession c' c'') : SameSession c c'' :=
  ⟨h'.sslConn.trans h.sslConn, h'.receiveBuffer.trans h.receiveBuffer⟩

theorem clientBufferFree (c : Conn) (e : EventId) : SameSession c (clientBufferFree c e) := by
  unfold Connio.clientBufferFree
  simp only []
  split <;> exact ⟨rfl, rfl⟩

theorem connEventFreeResources (c : Conn) (e : EventId) : SameSession c (connEventFreeResources c e) := by
  have hframe := connEventFreeResources_lockFrame c e
  exact ⟨hframe.sslConn, hframe.receiveBuffer⟩

theorem connEventProcessEnd (c : Conn) (e : EventId) (status : ConnEventStatus) :
    SameSession c (connEventProcessEnd c e status).2 :=
  (connEventFreeResources c e).trans ⟨rfl, rfl⟩

theorem socketEventComplete (c : Conn) (e : EventId) : SameSession c (socketEventComplete c e) := by
  unfold Connio.socketEventComplete
  split
  · exact clientBufferFree c e
  · exact ⟨rfl, rfl⟩
  · exact refl c

theorem processReturned (c : Conn) (e : EventId) (r : Errno × SocketEventType) :
    SameSession c (processReturned c e r).2 := by
  obtain ⟨err, blockedOn⟩ := r
  simp only [Connio.processReturned]
  split
  · exact (socketEventComplete c e).trans (connEventProcessEnd _ e _)
  · split <;> exact ⟨rfl, rfl⟩

end SameSession

theorem socketEventWaitEx_sslConn (sp : SOCK) (type : SocketEventType) (e : EventId) (epollErr : Errno) :
    (socketEventWaitEx sp type e epollErr).2.sslConn = sp.sslConn := by
  unfold socketEventWaitEx
  split
  · rfl
  · split
    · rfl
    · split
      · rfl
      · split <;> rfl

/-- The octets that a step of a thread obtains from `SocketReceive`; those of `drainWire` are thrown away. -/
def StageMove.obtained (c : Conn) (e : EventId) : StageMove → List Octet
  | .process (.receive data) =>
    if c.classOf e = .receive then data.map fun o => ⟨o, c.sp.sslConn.isSome⟩ else []
  | _ => []

/-- `socketEventAbort` gives the session up for an event of this type. -/
def ConnEventType.abortsSession (t : ConnEventType) : Bool := t.isHandshake || decide (t = .sslDisconnect)

section Work

variable {c c' : Conn} {e : EventId} {stage stage' : Stage} {m : StageMove}

/-- What a step inside `socketEventProcess` does to the receive buffer. -/
theorem processMove_buffer {m : ProcessMove} {r : Option (Errno × SocketEventType)}
    (h : processMove c e m = some (r, c')) :
    ∃ n, c'.receiveBuffer = (c.receiveBuffer ++ (StageMove.process m).obtained c e).drop n := by
  have hsame : ∀ {x : List Octet}, c'.receiveBuffer = c.receiveBuffer → x = [] →
      ∃ n, c'.receiveBuffer = (c.receiveBuffer ++ x).drop n := by
    intro x hbuf hx
    exact ⟨0, by rw [hbuf, hx, List.append_nil, List.drop_zero]⟩
  cases m with
  | receive data =>
    simp only [processMove] at h
    split at h
    next hclass =>
      cases h
      exact ⟨0, by rw [StageMove.obtained, if_pos hclass, List.drop_zero]; rfl⟩
    next hclass =>
      split at h <;> cases h
      exact hsame rfl (if_neg hclass)
  | deliver count taken =>
    simp only [processMove] at h
    split at h <;> cases h
    exact ⟨taken, (congrArg (List.drop taken) (List.append_nil c.receiveBuffer)).symm⟩
  | disconnectStart =>
    simp only [processMove] at h
    split at h
    · have hdrained : (c.receiveBuffer ++ ([] : List Octet)).drop c.receiveBuffer.length = [] := by simp
      refine ⟨c.receiveBuffer.length, Eq.trans ?_ hdrained.symm⟩
      split at h <;> cases h <;> rfl
    · cases h
  | send | ioCallback | connWrite | transfer | connectStart =>
    simp only [processMove] at h
    split at h <;> cases h
    exact hsame rfl rfl
  | shutdown ret =>
    simp only [processMove] at h
    split at h <;> cases h
    exact hsame rfl rfl
  | ret err blockedOn =>
    obtain ⟨_, _, heq⟩ := Option.map_eq_some_iff.mp h
    cases heq
    exact hsame rfl rfl

/-- What a step inside `socketEventProcess` does to the session. -/
theorem processMove_session {m : ProcessMove} {r : Option (Errno × SocketEventType)}
    (h : processMove c e m = some (r, c')) :
    c'.sp.sslConn = c.sp.sslConn ∨
      (m = .shutdown .success ∧ c.typeOf e = .sslDisconnect ∧ c'.sp.sslConn = none) := by
  cases m with
  | shutdown ret =>
    simp only [processMove] at h
    split at h <;> cases h
    next htype =>
      show (socketSSLDisconnect c.sp ret).2.sslConn = _ ∨ _
      unfold socketSSLDisconnect
      split
      · split
        next hret => exact .inr ⟨by rw [hret], htype, by simp [Conn.note, *]⟩
        · exact .inl rfl
      · exact .inl rfl
  | disconnectStart =>
    simp only [processMove] at h
    split at h
    · split at h <;> cases h <;> exact .inl rfl
    · cases h
  | receive data =>
    simp only [processMove] at h
    split at h
    · cases h
      exact .inl rfl
    · split at h <;> cases h
      exact .inl rfl
  | deliver | send | ioCallback | connWrite | transfer | connectStart =>
    simp only [processMove] at h
    split at h <;> cases h
    exact .inl rfl
  | ret err blockedOn =>
    obtain ⟨_, _, heq⟩ := Option.map_eq_some_iff.mp h
    cases heq
    exact .inl rfl

/-- `socketEventAbort` gives the session up for the events of SSL. -/
theorem socketEventAbort_session (c : Conn) (e : EventId) :
    (socketEventAbort c e).receiveBuffer = c.receiveBuffer ∧
      ((socketEventAbort c e).sp.sslConn = c.sp.sslConn ∨
        ((c.typeOf e).abortsSession = true ∧ (socketEventAbort c e).sp.sslConn = none)) := by
  unfold socketEventAbort
  split
  next => exact ⟨(SameSession.clientBufferFree c e).receiveBuffer, .inl (SameSession.clientBufferFree c e).sslConn⟩
  all_goals first
    | exact ⟨rfl, .inl rfl⟩
    | next htype => exact ⟨rfl, .inr ⟨by rw [htype]; rfl, rfl⟩⟩

/-- What the SSL call of a handshake does to the session. -/
theorem sslConnect_session (sp : SOCK) (new : Option ℕ) (ret : SslResult) :
    (sslConnect sp new ret).2.sslConn = sp.sslConn ∨ sp.sslConn = none := by
  unfold sslConnect
  split
  · exact .inl rfl
  next hnone => exact .inr hnone

theorem processReturned_session {c₁ : Conn} {r : Errno × SocketEventType} (h : processReturned c₁ e r = (stage', c')) :
    SameSession c₁ c' := by
  have hsame := SameSession.processReturned c₁ e r
  rw [h] at hsame
  exact hsame

theorem submitToEngine_session {blockedOn : SocketEventType} {epollErr : Errno}
    (h : submitToEngine c e blockedOn epollErr = (stage', c')) : SameSession c c' := by
  have hwait := socketEventWaitEx_sslConn c.sp blockedOn e epollErr
  unfold submitToEngine at h
  simp only [] at h
  split at h <;> cases h
  all_goals
    next heq => exact ⟨(congrArg (fun p => p.2.sslConn) heq).symm.trans hwait, rfl⟩

/-- **The receive buffer (proved):** a thread appends what it obtains and removes from the front. -/
theorem eventProcessStep_buffer (h : eventProcessStep c e stage m = some (stage', c')) :
    ∃ n, c'.receiveBuffer = (c.receiveBuffer ++ m.obtained c e).drop n := by
  have hkept : ∀ {c₁ : Conn} {x : List Octet} {n : ℕ}, c₁.receiveBuffer = (c.receiveBuffer ++ x).drop n →
      SameSession c₁ c' → ∃ n, c'.receiveBuffer = (c.receiveBuffer ++ x).drop n :=
    fun hbuf hsame => ⟨_, hsame.receiveBuffer.trans hbuf⟩
  have hstart : c.receiveBuffer = (c.receiveBuffer ++ ([] : List Octet)).drop 0 := by
    rw [List.append_nil, List.drop_zero]
  cases eventProcessStep_cases h with
  | destroy freeList hresult =>
    cases hresult
    exact ⟨0, ((connEventFreeListDestroy_lockFrame _ c).receiveBuffer).trans hstart⟩
  | move hmove hresult =>
    cases hresult
    exact processMove_buffer hmove
  | processed hmove hresult =>
    obtain ⟨n, hn⟩ := processMove_buffer hmove
    exact hkept hn (processReturned_session hresult)
  | overflow _ _ hresult => exact hkept hstart (processReturned_session hresult)
  | handshake new ret hresult => exact ⟨0, (processReturned_session hresult).receiveBuffer.trans hstart⟩
  | submit blockedOn epollErr hresult => exact hkept hstart (submitToEngine_session hresult)
  | start hresult | empty _ _ hresult | cancelled _ _ hresult | unproblematic _ _ hresult =>
    cases hresult
    exact ⟨0, hstart⟩
  | abort hresult =>
    cases hresult
    exact ⟨0, (socketEventAbort_session c e).1.trans hstart⟩
  | judge hresult =>
    cases hresult
    exact hkept hstart (SameSession.connEventProcessEnd c e _)

/-- **The session (proved):** a handshake begins it, an SSL disconnect that completes ends it, and the abort of an
event of SSL gives it up. -/
theorem eventProcessStep_session (h : eventProcessStep c e stage m = some (stage', c')) :
    c'.sp.sslConn = c.sp.sslConn ∨
      (stage = .handshaking ∧ c.sp.sslConn = none ∧ c'.receiveBuffer = c.receiveBuffer) ∨
      (c'.sp.sslConn = none ∧ ((m = .process (.shutdown .success) ∧ c.typeOf e = .sslDisconnect) ∨
        (m = .abort ∧ (c.typeOf e).abortsSession = true))) := by
  cases eventProcessStep_cases h with
  | destroy freeList hresult =>
    cases hresult
    exact .inl (connEventFreeListDestroy_lockFrame _ c).sslConn
  | move hmove hresult =>
    cases hresult
    rcases processMove_session hmove with hsame | ⟨rfl, htype, hnone⟩
    · exact .inl hsame
    · exact .inr (.inr ⟨hnone, .inl ⟨rfl, htype⟩⟩)
  | processed hmove hresult =>
    have hsession := (processReturned_session hresult).sslConn
    rcases processMove_session hmove with hsame | ⟨rfl, htype, hnone⟩
    · exact .inl (hsession.trans hsame)
    · exact .inr (.inr ⟨hsession.trans hnone, .inl ⟨rfl, htype⟩⟩)
  | overflow _ _ hresult => exact .inl (processReturned_session hresult).sslConn
  | handshake new ret hresult =>
    have hsame := processReturned_session hresult
    rcases sslConnect_session c.sp new ret with hkept | hnone
    · exact .inl (hsame.sslConn.trans hkept)
    · exact .inr (.inl ⟨rfl, hnone, hsame.receiveBuffer⟩)
  | submit blockedOn epollErr hresult => exact .inl (submitToEngine_session hresult).sslConn
  | start hresult | empty _ _ hresult | cancelled _ _ hresult | unproblematic _ _ hresult =>
    cases hresult
    exact .inl rfl
  | abort hresult =>
    cases hresult
    rcases (socketEventAbort_session c e).2 with hkept | ⟨haborts, hnone⟩
    · exact .inl hkept
    · exact .inr (.inr ⟨hnone, .inr ⟨rfl, haborts⟩⟩)
  | judge hresult =>
    cases hresult
    exact .inl (SameSession.connEventProcessEnd c e _).sslConn

/-- The process function of a handshake makes no call but that of SSL. -/
theorem processMove_handshake (htype : (c.typeOf e).isHandshake = true) (m : ProcessMove) : processMove c e m = none := by
  have hclass : c.classOf e = .connect := by
    rw [Conn.classOf]
    cases ht : c.typeOf e <;> first | rfl | (rw [ht] at htype; cases htype)
  cases m with
  | ret err blockedOn =>
    simp only [processMove, processReturn]
    cases ht : c.typeOf e <;> first | rfl | (rw [ht] at htype; cases htype)
  | _ =>
    simp only [processMove, hclass]
    cases ht : c.typeOf e <;> first | rfl | (rw [ht] at htype; cases htype)

theorem processReturned_stage {c₁ : Conn} {r : Errno × SocketEventType} (h : processReturned c₁ e r = (stage', c')) :
    stage' ≠ .handshaking ∧ (stage' = .returned .complete → r.1 = 0) := by
  obtain ⟨err, blockedOn⟩ := r
  simp only [processReturned] at h
  split at h
  next hzero =>
    cases h
    exact ⟨fun heq => (by cases heq), fun _ => hzero⟩
  · split at h <;> cases h <;> exact ⟨fun heq => (by cases heq), fun heq => (by cases heq)⟩

/-- **The event of a handshake (proved):** it does not touch the receive buffer, it calls SSL when this is empty, and
it completes in this call. -/
theorem eventProcessStep_sealed (htype : (c.typeOf e).isHandshake = true)
    (h : eventProcessStep c e stage m = some (stage', c')) :
    c'.receiveBuffer = c.receiveBuffer ∧ (stage' = .handshaking → c.receiveBuffer = []) ∧
      (stage' = .returned .complete → stage = .handshaking) := by
  cases eventProcessStep_cases h with
  | destroy freeList hresult =>
    cases hresult
    exact ⟨(connEventFreeListDestroy_lockFrame _ c).receiveBuffer, fun heq => (by cases heq), fun heq => (by cases heq)⟩
  | start hresult =>
    cases hresult
    refine ⟨rfl, fun heq => ?_, fun heq => ?_⟩ <;> split at heq <;> cases heq
  | move hmove | processed hmove =>
    rw [processMove_handshake htype] at hmove
    cases hmove
  | empty _ hempty hresult =>
    cases hresult
    exact ⟨rfl, fun _ => hempty, fun heq => by cases heq⟩
  | overflow _ _ hresult =>
    obtain ⟨hstage, hcomplete⟩ := processReturned_stage hresult
    have hbuffer := (processReturned_session hresult).receiveBuffer
    exact ⟨hbuffer, fun heq => absurd heq hstage, fun heq => (by cases hcomplete heq)⟩
  | handshake new ret hresult =>
    have hbuffer := (processReturned_session hresult).receiveBuffer
    exact ⟨hbuffer, fun heq => absurd heq (processReturned_stage hresult).1, fun _ => rfl⟩
  | submit blockedOn epollErr hresult =>
    have hsame := (submitToEngine_session hresult).receiveBuffer
    unfold submitToEngine at hresult
    simp only [] at hresult
    split at hresult <;> cases hresult <;> exact ⟨hsame, fun heq => (by cases heq), fun heq => (by cases heq)⟩
  | cancelled _ _ hresult | unproblematic _ _ hresult =>
    cases hresult
    exact ⟨rfl, fun heq => (by cases heq), fun heq => (by cases heq)⟩
  | abort hresult =>
    cases hresult
    exact ⟨(socketEventAbort_session c e).1, fun heq => (by cases heq), fun heq => (by cases heq)⟩
  | judge hresult =>
    cases hresult
    refine ⟨(SameSession.connEventProcessEnd c e _).receiveBuffer, fun heq => (by cases heq), fun heq => ?_⟩
    exact absurd (Stage.returned.inj heq) (abortStatus_ne_complete (c.events e))

end Work

end Connio
