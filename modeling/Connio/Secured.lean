import Connio.StreamInv

/-!
# A secured conn is not used in clear

Whether octets go in clear is decided by `ssl.conn` alone, which the events of SSL write.

* `Unbroken` — on a socket on which a session has been established every call goes through SSL, until an SSL disconnect
  completes;
* `KeepsSession` — the step is not the abort of an event of SSL on such a socket;
* `recordedStep_unbroken` — **PROVED**: from an unbroken conn a step leads to one exactly when it keeps the session;
* `reachable_unbroken` — **PROVED**: a run of such steps is unbroken;
* `second_tls_breaks` — **PROVED**: a second handshake breaks the session, and the next write goes in clear.
-/

namespace Connio

open Connio.Lib

/-- **A secured conn is not used in clear.** -/
structure Unbroken (r : Recorded) : Prop where
  /-- the session that has been established on the open socket is in place -/
  session : ∀ n, r.book.session = some n → r.system.conn.sp.number = some n ∧ r.system.conn.sp.sslConn ≠ none
  /-- each call of `SocketSend` and `SocketReceive` beside one has gone through it -/
  exchanges : ∀ x ∈ r.book.exchanges, x.guarded = true → x.secured = true

/-- The step does not abort an event of SSL on a socket with a session. -/
def KeepsSession (r : Recorded) (a : StreamAction) : Prop :=
  r.system.abortsSession a = true → r.book.session = none

instance (r : Recorded) (a : StreamAction) : Decidable (KeepsSession r a) :=
  inferInstanceAs (Decidable (_ = true → _ = none))

section

variable {r t : Recorded} {a : StreamAction}

/-- The abort of an event of SSL gives the session up, and leaves the socket open. -/
theorem streamStep_abort {s s' : StreamSystem} (h : StreamInv s) (hs : streamStep s a = some s')
    (habort : s.abortsSession a = true) :
    s'.conn.sp.sslConn = none ∧ s'.conn.sp.number = s.conn.sp.number ∧ s.disconnects a = false := by
  cases streamStep_move h hs with
  | rest moving _ =>
    rw [StreamSystem.abortsSession, moving] at habort
    cases habort
  | @work c c' e m stage stage' moving step sp _ after number _ =>
    rw [StreamSystem.abortsSession, moving] at habort
    cases m with
    | abort =>
      cases stage with
      | aborting =>
        cases step
        have hsp : (socketEventAbort c e).sp = socketSSLAbort c.sp := by
          unfold socketEventAbort
          cases htype : c.typeOf e <;> simp only [htype] at habort ⊢ <;> cases habort
        have hnumber : c.sp.number = s.conn.sp.number := congrArg SOCK.number sp
        rw [hsp] at number
        refine ⟨?_, number.trans hnumber, by rw [StreamSystem.disconnects, moving]⟩
        rw [after.sslConn, hsp]
        rfl
      | _ => cases step
    | _ => cases habort

/-- What the book says of the session after a step. -/
theorem record_session (hinv : StreamInv r.system) (h : Unbroken r) (hs : recordedStep r a = some t) {n : ℕ}
    (hn : t.book.session = some n) : t.system.conn.sp.number = some n ∧
      (t.system.conn.sp.sslConn ≠ none ∨ (r.system.abortsSession a = true ∧ r.book.session ≠ none)) := by
  obtain ⟨s', hstep, rfl⟩ := Option.map_eq_some_iff.mp hs
  simp only [Book.record] at hn
  split at hn
  next hestablished => exact ⟨hn, .inl hestablished.2⟩
  split at hn
  · cases hn
  next hkept =>
    simp only [not_or, not_not] at hkept
    obtain ⟨hdisconnects, hnumber⟩ := hkept
    refine ⟨hnumber.trans hn, ?_⟩
    have hsecured := (h.session n hn).2
    rcases streamStep_session hinv hstep with hsame | ⟨hnone, _⟩ | ⟨_, hends⟩
    · exact .inl (hsame ▸ hsecured)
    · exact absurd hnone hsecured
    · exact .inr ⟨hends.resolve_left hdisconnects, by rw [hn]; exact Option.some_ne_none n⟩

/-- **One step (proved):** the conn stays unbroken exactly when the step keeps the session. -/
theorem recordedStep_unbroken (hinv : StreamInv r.system) (h : Unbroken r) (hs : recordedStep r a = some t) :
    Unbroken t ↔ KeepsSession r a := by
  constructor
  · intro ht habort
    obtain ⟨s', hstep, rfl⟩ := Option.map_eq_some_iff.mp hs
    obtain ⟨hnone, hnumber, hdisconnects⟩ := streamStep_abort hinv hstep habort
    by_contra hsession
    obtain ⟨n, hn⟩ := Option.ne_none_iff_exists'.mp hsession
    -- the book still has the session
    have hkept : (r.book.record r.system a s').session = some n := by
      simp only [Book.record]
      rw [if_neg (fun hnew => (h.session n hn).2 hnew.1), if_neg, hn]
      rintro (htrue | hne)
      · exact absurd (hdisconnects.symm.trans htrue) Bool.false_ne_true
      · exact hne (hnumber.trans ((h.session n hn).1.trans hn.symm))
    exact (ht.session n hkept).2 hnone
  · intro hkeeps
    refine ⟨fun n hn => ?_, ?_⟩
    · obtain ⟨hnumber, hsecured | ⟨habort, hsession⟩⟩ := record_session hinv h hs hn
      · exact ⟨hnumber, hsecured⟩
      · exact absurd (hkeeps habort) hsession
    · obtain ⟨s', hstep, rfl⟩ := Option.map_eq_some_iff.mp hs
      intro x hx hguarded
      rcases List.mem_append.mp hx with hx | hx
      · exact h.exchanges x hx hguarded
      · split at hx
        · rw [List.mem_singleton.mp hx] at hguarded ⊢
          obtain ⟨n, hn⟩ := Option.isSome_iff_exists.mp hguarded
          exact Option.isSome_iff_ne_none.mpr (h.session n hn).2
        · cases hx

/-- **Every run (proved):** when no event of SSL is aborted on a socket with a session, no call goes in clear. -/
theorem reachable_unbroken {r₀ : Recorded} (hinit : r₀.Initial)
    (h : ReachableVia (enabled recordedStep) KeepsSession r₀ r) : Unbroken r := by
  have hstart : StreamInv r₀.system ∧ Unbroken r₀ := by
    refine ⟨.initial hinit.1, ?_, ?_⟩ <;> rw [hinit.2]
    · exact fun n hn => by cases hn
    · exact fun x hx => by cases hx
  refine (h.invariant (P := fun r => StreamInv r.system ∧ Unbroken r) hstart ?_).2
  rintro r a t ⟨hinv, hunbroken⟩ hkeeps hstep
  have hinv' : StreamInv t.system := by
    obtain ⟨s', hs', rfl⟩ := Option.map_eq_some_iff.mp hstep
    exact streamStep_inv hinv hs'
  exact ⟨hinv', (recordedStep_unbroken hinv hunbroken hstep).mpr hkeeps⟩

/-- A client secures its conn, and writes. -/
theorem reachable_unbroken_client : ∃ r, ReachableVia (enabled recordedStep) KeepsSession (.new (some 3)) r ∧
    r.book.exchanges = [⟨true, true⟩] ∧ Unbroken r := by
  have hseen : (runFrom (guarded KeepsSession recordedStep) (.new (some 3))
      (tlsRun 0 [] .success ++ .async (.relock ⟨0, .returned .complete⟩) :: endRun ++ sendRun)).map
        (fun r => r.book.exchanges) = some [⟨true, true⟩] := by decide +kernel
  obtain ⟨r, hr, hobs⟩ := Option.map_eq_some_iff.mp hseen
  have hrun := reachableVia_of_runFrom hr
  exact ⟨r, hrun, hobs, reachable_unbroken (Recorded.new_initial (some 3)) hrun⟩

/-- A conn is secured; a second event of TLS fails with `ECONNALREADYSECURED`, and then a write is sent. -/
def secondTlsRun : List StreamAction :=
  tlsRun 0 [] .success ++ .async (.relock ⟨0, .returned .complete⟩) :: tlsRun 1 [0] .success ++
    [.async (.work ⟨1, .aborting⟩ .abort), .async (.work ⟨1, .aborted⟩ .judge),
      .async (.relock ⟨1, .returned .failed⟩)] ++ endRun ++ sendRun

/-- **A second handshake breaks the session (proved):** the write after it goes in clear. -/
theorem second_tls_breaks : ¬ ∀ r₀ r : Recorded, r₀.Initial → Reachable (enabled recordedStep) r₀ r → Unbroken r := by
  intro hall
  have hseen : (runFrom recordedStep (.new (some 3)) secondTlsRun).map (fun r => r.book.exchanges) =
      some [⟨true, false⟩] := by decide +kernel
  obtain ⟨r, hr, hobs⟩ := Option.map_eq_some_iff.mp hseen
  have hbad := (hall _ r (Recorded.new_initial (some 3)) (reachable_of_runFrom hr)).exchanges ⟨true, false⟩
  rw [hobs] at hbad
  exact absurd (hbad (List.mem_singleton.mpr rfl) rfl) Bool.false_ne_true

end

end Connio
