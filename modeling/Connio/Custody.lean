import Connio.OutboundOrder

/-!
# What a call of the consumer holds

* `AsyncAction.keepsCaller`, `asyncStep_keepsCaller` — the steps that leave alone what a consumer's call holds;
* `Custody`, `outStep_custody` — **PROVED**: what a call of the consumer has allocated is given to `EventEnqueue` or
  freed, in every step.
-/

namespace Connio

open Connio.Lib

/-! ### The events of a call -/

/-- The steps in which no event of a consumer's call is allocated, handed over or freed. -/
def AsyncAction.keepsCaller : AsyncAction → Bool
  | .alloc _ _ | .enqueue (some _) _ _ | .free _ => false
  | _ => true

theorem AsyncSystem.outcome_caller (s : AsyncSystem) (r : Outcome × Conn) :
    (s.outcome r).caller = s.caller ∧ (s.outcome r).refused = s.refused := by
  obtain ⟨o, c⟩ := r
  rcases o with _ | (_ | _) <;> exact ⟨rfl, rfl⟩

theorem asyncStep_keepsCaller {s s' : AsyncSystem} {a : AsyncAction} (ha : a.keepsCaller = true)
    (h : asyncStep s a = some s') : s'.caller = s.caller ∧ s'.refused = s.refused := by
  cases a with
  | alloc => cases ha
  | free => cases ha
  | enqueue connEvent allocs source =>
    cases connEvent with
    | some e => cases ha
    | none =>
      simp only [asyncStep, AsyncSystem.enqueue] at h
      split at h <;> cases h
      split
      · exact AsyncSystem.outcome_caller _ _
      · exact ⟨rfl, rfl⟩
  | submit =>
    simp only [asyncStep] at h
    split at h <;> cases h
    · exact AsyncSystem.outcome_caller _ _
    · exact ⟨rfl, rfl⟩
  | work w m =>
    simp only [asyncStep] at h
    split at h
    · split at h <;> cases h
      exact ⟨rfl, rfl⟩
    · cases h
  | relock w =>
    simp only [asyncStep] at h
    split at h
    · split at h <;> cases h
      exact AsyncSystem.outcome_caller _ _
    · cases h
  | enter cb =>
    simp only [asyncStep] at h
    split at h <;> cases h
    exact AsyncSystem.outcome_caller _ _
  | destroy x | call x =>
    simp only [asyncStep] at h
    split at h
    · split at h <;> cases h
      exact ⟨rfl, rfl⟩
    · cases h
  | handle | store | prepare =>
    simp only [asyncStep] at h
    split at h <;> cases h
    exact ⟨rfl, rfl⟩
  | enqueueFailure | kill | handleAbort | writeAbort | shuttingDown | waitForSubmit | sendBuffer | pollReady
  | pollTimeout =>
    cases h
    exact ⟨rfl, rfl⟩

theorem eventEnqueue_isSome (c : Conn) (connEvent : Option EventId) (allocs : Allocs) (source : CodeSource) :
    (eventEnqueue c connEvent allocs source).isSome = queueingPermitted c := by
  simp only [eventEnqueue]
  split
  next hperm => split <;> exact hperm.symm
  next hperm => exact (Bool.eq_false_iff.mpr hperm).symm

/-- `EventEnqueue` takes the event, or leaves it with its caller. -/
theorem AsyncSystem.enqueue_caller (s : AsyncSystem) (e : EventId) (allocs : Allocs) (source : CodeSource) :
    (s.enqueue (some e) allocs source).caller = s.caller.erase e ∧
      (s.enqueue (some e) allocs source).refused =
        if queueingPermitted s.conn then s.refused else e :: s.refused := by
  have htaken := eventEnqueue_isSome s.conn (some e) allocs source
  unfold AsyncSystem.enqueue
  cases hr : eventEnqueue s.conn (some e) allocs source with
  | some r =>
    have hperm : queueingPermitted s.conn = true := htaken.symm.trans (by rw [hr]; rfl)
    rw [if_pos hperm]
    exact AsyncSystem.outcome_caller _ _
  | none =>
    have hperm : queueingPermitted s.conn = false := htaken.symm.trans (by rw [hr]; rfl)
    rw [hperm]
    exact ⟨rfl, rfl⟩

theorem AsyncAction.keepsCaller_of_isEngine {c : Conn} {a : AsyncAction} (h : a.isEngine c = true) :
    a.keepsCaller = true := by
  cases a with
  | enqueue connEvent => cases connEvent <;> first | rfl | cases h
  | alloc | free => cases h
  | _ => rfl

/-- **What a consumer's call holds:** the event it gives to `EventEnqueue` next, and nothing else. -/
structure Custody (s : OutSystem) : Prop where
  inv : AsyncInv s.sys
  caller : s.sys.caller = s.pending.toList.map Pending.event
  refused : s.sys.refused = []

namespace Custody

variable {s t : OutSystem}

/-- A step of the queue that is none of the call's. -/
theorem keep (h : Custody s) {a : AsyncAction} {sys : AsyncSystem} (hs : asyncStep s.sys a = some sys)
    (ha : a.keepsCaller = true) (hsys : t.sys = sys) (hpending : t.pending = s.pending) : Custody t := by
  obtain ⟨hcaller, hrefused⟩ := asyncStep_keepsCaller ha hs
  refine ⟨hsys ▸ (asyncStep_effect h.inv hs).1, ?_, ?_⟩
  · rw [hsys, hcaller, hpending, h.caller]
  · rw [hsys, hrefused, h.refused]

theorem report (h : Custody s) {a : AsyncAction} (ha : a.keepsCaller = true) (ht : s.report a = some t) :
    Custody t := by
  obtain ⟨sys, hs, rfl⟩ := Option.map_eq_some_iff.mp ht
  exact h.keep hs ha rfl rfl

theorem assign (h : Custody s) (hpending : s.pending = none) {e : EventId} {ce : ConnEvent} {held : WriteState}
    {abort : Bool} (ht : s.assign e ce held abort = some t) : Custody t := by
  obtain ⟨sys, hs, rfl⟩ := Option.map_eq_some_iff.mp ht
  have hinv := (asyncStep_effect h.inv hs).1
  simp only [asyncStep] at hs
  split at hs <;> cases hs
  refine ⟨hinv, ?_, h.refused⟩
  show e :: s.sys.caller = [e]
  rw [h.caller, hpending]
  rfl

theorem take (h : Custody s) (ht : s.take = some t) : Custody t ∧ t.pending = s.pending := by
  obtain ⟨sys, hs, rfl⟩ := Option.map_eq_some_iff.mp ht
  exact ⟨h.keep hs rfl rfl rfl, rfl⟩

theorem flushAEventCreate (h : Custody s) (hpending : s.pending = none) {content : List UInt8}
    {source : CodeSource} {flush : Option EventId} (ht : s.flushAEventCreate content source flush = some t) :
    Custody t := by
  cases flush with
  | some f => exact h.assign hpending ht
  | none => exact h.report rfl ht

theorem flushBuffered (h : Custody s) (hpending : s.pending = none) {source : CodeSource} {flush : Option EventId}
    (ht : s.flushBuffered source flush = some t) : Custody t := by
  obtain ⟨u, hu, ht⟩ := Option.bind_eq_some_iff.mp ht
  obtain ⟨hcustody, hsame⟩ := h.take hu
  split at ht
  · cases ht
    exact hcustody
  · exact hcustody.flushAEventCreate (hsame.trans hpending) ht

theorem beginWrite (h : Custody s) {data : List UInt8} {source : CodeSource}
    (ht : s.beginWrite data source = some t) : Custody t := by
  obtain ⟨sys, hs, rfl⟩ := Option.map_eq_some_iff.mp ht
  exact h.keep hs rfl rfl rfl

theorem writeRound (h : Custody s) (hpending : s.pending = none) {data : List UInt8} {source : CodeSource}
    {memory : Bool} {flush : Option EventId} (ht : s.writeRound data source memory flush = some t) : Custody t := by
  unfold OutSystem.writeRound at ht
  split at ht
  · exact report (s := { s with work := .none }) ⟨h.inv, h.caller, h.refused⟩ rfl ht
  split at ht
  · obtain ⟨sys, hs, rfl⟩ := Option.map_eq_some_iff.mp ht
    exact h.keep hs rfl rfl rfl
  · obtain ⟨u, hu, ht⟩ := Option.bind_eq_some_iff.mp ht
    obtain ⟨hcustody, hsame⟩ := h.take hu
    exact flushAEventCreate (s := { u with work := .write (data.drop (connIobSize - s.buffer.length)) source })
      ⟨hcustody.inv, hcustody.caller, hcustody.refused⟩ (hsame.trans hpending) ht

theorem largeBuffer (h : Custody s) (hpending : s.pending = none) {data : List UInt8} {source : CodeSource}
    {event : Option EventId} (ht : s.largeBuffer data source event = some t) : Custody t := by
  have hdone : Custody { s with work := .none } := ⟨h.inv, h.caller, h.refused⟩
  cases event with
  | some e => exact hdone.assign hpending ht
  | none => exact hdone.report rfl ht

theorem writeFromCB (h : Custody s) (hpending : s.pending = none) {count : ℕ} {source : CodeSource} {memory : Bool}
    {event : Option EventId} (ht : s.writeFromCB count source memory event = some t) : Custody t := by
  unfold OutSystem.writeFromCB at ht
  split at ht
  next e _ _ =>
    obtain ⟨u, hu, ht⟩ := Option.bind_eq_some_iff.mp ht
    obtain ⟨hcustody, hsame⟩ := h.take hu
    exact assign (s := { u with writes := s.writes ++ [Written.callback e] })
      ⟨hcustody.inv, hcustody.caller, hcustody.refused⟩ (hsame.trans hpending) ht
  next e _ =>
    obtain ⟨sys₁, hs₁, ht⟩ := Option.bind_eq_some_iff.mp ht
    obtain ⟨sys₂, hs₂, ht⟩ := Option.bind_eq_some_iff.mp ht
    have hinv₁ := (asyncStep_effect h.inv hs₁).1
    have hinv₂ := (asyncStep_effect hinv₁ hs₂).1
    have hfree : sys₂.caller = s.sys.caller ∧ sys₂.refused = s.sys.refused := by
      simp only [asyncStep] at hs₁
      split at hs₁ <;> cases hs₁
      simp only [asyncStep, List.mem_cons_self, if_true, List.erase_cons_head] at hs₂
      cases hs₂
      exact ⟨rfl, rfl⟩
    have hcustody : Custody { s with sys := sys₂ } := ⟨hinv₂, hfree.1.trans h.caller, hfree.2.trans h.refused⟩
    exact hcustody.report rfl ht
  · exact h.report rfl ht

theorem enqueue (h : Custody s) {p : Pending} (hp : s.pending = some p) {allocs : Allocs}
    (ht : s.enqueue p allocs = some t) : Custody t := by
  obtain ⟨sys, hs, ht⟩ := Option.bind_eq_some_iff.mp ht
  have hinv := (asyncStep_effect h.inv hs).1
  have hcaller : s.sys.caller = [p.event] := by
    rw [h.caller, hp]
    rfl
  have hsys : sys.caller = [] ∧ sys.refused = if queueingPermitted s.sys.conn then [] else [p.event] := by
    simp only [asyncStep] at hs
    split at hs <;> cases hs
    obtain ⟨htaken, hrefused⟩ := s.sys.enqueue_caller p.event allocs p.source
    rw [htaken, hrefused, hcaller, h.refused]
    exact ⟨List.erase_cons_head _ _, rfl⟩
  split at ht
  next hperm =>
    rw [if_pos hperm] at hsys
    split at ht <;> cases ht <;> exact ⟨hinv, hsys.1, hsys.2⟩
  next hperm =>
    rw [if_neg hperm] at hsys
    obtain ⟨sys', hs', ht⟩ := Option.bind_eq_some_iff.mp ht
    have hinv' := (asyncStep_effect hinv hs').1
    simp only [asyncStep, hsys.1, hsys.2, List.not_mem_nil, if_false, List.mem_singleton, if_true,
      List.erase_cons_head] at hs'
    have hcustody : Custody { s with sys := sys', pending := none, work := s.work.refused } := by
      cases hs'
      exact ⟨hinv', rfl, rfl⟩
    refine hcustody.report ?_ ht
    split <;> rfl

end Custody

/-- **Every step (proved):** what a call has allocated is handed over or freed. -/
theorem outStep_custody {s t : OutSystem} {a : OutAction} (h : Custody s) (hs : outStep s a = some t) :
    Custody t := by
  cases a with
  | engine a =>
    simp only [outStep] at hs
    split at hs
    next ha =>
      obtain ⟨sys, hstep, rfl⟩ := Option.map_eq_some_iff.mp hs
      exact h.keep hstep (AsyncAction.keepsCaller_of_isEngine ha) rfl rfl
    · cases hs
  | process w clear ssl =>
    simp only [outStep, OutSystem.process] at hs
    split at hs
    · obtain ⟨r, _, hs⟩ := Option.bind_eq_some_iff.mp hs
      obtain ⟨sys, hstep, rfl⟩ := Option.map_eq_some_iff.mp hs
      exact h.keep hstep rfl rfl rfl
    · cases hs
  | aWrite data source =>
    simp only [outStep] at hs
    split at hs
    · exact h.beginWrite hs
    · cases hs
  | aWriteFromBuffer data source flush =>
    simp only [outStep] at hs
    split at hs
    next hreturned =>
      split at hs
      · exact h.beginWrite hs
      · have hwritten : Custody { s with
            work := .clientBuffer data source
            writes := s.writes ++ data.map Written.octet } := ⟨h.inv, h.caller, h.refused⟩
        exact hwritten.flushBuffered hreturned.1 hs
    · cases hs
  | aWriteFromCB count source memory event =>
    simp only [outStep] at hs
    split at hs
    next hreturned => exact h.writeFromCB hreturned.1 hs
    · cases hs
  | aFlush source flush =>
    simp only [outStep] at hs
    split at hs
    next hreturned => exact h.flushBuffered hreturned.1 hs
    · cases hs
  | request e ce =>
    simp only [outStep] at hs
    split at hs
    next hready =>
      have hnoted : Custody { s with before := Function.update s.before e s.writes.length } :=
        ⟨h.inv, h.caller, h.refused⟩
      exact hnoted.assign hready.1.1 hs
    · cases hs
  | fail errno source =>
    simp only [outStep] at hs
    split at hs
    · exact h.report rfl hs
    · cases hs
  | round memory flush =>
    simp only [outStep] at hs
    split at hs
    next hpending _ => exact h.writeRound hpending hs
    · cases hs
  | largeBuffer event =>
    simp only [outStep] at hs
    split at hs
    next hpending _ => exact h.largeBuffer hpending hs
    · cases hs
  | enqueue allocs =>
    obtain ⟨p, hp, hs⟩ := Option.bind_eq_some_iff.mp hs
    exact h.enqueue hp hs
  | sync iob call =>
    simp only [outStep] at hs
    split at hs
    next hready =>
      obtain ⟨r, _, rfl⟩ := Option.map_eq_some_iff.mp hs
      exact ⟨h.inv.synced r, h.caller, h.refused⟩
    · cases hs

end Connio
