import Connio.QueueInv

/-!
# The account of written octets

What a consumer has written is on the wire, in the send event that is active, in the send events behind it, or
in no event yet.  This file keeps that account over the abstract queue, as long as no transaction has a
problem.

* `Written`, `octets` — what is written, one item after the other, and its octets;
* `Outgoing` — all that is known of the octets of a conn;
* `Accounts` — **the account:** every event holds the octets of its part of what was written, in the order of
  the queue; what was written before another event was queued is on the wire or ahead of it;
* `CleanStep`, `queueStep_clean` — **PROVED**: what a step of the queue does when there is no problem;
* `accounts_step`, `accounts_reachable` — **PROVED**: the steps of the queue keep the account.
-/

namespace Connio

open Connio.Lib

/-! ### Octets -/

/-- One item that is written: an octet, or all that the callback of an event supplies. -/
inductive Written where
  | octet (o : UInt8)
  | callback (e : EventId)
  deriving DecidableEq, Repr

def Written.callback? : Written → Option EventId
  | .octet _ => none
  | .callback e => some e

/-- The octets of one item. -/
def Written.octets (supplied : EventId → List UInt8) : Written → List UInt8
  | .octet o => [o]
  | .callback e => supplied e

/-- The octets of what was written, when the callbacks have supplied `supplied`. -/
def octets (supplied : EventId → List UInt8) (l : List Written) : List UInt8 :=
  l.flatMap (Written.octets supplied)

/-- The events whose callbacks supply octets. -/
def callbacks (l : List Written) : List EventId := l.filterMap Written.callback?

/-- The octets of a conn. -/
structure Outgoing where
  /-- all items, in the order of the calls -/
  writes : List Written
  supplied : EventId → List UInt8
  /-- what a send event still holds -/
  content : EventId → List UInt8
  /-- what the transport has accepted -/
  wire : List UInt8
  /-- how many items were written before an event was queued -/
  before : EventId → ℕ

/-- The send events of a list. -/
def sends (ty : EventId → ConnEventType) (l : List EventId) : List EventId :=
  l.filter fun e => (ty e).eventClass = .send

section Lists

variable {supplied supplied' : EventId → List UInt8} {ty ty' : EventId → ConnEventType} {l l' : List Written}

@[simp] theorem octets_nil : octets supplied [] = [] := rfl

@[simp] theorem octets_append : octets supplied (l ++ l') = octets supplied l ++ octets supplied l' :=
  List.flatMap_append

theorem octets_octet (data : List UInt8) : octets supplied (data.map .octet) = data := by
  induction data with
  | nil => rfl
  | cons o data ih =>
    show o :: octets supplied (data.map .octet) = _
    rw [ih]

/-- The octets depend on the callbacks in the list only. -/
theorem octets_congr (h : ∀ e ∈ callbacks l, supplied e = supplied' e) :
    octets supplied l = octets supplied' l := by
  induction l with
  | nil => rfl
  | cons x l ih =>
    show x.octets supplied ++ octets supplied l = x.octets supplied' ++ octets supplied' l
    cases x with
    | octet o => rw [ih h]; rfl
    | callback e =>
      have htail := ih fun y hy => h y (List.mem_cons_of_mem _ hy)
      have hhead : supplied e = supplied' e := h e List.mem_cons_self
      rw [htail]
      simp only [Written.octets, hhead]

theorem octets_mono (supplied : EventId → List UInt8) (h : l <+: l') : octets supplied l <+: octets supplied l' := by
  obtain ⟨x, rfl⟩ := h
  rw [octets_append]
  exact List.prefix_append _ _

/-- Events that hold the octets of their parts. -/
theorem octets_flatMap {part : EventId → List Written} {content : EventId → List UInt8} {es : List EventId}
    (h : ∀ e ∈ es, octets supplied (part e) = content e) :
    octets supplied (es.flatMap part) = es.flatMap content := by
  induction es with
  | nil => rfl
  | cons e es ih =>
    rw [List.flatMap_cons, octets_append, h e List.mem_cons_self,
      ih fun y hy => h y (List.mem_cons_of_mem _ hy), List.flatMap_cons]

@[simp] theorem callbacks_append : callbacks (l ++ l') = callbacks l ++ callbacks l' :=
  List.filterMap_append

@[simp] theorem callbacks_octet (data : List UInt8) : callbacks (data.map .octet) = [] := by
  induction data with
  | nil => rfl
  | cons o data ih => exact ih

@[simp] theorem sends_nil : sends ty [] = [] := rfl

@[simp] theorem sends_append (a b : List EventId) : sends ty (a ++ b) = sends ty a ++ sends ty b :=
  List.filter_append ..

theorem sends_send {e : EventId} (h : (ty e).eventClass = .send) (a : List EventId) :
    sends ty (e :: a) = e :: sends ty a := List.filter_cons_of_pos (by simp [h])

theorem sends_other {e : EventId} (h : (ty e).eventClass ≠ .send) (a : List EventId) :
    sends ty (e :: a) = sends ty a := List.filter_cons_of_neg (by simp [h])

theorem mem_sends {e : EventId} {a : List EventId} (h : e ∈ sends ty a) :
    e ∈ a ∧ (ty e).eventClass = .send := by
  simpa [sends] using h

theorem sends_congr {a : List EventId} (h : ∀ e ∈ a, ty e = ty' e) : sends ty a = sends ty' a :=
  List.filter_congr fun e he => by rw [h e he]

/-- Where an item of two lists stands. -/
theorem append_eq_middle {a b a' b' : List EventId} {x : EventId} (h : a ++ b = a' ++ x :: b') :
    (∃ c, a = a' ++ x :: c ∧ b' = c ++ b) ∨ ∃ c, a' = a ++ c ∧ b = c ++ x :: b' := by
  rcases List.append_eq_append_iff.mp h with ⟨c, ha', hb⟩ | ⟨c, ha, hb⟩
  · exact .inr ⟨c, ha', hb⟩
  · rcases List.cons_eq_append_iff.mp hb with ⟨hc, hxb⟩ | ⟨c', hc, hb'⟩
    · exact .inr ⟨[], by simp [ha, hc], hxb⟩
    · exact .inl ⟨c', by rw [ha, hc], hb'⟩

end Lists

/-! ### The account -/

/-- **The account of a conn** whose send event `active` is being sent, with `queue` behind it and the events of
`started` begun.  `done` is what the events before have sent, `part e` what `e` took over, and `rest` what is in
no event yet. -/
structure Accounts (ty : EventId → ConnEventType) (active : Option EventId) (queue started : List EventId)
    (o : Outgoing) (rest done : List Written) (part : EventId → List Written) : Prop where
  writes : o.writes = done ++ (active.toList ++ sends ty queue).flatMap part ++ rest
  current : octets o.supplied (done ++ active.toList.flatMap part) = o.wire ++ active.toList.flatMap o.content
  waiting : ∀ e ∈ sends ty queue, octets o.supplied (part e) = o.content e
  sent : octets o.supplied done <+: o.wire
  /-- what was written before an event that waits is on the wire, or in a send event ahead of it -/
  ahead : ∀ a e b, queue = a ++ e :: b → (ty e).eventClass ≠ .send →
    o.writes.take (o.before e) <+: done ++ (active.toList ++ sends ty a).flatMap part
  /-- what was written before a connect-class event that has begun is on the wire -/
  begun : ∀ e ∈ started, (ty e).eventClass = .connect → o.writes.take (o.before e) <+: done
  /-- what was written before a read that has begun is on the wire or in a send event -/
  past : ∀ e ∈ started, (ty e).eventClass ≠ .send →
    o.writes.take (o.before e) <+: done ++ (active.toList ++ sends ty queue).flatMap part
  /-- the callback comes after the octets that were in the buffer -/
  last : ∀ e ∈ active.toList ++ sends ty queue, ty e = .writeFromCb → ∃ l, part e = l ++ [.callback e]
  once : (callbacks o.writes).Nodup
  bound : ∀ e, o.before e ≤ o.writes.length

namespace Accounts

variable {ty ty' : EventId → ConnEventType} {active : Option EventId} {queue started : List EventId}
  {o : Outgoing} {rest done : List Written} {part : EventId → List Written} {e : EventId}

/-- The octets of what has been sent and of the first events of the queue. -/
theorem octets_held (h : Accounts ty active queue started o rest done part) {a : List EventId}
    (ha : ∀ e ∈ sends ty a, e ∈ sends ty queue) :
    octets o.supplied (done ++ (active.toList ++ sends ty a).flatMap part) =
      o.wire ++ (active.toList ++ sends ty a).flatMap o.content := by
  rw [List.flatMap_append, List.flatMap_append, ← List.append_assoc, octets_append, h.current,
    octets_flatMap fun e he => h.waiting e (ha e he), List.append_assoc]

/-- **All octets (proved):** they are on the wire, in the events, or in none yet. -/
theorem total (h : Accounts ty active queue started o rest done part) :
    octets o.supplied o.writes =
      o.wire ++ (active.toList ++ sends ty queue).flatMap o.content ++ octets o.supplied rest := by
  rw [h.writes, octets_append, h.octets_held fun e he => he]

/-- The types of other events do not matter. -/
theorem congr (h : Accounts ty active queue started o rest done part)
    (hty : ∀ e ∈ active.toList ++ queue ++ started, ty' e = ty e) :
    Accounts ty' active queue started o rest done part := by
  have hactive : ∀ e ∈ active.toList, ty' e = ty e := fun e he => hty e (by simp [he])
  have hqueue : ∀ e ∈ queue, ty' e = ty e := fun e he => hty e (by simp [he])
  have hstarted : ∀ e ∈ started, ty' e = ty e := fun e he => hty e (by simp [he])
  have hsends : sends ty' queue = sends ty queue := sends_congr hqueue
  refine ⟨by rw [hsends]; exact h.writes, h.current, by rw [hsends]; exact h.waiting, h.sent, ?_, ?_, ?_, ?_,
    h.once, h.bound⟩
  · intro a x b hq hx
    rw [hqueue x (by simp [hq])] at hx
    rw [sends_congr fun y hy => hqueue y (by simp [hq, hy])]
    exact h.ahead a x b hq hx
  · intro x hx hclass
    rw [hstarted x hx] at hclass
    exact h.begun x hx hclass
  · intro x hx hclass
    rw [hstarted x hx] at hclass
    rw [hsends]
    exact h.past x hx hclass
  · rw [hsends]
    intro x hx htype
    have hmem : ty' x = ty x := by
      rcases List.mem_append.mp hx with hx | hx
      · exact hactive x hx
      · exact hqueue x (mem_sends hx).1
    exact h.last x hx (hmem ▸ htype)

/-- The active event has sent all it held. -/
theorem finish (h : Accounts ty (some e) queue started o rest done part) (hempty : o.content e = []) :
    Accounts ty none queue started o rest (done ++ part e) part := by
  have hcurrent := h.current
  simp only [Option.toList_some, List.flatMap_singleton, hempty, List.append_nil] at hcurrent
  refine ⟨?_, ?_, h.waiting, ?_, fun a x b hq hx => ?_, fun x hx hclass => ?_, fun x hx hclass => ?_,
    fun x hx => ?_, h.once, h.bound⟩
  · simpa using h.writes
  · simpa using hcurrent
  · exact hcurrent ▸ List.prefix_rfl
  · simpa using h.ahead a x b hq hx
  · exact (h.begun x hx hclass).trans (List.prefix_append _ _)
  · simpa using h.past x hx hclass
  · exact h.last x (List.mem_append_right _ (by simpa using hx))

/-- The first send event of the queue becomes active. -/
theorem startSend {a b : List EventId} (h : Accounts ty none (a ++ e :: b) started o rest done part)
    (hclass : (ty e).eventClass = .send) (ha : sends ty a = []) :
    Accounts ty (some e) (a ++ b) (e :: started) o rest done part := by
  have hsends : sends ty (a ++ e :: b) = e :: sends ty b := by rw [sends_append, ha, sends_send hclass]; rfl
  have hrest : sends ty (a ++ b) = sends ty b := by rw [sends_append, ha]; rfl
  have hcurrent := h.current
  simp only [Option.toList_none, List.flatMap_nil, List.append_nil] at hcurrent
  have hwaiting := h.waiting
  rw [hsends] at hwaiting
  refine ⟨?_, ?_, fun x hx => ?_, h.sent, fun a' x b' hq hx => ?_, fun x hx hc => ?_, fun x hx hc => ?_,
    fun x hx => ?_, h.once, h.bound⟩
  · have hwrites := h.writes
    rw [hsends] at hwrites
    rw [hrest]
    simpa using hwrites
  · rw [octets_append, hcurrent]
    simp [hwaiting e List.mem_cons_self]
  · exact hwaiting x (List.mem_cons_of_mem _ (hrest ▸ hx))
  · rcases append_eq_middle hq with ⟨c, hac, _⟩ | ⟨c, hac, hbc⟩
    · -- nothing is sent ahead of the events that were overtaken
      have hnone : sends ty a' = [] := by
        rw [hac, sends_append, List.append_eq_nil_iff] at ha
        exact ha.1
      have hold := h.ahead a' x (c ++ e :: b) (by rw [hac]; simp) hx
      rw [hnone] at hold
      exact (by simpa using hold : _ <+: done).trans (List.prefix_append _ _)
    · have hold := h.ahead (a ++ e :: c) x b' (by rw [hbc]; simp) hx
      rw [sends_append, ha, sends_send hclass] at hold
      rw [hac, sends_append, ha]
      simpa using hold
  · rcases List.mem_cons.mp hx with rfl | hx
    · rw [hclass] at hc
      cases hc
    · exact h.begun x hx hc
  · rcases List.mem_cons.mp hx with rfl | hx
    · exact absurd hclass hc
    · have hold := h.past x hx hc
      rw [hsends] at hold
      rw [hrest]
      simpa using hold
  · rw [hrest] at hx
    exact h.last x (by rw [hsends]; simpa using hx)

/-- Another event of the queue begins, a connect-class event alone. -/
theorem startOther {a b : List EventId} (h : Accounts ty active (a ++ e :: b) started o rest done part)
    (hclass : (ty e).eventClass ≠ .send)
    (halone : (ty e).eventClass = .connect → a = [] ∧ active = none) :
    Accounts ty active (a ++ b) (e :: started) o rest done part := by
  have hsends : sends ty (a ++ e :: b) = sends ty (a ++ b) := by
    rw [sends_append, sends_other hclass, sends_append]
  refine ⟨by rw [← hsends]; exact h.writes, h.current, fun x hx => ?_, h.sent, fun a' x b' hq hx => ?_,
    fun x hx hc => ?_, fun x hx hc => ?_, fun x hx => ?_, h.once, h.bound⟩
  · exact h.waiting x (hsends ▸ hx)
  · rcases append_eq_middle hq with ⟨c, hac, _⟩ | ⟨c, hac, hbc⟩
    · exact h.ahead a' x (c ++ e :: b) (by rw [hac]; simp) hx
    · have hold := h.ahead (a ++ e :: c) x b' (by rw [hbc]; simp) hx
      rw [sends_append, sends_other hclass] at hold
      rw [hac, sends_append]
      exact hold
  · rcases List.mem_cons.mp hx with rfl | hx
    · obtain ⟨rfl, rfl⟩ := halone hc
      simpa using h.ahead [] x b rfl hclass
    · exact h.begun x hx hc
  · rw [← hsends]
    rcases List.mem_cons.mp hx with rfl | hx
    · apply (h.ahead a x b rfl hclass).trans
      rw [sends_append, List.flatMap_append, List.flatMap_append, List.flatMap_append]
      exact ⟨(sends ty (x :: b)).flatMap part, by simp⟩
    · exact h.past x hx hc
  · exact h.last x (hsends ▸ hx)

/-- A send event takes over the first of what is in no event yet. -/
theorem queueSend (new : List Written) (h : Accounts ty active queue started o (new ++ rest) done part)
    (hclass : (ty e).eventClass = .send) (hnew : e ∉ active.toList ++ queue)
    (hcontent : octets o.supplied new = o.content e)
    (hlast : ty e = .writeFromCb → ∃ l, new = l ++ [.callback e]) :
    Accounts ty active (queue ++ [e]) started o rest done (Function.update part e new) := by
  have hsends : sends ty (queue ++ [e]) = sends ty queue ++ [e] := by
    rw [sends_append, sends_send hclass, sends_nil]
  have hother : ∀ x, x ∈ active.toList ++ queue → Function.update part e new x = part x := fun x hx =>
    Function.update_of_ne (fun heq : x = e => hnew (heq ▸ hx)) _ _
  have hactive : active.toList.flatMap (Function.update part e new) = active.toList.flatMap part :=
    List.flatMap_congr fun x hx => hother x (List.mem_append_left _ hx)
  have hqueue : ∀ l : List EventId, (∀ x ∈ l, x ∈ queue) →
      (sends ty l).flatMap (Function.update part e new) = (sends ty l).flatMap part := fun l hl =>
    List.flatMap_congr fun x hx => hother x (List.mem_append_right _ (hl x (mem_sends hx).1))
  refine ⟨?_, ?_, fun x hx => ?_, h.sent, fun a x b hq hx => ?_, h.begun, fun x hx hc => ?_,
    fun x hx htype => ?_, h.once, h.bound⟩
  · rw [h.writes, hsends, List.flatMap_append, List.flatMap_append, List.flatMap_append, hactive,
      hqueue queue fun _ hx => hx, List.flatMap_singleton, Function.update_self]
    simp
  · rw [hactive]
    exact h.current
  · rw [hsends] at hx
    rcases List.mem_append.mp hx with hx | hx
    · rw [hother x (List.mem_append_right _ (mem_sends hx).1)]
      exact h.waiting x hx
    · rw [List.mem_singleton.mp hx, Function.update_self]
      exact hcontent
  · rcases append_eq_middle hq with ⟨c, hac, _⟩ | ⟨c, _, hbc⟩
    · rw [List.flatMap_append, hactive, hqueue a fun y hy => by rw [hac]; simp [hy], ← List.flatMap_append]
      exact h.ahead a x c hac hx
    · rcases List.cons_eq_append_iff.mp hbc with ⟨_, hxe⟩ | ⟨c', _, hnil⟩
      · rw [List.cons.inj hxe |>.1] at hx
        exact absurd hclass hx
      · simp at hnil
  · rw [hsends, List.flatMap_append, List.flatMap_append, hactive, hqueue queue fun _ hx => hx, ← List.append_assoc,
      ← List.append_assoc, List.append_assoc done, ← List.flatMap_append]
    exact (h.past x hx hc).trans (List.prefix_append _ _)
  · rw [hsends, ← List.append_assoc] at hx
    rcases List.mem_append.mp hx with hx | hx
    · have hmem : x ∈ active.toList ++ queue := by
        rcases List.mem_append.mp hx with hx | hx
        · exact List.mem_append_left _ hx
        · exact List.mem_append_right _ (mem_sends hx).1
      rw [hother x hmem]
      exact h.last x hx htype
    · rw [List.mem_singleton.mp hx] at htype ⊢
      rw [Function.update_self]
      exact hlast htype

/-- Another event is queued when everything written is in an event. -/
theorem queueOther (h : Accounts ty active queue started o [] done part)
    (hclass : (ty e).eventClass ≠ .send) : Accounts ty active (queue ++ [e]) started o [] done part := by
  have hsends : sends ty (queue ++ [e]) = sends ty queue := by
    rw [sends_append, sends_other hclass, sends_nil, List.append_nil]
  refine ⟨by rw [hsends]; exact h.writes, h.current, fun x hx => ?_, h.sent, fun a x b hq hx => ?_, h.begun,
    by rw [hsends]; exact h.past, fun x hx => ?_, h.once, h.bound⟩
  · exact h.waiting x (hsends ▸ hx)
  · rcases append_eq_middle hq with ⟨c, hac, _⟩ | ⟨c, hac, hbc⟩
    · exact h.ahead a x c hac hx
    · -- the new event has everything ahead of it
      have hc : c = [] := by
        rcases List.cons_eq_append_iff.mp hbc with ⟨hc, _⟩ | ⟨c', _, hnil⟩
        · exact hc
        · simp at hnil
      have hwrites := h.writes
      rw [List.append_nil] at hwrites
      rw [hac, hc, List.append_nil, ← hwrites]
      exact List.take_prefix _ _
  · exact h.last x (hsends ▸ hx)

/-- Several such events. -/
theorem queueOthers {l : List EventId} (h : Accounts ty active queue started o [] done part)
    (hclass : ∀ d ∈ l, (ty d).eventClass ≠ .send) :
    Accounts ty active (queue ++ l) started o [] done part := by
  induction l generalizing queue with
  | nil => rwa [List.append_nil]
  | cons d l ih =>
    have hnext := ih (h.queueOther (hclass d List.mem_cons_self)) fun x hx => hclass x (List.mem_cons_of_mem _ hx)
    rwa [List.append_assoc] at hnext

/-- What is known of other events does not matter. -/
theorem outgoing {o' : Outgoing} (h : Accounts ty active queue started o rest done part)
    (hwrites : o'.writes = o.writes) (hwire : o'.wire = o.wire)
    (hsupplied : ∀ e ∈ callbacks o.writes, o'.supplied e = o.supplied e)
    (hcontent : ∀ e ∈ active.toList ++ queue, o'.content e = o.content e)
    (hbefore : ∀ e ∈ queue ++ started, o'.before e = o.before e) (hbound : ∀ e, o'.before e ≤ o.writes.length) :
    Accounts ty active queue started o' rest done part := by
  have hoctets : ∀ {l : List Written}, (∀ e ∈ callbacks l, e ∈ callbacks o.writes) →
      octets o'.supplied l = octets o.supplied l := fun hl => octets_congr fun e he => hsupplied e (hl e he)
  have hdone : ∀ e ∈ callbacks done, e ∈ callbacks o.writes := fun e he => by
    rw [h.writes]
    simp [he]
  have hpart : ∀ l : List EventId, (∀ x ∈ l, x ∈ active.toList ++ sends ty queue) →
      ∀ e ∈ callbacks (l.flatMap part), e ∈ callbacks o.writes := by
    intro l hl e he
    obtain ⟨w, hw, hwe⟩ := List.mem_filterMap.mp he
    obtain ⟨x, hx, hwx⟩ := List.mem_flatMap.mp hw
    rw [h.writes]
    refine List.mem_filterMap.mpr ⟨w, List.mem_append_left _ (List.mem_append_right _ ?_), hwe⟩
    exact List.mem_flatMap.mpr ⟨x, hl x hx, hwx⟩
  have hactive : active.toList.flatMap o'.content = active.toList.flatMap o.content :=
    List.flatMap_congr fun x hx => hcontent x (List.mem_append_left _ hx)
  refine ⟨hwrites ▸ h.writes, ?_, fun x hx => ?_, ?_, fun a x b hq hx => ?_, fun x hx hc => ?_, fun x hx hc => ?_,
    h.last, hwrites ▸ h.once, fun e => hwrites ▸ hbound e⟩
  · rw [octets_append, hoctets hdone, hoctets (hpart _ fun x hx => List.mem_append_left _ hx), ← octets_append,
      hwire, hactive]
    exact h.current
  · have hx' : x ∈ active.toList ++ sends ty queue := List.mem_append_right _ hx
    have hone := hpart [x] fun y hy => List.mem_singleton.mp hy ▸ hx'
    rw [List.flatMap_singleton] at hone
    rw [hoctets hone, h.waiting x hx, hcontent x (List.mem_append_right _ (mem_sends hx).1)]
  · rw [hoctets hdone, hwire]
    exact h.sent
  · rw [hwrites, hbefore x (by simp [hq])]
    exact h.ahead a x b hq hx
  · rw [hwrites, hbefore x (List.mem_append_right _ hx)]
    exact h.begun x hx hc
  · rw [hwrites, hbefore x (List.mem_append_right _ hx)]
    exact h.past x hx hc

/-- More is written. -/
theorem write {new : List Written} (h : Accounts ty active queue started o rest done part)
    (hnew : (callbacks (o.writes ++ new)).Nodup) :
    Accounts ty active queue started { o with writes := o.writes ++ new } (rest ++ new) done part := by
  have htake : ∀ e, (o.writes ++ new).take (o.before e) = o.writes.take (o.before e) := fun e =>
    List.take_append_of_le_length (h.bound e)
  refine ⟨?_, h.current, h.waiting, h.sent, fun a x b hq hx => ?_, fun x hx hc => ?_, fun x hx hc => ?_, h.last,
    hnew, fun e => Nat.le_trans (h.bound e) (by simp)⟩
  · show o.writes ++ new = _
    rw [h.writes, List.append_assoc _ rest new]
  · exact htake x ▸ h.ahead a x b hq hx
  · exact htake x ▸ h.begun x hx hc
  · exact htake x ▸ h.past x hx hc

/-- The active event sends, and its callback supplies `data`. -/
theorem process (content supplied : EventId → List UInt8) (wire data : List UInt8)
    (h : Accounts ty (some e) queue started o rest done part) (hqueue : e ∉ queue)
    (hcontent : ∀ x, x ≠ e → content x = o.content x) (hsupplied : ∀ x, x ≠ e → supplied x = o.supplied x)
    (hdata : supplied e = o.supplied e ++ data) (hkept : wire ++ content e = o.wire ++ o.content e ++ data)
    (hwire : o.wire <+: wire) (hcallback : data ≠ [] → ty e = .writeFromCb) :
    Accounts ty (some e) queue started
      { o with content := content, supplied := supplied, wire := wire } rest done part := by
  have hcurrent := h.current
  simp only [Option.toList_some, List.flatMap_singleton] at hcurrent
  -- the callback of `e` occurs in its own part only
  have hother : ∀ l : List Written, (∀ x ∈ callbacks l, x ≠ e ∨ ty e ≠ .writeFromCb) →
      octets supplied l = octets o.supplied l := fun l hl => octets_congr fun x hx => by
    rcases hl x hx with hne | hplain
    · exact hsupplied x hne
    · by_cases hxe : x = e
      · have hnil : data = [] := by
          by_contra hne
          exact hplain (hcallback hne)
        rw [hxe, hdata, hnil, List.append_nil]
      · exact hsupplied x hxe
  have hparts : callbacks o.writes =
      callbacks done ++ (callbacks (part e) ++ (callbacks ((sends ty queue).flatMap part) ++ callbacks rest)) := by
    rw [h.writes]
    simp
  have hdisjoint : ∀ x, ty e = .writeFromCb → x = e → x ∉ callbacks done ∧
      x ∉ callbacks ((sends ty queue).flatMap part) ∧ ∃ l, part e = l ++ [.callback e] ∧ x ∉ callbacks l := by
    rintro x htype rfl
    obtain ⟨l, hl⟩ := h.last x (by simp) htype
    have honce := h.once
    rw [hparts, hl] at honce
    have hmem : x ∈ callbacks (l ++ [Written.callback x]) := by
      rw [callbacks_append]
      exact List.mem_append_right _ List.mem_cons_self
    have hrest := List.nodup_append.mp honce
    have hpart := List.nodup_append.mp hrest.2.1
    refine ⟨fun hd => ?_, fun hq => ?_, l, hl, fun hx => ?_⟩
    · exact hrest.2.2 x hd x (List.mem_append_left _ hmem) rfl
    · exact hpart.2.2 x hmem x (List.mem_append_left _ hq) rfl
    · have hinner := hpart.1
      rw [callbacks_append] at hinner
      exact (List.nodup_append.mp hinner).2.2 x hx x List.mem_cons_self rfl
  have hdone : octets supplied done = octets o.supplied done := hother done fun x hx => by
    by_cases htype : ty e = .writeFromCb
    · exact .inl fun hxe => (hdisjoint x htype hxe).1 hx
    · exact .inr htype
  have hwaiting : ∀ x ∈ sends ty queue, octets supplied (part x) = octets o.supplied (part x) := by
    intro y hy
    refine hother _ fun x hx => ?_
    by_cases htype : ty e = .writeFromCb
    · refine .inl fun hxe => (hdisjoint x htype hxe).2.1 ?_
      obtain ⟨w, hw, hwx⟩ := List.mem_filterMap.mp hx
      exact List.mem_filterMap.mpr ⟨w, List.mem_flatMap.mpr ⟨y, hy, hw⟩, hwx⟩
    · exact .inr htype
  have hpart : octets supplied (part e) = octets o.supplied (part e) ++ data := by
    by_cases htype : ty e = .writeFromCb
    · obtain ⟨_, _, l, hl, hle⟩ := hdisjoint e htype rfl
      have hsame : octets supplied l = octets o.supplied l := hother l fun x hx =>
        .inl fun hxe => hle (hxe ▸ hx)
      rw [hl, octets_append, octets_append, hsame, List.append_assoc]
      show _ ++ (supplied e ++ []) = _ ++ ((o.supplied e ++ []) ++ data)
      rw [hdata, List.append_nil, List.append_nil]
    · have hnil : data = [] := by
        by_contra hne
        exact htype (hcallback hne)
      rw [hnil, List.append_nil]
      exact hother _ fun _ _ => .inr htype
  refine ⟨h.writes, ?_, fun x hx => ?_, ?_, h.ahead, h.begun, h.past, h.last, h.once, h.bound⟩
  · show octets supplied (done ++ [e].flatMap part) = wire ++ [e].flatMap content
    rw [List.flatMap_singleton, List.flatMap_singleton, octets_append, hdone, hpart, hkept, ← hcurrent,
      octets_append, List.append_assoc]
  · show octets supplied (part x) = content x
    rw [hwaiting x hx, h.waiting x hx]
    exact (hcontent x fun hxe => hqueue (hxe ▸ (mem_sends hx).1)).symm
  · show octets supplied done <+: wire
    rw [hdone]
    exact h.sent.trans hwire

/-- Nothing is queued, and a call sends and writes itself; `sent` are the octets it has sent. -/
theorem direct {buffer buffer' written sent : List UInt8}
    (h : Accounts ty none [] started o (buffer.map .octet) done part)
    (hsent : sent ++ buffer' = buffer ++ written) :
    Accounts ty none [] started
      { o with writes := o.writes ++ written.map .octet, wire := o.wire ++ sent }
      (buffer'.map .octet) (done ++ sent.map .octet) part := by
  have hmore : Accounts ty none [] started { o with writes := o.writes ++ written.map .octet }
      (buffer.map .octet ++ written.map .octet) done part := by
    apply h.write
    rw [callbacks_append, callbacks_octet, List.append_nil]
    exact h.once
  have hsplit : buffer.map Written.octet ++ written.map .octet = sent.map .octet ++ buffer'.map .octet := by
    rw [← List.map_append, ← List.map_append, hsent]
  have hwrites := hmore.writes
  have hcurrent := hmore.current
  simp only [Option.toList_none, List.flatMap_nil, List.append_nil, sends_nil] at hwrites hcurrent
  have hoctets : octets o.supplied (done ++ sent.map .octet) = o.wire ++ sent := by
    rw [octets_append, hcurrent, octets_octet]
  refine ⟨?_, ?_, fun x hx => ?_, ?_, fun a x b hq hx => ?_, fun x hx hc => ?_, fun x hx hc => ?_, h.last,
    hmore.once, hmore.bound⟩
  · rw [hwrites, hsplit]
    simp
  · simpa using hoctets
  · cases hx
  · exact hoctets ▸ List.prefix_rfl
  · simp at hq
  · exact (hmore.begun x hx hc).trans (List.prefix_append _ _)
  · have hold := hmore.past x hx hc
    simp only [Option.toList_none, sends_nil, List.flatMap_nil, List.append_nil] at hold ⊢
    exact hold.trans (List.prefix_append _ _)

end Accounts

/-! ### The steps of the queue -/

/-- **What a step of the queue does when there is no problem.** -/
inductive CleanStep (v v' : QueueState) : Prop
  | same (active : v'.active = v.active) (queued : v'.queued = v.queued)
      (started : started v'.log = started v.log) (appended : appended v'.log = appended v.log)
  | append (e : EventId) (active : v'.active = v.active) (queued : v'.queued = v.queued ++ [e])
      (started : started v'.log = started v.log) (appended : appended v'.log = e :: appended v.log)
  | start (a b : List EventId) (e : EventId) (startable : Startable v a e) (old : v.queued = a ++ e :: b)
      (active : v'.active = v.active.set (v.classOf e) (some e)) (queued : v'.queued = a ++ b)
      (started : started v'.log = e :: started v.log) (appended : appended v'.log = appended v.log)
  | finish (e : EventId) (slot : v.active.get (v.classOf e) = some e)
      (active : v'.active = v.active.set (v.classOf e) none) (queued : v'.queued = v.queued)
      (started : started v'.log = started v.log) (appended : appended v'.log = appended v.log)
      (left : e ∈ left v'.log)

/-- A history without problems. -/
theorem problem_none {v : QueueState} (hinv : QueueInv v) (h : problems v.log = []) : v.problem = none := by
  rw [hinv.summary.problem_eq, firstProblem, List.getLast?_eq_none_iff]
  have hsub : (problems (txnLog v.log)).Sublist (problems v.log) :=
    (List.takeWhile_sublist _).filterMap _
  rw [h] at hsub
  exact List.sublist_nil.mp hsub

theorem problems_of_suffix {log log' : List LogEntry} (h : log.IsSuffix log') (hp : problems log' = []) :
    problems log = [] := by
  have hsub : (problems log).Sublist (problems log') := h.sublist.filterMap _
  rw [hp] at hsub
  exact List.sublist_nil.mp hsub

/-- An abort is a problem. -/
theorem problems_abort (v : QueueState) (p : AsyncProblem) : problems (v.abort p).log ≠ [] := fun h => by
  have hmem : p ∈ problems (v.abort p).log :=
    List.mem_filterMap.mpr ⟨.report p, List.mem_append_right _ List.mem_cons_self, rfl⟩
  rw [h] at hmem
  cases hmem

/-- **A step without a problem (proved).** -/
theorem queueStep_clean {v v' : QueueState} {ℓ : QueueLabel} (hinv : QueueInv v) (h : QueueStep v ℓ v')
    (hclean : problems v'.log = []) : CleanStep v v' := by
  have hnone := problem_none hinv (problems_of_suffix (queueStep_frame h).1 hclean)
  have hreport : ∀ {p : AsyncProblem}, .report p ∉ v'.log := fun {p} hmem => by
    have hp : p ∈ problems v'.log := List.mem_filterMap.mpr ⟨.report p, hmem, rfl⟩
    rw [hclean] at hp
    cases hp
  cases h with
  | @quiet x hq =>
    refine .same rfl rfl ?_ ?_
    · show started (x :: v.log) = _
      cases x <;> first | rfl | cases hq
    · show appended (x :: v.log) = _
      cases x <;> first | rfl | cases hq
  | append => exact .append _ rfl rfl rfl rfl
  | start queued startable => exact .start _ _ _ startable queued rfl rfl rfl rfl
  | finishComplete fin => exact .finish _ fin.slot rfl rfl rfl rfl List.mem_cons_self
  | drop _ problem | again problem | finishCancelled _ problem | submitAgain _ problem =>
    exact absurd hnone problem
  | abort | finishFailed | finishShutdown => exact absurd hclean (problems_abort _ _)
  | dropShutdown => exact absurd (List.mem_cons_of_mem _ List.mem_cons_self) hreport
  | finishPartial => exact absurd List.mem_cons_self hreport
  | submitEmpty =>
    exact absurd (List.mem_cons_of_mem _ (List.mem_cons_of_mem _ List.mem_cons_self)) hreport
  | prepare state =>
    exact .same rfl (hinv.state.complete state).1.symm rfl rfl
  | alloc | enterClient | enter | exit | exitEmpty | exitDone | submit => exact .same rfl rfl rfl rfl

/-- **One step of the queue (proved):** `new` is what it appends, `more` what is appended later. -/
theorem accounts_step {v v' : QueueState} {ℓ : QueueLabel} {ty : EventId → ConnEventType} {o : Outgoing}
    {rest done : List Written} {part : EventId → List Written} {new more : List EventId}
    (hinv : QueueInv v) (h : QueueStep v ℓ v') (hclean : problems v'.log = [])
    (hty : ∀ e ∈ allocated v.log, ty e = v.typeOf e)
    (hnew : appended v'.log = new.reverse ++ appended v.log)
    (hempty : ∀ e ∈ left v'.log, e ∉ left v.log → (ty e).eventClass = .send → o.content e = [])
    (hacc : Accounts ty v.active.send (v.queued ++ (new ++ more)) (started v.log) o rest done part) :
    ∃ done', Accounts ty v'.active.send (v'.queued ++ more) (started v'.log) o rest done' part := by
  have hnil : appended v'.log = appended v.log → new = [] := fun heq => by
    rw [hnew] at heq
    exact List.reverse_eq_nil_iff.mp (List.append_left_eq_self.mp heq)
  have hclass : ∀ e ∈ v.queued, (ty e).eventClass = v.classOf e := fun e he => by
    rw [hty e (hinv.slot.queued_allocated e he)]
    rfl
  cases queueStep_clean hinv h hclean with
  | same active queued hstarted happended =>
    rw [active, queued, hstarted]
    rw [hnil happended] at hacc
    exact ⟨done, hacc⟩
  | append e active queued hstarted happended =>
    have hone : new = [e] := by
      have heq : new.reverse = [e] := List.append_cancel_right (hnew.symm.trans happended)
      simpa using congrArg List.reverse heq
    rw [active, queued, hstarted, List.append_assoc]
    rw [hone] at hacc
    exact ⟨done, hacc⟩
  | start a b e startable old active queued hstarted happended =>
    have he : e ∈ v.queued := by simp [old]
    rw [active, queued, hstarted, List.append_assoc]
    rw [hnil happended, old, List.nil_append, List.append_assoc, List.cons_append] at hacc
    have hslot := startable.slot_free
    have halone := startable.alone
    rw [← hclass e he] at hslot halone ⊢
    refine ⟨done, ?_⟩
    cases hc : (ty e).eventClass with
    | send =>
      have ha : sends ty a = [] := List.filter_eq_nil_iff.mpr fun y hy => by
        have hskipped := (startable.skipped y hy).2.1
        rw [← hclass y (by simp [old, hy]), ← hclass e he, hc] at hskipped
        simpa using hskipped
      rw [hc] at hslot
      rw [show v.active.send = none from hslot] at hacc
      exact hacc.startSend hc ha
    | receive => exact hacc.startOther (by rw [hc]; decide) fun h => by rw [hc] at h; cases h
    | connect =>
      refine hacc.startOther (by rw [hc]; decide) fun _ => ⟨?_, halone hc .send⟩
      rw [List.eq_nil_iff_forall_not_mem]
      intro y hy
      exact (startable.skipped y hy).2.2 (hclass e he ▸ hc)
  | finish e slot active queued hstarted happended hleft =>
    have halloc := hinv.slot.slot_allocated _ _ slot
    have hce : (ty e).eventClass = v.classOf e := by
      rw [hty e halloc]
      rfl
    rw [active, queued, hstarted]
    rw [hnil happended] at hacc
    cases hc : v.classOf e with
    | send =>
      rw [hc] at slot hce
      rw [show v.active.send = some e from slot] at hacc
      exact ⟨_, hacc.finish (hempty e hleft (hinv.order.active_started _ e slot).2 hce)⟩
    | receive | connect => exact ⟨done, hacc⟩

/-- **A run of the queue (proved):** it keeps the account when nothing is left in the send events that end. -/
theorem accounts_reachable {v v' : QueueState} {ok : QueueState → QueueLabel → Prop}
    {ty : EventId → ConnEventType} {o : Outgoing} {rest done : List Written} {part : EventId → List Written}
    (hinv : QueueInv v) (h : ReachableVia QueueStep ok v v') :
    ∀ {new more : List EventId}, problems v'.log = [] →
      (∀ e ∈ allocated v'.log, ty e = v'.typeOf e) → appended v'.log = new.reverse ++ appended v.log →
      (∀ e ∈ left v'.log, e ∉ left v.log → (ty e).eventClass = .send → o.content e = []) →
      Accounts ty v.active.send (v.queued ++ (new ++ more)) (started v.log) o rest done part →
      ∃ done', Accounts ty v'.active.send (v'.queued ++ more) (started v'.log) o rest done' part := by
  induction h with
  | init =>
    intro new more _ _ hnew _ hacc
    have hnil : new = [] := List.reverse_eq_nil_iff.mp (List.append_left_eq_self.mp hnew.symm)
    rw [hnil] at hacc
    exact ⟨done, hacc⟩
  | @next w w' ℓ hprev _ hstep ih =>
    intro new more hclean hty hnew hempty hacc
    obtain ⟨hlog, htype⟩ := queueStep_frame hstep
    have hinvw := queueInv_reachable hinv hprev
    have htyw : ∀ e ∈ allocated w.log, ty e = w.typeOf e := fun e he =>
      (hty e (allocated_mono hlog he)).trans (htype e he)
    -- the events that the last step appends come last
    obtain ⟨old, hold⟩ : ∃ old : List EventId, appended w.log = old.reverse ++ appended v.log := by
      obtain ⟨xs, hxs⟩ := (reachable_suffix hprev).filterMap LogEntry.append?
      exact ⟨xs.reverse, by rw [List.reverse_reverse]; exact hxs.symm⟩
    obtain ⟨one, hone⟩ : ∃ one : List EventId, appended w'.log = one.reverse ++ appended w.log := by
      obtain ⟨xs, hxs⟩ := hlog.filterMap LogEntry.append?
      exact ⟨xs.reverse, by rw [List.reverse_reverse]; exact hxs.symm⟩
    have hsplit : new = old ++ one := by
      have heq : new.reverse = one.reverse ++ old.reverse := by
        refine List.append_cancel_right (hnew.symm.trans ?_)
        rw [hone, hold, List.append_assoc]
      simpa using congrArg List.reverse heq
    rw [hsplit, List.append_assoc] at hacc
    obtain ⟨done₁, hacc₁⟩ := ih (problems_of_suffix hlog hclean) htyw hold
      (fun e he => hempty e ((hlog.sublist.filterMap _).subset he)) hacc
    refine accounts_step hinvw hstep hclean htyw hone (fun e he hne => ?_) hacc₁
    exact hempty e he fun hold => hne (((reachable_suffix hprev).sublist.filterMap _).subset hold)

end Connio
