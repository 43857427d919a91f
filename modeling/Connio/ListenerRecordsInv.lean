import Connio.ListenerRecords
import Mathlib.Data.List.Dedup

/-!
# The records of managed listeners in every run

Who works on a record of `ListenerRecords`, and what its conn knows of it.

* `RecordsInv`, `recordStep_inv` — **PROVED**: a record has one thread that works on it, or a conn that knows it, in
  every run of orderly steps;
* `NoneStarted`, `noneStarted_step` — **PROVED**: no record has a conn where no listener gets started;
* `reachable_records` — **PROVED**: in orderly runs no freed record is used, and the records are consistent exactly
  in the quiet states; they always are when no listener gets started;
* `records_fail` — **PROVED**: a record whose conn has been freed before it was stored.
-/

namespace Connio

open Connio.Lib

/-! ### Orderly steps -/

/-- **The invariant of orderly runs.** -/
structure RecordsInv (s : ManagedListeners) : Prop where
  nodup : s.list.Nodup
  usedFreed : s.usedFreed = false
  refers : ∀ t ∈ s.threads, ∀ l, t.refers = some l → l ∈ s.list
  /-- one thread works on a record -/
  works : (s.threads.filterMap RecordThread.works).Nodup
  /-- one thread has a new conn -/
  fresh : (s.threads.filterMap RecordThread.fresh).Nodup
  listed : ∀ l c, (s.record l).conn = some c → l ∈ s.list ∧ c < s.allocated
  owner : ∀ l l' c, (s.record l).conn = some c → (s.record l').conn = some c → l = l'
  /-- a record that is being started, or started again, has no conn -/
  unset : ∀ t ∈ s.threads, ∀ l, t.starts l = true → (s.record l).conn = none
  submitted : ∀ t ∈ s.threads, ∀ c, t.fresh = some c →
    s.conn c = { live := true } ∧ c < s.allocated ∧ ∀ l, (s.record l).conn ≠ some c
  stored : ∀ only which l c, .stored only which l ∈ s.threads → (s.record l).conn = some c →
    s.conn c = { live := true }
  freeing : ∀ c l, .freeing c l ∈ s.threads → c < s.allocated ∧ (s.conn c).data = none ∧ (s.conn c).live = false ∧
    ∀ l', (s.record l').conn = some c ↔ l = some l'
  clearing : ∀ c l, .clearing c l ∈ s.threads → (s.record l).conn = some c ∧ (s.conn c).freed = true ∧
    (s.conn c).data = none ∧ (s.conn c).live = false
  known : ∀ l c, (s.record l).conn = some c → (∀ t ∈ s.threads, t.works ≠ some l) →
    (s.conn c).freed = false ∧ (s.conn c).data = some l
  data : ∀ c l, (s.conn c).data = some l → (s.record l).conn = some c ∧ ∀ t ∈ s.threads, t.works ≠ some l
  allocated : ∀ c, s.allocated ≤ c → s.conn c = {}

section Steps

variable {s s' : ManagedListeners}

/-- **Consistent is quiet (proved).** -/
theorem RecordsInv.consistent_iff (h : RecordsInv s) : RecordsConsistent s ↔ RecordsQuiet s := by
  constructor
  · intro hcons t ht
    refine ⟨fun only which l heq => ?_, fun c l heq => ?_, fun c l heq => ?_⟩
    · rw [heq] at ht
      cases hconn : (s.record l).conn with
      | none => rfl
      | some c =>
        have hdata := (hcons l (h.refers _ ht l rfl) c hconn).2
        rw [h.stored only which l c ht hconn] at hdata
        cases hdata
    · rw [heq] at ht
      obtain ⟨_, hnone, _, hrecord⟩ := h.freeing c _ ht
      have hdata := (hcons l (h.refers _ ht l rfl) c ((hrecord l).mpr rfl)).2
      rw [hnone] at hdata
      cases hdata
    · rw [heq] at ht
      obtain ⟨hconn, hfreed, _⟩ := h.clearing c l ht
      have hnot := (hcons l (h.refers _ ht l rfl) c hconn).1
      rw [hfreed] at hnot
      cases hnot
  · intro hquiet l _ c hconn
    refine h.known l c hconn fun t ht hworks => ?_
    obtain ⟨hstored, hfreeing, hclearing⟩ := hquiet t ht
    have hunset : t.starts l = true → False := fun hstarts => by
      have hnone := h.unset t ht l hstarts
      rw [hconn] at hnone
      cases hnone
    cases t with
    | starting only which => cases hworks
    | listening only which l' =>
      cases hworks
      exact hunset (by simp [RecordThread.starts])
    | submitted only which l' c' =>
      cases hworks
      exact hunset (by simp [RecordThread.starts])
    | stored only which l' =>
      cases hworks
      have hnone := hstored only which l rfl
      rw [hconn] at hnone
      cases hnone
    | freeing c' l' =>
      have heq : l' = some l := hworks
      exact hfreeing c' l (by rw [heq])
    | clearing c' l' =>
      cases hworks
      exact hclearing c' l rfl
    | restarting l' =>
      cases hworks
      exact hunset (by simp [RecordThread.starts])

/-- The thread that goes on was the only one. -/
theorem alone_of_nodup {f : RecordThread → Option ℕ} {threads : List RecordThread} (h : (threads.filterMap f).Nodup)
    {t : RecordThread} (ht : t ∈ threads) {l : ℕ} (hf : f t = some l) : ∀ t' ∈ threads.erase t, f t' ≠ some l := by
  have hperm := (List.perm_cons_erase ht).filterMap f
  rw [List.filterMap_cons_some hf] at hperm
  have hnodup := hperm.nodup_iff.mp h
  intro t' ht' heq
  exact (List.nodup_cons.mp hnodup).1 (List.mem_filterMap.mpr ⟨t', ht', heq⟩)

theorem nodup_erase {f : RecordThread → Option ℕ} {threads : List RecordThread} (h : (threads.filterMap f).Nodup)
    (t : RecordThread) : ((threads.erase t).filterMap f).Nodup :=
  h.sublist (List.erase_sublist.filterMap f)

/-- A thread goes on with the same record or conn, or with none. -/
theorem nodup_become {f : RecordThread → Option ℕ} {threads : List RecordThread} (h : (threads.filterMap f).Nodup)
    {t t' : RecordThread} (ht : t ∈ threads) (hf : f t' = none ∨ f t' = f t) :
    ((t' :: threads.erase t).filterMap f).Nodup := by
  cases hft : f t' with
  | none =>
    rw [List.filterMap_cons_none hft]
    exact nodup_erase h t
  | some l =>
    have hl : f t = some l := by
      rcases hf with hnone | hsame
      · rw [hft] at hnone
        cases hnone
      · rw [← hsame, hft]
    rw [List.filterMap_cons_some hft]
    refine List.nodup_cons.mpr ⟨fun hmem => ?_, nodup_erase h t⟩
    obtain ⟨t'', ht'', heq⟩ := List.mem_filterMap.mp hmem
    exact alone_of_nodup h ht hl t'' ht'' heq

/-- A new thread. -/
theorem nodup_cons_of_alone {f : RecordThread → Option ℕ} {threads : List RecordThread}
    (h : (threads.filterMap f).Nodup) {t : RecordThread} (halone : ∀ l, f t = some l → ∀ t' ∈ threads, f t' ≠ some l) :
    ((t :: threads).filterMap f).Nodup := by
  cases hft : f t with
  | none =>
    rw [List.filterMap_cons_none hft]
    exact h
  | some l =>
    rw [List.filterMap_cons_some hft]
    refine List.nodup_cons.mpr ⟨fun hmem => ?_, h⟩
    obtain ⟨t', ht', heq⟩ := List.mem_filterMap.mp hmem
    exact halone l hft t' ht' heq

/-- A thread ends; its record is known unless it has no conn. -/
theorem RecordsInv.retire (h : RecordsInv s) {t : RecordThread}
    (hknown : ∀ l c, t.works = some l → (s.record l).conn = some c →
      (s.conn c).freed = false ∧ (s.conn c).data = some l) :
    RecordsInv { s with threads := s.threads.erase t } := by
  have hsub : ∀ {t'}, t' ∈ s.threads.erase t → t' ∈ s.threads := fun ht' => List.mem_of_mem_erase ht'
  refine ⟨h.nodup, h.usedFreed, fun t' ht' => h.refers t' (hsub ht'), nodup_erase h.works t, nodup_erase h.fresh t,
    h.listed, h.owner, fun t' ht' => h.unset t' (hsub ht'), fun t' ht' => h.submitted t' (hsub ht'),
    fun only which l c ht' => h.stored only which l c (hsub ht'), fun c l ht' => h.freeing c l (hsub ht'),
    fun c l ht' => h.clearing c l (hsub ht'), fun l c hconn hnone => ?_, fun c l hdata => ?_, h.allocated⟩
  · by_cases hworks : t.works = some l
    · exact hknown l c hworks hconn
    · refine h.known l c hconn fun t' ht' hworks' => ?_
      by_cases heq : t' = t
      · rw [heq] at hworks'
        exact hworks hworks'
      · exact hnone t' ((List.mem_erase_of_ne heq).mpr ht') hworks'
  · obtain ⟨hconn, hnone⟩ := h.data c l hdata
    exact ⟨hconn, fun t' ht' => hnone t' (hsub ht')⟩

/-- A thread picks a record that nobody works on. -/
theorem RecordsInv.scan (h : RecordsInv s) (only : Option ℕ) (which : ℕ) (from_ : List ℕ)
    (hfrom : ∀ l ∈ from_, l ∈ s.list) (halone : s.PickedAlone (s.pick only which from_)) :
    RecordsInv { s with threads := s.scan only which from_ ++ s.threads } := by
  unfold ManagedListeners.scan
  cases hpick : s.pick only which from_ with
  | none => exact h
  | some l =>
    have hl : l ∈ s.list := hfrom l (List.mem_of_find?_eq_some hpick)
    have hnone : (s.record l).conn = none := by
      have hsome := List.find?_some hpick
      simp only [Bool.and_eq_true, Option.isNone_iff_eq_none] at hsome
      exact hsome.1.2
    rw [hpick] at halone
    have hfree : ∀ t ∈ s.threads, t.works ≠ some l := halone l rfl
    show RecordsInv { s with threads := .listening only which l :: s.threads }
    refine ⟨h.nodup, h.usedFreed, ?_, ?_, ?_, h.listed, h.owner, ?_, ?_, ?_, ?_, ?_, ?_, ?_, h.allocated⟩
    · intro t ht l' href
      rcases List.mem_cons.mp ht with rfl | ht
      · cases href
        exact hl
      · exact h.refers t ht l' href
    · refine nodup_cons_of_alone h.works fun l' hl' => ?_
      cases hl'
      exact hfree
    · exact nodup_cons_of_alone h.fresh fun c hc => by cases hc
    · intro t ht l' hstarts
      rcases List.mem_cons.mp ht with rfl | ht
      · have heq : l = l' := by simpa [RecordThread.starts] using hstarts
        rw [← heq]
        exact hnone
      · exact h.unset t ht l' hstarts
    · intro t ht c hc
      rcases List.mem_cons.mp ht with rfl | ht
      · cases hc
      · exact h.submitted t ht c hc
    · intro only' which' l' c ht
      rcases List.mem_cons.mp ht with heq | ht
      · cases heq
      · exact h.stored only' which' l' c ht
    · intro c l' ht
      rcases List.mem_cons.mp ht with heq | ht
      · cases heq
      · exact h.freeing c l' ht
    · intro c l' ht
      rcases List.mem_cons.mp ht with heq | ht
      · cases heq
      · exact h.clearing c l' ht
    · exact fun l' c hconn hworks => h.known l' c hconn fun t ht => hworks t (List.mem_cons_of_mem _ ht)
    · intro c l' hdata
      obtain ⟨hconn, hworks⟩ := h.data c l' hdata
      refine ⟨hconn, fun t ht => ?_⟩
      rcases List.mem_cons.mp ht with rfl | ht
      · intro heq
        cases heq
        rw [hnone] at hconn
        cases hconn
      · exact hworks t ht

@[simp] theorem setConn_self (s : ManagedListeners) (c : ℕ) (v : ListenerConn) : (s.setConn c v).conn c = v :=
  if_pos rfl

theorem setConn_of_ne (s : ManagedListeners) {c c' : ℕ} (hc : c' ≠ c) (v : ListenerConn) :
    (s.setConn c v).conn c' = s.conn c' := if_neg hc

@[simp] theorem setRecord_self (s : ManagedListeners) (l : ℕ) (r : ConnListenerPriv) : (s.setRecord l r).record l = r :=
  if_pos rfl

theorem setRecord_of_ne (s : ManagedListeners) {l l' : ℕ} (hl : l' ≠ l) (r : ConnListenerPriv) :
    (s.setRecord l r).record l' = s.record l' := if_neg hl

/-- A new conn is known to nobody. -/
theorem RecordsInv.alloc (h : RecordsInv s) :
    RecordsInv ({ s with allocated := s.allocated + 1 }.setConn s.allocated { live := true }) := by
  have hold : ∀ c, c < s.allocated →
      ({ s with allocated := s.allocated + 1 }.setConn s.allocated { live := true }).conn c = s.conn c := fun c hc =>
    setConn_of_ne _ (Nat.ne_of_lt hc) _
  refine ⟨h.nodup, h.usedFreed, h.refers, h.works, h.fresh, fun l c hconn => ?_, h.owner, h.unset,
    fun t ht c hc => ?_, fun only which l c ht hconn => ?_, fun c l ht => ?_, fun c l ht => ?_,
    fun l c hconn hworks => ?_, fun c l hdata => ?_, fun c hc => ?_⟩
  · obtain ⟨hl, hc⟩ := h.listed l c hconn
    exact ⟨hl, Nat.lt_succ_of_lt hc⟩
  · obtain ⟨hlive, hlt, hnone⟩ := h.submitted t ht c hc
    exact ⟨(hold c hlt).trans hlive, Nat.lt_succ_of_lt hlt, hnone⟩
  · exact (hold c (h.listed l c hconn).2).trans (h.stored only which l c ht hconn)
  · obtain ⟨hlt, hrest⟩ := h.freeing c l ht
    rw [hold c hlt]
    exact ⟨Nat.lt_succ_of_lt hlt, hrest⟩
  · have hclearing := h.clearing c l ht
    rw [hold c (h.listed l c hclearing.1).2]
    exact hclearing
  · rw [hold c (h.listed l c hconn).2]
    exact h.known l c hconn hworks
  · by_cases hc : c = s.allocated
    · rw [hc, setConn_self] at hdata
      cases hdata
    · rw [setConn_of_ne _ hc] at hdata
      exact h.data c l hdata
  · have hc : s.allocated + 1 ≤ c := hc
    rw [setConn_of_ne _ (by omega)]
    exact h.allocated c (by omega)

/-- A thread goes on with its record, which has no conn. -/
theorem RecordsInv.goOn (h : RecordsInv s) {t : RecordThread} (ht : t ∈ s.threads) (t' : RecordThread) {l : ℕ}
    (hworks : t.works = some l) (hworks' : t'.works = some l) (hrefers : t'.refers = some l)
    (hstarts : t.starts l = true) (hstarts' : ∀ l', t'.starts l' = true → l' = l)
    (hfresh : ((t' :: s.threads.erase t).filterMap RecordThread.fresh).Nodup)
    (hsubmitted : ∀ c, t'.fresh = some c →
      s.conn c = { live := true } ∧ c < s.allocated ∧ ∀ l, (s.record l).conn ≠ some c)
    (hkind : ∃ only which, (∃ c, t' = .submitted only which l c) ∨ t' = .stored only which l) :
    RecordsInv { s with threads := t' :: s.threads.erase t } := by
  have hnone : (s.record l).conn = none := h.unset t ht l hstarts
  have hsub : ∀ {x}, x ∈ t' :: s.threads.erase t → x = t' ∨ x ∈ s.threads := fun hx =>
    (List.mem_cons.mp hx).imp id List.mem_of_mem_erase
  have hnot : ∀ {x y : RecordThread}, x = t' → (∀ only which c, y ≠ .submitted only which l c) →
      (∀ only which, y ≠ .stored only which l) → y = x → False := by
    intro x y hx hy1 hy2 hyx
    obtain ⟨only, which, ⟨c, hc⟩ | hc⟩ := hkind
    · exact hy1 only which c (hyx.trans (hx.trans hc))
    · exact hy2 only which (hyx.trans (hx.trans hc))
  refine ⟨h.nodup, h.usedFreed, fun x hx l' href => ?_, nodup_become h.works ht (Or.inr (hworks'.trans hworks.symm)),
    hfresh, h.listed, h.owner, fun x hx l' hst => ?_, fun x hx c hc => ?_, fun only which l' c hx hconn => ?_,
    fun c l' hx => ?_, fun c l' hx => ?_, fun l' c hconn hw => ?_, fun c l' hdata => ?_, h.allocated⟩
  · rcases hsub hx with rfl | hx
    · rw [hrefers] at href
      cases href
      exact (h.refers t ht l (by cases t <;> simp_all [RecordThread.works, RecordThread.refers]))
    · exact h.refers x hx l' href
  · rcases hsub hx with rfl | hx
    · rw [hstarts' l' hst]
      exact hnone
    · exact h.unset x hx l' hst
  · rcases hsub hx with rfl | hx
    · exact hsubmitted c hc
    · exact h.submitted x hx c hc
  · rcases hsub hx with hx | hx
    · rw [← hx] at hworks'
      cases hworks'
      rw [hnone] at hconn
      cases hconn
    · exact h.stored only which l' c hx hconn
  · rcases hsub hx with hx | hx
    · exact (hnot rfl (fun _ _ _ hc => by cases hc) (fun _ _ hc => by cases hc) hx).elim
    · exact h.freeing c l' hx
  · rcases hsub hx with hx | hx
    · exact (hnot rfl (fun _ _ _ hc => by cases hc) (fun _ _ hc => by cases hc) hx).elim
    · exact h.clearing c l' hx
  · refine h.known l' c hconn fun x hx hxw => ?_
    by_cases heq : x = t
    · rw [heq, hworks] at hxw
      exact hw t' List.mem_cons_self (hworks'.trans hxw)
    · exact hw x (List.mem_cons_of_mem _ ((List.mem_erase_of_ne heq).mpr hx)) hxw
  · obtain ⟨hconn, hw⟩ := h.data c l' hdata
    refine ⟨hconn, fun x hx => ?_⟩
    rcases hsub hx with rfl | hx
    · rw [hworks', ← hworks]
      exact hw t ht
    · exact hw x hx

/-- `ConnAListenEx` returns. -/
theorem RecordsInv.listen (h : RecordsInv s) {only : Option ℕ} {which l : ℕ} {ok : Bool}
    (hs : recordMove s (.listen only which l ok) = some s') : RecordsInv s' := by
  simp only [recordMove] at hs
  split at hs
  next ht =>
    have hl : l ∈ s.list := h.refers _ ht l rfl
    have huse : (s.usedFreed || !decide (l ∈ s.list)) = false := by simp [h.usedFreed, hl]
    have hstarts : (RecordThread.listening only which l).starts l = true := by simp [RecordThread.starts]
    split at hs <;> cases hs
    · have hgo := h.alloc.goOn ht (.submitted only which l (some s.allocated)) (l := l) rfl rfl rfl hstarts
        (fun l' hst => (by simpa [RecordThread.starts] using hst : l = l').symm) ?_ ?_ ⟨only, which, .inl ⟨_, rfl⟩⟩
      · exact { hgo with usedFreed := huse }
      · refine nodup_cons_of_alone (nodup_erase h.fresh _) fun c hc t' ht' hc' => ?_
        cases hc
        exact Nat.lt_irrefl _ (h.submitted t' (List.mem_of_mem_erase ht') _ hc').2.1
      · intro c hc
        cases hc
        exact ⟨setConn_self _ _ _, Nat.lt_succ_self _, fun l' hl' => Nat.lt_irrefl _ (h.listed l' _ hl').2⟩
    · have hgo := h.goOn ht (.submitted only which l none) (l := l) rfl rfl rfl hstarts
        (fun l' hst => (by simpa [RecordThread.starts] using hst : l = l').symm)
        (nodup_become h.fresh ht (Or.inl rfl)) (fun c hc => by cases hc) ⟨only, which, .inl ⟨_, rfl⟩⟩
      exact { hgo with usedFreed := huse }
  · cases hs

/-- A conn is stored into its record. -/
theorem RecordsInv.store (h : RecordsInv s) {only : Option ℕ} {which l : ℕ} {c : Option ℕ}
    (hs : recordMove s (.store only which l c) = some s') : RecordsInv s' := by
  simp only [recordMove] at hs
  split at hs <;> cases hs
  next ht =>
    have hl : l ∈ s.list := h.refers _ ht l rfl
    have hnone : (s.record l).conn = none := h.unset _ ht l (by simp [RecordThread.starts])
    have halone := alone_of_nodup h.works ht (l := l) rfl
    have hsub : ∀ {x}, x ∈ s.threads.erase (.submitted only which l c) → x ∈ s.threads := fun hx =>
      List.mem_of_mem_erase hx
    -- every other record keeps its conn
    have hold : ∀ {l' c'}, ((s.setRecord l { s.record l with conn := c }).record l').conn = some c' →
        l' = l ∧ c = some c' ∨ l' ≠ l ∧ (s.record l').conn = some c' := by
      intro l' c' hconn
      by_cases heq : l' = l
      · rw [heq, setRecord_self] at hconn
        exact Or.inl ⟨heq, hconn⟩
      · rw [setRecord_of_ne _ heq] at hconn
        exact Or.inr ⟨heq, hconn⟩
    have hnew : ∀ {c'}, c = some c' →
        s.conn c' = { live := true } ∧ c' < s.allocated ∧ ∀ l, (s.record l).conn ≠ some c' := fun hc =>
      h.submitted _ ht _ hc
    refine ⟨h.nodup, ?_, fun x hx l' href => ?_, nodup_become h.works ht (Or.inr rfl),
      nodup_become h.fresh ht (Or.inl rfl), fun l' c' hconn => ?_, fun l₁ l₂ c' h1 h2 => ?_,
      fun x hx l' hst => ?_, fun x hx c' hc' => ?_, fun only' which' l' c' hx hconn => ?_, fun c' l' hx => ?_,
      fun c' l' hx => ?_, fun l' c' hconn hw => ?_, fun c' l' hdata => ?_, h.allocated⟩
    · show (s.usedFreed || !decide (l ∈ s.list)) = false
      simp [h.usedFreed, hl]
    · rcases List.mem_cons.mp hx with rfl | hx
      · cases href
        exact hl
      · exact h.refers x (hsub hx) l' href
    · rcases hold hconn with ⟨rfl, hc⟩ | ⟨_, hconn⟩
      · exact ⟨hl, (hnew hc).2.1⟩
      · exact h.listed l' c' hconn
    · rcases hold h1 with ⟨heq₁, hc⟩ | ⟨_, h1⟩ <;> rcases hold h2 with ⟨heq₂, hc'⟩ | ⟨_, h2⟩
      · rw [heq₁, heq₂]
      · exact absurd h2 ((hnew hc).2.2 l₂)
      · exact absurd h1 ((hnew hc').2.2 l₁)
      · exact h.owner l₁ l₂ c' h1 h2
    · rcases List.mem_cons.mp hx with rfl | hx
      · cases hst
      · have hne : l' ≠ l := by
          rintro rfl
          refine halone x hx ?_
          cases x <;> simp_all [RecordThread.starts, RecordThread.works, RecordThread.refers]
        show ((s.setRecord l { s.record l with conn := c }).record l').conn = none
        rw [setRecord_of_ne _ hne]
        exact h.unset x (hsub hx) l' hst
    · rcases List.mem_cons.mp hx with rfl | hx
      · cases hc'
      · obtain ⟨hlive, hlt, hnorec⟩ := h.submitted x (hsub hx) c' hc'
        refine ⟨hlive, hlt, fun l' hconn => ?_⟩
        rcases hold hconn with ⟨_, hc⟩ | ⟨_, hconn⟩
        · exact alone_of_nodup h.fresh ht (l := c') hc x hx hc'
        · exact hnorec l' hconn
    · rcases hold hconn with ⟨_, hc⟩ | ⟨hne, hconn⟩
      · exact (hnew hc).1
      · rcases List.mem_cons.mp hx with heq | hx
        · cases heq
          exact absurd rfl hne
        · exact h.stored only' which' l' c' (hsub hx) hconn
    · rcases List.mem_cons.mp hx with heq | hx
      · cases heq
      · obtain ⟨hlt, hnone', hlive, hiff⟩ := h.freeing c' l' (hsub hx)
        refine ⟨hlt, hnone', hlive, fun l₁ => ?_⟩
        by_cases heq : l₁ = l
        · rw [heq]
          show ((s.setRecord l { s.record l with conn := c }).record l).conn = some c' ↔ _
          rw [setRecord_self]
          refine iff_of_false (fun hc => ?_) (fun hl' => halone _ hx hl')
          rw [(hnew hc).1] at hlive
          cases hlive
        · show ((s.setRecord l { s.record l with conn := c }).record l₁).conn = some c' ↔ _
          rw [setRecord_of_ne _ heq]
          exact hiff l₁
    · rcases List.mem_cons.mp hx with heq | hx
      · cases heq
      · have hne : l' ≠ l := by
          rintro rfl
          exact halone _ hx rfl
        show ((s.setRecord l { s.record l with conn := c }).record l').conn = some c' ∧ _
        rw [setRecord_of_ne _ hne]
        exact h.clearing c' l' (hsub hx)
    · rcases hold hconn with ⟨rfl, hc⟩ | ⟨hne, hconn⟩
      · exact absurd rfl (hw _ List.mem_cons_self)
      · refine h.known l' c' hconn fun x hx hxw => ?_
        by_cases heq : x = .submitted only which l c
        · rw [heq] at hxw
          cases hxw
          exact hne rfl
        · exact hw x (List.mem_cons_of_mem _ ((List.mem_erase_of_ne heq).mpr hx)) hxw
    · obtain ⟨hconn, hw⟩ := h.data c' l' hdata
      have hne : l' ≠ l := by
        rintro rfl
        rw [hnone] at hconn
        cases hconn
      refine ⟨?_, fun x hx => ?_⟩
      · show ((s.setRecord l { s.record l with conn := c }).record l').conn = some c'
        rw [setRecord_of_ne _ hne]
        exact hconn
      · rcases List.mem_cons.mp hx with rfl | hx
        · intro heq
          cases heq
          exact hne rfl
        · exact hw x (hsub hx)

/-- The state and the conn's `client.data` are set, and the thread has done with the record. -/
theorem RecordsInv.settle (h : RecordsInv s) {only : Option ℕ} {which l : ℕ}
    (ht : .stored only which l ∈ s.threads) :
    RecordsInv { s.settle l with threads := s.threads.erase (.stored only which l) } := by
  have halone := alone_of_nodup h.works ht (l := l) rfl
  have hsub : ∀ {x}, x ∈ s.threads.erase (.stored only which l) → x ∈ s.threads := fun hx =>
    List.mem_of_mem_erase hx
  have hconns : ∀ l', ((s.settle l).record l').conn = (s.record l').conn := by
    intro l'
    unfold ManagedListeners.settle
    split
    · by_cases heq : l' = l
      · rw [heq]
        show ((s.setRecord l _).record l).conn = _
        rw [setRecord_self]
        rfl
      · show ((s.setRecord l _).record l').conn = _
        rw [setRecord_of_ne _ heq]
    · by_cases heq : l' = l
      · rw [heq, setRecord_self]
        rfl
      · rw [setRecord_of_ne _ heq]
  have hlist : (s.settle l).list = s.list ∧ (s.settle l).usedFreed = s.usedFreed ∧
      (s.settle l).allocated = s.allocated := by
    unfold ManagedListeners.settle
    split <;> exact ⟨rfl, rfl, rfl⟩
  -- the conn of this record, and the others
  have hset : ∀ c, (s.record l).conn = some c → (s.settle l).conn c = { live := true, data := some l } := by
    intro c hc
    have hstored := h.stored only which l c ht hc
    unfold ManagedListeners.settle
    rw [hc]
    show (ManagedListeners.setConn _ c _).conn c = _
    rw [setConn_self, hstored]
  have hold : ∀ c, (s.record l).conn ≠ some c → (s.settle l).conn c = s.conn c := by
    intro c hc
    unfold ManagedListeners.settle
    split
    next c' hc' =>
      have hne : c ≠ c' := by
        rintro rfl
        exact hc hc'
      rw [setConn_of_ne _ hne]
      rfl
    · rfl
  have hother : ∀ {c x}, x ∈ s.threads.erase (.stored only which l) → x.fresh = some c →
      (s.record l).conn ≠ some c := fun hx hc hconn => (h.submitted _ (hsub hx) _ hc).2.2 l hconn
  refine ⟨by rw [hlist.1]; exact h.nodup, hlist.2.1.trans h.usedFreed, fun x hx l' href => ?_, nodup_erase h.works _,
    nodup_erase h.fresh _, fun l' c hconn => ?_, fun l₁ l₂ c h1 h2 => ?_, fun x hx l' hst => ?_, fun x hx c hc => ?_,
    fun only' which' l' c hx hconn => ?_, fun c l' hx => ?_, fun c l' hx => ?_, fun l' c hconn hw => ?_,
    fun c l' hdata => ?_, fun c hc => ?_⟩
  · rw [hlist.1]
    exact h.refers x (hsub hx) l' href
  · rw [hlist.1, hlist.2.2]
    exact h.listed l' c ((hconns l').symm.trans hconn)
  · exact h.owner l₁ l₂ c ((hconns l₁).symm.trans h1) ((hconns l₂).symm.trans h2)
  · exact (hconns l').trans (h.unset x (hsub hx) l' hst)
  · obtain ⟨hlive, hlt, hnorec⟩ := h.submitted x (hsub hx) c hc
    rw [hlist.2.2]
    refine ⟨(hold c (hnorec l)).trans hlive, hlt, fun l' hconn => ?_⟩
    exact hnorec l' ((hconns l').symm.trans hconn)
  · have hconn := (hconns l').symm.trans hconn
    have hne : (s.record l).conn ≠ some c := by
      intro hc
      exact halone (.stored only' which' l') hx (congrArg some (h.owner l' l c hconn hc))
    exact (hold c hne).trans (h.stored only' which' l' c (hsub hx) hconn)
  · obtain ⟨hlt, hnone, hlive, hiff⟩ := h.freeing c l' (hsub hx)
    have hne : (s.record l).conn ≠ some c := fun hc => halone _ hx ((hiff l).mp hc)
    show c < (s.settle l).allocated ∧ ((s.settle l).conn c).data = none ∧ ((s.settle l).conn c).live = false ∧
      ∀ l₁, ((s.settle l).record l₁).conn = some c ↔ l' = some l₁
    rw [hlist.2.2, hold c hne]
    exact ⟨hlt, hnone, hlive, fun l₁ => by rw [hconns l₁]; exact hiff l₁⟩
  · have hclearing := h.clearing c l' (hsub hx)
    have hne : (s.record l).conn ≠ some c := by
      intro hc
      exact halone (.clearing c l') hx (congrArg some (h.owner l' l c hclearing.1 hc))
    show ((s.settle l).record l').conn = some c ∧ ((s.settle l).conn c).freed = true ∧ ((s.settle l).conn c).data = none ∧
      ((s.settle l).conn c).live = false
    rw [hold c hne, hconns l']
    exact hclearing
  · have hconn := (hconns l').symm.trans hconn
    show ((s.settle l).conn c).freed = false ∧ ((s.settle l).conn c).data = some l'
    by_cases hc : (s.record l).conn = some c
    · rw [hset c hc, h.owner l l' c hc hconn]
      exact ⟨rfl, rfl⟩
    · rw [hold c hc]
      refine h.known l' c hconn fun x hx hxw => ?_
      by_cases heq : x = .stored only which l
      · rw [heq] at hxw
        cases hxw
        exact hc hconn
      · exact hw x ((List.mem_erase_of_ne heq).mpr hx) hxw
  · have hdata : ((s.settle l).conn c).data = some l' := hdata
    show ((s.settle l).record l').conn = some c ∧ _
    rw [hconns l']
    by_cases hc : (s.record l).conn = some c
    · rw [hset c hc] at hdata
      cases hdata
      exact ⟨hc, halone⟩
    · rw [hold c hc] at hdata
      obtain ⟨hconn, hw⟩ := h.data c l' hdata
      exact ⟨hconn, fun x hx => hw x (hsub hx)⟩
  · have hc : s.allocated ≤ c := by
      rw [← hlist.2.2]
      exact hc
    have hne : (s.record l).conn ≠ some c := fun hconn => absurd (h.listed l c hconn).2 (by omega)
    exact (hold c hne).trans (h.allocated c hc)

/-- The callback takes the record from the conn. -/
theorem RecordsInv.callback (h : RecordsInv s) {c : ℕ} (hok : RecordsOrderly s (.callback c))
    (hs : recordMove s (.callback c) = some s') : RecordsInv s' := by
  simp only [recordMove] at hs
  split at hs <;> cases hs
  next hlive =>
    have hlt : c < s.allocated := by
      by_contra hge
      rw [h.allocated c (by omega)] at hlive
      cases hlive
    have hdata : ∀ l, (s.conn c).data = some l → (s.record l).conn = some c ∧ ∀ t ∈ s.threads, t.works ≠ some l :=
      fun l => h.data c l
    -- a record with this conn is the one that the conn knows
    have hrecord : ∀ l, (s.record l).conn = some c → (s.conn c).data = some l := by
      intro l hconn
      refine (h.known l c hconn fun t ht hworks => ?_).2
      have hunset : t.starts l = true → False := fun hstarts => by
        rw [h.unset t ht l hstarts] at hconn
        cases hconn
      cases t with
      | starting only which => cases hworks
      | listening only which l' =>
        cases hworks
        exact hunset (by simp [RecordThread.starts])
      | submitted only which l' c' =>
        cases hworks
        exact hunset (by simp [RecordThread.starts])
      | stored only which l' =>
        cases hworks
        exact (hok.2 _ ht).2 l rfl hconn
      | freeing c' l' =>
        have heq : l' = some l := hworks
        have hfreeing := h.freeing c' l' ht
        have hc := (hfreeing.2.2.2 l).mpr heq
        rw [hconn] at hc
        cases hc
        rw [hfreeing.2.2.1] at hlive
        cases hlive
      | clearing c' l' =>
        cases hworks
        have hclearing := h.clearing c' l ht
        rw [hconn] at hclearing
        cases hclearing.1
        rw [hclearing.2.2.2] at hlive
        cases hlive
      | restarting l' =>
        cases hworks
        exact hunset (by simp [RecordThread.starts])
    have hself : (s.setConn c { s.conn c with data := none, live := false }).conn c =
        { s.conn c with data := none, live := false } := setConn_self _ _ _
    have hold : ∀ {c'}, c' ≠ c → (s.setConn c { s.conn c with data := none, live := false }).conn c' = s.conn c' :=
      fun hne => setConn_of_ne _ hne _
    have hcons : ∀ {x}, x ∈ .freeing c (s.conn c).data :: s.threads →
        x = .freeing c (s.conn c).data ∨ x ∈ s.threads := fun hx => List.mem_cons.mp hx
    refine ⟨h.nodup, h.usedFreed, fun x hx l href => ?_, nodup_cons_of_alone h.works fun l hl => ?_,
      nodup_cons_of_alone h.fresh (fun l hl => by cases hl), h.listed, h.owner, fun x hx l hst => ?_,
      fun x hx c' hc' => ?_, fun only which l c' hx hconn => ?_, fun c' l hx => ?_, fun c' l hx => ?_,
      fun l c' hconn hw => ?_, fun c' l hdata' => ?_, fun c' hc' => ?_⟩
    · rcases hcons hx with rfl | hx
      · exact (h.listed l c (hdata l href).1).1
      · exact h.refers x hx l href
    · exact (hdata l hl).2
    · rcases hcons hx with rfl | hx
      · cases hst
      · exact h.unset x hx l hst
    · rcases hcons hx with rfl | hx
      · cases hc'
      · have hne : c' ≠ c := by
          intro heq
          rw [heq] at hc'
          exact (hok.2 x hx).1 hc'
        obtain ⟨hlive', hlt', hnorec⟩ := h.submitted x hx c' hc'
        exact ⟨(hold hne).trans hlive', hlt', hnorec⟩
    · rcases hcons hx with heq | hx
      · cases heq
      · have hne : c' ≠ c := by
          intro heq
          rw [heq] at hconn
          exact (hok.2 _ hx).2 l rfl hconn
        exact (hold hne).trans (h.stored only which l c' hx hconn)
    · show c' < s.allocated ∧ ((s.setConn c _).conn c').data = none ∧ ((s.setConn c _).conn c').live = false ∧ _
      rcases hcons hx with heq | hx
      · cases heq
        rw [hself]
        exact ⟨hlt, rfl, rfl, fun l' => ⟨hrecord l', fun hl' => (hdata l' hl').1⟩⟩
      · have hfreeing := h.freeing c' l hx
        have hne : c' ≠ c := by
          rintro rfl
          rw [hfreeing.2.2.1] at hlive
          cases hlive
        rw [hold hne]
        exact hfreeing
    · show (s.record l).conn = some c' ∧ ((s.setConn c _).conn c').freed = true ∧
        ((s.setConn c _).conn c').data = none ∧ ((s.setConn c _).conn c').live = false
      rcases hcons hx with heq | hx
      · cases heq
      · have hclearing := h.clearing c' l hx
        have hne : c' ≠ c := by
          rintro rfl
          rw [hclearing.2.2.2] at hlive
          cases hlive
        rw [hold hne]
        exact hclearing
    · have hne : c' ≠ c := by
        rintro rfl
        exact hw _ List.mem_cons_self (hrecord l hconn)
      show ((s.setConn c _).conn c').freed = false ∧ ((s.setConn c _).conn c').data = some l
      rw [hold hne]
      exact h.known l c' hconn fun t ht => hw t (List.mem_cons_of_mem _ ht)
    · have hdata' : ((s.setConn c { s.conn c with data := none, live := false }).conn c').data = some l := hdata'
      have hne : c' ≠ c := by
        rintro rfl
        rw [hself] at hdata'
        cases hdata'
      rw [hold hne] at hdata'
      obtain ⟨hconn, hw⟩ := h.data c' l hdata'
      refine ⟨hconn, fun x hx => ?_⟩
      rcases hcons hx with rfl | hx
      · intro heq
        have hc := (hdata l heq).1
        rw [hconn] at hc
        cases hc
        exact hne rfl
      · exact hw x hx
    · have hc' : s.allocated ≤ c' := hc'
      exact (hold (by omega)).trans (h.allocated c' hc')

/-- The callback frees the conn. -/
theorem RecordsInv.free (h : RecordsInv s) {c : ℕ} {l : Option ℕ} (hs : recordMove s (.free c l) = some s') :
    RecordsInv s' := by
  simp only [recordMove] at hs
  split at hs <;> cases hs
  next ht =>
    obtain ⟨hlt, hnone, hlive, hiff⟩ := h.freeing c l ht
    have hself : (s.setConn c { s.conn c with freed := true }).conn c = { s.conn c with freed := true } :=
      setConn_self _ _ _
    have hold : ∀ {c'}, c' ≠ c → (s.setConn c { s.conn c with freed := true }).conn c' = s.conn c' :=
      fun hne => setConn_of_ne _ hne _
    have hmem : ∀ {x}, x ∈ l.toList.map (RecordThread.clearing c) ++ s.threads.erase (.freeing c l) →
        (∃ l', l = some l' ∧ x = RecordThread.clearing c l') ∨ x ∈ s.threads.erase (.freeing c l) := by
      intro x hx
      rcases List.mem_append.mp hx with hx | hx
      · obtain ⟨l', hl', rfl⟩ := List.mem_map.mp hx
        exact Or.inl ⟨l', Option.mem_toList.mp hl', rfl⟩
      · exact Or.inr hx
    have hsub : ∀ {x}, x ∈ s.threads.erase (.freeing c l) → x ∈ s.threads := fun hx => List.mem_of_mem_erase hx
    have halone : ∀ l', l = some l' → ∀ x ∈ s.threads.erase (.freeing c l), x.works ≠ some l' := fun l' hl' =>
      alone_of_nodup h.works ht (l := l') hl'
    have hnodup : ∀ f : RecordThread → Option ℕ, (s.threads.filterMap f).Nodup →
        (∀ l', l = some l' → f (.clearing c l') = none ∨ f (.clearing c l') = f (.freeing c l)) →
        ((l.toList.map (RecordThread.clearing c) ++ s.threads.erase (.freeing c l)).filterMap f).Nodup := by
      intro f hf hsame
      cases l with
      | none => exact nodup_erase hf _
      | some l' => exact nodup_become hf ht (hsame l' rfl)
    refine ⟨h.nodup, h.usedFreed, fun x hx l' href => ?_, hnodup _ h.works (fun l' hl' => Or.inr hl'.symm),
      hnodup _ h.fresh (fun l' _ => Or.inl rfl), h.listed, h.owner, fun x hx l' hst => ?_, fun x hx c' hc' => ?_,
      fun only which l' c' hx hconn => ?_, fun c' l' hx => ?_, fun c' l' hx => ?_, fun l' c' hconn hw => ?_,
      fun c' l' hdata => ?_, fun c' hc' => ?_⟩
    · rcases hmem hx with ⟨l₁, hl₁, rfl⟩ | hx
      · cases href
        exact h.refers _ ht l' hl₁
      · exact h.refers x (hsub hx) l' href
    · rcases hmem hx with ⟨l₁, _, rfl⟩ | hx
      · cases hst
      · exact h.unset x (hsub hx) l' hst
    · rcases hmem hx with ⟨l₁, _, rfl⟩ | hx
      · cases hc'
      · obtain ⟨hnew, hlt', hnorec⟩ := h.submitted x (hsub hx) c' hc'
        have hne : c' ≠ c := by
          rintro rfl
          rw [hnew] at hlive
          cases hlive
        exact ⟨(hold hne).trans hnew, hlt', hnorec⟩
    · rcases hmem hx with ⟨l₁, _, heq⟩ | hx
      · cases heq
      · have hstored := h.stored only which l' c' (hsub hx) hconn
        have hne : c' ≠ c := by
          rintro rfl
          rw [hstored] at hlive
          cases hlive
        exact (hold hne).trans hstored
    · rcases hmem hx with ⟨l₁, _, heq⟩ | hx
      · cases heq
      · have hfreeing := h.freeing c' l' (hsub hx)
        show c' < s.allocated ∧ ((s.setConn c _).conn c').data = none ∧ ((s.setConn c _).conn c').live = false ∧ _
        by_cases heq : c' = c
        · rw [heq, hself]
          exact ⟨hlt, hnone, hlive, heq ▸ hfreeing.2.2.2⟩
        · rw [hold heq]
          exact hfreeing
    · show (s.record l').conn = some c' ∧ ((s.setConn c _).conn c').freed = true ∧
        ((s.setConn c _).conn c').data = none ∧ ((s.setConn c _).conn c').live = false
      rcases hmem hx with ⟨l₁, hl₁, heq⟩ | hx
      · cases heq
        rw [hself]
        exact ⟨(hiff l').mpr hl₁, rfl, hnone, hlive⟩
      · have hclearing := h.clearing c' l' (hsub hx)
        have hne : c' ≠ c := by
          rintro rfl
          exact halone l' ((hiff l').mp hclearing.1) (.clearing c' l') hx rfl
        rw [hold hne]
        exact hclearing
    · have hconn : (s.record l').conn = some c' := hconn
      show ((s.setConn c _).conn c').freed = false ∧ ((s.setConn c _).conn c').data = some l'
      have hne : c' ≠ c := by
        rintro rfl
        have hl' := (hiff l').mp hconn
        exact hw (.clearing c' l') (List.mem_append_left _ (List.mem_map.mpr ⟨l', by simp [hl'], rfl⟩)) rfl
      rw [hold hne]
      refine h.known l' c' hconn fun x hx hxw => ?_
      by_cases heq : x = .freeing c l
      · rw [heq] at hxw
        have hc := (hiff l').mpr hxw
        rw [hconn] at hc
        exact hne (Option.some.inj hc)
      · exact hw x (List.mem_append_right _ ((List.mem_erase_of_ne heq).mpr hx)) hxw
    · have hdata : ((s.setConn c { s.conn c with freed := true }).conn c').data = some l' := hdata
      have hne : c' ≠ c := by
        rintro rfl
        rw [hself, show _ = none from hnone] at hdata
        cases hdata
      rw [hold hne] at hdata
      obtain ⟨hconn, hw⟩ := h.data c' l' hdata
      refine ⟨hconn, fun x hx => ?_⟩
      rcases hmem hx with ⟨l₁, hl₁, rfl⟩ | hx
      · intro heq
        cases heq
        exact hw _ ht hl₁
      · exact hw x (hsub hx)
    · have hc' : s.allocated ≤ c' := hc'
      exact (hold (by omega)).trans (h.allocated c' hc')

/-- The callback clears the record. -/
theorem RecordsInv.clear (h : RecordsInv s) {c l : ℕ} (hs : recordMove s (.clear c l) = some s') :
    RecordsInv s' := by
  simp only [recordMove] at hs
  split at hs <;> cases hs
  next ht =>
    have hl : l ∈ s.list := h.refers _ ht l rfl
    obtain ⟨hconn, _, hnone, hlive⟩ := h.clearing c l ht
    have halone := alone_of_nodup h.works ht (l := l) rfl
    have hsub : ∀ {x}, x ∈ s.threads.erase (.clearing c l) → x ∈ s.threads := fun hx => List.mem_of_mem_erase hx
    obtain ⟨again, hagain⟩ : ∃ again, again = if s.closing = false ∧ (s.record l).has connListenerStopped = false then
        [RecordThread.restarting l] else [] := ⟨_, rfl⟩
    rw [← hagain]
    have hor : again = [.restarting l] ∨ again = [] := by
      rw [hagain]
      split
      · exact Or.inl rfl
      · exact Or.inr rfl
    have hmem : ∀ {x}, x ∈ again ++ s.threads.erase (.clearing c l) →
        x = .restarting l ∨ x ∈ s.threads.erase (.clearing c l) := by
      intro x hx
      rcases List.mem_append.mp hx with hx | hx
      · rcases hor with heq | heq <;> rw [heq] at hx
        · exact Or.inl (List.mem_singleton.mp hx)
        · cases hx
      · exact Or.inr hx
    have hnodup : ∀ f : RecordThread → Option ℕ, (s.threads.filterMap f).Nodup →
        (f (.restarting l) = none ∨ f (.restarting l) = f (.clearing c l)) →
        ((again ++ s.threads.erase (.clearing c l)).filterMap f).Nodup := by
      intro f hf hsame
      rcases hor with heq | heq <;> rw [heq]
      · exact nodup_become hf ht hsame
      · exact nodup_erase hf _
    have hold : ∀ {l' c'}, ((s.setRecord l { s.record l with conn := none }).record l').conn = some c' →
        l' ≠ l ∧ (s.record l').conn = some c' := by
      intro l' c' hconn'
      by_cases heq : l' = l
      · rw [heq, setRecord_self] at hconn'
        cases hconn'
      · rw [setRecord_of_ne _ heq] at hconn'
        exact ⟨heq, hconn'⟩
    have hsame : ∀ {l'}, l' ≠ l → (s.setRecord l { s.record l with conn := none }).record l' = s.record l' :=
      fun hne => setRecord_of_ne _ hne _
    refine ⟨h.nodup, ?_, fun x hx l' href => ?_, hnodup _ h.works (Or.inr rfl), hnodup _ h.fresh (Or.inl rfl),
      fun l' c' hconn' => ?_, fun l₁ l₂ c' h1 h2 => ?_, fun x hx l' hst => ?_, fun x hx c' hc' => ?_,
      fun only which l' c' hx hconn' => ?_, fun c' l' hx => ?_, fun c' l' hx => ?_, fun l' c' hconn' hw => ?_,
      fun c' l' hdata => ?_, h.allocated⟩
    · show (s.usedFreed || !decide (l ∈ s.list)) = false
      simp [h.usedFreed, hl]
    · rcases hmem hx with rfl | hx
      · cases href
        exact hl
      · exact h.refers x (hsub hx) l' href
    · exact h.listed l' c' (hold hconn').2
    · exact h.owner l₁ l₂ c' (hold h1).2 (hold h2).2
    · show ((s.setRecord l { s.record l with conn := none }).record l').conn = none
      by_cases heq : l' = l
      · rw [heq, setRecord_self]
      · rw [hsame heq]
        rcases hmem hx with rfl | hx
        · exact absurd (by simpa [RecordThread.starts] using hst : l = l').symm heq
        · exact h.unset x (hsub hx) l' hst
    · rcases hmem hx with rfl | hx
      · cases hc'
      · obtain ⟨hnew, hlt, hnorec⟩ := h.submitted x (hsub hx) c' hc'
        exact ⟨hnew, hlt, fun l' hconn' => hnorec l' (hold hconn').2⟩
    · rcases hmem hx with heq | hx
      · cases heq
      · exact h.stored only which l' c' (hsub hx) (hold hconn').2
    · rcases hmem hx with heq | hx
      · cases heq
      · obtain ⟨hlt, hdata, hlive', hiff⟩ := h.freeing c' l' (hsub hx)
        refine ⟨hlt, hdata, hlive', fun l₁ => ?_⟩
        show ((s.setRecord l { s.record l with conn := none }).record l₁).conn = some c' ↔ l' = some l₁
        by_cases heq : l₁ = l
        · rw [heq, setRecord_self]
          exact iff_of_false (fun hc => by cases hc) fun hl' => halone (.freeing c' l') hx hl'
        · rw [hsame heq]
          exact hiff l₁
    · rcases hmem hx with heq | hx
      · cases heq
      · have hne : l' ≠ l := fun heq => halone (.clearing c' l') hx (congrArg some heq)
        show ((s.setRecord l { s.record l with conn := none }).record l').conn = some c' ∧ _
        rw [hsame hne]
        exact h.clearing c' l' (hsub hx)
    · obtain ⟨hne, hconn'⟩ := hold hconn'
      refine h.known l' c' hconn' fun x hx hxw => ?_
      by_cases heq : x = .clearing c l
      · rw [heq] at hxw
        exact hne (Option.some.inj hxw).symm
      · exact hw x (List.mem_append_right _ ((List.mem_erase_of_ne heq).mpr hx)) hxw
    · obtain ⟨hconn', hw⟩ := h.data c' l' hdata
      have hne : l' ≠ l := fun heq => hw (.clearing c l) ht (congrArg some heq.symm)
      refine ⟨?_, fun x hx => ?_⟩
      · show ((s.setRecord l { s.record l with conn := none }).record l').conn = some c'
        rw [hsame hne]
        exact hconn'
      · rcases hmem hx with rfl | hx
        · exact fun heq => hne (Option.some.inj heq).symm
        · exact hw x (hsub hx)

/-- The states of records change. -/
theorem RecordsInv.states (h : RecordsInv s) (record : ℕ → ConnListenerPriv)
    (hconn : ∀ l, (record l).conn = (s.record l).conn) : RecordsInv { s with record := record } := by
  refine ⟨h.nodup, h.usedFreed, h.refers, h.works, h.fresh, fun l c hc => h.listed l c ((hconn l).symm.trans hc),
    fun l l' c h1 h2 => h.owner l l' c ((hconn l).symm.trans h1) ((hconn l').symm.trans h2),
    fun t ht l hst => (hconn l).trans (h.unset t ht l hst), fun t ht c hc => ?_,
    fun only which l c ht hc => h.stored only which l c ht ((hconn l).symm.trans hc), fun c l ht => ?_,
    fun c l ht => ?_, fun l c hc => h.known l c ((hconn l).symm.trans hc), fun c l hdata => ?_, h.allocated⟩
  · obtain ⟨hnew, hlt, hnorec⟩ := h.submitted t ht c hc
    exact ⟨hnew, hlt, fun l hl => hnorec l ((hconn l).symm.trans hl)⟩
  · obtain ⟨hlt, hdata, hlive, hiff⟩ := h.freeing c l ht
    exact ⟨hlt, hdata, hlive, fun l' => by rw [hconn l']; exact hiff l'⟩
  · obtain ⟨hrecord, hrest⟩ := h.clearing c l ht
    exact ⟨(hconn l).trans hrecord, hrest⟩
  · obtain ⟨hrecord, hw⟩ := h.data c l hdata
    exact ⟨(hconn l).trans hrecord, hw⟩

/-- Records are freed that nobody refers to and that have no conn. -/
theorem RecordsInv.filter (h : RecordsInv s) {p : ℕ → Bool}
    (hp : ∀ l ∈ s.list, p l = false → (s.record l).conn = none ∧ ∀ t ∈ s.threads, t.refers ≠ some l) :
    RecordsInv { s with list := s.list.filter p } := by
  have hkeep : ∀ {l}, l ∈ s.list → ((s.record l).conn ≠ none ∨ ∃ t ∈ s.threads, t.refers = some l) →
      l ∈ s.list.filter p := by
    intro l hl hused
    refine List.mem_filter.mpr ⟨hl, ?_⟩
    by_contra hnot
    obtain ⟨hnone, hrefers⟩ := hp l hl (Bool.eq_false_iff.mpr hnot)
    rcases hused with hconn | ⟨t, ht, href⟩
    · exact hconn hnone
    · exact hrefers t ht href
  refine ⟨h.nodup.filter p, h.usedFreed, fun t ht l href => hkeep (h.refers t ht l href) (Or.inr ⟨t, ht, href⟩), h.works,
    h.fresh, fun l c hconn => ?_, h.owner, h.unset, h.submitted, h.stored, h.freeing, h.clearing, h.known, h.data,
    h.allocated⟩
  obtain ⟨hl, hc⟩ := h.listed l c hconn
  exact ⟨hkeep hl (Or.inl (by rw [hconn]; simp)), hc⟩

/-- `ConnAStartListenerEx` is called. -/
theorem RecordsInv.start (h : RecordsInv s) {only : Option ℕ} (honly : ∀ l, only = some l → l ∈ s.list)
    (which : ℕ) : RecordsInv { s with threads := .starting only which :: s.threads } := by
  have hcons : ∀ {x}, x ∈ RecordThread.starting only which :: s.threads →
      x = .starting only which ∨ x ∈ s.threads := fun hx => List.mem_cons.mp hx
  refine ⟨h.nodup, h.usedFreed, fun t ht l href => ?_, h.works, h.fresh, h.listed, h.owner, fun t ht l hst => ?_,
    fun t ht c hc => ?_, fun only' which' l c ht => ?_, fun c l ht => ?_, fun c l ht => ?_,
    fun l c hconn hw => h.known l c hconn fun t ht => hw t (List.mem_cons_of_mem _ ht), fun c l hdata => ?_,
    h.allocated⟩
  · rcases hcons ht with rfl | ht
    · exact honly l href
    · exact h.refers t ht l href
  · rcases hcons ht with rfl | ht
    · cases hst
    · exact h.unset t ht l hst
  · rcases hcons ht with rfl | ht
    · cases hc
    · exact h.submitted t ht c hc
  · rcases hcons ht with heq | ht
    · cases heq
    · exact h.stored only' which' l c ht
  · rcases hcons ht with heq | ht
    · cases heq
    · exact h.freeing c l ht
  · rcases hcons ht with heq | ht
    · cases heq
    · exact h.clearing c l ht
  · obtain ⟨hconn, hw⟩ := h.data c l hdata
    refine ⟨hconn, fun t ht => ?_⟩
    rcases hcons ht with rfl | ht
    · exact fun heq => by cases heq
    · exact hw t ht

theorem RecordsInv.use (h : RecordsInv s) {l : ℕ} (hl : l ∈ s.list) : (s.use l).usedFreed = false := by
  show (s.usedFreed || !decide (l ∈ s.list)) = false
  simp [h.usedFreed, hl]

theorem remove_conn (s : ManagedListeners) (which : ℕ) (only : Option ℕ) (cllist : Bool) (l : ℕ) :
    ((s.remove which only cllist).record l).conn = (s.record l).conn := by
  show (if _ then _ else _ : ConnListenerPriv).conn = _
  split <;> rfl

theorem rest_subset (s : ManagedListeners) (only : Option ℕ) (l : ℕ) : ∀ l' ∈ s.rest only l, l' ∈ s.list := by
  intro l' hl'
  unfold ManagedListeners.rest at hl'
  split at hl'
  · cases hl'
  · exact (List.dropWhile_suffix _).subset (List.mem_of_mem_tail hl')

/-- A loop that frees records in time uses none of them. -/
theorem remove_usedFreed {which : ℕ} {only : Option ℕ} {cllist : Bool} (hused : s.usedFreed = false)
    (hok : FreesUnused s (.remove which only cllist)) : (s.remove which only cllist).usedFreed = false := by
  show (s.usedFreed || (cllist && s.list.any (s.unused which only))) = false
  rw [hused, Bool.false_or, Bool.and_eq_false_iff]
  by_cases hany : s.list.any (s.unused which only) = true
  · obtain ⟨l, hl, hunused⟩ := List.any_eq_true.mp hany
    exact Or.inl (hok l hl hunused).1
  · exact Or.inr (Bool.eq_false_iff.mpr hany)

theorem status_eq {which : ℕ} {only : Option ℕ} (hok : FreesUnused s (.status which only true)) :
    s.status which only = s := by
  have hnone : s.list.find? (s.unused which only) = none := by
    rw [List.find?_eq_none]
    intro l hl
    rw [hok rfl l hl]
    decide
  unfold ManagedListeners.status
  rw [hnone]

/-- **Every orderly step (proved).** -/
theorem recordStep_inv {a : RecordAction} (h : RecordsInv s) (hok : RecordsOrderly s a)
    (hs : recordStep s a = some s') : RecordsInv s' := by
  unfold recordStep at hs
  split at hs
  · cases hs
  cases a with
  | start only which =>
    simp only [recordMove] at hs
    split at hs
    next honly =>
      split at hs <;> cases hs
      · exact h
      · refine h.start (fun l hl => ?_) _
        rw [hl] at honly
        simpa using honly
    · cases hs
  | lock only which =>
    simp only [recordMove] at hs
    split at hs <;> cases hs
    next ht =>
      have hretire := h.retire (t := .starting only which) fun l c hworks => by cases hworks
      have hscan := hretire.scan only which (s.candidates only) (fun l hl => ?_) (fun l hl t ht' => ?_)
      · cases only with
        | none => exact hscan
        | some l =>
          have hused := h.use (h.refers _ ht l rfl)
          exact { hscan with usedFreed := hused }
      · cases only with
        | none => exact hl
        | some l' =>
          rw [List.mem_singleton.mp hl]
          exact h.refers _ ht l' rfl
      · exact hok.2 l hl t (List.mem_of_mem_erase ht')
  | listen only which l ok => exact h.listen hs
  | store only which l c => exact h.store hs
  | relock only which l =>
    simp only [recordMove] at hs
    split at hs <;> cases hs
    next ht =>
      have hlist : (s.settle l).list = s.list := by
        unfold ManagedListeners.settle
        split <;> rfl
      have hsettle := h.settle ht
      have hscan := hsettle.scan only which (s.rest only l)
        (fun l' hl' => hlist.symm ▸ rest_subset s only l l' hl')
        (fun l' hl' t ht' => hok.2 l' hl' t (List.mem_of_mem_erase ht'))
      have hused : ((s.settle l).use l).usedFreed = false := by
        show ((s.settle l).usedFreed || !decide (l ∈ (s.settle l).list)) = false
        have hfalse : (s.settle l).usedFreed = false := hsettle.usedFreed
        rw [hfalse, hlist]
        simp [h.refers _ ht l rfl]
      have hthreads : (s.settle l).threads = s.threads := by
        unfold ManagedListeners.settle
        split <;> rfl
      show RecordsInv { (s.settle l).use l with
        threads := (s.settle l).scan only which (s.rest only l) ++
          (s.settle l).threads.erase (.stored only which l) }
      rw [hthreads]
      exact { hscan with usedFreed := hused }
  | stop which only =>
    cases hs
    refine h.states _ fun l => ?_
    split <;> rfl
  | remove which only cllist =>
    cases hs
    have hstates := h.states (s.remove which only cllist).record (remove_conn s which only cllist)
    have hfilter := hstates.filter (p := fun l => !s.unused which only l) fun l hl hunused => ?_
    · have hused := remove_usedFreed h.usedFreed hok.1
      exact { hfilter with usedFreed := hused }
    · have hunused : s.unused which only l = true := by simpa using hunused
      have hnone : (s.record l).conn = none := by
        have hand := (Bool.and_eq_true_iff.mp hunused).2
        simpa using hand
      exact ⟨(remove_conn s which only cllist l).trans hnone, (hok.1 l hl hunused).2⟩
  | status which only shuttingdown =>
    cases hs
    cases shuttingdown with
    | true =>
      rw [if_pos rfl, status_eq hok.1]
      exact h
    | false => exact h
  | callback c => exact h.callback hok hs
  | free c l => exact h.free hs
  | clear c l => exact h.clear hs
  | restart l =>
    simp only [recordMove] at hs
    split at hs <;> cases hs
    next ht =>
      have hnone := h.unset _ ht l (by simp [RecordThread.starts])
      have hretire := h.retire (t := .restarting l) fun l' c hworks hconn => by
        cases hworks
        rw [hnone] at hconn
        cases hconn
      exact { hretire with usedFreed := h.use (h.refers _ ht l rfl) }
  | close =>
    cases hs
    exact ⟨h.nodup, h.usedFreed, h.refers, h.works, h.fresh, h.listed, h.owner, h.unset, h.submitted, h.stored,
      h.freeing, h.clearing, h.known, h.data, h.allocated⟩

theorem recordsInv_new (states : List ℕ) : RecordsInv (ManagedListeners.new states) where
  nodup := List.nodup_range
  usedFreed := rfl
  refers := fun t ht => by cases ht
  works := List.nodup_nil
  fresh := List.nodup_nil
  listed := fun l c h => by cases h
  owner := fun l l' c h => by cases h
  unset := fun t ht => by cases ht
  submitted := fun t ht => by cases ht
  stored := fun only which l c ht => by cases ht
  freeing := fun c l ht => by cases ht
  clearing := fun c l ht => by cases ht
  known := fun l c h => by cases h
  data := fun c l h => by cases h
  allocated := fun c _ => rfl

end Steps

/-! ### Every run -/

/-- **No record has a conn, and no conn a record;** a record is there as long as a thread refers to it. -/
structure NoneStarted (s : ManagedListeners) : Prop where
  conn : ∀ l, (s.record l).conn = none
  data : ∀ c, (s.conn c).data = none
  refers : ∀ t ∈ s.threads, ∀ l, t.refers = some l → l ∈ s.list
  usedFreed : s.usedFreed = false

section NoneStarted

variable {s s' : ManagedListeners}

/-- A thread that refers to a record goes on with it. -/
theorem NoneStarted.goOn (h : NoneStarted s) {t : RecordThread} (ht : t ∈ s.threads) {l : ℕ}
    (hrefers : t.refers = some l) (again : List RecordThread)
    (hagain : ∀ t' ∈ again, ∀ l', t'.refers = some l' → l' ∈ s.list) :
    (s.use l).usedFreed = false ∧
      ∀ t' ∈ again ++ s.threads.erase t, ∀ l', t'.refers = some l' → l' ∈ s.list := by
  constructor
  · show (s.usedFreed || !decide (l ∈ s.list)) = false
    simp [h.usedFreed, h.refers t ht l hrefers]
  · intro t' ht'
    rcases List.mem_append.mp ht' with ht' | ht'
    · exact hagain t' ht'
    · exact h.refers t' (List.mem_of_mem_erase ht')

theorem scan_refers (s : ManagedListeners) (only : Option ℕ) (which : ℕ) (from_ : List ℕ) {list : List ℕ}
    (hfrom : ∀ l ∈ from_, l ∈ list) : ∀ t ∈ s.scan only which from_, ∀ l, t.refers = some l → l ∈ list := by
  intro t ht l href
  obtain ⟨l', hl', rfl⟩ := List.mem_map.mp ht
  cases href
  exact hfrom l (List.mem_of_find?_eq_some (Option.mem_toList.mp hl'))

theorem NoneStarted.setRecord (h : NoneStarted s) {l : ℕ} {r : ConnListenerPriv} (hr : r.conn = none) :
    ∀ l', ((s.setRecord l r).record l').conn = none := by
  intro l'
  show (if l' = l then r else s.record l' : ConnListenerPriv).conn = none
  split
  · exact hr
  · exact h.conn l'

theorem NoneStarted.setConn (h : NoneStarted s) {c : ℕ} {v : ListenerConn} (hv : v.data = none) :
    ∀ c', ((s.setConn c v).conn c').data = none := by
  intro c'
  show (if c' = c then v else s.conn c' : ListenerConn).data = none
  split
  · exact hv
  · exact h.data c'

/-- **A step by which no listener gets started (proved).** -/
theorem noneStarted_step {a : RecordAction} (h : NoneStarted s) (hok : StartsNone s a)
    (hs : recordStep s a = some s') : NoneStarted s' := by
  unfold recordStep at hs
  split at hs
  · cases hs
  cases a with
  | start only which =>
    simp only [recordMove] at hs
    split at hs
    next honly =>
      split at hs <;> cases hs
      · exact h
      · refine ⟨h.conn, h.data, fun t ht l href => ?_, h.usedFreed⟩
        rcases List.mem_cons.mp ht with rfl | ht
        · have heq : only = some l := href
          rw [heq] at honly
          simpa using honly
        · exact h.refers t ht l href
    · cases hs
  | lock only which =>
    simp only [recordMove] at hs
    split at hs <;> cases hs
    next ht =>
      cases only with
      | none =>
        refine ⟨h.conn, h.data, fun t ht' l href => ?_, h.usedFreed⟩
        rcases List.mem_append.mp ht' with ht' | ht'
        · exact scan_refers s none which _ (fun l hl => hl) t ht' l href
        · exact h.refers t (List.mem_of_mem_erase ht') l href
      | some l =>
        have hl := h.refers _ ht l rfl
        obtain ⟨hused, hrefers⟩ := h.goOn ht rfl _ (scan_refers s (some l) which [l]
          fun l' hl' => List.mem_singleton.mp hl' ▸ hl)
        exact ⟨h.conn, h.data, hrefers, hused⟩
  | listen only which l ok =>
    simp only [recordMove] at hs
    split at hs
    next ht =>
      have hl := h.refers _ ht l rfl
      have hgo : ∀ c, _ := fun c : Option ℕ => h.goOn ht rfl [.submitted only which l c]
        fun t' ht' l' href => by
          rw [List.mem_singleton.mp ht'] at href
          cases href
          exact hl
      split at hs <;> cases hs
      · exact ⟨h.conn, h.setConn rfl, (hgo _).2, (hgo none).1⟩
      · exact ⟨h.conn, h.data, (hgo none).2, (hgo none).1⟩
    · cases hs
  | store only which l c =>
    simp only [recordMove] at hs
    split at hs <;> cases hs
    next ht =>
      obtain ⟨hused, hrefers⟩ := h.goOn ht rfl [.stored only which l] fun t' ht' l' href => by
        rw [List.mem_singleton.mp ht'] at href
        cases href
        exact h.refers _ ht l rfl
      exact ⟨h.setRecord hok.2, h.data, hrefers, hused⟩
  | relock only which l =>
    simp only [recordMove] at hs
    split at hs <;> cases hs
    next ht =>
      have hsettle : s.settle l = s.setRecord l ((s.record l).setState connListenerFailed) := by
        unfold ManagedListeners.settle
        rw [h.conn l]
      rw [hsettle]
      obtain ⟨hused, hrefers⟩ := h.goOn ht rfl _
        (scan_refers (s.setRecord l ((s.record l).setState connListenerFailed)) only which _ (rest_subset s only l))
      exact ⟨h.setRecord (h.conn l), h.data, hrefers, hused⟩
  | stop which only =>
    cases hs
    refine ⟨fun l => ?_, h.data, h.refers, h.usedFreed⟩
    show (if _ then _ else _ : ConnListenerPriv).conn = none
    split <;> exact h.conn l
  | remove which only cllist =>
    cases hs
    refine ⟨fun l => (remove_conn s which only cllist l).trans (h.conn l), h.data, fun t ht l href => ?_,
      remove_usedFreed h.usedFreed hok.1⟩
    refine List.mem_filter.mpr ⟨h.refers t ht l href, ?_⟩
    by_contra hnot
    have hunused : s.unused which only l = true := by simpa using hnot
    exact (hok.1 l (h.refers t ht l href) hunused).2 t ht href
  | status which only shuttingdown =>
    cases hs
    cases shuttingdown with
    | true =>
      rw [if_pos rfl, status_eq hok.1]
      exact h
    | false => exact h
  | callback c =>
    simp only [recordMove] at hs
    split at hs <;> cases hs
    refine ⟨h.conn, h.setConn rfl, fun t ht l href => ?_, h.usedFreed⟩
    rcases List.mem_cons.mp ht with rfl | ht
    · have hdata : (s.conn c).data = some l := href
      rw [h.data c] at hdata
      cases hdata
    · exact h.refers t ht l href
  | free c l =>
    simp only [recordMove] at hs
    split at hs <;> cases hs
    next ht =>
      refine ⟨h.conn, h.setConn (h.data c), fun t ht' l' href => ?_, h.usedFreed⟩
      rcases List.mem_append.mp ht' with ht' | ht'
      · obtain ⟨l₁, hl₁, rfl⟩ := List.mem_map.mp ht'
        cases href
        exact h.refers _ ht l' (Option.mem_toList.mp hl₁)
      · exact h.refers t (List.mem_of_mem_erase ht') l' href
  | clear c l =>
    simp only [recordMove] at hs
    split at hs <;> cases hs
    next ht =>
      obtain ⟨hused, hrefers⟩ := h.goOn ht rfl (if s.closing = false ∧
          (s.record l).has connListenerStopped = false then [.restarting l] else []) fun t' ht' l' href => by
        split at ht'
        · rw [List.mem_singleton.mp ht'] at href
          cases href
          exact h.refers _ ht l rfl
        · cases ht'
      exact ⟨h.setRecord rfl, h.data, hrefers, hused⟩
  | restart l =>
    simp only [recordMove] at hs
    split at hs <;> cases hs
    next ht =>
      obtain ⟨hused, hrefers⟩ := h.goOn ht rfl [] fun t' ht' => by cases ht'
      exact ⟨h.conn, h.data, hrefers, hused⟩
  | close =>
    cases hs
    exact ⟨h.conn, h.data, h.refers, h.usedFreed⟩

end NoneStarted

/-- **The records of managed listeners (proved):** where no listener gets started, no record is used after it has been
freed, and no record is wrong; in orderly runs no record is used after it has been freed, and a conn that a record has
is there and knows the record exactly while no thread is between two writes. -/
theorem reachable_records (states : List ℕ) :
    (∀ s, ReachableVia (enabled recordStep) StartsNone (ManagedListeners.new states) s →
      s.usedFreed = false ∧ RecordsConsistent s) ∧
    ∀ s, ReachableVia (enabled recordStep) RecordsOrderly (ManagedListeners.new states) s →
      s.usedFreed = false ∧ (RecordsConsistent s ↔ RecordsQuiet s) := by
  have hinv : ∀ s, ReachableVia (enabled recordStep) RecordsOrderly (ManagedListeners.new states) s → RecordsInv s :=
    fun s hs => hs.invariant (recordsInv_new states) fun _ _ _ h hok hstep => recordStep_inv h hok hstep
  constructor
  · intro s hs
    have hnone : NoneStarted s := hs.invariant
      ⟨fun _ => rfl, fun _ => rfl, fun t ht => (by cases ht), rfl⟩ fun _ _ _ h hok hstep => noneStarted_step h hok hstep
    refine ⟨hnone.usedFreed, fun l _ c hc => ?_⟩
    rw [hnone.conn l] at hc
    cases hc
  · exact fun s hs => ⟨(hinv s hs).usedFreed, (hinv s hs).consistent_iff⟩

/-- A start that fails, and one that succeeds. -/
theorem reachable_records_started :
    (∃ s, runFrom recordStep (ManagedListeners.new [connListenerFresh]) [.start none 0, .lock none 15,
      .listen none 15 0 false, .store none 15 0 none, .relock none 15 0, .stop 0 none] = some s ∧
      s.usedFreed = false ∧ RecordsConsistent s) ∧
    ∃ s, runFrom recordStep (ManagedListeners.new [connListenerFresh]) [.start none 0, .lock none 15,
      .listen none 15 0 true, .store none 15 0 (some 0), .relock none 15 0] = some s ∧
      (s.record 0).conn = some 0 ∧ (RecordsConsistent s ↔ RecordsQuiet s) := by
  have hfails : ∃ s, runFrom (guarded StartsNone recordStep) (ManagedListeners.new [connListenerFresh]) [.start none 0,
      .lock none 15, .listen none 15 0 false, .store none 15 0 none, .relock none 15 0, .stop 0 none] = some s ∧
      runFrom recordStep (ManagedListeners.new [connListenerFresh]) [.start none 0, .lock none 15,
        .listen none 15 0 false, .store none 15 0 none, .relock none 15 0, .stop 0 none] = some s := ⟨_, rfl, rfl⟩
  have hstarts : ∃ s, runFrom (guarded RecordsOrderly recordStep) (ManagedListeners.new [connListenerFresh])
      [.start none 0, .lock none 15, .listen none 15 0 true, .store none 15 0 (some 0), .relock none 15 0] = some s ∧
      runFrom recordStep (ManagedListeners.new [connListenerFresh]) [.start none 0, .lock none 15,
        .listen none 15 0 true, .store none 15 0 (some 0), .relock none 15 0] = some s ∧
      (s.record 0).conn = some 0 := ⟨_, rfl, rfl, rfl⟩
  obtain ⟨s, hs, hrun⟩ := hfails
  obtain ⟨t, ht, hrun', hconn⟩ := hstarts
  exact ⟨⟨s, hrun, (reachable_records [connListenerFresh]).1 s (reachableVia_of_runFrom hs)⟩,
    t, hrun', hconn, ((reachable_records [connListenerFresh]).2 t (reachableVia_of_runFrom ht)).2⟩

/-- **A record keeps a conn that has been freed (proved):** the listener fails before the thread that has started it
stores the conn. -/
theorem records_fail : ¬ ∀ (states : List ℕ) (s : ManagedListeners),
    Reachable (enabled recordStep) (ManagedListeners.new states) s → s.usedFreed = false ∧ RecordsConsistent s := by
  intro h
  have hrun : ∃ s, runFrom recordStep (ManagedListeners.new [connListenerFresh]) [.start none 0, .lock none 15,
      .listen none 15 0 true, .callback 0, .free 0 none, .store none 15 0 (some 0), .relock none 15 0] = some s ∧
      0 ∈ s.list ∧ (s.record 0).conn = some 0 ∧ (s.conn 0).freed = true := ⟨_, rfl, by decide, rfl, rfl⟩
  obtain ⟨s, hs, hmem, hconn, hfreed⟩ := hrun
  have hnot := ((h _ s (reachable_of_runFrom hs)).2 0 hmem 0 hconn).1
  rw [hfreed] at hnot
  cases hnot

end Connio
