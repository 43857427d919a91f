import Mathlib.Data.List.Nodup
import Mathlib.Logic.Function.Basic

/-!
# The server contexts of a handle

`ConnLoadServerCertificate`, `CreateServerContext` and `ConnHandleFree`, as far as they make and free the contexts in
`pub.sslv23.server` and `pub.tls.server` (`connio.c`).  A context is its number; `SSL_CTX_free` counts.

* `ServerContexts` — the two pointers, and every context ever made;
* `createServerContext`, `connLoadServerCertificate`, `connHandleFreeContexts` — the functions;
* `CertMove`, `CertificatesSound` — a run of a handle, and what it owes;
* `ContextsSettled` — what is not kept has been freed once;
* `LoadCall.HalfWay` — the first context can be made and the second one cannot;
* `halfWay_freedTwice` — **PROVED**: what comes after such a call frees the first context again;
* `certificatesSound_iff` — **PROVED**: a run is sound exactly when no call of it stops half way.
-/

namespace Connio

/-! ### The contexts -/

/-- What OpenSSL answers in `CreateServerContext`. -/
structure ContextCalls where
  /-- `SSL_CTX_new` -/
  new : Bool
  /-- `SSL_CTX_use_certificate_file` or `SSL_CTX_use_certificate_chain_file` -/
  certificate : Bool
  /-- `SSL_CTX_use_PrivateKey_file` -/
  privateKey : Bool
  /-- `SSL_CTX_check_private_key` -/
  check : Bool
  deriving DecidableEq, Repr

/-- A context can be made. -/
def ContextCalls.works (calls : ContextCalls) : Bool :=
  calls.new && (calls.certificate && calls.privateKey && calls.check)

/-- The server contexts of a handle. -/
structure ServerContexts where
  /-- `pub.sslv23.server` -/
  sslv23 : Option ℕ := none
  /-- `pub.tls.server` -/
  tls : Option ℕ := none
  /-- the contexts below this number have been made -/
  made : ℕ := 0
  /-- how often `SSL_CTX_free` has been called for a context -/
  frees : ℕ → ℕ := fun _ => 0

/-- The context exists, and has not been freed. -/
def ServerContexts.Live (s : ServerContexts) (c : ℕ) : Prop := c < s.made ∧ s.frees c = 0

namespace ServerContexts

variable (s : ServerContexts)

/-- `SSL_CTX_free` -/
def ctxFree (c : ℕ) : ServerContexts := { s with frees := Function.update s.frees c (s.frees c + 1) }

/-- `SSL_CTX_free` of a pointer that is not NULL -/
def ctxFreeIf : Option ℕ → ServerContexts
  | some c => s.ctxFree c
  | none => s

/-- `CreateServerContext` -/
def createServerContext (calls : ContextCalls) : Option ℕ × ServerContexts :=
  if calls.new then
    let s' := { s with made := s.made + 1 }
    if calls.certificate && calls.privateKey && calls.check then (some s.made, s') else (none, s'.ctxFree s.made)
  else (none, s)

/-- `ConnLoadServerCertificate` gives up the contexts that it finds. -/
def unload : ServerContexts :=
  let s := { s.ctxFreeIf s.sslv23 with sslv23 := none }
  { s.ctxFreeIf s.tls with tls := none }

/-- `ConnHandleFree` -/
def connHandleFreeContexts : ServerContexts :=
  let s := s.ctxFreeIf s.sslv23
  s.ctxFreeIf s.tls

theorem connHandleFreeContexts_eq : s.connHandleFreeContexts = (s.ctxFreeIf s.sslv23).ctxFreeIf s.tls := by
  obtain ⟨sslv23, tls, made, frees⟩ := s
  cases sslv23 <;> rfl

/-- Both pointers are freed, and cleared. -/
theorem unload_eq : s.unload = { s.connHandleFreeContexts with sslv23 := none, tls := none } := by
  obtain ⟨sslv23, tls, made, frees⟩ := s
  cases sslv23 <;> cases tls <;> rfl

theorem connHandleFreeContexts_made : s.connHandleFreeContexts.made = s.made := by
  obtain ⟨sslv23, tls, made, frees⟩ := s
  cases sslv23 <;> cases tls <;> rfl

end ServerContexts

/-! ### A handle -/

/-- What one `ConnLoadServerCertificate` is given, and what it meets. -/
structure LoadCall where
  /-- `publicKeyPath` is not NULL -/
  publicKeyPath : Bool
  sslv23 : ContextCalls
  tls : ContextCalls
  deriving DecidableEq, Repr

/-- A handle. -/
structure CertHandle where
  /-- `CONN_HANDLE_SSL_SERVER_ENABLED` -/
  sslServerEnabled : Bool
  shuttingDown : Bool := false
  contexts : ServerContexts := {}

/-- The call comes to `CreateServerContext`. -/
def CertHandle.creates (h : CertHandle) (call : LoadCall) : Bool :=
  !h.shuttingDown && h.sslServerEnabled && call.publicKeyPath

/-- `ConnLoadServerCertificate`: its result, and the contexts. -/
def connLoadServerCertificate (h : CertHandle) (call : LoadCall) : Bool × ServerContexts :=
  let s := h.contexts.unload
  if h.creates call then
    match s.createServerContext call.sslv23 with
    | (none, s) => (false, s)
    | (some c, s) =>
      match { s with sslv23 := some c }.createServerContext call.tls with
      | (some d, s) => (true, { s with tls := some d })
      -- `pub.sslv23.server` keeps what is freed here
      | (none, s) => (false, s.ctxFree c)
  else (false, s)

/-- What happens to a handle before it is freed. -/
inductive CertMove where
  | load (call : LoadCall)
  /-- `ConnHandleShutdown` sets `shuttingDown` -/
  | shutDown
  deriving DecidableEq, Repr

/-- One step. -/
def certStep (h : CertHandle) : CertMove → CertHandle
  | .load call => { h with contexts := (connLoadServerCertificate h call).2 }
  | .shutDown => { h with shuttingDown := true }

/-! ### What a run owes -/

/-- **What a call leaves:** each pointer is NULL or a live context; both are NULL when it returns `FALSE`, and neither is
when it returns `TRUE`. -/
structure LoadSound (returned : Bool) (s : ServerContexts) : Prop where
  sslv23 : ∀ c, s.sslv23 = some c → s.Live c
  tls : ∀ c, s.tls = some c → s.Live c
  failed : returned = false → s.sslv23 = none ∧ s.tls = none
  loaded : returned = true → s.sslv23 ≠ none ∧ s.tls ≠ none

/-- **A run is sound:** each call leaves what it owes, and after `ConnHandleFree` every context that was made has been
freed once. -/
def CertificatesSound (h : CertHandle) : List CertMove → Prop
  | [] => ∀ c, c < h.contexts.made → h.contexts.connHandleFreeContexts.frees c = 1
  | m :: ms =>
    (∀ call, m = .load call → LoadSound (connLoadServerCertificate h call).1 (connLoadServerCertificate h call).2) ∧
      CertificatesSound (certStep h m) ms

/-- **The first context can be made, and the second one cannot.** -/
def LoadCall.HalfWay (call : LoadCall) : Prop := call.sslv23.works = true ∧ call.tls.works = false

/-- No call of the run comes to `CreateServerContext` and stops half way; the handle may be `shuttingDown` already. -/
def NoneHalfWay (sslServerEnabled shuttingDown : Bool) : List CertMove → Prop
  | [] => True
  | .shutDown :: ms => NoneHalfWay sslServerEnabled true ms
  | .load call :: ms =>
    ((!shuttingDown && sslServerEnabled && call.publicKeyPath) = true → ¬ call.HalfWay) ∧
      NoneHalfWay sslServerEnabled shuttingDown ms

/-! ### What is kept -/

/-- **The contexts in `kept` live, and all others have been freed once.** -/
structure ContextsSettled (s : ServerContexts) (kept : List ℕ) : Prop where
  nodup : kept.Nodup
  made : ∀ c ∈ kept, c < s.made
  frees : ∀ c, s.frees c = if c < s.made ∧ c ∉ kept then 1 else 0

namespace ContextsSettled

variable {s : ServerContexts} {kept : List ℕ} {c : ℕ}

theorem live (h : ContextsSettled s kept) (hc : c ∈ kept) : s.Live c := by
  refine ⟨h.made c hc, ?_⟩
  rw [h.frees c, if_neg fun hnot => hnot.2 hc]

/-- The pointers do not matter. -/
theorem withPointers (h : ContextsSettled s kept) (sslv23 tls : Option ℕ) :
    ContextsSettled { s with sslv23 := sslv23, tls := tls } kept :=
  ⟨h.nodup, h.made, h.frees⟩

/-- The order does not matter. -/
theorem perm {kept' : List ℕ} (h : ContextsSettled s kept) (hp : kept.Perm kept') : ContextsSettled s kept' := by
  refine ⟨hp.nodup_iff.mp h.nodup, fun c hc => h.made c (hp.mem_iff.mpr hc), fun c => ?_⟩
  rw [h.frees c]
  exact if_congr (by rw [hp.mem_iff]) rfl rfl

/-- What is kept is freed. -/
theorem ctxFree (h : ContextsSettled s (c :: kept)) : ContextsSettled (s.ctxFree c) kept := by
  obtain ⟨hc, hnodup⟩ := List.nodup_cons.mp h.nodup
  refine ⟨hnodup, fun d hd => h.made d (List.mem_cons_of_mem c hd), fun d => ?_⟩
  have hmade : c < s.made := h.made c List.mem_cons_self
  by_cases hdc : d = c
  · subst hdc
    show Function.update s.frees d (s.frees d + 1) d = _
    rw [Function.update_self, (h.live List.mem_cons_self).2, if_pos ⟨hmade, hc⟩]
  · show Function.update s.frees c (s.frees c + 1) d = if d < s.made ∧ d ∉ kept then 1 else 0
    rw [Function.update_of_ne hdc, h.frees d]
    exact if_congr (by simp [hdc]) rfl rfl

/-- A context is made. -/
theorem make (h : ContextsSettled s kept) : ContextsSettled { s with made := s.made + 1 } (s.made :: kept) := by
  have hnew : s.made ∉ kept := fun hc => Nat.lt_irrefl _ (h.made _ hc)
  refine ⟨List.nodup_cons.mpr ⟨hnew, h.nodup⟩, fun d hd => ?_, fun d => ?_⟩
  · rcases List.mem_cons.mp hd with rfl | hd
    · exact Nat.lt_succ_self _
    · exact Nat.lt_succ_of_lt (h.made d hd)
  · show s.frees d = if d < s.made + 1 ∧ d ∉ s.made :: kept then 1 else 0
    rw [h.frees d]
    refine if_congr ?_ rfl rfl
    rw [List.mem_cons, not_or]
    constructor
    · rintro ⟨hlt, hd⟩
      exact ⟨Nat.lt_succ_of_lt hlt, Nat.ne_of_lt hlt, hd⟩
    · rintro ⟨hlt, hne, hd⟩
      exact ⟨Nat.lt_of_le_of_ne (Nat.le_of_lt_succ hlt) hne, hd⟩

/-- **`CreateServerContext` (proved)** keeps the context that it returns. -/
theorem createServerContext (h : ContextsSettled s kept) (calls : ContextCalls) :
    (calls.works = true ∧ s.createServerContext calls = (some s.made, { s with made := s.made + 1 }) ∧
        ContextsSettled { s with made := s.made + 1 } (s.made :: kept)) ∨
      (calls.works = false ∧ ∃ s', s.createServerContext calls = (none, s') ∧ ContextsSettled s' kept ∧
        s'.sslv23 = s.sslv23 ∧ s'.tls = s.tls) := by
  unfold ServerContexts.createServerContext ContextCalls.works
  cases hnew : calls.new with
  | false => exact .inr ⟨rfl, s, rfl, h, rfl, rfl⟩
  | true =>
    cases hloaded : (calls.certificate && calls.privateKey && calls.check) with
    | true => exact .inl ⟨rfl, rfl, h.make⟩
    | false => exact .inr ⟨rfl, _, rfl, h.make.ctxFree, rfl, rfl⟩

end ContextsSettled

/-- **The two pointers keep what lives.** -/
def OwnsContexts (s : ServerContexts) : Prop := ContextsSettled s (s.sslv23.toList ++ s.tls.toList)

namespace OwnsContexts

variable {s : ServerContexts}

/-- What the pointer keeps is freed, if it is not NULL. -/
theorem freeIf {s : ServerContexts} {kept : List ℕ} {p : Option ℕ} (h : ContextsSettled s (p.toList ++ kept)) :
    ContextsSettled (s.ctxFreeIf p) kept := by
  cases p with
  | none => exact h
  | some c => exact ContextsSettled.ctxFree h

/-- **`ConnHandleFree` keeps nothing (proved).** -/
theorem connHandleFree (h : OwnsContexts s) : ContextsSettled s.connHandleFreeContexts [] := by
  rw [ServerContexts.connHandleFreeContexts_eq]
  have hsecond : ContextsSettled (s.ctxFreeIf s.sslv23) (s.tls.toList ++ []) := by
    rw [List.append_nil]
    exact freeIf h
  exact freeIf hsecond

/-- Every context has been freed once. -/
theorem freed_once (h : OwnsContexts s) {c : ℕ} (hc : c < s.made) : s.connHandleFreeContexts.frees c = 1 := by
  rw [h.connHandleFree.frees c, if_pos ⟨by rwa [ServerContexts.connHandleFreeContexts_made], List.not_mem_nil⟩]

/-- Nothing is kept when the contexts are given up. -/
theorem unload (h : OwnsContexts s) : ContextsSettled s.unload [] ∧ s.unload.sslv23 = none ∧ s.unload.tls = none := by
  rw [ServerContexts.unload_eq]
  exact ⟨h.connHandleFree.withPointers none none, rfl, rfl⟩

end OwnsContexts

/-! ### One call -/

section Load

variable {h : CertHandle} {call : LoadCall}

/-- What is left where both pointers are NULL. -/
theorem LoadSound.unloaded {s : ServerContexts} (hsslv23 : s.sslv23 = none) (htls : s.tls = none) :
    LoadSound false s where
  sslv23 c hc := by
    rw [hsslv23] at hc
    cases hc
  tls c hc := by
    rw [htls] at hc
    cases hc
  failed _ := ⟨hsslv23, htls⟩
  loaded hfalse := absurd hfalse Bool.false_ne_true

theorem OwnsContexts.unloaded {s : ServerContexts} (hsettled : ContextsSettled s []) (hsslv23 : s.sslv23 = none)
    (htls : s.tls = none) : OwnsContexts s := by
  unfold OwnsContexts
  rw [hsslv23, htls]
  exact hsettled

/-- **A call that does not stop half way (proved)** leaves what it owes. -/
theorem connLoadServerCertificate_sound (howns : OwnsContexts h.contexts) (hnot : h.creates call = true → ¬ call.HalfWay) :
    LoadSound (connLoadServerCertificate h call).1 (connLoadServerCertificate h call).2 ∧
      OwnsContexts (connLoadServerCertificate h call).2 := by
  obtain ⟨hsettled, hsslv23, htls⟩ := howns.unload
  unfold connLoadServerCertificate
  generalize h.contexts.unload = u at *
  cases hcreates : h.creates call with
  | false => exact ⟨.unloaded hsslv23 htls, .unloaded hsettled hsslv23 htls⟩
  | true =>
    rcases hsettled.createServerContext call.sslv23 with ⟨hworks, hfirst, hkept⟩ | ⟨_, s', hfirst, hkept, hs', ht'⟩
    · simp only [hfirst, if_true]
      rcases (hkept.withPointers (some u.made) u.tls).createServerContext call.tls with
        ⟨_, hsecond, hboth⟩ | ⟨hfails, _⟩
      · simp only [hsecond]
        refine ⟨⟨fun c hc => ?_, fun c hc => ?_, fun hfalse => absurd hfalse.symm Bool.false_ne_true,
          fun _ => ⟨Option.some_ne_none _, Option.some_ne_none _⟩⟩, ?_⟩
        · cases hc
          exact hboth.live (List.mem_cons_of_mem _ List.mem_cons_self)
        · cases hc
          exact hboth.live List.mem_cons_self
        · exact (hboth.perm (List.Perm.swap u.made (u.made + 1) [])).withPointers (some u.made) (some (u.made + 1))
      · exact absurd ⟨hworks, hfails⟩ (hnot hcreates)
    · simp only [hfirst, if_true]
      rw [hsslv23] at hs'
      rw [htls] at ht'
      exact ⟨.unloaded hs' ht', .unloaded hkept hs' ht'⟩

/-- **A call that stops half way (proved)** returns `FALSE`, and `pub.sslv23.server` is a context that has been freed. -/
theorem connLoadServerCertificate_halfWay (howns : OwnsContexts h.contexts) (hcreates : h.creates call = true)
    (hhalf : call.HalfWay) :
    ∃ c s, connLoadServerCertificate h call = (false, s) ∧ s.sslv23 = some c ∧ s.tls = none ∧ c < s.made ∧
      s.frees c = 1 := by
  obtain ⟨hsettled, hsslv23, htls⟩ := howns.unload
  unfold connLoadServerCertificate
  generalize h.contexts.unload = u at *
  rcases hsettled.createServerContext call.sslv23 with ⟨_, hfirst, hkept⟩ | ⟨hfails, _⟩
  · simp only [hcreates, hfirst, if_true]
    rcases (hkept.withPointers (some u.made) u.tls).createServerContext call.tls with
      ⟨hworks, _, _⟩ | ⟨_, s', hsecond, hleft, hs', ht'⟩
    · rw [hhalf.2] at hworks
      cases hworks
    · have hmade : u.made < s'.made := hleft.made _ List.mem_cons_self
      refine ⟨u.made, s'.ctxFree u.made, ?_, hs', ht'.trans htls, hmade, ?_⟩
      · rw [hsecond]
      · rw [hleft.ctxFree.frees, if_pos ⟨hmade, List.not_mem_nil⟩]
  · rw [hhalf.1] at hfails
    cases hfails

/-- **What comes next frees the context again (proved):** the next call does, and `ConnHandleFree` does. -/
theorem halfWay_freedTwice (howns : OwnsContexts h.contexts) (hcreates : h.creates call = true) (hhalf : call.HalfWay) :
    ∃ c, (connLoadServerCertificate h call).2.connHandleFreeContexts.frees c = 2 ∧
      (connLoadServerCertificate h call).2.unload.frees c = 2 := by
  obtain ⟨c, s, hcall, hs, ht, _, hfrees⟩ := connLoadServerCertificate_halfWay howns hcreates hhalf
  have htwice : s.connHandleFreeContexts.frees c = 2 := by
    rw [ServerContexts.connHandleFreeContexts_eq, hs, ht]
    show Function.update s.frees c (s.frees c + 1) c = 2
    rw [Function.update_self, hfrees]
  refine ⟨c, ?_, ?_⟩
  · rw [hcall]
    exact htwice
  · rw [hcall, ServerContexts.unload_eq]
    exact htwice

end Load

/-! ### A run -/

/-- **A run from a handle that owns its contexts is sound exactly when no call stops half way (proved).** -/
theorem certificatesSound_run : ∀ (ms : List CertMove) (h : CertHandle), OwnsContexts h.contexts →
    (CertificatesSound h ms ↔ NoneHalfWay h.sslServerEnabled h.shuttingDown ms)
  | [], _, howns => iff_of_true (fun _ hc => howns.freed_once hc) trivial
  | .shutDown :: ms, h, howns => by
    have ih := certificatesSound_run ms { h with shuttingDown := true } howns
    refine Iff.trans ?_ ih
    constructor
    · rintro ⟨_, hms⟩
      exact hms
    · intro hms
      refine ⟨fun call hcall => ?_, hms⟩
      cases hcall
  | .load call :: ms, h, howns => by
    by_cases hnot : h.creates call = true → ¬ call.HalfWay
    · obtain ⟨hsound, howns'⟩ := connLoadServerCertificate_sound howns hnot
      have ih := certificatesSound_run ms (certStep h (.load call)) howns'
      constructor
      · rintro ⟨_, hms⟩
        exact ⟨hnot, ih.mp hms⟩
      · rintro ⟨_, hms⟩
        refine ⟨fun call' hcall => ?_, ih.mpr hms⟩
        cases hcall
        exact hsound
    · obtain ⟨hcreates, hhalf⟩ := Classical.not_imp.mp hnot
      obtain ⟨c, s, hcall, hs, _⟩ := connLoadServerCertificate_halfWay howns hcreates (not_not.mp hhalf)
      refine iff_of_false ?_ fun hms => hnot hms.1
      rintro ⟨hsound, _⟩
      have hfailed := (hsound call rfl).failed (by rw [hcall])
      rw [hcall] at hfailed
      exact Option.some_ne_none c (hs.symm.trans hfailed.1)

/-- **The certificates of a new handle are loaded and freed once exactly when no call stops half way (proved).** -/
theorem certificatesSound_iff (sslServerEnabled : Bool) (ms : List CertMove) :
    CertificatesSound { sslServerEnabled := sslServerEnabled } ms ↔ NoneHalfWay sslServerEnabled false ms := by
  have howns : OwnsContexts ({} : ServerContexts) := by
    refine ⟨List.nodup_nil, fun c hc => absurd hc List.not_mem_nil, fun c => ?_⟩
    exact (if_neg fun h => Nat.not_lt_zero c h.1).symm
  exact certificatesSound_run ms { sslServerEnabled := sslServerEnabled } howns

/-- The private key fits the certificate at the first context, and not at the second one. -/
def keyReplaced : LoadCall where
  publicKeyPath := true
  sslv23 := ⟨true, true, true, true⟩
  tls := ⟨true, true, true, false⟩

/-- **A call can leave a context that has been freed.** -/
theorem certificate_dangles : ¬ ∀ (sslServerEnabled : Bool) (ms : List CertMove),
    CertificatesSound { sslServerEnabled := sslServerEnabled } ms := by
  intro h
  have hsound := (h true [.load keyReplaced]).1 keyReplaced rfl
  have hfailed := hsound.failed rfl
  cases hfailed.1

end Connio
