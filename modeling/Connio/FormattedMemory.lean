import Connio.Formatted
import Connio.Lib.Span

/-!
# The memory of a formatted text

`CreateFormattedString` once more (`connio.c`, `trace.c`, one text in both), with the blocks it allocates and with any
results of `XplVsnprintf`.

* `FormatHeap` — the blocks that are live, with `MemRealloc` and `MemFree`;
* `VsnprintfAnswer`, `FormatAnswers` — what `XplVsnprintf` and `MemRealloc` answer in each pass;
* `FormatHeap.createFormattedString` — the loop; it ends because each pass has a larger block than the one before;
* `FormattedSound` — the text is in the only block that is left, or none is left;
* `OutOfSizes` — a block of 64 MB or more is too short for the text;
* `createFormattedString_return` — **PROVED**: it returns what `createFormattedString` of `Formatted` does;
* `formattedSound_iff` — **PROVED**: the result is sound exactly when the loop does not run out of sizes.
-/

namespace Connio

open Connio.Lib

/-! ### The heap -/

/-- The blocks of the process. -/
structure FormatHeap where
  /-- the ones that are live, the newest first -/
  live : List ℕ
  /-- the blocks from here on have not been allocated -/
  fresh : ℕ
  size : ℕ → ℕ := fun _ => 0
  bytes : ℕ → List UInt8 := fun _ => []
  allocated : ∀ block ∈ live, block < fresh

namespace FormatHeap

variable (h : FormatHeap)

/-- `MemFree` -/
def memFree (block : ℕ) : FormatHeap :=
  { h with
    live := h.live.erase block
    allocated := fun _ hmem => h.allocated _ (List.mem_of_mem_erase hmem) }

/-- The block there was, if any, is freed. -/
def memFreeIf : Option ℕ → FormatHeap
  | some block => h.memFree block
  | none => h

/-- A new block -/
def alloc (size : ℕ) : FormatHeap where
  live := h.fresh :: h.live
  fresh := h.fresh + 1
  size := Function.update h.size h.fresh size
  bytes := h.bytes
  allocated := List.forall_mem_cons.mpr ⟨Nat.lt_succ_self _, fun _ hmem => Nat.lt_succ_of_lt (h.allocated _ hmem)⟩

/-- `MemRealloc` when there is memory: the new block takes the place of the old one. -/
def memRealloc (buffer : Option ℕ) (size : ℕ) : ℕ × FormatHeap := (h.fresh, (h.memFreeIf buffer).alloc size)

/-- `XplVsnprintf` writes to a block. -/
def store (block : ℕ) (bytes : List UInt8) : FormatHeap := { h with bytes := Function.update h.bytes block bytes }

end FormatHeap

/-! ### The loop -/

/-- `INT_MAX` -/
def intMax : ℕ := 2147483647

/-- What `XplVsnprintf` answers: a negative number, or the length of the text it renders. -/
inductive VsnprintfAnswer where
  /-- `-(n + 1)` -/
  | negative (n : ℕ)
  | rendered (text : List UInt8) (isInt : text.length ≤ intMax)

namespace VsnprintfAnswer

/-- The value that is returned. -/
def required : VsnprintfAnswer → ℤ
  | negative n => -(n + 1)
  | rendered text _ => text.length

/-- The block of `size` bytes afterwards; when the text is too long it is cut, and ends with its NUL all the same. -/
def written (size : ℕ) (old : List UInt8) : VsnprintfAnswer → List UInt8
  | negative _ => old
  | rendered text _ => text.take (size - 1) ++ [0]

/-- The text is in the block, with its NUL. -/
def Fits (a : VsnprintfAnswer) (size : ℕ) : Prop := 0 ≤ a.required ∧ a.required < size

instance (a : VsnprintfAnswer) (size : ℕ) : Decidable (a.Fits size) := inferInstanceAs (Decidable (_ ∧ _))

/-- `nextSize`, an `unsigned long`: the size is doubled, or `required + 1`, an `int`, which wraps. -/
def nextSize (a : VsnprintfAnswer) (size : ℕ) : ℕ :=
  if a.required < 0 then 2 * size
  else sizeT (if a.required + 1 ≤ intMax then a.required + 1 else a.required + 1 - 4294967296)

end VsnprintfAnswer

theorem lt_nextSize_of_not_fits {a : VsnprintfAnswer} {size : ℕ} (hsize : 0 < size) (h : ¬ a.Fits size) :
    size < a.nextSize size := by
  unfold VsnprintfAnswer.Fits at h
  unfold VsnprintfAnswer.nextSize
  have hint : a.required ≤ intMax := by
    cases a with
    | negative n => simp only [VsnprintfAnswer.required, intMax]; omega
    | rendered text hint => exact Int.ofNat_le.mpr hint
  unfold intMax at hint ⊢
  unfold sizeT
  split
  · omega
  · split <;> split <;> omega

/-- What is answered in each pass, for the size of its block. -/
structure FormatAnswers where
  memRealloc : ℕ → ℕ → Bool
  xplVsnprintf : ℕ → ℕ → VsnprintfAnswer

/-- `*out`, `*outSize` and `errno` where they are written, and the heap. -/
structure FormattedExit where
  out : Option ℕ
  outSize : ℤ := 0
  errno : Option Errno := none
  heap : FormatHeap

namespace FormatHeap

/-- `CreateFormattedString`, from pass `pass` on. -/
def createFormattedString (a : FormatAnswers) (pass size : ℕ) (hsize : 0 < size) (buffer : Option ℕ)
    (h : FormatHeap) : FormattedExit :=
  if a.memRealloc pass size = true then
    let answer := a.xplVsnprintf pass size
    let tmp := (h.memRealloc buffer size).1
    let heap := (h.memRealloc buffer size).2.store tmp (answer.written size (h.bytes tmp))
    if hfits : answer.Fits size then { out := some tmp, outSize := answer.required, heap := heap }
    else if hless : size < maxFormattedSize then
      createFormattedString a (pass + 1) (answer.nextSize size)
        (Nat.lt_trans hsize (lt_nextSize_of_not_fits hsize hfits)) (some tmp) heap
    else { out := none, errno := some Errno.emsgsize, heap := heap }
  else { out := none, errno := some Errno.enomem, heap := h.memFreeIf buffer }
termination_by maxFormattedSize - size
decreasing_by exact Nat.sub_lt_sub_left hless (lt_nextSize_of_not_fits hsize hfits)

end FormatHeap

/-- **The text is in the only block that the call has left,** whole and with its NUL, or there is no such block. -/
def FormattedSound (a : FormatAnswers) (start : FormatHeap) (exit : FormattedExit) : Prop :=
  (∃ block pass size text hint, exit.out = some block ∧ block ∉ start.live ∧ exit.heap.live = block :: start.live ∧
    a.xplVsnprintf pass size = .rendered text hint ∧ exit.outSize = text.length ∧
    exit.heap.bytes block = text ++ [0] ∧ (exit.heap.bytes block).length ≤ exit.heap.size block) ∨
  (exit.out = none ∧ (exit.errno = some Errno.enomem ∨ exit.errno = some Errno.emsgsize) ∧
    exit.heap.live = start.live)

/-! ### The sizes -/

namespace FormatAnswers

variable (a : FormatAnswers)

/-- The size of the block of a pass, where the passes before it have not been the last. -/
def passSize : ℕ → ℕ
  | 0 => stackBufferSize
  | n + 1 => (a.xplVsnprintf n (passSize n)).nextSize (passSize n)

/-- A pass that has memory, and whose text does not fit. -/
def Grows (n : ℕ) : Prop :=
  a.memRealloc n (a.passSize n) = true ∧ ¬ (a.xplVsnprintf n (a.passSize n)).Fits (a.passSize n)

/-- **The loop runs out of sizes:** a block of 64 MB or more, like all before it, is too short for its text. -/
def OutOfSizes : Prop := ∃ n, (∀ k ≤ n, a.Grows k) ∧ maxFormattedSize ≤ a.passSize n

end FormatAnswers

/-! ### The blocks of the loop -/

section Loop

variable {a : FormatAnswers} {start h : FormatHeap} {buffer : Option ℕ}

/-- The block of the loop is the only one that the call has allocated. -/
structure Owns (start h : FormatHeap) (buffer : Option ℕ) : Prop where
  live : h.live = buffer.toList ++ start.live
  fresh : start.fresh ≤ h.fresh

theorem Owns.memFreeIf (hown : Owns start h buffer) : (h.memFreeIf buffer).live = start.live := by
  cases buffer with
  | none => exact hown.live
  | some block =>
    show h.live.erase block = start.live
    rw [hown.live]
    exact List.erase_cons_head ..

/-- **`MemRealloc` (proved):** the new block takes the place of the old one. -/
theorem Owns.memRealloc (hown : Owns start h buffer) (size : ℕ) (bytes : List UInt8) :
    Owns start ((h.memRealloc buffer size).2.store h.fresh bytes) (some h.fresh) ∧
      ((h.memRealloc buffer size).2.store h.fresh bytes).bytes h.fresh = bytes ∧
      ((h.memRealloc buffer size).2.store h.fresh bytes).size h.fresh = size := by
  have hfresh : (h.memFreeIf buffer).fresh = h.fresh := by cases buffer <;> rfl
  refine ⟨⟨?_, ?_⟩, Function.update_self .., ?_⟩
  · show (h.memFreeIf buffer).fresh :: (h.memFreeIf buffer).live = h.fresh :: start.live
    rw [hfresh, hown.memFreeIf]
  · show start.fresh ≤ (h.memFreeIf buffer).fresh + 1
    rw [hfresh]
    exact Nat.le_succ_of_le hown.fresh
  · show Function.update (h.memFreeIf buffer).size (h.memFreeIf buffer).fresh size h.fresh = size
    rw [hfresh]
    exact Function.update_self ..

/-- The block of a heap that owns one was not live at the start. -/
theorem Owns.not_live (hown : Owns start h buffer) : h.fresh ∉ start.live := by
  intro hmem
  exact Nat.lt_irrefl _ (Nat.lt_of_lt_of_le (start.allocated _ hmem) hown.fresh)

/-- An answer that fits is a text, and all of it is written. -/
theorem VsnprintfAnswer.Fits.written {answer : VsnprintfAnswer} {size : ℕ} (hfits : answer.Fits size)
    (old : List UInt8) : ∃ text hint, answer = .rendered text hint ∧ answer.written size old = text ++ [0] ∧
      text.length < size := by
  obtain ⟨hpos, hlt⟩ := hfits
  cases answer with
  | negative n =>
    simp only [VsnprintfAnswer.required] at hpos
    omega
  | rendered text hint =>
    have hless : text.length < size := Int.ofNat_lt.mp hlt
    refine ⟨text, hint, rfl, ?_, hless⟩
    show text.take (size - 1) ++ [0] = text ++ [0]
    rw [List.take_of_length_le (Nat.le_sub_one_of_lt hless)]

/-- A pass whose text does not fit. -/
theorem FormatAnswers.grows_of_pass {pass size : ℕ} (hpass : size = a.passSize pass)
    (hmemory : a.memRealloc pass size = true) (hfits : ¬ (a.xplVsnprintf pass size).Fits size) : a.Grows pass := by
  subst hpass
  exact ⟨hmemory, hfits⟩

/-- A pass that does not grow is the last one. -/
theorem FormatAnswers.not_outOfSizes {pass : ℕ} (hless : ∀ k < pass, a.passSize k < maxFormattedSize)
    (hnot : ¬ a.Grows pass) : ¬ a.OutOfSizes := by
  rintro ⟨n, hall, hmax⟩
  rcases Nat.lt_or_ge n pass with hlt | hge
  · exact Nat.not_lt.mpr hmax (hless n hlt)
  · exact hnot (hall pass hge)

/-- **The loop (proved):** its result is sound, or it has run out of sizes and has left its block. -/
theorem createFormattedString_cases (pass size : ℕ) (hsize : 0 < size) (buffer : Option ℕ) (h : FormatHeap)
    (hown : Owns start h buffer) (hpass : size = a.passSize pass) (hbefore : ∀ k < pass, a.Grows k)
    (hless : ∀ k < pass, a.passSize k < maxFormattedSize) :
    (FormattedSound a start (h.createFormattedString a pass size hsize buffer) ∧ ¬ a.OutOfSizes) ∨
      ((h.createFormattedString a pass size hsize buffer).out = none ∧
        (h.createFormattedString a pass size hsize buffer).heap.live ≠ start.live ∧ a.OutOfSizes) := by
  fun_induction FormatHeap.createFormattedString a pass size hsize buffer h with
  | case1 pass size hsize buffer h hmemory answer tmp heap hfits =>
    obtain ⟨text, hint, hanswer, hwritten, hlength⟩ := hfits.written (h.bytes tmp)
    obtain ⟨hown', hbytes, hblock⟩ := hown.memRealloc size (answer.written size (h.bytes tmp))
    have hlast : ¬ a.Grows pass := by
      rintro ⟨_, hnot⟩
      rw [← hpass] at hnot
      exact hnot hfits
    refine .inl ⟨.inl ⟨tmp, pass, size, text, hint, rfl, hown.not_live, hown'.live, hanswer, ?_, ?_, ?_⟩,
      FormatAnswers.not_outOfSizes hless hlast⟩
    · show answer.required = _
      rw [hanswer]
      rfl
    · exact hbytes.trans hwritten
    · have hblock' : heap.size tmp = size := hblock
      rw [show heap.bytes tmp = text ++ [0] from hbytes.trans hwritten, hblock', List.length_append]
      exact hlength
  | case2 pass size hsize buffer h hmemory answer tmp heap hfits hmore ih =>
    have hgrows : a.Grows pass := FormatAnswers.grows_of_pass hpass hmemory hfits
    have hown' := (hown.memRealloc size (answer.written size (h.bytes tmp))).1
    refine ih hown' ?_ (Nat.forall_lt_succ_right.mpr ⟨hbefore, hgrows⟩)
      (Nat.forall_lt_succ_right.mpr ⟨hless, hpass ▸ hmore⟩)
    show answer.nextSize size = (a.xplVsnprintf pass (a.passSize pass)).nextSize (a.passSize pass)
    rw [← hpass]
  | case3 pass size hsize buffer h hmemory answer tmp heap hfits hmore =>
    have hgrows : a.Grows pass := FormatAnswers.grows_of_pass hpass hmemory hfits
    have hown' := (hown.memRealloc size (answer.written size (h.bytes tmp))).1
    refine .inr ⟨rfl, fun hlive => ?_, pass, fun k hk => ?_, hpass ▸ Nat.not_lt.mp hmore⟩
    · have hlength := congrArg List.length (hown'.live.symm.trans hlive)
      rw [List.length_append] at hlength
      exact absurd hlength (by simp)
    · exact Nat.forall_lt_succ_right.mpr ⟨hbefore, hgrows⟩ k (Nat.lt_succ_of_le hk)
  | case4 pass size hsize buffer h hmemory =>
    have hlast : ¬ a.Grows pass := by
      rintro ⟨hmemory', _⟩
      rw [← hpass] at hmemory'
      exact hmemory hmemory'
    exact .inl ⟨.inr ⟨rfl, .inl rfl, hown.memFreeIf⟩, FormatAnswers.not_outOfSizes hless hlast⟩

end Loop

/-! ### The text that is returned -/

section Return

variable {Format Arg : Type}

/-- What `Formatted` has of an exit: the text and `errno`. -/
def FormattedExit.return (exit : FormattedExit) : FormatReturn where
  out := exit.out.map fun block => (exit.heap.bytes block).take exit.outSize.toNat
  errno := exit.errno

/-- The arguments of a pass. -/
def passArguments (v : Vsnprintf Format Arg) (format : Format) (arguments : VaList Arg) (pass : ℕ) : VaList Arg :=
  arguments.advance (pass * v.arity format)

variable (v : Vsnprintf Format Arg) (calls : FormatCalls) (format : Format) (arguments : VaList Arg)
  (hshort : ∀ pass, (v.text format (passArguments v format arguments pass)).length < intMax)

/-- The answers when each pass renders the format with the arguments behind those of the pass before. -/
def FormatAnswers.ofCalls : FormatAnswers where
  memRealloc _ size := calls.memRealloc size
  xplVsnprintf pass size :=
    if (v.text format (passArguments v format arguments pass)).length < size ∨ calls.reports pass = true then
      .rendered (v.text format (passArguments v format arguments pass)) (Nat.le_of_lt (hshort pass))
    else .negative 0

/-- A pass returns what it returns in `Formatted`. -/
theorem ofCalls_required (pass size : ℕ) :
    ((FormatAnswers.ofCalls v calls format arguments hshort).xplVsnprintf pass size).required =
      (v.xplVsnprintf size (calls.reports pass) format (passArguments v format arguments pass)).required := by
  unfold FormatAnswers.ofCalls Vsnprintf.xplVsnprintf
  simp only
  split <;> rfl

theorem ofCalls_fits (pass size : ℕ) :
    (v.xplVsnprintf size (calls.reports pass) format (passArguments v format arguments pass)).Fits size ↔
      ((FormatAnswers.ofCalls v calls format arguments hshort).xplVsnprintf pass size).Fits size := by
  unfold Printed.Fits VsnprintfAnswer.Fits
  rw [ofCalls_required]
  omega

theorem ofCalls_nextSize (pass size : ℕ) :
    ((FormatAnswers.ofCalls v calls format arguments hshort).xplVsnprintf pass size).nextSize size =
      nextSize size (v.xplVsnprintf size (calls.reports pass) format (passArguments v format arguments pass)).required := by
  have hlt := hshort pass
  unfold VsnprintfAnswer.nextSize nextSize
  rw [ofCalls_required]
  by_cases hneg : (v.xplVsnprintf size (calls.reports pass) format (passArguments v format arguments pass)).required < 0
  · rw [if_pos hneg, if_pos hneg]
  · rw [if_neg hneg, if_neg hneg]
    have hrequired : (v.xplVsnprintf size (calls.reports pass) format
        (passArguments v format arguments pass)).required =
        (v.text format (passArguments v format arguments pass)).length := by
      unfold Vsnprintf.xplVsnprintf at hneg ⊢
      simp only at hneg ⊢
      split
      · rfl
      next hnot =>
        rw [if_neg hnot] at hneg
        exact absurd (by decide) hneg
    rw [hrequired, if_pos (by omega)]
    exact sizeT_natCast _

theorem passArguments_succ (pass : ℕ) : (passArguments v format arguments pass).advance (v.arity format) =
    passArguments v format arguments (pass + 1) := by
  unfold passArguments VaList.advance
  rw [Nat.succ_mul, Nat.add_assoc]

/-- **The loop returns the text, or the error, that it returns in `Formatted` (proved).** -/
theorem createFormattedString_return (pass size : ℕ) (hsize : 0 < size) (buffer : Option ℕ) (h : FormatHeap) :
    (h.createFormattedString (.ofCalls v calls format arguments hshort) pass size hsize buffer).return =
      createFormattedString v calls format pass size hsize (passArguments v format arguments pass) := by
  fun_induction FormatHeap.createFormattedString (.ofCalls v calls format arguments hshort) pass size hsize buffer h with
  | case1 pass size hsize buffer h hmemory answer tmp heap hfits =>
    obtain ⟨text, hint, hanswer, hwritten, hlength⟩ := hfits.written (h.bytes tmp)
    have hfits' := (ofCalls_fits v calls format arguments hshort pass size).mpr hfits
    have htext : text = v.text format (passArguments v format arguments pass) := by
      have hanswer' : (FormatAnswers.ofCalls v calls format arguments hshort).xplVsnprintf pass size =
        .rendered text hint := hanswer
      unfold FormatAnswers.ofCalls at hanswer'
      simp only at hanswer'
      split at hanswer'
      · injection hanswer' with heq
        exact heq.symm
      · cases hanswer'
    have hlength' := (xplVsnprintf_fits v size (calls.reports pass) format (passArguments v format arguments pass)).mp
      hfits'
    have hmemory' : calls.memRealloc size = true := hmemory
    rw [createFormattedString, if_pos hmemory']
    simp only [dif_pos hfits', xplVsnprintf_out hlength']
    have hbytes : heap.bytes tmp = text ++ [0] := (Function.update_self ..).trans hwritten
    have hout : answer.required.toNat = text.length := by
      rw [hanswer]
      rfl
    show FormatReturn.mk (some ((heap.bytes tmp).take answer.required.toNat)) none = _
    rw [hbytes, hout, List.take_left, htext]
  | case2 pass size hsize buffer h hmemory answer tmp heap hfits hmore ih =>
    have hfits' := mt (ofCalls_fits v calls format arguments hshort pass size).mp hfits
    have hmemory' : calls.memRealloc size = true := hmemory
    have hnext : answer.nextSize size = _ := ofCalls_nextSize v calls format arguments hshort pass size
    have hround : createFormattedString v calls format pass size hsize (passArguments v format arguments pass) =
        createFormattedString v calls format (pass + 1) _
          (Nat.lt_trans hsize (lt_nextSize hsize hfits')) (passArguments v format arguments (pass + 1)) := by
      rw [createFormattedString, if_pos hmemory', ← passArguments_succ]
      simp only [dif_neg hfits', dif_pos hmore]
      rfl
    rw [ih, hround]
    simp only [hnext]
  | case3 pass size hsize buffer h hmemory answer tmp heap hfits hmore =>
    have hfits' := mt (ofCalls_fits v calls format arguments hshort pass size).mp hfits
    have hmemory' : calls.memRealloc size = true := hmemory
    rw [createFormattedString, if_pos hmemory']
    simp only [dif_neg hfits', dif_neg hmore]
    rfl
  | case4 pass size hsize buffer h hmemory =>
    have hmemory' : ¬ calls.memRealloc size = true := hmemory
    rw [createFormattedString, if_neg hmemory']
    rfl

end Return

/-! ### The call -/

theorem stackBufferSize_pos : 0 < stackBufferSize := by decide

/-- `CreateFormattedString` -/
def FormatHeap.create (h : FormatHeap) (a : FormatAnswers) : FormattedExit :=
  h.createFormattedString a 0 stackBufferSize stackBufferSize_pos none

/-- The first pass has no pass before it, and no block. -/
theorem create_cases (a : FormatAnswers) (start : FormatHeap) :
    (FormattedSound a start (start.create a) ∧ ¬ a.OutOfSizes) ∨
      ((start.create a).out = none ∧ (start.create a).heap.live ≠ start.live ∧ a.OutOfSizes) :=
  createFormattedString_cases 0 stackBufferSize stackBufferSize_pos none start ⟨rfl, Nat.le_refl _⟩ rfl
    (fun k hk => absurd hk (Nat.not_lt_zero k)) fun k hk => absurd hk (Nat.not_lt_zero k)

/-- **Formatting owns its memory (proved)** exactly when it does not run out of sizes. -/
theorem formattedSound_iff (a : FormatAnswers) (start : FormatHeap) :
    FormattedSound a start (start.create a) ↔ ¬ a.OutOfSizes := by
  rcases create_cases a start with ⟨hsound, hsizes⟩ | ⟨hout, hlive, hsizes⟩
  · exact iff_of_true hsound hsizes
  · refine iff_of_false ?_ (not_not_intro hsizes)
    rintro (⟨block, _, _, _, _, hsome, _⟩ | ⟨_, _, hsame⟩)
    · exact Option.some_ne_none block (hsome.symm.trans hout)
    · exact hlive hsame

/-- `XplVsnprintf` fails in every pass, and there is memory. -/
def FormatAnswers.unsizable : FormatAnswers where
  memRealloc _ _ := true
  xplVsnprintf _ _ := .negative 0

theorem fits_unsizable (n size : ℕ) : ¬ (FormatAnswers.unsizable.xplVsnprintf n size).Fits size :=
  fun hfits => Int.not_le.mpr (by decide : (-(0 + 1) : ℤ) < 0) hfits.1

/-- **The block of 134086656 bytes is not freed.** -/
theorem unsizable_leaks (start : FormatHeap) : (start.create .unsizable).out = none ∧
    (start.create .unsizable).heap.live ≠ start.live := by
  have hsizes : FormatAnswers.unsizable.OutOfSizes := by
    refine ⟨17, fun k _ => ⟨rfl, fits_unsizable k _⟩, ?_⟩
    decide
  rcases create_cases .unsizable start with ⟨_, hnot⟩ | ⟨hout, hlive, _⟩
  · exact absurd hsizes hnot
  · exact ⟨hout, hlive⟩

/-- A format that cannot be rendered, `"%ls"` with a character that has no encoding. -/
theorem formatted_leaks : ¬ ∀ (a : FormatAnswers) (start : FormatHeap), FormattedSound a start (start.create a) := by
  intro hall
  obtain ⟨hout, hlive⟩ := unsizable_leaks ⟨[], 0, fun _ => 0, fun _ => [], fun _ hmem => absurd hmem List.not_mem_nil⟩
  rcases hall .unsizable ⟨[], 0, fun _ => 0, fun _ => [], fun _ hmem => absurd hmem List.not_mem_nil⟩ with
    ⟨block, _, _, _, _, hsome, _⟩ | ⟨_, _, hsame⟩
  · exact Option.some_ne_none block (hsome.symm.trans hout)
  · exact hlive hsame

end Connio
