import Connio.ListenerCalls

/-!
# Formatted output

The four functions that format a text and pass it on (`connio.c`, `trace.c`): into a buffer on the stack, or into one
that `CreateFormattedString` lets grow until the text fits.

* `VaList`, `Vsnprintf` — the arguments a caller gives, and what formats them;
* `createFormattedString`, `printFormatted` — the loop, and the two ways a text is formatted;
* `connWriteVEx`, `connAWriteVEx`, `connTracePrintVEx`, `vfprintIOB` — the callers;
* `OutputExact` — what is passed on is the rendering of the caller's arguments;
* `createFormattedString_of_render` — **PROVED**: a loop whose passes all render one text gives this text;
* `outputExact_iff` — **PROVED**: the output is exact where the text fits the stack buffer, or does not depend on the
  arguments at all.

A list of arguments lies in memory with whatever is behind it; each call that is given the list advances it.
-/

namespace Connio

/-- `STACK_BUFFER_SIZE` -/
def stackBufferSize : ℕ := 1023

/-- `MAX_CONN_WRITE_FORMATTED_SIZE` and `MAX_FORMATTED_SIZE` -/
def maxFormattedSize : ℕ := 1024 * 1024 * 64

variable {Format Arg : Type}

/-! ### Formatting -/

/-- A `va_list`: the memory it reads and how far it has been read. -/
structure VaList (Arg : Type) where
  words : ℕ → Arg
  position : ℕ

namespace VaList

/-- The next `n` arguments. -/
def next (l : VaList Arg) (n : ℕ) : List Arg := (List.range n).map fun i => l.words (l.position + i)

/-- `n` arguments have been read. -/
def advance (l : VaList Arg) (n : ℕ) : VaList Arg := { l with position := l.position + n }

end VaList

/-- How formats are rendered: the arguments a format takes, and the text. -/
structure Vsnprintf (Format Arg : Type) where
  arity : Format → ℕ
  render : Format → List Arg → List UInt8

/-- What `XplVsnprintf` returns and leaves: the buffer, and its list of arguments. -/
structure Printed (Arg : Type) where
  required : Int
  buffer : List UInt8
  arguments : VaList Arg

namespace Vsnprintf

variable (v : Vsnprintf Format Arg)

/-- The text the next call renders. -/
def text (format : Format) (arguments : VaList Arg) : List UInt8 :=
  v.render format (arguments.next (v.arity format))

/-- `XplVsnprintf` for a buffer of `size` octets; `reports` says that it returns the length of a text that does not
fit, and not a negative number. -/
def xplVsnprintf (size : ℕ) (reports : Bool) (format : Format) (arguments : VaList Arg) : Printed Arg where
  required := if (v.text format arguments).length < size ∨ reports = true then (v.text format arguments).length else -1
  buffer := (v.text format arguments).take (size - 1)
  arguments := arguments.advance (v.arity format)

end Vsnprintf

/-- The text is in the buffer, with its NUL. -/
def Printed.Fits (p : Printed Arg) (size : ℕ) : Prop := 0 ≤ p.required ∧ p.required.toNat < size

instance (p : Printed Arg) (size : ℕ) : Decidable (p.Fits size) := inferInstanceAs (Decidable (_ ∧ _))

/-- `nextSize`: the size is doubled, or the one the text needs. -/
def nextSize (size : ℕ) (required : Int) : ℕ := if required < 0 then 2 * size else required.toNat + 1

theorem lt_nextSize {size : ℕ} {p : Printed Arg} (hsize : 0 < size) (h : ¬ p.Fits size) :
    size < nextSize size p.required := by
  unfold Printed.Fits at h
  unfold nextSize
  split
  · omega
  · omega

/-- The text that is passed on, and `errno` where it is written. -/
structure FormatReturn where
  out : Option (List UInt8)
  errno : Option Errno
  deriving DecidableEq, Repr

/-- The surroundings of a call: what `MemRealloc` answers for a size, and how `XplVsnprintf` answers in each pass. -/
structure FormatCalls where
  memRealloc : ℕ → Bool
  reports : ℕ → Bool

/-- `CreateFormattedString`, from pass `pass` on. -/
def createFormattedString (v : Vsnprintf Format Arg) (calls : FormatCalls) (format : Format) (pass size : ℕ)
    (hsize : 0 < size) (arguments : VaList Arg) : FormatReturn :=
  if calls.memRealloc size = true then
    let printed := v.xplVsnprintf size (calls.reports pass) format arguments
    if h : printed.Fits size then { out := some (printed.buffer.take printed.required.toNat), errno := none }
    else if hless : size < maxFormattedSize then
      createFormattedString v calls format (pass + 1) (nextSize size printed.required)
        (Nat.lt_trans hsize (lt_nextSize hsize h)) printed.arguments
    else { out := none, errno := some Errno.emsgsize }
  else { out := none, errno := some Errno.enomem }
termination_by maxFormattedSize - size
decreasing_by exact Nat.sub_lt_sub_left hless (lt_nextSize hsize h)

/-- The stack buffer first, else `CreateFormattedString` with the same list. -/
def printFormatted (v : Vsnprintf Format Arg) (calls : FormatCalls) (format : Format) (arguments : VaList Arg) :
    FormatReturn :=
  let printed := v.xplVsnprintf stackBufferSize (calls.reports 0) format arguments
  if printed.Fits stackBufferSize then
    { out := some (printed.buffer.take printed.required.toNat), errno := none }
  else createFormattedString v calls format 1 stackBufferSize (by decide) printed.arguments

/-! ### The callers -/

/-- What the checks of the callers see. -/
structure FormatGuards where
  /-- `conn`, or `trace->iob`, is not NULL -/
  given : Bool
  /-- `format` is not NULL -/
  format : Bool
  shuttingDown : Bool
  /-- `validFileAndLine` -/
  fileAndLine : Bool
  asyncEnabled : Bool
  deriving DecidableEq, Repr

inductive FormatCaller where
  | connWriteVEx
  | connAWriteVEx
  | connTracePrintVEx
  | vfprintIOB
  deriving DecidableEq, Repr

/-- The `errno` with which a caller returns before it formats anything. -/
def FormatCaller.refusal (g : FormatGuards) : FormatCaller → Option Errno
  | .connWriteVEx =>
    if !g.given then some Errno.einval else if g.shuttingDown then some Errno.econnhandleshutdown else none
  | .connAWriteVEx =>
    if !g.given || !g.format || !g.fileAndLine then some Errno.einval
    else if !g.asyncEnabled then some Errno.econnioinit
    else none
  | .connTracePrintVEx => none
  | .vfprintIOB => if !g.given then some 0 else none

/-- `transferred`: what `writeClientData` or `traceAppendIOB` answers, zero where nothing is passed on. -/
def FormatReturn.transferred (r : FormatReturn) (send : List UInt8 → Int) : Int := r.out.elim 0 send

section Callers

variable (v : Vsnprintf Format Arg) (g : FormatGuards) (calls : FormatCalls) (send : List UInt8 → Int)
  (format : Format) (arguments : VaList Arg)

/-- A caller that sets `errno` to zero first. -/
def checkedPrint (caller : FormatCaller) : FormatReturn :=
  match caller.refusal g with
  | some err => { out := none, errno := some err }
  | none =>
    let r := printFormatted v calls format arguments
    { r with errno := some (r.errno.getD 0) }

/-- `ConnWriteVEx` -/
def connWriteVEx : FormatReturn × Int :=
  let r := checkedPrint v g calls format arguments .connWriteVEx
  (r, r.transferred send)

/-- `ConnAWriteVEx` -/
def connAWriteVEx : FormatReturn := checkedPrint v g calls format arguments .connAWriteVEx

/-- `vfprintIOB` -/
def vfprintIOB : FormatReturn × Int :=
  let r := checkedPrint v g calls format arguments .vfprintIOB
  (r, r.transferred send)

/-- `connTracePrintVEx`: no check, `errno` is not reset, and it returns zero. -/
def connTracePrintVEx : FormatReturn × Int := (printFormatted v calls format arguments, 0)

/-- What a caller passes to `writeClientData`, `SocketLogMessage` or `traceAppendIOB`. -/
def passedOn : FormatCaller → Option (List UInt8)
  | .connWriteVEx => (connWriteVEx v g calls send format arguments).1.out
  | .connAWriteVEx => (connAWriteVEx v g calls format arguments).out
  | .connTracePrintVEx => (connTracePrintVEx v calls format arguments).1.out
  | .vfprintIOB => (vfprintIOB v g calls send format arguments).1.out

end Callers

/-- A format with the arguments it takes, and a text that is not too long. -/
structure FormatCall (v : Vsnprintf Format Arg) where
  format : Format
  args : List Arg
  args_length : args.length = v.arity format
  short : (v.render format args).length < maxFormattedSize

/-- The rendering of the format with the caller's arguments. -/
def FormatCall.text {v : Vsnprintf Format Arg} (c : FormatCall v) : List UInt8 := v.render c.format c.args

/-- **What is passed on is the rendering,** whatever lies behind the arguments, and whether `XplVsnprintf` reports the
lengths of texts that do not fit or not; there is memory. -/
def OutputExact (v : Vsnprintf Format Arg) (caller : FormatCaller) (c : FormatCall v) : Prop :=
  ∀ g send reports words, caller.refusal g = none → VaList.next ⟨words, 0⟩ c.args.length = c.args →
    passedOn v g ⟨fun _ => true, reports⟩ send c.format ⟨words, 0⟩ caller = some c.text

/-! ### The loop -/

section Loop

variable {v : Vsnprintf Format Arg} {calls : FormatCalls} {format : Format} {r : List UInt8}

/-- **One call (proved):** a text that fits is in the buffer. -/
theorem xplVsnprintf_fits (v : Vsnprintf Format Arg) (size : ℕ) (reports : Bool) (format : Format)
    (arguments : VaList Arg) :
    (v.xplVsnprintf size reports format arguments).Fits size ↔ (v.text format arguments).length < size := by
  unfold Printed.Fits Vsnprintf.xplVsnprintf
  simp only
  split <;> omega

theorem xplVsnprintf_out {size : ℕ} {reports : Bool} {arguments : VaList Arg}
    (h : (v.text format arguments).length < size) :
    (v.xplVsnprintf size reports format arguments).buffer.take
      (v.xplVsnprintf size reports format arguments).required.toNat = v.text format arguments := by
  have hle : (v.text format arguments).length ≤ size - 1 := by omega
  simp only [Vsnprintf.xplVsnprintf, h, true_or, if_true, Int.toNat_natCast, List.take_of_length_le hle]
  exact List.take_length

/-- Each call from here on renders `r`. -/
def Renders (v : Vsnprintf Format Arg) (format : Format) (arguments : VaList Arg) (r : List UInt8) : Prop :=
  ∀ pass, v.text format (arguments.advance (pass * v.arity format)) = r

theorem Renders.now {arguments : VaList Arg} (h : Renders v format arguments r) : v.text format arguments = r := by
  have h0 := h 0
  rwa [Nat.zero_mul] at h0

theorem Renders.next {arguments : VaList Arg} (h : Renders v format arguments r) :
    Renders v format (arguments.advance (v.arity format)) r := by
  intro pass
  have hnext := h (pass + 1)
  have heq : (arguments.advance (v.arity format)).advance (pass * v.arity format) =
      arguments.advance ((pass + 1) * v.arity format) := by
    unfold VaList.advance
    rw [Nat.succ_mul, Nat.add_assoc, Nat.add_comm (v.arity format)]
  rw [heq]
  exact hnext

/-- **The loop gives nothing but the text its passes render (proved),** and it gives it where the text is short enough
and there is memory. -/
theorem createFormattedString_of_render (pass size : ℕ) (hsize : 0 < size) (arguments : VaList Arg)
    (h : Renders v format arguments r) :
    (∀ out, (createFormattedString v calls format pass size hsize arguments).out = some out → out = r) ∧
    (r.length < maxFormattedSize → (∀ n, calls.memRealloc n = true) →
      (createFormattedString v calls format pass size hsize arguments).out = some r) := by
  fun_induction createFormattedString v calls format pass size hsize arguments with
  | case1 pass size hsize arguments hmemory printed hfits =>
    have hlength := (xplVsnprintf_fits v size (calls.reports pass) format arguments).mp hfits
    have hout : printed.buffer.take printed.required.toNat = r := (xplVsnprintf_out hlength).trans h.now
    rw [hout]
    exact ⟨fun out heq => (Option.some.inj heq).symm, fun _ _ => rfl⟩
  | case2 pass size hsize arguments hmemory printed hfits hless ih => exact ih h.next
  | case3 pass size hsize arguments hmemory printed hfits hless =>
    refine ⟨fun out heq => (by cases heq), fun hshort _ => ?_⟩
    have hlong := mt (xplVsnprintf_fits v size (calls.reports pass) format arguments).mpr hfits
    rw [h.now] at hlong
    omega
  | case4 pass size hsize arguments hmemory =>
    exact ⟨fun out heq => (by cases heq), fun _ hall => absurd (hall size) hmemory⟩

/-- **A text that fits the stack buffer (proved).** -/
theorem printFormatted_short {arguments : VaList Arg} (h : (v.text format arguments).length < stackBufferSize) :
    (printFormatted v calls format arguments).out = some (v.text format arguments) := by
  unfold printFormatted
  simp only [(xplVsnprintf_fits v stackBufferSize (calls.reports 0) format arguments).mpr h, if_true, xplVsnprintf_out h]

/-- **A longer text (proved):** it is rendered again from the arguments behind the caller's. -/
theorem printFormatted_long {arguments : VaList Arg} (h : ¬ (v.text format arguments).length < stackBufferSize) :
    printFormatted v calls format arguments =
      createFormattedString v calls format 1 stackBufferSize (by decide) (arguments.advance (v.arity format)) := by
  unfold printFormatted
  simp only [mt (xplVsnprintf_fits v stackBufferSize (calls.reports 0) format arguments).mp h, if_false]
  rfl

end Loop

/-! ### The output -/

section Output

variable {v : Vsnprintf Format Arg} {caller : FormatCaller}

/-- A caller whose checks are met passes on what is formatted. -/
theorem passedOn_eq {g : FormatGuards} {calls : FormatCalls} {send : List UInt8 → Int} {format : Format}
    {arguments : VaList Arg} (h : caller.refusal g = none) :
    passedOn v g calls send format arguments caller = (printFormatted v calls format arguments).out := by
  cases caller with
  | connTracePrintVEx => rfl
  | connWriteVEx => simp only [passedOn, connWriteVEx, checkedPrint, h]
  | connAWriteVEx => simp only [passedOn, connAWriteVEx, checkedPrint, h]
  | vfprintIOB => simp only [passedOn, vfprintIOB, checkedPrint, h]

/-- The checks of every caller are met. -/
def FormatGuards.met : FormatGuards where
  given := true
  format := true
  shuttingDown := false
  fileAndLine := true
  asyncEnabled := true

theorem refusal_met (caller : FormatCaller) : caller.refusal .met = none := by
  cases caller <;> rfl

/-- The memory of a caller's list, with `behind` again and again behind the arguments. -/
def repeated (args behind : List Arg) (default : Arg) (i : ℕ) : Arg :=
  if i < args.length then args.getD i default else behind.getD (i % behind.length) default

theorem next_repeated_args (args behind : List Arg) (default : Arg) :
    VaList.next ⟨repeated args behind default, 0⟩ args.length = args := by
  refine List.ext_getElem (by simp [VaList.next]) fun i hi hargs => ?_
  simp [VaList.next, repeated, hargs]

theorem next_repeated_behind {args behind : List Arg} {default : Arg} (hlength : behind.length = args.length) {pass : ℕ}
    (hpass : 0 < pass) : VaList.next ⟨repeated args behind default, pass * args.length⟩ args.length = behind := by
  refine List.ext_getElem (by simp [VaList.next, hlength]) fun i hi hbehind => ?_
  have hbeyond : ¬ pass * args.length + i < args.length := by
    have := Nat.le_mul_of_pos_left args.length hpass
    omega
  have hmod : i % args.length = i := Nat.mod_eq_of_lt (hlength ▸ hbehind)
  simp [VaList.next, repeated, hbeyond, hlength, hmod, List.getElem?_eq_getElem hbehind]

variable {c : FormatCall v}

/-- The memory has the arguments of the call at its head. -/
theorem FormatCall.text_eq {words : ℕ → Arg} (hwords : VaList.next ⟨words, 0⟩ c.args.length = c.args) :
    v.text c.format ⟨words, 0⟩ = c.text := by
  unfold Vsnprintf.text FormatCall.text
  rw [← c.args_length, hwords]

/-- With `behind` behind the arguments, each further call renders `behind`. -/
theorem FormatCall.renders_behind (c : FormatCall v) {behind : List Arg} (hbehind : behind.length = v.arity c.format)
    (default : Arg) : Renders v c.format ((VaList.mk (repeated c.args behind default) 0).advance (v.arity c.format))
      (v.render c.format behind) := by
  intro pass
  have hposition : 0 + c.args.length + pass * c.args.length = (pass + 1) * c.args.length := by
    rw [Nat.succ_mul]
    omega
  unfold Vsnprintf.text VaList.advance
  simp only [← c.args_length, hposition]
  rw [next_repeated_behind (hbehind.trans c.args_length.symm) (Nat.succ_pos pass)]

/-- An exact output of a long text does not depend on the arguments. -/
theorem OutputExact.constant (h : OutputExact v caller c) (hlong : ¬ c.text.length < stackBufferSize) {behind : List Arg}
    (hbehind : behind.length = v.arity c.format) : v.render c.format behind = c.text := by
  cases hcons : behind with
  | nil =>
    rw [hcons] at hbehind
    have hargs : c.args = [] := List.eq_nil_of_length_eq_zero (c.args_length.trans hbehind.symm)
    unfold FormatCall.text
    rw [hargs]
  | cons default _ =>
    rw [← hcons]
    have hwords := next_repeated_args c.args behind default
    have hout := h .met (fun _ => 0) (fun _ => true) _ (refusal_met caller) hwords
    have htext := c.text_eq hwords
    rw [passedOn_eq (refusal_met caller), printFormatted_long (by rwa [htext])] at hout
    exact ((createFormattedString_of_render _ _ _ _ (c.renders_behind hbehind default)).1 _ hout).symm

/-- **Formatted output (proved):** exact for a text that fits the stack buffer, else only where the text does not depend
on the arguments. -/
theorem outputExact_iff (v : Vsnprintf Format Arg) (caller : FormatCaller) (c : FormatCall v) :
    OutputExact v caller c ↔ c.text.length < stackBufferSize ∨
      ∀ args : List Arg, args.length = v.arity c.format → v.render c.format args = c.text := by
  constructor
  · intro h
    by_cases hshort : c.text.length < stackBufferSize
    · exact Or.inl hshort
    · exact Or.inr fun args hargs => h.constant hshort hargs
  · intro hcases g send reports words hg hwords
    have htext := c.text_eq hwords
    rw [passedOn_eq hg]
    by_cases hshort : c.text.length < stackBufferSize
    · rw [printFormatted_short (by rwa [htext]), htext]
    · have hconstant := hcases.resolve_left hshort
      have hrenders : Renders v c.format ((VaList.mk words 0).advance (v.arity c.format)) c.text :=
        fun pass => hconstant _ (by simp [VaList.next])
      rw [printFormatted_long (by rwa [htext])]
      exact (createFormattedString_of_render _ _ _ _ hrenders).2 c.short fun _ => rfl

end Output

/-! ### A long argument -/

/-- Formats that are a row of `%s`, each with a string. -/
def Vsnprintf.strings : Vsnprintf ℕ (List UInt8) where
  arity := id
  render := fun _ strings => strings.flatten

/-- `"%s"` with a string that just does not fit the stack buffer. -/
def longString : FormatCall Vsnprintf.strings where
  format := 1
  args := [List.replicate stackBufferSize 97]
  args_length := rfl
  short := by
    simp only [Vsnprintf.strings, List.flatten_singleton, List.length_replicate]
    decide

/-- **What lies behind the argument is printed.** -/
theorem long_string_lost : ¬ ∀ (v : Vsnprintf ℕ (List UInt8)) (caller : FormatCaller) (c : FormatCall v),
    OutputExact v caller c := by
  intro h
  have hlength : longString.text.length = stackBufferSize := by
    simp [FormatCall.text, longString, Vsnprintf.strings]
  have hempty : Vsnprintf.strings.render longString.format [[]] = longString.text :=
    (h _ .connWriteVEx longString).constant (by omega) rfl
  rw [← hempty] at hlength
  cases hlength

end Connio
