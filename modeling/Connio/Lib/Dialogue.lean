import Mathlib.Logic.Basic

/-!
# Programs in dialogue with their surroundings

A program tells what it does, asks what it cannot know, and is done or is cut off. A discipline follows what is told with
a state of its own, says which acts are allowed in a state, and which answers are an excuse in it.

* `Dialogue.run` — what is told and answered when the surroundings answer with `w`, the `n`-th question with `w n`;
* `Discipline.Kept` — every act that is told is allowed; `Discipline.Unexcused` — no answer excuses;
* `Discipline.Wp` — along every path without an excuse each act is allowed and the end meets the postcondition, and a
  path with an excuse comes to an act that is not allowed;
* `Discipline.Wp.kept_iff` — so the acts are allowed exactly along the paths without an excuse;
* `Discipline.Moves` — a program takes the discipline from one state to another.
-/

namespace Connio.Lib

variable {σ ε κ α β : Type} {ρ : κ → Type}

/-- A program: `tell` does something, `ask` goes on with the answer, `cut` ends the program before its end. -/
inductive Dialogue (ε κ : Type) (ρ : κ → Type) (α : Type) where
  | done (a : α)
  | tell (e : ε) (next : Dialogue ε κ ρ α)
  | ask (q : κ) (next : ρ q → Dialogue ε κ ρ α)
  | cut

/-- One line of the record of a run. -/
inductive Line (ε κ : Type) (ρ : κ → Type) where
  | told (e : ε)
  | answered (q : κ) (a : ρ q)

namespace Dialogue

def bind : Dialogue ε κ ρ α → (α → Dialogue ε κ ρ β) → Dialogue ε κ ρ β
  | .done a, k => k a
  | .tell e p, k => .tell e (p.bind k)
  | .ask q p, k => .ask q fun a => (p a).bind k
  | .cut, _ => .cut

instance : Monad (Dialogue ε κ ρ) where
  pure := .done
  bind := bind

/-- Do one thing. -/
def act (e : ε) : Dialogue ε κ ρ Unit := .tell e (.done ())

/-- Ask one question. -/
def query (q : κ) : Dialogue ε κ ρ (ρ q) := .ask q .done

/-- Do `p` on a condition. -/
def onlyIf (b : Bool) (p : Dialogue ε κ ρ Unit) : Dialogue ε κ ρ Unit := if b then p else .done ()

/-- What is told and answered when the `n`-th question is answered by `w n`, and the result unless the program is cut. -/
def run : Dialogue ε κ ρ α → (Nat → (q : κ) → ρ q) → List (Line ε κ ρ) × Option α
  | .done a, _ => ([], some a)
  | .tell e p, w => (.told e :: (p.run w).1, (p.run w).2)
  | .ask q p, w =>
    let rest := (p (w 0 q)).run fun n => w (n + 1)
    (.answered q (w 0 q) :: rest.1, rest.2)
  | .cut, _ => ([], none)

end Dialogue

/-- What a record is judged by: how an act changes the state, which acts are allowed, which answers are an excuse. -/
structure Discipline (σ ε κ : Type) (ρ : κ → Type) where
  next : σ → ε → σ
  allowed : σ → ε → Prop
  excuse : σ → (q : κ) → ρ q → Prop

namespace Discipline

variable (D : Discipline σ ε κ ρ)

/-- Every act of the record is allowed where it is done. -/
def Kept : σ → List (Line ε κ ρ) → Prop
  | _, [] => True
  | s, .told e :: rest => D.allowed s e ∧ Kept (D.next s e) rest
  | s, .answered _ _ :: rest => Kept s rest

/-- No answer of the record is an excuse. -/
def Unexcused : σ → List (Line ε κ ρ) → Prop
  | _, [] => True
  | s, .told e :: rest => Unexcused (D.next s e) rest
  | s, .answered q a :: rest => ¬ D.excuse s q a ∧ Unexcused s rest

/-- The state after a record. -/
def after : σ → List (Line ε κ ρ) → σ
  | s, [] => s
  | s, .told e :: rest => after (D.next s e) rest
  | s, .answered _ _ :: rest => after s rest

/-- Every path of the program comes to an act that is not allowed. -/
def Doomed : Dialogue ε κ ρ α → σ → Prop
  | .done _, _ => False
  | .tell e p, s => ¬ D.allowed s e ∨ Doomed p (D.next s e)
  | .ask _ p, s => ∀ a, Doomed (p a) s
  | .cut, _ => False

/-- The weakest precondition of a program: its acts are allowed up to an excuse, and an excuse is followed by one that is
not. -/
def Wp : Dialogue ε κ ρ α → σ → (α → σ → Prop) → Prop
  | .done a, s, post => post a s
  | .tell e p, s, post => D.allowed s e ∧ Wp p (D.next s e) post
  | .ask q p, s, post => ∀ a, (D.excuse s q a → D.Doomed (p a) s) ∧ (¬ D.excuse s q a → Wp (p a) s post)
  | .cut, _, _ => True

variable {D} {s t u : σ}

/-! ### The rules -/

theorem Doomed.bind {p : Dialogue ε κ ρ α} (k : α → Dialogue ε κ ρ β) (h : D.Doomed p s) :
    D.Doomed (p >>= k) s := by
  induction p generalizing s with
  | done a => exact absurd h id
  | cut => exact absurd h id
  | tell e p ih =>
    cases h with
    | inl hnot => exact Or.inl hnot
    | inr hrest => exact Or.inr (ih hrest)
  | ask q p ih =>
    intro a
    exact ih a (h a)

theorem Wp.bind {p : Dialogue ε κ ρ α} {k : α → Dialogue ε κ ρ β} {post : β → σ → Prop}
    (h : D.Wp p s fun a t => D.Wp (k a) t post) : D.Wp (p >>= k) s post := by
  induction p generalizing s with
  | done a => exact h
  | cut => trivial
  | tell e p ih => exact ⟨h.1, ih h.2⟩
  | ask q p ih =>
    intro a
    constructor
    · intro hexcuse
      exact ((h a).1 hexcuse).bind k
    · intro hnot
      exact ih a ((h a).2 hnot)

theorem Wp.weaken {p : Dialogue ε κ ρ α} {post post' : α → σ → Prop} (h : D.Wp p s post)
    (himp : ∀ a t, post a t → post' a t) : D.Wp p s post' := by
  induction p generalizing s with
  | done a => exact himp a s h
  | cut => trivial
  | tell e p ih => exact ⟨h.1, ih h.2⟩
  | ask q p ih =>
    intro a
    exact ⟨(h a).1, fun hnot => ih a ((h a).2 hnot)⟩

/-! ### What the rules say about the runs -/

/-- A doomed program does something that is not allowed, whatever it is answered. -/
theorem Doomed.not_kept {p : Dialogue ε κ ρ α} (h : D.Doomed p s) (w : Nat → (q : κ) → ρ q) :
    ¬ D.Kept s (p.run w).1 := by
  induction p generalizing s w with
  | done a => exact absurd h id
  | cut => exact absurd h id
  | tell e p ih =>
    intro hkept
    cases h with
    | inl hnot => exact hnot hkept.1
    | inr hrest => exact ih hrest w hkept.2
  | ask q p ih => exact ih (w 0 q) (h (w 0 q)) fun n => w (n + 1)

/-- **The discipline is kept exactly without an excuse (proved).** -/
theorem Wp.kept_iff {p : Dialogue ε κ ρ α} {post : α → σ → Prop} (h : D.Wp p s post) (w : Nat → (q : κ) → ρ q) :
    D.Kept s (p.run w).1 ↔ D.Unexcused s (p.run w).1 := by
  induction p generalizing s w with
  | done a => exact Iff.rfl
  | cut => exact Iff.rfl
  | tell e p ih =>
    have hrest := ih h.2 w
    constructor
    · intro hkept
      exact hrest.mp hkept.2
    · intro hun
      exact ⟨h.1, hrest.mpr hun⟩
  | ask q p ih =>
    have hq := h (w 0 q)
    by_cases hexcuse : D.excuse s q (w 0 q)
    · have hnot := (hq.1 hexcuse).not_kept fun n => w (n + 1)
      constructor
      · intro hkept
        exact absurd hkept hnot
      · intro hun
        exact absurd hexcuse hun.1
    · have hrest := ih (w 0 q) (hq.2 hexcuse) fun n => w (n + 1)
      constructor
      · intro hkept
        exact ⟨hexcuse, hrest.mp hkept⟩
      · intro hun
        exact hrest.mpr hun.2

/-- A run that comes to its end without an excuse meets the postcondition there. -/
theorem Wp.post {p : Dialogue ε κ ρ α} {post : α → σ → Prop} (h : D.Wp p s post) {w : Nat → (q : κ) → ρ q} {a : α}
    (hend : (p.run w).2 = some a) (hun : D.Unexcused s (p.run w).1) : post a (D.after s (p.run w).1) := by
  induction p generalizing s w with
  | done b =>
    cases hend
    exact h
  | cut => cases hend
  | tell e p ih => exact ih h.2 hend hun
  | ask q p ih => exact ih (w 0 q) ((h (w 0 q)).2 hun.1) hend hun.2

/-! ### Programs that take the state of the discipline from one value to another -/

/-- Without an excuse the program takes the state from `s` to `t`. -/
def Moves (D : Discipline σ ε κ ρ) (s t : σ) (p : Dialogue ε κ ρ α) : Prop := D.Wp p s fun _ u => u = t

namespace Moves

theorem done (a : α) : D.Moves s s (pure a : Dialogue ε κ ρ α) := rfl

theorem cut : D.Moves s t (Dialogue.cut : Dialogue ε κ ρ α) := trivial

theorem bind {p : Dialogue ε κ ρ α} {k : α → Dialogue ε κ ρ β} (h : D.Moves s t p) (hk : ∀ a, D.Moves t u (k a)) :
    D.Moves s u (p >>= k) := by
  apply Wp.bind
  apply h.weaken
  intro a v hv
  rw [hv]
  exact hk a

theorem act {e : ε} (hallowed : D.allowed s e) (hnext : D.next s e = t) :
    D.Moves s t (Dialogue.act e : Dialogue ε κ ρ Unit) := ⟨hallowed, hnext⟩

/-- A question that is never answered with an excuse. -/
theorem query {q : κ} (h : ∀ a, ¬ D.excuse s q a) : D.Moves s s (Dialogue.query q : Dialogue ε κ ρ (ρ q)) := by
  intro a
  exact ⟨fun hexcuse => absurd hexcuse (h a), fun _ => rfl⟩

/-- A question that may be answered with an excuse, which dooms what follows. -/
theorem queryThen {q : κ} {k : ρ q → Dialogue ε κ ρ β} (hdoom : ∀ a, D.excuse s q a → D.Doomed (k a) s)
    (hk : ∀ a, ¬ D.excuse s q a → D.Moves s t (k a)) : D.Moves s t (Dialogue.query q >>= k) := by
  intro a
  exact ⟨hdoom a, hk a⟩

theorem onlyIf' {p : Dialogue ε κ ρ Unit} {b : Bool} (h : b = true → D.Moves s s p) :
    D.Moves s s (Dialogue.onlyIf b p) := by
  cases b with
  | false => exact rfl
  | true => exact h rfl

theorem onlyIf {p : Dialogue ε κ ρ Unit} (b : Bool) (h : D.Moves s s p) : D.Moves s s (Dialogue.onlyIf b p) :=
  onlyIf' fun _ => h

end Moves

end Discipline

end Connio.Lib
