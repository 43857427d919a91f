import Mathlib.Data.List.Basic

/-!
# Taking turns on a stream

Consumers take from the front of one stream, one after the other; each leaves the rest to the next.  A consumer may
depend on what comes behind what it takes.

* `InTurn` — the consumers of a stream, in turn, and what they leave;
* `InTurn.concat`, `InTurn.extend` — **PROVED**: the next consumer, and a stream that has grown;
* `InTurn.taken` — **PROVED**: what they have taken is in front of what they leave;
* `InTurn.frames` — **PROVED**: when each of them takes one whole frame, the stream is read frame by frame.
-/

namespace Connio.Lib

universe u v w

variable {κ : Type u} {σ : Type v} {φ : Type w} {takes : κ → List σ → List σ → Prop}

/-- **The consumers take from the front of a stream in turn,** and leave `rest`. -/
def InTurn (takes : κ → List σ → List σ → Prop) : List κ → List σ → List σ → Prop
  | [], stream, rest => stream = rest
  | k :: ks, stream, rest => ∃ next, takes k stream next ∧ InTurn takes ks next rest

/-- A consumer takes the same from a stream that goes on. -/
def Extends (takes : κ → List σ → List σ → Prop) : Prop :=
  ∀ k stream rest more, takes k stream rest → takes k (stream ++ more) (rest ++ more)

namespace InTurn

/-- **The next consumer (proved).** -/
theorem concat {k : κ} {rest rest' : List σ} (hk : takes k rest rest') : ∀ {ks : List κ} {stream : List σ},
    InTurn takes ks stream rest → InTurn takes (ks ++ [k]) stream rest' := by
  intro ks
  induction ks with
  | nil =>
    intro stream h
    exact ⟨rest', (show stream = rest from h) ▸ hk, rfl⟩
  | cons k' ks ih =>
    intro stream h
    obtain ⟨next, htakes, hnext⟩ := h
    exact ⟨next, htakes, ih hnext⟩

/-- **The stream goes on (proved).** -/
theorem extend (hext : Extends takes) (more : List σ) {rest : List σ} : ∀ {ks : List κ} {stream : List σ},
    InTurn takes ks stream rest → InTurn takes ks (stream ++ more) (rest ++ more) := by
  intro ks
  induction ks with
  | nil =>
    intro stream h
    exact congrArg (· ++ more) h
  | cons k ks ih =>
    intro stream h
    obtain ⟨next, htakes, hnext⟩ := h
    exact ⟨next ++ more, hext k stream next more htakes, ih hnext⟩

/-- **What the consumers have taken (proved)** is in front of what they leave. -/
theorem taken {took : κ → List σ} (htook : ∀ k stream rest, takes k stream rest → took k ++ rest = stream)
    {rest : List σ} : ∀ {ks : List κ} {stream : List σ},
      InTurn takes ks stream rest → ks.flatMap took ++ rest = stream := by
  intro ks
  induction ks with
  | nil =>
    intro stream h
    exact Eq.symm h
  | cons k ks ih =>
    intro stream h
    obtain ⟨next, htakes, hnext⟩ := h
    rw [List.flatMap_cons, List.append_assoc, ih hnext]
    exact htook k stream next htakes

/-- **A stream of frames (proved):** when each consumer that finds a frame takes it whole, and `Gets` what is in it, all
of them do, and the next one finds the next frame. -/
theorem frames {octets : φ → List σ} {Meets Gets : κ → φ → Prop}
    (hframe : ∀ k f behind rest, Meets k f → takes k (octets f ++ behind) rest → Gets k f ∧ rest = behind)
    {tail rest : List σ} : ∀ {ks : List κ} {fs : List φ}, InTurn takes ks (fs.flatMap octets ++ tail) rest →
      (∀ p ∈ ks.zip fs, Meets p.1 p.2) →
        (∀ p ∈ ks.zip fs, Gets p.1 p.2) ∧
          (ks.length ≤ fs.length → rest = (fs.drop ks.length).flatMap octets ++ tail) := by
  intro ks
  induction ks with
  | nil =>
    intro fs h _
    exact ⟨fun p hp => (by cases hp), fun _ => Eq.symm h⟩
  | cons k ks ih =>
    intro fs h hmeets
    cases fs with
    | nil => exact ⟨fun p hp => (by cases hp), fun hlen => absurd hlen (Nat.not_succ_le_zero _)⟩
    | cons f fs =>
      obtain ⟨next, htakes, hnext⟩ := h
      rw [List.flatMap_cons, List.append_assoc] at htakes
      obtain ⟨hgets, hrest⟩ := hframe k f _ next (hmeets (k, f) List.mem_cons_self) htakes
      rw [hrest] at hnext
      obtain ⟨hall, hbehind⟩ := ih hnext fun p hp => hmeets p (List.mem_cons_of_mem _ hp)
      refine ⟨fun p hp => ?_, fun hlen => hbehind (Nat.le_of_succ_le_succ hlen)⟩
      rcases List.mem_cons.mp hp with hp | hp
      · rw [hp]
        exact hgets
      · exact hall p hp

end InTurn

end Connio.Lib
