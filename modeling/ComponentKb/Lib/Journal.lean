import ComponentKb.Lib.Runs
import Mathlib.Data.List.Range

/-!
# Journals: logs whose replay gives the state

A system keeps a log of entries next to its values, and `redo` is what an entry says happened to
them. The values are redundant when replaying the log from the first values gives the current ones.

* `always_replay_iff`: for a log that only grows, this holds in every state of a run exactly when
  every step of it changes the values as the entries it writes say.
* `Numbered.append`: entries numbered consecutively, one more at a time.
-/

namespace ComponentKb.Lib.Journal

variable {σ ε ω α : Type*} {step : σ → ε → Option σ}

/-- The values after the entries of a log. -/
def replay (redo : ω → α → ω) (values : ω) (entries : List α) : ω := entries.foldl redo values

theorem replay_append (redo : ω → α → ω) (values : ω) (old new : List α) :
    replay redo values (old ++ new) = replay redo (replay redo values old) new :=
  List.foldl_append

@[simp] theorem replay_nil (redo : ω → α → ω) (values : ω) : replay redo values [] = values := rfl

@[simp] theorem replay_singleton (redo : ω → α → ω) (values : ω) (entry : α) :
    replay redo values [entry] = redo values entry := rfl

/-- The entries a step appends to the log. -/
def written (log : σ → List α) (s s' : σ) : List α := (log s').drop (log s).length

theorem written_eq {log : σ → List α} {s s' : σ} {new : List α} (h : log s' = log s ++ new) :
    written log s s' = new := by
  rw [written, h, List.drop_left]

theorem written_same {log : σ → List α} {s s' : σ} (h : log s' = log s) : written log s s' = [] :=
  written_eq (h.trans (List.append_nil _).symm)

/-- The step changes the values as the entries it writes say. -/
def Accounted (redo : ω → α → ω) (values : σ → ω) (log : σ → List α) (s s' : σ) : Prop :=
  values s' = replay redo (values s) (written log s s')

/-- The values are what the log says, from the first ones on. -/
def Redundant (redo : ω → α → ω) (values : σ → ω) (log : σ → List α) (first : ω) (s : σ) : Prop :=
  values s = replay redo first (log s)

section Replay

variable {redo : ω → α → ω} {values : σ → ω} {log : σ → List α} {first : ω}

/-- A step of a log that grows keeps the replay exactly when it is accounted for. -/
theorem replay_step_iff {s s' : σ} (hgrows : log s <+: log s')
    (hs : Redundant redo values log first s) :
    Redundant redo values log first s' ↔ Accounted redo values log s s' := by
  obtain ⟨new, hnew⟩ := hgrows
  rw [Redundant] at hs ⊢
  rw [Accounted, written_eq hnew.symm, ← hnew, replay_append, ← hs]

/-- **A log is faithful when every step is accounted for**, and only then. -/
theorem always_replay_iff (hgrows : ∀ s e s', step s e = some s' → log s <+: log s') {s : σ}
    (hs : Redundant redo values log first s) {es : List ε} :
    Always step (Redundant redo values log first) s es ↔
      Along step (fun s _ s' => Accounted redo values log s s') s es := by
  have hkeep : ∀ s e s', Redundant redo values log first s → Accounted redo values log s s' →
      step s e = some s' → Redundant redo values log first s' :=
    fun s e s' hinv hok he => (replay_step_iff (hgrows s e s' he) hinv).mpr hok
  have hforced : ∀ s e s', Redundant redo values log first s → step s e = some s' →
      Redundant redo values log first s' → Accounted redo values log s s' :=
    fun s e s' hinv he hreplay => (replay_step_iff (hgrows s e s' he) hinv).mp hreplay
  constructor
  · exact along_of_always hkeep hforced hs
  · exact always_of_inv hkeep (fun _ ht => ht) hs

end Replay

/-- The entries carry consecutive numbers from `start` on. -/
def Numbered (number : α → ℕ) (start : ℕ) (entries : List α) : Prop :=
  entries.map number = List.range' start entries.length

theorem Numbered.nil (number : α → ℕ) (start : ℕ) : Numbered number start [] := rfl

theorem Numbered.append {number : α → ℕ} {start : ℕ} {entries : List α} {entry : α}
    (h : Numbered number start entries) (hentry : number entry = start + entries.length) :
    Numbered number start (entries ++ [entry]) := by
  rw [Numbered, List.map_append, h, List.length_append, List.length_singleton,
    List.range'_concat, List.map_singleton, hentry, Nat.one_mul]

end ComponentKb.Lib.Journal
