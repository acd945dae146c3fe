import Mathlib.Tactic.Common

/-! Runs of a system whose steps may depend on everything stored so far. A history lists the states of
    a run, newest first, so a step that acts on a stale observation names a state further down its
    history. -/

variable {σ α : Type}

inductive Run (init : σ → Prop) (step : List σ → α → σ → Prop) : List σ → Prop where
  | start {s : σ} (h : init s) : Run init step [s]
  | next {s t : σ} {past : List σ} {op : α} (hr : Run init step (s :: past)) (hs : step (s :: past) op t) :
      Run init step (t :: s :: past)

namespace Run

def onHead (step : σ → α → σ → Prop) (h : List σ) (op : α) (t : σ) : Prop := ∃ s, h.head? = some s ∧ step s op t

theorem onHead_cons {step : σ → α → σ → Prop} {s t : σ} {past : List σ} {op : α} :
    onHead step (s :: past) op t ↔ step s op t := by
  simp [onHead]

variable {init : σ → Prop} {step : List σ → α → σ → Prop} {h l : List σ} {s t : σ} {past : List σ}

theorem ne_nil (hr : Run init step h) : h ≠ [] := by
  cases hr <;> simp

theorem invariant {I : List σ → Prop} (hinit : ∀ s, init s → I [s])
    (hstep : ∀ {s t past} {op : α}, Run init step (s :: past) → I (s :: past) → step (s :: past) op t →
      I (t :: s :: past)) (hr : Run init step h) : I h := by
  induction hr with
  | start h0 => exact hinit _ h0
  | next hr hs ih => exact hstep hr ih hs

/-- A property of single states that a step keeps, given it of all earlier states, holds throughout. -/
theorem forall_mem {I : σ → Prop} (hinit : ∀ s, init s → I s)
    (hstep : ∀ {s t past} {op : α}, Run init step (s :: past) → (∀ u ∈ s :: past, I u) →
      step (s :: past) op t → I t) (hr : Run init step h) : ∀ u ∈ h, I u := by
  refine invariant (I := fun h => ∀ u ∈ h, I u) ?_ ?_ hr
  · intro s hs u hu
    rw [List.mem_singleton] at hu
    exact hu ▸ hinit s hs
  · intro s t past op hr ih hs u hu
    rcases List.mem_cons.mp hu with rfl | hu
    · exact hstep hr ih hs
    · exact ih u hu

theorem suffix : ∀ {l : List σ}, Run init step (l ++ s :: past) → Run init step (s :: past)
  | [], hr => hr
  | [_], hr => by
    cases hr with
    | next hr hs => exact hr
  | _ :: u :: l, hr => by
    cases hr with
    | next hr hs => exact suffix (l := u :: l) hr

theorem head_later (l : List σ) (s : σ) (past : List σ) :
    ∃ x rest, l ++ s :: past = x :: rest ∧ x ∈ l ++ [s] := by
  cases l with
  | nil => exact ⟨s, past, rfl, by simp⟩
  | cons x l => exact ⟨x, l ++ s :: past, rfl, by simp⟩

theorem since {Q : σ → Prop} (hs : Q s)
    (hstep : ∀ {x t rest} {op : α}, Run init step (x :: rest) → Q x → step (x :: rest) op t → Q t)
    {l : List σ} (hr : Run init step (l ++ s :: past)) : ∀ u ∈ l ++ [s], Q u := by
  induction l with
  | nil => simpa using hs
  | cons t l ih =>
    intro u hu
    obtain ⟨x, rest, hx, hmem⟩ := head_later l s past
    rw [List.cons_append, hx] at hr
    cases hr with
    | next hr hstep' =>
      have hlater := ih (hx ▸ hr)
      rcases List.mem_cons.mp hu with rfl | hu
      · exact hstep hr (hlater x hmem) hstep'
      · exact hlater u hu

/-! ### Traces -/

/-- Every event of a trace, newest first, is justified by what was before it. -/
def Traced (justified : α → List α → Prop) : List α → Prop
  | [] => True
  | e :: earlier => justified e earlier ∧ Traced justified earlier

theorem Traced.at {justified : α → List α → Prop} {later earlier : List α} {e : α}
    (h : Traced justified (later ++ e :: earlier)) : justified e earlier := by
  induction later with
  | nil => exact h.1
  | cons _ _ ih => exact ih h.2

/-! ### Scripts -/

/-- The history that a script of operations builds, empty when one of them is refused. -/
def replay (next : σ → α → Except String σ) (s : σ) (past : List σ) : List α → List σ
  | [] => s :: past
  | op :: ops =>
    match next s op with
    | .ok t => replay next t (s :: past) ops
    | .error _ => []

theorem replay_run_of {next : σ → α → Except String σ} {step : σ → α → σ → Prop} {ops : List α}
    (hnext : ∀ {s op t}, next s op = .ok t → step s op t) (hr : Run init (onHead step) (s :: past))
    (h : replay next s past ops = t :: l) : Run init (onHead step) (t :: l) := by
  induction ops generalizing s past with
  | nil => exact h ▸ hr
  | cons op ops ih =>
    unfold replay at h
    split at h
    · rename_i u hu
      exact ih (.next hr (onHead_cons.mpr (hnext hu))) h
    · simp at h

theorem replay_run {next : σ → α → Except String σ} {ops : List α}
    (hr : Run init (onHead fun s op t => next s op = .ok t) (s :: past)) (h : replay next s past ops = t :: l) :
    Run init (onHead fun s op t => next s op = .ok t) (t :: l) :=
  replay_run_of id hr h

def guarded (allowed : σ → α → Bool) (next : σ → α → Except String σ) (s : σ) (op : α) : Except String σ :=
  if allowed s op then next s op else .error "the step is not allowed"

theorem guarded_ok {allowed : σ → α → Bool} {next : σ → α → Except String σ} {op : α} :
    guarded allowed next s op = .ok t ↔ allowed s op ∧ next s op = .ok t := by
  unfold guarded
  split <;> simp_all

theorem exists_head {p : σ → Bool} {h : List σ} (hp : h.head?.any p = true) : ∃ s past, h = s :: past ∧ p s = true := by
  cases h with
  | nil => simp at hp
  | cons s past => exact ⟨s, past, rfl, hp⟩

end Run
