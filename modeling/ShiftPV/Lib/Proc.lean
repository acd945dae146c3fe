import Mathlib.Tactic.Common
import Mathlib.Logic.Relation

/-! Programs in atomic steps. A program may be stopped between any two of its steps, and others may act on the same
    state there. What a program keeps is stated once, for every interference and every point at which it stops. -/

/-- A program over states `σ`: it has ended, or it acts on the state and goes on as the state before the act says. -/
inductive Proc (σ ε α : Type) where
  | done (result : Except ε α)
  | step (act : σ → σ) (next : σ → Proc σ ε α)

namespace Proc

variable {σ τ ε α β : Type}

protected def bind (p : Proc σ ε α) (f : α → Proc σ ε β) : Proc σ ε β :=
  match p with
  | done (.ok a) => f a
  | done (.error e) => done (.error e)
  | step act next => step act fun s => (next s).bind f

instance : Monad (Proc σ ε) where
  pure a := done (.ok a)
  bind := Proc.bind

def fail (e : ε) : Proc σ ε α := done (.error e)

def ensure (p : Prop) [Decidable p] (e : ε) : Proc σ ε Unit := if p then pure () else fail e

/-- Runs `p` and hands its outcome on, a failure included. -/
def attempt : Proc σ ε α → Proc σ ε (Except ε α)
  | done r => done (.ok r)
  | step act next => step act fun s => (next s).attempt

def mapError (f : ε → ε) : Proc σ ε α → Proc σ ε α
  | done r => done (r.mapError f)
  | step act next => step act fun s => (next s).mapError f

def read (f : σ → Except ε α) : Proc σ ε α := step id fun s => done (f s)

/-- One step that changes the state, or fails and leaves it. -/
def atomic (f : σ → Except ε (α × σ)) : Proc σ ε α :=
  step (fun s => match f s with | .ok (_, t) => t | .error _ => s) fun s => done ((f s).map Prod.fst)

def zoom (focus : τ → σ) (put : σ → τ → τ) : Proc σ ε α → Proc τ ε α
  | done r => done r
  | step act next => step (fun t => put (act (focus t)) t) fun t => (next (focus t)).zoom focus put

def forEach (f : α → Proc σ ε Unit) : List α → Proc σ ε Unit
  | [] => pure ()
  | a :: as => do f a; forEach f as

theorem bind_assoc {γ : Type} (p : Proc σ ε α) (f : α → Proc σ ε β) (g : β → Proc σ ε γ) :
    p >>= f >>= g = p >>= fun a => f a >>= g := by
  induction p with
  | done r => cases r <;> rfl
  | step act next ih => exact congrArg (step act) (funext ih)

theorem bind_pure (p : Proc σ ε α) : p >>= pure = p := by
  induction p with
  | done r => cases r <;> rfl
  | step act next ih => exact congrArg (step act) (funext ih)

/-! ### Undisturbed runs -/

def run : Proc σ ε α → σ → Except ε α × σ
  | done r, s => (r, s)
  | step act next, s => (next s).run (act s)

/-- The program and the state after `n` steps. -/
def after : Nat → Proc σ ε α → σ → Proc σ ε α × σ
  | 0, p, s => (p, s)
  | _ + 1, done r, s => (done r, s)
  | n + 1, step act next, s => (next s).after n (act s)

/-- The state in which a run that is stopped somewhere leaves the system. -/
def Stopped (p : Proc σ ε α) (s t : σ) : Prop := ∃ n, (p.after n s).2 = t

variable {p : Proc σ ε α} {s t : σ}

theorem run_after (n : Nat) (p : Proc σ ε α) (s : σ) : (p.after n s).1.run (p.after n s).2 = p.run s := by
  induction n generalizing p s with
  | zero => rfl
  | succ n ih =>
    cases p with
    | done r => rfl
    | step act next => exact ih (next s) (act s)

@[simp] theorem run_pure (a : α) (s : σ) : (pure a : Proc σ ε α).run s = (.ok a, s) := rfl

@[simp] theorem run_fail (e : ε) (s : σ) : (fail e : Proc σ ε α).run s = (.error e, s) := rfl

@[simp] theorem run_read (f : σ → Except ε α) (s : σ) : (read f).run s = (f s, s) := rfl

theorem run_bind (p : Proc σ ε α) (f : α → Proc σ ε β) (s : σ) :
    (p >>= f).run s = match p.run s with
      | (.ok a, t) => (f a).run t
      | (.error e, t) => (.error e, t) := by
  induction p generalizing s with
  | done r => cases r <;> rfl
  | step act next ih => exact ih s (act s)

theorem run_attempt (p : Proc σ ε α) (s : σ) : p.attempt.run s = (.ok (p.run s).1, (p.run s).2) := by
  induction p generalizing s with
  | done r => rfl
  | step act next ih => exact ih s (act s)

theorem run_mapError (f : ε → ε) (p : Proc σ ε α) (s : σ) :
    (p.mapError f).run s = ((p.run s).1.mapError f, (p.run s).2) := by
  induction p generalizing s with
  | done r => rfl
  | step act next ih => exact ih s (act s)

/-! ### What a program keeps -/

/-- From `s`, with changes in `R` before each step, every step of `p` is in `G` and `p` ends in `Q`. -/
def Meets (R G : σ → σ → Prop) (Q : Except ε α → σ → Prop) : Proc σ ε α → σ → Prop
  | done r, s => Q r s
  | step act next, s => ∀ t, R s t → G t (act t) ∧ (next t).Meets R G Q (act t)

variable {R G : σ → σ → Prop} {Q Q' : Except ε α → σ → Prop}

theorem meets_pure {a : α} : (pure a : Proc σ ε α).Meets R G Q s ↔ Q (.ok a) s := Iff.rfl

theorem meets_fail {e : ε} : (fail e : Proc σ ε α).Meets R G Q s ↔ Q (.error e) s := Iff.rfl

theorem meets_read {f : σ → Except ε α} : (read f).Meets R G Q s ↔ ∀ t, R s t → G t t ∧ Q (f t) t := Iff.rfl

theorem meets_atomic {f : σ → Except ε (α × σ)} :
    (atomic f).Meets R G Q s ↔ ∀ t, R s t → match f t with
      | .ok (a, u) => G t u ∧ Q (.ok a) u
      | .error e => G t t ∧ Q (.error e) t := by
  constructor
  · intro h t hst
    have := h t hst
    cases hf : f t <;> simpa [hf, Meets, Except.map] using this
  · intro h t hst
    have := h t hst
    cases hf : f t <;> simpa [hf, Meets, Except.map] using this

theorem Meets.weaken {G' : σ → σ → Prop} (h : p.Meets R G Q s) (hG : ∀ {s t}, G s t → G' s t) (hq : ∀ r t, Q r t → Q' r t) :
    p.Meets R G' Q' s := by
  induction p generalizing s with
  | done r => exact hq r s h
  | step act next ih => exact fun t ht => ⟨hG (h t ht).1, ih t (h t ht).2⟩

theorem Meets.mono (h : p.Meets R G Q s) (hq : ∀ r t, Q r t → Q' r t) : p.Meets R G Q' s := h.weaken (fun hg => hg) hq

theorem Meets.disturbed (h : p.Meets R G Q s) (hR : ∀ {s t u}, R s t → R t u → R s u) (hQ : ∀ {r s t}, Q r s → R s t → Q r t)
    (hst : R s t) : p.Meets R G Q t := by
  cases p with
  | done r => exact hQ h hst
  | step act next => exact fun u htu => h u (hR hst htu)

theorem Meets.calmer {R' : σ → σ → Prop} (h : p.Meets R G Q s) (hR : ∀ {s t}, R' s t → R s t) : p.Meets R' G Q s := by
  induction p generalizing s with
  | done r => exact h
  | step act next ih => exact fun t ht => ⟨(h t (hR ht)).1, ih t (h t (hR ht)).2⟩

theorem meets_of_forall (hg : ∀ s t, G s t) (hq : ∀ r s, Q r s) : p.Meets R G Q s := by
  induction p generalizing s with
  | done r => exact hq r s
  | step act next ih => exact fun t _ => ⟨hg _ _, ih t⟩

theorem meets_bind {f : α → Proc σ ε β} {Q : Except ε β → σ → Prop} :
    (p >>= f).Meets R G Q s ↔ p.Meets R G (fun r t => match r with
      | .ok a => (f a).Meets R G Q t
      | .error e => Q (.error e) t) s := by
  induction p generalizing s with
  | done r => cases r <;> exact Iff.rfl
  | step act next ih => exact forall₂_congr fun t _ => and_congr_right fun _ => ih t

theorem meets_mapError {f : ε → ε} : (p.mapError f).Meets R G Q s ↔ p.Meets R G (fun r => Q (r.mapError f)) s := by
  induction p generalizing s with
  | done r => exact Iff.rfl
  | step act next ih => exact forall₂_congr fun t _ => and_congr_right fun _ => ih t

theorem meets_attempt {Q : Except ε (Except ε α) → σ → Prop} :
    p.attempt.Meets R G Q s ↔ p.Meets R G (fun r => Q (.ok r)) s := by
  induction p generalizing s with
  | done r => exact Iff.rfl
  | step act next ih => exact forall₂_congr fun t _ => and_congr_right fun _ => ih t

theorem meets_ensure {c : Prop} [Decidable c] {e : ε} {Q : Except ε Unit → σ → Prop} :
    (ensure c e).Meets R G Q s ↔ (c → Q (.ok ()) s) ∧ (¬c → Q (.error e) s) := by
  unfold ensure
  split <;> simp_all [meets_pure, meets_fail]

theorem meets_forEach {J : List α → σ → Prop} {f : α → Proc σ ε Unit} {Q : Except ε Unit → σ → Prop} {as : List α}
    (hround : ∀ a as s, J (a :: as) s → (f a).Meets R G (fun r t => match r with
      | .ok _ => J as t
      | .error e => Q (.error e) t) s)
    (hend : ∀ s, J [] s → Q (.ok ()) s) (h : J as s) : (forEach f as).Meets R G Q s := by
  induction as generalizing s with
  | nil => exact hend s h
  | cons a as ih =>
    refine meets_bind.mpr ((hround a as s h).mono fun r t hr => ?_)
    cases r with
    | ok _ => exact ih hr
    | error e => exact hr

/-! ### Programs that only look -/

/-- `p` writes nothing, and sees of the state only what `π` shows. -/
def Views (π : σ → τ) : Proc σ ε α → Prop
  | done _ => True
  | step act next => (∀ s, act s = s) ∧ (∀ s t, π s = π t → next s = next t) ∧ ∀ s, (next s).Views π

namespace Views

variable {π : σ → τ}

theorem pure {a : α} : (Pure.pure a : Proc σ ε α).Views π := trivial

theorem fail {e : ε} : (Proc.fail e : Proc σ ε α).Views π := trivial

theorem ensure {c : Prop} [Decidable c] {e : ε} : (Proc.ensure c e : Proc σ ε Unit).Views π := by
  unfold Proc.ensure
  split <;> trivial

theorem read {f : σ → Except ε α} (hf : ∀ s t, π s = π t → f s = f t) : (Proc.read f).Views π :=
  ⟨fun _ => rfl, fun s t h => congrArg done (hf s t h), fun _ => trivial⟩

theorem bind {f : α → Proc σ ε β} (hp : p.Views π) (hf : ∀ a, (f a).Views π) : (p >>= f).Views π := by
  induction p with
  | done r => cases r with
    | ok a => exact hf a
    | error e => trivial
  | step act next ih => exact ⟨hp.1, fun s t h => congrArg (Proc.bind · f) (hp.2.1 s t h), fun s => ih s (hp.2.2 s)⟩

theorem attempt (hp : p.Views π) : p.attempt.Views π := by
  induction p with
  | done r => trivial
  | step act next ih => exact ⟨hp.1, fun s t h => congrArg Proc.attempt (hp.2.1 s t h), fun s => ih s (hp.2.2 s)⟩

theorem mapError {f : ε → ε} (hp : p.Views π) : (p.mapError f).Views π := by
  induction p with
  | done r => trivial
  | step act next ih => exact ⟨hp.1, fun s t h => congrArg (Proc.mapError f) (hp.2.1 s t h), fun s => ih s (hp.2.2 s)⟩

theorem run_state (hp : p.Views π) (s : σ) : (p.run s).2 = s := by
  induction p generalizing s with
  | done r => rfl
  | step act next ih =>
    rw [run, hp.1 s]
    exact ih s (hp.2.2 s) s

theorem run_congr (hp : p.Views π) (h : π s = π t) : (p.run s).1 = (p.run t).1 := by
  induction p generalizing s t with
  | done r => rfl
  | step act next ih =>
    rw [run, run, hp.1 s, hp.1 t, hp.2.1 s t h]
    exact ih t (hp.2.2 t) h

/-- While others leave the view alone, such a program ends as it would undisturbed. -/
theorem meets (hp : p.Views π) (hrefl : ∀ s, R s s) (htrans : ∀ {s t u}, R s t → R t u → R s u)
    (hview : ∀ {s t}, R s t → π s = π t) (hend : ∀ t, R s t → G t t ∧ Q (p.run s).1 t) : p.Meets R G Q s := by
  induction p generalizing s with
  | done r => exact (hend s (hrefl s)).2
  | step act next ih =>
    intro t hst
    rw [hp.1 t]
    refine ⟨(hend t hst).1, ih t (hp.2.2 t) fun u htu => ⟨(hend u (htrans hst htu)).1, ?_⟩⟩
    have hsame : ((next t).run t).1 = (run (.step act next) s).1 := by
      rw [run, hp.1 s, hp.2.1 s t (hview hst)]
      exact (run_congr (hp.2.2 t) (hview hst)).symm
    exact hsame ▸ (hend u (htrans hst htu)).2

end Views

/-! ### Programs whose steps are of one kind -/

/-- Every step of `p` is in `G`, whatever the state. -/
def Does (G : σ → σ → Prop) : Proc σ ε α → Prop
  | done _ => True
  | step act next => ∀ s, G s (act s) ∧ (next s).Does G

namespace Does

theorem pure {a : α} : (Pure.pure a : Proc σ ε α).Does G := trivial

theorem fail {e : ε} : (Proc.fail e : Proc σ ε α).Does G := trivial

theorem ensure {c : Prop} [Decidable c] {e : ε} : (Proc.ensure c e : Proc σ ε Unit).Does G := by
  unfold Proc.ensure
  split <;> trivial

theorem after_ensure {c : Prop} [Decidable c] {e : ε} {f : Unit → Proc σ ε β} (hf : c → (f ()).Does G) :
    (Proc.ensure c e >>= f).Does G := by
  unfold Proc.ensure
  split
  · exact hf ‹c›
  · trivial

theorem read {f : σ → Except ε α} (hG : ∀ s, G s s) : (Proc.read f).Does G := fun s => ⟨hG s, trivial⟩

theorem atomic {f : σ → Except ε (α × σ)} (hG : ∀ s, G s s) (hf : ∀ {s a t}, f s = .ok (a, t) → G s t) :
    (Proc.atomic f).Does G := by
  intro s
  refine ⟨?_, trivial⟩
  show G s (match f s with | .ok (_, t) => t | .error _ => s)
  cases h : f s with
  | ok v => exact hf h
  | error e => exact hG s

theorem bind {f : α → Proc σ ε β} (hp : p.Does G) (hf : ∀ a, (f a).Does G) : (p >>= f).Does G := by
  induction p with
  | done r => cases r with
    | ok a => exact hf a
    | error e => trivial
  | step act next ih => exact fun s => ⟨(hp s).1, ih s (hp s).2⟩

theorem attempt (hp : p.Does G) : p.attempt.Does G := by
  induction p with
  | done r => trivial
  | step act next ih => exact fun s => ⟨(hp s).1, ih s (hp s).2⟩

theorem mapError {f : ε → ε} (hp : p.Does G) : (p.mapError f).Does G := by
  induction p with
  | done r => trivial
  | step act next ih => exact fun s => ⟨(hp s).1, ih s (hp s).2⟩

theorem forEach {f : α → Proc σ ε Unit} (hf : ∀ a, (f a).Does G) (as : List α) : (Proc.forEach f as).Does G := by
  induction as with
  | nil => trivial
  | cons a as ih => exact (hf a).bind fun _ => ih

theorem zoom {focus : τ → σ} {put : σ → τ → τ} {G : τ → τ → Prop} (hput : ∀ t x, G t (put x t)) :
    (p.zoom focus put).Does G := by
  induction p with
  | done r => trivial
  | step act next ih => exact fun t => ⟨hput t _, ih (focus t)⟩

theorem keeps {I : σ → Prop} (hp : p.Does G) (hR : ∀ {s t}, R s t → I s → I t) (hG : ∀ {s t}, G s t → I s → I t)
    (hs : I s) : p.Meets R (fun _ x => I x) (fun _ x => I x) s := by
  induction p generalizing s with
  | done r => exact hs
  | step act next ih =>
    intro t hst
    have hact := hG (hp t).1 (hR hst hs)
    exact ⟨hact, ih t (hp t).2 hact⟩

end Does

theorem Views.does {π : σ → τ} (hp : p.Views π) (hG : ∀ s, G s s) : p.Does G := by
  induction p with
  | done r => trivial
  | step act next ih =>
    intro s
    rw [hp.1 s]
    exact ⟨hG s, ih s (hp.2.2 s)⟩

/-! ### Parts of the state -/

theorem Meets.zoom {focus : τ → σ} {put : σ → τ → τ} {I : σ → Prop} {Q : Except ε α → σ → Prop} {R' G' : τ → τ → Prop}
    {Q' : Except ε α → τ → Prop} {K : τ → Prop} {t : τ} (h : p.Meets (· = ·) (fun _ x => I x) Q (focus t)) (hK : K t)
    (hR : ∀ {t u}, K t → R' t u → K u ∧ focus u = focus t)
    (hput : ∀ {t x}, K t → I x → G' t (put x t) ∧ K (put x t) ∧ focus (put x t) = x)
    (hend : ∀ {t r}, K t → Q r (focus t) → Q' r t) : (p.zoom focus put).Meets R' G' Q' t := by
  induction p generalizing t with
  | done r => exact hend hK h
  | step act next ih =>
    intro u htu
    obtain ⟨hKu, hfocus⟩ := hR hK htu
    obtain ⟨hI, hnext⟩ := h (focus u) hfocus.symm
    obtain ⟨hG, hKput, hsame⟩ := hput hKu hI
    exact ⟨hG, ih (focus u) (hsame.symm ▸ hnext) hKput⟩

/-! ### Stopped runs -/

/-- Undisturbed, a program that keeps `I` leaves it wherever it is stopped. -/
theorem Meets.stopped {I : σ → Prop} (h : p.Meets (· = ·) (fun _ x => I x) Q s) (hs : I s) (ht : p.Stopped s t) : I t := by
  obtain ⟨n, rfl⟩ := ht
  induction n generalizing p s with
  | zero => exact hs
  | succ n ih =>
    cases p with
    | done r => exact hs
    | step act next => exact ih (h s rfl).2 (h s rfl).1

theorem stopped_run (p : Proc σ ε α) (s : σ) : p.Stopped s (p.run s).2 := by
  induction p generalizing s with
  | done r => exact ⟨0, rfl⟩
  | step act next ih =>
    obtain ⟨n, hn⟩ := ih s (act s)
    exact ⟨n + 1, hn⟩

theorem Meets.run (h : p.Meets (· = ·) G Q s) : Q (p.run s).1 (p.run s).2 := by
  induction p generalizing s with
  | done r => exact h
  | step act next ih => exact ih s (h s rfl).2

/-- What every run keeps from every state survives any sequence of stopped runs. -/
theorem stopped_runs {I : σ → Prop} {q : Except ε α → σ → Prop} (h : ∀ s, I s → p.Meets (· = ·) (fun _ x => I x) q s)
    (hs : I s) (ht : Relation.ReflTransGen p.Stopped s t) : I t := by
  induction ht with
  | refl => exact hs
  | tail _ hstop ih => exact (h _ ih).stopped ih hstop

/-! ### Interleaved runs -/

/-- What happens while runs of `p` follow one another: a step of the run, something that others do, or the end of the
    run, finished or not, and the start of the next. -/
inductive Interleaved (R : σ → σ → Prop) (p : Proc σ ε α) : Proc σ ε α × σ → Proc σ ε α × σ → Prop where
  | own {act next s} : Interleaved R p (step act next, s) (next s, act s)
  | other {q s t} (h : R s t) : Interleaved R p (q, s) (q, t)
  | again {q s} : Interleaved R p (q, s) (p, s)

theorem interleaved_after (n : Nat) (q : Proc σ ε α) (s : σ) :
    Relation.ReflTransGen (Interleaved R p) (q, s) (q.after n s) := by
  induction n generalizing q s with
  | zero => exact .refl
  | succ n ih =>
    cases q with
    | done r => exact .refl
    | step act next => exact .head .own (ih (next s) (act s))

/-- What every run keeps from every state is kept throughout, and the run that is on ends as it should. -/
theorem Meets.interleaved {I : σ → Prop} (h : ∀ s, I s → p.Meets R G Q s) (hrefl : ∀ s, R s s)
    (htrans : ∀ {s t u}, R s t → R t u → R s u) (hR : ∀ {s t}, R s t → I s → I t) (hG : ∀ {s t}, G s t → I t)
    (hQ : ∀ {r s t}, Q r s → R s t → Q r t) (hs : I s) {q : Proc σ ε α}
    (hruns : Relation.ReflTransGen (Interleaved R p) (p, s) (q, t)) : I t ∧ q.Meets R G Q t := by
  suffices hall : ∀ c, Relation.ReflTransGen (Interleaved R p) (p, s) c → I c.2 ∧ c.1.Meets R G Q c.2 from hall _ hruns
  intro c hc
  induction hc with
  | refl => exact ⟨hs, h s hs⟩
  | tail _ hstep ih =>
    cases hstep with
    | own => exact ⟨hG (ih.2 _ (hrefl _)).1, (ih.2 _ (hrefl _)).2⟩
    | other hst => exact ⟨hR hst ih.1, ih.2.disturbed htrans hQ hst⟩
    | again => exact ⟨ih.1, h _ ih.1⟩

end Proc
