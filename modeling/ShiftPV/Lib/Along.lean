import ShiftPV.Lib.Proc

/-! Programs that look at a state which changes under them. A behaviour `D` gives the state at every moment, and a
    schedule lists the moments at which a program takes its steps. -/

namespace Proc

variable {σ ε α β : Type} {D : Nat → σ} {p : Proc σ ε α} {ks : List Nat} {r : Except ε α}

/-- How a program ends whose steps look at `D` at the moments of a schedule; `none` when the schedule is too short
    or too long for it. -/
def along (D : Nat → σ) : Proc σ ε α → List Nat → Option (Except ε α)
  | done r, [] => some r
  | step _ next, k :: ks => (next (D k)).along D ks
  | done _, _ :: _ => none
  | step _ _, [] => none

theorem along_done {q : Except ε α} : (done q).along D ks = some r ↔ ks = [] ∧ r = q := by
  cases ks <;> simp [along, eq_comm]

theorem along_pure_ok {a b : α} : (pure a : Proc σ ε α).along D ks = some (.ok b) ↔ ks = [] ∧ b = a :=
  along_done.trans (and_congr_right fun _ => Except.ok.injEq b a ▸ Iff.rfl)

theorem along_fail_ok {e : ε} {b : α} : ¬(fail e : Proc σ ε α).along D ks = some (.ok b) :=
  fun h => nomatch (along_done.mp h).2

theorem along_read {f : σ → Except ε α} : (read f).along D ks = some r ↔ ∃ k, ks = [k] ∧ r = f (D k) := by
  cases ks with
  | nil => simp [read, along]
  | cons k ks => simp [read, along, along_done, and_comm]

theorem along_bind {f : α → Proc σ ε β} {r : Except ε β} : (p >>= f).along D ks = some r ↔
    ∃ is js q, ks = is ++ js ∧ p.along D is = some q ∧ match q with
      | .ok a => (f a).along D js = some r
      | .error e => js = [] ∧ r = .error e := by
  induction p generalizing ks with
  | done q =>
    constructor
    · intro h
      refine ⟨[], ks, q, rfl, rfl, ?_⟩
      cases q with
      | ok a => exact h
      | error e => exact along_done.mp h
    · rintro ⟨is, js, q', rfl, hp, h⟩
      obtain ⟨rfl, rfl⟩ := along_done.mp hp
      cases q' with
      | ok a => exact h
      | error e => exact along_done.mpr h
  | step act next ih =>
    cases ks with
    | nil =>
      constructor
      · intro h
        exact absurd h (by simp [Bind.bind, Proc.bind, along])
      · rintro ⟨is, js, q, hks, hp, -⟩
        obtain ⟨rfl, -⟩ := List.append_eq_nil_iff.mp hks.symm
        simp [along] at hp
    | cons k ks =>
      refine (ih (D k)).trans ⟨?_, ?_⟩
      · rintro ⟨is, js, q, rfl, hp, h⟩
        exact ⟨k :: is, js, q, rfl, hp, h⟩
      · rintro ⟨is, js, q, hks, hp, h⟩
        cases is with
        | nil => simp [along] at hp
        | cons i is =>
          obtain ⟨rfl, rfl⟩ := List.cons.inj hks
          exact ⟨is, js, q, rfl, hp, h⟩

theorem along_bind_ok {f : α → Proc σ ε β} {b : β} : (p >>= f).along D ks = some (.ok b) ↔
    ∃ is js a, ks = is ++ js ∧ p.along D is = some (.ok a) ∧ (f a).along D js = some (.ok b) := by
  rw [along_bind]
  constructor
  · rintro ⟨is, js, q, hks, hp, h⟩
    cases q with
    | ok a => exact ⟨is, js, a, hks, hp, h⟩
    | error e => simp at h
  · rintro ⟨is, js, a, hks, hp, h⟩
    exact ⟨is, js, .ok a, hks, hp, h⟩

theorem along_attempt_ok : p.attempt.along D ks = some (.ok r) ↔ p.along D ks = some r := by
  induction p generalizing ks with
  | done q => simp [attempt, along_done]
  | step act next ih =>
    cases ks with
    | nil => simp [attempt, along]
    | cons k ks => exact ih (D k)

theorem along_ensure_ok {c : Prop} [Decidable c] {e : ε} {u : Unit} :
    (ensure c e : Proc σ ε Unit).along D ks = some (.ok u) ↔ ks = [] ∧ c := by
  unfold ensure
  split
  · rename_i hc
    simp [along_pure_ok, hc]
  · rename_i hc
    simp [along_fail_ok, hc]

/-! ### Failures -/

/-- Whatever the program meets, it fails with nothing but `P`. -/
def FailsWith (P : ε → Prop) : Proc σ ε α → Prop
  | done (.ok _) => True
  | done (.error e) => P e
  | step _ next => ∀ s, (next s).FailsWith P

variable {P : ε → Prop}

theorem failsWith_pure {a : α} : (pure a : Proc σ ε α).FailsWith P := trivial

theorem failsWith_read {f : σ → Except ε α} (h : ∀ s e, f s = .error e → P e) : (read f).FailsWith P := by
  intro s
  show (done (f s)).FailsWith P
  cases hf : f s with
  | ok a => trivial
  | error e => exact h s e hf

theorem failsWith_ensure {c : Prop} [Decidable c] {e : ε} (h : P e) : (ensure c e : Proc σ ε Unit).FailsWith P := by
  unfold ensure
  split
  · trivial
  · exact h

theorem FailsWith.bind {f : α → Proc σ ε β} (hp : p.FailsWith P) (hf : ∀ a, (f a).FailsWith P) : (p >>= f).FailsWith P := by
  induction p with
  | done r =>
    cases r with
    | ok a => exact hf a
    | error e => exact hp
  | step act next ih => exact fun s => ih s (hp s)

theorem FailsWith.attempt {f : Except ε α → Proc σ ε β} (hp : p.FailsWith P) (hok : ∀ a, (f (.ok a)).FailsWith P)
    (herror : ∀ e, P e → (f (.error e)).FailsWith P) : (p.attempt >>= f).FailsWith P := by
  induction p with
  | done r =>
    cases r with
    | ok a => exact hok a
    | error e => exact herror e hp
  | step act next ih => exact fun s => ih s (hp s)

theorem FailsWith.along {e : ε} (h : p.FailsWith P) (hp : p.along D ks = some (.error e)) : P e := by
  induction p generalizing ks with
  | done r =>
    obtain ⟨-, rfl⟩ := along_done.mp hp
    exact h
  | step act next ih =>
    cases ks with
    | nil => simp [Proc.along] at hp
    | cons k ks => exact ih (D k) (h (D k)) hp

end Proc
