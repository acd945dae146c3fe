import Mathlib.Tactic.Common

/-! Checked computations: a function that refuses bad input is a sequence of `require` lines, inverted by the lemmas below. -/

namespace Check

def require (p : Prop) [Decidable p] (message : String) : Except String Unit :=
  if p then .ok () else .error message

@[simp] theorem require_ok {p : Prop} [Decidable p] {message : String} {u : Unit} :
    require p message = .ok u ↔ p := by
  unfold require
  split <;> simp_all

theorem require_of {p : Prop} [Decidable p] {message : String} (hp : p) : require p message = .ok () :=
  require_ok.mpr hp

def whenever (p : Prop) [Decidable p] (check : Except String Unit) : Except String Unit :=
  if p then check else .ok ()

@[simp] theorem whenever_ok {p : Prop} [Decidable p] {check : Except String Unit} :
    whenever p check = .ok () ↔ (p → check = .ok ()) := by
  unfold whenever
  split <;> simp_all

@[simp] theorem bind_ok {α β : Type} {x : Except String α} {f : α → Except String β} {b : β} :
    (x >>= f) = .ok b ↔ ∃ a, x = .ok a ∧ f a = .ok b := by
  cases x with
  | error e | ok a => simp [bind, Except.bind]

theorem seq_ok {β : Type} {x : Except String Unit} {f : Unit → Except String β} {b : β} :
    (x >>= f) = .ok b ↔ x = .ok () ∧ f () = .ok b := by
  rw [bind_ok]
  constructor
  · rintro ⟨⟨⟩, hx, hf⟩
    exact ⟨hx, hf⟩
  · rintro ⟨hx, hf⟩
    exact ⟨(), hx, hf⟩

@[simp] theorem pure_ok {α : Type} {a b : α} : (pure a : Except String α) = .ok b ↔ a = b := by
  simp [pure, Except.pure]

@[simp] theorem throw_ok {α : Type} {e : String} {b : α} : (throw e : Except String α) = .ok b ↔ False := by
  simp [throw, throwThe, MonadExceptOf.throw]

def passes {α : Type} (x : Except String α) : Bool :=
  match x with
  | .ok _ => true
  | .error _ => false

theorem passes_iff {α : Type} {x : Except String α} : passes x = true ↔ ∃ a, x = .ok a := by
  cases x <;> simp [passes]

@[simp] theorem passes_unit {x : Except String Unit} : passes x = true ↔ x = .ok () := by
  cases x <;> simp [passes]

def quoted (text : String) : String := "\"" ++ text ++ "\""

end Check
