import Mathlib.Tactic.Common

/-! Reading an untrusted buffer. A computation keeps the spans it touched, and a slice outside its view ends it in a panic.
    `Within` says that it never panics and stays inside a region. -/

namespace Buffer

inductive Fault where
  | refused (text : String)
  | panic
  deriving DecidableEq

structure Span where
  lo : Nat
  hi : Nat

structure Access (α : Type) where
  result : Except Fault α
  reads : List Span

namespace Access
variable {α β : Type}

instance : Monad Access where
  pure a := ⟨.ok a, []⟩
  bind x f :=
    match x.result with
    | .ok a => ⟨(f a).result, x.reads ++ (f a).reads⟩
    | .error e => ⟨.error e, x.reads⟩

def check (p : Prop) [Decidable p] (text : String) : Access Unit := ⟨if p then .ok () else .error (.refused text), []⟩

def ofExcept (x : Except String α) : Access α := ⟨x.mapError .refused, []⟩

@[simp] theorem pure_ok {a b : α} : (pure a : Access α).result = .ok b ↔ a = b := by
  simp [pure]

@[simp] theorem bind_ok {x : Access α} {f : α → Access β} {b : β} :
    (x >>= f).result = .ok b ↔ ∃ a, x.result = .ok a ∧ (f a).result = .ok b := by
  cases hx : x.result <;> simp [bind, hx]

@[simp] theorem check_ok {p : Prop} [Decidable p] {text : String} {u : Unit} :
    (check p text).result = .ok u ↔ p := by
  unfold check
  split <;> simp_all

@[simp] theorem ofExcept_ok {x : Except String α} {a : α} : (ofExcept x).result = .ok a ↔ x = .ok a := by
  cases x <;> simp [ofExcept, Except.mapError]

/-- What is read after a check is read only when the check held. -/
theorem reads_after_check {p : Prop} [Decidable p] {text : String} {f : Unit → Access β} {s : Span}
    (hs : s ∈ (check p text >>= f).reads) : p := by
  by_contra hp
  simp [bind, check, hp] at hs

/-- The computation never panics and reads only between `lo` and `hi`. -/
def Within (lo hi : Nat) (x : Access α) : Prop :=
  x.result ≠ .error .panic ∧ ∀ s ∈ x.reads, lo ≤ s.lo ∧ s.lo ≤ s.hi ∧ s.hi ≤ hi

section
variable {lo hi : Nat}

theorem Within.pure (a : α) : Within lo hi (Pure.pure a : Access α) := by
  simp [Within, Pure.pure]

theorem Within.check {p : Prop} [Decidable p] {text : String} : Within lo hi (check p text) := by
  unfold Within Access.check
  split <;> simp

theorem Within.ofExcept {x : Except String α} : Within lo hi (ofExcept x) := by
  cases x <;> simp [Within, Access.ofExcept, Except.mapError]

theorem Within.bind {x : Access α} {f : α → Access β} (hx : x.Within lo hi)
    (hf : ∀ a, x.result = .ok a → (f a).Within lo hi) : (x >>= f).Within lo hi := by
  obtain ⟨hsafe, hreads⟩ := hx
  cases hr : x.result with
  | error e =>
    have heq : (x >>= f) = ⟨.error e, x.reads⟩ := by simp [Bind.bind, hr]
    rw [heq]
    refine ⟨fun he => hsafe ?_, hreads⟩
    rw [hr, Except.error.inj he]
  | ok a =>
    have heq : (x >>= f) = ⟨(f a).result, x.reads ++ (f a).reads⟩ := by simp [Bind.bind, hr]
    rw [heq]
    refine ⟨(hf a hr).1, fun s hs => ?_⟩
    rcases List.mem_append.mp hs with hs | hs
    · exact hreads s hs
    · exact (hf a hr).2 s hs

theorem Within.after_check {p : Prop} [Decidable p] {text : String} {f : Unit → Access β} (hf : p → (f ()).Within lo hi) :
    (Access.check p text >>= f).Within lo hi :=
  Within.check.bind fun _ hp => hf (check_ok.mp hp)

theorem Within.result_cases {x : Access α} (hx : x.Within lo hi) :
    (∃ a, x.result = .ok a) ∨ ∃ text, x.result = .error (.refused text) := by
  rcases hr : x.result with (text | _) | a
  · exact .inr ⟨text, rfl⟩
  · exact absurd hr hx.1
  · exact .inl ⟨a, rfl⟩

end

end Access

structure View where
  base : Nat
  bytes : List UInt8

namespace View
variable {v w : View} {lo hi : Nat}

def sub (v : View) (lo hi : Nat) : View := ⟨v.base + lo, (v.bytes.drop lo).take (hi - lo)⟩

def slice (v : View) (lo hi : Nat) : Access View :=
  ⟨if lo ≤ hi ∧ hi ≤ v.bytes.length then .ok (v.sub lo hi) else .error .panic, [⟨v.base + lo, v.base + hi⟩]⟩

theorem slice_ok : (v.slice lo hi).result = .ok w ↔ (lo ≤ hi ∧ hi ≤ v.bytes.length) ∧ v.sub lo hi = w := by
  unfold slice
  split
  · rename_i hin
    simp [hin]
  · rename_i hout
    simp [hout]

theorem length_sub (hlo : lo ≤ hi) (hhi : hi ≤ v.bytes.length) : (v.sub lo hi).bytes.length = hi - lo := by
  simp only [sub, List.length_take, List.length_drop]
  omega

theorem slice_within {first last : Nat} (hlo : lo ≤ hi) (hhi : hi ≤ v.bytes.length) (hfirst : first ≤ v.base + lo)
    (hlast : v.base + hi ≤ last) : (v.slice lo hi).Within first last := by
  refine ⟨by simp [slice, hlo, hhi], fun s hs => ?_⟩
  obtain rfl := List.mem_singleton.mp hs
  exact ⟨hfirst, Nat.add_le_add_left hlo _, hlast⟩

theorem sub_sub {first last : Nat} (hlast : lo + last ≤ hi) :
    (v.sub lo hi).sub first last = v.sub (lo + first) (lo + last) := by
  have hmin : min (last - first) (hi - lo - first) = last - first := by omega
  simp only [sub, List.drop_take, List.drop_drop, List.take_take, hmin, mk.injEq]
  exact ⟨by omega, by congr 1; omega⟩

end View

end Buffer
