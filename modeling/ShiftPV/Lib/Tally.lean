import Mathlib
import ShiftPV.Lib.Check

/-! Checked totals. Every entry of a list is charged to one account, and one entry without a charge makes every total fail. -/

namespace Tally
open Check

variable {α κ : Type} [DecidableEq κ]

structure Bound where
  limit : Int
  notPositive : String
  overflows : String

def Bound.add (b : Bound) (left right : Int) : Except String Int := do
  require (0 < right) b.notPositive
  require (left ≤ b.limit - right) b.overflows
  return left + right

def total (b : Bound) (charge : α → Except String (κ × Int)) (account : κ) : Int → List α → Except String Int
  | start, [] => pure start
  | start, entry :: rest => do
    let charged ← charge entry
    if charged.1 = account then
      let sum ← b.add start charged.2
      total b charge account sum rest
    else
      total b charge account start rest

def share (charge : α → Except String (κ × Int)) (account : κ) (entry : α) : Int :=
  match charge entry with
  | .ok charged => if charged.1 = account then charged.2 else 0
  | .error _ => 0

/-- The entry is charged, and to this account only a positive amount. -/
def Fair (charge : α → Except String (κ × Int)) (account : κ) (entry : α) : Prop :=
  ∃ charged, charge entry = .ok charged ∧ (charged.1 = account → 0 < charged.2)

variable {b : Bound} {charge : α → Except String (κ × Int)} {account : κ} {start result : Int} {entry : α} {entries : List α}

theorem share_ok {charged : κ × Int} (h : charge entry = .ok charged) :
    share charge account entry = if charged.1 = account then charged.2 else 0 := by
  simp [share, h]

theorem share_cases : share charge account entry = 0 ∨
    ∃ amount, charge entry = .ok (account, amount) ∧ share charge account entry = amount := by
  cases hcharge : charge entry with
  | error e => exact .inl (by simp [share, hcharge])
  | ok charged =>
    rw [share_ok hcharge]
    split
    · rename_i haccount
      subst haccount
      exact .inr ⟨charged.2, rfl, rfl⟩
    · exact .inl rfl

theorem Fair.share_nonneg (h : Fair charge account entry) : 0 ≤ share charge account entry := by
  obtain ⟨charged, hcharge, hpositive⟩ := h
  rw [share_ok hcharge]
  split
  · rename_i haccount
    exact (hpositive haccount).le
  · exact le_rfl

theorem sum_share_nonneg (h : ∀ entry ∈ entries, Fair charge account entry) : 0 ≤ (entries.map (share charge account)).sum := by
  refine List.sum_nonneg ?_
  intro amount hamount
  obtain ⟨entry, hentry, rfl⟩ := List.mem_map.mp hamount
  exact (h entry hentry).share_nonneg

theorem Bound.add_ok {left right sum : Int} :
    b.add left right = .ok sum ↔ 0 < right ∧ left + right ≤ b.limit ∧ sum = left + right := by
  rw [Bound.add, seq_ok, seq_ok, require_ok, require_ok, pure_ok]
  omega

theorem total_cons_ok : total b charge account start (entry :: entries) = .ok result ↔
    ∃ charged, charge entry = .ok charged ∧
      if charged.1 = account then
        0 < charged.2 ∧ start + charged.2 ≤ b.limit ∧ total b charge account (start + charged.2) entries = .ok result
      else total b charge account start entries = .ok result := by
  rw [total, bind_ok]
  refine exists_congr fun charged => and_congr_right fun _ => ?_
  split
  · rw [bind_ok]
    constructor
    · rintro ⟨sum, hsum, hrest⟩
      obtain ⟨hpositive, hlimit, rfl⟩ := Bound.add_ok.mp hsum
      exact ⟨hpositive, hlimit, hrest⟩
    · rintro ⟨hpositive, hlimit, hrest⟩
      exact ⟨_, Bound.add_ok.mpr ⟨hpositive, hlimit, rfl⟩, hrest⟩
  · exact Iff.rfl

/-- A total stands exactly when every entry is charged fairly and the sum stays below the limit. -/
theorem total_ok (hstart : start ≤ b.limit) : total b charge account start entries = .ok result ↔
    (∀ entry ∈ entries, Fair charge account entry) ∧ result = start + (entries.map (share charge account)).sum ∧
      result ≤ b.limit := by
  induction entries generalizing start with
  | nil =>
    simp only [total, pure_ok, List.not_mem_nil, false_implies, implies_true, List.map_nil, List.sum_nil, true_and, add_zero]
    constructor
    · rintro rfl
      exact ⟨rfl, hstart⟩
    · exact fun h => h.1.symm
  | cons entry rest ih =>
    rw [total_cons_ok, List.forall_mem_cons, List.map_cons, List.sum_cons, ← add_assoc]
    constructor
    · rintro ⟨charged, hcharge, hrest⟩
      rw [share_ok hcharge]
      split at hrest
      · rename_i haccount
        obtain ⟨hpositive, hroom, hrest⟩ := hrest
        obtain ⟨hfair, hresult⟩ := (ih hroom).mp hrest
        rw [if_pos haccount]
        exact ⟨⟨⟨charged, hcharge, fun _ => hpositive⟩, hfair⟩, hresult⟩
      · rename_i haccount
        obtain ⟨hfair, hresult⟩ := (ih hstart).mp hrest
        rw [if_neg haccount, add_zero]
        exact ⟨⟨⟨charged, hcharge, fun h => absurd h haccount⟩, hfair⟩, hresult⟩
    · rintro ⟨⟨⟨charged, hcharge, hpositive⟩, hfair⟩, hresult, hlimit⟩
      refine ⟨charged, hcharge, ?_⟩
      rw [share_ok hcharge] at hresult
      split
      · rename_i haccount
        rw [if_pos haccount] at hresult
        -- what is still to come is not negative, so the sum so far fits
        have hcoming := sum_share_nonneg hfair
        have hroom : start + charged.2 ≤ b.limit := by omega
        exact ⟨hpositive haccount, hroom, (ih hroom).mpr ⟨hfair, hresult, hlimit⟩⟩
      · rename_i haccount
        rw [if_neg haccount, add_zero] at hresult
        exact (ih hstart).mpr ⟨hfair, hresult, hlimit⟩

theorem exists_charged (h : (entries.map (share charge account)).sum ≠ 0) :
    ∃ entry ∈ entries, ∃ amount, charge entry = .ok (account, amount) := by
  by_contra hnone
  push Not at hnone
  refine h (List.sum_eq_zero ?_)
  intro amount hamount
  obtain ⟨entry, hentry, rfl⟩ := List.mem_map.mp hamount
  rcases @share_cases _ _ _ charge account entry with hzero | ⟨amount, hcharge, -⟩
  · exact hzero
  · exact absurd hcharge (hnone entry hentry amount)

end Tally
