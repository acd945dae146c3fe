import ShiftPV.Lib.Run
import ShiftPV.Store

/-! Runs of the stored objects of one volume under writers that may be arbitrarily late. A writer of the
    mobility controller carries the Move and the Volume it read, and any version that was ever stored may
    be the one it read; the other writers may carry anything. -/

namespace ShiftPV
open Check

def SeenVolume (h : List Store) (v : State) : Prop := ∃ s ∈ h, s.volume = some v

def SeenMove (h : List Store) (m : Move) : Prop := ∃ s ∈ h, s.moves.find m.name = some m

def Op.Observed (h : List Store) : Op → Prop
  | .volume (.mobility _ m v) => SeenMove h m ∧ SeenVolume h v
  | _ => True

def Store.Initial (s : Store) : Prop :=
  ∃ v, s.volume = some v ∧ v.unstartedCreation ∧ s.cleanup = none ∧ s.moves.rows = []

def StaleStep (h : List Store) (op : Op) (t : Store) : Prop :=
  op.Observed h ∧ ∃ s, h.head? = some s ∧ s.apply op = .ok t

abbrev StaleRun : List Store → Prop := Run Store.Initial StaleStep

variable {s t : Store} {past : List Store} {op : Op}

theorem staleStep_cons : StaleStep (s :: past) op t ↔ op.Observed (s :: past) ∧ s.apply op = .ok t := by
  simp [StaleStep]

theorem SeenVolume.head {v : State} (h : s.volume = some v) : SeenVolume (s :: past) v := ⟨s, by simp, h⟩

theorem SeenVolume.older {h : List Store} {v : State} (hv : SeenVolume h v) : SeenVolume (t :: h) v := by
  obtain ⟨u, hu, hv⟩ := hv
  exact ⟨u, List.mem_cons_of_mem _ hu, hv⟩

theorem seenVolume_cons {h : List Store} {v : State} : SeenVolume (t :: h) v ↔ t.volume = some v ∨ SeenVolume h v := by
  simp [SeenVolume]

theorem seenMove_cons {h : List Store} {m : Move} :
    SeenMove (t :: h) m ↔ t.moves.find m.name = some m ∨ SeenMove h m := by
  simp [SeenMove]

/-! ### Running a script -/

/-- A writer of the mobility controller acts on the objects that are stored now. -/
def Op.fresh (s : Store) : Op → Bool
  | .volume (.mobility _ m v) => s.moves.find m.name = some m && s.volume = some v
  | _ => true

/-- Runs operations that are computed from the stored objects; the result is the history. -/
def replay (s : Store) (past : List Store) : List (Store → Op) → Except String (List Store)
  | [] => return s :: past
  | next :: script => do
    require ((next s).fresh s) "script acts on objects that are not stored"
    let t ← s.apply (next s)
    replay t (s :: past) script

theorem Op.fresh.observed (h : op.fresh s) : op.Observed (s :: past) := by
  unfold Op.Observed
  split
  · rename_i k m v
    simp only [Op.fresh, Bool.and_eq_true, decide_eq_true_eq] at h
    exact ⟨⟨s, by simp, h.1⟩, ⟨s, by simp, h.2⟩⟩
  · trivial

theorem replay_run {script : List (Store → Op)} {h : List Store} (hr : StaleRun (s :: past))
    (hh : replay s past script = .ok h) : StaleRun h := by
  induction script generalizing s past with
  | nil => exact pure_ok.mp hh ▸ hr
  | cons next script ih =>
    rw [replay, seq_ok, require_ok, bind_ok] at hh
    obtain ⟨hfresh, t, ht, hh⟩ := hh
    exact ih (.next hr (staleStep_cons.mpr ⟨Op.fresh.observed hfresh, ht⟩)) hh

def replayed (s : Store) (script : List (Store → Op)) : List Store :=
  match replay s [] script with
  | .ok h => h
  | .error _ => []

theorem replayed_run {script : List (Store → Op)} (hs : s.Initial) (h : (replayed s script).isEmpty = false) :
    StaleRun (replayed s script) := by
  unfold replayed at h ⊢
  split
  · rename_i h' hh
    exact replay_run (.start hs) hh
  · rename_i hh
    simp [hh] at h

end ShiftPV
