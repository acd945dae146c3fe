import ShiftPV.Dispatcher

/-! No interleaving of a scan with the workers loses a published reference: a worker is handed it after its publication, or
    a complete scan that began later did not find it again, or it is still hinted for a Volume that a
    worker has yet to look up. -/

namespace ShiftPV
open Dispatcher

inductive Reference where
  | move (ref : MoveReference)
  | ownerPod (ref : PodReference)

def VolumeWork.Refers (work : VolumeWork) : Reference → Prop
  | .move ref => ref ∈ work.moves
  | .ownerPod ref => ref ∈ work.ownerPods

/-! ### Hints -/

theorem mem_appendNew {α : Type} [DecidableEq α] {current next : List α} {a : α} :
    a ∈ appendNew current next ↔ a ∈ current ∨ a ∈ next := by
  induction next generalizing current with
  | nil => simp [appendNew]
  | cons b next ih =>
    simp only [appendNew, List.foldl_cons] at ih ⊢
    rw [ih]
    split <;> grind

variable {hints : Hints} {work : VolumeWork} {id : String} {ref : Reference} {s : Dispatcher} {act : DispatchAct}

theorem merge_refers : (hints.merge work id).Refers ref ↔ (hints id).Refers ref ∨ id = work.volumeID ∧ work.Refers ref := by
  unfold Hints.merge
  by_cases hid : id = work.volumeID
  · subst hid
    cases ref <;> simp [VolumeWork.Refers, mergeVolumeWork, mem_appendNew]
  · simp [hid]

/-- A deferral hides the discovery of a Volume, never its references. -/
theorem snapshot_refers {now : Int} : (s.snapshot id now).1.Refers ref ↔ (s.hints id).Refers ref := by
  unfold snapshot
  cases ref <;> dsimp only <;> repeat' split
  all_goals rfl

/-! ### Steps -/

/-- What became of a reference since the trace was `base`. -/
def Owed (base : List DispatchEvent) (id : String) (ref : Reference) (d : Dispatcher) : Prop :=
  ∃ since, d.trace = since ++ base ∧
    ((∃ work, .handed id work ∈ since ∧ work.Refers ref) ∨
     (∃ later hints earlier, since = later ++ .replaced hints :: earlier ∧ .begun ∈ earlier ∧ ¬(hints id).Refers ref) ∨
     ((d.hints id).Refers ref ∧ (id ∈ d.queue ∨ id ∈ d.taken ∨ d.adding = some id) ∧
      (.begun ∈ since ∨ ∀ found, d.found = some found → (found id).Refers ref)))

theorem Owed.step {base : List DispatchEvent} (h : Owed base id ref s) (he : s.enabled act) : Owed base id ref (s.next act) := by
  obtain ⟨since, htrace, hcase⟩ := h
  refine ⟨s.events act ++ since, by simp [next, htrace], ?_⟩
  rcases hcase with ⟨work, hhanded, href⟩ | ⟨later, hints, earlier, rfl, hdropped⟩ | ⟨hinted, hdue, hscan⟩
  · exact .inl ⟨work, List.mem_append_right _ hhanded, href⟩
  · exact .inr (.inl ⟨s.events act ++ later, hints, earlier, by simp, hdropped⟩)
  cases act with
  | beginScan => exact .inr (.inr ⟨hinted, hdue, .inl List.mem_cons_self⟩)
  | publish work =>
    have hadding : s.adding = none := Option.isNone_iff_eq_none.mp (Bool.and_eq_true_iff.mp he).2
    refine .inr (.inr ⟨merge_refers.mpr (.inl hinted), ?_, hscan.imp_right fun hfinds found hfound => ?_⟩)
    · exact hdue.imp_right (.imp_right fun h => by simp [hadding] at h)
    · obtain ⟨old, hold, rfl⟩ := Option.map_eq_some_iff.mp hfound
      exact merge_refers.mpr (.inl (hfinds old hold))
  | add =>
    refine .inr (.inr ⟨hinted, ?_, hscan⟩)
    rcases hdue with h | h | h
    · exact .inl (List.mem_append_right _ h)
    · exact .inr (.inl h)
    · exact .inl (List.mem_append_left _ (by simp [h]))
  | endScan complete =>
    obtain ⟨found, hfound⟩ := Option.isSome_iff_exists.mp (Bool.and_eq_true_iff.mp he).1
    cases complete with
    | false => exact .inr (.inr ⟨hinted, hdue, .inr nofun⟩)
    | true =>
      simp only [next, effect, events, hfound]
      by_cases hfinds : (found id).Refers ref
      · exact .inr (.inr ⟨hfinds, hdue, .inr nofun⟩)
      -- The scan that was running at the publication has the reference itself.
      · exact .inr (.inl ⟨[], found, since, rfl, hscan.resolve_right fun h => hfinds (h found hfound), hfinds⟩)
  | get other =>
    refine .inr (.inr ⟨hinted, ?_, hscan⟩)
    by_cases hid : id = other
    · exact .inr (.inl (hid ▸ List.mem_cons_self))
    · exact hdue.imp (fun h => List.mem_filter.mpr ⟨h, by simpa⟩) (.imp_left (List.mem_cons_of_mem _))
  | snapshot other now =>
    by_cases hid : id = other
    · subst hid
      exact .inl ⟨_, List.mem_cons_self, snapshot_refers.mpr hinted⟩
    · exact .inr (.inr ⟨hinted, hdue.imp_right (.imp_left (List.mem_erase_of_ne hid).mpr), hscan.imp_left (List.mem_cons_of_mem _)⟩)
  | deferDiscovery work result now =>
    simp only [next, effect, deferDiscovery]
    split <;> exact .inr (.inr ⟨hinted, hdue, hscan⟩)
  | requeue other => exact .inr (.inr ⟨hinted, hdue.imp_left (List.mem_cons_of_mem _), hscan⟩)

theorem published_work_delivered {past later : List Dispatcher}
    (hr : DispatchRun (later ++ s.next (.publish work) :: s :: past)) (href : work.Refers ref) :
    ∀ u ∈ later ++ [s.next (.publish work)], Owed s.trace work.volumeID ref u := by
  refine Run.since ⟨[], rfl, .inr (.inr ⟨merge_refers.mpr (.inr ⟨rfl, href⟩), .inr (.inr rfl), .inr fun found hfound => ?_⟩)⟩ ?_ hr
  · intro x t rest act _ h hstep
    obtain ⟨he, rfl⟩ := Run.onHead_cons.mp hstep
    exact h.step he
  · obtain ⟨old, -, rfl⟩ := Option.map_eq_some_iff.mp hfound
    exact merge_refers.mpr (.inr ⟨rfl, href⟩)

def scanning : Dispatcher := (Dispatcher.initial 2).next .beginScan

def moveWork : VolumeWork := ⟨"volume", "", false, none, [⟨"move", "uid"⟩], []⟩

/-- The Volume is queued and taken, the scan ends, and the worker is handed what was published. -/
def delivered : Dispatcher :=
  [.add, .get "volume", .endScan true, .snapshot "volume" 0].foldl Dispatcher.next (scanning.next (.publish moveWork))

theorem published_work_delivered_move :
    (∃ hints, delivered.trace = [.handed "volume" moveWork, .replaced hints] ++ scanning.trace) ∧
      Owed scanning.trace "volume" (.move ⟨"move", "uid"⟩) delivered := by
  let published := scanning.next (.publish moveWork)
  let queued := published.next .add
  let taken := queued.next (.get "volume")
  let ended := taken.next (.endScan true)
  have hrun : DispatchRun ([delivered, ended, taken, queued] ++ published :: scanning :: [.initial 2]) :=
    .next (.next (.next (.next (.next (.next (.start ⟨2, rfl⟩) ⟨_, rfl, rfl, rfl⟩) ⟨_, rfl, rfl, rfl⟩) ⟨_, rfl, rfl, rfl⟩)
      ⟨_, rfl, by decide, rfl⟩) ⟨_, rfl, rfl, rfl⟩) ⟨_, rfl, by decide, rfl⟩
  exact ⟨⟨_, rfl⟩, published_work_delivered hrun (List.mem_singleton_self _) _ List.mem_cons_self⟩

end ShiftPV
