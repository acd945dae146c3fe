import ShiftPV.Scanner
import ShiftPV.Theorems.OperationSteps

/-! Where directories go. Whatever operations run on a Pool, in whatever order, a directory only ever moves onward:
    from the incoming place to the serving or the retired one, and from the serving place to the retired one. -/

namespace ShiftPV
open NodeOp

variable {Api α : Type}

def Area.onward : Area → Area → Bool
  | .incoming, .volumes | .incoming, .retired | .volumes, .retired => true
  | _, _ => false

/-- Every directory of the later disk stood there before, or is new, or has moved onward. -/
def Flows (d d' : Disk) : Prop :=
  ∀ ⦃area name id⦄, d'.idAt area name = some id →
    d.idAt area name = some id ∨ ¬d.uses id ∨ ∃ from' name', d.idAt from' name' = some id ∧ from'.onward area

section Writes

variable {d : Disk} {area target : Area} {name targetName : String} {entry : Entry} {contents : Contents}

theorem Flows.of_find {d' : Disk} (h : ∀ area name, d'.find area name = d.find area name) : Flows d d' :=
  fun _ _ _ hid => .inl (Disk.idAt_of_find h hid)

theorem Flows.refl (d : Disk) : Flows d d := Flows.of_find fun _ _ => rfl

theorem Flows.move (hsource : d.find area name = some entry) (hon : area.onward target) :
    Flows d ((d.erase area name).put target targetName entry) := by
  intro a n id h
  rw [Disk.idAt_put] at h
  split at h
  · rename_i hsame
    refine .inr (.inr ⟨area, name, ?_, by rw [hsame.1]; exact hon⟩)
    simpa [Disk.idAt, hsource] using h
  · exact .inl (Disk.idAt_erase h).2

theorem Flows.erase : Flows d (d.erase area name) := fun _ _ _ h => .inl (Disk.idAt_erase h).2

theorem Flows.setContents : Flows d (d.setContents area name contents) := by
  intro a n id h
  unfold Disk.setContents at h
  split at h
  · rename_i found old hfind
    rw [Disk.idAt_put] at h
    split at h
    · rename_i hsame
      obtain ⟨rfl, rfl⟩ := hsame
      have hsame : found = id := by simpa [Entry.id?] using h
      exact .inl (Disk.idAt_eq_some.mpr ⟨old, hsame ▸ hfind⟩)
    · exact .inl h
  · exact .inl h

theorem Flows.make {fresh : LiveID} (hfresh : ¬d.uses fresh) : Flows d (d.put area name (.directory fresh .empty)) := by
  intro a n id h
  rw [Disk.idAt_put] at h
  split at h
  · obtain rfl : fresh = id := by simpa [Entry.id?] using h
    exact .inr (.inl hfresh)
  · exact .inl h

end Writes

/-! ### The operations -/

def Flowing (p : NodeOp Api α) : Prop := p.Does fun h t => Flows h.disk t.disk

def flowPermits : Permits where
  marks _ _ := True
  unmarks _ := True
  moves area target := area.onward target
  fills _ := True
  removes _ := True

theorem flows_admits : Admits (fun h t : Host Api => Flows h.disk t.disk) flowPermits := by
  have hlook : ∀ h : Host Api, Flows h.disk h.disk := fun _ => .refl _
  exact {
    look := hlook
    area := openOrCreateDirectory_does hlook fun _ => .of_find fun _ _ => Disk.find_makeArea
    mark := fun _ => ensureMarker_does hlook fun _ => .of_find fun _ _ => rfl
    unmark := fun _ => removeMarker_does hlook fun _ => .of_find fun _ _ => rfl
    make := makeDirectory_does hlook fun _ hfresh => .make hfresh
    fill := fun _ => .setContents
    move := fun hon => renameDirectory_does hlook fun hsource _ => .move hsource hon
    remove := fun _ => removeDirectory_does hlook fun _ => .erase }

theorem rolePath_onward {target : CopyIdentity} {place : Area × String} (hplace : rolePath target = some place)
    (hrole : target.role ≠ .retired) : place.1.onward .retired := by
  unfold rolePath at hplace
  split at hplace <;> simp_all
  all_goals
    subst hplace
    rfl

/-! ### A Pool at work -/

variable {receiptDigest : Receipt → String} {D : Nat → BusyPool Api}

theorem PoolOperation.program_flowing (operation : PoolOperation Api) : Flowing (operation.program receiptDigest) := by
  cases operation with
  | prepareServing => exact flows_admits.prepareServing trivial (fun _ => ⟨trivial, fun _ => trivial⟩) rfl
  | populateIncoming => exact flows_admits.populateIncoming trivial trivial (fun _ => trivial) (fun _ => trivial) trivial
  | promoteIncoming =>
    exact flows_admits.promoteIncoming trivial trivial (fun _ => trivial) (fun _ => ⟨trivial, fun _ => trivial⟩) (fun _ => trivial)
      rfl
  | cancelCreation =>
    refine Proc.Does.bind ?_ fun _ => .pure
    exact flows_admits.cancelCreation trivial (fun _ => trivial) (fun _ => trivial) trivial trivial rfl rfl trivial trivial
  | reclaimWithResume =>
    refine Proc.Does.bind ?_ fun _ => .pure
    exact flows_admits.reclaimWithResume (fun _ => trivial) (fun _ => trivial) trivial trivial rolePath_onward trivial trivial

theorem BusyPool.step_flows {pool : BusyPool Api} (h : ∀ p ∈ pool.running, Flowing p) (act : PoolStep Api) :
    Flows pool.host.disk (pool.step receiptDigest act).host.disk ∧ ∀ p ∈ (pool.step receiptDigest act).running, Flowing p := by
  cases act with
  | surroundings api | rest => exact ⟨.refl _, h⟩
  | leave index => exact ⟨.refl _, fun p hp => h p (List.mem_of_mem_eraseIdx hp)⟩
  | start operation =>
    refine ⟨.refl _, fun p hp => ?_⟩
    rcases List.mem_cons.mp hp with rfl | hp
    · exact operation.program_flowing
    · exact h p hp
  | advance index =>
    simp only [BusyPool.step]
    split
    · rename_i act next hget
      have hp : Flows pool.host.disk (act pool.host).disk ∧ Flowing (next pool.host) :=
        h _ (List.mem_of_getElem? hget) pool.host
      refine ⟨hp.1, fun p hmem => ?_⟩
      rcases List.mem_or_eq_of_mem_set hmem with hmem | rfl
      · exact h p hmem
      · exact hp.2
    · exact ⟨.refl _, h⟩

namespace PoolHistory

theorem running_flows (hD : PoolHistory receiptDigest D) (k : Nat) : ∀ p ∈ (D k).running, Flowing p := by
  induction k with
  | zero => simp [hD.idle]
  | succ k ih =>
    obtain ⟨act, hact⟩ := hD.step k
    exact hact ▸ (BusyPool.step_flows ih act).2

theorem flows (hD : PoolHistory receiptDigest D) (k : Nat) : Flows (D k).host.disk (D (k + 1)).host.disk := by
  obtain ⟨act, hact⟩ := hD.step k
  exact hact ▸ (BusyPool.step_flows (hD.running_flows k) act).1

end PoolHistory

/-- A directory that existed since the moment `a` and stands at a path has stood there since, or came there from a
    place further back. -/
theorem arrived {d : Nat → Disk} (hflow : ∀ k, Flows (d k) (d (k + 1))) {a b : Nat} {area : Area} {name : String} {id : LiveID}
    (hab : a ≤ b) (huses : ∀ k, a ≤ k → k ≤ b → (d k).uses id) (hb : (d b).idAt area name = some id) :
    (∀ k, a ≤ k → k ≤ b → (d k).idAt area name = some id) ∨
      ∃ k, a ≤ k ∧ k < b ∧ (d k).idAt area name ≠ some id ∧ (d (k + 1)).idAt area name = some id ∧
        ∃ from' name', (d k).idAt from' name' = some id ∧ from'.onward area := by
  induction b, hab using Nat.le_induction with
  | base => exact .inl fun k hk hk' => (Nat.le_antisymm hk' hk) ▸ hb
  | succ b hab ih =>
    by_cases hstay : (d b).idAt area name = some id
    · rcases ih (fun k hk hk' => huses k hk (by omega)) hstay with hall | ⟨k, hk, hkb, hcame⟩
      · refine .inl fun k hk hk' => ?_
        rcases Nat.lt_or_ge b k with hlt | hle
        · obtain rfl : k = b + 1 := by omega
          exact hb
        · exact hall k hk hle
      · exact .inr ⟨k, hk, by omega, hcame⟩
    · rcases hflow b hb with hsame | hnew | hfrom
      · exact absurd hsame hstay
      · exact absurd (huses b hab (by omega)) hnew
      · exact .inr ⟨b, hab, by omega, hstay, hb, hfrom⟩

end ShiftPV
