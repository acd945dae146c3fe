import ShiftPV.Theorems.OperationSteps

/-! Every write of a creation or a transfer. Directories are made in the incoming place and moved from there to a
    vacant serving place; nothing is ever taken from where a volume is served, and the markers of cleanups are left
    alone. -/

namespace ShiftPV
open NodeOp Setting

variable {Api α : Type}

def MarkerName.cleans : MarkerName → Bool
  | .cleanup _ | .receipt _ => true
  | _ => false

inductive TransferWrite : Disk → Disk → Prop where
  | none {d} : TransferWrite d d
  | area {d area} : TransferWrite d (d.makeArea area)
  | mark {d m value} (hm : m.cleans = false) : TransferWrite d (d.putMarker m value)
  | unmark {d m} (hm : m.cleans = false) : TransferWrite d (d.eraseMarker m)
  | make {d name fresh} (hvacant : d.find .incoming name = Option.none) (hfresh : ¬d.uses fresh) :
      TransferWrite d (d.put .incoming name (.directory fresh .empty))
  | fill {d name contents} : TransferWrite d (d.setContents .incoming name contents)
  | move {d name target entry} (hsource : d.find .incoming name = some entry) (hvacant : d.find .volumes target = Option.none) :
      TransferWrite d ((d.erase .incoming name).put .volumes target entry)

theorem TransferWrite.served {d d' : Disk} {name : String} {entry : Entry} (h : TransferWrite d d')
    (hserved : d.find .volumes name = some entry) : d'.find .volumes name = some entry := by
  cases h with
  | none => exact hserved
  | area => exact Disk.find_makeArea.trans hserved
  | mark | unmark => exact hserved
  | make => rw [Disk.find_put, if_neg (by simp), hserved]
  | fill =>
    unfold Disk.setContents
    split
    · rw [Disk.find_put, if_neg (by simp), hserved]
    · exact hserved
  | move _ hvacant =>
    rw [Disk.find_put, if_neg, Disk.find_erase, if_neg (by simp), hserved]
    rintro ⟨-, rfl⟩
    simp [hserved] at hvacant

/-- The program only makes such writes, and leaves the API alone. -/
def Transfers (p : NodeOp Api α) : Prop := p.Does fun h t => t.api = h.api ∧ TransferWrite h.disk t.disk

/-! ### The operations -/

def transferPermits : Permits where
  marks m _ := m.cleans = false
  unmarks m := m.cleans = false
  moves area target := area = .incoming ∧ target = .volumes
  fills area := area = .incoming
  removes _ := False

theorem transfers_admits :
    Admits (fun h t : Host Api => t.api = h.api ∧ TransferWrite h.disk t.disk) transferPermits := by
  have hlook : ∀ h : Host Api, h.api = h.api ∧ TransferWrite h.disk h.disk := fun _ => ⟨rfl, .none⟩
  exact {
    look := hlook
    area := openOrCreateDirectory_does hlook fun _ => ⟨rfl, .area⟩
    mark := fun hm => ensureMarker_does hlook fun _ => ⟨rfl, .mark hm⟩
    unmark := fun hm => removeMarker_does hlook fun _ => ⟨rfl, .unmark hm⟩
    make := makeDirectory_does hlook fun hvacant hfresh => ⟨rfl, .make hvacant hfresh⟩
    fill := fun harea => ⟨rfl, harea ▸ .fill⟩
    move := by
      rintro _ _ _ _ ⟨rfl, rfl⟩
      exact renameDirectory_does hlook fun hsource hvacant => ⟨rfl, .move hsource hvacant⟩
    remove := False.elim }

variable {identity incoming serving : CopyIdentity} {operationID : String} {authority : Api → Except Fault Unit} {fresh : LiveID}

theorem populateIncoming_transfers {population : Population} :
    Transfers (populateIncoming identity operationID fresh population authority) :=
  transfers_admits.populateIncoming rfl rfl (fun _ => rfl) (fun _ => rfl) rfl

theorem promoteIncoming_transfers : Transfers (promoteIncoming incoming serving operationID authority) :=
  transfers_admits.promoteIncoming rfl rfl (fun _ => rfl) (fun _ => ⟨rfl, fun _ => rfl⟩) (fun _ => rfl) ⟨rfl, rfl⟩

end ShiftPV
