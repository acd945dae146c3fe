import ShiftPV.Site
import ShiftPV.Theorems.Exclusivity
import ShiftPV.Theorems.Purge
import ShiftPV.Theorems.ReclaimWrites
import ShiftPV.Theorems.TransferWrites

/-! Receipts are truthful under live authority. Rollback is authorized only once the Move is blocked, and a blocked Move never
    authorizes a copy or a promotion again. -/

namespace ShiftPV
open Check NodeOp Setting

variable {moveName moveUID : String} {d d' : Disk} {w w' : World} {m : Move} {target : CopyIdentity}

/-! ### The point of no return -/

def World.Past (moveName : String) (w : World) : Prop := ∃ c, BlockedWith w moveName c

theorem World.Past.step {act : WorldAct} (h : w.Past moveName) (hw : WorldSound w) (hs : WorldStep w act w') :
    w'.Past moveName := by
  obtain ⟨c, hc⟩ := h
  exact ⟨c, hc.step hw hs⟩

/-- The identity is that of the incoming or of the destination copy of the Move. -/
def CopyIdentity.OfMove (moveUID : String) (target : CopyIdentity) : Prop :=
  target.copyID = (moveCopyIDs moveUID).1 ∧ target.role = .incoming ∨
    target.copyID = (moveCopyIDs moveUID).2 ∧ target.role = .serving

theorem CopyIdentity.OfMove.place {place : Area × String} (h : target.OfMove moveUID) (hplace : rolePath target = some place) :
    target.copyID = (moveCopyIDs moveUID).1 ∧ place.1 = .incoming ∨ target.copyID = (moveCopyIDs moveUID).2 ∧ place.1 = .volumes := by
  rcases h with ⟨hid, hrole⟩ | ⟨hid, hrole⟩
  · simp only [rolePath, hrole, Option.some.injEq] at hplace
    exact Or.inl ⟨hid, by rw [← hplace]⟩
  · simp only [rolePath, hrole, Option.some.injEq] at hplace
    exact Or.inr ⟨hid, by rw [← hplace]⟩

theorem MoveSound.ofMove (hm : MoveSound m) (h : moveOwnsDestinationArtifact m target) :
    target.OfMove m.uid ∧ m.status.destinationCopy.isSome := by
  simp only [moveOwnsDestinationArtifact, Bool.or_eq_true, decide_eq_true_eq] at h
  have hintent : m.hasDestinationIntent := by
    rcases h with h | h <;> simp [Move.hasDestinationIntent, h]
  obtain ⟨source, anchor, hplan⟩ := hm.derived (Or.inr hintent)
  refine ⟨?_, by simp [hplan.destination]⟩
  rcases h with h | h
  · obtain rfl := Option.some.inj (hplan.incoming.symm.trans h)
    exact Or.inl ⟨rfl, rfl⟩
  · obtain rfl := Option.some.inj (hplan.destination.symm.trans h)
    exact Or.inr ⟨rfl, rfl⟩

theorem WorldSound.moveSound (hw : WorldSound w) (hm : w.store.moves.find moveName = some m) : MoveSound m :=
  (hw.coherent.bound _ m hm).sound

theorem mapError_ok {ε : Type} {α : Type} {x : Except String α} {f : String → ε} {a : α} : x.mapError f = .ok a ↔ x = .ok a := by
  cases x <;> simp [Except.mapError]

variable {operationID : String}

theorem helperAuthority_present {cluster : SiteApi} {action : MoveAction}
    (h : helperAuthority { moveName, moveUID, operationID } action target cluster = .ok ()) :
    ¬cluster.world.Past moveName := by
  rintro ⟨c, m, hm, hblocked, -⟩
  rw [helperAuthority, mapError_ok, seq_ok] at h
  replace h := h.1
  have hread : cluster.reads.getMove moveName = some m := hm
  simp only [moveAuthority, hread] at h
  rw [seq_ok, seq_ok, require_ok, require_ok] at h
  have hphase := h.2.1.1
  cases action <;> simp [moveActionPhaseAllowed, hblocked] at hphase

theorem reclaimAuthority_past {cluster : SiteApi} {approved : Journal} (hw : WorldSound cluster.world)
    (hauthority : approved.spec.authority = { kind := .shiftPVMove, name := moveName, uid := moveUID })
    (hreason : approved.spec.reason = .moveRollback) (h : reclaimAuthority approved cluster = .ok ()) :
    cluster.world.Past moveName := by
  rw [reclaimAuthority, mapError_ok] at h
  split at h
  · simp at h
  rename_i move hmove
  rw [seq_ok, seq_ok] at h
  obtain ⟨-, h, -⟩ := h
  rw [hauthority] at hmove
  have hstored : cluster.world.store.moves.find moveName = some move := hmove
  simp only [verifyCleanupAuthority, verifyMoveCleanupAuthority, hauthority, hmove] at h
  rw [seq_ok] at h
  replace h := h.2
  split at h
  · simp at h
  rw [seq_ok] at h
  replace h := h.2
  simp only [hreason] at h
  rw [verifyMoveRollbackCleanupAuthority, require_ok] at h
  obtain ⟨-, htarget, -, -, hretiring, -⟩ := h
  simp only [moveRetiringUnderRecoveryOwner, Bool.and_eq_true, decide_eq_true_eq] at hretiring
  obtain ⟨c, hc⟩ := Option.isSome_iff_exists.mp ((hw.moveSound hstored).ofMove htarget).2
  exact ⟨c, move, hstored, hretiring.1.1.1, hc⟩

/-! ### The Pool -/

structure Untouched (moveUID : String) (d : Disk) : Prop where
  intents : ∀ {operationID intent}, d.marker (.cleanup operationID) = some (.cleanup intent) → ¬intent.target.OfMove moveUID
  receipts : ∀ {operationID receipt}, d.marker (.receipt operationID) = some (.receipt receipt) → ¬receipt.target.OfMove moveUID

def Disk.Distinct (d : Disk) : Prop :=
  ∀ ⦃area area' name name' id⦄, d.idAt area name = some id → d.idAt area' name' = some id → (area, name) = (area', name')

/-- The inode of an intent is in the place of its copy or in the retired directory, that of a receipt is nowhere; and
    neither is written before the point of no return. -/
structure Truthful (moveUID : String) (past : Prop) (d : Disk) : Prop where
  inodes : d.Distinct
  intents : ∀ {operationID intent}, d.marker (.cleanup operationID) = some (.cleanup intent) → intent.target.OfMove moveUID →
    past ∧ ∀ {area name id}, d.idAt area name = some id → id.val = intent.id →
      rolePath intent.target = some (area, name) ∨ (area, name) = (.retired, intent.target.copyID)
  receipts : ∀ {operationID receipt}, d.marker (.receipt operationID) = some (.receipt receipt) →
    receipt.target.OfMove moveUID → past ∧ ∀ {area name id}, d.idAt area name = some id → id.val ≠ receipt.id

variable {past past' : Prop}

theorem Truthful.later (h : Truthful moveUID past d) (hpast : past → past') : Truthful moveUID past' d :=
  ⟨h.inodes, fun hi ht => ⟨hpast (h.intents hi ht).1, (h.intents hi ht).2⟩,
    fun hr ht => ⟨hpast (h.receipts hr ht).1, (h.receipts hr ht).2⟩⟩

theorem Truthful.untouched (h : Truthful moveUID past d) (hpast : ¬past) : Untouched moveUID d :=
  ⟨fun hi ht => hpast (h.intents hi ht).1, fun hr ht => hpast (h.receipts hr ht).1⟩

theorem Untouched.truthful (h : Untouched moveUID d) (hd : d.Distinct) : Truthful moveUID past d :=
  ⟨hd, fun hi ht => absurd ht (h.intents hi), fun hr ht => absurd ht (h.receipts hr)⟩

/-! ### What one write keeps -/

theorem Truthful.of_finds (h : Truthful moveUID past d) (hid : ∀ {area name id}, d'.idAt area name = some id →
    d.idAt area name = some id) (hm : ∀ {m : MarkerName}, m.cleans → d'.marker m = d.marker m) : Truthful moveUID past d' := by
  refine ⟨fun _ _ _ _ _ h₁ h₂ => h.inodes (hid h₁) (hid h₂), fun hi ht => ?_, fun hr ht => ?_⟩
  · rw [hm rfl] at hi
    exact ⟨(h.intents hi ht).1, fun h₁ => (h.intents hi ht).2 (hid h₁)⟩
  · rw [hm rfl] at hr
    exact ⟨(h.receipts hr ht).1, fun h₁ => (h.receipts hr ht).2 (hid h₁)⟩

theorem idAt_moved {area area' a : Area} {name name' n : String} {i : LiveID} {entry : Entry}
    (hfind : d.find area name = some entry) (h : ((d.erase area name).put area' name' entry).idAt a n = some i) :
    (a, n) = (area', name') ∧ d.idAt area name = some i ∨ (a, n) ≠ (area, name) ∧ d.idAt a n = some i := by
  rw [Disk.idAt_put] at h
  split at h
  · rename_i hsame
    exact Or.inl ⟨by simpa using hsame, by simpa [Disk.idAt, hfind] using h⟩
  · exact Or.inr (Disk.idAt_erase h)

theorem Disk.Distinct.move {area area' : Area} {name name' : String} {entry : Entry} (h : d.Distinct)
    (hfind : d.find area name = some entry) : ((d.erase area name).put area' name' entry).Distinct := by
  intro a a' n n' i h₁ h₂
  rcases idAt_moved hfind h₁ with ⟨hs₁, hi₁⟩ | ⟨ho₁, hi₁⟩ <;> rcases idAt_moved hfind h₂ with ⟨hs₂, hi₂⟩ | ⟨ho₂, hi₂⟩
  · exact hs₁.trans hs₂.symm
  · exact absurd (h hi₂ hi₁) ho₂
  · exact absurd (h hi₁ hi₂) ho₁
  · exact h hi₁ hi₂

theorem idAt_setContents {area a : Area} {name n : String} {contents : Contents} {i : LiveID}
    (h : (d.setContents area name contents).idAt a n = some i) : d.idAt a n = some i := by
  unfold Disk.setContents at h
  split at h
  · rename_i id old hfind
    rw [Disk.idAt_put] at h
    split at h
    · rename_i hsame
      obtain ⟨rfl, rfl⟩ := hsame
      simpa [Disk.idAt, hfind, Entry.id?] using h
    · exact h
  · exact h

/-- Before any cleanup, a copy or a promotion keeps the inodes apart and writes no cleanup marker. -/
theorem TransferWrite.untouched (hwrite : TransferWrite d d') (h : Untouched moveUID d) (hd : d.Distinct) :
    Untouched moveUID d' ∧ d'.Distinct := by
  have hsame : (∀ {m : MarkerName}, m.cleans → d'.marker m = d.marker m) → Untouched moveUID d' := fun hm =>
    ⟨fun hi => h.intents (by rw [hm rfl] at hi; exact hi), fun hr => h.receipts (by rw [hm rfl] at hr; exact hr)⟩
  have hkept : (∀ {area name id}, d'.idAt area name = some id → d.idAt area name = some id) → d'.Distinct := fun hid =>
    fun _ _ _ _ _ h₁ h₂ => hd (hid h₁) (hid h₂)
  cases hwrite with
  | none => exact ⟨h, hd⟩
  | area => exact ⟨hsame fun _ => Disk.marker_makeArea, hkept (Disk.idAt_of_find fun _ _ => Disk.find_makeArea)⟩
  | @mark m value hm =>
    refine ⟨hsame fun {m'} hc => ?_, hkept fun h => h⟩
    rw [Disk.marker_putMarker, if_neg]
    rintro rfl
    simp [hc] at hm
  | @unmark m hm =>
    refine ⟨hsame fun {m'} hc => ?_, hkept fun h => h⟩
    rw [Disk.marker_eraseMarker, if_neg]
    rintro rfl
    simp [hc] at hm
  | @make name fresh hvacant hfresh =>
    refine ⟨hsame fun _ => rfl, ?_⟩
    have hlocal : ∀ {a n i}, (d.put .incoming name (.directory fresh .empty)).idAt a n = some i →
        (a, n) = (.incoming, name) ∧ fresh = i ∨ d.idAt a n = some i ∧ fresh ≠ i := by
      intro a n i hi
      rw [Disk.idAt_put] at hi
      split at hi
      · rename_i hplace
        exact Or.inl ⟨by simpa using hplace, by simpa [Entry.id?] using hi⟩
      · refine Or.inr ⟨hi, ?_⟩
        rintro rfl
        exact hfresh (Disk.uses_iff.mpr ⟨a, n, hi⟩)
    intro a a' n n' i h₁ h₂
    rcases hlocal h₁ with ⟨hs₁, hi₁⟩ | ⟨hi₁, hne₁⟩ <;> rcases hlocal h₂ with ⟨hs₂, hi₂⟩ | ⟨hi₂, hne₂⟩
    · exact hs₁.trans hs₂.symm
    · exact absurd hi₁ hne₂
    · exact absurd hi₂ hne₁
    · exact hd hi₁ hi₂
  | fill =>
    refine ⟨hsame fun {m} _ => ?_, hkept idAt_setContents⟩
    unfold Disk.setContents
    split <;> rfl
  | move hsource hvacant => exact ⟨hsame fun _ => rfl, hd.move hsource⟩

theorem ReclaimWrite.truthful (hwrite : ReclaimWrite past target operationID d d')
    (hof : target.OfMove moveUID) (h : Truthful moveUID past d) : Truthful moveUID past d' := by
  cases hwrite with
  | area => exact h.of_finds (Disk.idAt_of_find fun _ _ => Disk.find_makeArea) fun _ => Disk.marker_makeArea
  | @intend place id hpast hplace hid hplacement =>
    refine ⟨h.inodes, fun hi ht => ?_, fun hr ht => ?_⟩
    · rw [Disk.marker_putMarker] at hi
      split at hi
      · obtain rfl := Marker.cleanup.inj (Option.some.inj hi)
        refine ⟨hpast, fun hfound hsame => Or.inl ?_⟩
        obtain rfl := Subtype.ext hsame
        rw [h.inodes hfound hid]
        exact hplace
      · exact h.intents hi ht
    · rw [Disk.marker_putMarker, if_neg (by simp)] at hr
      exact h.receipts hr ht
  | @move place id contents intent hplace hrole hintent htarget hfind hid =>
    have hold : d.idAt place.1 place.2 = some id := Disk.idAt_eq_some.mpr ⟨contents, hfind⟩
    refine ⟨h.inodes.move hfind, fun hi ht => ⟨(h.intents hi ht).1, fun hfound hsame => ?_⟩,
      fun hr ht => ⟨(h.receipts hr ht).1, fun hfound => ?_⟩⟩
    · rcases idAt_moved hfind hfound with ⟨hnew, hi₁⟩ | ⟨-, hi₁⟩
      · -- another intent for this inode is for the same copy, since the inode is in the place of that copy
        rcases (h.intents hi ht).2 hi₁ hsame with hthere | hthere
        · refine Or.inr (hnew.trans ?_)
          rcases hof.place hplace with ⟨hc, ha⟩ | ⟨hc, ha⟩ <;> rcases ht.place hthere with ⟨hc', ha'⟩ | ⟨hc', ha'⟩ <;>
            simp_all
        · rcases hof.place hplace with ⟨-, ha⟩ | ⟨-, ha⟩ <;> simp_all
      · exact (h.intents hi ht).2 hi₁ hsame
    · rcases idAt_moved hfind hfound with ⟨-, hi₁⟩ | ⟨-, hi₁⟩ <;> exact (h.receipts hr ht).2 hi₁
  | @refill id old contents intent hintent htarget hfind hid =>
    rw [← Disk.setContents_of hfind contents]
    refine h.of_finds idAt_setContents fun _ => ?_
    rw [Disk.setContents_of hfind]
    rfl
  | clear => exact h.of_finds (fun hi => (Disk.idAt_erase hi).2) fun _ => rfl
  | @receipt place intent hplace hintent htarget hgone hretired =>
    subst htarget
    refine ⟨h.inodes, fun hi ht => ?_, fun hr ht => ?_⟩
    · rw [Disk.marker_putMarker, if_neg (by simp)] at hi
      exact h.intents hi ht
    · rw [Disk.marker_putMarker] at hr
      split at hr
      · obtain rfl := Marker.receipt.inj (Option.some.inj hr)
        obtain ⟨hpast, hplaces⟩ := h.intents hintent hof
        refine ⟨hpast, fun hfound hsame => ?_⟩
        obtain ⟨contents, hfind⟩ := Disk.idAt_eq_some.mp hfound
        rcases hplaces hfound hsame with hthere | hthere
        · obtain rfl := Option.some.inj (hplace.symm.trans hthere)
          exact absurd (hgone.symm.trans hfind) (by simp)
        · obtain ⟨rfl, rfl⟩ := Prod.mk.inj hthere
          exact absurd (hretired.symm.trans hfind) (by simp)
      · exact h.receipts hr ht
  | @forget m hm =>
    refine h.of_finds (fun hi => hi) fun {m'} hc => ?_
    rw [Disk.marker_eraseMarker, if_neg]
    rintro rfl
    rcases hm with rfl | rfl <;> simp [MarkerName.cleans] at hc

/-! ### One run on the Pool -/

/-- The controller goes on beside a run, and no further back than the point of no return. -/
def siteSetting (moveName moveUID : String) : Setting SiteApi where
  later a b := WorldSound a.world → WorldSound b.world ∧ (a.world.Past moveName → b.world.Past moveName)
  refl _ hw := ⟨hw, fun h => h⟩
  trans hab hbc hw := ⟨(hbc (hab hw).1).1, fun h => (hbc (hab hw).1).2 ((hab hw).2 h)⟩
  inv h := WorldSound h.api.world ∧ Truthful moveUID (h.api.world.Past moveName) h.disk
  stable hlater h := ⟨(hlater h.1).1, h.2.later (hlater h.1).2⟩

theorem siteSetting_lasting : (siteSetting moveName moveUID).Lasting fun _ => True := fun _ _ => trivial

/-- Once a copy or a promotion is authorized, the rest of its run is safe: nothing was cleaned up by then, and under
    the lock nothing is while it runs. -/
theorem transfer_keeps {α : Type} {p : NodeOp SiteApi α} (hp : Transfers p) (h : Untouched moveUID d) :
    (siteSetting moveName moveUID).Keeps (fun _ => True) d p fun _ _ => True := by
  intro api _ hi
  have hkeeps := hp.keeps (R := (siteSetting moveName moveUID).rely)
    (I := fun t => WorldSound t.api.world ∧ Untouched moveUID t.disk ∧ t.disk.Distinct) ?_ ?_ ⟨hi.1, h, hi.2.inodes⟩
  · exact hkeeps.weaken (fun ht => ⟨ht.1, ht.2.1.truthful ht.2.2⟩) fun _ _ ht => ⟨trivial, trivial, ht.1, ht.2.1.truthful ht.2.2⟩
  · rintro s t ⟨hdisk, hlater⟩ ⟨hw, hu, hd⟩
    exact ⟨(hlater hw).1, hdisk ▸ hu, hdisk ▸ hd⟩
  · rintro s t ⟨hapi, hwrite⟩ ⟨hw, hu, hd⟩
    exact ⟨hapi ▸ hw, hwrite.untouched hu hd⟩

theorem helper_keeps {α : Type} {action : MoveAction} {f : Unit → NodeOp SiteApi α}
    (hp : Transfers (consult (helperAuthority { moveName, moveUID, operationID } action target) >>= f)) :
    (siteSetting moveName moveUID).Keeps (fun _ => True) d
      (consult (helperAuthority { moveName, moveUID, operationID } action target) >>= f) fun _ _ => True := by
  refine keeps_consult siteSetting_lasting (fun _ _ => trivial) (fun api _ hi hgranted => ⟨trivial, ?_⟩) (by simp)
  refine transfer_keeps ?_ (hi.2.untouched (helperAuthority_present hgranted))
  have hrest : Transfers (Proc.bind (.done (helperAuthority { moveName, moveUID, operationID } action target api)) f) :=
    (hp ⟨d, api⟩).2
  rw [hgranted] at hrest
  exact hrest

theorem Transfers.of_ensure {α : Type} {c : Prop} [Decidable c] {e : Fault} {f : Unit → NodeOp SiteApi α}
    (hp : Transfers (.ensure c e >>= f)) (hc : c) : Transfers (f ()) := by
  rw [Proc.ensure, if_pos hc] at hp
  exact hp

variable {receiptDigest : Receipt → String}

theorem Job.program_keeps {job : Job} {p : NodeOp SiteApi Unit} (hm : MoveSound m)
    (h : job.program moveName moveUID receiptDigest m = .ok p) :
    (siteSetting moveName moveUID).Keeps (fun _ => True) d p fun _ _ => True := by
  cases job with
  | copy operationID fresh population =>
    rw [Job.program] at h
    split at h
    · simp at h
    rw [seq_ok] at h
    obtain rfl := pure_ok.mp h.2
    refine keeps_bind (keeps_ensure (fun hc => ?_) fun _ => trivial)
    exact helper_keeps (populateIncoming_transfers.of_ensure hc)
  | promote operationID =>
    rw [Job.program] at h
    split at h
    · rw [seq_ok] at h
      obtain rfl := pure_ok.mp h.2
      refine keeps_bind (keeps_ensure (fun hc => ?_) fun _ => trivial)
      exact helper_keeps (promoteIncoming_transfers.of_ensure hc)
    · simp at h
  | reclaim approved =>
    rw [Job.program, seq_ok, require_ok] at h
    obtain ⟨⟨rfl, hauthority, hreason, htarget⟩, h⟩ := h
    obtain rfl := pure_ok.mp h
    have hof := (hm.ofMove htarget).1
    have hreclaim : (siteSetting moveName m.uid).Keeps (fun _ => True) d
        (reclaimWithResume receiptDigest approved.spec.target approved.spec.operationID fun _ => reclaimAuthority approved)
        fun _ _ => True := by
      refine reclaimWithResume_writes (G := fun api => WorldSound api.world ∧ api.world.Past moveName) ?_ ?_ ?_
      · intro a b hlater ha
        exact ⟨(hlater ha.1).1, (hlater ha.1).2 ha.2⟩
      · intro b d' api hi hgranted
        exact ⟨hi.1, reclaimAuthority_past hi.1 hauthority hreason hgranted⟩
      · rintro d₁ d₂ api ⟨hw, ht⟩ hwrite
        exact ⟨hw, (hwrite.truthful hof (ht.later fun h => ⟨hw, h⟩)).later And.right⟩
    refine keeps_bind (hreclaim.mono fun r d' _ => ?_)
    cases r with
    | ok _ => exact keeps_pure trivial
    | error _ => trivial

/-! ### Runs of the site -/

/-- The Pool is truthful, and what is left of the run that holds the lock keeps it so. -/
structure SiteSound (moveName moveUID : String) (site : Site) : Prop where
  host : (siteSetting moveName moveUID).inv site.host
  running : ∀ p, site.running = some p → p.Meets (siteSetting moveName moveUID).rely
    (fun _ t => (siteSetting moveName moveUID).inv t) (fun _ _ => True) site.host

theorem SiteSound.later {site : Site} {api : SiteApi} (h : SiteSound moveName moveUID site)
    (hlater : (siteSetting moveName moveUID).later site.host.api api) :
    SiteSound moveName moveUID { site with host := { site.host with api } } := by
  refine ⟨(siteSetting moveName moveUID).stable hlater h.host, fun p hp => ?_⟩
  exact (h.running p hp).disturbed rely_trans (fun _ _ => trivial) ⟨rfl, hlater⟩

theorem SiteSound.step {site site' : Site} {act : SiteAct}
    (h : SiteSound moveName moveUID site) (hs : site.step moveName moveUID receiptDigest act = .ok site') :
    SiteSound moveName moveUID site' := by
  cases act with
  | controller act =>
    rw [Site.step, bind_ok] at hs
    obtain ⟨world, hworld, hs⟩ := hs
    obtain rfl := pure_ok.mp hs
    refine h.later fun hw => ⟨hw.step (World.step_inv hworld), fun hpast => hpast.step hw (World.step_inv hworld)⟩
  | surroundings executor pools =>
    obtain rfl := pure_ok.mp hs
    exact h.later fun hw => ⟨hw, fun hpast => hpast⟩
  | start job =>
    rw [Site.step, seq_ok, bind_ok] at hs
    obtain ⟨-, move, hmove, hs⟩ := hs
    rw [bind_ok] at hs
    obtain ⟨program, hprogram, hs⟩ := hs
    obtain rfl := pure_ok.mp hs
    refine ⟨h.host, fun p hp => ?_⟩
    obtain rfl := Option.some.inj hp
    have hkeeps := Job.program_keeps (d := site.host.disk) (h.host.1.moveSound (Store.move_inv hmove)) hprogram
    exact (hkeeps site.host.api trivial h.host).mono fun _ _ _ => trivial
  | advance =>
    rw [Site.step] at hs
    split at hs
    · rename_i act next hrunning
      obtain rfl := pure_ok.mp hs
      obtain ⟨hinv, hnext⟩ := h.running _ hrunning site.host (rely_refl _)
      refine ⟨hinv, fun p hp => ?_⟩
      obtain rfl := Option.some.inj hp
      exact hnext
    · simp at hs
  | leave =>
    obtain rfl := pure_ok.mp hs
    exact ⟨h.host, by simp⟩

theorem SiteRun.sound {l : List Site} (hr : SiteRun moveName moveUID receiptDigest l) :
    ∀ site ∈ l, SiteSound moveName moveUID site := by
  refine Run.forall_mem ?_ ?_ hr
  · rintro site ⟨⟨past, hworld⟩, hidle, hinodes, hintents, hreceipts⟩
    have huntouched : Untouched moveUID site.host.disk := by
      refine ⟨fun hi => ?_, fun hr => ?_⟩
      · rintro (⟨hc, -⟩ | ⟨hc, -⟩)
        exacts [(hintents hi).1 hc, (hintents hi).2 hc]
      · rintro (⟨hc, -⟩ | ⟨hc, -⟩)
        exacts [(hreceipts hr).1 hc, (hreceipts hr).2 hc]
    exact ⟨⟨WorldRun.sound hworld _ (by simp), huntouched.truthful fun _ _ _ _ _ h₁ h₂ => hinodes h₁ h₂⟩, by simp [hidle]⟩
  · intro site site' past act _ hsound hs
    exact (hsound site (by simp)).step (Run.onHead_cons.mp hs)

/-- Whenever a receipt for the incoming or the destination copy of the Move is on the disk, no directory of the Pool
    has the inode that it names, however the copies, promotions and rollbacks of the Move were interleaved, stopped
    and repeated. -/
theorem receipts_truthful {site : Site} {past : List Site}
    (hr : SiteRun moveName moveUID receiptDigest (site :: past)) (hm : site.host.api.world.store.moves.find moveName = some m)
    (huid : m.uid = moveUID) {receipt : Receipt}
    (hreceipt : site.host.disk.marker (.receipt operationID) = some (.receipt receipt))
    (htarget : moveOwnsDestinationArtifact m receipt.target) (area : Area) (name : String) (id : LiveID)
    (hid : site.host.disk.idAt area name = some id) : id.val ≠ receipt.id := by
  have hsound := SiteRun.sound hr site (by simp)
  have hof := ((hsound.host.1.moveSound hm).ofMove htarget).1
  rw [huid] at hof
  exact (hsound.host.2.receipts hreceipt hof).2 hid

/-! A Move whose copy failed, and the rollback of what it left on its destination Pool. -/

def failedCluster : ClusterFacts :=
  { settledCluster with facts := { settledCluster.facts with copyComplete := false, copyFailed := true } }

def sampleIncoming : CopyIdentity :=
  (moveTransactionCopies "move-1" sampleVolumeID (preparationAnchor sampleCopy samplePreparation)).1

def rollbackJournal : Journal where
  spec := { operationID := moveRollbackOperationID "move-1", target := sampleIncoming, reason := .moveRollback
            authority := { kind := .shiftPVMove, name := "move", uid := "move-1" } }
  status := { samplePurge with
    phase := .running, receipt := none, absenceProof := none, settledAt := .absent
    executor := some { kind := .node, namespaceName := "shiftpv", podName := "node-b-pod", jobName := "", jobUID := ""
                       podUID := "node-b-pod-uid", nodeName := "node-b" } }

def rollbackWorlds : List World :=
  replayedWorlds (fun _ _ => true) sampleStore <| creationActs ++ claimActs "move" "move-1" "node-a" ++
    approvalActs "move" samplePreparation.pool "node-b" ++ recorded "move" settledCluster [] ++
    recorded "move" failedCluster [.write "move"] ++ [.external (.move "move" (.setRecovery "ResumeOwner"))] ++
    recorded "move" settledCluster [] ++ recorded "move" settledCluster [] ++ recorded "move" settledCluster [] ++
    stopped "move" settledCluster [.evidence "move" (.scan 3)] ++
    stopped "move" settledCluster [.journal "move" (some sampleIncoming)] ++
    [.external (.move "move" (.updateCleanup rollbackJournal.spec rollbackJournal.status))]

def bareDisk : Disk where
  areas _ := none
  markers := ∅

theorem rollbackInode_known : FileID.known ⟨1, 9⟩ = true := rfl

def rollbackDisk : Disk :=
  (((bareDisk.put .incoming sampleIncoming.copyID (.directory ⟨⟨1, 9⟩, rollbackInode_known⟩ (.file "data" .empty))).putMarker
    .pool (.pool ⟨"install", "pool-b-uid"⟩)).putMarker
    (.copy sampleIncoming.copyID) (.copy sampleIncoming)).putMarker
    (.placement sampleIncoming.copyID) (.placement ⟨sampleIncoming, ⟨1, 9⟩⟩)

def rollbackSite (w : World) : Site where
  host :=
    { disk := rollbackDisk
      api := { world := w
               executor := { ownedMoveJob := fun _ _ => .error "no Job", installationID := .ok "install"
                             poolForIdentity := fun _ => .error "no Pool", localAuthority := fun _ => .ok () }
               pools := fun _ => none } }
  running := none

def rollbackRun (w : World) : List Site :=
  Run.replay (Site.step "move" "move-1" fun _ => "digest") (rollbackSite w) []
    (.start (.reclaim rollbackJournal) :: List.replicate 24 .advance)

def rolledBack : Bool := rollbackWorlds.head?.any fun w => (rollbackRun w).head?.any fun site =>
  (site.host.api.world.store.moves.find "move").any fun m => m.uid = "move-1" &&
    moveOwnsDestinationArtifact m sampleIncoming &&
    site.host.disk.marker (.receipt (moveRollbackOperationID "move-1")) =
      some (.receipt ⟨moveRollbackOperationID "move-1", sampleIncoming, ⟨1, 9⟩, true, true⟩)

theorem rollbackDisk_incoming {area : Area} {name : String} {id : LiveID} (h : rollbackDisk.idAt area name = some id) :
    (area, name) = (.incoming, sampleIncoming.copyID) := by
  simp only [rollbackDisk, Disk.idAt, Disk.find_putMarker, Disk.find_put] at h
  split at h
  · rename_i hsame
    rw [hsame.1, hsame.2]
  · simp [Disk.find, bareDisk] at h

theorem rollbackDisk_uncleaned {m : MarkerName} (hm : m.cleans) : rollbackDisk.marker m = none := by
  cases m with
  | cleanup | receipt =>
    simp only [rollbackDisk, Disk.marker_putMarker, Disk.marker_put, reduceCtorEq, if_false]
    rfl
  | _ => simp [MarkerName.cleans] at hm

theorem rollbackSite_initial {w : World} {past : List World} (hr : WorldRun (w :: past)) :
    (rollbackSite w).Initial "move-1" where
  world := ⟨past, hr⟩
  idle := rfl
  inodes h₁ h₂ := (rollbackDisk_incoming h₁).trans (rollbackDisk_incoming h₂).symm
  intents h := absurd ((rollbackDisk_uncleaned rfl).symm.trans h) (by simp)
  receipts h := absurd ((rollbackDisk_uncleaned rfl).symm.trans h) (by simp)

/-- The receipt of the rollback is on the disk, and its inode is gone. -/
theorem receipts_truthful_rollback : ∃ site past, SiteRun "move" "move-1" (fun _ => "digest") (site :: past) ∧
    site.host.disk.marker (.receipt (moveRollbackOperationID "move-1")) =
      some (.receipt ⟨moveRollbackOperationID "move-1", sampleIncoming, ⟨1, 9⟩, true, true⟩) ∧
    ∀ area name id, site.host.disk.idAt area name = some id → id.val ≠ ⟨1, 9⟩ := by
  have hdone : rolledBack = true := by decide +kernel
  cases hw : rollbackWorlds with
  | nil => simp [rolledBack, hw] at hdone
  | cons w worlds =>
    cases hs : rollbackRun w with
    | nil => simp [rolledBack, hw, hs] at hdone
    | cons site past =>
      simp only [rolledBack, hw, hs, List.head?_cons, Option.any_some, Option.any_eq_true, Bool.and_eq_true,
        decide_eq_true_eq] at hdone
      obtain ⟨m, hm, ⟨huid, htarget⟩, hreceipt⟩ := hdone
      have hworld : WorldRun (w :: worlds) := GuardedRun.worldRun (replayedWorlds_run sampleStore_initial hw)
      have hrun : SiteRun "move" "move-1" (fun _ => "digest") (site :: past) :=
        Run.replay_run (.start (rollbackSite_initial hworld)) hs
      exact ⟨site, past, hrun, hreceipt, receipts_truthful hrun hm huid hreceipt htarget⟩

end ShiftPV
