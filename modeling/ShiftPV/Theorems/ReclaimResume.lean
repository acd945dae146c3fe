import ShiftPV.Theorems.ReclaimLogic

/-! Reclaim after crashes. What a reclaim has done can be read off the disk: the recorded inode is in its place, in
    the retired directory, or nowhere, and the markers say the rest. Every run goes on from there, whatever others do
    off the paths of the copy, and all of them end with one receipt. -/

namespace ShiftPV
open NodeOp ReclaimCase

variable {Api α : Type} {c : ReclaimCase} {I : Disk → Prop} {d : Disk} {p : NodeOp Api α}

/-! ### Emptying a directory -/

theorem inner_meets {name : String} {below rest : Contents} {p : Proc Contents Fault Unit} {I J : Contents → Prop}
    {Q Q' : Except Fault Unit → Contents → Prop} (h : p.Meets (· = ·) (fun _ x => I x) Q below)
    (hstep : ∀ b, I b → J (.folder name b rest)) (hend : ∀ r b, Q r b → Q' r (.folder name b rest)) :
    (p.zoom (Contents.inner name) (Contents.setInner name)).Meets (· = ·) (fun _ x => J x) Q'
      (.folder name below rest) := by
  refine Proc.Meets.zoom (K := fun y => ∃ b, y = .folder name b rest) (by simpa [Contents.inner] using h) ⟨below, rfl⟩
    ?_ ?_ ?_
  · rintro y _ hy rfl
    exact ⟨hy, rfl⟩
  · rintro _ b ⟨_, rfl⟩ hb
    simp only [Contents.setInner, if_true, Contents.inner, and_true]
    exact ⟨hstep b hb, b, rfl⟩
  · rintro _ r ⟨b, rfl⟩ hq
    exact hend r b (by simpa [Contents.inner] using hq)

theorem purgeContents_empties : ∀ {left : Nat} {c : Contents}, c.depth < left →
    (purgeContents left).Meets (· = ·) (fun _ x => x.depth < left) (fun r x => r = .ok () ∧ x = .empty) c
  | 0, _, h => absurd h (Nat.not_lt_zero _)
  | left + 1, c, h => by
    refine Proc.meets_bind.mpr (Proc.meets_read.mpr fun _ hc => ?_)
    obtain rfl := hc
    refine ⟨h, Proc.meets_forEach (J := fun names x => x.names = names ∧ x.depth < left + 1) ?_ ?_ ⟨rfl, h⟩⟩
    · rintro name names x ⟨hnames, hx⟩
      refine Proc.meets_bind.mpr (Proc.meets_read.mpr fun _ hc => ⟨hc ▸ hx, ?_⟩)
      obtain rfl := hc
      cases x with
      | empty => simp [Contents.names] at hnames
      | file other rest =>
        obtain ⟨rfl, hrest⟩ := List.cons.inj hnames
        have hdepth : rest.depth < left + 1 := hx
        simp only [Contents.isFolder, if_true, Option.elim_some]
        refine Proc.meets_atomic.mpr fun _ hc => ?_
        obtain rfl := hc
        simp only [Contents.unlink, Contents.isFolder, Contents.remove, if_true]
        exact ⟨hdepth, hrest, hdepth⟩
      | folder other below rest =>
        obtain ⟨rfl, hrest⟩ := List.cons.inj hnames
        simp only [Contents.depth, Nat.max_lt] at hx
        obtain ⟨hbelow, hdepth⟩ := hx
        simp only [Contents.isFolder, if_true, Option.elim_some]
        refine Proc.meets_bind.mpr (inner_meets (purgeContents_empties (by omega)) (fun b hb => ?_) fun r b hr => ?_)
        · simp only [Contents.depth, Nat.max_lt]
          exact ⟨by omega, hdepth⟩
        · obtain ⟨rfl, rfl⟩ := hr
          refine Proc.meets_atomic.mpr fun _ hc => ?_
          obtain rfl := hc
          simp only [Contents.unlink, Contents.isFolder, Contents.inner, Contents.remove, if_true]
          exact ⟨hdepth, hrest, hdepth⟩
    · rintro x ⟨hnames, -⟩
      cases x <;> simp_all [Contents.names]

theorem purgeContents_refuses : ∀ {left : Nat} {c : Contents}, left ≤ c.depth →
    (purgeContents left).Meets (· = ·) (fun _ _ => True) (fun r _ => r = .error (.refused "purge depth exceeds 256")) c
  | 0, _, _ => rfl
  | left + 1, c, h => by
    refine Proc.meets_bind.mpr (Proc.meets_read.mpr fun _ hc => ⟨trivial, ?_⟩)
    obtain rfl := hc
    -- the rest of the entries stays too deep until a round fails
    refine Proc.meets_forEach (J := fun names x => x.names = names ∧ left + 1 ≤ x.depth) ?_ ?_ ⟨rfl, h⟩
    · rintro name names x ⟨hnames, hx⟩
      refine Proc.meets_bind.mpr (Proc.meets_read.mpr fun _ hc => ⟨trivial, ?_⟩)
      obtain rfl := hc
      cases x with
      | empty => simp [Contents.names] at hnames
      | file other rest =>
        obtain ⟨rfl, hrest⟩ := List.cons.inj hnames
        simp only [Contents.isFolder, if_true, Option.elim_some]
        refine Proc.meets_atomic.mpr fun _ hc => ?_
        obtain rfl := hc
        simpa [Contents.unlink, Contents.isFolder, Contents.remove] using ⟨hrest, hx⟩
      | folder other below rest =>
        obtain ⟨rfl, hrest⟩ := List.cons.inj hnames
        simp only [Contents.isFolder, if_true, Option.elim_some]
        by_cases hdeep : left ≤ below.depth
        · refine Proc.meets_bind.mpr (inner_meets (purgeContents_refuses hdeep) (fun _ _ => trivial) ?_)
          rintro _ _ rfl
          rfl
        · have hlater : left + 1 ≤ rest.depth := by
            simp only [Contents.depth] at hx
            omega
          refine Proc.meets_bind.mpr (inner_meets (purgeContents_empties (Nat.lt_of_not_le hdeep)) (fun _ _ => trivial)
            fun r b hr => ?_)
          obtain ⟨rfl, rfl⟩ := hr
          refine Proc.meets_atomic.mpr fun _ hc => ?_
          obtain rfl := hc
          simpa [Contents.unlink, Contents.isFolder, Contents.inner, Contents.remove] using ⟨hrest, hlater⟩
    · rintro x ⟨hnames, hx⟩
      cases x <;> simp_all [Contents.names, Contents.depth]

/-! ### Progress -/

section Progress

variable (c : ReclaimCase) (id : LiveID) (d : Disk)

def reclaimIntent : LocalIntent := { operationID := c.operationID, target := c.target, id := id.val }

def reclaimReceipt (target : CopyIdentity) (operationID : String) (id : LiveID) : Receipt :=
  { operationID, target, id := id.val, retired := true, purged := true }

def HoldsInode (place : Area × String) : Prop :=
  ∃ contents, contents.depth < 257 ∧ d.find place.1 place.2 = some (.directory id contents)

/-- The markers of the copy still name the inode, and no receipt does. -/
structure Unsettled : Prop where
  copy : d.marker (.copy c.target.copyID) = some (.copy c.target)
  placement : d.marker (.placement c.target.copyID) = some (.placement { identity := c.target, id := id.val })
  receipt : d.marker (.receipt c.operationID) = none

structure Intended : Prop extends Unsettled c id d where
  intent : d.marker (.cleanup c.operationID) = some (.cleanup (reclaimIntent c id))

structure Waiting : Prop extends Unsettled c id d where
  place : HoldsInode id d c.place
  retired : c.place ≠ (.retired, c.target.copyID) → d.find .retired c.target.copyID = none
  intent : d.marker (.cleanup c.operationID) = none ∨
    d.marker (.cleanup c.operationID) = some (.cleanup (reclaimIntent c id))

structure Retired : Prop extends Intended c id d where
  place : d.find c.place.1 c.place.2 = none
  retired : HoldsInode id d (.retired, c.target.copyID)

structure Removed : Prop extends Intended c id d where
  place : d.find c.place.1 c.place.2 = none
  retired : d.find .retired c.target.copyID = none

structure Settled : Prop where
  place : d.find c.place.1 c.place.2 = none
  retired : d.find .retired c.target.copyID = none
  receipt : d.marker (.receipt c.operationID) = some (.receipt (reclaimReceipt c.target c.operationID id))
  placement : d.marker (.placement c.target.copyID) = some (.placement { identity := c.target, id := id.val }) ∨
    d.marker (.placement c.target.copyID) = none
  copy : d.marker (.copy c.target.copyID) = some (.copy c.target) ∨ d.marker (.copy c.target.copyID) = none

inductive Progress : Prop where
  | waiting (h : Waiting c id d)
  | retired (h : Retired c id d)
  | removed (h : Removed c id d)
  | settled (h : Settled c id d)

structure Reclaiming : Prop where
  pool : d.marker .pool = some (.pool { installationID := c.target.installationID, poolUID := c.target.poolUID })
  area : (d.areas c.place.1).isSome
  progress : Progress c id d

end Progress

variable {id : LiveID}

theorem HoldsInode.idAt {place : Area × String} (h : HoldsInode id d place) : d.idAt place.1 place.2 = some id := by
  obtain ⟨contents, -, hfind⟩ := h
  exact Disk.idAt_eq_some.mpr ⟨contents, hfind⟩

theorem HoldsInode.opens {area : Area} {name : String} {api : Api} (h : HoldsInode id d (area, name)) :
    value (openIdentityDirectory area name (reclaimIntent c id).id) d api = .ok () :=
  openIdentityDirectory_ok.mpr ⟨id, h.idAt, rfl⟩

theorem HoldsInode.of_find {d' : Disk} {area : Area} {name : String} (h : HoldsInode id d (area, name))
    (hf : d'.find area name = d.find area name) : HoldsInode id d' (area, name) := by
  obtain ⟨contents, hdepth, hfind⟩ := h
  exact ⟨contents, hdepth, hf.trans hfind⟩

theorem Unsettled.of_markers {d' : Disk} (h : Unsettled c id d) (hm : ∀ m ≠ .cleanup c.operationID, d'.marker m = d.marker m) :
    Unsettled c id d' :=
  ⟨(hm _ (by simp)).trans h.copy, (hm _ (by simp)).trans h.placement, (hm _ (by simp)).trans h.receipt⟩

theorem Intended.of_markers {d' : Disk} (h : Intended c id d) (hm : ∀ m, d'.marker m = d.marker m) : Intended c id d' :=
  ⟨h.toUnsettled.of_markers fun m _ => hm m, (hm _).trans h.intent⟩

theorem Reclaiming.intended (hd : Reclaiming c id d) (hreceipt : d.marker (.receipt c.operationID) = none)
    (hintent : d.marker (.cleanup c.operationID) ≠ none) : Intended c id d := by
  cases hd.progress with
  | waiting h => exact ⟨h.toUnsettled, h.intent.resolve_left hintent⟩
  | retired h | removed h => exact h.toIntended
  | settled h => exact absurd (hreceipt.symm.trans h.receipt) (by simp)

/-! ### The steps of a run -/

structure Purgeable (c : ReclaimCase) (id : LiveID) (d : Disk) : Prop extends Intended c id d where
  made : (d.areas .retired).isSome
  place : c.place ≠ (.retired, c.target.copyID) → d.find c.place.1 c.place.2 = none
  retired : HoldsInode id d (.retired, c.target.copyID) ∨ d.find .retired c.target.copyID = none

theorem Purgeable.progress (hp : Purgeable c id d) : Progress c id d := by
  by_cases hsame : c.place = (.retired, c.target.copyID)
  · rcases hp.retired with hholds | hgone
    · exact .waiting ⟨hp.toUnsettled, hsame ▸ hholds, fun hne => absurd hsame hne, Or.inr hp.intent⟩
    · exact .removed ⟨hp.toIntended, by rw [hsame]; exact hgone, hgone⟩
  · rcases hp.retired with hholds | hgone
    · exact .retired ⟨hp.toIntended, hp.place hsame, hholds⟩
    · exact .removed ⟨hp.toIntended, hp.place hsame, hgone⟩

theorem Purgeable.put {contents : Contents} (hp : Purgeable c id d) (hdepth : contents.depth < 257) :
    Purgeable c id (d.put .retired c.target.copyID (.directory id contents)) := by
  refine ⟨hp.toIntended.of_markers fun _ => rfl, Disk.areas_put hp.made, fun hne => ?_,
    .inl ⟨contents, hdepth, Disk.find_put_self⟩⟩
  rw [Disk.find_put, if_neg fun h => hne (Prod.ext h.1 h.2)]
  exact hp.place hne

theorem Purgeable.erase (hp : Purgeable c id d) : Purgeable c id (d.erase .retired c.target.copyID) := by
  refine ⟨hp.toIntended.of_markers fun _ => rfl, Disk.areas_erase hp.made, fun hne => ?_, .inr Disk.find_erase_self⟩
  rw [Disk.find_erase, if_neg fun h => hne (Prod.ext h.1 h.2)]
  exact hp.place hne

theorem Reclaiming.makeArea (hd : Reclaiming c id d) (hi : Intended c id d) :
    Reclaiming c id (d.makeArea .retired) ∧ Intended c id (d.makeArea .retired) := by
  have hi' : Intended c id (d.makeArea .retired) := hi.of_markers fun _ => Disk.marker_makeArea
  refine ⟨⟨Disk.marker_makeArea.trans hd.pool, Disk.areas_makeArea_of hd.area, ?_⟩, hi'⟩
  cases hd.progress with
  | waiting h =>
    exact .waiting ⟨hi'.toUnsettled, h.place.of_find Disk.find_makeArea, fun hne => Disk.find_makeArea.trans (h.retired hne),
      .inr hi'.intent⟩
  | retired h => exact .retired ⟨hi', Disk.find_makeArea.trans h.place, h.retired.of_find Disk.find_makeArea⟩
  | removed h => exact .removed ⟨hi', Disk.find_makeArea.trans h.place, Disk.find_makeArea.trans h.retired⟩
  | settled h => exact absurd (hi.receipt.symm.trans h.receipt) (by simp)

theorem off_retired {area : Area} {name : String} (hoff : ¬CopyPath c.target (area, name)) :
    ¬(area = .retired ∧ name = c.target.copyID) := fun h => hoff (.inr (Prod.ext h.1 h.2))

theorem retire_endures (hd : Reclaiming c id d) (hi : Intended c id d) :
    c.Endures (Reclaiming c id) d (retire c.target (reclaimIntent c id) : NodeOp Api Unit) fun r d' =>
      r = .ok () ∧ Reclaiming c id d' ∧ Purgeable c id d' := by
  have hmade := hd.makeArea hi
  refine endures_bind (endures_change hd fun e he => ⟨⟨_, he.makeArea, hmade.1, ?_⟩, fun _ _ _ => Disk.find_makeArea⟩)
  have harea : ((d.makeArea .retired).areas .retired).isSome := Disk.areas_makeArea
  obtain ⟨hd₁, hi₁⟩ := hmade
  generalize d.makeArea .retired = d₁ at hd₁ hi₁ harea
  refine endures_look (steady_openRoleParent hd₁.area) hd₁ (fun _ => openRoleParent_ok.mpr ⟨c.role, hd₁.area⟩) ?_
  refine endures_attempt (steady_openIdentityDirectory (.inl c.role)) hd₁ fun api => ?_
  have hdestination : c.Steady d₁ (openIdentityDirectory .retired c.target.copyID (reclaimIntent c id).id : NodeOp Api Unit) :=
    steady_openIdentityDirectory (.inr rfl)
  cases hd₁.progress with
  | waiting h =>
    rw [h.place.opens]
    by_cases hr : c.target.role = .retired
    · simp only [hr, if_true]
      have hsame := c.place_retired.mpr hr
      exact endures_pure ⟨rfl, hd₁, hi₁, harea, fun hne => absurd hsame hne, .inl (hsame ▸ h.place)⟩
    · have hne : c.place ≠ (.retired, c.target.copyID) := fun h => hr (c.place_retired.mp h)
      simp only [hr, if_false]
      refine endures_attempt hdestination hd₁ fun api => ?_
      obtain ⟨e, he, hmissing⟩ := openIdentityDirectory_missing.mpr (h.retired hne)
      rw [he]
      simp only [hmissing, if_true]
      obtain ⟨contents, hdepth, hfind⟩ := h.place
      have hp : Purgeable c id ((d₁.erase c.place.1 c.place.2).put .retired c.target.copyID (.directory id contents)) := by
        refine ⟨hi₁.of_markers fun _ => rfl, Disk.areas_put (Disk.areas_erase harea), fun _ => ?_,
          .inl ⟨contents, hdepth, Disk.find_put_self⟩⟩
        rw [Disk.find_put, if_neg fun h => hne (Prod.ext h.1 h.2)]
        exact Disk.find_erase_self
      have hd₂ : Reclaiming c id ((d₁.erase c.place.1 c.place.2).put .retired c.target.copyID (.directory id contents)) :=
        ⟨hd₁.pool, Disk.areas_put (Disk.areas_erase hd₁.area), hp.progress⟩
      refine endures_change hd₁ fun e he => ?_
      simp only [he.find (.inl c.role), he.find (.inr rfl), hfind, h.retired hne]
      refine ⟨⟨_, he.erase.put, hd₂, trivial, hd₂, hp⟩, fun area name hoff => ?_⟩
      rw [Disk.find_put, if_neg (off_retired hoff), Disk.find_erase,
        if_neg fun h => hoff (.inl (c.role.trans (congrArg some (Prod.ext h.1.symm h.2.symm))))]
  | retired h =>
    obtain ⟨e, he, hmissing⟩ := openIdentityDirectory_missing.mpr h.place
    have hr : c.target.role ≠ .retired := by
      intro hr
      obtain ⟨contents, -, hfind⟩ := h.retired
      have hplace := h.place
      rw [c.place_retired.mpr hr, hfind] at hplace
      simp at hplace
    rw [he]
    simp only [hr, if_false]
    refine endures_attempt hdestination hd₁ fun api => ?_
    rw [h.retired.opens]
    simp only [hmissing, if_true]
    exact endures_pure ⟨rfl, hd₁, hi₁, harea, fun _ => h.place, .inl h.retired⟩
  | removed h =>
    obtain ⟨e, he, hmissing⟩ := openIdentityDirectory_missing.mpr h.place
    have hend : Purgeable c id d₁ := ⟨hi₁, harea, fun _ => h.place, .inr h.retired⟩
    rw [he]
    by_cases hr : c.target.role = .retired
    · simp only [hr, if_true, hmissing]
      exact endures_pure ⟨rfl, hd₁, hend⟩
    · simp only [hr, if_false]
      refine endures_attempt hdestination hd₁ fun api => ?_
      obtain ⟨e', he', hmissing'⟩ := openIdentityDirectory_missing.mpr h.retired
      rw [he']
      simp only [hmissing, hmissing', if_true, Bool.not_true, Bool.false_eq_true, if_false]
      exact endures_pure ⟨rfl, hd₁, hend⟩
  | settled h => exact absurd (hi₁.receipt.symm.trans h.receipt) (by simp)

theorem purgeRetired_endures (hd : Reclaiming c id d) (hp : Purgeable c id d) :
    c.Endures (Reclaiming c id) d (purgeRetired (reclaimIntent c id) : NodeOp Api Unit) fun r d' =>
      r = .ok () ∧ Reclaiming c id d' ∧ Removed c id d' := by
  have hpath : CopyPath c.target (.retired, c.target.copyID) := .inr rfl
  have hopen : c.Steady d (ifExists (openDirectory .retired c.target.copyID) : NodeOp Api (Option LiveID)) :=
    steady_ifExists (steady_openDirectory hpath) openDirectory_views
  refine endures_look (a := ()) (steady_openArea hp.made) hd (fun _ => openArea_ok.mpr hp.made) ?_
  rcases hp.retired with ⟨contents, hdepth, hfind⟩ | hgone
  · have hholds : HoldsInode id d (.retired, c.target.copyID) := ⟨contents, hdepth, hfind⟩
    refine endures_look hopen hd (fun _ => value_ifExists_some.mpr (openDirectory_ok.mpr hholds.idAt)) ?_
    refine endures_ensure (fun _ => endures_bind ?_) fun h => absurd rfl h
    have hpurged : c.Endures (Reclaiming c id) d
        ((purgeContents 257).zoom (fun h => h.disk.contentsAt .retired c.target.copyID)
          (fun contents h => { h with disk := h.disk.setContents .retired c.target.copyID contents }) : NodeOp Api Unit)
        fun r d' => r = .ok () ∧ Reclaiming c id d' ∧ Purgeable c id d' ∧
          d'.find .retired c.target.copyID = some (.directory id .empty) := by
      intro h hh
      have hfocus : h.disk.contentsAt .retired c.target.copyID = contents := by
        simp [Disk.contentsAt, hh.find hpath, hfind]
      refine Proc.Meets.zoom (I := fun x => x.depth < 257) (Q := fun r x => r = .ok () ∧ x = .empty)
        (K := fun t => ∃ d' x, LeftAlone c.target c.operationID d' t.disk ∧ Reclaiming c id d' ∧ Purgeable c id d' ∧
          d'.find .retired c.target.copyID = some (.directory id x)) ?_ ⟨d, contents, hh, hd, hp, hfind⟩ ?_ ?_ ?_
      · rw [hfocus]
        exact purgeContents_empties hdepth
      · rintro t u ⟨d', x, ht, hrest⟩ htu
        exact ⟨⟨d', x, ht.trans htu, hrest⟩, by simp only [Disk.contentsAt, htu.find hpath]⟩
      · rintro t x ⟨d', y, ht, hd', hp', hy⟩ hx
        rw [Disk.setContents_of ((ht.find hpath).trans hy)]
        have hp₂ := hp'.put hx
        have hd₂ : Reclaiming c id (d'.put .retired c.target.copyID (.directory id x)) :=
          ⟨hd'.pool, Disk.areas_put hd'.area, hp₂.progress⟩
        refine ⟨⟨⟨_, ht.put, hd₂⟩, fun area name hoff => ?_⟩, ⟨_, x, ht.put, hd₂, hp₂, Disk.find_put_self⟩,
          by simp [Disk.contentsAt]⟩
        rw [Disk.find_put, if_neg (off_retired hoff)]
      · rintro t r ⟨d', x, ht, hd', hp', hx⟩ ⟨rfl, hempty⟩
        obtain rfl : x = .empty := by simpa [Disk.contentsAt, ht.find hpath, hx] using hempty
        exact ⟨d', ht, rfl, hd', hp', hx⟩
    refine hpurged.mono fun r d' h => ?_
    obtain ⟨rfl, hd', hp', hfind'⟩ := h
    have hplace : (d'.erase .retired c.target.copyID).find c.place.1 c.place.2 = none := by
      by_cases hsame : c.place = (.retired, c.target.copyID)
      · rw [hsame]
        exact Disk.find_erase_self
      · exact hp'.erase.place hsame
    have hremoved : Removed c id (d'.erase .retired c.target.copyID) := ⟨hp'.erase.toIntended, hplace, Disk.find_erase_self⟩
    have hd₂ : Reclaiming c id (d'.erase .retired c.target.copyID) := ⟨hd'.pool, Disk.areas_erase hd'.area, .removed hremoved⟩
    refine endures_change hd' fun e he => ?_
    simp only [reclaimIntent, he.find hpath, hfind']
    exact ⟨⟨_, he.erase, hd₂, trivial, hd₂, hremoved⟩, fun _ _ hoff => by rw [Disk.find_erase, if_neg (off_retired hoff)]⟩
  · refine endures_look hopen hd (fun _ => value_ifExists_none.mpr (openDirectory_missing.mpr hgone)) ?_
    refine endures_pure ⟨rfl, hd, hp.toIntended, ?_, hgone⟩
    by_cases hsame : c.place = (.retired, c.target.copyID)
    · rw [hsame]
      exact hgone
    · exact hp.place hsame

theorem Settled.of_same {d' : Disk} {m : MarkerName} (hs : Settled c id d) (hsame : d.SameBut m d')
    (hnone : d'.marker m = none) (hm : m ≠ .receipt c.operationID) : Settled c id d' := by
  refine ⟨(hsame.find _ _).trans hs.place, (hsame.find _ _).trans hs.retired, (hsame.marker hm.symm).trans hs.receipt, ?_, ?_⟩
  · by_cases h : m = .placement c.target.copyID
    · exact .inr (h ▸ hnone)
    · rw [hsame.marker (Ne.symm h)]
      exact hs.placement
  · by_cases h : m = .copy c.target.copyID
    · exact .inr (h ▸ hnone)
    · rw [hsame.marker (Ne.symm h)]
      exact hs.copy

theorem removeCopyMetadata_endures (hd : Reclaiming c id d) (hs : Settled c id d) :
    c.Endures (Reclaiming c id) d (removeCopyMetadata c.target id.val : NodeOp Api Unit) fun r d' =>
      r = .ok () ∧ Settled c id d' ∧ d'.marker (.placement c.target.copyID) = none ∧
        d'.marker (.copy c.target.copyID) = none := by
  have hkept : ∀ {m d₁ d₂}, m ≠ .pool → m ≠ .receipt c.operationID → Reclaiming c id d₁ → Settled c id d₁ →
      d₁.SameBut m d₂ → d₂.marker m = none → Reclaiming c id d₂ ∧ Settled c id d₂ := by
    intro m d₁ d₂ hpool hm hd₁ hs₁ hsame hnone
    have hs₂ := hs₁.of_same hsame hnone hm
    exact ⟨⟨(hsame.marker hpool.symm).trans hd₁.pool, by rw [hsame.areas]; exact hd₁.area, .settled hs₂⟩, hs₂⟩
  refine endures_bind (endures_removeMarker hd (by simp [reclaimMarkers]) hs.placement fun d₁ hsame₁ hnone₁ => ?_)
  obtain ⟨hd₁, hs₁⟩ := hkept (by simp) (by simp) hd hs hsame₁ hnone₁
  refine ⟨hd₁, endures_removeMarker hd₁ (by simp [reclaimMarkers]) hs₁.copy fun d₂ hsame₂ hnone₂ => ?_⟩
  obtain ⟨hd₂, hs₂⟩ := hkept (by simp) (by simp) hd₁ hs₁ hsame₂ hnone₂
  exact ⟨hd₂, rfl, hs₂, (hsame₂.marker (by simp)).trans hnone₁, hnone₂⟩

/-- The recorded inode is never found in both of its places. -/
theorem cleanupEffectStarted_ok (hd : Reclaiming c id d) (api : Api) :
    ∃ b, value (cleanupEffectStarted c.target (reclaimIntent c id)) d api = .ok b := by
  obtain ⟨source, hsource, hheld⟩ : ∃ b, value (exactDirectoryPresent c.place.1 c.place.2 id.val) d api = .ok b ∧
      (b = true → c.place ≠ (.retired, c.target.copyID) → d.find .retired c.target.copyID = none) := by
    cases hd.progress with
    | waiting h => exact ⟨true, exactDirectoryPresent_true h.place.idAt rfl, fun _ => h.retired⟩
    | retired h | removed h | settled h => exact ⟨false, exactDirectoryPresent_false h.place, by simp⟩
  obtain ⟨retired, hretired, hvacant⟩ : ∃ b, value (exactDirectoryPresent .retired c.target.copyID id.val) d api = .ok b ∧
      (d.find .retired c.target.copyID = none → b = false) := by
    have hgone : d.find .retired c.target.copyID = none → ∃ b,
        value (exactDirectoryPresent .retired c.target.copyID id.val) d api = .ok b ∧
          (d.find .retired c.target.copyID = none → b = false) :=
      fun h => ⟨false, exactDirectoryPresent_false h, fun _ => rfl⟩
    have hholds : HoldsInode id d (.retired, c.target.copyID) → ∃ b,
        value (exactDirectoryPresent .retired c.target.copyID id.val) d api = .ok b ∧
          (d.find .retired c.target.copyID = none → b = false) := by
      intro hholds
      refine ⟨true, exactDirectoryPresent_true hholds.idAt rfl, fun h => ?_⟩
      obtain ⟨contents, -, hfind⟩ := hholds
      simp [hfind] at h
    cases hd.progress with
    | waiting h =>
      by_cases hsame : c.place = (.retired, c.target.copyID)
      · exact hholds (hsame ▸ h.place)
      · exact hgone (h.retired hsame)
    | retired h => exact hholds h.retired
    | removed h | settled h => exact hgone h.retired
  rw [cleanupEffectStarted, value_bind (ifExists_views openRoleParent_views),
    value_ifExists_some.mpr (openRoleParent_ok.mpr ⟨c.role, hd.area⟩)]
  show ∃ b, value (exactDirectoryPresent c.place.1 c.place.2 id.val >>= _) d api = .ok b
  rw [value_bind exactDirectoryPresent_views, hsource]
  by_cases hr : c.target.role = .retired
  · exact ⟨!source, by simp [hr]⟩
  · have hne : c.place ≠ (.retired, c.target.copyID) := fun h => hr (c.place_retired.mp h)
    simp only [hr, if_false]
    rw [value_bind (ifExists_views openArea_views)]
    have hapart : ¬(source ∧ retired) := by
      rintro ⟨hs, hr⟩
      simp [hvacant (hheld hs hne)] at hr
    cases harea : d.areas .retired with
    | none =>
      rw [value_ifExists_none.mpr (openArea_missing.mpr harea)]
      refine ⟨!source || false, (value_bind_ok Proc.Views.pure).mpr ⟨false, rfl, ?_⟩⟩
      exact (value_bind_ok Proc.Views.ensure).mpr ⟨(), value_ensure_ok.mpr (by simp), rfl⟩
    | some rows =>
      have hopened : value (openArea .retired) d api = .ok () := openArea_ok.mpr (by simp [harea])
      rw [value_ifExists_some.mpr hopened]
      refine ⟨!source || retired, (value_bind_ok exactDirectoryPresent_views).mpr ⟨retired, hretired, ?_⟩⟩
      exact (value_bind_ok Proc.Views.ensure).mpr ⟨(), value_ensure_ok.mpr hapart, rfl⟩

/-- The intent is recorded once the copy is proven to be the recorded one. -/
theorem ensureLocalIntent_endures (hd : Reclaiming c id d) (hw : Waiting c id d)
    (hnone : d.marker (.cleanup c.operationID) = none) :
    c.Endures (Reclaiming c id) d
      (ensureLocalIntent c.target c.operationID { identity := c.target, id := id.val } : NodeOp Api LocalIntent)
      fun r d' => r = .ok (reclaimIntent c id) ∧ Reclaiming c id d' ∧ Intended c id d' := by
  refine endures_look (steady_ifExists (steady_readMarker (by simp [reclaimMarkers])) readMarker_views) hd
    (fun _ => value_ifExists_none.mpr (readMarker_missing.mpr hnone)) ?_
  refine endures_look (a := ()) (steady_verifyCurrentPath hd.area) hd
    (fun _ => verifyCurrentPath_ok.mpr ⟨c.place.1, c.place.2, id, c.role, hw.place.idAt, rfl⟩) ?_
  have hi : Intended c id (d.putMarker (.cleanup c.operationID) (.cleanup (reclaimIntent c id))) :=
    ⟨hw.toUnsettled.of_markers fun m hm => by rw [Disk.marker_putMarker, if_neg hm], Disk.marker_putMarker_self⟩
  have hd' : Reclaiming c id (d.putMarker (.cleanup c.operationID) (.cleanup (reclaimIntent c id))) :=
    ⟨by rw [Disk.marker_putMarker, if_neg (by simp)]; exact hd.pool, hd.area,
      .waiting ⟨hi.toUnsettled, hw.place, hw.retired, .inr hi.intent⟩⟩
  exact endures_bind (endures_ensureMarker hd (by simp [reclaimMarkers]) hnone hd' (endures_pure ⟨rfl, hd', hi⟩))

section Runs

variable (receiptDigest : Receipt → String)

/-- How every finished run leaves the disk, and what it returns. -/
def ReclaimDone (c : ReclaimCase) (id : LiveID) (d : Disk) (r : Except Fault (Receipt × String)) : Prop :=
  r = .ok (reclaimReceipt c.target c.operationID id, receiptDigest (reclaimReceipt c.target c.operationID id)) ∧
    Settled c id d ∧ d.marker (.placement c.target.copyID) = none ∧ d.marker (.copy c.target.copyID) = none

theorem settleReclaim_endures (hd : Reclaiming c id d) (hr : Removed c id d) :
    c.Endures (Reclaiming c id) d
      (settleReclaim receiptDigest c.target c.operationID (reclaimIntent c id) : NodeOp Api (Receipt × String))
      fun r d' => ReclaimDone receiptDigest c id d' r := by
  have hs : Settled c id (d.putMarker (.receipt c.operationID) (.receipt (reclaimReceipt c.target c.operationID id))) := by
    refine ⟨hr.place, hr.retired, Disk.marker_putMarker_self, Or.inl ?_, Or.inl ?_⟩ <;>
      rw [Disk.marker_putMarker, if_neg (by simp)]
    exacts [hr.placement, hr.copy]
  have hd' : Reclaiming c id (d.putMarker (.receipt c.operationID) (.receipt (reclaimReceipt c.target c.operationID id))) :=
    ⟨by rw [Disk.marker_putMarker, if_neg (by simp)]; exact hd.pool, hd.area, .settled hs⟩
  refine endures_bind (endures_within (endures_ensureMarker hd (by simp [reclaimMarkers]) hr.receipt hd' ?_))
  refine endures_look (a := ()) (steady_verifyAbsent hd'.area).mapError hd'
    (fun _ => value_within_ok.mpr (verifyAbsent_ok.mpr ⟨_, _, c.role, hs.place⟩)) ?_
  refine endures_bind (endures_within ((removeCopyMetadata_endures hd' hs).mono fun r d₂ h => ?_))
  obtain ⟨rfl, hs₂, hplacement, hcopy⟩ := h
  exact endures_pure ⟨rfl, hs₂, hplacement, hcopy⟩

section Granted

variable {authority : Bool → Api → Except Fault Unit} (hgrants : ∀ b api, authority b api = .ok ())

include hgrants

theorem replayReclaimReceipt_endures (hd : Reclaiming c id d) (hs : Settled c id d) :
    c.Endures (Reclaiming c id) d (replayReclaimReceipt receiptDigest c.target c.operationID authority) fun r d' =>
      ∃ outcome, r = .ok (some outcome) ∧ ReclaimDone receiptDigest c id d' (.ok outcome) := by
  refine endures_look steady_readReceipt hd (fun _ => readReceipt_some.mpr hs.receipt) ?_
  refine endures_ensure (fun _ => endures_granted hd (hgrants true) ?_) fun h => absurd ⟨rfl, rfl, rfl, rfl⟩ h
  refine endures_look (a := ()) (steady_verifyAbsent hd.area) hd (fun _ => verifyAbsent_ok.mpr ⟨_, _, c.role, hs.place⟩) ?_
  refine endures_bind (endures_within ((removeCopyMetadata_endures hd hs).mono fun r d' h => ?_))
  obtain ⟨rfl, hs', hplacement, hcopy⟩ := h
  exact endures_pure ⟨_, rfl, rfl, hs', hplacement, hcopy⟩

theorem prepareReclaimIntent_endures (hd : Reclaiming c id d) (hu : Unsettled c id d) :
    c.Endures (Reclaiming c id) d (prepareReclaimIntent c.target c.operationID authority) fun r d' =>
      ∃ effectStarted, r = .ok (reclaimIntent c id, effectStarted) ∧ Reclaiming c id d' ∧ Intended c id d' := by
  have hcheck : c.Steady d (within "verify copy identity" (checkMarker (.copy c.target.copyID) (.copy c.target)) :
      NodeOp Api Unit) := (steady_checkMarker (by simp [reclaimMarkers])).mapError
  have hcopy : ∀ api : Api, value (within "verify copy identity" (checkMarker (.copy c.target.copyID) (.copy c.target)))
      d api = .ok () := fun _ => value_within_ok.mpr (checkMarker_ok.mpr hu.copy)
  have hread : ∀ api : Api, value (within "verify copy placement" ((readPlacement c.target.copyID).mapError
      (.joined · .identity))) d api = .ok { identity := c.target, id := id.val } := fun _ =>
    value_within_ok.mpr (value_mapError_ok.mpr (readPlacement_ok.mpr hu.placement))
  by_cases hnone : d.marker (.cleanup c.operationID) = none
  · -- a fresh reclaim, so the inode is in its place
    have hw : Waiting c id d := by
      cases hd.progress with
      | waiting h => exact h
      | retired h | removed h => exact absurd (hnone.symm.trans h.intent) (by simp)
      | settled h => exact absurd (hu.receipt.symm.trans h.receipt) (by simp)
    refine endures_look steady_localIntent.mapError hd (fun _ => value_within_ok.mpr (localIntent_none.mpr hnone)) ?_
    refine endures_granted hd (hgrants false) (endures_bind ?_)
    refine endures_look hcheck hd hcopy (endures_look steady_readPlacement.mapError.mapError hd hread ?_)
    refine endures_ensure (fun _ => endures_within ?_) fun h => absurd rfl h
    refine (ensureLocalIntent_endures hd hw hnone).mono fun r d' h => ?_
    obtain ⟨rfl, hd', hintended⟩ := h
    exact endures_pure ⟨false, rfl, hd', hintended⟩
  · have hi := hd.intended hu.receipt hnone
    refine endures_look steady_localIntent.mapError hd
      (fun _ => value_within_ok.mpr (localIntent_some.mpr ⟨hi.intent, rfl, rfl⟩)) ?_
    refine endures_bind (endures_steady (steady_cleanupEffectStarted hd.area).mapError hd fun api => ?_)
    obtain ⟨effectStarted, heffect⟩ := cleanupEffectStarted_ok hd api
    rw [value_within_ok.mpr heffect]
    refine endures_granted hd (hgrants _) ?_
    cases effectStarted with
    | true => exact endures_pure ⟨true, rfl, hd, hi⟩
    | false =>
      refine endures_bind (endures_look hcheck hd hcopy (endures_look steady_readPlacement.mapError.mapError hd hread ?_))
      refine endures_ensure (fun _ => endures_ensure (fun _ => endures_pure ?_) fun h => absurd rfl h) fun h => absurd rfl h
      exact endures_pure ⟨false, rfl, hd, hi⟩

/-- Wherever the earlier runs stopped, a run succeeds with the one receipt. -/
theorem reclaimWithResume_endures (hvalid : validIdentityToken c.operationID ∧ c.target.valid) (hd : Reclaiming c id d) :
    c.Endures (Reclaiming c id) d (reclaimWithResume receiptDigest c.target c.operationID authority) fun r d' =>
      ReclaimDone receiptDigest c id d' r := by
  obtain ⟨hpool, hvolume⟩ := valid_tokens hvalid.2
  refine endures_ensure (fun _ => ?_) fun h => absurd hvalid h
  refine endures_look (a := ()) steady_checkPool hd (fun _ => openExisting_ok.mpr ⟨hpool, hd.pool⟩) ?_
  refine endures_look (a := ()) steady_checkPool hd (fun _ => acquire_ok.mpr ⟨hvolume, hd.pool⟩) ?_
  by_cases hreceipt : d.marker (.receipt c.operationID) = none
  · have hu : Unsettled c id d := by
      cases hd.progress with
      | waiting h | retired h | removed h => exact h.toUnsettled
      | settled h => exact absurd (hreceipt.symm.trans h.receipt) (by simp)
    refine endures_bind (endures_look steady_readReceipt hd (fun _ => readReceipt_none.mpr hreceipt) (endures_pure ?_))
    refine endures_bind ((prepareReclaimIntent_endures hgrants hd hu).mono fun r d₁ h => ?_)
    obtain ⟨effectStarted, rfl, hd₁, hi⟩ := h
    refine endures_bind (endures_bind (endures_within (endures_consult hd₁ fun api => ?_)))
    rw [hgrants]
    refine endures_bind (endures_within ((retire_endures hd₁ hi).mono fun r d₂ h => ?_))
    obtain ⟨rfl, hd₂, hpurgeable⟩ := h
    refine endures_within ((purgeRetired_endures hd₂ hpurgeable).mono fun r d₃ h => ?_)
    obtain ⟨rfl, hd₃, hremoved⟩ := h
    exact settleReclaim_endures receiptDigest hd₃ hremoved
  · have hs : Settled c id d := by
      cases hd.progress with
      | waiting h | retired h | removed h => exact absurd h.receipt hreceipt
      | settled h => exact h
    refine endures_bind ((replayReclaimReceipt_endures receiptDigest hgrants hd hs).mono fun r d' h => ?_)
    obtain ⟨outcome, rfl, hdone⟩ := h
    exact endures_pure hdone

end Granted

/-! ### Foreign directories -/

/-- Another directory than the one the placement names stands in the copy's place. -/
structure Foreign (c : ReclaimCase) (other : LiveID) (contents : Contents) (d : Disk) : Prop where
  kept : d.find c.place.1 c.place.2 = some (.directory other contents)
  placement : ∀ record, d.marker (.placement c.target.copyID) = some (.placement record) → record.id ≠ other.val

section Foreign

variable {other : LiveID} {contents : Contents} {api : Api}

theorem Foreign.area (hf : Foreign c other contents d) : (d.areas c.place.1).isSome := Disk.areas_of_find hf.kept

theorem Foreign.idAt (hf : Foreign c other contents d) : d.idAt c.place.1 c.place.2 = some other :=
  Disk.idAt_eq_some.mpr ⟨contents, hf.kept⟩

theorem Foreign.effectStarted {intent : LocalIntent} {b : Bool} (hf : Foreign c other contents d)
    (h : value (cleanupEffectStarted c.target intent) d api = .ok b) : b = false ∧ intent.id = other.val := by
  have hopened : value (ifExists (openRoleParent c.target)) d api = .ok (some c.place) :=
    value_ifExists_some.mpr (openRoleParent_ok.mpr ⟨c.role, hf.area⟩)
  rw [cleanupEffectStarted, value_bind (ifExists_views openRoleParent_views), hopened] at h
  change value (exactDirectoryPresent c.place.1 c.place.2 intent.id >>= _) d api = .ok b at h
  obtain ⟨source, hsource, h⟩ := (value_bind_ok exactDirectoryPresent_views).mp h
  obtain ⟨rfl, hid⟩ : source = true ∧ intent.id = other.val := by
    obtain ⟨found, hfound, hisSome⟩ := (value_bind_ok (ifExists_views openIdentityDirectory_views)).mp hsource
    obtain rfl : found.isSome = source := by simpa using hisSome
    cases found with
    | none => exact absurd (openIdentityDirectory_missing.mp (value_ifExists_none.mp hfound)) (by simp [hf.kept])
    | some _ =>
      obtain ⟨id, hidAt, hid⟩ := openIdentityDirectory_ok.mp (value_ifExists_some.mp hfound)
      obtain rfl := Option.some.inj (hidAt.symm.trans hf.idAt)
      exact ⟨rfl, hid.symm⟩
  refine ⟨?_, hid⟩
  by_cases hr : c.target.role = .retired
  · simpa [hr] using h.symm
  · beta_reduce at h
    rw [if_neg hr] at h
    have hrest : ∀ {retired : Bool}, value (do
        Proc.ensure (¬(true = true ∧ retired = true)) .identity
        return !true || retired : NodeOp Api Bool) d api = .ok b → b = false := by
      intro retired h
      obtain ⟨_, happart, h⟩ := (value_bind_ok .ensure).mp h
      have happart := value_ensure_ok.mp happart
      cases retired <;> simp_all
    obtain ⟨found, -, h⟩ := (value_bind_ok (ifExists_views openArea_views)).mp h
    cases found with
    | none =>
      obtain ⟨_, -, h⟩ := (value_bind_ok .pure).mp h
      exact hrest h
    | some _ =>
      obtain ⟨_, -, h⟩ := (value_bind_ok exactDirectoryPresent_views).mp h
      exact hrest h

theorem confirmFreshReclaimTarget_foreign {recorded : Option LocalIntent} (hf : Foreign c other contents d)
    (hrecorded : ∀ intent, recorded = some intent → intent.id = other.val)
    (hnone : recorded = none → d.marker (.cleanup c.operationID) = none) :
    c.Endures (Foreign c other contents) d
      (confirmFreshReclaimTarget c.target c.operationID recorded : NodeOp Api LocalIntent) fun r _ => ∀ v, r ≠ .ok v := by
  refine endures_look_cases (steady_checkMarker (by simp [reclaimMarkers])).mapError hf (fun _ _ _ => ?_) (by simp)
  refine endures_look_cases steady_readPlacement.mapError.mapError hf (fun placed _ hplaced => ?_) (by simp)
  have hnamed := hf.placement placed (readPlacement_ok.mp (value_mapError_ok.mp (value_within_ok.mp hplaced)))
  refine endures_ensure (fun hidentity => ?_) (by simp)
  cases recorded with
  | some intent =>
    exact endures_ensure (fun hsame => absurd (hsame.symm.trans (hrecorded intent rfl)) hnamed) (by simp)
  | none =>
    obtain ⟨identity, recordedID⟩ := placed
    obtain rfl : identity = c.target := hidentity
    refine endures_within (endures_look (steady_ifExists (steady_readMarker (by simp [reclaimMarkers])) readMarker_views) hf
      (fun _ => value_ifExists_none.mpr (readMarker_missing.mpr (hnone rfl))) ?_)
    refine endures_look_cases (steady_verifyCurrentPath hf.area) hf (fun _ _ hpath => ?_) (by simp [Except.mapError])
    obtain ⟨area, name, id, hplace, hid, hrecord⟩ := verifyCurrentPath_ok.mp hpath
    obtain ⟨rfl, rfl⟩ : area = c.place.1 ∧ name = c.place.2 := Prod.mk.inj (Option.some.inj (hplace.symm.trans c.role))
    exact absurd ((Option.some.inj (hid.symm.trans hf.idAt)) ▸ hrecord.symm) hnamed

theorem prepareReclaimIntent_foreign {authority : Bool → Api → Except Fault Unit} (hf : Foreign c other contents d) :
    c.Endures (Foreign c other contents) d (prepareReclaimIntent c.target c.operationID authority) fun r _ =>
      ∀ v, r ≠ .ok v := by
  refine endures_look_cases steady_localIntent.mapError hf (fun recorded _ hread => ?_) (by simp)
  have hread := value_within_ok.mp hread
  cases recorded with
  | none =>
    refine endures_asked hf (endures_bind ?_) (by simp)
    refine (confirmFreshReclaimTarget_foreign hf (by simp) fun _ => localIntent_none.mp hread).mono fun r d' h => ?_
    cases r with
    | ok v => exact absurd rfl (h v)
    | error e => simp
  | some intent =>
    refine endures_look_cases (steady_cleanupEffectStarted hf.area).mapError hf (fun b _ hb => ?_) (by simp)
    obtain ⟨rfl, hid⟩ := hf.effectStarted (value_within_ok.mp hb)
    refine endures_asked hf (endures_bind ?_) (by simp)
    refine (confirmFreshReclaimTarget_foreign hf ?_ (by simp)).mono fun r d' h => ?_
    · rintro found hfound
      exact Option.some.inj hfound ▸ hid
    · cases r with
      | ok v => exact absurd rfl (h v)
      | error e => simp

/-- A reclaim writes nothing while a foreign directory stands in the place of its copy. -/
theorem reclaimWithResume_foreign {authority : Bool → Api → Except Fault Unit} (hf : Foreign c other contents d) :
    c.Endures (Foreign c other contents) d (reclaimWithResume receiptDigest c.target c.operationID authority)
      fun _ _ => True := by
  refine endures_ensure (fun _ => ?_) fun _ => trivial
  refine endures_look_cases steady_checkPool hf (fun _ _ _ => ?_) fun _ => trivial
  refine endures_look_cases steady_checkPool hf (fun _ _ _ => ?_) fun _ => trivial
  refine endures_bind (endures_look_cases steady_readReceipt hf (fun found _ _ => ?_) fun _ => trivial)
  cases found with
  | none =>
    refine endures_pure (endures_bind ((prepareReclaimIntent_foreign hf).mono fun r d' h => ?_))
    cases r with
    | ok v => exact absurd rfl (h v)
    | error e => trivial
  | some completed =>
    refine endures_ensure (fun _ => endures_asked hf ?_ fun _ => trivial) fun _ => trivial
    refine endures_look_cases (steady_verifyAbsent hf.area) hf (fun _ _ habsent => ?_) fun _ => trivial
    obtain ⟨area, name, hplace, hnone⟩ := verifyAbsent_ok.mp habsent
    obtain ⟨rfl, rfl⟩ : area = c.place.1 ∧ name = c.place.2 := Prod.mk.inj (Option.some.inj (hplace.symm.trans c.role))
    exact absurd (hf.kept.symm.trans hnone) (by simp)

end Foreign

/-! ### Interleaved runs -/

/-- What a run keeps under interference holds throughout a sequence of runs, and the last of them ends as it should. -/
theorem ReclaimCase.Endures.interleaved {Q : Except Fault α → Disk → Prop} (hp : ∀ d, I d → c.Endures I d p Q)
    {h h' : Host Api} {rest : NodeOp Api α} (hI : I h.disk)
    (hruns : Relation.ReflTransGen (Proc.Interleaved c.aside p) (p, h) (rest, h')) :
    (∃ d, LeftAlone c.target c.operationID d h'.disk ∧ I d) ∧
      rest.Meets c.aside (c.Own I) (fun r t => ∃ d', LeftAlone c.target c.operationID d' t.disk ∧ Q r d') h' := by
  refine Proc.Meets.interleaved (R := c.aside) (G := c.Own I)
    (I := fun t => ∃ d, LeftAlone c.target c.operationID d t.disk ∧ I d) ?_ (fun _ => .refl _) (fun h₁ h₂ => h₁.trans h₂) ?_
    (fun hown => hown.1) ?_ ⟨h.disk, .refl _, hI⟩ hruns
  · rintro t ⟨d, hdt, hd⟩
    exact hp d hd t hdt
  · rintro s t hst ⟨d, hds, hd⟩
    exact ⟨d, hds.trans hst, hd⟩
  · rintro r s t ⟨d', hds, hq⟩ hst
    exact ⟨d', hds.trans hst, hq⟩

/-- The markers of the copy and its directory agree on an inode, which a purge can empty, and neither this operation
    nor another directory stands in the way. -/
structure ReclaimReady (target : CopyIdentity) (operationID : String) (id : LiveID) (d : Disk) : Prop where
  valid : validIdentityToken operationID ∧ target.valid
  pool : d.marker .pool = some (.pool { installationID := target.installationID, poolUID := target.poolUID })
  copy : d.marker (.copy target.copyID) = some (.copy target)
  placement : d.marker (.placement target.copyID) = some (.placement { identity := target, id := id.val })
  directory : ∃ place contents, rolePath target = some place ∧ d.find place.1 place.2 = some (.directory id contents) ∧
    contents.depth ≤ 256
  retired : target.role ≠ .retired → d.find .retired target.copyID = none
  intent : d.marker (.cleanup operationID) = none ∨
    d.marker (.cleanup operationID) = some (.cleanup { operationID, target, id := id.val })
  receipt : d.marker (.receipt operationID) = none

theorem ReclaimReady.reclaiming {target : CopyIdentity} {operationID : String} (h : ReclaimReady target operationID id d) :
    ∃ place, ∃ role : rolePath target = some place, Reclaiming ⟨target, operationID, place, role⟩ id d := by
  obtain ⟨place, contents, hrole, hfind, hdepth⟩ := h.directory
  refine ⟨place, hrole, h.pool, Disk.areas_of_find hfind, .waiting ⟨⟨h.copy, h.placement, h.receipt⟩,
    ⟨contents, Nat.lt_succ_of_le hdepth, hfind⟩, fun hne => h.retired fun hr => ?_, h.intent⟩⟩
  exact hne ((rolePath_retired hrole).mpr hr)

/-- Of the two paths of the inode, neither ever holds anything else. -/
theorem Reclaiming.others {entry : Entry} {area : Area} {name : String} (hd : Reclaiming c id d)
    (hne : entry.id? ≠ some id) (hpath : CopyPath c.target (area, name)) : d.find area name ≠ some entry := by
  intro hfind
  have hid : ∀ {place : Area × String}, HoldsInode id d place → (area, name) ≠ place := by
    rintro _ ⟨contents, -, hc⟩ rfl
    obtain rfl := Option.some.inj (hfind.symm.trans hc)
    exact hne rfl
  have hnone : ∀ {place : Area × String}, d.find place.1 place.2 = none → (area, name) ≠ place := by
    rintro _ hp rfl
    simp [hfind] at hp
  have hpath : (area, name) = c.place ∨ (area, name) = (.retired, c.target.copyID) :=
    hpath.imp_left fun h => Option.some.inj (h.symm.trans c.role)
  cases hd.progress with
  | waiting h =>
    by_cases hsame : c.place = (.retired, c.target.copyID)
    · exact hpath.elim (hid h.place) (hsame ▸ hid h.place)
    · exact hpath.elim (hid h.place) (hnone (h.retired hsame))
  | retired h => exact hpath.elim (hnone h.place) (hid h.retired)
  | removed h | settled h => exact hpath.elim (hnone h.place) (hnone h.retired)

/-- However often and wherever the reclaims of a copy are stopped, and whatever others do off its paths, the run that
    is not stopped succeeds with the one receipt and leaves nothing of the copy; no step of a run moves or removes
    anything but the recorded directory, and a directory that the placement does not name stays in the copy's place. -/
theorem reclaim_resumes {target : CopyIdentity} {operationID : String} {authority : Bool → Api → Except Fault Unit}
    (hgrants : ∀ b api, authority b api = .ok ()) {h h' : Host Api} {rest : NodeOp Api (Receipt × String)}
    (hruns : Relation.ReflTransGen (Proc.Interleaved (fun s t => LeftAlone target operationID s.disk t.disk)
        (reclaimWithResume receiptDigest target operationID authority))
      (reclaimWithResume receiptDigest target operationID authority, h) (rest, h')) :
    (∀ id, ReclaimReady target operationID id h.disk →
      (∀ act next, rest = .step act next → ∀ area name entry, entry.id? ≠ some id →
        ((act h').disk.find area name = some entry ↔ h'.disk.find area name = some entry)) ∧
      ∃ final, rest.run h' =
          (.ok (reclaimReceipt target operationID id, receiptDigest (reclaimReceipt target operationID id)), final) ∧
        (∀ place, rolePath target = some place → final.disk.find place.1 place.2 = none) ∧
        final.disk.find .retired target.copyID = none ∧ final.disk.marker (.copy target.copyID) = none ∧
        final.disk.marker (.placement target.copyID) = none) ∧
    ∀ place other contents, rolePath target = some place →
      h.disk.find place.1 place.2 = some (.directory other contents) →
      (∀ record, h.disk.marker (.placement target.copyID) = some (.placement record) → record.id ≠ other.val) →
      h'.disk.find place.1 place.2 = some (.directory other contents) := by
  refine ⟨fun id hready => ?_, fun place other contents hrole hfind hplacement => ?_⟩
  · obtain ⟨place, hrole, hstart⟩ := hready.reclaiming
    obtain ⟨⟨d, hd, hreclaiming⟩, hmeets⟩ := Endures.interleaved (fun d hd =>
      reclaimWithResume_endures receiptDigest hgrants hready.valid hd) hstart hruns
    refine ⟨fun act next hstep area name entry hne => ?_, ?_⟩
    · subst hstep
      obtain ⟨⟨d', hd', hreclaiming'⟩, hframe⟩ := (hmeets h' (.refl _)).1
      by_cases hpath : CopyPath target (area, name)
      · rw [hd'.find hpath, hd.find hpath]
        exact iff_of_false (hreclaiming'.others hne hpath) (hreclaiming.others hne hpath)
      · rw [hframe area name hpath]
    · have halone : ∀ {s t : Host Api}, s = t → LeftAlone target operationID s.disk t.disk := fun hst => hst ▸ .refl _
      obtain ⟨d', hd', hr, hs, hnoPlacement, hnoCopy⟩ := (hmeets.calmer halone).run
      refine ⟨_, Prod.ext hr rfl, fun place' hplace' => ?_, (hd'.find (.inr rfl)).trans hs.retired,
        (hd'.marker (by simp [reclaimMarkers])).trans hnoCopy, (hd'.marker (by simp [reclaimMarkers])).trans hnoPlacement⟩
      obtain rfl := Option.some.inj (hrole.symm.trans hplace')
      exact (hd'.find (.inl hrole)).trans hs.place
  · obtain ⟨⟨d, hd, hforeign⟩, -⟩ := Endures.interleaved (c := ⟨target, operationID, place, hrole⟩)
      (fun d hd => reclaimWithResume_foreign receiptDigest hd) ⟨hfind, hplacement⟩ hruns
    exact (hd.find (.inl hrole)).trans hforeign.kept

end Runs

/-! A serving copy and its markers. -/

def servedCopy : CopyIdentity where
  installationID := "install"
  poolName := "pool-a"
  poolUID := "pool-a-uid"
  volumeID := "shiftpv-0123456789abcdef0123456789abcdef"
  volumeUID := "volume-1"
  copyID := "initial-volume-1"
  nodeName := "node-a"
  role := .serving

def servedID : LiveID := ⟨⟨1, 7⟩, rfl⟩

def servedDisk (contents : Contents) : Disk where
  areas
    | .volumes => some (AList.insert servedCopy.volumeID (.directory servedID contents) ∅)
    | _ => none
  markers := AList.insert .pool (.pool ⟨"install", "pool-a-uid"⟩) <|
    AList.insert (.copy servedCopy.copyID) (.copy servedCopy) <|
      AList.insert (.placement servedCopy.copyID) (.placement ⟨servedCopy, servedID.val⟩) ∅

def reclaimServed : NodeOp Unit (Receipt × String) :=
  reclaimWithResume (fun _ => "digest") servedCopy "delete-volume-1" fun _ _ => .ok ()

theorem servedDisk_ready : ReclaimReady servedCopy "delete-volume-1" servedID (servedDisk (.file "data" .empty)) where
  valid := by decide +kernel
  pool := rfl
  copy := rfl
  placement := rfl
  directory := ⟨(.volumes, servedCopy.volumeID), .file "data" .empty, rfl, rfl, by decide⟩
  retired _ := rfl
  intent := Or.inl rfl
  receipt := rfl

def otherCreated (h : Host Unit) : Host Unit :=
  { h with disk := h.disk.put .volumes "other-volume" (.directory ⟨⟨1, 8⟩, rfl⟩ .empty) }

theorem otherCreated_leftAlone (h : Host Unit) :
    LeftAlone servedCopy "delete-volume-1" h.disk (otherCreated h).disk := by
  refine ⟨fun {area name} hpath => ?_, fun _ => rfl, Disk.areas_put⟩
  have hplaces : (area, name) = (.volumes, servedCopy.volumeID) ∨ (area, name) = (.retired, servedCopy.copyID) :=
    hpath.imp_left fun h => (Option.some.inj h).symm
  rw [otherCreated, Disk.find_put, if_neg]
  rintro ⟨rfl, rfl⟩
  exact absurd hplaces (by decide)

/-- A reclaim that was stopped in the middle of its purge is finished by the next one, after another volume was
    created. -/
theorem reclaim_resumes_purge :
    ∃ h' final, (reclaimServed.after 22 ⟨servedDisk (.file "data" .empty), ()⟩).2 = h' ∧
      h'.disk.contentsAt .retired servedCopy.copyID = .empty ∧ (h'.disk.idAt .retired servedCopy.copyID).isSome ∧
      (reclaimServed.run (otherCreated h')).2 = final ∧ final.disk.find .retired servedCopy.copyID = none ∧
      final.disk.marker (.copy servedCopy.copyID) = none := by
  have hruns : Relation.ReflTransGen
      (Proc.Interleaved (fun s t => LeftAlone servedCopy "delete-volume-1" s.disk t.disk) reclaimServed)
      (reclaimServed, ⟨servedDisk (.file "data" .empty), ()⟩)
      (reclaimServed, otherCreated (reclaimServed.after 22 ⟨servedDisk (.file "data" .empty), ()⟩).2) :=
    ((Proc.interleaved_after 22 _ _).tail (.other (otherCreated_leftAlone _))).tail .again
  obtain ⟨-, final, hrun, -, hretired, hcopy, -⟩ :=
    (reclaim_resumes _ (fun _ _ => rfl) hruns).1 servedID servedDisk_ready
  exact ⟨_, final, rfl, by decide +kernel, by decide +kernel, congrArg Prod.snd hrun, hretired, hcopy⟩

def nestedContents : Nat → Contents
  | 0 => .empty
  | n + 1 => .folder "d" (nestedContents n) .empty

theorem nestedContents_depth (n : Nat) : (nestedContents n).depth = n := by
  induction n with
  | zero => rfl
  | succ n ih => simp [nestedContents, Contents.depth, ih]

/-- A copy whose directories are nested too deep is never reclaimed. -/
theorem deep_copy_refused :
    (servedDisk (nestedContents 257)).marker (.copy servedCopy.copyID) = some (.copy servedCopy) ∧
      (servedDisk (nestedContents 257)).marker (.placement servedCopy.copyID) = some (.placement ⟨servedCopy, servedID.val⟩) ∧
      (servedDisk (nestedContents 257)).idAt .volumes servedCopy.volumeID = some servedID ∧
      (reclaimServed.run ⟨servedDisk (nestedContents 257), ()⟩).1 =
        .error (.wrapped "purge retired target" (.refused "purge depth exceeds 256")) := by
  refine ⟨rfl, rfl, rfl, ?_⟩
  have hpurge := purgeContents_refuses (nestedContents_depth 257).ge
  generalize nestedContents 257 = contents at hpurge ⊢
  -- what is left of the reclaim after the nineteen steps before the purge
  have hrest : (reclaimServed.after 19 ⟨servedDisk contents, ()⟩).1 = (do
      within "purge retired target" do
        (purgeContents 257).zoom (fun h => h.disk.contentsAt .retired servedCopy.copyID)
          (fun contents h => { h with disk := h.disk.setContents .retired servedCopy.copyID contents })
        removeDirectory .retired servedCopy.copyID
      settleReclaim (fun _ => "digest") servedCopy "delete-volume-1" ⟨"delete-volume-1", servedCopy, servedID.val⟩) := rfl
  have hfind : (reclaimServed.after 19 ⟨servedDisk contents, ()⟩).2.disk.find .retired servedCopy.copyID =
      some (.directory servedID contents) := rfl
  have hmeets : (reclaimServed.after 19 ⟨servedDisk contents, ()⟩).1.Meets (· = ·) (fun _ _ => True)
      (fun r _ => r = .error (.wrapped "purge retired target" (.refused "purge depth exceeds 256")))
      (reclaimServed.after 19 ⟨servedDisk contents, ()⟩).2 := by
    rw [hrest]
    refine Proc.meets_bind.mpr (Proc.meets_mapError.mpr (Proc.meets_bind.mpr ?_))
    refine Proc.Meets.zoom (K := fun h => ∃ c, h.disk.find .retired servedCopy.copyID = some (.directory servedID c))
      (t := (reclaimServed.after 19 ⟨servedDisk contents, ()⟩).2) (by simpa only [Disk.contentsAt, hfind] using hpurge)
      ⟨contents, hfind⟩ ?_ ?_ ?_
    · rintro h _ hK rfl
      exact ⟨hK, rfl⟩
    · rintro h c ⟨_, hK⟩ -
      simp [Disk.setContents_of hK, Disk.contentsAt]
    · rintro h r - rfl
      rfl
  rw [← Proc.run_after 19]
  exact hmeets.run

end ShiftPV
