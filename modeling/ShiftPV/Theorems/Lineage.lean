import ShiftPV.Theorems.Coherence

/-! The lineage of a volume's copies. The current copy changes by owner commits only, and a commit always
    brings a copy that never served before: its ID is derived from the UID of the Move, and a Move that has
    committed never finds its source copy serving again. -/

namespace ShiftPV
open Check

/-- The copies that served the volume, newest first, each listed once per stay. -/
def lineage : List Store → List CopyIdentity
  | [] => []
  | s :: past =>
    match s.volume.bind (·.currentCopy) with
    | none => lineage past
    | some c => if (lineage past).head? = some c then lineage past else c :: lineage past

def CopySeen (h : List Store) (c : CopyIdentity) : Prop := ∃ v, SeenVolume h v ∧ v.currentCopy = some c

variable {s t : Store} {past h : List Store} {op : Op} {v w : State} {c d : CopyIdentity} {m n : Move}

theorem copySeen_cons : CopySeen (t :: h) c ↔ t.volume.bind (·.currentCopy) = some c ∨ CopySeen h c := by
  simp only [CopySeen, seenVolume_cons, Option.bind_eq_some_iff]
  constructor
  · rintro ⟨v, hv | hv, hc⟩
    · exact Or.inl ⟨v, hv, hc⟩
    · exact Or.inr ⟨v, hv, hc⟩
  · rintro (⟨v, hv, hc⟩ | ⟨v, hv, hc⟩)
    · exact ⟨v, Or.inl hv, hc⟩
    · exact ⟨v, Or.inr hv, hc⟩

theorem CopySeen.head (hv : s.volume = some v) (hc : v.currentCopy = some c) : CopySeen (s :: past) c :=
  ⟨v, .head hv, hc⟩

theorem CopySeen.older (hc : CopySeen h c) : CopySeen (t :: h) c := copySeen_cons.mpr (Or.inr hc)

theorem mem_lineage : c ∈ lineage h ↔ CopySeen h c := by
  induction h with
  | nil => simp [lineage, CopySeen, SeenVolume]
  | cons s past ih =>
    rw [copySeen_cons, lineage, ← ih]
    split
    · rename_i hnone
      simp [hnone]
    · rename_i d hsome
      rw [hsome]
      split
      · rename_i hhead
        constructor
        · exact Or.inr
        · rintro (hd | hmem)
          · obtain rfl : d = c := Option.some.inj hd
            exact List.mem_of_mem_head? hhead
          · exact hmem
      · rw [List.mem_cons, Option.some.injEq, eq_comm]

/-! ### Copy IDs -/

theorem moveCopyID_injective {u u' : String} (h : (moveCopyIDs u).2 = (moveCopyIDs u').2) : u = u' := by
  simpa [moveCopyIDs, String.append_left_inj, String.append_right_inj] using h

theorem moveCopyID_ne_initial {u u' : String} : (moveCopyIDs u).2 ≠ "initial-" ++ u' := by
  intro h
  have hchars := congrArg String.toList h
  simp [moveCopyIDs] at hchars

theorem MoveSound.destination_id (hm : MoveSound m) (hd : m.status.destinationCopy = some d) :
    d.copyID = (moveCopyIDs m.uid).2 ∧ ∃ source, m.status.sourceCopy = some source ∧ d ≠ source := by
  obtain ⟨source, anchor, hplan⟩ := hm.derived (Or.inr (Move.intent_of_destination (by simp [hd])))
  obtain rfl : (moveTransactionCopies m.uid m.spec.volumeID anchor).2 = d :=
    Option.some.inj (hplan.destination.symm.trans hd)
  refine ⟨rfl, source, hplan.planned.1, ?_⟩
  rintro rfl
  exact hplan.foreign rfl

/-! ### The invariant -/

/-- Where the copies that served come from, and what a Move that has committed can no longer find. -/
structure Descended (s : Store) (h : List Store) : Prop where
  origin : ∀ c, CopySeen h c → (∃ v, SeenVolume h v ∧ c.copyID = "initial-" ++ v.uid) ∨
    ∃ name m, s.moves.find name = some m ∧ m.status.destinationCopy = some c
  spent : ∀ name m d source, s.moves.find name = some m → m.status.destinationCopy = some d →
    m.status.sourceCopy = some source → CopySeen h d →
    CopySeen h source ∧ ∀ v, s.volume = some v → v.currentCopy ≠ some source
  unstarted : ∀ v, s.volume = some v → v.currentCopy = none → ∀ c, ¬CopySeen h c
  distinct : ∀ name m name' m', s.moves.find name = some m → s.moves.find name' = some m' → m.uid = m'.uid →
    name = name'

theorem descended_initial (hs : s.Initial) : Descended s [s] := by
  obtain ⟨v, hv, hstart, -, hmoves⟩ := hs
  have hempty : ∀ name, s.moves.find name = none := by simp [Table.find, hmoves]
  have hunseen : ∀ c, ¬CopySeen [s] c := by
    intro c hc
    have hnone := (unstartedCreation_inv hstart).2.2.2.2.2.2.1
    simp [CopySeen, SeenVolume, hv, hnone] at hc
  exact
    { origin := fun c hc => absurd hc (hunseen c)
      spent := fun name m _ _ hm => by simp [hempty] at hm
      unstarted := fun _ _ _ => hunseen
      distinct := fun name m _ _ hm => by simp [hempty] at hm }

inductive CopyStep (s : Store) (v w : State) (op : Op) : Prop where
  | kept (same : w.currentCopy = v.currentCopy)
  | initial (c : CopyIdentity) (before : v.currentCopy = none) (after : w.currentCopy = some c)
      (named : c.copyID = "initial-" ++ v.uid)
  | commit (m' m : Move) (o : State) (write : op = .volume (.mobility .commitOwner m' o))
      (stored : s.moves.find m'.name = some m) (continues : Continues m' m)
      (source : SourceHeld m v) (destination : DestinationHeld m w)

theorem Coherent.copy_step (hc : Coherent s (s :: past)) (hs : StaleStep (s :: past) op t) (hv : s.volume = some v)
    (hw : t.volume = some w) : CopyStep s v w op := by
  obtain ⟨hobs, happly⟩ := staleStep_cons.mp hs
  have hsame : t.volume = s.volume → CopyStep s v w op := by
    intro h
    rw [hw, hv] at h
    exact .kept (by rw [Option.some.inj h])
  cases Store.apply_inv happly with
  | @volume write x y current accepted =>
    obtain rfl : x = v := Option.some.inj (current.symm.trans hv)
    obtain rfl : y = w := Option.some.inj hw
    by_cases hmob : ∃ k m o, write = .mobility k m o
    · obtain ⟨k, m', o, rfl⟩ := hmob
      obtain ⟨m, hfind, hk, heff⟩ := hc.effect hobs.1 hobs.2 hv accepted
      by_cases hcommit : k = .commitOwner
      · obtain ⟨-, -, -, hsource, hdest⟩ := heff.commit hcommit
        exact .commit m' m o (by rw [hcommit]) hfind hk hsource hdest
      · exact .kept (heff.kept hcommit).2.1
    · have hmob : ∀ k m o, write ≠ .mobility k m o := fun k m o h => hmob ⟨k, m, o, h⟩
      obtain ⟨-, hsame⟩ := applyVolumeWrite_sound accepted (hc.sound x (.head hv)) hmob
      cases hcopy : x.currentCopy with
      | some c => exact .kept (hsame.copy (by simp [hcopy]))
      | none =>
        cases hnext : y.currentCopy with
        | none => exact .kept (by rw [hnext, hcopy])
        | some c => exact .initial c hcopy hnext (hsame.initial hcopy c hnext)
  | move current accepted => exact hsame rfl
  | create named identified absent unique => exact hsame rfl
  | @ensureCleanup spec x journal current deleting operation target accepted =>
    obtain rfl : x = v := Option.some.inj (current.symm.trans hv)
    obtain rfl := Option.some.inj hw
    exact .kept rfl
  | updateCleanup current accepted => exact hsame rfl
  | remove current removable => simp at hw

theorem Descended.commit_fresh (hd : Descended s h) {name : String} (hfind : s.moves.find name = some m)
    (hv : s.volume = some v) (hsource : SourceHeld m v) (hdest : m.status.destinationCopy = some d) :
    ¬CopySeen h d := by
  intro hseen
  obtain ⟨-, c, hc, hvc, -⟩ := hsource
  exact (hd.spent name m d c hfind hdest hc hseen).2 v hv hvc

/-! ### One operation -/

/-- A copy seen after an operation was seen before it, is the volume's first copy, or was just committed. -/
theorem Coherent.seen_step (hc : Coherent s (s :: past)) (hs : StaleStep (s :: past) op t)
    (hseen : CopySeen (t :: s :: past) c) : CopySeen (s :: past) c ∨ ∃ v w, s.volume = some v ∧ t.volume = some w ∧
      w.currentCopy = some c ∧ CopyStep s v w op ∧ w.currentCopy ≠ v.currentCopy := by
  rcases copySeen_cons.mp hseen with hnew | hold
  · obtain ⟨w, hw, hwc⟩ := Option.bind_eq_some_iff.mp hnew
    obtain ⟨v, hv, -⟩ := hc.volume_step hs hw
    by_cases hsame : w.currentCopy = v.currentCopy
    · exact Or.inl (.head hv (hsame ▸ hwc))
    · exact Or.inr ⟨v, w, hv, hw, hwc, hc.copy_step hs hv hw, hsame⟩
  · exact Or.inl hold

theorem Descended.distinct_step (hd : Descended s h) (hs : StoreStep s op t) : ∀ name m name' m',
    t.moves.find name = some m → t.moves.find name' = some m' → m.uid = m'.uid → name = name' := by
  cases hs with
  | @move other write k n current accepted =>
    have hk := (applyMoveWrite_inv accepted).continues
    have hback : ∀ name m, (s.moves.put n).find name = some m → ∃ k, s.moves.find name = some k ∧ k.uid = m.uid := by
      intro name m hm
      rw [Table.find_put] at hm
      split at hm
      · rename_i hname
        obtain rfl : n = m := Option.some.inj hm
        exact ⟨k, by rw [← hname, hk.name, Table.key_of_find current, current], hk.uid.symm⟩
      · exact ⟨m, hm, rfl⟩
    intro name m name' m' hm hm' huid
    obtain ⟨k, hk, hku⟩ := hback name m hm
    obtain ⟨k', hk', hku'⟩ := hback name' m' hm'
    exact hd.distinct name k name' k' hk hk' (by rw [hku, hku', huid])
  | @create other uid node named identified absent unique =>
    intro name m name' m' hm hm' huid
    rw [Table.find_put] at hm hm'
    split at hm <;> split at hm'
    · rename_i hname hname'
      rw [← hname, ← hname']
    · obtain rfl := Option.some.inj hm
      exact absurd huid.symm (unique m' (Table.mem_of_find hm'))
    · obtain rfl := Option.some.inj hm'
      exact absurd huid (unique m (Table.mem_of_find hm))
    · exact hd.distinct name m name' m' hm hm' huid
  | _ => exact hd.distinct

theorem Descended.origin_step (hd : Descended s (s :: past)) (hc : Coherent s (s :: past))
    (hs : StaleStep (s :: past) op t) : ∀ c, CopySeen (t :: s :: past) c →
      (∃ v, SeenVolume (t :: s :: past) v ∧ c.copyID = "initial-" ++ v.uid) ∨
        ∃ name m, t.moves.find name = some m ∧ m.status.destinationCopy = some c := by
  have hstep := Store.apply_inv (staleStep_cons.mp hs).2
  intro c hseen
  rcases hc.seen_step hs hseen with hold | ⟨v, w, hv, hw, hwc, hcopy, hne⟩
  · rcases hd.origin c hold with ⟨v, hv, hid⟩ | ⟨name, m, hm, hdest⟩
    · exact Or.inl ⟨v, hv.older, hid⟩
    · obtain ⟨n, hn, hk⟩ := hstep.find_move hm
      exact Or.inr ⟨name, n, hn, hk.destination c hdest⟩
  · cases hcopy with
    | kept same => exact absurd same hne
    | initial d before after named =>
      obtain rfl : d = c := Option.some.inj (after.symm.trans hwc)
      exact Or.inl ⟨v, SeenVolume.older (.head hv), named⟩
    | commit m' m o write stored continues source destination =>
      obtain ⟨-, -, d, hdest, hwd, -⟩ := destination
      obtain rfl : d = c := Option.some.inj (hwd.symm.trans hwc)
      obtain ⟨n, hn, hk⟩ := hstep.find_move stored
      exact Or.inr ⟨_, n, hn, hk.destination d hdest⟩

theorem Descended.same_move (hd : Descended s h) (hc : Coherent s h) {name name' : String} {m m' : Move}
    (hm : s.moves.find name = some m) (hm' : s.moves.find name' = some m') (hdest : m.status.destinationCopy = some d)
    (hdest' : m'.status.destinationCopy = some d) : name = name' := by
  refine hd.distinct name m name' m' hm hm' (moveCopyID_injective ?_)
  rw [← ((hc.bound name m hm).sound.destination_id hdest).1, ← ((hc.bound name' m' hm').sound.destination_id hdest').1]

theorem Descended.spent_old (hd : Descended s (s :: past)) (hc : Coherent s (s :: past))
    (hs : StaleStep (s :: past) op t) {name : String} {source : CopyIdentity} (hm : s.moves.find name = some m)
    (hdest : m.status.destinationCopy = some d) (hsource : m.status.sourceCopy = some source)
    (hseen : CopySeen (s :: past) d) :
    CopySeen (s :: past) source ∧ ∀ w, t.volume = some w → w.currentCopy ≠ some source := by
  obtain ⟨hsrc, hne⟩ := hd.spent name m d source hm hdest hsource hseen
  refine ⟨hsrc, fun w hw hwc => ?_⟩
  obtain ⟨v, hv, -⟩ := hc.volume_step hs hw
  cases hc.copy_step hs hv hw with
  | kept same => exact hne v hv (same ▸ hwc)
  | initial c before after named => exact hd.unstarted v hv before d hseen
  | commit m' k o write stored continues hsource' destination =>
    -- the committed copy never served, the source of a spent Move did
    obtain ⟨-, -, e, he, hwe, -⟩ := destination
    obtain rfl : e = source := Option.some.inj (hwe.symm.trans hwc)
    exact hd.commit_fresh stored hv hsource' he hsrc

theorem Descended.spent_new (hd : Descended s (s :: past)) (hc : Coherent s (s :: past)) {name : String}
    {source : CopyIdentity} (hm : s.moves.find name = some m) (hdest : m.status.destinationCopy = some d)
    (hsource : m.status.sourceCopy = some source) (hv : s.volume = some v) (hwc : w.currentCopy = some d)
    (hcopy : CopyStep s v w op) (hne : w.currentCopy ≠ v.currentCopy) :
    CopySeen (s :: past) source ∧ w.currentCopy ≠ some source := by
  have hid := (hc.bound name m hm).sound.destination_id hdest
  cases hcopy with
  | kept same => exact absurd same hne
  | initial c before after named =>
    obtain rfl : c = d := Option.some.inj (after.symm.trans hwc)
    exact absurd (hid.1.symm.trans named) moveCopyID_ne_initial
  | commit m' k o write stored continues hsource' destination =>
    obtain ⟨-, -, e, he, hwe, -⟩ := destination
    obtain rfl : e = d := Option.some.inj (hwe.symm.trans hwc)
    obtain rfl := hd.same_move hc hm stored hdest he
    obtain rfl : m = k := Option.some.inj (hm.symm.trans stored)
    obtain ⟨-, c, hc', hvc, -⟩ := hsource'
    obtain rfl : c = source := Option.some.inj (hc'.symm.trans hsource)
    obtain ⟨other, hother, hapart⟩ := hid.2
    obtain rfl : other = c := Option.some.inj (hother.symm.trans hsource)
    exact ⟨.head hv hvc, by rw [hwc]; exact fun h => hapart (Option.some.inj h)⟩

theorem Descended.spent_step (hd : Descended s (s :: past)) (hc : Coherent s (s :: past))
    (hs : StaleStep (s :: past) op t) : ∀ name n d source, t.moves.find name = some n →
      n.status.destinationCopy = some d → n.status.sourceCopy = some source → CopySeen (t :: s :: past) d →
      CopySeen (t :: s :: past) source ∧ ∀ v, t.volume = some v → v.currentCopy ≠ some source := by
  intro name n d source hn hdest hsource hseen
  have hstep := Store.apply_inv (staleStep_cons.mp hs).2
  have hnsound := (hc.step hs).bound name n hn
  -- the version before the operation; one that had no destination yet cannot have committed
  have hplanned : ∀ m, s.moves.find name = some m → Continues m n → m.status.destinationCopy = some d →
      CopySeen (t :: s :: past) source ∧ ∀ v, t.volume = some v → v.currentCopy ≠ some source := by
    intro m hm hk hmdest
    obtain ⟨-, src, hsrc, -⟩ := (hc.bound name m hm).sound.destination_id hmdest
    obtain rfl : src = source := Option.some.inj ((hk.source src hsrc).symm.trans hsource)
    rcases hc.seen_step hs hseen with hold | ⟨v, w, hv, hw, hwc, hcopy, hne⟩
    · obtain ⟨h1, h2⟩ := hd.spent_old hc hs hm hmdest hsrc hold
      exact ⟨h1.older, h2⟩
    · obtain ⟨h1, h2⟩ := hd.spent_new hc hm hmdest hsrc hv hwc hcopy hne
      refine ⟨h1.older, fun x hx => ?_⟩
      obtain rfl : w = x := Option.some.inj (hw.symm.trans hx)
      exact h2
  rcases hstep.find_back hn with hsame | ⟨hvol, ⟨m, write, hm, hw⟩ | ⟨-, uid, node, rfl, -⟩⟩
  · exact hplanned n hsame (.refl n) hdest
  · have hk := (applyMoveWrite_inv hw).continues
    cases hmd : m.status.destinationCopy with
    | some e =>
      obtain rfl : e = d := Option.some.inj ((hk.destination e hmd).symm.trans hdest)
      exact hplanned m hm hk hmd
    | none =>
      have hold : CopySeen (s :: past) d := by
        rcases copySeen_cons.mp hseen with hnew | hold
        · rw [hvol] at hnew
          exact copySeen_cons.mpr (Or.inl hnew)
        · exact hold
      rcases hd.origin d hold with ⟨v, -, hid⟩ | ⟨name', m', hm', hdest'⟩
      · exact absurd ((hnsound.sound.destination_id hdest).1.symm.trans hid) moveCopyID_ne_initial
      · have huid : m.uid = m'.uid := by
          refine moveCopyID_injective ?_
          rw [← ((hc.bound name' m' hm').sound.destination_id hdest').1, ← hk.uid,
            ← (hnsound.sound.destination_id hdest).1]
        obtain rfl := hd.distinct name m name' m' hm hm' huid
        obtain rfl : m = m' := Option.some.inj (hm.symm.trans hm')
        simp [hmd] at hdest'
  · simp [ShiftPV.createMove, MoveStatus.empty] at hdest

theorem Descended.step (hd : Descended s (s :: past)) (hc : Coherent s (s :: past)) (hs : StaleStep (s :: past) op t) :
    Descended t (t :: s :: past) where
  origin := hd.origin_step hc hs
  spent := hd.spent_step hc hs
  unstarted w hw hnone c hseen := by
    obtain ⟨v, hv, -⟩ := hc.volume_step hs hw
    have hvnone : v.currentCopy = none := by
      cases hc.copy_step hs hv hw with
      | kept same => rw [← same, hnone]
      | initial d before after named => exact before
      | commit m' m o write stored continues source destination =>
        obtain ⟨-, -, e, -, hwe, -⟩ := destination
        simp [hnone] at hwe
    rcases copySeen_cons.mp hseen with hnew | hold
    · simp [hw, hnone] at hnew
    · exact hd.unstarted v hv hvnone c hold
  distinct := hd.distinct_step (Store.apply_inv (staleStep_cons.mp hs).2)

theorem StaleRun.descended (hr : StaleRun (s :: past)) : Descended s (s :: past) := by
  have h := Run.invariant (I := fun h => ∀ s past, h = s :: past → Descended s h) ?_ ?_ hr
  · exact h s past rfl
  · rintro s hs t past heq
    cases heq
    exact descended_initial hs
  · rintro s t past op hr ih hs u past' heq
    cases heq
    exact (ih s past rfl).step (StaleRun.coherent hr) hs

/-! ### Runs -/

theorem lineage_head (hv : s.volume = some v) (hc : v.currentCopy = some c) :
    (lineage (s :: past)).head? = some c := by
  simp only [lineage, hv, Option.bind_some, hc]
  split
  · assumption
  · rfl

/-- The current copy after an operation, when it changed, never served before. -/
theorem StaleRun.copy_fresh (hr : StaleRun (s :: past)) (hs : StaleStep (s :: past) op t) (hv : s.volume = some v)
    (hw : t.volume = some w) (hwc : w.currentCopy = some c) (hne : v.currentCopy ≠ some c) :
    ¬CopySeen (s :: past) c := by
  have hd := StaleRun.descended hr
  cases (StaleRun.coherent hr).copy_step hs hv hw with
  | kept same => exact absurd (same ▸ hwc) hne
  | initial d before after named => exact hd.unstarted v hv before c
  | commit m' m o write stored continues source destination =>
    obtain ⟨-, -, e, he, hwe, -⟩ := destination
    obtain rfl : e = c := Option.some.inj (hwe.symm.trans hwc)
    exact hd.commit_fresh stored hv source he

theorem StaleRun.lineage_nodup (hr : StaleRun h) : (lineage h).Nodup := by
  induction hr with
  | @start s hs =>
    unfold lineage
    split
    · exact List.nodup_nil
    · split
      · exact List.nodup_nil
      · exact List.nodup_singleton _
  | @next s t past op hr hs ih =>
    rw [lineage]
    split
    · exact ih
    · rename_i c hc
      split
      · exact ih
      · rename_i hhead
        refine List.nodup_cons.mpr ⟨fun hmem => ?_, ih⟩
        obtain ⟨w, hw, hwc⟩ := Option.bind_eq_some_iff.mp hc
        obtain ⟨v, hv, -⟩ := (StaleRun.coherent hr).volume_step hs hw
        have hne : v.currentCopy ≠ some c := fun hvc => hhead (lineage_head hv hvc)
        exact StaleRun.copy_fresh hr hs hv hw hwc hne (mem_lineage.mp hmem)

theorem Coherent.commit_step (hc : Coherent s (s :: past)) {m' : Move} {o : State}
    (hs : StaleStep (s :: past) (.volume (.mobility .commitOwner m' o)) t) :
    ∃ v w m, s.volume = some v ∧ t.volume = some w ∧ s.moves.find m'.name = some m ∧ Continues m' m ∧
      SourceHeld m v ∧ DestinationHeld m w ∧ m'.status.sourceCopy = m.status.sourceCopy ∧
      m'.status.destinationCopy = m.status.destinationCopy := by
  obtain ⟨hobs, happly⟩ := staleStep_cons.mp hs
  cases Store.apply_inv happly with
  | @volume _ v w current accepted =>
    have hcommit : applyMobilityWrite .commitOwner m' o v = .ok w := accepted
    obtain ⟨m, hfind, hk, heff⟩ := hc.effect hobs.1 hobs.2 current hcommit
    obtain ⟨-, -, -, hsource, hdest⟩ := heff.commit rfl
    obtain ⟨source, target, hcommitted⟩ := commitOwner_inv hcommit
    refine ⟨v, w, m, current, rfl, hfind, hk, hsource, hdest, ?_, ?_⟩
    · rw [hcommitted.sourceCopy, hk.source source hcommitted.sourceCopy]
    · rw [hcommitted.targetCopy, hk.destination target hcommitted.targetCopy]

theorem StaleRun.commit_once (hr : StaleRun (s :: past)) {m' : Move} {o : State}
    (hs : StaleStep (s :: past) (.volume (.mobility .commitOwner m' o)) t) {name : String}
    (hm : s.moves.find name = some m) (huid : m'.uid = m.uid) (hdest : m.status.destinationCopy = some d) :
    ¬CopySeen (s :: past) d := by
  have hc := StaleRun.coherent hr
  have hd := StaleRun.descended hr
  obtain ⟨v, w, k, hv, -, hfind, hk, hsource, -⟩ := hc.commit_step hs
  obtain rfl := hd.distinct name m m'.name k hm hfind (by rw [hk.uid, huid])
  obtain rfl : m = k := Option.some.inj (hm.symm.trans hfind)
  exact hd.commit_fresh hm hv hsource hdest

/-- The current copy, once set, changes only by an accepted owner commit, from the source to the destination
    copy of the Move that commits; no Move commits twice, and no copy serves twice. -/
theorem copy_lineage (hr : StaleRun h) :
    (∀ s op t v w c, h.head? = some s → StaleStep h op t → s.volume = some v → t.volume = some w →
      v.currentCopy = some c → w.currentCopy ≠ some c → ∃ m o d, op = .volume (.mobility .commitOwner m o) ∧
        m.status.sourceCopy = some c ∧ m.status.destinationCopy = some d ∧ w.currentCopy = some d) ∧
    (∀ l s t u past m m' o o', h = l ++ t :: s :: past →
      StaleStep (s :: past) (.volume (.mobility .commitOwner m o)) t →
      StaleStep h (.volume (.mobility .commitOwner m' o')) u → m'.uid ≠ m.uid) ∧
    (lineage h).Nodup := by
  refine ⟨?_, ?_, StaleRun.lineage_nodup hr⟩
  · rintro s op t v w c hhead hs hv hw hvc hne
    obtain ⟨past, rfl⟩ := List.head?_eq_some_iff.mp hhead
    have hc := StaleRun.coherent hr
    cases hc.copy_step hs hv hw with
    | kept same => exact absurd (same.trans hvc) hne
    | initial d before after named => simp [hvc] at before
    | commit m' m o write stored continues source destination =>
      subst write
      obtain ⟨x, y, k, hx, hy, hfind, -, ⟨-, c', hc', hxc, -⟩, ⟨-, -, d, hd, hyd, -⟩, hms, hmd⟩ := hc.commit_step hs
      obtain rfl : x = v := Option.some.inj (hx.symm.trans hv)
      obtain rfl : y = w := Option.some.inj (hy.symm.trans hw)
      obtain rfl : c' = c := Option.some.inj (hxc.symm.trans hvc)
      exact ⟨m', o, d, rfl, hms.trans hc', hmd.trans hd, hyd⟩
  · rintro l s t u past m m' o o' rfl hs hs' huid
    have hfirst : StaleRun (t :: s :: past) := Run.suffix hr
    cases hfirst with
    | next hrun hstep =>
      obtain ⟨v, w, k, hv, hw, hfind, hk, -, ⟨-, -, d, hd, hwd, -⟩, -⟩ := (StaleRun.coherent hrun).commit_step hs
      obtain ⟨x, rest, hx, hmem⟩ := Run.head_later l t (s :: past)
      -- the version of the Move that is stored when the second commit is attempted
      have hseen : CopySeen (x :: rest) d := hx ▸ ⟨w, ⟨t, by simp, hw⟩, hwd⟩
      have hmoveSeen : SeenMove (x :: rest) k :=
        hx ▸ ⟨s, by simp, by rw [Table.key_of_find hfind]; exact hfind⟩
      rw [hx] at hr hs'
      obtain ⟨n, hn, hkn⟩ := (StaleRun.coherent hr).moves k hmoveSeen
      exact StaleRun.commit_once hr hs' hn (by rw [huid, hkn.uid, hk.uid]) (hkn.destination d hd) hseen

theorem copy_lineage_migration :
    (lineage migration).map (·.copyID) = ["move-move-1-serving", "initial-volume-1"] ∧ (lineage migration).Nodup :=
  ⟨by decide +kernel, (copy_lineage migration_run).2.2⟩

end ShiftPV
