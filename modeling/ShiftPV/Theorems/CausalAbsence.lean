import ShiftPV.PoolScan
import ShiftPV.Theorems.JournalHistory

/-! Causal absence. Generations of one Pool only grow, so a scan that ran under a generation at or above the one a
    fence recorded began after the request behind that fence, and the request was made after the receipt was stored. -/

namespace ShiftPV
open Check

variable {trace l₁ l₂ l₃ : List ScanEvent} {event : ScanEvent} {authority : Authority} {receipt : PurgeReceipt}
  {uid : String} {g G : Int} {inventory : PoolInventory} {j k : Journal} {w w' : ScanWorld}

/-! ### Orders in a trace -/

/-- The scan request that got generation `G` was made after the receipt was stored. -/
def RequestedAfter (trace : List ScanEvent) (authority : Authority) (receipt : PurgeReceipt) (uid : String) (G : Int) : Prop :=
  ∃ l₁ l₂, trace = l₁ ++ .requested uid G :: l₂ ∧ .receiptStored authority receipt ∈ l₂

/-- A scan of the Pool ended in the inventory; the requests made since it began got generations above `g`. -/
def Scanned (trace : List ScanEvent) (uid : String) (g : Int) (inventory : PoolInventory) : Prop :=
  ∃ pass l₁ l₂ l₃, trace = l₁ ++ .scanEnded pass inventory :: (l₂ ++ .scanBegan pass uid :: l₃) ∧
    (∀ v, .scanBegan pass v ∉ l₂) ∧ ∀ G, .requested uid G ∈ l₁ ++ l₂ → g < G

/-- The same for the scan that a pass is running. -/
def Scanning (trace : List ScanEvent) (pass : Nat) (uid : String) (g : Int) : Prop :=
  ∃ l₂ l₃, trace = l₂ ++ .scanBegan pass uid :: l₃ ∧ (∀ v, .scanBegan pass v ∉ l₂) ∧ ∀ G, .requested uid G ∈ l₂ → g < G

/-- The inventory is complete, finds no problem, and does not show the copy. -/
structure ShowsAbsent (inventory : PoolInventory) (target : CopyIdentity) : Prop where
  valid : inventory.valid
  whole : inventory.truncated = false
  clean : inventory.message = "" ∧ ∀ c ∈ inventory.copies, c.problem = ""
  absent : ∀ c ∈ inventory.copies, c.identity = some target → c.isPresent = false ∧ c.published = false

/-- A scan of the target's Pool that began after the receipt was stored ended in such an inventory. -/
def AbsentAfter (trace : List ScanEvent) (authority : Authority) (receipt : PurgeReceipt) (target : CopyIdentity) : Prop :=
  ∃ pass inventory l₁ l₂ l₃,
    trace = l₁ ++ .scanEnded pass inventory :: (l₂ ++ .scanBegan pass target.poolUID :: l₃) ∧
      (∀ v, .scanBegan pass v ∉ l₂) ∧ .receiptStored authority receipt ∈ l₃ ∧ ShowsAbsent inventory target

theorem RequestedAfter.older (h : RequestedAfter trace authority receipt uid G) :
    RequestedAfter (event :: trace) authority receipt uid G := by
  obtain ⟨l₁, l₂, rfl, hr⟩ := h
  exact ⟨event :: l₁, l₂, rfl, hr⟩

variable {target : CopyIdentity}

theorem AbsentAfter.older (h : AbsentAfter trace authority receipt target) :
    AbsentAfter (event :: trace) authority receipt target := by
  obtain ⟨pass, inventory, l₁, l₂, l₃, rfl, rest⟩ := h
  exact ⟨pass, inventory, event :: l₁, l₂, l₃, rfl, rest⟩

theorem Scanned.older (h : Scanned trace uid g inventory) (he : ∀ G, event = .requested uid G → g < G) :
    Scanned (event :: trace) uid g inventory := by
  obtain ⟨pass, l₁, l₂, l₃, rfl, hsame, hafter⟩ := h
  refine ⟨pass, event :: l₁, l₂, l₃, rfl, hsame, fun G hG => ?_⟩
  rcases List.mem_cons.mp hG with rfl | hG
  · exact he G rfl
  · exact hafter G hG

theorem Scanning.older {pass : Nat} (h : Scanning trace pass uid g) (he : ∀ G, event = .requested uid G → g < G)
    (hscan : ∀ v, event ≠ .scanBegan pass v) : Scanning (event :: trace) pass uid g := by
  obtain ⟨l₂, l₃, rfl, hsame, hafter⟩ := h
  refine ⟨event :: l₂, l₃, rfl, fun v hv => ?_, fun G hG => ?_⟩
  · rcases List.mem_cons.mp hv with hv | hv
    · exact hscan v hv.symm
    · exact hsame v hv
  · rcases List.mem_cons.mp hG with rfl | hG
    · exact he G rfl
    · exact hafter G hG

theorem Scanning.ended {pass : Nat} (h : Scanning trace pass uid g) :
    Scanned (.scanEnded pass inventory :: trace) uid g inventory := by
  obtain ⟨l₂, l₃, rfl, hsame, hafter⟩ := h
  exact ⟨pass, [], l₂, l₃, rfl, hsame, by simpa using hafter⟩

/-- An event that is not in the newer part of a trace is in the older one, with all that came before it. -/
theorem mem_older {α : Type} {p q a b : List α} {x : α} (h : p ++ q = a ++ x :: b) (hx : x ∉ p) : ∀ y ∈ b, y ∈ q := by
  induction p generalizing a with
  | nil =>
    intro y hy
    rw [show q = a ++ x :: b from h]
    simp [hy]
  | cons c p ih =>
    rw [List.mem_cons, not_or] at hx
    cases a with
    | nil => exact absurd (List.cons.inj h).1.symm hx.1
    | cons d a => exact ih (List.cons.inj h).2 hx.2

/-- A scan under a generation at or above the fence began after the receipt. -/
theorem Scanned.after (hs : Scanned trace target.poolUID g inventory)
    (hr : RequestedAfter trace authority receipt target.poolUID G) (hG : G ≤ g) (ha : ShowsAbsent inventory target) :
    AbsentAfter trace authority receipt target := by
  obtain ⟨pass, l₁, l₂, l₃, rfl, hsame, hafter⟩ := hs
  obtain ⟨a, b, hsplit, hstored⟩ := hr
  refine ⟨pass, inventory, l₁, l₂, l₃, rfl, hsame, ?_, ha⟩
  have hnewer : .requested target.poolUID G ∉ l₁ ++ .scanEnded pass inventory :: (l₂ ++ [.scanBegan pass target.poolUID]) := by
    intro hmem
    have hin : .requested target.poolUID G ∈ l₁ ++ l₂ := by simpa using hmem
    exact absurd (hafter G hin) (not_lt.mpr hG)
  exact mem_older (q := l₃) (by simpa using hsplit) hnewer _ hstored

/-! ### Journals, calls and passes -/

structure JournalTraced (trace : List ScanEvent) (authority : Authority) (j : Journal) : Prop where
  sound : JournalSound authority j
  stored : ∀ r, j.status.receipt = some r → .receiptStored authority r ∈ trace
  fenced : j.status.phase = .confirmingAbsence ∨ j.status.phase = .completed → ∀ r proof, j.status.receipt = some r →
    j.status.absenceProof = some proof → RequestedAfter trace authority r j.spec.target.poolUID proof.requiredGeneration
  settled : j.status.phase = .completed → ∃ r, j.status.receipt = some r ∧ AbsentAfter trace authority r j.spec.target

theorem JournalTraced.older (h : JournalTraced trace authority j) : JournalTraced (event :: trace) authority j where
  sound := h.sound
  stored r hr := List.mem_cons_of_mem _ (h.stored r hr)
  fenced hp r proof hr hproof := (h.fenced hp r proof hr hproof).older
  settled hp := by
    obtain ⟨r, hr, ha⟩ := h.settled hp
    exact ⟨r, hr, ha.older⟩

/-- What a call of `ReconcileAbsence` knows: its journal was stored, its request came after the receipt, and its proof
    stands on a scan after the receipt. -/
structure CallTraced (trace : List ScanEvent) (call : AbsenceCall) : Prop where
  journal : JournalTraced trace call.authority call.journal
  requested : ∀ G, call.stage = .requested G → ∃ r, call.journal.status.receipt = some r ∧
    RequestedAfter trace call.authority r call.journal.spec.target.poolUID G
  proven : ∀ G, call.stage = .proven G → call.journal.status.phase = .confirmingAbsence ∧
    ∃ r, call.journal.status.receipt = some r ∧ AbsentAfter trace call.authority r call.journal.spec.target

theorem CallTraced.older {call : AbsenceCall} (h : CallTraced trace call) : CallTraced (event :: trace) call where
  journal := h.journal.older
  requested G hG := by
    obtain ⟨r, hr, ha⟩ := h.requested G hG
    exact ⟨r, hr, ha.older⟩
  proven G hG := by
    obtain ⟨hp, r, hr, ha⟩ := h.proven G hG
    exact ⟨hp, r, hr, ha.older⟩

/-- A pass reads a registered Pool, whose generation only grows; its scan runs under the generation it read. -/
structure PassTraced (pools : Table Pool.name) (trace : List ScanEvent) (slot : Nat) (pass : NodePass) : Prop where
  registered : .registered pass.pool.uid ∈ trace
  behind : ∀ n p, pools.find n = some p → p.uid = pass.pool.uid → pass.pool.generation ≤ p.generation
  scanning : pass.stage = .scanning → Scanning trace slot pass.pool.uid pass.pool.generation
  scanned : ∀ inventory, pass.stage = .scanned inventory → Scanned trace pass.pool.uid pass.pool.generation inventory

structure PoolTraced (trace : List ScanEvent) (p : Pool) : Prop where
  registered : .registered p.uid ∈ trace
  ahead : ∀ G, .requested p.uid G ∈ trace → G ≤ p.generation
  observed : ∀ inventory, p.status.inventory = some inventory → p.status.observedGeneration ≤ p.generation ∧
    (inventory.valid → Scanned trace p.uid p.status.observedGeneration inventory)

theorem PoolTraced.older {p : Pool} (h : PoolTraced trace p) (he : ∀ u G, event ≠ .requested u G) : PoolTraced (event :: trace) p where
  registered := List.mem_cons_of_mem _ h.registered
  ahead G hG := by
    rcases List.mem_cons.mp hG with hG | hG
    · exact absurd hG.symm (he _ _)
    · exact h.ahead G hG
  observed inventory hi := by
    obtain ⟨hle, hscan⟩ := h.observed inventory hi
    exact ⟨hle, fun hv => (hscan hv).older fun _ hG => absurd hG (he _ _)⟩

theorem PassTraced.older {pools : Table Pool.name} {slot : Nat} {pass : NodePass} (h : PassTraced pools trace slot pass)
    (he : ∀ u G, event ≠ .requested u G) (hscan : ∀ v, event ≠ .scanBegan slot v) :
    PassTraced pools (event :: trace) slot pass where
  registered := List.mem_cons_of_mem _ h.registered
  behind := h.behind
  scanning hs := (h.scanning hs).older (fun _ hG => absurd hG (he _ _)) hscan
  scanned inventory hs := (h.scanned inventory hs).older fun _ hG => absurd hG (he _ _)

structure ScanSound (w : ScanWorld) : Prop where
  pools : ∀ n p, w.pools.find n = some p → PoolTraced w.trace p
  unique : ∀ n n' p p', w.pools.find n = some p → w.pools.find n' = some p' → p.uid = p'.uid → n = n'
  known : ∀ u G, .requested u G ∈ w.trace → .registered u ∈ w.trace
  journals : ∀ a p j, w.parents.find a = some p → p.cleanup = some j → JournalTraced w.trace a j
  calls : ∀ c call, w.calls c = some call → CallTraced w.trace call
  passes : ∀ i pass, w.passes i = some pass → PassTraced w.pools w.trace i pass

/-! ### Steps of the parts -/

theorem ScanSound.setCall (hw : ScanSound w) {c : Nat} {next : Option AbsenceCall}
    (hnext : ∀ call, next = some call → CallTraced w.trace call) : ScanSound (w.setCall c next) where
  pools := hw.pools
  unique := hw.unique
  known := hw.known
  journals := hw.journals
  calls c' call h := by
    simp only [ScanWorld.setCall] at h
    split at h
    · exact hnext call h
    · exact hw.calls c' call h
  passes := hw.passes

theorem ScanSound.setPass (hw : ScanSound w) {i : Nat} {next : Option NodePass}
    (hnext : ∀ pass, next = some pass → PassTraced w.pools w.trace i pass) : ScanSound (w.setPass i next) where
  pools := hw.pools
  unique := hw.unique
  known := hw.known
  journals := hw.journals
  calls := hw.calls
  passes i' pass h := by
    simp only [ScanWorld.setPass] at h
    split at h
    · rename_i hi
      exact hi ▸ hnext pass h
    · exact hw.passes i' pass h

theorem ScanSound.record (hw : ScanSound w) (he : ∀ u G, event ≠ .requested u G)
    (hscan : ∀ i v, event = .scanBegan i v → w.passes i = none) : ScanSound (w.record event) where
  pools n p h := (hw.pools n p h).older he
  unique := hw.unique
  known u G h := by
    rcases List.mem_cons.mp h with h | h
    · exact absurd h.symm (he u G)
    · exact List.mem_cons_of_mem _ (hw.known u G h)
  journals a p j hp hj := (hw.journals a p j hp hj).older
  calls c call h := (hw.calls c call h).older
  passes i pass h := (hw.passes i pass h).older he fun v hv => by
    have hnone := hscan i v hv
    simp [show w.passes i = some pass from h] at hnone

/-- A Pool is replaced by a later version of it, with or without a scan request for it. -/
structure PoolAdvance (p q : Pool) : Prop where
  name : q.name = p.name
  uid : q.uid = p.uid
  generation : p.generation ≤ q.generation
  status : q.status = p.status

theorem PoolAdvance.traced {p q : Pool} (hpq : PoolAdvance p q) (hp : PoolTraced trace p) : PoolTraced trace q where
  registered := hpq.uid ▸ hp.registered
  ahead G hG := (hp.ahead G (hpq.uid ▸ hG)).trans hpq.generation
  observed inventory hi := by
    rw [hpq.status] at hi ⊢
    obtain ⟨hle, hscan⟩ := hp.observed inventory hi
    exact ⟨hle.trans hpq.generation, fun hv => hpq.uid ▸ hscan hv⟩

section Put
variable {p q : Pool} {n : String}

theorem find_put_pool (hp : w.pools.find n = some p) (hname : q.name = p.name) {n' : String} {p' : Pool}
    (h : (w.pools.put q).find n' = some p') : n' = n ∧ p' = q ∨ n' ≠ n ∧ w.pools.find n' = some p' := by
  have hn : q.name = n := hname.trans (Table.key_of_find hp)
  rw [Table.find_put, hn] at h
  split at h
  · rename_i hnn
    exact Or.inl ⟨hnn.symm, (Option.some.inj h).symm⟩
  · rename_i hnn
    exact Or.inr ⟨Ne.symm hnn, h⟩

theorem ScanSound.advance (hw : ScanSound w) (hp : w.pools.find n = some p) (hpq : PoolAdvance p q) :
    ScanSound { w with pools := w.pools.put q } where
  pools n' p' h := by
    rcases find_put_pool hp hpq.name h with ⟨-, rfl⟩ | ⟨-, h⟩
    · exact hpq.traced (hw.pools n p hp)
    · exact hw.pools n' p' h
  unique n₁ n₂ p₁ p₂ h₁ h₂ huid := by
    rcases find_put_pool hp hpq.name h₁ with ⟨rfl, rfl⟩ | ⟨-, hold₁⟩ <;>
      rcases find_put_pool hp hpq.name h₂ with ⟨rfl, rfl⟩ | ⟨-, hold₂⟩
    · rfl
    · exact hw.unique _ _ _ _ hp hold₂ (hpq.uid ▸ huid)
    · exact hw.unique _ _ _ _ hold₁ hp (huid.trans hpq.uid)
    · exact hw.unique _ _ _ _ hold₁ hold₂ huid
  known := hw.known
  journals := hw.journals
  calls := hw.calls
  passes i pass h := by
    obtain ⟨hreg, hbehind, hscanning, hscanned⟩ := hw.passes i pass h
    refine ⟨hreg, fun n' p' hp' huid => ?_, hscanning, hscanned⟩
    rcases find_put_pool hp hpq.name hp' with ⟨-, rfl⟩ | ⟨-, hp'⟩
    · exact (hbehind n p hp (hpq.uid ▸ huid)).trans hpq.generation
    · exact hbehind n' p' hp' huid

/-- A scan request advances its Pool past every generation that a pass or a report of the Pool has seen. -/
theorem ScanSound.requested (hw : ScanSound w) (hp : w.pools.find n = some p) (hpq : PoolAdvance p q)
    (hgrow : p.generation < q.generation) :
    ScanSound ({ w with pools := w.pools.put q }.record (.requested q.uid q.generation)) := by
  have hw' := hw.advance hp hpq
  have hq : (w.pools.put q).find n = some q := by
    have hn : q.name = n := hpq.name.trans (Table.key_of_find hp)
    rw [← hn]
    exact Table.find_put_self
  refine ⟨fun n' p' h => ?_, hw'.unique, fun u G h => ?_, fun a p j h hj => (hw'.journals a p j h hj).older,
    fun c call h => (hw'.calls c call h).older, fun i pass h => ?_⟩
  · obtain ⟨hreg, hahead, hobs⟩ := hw'.pools n' p' h
    refine ⟨List.mem_cons_of_mem _ hreg, fun G hG => ?_, fun inventory hi => ?_⟩
    · rcases List.mem_cons.mp hG with hG | hG
      · obtain ⟨huid, rfl⟩ : p'.uid = q.uid ∧ G = q.generation := by simpa using hG
        obtain rfl := hw'.unique _ _ _ _ h hq huid
        obtain rfl : p' = q := Option.some.inj (h.symm.trans hq)
        exact le_refl _
      · exact hahead G hG
    · obtain ⟨hle, hscan⟩ := hobs inventory hi
      refine ⟨hle, fun hv => (hscan hv).older fun G hG => ?_⟩
      -- the requested Pool itself: its report is from before the request
      obtain ⟨huid, rfl⟩ : q.uid = p'.uid ∧ q.generation = G := by simpa using hG
      obtain rfl := hw'.unique _ _ _ _ hq h huid
      obtain rfl : q = p' := Option.some.inj (hq.symm.trans h)
      obtain ⟨hbefore, -⟩ := (hw.pools n p hp).observed inventory (hpq.status ▸ hi)
      rw [hpq.status]
      exact lt_of_le_of_lt hbefore hgrow
  · rcases List.mem_cons.mp h with h | h
    · obtain ⟨rfl, rfl⟩ : u = q.uid ∧ G = q.generation := by simpa using h
      exact List.mem_cons_of_mem _ (hw'.pools n q hq).registered
    · exact List.mem_cons_of_mem _ (hw'.known u G h)
  · obtain ⟨hreg, hbehind, hscanning, hscanned⟩ := hw'.passes i pass h
    have hlate : ∀ G, ScanEvent.requested q.uid q.generation = .requested pass.pool.uid G → pass.pool.generation < G := by
      intro G hG
      obtain ⟨huid, rfl⟩ : q.uid = pass.pool.uid ∧ q.generation = G := by simpa using hG
      exact lt_of_le_of_lt ((hw.passes i pass h).behind n p hp (hpq.uid ▸ huid)) hgrow
    refine ⟨List.mem_cons_of_mem _ hreg, hbehind, fun hs => (hscanning hs).older hlate (by simp), fun inventory hs => ?_⟩
    exact (hscanned inventory hs).older hlate

end Put

/-! ### Journal writes -/

theorem recordReceipt_cases (w : ScanWorld) (before after : CleanupParent) :
    (w.recordReceipt before after = w ∧
        ∀ r, after.cleanup.bind (·.status.receipt) = some r → before.cleanup.bind (·.status.receipt) = some r) ∨
      ∃ r, after.cleanup.bind (·.status.receipt) = some r ∧
        w.recordReceipt before after = w.record (.receiptStored after.authority r) := by
  unfold ScanWorld.recordReceipt
  split
  · rename_i hnone
    exact Or.inl ⟨rfl, by simp [hnone]⟩
  · rename_i r hr
    split
    · rename_i hsame
      refine Or.inl ⟨rfl, fun r' hr' => ?_⟩
      rwa [← hr'.symm.trans hr] at hsame
    · exact Or.inr ⟨r, hr, rfl⟩

variable {write : JournalWrite}

theorem writeJournal_inv (h : w.writeJournal authority write = .ok w') :
    ∃ parent next, w.parents.find authority = some parent ∧ parent.write write = .ok next ∧
      w' = { w with parents := w.parents.put next }.recordReceipt parent next := by
  simp only [ScanWorld.writeJournal, bind_ok, pure_ok] at h
  obtain ⟨parent, hparent, next, hnext, rfl⟩ := h
  refine ⟨parent, next, ?_, hnext, rfl⟩
  unfold found at hparent
  split at hparent
  · rename_i row hrow
    rw [hrow, ← pure_ok.mp hparent]
  · simp at hparent

theorem found_ok {α : Type} {row : Option α} {message : String} {a : α} : found row message = .ok a ↔ row = some a := by
  cases row with
  | none => simp [found]
  | some b => simp [found]

theorem ScanSound.writeJournal (hw : ScanSound w) (h : w.writeJournal authority write = .ok w')
    (hstored : ∀ parent next k, w.parents.find authority = some parent → parent.write write = .ok next →
      next.cleanup = some k → (∀ r, k.status.receipt = some r → .receiptStored authority r ∈ w'.trace) →
      (∀ j, parent.cleanup = some j → JournalTraced w'.trace authority j) → JournalTraced w'.trace authority k) :
    ScanSound w' := by
  obtain ⟨parent, next, hparent, hwrite, rfl⟩ := writeJournal_inv h
  have hkey : next.authority = authority := (CleanupParent.write_inv hwrite).1.trans (Table.key_of_find hparent)
  set w₁ : ScanWorld := { w with parents := w.parents.put next } with hw₁
  -- only the parents change, and the trace by the event of a new receipt
  have hbase : ScanSound { w₁.recordReceipt parent next with parents := w.parents } := by
    rcases recordReceipt_cases w₁ parent next with ⟨hsame, -⟩ | ⟨r, -, hnew⟩
    · rw [hsame]
      exact hw
    · rw [hnew]
      exact hw.record (by simp) (by simp)
  have hreceipt : ∀ k r, next.cleanup = some k → k.status.receipt = some r →
      .receiptStored authority r ∈ (w₁.recordReceipt parent next).trace := by
    intro k r hk hr
    have hafter : next.cleanup.bind (·.status.receipt) = some r := by simp [hk, hr]
    rcases recordReceipt_cases w₁ parent next with ⟨hsame, hbefore⟩ | ⟨r', hr', hnew⟩
    · obtain ⟨j, hj, hjr⟩ := Option.bind_eq_some_iff.mp (hbefore r hafter)
      rw [hsame]
      exact (hw.journals authority parent j hparent hj).stored r hjr
    · obtain rfl : r' = r := Option.some.inj (hr'.symm.trans hafter)
      rw [hnew, hkey]
      exact List.mem_cons_self
  have hparents : (w₁.recordReceipt parent next).parents = w.parents.put next := by
    rcases recordReceipt_cases w₁ parent next with ⟨hsame, -⟩ | ⟨r, -, hnew⟩
    · rw [hsame]
    · rw [hnew]
      rfl
  refine ⟨hbase.pools, hbase.unique, hbase.known, fun a p k hp hk => ?_, hbase.calls, hbase.passes⟩
  rw [hparents, Table.find_put, hkey] at hp
  split at hp
  · rename_i ha
    subst ha
    obtain rfl := Option.some.inj hp
    refine hstored parent next k hparent hwrite hk (fun r hr => hreceipt k r hk hr) fun j hj => ?_
    exact hbase.journals authority parent j hparent hj
  · exact hbase.journals a p k hp hk

theorem CleanupParent.updateStatus_status {parent : CleanupParent} {expected : CleanupSpec} {status : CleanupStatus}
    (h : parent.updateStatus expected status = .ok k) :
    k.spec = expected ∧ k.status = status ∧ ∃ j, parent.cleanup = some j ∧ j.spec = expected ∧
      (j = k ∨ validateCleanupTransition j status = .ok ()) := by
  rw [CleanupParent.updateStatus, seq_ok, seq_ok, bind_ok] at h
  obtain ⟨-, -, slot, hslot, h⟩ := h
  have hcleanup := CleanupParent.journal_inv hslot
  split at h
  · simp at h
  · rename_i j
    rw [seq_ok, require_ok] at h
    obtain ⟨hspec, h⟩ := h
    split at h
    · rename_i hsame
      obtain rfl := pure_ok.mp h
      exact ⟨hspec, hsame, j, hcleanup.symm, hspec, Or.inl rfl⟩
    · rw [seq_ok, pure_ok] at h
      obtain ⟨htrans, rfl⟩ := h
      exact ⟨hspec, rfl, j, hcleanup.symm, hspec, Or.inr htrans⟩

theorem CleanupParent.ensure_existing {parent : CleanupParent} {spec : CleanupSpec} (h : parent.ensure spec = .ok k)
    (hj : parent.cleanup = some j) : k = j := by
  rw [CleanupParent.ensure, seq_ok, seq_ok, bind_ok] at h
  obtain ⟨-, -, slot, hslot, h⟩ := h
  rw [CleanupParent.journal_inv hslot, hj] at h
  exact (pure_ok.mp (seq_ok.mp h).2).symm

theorem ordinary_written {parent next : CleanupParent} (hwrite : parent.write write = .ok next)
    (hordinary : write.ordinary) (hk : next.cleanup = some k) :
    parent.cleanup = some k ∨ k.status.phase ≠ .confirmingAbsence ∧ k.status.phase ≠ .completed := by
  cases write with
  | ensure spec =>
    obtain ⟨k', hk', h⟩ := bind_ok.mp hwrite
    obtain rfl := pure_ok.mp h
    obtain rfl : k' = k := Option.some.inj hk
    cases hj : parent.cleanup with
    | none =>
      rw [CleanupParent.ensure_opened hk' hj]
      exact Or.inr ⟨by simp, by simp⟩
    | some j => exact Or.inl (by rw [CleanupParent.ensure_existing hk' hj])
  | updateStatus expected status =>
    obtain ⟨k', hk', h⟩ := bind_ok.mp hwrite
    obtain rfl := pure_ok.mp h
    obtain rfl : k' = k := Option.some.inj hk
    obtain ⟨-, hstatus, -⟩ := CleanupParent.updateStatus_status hk'
    simp only [JournalWrite.ordinary, Bool.and_eq_true, decide_eq_true_eq] at hordinary
    exact Or.inr (hstatus ▸ hordinary)
  | protect isProtected =>
    obtain rfl := pure_ok.mp hwrite
    exact Or.inl hk

theorem writeJournal_trace (h : w.writeJournal authority write = .ok w') :
    w'.trace = w.trace ∨ ∃ event, w'.trace = event :: w.trace := by
  obtain ⟨parent, next, -, -, rfl⟩ := writeJournal_inv h
  rcases recordReceipt_cases { w with parents := w.parents.put next } parent next with ⟨hsame, -⟩ | ⟨r, -, hnew⟩
  · exact Or.inl (by rw [hsame])
  · exact Or.inr ⟨_, by rw [hnew]; rfl⟩

/-! ### Steps of the system -/

theorem ScanSound.ordinary (hw : ScanSound w) (h : w.writeJournal authority write = .ok w')
    (hordinary : write.ordinary) : ScanSound w' := by
  refine hw.writeJournal h fun parent next k hparent hwrite hk hreceipt hbefore => ?_
  have hkey : parent.authority = _ := Table.key_of_find hparent
  have hsound := CleanupParent.write_sound hwrite hk fun j hj => hkey ▸ (hbefore j hj).sound
  rw [hkey] at hsound
  rcases ordinary_written hwrite hordinary hk with hsame | ⟨hconfirm, hcomplete⟩
  · exact hbefore k hsame
  · refine ⟨hsound, hreceipt, fun hp => ?_, fun hp => absurd hp hcomplete⟩
    rcases hp with hp | hp
    · exact absurd hp hconfirm
    · exact absurd hp hcomplete

/-- A call writes its journal: the fence it requested, or the proof it found. -/
theorem ScanSound.called {call : AbsenceCall} {status : CleanupStatus} (hw : ScanSound w)
    (h : w.writeJournal call.authority (.updateStatus call.journal.spec status) = .ok w')
    (hreceipt : status.receipt = call.journal.status.receipt)
    (hfence : ∀ r proof, status.receipt = some r → status.absenceProof = some proof →
      RequestedAfter w.trace call.authority r call.journal.spec.target.poolUID proof.requiredGeneration)
    (hsettled : status.phase = .completed → ∃ r, call.journal.status.receipt = some r ∧
      AbsentAfter w.trace call.authority r call.journal.spec.target) : ScanSound w' := by
  refine hw.writeJournal h fun parent next k hparent hwrite hk hstored hbefore => ?_
  have hkey : parent.authority = _ := Table.key_of_find hparent
  have hsound := CleanupParent.write_sound hwrite hk fun j hj => hkey ▸ (hbefore j hj).sound
  rw [hkey] at hsound
  obtain ⟨k', hk', hnext⟩ := bind_ok.mp hwrite
  obtain rfl := pure_ok.mp hnext
  obtain rfl : k' = k := Option.some.inj hk
  obtain ⟨hspec, hstatus, -⟩ := CleanupParent.updateStatus_status hk'
  refine ⟨hsound, hstored, fun _ r proof hr hproof => ?_, fun hp => ?_⟩
  · rw [hstatus] at hr hproof
    rw [hspec]
    rcases writeJournal_trace h with htrace | ⟨event, htrace⟩ <;> rw [htrace]
    · exact hfence r proof hr hproof
    · exact (hfence r proof hr hproof).older
  · rw [hstatus] at hp ⊢
    obtain ⟨r, hr, habsent⟩ := hsettled hp
    refine ⟨r, hreceipt.trans hr, ?_⟩
    rw [hspec]
    rcases writeJournal_trace h with htrace | ⟨event, htrace⟩ <;> rw [htrace]
    · exact habsent
    · exact habsent.older

theorem requestPoolScan_inv {raise : Nat} {p q : Pool} (h : requestPoolScan target raise p = .ok q) :
    p.uid = target.poolUID ∧ PoolAdvance p q ∧ p.generation < q.generation := by
  simp only [requestPoolScan, seq_ok, require_ok, pure_ok] at h
  obtain ⟨⟨huid, -⟩, -, -, ⟨hgrow, -⟩, rfl⟩ := h
  exact ⟨huid, ⟨rfl, rfl, le_of_lt hgrow, rfl⟩, hgrow⟩

theorem requestScan_inv {raise : Nat} (hw : ScanSound w) (h : w.requestScan target raise = .ok (w', G)) :
    ScanSound w' ∧ w'.trace = .requested target.poolUID G :: w.trace := by
  simp only [ScanWorld.requestScan, bind_ok, pure_ok, found_ok, Prod.mk.injEq] at h
  obtain ⟨p, hp, q, hq, rfl, rfl⟩ := h
  obtain ⟨huid, hadvance, hgrow⟩ := requestPoolScan_inv hq
  exact ⟨hw.requested hp hadvance hgrow, by rw [← huid, ← hadvance.uid]; rfl⟩

theorem inventoryProvesAbsence_inv {name nodeName : String}
    (h : inventoryProvesAbsence inventory name uid nodeName target) :
    (∀ c ∈ inventory.copies, c.problem = "") ∧
      ∀ c ∈ inventory.copies, c.identity = some target → c.isPresent = false ∧ c.published = false := by
  simp only [inventoryProvesAbsence, List.all_eq_true, Bool.and_eq_true, decide_eq_true_eq, Option.any_eq_true] at h
  refine ⟨fun c hc => (h c hc).1.2, fun c hc htarget => ?_⟩
  obtain ⟨-, identity, hidentity, -, hnot⟩ := h c hc
  obtain rfl : identity = target := Option.some.inj (hidentity.symm.trans htarget)
  simpa using hnot

theorem scanProvesAbsence_inv {p : Pool} (h : scanProvesAbsence j p = .ok (some g)) :
    p.uid = j.spec.target.poolUID ∧ ∃ proof inventory, j.status.absenceProof = some proof ∧
      p.status.inventory = some inventory ∧ proof.requiredGeneration ≤ p.status.observedGeneration ∧
      ShowsAbsent inventory j.spec.target := by
  unfold scanProvesAbsence at h
  rw [seq_ok, seq_ok, require_ok] at h
  obtain ⟨⟨huid, -⟩, -, h⟩ := h
  refine ⟨huid, ?_⟩
  split at h
  · rename_i proof inventory hproof hinventory
    split at h
    · rename_i hproven
      obtain ⟨-, hreached, hvalid, hwhole, hmessage, habsent⟩ := hproven
      obtain ⟨hproblem, habsent⟩ := inventoryProvesAbsence_inv habsent
      exact ⟨proof, inventory, hproof, hinventory, hreached, hvalid, by simpa using hwhole, ⟨hmessage, hproblem⟩, habsent⟩
    · simp at h
  · simp at h

theorem ScanSound.register {p : Pool} (hw : ScanSound w) (habsent : w.pools.find p.name = none)
    (hfresh : .registered p.uid ∉ w.trace) (hempty : p.status.inventory = none) :
    ScanSound ({ w with pools := w.pools.put p }.record (.registered p.uid)) := by
  have hcases : ∀ {n p'}, (w.pools.put p).find n = some p' → n = p.name ∧ p' = p ∨ w.pools.find n = some p' := by
    intro n p' h
    rw [Table.find_put] at h
    split at h
    · rename_i hn
      exact Or.inl ⟨hn.symm, (Option.some.inj h).symm⟩
    · exact Or.inr h
  have hother : ∀ {n p'}, w.pools.find n = some p' → p'.uid ≠ p.uid :=
    fun h huid => hfresh (huid ▸ (hw.pools _ _ h).registered)
  refine ⟨fun n p' h => ?_, fun n₁ n₂ p₁ p₂ h₁ h₂ huid => ?_, fun u G h => ?_,
    fun a q j hq hj => (hw.journals a q j hq hj).older, fun c call h => (hw.calls c call h).older, fun i pass h => ?_⟩
  · rcases hcases h with ⟨rfl, rfl⟩ | h
    · refine ⟨List.mem_cons_self, fun G hG => ?_, fun inventory hi => by simp [hempty] at hi⟩
      have hG' : .requested p'.uid G ∈ w.trace := by simpa [ScanWorld.record] using hG
      exact absurd (hw.known _ G hG') hfresh
    · exact (hw.pools n p' h).older (by simp)
  · rcases hcases h₁ with ⟨rfl, rfl⟩ | hold₁ <;> rcases hcases h₂ with ⟨rfl, rfl⟩ | hold₂
    · rfl
    · exact absurd huid.symm (hother hold₂)
    · exact absurd huid (hother hold₁)
    · exact hw.unique _ _ _ _ hold₁ hold₂ huid
  · have h' : .requested u G ∈ w.trace := by simpa [ScanWorld.record] using h
    exact List.mem_cons_of_mem _ (hw.known u G h')
  · have hcalm : ∀ u G, ScanEvent.registered p.uid ≠ .requested u G := by simp
    obtain ⟨hreg, hbehind, hscanning, hscanned⟩ := (hw.passes i pass h).older hcalm (by simp)
    refine ⟨hreg, fun n p' hp' huid => ?_, hscanning, hscanned⟩
    rcases hcases hp' with ⟨-, rfl⟩ | hp'
    · exact absurd (huid ▸ (hw.passes i pass h).registered) hfresh
    · exact hbehind n p' hp' huid

theorem ScanSound.report {p q : Pool} {n : String} (hw : ScanSound w) (hp : w.pools.find n = some p) (hname : q.name = p.name)
    (huid : q.uid = p.uid) (hgeneration : q.generation = p.generation)
    (hobserved : ∀ inventory, q.status.inventory = some inventory → q.status.observedGeneration ≤ q.generation ∧
      (inventory.valid → Scanned w.trace q.uid q.status.observedGeneration inventory)) :
    ScanSound { w with pools := w.pools.put q } := by
  -- identity and generation are those of an advance; only the report differs
  have hadvance : ScanSound { w with pools := w.pools.put { q with status := p.status } } :=
    hw.advance hp ⟨hname, huid, le_of_eq hgeneration.symm, rfl⟩
  have hput : ∀ {n' p'}, (w.pools.put q).find n' = some p' →
      ∃ p'', (w.pools.put { q with status := p.status }).find n' = some p'' ∧ p''.uid = p'.uid ∧
        p''.generation = p'.generation ∧ (p'' = p' ∨ p' = q) := by
    intro n' p' h
    rcases find_put_pool hp hname h with ⟨rfl, rfl⟩ | ⟨hne, h⟩
    · refine ⟨{ p' with status := p.status }, ?_, rfl, rfl, Or.inr rfl⟩
      rw [Table.find_put, if_pos (hname.trans (Table.key_of_find hp))]
    · refine ⟨p', ?_, rfl, rfl, Or.inl rfl⟩
      rw [Table.find_put, if_neg, h]
      exact fun hn => hne (hn.symm.trans (hname.trans (Table.key_of_find hp)))
  refine ⟨fun n' p' h => ?_, fun n₁ n₂ p₁ p₂ h₁ h₂ hsame => ?_, hw.known, hw.journals, hw.calls, fun i pass h => ?_⟩
  · obtain ⟨p'', hp'', hu, hg, rfl | rfl⟩ := hput h
    · exact hadvance.pools n' p'' hp''
    · obtain ⟨hreg, hahead, -⟩ := hadvance.pools n' p'' hp''
      exact ⟨hu ▸ hreg, fun G hG => hg ▸ hahead G (hu ▸ hG), hobserved⟩
  · obtain ⟨p₁', h₁', hu₁, -⟩ := hput h₁
    obtain ⟨p₂', h₂', hu₂, -⟩ := hput h₂
    exact hadvance.unique _ _ _ _ h₁' h₂' (by rw [hu₁, hu₂, hsame])
  · obtain ⟨hreg, hbehind, hscanning, hscanned⟩ := hadvance.passes i pass h
    refine ⟨hreg, fun n' p' hp' hsame => ?_, hscanning, hscanned⟩
    obtain ⟨p'', hp'', hu, hg, -⟩ := hput hp'
    exact hg ▸ hbehind n' p'' hp'' (hu.trans hsame)

theorem setPoolStatus_inv {name nodeName : String} {status : PoolStatus} {p q : Pool}
    (h : setPoolStatus name uid nodeName status p = .ok q) :
    p.uid = uid ∧ (status.observedGeneration ≠ 0 → status.observedGeneration = p.generation) ∧ q = { p with status } := by
  simp only [setPoolStatus, seq_ok, require_ok, pure_ok] at h
  obtain ⟨-, huid, -, -, -, hgeneration, -, rfl⟩ := h
  exact ⟨huid, hgeneration, rfl⟩

theorem reported_inv {pass : NodePass} {approved : Bool} {result : ProbeResult}
    (h : ScanWorld.reported pass approved result = .ok inventory) (hv : inventory.valid) : pass.stage = .scanned inventory := by
  unfold ScanWorld.reported at h
  split at h
  · obtain rfl := pure_ok.mp h
    simp [unscannedInventory] at hv
  · rename_i hstage
    rw [hstage, pure_ok.mp h]
  · simp at h

theorem scanSound_initial : ScanSound .initial where
  pools := by simp [ScanWorld.initial]
  unique := by simp [ScanWorld.initial]
  known := by simp [ScanWorld.initial]
  journals := by simp [ScanWorld.initial]
  calls := by simp [ScanWorld.initial]
  passes := by simp [ScanWorld.initial]

theorem ScanSound.step {digest : String → String} {act : ScanAct} (hw : ScanSound w) (h : w.step digest act = .ok w') :
    ScanSound w' := by
  cases act with
  | registerPool pool =>
    simp only [ScanWorld.step, seq_ok, require_ok, pure_ok] at h
    obtain ⟨⟨habsent, hfresh⟩, rfl⟩ := h
    exact hw.register habsent hfresh rfl
  | removePool name =>
    obtain rfl := pure_ok.mp h
    refine ⟨fun n p hp => hw.pools n p (Table.find_of_erase hp), fun n₁ n₂ p₁ p₂ h₁ h₂ => ?_, hw.known, hw.journals, hw.calls,
      fun i pass hpass => ?_⟩
    · exact hw.unique n₁ n₂ p₁ p₂ (Table.find_of_erase h₁) (Table.find_of_erase h₂)
    · obtain ⟨hreg, hbehind, hscanning, hscanned⟩ := hw.passes i pass hpass
      exact ⟨hreg, fun n p hp => hbehind n p (Table.find_of_erase hp), hscanning, hscanned⟩
  | editSpec name next raise =>
    simp only [ScanWorld.step, bind_ok, found_ok, pure_ok] at h
    obtain ⟨p, hp, rfl⟩ := h
    refine hw.advance hp ⟨(Table.key_of_find hp).symm, rfl, ?_, rfl⟩
    show p.generation ≤ p.generation + 1 + (raise : Int)
    omega
  | editMetadata name isProtected isDeleting retirementApproval =>
    simp only [ScanWorld.step, bind_ok, found_ok, pure_ok] at h
    obtain ⟨p, hp, rfl⟩ := h
    exact hw.advance hp ⟨rfl, rfl, le_refl _, rfl⟩
  | requestScan target raise =>
    simp only [ScanWorld.step, bind_ok, pure_ok] at h
    obtain ⟨⟨w₁, G⟩, hscan, rfl⟩ := h
    exact (requestScan_inv hw hscan).1
  | createParent authority =>
    simp only [ScanWorld.step, seq_ok, require_ok, pure_ok] at h
    obtain ⟨habsent, rfl⟩ := h
    refine ⟨hw.pools, hw.unique, hw.known, fun a p j hp hj => ?_, hw.calls, hw.passes⟩
    rw [Table.find_put] at hp
    split at hp
    · obtain rfl := Option.some.inj hp
      simp at hj
    · exact hw.journals a p j hp hj
  | journal authority write =>
    simp only [ScanWorld.step, seq_ok, require_ok] at h
    exact hw.ordinary h.2 h.1
  | load call authority =>
    simp only [ScanWorld.step, bind_ok, found_ok, pure_ok] at h
    obtain ⟨parent, hparent, -, -, slot, hslot, journal, hjournal, rfl⟩ := h
    have hcleanup : parent.cleanup = some journal := by rw [← CleanupParent.journal_inv hslot, hjournal]
    refine hw.setCall fun c hc => ?_
    obtain rfl := Option.some.inj hc
    exact ⟨hw.journals authority parent journal hparent hcleanup, by simp, by simp⟩
  | request call raise =>
    simp only [ScanWorld.step, bind_ok, found_ok, require_ok, pure_ok] at h
    obtain ⟨this, hthis, -, ⟨-, hphase⟩, -, hpurged, ⟨w₁, G⟩, hscan, rfl⟩ := h
    obtain ⟨hw₁, htrace⟩ := requestScan_inv hw hscan
    have hcall := hw.calls call this hthis
    obtain ⟨r, hr⟩ := Option.isSome_iff_exists.mp (validPurgedReceipt_isSome hpurged)
    refine hw₁.setCall fun c hc => ?_
    obtain rfl := Option.some.inj hc
    rw [htrace]
    refine ⟨hcall.journal.older, fun G' hG => ?_, by simp⟩
    obtain rfl : G = G' := by simpa using hG
    exact ⟨r, hr, [], w.trace, rfl, hcall.journal.stored r hr⟩
  | fence call =>
    simp only [ScanWorld.step, bind_ok, found_ok] at h
    obtain ⟨this, hthis, h⟩ := h
    split at h
    · rename_i G hstage
      simp only [bind_ok, pure_ok] at h
      obtain ⟨w₁, hwrite, rfl⟩ := h
      have hcall := hw.calls call this hthis
      obtain ⟨r, hr, hrequested⟩ := hcall.requested G hstage
      have hw₁ : ScanSound w₁ := by
        refine hw.called hwrite rfl (fun r' proof hr' hproof => ?_) (by simp [absenceFence])
        obtain rfl : r = r' := Option.some.inj (hr.symm.trans hr')
        obtain rfl := Option.some.inj hproof
        exact hrequested
      exact hw₁.setCall (by simp)
    · simp at h
  | prove call =>
    simp only [ScanWorld.step, bind_ok, found_ok, require_ok] at h
    obtain ⟨this, hthis, -, ⟨-, hphase⟩, -, hpurged, pool, hpool, outcome, hproof, h⟩ := h
    have hcall := hw.calls call this hthis
    cases outcome with
    | none =>
      obtain rfl := pure_ok.mp h
      exact hw.setCall (by simp)
    | some g =>
      obtain rfl := pure_ok.mp h
      obtain ⟨huid, proof, inventory, hp, hinventory, hreached, habsent⟩ := scanProvesAbsence_inv hproof
      obtain ⟨r, hr⟩ := Option.isSome_iff_exists.mp (validPurgedReceipt_isSome hpurged)
      have hrequested := hcall.journal.fenced (Or.inl hphase) r proof hr hp
      have hscanned := ((hw.pools _ _ hpool).observed inventory hinventory).2 habsent.valid
      rw [huid] at hscanned
      refine hw.setCall fun c hc => ?_
      obtain rfl := Option.some.inj hc
      exact ⟨hcall.journal, by simp, fun _ _ => ⟨hphase, r, hr, hscanned.after hrequested hreached habsent⟩⟩
  | settle call now =>
    simp only [ScanWorld.step, bind_ok, found_ok] at h
    obtain ⟨this, hthis, h⟩ := h
    split at h
    · rename_i g hstage
      simp only [bind_ok, pure_ok] at h
      obtain ⟨w₁, hwrite, rfl⟩ := h
      have hcall := hw.calls call this hthis
      obtain ⟨hphase, r, hr, habsent⟩ := hcall.proven g hstage
      have hw₁ : ScanSound w₁ := by
        refine hw.called hwrite rfl (fun r' proof hr' hproof => ?_) fun _ => ⟨r, hr, habsent⟩
        obtain ⟨before, hbefore, rfl⟩ := Option.map_eq_some_iff.mp hproof
        exact hcall.journal.fenced (Or.inl hphase) r' before hr' hbefore
      exact hw₁.setCall (by simp)
    · simp at h
  | abandon call =>
    obtain rfl := pure_ok.mp h
    exact hw.setCall (by simp)
  | readPool pass name =>
    simp only [ScanWorld.step, bind_ok, found_ok, pure_ok] at h
    obtain ⟨p, hp, rfl⟩ := h
    refine hw.setPass fun this hthis => ?_
    obtain rfl := Option.some.inj hthis
    refine ⟨(hw.pools _ _ hp).registered, fun n p' hp' huid => ?_, by simp, by simp⟩
    obtain rfl := hw.unique _ _ _ _ hp' hp huid
    obtain rfl : p' = p := Option.some.inj (hp'.symm.trans hp)
    exact le_refl _
  | beginScan pass =>
    simp only [ScanWorld.step, bind_ok, found_ok, pure_ok] at h
    obtain ⟨this, hthis, rfl⟩ := h
    have htraced := hw.passes pass this hthis
    -- the slot is free while the event is recorded
    have hrecorded : ScanSound ((w.setPass pass none).record (.scanBegan pass this.pool.uid)) := by
      refine (hw.setPass (by simp)).record (by simp) fun i v hi => ?_
      obtain ⟨rfl, -⟩ : pass = i ∧ this.pool.uid = v := by simpa using hi
      simp [ScanWorld.setPass]
    have hsame : ((w.setPass pass none).record (.scanBegan pass this.pool.uid)).setPass pass
        (some { this with stage := .scanning }) =
        (w.setPass pass (some { this with stage := .scanning })).record (.scanBegan pass this.pool.uid) := by
      simp only [ScanWorld.setPass, ScanWorld.record]
      congr 1
      funext other
      split <;> rfl
    rw [← hsame]
    refine hrecorded.setPass fun p hp => ?_
    obtain rfl := Option.some.inj hp
    exact ⟨List.mem_cons_of_mem _ htraced.registered, htraced.behind, fun _ => ⟨[], w.trace, rfl, by simp, by simp⟩, by simp⟩
  | endScan pass inventory =>
    simp only [ScanWorld.step, bind_ok, found_ok, require_ok, pure_ok] at h
    obtain ⟨this, hthis, -, hstage, rfl⟩ := h
    have htraced := hw.passes pass this hthis
    have hcalm : ∀ u G, ScanEvent.scanEnded pass inventory ≠ .requested u G := by simp
    have hrecorded := hw.record hcalm (by simp)
    have hnow : ScanSound ((w.record (.scanEnded pass inventory)).setPass pass (some { this with stage := .scanned inventory })) := by
      refine hrecorded.setPass fun p hp => ?_
      obtain rfl := Option.some.inj hp
      refine ⟨List.mem_cons_of_mem _ htraced.registered, htraced.behind, by simp, fun inv hinv => ?_⟩
      obtain rfl : inventory = inv := by simpa using hinv
      exact (htraced.scanning hstage).ended
    exact hnow
  | report pass result approved unit nodeName =>
    simp only [ScanWorld.step, bind_ok, found_ok, pure_ok] at h
    obtain ⟨this, hthis, inventory, hreported, p, hp, q, hq, rfl⟩ := h
    have htraced := hw.passes pass this hthis
    obtain ⟨huid, -, hstored⟩ := setPoolStatus_inv hq
    have hw₁ : ScanSound { w with pools := w.pools.put q } := by
      refine hw.report hp (by rw [hstored]) (by rw [hstored]) (by rw [hstored]) fun inv hinv => ?_
      rw [hstored] at hinv ⊢
      obtain rfl : inventory = inv := Option.some.inj hinv
      refine ⟨htraced.behind _ p hp huid, fun hv => ?_⟩
      have hscanned := htraced.scanned inventory (reported_inv hreported hv)
      exact huid ▸ hscanned
    exact hw₁.setPass (by simp)
  | leave pass =>
    obtain rfl := pure_ok.mp h
    exact hw.setPass (by simp)

theorem ScanRun.sound {digest : String → String} {past : List ScanWorld} (hr : ScanRun digest (w :: past)) : ScanSound w := by
  refine Run.forall_mem (I := ScanSound) ?_ ?_ hr w (by simp)
  · rintro _ rfl
    exact scanSound_initial
  · intro s t past op _ hall hs
    exact (hall s (by simp)).step (Run.onHead_cons.mp hs)

/-- A journal that `ReconcileAbsence` completed stands on a scan of the target's Pool that began after its receipt was
    stored, and that did not find the target. -/
theorem causal_absence {digest : String → String} {past : List ScanWorld} {parent : CleanupParent}
    (hr : ScanRun digest (w :: past)) (hp : w.parents.find authority = some parent) (hj : parent.cleanup = some j)
    (hcompleted : j.status.phase = .completed) :
    ∃ r, j.status.receipt = some r ∧ AbsentAfter w.trace authority r j.spec.target :=
  ((ScanRun.sound hr).journals authority parent j hp hj).settled hcompleted

/-! A purge whose absence a later scan confirms. -/

def samplePool : Pool where
  name := "pool-a"
  uid := "pool-a-uid"
  nodeName := "node-a"
  scanEpoch := 0
  generation := 1
  isProtected := true
  isDeleting := false
  retirementApproval := ""
  capacityPolicy := ""
  mountPolicy := ""
  configurationReason := ""
  status := { registrationApproved := false, observedGeneration := 0, capacityUnit := none, inventory := none }

def passed : PoolCheck := { ok := true, reason := "" }

/-- The journal reaches `Verifying`, the Pool is scanned under the generation of the fence, and the call settles. -/
def confirmedPurge : List ScanWorld :=
  Run.replay (ScanWorld.step fun _ => "0") .initial []
    ([.registerPool samplePool, .createParent sampleCleanup.authority,
      .journal sampleCleanup.authority (.ensure sampleCleanup)] ++
      (purgeStatuses.take 2).map (fun status => .journal sampleCleanup.authority (.updateStatus sampleCleanup status)) ++
      [.load 0 sampleCleanup.authority, .request 0 0, .fence 0, .readPool 0 "pool-a", .beginScan 0,
        .endScan 0 { valid := true, truncated := false, message := "", copies := [] },
        .report 0 ⟨passed, passed, passed⟩ true none "node-a", .load 0 sampleCleanup.authority, .prove 0, .settle 0 5])

theorem causal_absence_confirmed :
    ∃ w past parent j r, confirmedPurge = w :: past ∧ w.parents.find sampleCleanup.authority = some parent ∧
      parent.cleanup = some j ∧ j.status.phase = .completed ∧ j.status.receipt = some r ∧
      AbsentAfter w.trace sampleCleanup.authority r j.spec.target := by
  have hdone : ((confirmedPurge.head?.bind (·.parents.find sampleCleanup.authority)).bind (·.cleanup)).map (·.status.phase) =
      some .completed := by decide +kernel
  cases hl : confirmedPurge with
  | nil => simp [hl] at hdone
  | cons w past =>
    obtain ⟨parent, hparent, j, hj, hphase⟩ : ∃ parent, w.parents.find sampleCleanup.authority = some parent ∧
        ∃ j, parent.cleanup = some j ∧ j.status.phase = .completed := by
      simpa [hl, Option.bind_eq_some_iff] using hdone
    have hr : ScanRun (fun _ => "0") (w :: past) := Run.replay_run (.start rfl) hl
    obtain ⟨r, hreceipt, habsent⟩ := causal_absence hr hparent hj hphase
    exact ⟨w, past, parent, j, r, rfl, hparent, hj, hphase, hreceipt, habsent⟩

end ShiftPV
