import Mathlib.Data.Nat.Cast.Basic
import ShiftPV.Lib.Table

/-! Locks under keys, made on demand. The entry of a key is a lock with a count of the calls that refer to it; a call takes a
    reference, acquires the lock of the entry or gives up, and gives its reference back, and the last one drops the entry. -/

namespace KeyedLock

structure Entry where
  refs : Int
  locked : Bool

/-- Where a call is. `granted` has the lock and has not returned yet, `refused` will return without it, `unlocked` has
    given it back; the last two still have their reference. -/
inductive Stage where
  | waiting | granted | holding | refused | unlocked
  deriving DecidableEq

namespace Stage

def owns : Stage → Bool
  | granted | holding => true
  | waiting | refused | unlocked => false

/-- The call has acquired and its release has not returned; the other calls are still inside their acquisition. -/
def holder : Stage → Bool
  | holding | unlocked => true
  | waiting | granted | refused => false

end Stage

structure Call (κ μ : Type) where
  id : Nat
  key : κ
  entry : Nat
  stage : Stage
  mode : μ

/-- The entries by key, their contents, the first one that was never made, and the calls in flight. -/
structure State (κ μ : Type) where
  entries : κ → Option Nat
  heap : Nat → Entry
  fresh : Nat
  calls : Table (Call.id : Call κ μ → Nat)

variable {κ μ : Type} [DecidableEq κ]

namespace State

def empty (κ μ : Type) : State κ μ where
  entries _ := none
  heap _ := ⟨0, false⟩
  fresh := 0
  calls := .empty _

def setLocked (s : State κ μ) (entry : Nat) (locked : Bool) : State κ μ :=
  { s with heap := Function.update s.heap entry { s.heap entry with locked } }

def put (s : State κ μ) (call : Call κ μ) : State κ μ := { s with calls := s.calls.put call }

/-- One more call refers to the entry of the key, which is made when there is none. -/
def reference (s : State κ μ) (id : Nat) (key : κ) (mode : μ) : State κ μ :=
  match s.entries key with
  | some entry =>
    { s with heap := Function.update s.heap entry { s.heap entry with refs := (s.heap entry).refs + 1 }
             calls := s.calls.put ⟨id, key, entry, .waiting, mode⟩ }
  | none =>
    { entries := Function.update s.entries key (some s.fresh)
      heap := Function.update s.heap s.fresh ⟨1, false⟩
      fresh := s.fresh + 1
      calls := s.calls.put ⟨id, key, s.fresh, .waiting, mode⟩ }

/-- The call ends; the entry is dropped when no other call refers to it. -/
def release (s : State κ μ) (call : Call κ μ) : State κ μ :=
  let refs := (s.heap call.entry).refs - 1
  { s with entries := if refs = 0 then Function.update s.entries call.key none else s.entries
           heap := Function.update s.heap call.entry { s.heap call.entry with refs }
           calls := s.calls.erase call.id }

def users (s : State κ μ) (key : κ) : Nat := s.calls.rows.countP fun c => c.key = key

def holders (s : State κ μ) (key : κ) : Nat := s.calls.rows.countP fun c => c.key = key ∧ c.stage.holder
def waiters (s : State κ μ) (key : κ) : Nat := s.calls.rows.countP fun c => c.key = key ∧ ¬c.stage.holder

end State

inductive Step (id : Nat) (s : State κ μ) : State κ μ → Prop where
  | reference {key : κ} {mode : μ} (hnew : s.calls.find id = none) : Step id s (s.reference id key mode)
  | acquire {call : Call κ μ} {stage : Stage} (hcall : s.calls.find id = some call) (hwaits : call.stage.owns = false)
      (hfree : (s.heap call.entry).locked = false) (hstage : stage.owns = true) :
      Step id s ((s.setLocked call.entry true).put { call with stage })
  | giveBack {call : Call κ μ} {stage : Stage} (hcall : s.calls.find id = some call) (howns : call.stage.owns = true)
      (hstage : stage.owns = false) : Step id s ((s.setLocked call.entry false).put { call with stage })
  | move {call : Call κ μ} {stage : Stage} {mode : μ} (hcall : s.calls.find id = some call)
      (hstage : stage.owns = call.stage.owns) : Step id s (s.put { call with stage, mode })
  | release {call : Call κ μ} (hcall : s.calls.find id = some call) (hgone : call.stage.owns = false) :
      Step id s (s.release call)

/-! ### The references -/

structure Referenced (s : State κ μ) : Prop where
  made : ∀ {k e}, s.entries k = some e → e < s.fresh
  apart : ∀ {k k' e}, s.entries k = some e → s.entries k' = some e → k = k'
  current : ∀ {c}, c ∈ s.calls.rows → s.entries c.key = some c.entry
  counted : ∀ {k e}, s.entries k = some e → (s.heap e).refs = s.users k ∧ 0 < s.users k

section
variable {s t : State κ μ} {id : Nat} {call : Call κ μ}

theorem users_pos {k : κ} : 0 < s.users k ↔ ∃ c ∈ s.calls.rows, c.key = k := by
  simp [State.users, List.countP_pos_iff]

theorem users_put {c : Call κ μ} (hcall : s.calls.find c.id = some call) (hkey : c.key = call.key) (k : κ) :
    (s.put c).users k = s.users k := by
  simp only [State.users, State.put]
  rw [Table.countP_put, Table.countP_rows _ hcall, hkey]

theorem Referenced.empty : Referenced (State.empty κ μ) := by
  constructor <;> simp [State.empty, Table.empty]

theorem Referenced.put (h : Referenced s) {locked : Bool} {stage : Stage} {mode : μ} (hcall : s.calls.find id = some call) :
    Referenced ((s.setLocked call.entry locked).put { call with stage, mode }) := by
  have hid : call.id = id := Table.key_of_find hcall
  refine ⟨h.made, h.apart, fun {c} hc => ?_, fun {k e} hk => ?_⟩
  · rcases Table.mem_put.mp hc with rfl | ⟨hc, -⟩
    · exact h.current (c := call) (Table.mem_of_find hcall)
    · exact h.current hc
  · have hrefs : ((s.setLocked call.entry locked).heap e).refs = (s.heap e).refs := by
      simp only [State.setLocked]
      by_cases he : e = call.entry
      · rw [he, Function.update_self]
      · rw [Function.update_of_ne he]
    have hfound : (s.setLocked call.entry locked).calls.find { call with stage, mode : Call κ μ }.id = some call := hid ▸ hcall
    have husers := users_put (c := { call with stage, mode }) hfound rfl k
    rw [husers]
    exact hrefs ▸ h.counted hk

theorem users_put_new {c : Call κ μ} (hnew : s.calls.find c.id = none) (k : κ) :
    (s.put c).users k = s.users k + if c.key = k then 1 else 0 := by
  simp only [State.users, State.put]
  rw [Table.countP_put_new _ hnew]
  simp

theorem Referenced.reference_some (h : Referenced s) {key : κ} {mode : μ} {entry : Nat} (hnew : s.calls.find id = none)
    (hkey : s.entries key = some entry) : Referenced (s.reference id key mode) := by
  simp only [State.reference, hkey]
  refine ⟨h.made, h.apart, fun {c} hc => ?_, fun {k e} hk => ?_⟩
  · rcases Table.mem_put.mp hc with rfl | ⟨hc, -⟩
    · exact hkey
    · exact h.current hc
  · have husers := users_put_new (s := s) (c := ⟨id, key, entry, .waiting, mode⟩) hnew k
    obtain ⟨hrefs, hpos⟩ := h.counted hk
    show (Function.update s.heap entry _ e).refs = ((s.put ⟨id, key, entry, .waiting, mode⟩).users k : Int) ∧
      0 < (s.put ⟨id, key, entry, .waiting, mode⟩).users k
    rw [husers]
    by_cases he : e = entry
    · subst he
      obtain rfl : key = k := h.apart hkey hk
      rw [Function.update_self, if_pos rfl]
      exact ⟨by simp [hrefs], Nat.succ_pos _⟩
    · have hne : key ≠ k := by
        rintro rfl
        exact he (Option.some.inj (hk.symm.trans hkey))
      rw [Function.update_of_ne he, if_neg hne]
      exact ⟨hrefs, hpos⟩

theorem Referenced.reference_none (h : Referenced s) {key : κ} {mode : μ} (hnew : s.calls.find id = none)
    (hkey : s.entries key = none) : Referenced (s.reference id key mode) := by
  simp only [State.reference, hkey]
  -- no call refers to the entry that is made, and no key has it
  have hnone : s.users key = 0 := by
    by_contra hpos
    obtain ⟨c, hc, rfl⟩ := users_pos.mp (Nat.pos_of_ne_zero hpos)
    rw [h.current hc] at hkey
    cases hkey
  have hmade : ∀ {k}, s.entries k ≠ some s.fresh := fun hk => (h.made hk).false
  have hentries : ∀ {k e}, Function.update s.entries key (some s.fresh) k = some e →
      k = key ∧ e = s.fresh ∨ k ≠ key ∧ s.entries k = some e := by
    intro k e hk
    by_cases hne : k = key
    · rw [hne, Function.update_self] at hk
      exact .inl ⟨hne, (Option.some.inj hk).symm⟩
    · rw [Function.update_of_ne hne] at hk
      exact .inr ⟨hne, hk⟩
  refine ⟨fun {k e} hk => ?_, fun {k k' e} hk hk' => ?_, fun {c} hc => ?_, fun {k e} hk => ?_⟩
  · rcases hentries hk with ⟨-, rfl⟩ | ⟨-, hold⟩
    · exact Nat.lt_succ_self _
    · exact Nat.lt_succ_of_lt (h.made hold)
  · rcases hentries hk with ⟨rfl, rfl⟩ | ⟨-, hold⟩ <;> rcases hentries hk' with ⟨rfl, he⟩ | ⟨-, hold'⟩
    · rfl
    · exact absurd hold' hmade
    · exact absurd (he ▸ hold) hmade
    · exact h.apart hold hold'
  · rcases Table.mem_put.mp hc with rfl | ⟨hc, -⟩
    · exact Function.update_self ..
    · have hold := h.current hc
      have hne : c.key ≠ key := by
        rintro rfl
        rw [hkey] at hold
        cases hold
      exact (Function.update_of_ne hne _ _).trans hold
  · have husers := users_put_new (s := s) (c := ⟨id, key, s.fresh, .waiting, mode⟩) hnew k
    show (Function.update s.heap s.fresh _ e).refs = ((s.put ⟨id, key, s.fresh, .waiting, mode⟩).users k : Int) ∧
      0 < (s.put ⟨id, key, s.fresh, .waiting, mode⟩).users k
    rw [husers]
    rcases hentries hk with ⟨rfl, rfl⟩ | ⟨hne, hold⟩
    · rw [Function.update_self, if_pos rfl, hnone]
      exact ⟨rfl, Nat.one_pos⟩
    · have he : e ≠ s.fresh := by
        rintro rfl
        exact hmade hold
      rw [Function.update_of_ne he, if_neg hne.symm]
      exact h.counted hold

theorem Referenced.reference (h : Referenced s) {key : κ} {mode : μ} (hnew : s.calls.find id = none) :
    Referenced (s.reference id key mode) := by
  cases hkey : s.entries key with
  | some entry => exact h.reference_some hnew hkey
  | none => exact h.reference_none hnew hkey

theorem users_release (hcall : s.calls.find id = some call) (k : κ) :
    s.users k = (s.release call).users k + if call.key = k then 1 else 0 := by
  have hid : call.id = id := Table.key_of_find hcall
  simp only [State.users, State.release]
  rw [Table.countP_erase _ (hid ▸ hcall)]
  simp

theorem release_entries (h : Referenced s) (hcall : s.calls.find id = some call) {k : κ} {e : Nat} :
    (s.release call).entries k = some e ↔ s.entries k = some e ∧ (k = call.key → (s.release call).users k ≠ 0) := by
  have hown := h.current (Table.mem_of_find hcall)
  obtain ⟨hrefs, -⟩ := h.counted hown
  have husers := users_release hcall call.key
  rw [if_pos rfl] at husers
  have hiff : (s.heap call.entry).refs - 1 = 0 ↔ (s.release call).users call.key = 0 := by omega
  have hentries : (s.release call).entries
      = if (s.release call).users call.key = 0 then Function.update s.entries call.key none else s.entries := by
    simp only [← hiff]
    rfl
  rw [hentries]
  by_cases hk : k = call.key
  · subst hk
    split
    · rename_i hzero
      simp [hzero]
    · rename_i hsome
      simp [hsome]
  · split
    · rw [Function.update_of_ne hk]
      simp [hk]
    · simp [hk]

theorem Referenced.release (h : Referenced s) (hcall : s.calls.find id = some call) : Referenced (s.release call) := by
  have hid : call.id = id := Table.key_of_find hcall
  have hown := h.current (Table.mem_of_find hcall)
  refine ⟨fun hk => h.made ((release_entries h hcall).mp hk).1,
    fun hk hk' => h.apart ((release_entries h hcall).mp hk).1 ((release_entries h hcall).mp hk').1,
    fun {c} hc => ?_, fun {k e} hk => ?_⟩
  · obtain ⟨hmem, -⟩ := Table.mem_erase.mp hc
    refine (release_entries h hcall).mpr ⟨h.current hmem, fun _ => Nat.pos_iff_ne_zero.mp ?_⟩
    exact users_pos.mpr ⟨c, hc, rfl⟩
  · obtain ⟨hold, hleft⟩ := (release_entries h hcall).mp hk
    obtain ⟨hrefs, hpos⟩ := h.counted hold
    have husers := users_release hcall k
    have hheap : ((s.release call).heap e).refs = if e = call.entry then (s.heap e).refs - 1 else (s.heap e).refs := by
      simp only [State.release]
      by_cases he : e = call.entry
      · rw [he, Function.update_self, if_pos rfl]
      · rw [Function.update_of_ne he, if_neg he]
    rw [hheap]
    by_cases hkey : call.key = k
    · subst hkey
      have he : e = call.entry := Option.some.inj (hold.symm.trans hown)
      have hsome := hleft rfl
      rw [if_pos rfl] at husers
      rw [if_pos he]
      omega
    · have he : e ≠ call.entry := by
        rintro rfl
        exact hkey (h.apart hown hold)
      rw [if_neg hkey] at husers
      rw [if_neg he]
      omega

end

/-! ### The locks -/

/-- The lock of an entry is taken exactly when a call of its key has it, and no two calls of a key have it. -/
structure Guarded (s : State κ μ) : Prop where
  locked : ∀ {k e}, s.entries k = some e →
    ((s.heap e).locked = true ↔ ∃ c ∈ s.calls.rows, c.key = k ∧ c.stage.owns = true)
  exclusive : ∀ {a b}, a ∈ s.calls.rows → b ∈ s.calls.rows → a.key = b.key → a.stage.owns = true →
    b.stage.owns = true → a = b

section
variable {s t : State κ μ} {id : Nat} {call : Call κ μ}

omit [DecidableEq κ] in
theorem Guarded.empty : Guarded (State.empty κ μ) := by
  constructor <;> simp [State.empty, Table.empty]

/-- A call that goes on to another stage: the lock of its entry has to say whether it or another call of the key has it. -/
theorem Guarded.put (hr : Referenced s) (h : Guarded s) {locked : Bool} {stage : Stage} {mode : μ}
    (hcall : s.calls.find id = some call)
    (hlocked : locked = true ↔
      stage.owns = true ∨ ∃ c ∈ s.calls.rows, c.id ≠ id ∧ c.key = call.key ∧ c.stage.owns = true)
    (halone : stage.owns = true → ∀ c ∈ s.calls.rows, c.key = call.key → c.stage.owns = true → c.id = id) :
    Guarded ((s.setLocked call.entry locked).put { call with stage, mode }) := by
  have hid : call.id = id := Table.key_of_find hcall
  have hown := hr.current (Table.mem_of_find hcall)
  have hmem : ∀ {c}, c ∈ ((s.setLocked call.entry locked).put { call with stage, mode }).calls.rows ↔
      c = { call with stage, mode } ∨ c ∈ s.calls.rows ∧ c.id ≠ id := by
    intro c
    rw [← hid]
    exact Table.mem_put
  refine ⟨fun {k e} hk => ?_, fun {a b} ha hb hkey hoa hob => ?_⟩
  · have hold : s.entries k = some e := hk
    by_cases hne : k = call.key
    · subst hne
      obtain rfl : e = call.entry := Option.some.inj (hold.symm.trans hown)
      have hheap : (((s.setLocked call.entry locked).put { call with stage, mode }).heap call.entry).locked = locked := by
        simp only [State.put, State.setLocked, Function.update_self]
      rw [hheap, hlocked]
      constructor
      · rintro (howns | ⟨c, hc, hother, hkey, howns⟩)
        · exact ⟨_, hmem.mpr (.inl rfl), rfl, howns⟩
        · exact ⟨c, hmem.mpr (.inr ⟨hc, hother⟩), hkey, howns⟩
      · rintro ⟨c, hc, hkey, howns⟩
        rcases hmem.mp hc with rfl | ⟨hc, hother⟩
        · exact .inl howns
        · exact .inr ⟨c, hc, hother, hkey, howns⟩
    · have he : e ≠ call.entry := by
        rintro rfl
        exact hne (hr.apart hold hown)
      have hheap : (((s.setLocked call.entry locked).put { call with stage, mode }).heap e) = s.heap e := by
        simp only [State.put, State.setLocked, Function.update_of_ne he]
      rw [hheap, h.locked hold]
      constructor
      · rintro ⟨c, hc, rfl, howns⟩
        refine ⟨c, hmem.mpr (.inr ⟨hc, ?_⟩), rfl, howns⟩
        rintro rfl
        have hsame : c = call := Option.some.inj ((Table.find_of_mem hc).symm.trans hcall)
        exact hne (hsame ▸ rfl)
      · rintro ⟨c, hc, rfl, howns⟩
        rcases hmem.mp hc with rfl | ⟨hc, -⟩
        · exact absurd rfl hne
        · exact ⟨c, hc, rfl, howns⟩
  · rcases hmem.mp ha with rfl | ⟨ha, hna⟩ <;> rcases hmem.mp hb with rfl | ⟨hb, hnb⟩
    · rfl
    · exact absurd (halone hoa b hb hkey.symm hob) hnb
    · exact absurd (halone hob a ha hkey hoa) hna
    · exact h.exclusive ha hb hkey hoa hob

omit [DecidableEq κ] in
/-- A step that changes no lock and no call that has one. An entry that is made meanwhile is free. -/
theorem Guarded.of_owners (h : Guarded s)
    (howners : ∀ {c}, c ∈ t.calls.rows ∧ c.stage.owns = true ↔ c ∈ s.calls.rows ∧ c.stage.owns = true)
    (hlocked : ∀ {k e}, t.entries k = some e →
      s.entries k = some e ∧ (t.heap e).locked = (s.heap e).locked ∨
      (t.heap e).locked = false ∧ ∀ c ∈ s.calls.rows, c.key ≠ k) : Guarded t := by
  refine ⟨fun {k e} hk => ?_, fun {a b} ha hb hkey hoa hob => ?_⟩
  · have hexists : (∃ c ∈ t.calls.rows, c.key = k ∧ c.stage.owns = true) ↔
        ∃ c ∈ s.calls.rows, c.key = k ∧ c.stage.owns = true := by
      constructor
      · rintro ⟨c, hc, hkey, howns⟩
        exact ⟨c, (howners.mp ⟨hc, howns⟩).1, hkey, howns⟩
      · rintro ⟨c, hc, hkey, howns⟩
        exact ⟨c, (howners.mpr ⟨hc, howns⟩).1, hkey, howns⟩
    rw [hexists]
    rcases hlocked hk with ⟨hold, hsame⟩ | ⟨hfree, hnone⟩
    · rw [hsame, h.locked hold]
    · rw [hfree]
      simp only [Bool.false_eq_true, false_iff, not_exists, not_and]
      intro c hc hkey
      exact absurd hkey (hnone c hc)
  · obtain ⟨ha, -⟩ := howners.mp ⟨ha, hoa⟩
    obtain ⟨hb, -⟩ := howners.mp ⟨hb, hob⟩
    exact h.exclusive ha hb hkey hoa hob

theorem reference_calls (s : State κ μ) (id : Nat) (key : κ) (mode : μ) :
    ∃ entry, (s.reference id key mode).calls = s.calls.put ⟨id, key, entry, .waiting, mode⟩ := by
  unfold State.reference
  split
  · exact ⟨_, rfl⟩
  · exact ⟨_, rfl⟩

theorem Guarded.reference (hr : Referenced s) (h : Guarded s) {key : κ} {mode : μ} (hnew : s.calls.find id = none) :
    Guarded (s.reference id key mode) := by
  refine h.of_owners (fun {c} => ?_) (fun {k e} hk => ?_)
  · obtain ⟨entry, hcalls⟩ := reference_calls s id key mode
    rw [hcalls, Table.mem_put]
    constructor
    · rintro ⟨rfl | ⟨hc, -⟩, howns⟩
      · cases howns
      · exact ⟨hc, howns⟩
    · rintro ⟨hc, howns⟩
      refine ⟨.inr ⟨hc, ?_⟩, howns⟩
      rintro rfl
      rw [Table.find_of_mem hc] at hnew
      cases hnew
  · cases hkey : s.entries key with
    | some entry =>
      simp only [State.reference, hkey] at hk ⊢
      refine .inl ⟨hk, ?_⟩
      by_cases he : e = entry
      · rw [he, Function.update_self]
      · rw [Function.update_of_ne he]
    | none =>
      simp only [State.reference, hkey] at hk ⊢
      by_cases hne : k = key
      · subst hne
        rw [Function.update_self] at hk
        rw [← Option.some.inj hk, Function.update_self]
        refine .inr ⟨rfl, ?_⟩
        rintro c hc rfl
        rw [hr.current hc] at hkey
        cases hkey
      · rw [Function.update_of_ne hne] at hk
        exact .inl ⟨hk, by rw [Function.update_of_ne (hr.made hk).ne]⟩

theorem Guarded.release (hr : Referenced s) (h : Guarded s) (hcall : s.calls.find id = some call)
    (hgone : call.stage.owns = false) : Guarded (s.release call) := by
  have hid : call.id = id := Table.key_of_find hcall
  refine h.of_owners (fun {c} => ?_) (fun {k e} hk => ?_)
  · constructor
    · rintro ⟨hc, howns⟩
      exact ⟨(Table.mem_erase.mp hc).1, howns⟩
    · rintro ⟨hc, howns⟩
      refine ⟨Table.mem_erase.mpr ⟨hc, fun heq => ?_⟩, howns⟩
      have hsame : c = call := Option.some.inj ((Table.find_of_mem hc).symm.trans ((heq.trans hid) ▸ hcall))
      rw [hsame, hgone] at howns
      cases howns
  · refine .inl ⟨((release_entries hr hcall).mp hk).1, ?_⟩
    simp only [State.release]
    by_cases he : e = call.entry
    · rw [he, Function.update_self]
    · rw [Function.update_of_ne he]

end

/-! ### Every step -/

structure Sound (s : State κ μ) : Prop where
  referenced : Referenced s
  guarded : Guarded s

section
variable {s t : State κ μ} {id : Nat}

theorem Sound.empty : Sound (State.empty κ μ) := ⟨.empty, .empty⟩

omit [DecidableEq κ] in
theorem setLocked_self (s : State κ μ) (entry : Nat) : s.setLocked entry (s.heap entry).locked = s := by
  unfold State.setLocked
  rw [Function.update_eq_self]

theorem Sound.step (h : Sound s) (hstep : Step id s t) : Sound t := by
  obtain ⟨hr, hg⟩ := h
  cases hstep with
  | reference hnew => exact ⟨hr.reference hnew, hg.reference hr hnew⟩
  | release hcall hgone => exact ⟨hr.release hcall, hg.release hr hcall hgone⟩
  | acquire hcall hwaits hfree hstage =>
    refine ⟨hr.put hcall, hg.put hr hcall (by simp [hstage]) fun _ c hc hkey howns => ?_⟩
    -- the lock is free, so no call of the key has it
    have hlocked := (hg.locked (hr.current (Table.mem_of_find hcall))).mpr ⟨c, hc, hkey, howns⟩
    rw [hfree] at hlocked
    cases hlocked
  | giveBack hcall howns hstage =>
    refine ⟨hr.put hcall, hg.put hr hcall ?_ (by simp [hstage])⟩
    simp only [Bool.false_eq_true, hstage, false_or, false_iff, not_exists, not_and]
    intro c hc hother hkey hown
    -- the call that gives the lock back is the only one that has it
    have hsame := hg.exclusive hc (Table.mem_of_find hcall) hkey hown howns
    exact hother (hsame ▸ Table.key_of_find hcall)
  | @move call stage mode hcall hstage =>
    have hown := hr.current (Table.mem_of_find hcall)
    have hput : s.put { call with stage, mode }
        = (s.setLocked call.entry (s.heap call.entry).locked).put { call with stage, mode } := by
      rw [setLocked_self]
    rw [hput]
    refine ⟨hr.put hcall, hg.put hr hcall ?_ fun howns c hc hkey hown => ?_⟩
    · rw [hg.locked hown, hstage]
      constructor
      · rintro ⟨c, hc, hkey, howns⟩
        by_cases hid : c.id = id
        · obtain rfl : c = call := Option.some.inj ((Table.find_of_mem hc).symm.trans (hid ▸ hcall))
          exact .inl howns
        · exact .inr ⟨c, hc, hid, hkey, howns⟩
      · rintro (hown | ⟨c, hc, -, hkey, hown⟩)
        · exact ⟨call, Table.mem_of_find hcall, rfl, hown⟩
        · exact ⟨c, hc, hkey, hown⟩
    · have hsame := hg.exclusive hc (Table.mem_of_find hcall) hkey hown (hstage ▸ howns)
      exact hsame ▸ Table.key_of_find hcall

/-! ### What a reader of the locks may rely on -/

/-- At most one call has the lock of a key, the count of an entry is the number of its holders and waiters, an entry is
    there exactly while that number is not zero, and the calls of one key use one entry, the one of the map. -/
structure Fair (s : State κ μ) : Prop where
  exclusive : ∀ a ∈ s.calls.rows, ∀ b ∈ s.calls.rows, a.key = b.key → a.stage.owns = true → b.stage.owns = true → a = b
  locked : ∀ k e, s.entries k = some e →
    ((s.heap e).locked = true ↔ ∃ c ∈ s.calls.rows, c.key = k ∧ c.stage.owns = true)
  counted : ∀ k e, s.entries k = some e → (s.heap e).refs = s.holders k + s.waiters k
  removed : ∀ k, s.entries k = none ↔ s.holders k + s.waiters k = 0
  shared : ∀ c ∈ s.calls.rows, s.entries c.key = some c.entry

/-- What a step of one call leaves to the others: their calls, and the entry of every key that is still in use. An entry that
    nobody uses any more is gone. -/
structure Frame (id : Nat) (s t : State κ μ) : Prop where
  others : ∀ other, other ≠ id → t.calls.find other = s.calls.find other
  entry : ∀ k e, s.entries k = some e → t.entries k = if t.holders k + t.waiters k = 0 then none else some e

theorem holders_add_waiters (s : State κ μ) (k : κ) : s.holders k + s.waiters k = s.users k := by
  unfold State.holders State.waiters State.users
  induction s.calls.rows with
  | nil => rfl
  | cons c rows ih =>
    simp only [List.countP_cons]
    by_cases hkey : c.key = k <;> by_cases hheld : c.stage.holder <;> simp [hkey, hheld] at ih ⊢ <;> omega

theorem Sound.fair (h : Sound s) : Fair s where
  exclusive _ ha _ hb := h.guarded.exclusive ha hb
  locked _ _ := h.guarded.locked
  counted k e hk := by
    have hsum := holders_add_waiters s k
    have hcount := (h.referenced.counted hk).1
    omega
  removed k := by
    rw [holders_add_waiters]
    constructor
    · intro hk
      by_contra hpos
      obtain ⟨c, hc, rfl⟩ := users_pos.mp (Nat.pos_of_ne_zero hpos)
      rw [h.referenced.current hc] at hk
      cases hk
    · intro hzero
      cases hk : s.entries k with
      | none => rfl
      | some e => exact absurd hzero (h.referenced.counted hk).2.ne'
  shared _ hc := h.referenced.current hc

theorem Step.entries (hstep : Step id s t) {k : κ} {e : Nat} (hk : s.entries k = some e) :
    t.entries k = some e ∨ t.entries k = none := by
  cases hstep with
  | acquire | giveBack | move => exact .inl hk
  | @reference key mode hnew =>
    unfold State.reference
    split
    · exact .inl hk
    · rename_i hnone
      refine .inl ?_
      have hne : k ≠ key := by
        rintro rfl
        rw [hk] at hnone
        cases hnone
      exact (Function.update_of_ne hne _ _).trans hk
  | @release call hcall hgone =>
    simp only [State.release]
    split
    · by_cases hne : k = call.key
      · exact .inr (by rw [hne, Function.update_self])
      · exact .inl (by rw [Function.update_of_ne hne, hk])
    · exact .inl hk

theorem Step.frame (h : Sound s) (hstep : Step id s t) : Frame id s t where
  others other hne := by
    cases hstep with
    | @reference key mode hnew =>
      obtain ⟨entry, hcalls⟩ := reference_calls s id key mode
      rw [hcalls]
      exact Table.find_put_ne hne.symm
    | acquire hcall | giveBack hcall | move hcall =>
      obtain rfl := Table.key_of_find hcall
      exact Table.find_put_ne hne.symm
    | release hcall =>
      obtain rfl := Table.key_of_find hcall
      exact Table.find_erase_ne hne
  entry k e hk := by
    have hremoved := (h.step hstep).fair.removed k
    split
    · rename_i hzero
      exact hremoved.mpr hzero
    · rename_i hsome
      rcases hstep.entries hk with hkept | hgone
      · exact hkept
      · exact absurd (hremoved.mp hgone) hsome

end

end KeyedLock
