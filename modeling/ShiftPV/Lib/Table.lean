import Mathlib

/-! Finite tables of records under a key that the record itself carries, as an API server stores
    objects by name. No two rows share a key. -/

structure Table {α κ : Type} (key : α → κ) where
  rows : List α
  nodup : (rows.map key).Nodup

namespace Table

variable {α κ : Type} [DecidableEq κ] {key : α → κ} {t : Table key} {a b : α} {k : κ}

def empty (key : α → κ) : Table key := ⟨[], List.nodup_nil⟩

def find (t : Table key) (k : κ) : Option α := t.rows.find? fun a => key a = k

def others (t : Table key) (k : κ) : List α := t.rows.filter fun b => key b ≠ k

def put (t : Table key) (a : α) : Table key where
  rows := a :: t.others (key a)
  nodup := by
    refine List.nodup_cons.mpr ⟨?_, t.nodup.sublist (List.filter_sublist.map key)⟩
    simp [others]

def erase (t : Table key) (k : κ) : Table key where
  rows := t.others k
  nodup := t.nodup.sublist (List.filter_sublist.map key)

def restrict (t : Table key) (p : α → Bool) : Table key where
  rows := t.rows.filter p
  nodup := t.nodup.sublist (List.filter_sublist.map key)

@[simp] theorem find_empty : (empty key).find k = none := rfl

theorem key_of_find (h : t.find k = some a) : key a = k := by
  have := List.find?_some h
  simpa using this

theorem mem_of_find (h : t.find k = some a) : a ∈ t.rows := List.mem_of_find?_eq_some h

theorem find_of_mem (h : a ∈ t.rows) : t.find (key a) = some a := by
  obtain ⟨rows, nodup⟩ := t
  simp only [find] at h ⊢
  induction rows with
  | nil => cases h
  | cons b rows ih =>
    simp only [List.map_cons, List.nodup_cons, List.mem_map, not_exists, not_and] at nodup
    rcases List.mem_cons.mp h with rfl | hmem
    · simp
    · have hne : key b ≠ key a := fun heq => nodup.1 a hmem heq.symm
      rw [List.find?_cons_of_neg (by simpa using hne)]
      exact ih nodup.2 hmem

@[simp] theorem find_put_self : (t.put a).find (key a) = some a := by simp [find, put]

theorem find_erase_ne {k' : κ} (h : k' ≠ k) : (t.erase k).find k' = t.find k' := by
  simp only [find, erase, others, List.find?_filter]
  congr 1
  funext b
  by_cases hb : key b = k'
  · simp [hb, h]
  · simp [hb]

theorem find_put_ne (h : key a ≠ k) : (t.put a).find k = t.find k := by
  have hrest : (t.put a).find k = (t.erase (key a)).find k := List.find?_cons_of_neg (by simpa using h)
  rw [hrest, find_erase_ne h.symm]

theorem find_put : (t.put a).find k = if key a = k then some a else t.find k := by
  split
  · rename_i h
    subst h
    exact find_put_self
  · rename_i h
    exact find_put_ne h

theorem find_of_erase {k' : κ} (h : (t.erase k).find k' = some a) : t.find k' = some a := by
  have hkey : key a = k' := key_of_find h
  have hmem : a ∈ t.rows := List.mem_of_mem_filter (mem_of_find h)
  exact hkey ▸ find_of_mem hmem

theorem rows_perm (h : t.find k = some a) : t.rows.Perm (a :: t.others k) := by
  obtain ⟨rows, nodup⟩ := t
  simp only [find, others] at h ⊢
  induction rows with
  | nil => cases h
  | cons b rows ih =>
    simp only [List.map_cons, List.nodup_cons, List.mem_map, not_exists, not_and] at nodup
    by_cases hb : key b = k
    · have hab : b = a := by simpa [hb] using h
      subst hab
      have hrest : rows.filter (fun c => decide (key c ≠ k)) = rows := by
        rw [List.filter_eq_self]
        intro c hc
        have : key c ≠ k := fun hck => nodup.1 c hc (hck.trans hb.symm)
        simpa using this
      rw [List.filter_cons_of_neg (by simp [hb]), hrest]
    · rw [List.find?_cons_of_neg (by simpa using hb)] at h
      rw [List.filter_cons_of_pos (by simpa using hb)]
      exact ((ih nodup.2 h).cons b).trans (List.Perm.swap a b _)

theorem rows_of_find_none (h : t.find k = none) : t.others k = t.rows := by
  rw [others, List.filter_eq_self]
  intro b hb
  have := List.find?_eq_none.mp h b hb
  simpa using this

theorem find_perm {u : Table key} (h : t.rows.Perm u.rows) : t.find k = u.find k := by
  refine Option.ext fun a => ?_
  constructor
  · intro hfind
    rw [← key_of_find hfind]
    exact find_of_mem (h.mem_iff.mp (mem_of_find hfind))
  · intro hfind
    rw [← key_of_find hfind]
    exact find_of_mem (h.mem_iff.mpr (mem_of_find hfind))

theorem sum_rows {M : Type} [AddCommMonoid M] (f : α → M) (h : t.find k = some a) :
    (t.rows.map f).sum = f a + ((t.others k).map f).sum := by
  rw [((rows_perm h).map f).sum_eq, List.map_cons, List.sum_cons]

theorem sum_put {M : Type} [AddCommMonoid M] (f : α → M) (h : t.find (key b) = some a) :
    ((t.put b).rows.map f).sum + f a = (t.rows.map f).sum + f b := by
  have hrows : (t.put b).rows = b :: t.others (key b) := rfl
  rw [hrows, List.map_cons, List.sum_cons, sum_rows f h, add_right_comm, add_comm (f b), add_right_comm]

theorem sum_put_new {M : Type} [AddCommMonoid M] (f : α → M) (h : t.find (key b) = none) :
    ((t.put b).rows.map f).sum = f b + (t.rows.map f).sum := by
  have hrows : (t.put b).rows = b :: t.others (key b) := rfl
  rw [hrows, List.map_cons, List.sum_cons, rows_of_find_none h]

theorem sum_rows_of_one {M : Type} [AddCommMonoid M] (f : α → M) (k : κ) (h : ∀ a ∈ t.rows, key a ≠ k → f a = 0) :
    (t.rows.map f).sum = ((t.find k).map f).getD 0 := by
  have hothers : ∀ a ∈ t.others k, f a = 0 := by
    intro a ha
    obtain ⟨hmem, hkey⟩ := List.mem_filter.mp ha
    exact h a hmem (by simpa using hkey)
  have hsum : ((t.others k).map f).sum = 0 := by
    refine List.sum_eq_zero ?_
    intro b hb
    obtain ⟨a, ha, rfl⟩ := List.mem_map.mp hb
    exact hothers a ha
  cases hk : t.find k with
  | none => rw [← rows_of_find_none hk, hsum, Option.map_none, Option.getD_none]
  | some a => rw [sum_rows f hk, hsum, add_zero, Option.map_some, Option.getD_some]

/-- What is looked up under different keys adds up to no more than all rows. -/
theorem sum_find_le {β : Type} {key' : β → κ} {l : List β} (hl : (l.map key').Nodup) (f : α → Int) (t : Table key)
    (hf : ∀ a ∈ t.rows, 0 ≤ f a) : (l.map fun b => ((t.find (key' b)).map f).getD 0).sum ≤ (t.rows.map f).sum := by
  induction l generalizing t with
  | nil =>
    refine List.sum_nonneg ?_
    intro amount hamount
    obtain ⟨a, ha, rfl⟩ := List.mem_map.mp hamount
    exact hf a ha
  | cons b l ih =>
    obtain ⟨hfresh, hl⟩ := List.nodup_cons.mp hl
    rw [List.map_cons, List.sum_cons]
    cases hb : t.find (key' b) with
    | none => simpa using ih hl t hf
    | some a =>
      rw [sum_rows f hb, Option.map_some, Option.getD_some]
      have hrest : (l.map fun c => ((t.find (key' c)).map f).getD 0) =
          l.map fun c => (((t.erase (key' b)).find (key' c)).map f).getD 0 := by
        refine List.map_congr_left fun c hc => ?_
        rw [find_erase_ne]
        exact fun heq => hfresh (heq ▸ List.mem_map_of_mem hc)
      rw [hrest]
      exact Int.add_le_add_left (ih hl (t.erase (key' b)) fun c hc => hf c (List.mem_of_mem_filter hc)) _

/-! ### Counting rows -/

theorem countP_rows (p : α → Bool) (h : t.find k = some a) :
    t.rows.countP p = (t.others k).countP p + if p a then 1 else 0 := by
  rw [(rows_perm h).countP_eq, List.countP_cons]

theorem countP_put (p : α → Bool) : (t.put b).rows.countP p = (t.others (key b)).countP p + if p b then 1 else 0 := by
  have hrows : (t.put b).rows = b :: t.others (key b) := rfl
  rw [hrows, List.countP_cons]

theorem countP_put_new (p : α → Bool) (h : t.find (key b) = none) :
    (t.put b).rows.countP p = t.rows.countP p + if p b then 1 else 0 := by
  rw [countP_put, rows_of_find_none h]

theorem countP_erase (p : α → Bool) (h : t.find k = some a) :
    t.rows.countP p = (t.erase k).rows.countP p + if p a then 1 else 0 := countP_rows p h

theorem find_erase_self : (t.erase k).find k = none := by
  rw [find, List.find?_eq_none]
  intro b hb
  simpa using (List.mem_filter.mp hb).2

theorem mem_put : a ∈ (t.put b).rows ↔ a = b ∨ a ∈ t.rows ∧ key a ≠ key b := by
  have hrows : (t.put b).rows = b :: t.others (key b) := rfl
  simp [hrows, others]

theorem mem_erase : a ∈ (t.erase k).rows ↔ a ∈ t.rows ∧ key a ≠ k := by
  have hrows : (t.erase k).rows = t.others k := rfl
  simp [hrows, others]

omit [DecidableEq κ] in
theorem mem_restrict {p : α → Bool} : a ∈ (t.restrict p).rows ↔ a ∈ t.rows ∧ p a = true := List.mem_filter

theorem length_put_le : (t.put b).rows.length ≤ t.rows.length + 1 :=
  Nat.succ_le_succ (List.length_filter_le _ _)

theorem length_put_of_find (h : t.find (key b) = some a) : (t.put b).rows.length = t.rows.length := by
  have hrows : (t.put b).rows = b :: t.others (key b) := rfl
  rw [hrows, (rows_perm h).length_eq, List.length_cons, List.length_cons]

theorem forall_rows {p : α → Prop} (h : t.find k = some a) :
    (∀ b ∈ t.rows, p b) ↔ p a ∧ ∀ b ∈ t.others k, p b := by
  rw [← List.forall_mem_cons]
  exact forall_congr' fun b => imp_congr_left (rows_perm h).mem_iff

end Table
