import Mathlib

/-! Sets of points on named axes, as lists of half-open spans. A list in canonical form is determined by the points that it
    holds; sorted spans are brought into that form by joining each one to the last, which fails when two of them share a
    point. -/

namespace Ranges

structure Span (κ : Type) where
  axis : κ
  lo : Nat
  hi : Nat

namespace Span

variable {κ : Type}

def Holds (s : Span κ) (p : κ × Nat) : Prop := s.axis = p.1 ∧ s.lo ≤ p.2 ∧ p.2 < s.hi

def Apart (s t : Span κ) : Prop := ∀ p, ¬(s.Holds p ∧ t.Holds p)

theorem Apart.symm {s t : Span κ} (h : s.Apart t) : t.Apart s := fun p hp => h p hp.symm

variable [LinearOrder κ]

/-- One span ends before the other begins, with a gap between them on one axis. -/
def Below (s t : Span κ) : Prop := s.axis < t.axis ∨ s.axis = t.axis ∧ s.hi < t.lo

def Before (s t : Span κ) : Prop := s.axis < t.axis ∨ s.axis = t.axis ∧ s.lo ≤ t.lo

theorem before_total (s t : Span κ) : s.Before t ∨ t.Before s := by
  rcases lt_trichotomy s.axis t.axis with haxis | haxis | haxis
  · exact .inl (.inl haxis)
  · rcases Nat.le_total s.lo t.lo with hlo | hlo
    · exact .inl (.inr ⟨haxis, hlo⟩)
    · exact .inr (.inr ⟨haxis.symm, hlo⟩)
  · exact .inr (.inl haxis)

theorem Before.trans {s t u : Span κ} (hst : s.Before t) (htu : t.Before u) : s.Before u := by
  rcases hst with haxis | ⟨haxis, hlo⟩ <;> rcases htu with haxis' | ⟨haxis', hlo'⟩
  · exact .inl (haxis.trans haxis')
  · exact .inl (haxis' ▸ haxis)
  · exact .inl (haxis ▸ haxis')
  · exact .inr ⟨haxis.trans haxis', Nat.le_trans hlo hlo'⟩

theorem Below.trans {s t u : Span κ} (hst : s.Below t) (htu : t.Below u) (hfilled : t.lo < t.hi) : s.Below u := by
  rcases hst with haxis | ⟨haxis, hgap⟩ <;> rcases htu with haxis' | ⟨haxis', hgap'⟩
  · exact .inl (haxis.trans haxis')
  · exact .inl (haxis' ▸ haxis)
  · exact .inl (haxis ▸ haxis')
  · exact .inr ⟨haxis.trans haxis', by omega⟩

end Span

variable {κ : Type} {s t last : Span κ} {l m joined rest result : List (Span κ)} {p : κ × Nat}

def Holds (l : List (Span κ)) (p : κ × Nat) : Prop := ∃ s ∈ l, s.Holds p

theorem holds_cons : Holds (s :: l) p ↔ s.Holds p ∨ Holds l p := by simp [Holds]

theorem holds_nil : ¬Holds [] p := by simp [Holds]

theorem apart_iff : (∀ s ∈ l, s.Apart t) ↔ ∀ p, ¬(Holds l p ∧ t.Holds p) := by
  constructor
  · rintro h p ⟨⟨s, hs, hp⟩, ht⟩
    exact h s hs p ⟨hp, ht⟩
  · rintro h s hs p ⟨hp, ht⟩
    exact h p ⟨⟨s, hs, hp⟩, ht⟩

theorem holds_extend (haxis : last.axis = s.axis) (hlo : s.lo = last.hi) (hlast : last.lo < last.hi) (hfilled : s.lo < s.hi) :
    Holds ({ last with hi := s.hi } :: joined) p ↔ Holds (s :: last :: joined) p := by
  have hjoined : Span.Holds { last with hi := s.hi } p ↔ s.Holds p ∨ last.Holds p := by
    simp only [Span.Holds, haxis]
    constructor
    · rintro ⟨hp, hfrom, hto⟩
      by_cases hp' : p.2 < last.hi
      · exact .inr ⟨hp, hfrom, hp'⟩
      · exact .inl ⟨hp, by omega, hto⟩
    · rintro (⟨hp, hfrom, hto⟩ | ⟨hp, hfrom, hto⟩)
      · exact ⟨hp, by omega, hto⟩
      · exact ⟨hp, hfrom, by omega⟩
  rw [holds_cons, holds_cons, holds_cons, hjoined, or_assoc]

variable [LinearOrder κ]

/-- Filled spans in order, with a gap between any two on one axis. -/
structure Canonical (l : List (Span κ)) : Prop where
  filled : ∀ s ∈ l, s.lo < s.hi
  apart : l.Pairwise Span.Below

theorem Canonical.tail (h : Canonical (s :: l)) : Canonical l :=
  ⟨fun t ht => h.filled t (List.mem_cons_of_mem _ ht), (List.pairwise_cons.mp h.apart).2⟩

theorem Canonical.beyond (h : Canonical (s :: l)) (hp : Holds l p) : s.axis < p.1 ∨ s.axis = p.1 ∧ s.hi < p.2 := by
  obtain ⟨t, ht, haxis, hlo, -⟩ := hp
  rcases (List.pairwise_cons.mp h.apart).1 t ht with hbelow | ⟨hsame, hgap⟩
  · exact .inl (haxis ▸ hbelow)
  · exact .inr ⟨hsame.trans haxis, by omega⟩

theorem Canonical.holds_tail (h : Canonical (s :: l)) : Holds l p ↔ Holds (s :: l) p ∧ ¬s.Holds p := by
  rw [holds_cons]
  constructor
  · intro hp
    refine ⟨.inr hp, ?_⟩
    rintro ⟨haxis, -, hhi⟩
    rcases h.beyond hp with hbelow | ⟨-, hgap⟩
    · exact absurd haxis hbelow.ne
    · omega
  · rintro ⟨hp | hp, hnot⟩
    · exact absurd hp hnot
    · exact hp

theorem Canonical.first (h : Canonical (s :: l)) (hp : Holds (s :: l) p) : s.axis < p.1 ∨ s.axis = p.1 ∧ s.lo ≤ p.2 := by
  rcases holds_cons.mp hp with ⟨haxis, hlo, -⟩ | hp
  · exact .inr ⟨haxis, hlo⟩
  · have hfilled := h.filled s (by simp)
    rcases h.beyond hp with hbelow | ⟨haxis, hgap⟩
    · exact .inl hbelow
    · exact .inr ⟨haxis, by omega⟩

theorem Canonical.begins (h : Canonical (s :: l)) : Holds (s :: l) (s.axis, s.lo) :=
  holds_cons.mpr (.inl ⟨rfl, Nat.le_refl _, h.filled s (by simp)⟩)

theorem Canonical.ends (h : Canonical (s :: l)) : ¬Holds (s :: l) (s.axis, s.hi) := by
  intro hp
  rcases holds_cons.mp hp with ⟨-, -, hhi⟩ | hp
  · exact absurd hhi (Nat.lt_irrefl _)
  · rcases h.beyond hp with hbelow | ⟨-, hgap⟩
    · exact absurd hbelow (lt_irrefl _)
    · exact absurd hgap (Nat.lt_irrefl _)

theorem Canonical.head_le (hl : Canonical (s :: l)) (haxis : s.axis = t.axis) (hlo : s.lo = t.lo)
    (hsame : ∀ p, Holds (s :: l) p ↔ Holds (t :: m) p) : t.hi ≤ s.hi := by
  by_contra hlonger
  have hfilled := hl.filled s (by simp)
  refine hl.ends ((hsame _).mpr (holds_cons.mpr (.inl ⟨haxis.symm, ?_, ?_⟩)))
  · show t.lo ≤ s.hi
    omega
  · show s.hi < t.hi
    omega

theorem Canonical.ext (hl : Canonical l) (hm : Canonical m) (hsame : ∀ p, Holds l p ↔ Holds m p) : l = m := by
  induction l generalizing m with
  | nil =>
    cases m with
    | nil => rfl
    | cons t m => simpa [Holds] using (hsame (t.axis, t.lo)).mpr hm.begins
  | cons s l ih =>
    cases m with
    | nil => simpa [Holds] using (hsame (s.axis, s.lo)).mp hl.begins
    | cons t m =>
      have hst := hm.first ((hsame _).mp hl.begins)
      have hts := hl.first ((hsame _).mpr hm.begins)
      simp only at hst hts
      have haxis : s.axis = t.axis := by
        rcases hst with hst | ⟨hst, -⟩
        · rcases hts with hts | ⟨hts, -⟩
          · exact absurd hst hts.not_gt
          · exact hts
        · exact hst.symm
      have hlo : s.lo = t.lo := by
        have h1 := hst.resolve_left (by simp [haxis])
        have h2 := hts.resolve_left (by simp [haxis])
        omega
      have hhi : s.hi = t.hi := Nat.le_antisymm
        (hm.head_le haxis.symm hlo.symm fun p => (hsame p).symm) (hl.head_le haxis hlo hsame)
      obtain rfl : s = t := by
        cases s
        cases t
        simp_all
      rw [ih hl.tail hm.tail fun p => by rw [hl.holds_tail, hm.holds_tail, hsame]]

/-! ### Joining -/

/-- Joins sorted spans to those joined before, the last one first; two spans that share a point are refused. -/
def joinOnto : List (Span κ) → List (Span κ) → Option (List (Span κ))
  | joined, [] => some joined.reverse
  | [], s :: rest => joinOnto [s] rest
  | last :: joined, s :: rest =>
    if last.axis = s.axis then
      if s.lo < last.hi then none
      else if s.lo = last.hi then joinOnto ({ last with hi := s.hi } :: joined) rest
      else joinOnto (s :: last :: joined) rest
    else joinOnto (s :: last :: joined) rest

theorem joinOnto_length (h : joinOnto joined rest = some result) : result.length ≤ joined.length + rest.length := by
  induction rest generalizing joined with
  | nil =>
    obtain rfl := Option.some.inj h
    simp
  | cons s rest ih =>
    -- whatever `s` is taken up into is at most one span longer
    have hnext : ∀ {next}, joinOnto next rest = some result → next.length ≤ joined.length + 1 →
        result.length ≤ joined.length + (rest.length + 1) := fun hr hlength => by
      have := ih hr
      omega
    cases joined with
    | nil => exact hnext h (by simp)
    | cons last joined =>
      rw [joinOnto] at h
      split at h
      · split at h
        · simp at h
        · split at h
          · exact hnext h (by simp)
          · exact hnext h (by simp)
      · exact hnext h (by simp)

/-- What was joined is canonical, and nothing to come begins before its last span. -/
structure Joined (joined rest : List (Span κ)) : Prop where
  canonical : Canonical joined.reverse
  sorted : rest.Pairwise Span.Before
  filled : ∀ s ∈ rest, s.lo < s.hi
  after : ∀ last ∈ joined.head?, ∀ s ∈ rest, last.Before s

theorem joined_reverse : Canonical (s :: joined).reverse ↔
    s.lo < s.hi ∧ Canonical joined.reverse ∧ ∀ t ∈ joined, t.Below s := by
  constructor
  · intro h
    have hfilled := h.filled
    have hapart := h.apart
    rw [List.reverse_cons, List.pairwise_append] at hapart
    refine ⟨hfilled s (by simp), ⟨fun t ht => hfilled t (by simp_all), hapart.1⟩, fun t ht => ?_⟩
    exact hapart.2.2 t (by simpa using ht) s (by simp)
  · rintro ⟨hfilled, hrest, hbelow⟩
    refine ⟨fun t ht => ?_, ?_⟩
    · simp only [List.reverse_cons, List.mem_append, List.mem_singleton] at ht
      rcases ht with ht | rfl
      · exact hrest.filled t ht
      · exact hfilled
    · rw [List.reverse_cons, List.pairwise_append]
      refine ⟨hrest.apart, List.pairwise_singleton _ _, fun t ht u hu => ?_⟩
      rw [List.mem_singleton.mp hu]
      exact hbelow t (by simpa using ht)

theorem Joined.push (h : Joined joined (s :: rest)) (hbelow : ∀ t ∈ joined.head?, t.Below s) : Joined (s :: joined) rest := by
  have hsorted := List.pairwise_cons.mp h.sorted
  have hall : ∀ t ∈ joined, t.Below s := by
    cases joined with
    | nil => simp
    | cons last joined =>
      have hlast := hbelow last (by simp)
      obtain ⟨hfilled, -, hearlier⟩ := joined_reverse.mp h.canonical
      exact List.forall_mem_cons.mpr ⟨hlast, fun t ht => (hearlier t ht).trans hlast hfilled⟩
  refine ⟨joined_reverse.mpr ⟨h.filled s (by simp), h.canonical, hall⟩, hsorted.2,
    fun t ht => h.filled t (List.mem_cons_of_mem _ ht), ?_⟩
  rintro last hlast t ht
  obtain rfl : s = last := by simpa using hlast
  exact hsorted.1 t ht

theorem Joined.extend (h : Joined (last :: joined) (s :: rest)) (hlo : s.lo = last.hi) :
    Joined ({ last with hi := s.hi } :: joined) rest := by
  have hfilled := h.filled s (by simp)
  obtain ⟨hlast, hearlier, hbelow⟩ := joined_reverse.mp h.canonical
  refine ⟨joined_reverse.mpr ⟨?_, hearlier, fun t ht => hbelow t ht⟩, (List.pairwise_cons.mp h.sorted).2,
    fun t ht => h.filled t (List.mem_cons_of_mem _ ht), ?_⟩
  · show last.lo < s.hi
    omega
  · rintro first hfirst t ht
    obtain rfl : { last with hi := s.hi } = first := by simpa using hfirst
    exact h.after last (by simp) t (List.mem_cons_of_mem _ ht)

/-- A span that begins after the end of the last one, or on a later axis, shares no point with what was joined. -/
theorem Joined.fresh (h : Joined (last :: joined) (s :: rest)) (hgap : last.axis = s.axis → last.hi ≤ s.lo) :
    ∀ t ∈ last :: joined, t.Apart s := by
  obtain ⟨hlast, -, hbelow⟩ := joined_reverse.mp h.canonical
  have hfirst : last.Apart s := by
    rintro p ⟨⟨haxis, -, hto⟩, haxis', hfrom, -⟩
    have := hgap (haxis.trans haxis'.symm)
    omega
  refine List.forall_mem_cons.mpr ⟨hfirst, fun t ht => ?_⟩
  rintro p ⟨⟨haxis, -, hto⟩, haxis', hfrom, -⟩
  -- an earlier span on the axis of `s` makes the last one lie on it, too
  rcases h.after last (by simp) s (by simp) with hlater | ⟨hsame, -⟩
  · rcases hbelow t ht with hearlier | ⟨hearlier, -⟩
    · exact absurd (haxis.trans haxis'.symm) (hearlier.trans hlater).ne
    · exact absurd (hearlier.symm.trans (haxis.trans haxis'.symm)) hlater.ne
  · have := hgap hsame
    rcases hbelow t ht with hearlier | ⟨-, hearlier⟩
    · exact absurd (haxis.trans (haxis'.symm.trans hsame.symm)) hearlier.ne
    · omega

/-- Joining succeeds exactly when no two spans share a point; the result is canonical and holds all points. -/
structure Joins (joined rest : List (Span κ)) : Prop where
  sound : ∀ result, joinOnto joined rest = some result → Canonical result ∧ ∀ p, Holds result p ↔ Holds joined p ∨ Holds rest p
  complete : (∃ result, joinOnto joined rest = some result) ↔ rest.Pairwise Span.Apart ∧ ∀ s ∈ rest, ∀ t ∈ joined, t.Apart s

theorem Joins.next {next : List (Span κ)} (h : Joins next rest) (hjoin : joinOnto joined (s :: rest) = joinOnto next rest)
    (hholds : ∀ p, Holds next p ↔ Holds (s :: joined) p) (hfresh : ∀ t ∈ joined, t.Apart s) : Joins joined (s :: rest) where
  sound result hr := by
    obtain ⟨hcanonical, hpoints⟩ := h.sound result (hjoin ▸ hr)
    exact ⟨hcanonical, fun p => by rw [hpoints, hholds, holds_cons, holds_cons]; tauto⟩
  complete := by
    have hapart : ∀ u, (∀ t ∈ next, t.Apart u) ↔ s.Apart u ∧ ∀ t ∈ joined, t.Apart u := by
      intro u
      have hboth : (s.Apart u ∧ ∀ t ∈ joined, t.Apart u) ↔ ∀ t ∈ s :: joined, t.Apart u := by simp
      rw [hboth, apart_iff, apart_iff]
      simp only [hholds]
    rw [hjoin, h.complete, List.pairwise_cons, List.forall_mem_cons]
    simp only [hapart]
    constructor
    · rintro ⟨hrest, hothers⟩
      exact ⟨⟨fun u hu => (hothers u hu).1, hrest⟩, hfresh, fun u hu => (hothers u hu).2⟩
    · rintro ⟨⟨hs, hrest⟩, -, hothers⟩
      exact ⟨hrest, fun u hu => ⟨hs u hu, hothers u hu⟩⟩

theorem Joined.joins (h : Joined joined rest) : Joins joined rest := by
  induction rest generalizing joined with
  | nil =>
    refine ⟨?_, by simp [joinOnto]⟩
    rintro result ⟨⟩
    exact ⟨h.canonical, fun p => by simp [Holds]⟩
  | cons s rest ih =>
    cases joined with
    | nil => exact (ih (h.push (by simp))).next rfl (fun p => Iff.rfl) (by simp)
    | cons last joined =>
      have hfilled := h.filled s (by simp)
      have hlast := (joined_reverse.mp h.canonical).1
      by_cases haxis : last.axis = s.axis
      · by_cases hmeets : s.lo < last.hi
        · -- the first point of `s` is held twice
          have hnone : joinOnto (last :: joined) (s :: rest) = none := by rw [joinOnto, if_pos haxis, if_pos hmeets]
          have hshared : ¬last.Apart s := by
            intro hapart
            have hstart := (h.after last (by simp) s (by simp)).resolve_left (by simp [haxis])
            exact hapart (s.axis, s.lo) ⟨⟨haxis, hstart.2, hmeets⟩, rfl, Nat.le_refl _, hfilled⟩
          have hrefused : ¬∃ result, joinOnto (last :: joined) (s :: rest) = some result := by simp [hnone]
          refine ⟨by simp [hnone], iff_of_false hrefused ?_⟩
          rintro ⟨-, hapart⟩
          exact hshared (hapart s (by simp) last (by simp))
        · have hfresh := h.fresh fun _ => Nat.le_of_not_lt hmeets
          by_cases hadjacent : s.lo = last.hi
          · refine (ih (h.extend hadjacent)).next ?_ (fun p => holds_extend haxis hadjacent hlast hfilled) hfresh
            rw [joinOnto, if_pos haxis, if_neg hmeets, if_pos hadjacent]
          · refine (ih (h.push ?_)).next ?_ (fun p => Iff.rfl) hfresh
            · rintro t ⟨⟩
              exact .inr ⟨haxis, by omega⟩
            · rw [joinOnto, if_pos haxis, if_neg hmeets, if_neg hadjacent]
      · have hfresh := h.fresh fun hsame => absurd hsame haxis
        refine (ih (h.push ?_)).next ?_ (fun p => Iff.rfl) hfresh
        · rintro t ⟨⟩
          exact .inl ((h.after last (by simp) s (by simp)).resolve_right fun hsame => haxis hsame.1)
        · rw [joinOnto, if_neg haxis]

/-! ### Sorted spans -/

/-- Filled spans in order are joined unless two of them share a point. -/
theorem joins_sorted (hsorted : rest.Pairwise Span.Before) (hfilled : ∀ s ∈ rest, s.lo < s.hi) : Joins [] rest :=
  Joined.joins ⟨⟨by simp, by simp⟩, hsorted, hfilled, by simp⟩

theorem Canonical.sorted (h : Canonical l) : l.Pairwise Span.Before := by
  refine h.apart.imp_of_mem fun hs ht hbelow => ?_
  rcases hbelow with haxis | ⟨haxis, hgap⟩
  · exact .inl haxis
  · have := h.filled _ hs
    exact .inr ⟨haxis, by omega⟩

theorem Canonical.joinOnto (h : Canonical l) : joinOnto [] l = some l := by
  have hapart : l.Pairwise Span.Apart := by
    refine h.apart.imp ?_
    rintro s t hbelow p ⟨⟨haxis, -, hto⟩, haxis', hfrom, -⟩
    rcases hbelow with hlater | ⟨-, hgap⟩
    · exact absurd (haxis.trans haxis'.symm) hlater.ne
    · omega
  obtain ⟨hsound, hcomplete⟩ := joins_sorted h.sorted h.filled
  obtain ⟨result, hresult⟩ := hcomplete.mpr ⟨hapart, by simp⟩
  obtain ⟨hcanonical, hpoints⟩ := hsound result hresult
  rw [hresult, hcanonical.ext h fun p => by rw [hpoints, or_iff_right holds_nil]]

/-! ### The points in a list -/

section
variable {κ : Type} {s : Span κ} {l : List (Span κ)} {p : κ × Nat}

def Span.points (s : Span κ) : List (κ × Nat) := (List.range (s.hi - s.lo)).map fun i => (s.axis, s.lo + i)

theorem Span.mem_points : p ∈ s.points ↔ s.Holds p := by
  obtain ⟨axis, at'⟩ := p
  simp only [points, List.mem_map, List.mem_range, Prod.mk.injEq, Holds]
  constructor
  · rintro ⟨i, hi, haxis, rfl⟩
    exact ⟨haxis, by omega⟩
  · rintro ⟨haxis, hlo, hhi⟩
    exact ⟨at' - s.lo, by omega, haxis, by omega⟩

theorem Span.nodup_points (s : Span κ) : s.points.Nodup := by
  refine List.nodup_range.map fun i j h => ?_
  simp only [Prod.mk.injEq, true_and] at h
  omega

def points (l : List (Span κ)) : List (κ × Nat) := l.flatMap Span.points

theorem mem_points : p ∈ points l ↔ Holds l p := by simp [points, Holds, Span.mem_points]

theorem nodup_points (h : l.Pairwise Span.Apart) : (points l).Nodup := by
  refine List.nodup_flatMap.mpr ⟨fun s _ => s.nodup_points, h.imp fun hapart => ?_⟩
  intro p hs ht
  exact hapart p ⟨Span.mem_points.mp hs, Span.mem_points.mp ht⟩

theorem length_points : (points l).length = (l.map fun s => s.hi - s.lo).sum := by
  simp only [points, List.length_flatMap, Span.points, List.length_map, List.length_range]

end

/-! ### A relation listed along a range -/

section
variable {α : Type} {maps maps' : Nat → α → Prop} {first count first' count' : Nat} {values values' : List α}

/-- Each of `count` numbers from `first` on is related to exactly the value at its place. -/
def Lists (maps : Nat → α → Prop) (first count : Nat) (values : List α) : Prop :=
  values.length = count ∧ ∀ i < count, ∀ a, maps (first + i) a ↔ values[i]? = some a

theorem lists_nil : Lists maps first 0 [] := ⟨rfl, by simp⟩

theorem Lists.append (h : Lists maps first count values) (h' : Lists maps (first + count) count' values') :
    Lists maps first (count + count') (values ++ values') := by
  obtain ⟨hlength, hvalues⟩ := h
  obtain ⟨hlength', hvalues'⟩ := h'
  refine ⟨by rw [List.length_append, hlength, hlength'], fun i hi a => ?_⟩
  by_cases hbefore : i < count
  · rw [hvalues i hbefore a, List.getElem?_append_left (by omega)]
  · rw [List.getElem?_append_right (by omega), hlength, ← hvalues' (i - count) (by omega) a]
    have hplace : first + count + (i - count) = first + i := by omega
    rw [hplace]

theorem Lists.move (h : Lists maps first count values) (hmaps : ∀ i < count, ∀ a, maps' (first' + i) a ↔ maps (first + i) a) :
    Lists maps' first' count values :=
  ⟨h.1, fun i hi a => (hmaps i hi a).trans (h.2 i hi a)⟩

theorem Lists.total (h : Lists maps first count values) {i : Nat} (hi : i < count) : ∃! a, maps (first + i) a := by
  obtain ⟨hlength, hvalues⟩ := h
  have hvalue := List.getElem?_eq_getElem (hlength ▸ hi)
  refine ⟨_, (hvalues i hi _).mpr hvalue, fun a ha => ?_⟩
  exact Option.some.inj (((hvalues i hi a).mp ha).symm.trans hvalue)

theorem Lists.mem_iff (h : Lists maps first count values) {a : α} : a ∈ values ↔ ∃ i < count, maps (first + i) a := by
  obtain ⟨hlength, hvalues⟩ := h
  rw [List.mem_iff_getElem?]
  constructor
  · rintro ⟨i, hi⟩
    have hlt := (List.getElem?_eq_some_iff.mp hi).1
    exact ⟨i, hlength ▸ hlt, (hvalues i (hlength ▸ hlt) a).mpr hi⟩
  · rintro ⟨i, hi, ha⟩
    exact ⟨i, (hvalues i hi a).mp ha⟩

theorem Lists.injective (h : Lists maps first count values) (hnodup : values.Nodup) {i j : Nat} {a : α} (hi : i < count)
    (hj : j < count) (ha : maps (first + i) a) (ha' : maps (first + j) a) : i = j := by
  obtain ⟨hlength, hvalues⟩ := h
  have hvalue := (hvalues i hi a).mp ha
  exact (List.getElem?_inj (hlength ▸ hi) hnodup).mp (hvalue.trans ((hvalues j hj a).mp ha').symm)

end

end Ranges
