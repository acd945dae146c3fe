import Mathlib.Tactic.Common

/-! Slash-separated paths. Two cleaned rooted paths are compared by their texts; what that says about their elements is proved
    here. -/

namespace Paths

def split : List Char → List (List Char)
  | [] => [[]]
  | c :: cs =>
    if c = '/' then [] :: split cs
    else match split cs with
      | [] => [[c]]
      | first :: rest => (c :: first) :: rest

def join : List (List Char) → List Char
  | [] => []
  | [element] => element
  | element :: rest => element ++ '/' :: join rest

def resolve (rooted : Bool) : List (List Char) → List (List Char) → List (List Char)
  | out, [] => out
  | out, element :: rest =>
    if element = [] ∨ element = ['.'] then resolve rooted out rest
    else if element = ['.', '.'] then
      match out with
      | [] => resolve rooted (if rooted then [] else [element]) rest
      | last :: before => if last = ['.', '.'] then resolve rooted (element :: out) rest else resolve rooted before rest
    else resolve rooted (element :: out) rest

def isAbs (path : String) : Bool := path.toList.head? = some '/'

def elements (path : String) : List (List Char) := (resolve (isAbs path) [] (split path.toList)).reverse

def cleanChars (path : String) : List Char :=
  if isAbs path then '/' :: join (elements path)
  else if elements path = [] then ['.'] else join (elements path)

def clean (path : String) : String := .ofList (cleanChars path)

def trimSlash (path : List Char) : List Char := if path.getLast? = some '/' then path.dropLast else path

/-- The texts of the cleaned paths are equal, or one goes on where the other ends. -/
def overlap (left right : String) : Bool :=
  cleanChars left = cleanChars right || (trimSlash (cleanChars right) ++ ['/']).isPrefixOf (cleanChars left) ||
    (trimSlash (cleanChars left) ++ ['/']).isPrefixOf (cleanChars right)

/-- The directory `inner` names is the one that `outer` names, or lies in it. -/
def Contains (outer inner : String) : Prop := isAbs outer ∧ isAbs inner ∧ elements outer <+: elements inner

theorem overlap_comm (left right : String) : overlap left right = overlap right left := by
  simp only [overlap, Bool.or_assoc, eq_comm, Bool.or_comm ((trimSlash (cleanChars right) ++ ['/']).isPrefixOf (cleanChars left))]

theorem overlap_of_clean {left right : String} (h : clean left = clean right) : overlap left right := by
  have hchars : cleanChars left = cleanChars right := String.ofList_injective h
  simp [overlap, hchars]

theorem trimSlash_prefix (path rest : List Char) : trimSlash path ++ ['/'] <+: path ++ '/' :: rest := by
  unfold trimSlash
  split
  · rename_i hlast
    obtain ⟨before, rfl⟩ := List.getLast?_eq_some_iff.mp hlast
    exact ⟨'/' :: rest, by simp⟩
  · exact ⟨rest, by simp⟩

theorem join_append {outer rest : List (List Char)} (houter : outer ≠ []) (hrest : rest ≠ []) :
    join (outer ++ rest) = join outer ++ '/' :: join rest := by
  induction outer with
  | nil => exact absurd rfl houter
  | cons element outer ih =>
    cases outer with
    | nil =>
      cases rest with
      | nil => exact absurd rfl hrest
      | cons first rest => rfl
    | cons next outer =>
      have hstep := ih (by simp)
      simp only [List.cons_append, join] at hstep ⊢
      rw [hstep]
      simp

theorem overlap_of_contains {outer inner : String} (h : Contains outer inner) : overlap outer inner := by
  obtain ⟨houter, hinner, rest, hrest⟩ := h
  have hclean : cleanChars inner = '/' :: join (elements outer ++ rest) := by simp [cleanChars, hinner, hrest]
  have hcleanOuter : cleanChars outer = '/' :: join (elements outer) := by simp [cleanChars, houter]
  simp only [overlap, Bool.or_eq_true, decide_eq_true_eq, List.isPrefixOf_iff_prefix]
  by_cases hnil : rest = []
  · left; left
    rw [hclean, hcleanOuter, hnil, List.append_nil]
  · right
    rw [hclean, hcleanOuter]
    by_cases hroot : elements outer = []
    · exact ⟨join rest, by simp [hroot, join, trimSlash]⟩
    · rw [join_append hroot hnil, ← List.cons_append]
      exact trimSlash_prefix _ _

end Paths
