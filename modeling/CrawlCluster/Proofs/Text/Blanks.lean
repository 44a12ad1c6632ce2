import CrawlCluster.Proofs.Text.Pieces
import Mathlib.Data.List.TakeWhile

/-!
Text and the blanks around it. Main statements: blanks before a text or behind it make no
difference to what is left of it once they are taken off, and none to what is left of the pieces it
falls into.
-/

set_option autoImplicit false

namespace CrawlCluster.Text

def Blank (s : String) : Prop := ∀ c ∈ s.toList, isBlank c = true

instance (s : String) : Decidable (Blank s) := List.decidableBAll _ s.toList

variable {s before after : String}

theorem Blank.not_mem (h : Blank s) {c : Char} (hc : isBlank c = false) : c ∉ s.toList := by
  intro hmem
  rw [h c hmem] at hc
  contradiction

theorem dropWhileEnd_append {α : Type} {p : α → Bool} {after : List α}
    (h : ∀ c ∈ after, p c = true) (cs : List α) :
    dropWhileEnd p (cs ++ after) = dropWhileEnd p cs := by
  rw [dropWhileEnd, List.reverse_append, List.dropWhile_append_of_pos (by simpa using h),
    dropWhileEnd]

theorem dropWhileEnd_append_takeWhile {α : Type} (p : α → Bool) (cs : List α) :
    dropWhileEnd p cs ++ (cs.reverse.takeWhile p).reverse = cs := by
  rw [dropWhileEnd, ← List.reverse_append, List.takeWhile_append_dropWhile, List.reverse_reverse]

theorem dropWhileEnd_cons {α : Type} {p : α → Bool} {c : α} (h : p c = false) (cs : List α) :
    dropWhileEnd p (c :: cs) = c :: dropWhileEnd p cs := by
  rw [dropWhileEnd, List.reverse_cons, List.dropWhile_append, dropWhileEnd]
  split
  · next hnone => simp [List.isEmpty_iff.1 hnone, h]
  · rw [List.reverse_append, List.reverse_singleton, List.singleton_append]

theorem head?_trim {c : Char} (h : s.toList.head? = some c) (hc : isBlank c = false) :
    (trim s).toList.head? = some c := by
  obtain ⟨cs, hs⟩ := List.head?_eq_some_iff.1 h
  rw [trim, trimBy, hs, List.dropWhile_cons_of_neg (by simpa using hc), dropWhileEnd_cons hc,
    String.toList_ofList, List.head?_cons]

theorem trim_append_left (h : Blank before) (s : String) : trim (before ++ s) = trim s := by
  rw [trim, trimBy, String.toList_append, List.dropWhile_append_of_pos h, trim, trimBy]

theorem trim_append_right (h : Blank after) (s : String) : trim (s ++ after) = trim s := by
  rw [trim, trimBy, String.toList_append, List.dropWhile_append, trim, trimBy]
  split
  · next hnone =>
    rw [List.isEmpty_iff.1 hnone, List.dropWhile_eq_nil_iff.2 h]
  · rw [dropWhileEnd_append h]

theorem trim_around (hbefore : Blank before) (hafter : Blank after) (s : String) :
    trim (before ++ s ++ after) = trim s := by
  rw [trim_append_right hafter, trim_append_left hbefore]

/-- What is taken off is blank. -/
theorem exists_around_trim (s : String) :
    ∃ before after, Blank before ∧ Blank after ∧ s = before ++ trim s ++ after := by
  let rest := s.toList.dropWhile isBlank
  refine ⟨String.ofList (s.toList.takeWhile isBlank),
    String.ofList (rest.reverse.takeWhile isBlank).reverse, ?_, ?_, ?_⟩
  · intro c hc
    rw [String.toList_ofList] at hc
    exact List.mem_takeWhile_imp hc
  · intro c hc
    rw [String.toList_ofList, List.mem_reverse] at hc
    exact List.mem_takeWhile_imp hc
  · apply String.toList_inj.1
    simp only [trim, trimBy, String.toList_append, String.toList_ofList, List.append_assoc]
    rw [dropWhileEnd_append_takeWhile, List.takeWhile_append_dropWhile]

theorem trim_trim (s : String) : trim (trim s) = trim s := by
  obtain ⟨before, after, hbefore, hafter, hs⟩ := exists_around_trim s
  calc trim (trim s)
      = trim (before ++ trim s ++ after) := (trim_around hbefore hafter _).symm
    _ = trim s := by rw [← hs]

theorem trim_eq_empty (h : Blank s) : trim s = "" := by
  have htrim := trim_append_left h ""
  rw [String.append_empty] at htrim
  exact htrim

theorem trim_eq_self (hfirst : ∀ c, s.toList.head? = some c → isBlank c = false)
    (hlast : ∀ c, s.toList.getLast? = some c → isBlank c = false) : trim s = s := by
  obtain ⟨before, after, hbefore, hafter, hs⟩ := exists_around_trim s
  have hbefore : before = "" := by
    cases hchars : before.toList with
    | nil => simpa using hchars
    | cons c cs =>
      have hc := hbefore c (hchars ▸ List.mem_cons_self)
      rw [hfirst c (by rw [hs]; simp [hchars])] at hc
      contradiction
  have hafter : after = "" := by
    cases hchars : after.toList.getLast? with
    | none => simpa using hchars
    | some c =>
      have hc := hafter c (List.mem_of_getLast? hchars)
      rw [hlast c (by rw [hs]; simp [hchars])] at hc
      contradiction
  rw [hbefore, hafter, String.empty_append, String.append_empty] at hs
  exact hs.symm

theorem splitOn_append_left (sep : Char) (cs : List Char) :
    ∃ first rest, splitOn sep cs = first :: rest ∧
      ∀ before, sep ∉ before → splitOn sep (before ++ cs) = (before ++ first) :: rest := by
  obtain ⟨first, rest, hcs⟩ := List.exists_cons_of_ne_nil (splitOn_ne_nil sep cs)
  refine ⟨first, rest, hcs, fun before hbefore => ?_⟩
  induction before with
  | nil => exact hcs
  | cons c before ih =>
    simp only [List.mem_cons, not_or] at hbefore
    simp [splitOn, Ne.symm hbefore.1, ih hbefore.2]

theorem splitOn_append_right (sep : Char) (cs : List Char) :
    ∃ front last, splitOn sep cs = front ++ [last] ∧
      ∀ after, sep ∉ after → splitOn sep (cs ++ after) = front ++ [last ++ after] := by
  induction cs with
  | nil => exact ⟨[], [], rfl, fun after hafter => splitOn_of_not_mem hafter⟩
  | cons c cs ih =>
    obtain ⟨front, last, hcs, happend⟩ := ih
    by_cases hc : c = sep
    · refine ⟨[] :: front, last, by simp [splitOn, hc, hcs], fun after hafter => ?_⟩
      simp [splitOn, hc, happend after hafter]
    · cases front with
      | nil =>
        refine ⟨[], c :: last, by simp [splitOn, hc, hcs], fun after hafter => ?_⟩
        simp [splitOn, hc, happend after hafter]
      | cons first front =>
        refine ⟨(c :: first) :: front, last, by simp [splitOn, hc, hcs], fun after hafter => ?_⟩
        simp [splitOn, hc, happend after hafter]

theorem map_trim_split_append_left {sep : Char} (hsep : isBlank sep = false)
    (h : Blank before) (s : String) :
    (split sep (before ++ s)).map trim = (split sep s).map trim := by
  obtain ⟨first, rest, hs, happend⟩ := splitOn_append_left sep s.toList
  rw [split, split, String.toList_append, happend _ (h.not_mem hsep), hs]
  simp [String.ofList_append, trim_append_left h]

theorem map_trim_split_append_right {sep : Char} (hsep : isBlank sep = false)
    (h : Blank after) (s : String) :
    (split sep (s ++ after)).map trim = (split sep s).map trim := by
  obtain ⟨front, last, hs, happend⟩ := splitOn_append_right sep s.toList
  rw [split, split, String.toList_append, happend _ (h.not_mem hsep), hs]
  simp [String.ofList_append, trim_append_right h]

theorem map_trim_split_trim {sep : Char} (hsep : isBlank sep = false) (s : String) :
    (split sep (trim s)).map trim = (split sep s).map trim := by
  obtain ⟨before, after, hbefore, hafter, hs⟩ := exists_around_trim s
  calc (split sep (trim s)).map trim
      = (split sep (before ++ trim s ++ after)).map trim := by
        rw [map_trim_split_append_right hsep hafter, map_trim_split_append_left hsep hbefore]
    _ = (split sep s).map trim := by rw [← hs]

theorem map_trim_splitFirst?_trim {sep : Char} (hsep : isBlank sep = false) (s : String) :
    (splitFirst? sep (trim s)).map (Prod.map trim trim) =
      (splitFirst? sep s).map (Prod.map trim trim) := by
  obtain ⟨before, after, hbefore, hafter, hs⟩ := exists_around_trim s
  have hchars : s.toList = before.toList ++ (trim s).toList ++ after.toList := by
    rw [← String.toList_append, ← String.toList_append, ← hs]
  by_cases hmem : sep ∈ (trim s).toList
  · obtain ⟨front, back, htrim, hfront⟩ := List.eq_append_cons_of_mem hmem
    have hinner : splitFirst? sep (trim s) = some (String.ofList front, String.ofList back) :=
      splitFirst?_eq_some_iff.2 ⟨by simpa using htrim, by simpa using hfront⟩
    have houter : splitFirst? sep s =
        some (before ++ String.ofList front, String.ofList back ++ after) := by
      refine splitFirst?_eq_some_iff.2 ⟨?_, ?_⟩
      · rw [hchars, htrim]
        simp
      · simpa using ⟨hbefore.not_mem hsep, hfront⟩
    rw [hinner, houter]
    simp [trim_append_left hbefore, trim_append_right hafter]
  · have hout : sep ∉ s.toList := by
      rw [hchars]
      simp [hbefore.not_mem hsep, hafter.not_mem hsep, hmem]
    rw [splitFirst?_eq_none hmem, splitFirst?_eq_none hout]

end CrawlCluster.Text
