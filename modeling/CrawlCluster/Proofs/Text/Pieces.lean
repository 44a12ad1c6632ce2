import CrawlCluster.Delimiters
import CrawlCluster.Proofs.Text.Numerals

set_option autoImplicit false

namespace CrawlCluster

namespace Text

@[simp] theorem toList_join_cons (sep : Char) (first second : String) (rest : List String) :
    (join sep (first :: second :: rest)).toList =
      first.toList ++ sep :: (join sep (second :: rest)).toList := by
  simp [join, List.intercalate]

@[simp]
theorem toList_join_singleton (sep : Char) (s : String) : (join sep [s]).toList = s.toList := by
  simp [join, List.intercalate]

theorem join_ne_empty (sep : Char) (first second : String) (rest : List String) :
    join sep (first :: second :: rest) ≠ "" := by
  intro h
  have hlist := congrArg String.toList h
  simp at hlist

theorem prefix_join (sep : Char) (first : String) (rest : List String) :
    first.toList.IsPrefix (join sep (first :: rest)).toList := by
  cases rest with
  | nil => exact (toList_join_singleton sep first).symm ▸ List.prefix_rfl
  | cons second rest => exact toList_join_cons sep first second rest ▸ List.prefix_append ..

theorem not_mem_of_mem_split {sep : Char} {s piece : String} (h : piece ∈ split sep s) :
    sep ∉ piece.toList := by
  obtain ⟨cs, hcs, rfl⟩ := List.mem_map.1 h
  rw [String.toList_ofList]
  exact not_mem_of_mem_splitOn hcs

theorem mem_join {sep c : Char} {pieces : List String} {piece : String} (h : piece ∈ pieces)
    (hc : c ∈ piece.toList) : c ∈ (join sep pieces).toList := by
  induction pieces with
  | nil => cases h
  | cons first rest ih =>
    cases rest with
    | nil =>
      rw [toList_join_singleton, ← List.mem_singleton.1 h]
      exact hc
    | cons second rest =>
      rw [toList_join_cons, List.mem_append, List.mem_cons]
      rcases List.mem_cons.1 h with rfl | h
      · exact .inl hc
      · exact .inr (.inr (ih h))

theorem mem_of_mem_split {sep c : Char} {s piece : String} (h : piece ∈ split sep s)
    (hc : c ∈ piece.toList) : c ∈ s.toList :=
  join_split sep s ▸ mem_join h hc

theorem not_mem_join {sep c : Char} {pieces : List String} (hc : c ≠ sep)
    (h : ∀ p ∈ pieces, c ∉ p.toList) : c ∉ (join sep pieces).toList := by
  induction pieces with
  | nil => simp [join]
  | cons first rest ih =>
    cases rest with
    | nil =>
      rw [toList_join_singleton]
      exact h first (by simp)
    | cons second rest =>
      rw [toList_join_cons, List.mem_append, List.mem_cons, not_or, not_or]
      exact ⟨h first (by simp), hc, ih fun p hp => h p (List.mem_cons_of_mem _ hp)⟩

theorem getLast?_join_ne {sep c : Char} (hc : c ≠ sep) {first second : String} {rest : List String}
    (h : (join sep (second :: rest)).toList.getLast? ≠ some c) :
    (join sep (first :: second :: rest)).toList.getLast? ≠ some c := by
  rw [toList_join_cons, List.getLast?_append, List.getLast?_cons, Option.some_or, ne_eq,
    Option.some.injEq]
  cases hlast : (join sep (second :: rest)).toList.getLast? with
  | none => exact hc.symm
  | some last =>
    rw [hlast] at h
    simpa using h

theorem join_join (sep : Char) (first second third : String) (rest : List String) :
    join sep (join sep [first, second] :: third :: rest) =
      join sep (first :: second :: third :: rest) := by
  apply String.toList_inj.1
  simp only [toList_join_cons, toList_join_singleton, List.append_assoc, List.cons_append]

theorem cutFirst_append {sep : Char} {cs : List Char} (h : sep ∉ cs) (rest : List Char) :
    cutFirst sep (cs ++ sep :: rest) = some (cs, rest) := by
  induction cs with
  | nil => simp [cutFirst]
  | cons c cs ih =>
    simp only [List.mem_cons, not_or] at h
    simp [cutFirst, Ne.symm h.1, ih h.2]

theorem cutFirst_eq_none {sep : Char} {cs : List Char} (h : sep ∉ cs) : cutFirst sep cs = none := by
  induction cs with
  | nil => rfl
  | cons c cs ih =>
    simp only [List.mem_cons, not_or] at h
    simp [cutFirst, Ne.symm h.1, ih h.2]

theorem cutFirst_eq_some_iff {sep : Char} {cs front back : List Char} :
    cutFirst sep cs = some (front, back) ↔ cs = front ++ sep :: back ∧ sep ∉ front := by
  constructor
  · intro h
    induction cs generalizing front with
    | nil => simp [cutFirst] at h
    | cons c cs ih =>
      rw [cutFirst] at h
      split at h
      · next hc =>
        obtain ⟨rfl, rfl⟩ := Prod.mk.inj (Option.some.inj h)
        exact ⟨by rw [hc]; rfl, by simp⟩
      · next hc =>
        obtain ⟨⟨a, b⟩, hcut, he⟩ := Option.map_eq_some_iff.1 h
        obtain ⟨rfl, rfl⟩ := Prod.mk.inj he
        obtain ⟨rfl, ha⟩ := ih hcut
        exact ⟨rfl, by simp [Ne.symm hc, ha]⟩
  · rintro ⟨rfl, h⟩
    exact cutFirst_append h back

theorem splitFirst?_eq_some_iff {sep : Char} {s first second : String} :
    splitFirst? sep s = some (first, second) ↔
      s.toList = first.toList ++ sep :: second.toList ∧ sep ∉ first.toList := by
  rw [splitFirst?, Option.map_eq_some_iff, ← cutFirst_eq_some_iff]
  constructor
  · rintro ⟨⟨front, back⟩, hcut, he⟩
    obtain ⟨rfl, rfl⟩ := Prod.mk.inj he
    rw [String.toList_ofList, String.toList_ofList, hcut]
  · intro hcut
    exact ⟨_, hcut, by simp⟩

theorem splitFirst?_eq_none {sep : Char} {s : String} (h : sep ∉ s.toList) :
    splitFirst? sep s = none := by
  rw [splitFirst?, cutFirst_eq_none h, Option.map_none]

theorem splitLast?_eq_some {sep : Char} {s first second : String}
    (hs : s.toList = first.toList ++ sep :: second.toList) (h : sep ∉ second.toList) :
    splitLast? sep s = some (first, second) := by
  have hreverse : s.toList.reverse = second.toList.reverse ++ sep :: first.toList.reverse := by
    simp [hs]
  rw [splitLast?, cutLast, hreverse, cutFirst_append (by simpa using h)]
  simp

theorem splitLast?_eq_none {sep : Char} {s : String} (h : sep ∉ s.toList) :
    splitLast? sep s = none := by
  rw [splitLast?, cutLast, cutFirst_eq_none (by simpa using h), Option.map_none, Option.map_none]

theorem splitUpTo_join {sep : Char} {first second : String} {rest : List String}
    (h : sep ∉ first.toList) (n : Nat) :
    splitUpTo sep (n + 2) (join sep (first :: second :: rest)) =
      first :: splitUpTo sep (n + 1) (join sep (second :: rest)) := by
  rw [splitUpTo, toList_join_cons, splitOnUpTo, cutFirst_append h]
  simp [splitUpTo]

theorem splitUpTo_one (sep : Char) (s : String) : splitUpTo sep 1 (join sep [s]) = [s] := by
  simp [splitUpTo, splitOnUpTo]

theorem not_mem_of_splitUpTo {sep : Char} {n : Nat} {s first second : String}
    {rest : List String} (h : splitUpTo sep (n + 2) s = first :: second :: rest) :
    sep ∉ first.toList := by
  rw [splitUpTo, splitOnUpTo] at h
  split at h
  · simp at h
  · next front back hcut =>
    obtain ⟨rfl, -⟩ := List.cons.inj h
    rw [String.toList_ofList]
    exact (cutFirst_eq_some_iff.1 hcut).2

theorem toList_dropTrailing (last : Char) (s : String) :
    (dropTrailing last s).toList =
      if s.toList.getLast? = some last then s.toList.dropLast else s.toList := by
  unfold dropTrailing
  split
  · next hs => simp [List.reverse_eq_nil_iff.1 hs]
  · next c cs hs =>
    have hs : s.toList = cs.reverse ++ [c] := by
      rw [← List.reverse_reverse s.toList, hs, List.reverse_cons]
    by_cases hc : c = last <;> simp [hs, hc]

theorem dropTrailing_eq_self_iff {last : Char} {s : String} :
    dropTrailing last s = s ↔ s.toList.getLast? ≠ some last := by
  rw [← String.toList_inj, toList_dropTrailing]
  constructor
  · intro h hlast
    obtain ⟨front, hs⟩ := List.getLast?_eq_some_iff.1 hlast
    rw [if_pos hlast, hs, List.dropLast_concat] at h
    simp at h
  · intro h
    rw [if_neg h]

theorem toList_dropTrailing_join {last sep : Char} (hne : last ≠ sep) (first second : String)
    (rest : List String) :
    (dropTrailing last (join sep (first :: second :: rest))).toList =
      first.toList ++ sep :: (dropTrailing last (join sep (second :: rest))).toList := by
  rw [toList_dropTrailing, toList_dropTrailing, toList_join_cons]
  cases (join sep (second :: rest)).toList with
  | nil => simp [hne.symm]
  | cons c back =>
    have hlast : (first.toList ++ sep :: c :: back).getLast? = (c :: back).getLast? := by
      simp [List.getLast?_cons]
    rw [hlast, List.dropLast_append_of_ne_nil (List.cons_ne_nil sep _), List.dropLast_cons_cons]
    split <;> rfl

end Text

namespace Delimiters

variable {d : Delimiters}

theorem fields_ne_nil (d : Delimiters) (s : String) : d.fields s ≠ [] := by
  rw [fields, Text.split, ne_eq, List.map_eq_nil_iff]
  exact Text.splitOn_ne_nil _ _

theorem ne_empty_of_mem_entries {s e : String} (h : e ∈ d.entries s) : e ≠ "" := by
  simpa using (List.mem_filter.1 h).2

theorem entry_not_mem_of_mem_entries {s e : String} (h : e ∈ d.entries s) :
    d.entryChar ∉ e.toList :=
  Text.not_mem_of_mem_split (List.mem_filter.1 h).1

theorem toList_closeEntries_cons (d : Delimiters) (entry : String) (entries : List String) :
    (d.closeEntries (entry :: entries)).toList =
      entry.toList ++ d.entryChar :: (d.closeEntries entries).toList := by
  simp [closeEntries, String.join_cons]

theorem closeEntries_append (d : Delimiters) (entries others : List String) :
    d.closeEntries (entries ++ others) = d.closeEntries entries ++ d.closeEntries others := by
  simp [closeEntries, String.join_append]

/-- Behind the last separator stands one more piece, which is empty. -/
theorem split_closeEntries {entries : List String}
    (h : ∀ e ∈ entries, d.entryChar ∉ e.toList) :
    Text.split d.entryChar (d.closeEntries entries) = entries ++ [""] := by
  induction entries with
  | nil => rfl
  | cons entry entries ih =>
    simp only [List.mem_cons, forall_eq_or_imp] at h
    rw [Text.split, toList_closeEntries_cons, Text.splitOn_append h.1, List.map_cons,
      String.ofList_toList]
    exact congrArg (entry :: ·) (ih h.2)

theorem entries_closeEntries {entries : List String}
    (h : ∀ e ∈ entries, d.entryChar ∉ e.toList) (hne : ∀ e ∈ entries, e ≠ "") :
    d.entries (d.closeEntries entries) = entries := by
  rw [Delimiters.entries, split_closeEntries h, List.filter_append]
  simpa using hne

end Delimiters
end CrawlCluster
