import CrawlCluster.Store.Lemmas
import CrawlCluster.Text.Numeral
import Mathlib.Data.List.Nodup

set_option autoImplicit false

namespace CrawlCluster.Store

theorem idBefore_iff {a b : String} : idBefore a b = true ↔
    a.utf8ByteSize < b.utf8ByteSize ∨ (a.utf8ByteSize = b.utf8ByteSize ∧ a < b) := by
  simp [idBefore]

theorem idBefore_irrefl (a : String) : idBefore a a = false := by
  simp [idBefore]

theorem idBefore_trans {a b c : String} (hab : idBefore a b = true) (hbc : idBefore b c = true) :
    idBefore a c = true := by
  rw [idBefore_iff] at *
  rcases hab with hab | ⟨hab, hab'⟩ <;> rcases hbc with hbc | ⟨hbc, hbc'⟩
  · exact .inl (by omega)
  · exact .inl (by omega)
  · exact .inl (by omega)
  · exact .inr ⟨by omega, String.lt_trans hab' hbc'⟩

theorem idBefore_of_not {a b : String} (hne : a ≠ b) (h : idBefore a b = false) :
    idBefore b a = true := by
  have hn : ¬idBefore a b = true := by simp [h]
  rw [idBefore_iff, not_or] at hn
  rw [idBefore_iff]
  by_cases hs : a.utf8ByteSize = b.utf8ByteSize
  · refine .inr ⟨hs.symm, ?_⟩
    have hle : b ≤ a := String.not_lt.1 fun hlt => hn.2 ⟨hs, hlt⟩
    by_cases hba : b < a
    · exact hba
    · exact absurd (String.le_antisymm (String.not_lt.1 hba) hle) hne
  · exact .inl (by omega)

/-- The rows of the table stand in the order of their ids, no two under one id. -/
def Ordered (table : List Job) : Prop := table.Pairwise fun a b => idBefore a.id b.id = true

theorem Ordered.nodup {table : List Job} (h : Ordered table) : (table.map (·.id)).Nodup := by
  refine List.pairwise_map.2 (h.imp ?_)
  intro a b hab he
  rw [he, idBefore_irrefl] at hab
  contradiction

theorem mem_putLease {job j : Job} {table : List Job} (h : Ordered table) :
    j ∈ putLease job table ↔ j = job ∨ (j ∈ table ∧ j.id ≠ job.id) := by
  induction table with
  | nil => simp [putLease]
  | cons row table ih =>
    obtain ⟨hrow, htable⟩ := List.pairwise_cons.1 h
    have hbehind : ∀ id, row.id = id ∨ idBefore id row.id = true → ∀ k ∈ table, k.id ≠ id := by
      rintro id hid k hk rfl
      have hk' := hrow k hk
      rcases hid with hid | hid
      · rw [hid, idBefore_irrefl] at hk'
        contradiction
      · have hirr := idBefore_trans hk' hid
        rw [idBefore_irrefl] at hirr
        contradiction
    rw [putLease]
    split
    · next hid =>
      have hne := hbehind job.id (.inl hid)
      simp only [List.mem_cons]
      constructor
      · rintro (rfl | hj)
        · exact .inl rfl
        · exact .inr ⟨.inr hj, hne j hj⟩
      · rintro (rfl | ⟨rfl | hj, hj'⟩)
        · exact .inl rfl
        · exact absurd hid hj'
        · exact .inr hj
    · next hid =>
      split
      · next hbefore =>
        have hne := hbehind job.id (.inr hbefore)
        simp only [List.mem_cons]
        constructor
        · rintro (rfl | rfl | hj)
          · exact .inl rfl
          · exact .inr ⟨.inl rfl, hid⟩
          · exact .inr ⟨.inr hj, hne j hj⟩
        · rintro (rfl | ⟨hj, -⟩)
          · exact .inl rfl
          · exact .inr hj
      · simp only [List.mem_cons, ih htable]
        constructor
        · rintro (rfl | rfl | ⟨hj, hj'⟩)
          · exact .inr ⟨.inl rfl, hid⟩
          · exact .inl rfl
          · exact .inr ⟨.inr hj, hj'⟩
        · rintro (rfl | ⟨rfl | hj, hj'⟩)
          · exact .inr (.inl rfl)
          · exact .inl rfl
          · exact .inr (.inr ⟨hj, hj'⟩)

theorem ordered_putLease {job : Job} {table : List Job} (h : Ordered table) :
    Ordered (putLease job table) := by
  induction table with
  | nil => exact List.pairwise_singleton _ _
  | cons row table ih =>
    obtain ⟨hrow, htable⟩ := List.pairwise_cons.1 h
    rw [putLease]
    split
    · next hid =>
      exact List.pairwise_cons.2 ⟨fun k hk => hid ▸ hrow k hk, htable⟩
    · next hid =>
      split
      · next hbefore =>
        refine List.pairwise_cons.2 ⟨?_, h⟩
        intro k hk
        rcases List.mem_cons.1 hk with rfl | hk
        · exact hbefore
        · exact idBefore_trans hbefore (hrow k hk)
      · next hbefore =>
        refine List.pairwise_cons.2 ⟨?_, ih htable⟩
        intro k hk
        rcases (mem_putLease htable).1 hk with rfl | ⟨hk, -⟩
        · exact idBefore_of_not (Ne.symm hid) (by simpa using hbefore)
        · exact hrow k hk

theorem Ordered.filter {table : List Job} (h : Ordered table) (p : Job → Bool) :
    Ordered (table.filter p) := List.Pairwise.filter p h

theorem ids_putLease_of_mem {job : Job} {table : List Job} (h : Ordered table)
    (hmem : job.id ∈ table.map (·.id)) :
    (putLease job table).map (·.id) = table.map (·.id) := by
  induction table with
  | nil => simp at hmem
  | cons row table ih =>
    obtain ⟨hrow, htable⟩ := List.pairwise_cons.1 h
    rw [putLease]
    split
    · next hid => simp [hid]
    · next hid =>
      have hmem' : job.id ∈ table.map (·.id) := by
        rcases List.mem_cons.1 hmem with he | hm
        · exact absurd he.symm hid
        · exact hm
      split
      · next hbefore =>
        obtain ⟨k, hk, hke⟩ := List.mem_map.1 hmem'
        have hirr := idBefore_trans (hrow k hk) (hke.symm ▸ hbefore)
        rw [idBefore_irrefl] at hirr
        contradiction
      · simp [ih htable hmem']

theorem ids_putLease_of_not_mem {job : Job} {table : List Job} (hmem : job.id ∉ table.map (·.id)) :
    ((putLease job table).map (·.id)).Perm (job.id :: table.map (·.id)) := by
  induction table with
  | nil => exact .refl _
  | cons row table ih =>
    simp only [List.map_cons, List.mem_cons, not_or] at hmem
    rw [putLease, if_neg (Ne.symm hmem.1)]
    split
    · exact .refl _
    · exact ((ih hmem.2).cons row.id).trans (.swap _ _ _)

theorem filter_current_retire (job : Job) (gone : List Job) (s : Store) :
    (s.retire job.id).current.filter (fun row => row.id ∉ gone.map (·.id)) =
      s.current.filter fun row => row.id ∉ (job :: gone).map (·.id) := by
  rw [retire, List.filter_filter]
  congr 1
  funext row
  by_cases hid : row.id = job.id <;> simp [hid]

theorem leased?_eq_some_iff {id : String} {job : Job} {s : Store} (h : Ordered s.current) :
    s.leased? id = some job ↔ job ∈ s.current ∧ job.id = id := by
  constructor
  · intro hl
    exact ⟨List.mem_of_find?_eq_some hl, by simpa using List.find?_some hl⟩
  · rintro ⟨hmem, rfl⟩
    cases hl : s.leased? job.id with
    | none => simpa using List.find?_eq_none.1 hl job hmem
    | some row =>
      have hrow : row ∈ s.current := List.mem_of_find?_eq_some hl
      have hid : row.id = job.id := by simpa using List.find?_some hl
      exact congrArg some (List.inj_on_of_nodup_map h.nodup hrow hmem hid)

section Scanning

variable [ScanOrder] {s : Store}

theorem Ordered.nodup_scan (h : Ordered s.current) : ((ScanOrder.scan s).map (·.id)).Nodup :=
  ((ScanOrder.perm s).map _).nodup_iff.2 h.nodup

/-- A leased job goes by an id of its own, so that id is due just if the job is. -/
theorem Ordered.id_mem_due {row : Job} (h : Ordered s.current) (hrow : row ∈ s.current)
    (before : Int64) : row.id ∈ ((ScanOrder.scan s).filter (·.isExpired before)).map (·.id) ↔
      row.isExpired before = true := by
  constructor
  · intro hmem
    obtain ⟨other, hother, he⟩ := List.mem_map.1 hmem
    obtain ⟨hscan, hexpired⟩ := List.mem_filter.1 hother
    rw [← List.inj_on_of_nodup_map h.nodup (mem_scan.1 hscan) hrow he]
    exact hexpired
  · intro hexpired
    exact List.mem_map_of_mem (List.mem_filter.2 ⟨mem_scan.2 hrow, hexpired⟩)

theorem ordered_perform {now : Int64} {call : StoreCall} (h : Ordered s.current) :
    Ordered (s.perform now call).2.current := by
  cases call with
  | takeTop =>
    simp only [perform, takeTop]
    cases s.queue <;> exact h
  | leased id =>
    simp only [perform]
    cases s.leased? id <;> exact h
  | grant job => exact ordered_putLease h
  | retire id => exact h.filter _
  | _ => exact h

end Scanning

theorem jobId_injective {m n : Nat} (h : jobId m = jobId n) : m = n := by
  have hrepr : m.repr = n.repr := by simpa [jobId, String.ext_iff] using h
  have hdigits : Nat.toDigits 10 m = Nat.toDigits 10 n := by
    simpa using congrArg String.toList hrepr
  have hread := Text.Numeral.digits?_toDigits m
  rw [hdigits, Text.Numeral.digits?_toDigits] at hread
  exact (Option.some.inj hread).symm

end CrawlCluster.Store
