import CrawlCluster.Proofs.Text.Bytes
import CrawlCluster.Proofs.Text.Pieces

set_option autoImplicit false

namespace CrawlCluster.Delimiters

variable {d : Delimiters}

theorem entryChar_ne_fieldChar (h : d.field ≠ d.entry) : d.entryChar ≠ d.fieldChar := by
  intro he
  exact h (Text.ofNat_byte_inj.1 he).symm

/-- Even the empty text has a field, so no text has none. -/
theorem fields_joinFields_iff {fields : List String} :
    d.fields (d.joinFields fields) = fields ↔
      fields ≠ [] ∧ ∀ f ∈ fields, d.fieldChar ∉ f.toList := by
  constructor
  · intro h
    refine ⟨h ▸ d.fields_ne_nil _, fun f hf => ?_⟩
    rw [← h] at hf
    exact Text.not_mem_of_mem_split hf
  · rintro ⟨hne, hfree⟩
    exact fields_joinFields hne hfree

theorem entries_closeEntries_iff {entries : List String} :
    d.entries (d.closeEntries entries) = entries ↔
      ∀ e ∈ entries, e ≠ "" ∧ d.entryChar ∉ e.toList := by
  constructor
  · intro h e he
    rw [← h] at he
    exact ⟨ne_empty_of_mem_entries he, entry_not_mem_of_mem_entries he⟩
  · intro h
    exact entries_closeEntries (fun e he => (h e he).2) fun e he => (h e he).1

def rows (d : Delimiters) (s : String) : List (List String) := (d.entries s).map d.fields

def closeRows (d : Delimiters) (rows : List (List String)) : String :=
  d.closeEntries (rows.map d.joinFields)

/-- A row of fields that neither separator is in. It is not written as an empty entry, which would
be passed over. -/
structure Clean (d : Delimiters) (row : List String) : Prop where
  ne_nil : row ≠ []
  ne_blank : row ≠ [""]
  field : ∀ f ∈ row, d.fieldChar ∉ f.toList
  entry : ∀ f ∈ row, d.entryChar ∉ f.toList

theorem Clean.fields_joinFields {row : List String} (h : d.Clean row) :
    d.fields (d.joinFields row) = row :=
  Delimiters.fields_joinFields h.ne_nil h.field

theorem Clean.joinFields_ne_empty {row : List String} (h : d.Clean row) :
    d.joinFields row ≠ "" := by
  intro hempty
  have hrow := h.fields_joinFields
  rw [hempty] at hrow
  exact h.ne_blank hrow.symm

theorem clean_fields {s e : String} (h : e ∈ d.entries s) : d.Clean (d.fields e) where
  ne_nil := d.fields_ne_nil e
  ne_blank hblank := by
    refine ne_empty_of_mem_entries h ?_
    rw [← d.joinFields_fields e, hblank]
    rfl
  field _ hf := Text.not_mem_of_mem_split hf
  entry _ hf hmem := entry_not_mem_of_mem_entries h (Text.mem_of_mem_split hf hmem)

/-- What reads entries and then the fields of each gives back just the rows that are clean. -/
theorem rows_closeRows_iff (hne : d.field ≠ d.entry) {rows : List (List String)} :
    d.rows (d.closeRows rows) = rows ↔ ∀ row ∈ rows, d.Clean row := by
  constructor
  · intro h row hrow
    rw [← h] at hrow
    obtain ⟨e, he, rfl⟩ := List.mem_map.1 hrow
    exact clean_fields he
  · intro h
    have hentries : d.entries (d.closeRows rows) = rows.map d.joinFields := by
      refine entries_closeEntries (fun e he => ?_) fun e he => ?_
      · obtain ⟨row, hrow, rfl⟩ := List.mem_map.1 he
        exact Text.not_mem_join (entryChar_ne_fieldChar hne) (h row hrow).entry
      · obtain ⟨row, hrow, rfl⟩ := List.mem_map.1 he
        exact (h row hrow).joinFields_ne_empty
    rw [Delimiters.rows, hentries, List.map_map]
    have hread : rows.map (d.fields ∘ d.joinFields) = rows.map id :=
      List.map_congr_left fun row hrow => (h row hrow).fields_joinFields
    rw [hread, List.map_id]

/-- Between any two separators, the fields of a text joined are the text again. Fields that were
joined are found again just if there is one and the separator is in none, entries that were closed
just if none is empty and the separator is in none. So if the separators are two, rows of fields
are read back just if they are clean. -/
theorem splitting_inverts_joining (d : Delimiters) :
    (∀ s, d.joinFields (d.fields s) = s) ∧
    (∀ fields, d.fields (d.joinFields fields) = fields ↔
      fields ≠ [] ∧ ∀ f ∈ fields, d.fieldChar ∉ f.toList) ∧
    (∀ entries, d.entries (d.closeEntries entries) = entries ↔
      ∀ e ∈ entries, e ≠ "" ∧ d.entryChar ∉ e.toList) ∧
    (d.field ≠ d.entry → ∀ rows, d.rows (d.closeRows rows) = rows ↔ ∀ row ∈ rows, d.Clean row) :=
  ⟨joinFields_fields d, fun _ => fields_joinFields_iff, fun _ => entries_closeEntries_iff,
    fun hne _ => rows_closeRows_iff hne⟩

/-- Between two separators that are written with two bytes each: rows with empty fields at either
end, and with the usual separators inside them. -/
theorem splitting_inverts_joining_accented :
    let d : Delimiters := { field := 0xE9, entry := 0xFF }
    let written := [["", "a?b", ""], ["\n"], ["", ""]]
    d.field ≠ d.entry ∧ d.closeRows written = "éa?béÿ\nÿéÿ" ∧
      d.rows (d.closeRows written) = written := by
  intro d written
  have hne : d.field ≠ d.entry := by decide
  have hclean : ∀ row ∈ written, d.Clean row := by
    intro row hrow
    simp only [written, List.mem_cons, List.not_mem_nil, or_false] at hrow
    rcases hrow with rfl | rfl | rfl <;> exact ⟨by decide, by decide, by decide, by decide⟩
  exact ⟨hne, by decide +kernel, ((splitting_inverts_joining d).2.2.2 hne written).2 hclean⟩

end CrawlCluster.Delimiters
