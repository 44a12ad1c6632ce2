import CrawlCluster.Text.Split

/-!
The two separators every message is written with: one between the fields of an entry, one after
each entry. They are bytes; in text each stands for the character of the same number.
-/

set_option autoImplicit false

namespace CrawlCluster

structure Delimiters where
  field : UInt8 := '?'.toUInt8
  entry : UInt8 := '\n'.toUInt8
  deriving DecidableEq, Repr

namespace Delimiters

def fieldChar (d : Delimiters) : Char := Char.ofNat d.field.toNat
def entryChar (d : Delimiters) : Char := Char.ofNat d.entry.toNat

def fields (d : Delimiters) (s : String) : List String := Text.split d.fieldChar s

/-- The entries that are not empty: a text usually ends with a separator, so an empty entry
carries nothing. -/
def entries (d : Delimiters) (s : String) : List String :=
  (Text.split d.entryChar s).filter fun e => !e.isEmpty

def joinFields (d : Delimiters) (fields : List String) : String := Text.join d.fieldChar fields

/-- Every text closed by an entry separator. -/
def closeEntries (d : Delimiters) (entries : List String) : String :=
  String.join (entries.map (·.push d.entryChar))

/-- A body without the entry separator that may close it. -/
def dropEntryEnd (d : Delimiters) (body : String) : String := Text.dropTrailing d.entryChar body

@[simp] theorem joinFields_fields (d : Delimiters) (s : String) : d.joinFields (d.fields s) = s :=
  Text.join_split d.fieldChar s

theorem fields_joinFields {d : Delimiters} {fields : List String} (hne : fields ≠ [])
    (h : ∀ f ∈ fields, d.fieldChar ∉ f.toList) : d.fields (d.joinFields fields) = fields :=
  Text.split_join hne h

end Delimiters
end CrawlCluster
