import CrawlCluster.Proofs.Text.Pieces
import CrawlCluster.Roster.Message

/-!
Texts that are heartbeats, and texts that are not. A heartbeat is right in every field: one that is
wrong, wherever it stands, leaves nothing of the others. Main statements: `parse_eq_ok_iff` and
`parse_eq_error_iff`, that what is read is what the fields spell, and that nothing is read just if
one of them is wrong or their number is.
-/

set_option autoImplicit false

namespace CrawlCluster.Roster

namespace Change

variable {tag address port : String} {change : Change} {changes : List Change}
variable {fields front : List String}

inductive Spelt : String → String → String → Change → Prop where
  | added {address port : String} {n : UInt16} (haddress : address ≠ "")
    (hport : Text.Numeral.uint16? (Text.trim port) = some n) :
      Spelt addedTag address port (.added ⟨address, n⟩)
  | removed {address port : String} {n : UInt16} (haddress : address ≠ "")
    (hport : Text.Numeral.uint16? (Text.trim port) = some n) :
      Spelt removedTag address port (.removed ⟨address, n⟩)

inductive Misspelt : String → String → String → Prop where
  | tag {tag address port : String} (hadded : tag ≠ addedTag) (hremoved : tag ≠ removedTag) :
      Misspelt tag address port
  | address {tag port : String} : Misspelt tag "" port
  | port {tag address port : String}
    (hport : Text.Numeral.uint16? (Text.trim port) = none) : Misspelt tag address port

theorem Spelt.read (h : Spelt tag address port change) :
    ofFields tag address port = .ok change := by
  cases h with
  | added haddress hport | removed haddress hport =>
    simp only [ofFields, readPeer, Peer.ofFields?, String.isEmpty_iff, haddress, if_false, hport]
    rfl

theorem Misspelt.read (h : Misspelt tag address port) :
    ∃ error, ofFields tag address port = .error error := by
  cases h with
  | tag hadded hremoved =>
    simp only [ofFields, readPeer]
    cases Peer.ofFields? address port with
    | none => exact ⟨_, rfl⟩
    | some peer => exact ⟨.invalidChange tag, by simp [hadded, hremoved, bind, Except.bind]; rfl⟩
  | address => exact ⟨.invalidPeer ("" ++ ":" ++ port), rfl⟩
  | port hport =>
    have hpeer : Peer.ofFields? address port = none := by
      simp [Peer.ofFields?, hport]
    exact ⟨_, by simp only [ofFields, readPeer, hpeer]; rfl⟩

theorem spelt_or_misspelt (tag address port : String) :
    (∃ change, Spelt tag address port change) ∨ Misspelt tag address port := by
  by_cases haddress : address = ""
  · exact .inr (haddress ▸ .address)
  cases hport : Text.Numeral.uint16? (Text.trim port) with
  | none => exact .inr (.port hport)
  | some n =>
    by_cases hadded : tag = addedTag
    · subst hadded
      exact .inl ⟨_, .added haddress hport⟩
    by_cases hremoved : tag = removedTag
    · subst hremoved
      exact .inl ⟨_, .removed haddress hport⟩
    exact .inr (.tag hadded hremoved)

/-- Fields that spell changes, three to each. -/
inductive Listed : List String → List Change → Prop where
  | nil : Listed [] []
  | cons {tag address port : String} {change : Change} {fields : List String}
    {changes : List Change} (hchange : Spelt tag address port change)
    (hrest : Listed fields changes) : Listed (tag :: address :: port :: fields) (change :: changes)

theorem Listed.length (h : Listed fields changes) : fields.length = 3 * changes.length := by
  induction h with
  | nil => rfl
  | cons hchange hrest ih =>
    simp only [List.length_cons, ih]
    omega

theorem Listed.read (h : Listed fields changes) : readAll fields = .ok changes := by
  induction h with
  | nil => rfl
  | cons hchange hrest ih =>
    rw [readAll, hchange.read, ih]
    rfl

theorem Misspelt.readAll (h : Misspelt tag address port) (hplace : front.length % 3 = 0)
    (back : List String) :
    ∃ error, readAll (front ++ tag :: address :: port :: back) = .error error := by
  obtain ⟨error, herror⟩ := h.read
  induction front using readAll.induct with
  | case1 first second third front ih =>
    obtain ⟨later, hlater⟩ := ih (by simp only [List.length_cons] at hplace; omega)
    rw [List.cons_append, List.cons_append, List.cons_append, Change.readAll, hlater]
    cases ofFields first second third with
    | error error => exact ⟨error, rfl⟩
    | ok change => exact ⟨later, rfl⟩
  | case2 front hfront =>
    match front, hfront, hplace with
    | [], _, _ => exact ⟨error, by rw [List.nil_append, Change.readAll, herror]; rfl⟩
    | [_], _, hplace => simp at hplace
    | [_, _], _, hplace => simp at hplace
    | first :: second :: third :: rest, hfront, _ =>
      exact absurd rfl (hfront first second third rest)

theorem listed_or_misspelt (hthirds : fields.length % 3 = 0) :
    (∃ changes, Listed fields changes) ∨
      ∃ front tag address port back, fields = front ++ tag :: address :: port :: back ∧
        front.length % 3 = 0 ∧ Misspelt tag address port := by
  induction fields using readAll.induct with
  | case1 tag address port fields ih =>
    rcases spelt_or_misspelt tag address port with ⟨change, hchange⟩ | hbad
    · rcases ih (by simp only [List.length_cons] at hthirds; omega) with
        ⟨changes, hrest⟩ | ⟨front, tag', address', port', back, rfl, hplace, hbad⟩
      · exact .inl ⟨_, .cons hchange hrest⟩
      · refine .inr ⟨tag :: address :: port :: front, tag', address', port', back, rfl, ?_, hbad⟩
        simp only [List.length_cons]
        omega
    · exact .inr ⟨[], tag, address, port, fields, rfl, rfl, hbad⟩
  | case2 fields hfields =>
    match fields, hfields, hthirds with
    | [], _, _ => exact .inl ⟨[], .nil⟩
    | [_], _, hthirds => simp at hthirds
    | [_, _], _, hthirds => simp at hthirds
    | tag :: address :: port :: rest, hfields, _ =>
      exact absurd rfl (hfields tag address port rest)

end Change

namespace Heartbeat

variable {d : Delimiters} {text : String} {beat : Heartbeat}

inductive Spelt (d : Delimiters) : String → Heartbeat → Prop where
  | fields {text first : String} {rest : List String} {crawlId : Int32} {changes : List Change}
    (hfields : d.fields (d.dropEntryEnd text) = first :: rest)
    (hcrawlId : Text.Numeral.int32? (Text.trim first) = some crawlId)
    (hchanges : Change.Listed rest changes) : Spelt d text ⟨crawlId, changes⟩

/-- What can be wrong with a text that is to be a heartbeat: its first field, the number of the
others, or one of those. -/
inductive Flawed (d : Delimiters) : String → Prop where
  | crawlId {text first : String} {rest : List String}
    (hfields : d.fields (d.dropEntryEnd text) = first :: rest)
    (hcrawlId : Text.Numeral.int32? (Text.trim first) = none) : Flawed d text
  | number {text first : String} {rest : List String}
    (hfields : d.fields (d.dropEntryEnd text) = first :: rest)
    (hthirds : rest.length % 3 ≠ 0) : Flawed d text
  | change {text first tag address port : String} {front back : List String}
    (hfields : d.fields (d.dropEntryEnd text) = first :: (front ++ tag :: address :: port :: back))
    (hplace : front.length % 3 = 0) (hbad : Change.Misspelt tag address port) : Flawed d text

theorem Spelt.parse (h : Spelt d text beat) : parse d text = .ok beat := by
  cases h with
  | @fields first rest crawlId changes hfields hcrawlId hchanges =>
    have hthirds : rest.length % 3 = 0 := by
      rw [hchanges.length]
      omega
    simp only [Heartbeat.parse, hfields, hcrawlId, hthirds, if_true, hchanges.read]
    rfl

theorem Flawed.parse (h : Flawed d text) : ∃ error, parse d text = .error error := by
  cases h with
  | crawlId hfields hcrawlId =>
    simp only [Heartbeat.parse, hfields, hcrawlId]
    exact ⟨_, rfl⟩
  | @number first rest hfields hthirds =>
    simp only [Heartbeat.parse, hfields, hthirds, if_false]
    cases Text.Numeral.int32? (Text.trim first) with
    | none => exact ⟨_, rfl⟩
    | some crawlId => exact ⟨_, rfl⟩
  | @change first tag address port front back hfields hplace hbad =>
    obtain ⟨error, herror⟩ := hbad.readAll hplace back
    simp only [Heartbeat.parse, hfields, herror]
    cases Text.Numeral.int32? (Text.trim first) with
    | none => exact ⟨_, rfl⟩
    | some crawlId =>
      simp only
      split <;> exact ⟨_, rfl⟩

theorem spelt_or_flawed (d : Delimiters) (text : String) :
    (∃ beat, Spelt d text beat) ∨ Flawed d text := by
  cases hfields : d.fields (d.dropEntryEnd text) with
  | nil => exact absurd hfields (d.fields_ne_nil _)
  | cons first rest =>
    cases hcrawlId : Text.Numeral.int32? (Text.trim first) with
    | none => exact .inr (.crawlId hfields hcrawlId)
    | some crawlId =>
      by_cases hthirds : rest.length % 3 = 0
      · rcases Change.listed_or_misspelt hthirds with
          ⟨changes, hchanges⟩ | ⟨front, tag, address, port, back, rfl, hplace, hbad⟩
        · exact .inl ⟨_, .fields hfields hcrawlId hchanges⟩
        · exact .inr (.change hfields hplace hbad)
      · exact .inr (.number hfields hthirds)

theorem parse_eq_ok_iff : parse d text = .ok beat ↔ Spelt d text beat := by
  refine ⟨fun hparse => ?_, Spelt.parse⟩
  rcases spelt_or_flawed d text with ⟨other, hother⟩ | hflawed
  · rw [hother.parse] at hparse
    cases hparse
    exact hother
  · obtain ⟨error, herror⟩ := hflawed.parse
    exact absurd (herror.symm.trans hparse) (by simp)

theorem parse_eq_error_iff : (∃ error, parse d text = .error error) ↔ Flawed d text := by
  refine ⟨?_, Flawed.parse⟩
  rintro ⟨error, herror⟩
  rcases spelt_or_flawed d text with ⟨beat, hbeat⟩ | hflawed
  · exact absurd (hbeat.parse.symm.trans herror) (by simp)
  · exact hflawed

end Heartbeat

end CrawlCluster.Roster
