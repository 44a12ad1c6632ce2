import CrawlCluster.Options.Basic
import CrawlCluster.Proofs.Text.Blanks

set_option autoImplicit false

namespace CrawlCluster

open Text (Blank isBlank join split splitFirst? trim trimBy)

namespace EnvFile

structure Item (text : String) : Prop where
  comma : ',' ∉ text.toList
  quote : '"' ∉ text.toList
  newline : '\n' ∉ text.toList

structure Gap (text : String) : Prop where
  blank : Blank text
  newline : '\n' ∉ text.toList

theorem Gap.item {text : String} (h : Gap text) : Item text :=
  ⟨h.blank.not_mem (by decide), h.blank.not_mem (by decide), h.newline⟩

theorem Item.append {first second : String} (hfirst : Item first) (hsecond : Item second) :
    Item (first ++ second) where
  comma := by simpa using ⟨hfirst.comma, hsecond.comma⟩
  quote := by simpa using ⟨hfirst.quote, hsecond.quote⟩
  newline := by simpa using ⟨hfirst.newline, hsecond.newline⟩

end EnvFile

namespace Peer

/-- A member that can be named as a seed: its address may stand in a list of items, and begins and
ends in what is neither taken off nor taken for the colon before the port. -/
structure Listable (p : Peer) : Prop where
  address : p.address ≠ ""
  item : EnvFile.Item p.address
  first : ∀ c ∈ p.address.toList.head?, isBlank c = false
  last : ∀ c ∈ p.address.toList.getLast?, isBlank c = false ∧ c ≠ ':'

/-- How a seed may be written. The port may be left out if no colon of the address would be taken
for the one before it. -/
inductive Spelled (p : Peer) : String → Prop where
  | label : Spelled p p.label
  | address (hport : p.port = defaultPort) (hcolon : ':' ∉ p.address.toList) : Spelled p p.address

variable {p : Peer} {text : String}

theorem ofHostPort?_trim (text : String) (port : UInt16) :
    ofHostPort? (trim text) port = ofHostPort? text port := by
  rw [ofHostPort?, Text.trim_trim, ofHostPort?]

theorem Spelled.not_mem (h : p.Spelled text) {c : Char} (haddress : c ∉ p.address.toList)
    (hcolon : c ≠ ':') (hdigit : c.isDigit = false) : c ∉ text.toList := by
  cases h with
  | label =>
    rw [toList_label, List.mem_append, List.mem_cons, not_or, not_or]
    exact ⟨haddress, hcolon, Text.Numeral.not_mem_repr hdigit _⟩
  | address => exact haddress

namespace Listable

theorem trim_address (h : p.Listable) : trim p.address = p.address :=
  Text.trim_eq_self h.first fun c hc => (h.last c hc).1

theorem trim_label (h : p.Listable) : trim p.label = p.label := by
  have haddress : p.address.toList ≠ [] := by simpa using h.address
  have hport : p.port.toNat.repr.toList ≠ [] := by simp [Nat.repr_eq_ofList_toDigits]
  refine Text.trim_eq_self (fun c hc => h.first c ?_) fun c hc => ?_
  · rw [toList_label, List.head?_append, List.head?_eq_some_head haddress, Option.some_or] at hc
    exact (List.head?_eq_some_head haddress).trans hc
  · rw [toList_label, List.getLast?_append, List.getLast?_cons_of_ne_nil hport,
      List.getLast?_eq_some_getLast hport, Option.some_or] at hc
    have hdigit : c.isDigit = true :=
      Text.Numeral.isDigit_of_mem_repr (Option.some.inj hc ▸ List.getLast_mem hport)
    exact Text.not_isBlank_of_isDigit hdigit

theorem trim_spelled (h : p.Listable) (ht : p.Spelled text) : trim text = text := by
  cases ht with
  | label => exact h.trim_label
  | address => exact h.trim_address

theorem item_spelled (h : p.Listable) (ht : p.Spelled text) : EnvFile.Item text where
  comma := ht.not_mem h.item.comma (by decide) (by decide)
  quote := ht.not_mem h.item.quote (by decide) (by decide)
  newline := ht.not_mem h.item.newline (by decide) (by decide)

theorem ne_empty (h : p.Listable) (ht : p.Spelled text) : text ≠ "" := by
  cases ht with
  | label => simp [label]
  | address => exact h.address

theorem ofHostPort?_label (h : p.Listable) (port : UInt16) : ofHostPort? p.label port = some p := by
  have hcolon : Text.splitLast? ':' p.label = some (p.address, p.port.toNat.repr) :=
    Text.splitLast?_eq_some (toList_label p) (Text.Numeral.not_mem_repr (by decide) _)
  have hlast : p.address.toList.getLast? ≠ some ':' := fun hc => (h.last ':' hc).2 rfl
  simp [ofHostPort?, h.trim_label, h.ne_empty .label, hcolon, h.address, hlast]

theorem ofHostPort?_address (h : p.Listable) (hcolon : ':' ∉ p.address.toList) (port : UInt16) :
    ofHostPort? p.address port = some { p with port } := by
  simp [ofHostPort?, h.trim_address, h.address, Text.splitLast?_eq_none hcolon]

theorem ofHostPort?_spelled (h : p.Listable) (ht : p.Spelled text) :
    ofHostPort? text defaultPort = some p := by
  cases ht with
  | label => exact h.ofHostPort?_label defaultPort
  | address hport hcolon => rw [h.ofHostPort?_address hcolon, ← hport]

end Listable
end Peer

namespace EnvFile

/-- A line that says nothing of seeds: if there is an equals sign in it, what it gives a value to
has another name. -/
structure Unrelated (line : String) : Prop where
  newline : '\n' ∉ line.toList
  name : ∀ parts ∈ splitFirst? '=' line, trim parts.1 ≠ "SEEDS"

def around (before items after : List String) : String :=
  join '\n' (before ++ ("SEEDS=" ++ join ',' items) :: after)

variable {line name value : String} {before items after : List String}

theorem readLine_eq (file : EnvFile) (line : String) :
    readLine file line =
      if (trim line).startsWith "#" then file
      else
        match (splitFirst? '=' line).map (Prod.map trim trim) with
        | none => file
        | some (name, value) => file.assign name (trimBy (· == '"') value) := by
  rw [← Text.map_trim_splitFirst?_trim (by decide), readLine]
  cases splitFirst? '=' (trim line) <;> rfl

theorem seeds_assign_of_ne (h : name ≠ "SEEDS") (value : String) (file : EnvFile) :
    (file.assign name value).seeds = file.seeds := by
  rw [assign, if_neg h]
  split <;> rfl

theorem Unrelated.seeds_readLine (h : Unrelated line) (file : EnvFile) :
    (readLine file line).seeds = file.seeds := by
  rw [readLine_eq]
  split
  · rfl
  · cases hcut : splitFirst? '=' line with
    | none => rfl
    | some parts => exact seeds_assign_of_ne (h.name parts hcut) _ file

theorem seeds_foldl {lines : List String} (h : ∀ line ∈ lines, Unrelated line) (file : EnvFile) :
    (lines.foldl readLine file).seeds = file.seeds := by
  induction lines generalizing file with
  | nil => rfl
  | cons line lines ih =>
    rw [List.foldl_cons, ih fun l hl => h l (List.mem_cons_of_mem _ hl),
      (h line List.mem_cons_self).seeds_readLine]

theorem seeds_readLine (h : '"' ∉ value.toList) (file : EnvFile) :
    (readLine file ("SEEDS=" ++ value)).seeds = readSeeds (trim value) := by
  have hcut : splitFirst? '=' ("SEEDS=" ++ value) = some ("SEEDS", value) :=
    Text.splitFirst?_eq_some_iff.2 ⟨by simp, by decide⟩
  have hcomment : ¬(trim ("SEEDS=" ++ value)).startsWith "#" := by
    intro hstart
    have hhash := List.singleton_prefix_iff_head?_eq_some.1 (String.startsWith_string_iff.1 hstart)
    have hname : (trim ("SEEDS=" ++ value)).toList.head? = some 'S' :=
      Text.head?_trim (by simp) (by decide)
    rw [hname] at hhash
    exact absurd hhash (by decide)
  have hvalue : trimBy (· == '"') (trim value) = trim value := by
    refine Text.trimBy_of_forall fun c hc => ?_
    have hne : c ≠ '"' := fun he => h (he ▸ (Text.toList_trim_sublist value).subset hc)
    simpa using hne
  have hname : trim "SEEDS" = "SEEDS" := by decide
  rw [readLine_eq, if_neg hcomment, hcut]
  simp [hname, hvalue, assign]

theorem Item.not_mem_join (h : ∀ item ∈ items, Item item) :
    '"' ∉ (join ',' items).toList ∧ '\n' ∉ (join ',' items).toList :=
  ⟨Text.not_mem_join (by decide) fun item hi => (h item hi).quote,
    Text.not_mem_join (by decide) fun item hi => (h item hi).newline⟩

theorem seeds_parse_around (hbefore : ∀ line ∈ before, Unrelated line)
    (hitems : ∀ item ∈ items, Item item) (hafter : ∀ line ∈ after, Unrelated line) :
    (parse (around before items after)).seeds = readSeeds (trim (join ',' items)) := by
  obtain ⟨hquote, hnewline⟩ := Item.not_mem_join hitems
  have hlines : ∀ line ∈ before ++ ("SEEDS=" ++ join ',' items) :: after, '\n' ∉ line.toList := by
    intro line hline
    rcases List.mem_append.1 hline with hline | hline
    · exact (hbefore line hline).newline
    rcases List.mem_cons.1 hline with rfl | hline
    · rw [String.toList_append, List.mem_append, not_or]
      exact ⟨by decide, hnewline⟩
    · exact (hafter line hline).newline
  rw [parse, around, Text.split_join (by simp) hlines, List.foldl_append, List.foldl_cons,
    seeds_foldl hafter, seeds_readLine hquote]

end EnvFile

namespace Options

variable {texts items before after : List String} {peers : List Peer} {text : String}

def Rejected (text : String) : Prop :=
  trim text ≠ "" ∧ Peer.ofHostPort? text Peer.defaultPort = none

theorem readSeeds_cons_blank (h : trim text = "") (texts : List String) :
    readSeeds (text :: texts) = readSeeds texts := by
  rw [readSeeds, readSeeds, List.map_cons, h, List.filter_cons_of_neg (by simp)]

theorem readSeeds_cons (h : trim text ≠ "") (texts : List String) :
    readSeeds (text :: texts) = (do
      let peer ← readSeed (trim text)
      let peers ← readSeeds texts
      return peer :: peers) := by
  rw [readSeeds, List.map_cons, List.filter_cons_of_pos (by simpa using h), List.mapM_cons]
  rfl

theorem readSeeds_cons_of_some (h : trim text ≠ "") {peer : Peer}
    (hpeer : Peer.ofHostPort? text Peer.defaultPort = some peer) (texts : List String) :
    readSeeds (text :: texts) = (peer :: ·) <$> readSeeds texts := by
  rw [readSeeds_cons h, readSeed, Peer.ofHostPort?_trim, hpeer]
  rfl

theorem readSeeds_cons_rejected (h : Rejected text) (texts : List String) :
    readSeeds (text :: texts) = .error ⟨trim text⟩ := by
  rw [readSeeds_cons h.1, readSeed, Peer.ofHostPort?_trim, h.2]
  rfl

theorem exists_rejected_iff (texts : List String) :
    (∃ e, readSeeds texts = .error e) ↔ ∃ text ∈ texts, Rejected text := by
  induction texts with
  | nil => simp [readSeeds, pure, Except.pure]
  | cons text texts ih =>
    simp only [List.mem_cons, exists_eq_or_imp, ← ih]
    by_cases hblank : trim text = ""
    · simp [readSeeds_cons_blank hblank, Rejected, hblank]
    · cases hpeer : Peer.ofHostPort? text Peer.defaultPort with
      | none => simp [readSeeds_cons_rejected ⟨hblank, hpeer⟩, Rejected, hblank, hpeer]
      | some peer =>
        rw [readSeeds_cons_of_some hblank hpeer]
        cases readSeeds texts <;> simp [Rejected, hpeer, Functor.map, Except.map]

theorem readSeeds_congr {others : List String} (h : texts.map trim = others.map trim) :
    readSeeds texts = readSeeds others := by
  rw [readSeeds, h, readSeeds]

theorem readSeeds_envFile (value : String) :
    readSeeds (EnvFile.readSeeds value) = readSeeds (split ',' value) := by
  have htrimmed : ∀ text ∈ EnvFile.readSeeds value, trim text = text := by
    intro text htext
    obtain ⟨piece, -, rfl⟩ := List.mem_map.1 (List.mem_filter.1 htext).1
    exact Text.trim_trim piece
  rw [readSeeds, List.map_congr_left htrimmed, List.map_id', EnvFile.readSeeds, List.filter_filter,
    readSeeds]
  simp only [Bool.and_self]

theorem readSeeds_split_join (h : ∀ item ∈ items, ',' ∉ item.toList) :
    readSeeds (split ',' (join ',' items)) = readSeeds items := by
  cases items with
  | nil => rfl
  | cons item items => rw [Text.split_join (List.cons_ne_nil item items) h]

theorem readSeeds_parse_around (hbefore : ∀ line ∈ before, EnvFile.Unrelated line)
    (hitems : ∀ item ∈ items, EnvFile.Item item)
    (hafter : ∀ line ∈ after, EnvFile.Unrelated line) :
    readSeeds (EnvFile.parse (EnvFile.around before items after)).seeds = readSeeds items := by
  rw [EnvFile.seeds_parse_around hbefore hitems hafter, readSeeds_envFile,
    readSeeds_congr (Text.map_trim_split_trim (by decide) _),
    readSeeds_split_join fun item hi => (hitems item hi).comma]

/-- How a list of seeds may be written: in its order, with blanks around the seeds and items of
nothing but blanks between them. -/
inductive Listed : List Peer → List String → Prop where
  | nil : Listed [] []
  | blank {gap : String} (hgap : EnvFile.Gap gap) {peers : List Peer} {items : List String}
    (hrest : Listed peers items) : Listed peers (gap :: items)
  | seed {left text right : String} (hleft : EnvFile.Gap left) (hright : EnvFile.Gap right)
    {peer : Peer} (htext : peer.Spelled text) {peers : List Peer} {items : List String}
    (hrest : Listed peers items) : Listed (peer :: peers) ((left ++ text ++ right) :: items)

namespace Listed

theorem readSeeds (h : Listed peers items) (hpeers : ∀ peer ∈ peers, peer.Listable) :
    readSeeds items = .ok peers := by
  induction h with
  | nil => rfl
  | blank hgap hrest ih =>
    rw [readSeeds_cons_blank (Text.trim_eq_empty hgap.blank), ih hpeers]
  | @seed left text right hleft hright peer htext peers items hrest ih =>
    obtain ⟨hpeer, hpeers⟩ := List.forall_mem_cons.1 hpeers
    have htrim : trim (left ++ text ++ right) = text := by
      rw [Text.trim_around hleft.blank hright.blank, hpeer.trim_spelled htext]
    have hread : Peer.ofHostPort? (left ++ text ++ right) Peer.defaultPort = some peer := by
      rw [← Peer.ofHostPort?_trim, htrim, hpeer.ofHostPort?_spelled htext]
    have hne : trim (left ++ text ++ right) ≠ "" := by
      rw [htrim]
      exact hpeer.ne_empty htext
    rw [readSeeds_cons_of_some hne hread, ih hpeers]
    rfl

theorem item (h : Listed peers items) (hpeers : ∀ peer ∈ peers, peer.Listable) :
    ∀ item ∈ items, EnvFile.Item item := by
  induction h with
  | nil => simp
  | blank hgap hrest ih => exact List.forall_mem_cons.2 ⟨hgap.item, ih hpeers⟩
  | seed hleft hright htext hrest ih =>
    obtain ⟨hpeer, hpeers⟩ := List.forall_mem_cons.1 hpeers
    have htext := (hleft.item.append (hpeer.item_spelled htext)).append hright.item
    exact List.forall_mem_cons.2 ⟨htext, ih hpeers⟩

end Listed

/-- Among lines that say nothing of seeds, a list of them is read back as it was written and in its
order, however many blanks and empty items are in it. An item that is there but is no seed, and
nothing else, makes the whole an error, whether it comes from a file or not. -/
theorem listed_seeds_read_back (hbefore : ∀ line ∈ before, EnvFile.Unrelated line)
    (hafter : ∀ line ∈ after, EnvFile.Unrelated line) :
    (∀ peers items, (∀ peer ∈ peers, peer.Listable) → Listed peers items →
      readSeeds (EnvFile.parse (EnvFile.around before items after)).seeds = .ok peers) ∧
    (∀ items, (∀ item ∈ items, EnvFile.Item item) →
      ((∃ e, readSeeds (EnvFile.parse (EnvFile.around before items after)).seeds = .error e) ↔
        ∃ item ∈ items, Rejected item)) ∧
    ∀ texts, (∃ e, readSeeds texts = .error e) ↔ ∃ text ∈ texts, Rejected text := by
  refine ⟨fun peers items hpeers hlisted => ?_, fun items hitems => ?_, exists_rejected_iff⟩
  · rw [readSeeds_parse_around hbefore (hlisted.item hpeers) hafter, hlisted.readSeeds hpeers]
  · rw [readSeeds_parse_around hbefore hitems hafter, exists_rejected_iff]

/-- An address with colons of its own, one without its port, an empty item, and carriage returns;
a comment and the other name a file may give a value to. -/
theorem listed_seeds_read_back_ipv6 :
    let before := ["# SEEDS=10.0.0.9\r", "\r", "IP=\"10.0.0.3\"\r", "no value\r"]
    let items := ["10.0.0.1", " db-1:9000", " ", "\t::1:8003\r"]
    let peers : List Peer := [⟨"10.0.0.1", 8003⟩, ⟨"db-1", 9000⟩, ⟨"::1", 8003⟩]
    let after := ["OTHER=x"]
    let wrong := ["10.0.0.1", "10.0.0.1:port"]
    (∀ line ∈ before, EnvFile.Unrelated line) ∧ (∀ line ∈ after, EnvFile.Unrelated line) ∧
      (∀ peer ∈ peers, peer.Listable) ∧ Listed peers items ∧
      readSeeds (EnvFile.parse (EnvFile.around before items after)).seeds = .ok peers ∧
      ∃ e, readSeeds (EnvFile.parse (EnvFile.around before wrong after)).seeds = .error e := by
  intro before items peers after wrong
  have hbefore : ∀ line ∈ before, EnvFile.Unrelated line := by
    simp only [before, List.forall_mem_cons]
    exact ⟨⟨by decide, by decide⟩, ⟨by decide, by decide⟩, ⟨by decide, by decide⟩,
      ⟨by decide, by decide⟩, by simp⟩
  have hafter : ∀ line ∈ after, EnvFile.Unrelated line := by
    simp only [after, List.forall_mem_cons]
    exact ⟨⟨by decide, by decide⟩, by simp⟩
  obtain ⟨hlisted, hrejected, -⟩ := listed_seeds_read_back hbefore hafter
  have hpeers : ∀ peer ∈ peers, peer.Listable := by
    simp only [peers, List.forall_mem_cons]
    refine ⟨⟨by decide, ⟨by decide, by decide, by decide⟩, ?_, ?_⟩,
      ⟨by decide, ⟨by decide, by decide, by decide⟩, ?_, ?_⟩,
      ⟨by decide, ⟨by decide, by decide, by decide⟩, ?_, ?_⟩, by simp⟩ <;>
      · rintro c ⟨⟩
        decide
  have hnone : EnvFile.Gap "" := ⟨by decide, by decide⟩
  have hspace : EnvFile.Gap " " := ⟨by decide, by decide⟩
  have htab : EnvFile.Gap "\t" := ⟨by decide, by decide⟩
  have hreturn : EnvFile.Gap "\r" := ⟨by decide, by decide⟩
  have hitems : items = ["" ++ "10.0.0.1" ++ "", " " ++ Peer.label ⟨"db-1", 9000⟩ ++ "", " ",
      "\t" ++ Peer.label ⟨"::1", 8003⟩ ++ "\r"] := by decide
  have hitems : Listed peers items := by
    rw [hitems]
    exact .seed hnone hnone (.address rfl (by decide)) (.seed hspace hnone .label
      (.blank hspace (.seed htab hreturn .label .nil)))
  refine ⟨hbefore, hafter, hpeers, hitems, hlisted peers items hpeers hitems,
    (hrejected wrong ?_).2 ?_⟩
  · simp only [wrong, List.forall_mem_cons]
    exact ⟨⟨by decide, by decide, by decide⟩, ⟨by decide, by decide, by decide⟩, by simp⟩
  · exact ⟨"10.0.0.1:port", by simp [wrong], by decide, by decide⟩

end Options
end CrawlCluster
