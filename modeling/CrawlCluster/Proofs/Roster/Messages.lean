import CrawlCluster.Proofs.Job.RoundTrip
import CrawlCluster.Proofs.Roster.RoundTrip

set_option autoImplicit false

namespace CrawlCluster.Roster

variable {d : Delimiters}

namespace Change

theorem fields_eq (change : Change) :
    change.fields = [change.tag, change.peer.address, change.peer.port.toNat.repr] := rfl

theorem ofFields_fields {change : Change} (h : change.peer.Plain d) :
    ofFields change.tag change.peer.address change.peer.port.toNat.repr = .ok change := by
  cases change with
  | added peer =>
    have hread : readPeer peer.address peer.port.toNat.repr = .ok peer :=
      JoinAnswer.readPeer_fields h
    simp only [ofFields, Change.peer, hread]
    rfl
  | removed peer =>
    have hread : readPeer peer.address peer.port.toNat.repr = .ok peer :=
      JoinAnswer.readPeer_fields h
    simp only [ofFields, Change.peer, hread]
    rfl

theorem readAll_fields {changes : List Change} (h : ∀ change ∈ changes, change.peer.Plain d) :
    readAll (changes.flatMap fields) = .ok changes := by
  induction changes with
  | nil => rfl
  | cons change changes ih =>
    obtain ⟨hchange, hchanges⟩ := List.forall_mem_cons.1 h
    have hrest := ih hchanges
    simp only [List.flatMap_cons, fields_eq, List.cons_append, List.nil_append, readAll,
      ofFields_fields hchange] at hrest ⊢
    rw [hrest]
    rfl

theorem length_flatMap_fields (changes : List Change) :
    (changes.flatMap fields).length = 3 * changes.length := by
  induction changes with
  | nil => rfl
  | cons change changes ih =>
    rw [List.flatMap_cons, List.length_append, ih, fields_eq, List.length_cons]
    simp only [List.length_cons, List.length_nil]
    omega

theorem field_not_mem (hd : d.Clear)
    (htags : ∀ tag ∈ [addedTag, removedTag], d.fieldChar ∉ tag.toList) {change : Change}
    (h : change.peer.Plain d) : ∀ f ∈ change.fields, d.fieldChar ∉ f.toList := by
  have htag : d.fieldChar ∉ change.tag.toList := by
    cases change with
    | added peer => exact htags addedTag (by simp)
    | removed peer => exact htags removedTag (by simp)
  exact List.forall_mem_cons.2 ⟨htag, Peer.field_not_mem hd.field_not_digit h.field⟩

end Change

namespace Heartbeat

theorem getLast?_joinFields_ne (hd : d.Clear) {number : String}
    (hnumber : d.entryChar ∉ number.toList) (changes : List Change) :
    (d.joinFields (number :: changes.flatMap Change.fields)).toList.getLast? ≠
      some d.entryChar := by
  induction changes generalizing number with
  | nil =>
    intro hlast
    rw [List.flatMap_nil, Delimiters.joinFields, Text.toList_join_singleton] at hlast
    exact hnumber (List.mem_of_getLast? hlast)
  | cons change changes ih =>
    have hport := Text.Numeral.not_mem_repr hd.entry_not_digit change.peer.port.toNat
    refine Text.getLast?_join_ne hd.entryChar_ne_fieldChar ?_
    refine Text.getLast?_join_ne hd.entryChar_ne_fieldChar ?_
    exact Text.getLast?_join_ne hd.entryChar_ne_fieldChar (ih hport)

theorem parse_encode (hd : d.Clear)
    (htags : ∀ tag ∈ [Change.addedTag, Change.removedTag], d.fieldChar ∉ tag.toList)
    {h : Heartbeat} (hplain : ∀ change ∈ h.changes, change.peer.Plain d) :
    parse d (h.encode d) = .ok h := by
  have hend : d.dropEntryEnd (h.encode d) = h.encode d :=
    Text.dropTrailing_eq_self_iff.2 (getLast?_joinFields_ne hd (hd.entry_not_mem _) h.changes)
  have hfields : d.fields (h.encode d) =
      h.crawlId.toInt.repr :: h.changes.flatMap Change.fields := by
    refine Delimiters.fields_joinFields (by simp) ?_
    refine List.forall_mem_cons.2 ⟨hd.field_not_mem _, fun f hf => ?_⟩
    obtain ⟨change, hchange, hf⟩ := List.mem_flatMap.1 hf
    exact Change.field_not_mem hd htags (hplain change hchange) f hf
  have hthirds : (h.changes.flatMap Change.fields).length % 3 = 0 := by
    rw [Change.length_flatMap_fields]
    omega
  simp only [parse, hend, hfields, Text.Numeral.trim_repr_int, Text.Numeral.int32?_repr, hthirds,
    if_true, Change.readAll_fields hplain]
  rfl

end Heartbeat

/-- The words that tell the forms of a message apart. -/
def tags : List String :=
  [Assignment.spiderTag, Assignment.crawlTag, Assignment.idleTag, Change.addedTag,
    Change.removedTag, JoinAnswer.acceptedTag]

/-- What is said in fields is read back as it was written, if no field separator cuts a number, a
tag, a text or an address: every assignment, every heartbeat, and every answer that takes a node
in. An answer that names another leader is read back unless that leader is at an address that
reads as the tag of the other form; then it is turned down. -/
theorem messages_read_back (hd : d.Clear) (htags : ∀ tag ∈ tags, d.fieldChar ∉ tag.toList) :
    (∀ assignment : Assignment, assignment.Plain d →
      Assignment.parse d (assignment.encode d) = .ok assignment) ∧
    (∀ h : Heartbeat, (∀ change ∈ h.changes, change.peer.Plain d) →
      Heartbeat.parse d (h.encode d) = .ok h) ∧
    (∀ you members, (∀ p ∈ you :: members, p.Plain d) →
      JoinAnswer.parse d (JoinAnswer.encode d (.accepted you members)) =
        .ok (.accepted you members)) ∧
    ∀ leader : Peer, leader.Plain d →
      (JoinAnswer.parse d (JoinAnswer.encode d (.redirect leader)) = .ok (.redirect leader) ↔
        leader.address ≠ JoinAnswer.acceptedTag) ∧
      (leader.address = JoinAnswer.acceptedTag →
        JoinAnswer.parse d (JoinAnswer.encode d (.redirect leader)) = .error .missingFields) := by
  have hassignment : ∀ tag ∈ [Assignment.spiderTag, Assignment.crawlTag, Assignment.idleTag],
      d.fieldChar ∉ tag.toList := fun tag htag => htags tag (List.mem_append_left _ htag)
  have hchange : ∀ tag ∈ [Change.addedTag, Change.removedTag], d.fieldChar ∉ tag.toList :=
    fun tag htag => htags tag (List.mem_of_mem_drop (i := 3) (List.mem_append_left _ htag))
  refine ⟨fun _ => Assignment.parse_encode hd hassignment,
    fun _ => Heartbeat.parse_encode hd hchange, fun you members => ?_, fun leader hleader => ?_⟩
  · exact JoinAnswer.parse_accepted hd.field_not_digit (htags _ (by simp [tags]))
  · rw [JoinAnswer.parse_redirect hd.field_not_digit hleader]
    by_cases haddress : leader.address = JoinAnswer.acceptedTag
    · simp [haddress]
    · simp [haddress]

/-- Between a space and a tab, with numbers at the ends of their ranges, members whose addresses
close entries, and leaders at the tag itself and right beside it. -/
theorem messages_read_back_extreme :
    let d : Delimiters := { field := 32, entry := 9 }
    let ended : Peer := ⟨"host\t", 65535⟩
    let job : Assignment := .spider "" "ok" Int64.minValue Int64.maxValue
    let h : Heartbeat := ⟨Int32.minValue, [.added ⟨"A", 0⟩, .removed ended, .added ended]⟩
    (d.Clear ∧ (∀ tag ∈ tags, d.fieldChar ∉ tag.toList) ∧ job.Plain d ∧ ended.Plain d) ∧
      Assignment.parse d (job.encode d) = .ok job ∧ Heartbeat.parse d (h.encode d) = .ok h ∧
      JoinAnswer.parse d (JoinAnswer.encode d (.accepted ⟨"ok", 1⟩ [ended])) =
        .ok (.accepted ⟨"ok", 1⟩ [ended]) ∧
      JoinAnswer.parse d (JoinAnswer.encode d (.redirect ⟨"ok", 1⟩)) = .error .missingFields ∧
      JoinAnswer.parse d (JoinAnswer.encode d (.redirect ⟨"ok\t", 1⟩)) =
        .ok (.redirect ⟨"ok\t", 1⟩) := by
  intro d ended job h
  have hd : d.Clear := by constructor <;> decide
  have htags : ∀ tag ∈ tags, d.fieldChar ∉ tag.toList := by decide
  have hjob : job.Plain d := by constructor <;> decide
  have hended : ended.Plain d := by constructor <;> decide
  have hword : (⟨"ok", 1⟩ : Peer).Plain d := by constructor <;> decide
  have hbeside : (⟨"ok\t", 1⟩ : Peer).Plain d := by constructor <;> decide
  have hchanges : ∀ change ∈ h.changes, change.peer.Plain d := by
    have hfirst : (⟨"A", 0⟩ : Peer).Plain d := by constructor <;> decide
    simp only [h, List.mem_cons, List.not_mem_nil, or_false, forall_eq_or_imp, forall_eq]
    exact ⟨hfirst, hended, hended⟩
  obtain ⟨hassigned, hbeat, haccepted, hredirect⟩ := messages_read_back hd htags
  refine ⟨⟨hd, htags, hjob, hended⟩, hassigned job hjob, hbeat h hchanges,
    haccepted _ _ ?_, (hredirect _ hword).2 rfl, (hredirect _ hbeside).1.2 (by decide)⟩
  exact List.forall_mem_cons.2 ⟨hword, List.forall_mem_singleton.2 hended⟩

end CrawlCluster.Roster
