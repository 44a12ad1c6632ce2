import CrawlCluster.Job.Payload
import CrawlCluster.Proofs.Text.Fields

set_option autoImplicit false

namespace CrawlCluster

open Text.Numeral

/-- Separators that no number holds, and two of them. -/
structure Delimiters.Clear (d : Delimiters) : Prop where
  distinct : d.field ≠ d.entry
  field_not_digit : d.fieldChar.isDigit = false
  entry_not_digit : d.entryChar.isDigit = false
  field_not_minus : d.fieldChar ≠ '-'
  entry_not_minus : d.entryChar ≠ '-'

namespace Delimiters

variable {d : Delimiters}

def separators (d : Delimiters) : List Char := [d.fieldChar, d.entryChar]

theorem mem_separators {sep : Char} :
    sep ∈ d.separators ↔ sep = d.fieldChar ∨ sep = d.entryChar := by
  simp [separators]

theorem clear_default : ({} : Delimiters).Clear := by
  constructor <;> decide

theorem Clear.entryChar_ne_fieldChar (h : d.Clear) : d.entryChar ≠ d.fieldChar :=
  Delimiters.entryChar_ne_fieldChar h.distinct

theorem Clear.field_not_mem (h : d.Clear) (i : Int) : d.fieldChar ∉ i.repr.toList :=
  not_mem_repr_int h.field_not_digit h.field_not_minus i

theorem Clear.entry_not_mem (h : d.Clear) (i : Int) : d.entryChar ∉ i.repr.toList :=
  not_mem_repr_int h.entry_not_digit h.entry_not_minus i

theorem Clear.not_mem_numbered (h : d.Clear) {sep : Char} (hsep : sep ∈ d.separators)
    {text : String} (htext : sep ∉ text.toList) (n : Nat) : sep ∉ (text ++ n.repr).toList := by
  have hdigit : sep.isDigit = false := by
    obtain rfl | rfl := mem_separators.1 hsep
    · exact h.field_not_digit
    · exact h.entry_not_digit
  rw [String.toList_append, List.mem_append, not_or]
  exact ⟨htext, not_mem_repr hdigit n⟩

theorem Clear.entry_not_mem_joinFields (h : d.Clear) {fields : List String}
    (hfields : ∀ f ∈ fields, d.entryChar ∉ f.toList) : d.entryChar ∉ (d.joinFields fields).toList :=
  Text.not_mem_join h.entryChar_ne_fieldChar hfields

end Delimiters

variable {d : Delimiters}

section Readers

variable {ε α β : Type} {read : α → Except ε β}

theorem bind_eq_ok {x : Except ε α} {f : α → Except ε β} {b : β} (h : (x >>= f) = .ok b) :
    ∃ a, x = .ok a ∧ f a = .ok b := by
  cases x with
  | ok a => exact ⟨a, rfl, h⟩
  | error e => cases h

theorem mapM_map_eq_ok {write : β → α} {items : List β}
    (h : ∀ item ∈ items, read (write item) = .ok item) :
    (items.map write).mapM read = .ok items := by
  induction items with
  | nil => rfl
  | cons item items ih =>
    obtain ⟨hitem, hitems⟩ := List.forall_mem_cons.1 h
    rw [List.map_cons, List.mapM_cons, hitem, ih hitems]
    rfl

theorem exists_of_mapM_eq_ok {texts : List α} {items : List β} (h : texts.mapM read = .ok items) :
    ∀ item ∈ items, ∃ text ∈ texts, read text = .ok item := by
  induction texts generalizing items with
  | nil =>
    cases h
    exact nofun
  | cons text texts ih =>
    rw [List.mapM_cons] at h
    obtain ⟨first, hfirst, h⟩ := bind_eq_ok h
    obtain ⟨rest, hrest, h⟩ := bind_eq_ok h
    cases h
    have hlater : ∀ item ∈ rest, ∃ other ∈ text :: texts, read other = .ok item := by
      intro item hitem
      obtain ⟨other, hother, hread⟩ := ih hrest item hitem
      exact ⟨other, List.mem_cons_of_mem _ hother, hread⟩
    exact List.forall_mem_cons.2 ⟨⟨text, List.mem_cons_self, hfirst⟩, hlater⟩

end Readers

namespace NewJob

structure Plain (d : Delimiters) (job : NewJob) : Prop where
  nonempty : job.url ≠ ""
  field : d.fieldChar ∉ job.url.toList
  entry : d.entryChar ∉ job.url.toList

theorem Plain.not_mem {job : NewJob} (h : job.Plain d) {sep : Char} (hsep : sep ∈ d.separators) :
    sep ∉ job.url.toList := by
  obtain rfl | hsep := List.mem_cons.1 hsep
  · exact h.field
  · exact List.mem_singleton.1 hsep ▸ h.entry

theorem parse_encode (hd : d.Clear) {job : NewJob} (h : job.Plain d) :
    parse d (job.encode d) = .ok job := by
  obtain ⟨url, priority, timeout⟩ := job
  have hurl : url.isEmpty = false := by simpa using h.nonempty
  cases timeout with
  | none =>
    have hfields : d.fields (encode d ⟨url, priority, none⟩) = [url, priority.toInt.repr] := by
      refine Delimiters.fields_joinFields (by simp) ?_
      simp only [Option.map_none, Option.toList_none, List.append_nil, List.mem_cons,
        List.not_mem_nil, or_false, forall_eq_or_imp, forall_eq]
      exact ⟨h.field, hd.field_not_mem _⟩
    simp only [parse, hfields, ofFields, hurl, trim_repr_int, int64?_repr]
    rfl
  | some timeout =>
    have hfields : d.fields (encode d ⟨url, priority, some timeout⟩) =
        [url, priority.toInt.repr, timeout.toInt.repr] := by
      refine Delimiters.fields_joinFields (by simp) ?_
      simp only [Option.map_some, Option.toList_some, List.cons_append, List.nil_append,
        List.mem_cons, List.not_mem_nil, or_false, forall_eq_or_imp, forall_eq]
      exact ⟨h.field, hd.field_not_mem _, hd.field_not_mem _⟩
    simp only [parse, hfields, ofFields, hurl, trim_repr_int, int64?_repr]
    rfl

theorem entry_not_mem_encode (hd : d.Clear) {job : NewJob} (h : job.Plain d) :
    d.entryChar ∉ (job.encode d).toList := by
  refine hd.entry_not_mem_joinFields ?_
  intro f hf
  simp only [List.cons_append, List.nil_append, List.mem_cons, Option.mem_toList,
    Option.map_eq_some_iff] at hf
  obtain rfl | rfl | ⟨timeout, -, rfl⟩ := hf
  · exact h.entry
  · exact hd.entry_not_mem _
  · exact hd.entry_not_mem _

theorem encode_ne_empty (d : Delimiters) (job : NewJob) : job.encode d ≠ "" :=
  Text.join_ne_empty d.fieldChar job.url job.priority.toInt.repr _

theorem mapM_parse_encode (hd : d.Clear) {jobs : List NewJob} (h : ∀ job ∈ jobs, job.Plain d) :
    parseBatch d (jobs.map (encode d)) = .ok jobs :=
  mapM_map_eq_ok fun job hjob => parse_encode hd (h job hjob)

theorem parseBatch_encodeBatch (hd : d.Clear) {jobs : List NewJob}
    (h : ∀ job ∈ jobs, job.Plain d) :
    parseBatch d (d.entries (encodeBatch d jobs)) = .ok jobs := by
  rw [encodeBatch, Delimiters.entries_closeEntries, mapM_parse_encode hd h]
  · simpa using fun job hjob => entry_not_mem_encode hd (h job hjob)
  · simpa using fun job _ => encode_ne_empty d job

theorem url_of_ofFields {url priority : String} {timeout : Option String} {job : NewJob}
    (h : ofFields url priority timeout = .ok job) : job.url = url ∧ url ≠ "" := by
  unfold ofFields at h
  cases hurl : url.isEmpty with
  | true =>
    rw [hurl, if_pos rfl] at h
    cases h
  | false =>
    rw [hurl, if_neg Bool.false_ne_true] at h
    have hne : url ≠ "" := by simpa using hurl
    obtain ⟨value, -, h⟩ := bind_eq_ok h
    cases timeout with
    | none =>
      cases h
      exact ⟨rfl, hne⟩
    | some text =>
      obtain ⟨seconds, -, h⟩ := bind_eq_ok h
      cases h
      exact ⟨rfl, hne⟩

theorem plain_of_parse {line : String} {job : NewJob} (h : parse d line = .ok job)
    (hline : d.entryChar ∉ line.toList) : job.Plain d := by
  have hplain : ∀ url ∈ d.fields line, job.url = url ∧ url ≠ "" → job.Plain d := by
    rintro _ hfield ⟨rfl, hne⟩
    exact ⟨hne, Text.not_mem_of_mem_split hfield,
      fun hentry => hline (Text.mem_of_mem_split hfield hentry)⟩
  unfold parse at h
  split at h
  · next url priority hfields =>
    exact hplain url (hfields ▸ List.mem_cons_self) (url_of_ofFields h)
  · next url priority timeout hfields =>
    exact hplain url (hfields ▸ List.mem_cons_self) (url_of_ofFields h)
  · cases h

theorem plain_of_parseBatch {lines : List String} {jobs : List NewJob}
    (h : parseBatch d lines = .ok jobs) (hlines : ∀ line ∈ lines, d.entryChar ∉ line.toList) :
    ∀ job ∈ jobs, job.Plain d := by
  intro job hjob
  obtain ⟨line, hline, hread⟩ := exists_of_mapM_eq_ok h job hjob
  exact plain_of_parse hread (hlines line hline)

end NewJob

namespace Lease

theorem getLast?_encode_ne (hd : d.Clear) (lease : Lease) :
    (lease.encode d).toList.getLast? ≠ some d.entryChar := by
  refine Text.getLast?_join_ne hd.entryChar_ne_fieldChar fun hlast => ?_
  rw [Text.toList_join_singleton] at hlast
  exact hd.entry_not_mem _ (List.mem_of_getLast? hlast)

theorem parse_encode (hd : d.Clear) {lease : Lease} (h : d.fieldChar ∉ lease.jobId.toList) :
    parse d (lease.encode d) = .ok lease := by
  have hend : d.dropEntryEnd (lease.encode d) = lease.encode d :=
    Text.dropTrailing_eq_self_iff.2 (getLast?_encode_ne hd lease)
  have hfields : d.fields (lease.encode d) = [lease.jobId, lease.leaseTime.toInt.repr] := by
    refine Delimiters.fields_joinFields (by simp) ?_
    simp only [List.mem_cons, List.not_mem_nil, or_false, forall_eq_or_imp, forall_eq]
    exact ⟨h, hd.field_not_mem _⟩
  simp only [parse, hend, hfields, ofFields, trim_repr_int, int64?_repr]
  rfl

end Lease

namespace Report

/-- What the format can carry: an outcome that goes by its number, and a detail that does not end
in what closes an entry. -/
structure Plain (d : Delimiters) (report : Report) : Prop where
  jobId : d.fieldChar ∉ report.lease.jobId.toList
  outcome : Outcome.ofId report.outcome.id = report.outcome
  detail : report.detail.toList.getLast? ≠ some d.entryChar

theorem dropEntryEnd_encode (hd : d.Clear) (report : Report) :
    d.dropEntryEnd (report.encode d) =
      encode d { report with detail := d.dropEntryEnd report.detail } := by
  have hlast : Text.join d.fieldChar [report.detail] = report.detail :=
    String.toList_inj.1 (Text.toList_join_singleton ..)
  apply String.toList_inj.1
  rw [Delimiters.dropEntryEnd, encode, encode, Delimiters.joinFields,
    Text.toList_dropTrailing_join hd.entryChar_ne_fieldChar,
    Text.toList_dropTrailing_join hd.entryChar_ne_fieldChar, hlast, Delimiters.joinFields,
    Text.toList_join_cons, Text.toList_join_cons, Text.toList_join_singleton]
  rfl

theorem splitUpTo_encode (hd : d.Clear) {report : Report}
    (h : d.fieldChar ∉ report.lease.jobId.toList) :
    Text.splitUpTo d.fieldChar 4 (d.dropEntryEnd (report.encode d)) =
      [report.lease.jobId, report.lease.leaseTime.toInt.repr, report.outcome.id.toInt.repr,
        d.dropEntryEnd report.detail] := by
  rw [dropEntryEnd_encode hd, encode, Lease.encode, Delimiters.joinFields, Delimiters.joinFields,
    Text.join_join, Text.splitUpTo_join h, Text.splitUpTo_join (hd.field_not_mem _),
    Text.splitUpTo_join (hd.field_not_mem _), Text.splitUpTo_one]

theorem parse_encode_dropped (hd : d.Clear) {report : Report}
    (h : d.fieldChar ∉ report.lease.jobId.toList) :
    parse d (report.encode d) =
      .ok ⟨report.lease, .ofId report.outcome.id, d.dropEntryEnd report.detail⟩ := by
  simp only [parse, splitUpTo_encode hd h, Lease.ofFields, trim_repr_int, int64?_repr, int32?_repr]
  rfl

theorem parse_encode (hd : d.Clear) {report : Report} (h : report.Plain d) :
    parse d (report.encode d) = .ok report := by
  rw [parse_encode_dropped hd h.jobId, h.outcome, Delimiters.dropEntryEnd,
    Text.dropTrailing_eq_self_iff.2 h.detail]

end Report

namespace Harvest

structure Plain (d : Delimiters) (harvest : Harvest) : Prop where
  languages : ∀ named ∈ harvest.languages,
    d.fieldChar ∉ named.1.toList ∧ d.entryChar ∉ named.1.toList
  jobs : ∀ job ∈ harvest.jobs, job.Plain d

def languageFields (languages : List (String × UInt64)) : List String :=
  languages.flatMap fun (name, bytes) => [name, bytes.toNat.repr]

theorem pairLanguages_languageFields (languages : List (String × UInt64)) :
    pairLanguages (languageFields languages) = .ok languages := by
  induction languages with
  | nil => rfl
  | cons named languages ih =>
    simp only [languageFields, List.flatMap_cons, List.cons_append, List.nil_append,
      pairLanguages, trim_repr, uint64?_repr] at ih ⊢
    rw [ih]
    rfl

theorem parseLanguages_encode (hd : d.Clear) {languages : List (String × UInt64)}
    (h : ∀ named ∈ languages, d.fieldChar ∉ named.1.toList) :
    parseLanguages d (d.joinFields (languageFields languages)) = .ok languages := by
  cases languages with
  | nil => rfl
  | cons named languages =>
    have hfields : d.fields (d.joinFields (languageFields (named :: languages))) =
        languageFields (named :: languages) := by
      refine Delimiters.fields_joinFields (by simp [languageFields]) ?_
      intro f hf
      simp only [languageFields, List.mem_flatMap, List.mem_cons, List.not_mem_nil,
        or_false] at hf
      obtain ⟨named', hmem, rfl | rfl⟩ := hf
      · exact h named' (List.mem_cons.2 hmem)
      · exact not_mem_repr hd.field_not_digit _
    have hline : (d.joinFields (languageFields (named :: languages))).isEmpty = false := by
      have hne : d.joinFields (languageFields (named :: languages)) ≠ "" :=
        Text.join_ne_empty d.fieldChar named.1 named.2.toNat.repr _
      simpa using hne
    rw [parseLanguages, hline, if_neg Bool.false_ne_true, hfields, pairLanguages_languageFields]

theorem encode_eq (d : Delimiters) (harvest : Harvest) :
    harvest.encode d = d.closeEntries
      ([d.joinFields [harvest.directive.crawlId.toInt.repr, harvest.directive.token.toInt.repr],
          d.joinFields (languageFields harvest.languages)] ++
        harvest.jobs.map (NewJob.encode d)) := by
  rw [Delimiters.closeEntries_append]
  rfl

theorem parseDirective_encode (hd : d.Clear) (directive : Directive) :
    parseDirective d (d.joinFields [directive.crawlId.toInt.repr, directive.token.toInt.repr]) =
      .ok directive := by
  have hfields : d.fields (d.joinFields
      [directive.crawlId.toInt.repr, directive.token.toInt.repr]) =
        [directive.crawlId.toInt.repr, directive.token.toInt.repr] := by
    refine Delimiters.fields_joinFields (by simp) ?_
    simp only [List.mem_cons, List.not_mem_nil, or_false, forall_eq_or_imp, forall_eq]
    exact ⟨hd.field_not_mem _, hd.field_not_mem _⟩
  simp only [parseDirective, hfields, trim_repr_int, int32?_repr, int64?_repr]
  rfl

theorem entry_not_mem_lines (hd : d.Clear) {harvest : Harvest} (h : harvest.Plain d) :
    ∀ line ∈ [d.joinFields [harvest.directive.crawlId.toInt.repr,
          harvest.directive.token.toInt.repr], d.joinFields (languageFields harvest.languages)] ++
        harvest.jobs.map (NewJob.encode d), d.entryChar ∉ line.toList := by
  intro line hline
  simp only [List.cons_append, List.nil_append, List.mem_cons, List.mem_map] at hline
  obtain rfl | rfl | ⟨job, hjob, rfl⟩ := hline
  · refine hd.entry_not_mem_joinFields ?_
    simp only [List.mem_cons, List.not_mem_nil, or_false, forall_eq_or_imp, forall_eq]
    exact ⟨hd.entry_not_mem _, hd.entry_not_mem _⟩
  · refine hd.entry_not_mem_joinFields fun f hf => ?_
    simp only [languageFields, List.mem_flatMap, List.mem_cons, List.not_mem_nil, or_false] at hf
    obtain ⟨named, hnamed, rfl | rfl⟩ := hf
    · exact (h.languages named hnamed).2
    · exact not_mem_repr hd.entry_not_digit _
  · exact NewJob.entry_not_mem_encode hd (h.jobs job hjob)

theorem parse_encode (hd : d.Clear) {harvest : Harvest} (h : harvest.Plain d) :
    parse d (harvest.encode d) = .ok harvest := by
  have hlines : ((harvest.jobs.map (NewJob.encode d) ++ [""]).filter fun line => !line.isEmpty) =
      harvest.jobs.map (NewJob.encode d) := by
    rw [List.filter_append]
    simpa using fun job _ => NewJob.encode_ne_empty d job
  rw [parse, encode_eq, Delimiters.split_closeEntries (entry_not_mem_lines hd h)]
  simp only [List.cons_append, List.nil_append, List.headD_cons, List.drop_succ_cons,
    List.drop_zero, hlines, parseDirective_encode hd,
    parseLanguages_encode hd fun named hnamed => (h.languages named hnamed).1,
    NewJob.mapM_parse_encode hd h.jobs]
  rfl

theorem plain_of_parse {body : String} {harvest : Harvest} (h : parse d body = .ok harvest) :
    ∀ job ∈ harvest.jobs, job.Plain d := by
  unfold parse at h
  split at h
  · cases h
  · next first lines hlines =>
    obtain ⟨directive, -, h⟩ := bind_eq_ok h
    obtain ⟨languages, -, h⟩ := bind_eq_ok h
    obtain ⟨jobs, hjobs, h⟩ := bind_eq_ok h
    cases h
    refine NewJob.plain_of_parseBatch hjobs fun line hline => ?_
    have hpiece : line ∈ first :: lines :=
      List.mem_cons_of_mem _ (List.mem_of_mem_drop (List.mem_filter.1 hline).1)
    exact Text.not_mem_of_mem_split (hlines ▸ hpiece)

end Harvest

/-- What is uploaded is read back as it was written, between any two separators that no number
holds: a batch of jobs from its entries, where empty ones are dropped, and a harvest from its
lines, where the one that names the languages may be empty. -/
theorem uploads_read_back (hd : d.Clear) :
    (∀ jobs : List NewJob, (∀ job ∈ jobs, job.Plain d) →
      NewJob.parseBatch d (d.entries (NewJob.encodeBatch d jobs)) = .ok jobs) ∧
    ∀ harvest : Harvest, harvest.Plain d → Harvest.parse d (harvest.encode d) = .ok harvest :=
  ⟨fun _ hjobs => NewJob.parseBatch_encodeBatch hd hjobs,
    fun _ hharvest => Harvest.parse_encode hd hharvest⟩

def blankDelimiters : Delimiters := { field := 0xA0, entry := 0x85 }

def extremeJobs : List NewJob :=
  [⟨"https://x", Int64.minValue, none⟩, ⟨"https://y ", Int64.maxValue, some Int64.minValue⟩]

def extremeHarvest : Harvest where
  directive := ⟨Int32.minValue, Int64.maxValue⟩
  languages := [("", 0), ("C", 18446744073709551615)]
  jobs := extremeJobs

theorem uploads_read_back_extreme :
    let d := blankDelimiters
    (d.Clear ∧ (∀ job ∈ extremeJobs, job.Plain d) ∧ extremeHarvest.Plain d) ∧
      NewJob.parseBatch d (d.entries (NewJob.encodeBatch d extremeJobs)) = .ok extremeJobs ∧
      Harvest.parse d (extremeHarvest.encode d) = .ok extremeHarvest ∧
      Harvest.parse d (Harvest.encode d { directive := ⟨0, 0⟩ }) =
        .ok { directive := ⟨0, 0⟩ } := by
  intro d
  have hclear : d.Clear := by constructor <;> decide
  have hjobs : ∀ job ∈ extremeJobs, job.Plain d := by
    simp only [extremeJobs, List.mem_cons, List.not_mem_nil, or_false, forall_eq_or_imp, forall_eq]
    constructor <;> constructor <;> decide
  have hharvest : extremeHarvest.Plain d := ⟨by decide, hjobs⟩
  obtain ⟨hbatch, hread⟩ := uploads_read_back hclear
  exact ⟨⟨hclear, hjobs, hharvest⟩, hbatch _ hjobs, hread _ hharvest, hread _ ⟨nofun, nofun⟩⟩

namespace Assignment

def Plain (d : Delimiters) : Assignment → Prop
  | .spider jobId url _ _ => d.fieldChar ∉ jobId.toList ∧ d.fieldChar ∉ url.toList
  | .crawl _ | .idle _ => True

theorem parse_encode (hd : d.Clear)
    (htags : ∀ tag ∈ [spiderTag, crawlTag, idleTag], d.fieldChar ∉ tag.toList)
    {assignment : Assignment} (h : assignment.Plain d) :
    parse d (assignment.encode d) = .ok assignment := by
  simp only [List.mem_cons, List.not_mem_nil, or_false, forall_eq_or_imp, forall_eq] at htags
  have hnumber := fun i => hd.field_not_mem i
  cases assignment with
  | spider jobId url leaseTime timeout =>
    have hfields : d.fields (encode d (.spider jobId url leaseTime timeout)) =
        [spiderTag, jobId, url, leaseTime.toInt.repr, timeout.toInt.repr] := by
      refine Delimiters.fields_joinFields (by simp) ?_
      simp only [List.mem_cons, List.not_mem_nil, or_false, forall_eq_or_imp, forall_eq]
      exact ⟨htags.1, h.1, h.2, hnumber _, hnumber _⟩
    simp only [parse, hfields, ofFields?, int64?_repr, if_true]
    rfl
  | crawl directive =>
    have hfields : d.fields (encode d (.crawl directive)) =
        [crawlTag, directive.crawlId.toInt.repr, directive.token.toInt.repr] := by
      refine Delimiters.fields_joinFields (by simp) ?_
      simp only [List.mem_cons, List.not_mem_nil, or_false, forall_eq_or_imp, forall_eq]
      exact ⟨htags.2.1, hnumber _, hnumber _⟩
    simp only [parse, hfields, ofFields?, int64?_repr, int32?_repr, if_true]
    rfl
  | idle directive =>
    have hfields : d.fields (encode d (.idle directive)) =
        [idleTag, directive.crawlId.toInt.repr, directive.token.toInt.repr] := by
      refine Delimiters.fields_joinFields (by simp) ?_
      simp only [List.mem_cons, List.not_mem_nil, or_false, forall_eq_or_imp, forall_eq]
      exact ⟨htags.2.2, hnumber _, hnumber _⟩
    have htag : idleTag ≠ crawlTag := by decide
    simp only [parse, hfields, ofFields?, int64?_repr, int32?_repr, if_neg htag, if_true]
    rfl

end Assignment
end CrawlCluster
