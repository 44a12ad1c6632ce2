import CrawlCluster.Proofs.Job.RoundTrip

set_option autoImplicit false

namespace CrawlCluster

variable {d : Delimiters}

namespace Lease

theorem jobId_of_ofFields {jobId leaseTime : String} {lease : Lease}
    (h : ofFields jobId leaseTime = .ok lease) : lease.jobId = jobId := by
  unfold ofFields at h
  cases hread : PayloadError.expect .jobTime (Text.Numeral.int64? (Text.trim leaseTime)) with
  | error error =>
    rw [hread] at h
    cases h
  | ok time =>
    rw [hread] at h
    cases h
    rfl

theorem field_not_mem_of_parse {body : String} {lease : Lease} (h : parse d body = .ok lease) :
    d.fieldChar ∉ lease.jobId.toList := by
  unfold parse at h
  split at h
  · next jobId leaseTime hfields =>
    rw [jobId_of_ofFields h]
    exact Text.not_mem_of_mem_split (hfields ▸ List.mem_cons_self)
  · cases h

theorem parse_encode_iff (hd : d.Clear) (lease : Lease) :
    parse d (lease.encode d) = .ok lease ↔ d.fieldChar ∉ lease.jobId.toList :=
  ⟨field_not_mem_of_parse, parse_encode hd⟩

end Lease

namespace Report

theorem field_not_mem_of_parse {body : String} {report : Report} (h : parse d body = .ok report) :
    d.fieldChar ∉ report.lease.jobId.toList := by
  unfold parse at h
  split at h
  · next jobId leaseTime reason detail hpieces =>
    obtain ⟨lease, hlease, h⟩ := bind_eq_ok h
    obtain ⟨id, -, h⟩ := bind_eq_ok h
    cases h
    rw [Lease.jobId_of_ofFields hlease]
    exact Text.not_mem_of_splitUpTo hpieces
  · cases h

theorem parse_encode_iff (hd : d.Clear) (lease : Lease) (id : Int32) (detail : String) :
    parse d (encode d ⟨lease, .ofId id, detail⟩) = .ok ⟨lease, .ofId id, detail⟩ ↔
      d.fieldChar ∉ lease.jobId.toList ∧ detail.toList.getLast? ≠ some d.entryChar := by
  constructor
  · intro h
    have hid : d.fieldChar ∉ lease.jobId.toList := field_not_mem_of_parse h
    rw [parse_encode_dropped hd hid] at h
    have hdetail : d.dropEntryEnd detail = detail := congrArg Report.detail (Except.ok.inj h)
    exact ⟨hid, Text.dropTrailing_eq_self_iff.1 hdetail⟩
  · rintro ⟨hid, hdetail⟩
    exact parse_encode hd ⟨hid, by rw [Outcome.id_ofId], hdetail⟩

end Report

/-- Between any two separators that no number holds, a lease is read back as it was written just if
its id holds no field separator, and a report, for any of the outcomes there are numbers for, just
if besides its detail does not end in an entry separator, whatever else the detail holds. -/
theorem reports_read_back_iff (hd : d.Clear) :
    (∀ lease : Lease,
      Lease.parse d (lease.encode d) = .ok lease ↔ d.fieldChar ∉ lease.jobId.toList) ∧
    ∀ (lease : Lease) (id : Int32) (detail : String),
      let report : Report := ⟨lease, .ofId id, detail⟩
      Report.parse d (report.encode d) = .ok report ↔
        d.fieldChar ∉ lease.jobId.toList ∧ detail.toList.getLast? ≠ some d.entryChar :=
  ⟨Lease.parse_encode_iff hd, Report.parse_encode_iff hd⟩

/-- Both separators within a detail do no harm, one of them at its end or in an id does. -/
theorem reports_read_back_iff_parseError :
    let d : Delimiters := {}
    let lease : Lease := ⟨"job-1", 1000⟩
    let kept : Report := ⟨lease, .ofId 11, "\nparse error? at line 3?"⟩
    let cut : Report := { kept with detail := "parse error? at line 3\n" }
    let split : Lease := { lease with jobId := "job?1" }
    d.Clear ∧ Report.parse d (kept.encode d) = .ok kept ∧ Report.parse d (cut.encode d) ≠ .ok cut ∧
      Lease.parse d (lease.encode d) = .ok lease ∧ Lease.parse d (split.encode d) ≠ .ok split := by
  intro d lease kept cut split
  obtain ⟨hlease, hreport⟩ := reports_read_back_iff Delimiters.clear_default
  refine ⟨Delimiters.clear_default, (hreport lease 11 kept.detail).2 ⟨by decide, by decide⟩, ?_,
    (hlease lease).2 (by decide), ?_⟩
  · intro h
    exact ((hreport lease 11 cut.detail).1 h).2 (by decide)
  · intro h
    exact (hlease split).1 h (by decide)

end CrawlCluster
