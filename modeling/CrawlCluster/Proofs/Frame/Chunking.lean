import CrawlCluster.Frame.Buffered
import CrawlCluster.Proofs.Frame.Reading

set_option autoImplicit false

namespace CrawlCluster.Frame

theorem cutAt_append_of_some {stop : UInt8} {bytes line rest : Bytes}
    (h : cutAt stop bytes = some (line, rest)) (more : Bytes) :
    cutAt stop (bytes ++ more) = some (line, rest ++ more) := by
  obtain ⟨rfl, hline⟩ := cutAt_eq_some_iff.1 h
  rw [List.append_assoc, List.cons_append, cutAt_append hline]

theorem cutAt_append_of_none {stop : UInt8} {bytes : Bytes} (h : cutAt stop bytes = none)
    (more : Bytes) :
    cutAt stop (bytes ++ more) =
      (cutAt stop more).map fun (line, rest) => (bytes ++ line, rest) := by
  have hbytes : stop ∉ bytes := cutAt_eq_none_iff.1 h
  cases hcut : cutAt stop more with
  | none =>
    have hmore : stop ∉ more := cutAt_eq_none_iff.1 hcut
    exact cutAt_eq_none_iff.2 (by simp [hbytes, hmore])
  | some found =>
    obtain ⟨line, rest⟩ := found
    obtain ⟨rfl, hline⟩ := cutAt_eq_some_iff.1 hcut
    rw [← List.append_assoc, cutAt_append (by simp [hbytes, hline])]
    rfl

namespace Partial

/-- What is kept of a line of which these bytes have come. -/
def of (line : Bytes) : Partial :=
  if maxHeaderLength < line.length then { tooLong := true } else { line }

@[simp] theorem of_nil : of [] = {} := rfl

/-- A line that was given up would be too long with more of it as well. -/
@[simp] theorem extend_of (line part : Bytes) : (of line).extend part = of (line ++ part) := by
  unfold of
  split
  · next hlong =>
    have hlonger : maxHeaderLength < (line ++ part).length := by
      rw [List.length_append]
      omega
    rw [if_pos hlonger]
    rfl
  · rfl

theorem finish_of (line : Bytes) : (of line).finish = decodeHeader line := by
  unfold of
  split
  · next hlong =>
    rw [decodeHeader, if_pos hlong]
    rfl
  · rfl

end Partial

/-- However the line is cut up, it is found whole, and the chunks behind it hold the rest. -/
theorem collectHeader_of (d : Delimiters) (line : Bytes) (chunks : List Bytes) :
    (collectHeader d (.of line) chunks).map (Prod.map id List.flatten) =
      (cutAt d.entry chunks.flatten).map fun (part, rest) =>
        (decodeHeader (line ++ part), rest) := by
  induction chunks generalizing line with
  | nil => rfl
  | cons chunk chunks ih =>
    rw [collectHeader, List.flatten_cons]
    cases hcut : cutAt d.entry chunk with
    | some found =>
      obtain ⟨part, rest⟩ := found
      rw [cutAt_append_of_some hcut]
      simp [Partial.finish_of]
    | none =>
      simp only [Partial.extend_of, ih, cutAt_append_of_none hcut, Option.map_map,
        Function.comp_def, List.append_assoc]

theorem collectPayload_eq (n : Nat) (chunks : List Bytes) :
    (collectPayload n chunks).map (Prod.map id List.flatten) =
      if n ≤ chunks.flatten.length then some (chunks.flatten.take n, chunks.flatten.drop n)
      else none := by
  induction chunks generalizing n with
  | nil =>
    by_cases hn : n = 0
    · simp [collectPayload, hn]
    · simp [collectPayload, hn]
  | cons chunk chunks ih =>
    rw [collectPayload, List.flatten_cons]
    by_cases hn : n ≤ chunk.length
    · have hall : n ≤ (chunk ++ chunks.flatten).length := by
        rw [List.length_append]
        omega
      rw [if_pos hn, if_pos hall, List.take_append_of_le_length hn,
        List.drop_append_of_le_length hn]
      rfl
    · have hmore : n ≤ (chunk ++ chunks.flatten).length ↔
          n - chunk.length ≤ chunks.flatten.length := by
        rw [List.length_append]
        omega
      have htake : (chunk ++ chunks.flatten).take n =
          chunk.take n ++ chunks.flatten.take (n - chunk.length) := List.take_append
      have hdrop : (chunk ++ chunks.flatten).drop n =
          chunk.drop n ++ chunks.flatten.drop (n - chunk.length) := List.drop_append
      rw [List.take_of_length_le (Nat.le_of_not_le hn)] at htake
      rw [List.drop_of_length_le (Nat.le_of_not_le hn), List.nil_append] at hdrop
      have hrest := congrArg (Option.map fun (rest, left) => (chunk ++ rest, left))
        (ih (n - chunk.length))
      rw [if_neg hn, htake, hdrop]
      simp only [Option.map_map, hmore] at hrest ⊢
      split at hrest <;> rename_i hle
      · rw [if_pos hle]
        exact hrest
      · rw [if_neg hle]
        exact hrest

theorem bind_decodeHeader_tooLong_iff {η : Type} {parse : String → Except HeaderError η}
    (hparse : ∀ text, parse text ≠ .error .tooLong) (line : Bytes) :
    (decodeHeader line).bind parse = .error .tooLong ↔ maxHeaderLength < line.length := by
  unfold decodeHeader
  split
  · next hlong => exact iff_of_true rfl hlong
  · next hfits =>
    refine iff_of_false ?_ hfits
    split
    · exact hparse _
    · simp [Except.bind]

section Reading

variable {η α : Type} (d : Delimiters) (parse : String → Except HeaderError η) (length : η → Nat)
variable (make : η → Bytes → α)

/-- Reading a frame in chunks yields what reading it in one piece does, and leaves the same. -/
theorem readChunked_eq (chunks : List Bytes) :
    Prod.map id List.flatten (readChunked d parse length make chunks) =
      readFrame d parse length make chunks.flatten := by
  have hheader := collectHeader_of d [] chunks
  rw [Partial.of_nil] at hheader
  simp only [List.nil_append] at hheader
  rw [readChunked, readFrame, readHeader, ← hheader]
  cases collectHeader d {} chunks with
  | none => rfl
  | some found =>
    obtain ⟨line, behind⟩ := found
    simp only [Option.map_some, Prod.map, id]
    cases line.bind parse with
    | error error => rfl
    | ok header =>
      have hpayload := collectPayload_eq (length header) behind
      simp only
      split at hpayload <;> rename_i hle
      · obtain ⟨⟨payload, left⟩, hcollect, hsame⟩ := Option.map_eq_some_iff.1 hpayload
        obtain ⟨rfl, hleft⟩ := Prod.mk.inj hsame
        rw [if_pos hle, hcollect]
        exact Prod.ext rfl hleft
      · rw [if_neg hle, Option.map_eq_none_iff.1 hpayload]
        rfl

theorem readChunked_fst (chunks : List Bytes) :
    (readChunked d parse length make chunks).1 =
      (readFrame d parse length make chunks.flatten).1 :=
  congrArg Prod.fst (readChunked_eq d parse length make chunks)

theorem flatten_readChunked (chunks : List Bytes) :
    (readChunked d parse length make chunks).2.flatten =
      (readFrame d parse length make chunks.flatten).2 :=
  congrArg Prod.snd (readChunked_eq d parse length make chunks)

variable {d parse length make} in
theorem length_readChunked_lt {chunks : List Bytes}
    (h : (readChunked d parse length make chunks).1 ≠ .ended) :
    (readChunked d parse length make chunks).2.flatten.length < chunks.flatten.length := by
  rw [readChunked_fst] at h
  rw [flatten_readChunked]
  exact length_readFrame_lt h

def receive (chunks : List Bytes) : List (Except HeaderError α) :=
  match h : readChunked d parse length make chunks with
  | (.ended, _) => []
  | (.frame a, rest) =>
    have : rest.flatten.length < chunks.flatten.length := by
      have hshrinks := length_readChunked_lt (by rw [h]; simp)
      rwa [h] at hshrinks
    .ok a :: receive rest
  | (.rejected e, rest) =>
    have : rest.flatten.length < chunks.flatten.length := by
      have hshrinks := length_readChunked_lt (by rw [h]; simp)
      rwa [h] at hshrinks
    .error e :: receive rest
termination_by chunks.flatten.length
decreasing_by all_goals assumption

theorem receive_eq (chunks : List Bytes) :
    receive d parse length make chunks =
      (takeAll (readFrame d parse length make) (fun _ => length_readFrame_lt)
        chunks.flatten).1 := by
  fun_induction receive d parse length make chunks with
  | case1 chunks rest hread =>
    have hfst := readChunked_fst d parse length make chunks
    rw [hread] at hfst
    rw [takeAll_ended hfst.symm]
  | case2 chunks a rest hread _ ih =>
    have hsame := readChunked_eq d parse length make chunks
    have hitem : (readFrame d parse length make chunks.flatten).1.item? = some (.ok a) := by
      rw [← hsame, hread]
      rfl
    rw [takeAll_item hitem, ih, ← hsame, hread]
    rfl
  | case3 chunks e rest hread _ ih =>
    have hsame := readChunked_eq d parse length make chunks
    have hitem : (readFrame d parse length make chunks.flatten).1.item? = some (.error e) := by
      rw [← hsame, hread]
      rfl
    rw [takeAll_item hitem, ih, ← hsame, hread]
    rfl

variable {d parse length make} in
/-- A frame is turned away for its length just if its line is longer than the limit, and costs the
line only. -/
theorem readChunked_tooLong (hparse : ∀ text, parse text ≠ .error .tooLong) {chunks : List Bytes}
    {line rest : Bytes} (hbytes : chunks.flatten = line ++ d.entry :: rest)
    (hline : d.entry ∉ line) :
    ((readChunked d parse length make chunks).1 = .rejected .tooLong ↔
        maxHeaderLength < line.length) ∧
      (maxHeaderLength < line.length →
        (readChunked d parse length make chunks).2.flatten = rest) := by
  have hlong := bind_decodeHeader_tooLong_iff hparse line
  have hrejected (h : maxHeaderLength < line.length) :
      readFrame d parse length make chunks.flatten = (.rejected .tooLong, rest) := by
    rw [hbytes]
    exact readFrame_rejected hline (hlong.2 h)
  rw [readChunked_fst, flatten_readChunked]
  refine ⟨⟨fun h => hlong.1 ?_, fun h => by rw [hrejected h]⟩, fun h => by rw [hrejected h]⟩
  rw [hbytes] at h
  simp only [readFrame, readHeader, cutAt_append hline, Option.map_some] at h
  cases hheader : (decodeHeader line).bind parse with
  | error error =>
    simp only [hheader, Received.rejected.injEq] at h
    rw [h]
  | ok header =>
    simp only [hheader] at h
    split at h <;> simp at h

end Reading

theorem map_parseLength_ne_tooLong {η : Type} (make : Nat → η) (text : String) :
    (parseLength text).map make ≠ .error .tooLong := by
  unfold parseLength
  split <;> simp [Except.map]

theorem RequestHeader.parse_ne_tooLong (d : Delimiters) (text : String) :
    parse d text ≠ .error .tooLong := by
  unfold parse
  split
  · exact map_parseLength_ne_tooLong _ _
  · simp

theorem ResponseHeader.parse_ne_tooLong (d : Delimiters) (text : String) :
    parse d text ≠ .error .tooLong := by
  unfold parse
  split
  · split
    · exact map_parseLength_ne_tooLong _ _
    · simp
  · simp

/-- The next request of a stream that arrives in chunks. -/
def nextRequest (d : Delimiters) : List Bytes → Received Request × List Bytes :=
  readChunked d (RequestHeader.parse d) (·.length) fun h body => ⟨h.code, h.client, body⟩

def nextResponse (d : Delimiters) : List Bytes → Received Response × List Bytes :=
  readChunked d (ResponseHeader.parse d) (·.length) fun h message => ⟨h.status, message⟩

def receiveRequests (d : Delimiters) : List Bytes → List (Except HeaderError Request) :=
  receive d (RequestHeader.parse d) (·.length) fun h body => ⟨h.code, h.client, body⟩

def receiveResponses (d : Delimiters) : List Bytes → List (Except HeaderError Response) :=
  receive d (ResponseHeader.parse d) (·.length) fun h message => ⟨h.status, message⟩

theorem receiveRequests_eq (d : Delimiters) (chunks : List Bytes) :
    receiveRequests d chunks = readRequests d chunks.flatten := receive_eq ..

theorem receiveResponses_eq (d : Delimiters) (chunks : List Bytes) :
    receiveResponses d chunks = readResponses d chunks.flatten := receive_eq ..

/-- However a stream is cut into chunks, it is read as if it were one, and as the frames that
stand in its bytes. A header is too long just if more bytes than the limit stand before the
separator that ends it, and reading goes on behind that separator. -/
theorem chunking_immaterial (d : Delimiters) (chunks : List Bytes) :
    (receiveRequests d chunks = receiveRequests d [chunks.flatten] ∧
      receiveRequests d chunks = readRequests d chunks.flatten) ∧
      (receiveResponses d chunks = receiveResponses d [chunks.flatten] ∧
        receiveResponses d chunks = readResponses d chunks.flatten) ∧
      ∀ line rest, chunks.flatten = line ++ d.entry :: rest → d.entry ∉ line →
        ((nextRequest d chunks).1 = .rejected .tooLong ↔ maxHeaderLength < line.length) ∧
        ((nextResponse d chunks).1 = .rejected .tooLong ↔ maxHeaderLength < line.length) ∧
        (maxHeaderLength < line.length →
          (nextRequest d chunks).2.flatten = rest ∧ (nextResponse d chunks).2.flatten = rest) := by
  have hone : [chunks.flatten].flatten = chunks.flatten := List.flatten_singleton
  refine ⟨⟨?_, receiveRequests_eq d chunks⟩, ⟨?_, receiveResponses_eq d chunks⟩,
    fun line rest hbytes hline => ?_⟩
  · rw [receiveRequests_eq, receiveRequests_eq, hone]
  · rw [receiveResponses_eq, receiveResponses_eq, hone]
  · have hrequest :
        ((nextRequest d chunks).1 = .rejected .tooLong ↔ maxHeaderLength < line.length) ∧
          (maxHeaderLength < line.length → (nextRequest d chunks).2.flatten = rest) :=
      readChunked_tooLong (RequestHeader.parse_ne_tooLong d) hbytes hline
    have hresponse :
        ((nextResponse d chunks).1 = .rejected .tooLong ↔ maxHeaderLength < line.length) ∧
          (maxHeaderLength < line.length → (nextResponse d chunks).2.flatten = rest) :=
      readChunked_tooLong (ResponseHeader.parse_ne_tooLong d) hbytes hline
    exact ⟨hrequest.1, hresponse.1, fun h => ⟨hrequest.2 h, hresponse.2 h⟩⟩

def straddling : List Bytes :=
  [List.replicate 1000 120, List.replicate 25 120, Text.encode "\ngti", Text.encode "p?c?0\n"]

theorem chunking_immaterial_straddling :
    straddling.flatten = List.replicate 1025 120 ++ 10 :: Text.encode "gtip?c?0\n" ∧
      (10 : UInt8) ∉ List.replicate 1025 (120 : UInt8) ∧
      receiveRequests {} straddling = receiveRequests {} [straddling.flatten] ∧
      receiveRequests {} straddling = [.error .tooLong, .ok ⟨"gtip", "c", []⟩] ∧
      (nextRequest {} straddling).1 = .rejected .tooLong ∧
      (nextRequest {} straddling).2.flatten = Text.encode "gtip?c?0\n" := by
  have hbytes : straddling.flatten = List.replicate 1025 120 ++ 10 :: Text.encode "gtip?c?0\n" := by
    decide +kernel
  have hline : (10 : UInt8) ∉ List.replicate 1025 (120 : UInt8) := by decide +kernel
  have hlong : maxHeaderLength < (List.replicate 1025 (120 : UInt8)).length := by decide +kernel
  obtain ⟨⟨hsame, hread⟩, -, htooLong⟩ := chunking_immaterial {} straddling
  obtain ⟨hrequest, -, hresume⟩ := htooLong _ _ hbytes hline
  have hvalues : readRequests {} straddling.flatten = [.error .tooLong, .ok ⟨"gtip", "c", []⟩] := by
    decide +kernel
  exact ⟨hbytes, hline, hsame, hread.trans hvalues, hrequest.2 hlong, (hresume hlong).1⟩

end CrawlCluster.Frame
