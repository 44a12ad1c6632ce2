import CrawlCluster.Proofs.Frame.Reading

set_option autoImplicit false

namespace CrawlCluster.Frame

variable {d : Delimiters}

/-- A stretch of a request stream, and what is read off it. -/
structure Part where
  bytes : Bytes
  received : Except HeaderError Request
  deriving DecidableEq, Repr

/-- A header line with the payload it announces, or a line that is rejected as a header. -/
inductive Part.Complete (d : Delimiters) : Part → Prop where
  | frame {line payload : Bytes} {header : RequestHeader} (hline : d.entry ∉ line)
    (hheader : (decodeHeader line).bind (RequestHeader.parse d) = .ok header)
    (hlength : header.length = payload.length) :
    Complete d ⟨line ++ d.entry :: payload, .ok ⟨header.code, header.client, payload⟩⟩
  | rejected {line : Bytes} {error : HeaderError} (hline : d.entry ∉ line)
    (hheader : (decodeHeader line).bind (RequestHeader.parse d) = .error error) :
    Complete d ⟨line ++ [d.entry], .error error⟩

/-- A line that does not end, or a header line with less than the payload it announces. -/
inductive Truncated (d : Delimiters) : Bytes → Prop where
  | line {bytes : Bytes} (hline : d.entry ∉ bytes) : Truncated d bytes
  | payload {line rest : Bytes} {header : RequestHeader} (hline : d.entry ∉ line)
    (hheader : (decodeHeader line).bind (RequestHeader.parse d) = .ok header)
    (hshort : rest.length < header.length) : Truncated d (line ++ d.entry :: rest)

theorem Truncated.ended {tail : Bytes} (h : Truncated d tail) :
    (readRequest d tail).1 = .ended := by
  cases h with
  | line hline => exact congrArg Prod.fst (readFrame_open hline)
  | payload hline hheader hshort => exact congrArg Prod.fst (readFrame_short hline hheader hshort)

namespace Part

variable {part : Part} {parts : List Part} {tail : Bytes}

theorem Complete.read (h : part.Complete d) (rest : Bytes) :
    (readRequest d (part.bytes ++ rest)).1.item? = some part.received ∧
      (readRequest d (part.bytes ++ rest)).2 = rest := by
  cases h with
  | @frame line payload header hline hheader hlength =>
    have hread : readRequest d (line ++ d.entry :: (payload ++ rest)) =
        (.frame ⟨header.code, header.client, payload⟩, rest) :=
      readFrame_frame hline hheader hlength
    rw [List.append_assoc, List.cons_append, hread]
    exact ⟨rfl, rfl⟩
  | @rejected line error hline hheader =>
    have hread : readRequest d (line ++ d.entry :: rest) = (.rejected error, rest) :=
      readFrame_rejected hline hheader
    rw [List.append_assoc, List.singleton_append, hread]
    exact ⟨rfl, rfl⟩

theorem complete_encode (hd : d.Framing) {r : Request} (h : r.Fits d) :
    Complete d ⟨r.encode d, .ok r⟩ := by
  have hheader : (decodeHeader (Text.encode (r.header.encode d))).bind (RequestHeader.parse d) =
      .ok r.header := by
    rw [bind_decodeHeader_encode _ h.line]
    exact h.parse_header hd
  exact .frame (h.entry_not_mem hd) hheader rfl

theorem Complete.length_pos (h : part.Complete d) : 0 < part.bytes.length := by
  cases h <;> (simp only [List.length_append, List.length_cons]; omega)

theorem Complete.takeRequests (h : part.Complete d) (rest : Bytes) :
    Frame.takeRequests d (part.bytes ++ rest) =
      (part.received :: (Frame.takeRequests d rest).1, (Frame.takeRequests d rest).2) := by
  obtain ⟨hreceived, hrest⟩ := h.read rest
  rw [takeRequests_item hreceived, hrest]

theorem takeRequests_append (hparts : ∀ part ∈ parts, part.Complete d) (rest : Bytes) :
    takeRequests d (parts.flatMap (·.bytes) ++ rest) =
      (parts.map (·.received) ++ (takeRequests d rest).1, (takeRequests d rest).2) := by
  induction parts with
  | nil => rfl
  | cons part parts ih =>
    obtain ⟨hpart, hparts⟩ := List.forall_mem_cons.1 hparts
    rw [List.flatMap_cons, List.append_assoc, hpart.takeRequests, ih hparts]
    rfl

theorem takeRequests_parts (hparts : ∀ part ∈ parts, part.Complete d) (htail : Truncated d tail) :
    takeRequests d (parts.flatMap (·.bytes) ++ tail) = (parts.map (·.received), tail) := by
  rw [takeRequests_append hparts, takeRequests_ended htail.ended, List.append_nil]

theorem Complete.readRequests (h : part.Complete d) (rest : Bytes) :
    Frame.readRequests d (part.bytes ++ rest) = part.received :: Frame.readRequests d rest :=
  congrArg Prod.fst (h.takeRequests rest)

theorem readRequests_append (hparts : ∀ part ∈ parts, part.Complete d) (rest : Bytes) :
    readRequests d (parts.flatMap (·.bytes) ++ rest) =
      parts.map (·.received) ++ readRequests d rest :=
  congrArg Prod.fst (takeRequests_append hparts rest)

theorem truncated_or_complete (d : Delimiters) (bytes : Bytes) :
    Truncated d bytes ∨ ∃ (part : Part) (rest : Bytes), part.Complete d ∧
      bytes = part.bytes ++ rest := by
  cases hcut : cutAt d.entry bytes with
  | none => exact .inl (.line (cutAt_eq_none_iff.1 hcut))
  | some found =>
    obtain ⟨line, rest⟩ := found
    obtain ⟨rfl, hline⟩ := cutAt_eq_some_iff.1 hcut
    cases hheader : (decodeHeader line).bind (RequestHeader.parse d) with
    | error error => exact .inr ⟨_, rest, .rejected hline hheader, by simp⟩
    | ok header =>
      by_cases hlength : header.length ≤ rest.length
      · have htake : header.length = (rest.take header.length).length := by
          rw [List.length_take, Nat.min_eq_left hlength]
        refine .inr ⟨_, rest.drop header.length, .frame hline hheader htake, ?_⟩
        rw [List.append_assoc, List.cons_append, List.take_append_drop]
      · exact .inl (.payload hline hheader (Nat.not_le.1 hlength))

theorem exists_parts (d : Delimiters) (bytes : Bytes) :
    ∃ (parts : List Part) (tail : Bytes), bytes = parts.flatMap (·.bytes) ++ tail ∧
      (∀ part ∈ parts, part.Complete d) ∧ Truncated d tail := by
  induction hn : bytes.length using Nat.strongRecOn generalizing bytes with
  | ind n ih =>
    rcases truncated_or_complete d bytes with htail | ⟨part, rest, hpart, rfl⟩
    · exact ⟨[], bytes, rfl, by simp, htail⟩
    · have hlength := hpart.length_pos
      rw [List.length_append] at hn
      obtain ⟨parts, tail, hrest, hparts, htail⟩ := ih rest.length (by omega) rest rfl
      refine ⟨part :: parts, tail, ?_, ?_, htail⟩
      · rw [List.flatMap_cons, List.append_assoc, ← hrest]
      · intro other hother
        rcases List.mem_cons.1 hother with rfl | hother
        · exact hpart
        · exact hparts other hother

end Part

theorem readResponse_shrinks (d : Delimiters) (bytes : Bytes)
    (h : (readResponse d bytes).1 ≠ .ended) :
    (readResponse d bytes).2.length < bytes.length := length_readFrame_lt h

def takeResponses (d : Delimiters) : Bytes → List (Except HeaderError Response) × Bytes :=
  takeAll (readResponse d) (readResponse_shrinks d)

theorem takeResponses_encode (hd : d.Framing) {answers : List Response}
    (hsize : ∀ answer ∈ answers, answer.message.length < UInt64.size) :
    takeResponses d (answers.flatMap (·.encode d)) = (answers.map .ok, []) :=
  takeAll_flatMap (fun answer hanswer => readResponse_encode hd (hsize answer hanswer))
    (congrArg Prod.fst (readFrame_open (by simp)))

end CrawlCluster.Frame
