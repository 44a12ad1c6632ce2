import CrawlCluster.Client
import CrawlCluster.Proofs.Frame.Chunking
import CrawlCluster.Proofs.Frame.Parts

set_option autoImplicit false

namespace CrawlCluster

open CrawlCluster.Frame (HeaderError Received Response ResponseHeader cutAt decodeHeader
  maxHeaderLength)

namespace Frame

/-- The header lines of a stream of responses: its first line, and the lines that come first behind
a payload or behind a line that is rejected. -/
inductive HeaderLine (d : Delimiters) : Bytes → Bytes → Prop where
  | first {bytes line rest : Bytes} (hcut : cutAt d.entry bytes = some (line, rest)) :
    HeaderLine d bytes line
  | behindPayload {bytes line rest later : Bytes} {header : ResponseHeader}
    (hcut : cutAt d.entry bytes = some (line, rest))
    (hheader : (decodeHeader line).bind (ResponseHeader.parse d) = .ok header)
    (hlength : header.length ≤ rest.length)
    (hlater : HeaderLine d (rest.drop header.length) later) : HeaderLine d bytes later
  | behindRejected {bytes line rest later : Bytes} {error : HeaderError}
    (hcut : cutAt d.entry bytes = some (line, rest))
    (hheader : (decodeHeader line).bind (ResponseHeader.parse d) = .error error)
    (hlater : HeaderLine d rest later) : HeaderLine d bytes later

/-- A stream whose header lines a node reads to their end. -/
def Readable (d : Delimiters) (bytes : Bytes) : Prop :=
  ∀ line, HeaderLine d bytes line → line.length ≤ maxHeaderLength

/-- No header announces a payload of more than `room` bytes. -/
def Roomy (room : Nat) (d : Delimiters) (bytes : Bytes) : Prop :=
  ∀ line, HeaderLine d bytes line → ∀ header,
    (decodeHeader line).bind (ResponseHeader.parse d) = .ok header → header.length ≤ room

theorem HeaderLine.length_le {d : Delimiters} {bytes line : Bytes} (h : HeaderLine d bytes line) :
    line.length ≤ bytes.length := by
  induction h with
  | first hcut =>
    rw [(cutAt_eq_some_iff.1 hcut).1, List.length_append]
    exact Nat.le_add_right ..
  | behindPayload hcut _ _ _ ih =>
    rw [List.length_drop] at ih
    have hrest := length_cutAt_lt hcut
    omega
  | behindRejected hcut _ _ ih => exact Nat.le_trans ih (Nat.le_of_lt (length_cutAt_lt hcut))

theorem readable_of_length_le (d : Delimiters) {bytes : Bytes}
    (h : bytes.length ≤ maxHeaderLength) : Readable d bytes :=
  fun _ hline => Nat.le_trans hline.length_le h

/-- The header lines are the first, and those of what is left when reading goes on. -/
theorem headerLine_iff {d : Delimiters} {bytes line rest later : Bytes}
    (hcut : cutAt d.entry bytes = some (line, rest)) :
    HeaderLine d bytes later ↔ later = line ∨
      ((readResponse d bytes).1 ≠ .ended ∧ HeaderLine d (readResponse d bytes).2 later) := by
  unfold readResponse readFrame readHeader
  simp only [hcut, Option.map_some]
  constructor
  · intro h
    cases h with
    | first hcut' =>
      rw [hcut] at hcut'
      cases hcut'
      exact .inl rfl
    | behindPayload hcut' hheader hlength hlater =>
      rw [hcut] at hcut'
      cases hcut'
      simp only [hheader, hlength, if_true]
      exact .inr ⟨nofun, hlater⟩
    | behindRejected hcut' hheader hlater =>
      rw [hcut] at hcut'
      cases hcut'
      simp only [hheader]
      exact .inr ⟨nofun, hlater⟩
  · rintro (rfl | ⟨hread, hlater⟩)
    · exact .first hcut
    · cases hheader : (decodeHeader line).bind (ResponseHeader.parse d) with
      | error error =>
        simp only [hheader] at hlater
        exact .behindRejected hcut hheader hlater
      | ok header =>
        by_cases hlength : header.length ≤ rest.length
        · simp only [hheader, hlength, if_true] at hlater
          exact .behindPayload hcut hheader hlength hlater
        · simp [hheader, hlength] at hread

theorem not_headerLine {d : Delimiters} {bytes line : Bytes} (hcut : cutAt d.entry bytes = none) :
    ¬HeaderLine d bytes line := by
  intro h
  cases h with
  | first hcut' => simp [hcut] at hcut'
  | behindPayload hcut' => simp [hcut] at hcut'
  | behindRejected hcut' => simp [hcut] at hcut'

theorem Readable.later {d : Delimiters} {bytes : Bytes} (h : Readable d bytes)
    (hread : (readResponse d bytes).1 ≠ .ended) : Readable d (readResponse d bytes).2 := by
  intro line hline
  cases hcut : cutAt d.entry bytes with
  | none => simp [readResponse, readFrame, readHeader, hcut] at hread
  | some found => exact h line ((headerLine_iff hcut).2 (.inr ⟨hread, hline⟩))

end Frame

namespace Client

def received : Except Error Response → Received Response
  | .ok response => .frame response
  | .error (.header error) => .rejected error
  | .error _ => .ended

def read (room : Nat) (d : Delimiters) (bytes : Bytes) : Received Response × Bytes :=
  (received (readResponse room d bytes).1, (readResponse room d bytes).2)

def isStopped (room : Nat) (d : Delimiters) (bytes : Bytes) : Bool :=
  decide ((readResponse room d bytes).1 = .error .noRoom)

variable {room : Nat} {d : Delimiters} {bytes : Bytes}

theorem length_read_lt (h : (read room d bytes).1 ≠ .ended) :
    (read room d bytes).2.length < bytes.length := by
  unfold read readResponse at *
  cases hcut : cutAt d.entry bytes with
  | none => simp [hcut, received] at h
  | some found =>
    obtain ⟨line, rest⟩ := found
    have hrest := Frame.length_cutAt_lt hcut
    simp only [hcut] at h ⊢
    cases hdecode : Text.decode? line with
    | none => exact hrest
    | some text =>
      simp only [hdecode] at h ⊢
      cases hheader : ResponseHeader.parse d text with
      | error error => exact hrest
      | ok header =>
        simp only [hheader] at h ⊢
        split
        · exact hrest
        · split
          · simp only [List.length_drop]
            omega
          · next hroom hlength => simp [hroom, hlength, received] at h

theorem ended_of_isStopped (h : isStopped room d bytes = true) :
    (read room d bytes).1 = .ended := by
  rw [read, of_decide_eq_true h]
  rfl

/-- Up to the limit a header line is the same to both. -/
theorem read_eq_readResponse (hlines : ∀ line rest, cutAt d.entry bytes = some (line, rest) →
    line.length ≤ maxHeaderLength) (hgoes : isStopped room d bytes = false) :
    read room d bytes = Frame.readResponse d bytes := by
  unfold isStopped at hgoes
  unfold read Frame.readResponse Frame.readFrame Frame.readHeader
  unfold readResponse at hgoes ⊢
  cases hcut : cutAt d.entry bytes with
  | none => rfl
  | some found =>
    obtain ⟨line, rest⟩ := found
    simp only [hcut, Option.map_some, decodeHeader, if_neg (Nat.not_lt.2 (hlines line rest hcut))]
      at hgoes ⊢
    cases hdecode : Text.decode? line with
    | none => rfl
    | some text =>
      cases hheader : ResponseHeader.parse d text with
      | error error => simp [Except.bind, hheader, received]
      | ok header =>
        simp only [hdecode, hheader] at hgoes
        simp only [Except.bind, hheader]
        split
        · next hroom => simp [hroom] at hgoes
        · split <;> rfl

theorem isStopped_of_open (hcut : cutAt d.entry bytes = none) : isStopped room d bytes = false := by
  simp [isStopped, readResponse, hcut]

/-- The client is stopped just by a header that announces more than it has room for. -/
theorem isStopped_iff (room : Nat) {line rest : Bytes}
    (hcut : cutAt d.entry bytes = some (line, rest)) (hline : line.length ≤ maxHeaderLength) :
    isStopped room d bytes = true ↔
      ∃ header, (decodeHeader line).bind (ResponseHeader.parse d) = .ok header ∧
        room < header.length := by
  simp only [isStopped, decide_eq_true_eq, readResponse, hcut, decodeHeader,
    if_neg (Nat.not_lt.2 hline)]
  cases Text.decode? line with
  | none => simp [Except.bind]
  | some text =>
    simp only [Except.bind]
    cases hheader : ResponseHeader.parse d text with
    | error error => simp
    | ok header =>
      by_cases hroom : room < header.length
      · simp [hroom]
      · by_cases hlength : header.length ≤ rest.length <;> simp [hroom, hlength]

theorem roomy_iff (room : Nat) (hbytes : Frame.Readable d bytes) : Frame.Roomy room d bytes ↔
    isStopped room d bytes = false ∧ ((Frame.readResponse d bytes).1 ≠ .ended →
      Frame.Roomy room d (Frame.readResponse d bytes).2) := by
  cases hcut : cutAt d.entry bytes with
  | none =>
    have hended : (Frame.readResponse d bytes).1 = .ended := by
      simp [Frame.readResponse, Frame.readFrame, Frame.readHeader, hcut]
    exact iff_of_true (fun line hline => absurd hline (Frame.not_headerLine hcut))
      ⟨isStopped_of_open hcut, fun hread => absurd hended hread⟩
  | some found =>
    obtain ⟨line, rest⟩ := found
    have hstopped := isStopped_iff room hcut (hbytes line (.first hcut))
    rw [← Bool.not_eq_true, hstopped]
    constructor
    · intro hroomy
      refine ⟨?_, fun hread later hlater => ?_⟩
      · rintro ⟨header, hheader, hroom⟩
        exact Nat.not_lt.2 (hroomy line (.first hcut) header hheader) hroom
      · exact hroomy later ((Frame.headerLine_iff hcut).2 (.inr ⟨hread, hlater⟩))
    · rintro ⟨hfirst, hrest⟩ later hlater header hheader
      rcases (Frame.headerLine_iff hcut).1 hlater with rfl | ⟨hread, hlater⟩
      · exact Nat.not_lt.1 fun hroom => hfirst ⟨header, hheader, hroom⟩
      · exact hrest hread later hlater header hheader

def takeAll (room : Nat) (d : Delimiters) (bytes : Bytes) :
    List (Except HeaderError Response) × Bytes :=
  Frame.takeAll (read room d) (fun _ => length_read_lt) bytes

/-- A client makes of a stream what a node makes of it, up to where it is stopped. -/
theorem takeAll_readable (room : Nat) (hbytes : Frame.Readable d bytes) :
    (takeAll room d bytes).1 <+: (Frame.takeResponses d bytes).1 ∧
      (isStopped room d (takeAll room d bytes).2 = true ↔ ¬Frame.Roomy room d bytes) ∧
      (isStopped room d (takeAll room d bytes).2 = false →
        takeAll room d bytes = Frame.takeResponses d bytes) := by
  induction hn : bytes.length using Nat.strongRecOn generalizing bytes with
  | ind n ih =>
    have hlines : ∀ line rest, cutAt d.entry bytes = some (line, rest) →
        line.length ≤ maxHeaderLength := fun line rest hcut => hbytes line (.first hcut)
    have hroomy := roomy_iff room hbytes
    by_cases hstopped : isStopped room d bytes = true
    · have hend : takeAll room d bytes = ([], bytes) :=
        Frame.takeAll_ended (ended_of_isStopped hstopped)
      simp [hend, hstopped, hroomy]
    · have hgoes : isStopped room d bytes = false := Bool.eq_false_iff.2 hstopped
      have hsame := read_eq_readResponse hlines hgoes
      cases hitem : (Frame.readResponse d bytes).1.item? with
      | none =>
        have hended := Frame.Received.item?_eq_none_iff.1 hitem
        have hend : takeAll room d bytes = ([], bytes) := Frame.takeAll_ended (hsame ▸ hended)
        have hend' : Frame.takeResponses d bytes = ([], bytes) := Frame.takeAll_ended hended
        simp [hend, hend', hgoes, hroomy, hended]
      | some item =>
        have hread : (Frame.readResponse d bytes).1 ≠ .ended := by
          intro hended
          rw [Frame.Received.item?_eq_none_iff.2 hended] at hitem
          cases hitem
        have hshort : (Frame.readResponse d bytes).2.length < n :=
          hn ▸ Frame.readResponse_shrinks d bytes hread
        obtain ⟨hstart, hstand, hall⟩ := ih _ hshort (hbytes.later hread) rfl
        have hnext : takeAll room d bytes =
            (item :: (takeAll room d (Frame.readResponse d bytes).2).1,
              (takeAll room d (Frame.readResponse d bytes).2).2) := by
          rw [takeAll, Frame.takeAll_item (hsame.symm ▸ hitem), hsame]
          rfl
        have hnext' : Frame.takeResponses d bytes =
            (item :: (Frame.takeResponses d (Frame.readResponse d bytes).2).1,
              (Frame.takeResponses d (Frame.readResponse d bytes).2).2) :=
          Frame.takeAll_item hitem
        rw [hnext, hnext', hroomy]
        refine ⟨List.cons_prefix_cons.2 ⟨rfl, hstart⟩, ?_, fun hlater => ?_⟩
        · simp [hstand, hgoes, hread]
        · rw [hall hlater]

theorem read_encode (hd : d.Framing) {answer : Response}
    (hsize : answer.message.length < UInt64.size) (hroom : answer.message.length ≤ room)
    (rest : Bytes) : read room d (answer.encode d ++ rest) = (.frame answer, rest) := by
  have hcut : cutAt d.entry (answer.encode d ++ rest) =
      some (Text.encode (answer.header.encode d), answer.message ++ rest) := by
    rw [Response.encode_eq, List.append_assoc, List.cons_append,
      Frame.cutAt_append (answer.header.entry_not_mem hd)]
  have hline := ResponseHeader.length_encode_le d (h := answer.header) hsize
  have hlines : ∀ line tail, cutAt d.entry (answer.encode d ++ rest) = some (line, tail) →
      line.length ≤ maxHeaderLength := by
    intro line tail hcut'
    rw [hcut] at hcut'
    obtain ⟨rfl, -⟩ := Prod.mk.inj (Option.some.inj hcut')
    exact hline
  have hgoes : isStopped room d (answer.encode d ++ rest) = false := by
    rw [← Bool.not_eq_true, isStopped_iff room hcut hline]
    rintro ⟨header, hheader, hlong⟩
    rw [Frame.bind_decodeHeader_encode _ hline, ResponseHeader.parse_encode hd hsize] at hheader
    obtain rfl := Except.ok.inj hheader
    exact Nat.not_lt.2 hroom hlong
  rw [read_eq_readResponse hlines hgoes, Frame.readResponse_encode hd hsize]

theorem takeAll_encode (hd : d.Framing) {answers : List Response}
    (hsize : ∀ answer ∈ answers, answer.message.length < UInt64.size)
    (hroom : ∀ answer ∈ answers, answer.message.length ≤ room) :
    takeAll room d (answers.flatMap (·.encode d)) = (answers.map .ok, []) :=
  Frame.takeAll_flatMap
    (fun answer hanswer => read_encode hd (hsize answer hanswer) (hroom answer hanswer)) rfl

end Client

inductive Reader where
  | node
  | blocking
  | async
  deriving DecidableEq, Repr

/-- What a reader made of a stream, what it left, and whether it was stopped there. -/
structure Reading where
  items : List (Except HeaderError Response)
  tail : Bytes
  stopped : Bool
  deriving DecidableEq, Repr

namespace Reader

/-- The client that does not block knows the usual separators only. -/
def Speaks (d : Delimiters) (reader : Reader) : Prop := reader = .async → d = {}

def read (room : Nat) (d : Delimiters) : Reader → Bytes → Received Response × Bytes
  | .node => Frame.readResponse d
  | .blocking => Client.read room d
  | .async => Client.read room {}

def isStopped (room : Nat) (d : Delimiters) : Reader → Bytes → Bool
  | .node => fun _ => false
  | .blocking => Client.isStopped room d
  | .async => Client.isStopped room {}

theorem read_shrinks (room : Nat) (d : Delimiters) (reader : Reader) (bytes : Bytes)
    (h : (reader.read room d bytes).1 ≠ .ended) :
    (reader.read room d bytes).2.length < bytes.length := by
  cases reader with
  | node => exact Frame.length_readFrame_lt h
  | blocking => exact Client.length_read_lt h
  | async => exact Client.length_read_lt h

def readAll (room : Nat) (d : Delimiters) (reader : Reader) (bytes : Bytes) : Reading :=
  let (items, tail) := Frame.takeAll (reader.read room d) (reader.read_shrinks room d) bytes
  { items, tail, stopped := reader.isStopped room d tail }

variable {room : Nat} {d : Delimiters} {reader : Reader} {bytes : Bytes}

theorem readAll_node : node.readAll room d bytes =
    ⟨(Frame.takeResponses d bytes).1, (Frame.takeResponses d bytes).2, false⟩ := rfl

theorem Speaks.readAll_client (h : reader.Speaks d) (hreader : reader ≠ .node) :
    reader.readAll room d bytes = ⟨(Client.takeAll room d bytes).1, (Client.takeAll room d bytes).2,
      Client.isStopped room d (Client.takeAll room d bytes).2⟩ := by
  cases reader with
  | node => exact absurd rfl hreader
  | blocking => rfl
  | async =>
    obtain rfl := h rfl
    rfl

theorem Speaks.readAll_encode (h : reader.Speaks d) (hd : d.Framing) {answers : List Response}
    (hsize : ∀ answer ∈ answers, answer.message.length < UInt64.size)
    (hroom : reader = .node ∨ ∀ answer ∈ answers, answer.message.length ≤ room) :
    reader.readAll room d (answers.flatMap (·.encode d)) = ⟨answers.map .ok, [], false⟩ := by
  by_cases hreader : reader = .node
  · rw [hreader, readAll_node, Frame.takeResponses_encode hd hsize]
  · rw [h.readAll_client hreader, Client.takeAll_encode hd hsize (hroom.resolve_left hreader)]
    rfl

end Reader

namespace Frame

theorem receiveResponses_of_flatten {d : Delimiters} {chunks : List Bytes} {bytes : Bytes}
    (h : chunks.flatten = bytes) : receiveResponses d chunks = (takeResponses d bytes).1 := by
  rw [receiveResponses_eq, h]
  rfl

end Frame

/-- Of a stream whose header lines are within the limit every reader that knows its separators makes
the same responses and header errors, in the same order, and stops before the same bytes, in which
it finds nothing more, just if it is a node or has room for every payload announced: a client is
stopped by the first that it has no room for, even if the stream ends before so much has come. To a
node it makes no difference in what chunks the stream comes. What was framed as responses every
reader that has room for them reads back. -/
theorem readers_agree (room : Nat) (d : Delimiters) :
    (∀ bytes, Frame.Readable d bytes → ∀ reader : Reader, reader.Speaks d →
      let mine := reader.readAll room d bytes
      let theirs := Reader.node.readAll room d bytes
      (mine = theirs ↔ reader = .node ∨ Frame.Roomy room d bytes) ∧
      (mine = theirs ↔ mine.stopped = false) ∧ mine.items <+: theirs.items ∧
      (reader.read room d mine.tail).1 = .ended ∧
      ∀ chunks : List Bytes, chunks.flatten = bytes →
        Frame.receiveResponses d chunks = theirs.items) ∧
    (d.Framing → ∀ answers : List Response,
      (∀ answer ∈ answers, answer.message.length < UInt64.size) →
      let bytes := answers.flatMap (·.encode d)
      (∀ reader : Reader, reader.Speaks d →
        (reader = .node ∨ ∀ answer ∈ answers, answer.message.length ≤ room) →
        reader.readAll room d bytes = ⟨answers.map .ok, [], false⟩) ∧
      ∀ chunks : List Bytes, chunks.flatten = bytes →
        Frame.receiveResponses d chunks = answers.map .ok) := by
  constructor
  · intro bytes hbytes reader hspeaks mine theirs
    have hended : (reader.read room d mine.tail).1 = .ended := Frame.read_takeAll_snd bytes
    have hchunks : ∀ chunks : List Bytes, chunks.flatten = bytes →
        Frame.receiveResponses d chunks = theirs.items :=
      fun chunks => Frame.receiveResponses_of_flatten
    by_cases hreader : reader = .node
    · subst hreader
      exact ⟨iff_of_true rfl (.inl rfl), iff_of_true rfl rfl, List.prefix_rfl, hended, hchunks⟩
    · obtain ⟨hstart, hstopped, hgoes⟩ := Client.takeAll_readable room hbytes
      have hmine : mine = _ := hspeaks.readAll_client hreader
      have hsame : mine = theirs ↔ mine.stopped = false := by
        refine ⟨fun he => he ▸ rfl, fun hfalse => ?_⟩
        rw [hmine] at hfalse ⊢
        dsimp only at hfalse
        rw [hfalse, hgoes hfalse]
        rfl
      have hroomy : mine.stopped = false ↔ Frame.Roomy room d bytes := by
        rw [← Bool.not_eq_true, hmine, hstopped, not_not]
      refine ⟨?_, hsame, ?_, hended, hchunks⟩
      · rw [hsame, hroomy]
        simp [hreader]
      · rw [hmine]
        exact hstart
  · intro hd answers hsize bytes
    refine ⟨fun reader h hroom => h.readAll_encode hd hsize hroom, fun chunks hchunks => ?_⟩
    rw [Frame.receiveResponses_of_flatten hchunks, Frame.takeResponses_encode hd hsize]

/-- The readers go on behind a line that is no header and one with a status there is none of, and
stop at the payload that is cut short. With a header that announces the longest payload there is, a
client is stopped where a node only finds the stream at its end. -/
theorem readers_agree_cut :
    let bytes := Text.encode "no header\n404?2\n200?2\nok500?9\nfail"
    let vast := Text.encode "200?18446744073709551615\n"
    let answers : List Response := [.success "ok", .serverError "200?2\nno"]
    (Frame.Readable {} bytes ∧ ∀ reader : Reader, reader.readAll Client.bufferLimit {} bytes =
      ⟨[.error .tooShort, .error (.invalidStatus "404"), .ok (.success "ok")],
        Text.encode "500?9\nfail", false⟩) ∧
      (Frame.Readable {} vast ∧ ¬Frame.Roomy Client.bufferLimit {} vast ∧
        Reader.node.readAll Client.bufferLimit {} vast = ⟨[], vast, false⟩ ∧
        Reader.blocking.readAll Client.bufferLimit {} vast = ⟨[], vast, true⟩) ∧
      ∀ reader : Reader, reader.readAll Client.bufferLimit {} (answers.flatMap (·.encode {})) =
        ⟨answers.map .ok, [], false⟩ := by
  intro bytes vast answers
  have hspeaks : ∀ reader : Reader, reader.Speaks {} := fun _ _ => rfl
  obtain ⟨hagree, hback⟩ := readers_agree Client.bufferLimit {}
  have hbytes : Frame.Readable {} bytes := Frame.readable_of_length_le {} (by decide)
  have hvast : Frame.Readable {} vast := Frame.readable_of_length_le {} (by decide)
  have hnode : Reader.node.readAll Client.bufferLimit {} bytes =
      ⟨[.error .tooShort, .error (.invalidStatus "404"), .ok (.success "ok")],
        Text.encode "500?9\nfail", false⟩ := by decide +kernel
  have hgoes : ∀ reader : Reader,
      (reader.readAll Client.bufferLimit {} bytes).stopped = false := by
    intro reader
    cases reader <;> decide +kernel
  have hstopped : Reader.blocking.readAll Client.bufferLimit {} vast = ⟨[], vast, true⟩ := by
    decide +kernel
  refine ⟨⟨hbytes, fun reader => ?_⟩, ⟨hvast, ?_, by decide +kernel, hstopped⟩, fun reader => ?_⟩
  · exact ((hagree bytes hbytes reader (hspeaks reader)).2.1.2 (hgoes reader)).trans hnode
  · intro hroomy
    have hsame := (hagree vast hvast .blocking (hspeaks _)).1.2 (.inr hroomy)
    rw [hstopped] at hsame
    exact absurd (congrArg Reading.stopped hsame) nofun
  · exact (hback Delimiters.framing_default answers (by decide)).1 reader (hspeaks reader)
      (.inr (by decide))

end CrawlCluster
