import CrawlCluster.Frame.Stream
import CrawlCluster.Proofs.Text.Fields

/-!
Reading one frame, by what stands at the front of the bytes: a line that ends, a payload behind it
or less than that. Main statements: a frame is read back as it was written, whatever follows it;
and a request that was read, from however unusual a header, is read again from the frame that it
is written as itself, between any separators.
-/

set_option autoImplicit false

namespace CrawlCluster

/-- Separators that no header written with them is mistaken at: ASCII, no digits, and two. -/
structure Delimiters.Framing (d : Delimiters) : Prop where
  distinct : d.field ≠ d.entry
  field_ascii : d.field < 128
  entry_ascii : d.entry < 128
  field_not_digit : d.fieldChar.isDigit = false
  entry_not_digit : d.entryChar.isDigit = false

namespace Delimiters

theorem framing_default : ({} : Delimiters).Framing := by
  constructor <;> decide

theorem Framing.entryChar_ne_fieldChar {d : Delimiters} (h : d.Framing) :
    d.entryChar ≠ d.fieldChar :=
  Delimiters.entryChar_ne_fieldChar h.distinct

end Delimiters

namespace Frame

theorem cutAt_eq_some_iff {stop : UInt8} {bytes line rest : Bytes} :
    cutAt stop bytes = some (line, rest) ↔ bytes = line ++ stop :: rest ∧ stop ∉ line := by
  constructor
  · intro h
    induction bytes generalizing line with
    | nil => simp [cutAt] at h
    | cons b bytes ih =>
      rw [cutAt] at h
      split at h
      · next hb =>
        obtain ⟨rfl, rfl⟩ := Prod.mk.inj (Option.some.inj h)
        exact ⟨by rw [hb]; rfl, by simp⟩
      · next hb =>
        obtain ⟨⟨l, r⟩, hr, he⟩ := Option.map_eq_some_iff.1 h
        obtain ⟨rfl, rfl⟩ := Prod.mk.inj he
        obtain ⟨rfl, hl⟩ := ih hr
        exact ⟨rfl, by simp [Ne.symm hb, hl]⟩
  · rintro ⟨rfl, h⟩
    exact cutAt_append h rest

theorem decodeHeader_encode {line : String} (h : (Text.encode line).length ≤ maxHeaderLength) :
    decodeHeader (Text.encode line) = .ok line := by
  rw [decodeHeader, if_neg (Nat.not_lt.2 h), Text.decode?_encode]

theorem bind_decodeHeader_encode {η : Type} (parse : String → Except HeaderError η) {line : String}
    (h : (Text.encode line).length ≤ maxHeaderLength) :
    (decodeHeader (Text.encode line)).bind parse = parse line := by
  rw [decodeHeader_encode h, Except.bind]

theorem decodeHeader_eq_ok {line : Bytes} {text : String} (h : decodeHeader line = .ok text) :
    line = Text.encode text ∧ line.length ≤ maxHeaderLength := by
  unfold decodeHeader at h
  split at h
  · cases h
  · next hlen =>
    split at h
    · next hdecode =>
      cases h
      exact ⟨(Text.encode_of_decode? hdecode).symm, Nat.not_lt.1 hlen⟩
    · cases h

section Any

variable {η α : Type} {d : Delimiters} {parse : String → Except HeaderError η} {length : η → Nat}
variable {make : η → Bytes → α} {line payload bytes rest : Bytes} {header : η}

theorem readFrame_open (h : d.entry ∉ bytes) :
    readFrame d parse length make bytes = (.ended, []) := by
  rw [readFrame, readHeader, cutAt_eq_none_iff.2 h]
  rfl

theorem readFrame_rejected {error : HeaderError} (hline : d.entry ∉ line)
    (h : (decodeHeader line).bind parse = .error error) :
    readFrame d parse length make (line ++ d.entry :: rest) = (.rejected error, rest) := by
  simp only [readFrame, readHeader, cutAt_append hline, Option.map_some, h]

theorem readFrame_frame (hline : d.entry ∉ line) (h : (decodeHeader line).bind parse = .ok header)
    (hlength : length header = payload.length) :
    readFrame d parse length make (line ++ d.entry :: (payload ++ rest)) =
      (.frame (make header payload), rest) := by
  have hfits : payload.length ≤ (payload ++ rest).length := by simp
  simp only [readFrame, readHeader, cutAt_append hline, Option.map_some, h, hlength, hfits,
    if_true, List.take_left, List.drop_left]

theorem readFrame_short (hline : d.entry ∉ line) (h : (decodeHeader line).bind parse = .ok header)
    (hshort : rest.length < length header) :
    readFrame d parse length make (line ++ d.entry :: rest) = (.ended, []) := by
  simp only [readFrame, readHeader, cutAt_append hline, Option.map_some, h,
    if_neg (Nat.not_le.2 hshort)]

theorem readFrame_eq_frame {value : α}
    (h : readFrame d parse length make bytes = (.frame value, rest)) :
    ∃ line header payload, bytes = line ++ d.entry :: (payload ++ rest) ∧ d.entry ∉ line ∧
      (decodeHeader line).bind parse = .ok header ∧ length header = payload.length ∧
      value = make header payload := by
  unfold readFrame readHeader at h
  cases hcut : cutAt d.entry bytes with
  | none => simp [hcut] at h
  | some found =>
    obtain ⟨line, tail⟩ := found
    obtain ⟨rfl, hline⟩ := cutAt_eq_some_iff.1 hcut
    simp only [hcut, Option.map_some] at h
    split at h
    · simp at h
    · next header hheader =>
      split at h
      · next hlength =>
        simp only [Prod.mk.injEq, Received.frame.injEq] at h
        obtain ⟨rfl, rfl⟩ := h
        refine ⟨line, header, tail.take (length header), ?_, hline, hheader, ?_, rfl⟩
        · rw [List.take_append_drop]
        · rw [List.length_take, Nat.min_eq_left hlength]
      · simp at h

def Received.item? : Received α → Option (Except HeaderError α)
  | .frame value => some (.ok value)
  | .rejected error => some (.error error)
  | .ended => none

theorem Received.item?_eq_none_iff {received : Received α} :
    received.item? = none ↔ received = .ended := by
  cases received <;> simp [item?]

variable {read : Bytes → Received α × Bytes}
variable {shrinks : ∀ bytes, (read bytes).1 ≠ .ended → (read bytes).2.length < bytes.length}

theorem takeAll_ended (h : (read bytes).1 = .ended) : takeAll read shrinks bytes = ([], bytes) := by
  rw [takeAll]
  split
  · rfl
  · next he => simp [he] at h
  · next he => simp [he] at h

theorem takeAll_item {item : Except HeaderError α} (h : (read bytes).1.item? = some item) :
    takeAll read shrinks bytes =
      (item :: (takeAll read shrinks (read bytes).2).1,
        (takeAll read shrinks (read bytes).2).2) := by
  rw [takeAll]
  split
  · next he => simp [he, Received.item?] at h
  · next he =>
    simp only [he, Received.item?, Option.some.injEq] at h ⊢
    rw [← h]
  · next he =>
    simp only [he, Received.item?, Option.some.injEq] at h ⊢
    rw [← h]

/-- Whatever frame is read off a stream was read where it stands. -/
theorem read_of_mem_takeAll {value : α} (h : .ok value ∈ (takeAll read shrinks bytes).1) :
    ∃ front rest, read front = (.frame value, rest) := by
  fun_induction takeAll read shrinks bytes with
  | case1 bytes rest hread => simp at h
  | case2 bytes first rest hread hshort received tail hrest ih =>
    rw [hrest] at ih
    rcases List.mem_cons.1 h with he | hmem
    · cases he
      exact ⟨_, _, hread⟩
    · exact ih hmem
  | case3 bytes error rest hread hshort received tail hrest ih =>
    rw [hrest] at ih
    rcases List.mem_cons.1 h with he | hmem
    · cases he
    · exact ih hmem

theorem read_takeAll_snd (bytes : Bytes) : (read (takeAll read shrinks bytes).2).1 = .ended := by
  fun_induction takeAll read shrinks bytes with
  | case1 bytes rest hread => rw [hread]
  | case2 bytes value rest hread hshort received tail hrest ih => rwa [hrest] at ih
  | case3 bytes error rest hread hshort received tail hrest ih => rwa [hrest] at ih

theorem takeAll_flatMap {write : α → Bytes} {items : List α}
    (hread : ∀ item ∈ items, ∀ rest, read (write item ++ rest) = (.frame item, rest))
    (hended : (read []).1 = .ended) :
    takeAll read shrinks (items.flatMap write) = (items.map .ok, []) := by
  induction items with
  | nil => exact takeAll_ended hended
  | cons item items ih =>
    obtain ⟨hitem, hitems⟩ := List.forall_mem_cons.1 hread
    have hfirst := hitem (items.flatMap write)
    have hfound : (read (write item ++ items.flatMap write)).1.item? = some (.ok item) := by
      rw [hfirst]
      rfl
    rw [List.flatMap_cons, takeAll_item hfound, hfirst, ih hitems]
    rfl

end Any

section Requests

variable {d : Delimiters}

def Request.header (r : Request) : RequestHeader := ⟨r.code, r.client, r.body.length⟩

theorem Request.encode_eq (d : Delimiters) (r : Request) :
    r.encode d = Text.encode (r.header.encode d) ++ d.entry :: r.body := rfl

theorem takeRequests_ended {bytes : Bytes} (h : (readRequest d bytes).1 = .ended) :
    takeRequests d bytes = ([], bytes) :=
  takeAll_ended h

theorem takeRequests_item {bytes : Bytes} {item : Except HeaderError Request}
    (h : (readRequest d bytes).1.item? = some item) :
    takeRequests d bytes = (item :: (takeRequests d (readRequest d bytes).2).1,
      (takeRequests d (readRequest d bytes).2).2) :=
  takeAll_item h

theorem RequestHeader.parse_encode {h : RequestHeader} (hcode : d.fieldChar ∉ h.code.toList)
    (hclient : d.fieldChar ∉ h.client.toList) (hdigits : d.fieldChar ∉ h.length.repr.toList)
    (hlength : h.length < UInt64.size) : parse d (h.encode d) = .ok h := by
  have hfields : d.fields (h.encode d) = [h.code, h.client, h.length.repr] := by
    refine Delimiters.fields_joinFields (by simp) ?_
    simp only [List.mem_cons, List.not_mem_nil, or_false]
    rintro f (rfl | rfl | rfl) <;> assumption
  simp only [parse, hfields, parseLength, Text.Numeral.length?_repr hlength]
  rfl

theorem toList_encode_header (h : RequestHeader) : (h.encode d).toList =
    h.code.toList ++ d.fieldChar :: (h.client.toList ++ d.fieldChar :: h.length.repr.toList) := by
  rw [RequestHeader.encode, Delimiters.joinFields, Text.toList_join_cons, Text.toList_join_cons,
    Text.toList_join_singleton]

theorem readRequest_encode {r : Request} (hentry : d.entry ∉ Text.encode (r.header.encode d))
    (hline : (Text.encode (r.header.encode d)).length ≤ maxHeaderLength)
    (hparse : RequestHeader.parse d (r.header.encode d) = .ok r.header) (rest : Bytes) :
    readRequest d (r.encode d ++ rest) = (.frame r, rest) := by
  have hheader := (bind_decodeHeader_encode (RequestHeader.parse d) hline).trans hparse
  rw [Request.encode_eq, List.append_assoc]
  exact readFrame_frame hentry hheader rfl

/-- A header that was read, however it was written, keeps to itself what it is written as: the
same fields, and a length that is no longer and has no digit that was not there. -/
theorem RequestHeader.canonical {text : String} {h : RequestHeader}
    (hparse : RequestHeader.parse d text = .ok h) :
    (h.encode d).toList.Sublist text.toList ∧ parse d (h.encode d) = .ok h := by
  unfold parse at hparse
  split at hparse
  · next code client length more hfields =>
    unfold parseLength at hparse
    split at hparse
    · next n hn =>
      cases hparse
      have hfree : ∀ f ∈ d.fields text, d.fieldChar ∉ f.toList := fun _ => Text.not_mem_of_mem_split
      have hdigits := Text.Numeral.repr_sublist_of_length? hn
      have htext : text.toList = code.toList ++ d.fieldChar ::
          (client.toList ++ d.fieldChar :: (d.joinFields (length :: more)).toList) := by
        rw [← Delimiters.joinFields_fields d text, hfields, Delimiters.joinFields,
          Text.toList_join_cons, Text.toList_join_cons]
        rfl
      rw [hfields] at hfree
      constructor
      · rw [htext, toList_encode_header]
        have hlength := hdigits.trans (Text.prefix_join d.fieldChar length more).sublist
        exact (List.Sublist.refl _).append
          (((List.Sublist.refl _).append (hlength.cons_cons _)).cons_cons _)
      · refine parse_encode (hfree _ (by simp)) (hfree _ (by simp)) ?_ ?_
        · exact fun hmem => hfree length (by simp) (hdigits.subset hmem)
        · exact (Text.Numeral.length?_eq_some_iff.1 hn).2
    · cases hparse
  · cases hparse

/-- A request read from any header is written as a frame that is read as the same request. -/
theorem readRequest_again {bytes rest : Bytes} {r : Request}
    (h : readRequest d bytes = (.frame r, rest)) (more : Bytes) :
    readRequest d (r.encode d ++ more) = (.frame r, more) := by
  obtain ⟨line, header, payload, -, hline, hheader, hlength, hr⟩ := readFrame_eq_frame h
  obtain ⟨text, htext, hparse⟩ : ∃ text, decodeHeader line = .ok text ∧
      RequestHeader.parse d text = .ok header := by
    cases hd : decodeHeader line with
    | error e => simp [hd, Except.bind] at hheader
    | ok text => exact ⟨text, rfl, by simpa [hd, Except.bind] using hheader⟩
  obtain ⟨rfl, hlen⟩ := decodeHeader_eq_ok htext
  obtain ⟨hsub, hagain⟩ := RequestHeader.canonical hparse
  have hsame : r.header = header := by
    rw [hr, Request.header, ← hlength]
  have hbytes := Text.encode_sublist hsub
  rw [← hsame] at hagain hbytes
  exact readRequest_encode (fun hmem => hline (hbytes.subset hmem))
    (Nat.le_trans hbytes.length_le hlen) hagain more

/-- What a sender of frames keeps to: names without separators, a header line within the limit,
and a body whose length is a 64-bit number. -/
structure Request.Fits (d : Delimiters) (r : Request) : Prop where
  code : d.fieldChar ∉ r.code.toList ∧ d.entryChar ∉ r.code.toList
  client : d.fieldChar ∉ r.client.toList ∧ d.entryChar ∉ r.client.toList
  line : (Text.encode (r.header.encode d)).length ≤ maxHeaderLength
  body : r.body.length < UInt64.size

instance (d : Delimiters) (r : Request) : Decidable (r.Fits d) :=
  decidable_of_iff ((d.fieldChar ∉ r.code.toList ∧ d.entryChar ∉ r.code.toList) ∧
      (d.fieldChar ∉ r.client.toList ∧ d.entryChar ∉ r.client.toList) ∧
      (Text.encode (r.header.encode d)).length ≤ maxHeaderLength ∧ r.body.length < UInt64.size)
    ⟨fun ⟨code, client, line, body⟩ => ⟨code, client, line, body⟩,
      fun h => ⟨h.code, h.client, h.line, h.body⟩⟩

theorem RequestHeader.entry_not_mem (hd : d.Framing) {h : RequestHeader}
    (hcode : d.entryChar ∉ h.code.toList) (hclient : d.entryChar ∉ h.client.toList) :
    d.entry ∉ Text.encode (h.encode d) := by
  rw [Text.mem_encode_iff hd.entry_ascii, toList_encode_header]
  change d.entryChar ∉ _
  simp only [List.mem_append, List.mem_cons, not_or]
  exact ⟨hcode, hd.entryChar_ne_fieldChar, hclient, hd.entryChar_ne_fieldChar,
    Text.Numeral.not_mem_repr hd.entry_not_digit _⟩

theorem readRequest_tooLong {r : Request} (hentry : d.entry ∉ Text.encode (r.header.encode d))
    (hlong : maxHeaderLength < (Text.encode (r.header.encode d)).length) :
    readRequest d (r.encode d) = (.rejected .tooLong, r.body) := by
  have hheader : (decodeHeader (Text.encode (r.header.encode d))).bind (RequestHeader.parse d) =
      .error .tooLong := by
    rw [decodeHeader, if_pos hlong]
    rfl
  rw [Request.encode_eq]
  exact readFrame_rejected hentry hheader

namespace Request.Fits

theorem entry_not_mem (hd : d.Framing) {r : Request} (h : r.Fits d) :
    d.entry ∉ Text.encode (r.header.encode d) :=
  RequestHeader.entry_not_mem hd h.code.2 h.client.2

theorem parse_header (hd : d.Framing) {r : Request} (h : r.Fits d) :
    RequestHeader.parse d (r.header.encode d) = .ok r.header := by
  have hlength : r.header.length < UInt64.size := by
    rw [Request.header]
    exact h.body
  exact RequestHeader.parse_encode h.code.1 h.client.1
    (Text.Numeral.not_mem_repr hd.field_not_digit _) hlength

theorem readRequest (hd : d.Framing) {r : Request} (h : r.Fits d) (rest : Bytes) :
    Frame.readRequest d (r.encode d ++ rest) = (.frame r, rest) :=
  readRequest_encode (h.entry_not_mem hd) h.line (h.parse_header hd) rest

end Request.Fits

end Requests

section Responses

variable {d : Delimiters}

def Response.header (r : Response) : ResponseHeader := ⟨r.status, r.message.length⟩

theorem Response.encode_eq (d : Delimiters) (r : Response) :
    r.encode d = Text.encode (r.header.encode d) ++ d.entry :: r.message := rfl

theorem Status.ofNumber?_number (s : Status) :
    (Text.Numeral.uint16? s.number.repr).bind (Status.ofNumber? ·.toNat) = some s := by
  cases s <;> decide

theorem ResponseHeader.parse_encode (hd : d.Framing) {h : ResponseHeader}
    (hlength : h.length < UInt64.size) : parse d (h.encode d) = .ok h := by
  have hfields : d.fields (h.encode d) = [h.status.number.repr, h.length.repr] := by
    refine Delimiters.fields_joinFields (by simp) ?_
    simp only [List.mem_cons, List.not_mem_nil, or_false]
    rintro f (rfl | rfl) <;> exact Text.Numeral.not_mem_repr hd.field_not_digit _
  simp only [parse, hfields, Status.ofNumber?_number, parseLength,
    Text.Numeral.length?_repr hlength]
  rfl

theorem ResponseHeader.entry_not_mem (hd : d.Framing) (h : ResponseHeader) :
    d.entry ∉ Text.encode (h.encode d) := by
  rw [Text.mem_encode_iff hd.entry_ascii]
  change d.entryChar ∉ _
  rw [encode, Delimiters.joinFields, Text.toList_join_cons, Text.toList_join_singleton]
  simp only [List.mem_append, List.mem_cons, not_or]
  exact ⟨Text.Numeral.not_mem_repr hd.entry_not_digit _, hd.entryChar_ne_fieldChar,
    Text.Numeral.not_mem_repr hd.entry_not_digit _⟩

theorem ResponseHeader.length_encode_le (d : Delimiters) {h : ResponseHeader}
    (hlength : h.length < UInt64.size) :
    (Text.encode (h.encode d)).length ≤ maxHeaderLength := by
  have hstatus : h.status.number.repr.toList.length = 3 := by
    cases h.status <;> decide
  have hdigits : h.length.repr.toList.length ≤ 20 := by
    rw [Nat.repr_eq_ofList_toDigits, String.toList_ofList,
      Nat.length_toDigits_le_iff (by decide) (by decide)]
    rw [UInt64.size] at hlength
    omega
  have hline : (h.encode d).toList.length = h.status.number.repr.toList.length +
      (h.length.repr.toList.length + 1) := by
    rw [encode, Delimiters.joinFields, Text.toList_join_cons, Text.toList_join_singleton,
      List.length_append, List.length_cons]
  have hbytes := Text.length_encode_le (h.encode d)
  have hmax : maxHeaderLength = 1024 := rfl
  omega

theorem readResponse_encode (hd : d.Framing) {r : Response}
    (hlength : r.message.length < UInt64.size) (rest : Bytes) :
    readResponse d (r.encode d ++ rest) = (.frame r, rest) := by
  have hsize : r.header.length < UInt64.size := by
    rw [Response.header]
    exact hlength
  have hline := ResponseHeader.length_encode_le d hsize
  have hheader := (bind_decodeHeader_encode (ResponseHeader.parse d) hline).trans
    (ResponseHeader.parse_encode hd hsize)
  rw [Response.encode_eq, List.append_assoc]
  exact readFrame_frame (r.header.entry_not_mem hd) hheader rfl

end Responses

end Frame
end CrawlCluster
