import CrawlCluster.Proofs.Frame.Reading

set_option autoImplicit false

namespace CrawlCluster.Frame

variable {d : Delimiters}

/-- A header line that cannot be used, and why: the first reason in this order. -/
inductive Malformed (d : Delimiters) : Bytes → HeaderError → Prop where
  | tooLong {line : Bytes} (hlong : maxHeaderLength < line.length) : Malformed d line .tooLong
  | notUtf8 {line : Bytes} (hline : line.length ≤ maxHeaderLength)
    (hdecode : Text.decode? line = none) : Malformed d line .notUtf8
  | tooShort {line : Bytes} {text : String} (hline : line.length ≤ maxHeaderLength)
    (hdecode : Text.decode? line = some text) (hfields : (d.fields text).length < 3) :
    Malformed d line .tooShort
  | invalidLength {line : Bytes} {text code client length : String} {more : List String}
    (hline : line.length ≤ maxHeaderLength) (hdecode : Text.decode? line = some text)
    (hfields : d.fields text = code :: client :: length :: more)
    (hlength : Text.Numeral.length? (Text.trim length) = none) :
    Malformed d line (.invalidLength length)

/-- Something sent on a connection. -/
inductive Item where
  | request (r : Request)
  | malformed (line : Bytes) (error : HeaderError)
  deriving DecidableEq, Repr

namespace Item

def bytes (d : Delimiters) : Item → Bytes
  | .request r => r.encode d
  | .malformed line _ => line ++ [d.entry]

def result : Item → Except HeaderError Request
  | .request r => .ok r
  | .malformed _ error => .error error

def Legal (d : Delimiters) : Item → Prop
  | .request r => r.Fits d
  | .malformed line error => d.entry ∉ line ∧ Malformed d line error

end Item

def stream (d : Delimiters) (items : List Item) : Bytes := items.flatMap (Item.bytes d)

theorem Malformed.rejected {line : Bytes} {error : HeaderError} (h : Malformed d line error) :
    (decodeHeader line).bind (RequestHeader.parse d) = .error error := by
  cases h with
  | tooLong hlong => simp [decodeHeader, hlong, Except.bind]
  | notUtf8 hline hdecode => simp [decodeHeader, Nat.not_lt.2 hline, hdecode, Except.bind]
  | tooShort hline hdecode hfields =>
    simp only [decodeHeader, Nat.not_lt.2 hline, if_false, hdecode, Except.bind,
      RequestHeader.parse]
    split
    · next he =>
      rw [he] at hfields
      simp only [List.length_cons] at hfields
      omega
    · rfl
  | invalidLength hline hdecode hfields hlength =>
    simp [decodeHeader, Nat.not_lt.2 hline, hdecode, Except.bind, RequestHeader.parse, hfields,
      parseLength, hlength, Except.map]

namespace Request.Fits

/-- A cut within the header leaves no end of a line, a cut behind it too little of the body. -/
theorem readRequest_take (hd : d.Framing) {r : Request} (h : r.Fits d) {n : Nat}
    (hn : n < (r.encode d).length) : (Frame.readRequest d ((r.encode d).take n)).1 = .ended := by
  have hline := h.entry_not_mem hd
  rw [Request.encode_eq] at hn ⊢
  by_cases hheader : n ≤ (Text.encode (r.header.encode d)).length
  · rw [List.take_append_of_le_length hheader]
    exact congrArg Prod.fst (readFrame_open fun hmem => hline (List.mem_of_mem_take hmem))
  · obtain ⟨m, rfl⟩ := Nat.exists_eq_add_of_lt (Nat.not_le.1 hheader)
    rw [List.length_append, List.length_cons] at hn
    have hshort : (r.body.take m).length < r.body.length := by
      rw [List.length_take]
      omega
    rw [Nat.add_assoc, List.take_length_add_append, List.take_succ_cons]
    have hparse := (bind_decodeHeader_encode (RequestHeader.parse d) h.line).trans
      (h.parse_header hd)
    exact congrArg Prod.fst (readFrame_short hline hparse hshort)

end Request.Fits

namespace Item

variable {item : Item}

theorem Legal.read (hd : d.Framing) (h : item.Legal d) (rest : Bytes) :
    (readRequest d (item.bytes d ++ rest)).1.item? = some item.result ∧
      (readRequest d (item.bytes d ++ rest)).2 = rest := by
  cases item with
  | request r =>
    rw [bytes, Request.Fits.readRequest hd h rest]
    exact ⟨rfl, rfl⟩
  | malformed line error =>
    obtain ⟨hentry, hmalformed⟩ := h
    have hread : readRequest d (line ++ d.entry :: rest) = (.rejected error, rest) :=
      readFrame_rejected hentry hmalformed.rejected
    rw [bytes, List.append_assoc, List.singleton_append, hread]
    exact ⟨rfl, rfl⟩

theorem Legal.read_take (hd : d.Framing) (h : item.Legal d) {n : Nat}
    (hn : n < (item.bytes d).length) : (readRequest d ((item.bytes d).take n)).1 = .ended := by
  cases item with
  | request r => exact Request.Fits.readRequest_take hd h hn
  | malformed line error =>
    rw [bytes, List.length_append, List.length_singleton] at hn
    rw [bytes, List.take_append_of_le_length (by omega)]
    exact congrArg Prod.fst (readFrame_open fun hmem => h.1 (List.mem_of_mem_take hmem))

theorem Legal.takeRequests (hd : d.Framing) (h : item.Legal d) (rest : Bytes) :
    Frame.takeRequests d (item.bytes d ++ rest) =
      (item.result :: (Frame.takeRequests d rest).1, (Frame.takeRequests d rest).2) := by
  obtain ⟨hresult, hrest⟩ := h.read hd rest
  rw [takeRequests_item hresult, hrest]

end Item

/-- Wherever a stream is cut, it is read as the items that are complete before the cut, and behind
the last of them nothing more is found. -/
theorem takeRequests_take (hd : d.Framing) {items : List Item}
    (hitems : ∀ item ∈ items, item.Legal d) (n : Nat) :
    ∃ whole rest, items = whole ++ rest ∧ (stream d whole).length ≤ n ∧
      (∀ item ∈ rest.head?, n < (stream d (whole ++ [item])).length) ∧
      takeRequests d ((stream d items).take n) =
        (whole.map Item.result, ((stream d items).take n).drop (stream d whole).length) ∧
      (readRequest d (((stream d items).take n).drop (stream d whole).length)).1 = .ended := by
  induction items generalizing n with
  | nil =>
    have hended : (readRequest d []).1 = .ended := congrArg Prod.fst (readFrame_open (by simp))
    refine ⟨[], [], rfl, Nat.zero_le n, by simp, ?_, ?_⟩ <;>
      rw [stream, List.flatMap_nil, List.take_nil]
    · exact takeRequests_ended hended
    · exact hended
  | cons item items ih =>
    have hitem := hitems item (by simp)
    have hstream : stream d (item :: items) = item.bytes d ++ stream d items := List.flatMap_cons
    rcases Nat.lt_or_ge n (item.bytes d).length with hn | hn
    · have hended := hitem.read_take hd hn
      refine ⟨[], item :: items, rfl, Nat.zero_le n, ?_, ?_, ?_⟩
      · simpa [stream] using hn
      · rw [hstream, List.take_append_of_le_length (Nat.le_of_lt hn)]
        exact takeRequests_ended hended
      · rw [hstream, List.take_append_of_le_length (Nat.le_of_lt hn)]
        exact hended
    · obtain ⟨m, rfl⟩ := Nat.exists_eq_add_of_le hn
      obtain ⟨whole, rest, rfl, hwhole, hrest, hread, hended⟩ :=
        ih (fun other hother => hitems other (by simp [hother])) m
      have hfirst : ∀ more, stream d (item :: more) = item.bytes d ++ stream d more := fun _ =>
        List.flatMap_cons
      refine ⟨item :: whole, rest, rfl, ?_, ?_, ?_, ?_⟩
      · rw [hfirst, List.length_append]
        omega
      · intro other hother
        have hlength := hrest other hother
        rw [List.cons_append, hfirst, List.length_append]
        omega
      · rw [hfirst, hfirst, List.take_length_add_append, hitem.takeRequests hd, hread,
          List.length_append, List.drop_length_add_append]
        rfl
      · rw [hfirst, hfirst, List.take_length_add_append, List.length_append,
          List.drop_length_add_append]
        exact hended

theorem takeRequests_stream (hd : d.Framing) {items : List Item}
    (hitems : ∀ item ∈ items, item.Legal d) :
    takeRequests d (stream d items) = (items.map Item.result, []) := by
  obtain ⟨whole, rest, rfl, -, hrest, hread, -⟩ :=
    takeRequests_take hd hitems (stream d items).length
  cases rest with
  | nil =>
    rw [List.append_nil] at hread ⊢
    rwa [List.take_length, List.drop_length] at hread
  | cons item rest =>
    have hcut := hrest item rfl
    simp only [stream, List.flatMap_append, List.flatMap_cons, List.flatMap_nil, List.append_nil,
      List.length_append] at hcut
    omega

/-- A stream of requests and of header lines that cannot be used is read as one result for each:
the request as it was sent, or the error its line deserves. Cut anywhere, it is read as the items
complete before the cut, and then has ended. -/
theorem reading_resynchronises {d : Delimiters} (hd : d.Framing) {items : List Item}
    (hitems : ∀ item ∈ items, item.Legal d) :
    takeRequests d (stream d items) = (items.map Item.result, []) ∧
      ∀ n, ∃ whole rest, items = whole ++ rest ∧ (stream d whole).length ≤ n ∧
        (∀ item ∈ rest.head?, n < (stream d (whole ++ [item])).length) ∧
        let left := ((stream d items).take n).drop (stream d whole).length
        takeRequests d ((stream d items).take n) = (whole.map Item.result, left) ∧
          (readRequest d left).1 = .ended :=
  ⟨takeRequests_stream hd hitems, takeRequests_take hd hitems⟩

def mixed : List Item :=
  [.malformed (Text.encode "gtjb?c") .tooShort,
    .request ⟨"upjb", "c", Text.encode "a?1?2\ngtip?c?0\n"⟩,
    .malformed (List.replicate 1025 120) .tooLong, .malformed [0xFF] .notUtf8,
    .request ⟨"gtjb", "c", []⟩, .malformed (Text.encode "gtjb?c?nope") (.invalidLength "nope")]

/-- The cut falls into the second frame's body, at what looks like a header of its own. -/
theorem reading_resynchronises_mixed :
    ({} : Delimiters).Framing ∧ (∀ item ∈ mixed, item.Legal {}) ∧
      takeRequests {} (stream {} mixed) = (mixed.map Item.result, []) ∧
      ∃ whole rest, mixed = whole ++ rest ∧ (stream {} whole).length ≤ 25 ∧
        (∀ item ∈ rest.head?, 25 < (stream {} (whole ++ [item])).length) ∧
        let left := ((stream {} mixed).take 25).drop (stream {} whole).length
        takeRequests {} ((stream {} mixed).take 25) = (whole.map Item.result, left) ∧
          (readRequest {} left).1 = .ended := by
  have hlegal : ∀ item ∈ mixed, item.Legal {} := by
    simp only [mixed, List.mem_cons, List.not_mem_nil, or_false, forall_eq_or_imp, forall_eq]
    refine ⟨⟨by decide, .tooShort (by decide) (Text.decode?_encode _) (by decide)⟩,
      ⟨by decide, by decide, by decide, by decide⟩,
      ⟨by decide +kernel, .tooLong (by decide +kernel)⟩,
      ⟨by decide, .notUtf8 (by decide) (by decide)⟩, ⟨by decide, by decide, by decide, by decide⟩,
      ⟨by decide, ?_⟩⟩
    exact .invalidLength (by decide) (Text.decode?_encode _) rfl (by decide)
  obtain ⟨hread, hcut⟩ := reading_resynchronises Delimiters.framing_default hlegal
  exact ⟨Delimiters.framing_default, hlegal, hread, hcut 25⟩

end CrawlCluster.Frame
