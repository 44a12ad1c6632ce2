import CrawlCluster.Proofs.Frame.Parts
import CrawlCluster.Proofs.Node.Forwarding

set_option autoImplicit false

namespace CrawlCluster.Node

open Coordinator (Site)

variable {σ ν : Type} {link : Link ν} {site : Site σ} {conn other : Connection}
variable {here : Placed σ ν} {received : Except Frame.HeaderError Frame.Request}
variable {all : List (Except Frame.HeaderError Frame.Request)}

def AsksNoPlace (received : Except Frame.HeaderError Frame.Request) : Prop :=
  ∀ req, received = .ok req → Frame.RequestKind.ofCode? req.code ≠ some .join

theorem handle_conn_of_ne_join {kind : Frame.RequestKind} (h : kind ≠ .join)
    (hip : conn.ownIp = other.ownIp) (req : Frame.Request) (node : Node σ) :
    node.handle site conn kind req = node.handle site other kind req := by
  cases kind with
  | join => exact absurd rfl h
  | listPeers => simp only [handle, hip]
  | _ => rfl

theorem respond_conn (hip : conn.ownIp = other.ownIp) (h : AsksNoPlace received) :
    respond link site conn here received = respond link site other here received := by
  cases received with
  | error error => rfl
  | ok req =>
    simp only [respond, dispatch]
    split
    · rfl
    · next kind hkind =>
      have hjoin : kind ≠ .join := fun he => h req rfl (he ▸ hkind)
      simp only [handle_conn_of_ne_join hjoin hip]

theorem respondAll_conn (hip : conn.ownIp = other.ownIp)
    (h : ∀ received ∈ all, AsksNoPlace received) :
    respondAll link site conn all here = respondAll link site other all here := by
  induction all generalizing here with
  | nil => rfl
  | cons received all ih =>
    simp only [respondAll, respond_conn hip (h received (by simp)),
      ih fun received hreceived => h received (by simp [hreceived])]

theorem respond_settings :
    (respond link site conn here received).2.node.settings = here.node.settings := by
  cases received with
  | error error => rfl
  | ok req =>
    simp only [respond, dispatch]
    split
    · rfl
    · split
      · rfl
      · exact (handle_kept site conn _ req here.node).1

theorem respondAll_settings :
    (respondAll link site conn all here).2.node.settings = here.node.settings := by
  induction all generalizing here with
  | nil => rfl
  | cons received all ih => exact ih.trans respond_settings

theorem length_respondAll : (respondAll link site conn all here).1.length = all.length := by
  induction all generalizing here with
  | nil => rfl
  | cons received all ih => exact congrArg (· + 1) ih

theorem respondAll_getElem? (i : Nat) :
    (respondAll link site conn all here).1[i]? = (all[i]?).map fun received =>
      (respond link site conn (respondAll link site conn (all.take i) here).2 received).1 := by
  induction all generalizing here i with
  | nil => simp [respondAll]
  | cons received all ih =>
    cases i with
    | zero => rfl
    | succ i => exact ih i

theorem serve_delimiters {bytes : Bytes} :
    (serve link site conn bytes here).2.node.delimiters = here.node.delimiters :=
  congrArg Coordinator.Settings.delimiters respondAll_settings

section Parts

variable {parts whole rest : List Frame.Part} {tail : Bytes}

theorem serve_parts (hparts : ∀ part ∈ parts, part.Complete here.node.delimiters)
    (htail : Frame.Truncated here.node.delimiters tail) :
    serve link site conn (parts.flatMap (·.bytes) ++ tail) here =
      ((respondAll link site conn (parts.map (·.received)) here).1.flatMap
          (·.encode here.node.delimiters),
        (respondAll link site conn (parts.map (·.received)) here).2) := by
  rw [serve, Frame.readRequests, Frame.Part.takeRequests_parts hparts htail]

theorem serve_conn (hip : conn.ownIp = other.ownIp)
    (hparts : ∀ part ∈ parts, part.Complete here.node.delimiters)
    (htail : Frame.Truncated here.node.delimiters tail)
    (hjoin : ∀ part ∈ parts, AsksNoPlace part.received) :
    serve link site conn (parts.flatMap (·.bytes) ++ tail) here =
      serve link site other (parts.flatMap (·.bytes) ++ tail) here := by
  have hasked : ∀ received ∈ parts.map (·.received), AsksNoPlace received := by
    intro received hreceived
    obtain ⟨part, hpart, rfl⟩ := List.mem_map.1 hreceived
    exact hjoin part hpart
  rw [serve_parts hparts htail, serve_parts hparts htail, respondAll_conn hip hasked]

/-- Nothing is carried over from one connection to the next. -/
theorem serve_append (hwhole : ∀ part ∈ whole, part.Complete here.node.delimiters)
    (hrest : ∀ part ∈ rest, part.Complete here.node.delimiters)
    (htail : Frame.Truncated here.node.delimiters tail) :
    let first := serve link site conn (whole.flatMap (·.bytes) ++ []) here
    let second := serve link site conn (rest.flatMap (·.bytes) ++ tail) first.2
    serve link site conn ((whole ++ rest).flatMap (·.bytes) ++ tail) here =
      (first.1 ++ second.1, second.2) := by
  intro first second
  have hfirst : first = _ := serve_parts hwhole (.line List.not_mem_nil)
  have hd : first.2.node.delimiters = here.node.delimiters := serve_delimiters
  have hsecond : second = _ := serve_parts (by rwa [hd]) (by rwa [hd])
  have hparts : ∀ part ∈ whole ++ rest, part.Complete here.node.delimiters := by
    intro part hpart
    exact (List.mem_append.1 hpart).elim (hwhole part) (hrest part)
  rw [serve_parts hparts htail, hsecond, hd, hfirst]
  simp only [List.map_append, respondAll_append, List.flatMap_append]

end Parts

/-- Any stream comes apart into frames, rejected header lines and a tail of neither. What a node
writes back is read as one response to each of the parts, in their order, each the answer of the
node as the parts before have left it, and nothing for the tail. If nobody asks to join, the parts
may as well come over two connections: the same is written, and all is left the same. Bytes are
counted in 64 bits. -/
theorem served_part_by_part (link : Link ν) (site : Site σ) {here : Placed σ ν}
    (hd : here.node.delimiters.Framing) :
    let d := here.node.delimiters
    (∀ bytes, ∃ (parts : List Frame.Part) (tail : Bytes), bytes = parts.flatMap (·.bytes) ++ tail ∧
      (∀ part ∈ parts, part.Complete d) ∧ Frame.Truncated d tail) ∧
    ∀ (parts : List Frame.Part) (tail : Bytes), (∀ part ∈ parts, part.Complete d) →
      Frame.Truncated d tail →
      let bytes := parts.flatMap (·.bytes) ++ tail
      (∀ conn, (serve link site conn bytes here).1.length < UInt64.size →
        ∃ answers : List Frame.Response,
          Frame.takeResponses d (serve link site conn bytes here).1 = (answers.map .ok, []) ∧
          answers.length = parts.length ∧
          ∀ (i : Nat) (part : Frame.Part), parts[i]? = some part →
            let before := respondAll link site conn ((parts.take i).map (·.received)) here
            answers[i]? = some (respond link site conn before.2 part.received).1) ∧
      ((∀ part ∈ parts, AsksNoPlace part.received) →
        ∀ (whole rest : List Frame.Part) (conn one another : Connection), parts = whole ++ rest →
          one.ownIp = conn.ownIp → another.ownIp = conn.ownIp →
          let first := serve link site one (whole.flatMap (·.bytes)) here
          let second := serve link site another (rest.flatMap (·.bytes) ++ tail) first.2
          serve link site conn bytes here = (first.1 ++ second.1, second.2)) := by
  intro d
  refine ⟨Frame.Part.exists_parts d, ?_⟩
  intro parts tail hparts htail bytes
  refine ⟨?_, ?_⟩
  · intro conn hsize
    rw [serve_parts hparts htail] at hsize ⊢
    refine ⟨_, Frame.takeResponses_encode hd fun answer hanswer =>
      Nat.lt_of_le_of_lt (length_message_le hanswer) hsize, ?_, ?_⟩
    · rw [length_respondAll, List.length_map]
    · intro i part hpart before
      rw [respondAll_getElem?, ← List.map_take, List.getElem?_map, hpart]
      rfl
  · rintro hjoin whole rest conn one another rfl hone hanother first second
    have hwhole : ∀ part ∈ whole, part.Complete d := fun part hpart =>
      hparts part (List.mem_append_left _ hpart)
    have hrest : ∀ part ∈ rest, part.Complete d := fun part hpart =>
      hparts part (List.mem_append_right _ hpart)
    have hfirst : first = serve link site conn (whole.flatMap (·.bytes) ++ []) here := by
      rw [← serve_conn hone hwhole (.line List.not_mem_nil) fun part hpart =>
        hjoin part (List.mem_append_left _ hpart), List.append_nil]
    have hleft : first.2.node.delimiters = d := serve_delimiters
    have hsecond : second =
        serve link site conn (rest.flatMap (·.bytes) ++ tail) first.2 :=
      serve_conn hanother (by rwa [hleft]) (by rwa [hleft]) fun part hpart =>
        hjoin part (List.mem_append_right _ hpart)
    rw [hsecond, hfirst]
    exact serve_append hwhole hrest htail

def fourParts : List Frame.Part :=
  [⟨Text.encode "gtip?w?0" ++ 10 :: [], .ok ⟨"gtip", "w", []⟩⟩,
    ⟨Text.encode "gtjb" ++ [10], .error .tooShort⟩,
    ⟨Text.encode "upjb?w?12" ++ 10 :: Text.encode "https://x?1\n",
      .ok ⟨"upjb", "w", Text.encode "https://x?1\n"⟩⟩,
    ⟨Text.encode "what? ? +1?" ++ 10 :: Text.encode "?", .ok ⟨"what", " ", Text.encode "?"⟩⟩]

theorem complete_fourParts : ∀ part ∈ fourParts, part.Complete {} := by
  simp only [fourParts, List.mem_cons, List.not_mem_nil, or_false, forall_eq_or_imp, forall_eq]
  exact ⟨
    @Frame.Part.Complete.frame _ _ _ ⟨"gtip", "w", 0⟩ (by decide) (by decide +kernel) (by decide),
    .rejected (by decide) (by decide +kernel),
    @Frame.Part.Complete.frame _ _ _ ⟨"upjb", "w", 12⟩ (by decide) (by decide +kernel) (by decide),
    @Frame.Part.Complete.frame _ _ _ ⟨"what", " ", 1⟩ (by decide) (by decide +kernel) (by decide)⟩

theorem served_part_by_part_asked :
    let here : Placed FaultyStore Network.World := ⟨onlyFollower, lone⟩
    let site := Coordinator.Settings.site 0 {}
    let tail := Text.encode "gtjb?w?9" ++ 10 :: Text.encode "gt"
    let bytes := fourParts.flatMap (·.bytes) ++ tail
    ({} : Delimiters).Framing ∧ (∀ part ∈ fourParts, part.Complete {}) ∧ Frame.Truncated {} tail ∧
      (∀ part ∈ fourParts, AsksNoPlace part.received) ∧
      (serve lone.link site caller bytes here).1.length < UInt64.size ∧
      (∃ answers : List Frame.Response,
        Frame.takeResponses {} (serve lone.link site caller bytes here).1 =
          (answers.map .ok, []) ∧ answers.length = fourParts.length) ∧
      let first := serve lone.link site caller ((fourParts.take 2).flatMap (·.bytes)) here
      let second :=
        serve lone.link site caller ((fourParts.drop 2).flatMap (·.bytes) ++ tail) first.2
      serve lone.link site caller bytes here = (first.1 ++ second.1, second.2) := by
  intro here site tail bytes
  have htail : Frame.Truncated {} tail :=
    @Frame.Truncated.payload _ _ _ ⟨"gtjb", "w", 9⟩ (by decide) (by decide +kernel) (by decide)
  have hjoin : ∀ part ∈ fourParts, AsksNoPlace part.received := by
    simp only [fourParts, AsksNoPlace, List.mem_cons, List.not_mem_nil, or_false, forall_eq_or_imp,
      forall_eq, Except.ok.injEq, reduceCtorEq, false_implies, implies_true, forall_eq']
    decide
  have hsize : (serve lone.link site caller bytes here).1.length < UInt64.size := by
    decide +kernel
  have hd : here.node.delimiters.Framing := Delimiters.framing_default
  obtain ⟨hanswers, hcut⟩ :=
    (served_part_by_part lone.link site hd).2 fourParts tail complete_fourParts htail
  obtain ⟨answers, hread, hlength, -⟩ := hanswers caller hsize
  exact ⟨hd, complete_fourParts, htail, hjoin, hsize, ⟨answers, hread, hlength⟩,
    hcut hjoin (fourParts.take 2) (fourParts.drop 2) caller caller caller rfl rfl rfl⟩

end CrawlCluster.Node
