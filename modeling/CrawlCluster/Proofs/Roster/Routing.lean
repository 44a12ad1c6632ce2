import CrawlCluster.Proofs.Roster.RoundTrip

/-!
An attempt to join, dial by dial. Redirects make a route from the peer asked first to the one that
settles the matter; an answer that is no redirect ends it, and so does the bound on the dials. Main
statements: `joinFrom_concludes`, that every attempt goes along such a route and dials nobody else,
and `Concludes.joinFrom`, that where a route ends is what comes of the attempt.
-/

set_option autoImplicit false

namespace CrawlCluster

/-- The same network, with the peers dialled put down. -/
def Link.recording {ν : Type} (link : Link ν) : Link (ν × List Peer) where
  exchange peer frame here :=
    let (reply, net) := link.exchange peer frame here.1
    (reply, net, here.2 ++ [peer])

namespace Roster

section Replies

variable {d : Delimiters} {me : Peer} {reply : Reply} {answer : JoinAnswer} {rest : Bytes}
variable {error : JoinError}

/-- A response that reports success and holds an answer, with what came behind it. -/
inductive Says (d : Delimiters) : Reply → JoinAnswer → Bytes → Prop where
  | response {bytes rest : Bytes} {closed : Bool} {response : Frame.Response} {answer : JoinAnswer}
    (hread : Frame.readResponse d bytes = (.frame response, rest))
    (hsuccess : response.status = .success)
    (hparse : JoinAnswer.parse d response.text = .ok answer) :
      Says d (.bytes bytes closed) answer rest

/-- What ends an attempt at once: nobody is there, nothing comes, or what comes is not a response,
reports no success, cannot be read as an answer, or names the one who asks. -/
inductive Spoils (d : Delimiters) (me : Peer) : Reply → JoinError → Prop where
  | unreachable : Spoils d me .refused .unreachable
  | disconnected {bytes rest : Bytes} (hread : Frame.readResponse d bytes = (.ended, rest)) :
      Spoils d me (.bytes bytes true) .disconnected
  | silent {bytes rest : Bytes} (hread : Frame.readResponse d bytes = (.ended, rest)) :
      Spoils d me (.bytes bytes false) .timeout
  | badHeader {bytes rest : Bytes} {closed : Bool} {error : Frame.HeaderError}
    (hread : Frame.readResponse d bytes = (.rejected error, rest)) :
      Spoils d me (.bytes bytes closed) (.invalidFrame error)
  | refused {bytes rest : Bytes} {closed : Bool} {response : Frame.Response}
    (hread : Frame.readResponse d bytes = (.frame response, rest))
    (hstatus : response.status ≠ .success) :
      Spoils d me (.bytes bytes closed) (.refused response.text)
  | malformed {bytes rest : Bytes} {closed : Bool} {response : Frame.Response}
    {error : MessageError} (hread : Frame.readResponse d bytes = (.frame response, rest))
    (hsuccess : response.status = .success)
    (hparse : JoinAnswer.parse d response.text = .error error) :
      Spoils d me (.bytes bytes closed) (.invalidAnswer error)
  | ownName {reply : Reply} {rest : Bytes} (hheard : Says d reply (.redirect me) rest) :
      Spoils d me reply .redirectedToSelf

theorem Says.read (h : Says d reply answer rest) : readAnswer d reply = .ok (answer, rest) := by
  cases h with
  | response hread hsuccess hparse =>
    rw [readAnswer_frame hread, if_pos (by simp [Frame.Response.isSuccess, hsuccess]), hparse]

theorem Spoils.read (h : Spoils d me reply error) : readAnswer d reply = .error error ∨
    error = .redirectedToSelf ∧ ∃ rest, readAnswer d reply = .ok (.redirect me, rest) := by
  cases h with
  | unreachable => exact .inl rfl
  | disconnected hread | silent hread | badHeader hread =>
    refine .inl ?_
    rw [readAnswer, readReply, hread]
    rfl
  | refused hread hstatus =>
    refine .inl ?_
    rw [readAnswer_frame hread, if_neg (by simpa [Frame.Response.isSuccess] using hstatus)]
  | malformed hread hsuccess hparse =>
    refine .inl ?_
    rw [readAnswer_frame hread, if_pos (by simp [Frame.Response.isSuccess, hsuccess]), hparse]
  | ownName hheard => exact .inr ⟨rfl, _, hheard.read⟩

/-- Whatever comes back takes the one who asks in, sends it elsewhere, or spoils the attempt. -/
theorem heard_or_spoilt (d : Delimiters) (me : Peer) (reply : Reply) :
    (∃ you members rest, Says d reply (.accepted you members) rest) ∨
      (∃ leader rest, Says d reply (.redirect leader) rest ∧ leader ≠ me) ∨
      ∃ error, Spoils d me reply error := by
  cases reply with
  | refused => exact .inr (.inr ⟨_, .unreachable⟩)
  | bytes bytes closed =>
    match hread : Frame.readResponse d bytes with
    | (.ended, _) =>
      cases closed with
      | true => exact .inr (.inr ⟨_, .disconnected hread⟩)
      | false => exact .inr (.inr ⟨_, .silent hread⟩)
    | (.rejected error, _) => exact .inr (.inr ⟨_, .badHeader hread⟩)
    | (.frame response, rest) =>
      by_cases hsuccess : response.status = .success
      · cases hparse : JoinAnswer.parse d response.text with
        | error error => exact .inr (.inr ⟨_, .malformed hread hsuccess hparse⟩)
        | ok answer =>
          have hheard : Says d (.bytes bytes closed) answer rest := .response hread hsuccess hparse
          cases answer with
          | accepted you members => exact .inl ⟨you, members, rest, hheard⟩
          | redirect leader =>
            by_cases hleader : leader = me
            · exact .inr (.inr ⟨_, .ownName (hleader ▸ hheard)⟩)
            · exact .inr (.inl ⟨leader, rest, hheard, hleader⟩)
      · exact .inr (.inr ⟨_, .refused hread hsuccess⟩)

end Replies

variable {ν : Type} (link : Link ν) (d : Delimiters) (me : Peer)

def ask (target : Peer) (net : ν) : Reply × ν := link.exchange target (joinRequest d me) net

/-- Redirects that lead from the peer asked first, by way of others, to the last. -/
inductive Route : Peer → ν → List Peer → Peer → ν → Prop where
  | here (target : Peer) (net : ν) : Route target net [] target net
  | hop {target leader last : Peer} {net after : ν} {via : List Peer} {rest : Bytes}
    (hheard : Says d (ask link d me target net).1 (.redirect leader) rest) (hother : leader ≠ me)
    (onward : Route leader (ask link d me target net).2 via last after) :
      Route target net (target :: via) last after

/-- Whom an attempt dials that may make so many dials, and what comes of it. -/
inductive Concludes (dials : Nat) (target : Peer) (net : ν) :
    List Peer → Except JoinError Joined × ν → Prop where
  | accepted {via members : List Peer} {last you : Peer} {mid : ν} {rest : Bytes}
    (hroute : Route link d me target net via last mid) (hvia : via.length < dials)
    (hheard : Says d (ask link d me last mid).1 (.accepted you members) rest) :
      Concludes dials target net (via ++ [last])
        (.ok { leader := last, you, members, rest }, (ask link d me last mid).2)
  | spoilt {via : List Peer} {last : Peer} {mid : ν} {error : JoinError}
    (hroute : Route link d me target net via last mid) (hvia : via.length < dials)
    (hspoils : Spoils d me (ask link d me last mid).1 error) :
      Concludes dials target net (via ++ [last]) (.error error, (ask link d me last mid).2)
  | exhausted {via : List Peer} {last : Peer} {mid : ν}
    (hroute : Route link d me target net via last mid) (hvia : via.length = dials) :
      Concludes dials target net via (.error .tooManyRedirects, mid)

variable {link d me} {dials : Nat} {target leader you : Peer} {net after : ν}
variable {members dialled : List Peer} {rest : Bytes} {error : JoinError}
variable {outcome : Except JoinError Joined × ν}

theorem joinFrom_accepted
    (hheard : Says d (ask link d me target net).1 (.accepted you members) rest) :
    joinFrom link d me (dials + 1) target net =
      (.ok { leader := target, you, members, rest }, (ask link d me target net).2) := by
  have hread := hheard.read
  rw [ask] at hread
  simp only [joinFrom, hread, ask]

theorem joinFrom_redirected (hheard : Says d (ask link d me target net).1 (.redirect leader) rest)
    (hother : leader ≠ me) :
    joinFrom link d me (dials + 1) target net =
      joinFrom link d me dials leader (ask link d me target net).2 := by
  have hread := hheard.read
  rw [ask] at hread
  simp only [joinFrom, hread, if_neg hother, ask]

theorem joinFrom_spoilt (hspoils : Spoils d me (ask link d me target net).1 error) :
    joinFrom link d me (dials + 1) target net = (.error error, (ask link d me target net).2) := by
  have hread := hspoils.read
  rw [ask] at hread
  rcases hread with hread | ⟨rfl, rest, hread⟩
  · simp only [joinFrom, hread, ask]
  · simp only [joinFrom, hread, if_true, ask]

/-- Every redirect costs one dial. -/
theorem Route.joinFrom {via : List Peer} {last : Peer} {mid : ν}
    (h : Route link d me target net via last mid) (left : Nat) :
    joinFrom link d me (via.length + left) target net = joinFrom link d me left last mid := by
  induction h with
  | here => rw [List.length_nil, Nat.zero_add]
  | hop hheard hother _ ih =>
    rw [List.length_cons, Nat.add_right_comm, joinFrom_redirected hheard hother, ih]

theorem Concludes.joinFrom (h : Concludes link d me dials target net dialled outcome) :
    joinFrom link d me dials target net = outcome := by
  cases h with
  | accepted hroute hvia hheard =>
    obtain ⟨left, rfl⟩ := Nat.exists_eq_add_of_lt hvia
    rw [Nat.add_assoc, hroute.joinFrom, joinFrom_accepted hheard]
  | spoilt hroute hvia hspoils =>
    obtain ⟨left, rfl⟩ := Nat.exists_eq_add_of_lt hvia
    rw [Nat.add_assoc, hroute.joinFrom, joinFrom_spoilt hspoils]
  | exhausted hroute hvia =>
    rw [← hvia, ← Nat.add_zero (List.length _), hroute.joinFrom]
    rfl

theorem Concludes.redirected
    (h : Concludes link d me dials leader (ask link d me target net).2 dialled outcome)
    (hheard : Says d (ask link d me target net).1 (.redirect leader) rest) (hother : leader ≠ me) :
    Concludes link d me (dials + 1) target net (target :: dialled) outcome := by
  cases h with
  | accepted hroute hvia hlast =>
    exact .accepted (.hop hheard hother hroute) (Nat.succ_lt_succ hvia) hlast
  | spoilt hroute hvia hlast =>
    exact .spoilt (.hop hheard hother hroute) (Nat.succ_lt_succ hvia) hlast
  | exhausted hroute hvia => exact .exhausted (.hop hheard hother hroute) (congrArg Nat.succ hvia)

theorem Concludes.length_le (h : Concludes link d me dials target net dialled outcome) :
    dialled.length ≤ dials := by
  cases h with
  | accepted _ hvia _ | spoilt _ hvia _ =>
    rw [List.length_append, List.length_singleton]
    exact hvia
  | exhausted _ hvia => exact Nat.le_of_eq hvia

/-- An attempt goes along a route, and the peers it dials are those on it. -/
theorem joinFrom_concludes (link : Link ν) (d : Delimiters) (me : Peer) (dials : Nat)
    (target : Peer) (net : ν) :
    ∃ dialled, Concludes link d me dials target net dialled (joinFrom link d me dials target net) ∧
      ∀ earlier, joinFrom link.recording d me dials target (net, earlier) =
        ((joinFrom link d me dials target net).1, (joinFrom link d me dials target net).2,
          earlier ++ dialled) := by
  induction dials generalizing target net with
  | zero =>
    refine ⟨[], .exhausted (.here target net) rfl, fun earlier => ?_⟩
    rw [List.append_nil]
    rfl
  | succ dials ih =>
    have hroute : Route link d me target net [] target net := .here target net
    have hrecords (earlier : List Peer) : ask link.recording d me target (net, earlier) =
        ((ask link d me target net).1, (ask link d me target net).2, earlier ++ [target]) := rfl
    rcases heard_or_spoilt d me (ask link d me target net).1 with
      ⟨you, members, rest, hheard⟩ | ⟨leader, rest, hheard, hother⟩ | ⟨error, hspoils⟩
    · have hrecorded (earlier : List Peer) :
          Says d (ask link.recording d me target (net, earlier)).1 (.accepted you members) rest :=
        hheard
      refine ⟨[target], ?_, fun earlier => ?_⟩
      · rw [joinFrom_accepted hheard]
        exact .accepted hroute dials.succ_pos hheard
      · rw [joinFrom_accepted hheard, joinFrom_accepted (hrecorded earlier), hrecords]
    · have hrecorded (earlier : List Peer) :
          Says d (ask link.recording d me target (net, earlier)).1 (.redirect leader) rest := hheard
      obtain ⟨dialled, hconcludes, hsame⟩ := ih leader (ask link d me target net).2
      refine ⟨target :: dialled, ?_, fun earlier => ?_⟩
      · rw [joinFrom_redirected hheard hother]
        exact hconcludes.redirected hheard hother
      · rw [joinFrom_redirected hheard hother, joinFrom_redirected (hrecorded earlier) hother,
          hrecords, hsame, List.append_assoc, List.singleton_append]
    · have hrecorded (earlier : List Peer) :
          Spoils d me (ask link.recording d me target (net, earlier)).1 error := hspoils
      refine ⟨[target], ?_, fun earlier => ?_⟩
      · rw [joinFrom_spoilt hspoils]
        exact .spoilt hroute dials.succ_pos hspoils
      · rw [joinFrom_spoilt hspoils, joinFrom_spoilt (hrecorded earlier), hrecords]

end Roster
end CrawlCluster
