import CrawlCluster.Coordinator.Desk
import CrawlCluster.Proofs.Network.Order

set_option autoImplicit false

namespace CrawlCluster.Takeover

open Roster (Search)

variable {σ : Type}

namespace Loss

variable {l : Loss} {c : Crowd σ} {turn : Turn σ} {p : Peer} {stage : Stage} {search : Search}
variable {left : Nat}

/-- In these turns `p` dials the first, as its candidate, once that leads. -/
def Heeds (l : Loss) (c : Crowd σ) (turns : List (Turn σ)) (p : Peer) : Prop :=
  ∃ before turn after search left, turns = before ++ turn :: after ∧ turn.who = p ∧
    (c.run before).stage? p = some (.dials search (left + 1) l.first) ∧
    search.candidates.head? = some l.first ∧ (c.run before).Leads l.first

variable {turns : List (Turn σ)}

theorem not_past_of_run {first : Peer}
    (hstage : (c.run turns).stage? p = some (.dials search left first))
    (hmem : first ∈ search.candidates) (hp : c.stage? p = some stage) :
    ¬ (stage.Ended ∨ stage.Stray first) := by
  induction turns generalizing c stage with
  | nil =>
    obtain rfl := Option.some.inj (hp.symm.trans hstage)
    exact not_or.2 ⟨id, not_not.2 hmem⟩
  | cons turn turns ih =>
    intro hpast
    obtain ⟨later, hlater, hgoes⟩ := Crowd.stage?_goes turn hp
    exact ih hstage hlater (Stage.past_goes hpast hgoes)

theorem Heeds.later (hl : l.Sound) (hc : l.Ordered c) (h : l.Heeds c (turn :: turns) p) :
    (∃ later, (c.step turn).stage? p = some later ∧ later.Ended) ∨
      l.Heeds (c.step turn) turns p := by
  obtain ⟨before, dial, after, search, left, hturns, rfl, hstage, hhead, hlead⟩ := h
  cases before with
  | nil =>
    obtain ⟨rfl, -⟩ := List.cons.inj hturns
    exact .inl (hc.dial_led hl hlead hstage)
  | cons earlier before =>
    obtain ⟨rfl, hrest⟩ := List.cons.inj hturns
    exact .inr ⟨before, dial, after, search, left, hrest, rfl, hstage, hhead, hlead⟩

theorem Heeds.not_stray (h : l.Heeds c turns p) (hstage : c.stage? p = some stage) :
    ¬ stage.Stray l.first := by
  obtain ⟨before, dial, after, search, left, -, -, hdial, hhead, -⟩ := h
  have hmem : l.first ∈ search.candidates := List.mem_of_mem_head? (by rw [hhead]; rfl)
  exact fun hstray => not_past_of_run hdial hmem hstage (.inr hstray)

def Heeding (l : Loss) (c : Crowd σ) (turns : List (Turn σ)) : Prop :=
  ∀ p stage, c.stage? p = some stage → p ≠ l.first → ¬ stage.Ended → l.Heeds c turns p

theorem Heeding.later (hl : l.Sound) (hc : l.Ordered c) (h : l.Heeding c (turn :: turns))
    (hup : l.up p = true) (hp : p ≠ l.first) {later : Stage}
    (hlater : (c.step turn).stage? p = some later) (hgoing : ¬ later.Ended) :
    l.Heeds (c.step turn) turns p := by
  obtain ⟨party, hparty⟩ := Option.isSome_iff_exists.1 ((hc.up p).trans hup)
  have hstage : c.stage? p = some party.stage := congrArg _ hparty
  obtain ⟨_, hnext, hgoes⟩ := Crowd.stage?_goes turn hstage
  obtain rfl := Option.some.inj (hlater.symm.trans hnext)
  have hheeds := h p party.stage hstage hp fun hended => hgoing (hended.goes hgoes)
  refine (hheeds.later hl hc).resolve_left ?_
  rintro ⟨_, hother, hended⟩
  obtain rfl := Option.some.inj (hlater.symm.trans hother)
  exact hgoing hended

theorem Heeding.step (hl : l.Sound) (hc : l.Ordered c) (h : l.Heeding c (turn :: turns)) :
    l.Ordered (c.step turn) ∧ l.Heeding (c.step turn) turns := by
  have hstep : l.Ordered (c.step turn) := by
    refine hc.step hl turn ?_
    intro hp party hparty hstray
    have hstage : (c.step turn).stage? turn.who = some party.stage := congrArg _ hparty
    cases hup : c turn.who with
    | none =>
      rw [Crowd.step, hup] at hparty
      exact Option.some_ne_none party (hparty.symm.trans hup)
    | some earlier =>
      exact (h.later hl hc (hc.up_of hup) hp hstage hstray.not_ended).not_stray hstage hstray
  refine ⟨hstep, fun p later hlater hp hgoing => ?_⟩
  obtain ⟨party, hparty, -⟩ := Option.map_eq_some_iff.1 hlater
  exact h.later hl hc (hstep.up_of hparty) hp hlater hgoing

theorem Heeding.run (hl : l.Sound) (hc : l.Ordered c) (h : l.Heeding c turns)
    {before : List (Turn σ)} (hbefore : before <+: turns) : l.Ordered (c.run before) := by
  induction turns generalizing c before with
  | nil =>
    rw [List.prefix_nil.1 hbefore]
    exact hc
  | cons turn turns ih =>
    cases before with
    | nil => exact hc
    | cons first before =>
      obtain ⟨rfl, hrest⟩ := List.cons_prefix_cons.1 hbefore
      obtain ⟨hstep, hheeding⟩ := h.step hl hc
      exact ih hstep hheeding hrest

theorem ordered_of_left (hup : ∀ p, (c p).isSome = l.up p)
    (hleft : ∀ p party, c p = some party → l.Left p party) : l.Ordered c := by
  refine ⟨hup, fun p party hparty => ?_⟩
  obtain ⟨hstage, hdelimiters, hme, hrole, hview, hactive⟩ := hleft p party hparty
  refine ⟨hdelimiters, hme, ?_, ?_, ?_⟩
  · rw [Roster.State.followers, hactive]
    exact List.nodup_nil
  · rw [Roster.State.followers, hactive]
    exact List.nil_subset _
  · rw [hstage]
    exact .follows hrole hview

theorem Ordered.eq_first (hc : l.Ordered c) (hlead : c.Leads p) : p = l.first := by
  obtain ⟨⟨node, stage⟩, hparty, hrole⟩ := Option.map_eq_some_iff.1 hlead
  have hminds : l.Minds (c.Leads l.first) p node.members stage := (hc.keeps p _ hparty).minds
  cases hminds with
  | follows h | chooses h | dials h | asks h | joined h | served h =>
    cases h.symm.trans hrole
  | leads _ hp => exact hp

theorem Ordered.not_failed (hc : l.Ordered c) (p : Peer) : c.stage? p ≠ some .failed := by
  intro hfailed
  obtain ⟨party, hparty, hstage⟩ := Option.map_eq_some_iff.1 hfailed
  have hminds := (hc.keeps p party hparty).minds
  rw [hstage] at hminds
  cases hminds

theorem Ordered.settled (hc : l.Ordered c) (hp : c.stage? p = some .settled) :
    c.role? p = some (if p = l.first then .leader else .follower l.first) := by
  obtain ⟨party, hparty, hstage⟩ := Option.map_eq_some_iff.1 hp
  have hminds := (hc.keeps p party hparty).minds
  rw [hstage] at hminds
  rw [Crowd.role?, hparty, Option.map_some]
  cases hminds with
  | leads hrole hfirst => rw [hrole, if_pos hfirst]
  | served hrole hfirst => rw [hrole, if_neg hfirst]

end Loss

/-- Followers of a leader that is lost look for another in any order, each dialling the first that
is up, as its candidate, at least once after that took over. Then nobody but the first ever leads,
and no search is in vain; when all of them have come to an end the first leads and the others
follow it. -/
theorem one_takeover {l : Loss} (hl : l.Sound) {c : Crowd σ} (hup : ∀ p, (c p).isSome = l.up p)
    (hleft : ∀ p party, c p = some party → l.Left p party) {turns : List (Turn σ)}
    (hheeds : ∀ p, l.up p = true → p ≠ l.first → l.Heeds c turns p) :
    (∀ before, before <+: turns → ∀ p,
      ((c.run before).Leads p → p = l.first) ∧ (c.run before).stage? p ≠ some .failed) ∧
    ((∀ p, l.up p = true →
        (c.run turns).stage? p = some .settled ∨ (c.run turns).stage? p = some .failed) →
      (c.run turns).Leads l.first ∧
      ∀ p, l.up p = true → p ≠ l.first → (c.run turns).role? p = some (.follower l.first)) := by
  have hc := Loss.ordered_of_left hup hleft
  have hheeding : l.Heeding c turns := by
    intro p stage hstage hp _
    obtain ⟨party, hparty, -⟩ := Option.map_eq_some_iff.1 hstage
    exact hheeds p (hc.up_of hparty) hp
  have hordered {before : List (Turn σ)} (h : before <+: turns) := hheeding.run hl hc h
  refine ⟨fun before hbefore p => ?_, fun hdone => ?_⟩
  · exact ⟨(hordered hbefore).eq_first, (hordered hbefore).not_failed p⟩
  have hlast := hordered (List.prefix_refl turns)
  have hrole (p : Peer) (hp : l.up p = true) :
      (c.run turns).role? p = some (if p = l.first then .leader else .follower l.first) :=
    hlast.settled ((hdone p hp).resolve_right (hlast.not_failed p))
  refine ⟨(hrole l.first hl.first_up).trans (by rw [if_pos rfl]), fun p hp hother => ?_⟩
  rw [hrole p hp, if_neg hother]

def crash : Loss where
  delimiters := {}
  old := ⟨"10.0.0.1", 8003⟩
  view := [⟨"10.0.0.2", 8003⟩, ⟨"10.0.0.3", 8003⟩, ⟨"10.0.0.4", 8003⟩]
  up p := p = ⟨"10.0.0.3", 8003⟩ ∨ p = ⟨"10.0.0.4", 8003⟩
  first := ⟨"10.0.0.3", 8003⟩

theorem sound_crash : crash.Sound where
  framing := Delimiters.framing_default
  tag := by decide
  old_named := ⟨⟨by decide, by decide⟩, by constructor <;> decide +kernel⟩
  named := by
    simp only [crash, List.forall_mem_cons]
    refine ⟨?_, ?_, ?_, by simp⟩
    all_goals exact ⟨⟨by decide, by decide⟩, by constructor <;> decide +kernel⟩
  small := by decide +kernel
  nodup := by decide
  gone := by decide
  within := by simp [crash]
  found := by decide

def left : Crowd FaultyStore := fun p =>
  if crash.up p then
    some ⟨{ members := { role := .follower crash.old, me := p, view := crash.view }
            desk := { store := {} } }, .follows⟩
  else none

def turnOf (who : Peer) : Turn FaultyStore where
  who := who
  site := Coordinator.Settings.site 0 {}
  conn := { remote := { ip := Net.Ip.loopback, port := 0 }, socket := ⟨"line"⟩ }

def hasty : List (Turn FaultyStore) :=
  let other := turnOf ⟨"10.0.0.3", 8003⟩
  let last := turnOf ⟨"10.0.0.4", 8003⟩
  List.replicate 14 last ++ List.replicate 11 other ++ [last, last, other, last]

theorem one_takeover_crash :
    (crash.Sound ∧ (∀ p, (left p).isSome = crash.up p) ∧
      (∀ p party, left p = some party → crash.Left p party)) ∧
    let turns := hasty ++ [turnOf ⟨"10.0.0.4", 8003⟩, turnOf ⟨"10.0.0.4", 8003⟩]
    (∀ p, crash.up p = true → p ≠ crash.first → crash.Heeds left turns p) ∧
      (left.run turns).Leads ⟨"10.0.0.3", 8003⟩ ∧
      (left.run turns).role? ⟨"10.0.0.4", 8003⟩ = some (.follower ⟨"10.0.0.3", 8003⟩) ∧
      ∀ before, before <+: turns → ∀ p, (left.run before).Leads p → p = ⟨"10.0.0.3", 8003⟩ := by
  have hup (p : Peer) : (left p).isSome = crash.up p := by
    rw [left]
    cases crash.up p <;> rfl
  have hleft : ∀ p party, left p = some party → crash.Left p party := by
    intro p party hparty
    rw [left] at hparty
    split at hparty
    · obtain rfl := Option.some.inj hparty
      exact ⟨rfl, rfl, rfl, rfl, rfl, rfl⟩
    · cases hparty
  refine ⟨⟨sound_crash, hup, hleft⟩, ?_⟩
  intro turns
  have hheeds : ∀ p, crash.up p = true → p ≠ crash.first → crash.Heeds left turns p := by
    intro p hp hfirst
    obtain rfl : p = ⟨"10.0.0.4", 8003⟩ := (of_decide_eq_true hp).resolve_left hfirst
    refine ⟨hasty, turnOf ⟨"10.0.0.4", 8003⟩, [turnOf ⟨"10.0.0.4", 8003⟩], ⟨crash.view.tail, 3⟩, 7,
      rfl, rfl, ?_, rfl, ?_⟩
    · decide +kernel
    · decide +kernel
  have hdone : ∀ p, crash.up p = true →
      (left.run turns).stage? p = some .settled ∨ (left.run turns).stage? p = some .failed := by
    intro p hp
    rcases of_decide_eq_true hp with rfl | rfl
    · exact .inl (by decide +kernel)
    · exact .inl (by decide +kernel)
  obtain ⟨hleads, hend⟩ := one_takeover sound_crash hup hleft hheeds
  obtain ⟨hfirst, hothers⟩ := hend hdone
  exact ⟨hheeds, hfirst, hothers _ (by decide) (by decide), fun before hbefore p =>
    (hleads before hbefore p).1⟩

end CrawlCluster.Takeover
