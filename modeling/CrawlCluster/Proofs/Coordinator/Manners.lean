import CrawlCluster.Proofs.Coordinator.Ensures

/-!
What can be said of a program without a look at any state: what it asks of the store and what it
comes to, as long as it is answered so and so. A property of the store that such calls keep holds
whatever comes of the program, also if calls fail.
-/

set_option autoImplicit false

namespace CrawlCluster.Coordinator

/-- Which calls are made, and which answers are to be reckoned with. -/
structure Manner where
  asks : StoreCall → Prop
  shows : (call : StoreCall) → Except StoreError call.Reply → Prop

namespace Manner

def any : Manner := ⟨fun _ => True, fun _ _ => True⟩

variable [ScanOrder]

/-- A store with the property answers as it is reckoned with, and keeps the property; a failure is
always reckoned with. -/
structure Keeps (m : Manner) (good : Store → Prop) : Prop where
  carried : ∀ {call store}, m.asks call → good store → ∀ now,
    m.shows call (store.perform now call).1 ∧ good (store.perform now call).2
  failed : ∀ call error, m.shows call (.error error)

theorem keeps_any : any.Keeps fun _ => True := ⟨fun _ _ _ => ⟨trivial, trivial⟩, fun _ _ => trivial⟩

end Manner

namespace Program

variable {α β : Type} {m : Manner}

def Heeds (m : Manner) (post : Except JobError α → Prop) : Program α → Prop
  | .done result => post result
  | .act (.ask call) next => m.asks call ∧ ∀ reply, m.shows call reply → (next reply).Heeds m post
  | .act _ next => ∀ reply, (next reply).Heeds m post

variable {post : Except JobError α → Prop} {goal : Except JobError β → Prop}

theorem Heeds.bind {p : Program α} {f : α → Program β} (hp : p.Heeds m post)
    (hok : ∀ value, post (.ok value) → (f value).Heeds m goal)
    (herror : ∀ error, post (.error error) → goal (.error error)) : (p >>= f).Heeds m goal := by
  induction p with
  | done result =>
    cases result with
    | ok value => exact hok value hp
    | error error => exact herror error hp
  | act action next ih =>
    cases action with
    | ask call => exact ⟨hp.1, fun reply hreply => ih reply (hp.2 reply hreply)⟩
    | _ => exact fun reply => ih reply (hp reply)

theorem Heeds.holding {p : Program α} (lock : Lock) (hp : p.Heeds m post) :
    (Program.holding lock p).Heeds m post := by
  intro _
  induction p with
  | done result => exact fun _ => hp
  | act action next ih =>
    cases action with
    | ask call => exact ⟨hp.1, fun reply hreply => ih reply (hp.2 reply hreply)⟩
    | _ => exact fun reply => ih reply (hp reply)

theorem heeds_ask {call : StoreCall} {post : Except JobError (Except StoreError call.Reply) → Prop}
    (hasks : m.asks call) (h : ∀ reply, m.shows call reply → post (.ok reply)) :
    (ask call).Heeds m post :=
  ⟨hasks, h⟩

theorem heeds_query {call : StoreCall} {post : Except JobError call.Reply → Prop}
    (hasks : m.asks call) (h : ∀ reply, m.shows call reply → post (settle reply)) :
    (query call).Heeds m post := by
  refine ⟨hasks, fun reply hreply => ?_⟩
  cases reply with
  | ok value => exact h _ hreply
  | error error => exact h _ hreply

theorem Heeds.ensures [ScanOrder] {keeps : Store → Prop} (hkeeps : m.Keeps keeps) {p : Program α}
    (hp : p.Heeds m post) {st : State Store} (hst : keeps st.store) (now : Int64) :
    p.Ensures .failing now (fun result left => keeps left.store ∧ post result) st := by
  induction p generalizing st with
  | done result => exact ⟨hst, hp⟩
  | act action next ih =>
    intro reply left hm
    cases action with
    | ask call =>
      obtain ⟨store, repeats, slept, ⟨t, ht⟩ | ⟨⟨error, rfl⟩, rfl⟩, rfl⟩ := hm
      · obtain ⟨hshows, hstore⟩ := hkeeps.carried hp.1 hst t
        rw [ht] at hshows hstore
        exact ih reply (hp.2 reply hshows) hstore
      · exact ih _ (hp.2 _ (hkeeps.failed call error)) hst
    | readClock => exact ih reply (hp reply) (hm.2 ▸ hst)
    | outstanding => exact ih reply (hp reply) (hm.2 ▸ hst)
    | crawlId => exact ih reply (hp reply) (hm.2 ▸ hst)
    | setOutstanding directive => exact ih reply (hp reply) (hm ▸ hst)
    | setCrawlId id => exact ih reply (hp reply) (hm ▸ hst)
    | record event => exact ih reply (hp reply) (hm ▸ hst)
    | acquire lock => exact ih reply (hp reply) (hm ▸ hst)
    | release lock => exact ih reply (hp reply) (hm ▸ hst)

end Program
end CrawlCluster.Coordinator
