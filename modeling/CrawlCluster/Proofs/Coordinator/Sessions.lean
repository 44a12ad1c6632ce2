import CrawlCluster.Proofs.Coordinator.Discipline

/-!
The calls of a crew keep to the discipline side by side: what each has in hand is read off the
log, a lock is in the hand of one call at most, and all that was done was allowed when it was done.
-/

set_option autoImplicit false

namespace CrawlCluster.Coordinator

section Grips

variable {grip : Grip} {lease : Lease}

theorem Grip.holds_of_release {lock : Lock} (h : grip.Allows (.release lock)) :
    grip.Holds lock := by
  cases lock with
  | crawl => simp_all [Allows, Holds]
  | leases => rcases h with h | h <;> simp [Holds, h]

theorem Grip.holds_of_entitled {id : String} (h : grip.Entitled id) : grip.Holds .leases := by
  obtain ⟨lease, hlease, -⟩ := h
  simp [Holds, hlease]

theorem Grip.allows_refused {action : Action} (hrefused : grip.leases = some .refused)
    (h : grip.Allows action) : action = .release .leases := by
  cases action with
  | ask call => cases call <;> simp_all [Allows, AllowsCall, Entitled]
  | acquire lock => exact absurd (h .leases) (by simp [Holds, hrefused])
  | release lock => cases lock <;> simp_all [Allows]
  | _ => simp_all [Allows]

theorem Grip.holds_after {lock : Lock} {action : Action} {reply : action.Reply}
    (hallows : grip.Allows action) (h : (grip.after action reply).Holds lock) :
    action = .acquire lock ∨ (grip.Holds lock ∧ action ≠ .release lock) := by
  cases action with
  | ask call =>
    refine .inr ⟨?_, by simp⟩
    cases call with
    | leased id =>
      have hleases := holds_of_entitled hallows
      cases reply <;> cases lock <;> first | exact h | exact hleases
    | _ => cases reply <;> cases lock <;> simp_all [after, Holds, Allows, AllowsCall]
  | acquire other => cases other <;> cases lock <;> simp_all [after, Holds]
  | release other => cases other <;> cases lock <;> simp_all [after, Holds]
  | _ => exact .inr ⟨h, by simp⟩

abbrev Grip.next (grip : Grip) (deed : Deed) : Grip := grip.after deed.action deed.reply

theorem Grip.known_next (grip : Grip) (deed : Deed) :
    (grip.next deed).known = deed.listed ++ grip.known := by
  obtain ⟨_, _, action, reply⟩ := deed
  cases action with
  | ask call => cases call <;> cases reply <;> rfl
  | acquire lock => cases lock <;> rfl
  | release lock => cases lock <;> rfl
  | _ => rfl

theorem Grip.known_of_listed {deed : Deed} (hallows : grip.Allows deed.action)
    (h : lease ∈ deed.listed) : grip.known = [] := by
  obtain ⟨jobs, hdeed, -⟩ := Deed.eq_of_listed h
  rw [hdeed] at hallows
  exact hallows.1

theorem Grip.known_next_of_ne {deed : Deed} (hallows : grip.Allows deed.action)
    (hknown : grip.known ≠ []) : (grip.next deed).known = grip.known := by
  rw [known_next]
  cases hlisted : deed.listed with
  | nil => rfl
  | cons other rest =>
    exact absurd (known_of_listed hallows (hlisted ▸ List.mem_cons_self ..)) hknown

theorem Grip.passed_of_next (deed : Deed) (hallows : grip.Allows deed.action)
    (h : (grip.next deed).leases = some (.passed lease)) :
    (grip.leases = some (.passed lease) ∧ deed.written? ≠ some lease.jobId) ∨
      (deed.checked? = some lease ∧ lease ∈ grip.known) := by
  obtain ⟨_, _, action, reply⟩ := deed
  cases action with
  | ask call =>
    cases call with
    | leaseTime id =>
      refine .inr ?_
      have hcheck : Check.of grip.known id reply = .passed lease := Option.some.inj h
      unfold Check.of at hcheck
      split at hcheck
      · split at hcheck
        · next hmem =>
          cases hcheck
          exact ⟨rfl, hmem⟩
        · cases hcheck
      · cases hcheck
    | grant job =>
      cases hleases : grip.leases <;> simp [next, after, hleases] at h
    | retire id =>
      cases hleases : grip.leases <;> simp [next, after, hleases] at h
    | _ => cases reply <;> simp_all [next, after, Deed.written?, StoreCall.written?]
  | acquire lock => cases lock <;> simp_all [next, after, Deed.written?]
  | release lock => cases lock <;> simp_all [next, after, Deed.written?]
  | _ => exact .inl ⟨h, (Option.some_ne_none _).symm⟩

theorem Grip.passed_next (deed : Deed) (hallows : grip.Allows deed.action)
    (h : grip.leases = some (.passed lease)) :
    (grip.next deed).leases = some (.passed lease) ∨ deed.written? = some lease.jobId ∨
      deed.missed? = some lease.jobId := by
  obtain ⟨_, _, action, reply⟩ := deed
  cases action with
  | ask call =>
    cases call with
    | grant job =>
      rcases hallows with ⟨-, hnone⟩ | ⟨other, hother, hid⟩
      · simp [h] at hnone
      · rw [h] at hother
        cases hother
        exact .inr (.inl (congrArg some hid.symm))
    | retire id =>
      obtain ⟨other, hother, hid⟩ := hallows
      rw [h] at hother
      cases hother
      exact .inr (.inl (congrArg some hid.symm))
    | leased id =>
      obtain ⟨other, hother, hid⟩ := hallows
      rw [h] at hother
      cases hother
      cases reply with
      | ok job => exact .inl h
      | error error => exact .inr (.inr (congrArg some hid.symm))
    | leaseTime id => simp_all [Allows, AllowsCall]
    | _ => cases reply <;> simp_all [next, after, Allows, AllowsCall]
  | acquire lock => exact absurd (hallows .leases) (by simp [Holds, h])
  | release lock => cases lock <;> simp_all [Allows]
  | _ => exact .inl h

theorem Grip.refused_next {deed : Deed} {id : String} (haction : deed.action = .ask (.leaseTime id))
    (h : ∀ lease, deed.checked? = some lease → lease ∉ grip.known) :
    (grip.next deed).leases = some .refused := by
  obtain ⟨_, _, action, reply⟩ := deed
  cases haction
  show some (Check.of grip.known id reply) = _
  unfold Check.of
  split
  · next leaseTime => rw [if_neg (h _ rfl)]
  · rfl

theorem Grip.passed_next_of_checked (deed : Deed) (hchecked : deed.checked? = some lease)
    (hknown : lease ∈ grip.known) : (grip.next deed).leases = some (.passed lease) := by
  rw [Deed.eq_of_checked hchecked]
  simp [next, after, Check.of, hknown]

theorem Grip.unasked_of_checked (deed : Deed) (hallows : grip.Allows deed.action)
    (hchecked : deed.checked? = some lease) : grip.leases = some .unasked := by
  rw [Deed.eq_of_checked hchecked] at hallows
  exact hallows

end Grips

def grip (s : Settings) (call : Nat) (operation : Operation) : List Deed → Grip
  | [] => .start s operation
  | deed :: earlier =>
    if deed.call = call then (grip s call operation earlier).next deed
    else grip s call operation earlier

/-- All that was done was allowed at its time, and was answered as a store in order would. -/
def Lawful [ScanOrder] (s : Settings) : List Deed → Prop
  | [] => True
  | deed :: earlier => Lawful s earlier ∧
    (grip s deed.call deed.operation earlier).Allows deed.action ∧ deed.action.Heard deed.reply

section Logs

variable {s : Settings} {call : Nat} {operation : Operation} {log : List Deed}

theorem grip_of_not_logged (h : ∀ deed ∈ log, deed.call ≠ call) :
    grip s call operation log = .start s operation := by
  induction log with
  | nil => rfl
  | cons deed earlier ih =>
    rw [grip, if_neg (h deed (by simp))]
    exact ih fun other hother => h other (List.mem_cons_of_mem _ hother)

theorem known_grip : (grip s call operation log).known = claims s call operation log := by
  induction log with
  | nil => rfl
  | cons deed earlier ih =>
    by_cases hcall : deed.call = call
    · rw [grip, if_pos hcall, Grip.known_next, ih]
      simp [claims, hcall]
    · rw [grip, if_neg hcall, ih]
      simp [claims, hcall]

theorem grip_cons_self {deed : Deed} (h : deed.call = call) :
    grip s call operation (deed :: log) = (grip s call operation log).next deed := if_pos h

theorem grip_cons_other {deed : Deed} (h : deed.call ≠ call) :
    grip s call operation (deed :: log) = grip s call operation log := if_neg h

theorem grip_append_others {later : List Deed} (h : ∀ deed ∈ later, deed.call ≠ call) :
    grip s call operation (later ++ log) = grip s call operation log := by
  induction later with
  | nil => rfl
  | cons deed later ih =>
    rw [List.cons_append, grip_cons_other (h deed (by simp))]
    exact ih fun other hother => h other (List.mem_cons_of_mem _ hother)

end Logs

namespace Crew

def Has (c : Crew) (call : Nat) (operation : Operation) : Prop :=
  c.calls[call]?.map (·.operation) = some operation

/-- Every call will keep to the discipline, each lock that one has in hand is its own as long as
none was cut off, and all of the past was lawful. -/
structure Disciplined [ScanOrder] (s : Settings) (c : Crew) : Prop where
  ordered : Store.Ordered c.state.store.current
  obeys : ∀ (call : Nat) (operation : Operation) (rest : Program Answer),
    c.calls[call]? = some ⟨operation, rest⟩ →
      rest.Obeys (fun _ left => left.Free) (grip s call operation c.log)
  owner : c.state.store.exhausted = false → ∀ call operation lock, c.Has call operation →
    (grip s call operation c.log).Holds lock → c.owner lock = some call
  logged : ∀ deed ∈ c.log, c.Has deed.call deed.operation
  lawful : Lawful s c.log

variable {s : Settings} {c left : Crew}

theorem has_of_getElem? {call : Nat} {operation : Operation} {rest : Program Answer}
    (h : c.calls[call]? = some ⟨operation, rest⟩) : c.Has call operation := by
  simp [Has, h]

theorem Has.unique {call : Nat} {operation other : Operation} (h : c.Has call operation)
    (h' : c.Has call other) : operation = other := Option.some.inj (h.symm.trans h')

theorem has_enter (operation other : Operation) (call : Nat) :
    (c.enter s operation).Has call other ↔
      c.Has call other ∨ (call = c.calls.length ∧ other = operation) := by
  unfold Has enter
  by_cases hcall : call < c.calls.length
  · rw [List.getElem?_append_left hcall]
    simp [Nat.ne_of_lt hcall]
  · rw [List.getElem?_append_right (by omega), List.getElem?_eq_none (by omega : _ ≤ call)]
    by_cases hnew : call = c.calls.length
    · simp [hnew, eq_comm]
    · rw [List.getElem?_eq_none (by simp; omega)]
      simp [hnew]

theorem Has.lt {call : Nat} {operation : Operation} (h : c.Has call operation) :
    call < c.calls.length := by
  obtain ⟨found, hfound, -⟩ := Option.map_eq_some_iff.1 h
  exact (List.getElem?_eq_some_iff.1 hfound).1

section Advance

variable {call : Nat} {operation : Operation} {action : Action}
variable {next : action.Reply → Program Answer} {reply : action.Reply} {state : State Store}

theorem has_advance (h : c.Has call operation) {other : Nat} {operation' : Operation} :
    (c.advance call operation next reply state).Has other operation' ↔
      c.Has other operation' := by
  by_cases hsame : other = call
  · subst hsame
    rw [Has, advance, List.getElem?_set_self h.lt]
    exact ⟨fun he => Option.some.inj he ▸ h, fun he => congrArg some (h.unique he)⟩
  · rw [Has, advance, List.getElem?_set_ne (Ne.symm hsame)]
    exact Iff.rfl

theorem grip_advance_self :
    grip s call operation (c.advance call operation next reply state).log =
      (grip s call operation c.log).after action reply := grip_cons_self rfl

theorem grip_advance_other {other : Nat} {operation' : Operation} (hother : other ≠ call) :
    grip s other operation' (c.advance call operation next reply state).log =
      grip s other operation' c.log := grip_cons_other (Ne.symm hother)

/-- When a call goes on, the others are as far as they were. -/
theorem advance_cases (s : Settings) (h : c.Has call operation) {other : Nat}
    {operation' : Operation}
    (hother : (c.advance call operation next reply state).Has other operation') :
    (other = call ∧ operation = operation' ∧
      grip s other operation' (c.advance call operation next reply state).log =
        (grip s call operation c.log).after action reply) ∨
    (other ≠ call ∧ c.Has other operation' ∧
      grip s other operation' (c.advance call operation next reply state).log =
        grip s other operation' c.log) := by
  have hbefore := (has_advance h).1 hother
  by_cases hsame : other = call
  · subst hsame
    obtain rfl := h.unique hbefore
    exact .inl ⟨rfl, rfl, grip_advance_self⟩
  · exact .inr ⟨hsame, hbefore, grip_advance_other hsame⟩

end Advance

namespace Disciplined

variable [ScanOrder]

theorem sole (h : c.Disciplined s) (hlive : c.state.store.exhausted = false) (lock : Lock)
    {call other : Nat} {operation operation' : Operation} (hcall : c.Has call operation)
    (hother : c.Has other operation') (hholds : (grip s call operation c.log).Holds lock)
    (hholds' : (grip s other operation' c.log).Holds lock) : call = other := by
  have howner := h.owner hlive call operation lock hcall hholds
  rw [h.owner hlive other operation' lock hother hholds'] at howner
  exact (Option.some.inj howner).symm

theorem grip_enter (h : c.Disciplined s) (operation : Operation) :
    grip s c.calls.length operation c.log = .start s operation :=
  grip_of_not_logged fun deed hdeed => Nat.ne_of_lt (h.logged deed hdeed).lt

theorem enter (h : c.Disciplined s) (operation : Operation) :
    (c.enter s operation).Disciplined s where
  ordered := h.ordered
  obeys := by
    intro call other rest hcall
    rcases Nat.lt_or_ge call c.calls.length with hlt | hge
    · refine h.obeys call other rest ?_
      rwa [Crew.enter, List.getElem?_append_left hlt] at hcall
    · rw [Crew.enter, List.getElem?_append_right hge, List.getElem?_singleton] at hcall
      split at hcall
      · next hzero =>
        cases hcall
        obtain rfl : call = c.calls.length := by omega
        show (operation.program s).Obeys _ (grip s _ operation c.log)
        rw [h.grip_enter]
        exact obeys_program operation
      · contradiction
  owner := by
    intro hlive call other lock hhas hholds
    rcases (has_enter operation other call).1 hhas with hhas | ⟨rfl, rfl⟩
    · exact h.owner hlive call other lock hhas hholds
    · have hstart : (grip s c.calls.length other c.log).Holds lock := hholds
      rw [h.grip_enter] at hstart
      exact absurd hstart (free_of_known lock)
  logged := fun deed hdeed => (has_enter operation _ _).2 (.inl (h.logged deed hdeed))
  lawful := h.lawful

/-- A lock that is in hand afterwards was in hand before, or was free and is taken. -/
theorem owners_of_holds (h : c.Disciplined s) (hlive : c.state.store.exhausted = false)
    {call : Nat} {operation : Operation} {action : Action} (hcall : c.Has call operation)
    (hallows : (grip s call operation c.log).Allows action)
    (hfree : action.isFree c.owner = true) {other : Nat} {lock : Lock}
    (howner : c.owner lock = some other) (hkept : other = call → action ≠ .release lock) :
    action.owners call c.owner lock = some other := by
  cases action with
  | acquire taken =>
    have hne : lock ≠ taken := by
      rintro rfl
      simp [Action.isFree, howner] at hfree
    rwa [Action.owners, Function.update_of_ne hne]
  | release freed =>
    have hne : lock ≠ freed := by
      rintro rfl
      have hsame := h.owner hlive call operation lock hcall (Grip.holds_of_release hallows)
      rw [howner] at hsame
      exact hkept (Option.some.inj hsame) rfl
    rwa [Action.owners, Function.update_of_ne hne]
  | _ => exact howner

theorem advance (h : c.Disciplined s) {call : Nat} {operation : Operation} {action : Action}
    {next : action.Reply → Program Answer} {reply : action.Reply} {state : State Store}
    (hcall : c.calls[call]? = some ⟨operation, .act action next⟩)
    (hfree : action.isFree c.owner = true)
    (hdoes : action.Does reply c.state.store state.store) :
    (c.advance call operation next reply state).Disciplined s := by
  have hhas := has_of_getElem? hcall
  obtain ⟨hallows, hnext⟩ := h.obeys call operation _ hcall
  have hheard : action.Heard reply := ⟨_, _, h.ordered, hdoes⟩
  refine ⟨?_, ?_, ?_, ?_, h.lawful, hallows, hheard⟩
  · cases action with
    | ask asked =>
      obtain ⟨⟨now, hperform⟩, -⟩ := hdoes
      have hordered : Store.Ordered (c.state.store.perform now asked).2.current :=
        Store.ordered_perform h.ordered
      rwa [hperform] at hordered
    | _ =>
      rw [show (c.advance call operation next reply state).state.store = c.state.store from hdoes]
      exact h.ordered
  · intro other operation' rest hother
    by_cases hsame : other = call
    · subst hsame
      rw [Crew.advance, List.getElem?_set_self hhas.lt] at hother
      cases hother
      rw [grip_advance_self]
      exact hnext reply hheard
    · rw [Crew.advance, List.getElem?_set_ne (Ne.symm hsame)] at hother
      rw [grip_advance_other hsame]
      exact h.obeys other operation' rest hother
  · intro hafter other operation' lock hother hholds
    have hlive := hdoes.live hafter
    rcases advance_cases s hhas hother with ⟨rfl, rfl, hgrip⟩ | ⟨hne, hother, hgrip⟩
    · rw [hgrip] at hholds
      rcases Grip.holds_after hallows hholds with rfl | ⟨hbefore, hkept⟩
      · exact Function.update_self ..
      · exact h.owners_of_holds hlive hhas hallows hfree (h.owner hlive _ _ lock hhas hbefore)
          fun _ => hkept
    · rw [hgrip] at hholds
      exact h.owners_of_holds hlive hhas hallows hfree
        (h.owner hlive other operation' lock hother hholds) fun he => absurd he hne
  · intro deed hdeed
    rw [has_advance hhas]
    rcases List.mem_cons.1 hdeed with rfl | hdeed
    · exact hhas
    · exact h.logged deed hdeed

theorem step (h : c.Disciplined s) (hticked : Ticked s c left) : left.Disciplined s := by
  cases hticked with
  | idle => exact h
  | enter operation => exact h.enter operation
  | advance hcall hfree hdoes => exact h.advance hcall hfree hdoes
  | cutOff call =>
    exact ⟨h.ordered, h.obeys, fun hlive => absurd hlive (by simp [cutOff]), h.logged, h.lawful⟩

end Disciplined

theorem disciplined_empty [ScanOrder] (s : Settings) : Disciplined s {} where
  ordered := List.Pairwise.nil
  obeys := by simp
  owner := by simp [Has]
  logged := by simp
  lawful := trivial

end Crew
end CrawlCluster.Coordinator
