import Aftermath.Loopback
import Aftermath.Proofs.Flight
import Aftermath.Proofs.Outward

/-! Acts and runs of a hub with its connection. Whatever happens, the hub changes by its moves only,
and it is granted a lease only when the connection serves a request. -/

namespace Aftermath

def Move.isGrant : Move → Bool
  | .granted _ => true
  | _ => false

def Act.published : Act → List Envelope
  | .publish e => [e]
  | _ => []

namespace Hub

/-! ### What lasts in a hub -/

section
variable {h h' : Hub} {s : SubId} {i : SessionId} {m : Move} {ms : List Move} {l : LeaseId}

theorem Later.sub_fixed (hr : Reachable h) (hl : Later h h') (hs : s < h.subs.length) :
    s < h'.subs.length ∧ (h'.sub s).home = (h.sub s).home ∧ (h'.sub s).key = (h.sub s).key := by
  induction hl with
  | refl => exact ⟨hs, rfl, rfl⟩
  | move hl hm ih =>
    obtain ⟨hlt, hh, hk⟩ := ih
    have hm := moved_of_move? hm
    obtain ⟨hh', hk', -⟩ := Hub.sub_fixed (hr.later hl).wired hm hlt
    exact ⟨Nat.lt_of_lt_of_le hlt (subs_length_le hm), hh'.trans hh, hk'.trans hk⟩

/-- What is active now was active before. -/
theorem Later.active_before (hr : Reachable h) (hl : Later h h') (hs : s < h.subs.length)
    (ha : (h'.sub s).isActive) : (h.sub s).isActive := by
  induction hl with
  | refl => exact ha
  | @move a b m hl hm ih =>
    have hlt := (hl.sub_fixed hr hs).1
    have hsh := move_shift (hr.later hl).wired (moved_of_move? hm) s
    apply ih
    rw [← Bool.not_eq_false]
    intro hin
    rw [show (b.sub s).isActive = false from hsh.inactive (Nat.ne_of_lt hlt) hin] at ha
    cases ha

theorem Later.claim_none (hr : Reachable h) (hl : Later h h') (hn : (h'.session i).claim = none) :
    (h.session i).claim = none := by
  induction hl with
  | refl => exact hn
  | move hl hm ih => exact ih (Hub.claim_none (hr.later hl) (moved_of_move? hm) hn)

/-- Leases are granted by the transport only. -/
theorem granted_run (hr : Reachable h) (hrun : h.run? ms = some h')
    (hms : ∀ m ∈ ms, m.isGrant = false) (s : SubId) : h'.granted s = h.granted s := by
  induction ms generalizing h with
  | nil => cases hrun; rfl
  | cons m ms ih =>
    obtain ⟨a, hm, hrun⟩ := Option.bind_eq_some_iff.1 hrun
    have hg : h.granting m = [] := by
      have hm := hms m List.mem_cons_self
      unfold Move.isGrant at hm
      cases m <;> first | rfl | cases hm
    rw [ih (hr.later (Later.refl.move hm)) hrun fun m hm => hms m (List.mem_cons_of_mem _ hm),
      granted_move hr (moved_of_move? hm), hg]
    rfl

/-- Until a lease arrives, one that is on its way stays there and one that is given back comes to it. -/
theorem returned_run (hr : Reachable h) (hrun : h.run? ms = some h')
    (hms : ∀ m ∈ ms, m ≠ .unsubscribed) :
    (.unsubscribing l ∈ h.stack → .unsubscribing l ∈ h'.stack) ∧
    (l ∈ h'.returned s → l ∈ h.returned s ∨ .unsubscribing l ∈ h'.stack) := by
  induction ms generalizing h with
  | nil => cases hrun; exact ⟨id, .inl⟩
  | cons m ms ih =>
    obtain ⟨a, hm, hrun⟩ := Option.bind_eq_some_iff.1 hrun
    have hmv := moved_of_move? hm
    obtain ⟨hst, hret⟩ := ih (hr.later (Later.refl.move hm)) hrun
      fun m hm => hms m (List.mem_cons_of_mem _ hm)
    refine ⟨fun hl => hst ?_, fun hl => ?_⟩
    · exact unsubscribing_move hr hmv (hms m List.mem_cons_self) hl
    · rcases hret hl with hl | hl
      · exact (returned_move hr hmv hl).imp id hst
      · exact .inr hl

/-! ### Leases of active subscriptions -/

theorem Reachable.granted_of_returned (hr : Reachable h) (hl : l ∈ h.returned s) :
    l ∈ h.granted s := by
  rw [show h.granted s = _ from (hr.kept s).leases]
  exact List.mem_append_right _ hl

/-- A lease that is on its way back belongs to a subscription that is not active. -/
theorem Reachable.inactive_of_unsubscribing (hr : Reachable h)
    (hl : .unsubscribing l ∈ h.stack) :
    ∃ s, l ∈ h.granted s ∧ (h.sub s).isActive = false := by
  obtain ⟨s, hs⟩ := hr.returned_of_unsubscribing hl
  refine ⟨s, hr.granted_of_returned hs, ?_⟩
  rw [← Bool.not_eq_true]
  intro ha
  rw [hr.unreturned ha] at hs
  cases hs

theorem Reachable.granted_lt (hr : Reachable h) (hl : l ∈ h.granted s) :
    s < h.subs.length := by
  apply Nat.lt_of_not_le
  intro hs
  have hv : h.granted s = [] := congrArg SubView.granted (hr.subView_beyond hs)
  rw [hv] at hl
  cases hl

/-! ### Delivering -/

/-- A subscription that is active and hears of its event has fired. -/
theorem state_deliver (hs : s < h.subs.length) {e : Envelope} (hk : e.key = (h.sub s).key)
    (ha : (h.sub s).isActive) : ((h.deliver s e).sub s).state = .fired := by
  unfold deliver; dsimp only
  rw [if_neg (by simpa using hk), if_pos ha, sub_finish (by simpa [setState] using hs), if_pos rfl,
    sub_setState hs, if_pos rfl]

theorem inactive_deliver (hs : s < h.subs.length) {e : Envelope} (hk : e.key = (h.sub s).key) :
    ((h.deliver s e).sub s).isActive = false := by
  cases ha : (h.sub s).isActive with
  | true => rw [Subscription.isActive, state_deliver hs hk ha]; rfl
  | false =>
    unfold deliver; dsimp only
    rw [if_neg (by simpa using hk), if_neg (by rw [ha]; exact Bool.false_ne_true)]
    exact ha

theorem sub_deliver_other {t : SubId} (hs : s < h.subs.length) (ht : t ≠ s) (e : Envelope) :
    (h.deliver s e).sub t = h.sub t := by
  unfold deliver; dsimp only
  split
  · rfl
  · split
    · rw [sub_finish (by simpa [setState] using hs), if_neg ht, sub_setState hs, if_neg ht]
    · rfl

theorem move?_deliver (hb : h.isBusy = false) (hs : s < h.subs.length) (e : Envelope) :
    h.move? (.deliver s e) = some (h.deliver s e) := by
  rw [move?_of_idle hb]
  exact if_pos hs

theorem deliver_of_move? {e : Envelope} (hm : h.move? (.deliver s e) = some h') :
    h' = h.deliver s e := by
  have hm := moved_of_move? hm
  cases hm
  rfl

/-! ### Failing subscriptions -/

theorem isBusy_eq (hst : h'.stack = h.stack) : h'.isBusy = h.isBusy := by
  unfold isBusy
  rw [hst]

theorem subs_failAll (e : NetworkError) (l : List SubId) : (h.failAll e l).2.subs = h.subs := by
  induction l generalizing h with
  | nil => rfl
  | cons s l ih => exact (ih (h := h.fail s e)).trans (subs_fail h s e)

theorem run?_singleton (hm : h.move? m = some h') : h.run? [m] = some h' := by
  rw [run?, hm]
  rfl

/-- Failing subscriptions one after the other is a run of calls. -/
theorem run_failAll (hb : h.isBusy = false) (e : NetworkError) {l : List SubId}
    (hl : ∀ s ∈ l, s < h.subs.length) :
    h.run? (l.map fun s => .fail s e) = some (h.failAll e l).2 := by
  induction l generalizing h with
  | nil => rfl
  | cons s l ih =>
    have hs := hl s List.mem_cons_self
    have hm : h.move? (.fail s e) = some (h.fail s e) := by
      rw [move?_of_idle hb]
      exact if_pos hs
    rw [List.map_cons, run?, hm]
    refine ih ?_ fun t ht => ?_
    · rw [isBusy_eq (stack_fail h s e), hb]
    · rw [subs_fail]
      exact hl t (List.mem_cons_of_mem _ ht)

end

end Hub

namespace Loopback

/-! ### Acts -/

inductive Acted (x : Loopback) : Act → Loopback → Prop where
  | move {m h} : m.isOwn → x.hub.move? m = some h → Acted x (.move m) { x with hub := h }
  | granted {s rest l m h} : x.hub.stack = .subscribing s :: rest →
      x.memory.subscribe (x.hub.sub s).key s = .ok (l, m) → x.hub.move? (.granted l) = some h →
      Acted x .serve ⟨h, m⟩
  | declined {s rest e h} : x.hub.stack = .subscribing s :: rest →
      x.memory.subscribe (x.hub.sub s).key s = .error e → x.hub.move? (.declined e) = some h →
      Acted x .serve { x with hub := h }
  | unsubscribed {l rest h} : x.hub.stack = .unsubscribing l :: rest →
      x.hub.move? .unsubscribed = some h → Acted x .serve ⟨h, x.memory.unsubscribe l⟩
  | received {c h} :
      x.hub.move? (.postReplied (postReply (x.memory.receivePost c).1)) = some h →
      Acted x (.receive c) ⟨h, (x.memory.receivePost c).2⟩
  | unheard {l r} : x.memory.listeners[l]? = some r →
      (x.memory.listen l).1.result = .nothing ∨ (x.memory.listen l).1.result = .stop →
      Acted x (.listen l) { x with memory := (x.memory.listen l).2 }
  | hears {l r e h} : x.memory.listeners[l]? = some r → (x.memory.listen l).1.result = .event e →
      x.hub.move? (.deliver r.sub e) = some h → Acted x (.listen l) ⟨h, (x.memory.listen l).2⟩
  | closed {l r h} : x.memory.listeners[l]? = some r → (x.memory.listen l).1.result = .closed →
      x.hub.move? (.fail r.sub Memory.busClosed) = some h →
      Acted x (.listen l) ⟨h, (x.memory.listen l).2⟩
  | published {e} : Acted x (.publish e) { x with memory := x.memory.publish e }
  | disconnected {e} : x.hub.isBusy = false → Acted x (.disconnect e) (x.disconnect e).2
  | reconnected : Acted x .reconnect { x with memory := { x.memory with connected := true } }
  | arranged {a} : Acted x (.arrange a) { x with memory := x.memory.arrange a }

def run? (x : Loopback) : List Act → Option Loopback
  | [] => some x
  | a :: as => (x.act? a).bind (·.run? as)

section
variable {x y z : Loopback} {a : Act}

theorem acted_of_serve? (hs : x.serve? = some y) : Acted x .serve y := by
  unfold serve? at hs
  split at hs
  · next s rest hst =>
    split at hs
    · next e he =>
      obtain ⟨h, hm, rfl⟩ := Option.map_eq_some_iff.1 hs
      exact .declined hst he hm
    · next l m he =>
      obtain ⟨h, hm, rfl⟩ := Option.map_eq_some_iff.1 hs
      exact .granted hst he hm
  · next l rest hst =>
    obtain ⟨h, hm, rfl⟩ := Option.map_eq_some_iff.1 hs
    exact .unsubscribed hst hm
  · cases hs

theorem acted_of_listen? {l : LeaseId} (hl : x.listen? l = some y) : Acted x (.listen l) y := by
  unfold listen? at hl
  split at hl
  · cases hl
  · next r hr =>
    dsimp only at hl
    split at hl
    · next hn => cases hl; exact .unheard hr (.inl hn)
    · next hn => cases hl; exact .unheard hr (.inr hn)
    · next e he =>
      obtain ⟨h, hm, rfl⟩ := Option.map_eq_some_iff.1 hl
      exact .hears hr he hm
    · next hc =>
      obtain ⟨h, hm, rfl⟩ := Option.map_eq_some_iff.1 hl
      exact .closed hr hc hm

theorem acted_of_act? (ha : x.act? a = some y) : Acted x a y := by
  unfold act? at ha
  split at ha
  · next hb =>
    split at ha
    · cases ha
      exact .move rfl (by unfold Hub.move?; rw [if_pos hb])
    · cases ha
  · next hb =>
    split at ha
    · split at ha
      · next ho =>
        obtain ⟨h, hm, rfl⟩ := Option.map_eq_some_iff.1 ha
        exact .move ho hm
      · cases ha
    · exact acted_of_serve? ha
    · obtain ⟨h, hm, rfl⟩ := Option.map_eq_some_iff.1 ha
      exact .received hm
    · exact acted_of_listen? ha
    · cases ha; exact .published
    · cases ha; exact .disconnected (Bool.not_eq_true _ ▸ hb)
    · cases ha; exact .reconnected
    · cases ha; exact .arranged

end
end Loopback
end Aftermath
