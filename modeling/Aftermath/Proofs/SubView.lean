import Aftermath.Proofs.Fields

/-! A hub as one of its subscriptions sees it: the subscription's record, the frames that still have
to claim, report or attach something for it, and the leases it was granted and gave back. -/

namespace Aftermath

def Frame.sub? : Frame → Option SubId
  | .settlingEvent s _ | .settlingTimeout s | .reportingCancel s | .subscribing s => some s
  | _ => none

def Happening.granted? (s : SubId) : Happening → Option LeaseId
  | .granted t l => if t = s then some l else none
  | _ => none

def Happening.returned? (s : SubId) : Happening → Option LeaseId
  | .returned t l => if t = s then some l else none
  | _ => none

structure SubView where
  self : Subscription
  flight : List Frame
  granted : List LeaseId
  returned : List LeaseId

namespace Hub

/-- The frames about a subscription, the top one first. -/
def flight (h : Hub) (s : SubId) : List Frame := h.stack.filter fun f => f.sub? = some s

/-- The leases the transport granted, the newest first. -/
def granted (h : Hub) (s : SubId) : List LeaseId := h.journal.filterMap (·.granted? s)

def returned (h : Hub) (s : SubId) : List LeaseId := h.journal.filterMap (·.returned? s)

def subView (h : Hub) (s : SubId) : SubView := ⟨h.sub s, h.flight s, h.granted s, h.returned s⟩

/-! ### The small operations -/

section
variable (h : Hub) (i : SessionId) (s t : SubId)

theorem subView_onSub (hs : s < h.subs.length) (f : Subscription → Subscription) :
    (h.onSub s f).subView t =
      if t = s then { h.subView t with self := f (h.subView t).self } else h.subView t := by
  have hv : (h.onSub s f).subView t = { h.subView t with self := (h.onSub s f).sub t } := rfl
  rw [hv, sub_onSub h s t hs]
  split <;> rfl

theorem subView_push (f : Frame) :
    (h.push f).subView t =
      if f.sub? = some t then { h.subView t with flight := f :: (h.subView t).flight }
      else h.subView t := by
  by_cases hf : f.sub? = some t <;> simp [subView, push, flight, sub, granted, returned, hf]

theorem subView_of_stack {f : Frame} {rest : List Frame} (hst : h.stack = f :: rest) :
    h.subView t =
      if f.sub? = some t then { h.pop.subView t with flight := f :: (h.pop.subView t).flight }
      else h.pop.subView t := by
  by_cases hf : f.sub? = some t <;>
    simp [subView, pop, flight, sub, granted, returned, hst, hf]

theorem subView_note (x : Happening) :
    (h.note x).subView t =
      { h.subView t with
        granted := (x.granted? t).toList ++ (h.subView t).granted
        returned := (x.returned? t).toList ++ (h.subView t).returned } := by
  cases hg : x.granted? t <;> cases hr : x.returned? t <;>
    simp [subView, note, flight, sub, granted, returned, hg, hr]

theorem subView_note_silent {x : Happening} (hg : x.granted? t = none) (hr : x.returned? t = none) :
    (h.note x).subView t = h.subView t := by
  rw [subView_note, hg, hr]; simp

@[simp] theorem subView_reply (a : Answer) : (h.reply a).subView t = h.subView t := rfl

@[simp] theorem subView_onSession (f : Session → Session) :
    (h.onSession i f).subView t = h.subView t := rfl

@[simp] theorem subView_setPhase (p : Phase) : (h.setPhase i p).subView t = h.subView t := rfl

@[simp] theorem subView_settle (c : Claim) : (h.settle i c).subView t = h.subView t := rfl

@[simp] theorem subView_report (r : Report) : (h.report i r).subView t = h.subView t :=
  subView_note_silent _ _ rfl rfl

@[simp] theorem subView_setBusy (m : ModalId) (b : Bool) :
    (h.setBusy m b).subView t = h.subView t := subView_note_silent _ _ rfl rfl

@[simp] theorem subView_writeBusy (b : Bool) : (h.writeBusy i b).subView t = h.subView t := by
  unfold writeBusy; split <;> simp

@[simp] theorem subView_release (c : Claim) : (h.release i c).subView t = h.subView t := by
  rw [release, subView_push, if_neg (by simp [Frame.sub?]), subView_settle]

@[simp] theorem subView_close (e : Ending) : (h.close i e).subView t = h.subView t := by
  rw [close, subView_release, subView_setPhase]

@[simp] theorem subView_conclude (e : Ending) : (h.conclude i e).subView t = h.subView t := by
  rw [conclude, subView_close, subView_note_silent _ _ rfl rfl]

@[simp] theorem subView_begin (k : HookId) (arg : Argument) :
    (h.begin i k arg).subView t = h.subView t := by
  rw [begin, subView_push, if_neg (by simp [Frame.sub?]), subView_note_silent _ _ rfl rfl,
    subView_onSession]

theorem subView_pop {f : Frame} {l : List Frame} (hst : h.stack = f :: l)
    (hf : f.sub? = none) : h.pop.subView t = h.subView t := by
  rw [subView_of_stack _ _ hst, hf, if_neg (by simp)]

theorem subView_push_silent {f : Frame} (hf : f.sub? = none) :
    (h.push f).subView t = h.subView t := by
  rw [subView_push, hf, if_neg (by simp)]

@[simp] theorem subView_handleFailure (e : PostError) :
    (h.handleFailure i e).subView t = h.subView t := by
  unfold handleFailure
  split
  · rw [subView_conclude, subView_note_silent _ _ rfl rfl]
  · rw [subView_setPhase, subView_note_silent _ _ rfl rfl]

@[simp] theorem subView_resolve (r : Report) : (h.resolve i r).subView t = h.subView t := by
  unfold resolve; dsimp only
  split
  · split
    · rw [subView_setPhase, subView_note_silent _ _ rfl rfl]
    · rw [subView_conclude]
  · split
    · rw [subView_setPhase, subView_note_silent _ _ rfl rfl]
    · rw [subView_conclude]
  · rw [subView_handleFailure]
  · rw [subView_setPhase]

theorem subView_await {rest : List Frame} (hst : h.stack = .driving i :: rest) :
    (h.await i).subView t = h.subView t := by
  unfold await; dsimp only
  split
  · split
    · rw [subView_conclude]
    · rw [subView_reply, subView_pop _ _ hst rfl]
  · split
    · rw [subView_release, subView_setPhase, subView_note_silent _ _ rfl rfl, subView_onSession]
    · rw [subView_note_silent _ _ rfl rfl, subView_onSession]
  · rw [subView_release, subView_onSession]

theorem subView_leave (e : Ending) {rest : List Frame} (hst : h.stack = .driving i :: rest) :
    (h.leave i e).subView t = h.subView t := by
  have hm : ∀ k : Hub, k.subView t = h.subView t → k.stack = h.stack → ∀ f : Session → Session,
      (((k.onSession i f).pop).reply .finished).subView t = h.subView t := by
    intro k hk hs f
    rw [subView_reply, subView_pop _ t (f := .driving i) (l := rest) (by rw [← hst, ← hs]; rfl) rfl,
      subView_onSession, hk]
  unfold leave; dsimp only
  split
  · exact hm h rfl rfl _
  · exact hm _ (subView_setBusy _ _ _ _) rfl _
  · apply hm
    · rw [subView_setBusy]
      split
      · rw [subView_note_silent _ _ rfl rfl, subView_setBusy]
      · rw [subView_setBusy]
    · split <;> rfl

end

/-! ### Countdowns and leases -/

section
variable {h : Hub} {s t : SubId} (hs : s < h.subs.length)
include hs

theorem subView_setState (st : SubState) :
    (h.setState s st).subView t =
      if t = s then { h.subView t with self.state := st } else h.subView t :=
  subView_onSub _ _ _ hs _

theorem subView_disarm :
    (h.disarm s).subView t =
      if t = s then { h.subView t with self.countdown := (h.subView t).self.countdown.cancel }
      else h.subView t := by
  have hd : (h.disarm s).subView t =
      (h.onSub s fun sub => { sub with countdown := (h.sub s).countdown.cancel }).subView t := by
    unfold disarm; dsimp only
    split
    · exact subView_note_silent _ _ rfl rfl
    · rfl
  rw [hd, subView_onSub _ _ _ hs]
  split
  · next e => rw [← e]; rfl
  · rfl

theorem subView_startCountdown (ms : Nat) :
    (h.startCountdown s ms).subView t =
      if t = s ∧ (h.subView t).self.isActive then
        { h.subView t with
          self.countdown := (h.subView t).self.countdown.arm (h.clock + ms) }
      else h.subView t := by
  have hv : (h.startCountdown s ms).subView t =
      { h.subView t with self := (h.startCountdown s ms).sub t } := by
    have hj : (h.startCountdown s ms).granted t = h.granted t ∧
        (h.startCountdown s ms).returned t = h.returned t := by
      unfold startCountdown; dsimp only
      split
      · split <;> exact ⟨rfl, rfl⟩
      · exact ⟨rfl, rfl⟩
    have hf : (h.startCountdown s ms).flight t = h.flight t := by
      unfold flight; rw [stack_startCountdown]
    simp only [subView, hj.1, hj.2, hf]
  have hself : (h.subView t).self = h.sub t := rfl
  rw [hv, sub_startCountdown hs, hself]
  split <;> rfl

/-- What a subscription is left with when it gives back countdown and lease. -/
theorem subView_finish (f : Frame) :
    (h.finish s f).subView t =
      if t = s then
        { self := { (h.subView t).self with
            countdown := (h.subView t).self.countdown.cancel, lease := none }
          flight := if f.sub? = some t then f :: (h.subView t).flight else (h.subView t).flight
          granted := (h.subView t).granted
          returned := (h.subView t).self.lease.toList ++ (h.subView t).returned }
      else if f.sub? = some t then { h.subView t with flight := f :: (h.subView t).flight }
      else h.subView t := by
  have hp : ((h.disarm s).push f).subView t =
      if f.sub? = some t then
        { (h.disarm s).subView t with flight := f :: ((h.disarm s).subView t).flight }
      else (h.disarm s).subView t := subView_push _ _ _
  rw [subView_disarm hs] at hp
  unfold finish; dsimp only
  split
  · next hl =>
    rw [hp]
    by_cases hts : t = s
    · subst hts
      have hn : (h.subView t).self.lease = none := by
        have := subView_disarm (t := t) hs
        rw [if_pos rfl] at this
        have h2 : ((h.disarm t).sub t).lease = (h.subView t).self.lease :=
          congrArg (fun v : SubView => v.self.lease) this
        rw [← h2]; exact hl
      simp only [if_pos, hn]
      split <;> simp [← hn]
    · simp only [if_neg hts]
  · next l hl =>
    rw [giveBack, subView_push, if_neg (by simp [Frame.sub?]), subView_note,
      subView_onSub _ _ _ (by simpa using hs), hp]
    by_cases hts : t = s
    · subst hts
      have hn : (h.subView t).self.lease = some l := by
        have := subView_disarm (t := t) hs
        rw [if_pos rfl] at this
        have h2 : ((h.disarm t).sub t).lease = (h.subView t).self.lease :=
          congrArg (fun v : SubView => v.self.lease) this
        rw [← h2]; exact hl
      simp only [if_pos, hn]
      split <;> simp [Happening.granted?, Happening.returned?]
    · have hst : ¬ s = t := fun e => hts e.symm
      simp [hts, hst, Happening.granted?, Happening.returned?]

end
end Hub
end Aftermath
