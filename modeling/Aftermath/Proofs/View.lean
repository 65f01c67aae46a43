import Aftermath.Proofs.Fields

/-! A hub as one of its sessions sees it: the session's record, its frames on the stack, and the
beats it is heard of by. Each small operation of the hub changes at most one of the three. -/

namespace Aftermath

/-- The session whose own work a frame is part of. -/
def Frame.session? : Frame → Option SessionId
  | .entering sid | .driving sid | .configuring sid | .hook sid _ _ | .posting sid => some sid
  | _ => none

/-- What is heard of a session: its hooks as they begin and end well, its post and the reply. -/
inductive Beat where
  | begins (k : HookId) (arg : Argument)
  | ends (k : HookId)
  | posts
  | acknowledged
  | refused (e : PostError)
deriving DecidableEq, Repr

def Happening.beat? (sid : SessionId) : Happening → Option Beat
  | .began i k arg => if i = sid then some (.begins k arg) else none
  | .completed i k => if i = sid then some (.ends k) else none
  | .posting i => if i = sid then some .posts else none
  | .acknowledged i => if i = sid then some .acknowledged else none
  | .postFailed i e => if i = sid then some (.refused e) else none
  | _ => none

/-- Claims a session unless it has been claimed. -/
def Session.settled (x : Session) (c : Claim) : Session := { x with claim := x.claim.or (some c) }

theorem Session.claim_eq_none {x : Session} (hx : ¬ x.isSettled) : x.claim = none := by
  simpa [isSettled] using hx

theorem Session.settled_of_isSettled {x : Session} (hx : x.isSettled) (c : Claim) :
    x.settled c = x := by
  obtain ⟨d, hd⟩ := Option.isSome_iff_exists.1 hx
  simp only [settled, hd, Option.some_or]
  rw [← hd]

theorem Session.isSettled_settled (x : Session) (c : Claim) : (x.settled c).isSettled := by
  rw [isSettled, settled]
  cases x.claim <;> rfl

structure View where
  self : Session
  thread : List Frame
  beats : List Beat

namespace Hub

/-- The frames of a session, the top one first. -/
def thread (h : Hub) (sid : SessionId) : List Frame :=
  h.stack.filter fun f => f.session? = some sid

/-- The beats of a session, the oldest first. -/
def beats (h : Hub) (sid : SessionId) : List Beat :=
  (h.journal.filterMap (·.beat? sid)).reverse

def view (h : Hub) (sid : SessionId) : View := ⟨h.session sid, h.thread sid, h.beats sid⟩

/-- A session that has its own frame is running. -/
theorem isRunning_of_driving {h : Hub} {sid : SessionId} (hd : .driving sid ∈ h.thread sid) :
    h.isRunning sid :=
  List.any_eq_true.2 ⟨_, (List.mem_filter.1 hd).1, by simp⟩

/-! ### Views after the small operations -/

section
variable (h : Hub) (sid i : SessionId) (s : SubId)

theorem view_onSession (hi : i < h.sessions.length) (f : Session → Session) :
    (h.onSession i f).view sid =
      if sid = i then { h.view sid with self := f (h.view sid).self } else h.view sid := by
  have hv : (h.onSession i f).view sid =
      { h.view sid with self := (h.onSession i f).session sid } := rfl
  rw [hv, session_onSession h sid i hi]
  split <;> rfl

theorem view_push (f : Frame) :
    (h.push f).view sid =
      if f.session? = some sid then { h.view sid with thread := f :: (h.view sid).thread }
      else h.view sid := by
  by_cases hf : f.session? = some sid <;> simp [view, push, thread, session, beats, hf]

theorem view_of_stack {f : Frame} {rest : List Frame} (hst : h.stack = f :: rest) :
    h.view sid =
      if f.session? = some sid then { h.pop.view sid with thread := f :: (h.pop.view sid).thread }
      else h.pop.view sid := by
  by_cases hf : f.session? = some sid <;> simp [view, pop, thread, session, beats, hst, hf]

theorem view_note (x : Happening) :
    (h.note x).view sid =
      { h.view sid with beats := (h.view sid).beats ++ (x.beat? sid).toList } := by
  cases hx : x.beat? sid <;> simp [view, note, thread, session, beats, hx]

@[simp] theorem view_reply (a : Answer) : (h.reply a).view sid = h.view sid := rfl

@[simp] theorem view_onSub (f : Subscription → Subscription) :
    (h.onSub s f).view sid = h.view sid := rfl

@[simp] theorem view_setState (st : SubState) : (h.setState s st).view sid = h.view sid := rfl

theorem view_note_silent {x : Happening} (hx : x.beat? sid = none) :
    (h.note x).view sid = h.view sid := by
  rw [view_note, hx]; simp [view]

end

/-! ### Operations on subscriptions leave sessions alone -/

section
variable (h : Hub) (sid i : SessionId) (s : SubId)

@[simp] theorem view_setBusy (m : ModalId) (b : Bool) : (h.setBusy m b).view sid = h.view sid :=
  view_note_silent _ _ rfl

@[simp] theorem view_writeBusy (b : Bool) : (h.writeBusy i b).view sid = h.view sid := by
  unfold writeBusy; split <;> simp

@[simp] theorem view_disarm : (h.disarm s).view sid = h.view sid := by
  unfold disarm; dsimp only
  split
  · rw [view_note_silent _ _ rfl, view_onSub]
  · rw [view_onSub]

@[simp] theorem view_startCountdown (ms : Nat) : (h.startCountdown s ms).view sid = h.view sid := by
  unfold startCountdown; dsimp only
  split
  · rw [view_note_silent _ _ rfl, view_onSub]
    split
    · exact view_note_silent _ _ rfl
    · rfl
  · rfl

@[simp] theorem view_arm (d : Nat) : (arm d h s).view sid = h.view sid := by simp [arm]

@[simp] theorem view_armAll : (h.armAll i).view sid = h.view sid := by
  unfold armAll; dsimp only
  generalize (h.session i).members = l
  generalize (h.session i).timeout.getD h.settings.defaultTimeout = d
  induction l generalizing h with
  | nil => rfl
  | cons a l ih => rw [List.foldl_cons, ih, view_arm]

@[simp] theorem view_giveBack (l : LeaseId) : (h.giveBack s l).view sid = h.view sid := by
  rw [giveBack, view_push, if_neg (by simp [Frame.session?]), view_note_silent _ _ rfl]

theorem view_finish {f : Frame} (hf : f.session? = none) : (h.finish s f).view sid = h.view sid := by
  have hp : ((h.disarm s).push f).view sid = h.view sid := by simp [view_push, hf]
  unfold finish; dsimp only
  split
  · exact hp
  · rw [view_giveBack, view_onSub, hp]

@[simp] theorem view_cancel : (h.cancel s).view sid = h.view sid := by
  unfold cancel
  split
  · rw [view_finish _ _ _ rfl, view_setState]
  · rfl

theorem view_deliver (e : Envelope) : (h.deliver s e).view sid = h.view sid := by
  unfold deliver; dsimp only
  split
  · rw [view_reply, view_note_silent _ _ rfl]
  · split
    · rw [view_finish _ _ _ rfl, view_setState]
    · rw [view_reply, view_note_silent _ _ rfl]

theorem view_ring (g : Nat) : (h.ring s g).view sid = h.view sid := by
  unfold ring; dsimp only
  split
  · rw [view_reply, view_note_silent _ _ rfl]
  · split
    · rw [view_finish _ _ _ rfl, view_setState, view_onSub]
    · rw [view_reply, view_onSub]

theorem view_setTimeout (ms : Nat) : (h.setTimeout s ms).view sid = h.view sid := by
  unfold setTimeout; dsimp only
  split <;> simp

theorem view_grant (l : LeaseId) : (h.grant s l).view sid = h.view sid := by
  unfold grant; dsimp only
  split
  · rw [view_onSub, view_note_silent _ _ rfl]
  · rw [view_giveBack, view_note_silent _ _ rfl]

theorem view_decline (e : SubscribeError) : (h.decline s e).view sid = h.view sid := by
  unfold decline; dsimp only
  split
  · rw [view_disarm, view_setState, view_onSub, view_note_silent _ _ rfl]
  · rw [view_onSub, view_note_silent _ _ rfl]

end

/-! ### Operations on sessions -/

section
variable {h : Hub} {i : SessionId} (hi : i < h.sessions.length) (sid : SessionId)
include hi

theorem view_setPhase (p : Phase) :
    (h.setPhase i p).view sid =
      if sid = i then { h.view sid with self.phase := p } else h.view sid :=
  view_onSession _ _ _ hi _

theorem view_settle (c : Claim) :
    (h.settle i c).view sid =
      if sid = i then { h.view sid with self := (h.view sid).self.settled c } else h.view sid := by
  have hf : ∀ x : Session, (if x.isSettled then x else { x with claim := some c }) = x.settled c := by
    rintro ⟨_, _, _, claim, _⟩
    cases claim <;> rfl
  unfold settle
  rw [view_onSession _ _ _ hi, hf]

theorem view_report (r : Report) :
    (h.report i r).view sid =
      if sid = i then { h.view sid with self.reports := (h.view sid).self.reports ++ [r] }
      else h.view sid := by
  unfold report
  rw [view_note_silent _ _ rfl]
  exact view_onSession _ _ _ hi _

theorem view_release (c : Claim) :
    (h.release i c).view sid =
      if sid = i then { h.view sid with self := (h.view sid).self.settled c } else h.view sid := by
  unfold release
  rw [view_push, if_neg (by simp [Frame.session?]), view_settle hi]

theorem view_close (e : Ending) :
    (h.close i e).view sid =
      if sid = i then
        { h.view sid with self := ({ (h.view sid).self with phase := .closing e }).settled .ended }
      else h.view sid := by
  unfold close
  rw [view_release (by simpa [setPhase] using hi), view_setPhase hi]
  split <;> rfl

theorem view_conclude (e : Ending) :
    (h.conclude i e).view sid =
      if sid = i then
        { h.view sid with self := ({ (h.view sid).self with phase := .closing e }).settled .ended }
      else h.view sid := by
  unfold conclude
  rw [view_close (by simpa using hi), view_note_silent _ _ rfl]

theorem view_begin (k : HookId) (arg : Argument) :
    (h.begin i k arg).view i =
      ⟨{ h.session i with running := some (k, arg) }, .hook i k arg :: h.thread i,
        h.beats i ++ [.begins k arg]⟩ := by
  rw [begin, view_push, if_pos (by rfl), view_note, view_onSession _ _ _ hi, if_pos rfl]
  simp [Happening.beat?, view]

end

/-! ### Other sessions -/

section
variable {h : Hub} {sid i : SessionId} (hne : sid ≠ i)
include hne

theorem view_onSession_other (f : Session → Session) : (h.onSession i f).view sid = h.view sid := by
  have hs : (h.onSession i f).session sid = h.session sid := by
    have hi : ¬ i = sid := fun e => hne e.symm
    simp [session, onSession, hi]
  exact congrArg (View.mk · (h.thread sid) (h.beats sid)) hs

theorem view_push_other {f : Frame} (hf : f.session? = some i) : (h.push f).view sid = h.view sid := by
  rw [view_push, if_neg (by rw [hf]; exact fun e => hne (Option.some.inj e).symm)]

theorem view_note_other {x : Happening} (hx : ∀ b, x.beat? sid = some b → sid = i) :
    (h.note x).view sid = h.view sid := by
  apply view_note_silent
  cases hb : x.beat? sid with
  | none => rfl
  | some b => exact absurd (hx b hb) hne

theorem view_setPhase_other (p : Phase) : (h.setPhase i p).view sid = h.view sid :=
  view_onSession_other hne _

theorem view_release_other (c : Claim) : (h.release i c).view sid = h.view sid := by
  rw [release, view_push, if_neg (by simp [Frame.session?])]
  exact view_onSession_other hne _

theorem view_close_other (e : Ending) : (h.close i e).view sid = h.view sid := by
  rw [close, view_release_other hne, view_setPhase_other hne]

theorem view_conclude_other (e : Ending) : (h.conclude i e).view sid = h.view sid := by
  rw [conclude, view_close_other hne, view_note_silent _ _ rfl]

theorem view_begin_other (k : HookId) (arg : Argument) : (h.begin i k arg).view sid = h.view sid := by
  rw [begin, view_push_other hne rfl, view_note_other hne, view_onSession_other hne]
  intro b hb
  simp only [Happening.beat?] at hb
  split at hb
  · next e => exact e.symm
  · cases hb

theorem view_handleFailure_other (e : PostError) : (h.handleFailure i e).view sid = h.view sid := by
  unfold handleFailure
  split
  · rw [view_conclude_other hne, view_note_silent _ _ rfl]
  · rw [view_setPhase_other hne, view_note_silent _ _ rfl]

theorem view_resolve_other (r : Report) : (h.resolve i r).view sid = h.view sid := by
  unfold resolve; dsimp only
  split
  · split
    · rw [view_setPhase_other hne, view_note_silent _ _ rfl]
    · rw [view_conclude_other hne]
  · split
    · rw [view_setPhase_other hne, view_note_silent _ _ rfl]
    · rw [view_conclude_other hne]
  · rw [view_handleFailure_other hne]
  · rw [view_setPhase_other hne]

theorem view_postReplied_other {r : PostReply} (hr : r ≠ .suspended) :
    (h.postReplied i r).view sid = h.view sid := by
  unfold postReplied; dsimp only
  split
  · rw [view_setPhase_other hne, view_note_other hne]
    intro b hb
    simp only [Happening.beat?] at hb
    split at hb
    · next e => exact e.symm
    · cases hb
  · next e =>
    have hn : (h.note (.postFailed i e)).view sid = h.view sid := by
      apply view_note_other hne
      intro b hb
      simp only [Happening.beat?] at hb
      split at hb
      · next e => exact e.symm
      · cases hb
    split
    · rw [view_release_other hne, view_setPhase_other hne, hn]
    · split
      · rw [view_release_other hne, view_setPhase_other hne, hn]
      · rw [view_setPhase_other hne, view_note_silent _ _ rfl, hn]
  · exact absurd rfl hr

theorem view_pop_other {f : Frame} {rest : List Frame} (hst : h.stack = f :: rest)
    (hf : f.session? = some i) : h.pop.view sid = h.view sid := by
  rw [view_of_stack _ _ hst, if_neg (by rw [hf]; exact fun e => hne (Option.some.inj e).symm)]

theorem view_await_other {rest : List Frame} (hst : h.stack = .driving i :: rest) :
    (h.await i).view sid = h.view sid := by
  unfold await; dsimp only
  split
  · split
    · rw [view_conclude_other hne]
    · rw [view_reply, view_pop_other hne hst rfl]
  · split
    · rw [view_release_other hne, view_setPhase_other hne, view_note_silent _ _ rfl,
        view_onSession_other hne]
    · rw [view_note_silent _ _ rfl, view_onSession_other hne]
  · rw [view_release_other hne, view_onSession_other hne]

end

/-- Writing to the modal surface is all that is left to do of a session besides its own record. -/
theorem leave_eq (h : Hub) (i : SessionId) (e : Ending) :
    ∃ g : Hub, (∀ sid, g.view sid = h.view sid) ∧ g.sessions = h.sessions ∧ g.stack = h.stack ∧
      h.leave i e = ((g.onSession i fun x =>
        { x with phase := .ended e, holders := x.holders - 1 }).pop).reply .finished := by
  unfold leave; dsimp only
  split
  · exact ⟨h, fun _ => rfl, rfl, rfl, rfl⟩
  · exact ⟨_, fun _ => view_setBusy _ _ _ _, rfl, rfl, rfl⟩
  · refine ⟨_, fun sid => ?_, ?_, ?_, rfl⟩
    · rw [view_setBusy]
      split
      · rw [view_note_silent _ _ rfl, view_setBusy]
      · rw [view_setBusy]
    · split <;> rfl
    · split <;> rfl

/-- Preparing a session tells its token of it. -/
theorem prepare_eq (h : Hub) (i : SessionId) :
    ∃ (g : Hub) (c : Bool), (∀ sid, g.view sid = h.view sid) ∧ g.sessions = h.sessions ∧
      g.stack = h.stack ∧ h.prepare i = (g.onSession i fun x =>
        { x with cancelled := c, holders := 1, phase := .configuring }).push (.configuring i) := by
  unfold prepare; dsimp only
  cases (h.session i).token with
  | none => exact ⟨h, _, fun _ => rfl, rfl, rfl, rfl⟩
  | some t =>
    exact ⟨{ h with tokens := h.tokens.modify t fun k => { k with sessions := i :: k.sessions } },
      _, fun _ => rfl, rfl, rfl, rfl⟩

end Hub
end Aftermath
