import Aftermath.Proofs.Outward

/-! What a modal surface is told: that it is busy, that it is free, and to close. Only a session that
writes its flag tells it anything. -/

namespace Aftermath

/-- A surface was told something. -/
def Happening.isNotice : Happening → Bool
  | .busy _ _ | .closing _ => true
  | _ => false

def Happening.written? (k : ModalId) : Happening → Option Bool
  | .busy m b => if m = k then some b else none
  | _ => none

namespace Hub

/-- What the surfaces have been told, the newest first. -/
def notices (h : Hub) : List Happening := h.journal.filter Happening.isNotice

/-- What its surface is told when a session leaves with an ending, the newest first. -/
def farewell (k : ModalId) : Ending → List Happening
  | .panicked _ => [.busy k false]
  | e => .busy k false :: ((if e.isPositive then [.closing k] else []) ++ [.busy k false])

/-- What the surfaces are told in a move, the newest first. -/
def telling (h : Hub) : Move → List Happening
  | .step =>
    match h.writes? with
    | none => []
    | some (i, b) =>
      match (h.session i).modal with
      | none => []
      | some k =>
        match (h.session i).phase with
        | .closing e => farewell k e
        | _ => [.busy k b]
  | _ => []

/-! ### Operations that tell nothing -/

section
variable (h : Hub) (i : SessionId) (s : SubId)

@[simp] theorem notices_note (x : Happening) :
    (h.note x).notices = if x.isNotice then x :: h.notices else h.notices := by
  simp [notices, note, List.filter_cons]

attribute [simp] Happening.isNotice

@[simp] theorem notices_push (f : Frame) : (h.push f).notices = h.notices := rfl

@[simp] theorem notices_pop : h.pop.notices = h.notices := rfl

@[simp] theorem notices_reply (a : Answer) : (h.reply a).notices = h.notices := rfl

@[simp] theorem notices_onSub (f : Subscription → Subscription) :
    (h.onSub s f).notices = h.notices := rfl

@[simp] theorem notices_onSession (f : Session → Session) :
    (h.onSession i f).notices = h.notices := rfl

@[simp] theorem notices_setState (st : SubState) : (h.setState s st).notices = h.notices := rfl

@[simp] theorem notices_setPhase (p : Phase) : (h.setPhase i p).notices = h.notices := rfl

@[simp] theorem notices_settle (c : Claim) : (h.settle i c).notices = h.notices := rfl

@[simp] theorem notices_report (r : Report) : (h.report i r).notices = h.notices := by simp [report]

@[simp] theorem notices_disarm : (h.disarm s).notices = h.notices := by
  unfold disarm; dsimp only; split <;> simp

@[simp] theorem notices_startCountdown (ms : Nat) :
    (h.startCountdown s ms).notices = h.notices := by
  unfold startCountdown; dsimp only; split
  · split <;> simp
  · rfl

@[simp] theorem notices_foldl_arm (d : Nat) (l : List SubId) :
    (l.foldl (arm d) h).notices = h.notices := by
  induction l generalizing h with
  | nil => rfl
  | cons a l ih => rw [List.foldl_cons, ih]; simp [arm]

@[simp] theorem notices_armAll : (h.armAll i).notices = h.notices := notices_foldl_arm _ _ _

@[simp] theorem notices_giveBack (l : LeaseId) : (h.giveBack s l).notices = h.notices := by
  simp [giveBack]

@[simp] theorem notices_finish (f : Frame) : (h.finish s f).notices = h.notices := by
  unfold finish; dsimp only; split <;> simp

@[simp] theorem notices_cancel : (h.cancel s).notices = h.notices := by
  unfold cancel; split <;> simp

@[simp] theorem notices_deliver (e : Envelope) : (h.deliver s e).notices = h.notices := by
  unfold deliver; dsimp only; split
  · simp
  · split <;> simp

@[simp] theorem notices_ring (g : Nat) : (h.ring s g).notices = h.notices := by
  unfold ring; dsimp only; split
  · simp
  · split <;> simp

@[simp] theorem notices_fail (e : NetworkError) : (h.fail s e).notices = h.notices := by
  unfold fail; dsimp only; split <;> simp

@[simp] theorem notices_settleEvent (e : Envelope) : (h.settleEvent s e).notices = h.notices := by
  unfold settleEvent; dsimp only; split <;> simp

@[simp] theorem notices_settleTimeout : (h.settleTimeout s).notices = h.notices := by
  unfold settleTimeout; dsimp only; split <;> simp

@[simp] theorem notices_reportCancel : (h.reportCancel s).notices = h.notices := by
  simp [reportCancel]

@[simp] theorem notices_setTimeout (ms : Nat) : (h.setTimeout s ms).notices = h.notices := by
  unfold setTimeout; dsimp only; split <;> simp

@[simp] theorem notices_grant (l : LeaseId) : (h.grant s l).notices = h.notices := by
  unfold grant; dsimp only; split <;> simp

@[simp] theorem notices_decline (e : SubscribeError) : (h.decline s e).notices = h.notices := by
  unfold decline; dsimp only; split <;> simp

@[simp] theorem notices_register : (h.register i s).notices = h.notices := by
  unfold register; dsimp only; split <;> simp

@[simp] theorem notices_subscribe (key : Key) (kind : Kind) :
    (h.subscribe i key kind).notices = h.notices := by
  unfold subscribe; dsimp only
  rw [notices_register]
  rfl

@[simp] theorem notices_release (c : Claim) : (h.release i c).notices = h.notices := by
  simp [release]

@[simp] theorem notices_releaseStep (l : List SubId) (n : Nat) :
    (h.releaseStep i l n).notices = h.notices := by
  unfold releaseStep; split
  · split <;> simp
  · split <;> simp

@[simp] theorem notices_cancelAll : (h.cancelAll i).notices = h.notices := by
  unfold cancelAll; dsimp only; rw [notices_release]; split <;> simp

@[simp] theorem notices_cancelToken (t : TokenId) : (h.cancelToken t).notices = h.notices := by
  unfold cancelToken; dsimp only; split
  · rfl
  · generalize hh : { h with tokens := _ } = h1
    have hs : h1.notices = h.notices := by rw [← hh]; rfl
    rw [← hs]
    generalize (h.token t).sessions = l
    clear hh hs
    induction l generalizing h1 with
    | nil => rfl
    | cons a l ih => rw [List.foldl_cons, ih]; split <;> simp

@[simp] theorem notices_close (e : Ending) : (h.close i e).notices = h.notices := by simp [close]

@[simp] theorem notices_conclude (e : Ending) : (h.conclude i e).notices = h.notices := by
  simp [conclude]

@[simp] theorem notices_begin (k : HookId) (arg : Argument) :
    (h.begin i k arg).notices = h.notices := by simp [begin]

@[simp] theorem notices_handleFailure (e : PostError) :
    (h.handleFailure i e).notices = h.notices := by
  unfold handleFailure; split <;> simp

@[simp] theorem notices_resolve (r : Report) : (h.resolve i r).notices = h.notices := by
  unfold resolve; dsimp only; split
  · split <;> simp
  · split <;> simp
  · simp
  · simp

@[simp] theorem notices_await : (h.await i).notices = h.notices := by
  unfold await; dsimp only; split
  · split <;> simp
  · split <;> simp
  · simp

@[simp] theorem notices_configured : (h.configured i).notices = h.notices := by simp [configured]

@[simp] theorem notices_prepare : (h.prepare i).notices = h.notices := by
  unfold prepare; dsimp only
  rw [notices_push, notices_onSession]
  split <;> rfl

@[simp] theorem notices_enter : (h.enter i).notices = h.notices := by
  unfold enter; dsimp only; split
  · simp
  · split
    · simp
    · split <;> simp

@[simp] theorem notices_drop : (h.drop i).notices = h.notices := by
  unfold drop; dsimp only; split <;> simp

@[simp] theorem notices_hookReplied (k : HookId) (r : HookReply) :
    (h.hookReplied i k r).notices = h.notices := by
  unfold hookReplied; dsimp only; split <;> simp

@[simp] theorem notices_postReplied (r : PostReply) : (h.postReplied i r).notices = h.notices := by
  unfold postReplied; dsimp only; split
  · simp
  · split
    · simp
    · split <;> simp
  · simp

end

/-! ### Sessions that write their flag -/

section
variable {h h' : Hub} {i : SessionId} {m : Move} {k : ModalId} {rest : List Frame}

theorem notices_setBusy (h : Hub) (k : ModalId) (b : Bool) :
    (h.setBusy k b).notices = .busy k b :: h.notices := by
  rw [setBusy, notices_note]; rfl

theorem notices_writeBusy (h : Hub) (i : SessionId) (b : Bool) :
    (h.writeBusy i b).notices =
      ((h.session i).modal.map fun k => Happening.busy k b).toList ++ h.notices := by
  unfold writeBusy
  cases (h.session i).modal with
  | none => rfl
  | some k => exact notices_setBusy h k b

theorem notices_leave (h : Hub) (i : SessionId) (e : Ending) :
    (h.leave i e).notices =
      ((h.session i).modal.map fun k => farewell k e).getD [] ++ h.notices := by
  unfold leave; dsimp only
  rw [notices_reply, notices_pop, notices_onSession]
  cases (h.session i).modal with
  | none => rfl
  | some k =>
    cases e with
    | panicked text => exact notices_setBusy h k false
    | failed f => simp [farewell, notices_setBusy, Ending.isPositive]
    | resolved o =>
      dsimp only
      split
      · next hp => simp [farewell, notices_setBusy, hp]
      · next hp => simp [farewell, notices_setBusy, hp]

theorem notices_drive (hst : h.stack = .driving i :: rest) :
    (h.drive i).notices = h.telling .step ++ h.notices := by
  unfold drive telling writes?
  rw [hst]; dsimp only
  cases hr : (h.session i).running with
  | some r => rfl
  | none =>
    cases hp : (h.session i).phase with
    | checking =>
      cases hc : (h.session i).isSettled <;> cases ha : h.allActive i <;>
        simp only [Bool.not_true, Bool.not_false, Bool.and_true, Bool.and_false, Bool.or_true,
          Bool.or_false, if_true, if_false, Bool.false_eq_true, notices_setPhase, notices_release,
          Option.isSome_none]
      · rfl
      · rw [notices_writeBusy]
        cases (h.session i).modal with
        | none => rfl
        | some k => simp only [hp]; rfl
      · rfl
      · rfl
    | closing e =>
      simp only [Option.isSome_none, Bool.false_eq_true, if_false, hp]
      rw [notices_leave]
      cases (h.session i).modal <;> rfl
    | dropping =>
      simp only [Option.isSome_none, Bool.false_eq_true, if_false, hp]
      rw [notices_reply, notices_pop, notices_onSession, notices_writeBusy]
      cases (h.session i).modal <;> rfl
    | preparing l =>
      change _ = h.notices
      cases l <;> simp [apply_ite notices]
    | acknowledging l =>
      change _ = h.notices
      cases l <;> simp [apply_ite notices]
    | handling l =>
      change _ = h.notices
      cases l <;> simp
    | _ =>
      change _ = h.notices
      simp

/-- What the surfaces have been told after a move. -/
theorem notices_move (hm : Moved h m h') : h'.notices = h.telling m ++ h.notices := by
  have still : ∀ {f : Frame} {rest : List Frame}, h.stack = f :: rest → (∀ i, f ≠ .driving i) →
      h.telling .step = [] := fun hst hf => by rw [telling, writes?_of_stack hst hf]
  cases hm with
  | settleEvent hst | settleTimeout hst | reportCancel hst | releaseStep hst | enter hst =>
    rw [still hst (by simp)]
    simp
  | drive hst => exact notices_drive hst
  | pass | newToken | newModal | openSession => rfl
  | _ => simp [telling]

end
end Hub
end Aftermath
