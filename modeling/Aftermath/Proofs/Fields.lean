import Aftermath.Hub.Move

/-! What the small operations of a hub do to its subscriptions, its sessions and its stack. Each
changes one of them and leaves the others alone. -/

namespace Aftermath.Hub

/-! ### Records after an update -/

section
variable (h : Hub) (sid i : SessionId) (s t : SubId)

theorem getD_modify {α : Type} (l : List α) (f : α → α) (i j : Nat) (d : α) (hi : i < l.length) :
    (l.modify i f).getD j d = if j = i then f (l.getD j d) else l.getD j d := by
  by_cases hij : i = j
  · subst hij; simp [hi]
  · have : ¬ j = i := fun e => hij e.symm
    simp [hij, this]

theorem session_onSession (hi : i < h.sessions.length) (f : Session → Session) :
    (h.onSession i f).session sid = if sid = i then f (h.session sid) else h.session sid :=
  getD_modify _ _ _ _ _ hi

theorem sub_onSub (hs : s < h.subs.length) (f : Subscription → Subscription) :
    (h.onSub s f).sub t = if t = s then f (h.sub t) else h.sub t :=
  getD_modify _ _ _ _ _ hs

@[simp] theorem sessions_length_onSession (f : Session → Session) :
    (h.onSession i f).sessions.length = h.sessions.length := by simp [onSession]

@[simp] theorem subs_length_onSub (f : Subscription → Subscription) :
    (h.onSub s f).subs.length = h.subs.length := by simp [onSub]

end

/-! ### Sessions -/

section
variable (h : Hub) (i : SessionId) (s : SubId)

@[simp] theorem sessions_note (x : Happening) : (h.note x).sessions = h.sessions := rfl

@[simp] theorem sessions_push (f : Frame) : (h.push f).sessions = h.sessions := rfl

@[simp] theorem sessions_pop : h.pop.sessions = h.sessions := rfl

@[simp] theorem sessions_reply (a : Answer) : (h.reply a).sessions = h.sessions := rfl

@[simp] theorem sessions_onSub (f : Subscription → Subscription) :
    (h.onSub s f).sessions = h.sessions := rfl

@[simp] theorem sessions_setState (st : SubState) : (h.setState s st).sessions = h.sessions := rfl

@[simp] theorem sessions_writeBusy (b : Bool) : (h.writeBusy i b).sessions = h.sessions := by
  unfold writeBusy; split <;> rfl

@[simp] theorem sessions_disarm : (h.disarm s).sessions = h.sessions := by
  unfold disarm; dsimp only; split <;> rfl

@[simp] theorem sessions_startCountdown (ms : Nat) :
    (h.startCountdown s ms).sessions = h.sessions := by
  unfold startCountdown; dsimp only; split
  · split <;> rfl
  · rfl

@[simp] theorem sessions_arm (d : Nat) : (arm d h s).sessions = h.sessions := by simp [arm]

@[simp] theorem sessions_foldl_arm (d : Nat) (l : List SubId) :
    (l.foldl (arm d) h).sessions = h.sessions := by
  induction l generalizing h with
  | nil => rfl
  | cons a l ih => rw [List.foldl_cons, ih, sessions_arm]

@[simp] theorem sessions_armAll : (h.armAll i).sessions = h.sessions := sessions_foldl_arm _ _ _

@[simp] theorem sessions_giveBack (l : LeaseId) : (h.giveBack s l).sessions = h.sessions := rfl

@[simp] theorem sessions_finish (f : Frame) : (h.finish s f).sessions = h.sessions := by
  unfold finish; dsimp only; split <;> simp

@[simp] theorem sessions_cancel : (h.cancel s).sessions = h.sessions := by
  unfold cancel; split <;> simp

@[simp] theorem session_pop : h.pop.session i = h.session i := rfl

theorem session_eq {h h' : Hub} (hs : h'.sessions = h.sessions) (sid : SessionId) :
    h'.session sid = h.session sid := by unfold session; rw [hs]

end

/-! ### Subscriptions -/

section
variable (h : Hub) (i : SessionId) (s t : SubId)

@[simp] theorem subs_note (x : Happening) : (h.note x).subs = h.subs := rfl

@[simp] theorem subs_push (f : Frame) : (h.push f).subs = h.subs := rfl

@[simp] theorem subs_pop : h.pop.subs = h.subs := rfl

@[simp] theorem subs_onSession (f : Session → Session) : (h.onSession i f).subs = h.subs := rfl

theorem subs_fail (e : NetworkError) : (h.fail s e).subs = h.subs := by
  unfold fail; dsimp only; split <;> rfl

@[simp] theorem sub_pop : h.pop.sub t = h.sub t := rfl

@[simp] theorem sub_push (f : Frame) : (h.push f).sub t = h.sub t := rfl

@[simp] theorem sub_onSession (f : Session → Session) : (h.onSession i f).sub t = h.sub t := rfl

theorem sub_eq {h h' : Hub} (hs : h'.subs = h.subs) (t : SubId) : h'.sub t = h.sub t := by
  unfold sub; rw [hs]

variable {h s t}

theorem sub_setState (hs : s < h.subs.length) (st : SubState) :
    (h.setState s st).sub t = if t = s then { h.sub t with state := st } else h.sub t :=
  sub_onSub _ _ _ hs _

theorem sub_disarm (hs : s < h.subs.length) :
    (h.disarm s).sub t =
      if t = s then { h.sub t with countdown := (h.sub t).countdown.cancel } else h.sub t := by
  have hd : (h.disarm s).subs =
      (h.onSub s fun sub => { sub with countdown := (h.sub s).countdown.cancel }).subs := by
    unfold disarm; dsimp only; split <;> rfl
  rw [sub_eq hd, sub_onSub _ _ _ hs]
  split
  · next e => rw [e]
  · rfl

@[simp] theorem subs_length_disarm : (h.disarm s).subs.length = h.subs.length := by
  unfold disarm; dsimp only; split <;> simp

/-- A countdown starts at once and replaces the one before. -/
theorem sub_startCountdown (hs : s < h.subs.length) (ms : Nat) :
    (h.startCountdown s ms).sub t =
      if t = s ∧ (h.sub t).isActive then
        { h.sub t with countdown := (h.sub t).countdown.arm (h.clock + ms) }
      else h.sub t := by
  by_cases ha : (h.sub s).isActive
  · have hd : (h.startCountdown s ms).subs = (h.onSub s fun sub =>
        { sub with countdown := (h.sub s).countdown.arm (h.clock + ms) }).subs := by
      unfold startCountdown; simp only [ha, if_true]; split <;> rfl
    rw [sub_eq hd, sub_onSub _ _ _ hs]
    by_cases hts : t = s
    · subst hts; simp [ha]
    · simp [hts]
  · have hd : (h.startCountdown s ms).subs = h.subs := by
      unfold startCountdown; simp only [ha]; rfl
    rw [sub_eq hd]
    by_cases hts : t = s
    · subst hts; simp [ha]
    · simp [hts]

@[simp] theorem subs_length_startCountdown (ms : Nat) :
    (h.startCountdown s ms).subs.length = h.subs.length := by
  unfold startCountdown; dsimp only; split
  · split <;> simp
  · rfl

@[simp] theorem clock_startCountdown (ms : Nat) : (h.startCountdown s ms).clock = h.clock := by
  unfold startCountdown; dsimp only; split
  · split <;> rfl
  · rfl

/-- What remains of a subscription that has left `active`. -/
theorem sub_finish (hs : s < h.subs.length) (f : Frame) :
    (h.finish s f).sub t =
      if t = s then { h.sub t with countdown := (h.sub t).countdown.cancel, lease := none }
      else h.sub t := by
  have hd := sub_disarm (t := t) hs
  unfold finish; dsimp only
  split
  · next hl =>
    rw [sub_eq (subs_push _ _), hd]
    by_cases hts : t = s
    · subst hts
      have hn : (h.sub t).lease = none := by
        rw [sub_eq (subs_push _ _), hd, if_pos rfl] at hl; exact hl
      rw [if_pos rfl, if_pos rfl, ← hn]
    · rw [if_neg hts, if_neg hts]
  · rw [giveBack, sub_eq (subs_push _ _), sub_eq (subs_note _ _), sub_onSub _ _ _ (by simpa using hs),
      sub_eq (subs_push _ _), hd]
    split <;> rfl

end

/-! ### The stack -/

section
variable (h : Hub) (i : SessionId) (s : SubId)

variable {h} in
theorem stack_pop {f : Frame} {rest : List Frame} (hst : h.stack = f :: rest) : h.pop.stack = rest := by
  rw [pop, hst]
  rfl

@[simp] theorem stack_push (f : Frame) : (h.push f).stack = f :: h.stack := rfl

@[simp] theorem stack_note (x : Happening) : (h.note x).stack = h.stack := rfl

@[simp] theorem stack_reply (a : Answer) : (h.reply a).stack = h.stack := rfl

@[simp] theorem stack_onSub (f : Subscription → Subscription) : (h.onSub s f).stack = h.stack := rfl

@[simp] theorem stack_onSession (f : Session → Session) : (h.onSession i f).stack = h.stack := rfl

@[simp] theorem stack_setState (st : SubState) : (h.setState s st).stack = h.stack := rfl

@[simp] theorem stack_setPhase (p : Phase) : (h.setPhase i p).stack = h.stack := rfl

@[simp] theorem stack_writeBusy (b : Bool) : (h.writeBusy i b).stack = h.stack := by
  unfold writeBusy; split <;> rfl

@[simp] theorem stack_release (c : Claim) :
    (h.release i c).stack = .releasing i (h.session i).members 0 :: h.stack := rfl

@[simp] theorem stack_disarm : (h.disarm s).stack = h.stack := by
  unfold disarm; dsimp only; split <;> rfl

@[simp] theorem stack_startCountdown (ms : Nat) : (h.startCountdown s ms).stack = h.stack := by
  unfold startCountdown; dsimp only; split
  · split <;> rfl
  · rfl

@[simp] theorem stack_foldl_arm (d : Nat) (l : List SubId) :
    (l.foldl (arm d) h).stack = h.stack := by
  induction l generalizing h with
  | nil => rfl
  | cons a l ih => rw [List.foldl_cons, ih]; simp [arm]

theorem stack_setTimeout (ms : Nat) : (h.setTimeout s ms).stack = h.stack := by
  unfold setTimeout; dsimp only
  split
  · rw [stack_startCountdown]; rfl
  · rfl

theorem stack_reportCancel : (h.reportCancel s).stack = h.stack := rfl

theorem stack_settleEvent (e : Envelope) : (h.settleEvent s e).stack = h.stack := by
  unfold settleEvent; dsimp only
  split <;> rfl

theorem stack_settleTimeout : (h.settleTimeout s).stack = h.stack := by
  unfold settleTimeout; dsimp only
  split <;> rfl

theorem stack_decline (e : SubscribeError) : (h.decline s e).stack = h.stack := by
  unfold decline; dsimp only
  split <;> simp

theorem stack_grant (l : LeaseId) :
    (h.grant s l).stack = h.stack ∨ (h.grant s l).stack = .unsubscribing l :: h.stack := by
  unfold grant; dsimp only
  split
  · exact .inl rfl
  · exact .inr rfl

theorem stack_fail (e : NetworkError) : (h.fail s e).stack = h.stack := by
  unfold fail; dsimp only; split <;> rfl

@[simp] theorem stack_armAll : (h.armAll i).stack = h.stack := stack_foldl_arm _ _ _

/-- The lease goes back first, then comes what remains to be done. -/
theorem stack_finish (f : Frame) :
    (h.finish s f).stack = ((h.disarm s).sub s).lease.toList.map .unsubscribing ++ f :: h.stack := by
  unfold finish; dsimp only
  rw [sub_eq (subs_push _ _)]
  split <;> rename_i hl <;> simp [hl, giveBack]

end
end Aftermath.Hub
