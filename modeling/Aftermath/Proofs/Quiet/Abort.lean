import Aftermath.Proofs.Quiet

/-! A session that was cancelled ends when it runs next: it cancels whatever is still active and
nothing more is heard of it. -/

namespace Aftermath.Hub

/-! ### Members -/

section
variable {h h' : Hub} {sid : SessionId} {x y : View}

theorem Turn.nodup (ht : Turn h h' sid x y) (hd : x.self.members.Nodup) : y.self.members.Nodup := by
  cases ht
  case opens => exact List.nodup_nil
  case enrols hn _ => exact List.nodup_append.2 ⟨hd, by simp, by rintro a ha b hb rfl; simp_all⟩
  case subscribes hn _ => exact List.nodup_append.2 ⟨hd, by simp, by rintro a ha b hb rfl; simp_all⟩
  case drives hd' => cases hd' <;> exact hd
  all_goals exact hd

/-- No subscription is a member twice. -/
theorem Reachable.nodup (hr : Reachable h) (sid : SessionId) : (h.session sid).members.Nodup := by
  induction hr using Reachable.induct with
  | init settings => exact List.nodup_nil
  | move a b m ha hm ih => exact (move_turn ha.wired (moved_of_move? hm) sid).nodup ih

end

/-! ### Releases -/

section
variable {h : Hub} {sid i : SessionId} {c : Claim} {t : SubId}

theorem session_settled (hi : i < h.sessions.length) (c : Claim) (sid : SessionId) :
    (h.settle i c).session sid =
      if sid = i then (h.session sid).settled c else h.session sid := by
  have hv := congrArg View.self (view_settle hi sid c)
  rw [show (h.settle i c).session sid = ((h.settle i c).view sid).self from rfl, hv]
  split <;> rfl

def swept (h : Hub) (sid : SessionId) (t : SubId) : Subscription :=
  if t ∈ (h.session sid).members ∧ (h.sub t).isActive then (h.sub t).ousted else h.sub t

def released (h : Hub) (sid : SessionId) (c : Claim) : Hub :=
  sweep sid (h.session sid).members 0 (h.settle sid c)

theorem released_returns (h : Hub) (sid : SessionId) (c : Claim) :
    Returns h.stack (h.release sid c) (h.released sid c) :=
  release_returns (h.settle sid c) sid _ 0

theorem stack_released : (h.released sid c).stack = h.stack := stack_sweep

theorem beats_released : (h.released sid c).beats i = h.beats i := beats_sweep

end

/-- The members of a session can be cancelled one by one. -/
structure Sound (h : Hub) (sid : SessionId) : Prop where
  exist : sid < h.sessions.length
  each : ∀ s ∈ (h.session sid).members, s < h.subs.length ∧ (h.sub s).home < h.sessions.length
  nodup : (h.session sid).members.Nodup

theorem Reachable.sound {h : Hub} {sid : SessionId} (hr : Reachable h)
    (hi : sid < h.sessions.length) : Sound h sid where
  exist := hi
  each s hs := ⟨hr.wired.members sid s hs, hr.wired.homes s (hr.wired.members sid s hs)⟩
  nodup := hr.nodup sid

section
variable {h h' : Hub} {sid i : SessionId} {c : Claim} {t : SubId}

theorem Sound.of_eq (hs : Sound h sid) (hl : h'.sessions.length = h.sessions.length)
    (hm : (h'.session sid).members = (h.session sid).members) (hsub : h'.subs = h.subs) :
    Sound h' sid where
  exist := by rw [hl]; exact hs.exist
  each s hin := by
    rw [hm] at hin
    rw [hsub, sub_eq hsub, hl]
    exact hs.each s hin
  nodup := by rw [hm]; exact hs.nodup

theorem Sound.sub_released (hs : Sound h sid) : (h.released sid c).sub t = h.swept sid t :=
  sub_sweep fun s hin => (hs.each s hin).1

theorem Sound.sweepable (hs : Sound h sid) (c : Claim) : ∀ s ∈ (h.session sid).members,
    s < (h.settle sid c).subs.length ∧ ((h.settle sid c).sub s).home < (h.settle sid c).sessions.length :=
  fun s hin => ⟨(hs.each s hin).1, by
    rw [show (h.settle sid c).sessions.length = h.sessions.length from sessions_length_onSession _ _ _]
    exact (hs.each s hin).2⟩

theorem Sound.session_released (hs : Sound h sid) :
    (h.released sid c).session sid =
      { (h.session sid).settled c with
        reports := (h.session sid).reports ++ h.outcries sid (h.session sid).members } := by
  rw [released, session_sweep (hs.sweepable c) hs.nodup, session_settled hs.exist, if_pos rfl]
  rfl

theorem Sound.answer_released (hs : Sound h sid) :
    (h.released sid c).answer = .count (h.activeCount sid) := by
  rw [released, answer_sweep (h := h.settle sid c) (fun s hin => (hs.each s hin).1) hs.nodup,
    Nat.zero_add, activeCount, Hub.members, List.countP_map]
  rfl

theorem Sound.released (hs : Sound h sid) (c : Claim) : Sound (h.released sid c) sid where
  exist := by
    rw [Hub.released, sessions_length_sweep]
    exact (sessions_length_onSession _ _ _).symm ▸ hs.exist
  each s hin := by
    rw [hs.session_released] at hin
    rw [hs.sub_released, Hub.released, subs_length_sweep, sessions_length_sweep]
    have hk := hs.sweepable c s hin
    refine ⟨hk.1, ?_⟩
    unfold swept
    split
    · exact hk.2
    · exact hk.2
  nodup := by rw [hs.session_released]; exact hs.nodup

theorem isActive_swept (ht : t ∈ (h.session sid).members) : (h.swept sid t).isActive = false := by
  unfold swept
  split
  · rfl
  · next hn => exact Bool.eq_false_iff.2 fun ha => hn ⟨ht, ha⟩

/-- Nothing is active after a release. -/
theorem Sound.inactive_released (hs : Sound h sid) :
    ∀ s ∈ ((h.released sid c).session sid).members, ((h.released sid c).sub s).isActive = false := by
  intro s hin
  rw [hs.session_released] at hin
  rw [hs.sub_released]
  exact isActive_swept hin

/-- A release of a session in which nothing is active changes no subscription and reports nothing. -/
theorem swept_of_inactive (hn : ∀ s ∈ (h.session sid).members, (h.sub s).isActive = false) :
    h.swept sid t = h.sub t := by
  unfold swept
  rw [if_neg]
  rintro ⟨ht, ha⟩
  exact Bool.false_ne_true ((hn t ht).symm.trans ha)

theorem outcries_of_inactive {l : List SubId} (hn : ∀ s ∈ l, (h.sub s).isActive = false) :
    h.outcries i l = [] := by
  unfold outcries
  rw [List.filter_eq_nil_iff.2, List.map_nil]
  intro s hs
  rw [hn s hs]
  simp

/-! ### Endings -/

/-- What is left of a session that closes in one go. -/
structure Ends (h h' : Hub) (sid : SessionId) (c : Claim) (e : Ending) : Prop where
  session : h'.session sid = { (h.session sid).settled c with
    running := none
    reports := (h.session sid).reports ++ h.outcries sid (h.session sid).members
    holders := (h.session sid).holders - 1
    phase := .ended e }
  sub : ∀ t, h'.sub t = h.swept sid t
  beats : h'.beats sid = h.beats sid
  answer : h'.answer = .finished

theorem quietStep_driving {rest : List Frame} (hst : h.stack = .driving sid :: rest) :
    h.quietStep = h.drive sid := by
  unfold quietStep step
  rw [hst]

/-- A session whose last release is done leaves the stack. -/
theorem Ends.of_leave {k : Hub} {rest : List Frame} (hst : k.stack = .driving sid :: rest)
    (hi : sid < k.sessions.length) {e : Ending} :
    Returns rest (k.leave sid e) (k.leave sid e) ∧
    (k.leave sid e).session sid =
      { k.session sid with phase := .ended e, holders := (k.session sid).holders - 1 } ∧
    (∀ t, (k.leave sid e).sub t = k.sub t) ∧ (k.leave sid e).beats sid = k.beats sid ∧
    (k.leave sid e).answer = .finished := by
  have hsub : ∀ t, (k.leave sid e).sub t = k.sub t := fun t =>
    congrArg SubView.self (subView_leave k sid t e hst)
  obtain ⟨g, hv, hses, hgst, he⟩ := leave_eq k sid e
  have hview := view_left (hv sid) hses hgst hi
    (fun x => { x with phase := .ended e, holders := x.holders - 1 }) .finished
  rw [he] at hsub ⊢
  refine ⟨.done ?_, congrArg View.self hview, hsub, congrArg View.beats hview, rfl⟩
  rw [stack_reply, pop, stack_onSession, hgst, hst]
  rfl

theorem Sound.conclude (hs : Sound h sid) {rest : List Frame} (hst : h.stack = .driving sid :: rest)
    (hr : (h.session sid).running = none) (e : Ending) :
    ∃ h', Returns rest (h.conclude sid e) h' ∧ Ends h h' sid .ended e := by
  generalize hg : (h.note (.ending sid e)).setPhase sid (.closing e) = g
  have hgs : g.session sid = { h.session sid with phase := .closing e } := by
    rw [← hg]
    exact (session_onSession _ _ _ hs.exist _).trans (if_pos rfl)
  have hsub : g.subs = h.subs := by rw [← hg]; rfl
  have hgst : g.stack = .driving sid :: rest := by rw [← hg]; exact hst
  have hsg : Sound g sid :=
    hs.of_eq (by rw [← hg]; exact sessions_length_onSession _ _ _) (by rw [hgs]) hsub
  have hq : h.conclude sid e = g.release sid .ended := by rw [← hg]; rfl
  generalize hk : g.released sid .ended = k
  have hks := hsg.session_released (c := .ended)
  rw [hk, hgs] at hks
  have hkst : k.stack = .driving sid :: rest := by rw [← hk, stack_released, hgst]
  have hki : sid < k.sessions.length := by rw [← hk]; exact (hsg.released .ended).exist
  have hdrive : k.quietStep = k.leave sid e := by
    rw [quietStep_driving hkst, drive]
    simp only [hks, Session.settled, hr]
  obtain ⟨hret, hses, hsub', hbeats, hans⟩ := Ends.of_leave hkst hki (e := e)
  refine ⟨k.leave sid e, ?_, ?_, fun t => ?_, ?_, hans⟩
  · rw [hq]
    have hrel := released_returns g sid .ended
    rw [hk, hgst] at hrel
    refine hrel.trans (Nat.le_succ _) (.step (by rw [hkst]; exact Nat.lt_succ_self _) ?_)
    rw [hdrive]
    exact hret
  · rw [hses, hks]
    have hout : g.outcries sid (h.session sid).members = h.outcries sid (h.session sid).members := by
      rw [← hg]; rfl
    dsimp only [Session.settled]
    rw [hout]
    simp only [hr]
  · rw [hsub', ← hk, hsg.sub_released]
    unfold swept
    rw [hgs, sub_eq hsub]
  · rw [hbeats, ← hk, beats_released, ← hg]
    rfl

/-! ### Cancellations -/

/-- The session is cancelled as a whole, and decided by that if by nothing else; its subscriptions are
about to be cancelled. -/
def revoke (h : Hub) (sid : SessionId) : Hub :=
  if (h.session sid).cancelled then h
  else (h.onSession sid fun x => { x with cancelled := true }).note (.revoked sid)

theorem session_revoke (hi : sid < h.sessions.length) :
    (h.revoke sid).session sid = { h.session sid with cancelled := true } := by
  unfold revoke
  split
  · next hc => rw [← hc]
  · exact (session_onSession _ _ _ hi _).trans (if_pos rfl)

theorem subs_revoke : (h.revoke sid).subs = h.subs := by unfold revoke; split <;> rfl

theorem stack_revoke : (h.revoke sid).stack = h.stack := by unfold revoke; split <;> rfl

theorem beats_revoke : (h.revoke sid).beats i = h.beats i := by unfold revoke; split <;> rfl

theorem Sound.revoke (hs : Sound h sid) : Sound (h.revoke sid) sid :=
  hs.of_eq (by unfold Hub.revoke; split <;> simp) (by rw [session_revoke hs.exist]) subs_revoke

theorem session_cancelAll (hi : sid < h.sessions.length) : (h.cancelAll sid).session sid =
    ({ h.session sid with cancelled := true } : Session).settled .cancelled := by
  rw [← session_revoke hi]
  have hi' : sid < (h.revoke sid).sessions.length := by unfold revoke; split <;> simpa using hi
  exact (session_settled hi' .cancelled sid).trans (if_pos rfl)

theorem beats_cancelAll : (h.cancelAll sid).beats i = h.beats i := beats_revoke

def withdrawn (h : Hub) (sid : SessionId) : Hub := (h.revoke sid).released sid .cancelled

theorem withdrawn_returns : Returns h.stack (h.cancelAll sid) (h.withdrawn sid) := by
  have hr := released_returns (h.revoke sid) sid .cancelled
  rw [stack_revoke] at hr
  exact hr

theorem swept_revoke (hi : sid < h.sessions.length) : (h.revoke sid).swept sid t = h.swept sid t := by
  unfold swept
  rw [session_revoke hi, sub_eq subs_revoke]

theorem outcries_revoke {l : List SubId} : (h.revoke sid).outcries i l = h.outcries i l := by
  unfold outcries
  simp only [sub_eq subs_revoke]

theorem Sound.sub_withdrawn (hs : Sound h sid) : (h.withdrawn sid).sub t = h.swept sid t := by
  rw [withdrawn, hs.revoke.sub_released, swept_revoke hs.exist]

theorem Sound.session_withdrawn (hs : Sound h sid) :
    (h.withdrawn sid).session sid =
      { ({ h.session sid with cancelled := true } : Session).settled .cancelled with
        reports := (h.session sid).reports ++ h.outcries sid (h.session sid).members } := by
  rw [withdrawn, hs.revoke.session_released, session_revoke hs.exist, outcries_revoke]

theorem Sound.answer_withdrawn (hs : Sound h sid) :
    (h.withdrawn sid).answer = .count (h.activeCount sid) := by
  have hsub : (h.revoke sid).sub = h.sub := funext (sub_eq subs_revoke)
  rw [withdrawn, hs.revoke.answer_released, activeCount, activeCount, Hub.members, Hub.members,
    session_revoke hs.exist, hsub]

theorem beats_withdrawn : (h.withdrawn sid).beats i = h.beats i := by
  rw [withdrawn, beats_released, beats_revoke]

theorem Sound.inactive_withdrawn (hs : Sound h sid) :
    ∀ s ∈ ((h.withdrawn sid).session sid).members, ((h.withdrawn sid).sub s).isActive = false :=
  hs.revoke.inactive_released

theorem enter_of_cancelled (hu : (h.session sid).phase ≠ .unopened) (hc : (h.session sid).cancelled) :
    (h.push (.entering sid)).quietStep = (((h.push (.driving sid)).onSession sid fun x =>
      { x with running := none, phase := .cancelling })).release sid .cancelled := by
  have hx : (h.push (.entering sid)).session sid = h.session sid := rfl
  show (h.push (.entering sid)).enter sid = _
  unfold enter
  simp only [hx, if_neg hu, if_pos hc, pop_push]

theorem drive_of_cancelling (hr : (h.session sid).running = none)
    (hp : (h.session sid).phase = .cancelling) :
    ∃ n, h.drive sid = (h.note (.withdrawn sid n)).conclude sid (.resolved (.negative .cancelled)) := by
  rw [drive]
  simp only [hr, hp]
  exact ⟨_, rfl⟩

/-- A session that was cancelled ends when it runs next. -/
theorem Sound.abort (hs : Sound h sid) (hu : (h.session sid).phase ≠ .unopened)
    (hc : (h.session sid).cancelled) :
    ∃ h', Returns h.stack (h.push (.entering sid)) h' ∧
      Ends h h' sid .cancelled (.resolved (.negative .cancelled)) := by
  generalize ha : ((h.push (.driving sid)).onSession sid fun x =>
    { x with running := none, phase := .cancelling }) = a
  have has : a.session sid = { h.session sid with running := none, phase := .cancelling } := by
    rw [← ha]; exact (session_onSession _ _ _ hs.exist _).trans (if_pos rfl)
  have hsub : a.subs = h.subs := by rw [← ha]; rfl
  have hsa : Sound a sid :=
    hs.of_eq (by rw [← ha]; exact sessions_length_onSession _ _ _) (by rw [has]) hsub
  have hswept : ∀ t, a.swept sid t = h.swept sid t := fun t => by
    unfold swept; rw [has, sub_eq hsub]
  have hout : a.outcries sid (h.session sid).members = h.outcries sid (h.session sid).members := by
    rw [← ha]; rfl
  generalize hb : a.released sid .cancelled = b
  have hbs := hsa.session_released (c := .cancelled)
  rw [hb, has, hout] at hbs
  have hbst : b.stack = .driving sid :: h.stack := by rw [← hb, stack_released, ← ha]; rfl
  obtain ⟨n, hd⟩ := drive_of_cancelling (by rw [hbs]; rfl : (b.session sid).running = none)
    (by rw [hbs]; rfl)
  have hsb : Sound (b.note (.withdrawn sid n)) sid :=
    (hb ▸ hsa.released .cancelled).of_eq rfl rfl rfl
  obtain ⟨h', hret, he⟩ := hsb.conclude (by exact hbst) (by
    show (b.session sid).running = none
    rw [hbs]; rfl) (.resolved (.negative .cancelled))
  have hgone : ∀ s ∈ (b.session sid).members, (b.sub s).isActive = false :=
    hb ▸ hsa.inactive_released
  refine ⟨h', ?_, ?_, fun t => ?_, ?_, he.answer⟩
  · refine .step (by simp) ?_
    rw [enter_of_cancelled hu hc, ha]
    have hrel := released_returns a sid .cancelled
    rw [hb, show a.stack = .driving sid :: h.stack by rw [← ha]; rfl] at hrel
    refine hrel.trans (Nat.le_succ _) (.step (by rw [hbst]; exact Nat.lt_succ_self _) ?_)
    rw [quietStep_driving hbst, hd]
    exact hret
  · rw [he.session]
    show { (b.session sid).settled .ended with
      running := none
      reports := (b.session sid).reports ++ b.outcries sid (b.session sid).members
      holders := (b.session sid).holders - 1
      phase := .ended (.resolved (.negative .cancelled)) } = _
    rw [outcries_of_inactive hgone, List.append_nil, hbs]
    simp only [Session.settled, Option.or_assoc, Option.some_or]
  · rw [he.sub]
    show b.swept sid t = _
    rw [swept_of_inactive hgone, ← hb, hsa.sub_released, hswept]
  · rw [he.beats]
    show b.beats sid = _
    rw [← hb, beats_released, ← ha]
    rfl

end
end Aftermath.Hub
