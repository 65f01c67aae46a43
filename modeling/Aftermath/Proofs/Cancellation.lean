import Aftermath.Proofs.Withdrawal

/-! What a cancelled ending tells of a session, and the two ways to cancel a session as a whole. A
cancellation goes before a claim that has not been acted on, and a token is noticed only when the
session runs next. -/

namespace Aftermath

/-- A session in such a phase ends cancelled or vanishes. -/
def Phase.Forsaken : Phase → Prop
  | .cancelling | .dropping | .dropped => True
  | .closing e | .ended e => e = .resolved (.negative .cancelled)
  | _ => False

namespace Hub

/-! ### Cancelled endings -/

/-- A run of the session begins when it is cancelled already and not over. -/
def EntersCancelled (sid : SessionId) (h : Hub) : Prop :=
  .entering sid ∈ h.stack ∧ (h.session sid).cancelled ∧ (h.session sid).isOver = false

def LooksUnready (sid : SessionId) (h : Hub) : Prop :=
  (h.session sid).phase = .checking ∧ (h.session sid).claim = none ∧ h.allActive sid = false

def LooksDeserted (sid : SessionId) (h : Hub) : Prop :=
  (h.session sid).phase = .awaiting ∧ (h.session sid).claim = none ∧ h.allCancelled sid

section
variable {h h' : Hub} {sid : SessionId} {e : Ending}

/-- A session that has begun stays cancelled. -/
theorem Reachable.cancelled_later (hr : Reachable h) (hl : Later h h')
    (hb : (h.session sid).phase.isBegun) (hc : (h.session sid).cancelled) :
    (h'.session sid).cancelled ∧ (h'.session sid).phase.isBegun := by
  induction hl with
  | refl => exact ⟨hc, hb⟩
  | @move a b m hl hm ih =>
    obtain ⟨hc, hb⟩ := ih
    have ha := hr.later hl
    have hm := moved_of_move? hm
    have hu : (a.session sid).phase ≠ .unopened := fun hu => by rw [hu] at hb; cases hb
    exact ⟨cancelled_move ha hm hu hc, ((move_turn ha.wired hm sid).begun (ha.fits sid) hb).1⟩

theorem Reachable.enters_of_cancelling (hr : Reachable h)
    (hp : (h.session sid).phase = .cancelling) : h.Once (EntersCancelled sid) := by
  refine hr.once (q := .cancelling) nofun (fun {a _} ha ht hp => ?_) hp
  refine (ht.cancelling_cases hp).imp id fun ⟨hc, t, hth⟩ => ?_
  have hf := ha.fits sid
  rw [show a.thread sid = _ from hth] at hf
  have hin : .entering sid ∈ a.thread sid := by
    rw [show a.thread sid = _ from hth]
    exact List.mem_cons_self
  exact ⟨(List.mem_filter.1 hin).1, hc, (Session.isOver_eq _).trans hf.of_entering.2.1⟩

theorem Reachable.looks_of_unready (hr : Reachable h) (hp : (h.session sid).phase = .unready) :
    h.Once (LooksUnready sid) :=
  hr.once (q := .unready) nofun (fun _ ht => ht.unready_cases) hp

theorem Reachable.looks_of_deserted (hr : Reachable h) (hp : (h.session sid).phase = .deserted) :
    h.Once (LooksDeserted sid) :=
  hr.once (q := .deserted) nofun (fun _ ht => ht.deserted_cases) hp

/-- A session that has ended has closed with that ending, unless a hook has broken it off. -/
theorem Reachable.closes_of_ended (hr : Reachable h)
    (hp : (h.session sid).phase = .closing e ∨ (h.session sid).phase = .ended e)
    (hb : e.isBroken = false) : h.Once fun a => Closes a sid (a.session sid) e := by
  induction hr using Reachable.induct with
  | init settings => rcases hp with hp | hp <;> cases hp
  | move a b m ha hm ih =>
    have hl := Later.refl.move hm
    rcases (move_turn ha.wired (moved_of_move? hm) sid).ending_cases hp with hp | ⟨-, ⟨hc, -⟩ | he⟩
    · exact (ih hp).later hl
    · exact (Once.now ha hc).later hl
    · exact absurd (hb.symm.trans he) Bool.false_ne_true

theorem Handles.not_cancelled {z : Session} {ks : List HookId} {arg : Argument} :
    ¬ Handles h sid z ks arg (.resolved (.negative .cancelled)) := by
  generalize he : Ending.resolved (.negative .cancelled) = e
  intro hh
  cases hh with
  | fired => revert he; split <;> nofun
  | timedOut => cases he
  | failure => cases he

/-- A session that ends cancelled was cancelled as a whole before the run in which it ended, or was not
ready to post, or all its subscriptions were cancelled one by one. In the last two cases nobody had
decided it then. -/
theorem ends_cancelled_cases (hr : Reachable h)
    (hp : (h.session sid).phase = .ended (.resolved (.negative .cancelled))) :
    (h.session sid).cancelled ∧ h.Once (EntersCancelled sid) ∨
      (h.session sid).claim = some .unready ∧ h.Once (LooksUnready sid) ∨
      (h.session sid).claim = some .deserted ∧ h.Once (LooksDeserted sid) := by
  obtain ⟨a, ha, hc, hl⟩ := hr.closes_of_ended (.inr hp) rfl
  have hj := ha.judged sid
  unfold Judged at hj
  generalize he : Ending.resolved (.negative .cancelled) = e at hc
  cases hc with
  | unready hp =>
    simp only [hp] at hj
    exact .inr (.inl ⟨ha.claim_lasts hl hj, (ha.looks_of_unready hp).later hl⟩)
  | deserted hp =>
    simp only [hp] at hj
    exact .inr (.inr ⟨ha.claim_lasts hl hj, (ha.looks_of_deserted hp).later hl⟩)
  | cancelling hp =>
    simp only [hp] at hj
    have hb : (a.session sid).phase.isBegun := by rw [hp]; rfl
    exact .inl ⟨(ha.cancelled_later hl hb hj).1, (ha.enters_of_cancelling hp).later hl⟩
  | unheld hp _ hn => exact absurd hn (ha.held sid (by rw [hp]; rfl))
  | handled hp =>
    obtain ⟨g, z, l, hh⟩ := ha.found_of_handling hp
    exact absurd (he ▸ hh) Handles.not_cancelled
  | unawaited | unknown | unhandled | unheard => cases he

end

theorem deserted_session_ends_cancelled : ∃ h, Reachable h ∧
    (h.session 0).phase = .ended (.resolved (.negative .cancelled)) ∧
    ((h.session 0).cancelled ∧ h.Once (EntersCancelled 0) ∨
      (h.session 0).claim = some .unready ∧ h.Once (LooksUnready 0) ∨
      (h.session 0).claim = some .deserted ∧ h.Once (LooksDeserted 0)) := by
  obtain ⟨h, hr, hp⟩ := Reachable.exists_of_run {}
    (oneWaits 0 .event ++ [.cancel 0, .unsubscribed, .step, .run 0] ++ List.replicate 8 .step)
    (fun h => (h.session 0).phase = .ended (.resolved (.negative .cancelled))) (by decide)
  exact ⟨h, hr, hp, ends_cancelled_cases hr hp⟩

/-- A delivery that has decided its session does not keep it from ending cancelled: a cancellation that
comes before the session runs again goes first. -/
theorem delivered_session_ends_cancelled : ¬ ∀ (h h' : Hub) (sid : SessionId) (s : SubId)
    (e : Envelope), Reachable h → (h.session sid).claim = some (.fired s e) → Later h h' →
    (h'.session sid).phase ≠ .ended (.resolved (.negative .cancelled)) := by
  intro hall
  obtain ⟨h, hr, hc, hrun⟩ := Reachable.exists_of_run {}
    (oneWaits 0 .event ++ [.deliver 0 ⟨default, .blank⟩, .unsubscribed, .step])
    (fun h => (h.session 0).claim = some (.fired 0 ⟨default, .blank⟩) ∧
      (h.run? ([.cancelAll 0, .step, .step, .run 0] ++ List.replicate 7 .step)).any fun h' =>
        (h'.session 0).phase = .ended (.resolved (.negative .cancelled))) (by decide)
  obtain ⟨h', hl, hp⟩ := Later.exists_of_run hrun
  exact hall h h' 0 0 _ hr hc hl hp

/-! ### Tokens -/

/-- Tells sessions one after the other that they are cancelled. -/
def revokeAll (h : Hub) (l : List SessionId) : Hub := l.foldl revoke h

section
variable {h h' : Hub} {i sid : SessionId} {t : TokenId} {s : SubId} {l : List SessionId}

theorem cancelToken_eq (hc : (h.token t).cancelled = false) : h.cancelToken t =
    ({ h with tokens := h.tokens.set t { h.token t with cancelled := true } } : Hub).revokeAll
      (h.token t).sessions := by
  unfold cancelToken
  simp only [hc]
  rfl

theorem sessions_length_revoke : (h.revoke i).sessions.length = h.sessions.length := by
  unfold revoke; split <;> simp

theorem session_revoke_other (hne : sid ≠ i) : (h.revoke i).session sid = h.session sid := by
  unfold revoke
  split
  · rfl
  · exact congrArg View.self (view_onSession_other hne fun x => { x with cancelled := true })

/-- The sessions of the list are cancelled, the others stay as they are. -/
theorem session_revokeAll (hi : sid < h.sessions.length) : (h.revokeAll l).session sid =
    if sid ∈ l then { h.session sid with cancelled := true } else h.session sid := by
  induction l generalizing h with
  | nil => rfl
  | cons i l ih =>
    show ((h.revoke i).revokeAll l).session sid = _
    rw [ih (by rw [sessions_length_revoke]; exact hi)]
    by_cases hs : sid = i
    · subst hs
      rw [session_revoke hi, if_pos List.mem_cons_self]
      split <;> rfl
    · rw [session_revoke_other hs]
      simp [hs]

theorem subs_revokeAll : (h.revokeAll l).subs = h.subs := by
  induction l generalizing h with
  | nil => rfl
  | cons i l ih => exact ih.trans subs_revoke

theorem stack_revokeAll : (h.revokeAll l).stack = h.stack := by
  induction l generalizing h with
  | nil => rfl
  | cons i l ih => exact ih.trans stack_revoke

theorem beats_revokeAll : (h.revokeAll l).beats sid = h.beats sid := by
  induction l generalizing h with
  | nil => rfl
  | cons i l ih => exact ih.trans beats_revoke

theorem sessions_length_revokeAll : (h.revokeAll l).sessions.length = h.sessions.length := by
  induction l generalizing h with
  | nil => rfl
  | cons i l ih => exact ih.trans sessions_length_revoke

/-- A token marks its sessions and does nothing else to them. -/
theorem session_cancelToken (hi : sid < h.sessions.length) (hs : sid ∈ (h.token t).sessions)
    (hc : (h.token t).cancelled = false) :
    (h.cancelToken t).session sid = { h.session sid with cancelled := true } := by
  rw [cancelToken_eq hc, session_revokeAll (by exact hi), if_pos hs]
  rfl

/-- Two hubs in which a session and all subscriptions are the same, and the same has been heard of the
session. -/
structure Alike (h h' : Hub) (sid : SessionId) : Prop where
  session : h.session sid = h'.session sid
  sub : ∀ s, h.sub s = h'.sub s
  beats : h.beats sid = h'.beats sid

/-- A session that was cancelled while it rested. Its next run gives it up. -/
def Lapsing (sid : SessionId) (v : View) : Prop :=
  v.self.phase.Forsaken ∨ v.self.phase ≠ .unopened ∧ v.self.isOver = false ∧ v.self.cancelled ∧
    (v.thread = [] ∨ v.thread = [.entering sid])

theorem Closes.forsaken {x : Session} {e : Ending} (hc : Closes h sid x e)
    (hp : x.phase.Forsaken) : (Phase.closing e).Forsaken := by
  cases hc with
  | cancelling => rfl
  | unready hq | unawaited hq _ | unheld hq _ _ | unheard hq | deserted hq | handled hq =>
    rw [hq] at hp; cases hp
  | unknown hq _ => obtain ⟨e, hq⟩ | hq := hq <;> rw [hq] at hp <;> cases hp
  | unhandled hq _ => obtain hq | ⟨n, hq, -⟩ := hq <;> rw [hq] at hp <;> cases hp

theorem Turn.forsaken {x y : View} (ht : Turn h h' sid x y)
    (hf : Fits sid x.self.phase x.self.running x.thread) (hp : x.self.phase.Forsaken) :
    y.self.phase.Forsaken ∧ y.beats = x.beats := by
  cases ht
  case opens => cases hp
  case prepares hu _ => rw [show Session.phase _ = _ from hu] at hp; cases hp
  case configured => rw [hf.of_configuring.1] at hp; cases hp
  case enters =>
    dsimp only
    split
    · next hq => rw [show Session.phase _ = _ from hq] at hp; cases hp
    · exact ⟨hp, rfl⟩
  case aborts | drops => exact ⟨trivial, rfl⟩
  case forgets hn ho hu =>
    rcases hf.of_forgotten hn ho hu with hq | hq <;> rw [show Session.phase _ = _ from hq] at hp <;>
      cases hp
  case ends | breaks =>
    have hk := hf.of_hook.2.1
    unfold Phase.isHooking at hk
    split at hk <;> simp_all [Phase.Forsaken]
  case acknowledged | refused | unheard | belated =>
    rw [hf.of_posting.2.1] at hp; cases hp
  case drives hd =>
    cases hd
    case closes hc _ => exact ⟨hc.forsaken hp, rfl⟩
    case leaves hq => rw [hq] at hp; exact ⟨hp, rfl⟩
    case vanishes => exact ⟨trivial, rfl⟩
    case resumes | waits | dismisses | stops => exact ⟨hp, rfl⟩
    case begins hn => unfold Phase.next? at hn; split at hn <;> simp_all [Phase.Forsaken]
    case handles hh =>
      rcases hh.phase_cases with ⟨r, hq⟩ | ⟨e, hq⟩ <;> rw [hq] at hp <;> cases hp
    all_goals simp_all [Phase.Forsaken]
  all_goals exact ⟨hp, rfl⟩

/-- A session that was cancelled while it rested ends cancelled or vanishes, and nothing more is heard
of it. -/
theorem Turn.lapsing {x y : View} (ht : Turn h h' sid x y)
    (hf : Fits sid x.self.phase x.self.running x.thread) (hx : Lapsing sid x) :
    Lapsing sid y ∧ y.beats = x.beats := by
  rcases hx with hp | ⟨hu, ho, hc, hth⟩
  · exact (ht.forsaken hf hp).imp .inl id
  cases ht
  case opens => cases hc
  case prepares hq _ => exact absurd hq hu
  case runs hn _ =>
    rcases hth with rfl | rfl
    · exact ⟨.inr ⟨hu, ho, hc, .inr rfl⟩, rfl⟩
    · cases hn
  case enters hn => exact absurd (hn.symm.trans hc) Bool.false_ne_true
  case aborts | drops => exact ⟨.inl trivial, rfl⟩
  case forgets =>
    refine ⟨.inl ?_, rfl⟩
    dsimp only at hu ⊢
    rw [if_neg hu]
    trivial
  case withdrawn | revoked => exact ⟨.inr ⟨hu, ho, rfl, hth⟩, rfl⟩
  case idle | decides | hears | enrols => exact ⟨.inr ⟨hu, ho, hc, hth⟩, rfl⟩
  all_goals rcases hth with hth | hth <;> cases hth

/-- How a session fares that rested when it was cancelled in a hub `h`, whatever else happens. -/
structure Recedes (h k : Hub) (sid : SessionId) : Prop where
  /-- It posts nothing, and no hook or handler of it begins. -/
  beats : k.beats sid = h.beats sid
  ending : (k.session sid).isOver →
    (k.session sid).phase = .ended (.resolved (.negative .cancelled)) ∨
      (k.session sid).phase = .dropped
  resolves : ∀ a, k.move? (.run sid) = some a → ∃ b, Returns k.stack a b ∧
    (b.session sid).phase = .ended (.resolved (.negative .cancelled)) ∧ b.beats sid = h.beats sid

theorem Lapsing.later (hr : Reachable h) (hl : Later h h') (hx : Lapsing sid (h.view sid)) :
    Lapsing sid (h'.view sid) ∧ h'.beats sid = h.beats sid := by
  induction hl with
  | refl => exact ⟨hx, rfl⟩
  | @move a b m hl hm ih =>
    have ha := hr.later hl
    obtain ⟨hx, hb⟩ := (move_turn ha.wired (moved_of_move? hm) sid).lapsing (ha.fits sid) ih.1
    exact ⟨hx, hb.trans ih.2⟩

/-- A session that rests has no frames. -/
theorem thread_of_mayRun (hr : Reachable h) (hrun : h.mayRun sid) : h.thread sid = [] :=
  ((hr.fits sid).of_idle (not_isRun_of_isRunning (mayRun_iff.1 hrun).2.1)).1

/-- A forsaken session neither rests nor waits for a hook, unless it is over. -/
theorem Phase.Forsaken.over {p : Phase} (hp : p.Forsaken) (hq : p.isResting ∨ p.isHooking) :
    p = .ended (.resolved (.negative .cancelled)) ∨ p = .dropped := by
  unfold Phase.Forsaken at hp
  split at hp
  · rcases hq with hq | hq <;> cases hq
  · rcases hq with hq | hq <;> cases hq
  · exact .inr rfl
  · rcases hq with hq | hq <;> cases hq
  · exact .inl (congrArg _ hp)
  · cases hp

/-- Only a session that was cancelled while it rested can run. -/
theorem Lapsing.cancelled (hr : Reachable h) (hx : Lapsing sid (h.view sid)) (hrun : h.mayRun sid) :
    (h.session sid).phase ≠ .unopened ∧ (h.session sid).cancelled := by
  rcases hx with hp | ⟨hu, -, hc, -⟩
  · obtain ⟨-, hn, ho⟩ := mayRun_iff.1 hrun
    have hq := ((hr.fits sid).of_idle (not_isRun_of_isRunning hn)).2
    rw [Session.isOver_eq] at ho
    rcases Phase.Forsaken.over hp (hq.imp And.right And.right) with hp | hp <;>
      rw [show (h.session sid).phase = _ from hp] at ho <;> cases ho
  · exact ⟨hu, hc⟩

theorem Recedes.of_lapsing (hr : Reachable h') (hb : h'.beats sid = h.beats sid)
    (hx : Lapsing sid (h'.view sid)) : Recedes h h' sid := by
  refine ⟨hb, fun ho => ?_, fun a hm => ?_⟩
  · rcases hx with hp | ⟨-, hn, -⟩
    · rw [Session.isOver_eq] at ho
      exact Phase.Forsaken.over hp (.inl (Phase.isResting_of_over ho))
    · exact absurd (hn.symm.trans ho) Bool.false_ne_true
  · cases moved_of_move? hm with
    | run hrun =>
    obtain ⟨hu, hc⟩ := hx.cancelled hr hrun
    obtain ⟨b, hret, he⟩ := (hr.sound (mayRun_iff.1 hrun).1).abort hu hc
    exact ⟨b, hret, by rw [he.session], he.beats.trans hb⟩

/-- Whatever cancels a session that rests, the session recedes from then on. -/
theorem Recedes.of_cancelled {g k : Hub} {m : Move} (hr : Reachable h) (hrun : h.mayRun sid)
    (hu : (h.session sid).phase ≠ .unopened) (hm : h.move? m = some g)
    (hx : ∃ c, g.session sid = { h.session sid with cancelled := true, claim := c })
    (hth : g.thread sid = h.thread sid) (hb : g.beats sid = h.beats sid) (hl : Later g k) :
    Recedes h k sid := by
  have hg : Reachable g := hr.later (Later.refl.move hm)
  obtain ⟨c, hx⟩ := hx
  have hlapse : Lapsing sid (g.view sid) := by
    refine .inr ⟨?_, ?_, ?_, .inl (hth.trans (thread_of_mayRun hr hrun))⟩
    · rw [view_self, hx]; exact hu
    · rw [view_self, hx]; exact (mayRun_iff.1 hrun).2.2
    · rw [view_self, hx]
  obtain ⟨hx, hb'⟩ := hlapse.later hg hl
  exact .of_lapsing (hg.later hl) (hb'.trans hb) hx

/-- Cancelling the token of a session that rests and cancelling the session come to the same when it
runs right afterwards. -/
theorem Reachable.runs_alike (hr : Reachable h) (hrun : h.mayRun sid)
    (hu : (h.session sid).phase ≠ .unopened) (hs : sid ∈ (h.token t).sessions)
    (hc : (h.token t).cancelled = false) :
    ∃ a b c, Returns h.stack ((h.cancelToken t).push (.entering sid)) a ∧
      Returns h.stack (h.cancelAll sid) b ∧ Returns h.stack (b.push (.entering sid)) c ∧
      Alike a c sid ∧ (a.session sid).phase = .ended (.resolved (.negative .cancelled)) := by
  have hi := (mayRun_iff.1 hrun).1
  have hsound := hr.sound hi
  have hx := session_cancelToken hi hs hc
  have hsub : (h.cancelToken t).subs = h.subs := by rw [cancelToken_eq hc, subs_revokeAll]
  have hst : (h.cancelToken t).stack = h.stack := by rw [cancelToken_eq hc, stack_revokeAll]
  have hst' : (h.withdrawn sid).stack = h.stack := withdrawn_returns.stack_eq
  have hsound₁ : Sound (h.cancelToken t) sid :=
    hsound.of_eq (by rw [cancelToken_eq hc, sessions_length_revokeAll]) (by rw [hx]) hsub
  have hsound₂ : Sound (h.withdrawn sid) sid := hsound.revoke.released .cancelled
  have hx₂ := hsound.session_withdrawn
  obtain ⟨a, hra, ha⟩ := hsound₁.abort (by rw [hx]; exact hu) (by rw [hx])
  obtain ⟨c, hrc, hcn⟩ := hsound₂.abort (by rw [hx₂]; exact hu) (by rw [hx₂]; rfl)
  rw [hst] at hra
  rw [hst'] at hrc
  have hgone := hsound.inactive_withdrawn
  have hout : (h.cancelToken t).outcries sid (h.session sid).members =
      h.outcries sid (h.session sid).members := by
    unfold outcries
    simp only [sub_eq hsub]
  refine ⟨a, _, c, hra, withdrawn_returns, hrc, ⟨?_, fun s => ?_, ?_⟩, by rw [ha.session]⟩
  · rw [ha.session, hcn.session, outcries_of_inactive hgone, List.append_nil, hx, hout, hx₂]
    simp only [Session.settled, Option.or_assoc, Option.some_or]
  · rw [ha.sub, hcn.sub, swept_of_inactive hgone, hsound.sub_withdrawn]
    unfold swept
    rw [hx, sub_eq hsub]
  · rw [ha.beats, hcn.beats, beats_withdrawn, cancelToken_eq hc, beats_revokeAll]
    rfl

/-- For a session that rests, cancelling its token and cancelling the session come to the same when it
runs right afterwards. Whatever happens in between, either way nothing more is heard of it, and it ends
cancelled as soon as it runs, unless it is given up. -/
theorem token_cancels_alike (hr : Reachable h) (hrun : h.mayRun sid)
    (hu : (h.session sid).phase ≠ .unopened) (hs : sid ∈ (h.token t).sessions)
    (hc : (h.token t).cancelled = false) :
    (∃ a b c, Returns h.stack ((h.cancelToken t).push (.entering sid)) a ∧
      Returns h.stack (h.cancelAll sid) b ∧ Returns h.stack (b.push (.entering sid)) c ∧
      Alike a c sid ∧ (a.session sid).phase = .ended (.resolved (.negative .cancelled))) ∧
    ∀ g k, h.move? (.cancelToken t) = some g ∨ h.move? (.cancelAll sid) = some g → Later g k →
      Recedes h k sid := by
  refine ⟨hr.runs_alike hrun hu hs hc, fun g k hm hl => ?_⟩
  have hi := (mayRun_iff.1 hrun).1
  rcases hm with hm | hm
  · have hg : g = h.cancelToken t := by
      cases moved_of_move? hm
      rfl
    refine .of_cancelled hr hrun hu hm ⟨(h.session sid).claim, ?_⟩ ?_ ?_ hl
    · rw [hg]
      exact session_cancelToken hi hs hc
    · rw [hg, thread, cancelToken_eq hc, stack_revokeAll]
      rfl
    · rw [hg, cancelToken_eq hc, beats_revokeAll]
      rfl
  · obtain ⟨-, -, rfl⟩ := cancelAll_of_move? hm
    refine .of_cancelled hr hrun hu hm ⟨_, session_cancelAll hi⟩ (thread_cancelAll hi) ?_ hl
    exact beats_cancelAll

end

/-- A session with a token and one subscription runs its hook. -/
def runsHook : List Move :=
  [.newToken, .openSession (some 0) none, .run 0, .step, .subscribe default .event, .granted 0,
    .addHook .beforePost 0, .configured, .step, .step, .step]

def deliveredThen : List Move := [.deliver 0 ⟨default, .blank⟩, .unsubscribed, .step]

/-- A delivery that still comes in between does not change it. -/
theorem resting_session_cancelled_alike : ∃ h a b c, Reachable h ∧ 0 ∈ (h.token 0).sessions ∧
    Returns h.stack ((h.cancelToken 0).push (.entering 0)) a ∧
    Returns h.stack (h.cancelAll 0) b ∧ Returns h.stack (b.push (.entering 0)) c ∧
    Alike a c 0 ∧ (a.session 0).phase = .ended (.resolved (.negative .cancelled)) ∧
    ∃ g k, h.move? (.cancelToken 0) = some g ∧ g.run? deliveredThen = some k ∧
      k.answer = .bool true ∧ Recedes h k 0 := by
  obtain ⟨h, hr, hrun, hu, hs, hc, hg⟩ := Reachable.exists_of_run {}
    (runsHook ++ [.hookReplied .suspended])
    (fun h => h.mayRun 0 ∧ (h.session 0).phase ≠ .unopened ∧ 0 ∈ (h.token 0).sessions ∧
      (h.token 0).cancelled = false ∧ (h.move? (.cancelToken 0)).any fun g =>
        (g.run? deliveredThen).any fun k => k.answer = .bool true) (by decide)
  obtain ⟨g, hg, hk⟩ := exists_of_any hg
  obtain ⟨k, hk, hans⟩ := exists_of_any hk
  obtain ⟨⟨a, b, c, ha, hb, hc, hal, hp⟩, hrec⟩ := token_cancels_alike hr hrun hu hs hc
  exact ⟨h, a, b, c, hr, hs, ha, hb, hc, hal, hp, g, k, hg, hk, of_decide_eq_true hans,
    hrec g k (.inl hg) (.of_run? hk)⟩

def arrivesWhilePosting : List Move :=
  [.hookReplied .done, .step, .deliver 0 ⟨default, .blank⟩, .unsubscribed, .step,
    .postReplied .acknowledged] ++ List.replicate 9 .step

/-- A hook that cancels the token of its session does not stop it: until the session waits, it posts
and resolves as if nothing had happened, where a cancellation of the session itself would have decided
it. -/
theorem token_cancels_otherwise : ∃ h h₁ h₂, Reachable h ∧
    (h.run? (.cancelToken 0 :: arrivesWhilePosting)) = some h₁ ∧
    (h₁.session 0).phase = .ended (.resolved (.positive (some default))) ∧ .posts ∈ h₁.beats 0 ∧
    (h.run? ([.cancelAll 0, .step, .unsubscribed, .step, .step, .hookReplied .done] ++
      List.replicate 3 .step ++ [.run 0] ++ List.replicate 7 .step)) = some h₂ ∧
    (h₂.session 0).phase = .ended (.resolved (.negative .cancelled)) ∧ .posts ∉ h₂.beats 0 := by
  obtain ⟨h, hr, h₁, h₂⟩ := Reachable.exists_of_run {} runsHook
    (fun h => ((h.run? (.cancelToken 0 :: arrivesWhilePosting)).any fun h₁ =>
        (h₁.session 0).phase = .ended (.resolved (.positive (some default))) ∧ .posts ∈ h₁.beats 0) ∧
      (h.run? ([.cancelAll 0, .step, .unsubscribed, .step, .step, .hookReplied .done] ++
        List.replicate 3 .step ++ [.run 0] ++ List.replicate 7 .step)).any fun h₂ =>
        (h₂.session 0).phase = .ended (.resolved (.negative .cancelled)) ∧ .posts ∉ h₂.beats 0)
    (by decide)
  obtain ⟨h₁, hr₁, he₁⟩ := exists_of_any h₁
  obtain ⟨h₂, hr₂, he₂⟩ := exists_of_any h₂
  obtain ⟨hp₁, hb₁⟩ := of_decide_eq_true he₁
  obtain ⟨hp₂, hb₂⟩ := of_decide_eq_true he₂
  exact ⟨h, h₁, h₂, hr, hr₁, hp₁, hb₁, hr₂, hp₂, hb₂⟩

end Hub
end Aftermath
