import Aftermath.Backend
import Aftermath.Proofs.Lasting
import Aftermath.Proofs.Turn.Advance

/-! A session posts once at most. When its post has been answered, or it has gone on without one, it
posts nothing any more; and neither does it when it is cancelled while its post is held up on its way
to the server. -/

namespace Aftermath

def Phase.mayPost : Phase → Bool
  | .unopened | .configuring | .prepared | .checking | .preparing _ | .posting => true
  | _ => false

namespace Hub

/-- The post of a session is held up on its way to the server. -/
structure HeldUp (h : Hub) (sid : SessionId) : Prop where
  phase : (h.session sid).phase = .posting
  idle : .driving sid ∉ h.thread sid

/-- A session that posts nothing any more: it is past its post, or was cancelled while that was held
up. -/
def PostsNoMore (h : Hub) (sid : SessionId) : Prop :=
  (h.session sid).phase.mayPost = false ∨ h.HeldUp sid ∧ (h.session sid).cancelled

section
variable {h h' : Hub} {sid : SessionId} {x y : View} {m : Move} {r : PostReply}

/-! ### Past the post -/

/-- A session that may post might have posted before. -/
theorem Turn.mayPost (ht : Turn h h' sid x y)
    (hf : Fits sid x.self.phase x.self.running x.thread) (hy : y.self.phase.mayPost) :
    x.self.phase.mayPost := by
  cases ht
  case opens => rfl
  case prepares hp _ => dsimp only; rw [hp]; rfl
  case configured => dsimp only; rw [hf.of_configuring.1]; rfl
  case enters =>
    dsimp only at hy ⊢
    split at hy
    · next hp => rw [hp]; rfl
    · exact hy
  case forgets =>
    dsimp only at hy
    split at hy <;> cases hy
  case aborts | drops | breaks | acknowledged | refused | unheard | belated => cases hy
  case drives hd =>
    cases hd
    case skips hp _ | passes _ hp _ | posts hp _ => dsimp only; rw [hp]; rfl
    case begins hn =>
      dsimp only
      unfold Phase.next? at hn
      split at hn
      · next hp => rw [hp]; rfl
      · cases hn; cases hy
      · cases hn; cases hy
      · cases hn
    case resumes | waits | dismisses | stops => exact hy
    all_goals cases hy
  all_goals exact hy

/-- A session that is cancelled while its post is held up does not resume it. -/
theorem Turn.stays_away (ht : Turn h h' sid x y)
    (hf : Fits sid x.self.phase x.self.running x.thread) (hp : x.self.phase = .posting)
    (hc : x.self.cancelled) (hd : .driving sid ∉ x.thread) :
    y.self.phase.mayPost = false ∨ y.self.phase = .posting ∧ .driving sid ∉ y.thread := by
  cases ht
  case opens => cases hc
  case prepares hu _ => exact nomatch hp.symm.trans hu
  case configured | subscribes | hooks | timeout => exact nomatch hp.symm.trans hf.of_configuring.1
  case enters hn => exact absurd (hn.symm.trans hc) Bool.false_ne_true
  case aborts | drops | breaks => exact .inl rfl
  case forgets =>
    refine .inl ?_
    dsimp only at hp ⊢
    rw [hp]
    rfl
  case runs =>
    refine .inr ⟨hp, fun hin => ?_⟩
    rcases List.mem_cons.1 hin with he | hin
    · cases he
    · exact hd hin
  case rehooks | drives => exact absurd List.mem_cons_self hd
  case ends => exact .inr ⟨hp, fun hin => hd (List.mem_cons_of_mem _ hin)⟩
  case pauses => exact absurd (by simp) hd
  case acknowledged | refused | unheard | belated => exact .inl rfl
  all_goals exact .inr ⟨hp, hd⟩

/-- Nobody takes a session back to before its post. -/
theorem past_move (ha : Reachable h) (hm : Moved h m h')
    (hp : (h.session sid).phase.mayPost = false) : (h'.session sid).phase.mayPost = false := by
  refine Bool.eq_false_iff.2 fun hy => ?_
  exact Bool.false_ne_true (hp.symm.trans ((move_turn ha.wired hm sid).mayPost (ha.fits sid) hy))

theorem past_later (hr : Reachable h) (hl : Later h h')
    (hp : (h.session sid).phase.mayPost = false) : (h'.session sid).phase.mayPost = false := by
  induction hl with
  | refl => exact hp
  | move hl hm ih => exact past_move (hr.later hl) (moved_of_move? hm) ih

theorem PostsNoMore.move (ha : Reachable h) (hm : Moved h m h') (hp : h.PostsNoMore sid) :
    h'.PostsNoMore sid := by
  rcases hp with hp | ⟨hheld, hc⟩
  · exact .inl (past_move ha hm hp)
  · have hu : (h.session sid).phase ≠ .unopened := by rw [hheld.phase]; nofun
    rcases (move_turn ha.wired hm sid).stays_away (ha.fits sid) hheld.phase hc hheld.idle with
      hy | ⟨hy, hd⟩
    · exact .inl hy
    · exact .inr ⟨⟨hy, hd⟩, cancelled_move ha hm hu hc⟩

theorem PostsNoMore.later (hr : Reachable h) (hl : Later h h') (hp : h.PostsNoMore sid) :
    h'.PostsNoMore sid := by
  induction hl with
  | refl => exact hp
  | move hl hm ih => exact ih.move (hr.later hl) (moved_of_move? hm)

/-! ### The answer -/

theorem stack_of_posting? (hp : h.posting? = some sid) :
    ∃ rest, h.stack = .posting sid :: rest := by
  unfold posting? at hp
  split at hp
  · next rest hst => cases hp; exact ⟨rest, hst⟩
  · cases hp

theorem not_busy_of_posting? (hp : h.posting? = some sid) : h.isBusy = false := by
  obtain ⟨rest, hst⟩ := stack_of_posting? hp
  unfold isBusy
  rw [hst]
  rfl

/-- The post on top can be answered. -/
theorem move?_postReplied (hp : h.posting? = some sid) (r : PostReply) :
    h.move? (.postReplied r) = some (h.pop.postReplied sid r) := by
  obtain ⟨rest, hst⟩ := stack_of_posting? hp
  unfold move?
  rw [if_neg (by rw [not_busy_of_posting? hp]; exact Bool.false_ne_true)]
  unfold call?
  dsimp only
  rw [hst]

/-- A session whose post is on top may post: it is about to. -/
theorem Reachable.posting (hr : Reachable h) (hp : h.posting? = some sid) :
    h.stance sid = (.posting, none) ∧ ¬ h.PostsNoMore sid := by
  obtain ⟨rest, hst⟩ := stack_of_posting? hp
  have hth := thread_of_stack hst rfl
  have hf := hr.fits sid
  rw [hth] at hf
  obtain ⟨hd, hphase, hrun⟩ := hf.of_posting
  refine ⟨Prod.ext hphase hrun, ?_⟩
  rintro (hn | ⟨hheld, -⟩)
  · rw [hphase] at hn
    cases hn
  · refine hheld.idle ?_
    rw [hth, hd]
    simp

theorem mayPost_postReplied (hs : h.stance sid = (.posting, none)) (hr : r ≠ .suspended) :
    ((h.postReplied sid r).session sid).phase.mayPost = false := by
  have set : ∀ {g : Hub} {q : Phase}, g.stance sid = h.stance sid → q.mayPost = false →
      ((g.setPhase sid q).stance sid).1.mayPost = false := by
    intro g q hg hq
    rw [stance_setPhase (hg.trans hs) rfl]
    exact hq
  show ((h.postReplied sid r).stance sid).1.mayPost = false
  cases r with
  | acknowledged => exact set rfl rfl
  | suspended => exact absurd rfl hr
  | failed e =>
    unfold postReplied; dsimp only
    split
    · rw [stance_release]; exact set rfl rfl
    · split
      · rw [stance_release]; exact set rfl rfl
      · exact set rfl rfl

/-- A session whose post has been answered is past it. -/
theorem past_of_answered (hr : Reachable h) (hp : h.posting? = some sid)
    (hm : h.move? (.postReplied r) = some h') (hn : r ≠ .suspended) :
    (h'.session sid).phase.mayPost = false := by
  obtain ⟨rest, hst⟩ := stack_of_posting? hp
  cases moved_of_move? hm with
  | postReplied hst' =>
    cases hst.symm.trans hst'
    exact mayPost_postReplied (h := h.pop) (hr.posting hp).1 hn

/-- A session that is given up while its post is held up is past it. -/
theorem past_of_dropped (hp : (h.session sid).phase = .posting)
    (hm : h.move? (.drop sid) = some h') : (h'.session sid).phase.mayPost = false := by
  cases moved_of_move? hm with
  | drop hr =>
    have hi : sid < (h.push (.driving sid)).sessions.length := (mayRun_iff.1 hr).1
    have hu : (h.session sid).isUnderWay := by unfold Session.isUnderWay; rw [hp]
    have hv := view_release (h := (h.push (.driving sid)).onSession sid fun x =>
      { x with running := none, phase := .dropping }) (by simpa using hi) sid .ended
    rw [if_pos rfl, view_onSession _ _ _ hi, if_pos rfl] at hv
    unfold drop; dsimp only
    rw [if_pos hu]
    exact congrArg (fun v : View => v.self.phase.mayPost) hv

end
end Hub
end Aftermath
