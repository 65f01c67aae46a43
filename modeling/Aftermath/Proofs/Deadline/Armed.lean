import Aftermath.Proofs.Deadline.Spared
import Aftermath.Proofs.Order
import Aftermath.Proofs.Readiness

/-! When countdowns start. A session arms its members once, when it has been acknowledged; nobody else
starts the countdown of a subscription that only its own session has among its members. -/

namespace Aftermath

/-- A phase before the await. -/
def Phase.isAhead : Phase → Bool
  | .unopened | .configuring | .prepared | .checking | .preparing _ | .posting | .acknowledging _ => true
  | _ => false

namespace Hub

section
variable {h h' k : Hub} {i sid : SessionId} {m : Move} {s : SubId} {x y : View} {v w : SubView}

/-- Once a session waits, or has come further, it does not go back. -/
theorem Turn.ahead (ht : Turn h h' sid x y) (hf : Fits sid x.self.phase x.self.running x.thread)
    (hp : y.self.phase.isAhead) : x.self.phase.isAhead := by
  cases ht
  case opens => rfl
  case prepares hu _ =>
    rw [show Session.phase _ = .unopened from hu]
    rfl
  case configured =>
    rw [hf.of_configuring.1]
    rfl
  case enters =>
    dsimp only at hp ⊢
    split at hp
    · next hq =>
      rw [hq]
      rfl
    · exact hp
  case acknowledged =>
    rw [hf.of_posting.2.1]
    rfl
  case aborts | drops | breaks | refused | unheard | belated => cases hp
  case forgets =>
    dsimp only at hp
    split at hp <;> cases hp
  case drives hd =>
    cases hd
    case skips hq _ | passes hq _ | posts hq _ =>
      rw [show Session.phase _ = _ from hq]
      rfl
    case begins hnx =>
      unfold Phase.next? at hnx
      split at hnx <;> cases hnx
      · next hq => rw [hq]; rfl
      · next hq => rw [hq]; rfl
      · cases hp
    case resumes | waits | dismisses | stops => exact hp
    all_goals cases hp
  all_goals exact hp

theorem ahead_before (hr : Reachable h) (hl : Later h h') (hp : (h'.session i).phase.isAhead) :
    (h.session i).phase.isAhead := by
  induction hl with
  | refl => exact hp
  | move hl hm ih =>
    have ha := hr.later hl
    exact ih ((move_turn ha.wired (moved_of_move? hm) i).ahead (ha.fits i) hp)

theorem step_of_busy (hb : h.isBusy) (hm : h.move? m = some h') : m = .step := by
  unfold move? at hm
  rw [if_pos hb] at hm
  split at hm
  · rfl
  · cases hm

/-- A session that arms its members does so at once. -/
theorem Arms.moves (ha : h.Arms i) (hm : h.move? m = some h') : m = .step ∧ h' = h.drive i := by
  obtain ⟨rest, hst⟩ := ha.stack
  obtain rfl := step_of_busy (isBusy_of_stack hst rfl) hm
  exact ⟨rfl, moved_driving (moved_of_move? hm) hst⟩

theorem Arms.move? (ha : h.Arms i) : h.move? .step = some (h.drive i) := by
  obtain ⟨rest, hst⟩ := ha.stack
  rw [Hub.move?, if_pos (isBusy_of_stack hst rfl), step]
  simp only [hst]

theorem Arms.awaits (hw : Wired h) (ha : h.Arms i) (hin : s ∈ (h.session i).members) :
    ((h.drive i).session i).phase = .awaiting := by
  obtain ⟨rest, hst⟩ := ha.stack
  have hi : i < h.sessions.length :=
    hw.session_lt hst rfl
  rw [ha.drive hin, setPhase, session_onSession _ _ _ (by simpa using hi), if_pos rfl]

theorem armed_later (hr : Reachable h) (hl : Later h h') (ha : (h.sub s).armed) : (h'.sub s).armed := by
  induction hl with
  | refl => exact ha
  | move hl hm ih => exact (move_shift (hr.later hl).wired (moved_of_move? hm) s).armed_mono ih

/-- Countdowns start where a session arms its members. -/
theorem Shift.arms (hs : Shift h h' s v w) (hw : w.self.armed) :
    v.self.armed ∨ ∃ i, h.Arms i ∧ s ∈ (h.session i).members := by
  cases hs
  case born | bornLate => cases hw
  case armed hst hp hr hc hin _ _ => exact .inr ⟨_, ⟨by rw [hst]; rfl, hp, hr, hc⟩, hin⟩
  all_goals exact .inl hw

/-- Whose countdown has started has been armed by a session, whose member it was. -/
theorem Reachable.armed_by (hr : Reachable h) (harm : (h.sub s).armed) :
    ∃ g i, Reachable g ∧ g.Arms i ∧ s ∈ (g.session i).members ∧ Later (g.drive i) h := by
  induction hr using Reachable.induct with
  | init settings => cases harm
  | move a b m ha hm ih =>
    rcases (move_shift ha.wired (moved_of_move? hm) s).arms harm with hold | ⟨i, harms, hin⟩
    · obtain ⟨g, i, hg, harms, hin, hl⟩ := ih hold
      exact ⟨g, i, hg, harms, hin, hl.move hm⟩
    · obtain ⟨-, rfl⟩ := harms.moves hm
      exact ⟨a, i, ha, harms, hin, .refl⟩

instance (h : Hub) (s : SubId) : Decidable (Lent h s) :=
  decidable_of_iff (∃ i < h.sessions.length, i ≠ (h.sub s).home ∧ s ∈ (h.session i).members) <| by
    constructor
    · rintro ⟨i, -, hne, hin⟩
      exact ⟨i, hne, hin⟩
    · rintro ⟨i, hne, hin⟩
      refine ⟨i, Nat.lt_of_not_le fun hle => ?_, hne, hin⟩
      rw [session, List.getD_eq_getElem?_getD, List.getElem?_eq_none hle] at hin
      cases hin

theorem Lent.later (hr : Reachable h) (hl : Later h h') (hs : Lent h s) : Lent h' s := by
  induction hl with
  | refl => exact hs
  | move hl hm ih => exact ih.move (hr.later hl) (moved_of_move? hm)

/-- Until a session arms its members, the countdowns of its own have not started, unless another session
has them among its members too. -/
theorem Arms.unarmed (ha : h.Arms sid) (hk : Reachable k) (hl : Later k h)
    (hh : (h.sub s).home = sid) (hn : ¬ Lent h s) : (k.sub s).armed = false := by
  rw [← Bool.not_eq_true]
  intro harm
  obtain ⟨g, i, hg, harms, hin, hlg⟩ := hk.armed_by harm
  have hgd := hg.later (Later.refl.move harms.move?)
  have hlh := hlg.trans hl
  by_cases hi : i = sid
  · subst hi
    have hp := ahead_before hgd hlh (i := i) (by rw [ha.phase]; rfl)
    rw [harms.awaits hg.wired hin] at hp
    cases hp
  · have hlt := hg.wired.members i s hin
    have hgh : Later g h := (Later.refl.move harms.move?).trans hlh
    refine hn (Lent.later hg hgh ⟨i, ?_, hin⟩)
    rw [← (hg.home_lasts hgh hlt).2, hh]
    exact hi

theorem Reachable.armed_of_timedOut (hr : Reachable h) (hst : (h.sub s).state = .timedOut) :
    (h.sub s).armed := by
  rcases hr.claims (.inr rfl) hst with ⟨f, hf, hfs⟩ | ⟨c, hc, hcs⟩
  · have hfu : f.sub? = some s := by simpa using (List.mem_filter.1 hf).2
    cases f <;> cases hfs
    cases hfu
    exact (hr.kept s).expired hf
  · unfold Claim.state? at hcs
    split at hcs
    · split at hcs <;> cases hcs
    · split at hcs
      · next ht => exact hr.armed_of_claim (ht ▸ hc)
      · cases hcs
    · cases hcs

/-- From when a session has begun on it gets no new subscriptions of its own. -/
theorem own_before (hr : Reachable h) (hl : Later h h') (hp : (h.session sid).phase.isBegun)
    (hs : s < h'.subs.length) (hh : (h'.sub s).home = sid) :
    s ∈ (h.session sid).members ∧ (h.sub s).home = sid := by
  have hx : s < h.subs.length ∧ (h.sub s).home = sid := by
    have begun : ∀ {a}, Later h a → (a.session sid).phase.isBegun := by
      intro a hla
      induction hla with
      | refl => exact hp
      | move hl hm ih =>
        have ha := hr.later hl
        exact ((move_turn ha.wired (moved_of_move? hm) sid).begun (ha.fits sid) ih).1
    induction hl with
    | refl => exact ⟨hs, hh⟩
    | move hl hm ih =>
      obtain ⟨hs, hh⟩ := own_move (hr.later hl) (moved_of_move? hm)
        (Phase.not_configuring_of_begun (begun hl)) hs hh
      exact ih hs hh
  exact ⟨hx.2 ▸ hr.wired.own s hx.1, hx.2⟩

end
end Hub
end Aftermath
