import Aftermath.Proofs.Modal
import Aftermath.Proofs.Notices
import Aftermath.Proofs.Turn.Advance
import Aftermath.Proofs.Turn.Origin

/-! A modal session that is alone on its surface. However it ends it leaves the surface free; it posts
its command, runs the hooks around the post and, once it has come to them, hears of the outcome while
the surface is busy; and the surface is told to close once, after it is free again, if the session
has ended positive, and else never. -/

namespace Aftermath

/-- A session in such a state has not raised the flag of its surface, or what it raised it for is
over: it has neither a hook before the post nor a post under way. -/
def Session.IsUnraised (x : Session) : Prop :=
  match x.phase with
  | .preparing ks => ks = [] ∧ x.running = none ∧ x.isSettled
  | .posting | .acknowledging _ | .refused _ | .unheard _ => False
  | _ => True

theorem Session.IsUnraised.same {a b : Session} (ha : a.IsUnraised) (hp : b.phase = a.phase)
    (hr : b.running = a.running) (hs : a.isSettled → b.isSettled) : b.IsUnraised := by
  unfold IsUnraised at ha ⊢
  rw [hp, hr]
  split at ha
  · exact ⟨ha.1, ha.2.1, hs ha.2.2⟩
  all_goals exact ha

/-- Before the flag is raised only handlers begin. -/
theorem Session.IsUnraised.begins {x : Session} {k : HookId} {arg : Argument} {p : Phase}
    (hx : x.IsUnraised) (hn : x.phase.next? = some (k, arg, p)) :
    ({ x with phase := p, running := some (k, arg) } : Session).IsUnraised := by
  unfold IsUnraised at hx
  unfold Phase.next? at hn
  split at hn
  · next hp => simp only [hp] at hx; cases hx.1
  · next hp => simp only [hp] at hx
  · cases hn; trivial
  · cases hn

def Session.isPositive (x : Session) : Bool := x.ending?.any Ending.isPositive

namespace Hub

/-- No other session of a surface is under way. -/
def Alone (sid : SessionId) (k : ModalId) (h : Hub) : Prop :=
  ∀ i, i ≠ sid → (h.session i).modal = some k → (h.session i).phase.isStill

/-- The second hub comes after the first, a session alone on its surface all the while. -/
inductive Undisturbed (sid : SessionId) (k : ModalId) (a : Hub) : Hub → Prop where
  | refl : Alone sid k a → Undisturbed sid k a a
  | move {b c : Hub} {m : Move} : Undisturbed sid k a b → b.move? m = some c → Alone sid k c →
      Undisturbed sid k a c

section
variable {a b h h' : Hub} {sid i : SessionId} {m : Move} {k : ModalId} {x y : View} {e : Ending}

theorem Undisturbed.later (hu : Undisturbed sid k a h) : Later a h := by
  induction hu with
  | refl => exact .refl
  | move _ hm _ ih => exact ih.move hm

theorem Undisturbed.alone (hu : Undisturbed sid k a h) : Alone sid k h := by
  cases hu with
  | refl hal => exact hal
  | move _ _ hal => exact hal

theorem Undisturbed.alone_first (hu : Undisturbed sid k a h) : Alone sid k a := by
  induction hu with
  | refl hal => exact hal
  | move _ _ _ ih => exact ih

/-! ### Who writes the flag -/

/-- A session that raises its flag has just found every subscription active. -/
theorem writes?_true (hw : h.writes? = some (i, true)) :
    (∃ rest, h.stack = .driving i :: rest) ∧ (h.session i).phase = .checking := by
  unfold writes? at hw
  split at hw
  · next j rest hst =>
    dsimp only at hw
    split at hw
    · cases hw
    · split at hw
      · next hp =>
        split at hw <;> cases hw
        exact ⟨⟨rest, hst⟩, hp⟩
      · cases hw
      · cases hw
      · cases hw
  · cases hw

def told? (h : Hub) (m : Move) (k : ModalId) : Option Bool :=
  (h.telling m).findSome? (·.written? k)

theorem written?_farewell (j k : ModalId) (e : Ending) :
    (farewell j e).findSome? (·.written? k) = if j = k then some false else none := by
  have hb : Happening.written? k (.busy j false) = if j = k then some false else none := rfl
  have hc : Happening.written? k (.closing j) = none := rfl
  unfold farewell
  by_cases hj : j = k
  · rw [if_pos hj] at hb ⊢
    split <;> rw [List.findSome?_cons, hb]
  · rw [if_neg hj] at hb ⊢
    split
    · simp [hb]
    · split <;> simp [hb, hc]

theorem told?_of_writes {f : Bool} {j : ModalId} (hw : h.writes? = some (i, f))
    (hj : (h.session i).modal = some j) (k : ModalId) :
    h.told? .step k = if j = k then some f else none := by
  unfold told? telling
  simp only [hw, hj]
  cases f with
  | true =>
    simp only [(writes?_true hw).2]
    by_cases hjk : j = k <;> simp [Happening.written?, hjk]
  | false =>
    obtain ⟨-, -, ⟨e, hp⟩ | hp⟩ := writes?_false hw
    · simp only [hp, written?_farewell]
    · simp only [hp]
      by_cases hjk : j = k <;> simp [Happening.written?, hjk]

theorem told?_eq_some {f : Bool} : h.told? m k = some f ↔
    m = .step ∧ ∃ i, h.writes? = some (i, f) ∧ (h.session i).modal = some k := by
  constructor
  · intro ht
    cases m
    case step =>
      refine ⟨rfl, ?_⟩
      cases hw : h.writes? with
      | none => simp [told?, telling, hw] at ht
      | some p =>
        obtain ⟨i, g⟩ := p
        cases hj : (h.session i).modal with
        | none => simp [told?, telling, hw, hj] at ht
        | some j =>
          rw [told?_of_writes hw hj] at ht
          split at ht
          · next hjk => cases ht; exact ⟨i, rfl, hjk ▸ hj⟩
          · cases ht
    all_goals simp [told?, telling] at ht
  · rintro ⟨rfl, i, hw, hk⟩
    rw [told?_of_writes hw hk, if_pos rfl]

/-- The flag of a surface is what was written to it last. -/
theorem busy_told (ha : Reachable h) (hm : Moved h m h') (hk : k < h.modals.length) :
    (h'.modal k).busy = (h.told? m k).getD (h.modal k).busy := by
  cases ht : h.told? m k with
  | some f =>
    obtain ⟨rfl, i, hw, hi⟩ := told?_eq_some.1 ht
    rw [busy_eq, flags_move ha hm, flagging, hw]
    exact flagged_self hi hk f
  | none =>
    rw [Option.getD_none, busy_eq, flags_move ha hm]
    unfold flagging
    split
    · rw [busy_eq, List.getD_eq_getElem?_getD, List.getD_eq_getElem?_getD,
        List.getElem?_append_left (by simpa [flags] using hk)]
    · split
      · next i f hw =>
        have hi : (h.session i).modal ≠ some k := fun hi => by
          rw [told?_eq_some.2 ⟨rfl, i, hw, hi⟩] at ht
          cases ht
        exact flagged_other hi f
      · rw [busy_eq]
    · rw [busy_eq]

theorem lt_of_busy_move (ha : Reachable h) (hm : Moved h m h') (hb : (h'.modal k).busy) :
    k < h.modals.length := by
  apply Nat.lt_of_not_le
  intro hk
  have hfl : h.flags.getD k false = false := by simp [flags, hk]
  rw [busy_eq, flags_move ha hm] at hb
  unfold flagging at hb
  split at hb
  · rw [List.getD_eq_getElem?_getD, List.getElem?_append_right (by simpa [flags] using hk)] at hb
    cases hn : k - h.flags.length <;> simp [hn] at hb
  · split at hb
    · unfold flagged at hb
      split at hb
      · exact Bool.false_ne_true (hfl.symm.trans hb)
      · simp [flags, hk] at hb
    · exact Bool.false_ne_true (hfl.symm.trans hb)
  · exact Bool.false_ne_true (hfl.symm.trans hb)

/-- A session that is under way no longer has just left. -/
theorem Turn.leaves_cases (ht : Turn h h' sid x y)
    (hf : Fits sid x.self.phase x.self.running x.thread) (hx : x.self.phase.isStill = false)
    (hy : y.self.phase.isStill) :
    x.self.running = none ∧ ((∃ e, x.self.phase = .closing e ∧ y.self.phase = .ended e) ∨
      x.self.phase = .dropping ∧ y.self.phase = .dropped) := by
  have same : y.self.phase = x.self.phase → False := fun he =>
    Bool.false_ne_true (hx.symm.trans (he ▸ hy))
  cases ht
  case opens => cases hx
  case prepares hp _ => rw [hp] at hx; cases hx
  case configured => rw [hf.of_configuring.1] at hx; cases hx
  case enters =>
    dsimp only at hy same
    split at hy
    · cases hy
    · next hp => exact (same (if_neg hp)).elim
  case aborts | drops | breaks | acknowledged | refused | unheard | belated => cases hy
  case forgets hn ho hu =>
    rcases hf.of_forgotten hn ho hu with hp | hp <;> rw [show Session.phase _ = _ from hp] at hx <;>
      cases hx
  case drives hr hd =>
    refine ⟨hr, ?_⟩
    cases hd
    case leaves hp => exact .inl ⟨_, hp, rfl⟩
    case vanishes hp => exact .inr ⟨hp, rfl⟩
    case begins hn =>
      have hk := Phase.not_still_of_hooking (Phase.isHooking_of_next hn)
      exact absurd (hk.symm.trans hy) Bool.false_ne_true
    case resumes | waits | dismisses | stops => exact (same rfl).elim
    all_goals cases hy
  all_goals exact (same rfl).elim

/-- A session that only drives changes its phase by a step that drives it. -/
theorem drives_of_changed (ha : Reachable h) (hm : h.move? m = some h')
    (hth : h.thread i = [.driving i]) (hp : (h'.session i).phase ≠ (h.session i).phase) :
    m = .step ∧ ∃ rest, h.stack = .driving i :: rest := by
  rcases stance_or_advances ha (moved_of_move? hm) (hth ▸ List.mem_cons_self) with hs | hadv
  · exact absurd (congrArg Prod.fst hs) hp
  · cases hadv with
    | drive hst => exact ⟨(step_of_driving hst hm).1, _, hst⟩
    | hook hst | post hst =>
      rw [thread_of_stack hst rfl] at hth
      cases hth

/-- A session that leaves clears its flag by its last step. -/
theorem clears_of_leaves (ha : Reachable h) (hm : h.move? m = some h')
    (hx : (h.session i).phase.isStill = false) (hy : (h'.session i).phase.isStill) :
    m = .step ∧ h.writes? = some (i, false) := by
  have hmv := moved_of_move? hm
  have hf := ha.fits i
  obtain ⟨hr, hp⟩ := (move_turn ha.wired hmv i).leaves_cases hf hx hy
  have hc : (∃ e, (h.session i).phase = .closing e) ∨ (h.session i).phase = .dropping :=
    hp.imp (fun ⟨e, hp, _⟩ => ⟨e, hp⟩) And.left
  have hth : h.thread i = [.driving i] := by
    rcases hc with ⟨e, hc⟩ | hc <;> exact ((hc ▸ hf).of_passing rfl rfl nofun).1
  obtain ⟨rfl, rest, hst⟩ := drives_of_changed ha hm hth fun he => by
    rw [he, hx] at hy
    cases hy
  refine ⟨rfl, ?_⟩
  unfold writes?
  rw [hst]
  have hr' : (h.session i).running = none := hr
  rcases hc with ⟨e, hc⟩ | hc <;> simp [hr', hc]

/-- A surface is busy only while one of its sessions is under way. -/
theorem Reachable.under_way_of_busy (hr : Reachable h) (hb : (h.modal k).busy) :
    ∃ i, (h.session i).modal = some k ∧ (h.session i).phase.isStill = false := by
  induction hr using Reachable.induct with
  | init settings => cases hb
  | move a b m ha hm ih =>
    have hmv := moved_of_move? hm
    have hlt := lt_of_busy_move ha hmv hb
    rw [busy_told ha hmv hlt] at hb
    -- whoever was under way still is, unless it has cleared the flag
    have lasts : ∀ {i}, (a.session i).modal = some k → (a.session i).phase.isStill = false →
        a.told? m k ≠ some false → (b.session i).phase.isStill = false := by
      intro i hi hx hn
      rw [← Bool.not_eq_true]
      intro hy
      obtain ⟨rfl, hw⟩ := clears_of_leaves ha hm hx hy
      exact hn (told?_eq_some.2 ⟨rfl, i, hw, hi⟩)
    cases ht : a.told? m k with
    | none =>
      rw [ht] at hb
      obtain ⟨i, hi, hx⟩ := ih hb
      exact ⟨i, modal_move ha hmv hi, lasts hi hx (by rw [ht]; nofun)⟩
    | some f =>
      rw [ht] at hb
      cases (show f = true from hb)
      obtain ⟨-, i, hw, hi⟩ := told?_eq_some.1 ht
      have hx : (a.session i).phase.isStill = false := by rw [(writes?_true hw).2]; rfl
      exact ⟨i, modal_move ha hmv hi, lasts hi hx (by rw [ht]; nofun)⟩

/-- A surface is free before and after the session that has it to itself. -/
theorem Alone.free (hal : Alone sid k h) (hr : Reachable h) (hs : (h.session sid).phase.isStill) :
    (h.modal k).busy = false := by
  rw [← Bool.not_eq_true]
  intro hb
  obtain ⟨i, hi, hx⟩ := hr.under_way_of_busy hb
  by_cases hi' : i = sid
  · subst hi'
    exact Bool.false_ne_true (hx.symm.trans hs)
  · exact Bool.false_ne_true (hx.symm.trans (hal i hi' hi))

theorem isStill_of_over {x : Session} (ho : x.isOver) : x.phase.isStill := by
  rw [Session.isOver_eq] at ho
  revert ho
  cases x.phase <;> simp [Phase.isOver, Phase.isStill]

/-- Nobody but the session that is alone on its surface writes the flag. -/
theorem Alone.writer (hal : Alone sid k h) {f : Bool} (hw : h.writes? = some (i, f))
    (hi : (h.session i).modal = some k) : i = sid := by
  refine Decidable.byContradiction fun hne => ?_
  have hx : (h.session i).phase.isStill = false := by
    cases f with
    | true => rw [(writes?_true hw).2]; rfl
    | false =>
      obtain ⟨-, -, ⟨e, hp⟩ | hp⟩ := writes?_false hw <;> rw [hp] <;> rfl
  exact Bool.false_ne_true (hx.symm.trans (hal i hne hi))

/-- The flag of a session that is alone stays raised until the session is over. -/
theorem Alone.busy_move (hal : Alone sid k h) (ha : Reachable h) (hm : h.move? m = some h')
    (hb : (h.modal k).busy) : (h'.modal k).busy ∨ (h'.session sid).isOver := by
  have hmv := moved_of_move? hm
  rw [busy_told ha hmv (lt_of_busy hb)]
  cases ht : h.told? m k with
  | none => exact .inl hb
  | some f =>
    cases f with
    | true => exact .inl rfl
    | false =>
      obtain ⟨rfl, i, hw, hi⟩ := told?_eq_some.1 ht
      obtain rfl := hal.writer hw hi
      obtain ⟨⟨rest, hst⟩, -⟩ := writes?_false hw
      rw [(step_of_driving hst hm).2]
      exact .inr (over_of_clears ha hw).2

/-! ### What happens while the flag is raised -/

/-- A session that has passed its check and is undecided raises its flag. -/
theorem raises_of_passes (ha : Reachable h) (hm : h.move? m = some h')
    (hp : (h.session sid).phase = .checking) (hc : (h.session sid).claim = none)
    (hact : h.allActive sid) (hp' : (h'.session sid).phase ≠ .checking) :
    m = .step ∧ h.writes? = some (sid, true) := by
  obtain ⟨hth, hr⟩ := (hp ▸ ha.fits sid).of_passing rfl rfl nofun
  obtain ⟨rfl, rest, hst⟩ := drives_of_changed ha hm hth fun he => hp' (he.trans hp)
  refine ⟨rfl, ?_⟩
  unfold writes?
  rw [hst]
  simp [hr, hp, Session.isSettled, hc, hact]

/-- A session that had not raised its flag has not raised it still, or does it in passing its check. -/
theorem Turn.unraised_cases (ht : Turn h h' sid x y)
    (hf : Fits sid x.self.phase x.self.running x.thread) (hx : x.self.IsUnraised) :
    y.self.IsUnraised ∨ x.self.phase = .checking ∧ x.self.claim = none ∧ h.allActive sid ∧
      y.self.phase ≠ .checking := by
  cases ht
  case opens | prepares | configured | aborts | drops | breaks => exact .inl trivial
  case decides => exact .inl (Session.IsUnraised.same hx rfl rfl fun _ => rfl)
  case withdrawn => exact .inl (Session.IsUnraised.same hx rfl rfl fun _ => Session.isSettled_settled _ _)
  case enters =>
    left
    dsimp only
    split
    · exact trivial
    · exact hx
  case forgets =>
    left
    dsimp only
    split <;> exact trivial
  case ends =>
    obtain ⟨-, hp, hr⟩ := hf.of_hook
    left
    unfold Session.IsUnraised at hx ⊢
    dsimp only at hp hr hx ⊢
    revert hp hx
    cases Session.phase _ <;> simp [hr, Phase.isHooking]
  case acknowledged | refused | unheard | belated =>
    obtain ⟨-, hp, -⟩ := hf.of_posting
    unfold Session.IsUnraised at hx
    rw [hp] at hx
    exact hx.elim
  case drives hr hd =>
    cases hd
    case passes hact hp hc => exact .inr ⟨hp, hc, hact, nofun⟩
    case skips hs => exact .inl ⟨rfl, hr, hs⟩
    case begins hn => exact .inl (Session.IsUnraised.begins hx hn)
    case posts hp hc =>
      unfold Session.IsUnraised at hx
      simp only [hp, Session.isSettled, hc] at hx
      cases hx.2.2
    case resumes | waits | stops | dismisses => exact .inl (Session.IsUnraised.same hx rfl rfl id)
    all_goals exact .inl trivial
  all_goals exact .inl (Session.IsUnraised.same hx rfl rfl id)

theorem modals_length_le (ha : Reachable h) (hm : Moved h m h') :
    h.modals.length ≤ h'.modals.length := by
  have hl : ∀ g : Hub, g.modals.length = g.flags.length := fun g => by simp [flags]
  rw [hl, hl, flags_move ha hm]
  unfold flagging
  split
  · simp
  · split
    · unfold flagged; split <;> simp
    · exact Nat.le_refl _
  · exact Nat.le_refl _

structure Occupies (sid : SessionId) (k : ModalId) (h : Hub) : Prop where
  reachable : Reachable h
  surface : (h.session sid).modal = some k
  there : k < h.modals.length

theorem Occupies.move (hl : Occupies sid k h) (hm : h.move? m = some h') : Occupies sid k h' where
  reachable := hl.reachable.later (Later.refl.move hm)
  surface := modal_move hl.reachable (moved_of_move? hm) hl.surface
  there := Nat.lt_of_lt_of_le hl.there (modals_length_le hl.reachable (moved_of_move? hm))

theorem Occupies.undisturbed (hl : Occupies sid k a) (hu : Undisturbed sid k a h) : Occupies sid k h := by
  induction hu with
  | refl => exact hl
  | move _ hm _ ih => exact ih.move hm

/-- As long as the flag of a session that is alone is down, the session has not raised it. -/
theorem Undisturbed.busy_or_unraised (hl : Occupies sid k a) (hp : (a.session sid).phase = .unopened)
    (hu : Undisturbed sid k a h) : (h.modal k).busy ∨ (h.session sid).IsUnraised := by
  induction hu with
  | refl =>
    right
    unfold Session.IsUnraised
    rw [hp]
    trivial
  | @move b c m hu hm _ ih =>
    obtain ⟨hr, hk, hlt⟩ := hl.undisturbed hu
    have hmv := moved_of_move? hm
    rcases ih with hb | hx
    · refine (hu.alone.busy_move hr hm hb).imp id fun ho => ?_
      rw [Session.isOver_eq] at ho
      unfold Session.IsUnraised
      revert ho
      cases (c.session sid).phase <;> simp [Phase.isOver]
    · rcases (move_turn hr.wired hmv sid).unraised_cases (hr.fits sid) hx with hx | ⟨hp, hc, ha, hp'⟩
      · exact .inr hx
      · obtain ⟨rfl, hw⟩ := raises_of_passes hr hm hp hc ha hp'
        left
        rw [busy_told hr hmv hlt, told?_eq_some.2 ⟨rfl, sid, hw, hk⟩, Option.getD_some]

/-- A flag that is up when a session is alone stays up until the session is over. -/
theorem Undisturbed.busy (hr : Reachable a) (hb : (a.modal k).busy) (hu : Undisturbed sid k a h)
    (ho : (h.session sid).isOver = false) : (h.modal k).busy := by
  induction hu with
  | refl => exact hb
  | @move b c m hu hm _ ih =>
    have ha := hr.later hu.later
    have hn : (b.session sid).isOver = false := by
      rw [← Bool.not_eq_true]
      intro hover
      rw [over_later ha (Later.refl.move hm) hover] at ho
      cases ho
    refine (hu.alone.busy_move ha hm (ih hn)).resolve_right fun hover => ?_
    exact Bool.false_ne_true (ho.symm.trans hover)

/-! ### When the surface is told to close -/

theorem count_farewell (k : ModalId) (e : Ending) :
    (farewell k e).count (.closing k) = e.isPositive.toNat := by
  unfold farewell
  split
  · rfl
  · cases he : e.isPositive <;> simp

/-- A surface is told to close by a session that leaves. -/
theorem leaves_of_told_closing (hc : .closing k ∈ h.telling m) :
    m = .step ∧ ∃ i, h.writes? = some (i, false) ∧ (h.session i).modal = some k ∧
      ∃ e, (h.session i).phase = .closing e := by
  unfold telling at hc
  split at hc
  · split at hc
    · cases hc
    · next i f hw =>
      split at hc
      · cases hc
      · next j hj =>
        split at hc
        · next e hp =>
          have hf : f = false := by
            cases f with
            | false => rfl
            | true => rw [(writes?_true hw).2] at hp; cases hp
          have hjk : j = k := by
            unfold farewell at hc
            split at hc
            · simp at hc
            · cases he : e.isPositive <;> simp [he] at hc
              exact hc.symm
          subst hf; subst hjk
          exact ⟨rfl, i, hw, hj, e, hp⟩
        · simp at hc
  · cases hc

/-- The last step of a session that comes to its end. -/
theorem ended_of_closing (ha : Reachable h) (hw : h.writes? = some (sid, false))
    (hp : (h.session sid).phase = .closing e) : ((h.drive sid).session sid).phase = .ended e := by
  obtain ⟨⟨rest, hst⟩, hr, -⟩ := writes?_false hw
  have hi : sid < h.sessions.length := (hst ▸ ha.wired.laid).1
  obtain ⟨g, -, hs, -, he⟩ := leave_eq h sid e
  have hd : h.drive sid = h.leave sid e := by simp only [drive, hr, hp]
  rw [hd, he]
  change ((g.onSession sid _).session sid).phase = _
  rw [session_onSession _ _ _ (by rw [hs]; exact hi), if_pos rfl]

theorem Session.isPositive_iff {x : Session} :
    x.isPositive ↔ ∃ e, x.phase = .ended e ∧ e.isPositive := by
  unfold Session.isPositive Session.ending?
  cases x.phase <;> simp

theorem Session.not_positive {x : Session} (hn : ∀ e, x.phase ≠ .ended e) : x.isPositive = false := by
  rw [← Bool.not_eq_true, Session.isPositive_iff]
  rintro ⟨e, he, -⟩
  exact hn e he

/-- A session that clears its flag tells the surface to close if it ends positive. -/
theorem closings_of_clears (ha : Reachable h) (hk : (h.session sid).modal = some k)
    (hm : h.move? .step = some h') (hw : h.writes? = some (sid, false)) :
    (h.telling .step).count (.closing k) + (h.session sid).isPositive.toNat =
      (h'.session sid).isPositive.toNat := by
  obtain ⟨⟨rest, hst⟩, -, hp⟩ := writes?_false hw
  rw [telling]
  simp only [hw, hk]
  rcases hp with ⟨e, hp⟩ | hp
  · have hn := Session.not_positive fun e' he => by cases hp.symm.trans he
    have hy := ended_of_closing ha hw hp
    rw [hn, (step_of_driving hst hm).2, Session.isPositive, Session.ending?, hy]
    simp only [hp, count_farewell]
    rfl
  · have hn := Session.not_positive fun e he => by cases hp.symm.trans he
    have hy : (h'.session sid).isPositive = false := Session.not_positive fun e he => by
      rcases (move_turn ha.wired (moved_of_move? hm) sid).ended_cases he with hx | hx <;>
        rw [view_self, hp] at hx <;> cases hx
    simp [hp, hn, hy]

/-- A session that does not clear its flag just now has not just ended. -/
theorem isPositive_of_not_clears (ha : Reachable h) (hm : h.move? m = some h')
    (hw : ¬(m = .step ∧ h.writes? = some (sid, false))) :
    (h.session sid).isPositive = (h'.session sid).isPositive := by
  rw [Bool.eq_iff_iff, Session.isPositive_iff, Session.isPositive_iff]
  constructor
  · rintro ⟨e, hx, hpos⟩
    have hs := (ha.silent (Later.refl.move hm) (by rw [hx]; rfl)).1
    exact ⟨e, hs.trans hx, hpos⟩
  · rintro ⟨e, hy, hpos⟩
    rcases (move_turn ha.wired (moved_of_move? hm) sid).ended_cases hy with hx | hx
    · exact ⟨e, hx, hpos⟩
    · have hx : (h.session sid).phase = .closing e := hx
      exact absurd (clears_of_leaves ha hm (by rw [hx]; rfl) (by rw [hy]; rfl)) hw

/-- A surface that a session has to itself is told to close when the session has just ended
positive. -/
theorem Alone.closings_move (hal : Alone sid k h) (hl : Occupies sid k h) (hm : h.move? m = some h') :
    (h.telling m).count (.closing k) + (h.session sid).isPositive.toNat =
      (h'.session sid).isPositive.toNat := by
  obtain ⟨ha, hk, -⟩ := hl
  by_cases hw : m = .step ∧ h.writes? = some (sid, false)
  · obtain ⟨rfl, hw⟩ := hw
    exact closings_of_clears ha hk hm hw
  · have hc : (h.telling m).count (.closing k) = 0 := by
      rw [List.count_eq_zero]
      intro hc
      obtain ⟨rfl, i, hwi, hi, -⟩ := leaves_of_told_closing hc
      obtain rfl := hal.writer hwi hi
      exact hw ⟨rfl, hwi⟩
    rw [hc, isPositive_of_not_clears ha hm hw, Nat.zero_add]

/-- Whenever the surface is told to close, it has just been told that it is free. -/
def FreeFirst (k : ModalId) (l : List Happening) : Prop :=
  ∀ older, .closing k :: older <:+ l → older.head? = some (.busy k false)

theorem FreeFirst.busy {l : List Happening} (hl : FreeFirst k l) (j : ModalId) (f : Bool) :
    FreeFirst k (.busy j f :: l) := by
  intro older hs
  rcases List.suffix_cons_iff.1 hs with he | hs
  · cases he
  · exact hl older hs

theorem FreeFirst.closing {l : List Happening} (hl : FreeFirst k l) (j : ModalId) :
    FreeFirst k (.closing j :: .busy j false :: l) := by
  intro older hs
  rcases List.suffix_cons_iff.1 hs with he | hs
  · cases he; rfl
  · exact hl.busy j false older hs

theorem FreeFirst.farewell {l : List Happening} (hl : FreeFirst k l) (j : ModalId) (e : Ending) :
    FreeFirst k (farewell j e ++ l) := by
  unfold Hub.farewell
  split
  · exact hl.busy j false
  · split
    · exact (hl.closing j).busy j false
    · exact (hl.busy j false).busy j false

theorem FreeFirst.told {l : List Happening} (hl : FreeFirst k l) (h : Hub) (m : Move) :
    FreeFirst k (h.telling m ++ l) := by
  unfold telling
  split
  · split
    · exact hl
    · split
      · exact hl
      · next j _ =>
        split
        · next e _ => exact hl.farewell j e
        · exact hl.busy j _
  · exact hl

/-- What a surface is told while a session has it to itself. -/
theorem Undisturbed.notices (hl : Occupies sid k a) (hp : (a.session sid).phase = .unopened)
    (hu : Undisturbed sid k a h) : ∃ new, h.notices = new ++ a.notices ∧
      (h.modal k).busy = (new.findSome? (·.written? k)).getD (a.modal k).busy ∧
      new.count (.closing k) = (h.session sid).isPositive.toNat ∧ FreeFirst k new := by
  induction hu with
  | refl =>
    refine ⟨[], rfl, rfl, ?_, fun older hs => ?_⟩
    · rw [Session.isPositive, Session.ending?, hp]; rfl
    · cases List.suffix_nil.1 hs
  | @move b c m hu hm _ ih =>
    obtain ⟨new, hn, hb, hc, hf⟩ := ih
    have hlb := hl.undisturbed hu
    have hmv := moved_of_move? hm
    refine ⟨b.telling m ++ new, ?_, ?_, ?_, hf.told b m⟩
    · rw [notices_move hmv, hn, List.append_assoc]
    · rw [busy_told hlb.reachable hmv hlb.there, hb, told?, List.findSome?_append]
      cases (b.telling m).findSome? _ <;> rfl
    · rw [List.count_append, hc]
      exact hu.alone.closings_move hlb hm

end

/-- A modal session that has its surface to itself, from before it is opened. However it ends, the
surface is free afterwards; it is busy while a hook before the post or after the acknowledgement or
the post itself is under way, and from the moment the session has come to its hooks before the post
until it is over; and the surface is told to close exactly if the session has ended positive, once,
and right after it was told that it is free. -/
theorem surface_follows_session {a h : Hub} {sid : SessionId} {k : ModalId} (hr : Reachable a)
    (hp : (a.session sid).phase = .unopened) (hk : (a.session sid).modal = some k)
    (hlt : k < a.modals.length) (hu : Undisturbed sid k a h) :
    ((h.session sid).isOver → (h.modal k).busy = false) ∧
    ((∃ ks, (h.session sid).phase = .preparing ks) ∧ (h.session sid).running.isSome ∨
      (h.session sid).phase = .posting ∨ (∃ ks, (h.session sid).phase = .acknowledging ks) →
      (h.modal k).busy) ∧
    (∀ g g', Undisturbed sid k a g → g.Raises sid k → g.move? .step = some g' →
      Undisturbed sid k g' h → (h.session sid).isOver = false → (h.modal k).busy) ∧
    ∃ new, h.notices = new ++ a.notices ∧
      (h.modal k).busy = (new.findSome? (·.written? k)).getD false ∧
      new.count (.closing k) = (if (h.session sid).isPositive then 1 else 0) ∧
      ∀ older, .closing k :: older <:+ new → older.head? = some (.busy k false) := by
  have hl : Occupies sid k a := ⟨hr, hk, hlt⟩
  refine ⟨fun ho => hu.alone.free (hl.undisturbed hu).reachable (isStill_of_over ho), fun hx => ?_,
    fun g g' hg hs hm hu' ho => ?_, ?_⟩
  · refine (hu.busy_or_unraised hl hp).resolve_right fun hn => ?_
    unfold Session.IsUnraised at hn
    rcases hx with ⟨⟨ks, hx⟩, hrun⟩ | hx | ⟨ks, hx⟩ <;> simp only [hx] at hn
    rw [hn.2.1] at hrun
    cases hrun
  · have hrg := hr.later hg.later
    have hb := hs.busy hrg (moved_of_move? hm)
    exact hu'.busy (hrg.later (Later.refl.move hm)) hb ho
  · obtain ⟨new, hn, hb, hc, hf⟩ := hu.notices hl hp
    rw [hu.alone_first.free hr (by rw [hp]; rfl)] at hb
    refine ⟨new, hn, hb, ?_, hf⟩
    rw [hc]
    cases (h.session sid).isPositive <;> rfl

instance (sid : SessionId) (k : ModalId) (h : Hub) : Decidable (Alone sid k h) :=
  decidable_of_iff (∀ i, i < h.sessions.length → i ≠ sid → (h.session i).modal = some k →
    (h.session i).phase.isStill)
    ⟨fun hal i hi hk => hal i (lt_of_modal hk) hi hk, fun hal i _ => hal i⟩

def runAlone? (sid : SessionId) (k : ModalId) (h : Hub) : List Move → Option Hub
  | [] => some h
  | m :: ms => (h.move? m).bind fun h' => if Alone sid k h' then runAlone? sid k h' ms else none

theorem Undisturbed.of_run {a h h' : Hub} {sid : SessionId} {k : ModalId} {ms : List Move}
    (hu : Undisturbed sid k a h) (hr : runAlone? sid k h ms = some h') : Undisturbed sid k a h' := by
  induction ms generalizing h with
  | nil => cases hr; exact hu
  | cons m ms ih =>
    obtain ⟨b, hb, hr⟩ := Option.bind_eq_some_iff.1 hr
    split at hr
    · next hal => exact ih (hu.move hb hal) hr
    · cases hr

/-- A modal session beside another one that has not begun is delivered what it waits for; its surface
is free again and has been told to close. -/
theorem delivered_session_closes_surface : ∃ a h, Reachable a ∧ Undisturbed 0 0 a h ∧
    (h.session 0).phase = .ended (.resolved (.positive (some default))) ∧
    (h.modal 0).busy = false ∧ ∃ new, h.notices = new ++ a.notices ∧
      new.count (.closing 0) = 1 := by
  obtain ⟨a, hr, hal, hp, hk, hlt, hrun⟩ := Reachable.exists_of_run {}
    [.newModal, .openSession none (some 0), .openSession none (some 0)]
    (fun a => Alone 0 0 a ∧ (a.session 0).phase = .unopened ∧ (a.session 0).modal = some 0 ∧
      0 < a.modals.length ∧
      (runAlone? 0 0 a ((oneWaits 0 .event ++ oneArrives 0).drop 1)).any fun h =>
        (h.session 0).phase = .ended (.resolved (.positive (some default)))) (by decide)
  obtain ⟨h, hrun, hend⟩ := exists_of_any hrun
  have hu : Undisturbed 0 0 a h := .of_run (.refl hal) hrun
  have hend : (h.session 0).phase = .ended (.resolved (.positive (some default))) := by simpa using hend
  obtain ⟨hfree, -, -, new, hn, -, hc, -⟩ := surface_follows_session hr hp hk hlt hu
  have hpos : (h.session 0).isPositive := Session.isPositive_iff.2 ⟨_, hend, rfl⟩
  refine ⟨a, h, hr, hu, hend, hfree ?_, new, hn, by rw [hc, if_pos hpos]⟩
  rw [Session.isOver_eq, hend]
  rfl

end Hub
end Aftermath
