import Aftermath.Proofs.Hushed
import Aftermath.Proofs.Unready

/-! The look of a session at its subscriptions before it does anything else. A session that runs for the
first time after its configuration, and that nothing has decided or cancelled so far, ends right there if
one of them is not active; and it is only here that a session ends for want of a subscription. -/

namespace Aftermath.Hub

section
variable {g h h' : Hub} {sid : SessionId} {m : Move} {s t : SubId} {e : Ending} {err : SubscribeError}
variable {rest : List Frame}

/-- A session that has been configured begins to run and finds one of its subscriptions no longer active;
nothing has decided or cancelled it. -/
structure Lacking (h : Hub) (sid : SessionId) : Prop where
  entering : ∃ rest, h.stack = .entering sid :: rest
  phase : (h.session sid).phase = .prepared
  claim : (h.session sid).claim = none
  cancelled : (h.session sid).cancelled = false
  unready : h.allActive sid = false

/-! ### From the look on -/

theorem quietStep_of_busy (hb : h.isBusy) : h.quietStep = h.step := by
  unfold quietStep
  split
  · next hst => rw [isBusy, hst] at hb; cases hb
  · rfl

/-- While the hub is busy, nobody comes between. -/
theorem quietStep_of_move (hb : h.isBusy) (hm : h.move? m = some h') : h' = h.quietStep := by
  unfold move? at hm
  rw [if_pos hb] at hm
  split at hm
  · cases hm; exact (quietStep_of_busy hb).symm
  · cases hm

theorem isBusy_of_stack {f : Frame} (hst : h.stack = f :: rest) (hf : f.isInternal) : h.isBusy := by
  rw [isBusy, hst]
  exact hf

theorem Lacking.exist (hr : Reachable h) (hf : Lacking h sid) : sid < h.sessions.length := by
  obtain ⟨rest, hst⟩ := hf.entering
  exact hr.wired.session_lt hst rfl

theorem Lacking.running (hr : Reachable h) (hf : Lacking h sid) : (h.session sid).running = none := by
  obtain ⟨rest, hst⟩ := hf.entering
  have hfits := hr.fits sid
  rw [thread_of_stack hst rfl, hf.phase] at hfits
  rcases hfits.of_entering.2.2 with ⟨hrun, -⟩ | ⟨-, hq⟩
  · exact hrun
  · cases hq

theorem Lacking.member (hf : Lacking h sid) : ∃ s ∈ (h.session sid).members, (h.sub s).isActive = false := by
  obtain ⟨x, hx, ha⟩ := List.any_eq_true.1 (List.not_all_eq_any_not .. ▸ (congrArg not hf.unready))
  obtain ⟨s, hs, rfl⟩ := List.mem_map.1 hx
  exact ⟨s, hs, by simpa using ha⟩

theorem Lacking.barred (hr : Reachable g) (hf : Lacking g sid) (hl : Later g h) :
    Barred h sid (Ungranted g sid) := by
  obtain ⟨s, hs, ha⟩ := hf.member
  exact (Barred.of_inactive hr (.inr (.inl hf.phase)) hf.claim hs ha).later hr hl

theorem Lacking.enters (hr : Reachable g) (hf : Lacking g sid) (hst : g.stack = .entering sid :: rest) :
    (g.quietStep.session sid).phase = .checking ∧ g.quietStep.stack = .driving sid :: rest ∧
      (g.quietStep.quietStep.session sid).claim = some .unready := by
  have hi := hf.exist hr
  have hn := hf.claim
  obtain ⟨hx, hst', -⟩ := enter_prepared hi hst hf.phase hf.cancelled
  obtain ⟨k, hk, -, hlen, -, -, hks⟩ :=
    enter_unready hi hst hf.phase hn (hf.running hr) hf.cancelled hf.unready
  refine ⟨?_, ?_, ?_⟩
  · rw [quietStep_entering hst, hx]
  · rw [quietStep_entering hst, hst']
  · have hks' : (k.release sid .unready).session sid = (k.session sid).settled .unready :=
      (session_settled (by rw [hlen]; exact hi) .unready sid).trans (if_pos rfl)
    rw [hk, hks', hks]
    simp [Session.settled, hn]

/-- What has become of such a session: it has still to enter, or to look, or it has found that it is not
ready. -/
theorem Lacking.cases (hr : Reachable g) (hf : Lacking g sid) (hl : Later g h) :
    h = g ∨ h = g.quietStep ∨ (h.session sid).claim = some .unready := by
  obtain ⟨rest, hst⟩ := hf.entering
  obtain ⟨-, hst', hc⟩ := hf.enters hr hst
  induction hl with
  | refl => exact .inl rfl
  | move hl hm ih =>
    rcases ih with rfl | rfl | hn
    · exact .inr (.inl (quietStep_of_move (isBusy_of_stack hst rfl) hm))
    · rw [quietStep_of_move (isBusy_of_stack hst' rfl) hm]
      exact .inr (.inr hc)
    · exact .inr (.inr (claim_move (hr.later hl) (moved_of_move? hm) hn))

/-- From its look on the session runs until it is over. -/
theorem Lacking.runs (hr : Reachable g) (hf : Lacking g sid) (hl : Later g h) :
    h = g ∨ h.thread sid = [.driving sid] ∨ ∃ e, (h.session sid).phase = .ended e := by
  obtain ⟨rest, hst⟩ := hf.entering
  have hfits := (hr.later hl).fits sid
  rcases hf.cases hr hl with rfl | rfl | hc
  · exact .inl rfl
  · rw [(hf.enters hr hst).1] at hfits
    exact .inr (.inl (hfits.of_passing rfl rfl nofun).1)
  · rcases (hf.barred hr hl).ending hc with hp | ⟨e, hp | hp, -⟩
    · rw [hp] at hfits
      exact .inr (.inl (hfits.of_passing rfl rfl nofun).1)
    · rw [hp] at hfits
      exact .inr (.inl (hfits.of_passing rfl rfl nofun).1)
    · exact .inr (.inr ⟨e, hp⟩)

theorem Lacking.not_over (hf : Lacking g sid) : (g.session sid).phase.isOver = false := by
  rw [hf.phase]; rfl

theorem Lacking.not_configuring (hr : Reachable g) (hf : Lacking g sid) (hl : Later g h) :
    (h.session sid).phase ≠ .configuring := by
  obtain ⟨rest, hst⟩ := hf.entering
  rcases hf.cases hr hl with rfl | rfl | hc
  · rw [hf.phase]; nofun
  · rw [(hf.enters hr hst).1]; nofun
  · rcases (hf.barred hr hl).ending hc with hp | ⟨e, hp | hp, -⟩ <;> rw [hp] <;> nofun

/-! ### What lies below -/

/-- What lies below the session's frame stays as it was when it entered. -/
theorem Lacking.below (hr : Reachable g) (hf : Lacking g sid) (hst : g.stack = .entering sid :: rest)
    (hl : Later g h) : h = g ∨ (h.session sid).phase.isOver ∨
      h.thread sid = [.driving sid] ∧ ∃ above, h.stack = above ++ .driving sid :: rest := by
  induction hl with
  | refl => exact .inl rfl
  | @move a b m hl hv ih =>
    have ha := hr.later hl
    have hm := moved_of_move? hv
    rcases hf.runs hr (hl.move hv) with hb | hthb | ⟨e, hover⟩
    · exact .inl hb
    · rcases ih with rfl | hover | ⟨htha, above, hsta⟩
      · rw [quietStep_of_move (isBusy_of_stack hst rfl) hv] at hthb ⊢
        exact .inr (.inr ⟨hthb, [], (hf.enters hr hst).2.1⟩)
      · have hp := ((move_turn ha.wired hm sid).over (ha.fits sid) hover).1
        rw [view_self, view_self] at hp
        exact .inr (.inl (hp ▸ hover))
      · -- the frame stays in its place while the session runs
        obtain ⟨old, new, rest', hres⟩ := move_restacks ha.wired hm
        have hno : .driving sid ∉ old := fun hin =>
          hres.drives sid (List.mem_append_left _ hin) (hthb.trans htha.symm)
        obtain ⟨mid, rfl, rfl⟩ := split_rest hno (hsta.symm.trans hres.before)
        exact .inr (.inr ⟨hthb, new ++ mid, by rw [hres.after, List.append_assoc]⟩)
    · exact .inr (.inl (by rw [hover]; rfl))

theorem stack_drive_closing (hrun : (h.session sid).running = none)
    (hp : (h.session sid).phase.isClosing) : (h.drive sid).stack = h.stack.tail := by
  unfold drive; dsimp only
  rw [hrun]
  unfold Phase.isClosing at hp
  split at hp
  · next hq => simp only [hq]; exact stack_leave _
  · next hq => simp only [hq]; unfold writeBusy; split <;> rfl
  · cases hp

/-! ### The subscriptions of the session -/

/-- The step with which such a session leaves gives the stack back as it was. -/
theorem Lacking.leaves (hr : Reachable g) (hf : Lacking g sid) (hst : g.stack = .entering sid :: rest)
    (hl : Later g h) (hv : h.move? m = some h') (ho : (h.session sid).phase.isOver = false)
    (ho' : (h'.session sid).phase.isOver) : h'.stack = rest ∧ Spent h' sid := by
  have ha := hr.later hl
  have hm := moved_of_move? hv
  have hfits := ha.fits sid
  -- it was closing before
  have hclosing : (h.session sid).phase.isClosing := by
    have hbegun : (h.session sid).phase.isBegun := by
      rcases hf.cases hr hl with rfl | rfl | hc
      · rw [quietStep_of_move (isBusy_of_stack hst rfl) hv, (hf.enters hr hst).1] at ho'
        cases ho'
      · rw [(hf.enters hr hst).1]; rfl
      · rcases (hf.barred hr hl).ending hc with hp | ⟨e, hp | hp, -⟩ <;> rw [hp] <;> rfl
    exact (((move_turn ha.wired hm sid).begun hfits hbegun).2 ho').resolve_left
      (by rw [view_self, ho]; exact Bool.false_ne_true)
  obtain ⟨hth, hrun⟩ := hfits.of_closing hclosing
  have hne := Phase.not_configuring_of_begun (Phase.isBegun_of_closing hclosing)
  have hth' : h'.thread sid = [] := (((ha.later (Later.refl.move hv)).fits sid).of_over ho').1
  refine ⟨?_, ((ha.sweeping hclosing).spent ha hm hth').move ha hm hne⟩
  rcases stance_or_advances ha hm (hth ▸ List.mem_cons_self) with hs | hadv
  · have hp : (h'.session sid).phase = (h.session sid).phase := congrArg Prod.fst hs
    rw [hp, ho] at ho'
    cases ho'
  · cases hadv with
    | @drive below hst' =>
      rw [stack_drive_closing hrun hclosing, hst', List.tail_cons]
      rcases hf.below hr hst hl with rfl | hover | ⟨-, above, hsta⟩
      · rw [hst] at hst'; cases hst'
      · rw [ho] at hover; cases hover
      · cases above with
        | nil => exact (List.cons.inj (hst'.symm.trans hsta)).2
        | cons f above =>
          -- a second frame of the session would lie below
          obtain ⟨-, hbelow⟩ := List.cons.inj (hst'.symm.trans hsta)
          have hpop : .driving sid ∈ h.pop.thread sid := by
            simp [thread, pop, hst', hbelow, Frame.session?]
          rw [thread_of_stack hst' rfl] at hth
          rw [(List.cons.inj hth).2] at hpop
          cases hpop
    | hook hst' =>
      rw [thread_of_stack hst' rfl] at hth
      cases hth
    | post hst' =>
      rw [thread_of_stack hst' rfl] at hth
      cases hth

theorem Lacking.spent (hr : Reachable g) (hf : Lacking g sid) (hl : Later g h)
    (ho : (h.session sid).phase.isOver) : Spent h sid := by
  obtain ⟨rest, hst⟩ := hf.entering
  induction hl with
  | refl => rw [hf.not_over] at ho; cases ho
  | @move a b m hl hv ih =>
    cases hover : (a.session sid).phase.isOver with
    | true => exact (ih hover).move (hr.later hl) (moved_of_move? hv) (hf.not_configuring hr hl)
    | false => exact (hf.leaves hr hst hl hv hover ho).2

/-- Every subscription made for such a session that was active or cancelled when it entered is cancelled
when it is over. -/
theorem Lacking.state (hr : Reachable g) (hf : Lacking g sid) (hl : Later g h)
    (ho : (h.session sid).phase.isOver) (hs : s < g.subs.length) (hh : (g.sub s).home = sid)
    (hst : (g.sub s).state = .active ∨ (g.sub s).state = .cancelled) : (h.sub s).state = .cancelled := by
  obtain ⟨rest, hstack⟩ := hf.entering
  rcases hst with hact | hc
  · induction hl with
    | refl => rw [hf.not_over] at ho; cases ho
    | @move a b m hl hv ih =>
      have hm := moved_of_move? hv
      have hb := (hr.later hl).later (Later.refl.move hv)
      cases hover : (a.session sid).phase.isOver with
      | true =>
        exact sub_cancelled_move (hr.later hl) hm (hr.home_lasts hl hs).1 (ih hover)
      | false =>
        obtain ⟨hrest, hspent⟩ := hf.leaves hr hstack hl hv hover ho
        obtain ⟨hlen, hhome⟩ := hr.home_lasts (hl.move hv) hs
        have hin : s ∈ (b.session sid).members := (hhome.trans hh) ▸ hb.wired.own s hlen
        have hgone := hspent.inactive s hin
        -- a claim that were still to come would lie below, and would have been there before
        have hnone : ∀ st, st = .fired ∨ st = .timedOut → (b.sub s).state ≠ st := by
          intro st hcases heq
          rcases hb.claims hcases heq with ⟨f, hfl, hfs⟩ | ⟨c, hc, hcs⟩
          · have hmem := List.mem_filter.1 hfl
            have hflight : f ∈ g.flight s :=
              List.mem_filter.2 ⟨by rw [hstack, ← hrest]; exact List.mem_cons_of_mem _ hmem.1, hmem.2⟩
            have hleft := (hr.kept s).left f hflight (by cases f <;> first | rfl | cases hfs)
            rw [show (g.subView s).self.isActive = (g.sub s).isActive from rfl,
              Subscription.isActive, hact] at hleft
            cases hleft
          · rw [hhome, hh] at hc
            rcases hf.cases hr (hl.move hv) with rfl | rfl | hun
            · rw [hf.not_over] at ho; cases ho
            · rw [(hf.enters hr hstack).1] at ho; cases ho
            · cases hc.symm.trans hun
              cases hcs
        cases hx : (b.sub s).state with
        | active => rw [Subscription.isActive, hx] at hgone; cases hgone
        | fired => exact absurd hx (hnone _ (.inl rfl))
        | timedOut => exact absurd hx (hnone _ (.inr rfl))
        | cancelled => rfl
  · exact hr.cancelled_lasts hl hs hc

/-- Its own subscriptions are made, and their requests answered, before it enters. -/
theorem Lacking.own (hr : Reachable g) (hf : Lacking g sid) (hl : Later g h) (hs : s < h.subs.length)
    (hh : (h.sub s).home = sid) :
    s < g.subs.length ∧ (g.sub s).home = sid ∧ (h.sub s).error = (g.sub s).error := by
  induction hl with
  | refl => exact ⟨hs, hh, rfl⟩
  | @move a b m hl hv ih =>
    have ha := hr.later hl
    have hm := moved_of_move? hv
    have hne := hf.not_configuring hr hl
    obtain ⟨hs, hh⟩ := own_move ha hm hne hs hh
    obtain ⟨hsg, hhg, he⟩ := ih hs hh
    exact ⟨hsg, hhg, (error_fixed ha hm hs (hh ▸ hne)).trans he⟩

/-! ### Where such an ending comes from -/

theorem Drives.not_checking {x y : View} (hd : Drives h h' sid x y) : y.self.phase ≠ .checking := by
  intro hy
  cases hd
  case begins hn =>
    unfold Phase.next? at hn
    split at hn <;> cases hn <;> cases hy
  case resumes hq => exact nomatch hy.symm.trans hq
  case waits hq _ => exact nomatch hy.symm.trans hq
  case dismisses hq _ _ => exact nomatch hy.symm.trans hq
  case stops hq => rw [show Session.phase _ = _ from hy] at hq; cases hq
  all_goals cases hy

/-- A session that looks has entered in the step before. -/
theorem Reachable.of_checking (hr : Reachable h) (hp : (h.session sid).phase = .checking) :
    ∃ g rest, Reachable g ∧ g.stack = .entering sid :: rest ∧ (g.session sid).phase = .prepared ∧
      (g.session sid).cancelled = false ∧ h = g.quietStep := by
  induction hr using Reachable.induct with
  | init settings => cases hp
  | move a b m ha hv ih =>
    have hm := moved_of_move? hv
    have ht := move_turn ha.wired hm sid
    rcases ht.checking_cases hp with hq | ⟨hq, hc, t, hth⟩
    · -- the session looks in the next step, and does not come back
      exfalso
      obtain ⟨g, rest, hg, hst, hgp, hgc, rfl⟩ := ih hq
      have hi := hg.wired.session_lt hst rfl
      obtain ⟨-, hast, -, hlen⟩ := enter_prepared hi hst hgp hgc
      rw [← quietStep_entering hst] at hast hlen
      rw [quietStep_of_move (isBusy_of_stack hast rfl) hv, quietStep_driving hast] at hp
      have hfits := ha.fits sid
      rw [show (g.quietStep.session sid).phase = _ from hq] at hfits
      have hd := drive_drives hast (by rw [hlen]; exact hi) (ha.wired.members sid)
        (hfits.of_passing rfl rfl nofun).2
      exact hd.not_checking hp
    · have hth : a.thread sid = .entering sid :: t := hth
      have hne : b.stance sid ≠ a.stance sid := fun hs => by
        have := congrArg Prod.fst hs
        rw [show (b.stance sid).1 = (b.session sid).phase from rfl, hp] at this
        exact nomatch this.trans hq
      have top : ∀ {f : Frame} {rest : List Frame}, a.stack = f :: rest → f.session? = some sid →
          f = .entering sid := fun hst hf =>
        (List.cons.inj ((thread_of_stack hst hf).symm.trans hth)).1
      rcases (stance_cases hm).resolve_left hne with hadv | hstart
      · cases hadv with
        | drive hst => exact nomatch top hst rfl
        | hook hst => exact nomatch top hst rfl
        | post hst => exact nomatch top hst rfl
      · cases hstart with
        | configure hu => exact nomatch hu.symm.trans hq
        | configured hst => exact nomatch top hst rfl
        | @enter rest hst => exact ⟨a, rest, ha, hst, hq, hc, (quietStep_entering hst).symm⟩
        | drop hmay =>
          have hidle := not_isRun_of_isRunning (mayRun_iff.1 hmay).2.1
          rw [hth] at hidle
          cases hidle

/-- A session that was found not to be ready has entered so. -/
theorem Reachable.of_unready (hr : Reachable h) (hc : (h.session sid).claim = some .unready) :
    ∃ g, Reachable g ∧ Lacking g sid ∧ Later g h := by
  induction hr using Reachable.induct with
  | init settings => cases hc
  | move a b m ha hv ih =>
    have ht := move_turn ha.wired (moved_of_move? hv) sid
    rcases ht.unready_claimed hc with hc | ⟨hn, hp⟩
    · obtain ⟨g, hg, hf, hl⟩ := ih hc
      exact ⟨g, hg, hf, hl.move hv⟩
    · rcases ht.unready_cases hp with hq | ⟨hq, -, hall⟩
      · have hj := ha.judged sid
        unfold Judged at hj
        simp only [show (a.session sid).phase = .unready from hq] at hj
        exact nomatch hn.symm.trans hj
      · obtain ⟨g, rest, hg, hst, hgp, hgc, rfl⟩ := ha.of_checking hq
        have hi := hg.wired.session_lt hst rfl
        obtain ⟨hx, -, hsub, -⟩ := enter_prepared hi hst hgp hgc
        rw [← quietStep_entering hst] at hx hsub
        refine ⟨g, hg, ⟨⟨rest, hst⟩, hgp, ?_, hgc, ?_⟩, (later_quietStep g).move hv⟩
        · have hn : (g.quietStep.session sid).claim = none := hn
          rw [hx] at hn
          exact hn
        · unfold allActive Hub.members at hall ⊢
          rw [hx, show g.quietStep.sub = g.sub from funext (sub_eq hsub)] at hall
          exact hall

theorem Handles.not_subscribeFailed {z : Session} {ks : List HookId} {arg : Argument}
    (hh : Handles h sid z ks arg e) : e ≠ .resolved (.negative (.subscribeFailed err)) := by
  cases hh with
  | fired => split <;> nofun
  | timedOut | failure => nofun

/-- Only a session that was found not to be ready ends for want of a subscription, and with the error of
one. -/
theorem Reachable.of_subscribeFailed (hr : Reachable h)
    (hp : (h.session sid).phase = .closing (.resolved (.negative (.subscribeFailed err))) ∨
      (h.session sid).phase = .ended (.resolved (.negative (.subscribeFailed err)))) :
    (h.session sid).claim = some .unready ∧
      ∃ s ∈ (h.session sid).members, (h.sub s).error = some err := by
  induction hr using Reachable.induct with
  | init settings => rcases hp with hp | hp <;> cases hp
  | move a b m ha hv ih =>
    have hm := moved_of_move? hv
    suffices hs : (a.session sid).claim = some .unready ∧
        ∃ s ∈ (a.session sid).members, (a.sub s).error = some err by
      obtain ⟨hc, s, hs, he⟩ := hs
      exact ⟨claim_move ha hm hc, s, members_move ha hm hs, error_move ha hm he⟩
    rcases (move_turn ha.wired hm sid).ending_cases hp with hq | ⟨-, ⟨hc, -⟩ | hb⟩
    · exact ih hq
    · generalize he : Ending.resolved (.negative (.subscribeFailed err)) = e at hc
      cases hc with
      | unready hq =>
        have hj := ha.judged sid
        unfold Judged at hj
        simp only [show (a.session sid).phase = .unready from hq] at hj
        refine ⟨hj, ?_⟩
        cases hf : a.firstError? sid with
        | none => rw [hf] at he; cases he
        | some e =>
          rw [hf] at he
          cases he
          obtain ⟨z, hz, herr⟩ := List.exists_of_findSome?_eq_some hf
          obtain ⟨s, hs, rfl⟩ := List.mem_map.1 hz
          exact ⟨s, hs, herr⟩
      | handled hq =>
        obtain ⟨_, _, _, hh⟩ := ha.found_of_handling hq
        exact absurd he.symm hh.not_subscribeFailed
      | _ => cases he
    · cases hb

/-! ### The look as a whole -/

/-- What has become in `h` of a session that has entered in `g` and was not ready. -/
structure TurnedAway (g h : Hub) (sid : SessionId) : Prop where
  beats : h.beats sid = []
  undecided : (h.session sid).claim = none ∨ (h.session sid).claim = some .unready
  ended : (h.session sid).phase.isOver → ∃ e, (h.session sid).phase = .ended e
  /-- If a subscription was not granted, the session ends with the error of one. -/
  refused : Ungranted g sid → ∀ e, (h.session sid).phase = .ended e →
    ∃ s ∈ (h.session sid).members, ∃ err, (h.sub s).error = some err ∧
      e = .resolved (.negative (.subscribeFailed err))
  /-- Else it ends cancelled, unless a stranger that was not granted has joined since. -/
  granted : ¬ Ungranted g sid → (∀ s ∈ (h.session sid).members, (h.sub s).home = sid) →
    ∀ e, (h.session sid).phase = .ended e → e = .resolved (.negative .cancelled)
  own : ∀ s < h.subs.length, (h.sub s).home = sid →
    s ∈ (g.session sid).members ∧ (h.sub s).error = (g.sub s).error
  cancelled : (h.session sid).phase.isOver → ∀ s < h.subs.length, (h.sub s).home = sid →
    (g.sub s).state = .active ∨ (g.sub s).state = .cancelled → (h.sub s).state = .cancelled
  deaf : (h.session sid).phase.isOver → ∀ s ∈ (h.session sid).members, Deaf h s

theorem Lacking.turnedAway (hr : Reachable g) (hf : Lacking g sid) (hl : Later g h) :
    TurnedAway g h sid := by
  obtain ⟨rest, hst⟩ := hf.entering
  have hrh := hr.later hl
  have hb := hf.barred hr hl
  have hclaim : (h.session sid).claim = none ∨ (h.session sid).claim = some .unready := by
    rcases hf.cases hr hl with rfl | rfl | hc
    · exact .inl hf.claim
    · obtain ⟨hx, -⟩ := enter_prepared (hf.exist hr) hst hf.phase hf.cancelled
      rw [quietStep_entering hst, hx]
      exact .inl hf.claim
    · exact .inr hc
  have hends : ∀ e, (h.session sid).phase = .ended e → EndsUnready h sid (Ungranted g sid) e := by
    intro e hp
    rcases hclaim with hn | hc
    · exact absurd (.inr hp) (hrh.not_ending hn)
    · rcases hb.ending hc with hq | ⟨d, hq | hq, he⟩
      · exact nomatch hp.symm.trans hq
      · exact nomatch hp.symm.trans hq
      · obtain rfl : e = d := by simpa using hp.symm.trans hq
        exact he
  have hown : ∀ s < h.subs.length, (h.sub s).home = sid → s ∈ (g.session sid).members ∧
      (h.sub s).error = (g.sub s).error := fun s hs hh => by
    obtain ⟨hsg, hhg, he⟩ := hf.own hr hl hs hh
    exact ⟨hhg ▸ hr.wired.own s hsg, he⟩
  refine ⟨hb.beats hclaim, hclaim, fun ho => ?_, fun hu e hp => ?_, fun hu hm e hp => ?_, hown, ?_, ?_⟩
  · rcases hf.runs hr hl with rfl | hth | he
    · rw [hf.not_over] at ho; cases ho
    · rw [((hrh.fits sid).of_over ho).1] at hth; cases hth
    · exact he
  · exact (hends e hp).resolve_left fun hc => hc.2 hu
  · rcases hends e hp with ⟨he, -⟩ | ⟨s, hs, err, herr, -⟩
    · exact he
    · -- its own subscriptions had no error when it entered
      obtain ⟨hsg, he⟩ := hown s (hrh.wired.members sid s hs) (hm s hs)
      exact absurd ⟨s, hsg, by rw [← he, herr]; rfl⟩ hu
  · intro ho s hs hh hmix
    obtain ⟨hsg, hhg, -⟩ := hf.own hr hl hs hh
    exact hf.state hr hl ho hsg hhg hmix
  · intro ho s hs
    exact hrh.deaf ((hf.spent hr hl ho).inactive s hs)

/-- A session that enters after its configuration looks first. If one of its subscriptions is not active
then and nothing has decided or cancelled it, it is turned away: it ends without a hook, a handler or a
post, with the error of a subscription that was not granted, if there is one, and cancelled otherwise.
With a transport that does not call back it does so at once, with the error of the first of them. And
no session ends for want of a subscription in another way. -/
theorem look_before_posting (sid : SessionId) :
    (∀ g rest, Reachable g → Lacking g sid → g.stack = .entering sid :: rest →
      (∀ h, Later g h → TurnedAway g h sid) ∧
      ∃ h, Returns rest g h ∧ (h.session sid).phase = .ended (g.unreadyEnding sid) ∧
        ∀ s, h.sub s = g.swept sid s) ∧
    (∀ h err, Reachable h →
      (h.session sid).phase = .ended (.resolved (.negative (.subscribeFailed err))) →
      (∃ s ∈ (h.session sid).members, (h.sub s).error = some err) ∧
      ∃ g, Reachable g ∧ Lacking g sid ∧ Later g h) := by
  constructor
  · intro g rest hr hf hst
    refine ⟨fun h hl => hf.turnedAway hr hl, ?_⟩
    obtain ⟨h, hret, hp, -, hsub⟩ := (hr.sound (hf.exist hr)).unready hst hf.phase hf.claim
      (hf.running hr) hf.cancelled hf.unready
    exact ⟨h, hret, hp, hsub⟩
  · intro h err hr hp
    obtain ⟨hc, hs⟩ := hr.of_subscribeFailed (.inr hp)
    exact ⟨hs, hr.of_unready hc⟩

end

/-- A session is configured with two subscriptions, of which the transport grants only the first. -/
def oneGranted : List Move :=
  [.subscribe default .event, .granted 0, .subscribe default .event,
    .declined (.refused default "full"), .configured]

theorem one_refused : ∃ g h, Reachable g ∧ Lacking g 0 ∧ Later g h ∧ TurnedAway g h 0 ∧
    (h.session 0).phase =
      .ended (.resolved (.negative (.subscribeFailed (.refused default "full")))) := by
  obtain ⟨g, hr, hst, hp, hn, hc, ha, hrun⟩ := Reachable.exists_of_run {}
    ([.openSession none none, .run 0, .step] ++ oneGranted)
    (fun g => g.stack = [.entering 0] ∧ (g.session 0).phase = .prepared ∧ (g.session 0).claim = none ∧
      (g.session 0).cancelled = false ∧ g.allActive 0 = false ∧
      (g.run? ([.step, .step, .step, .unsubscribed] ++ List.replicate 8 .step)).any fun h =>
        (h.session 0).phase =
          .ended (.resolved (.negative (.subscribeFailed (.refused default "full"))))) (by decide)
  obtain ⟨h, hl, hq⟩ := Later.exists_of_run hrun
  have hf : Lacking g 0 := ⟨⟨_, hst⟩, hp, hn, hc, ha⟩
  exact ⟨g, h, hr, hf, hl, ((look_before_posting 0).1 g [] hr hf hst).1 h hl, hq⟩

/-- A session is configured with two subscriptions, of which it cancels one, and with one of another
session. -/
def strangerJoins : List Move :=
  [.openSession none none, .openSession none none, .configure 1, .subscribe default .event, .granted 0,
    .configured, .configure 0, .subscribe default .event, .granted 1, .subscribe default .event,
    .granted 2, .register 0 0, .cancel 2, .unsubscribed, .step, .configured, .run 0]

/-- The transport delivers an event to the stranger when it is told that the first lease has ended. -/
def strangerFires : List Move :=
  [.step, .step, .step, .deliver 0 ⟨default, .blank⟩, .unsubscribed, .step, .unsubscribed] ++
    List.replicate 10 .step

/-- A session that is configured ahead of its first run may be decided in between: then it does not end
for want of a subscription that was not granted. And one that has joined it from another session may
still fire for that session while the others are being cancelled. -/
theorem decided_before_look :
    (¬ ∀ (g h : Hub) (sid : SessionId) (e : Ending), Reachable g →
      (g.session sid).phase = .prepared → g.stack = [] → (g.session sid).claim = none →
      (g.session sid).cancelled = false → Ungranted g sid →
      (∀ s ∈ (g.session sid).members, (g.sub s).state = .active ∨ (g.sub s).state = .cancelled) →
      Later g h → (h.session sid).phase = .ended e →
      ∃ err, e = .resolved (.negative (.subscribeFailed err))) ∧
    ¬ ∀ (g h : Hub) (sid : SessionId), Reachable g → Lacking g sid →
      (∀ s ∈ (g.session sid).members, (g.sub s).state = .active ∨ (g.sub s).state = .cancelled) →
      Later g h → (h.session sid).phase.isOver →
      ∀ s ∈ (h.session sid).members, (h.sub s).state = .cancelled := by
  constructor
  · intro hall
    obtain ⟨g, hr, hp, hst, hn, hc, hmem, herr, hstates, hrun⟩ := Reachable.exists_of_run {}
      ([.openSession none none, .configure 0] ++ oneGranted)
      (fun g => (g.session 0).phase = .prepared ∧ g.stack = [] ∧ (g.session 0).claim = none ∧
        (g.session 0).cancelled = false ∧ 1 ∈ (g.session 0).members ∧ (g.sub 1).error.isSome ∧
        (∀ s ∈ (g.session 0).members, (g.sub s).state = .active ∨ (g.sub s).state = .cancelled) ∧
        (g.run? ([.deliver 0 ⟨default, .blank⟩, .unsubscribed, .step, .run 0] ++
          List.replicate 13 .step)).any fun h =>
            (h.session 0).phase = .ended (.resolved (.positive (some default)))) (by decide)
    obtain ⟨h, hl, hq⟩ := Later.exists_of_run hrun
    obtain ⟨err, he⟩ := hall g h 0 _ hr hp hst hn hc ⟨1, hmem, herr⟩ hstates hl hq
    cases he
  · intro hall
    obtain ⟨g, hr, hst, hp, hn, hc, ha, hstates, hrun⟩ := Reachable.exists_of_run {} strangerJoins
      (fun g => g.stack = [.entering 0] ∧ (g.session 0).phase = .prepared ∧ (g.session 0).claim = none ∧
        (g.session 0).cancelled = false ∧ g.allActive 0 = false ∧
        (∀ s ∈ (g.session 0).members, (g.sub s).state = .active ∨ (g.sub s).state = .cancelled) ∧
        (g.run? strangerFires).any fun h => (h.session 0).phase.isOver ∧
          0 ∈ (h.session 0).members ∧ (h.sub 0).state = .fired) (by decide)
    obtain ⟨h, hl, ho, hmem, hfired⟩ := Later.exists_of_run hrun
    exact nomatch hfired.symm.trans (hall g h 0 hr ⟨⟨_, hst⟩, hp, hn, hc, ha⟩ hstates hl ho 0 hmem)

end Aftermath.Hub
