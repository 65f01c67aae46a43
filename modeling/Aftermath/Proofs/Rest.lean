import Aftermath.Proofs.Quiet

/-! The hub's own work comes to an end: after finitely many steps it is done or waits for its
surroundings. The frames of the stack come to rest from the bottom up, and the phases of a session that
runs from the last one back. -/

namespace Aftermath.Hub

/-- By its own steps the hub comes to rest. -/
inductive Halts : Hub → Prop where
  | idle {h : Hub} : h.isBusy = false → Halts h
  | step {h : Hub} : h.isBusy → Halts h.step → Halts h

/-- The phase of a session and the hook of it that has begun and not ended. -/
def stance (h : Hub) (sid : SessionId) : Phase × Option (HookId × Argument) :=
  ((h.session sid).phase, (h.session sid).running)

/-- However a hub has come to these frames, it comes to rest. -/
def Halting (l : List Frame) : Prop := ∀ h : Hub, h.stack = l → Halts h

/-- However a session has come to a phase, the hub comes to rest when it runs on top of the frames. -/
def HaltsIn (l : List Frame) (sid : SessionId) (p : Phase) : Prop :=
  ∀ h : Hub, h.stack = .driving sid :: l → h.stance sid = (p, none) → Halts h

section
variable {h : Hub} {l : List Frame} {i sid : SessionId} {s : SubId} {p q : Phase}

theorem Halts.of_step (hs : Halts h.step) : Halts h := by
  cases hb : h.isBusy with
  | false => exact .idle hb
  | true => exact .step hb hs

theorem Halts.of_top {f : Frame} (hst : h.stack = f :: l) (hf : f.isInternal = false) : Halts h :=
  .idle (by rw [isBusy, hst]; exact hf)

theorem stance_eq {k : Hub} (hs : k.sessions = h.sessions) : k.stance sid = h.stance sid := by
  rw [stance, session_eq hs]; rfl

theorem stance_onSession {f : Session → Session}
    (hf : ∀ x, ((f x).phase, (f x).running) = (x.phase, x.running)) :
    (h.onSession i f).stance sid = h.stance sid := by
  by_cases hi : i < h.sessions.length
  · rw [stance, session_onSession _ _ _ hi]
    split
    · exact hf _
    · rfl
  · exact stance_eq (List.modify_eq_self (Nat.le_of_not_lt hi))

theorem stance_report (r : Report) : (h.report i r).stance sid = h.stance sid :=
  stance_onSession (h := h) (i := i) (f := fun x => { x with reports := x.reports ++ [r] }) fun _ => rfl

theorem stance_release (c : Claim) : (h.release i c).stance sid = h.stance sid :=
  stance_onSession (h := h) (i := i) (f := fun x => if x.isSettled then x else { x with claim := some c })
    fun x => by split <;> rfl

/-- A session that has something to run exists. -/
theorem lt_of_not_still (hp : (h.stance sid).1.isStill = false) : sid < h.sessions.length := by
  refine Decidable.byContradiction fun hi => ?_
  have hd : h.session sid = default := by simp [session, Nat.le_of_not_lt hi]
  rw [stance, hd] at hp
  cases hp

theorem stance_setPhase (hs : h.stance sid = (p, none)) (hp : p.isStill = false) (q : Phase) :
    (h.setPhase sid q).stance sid = (q, none) := by
  have hi : sid < h.sessions.length := lt_of_not_still (by rw [hs]; exact hp)
  have hq : (h.session sid).running = none := congrArg Prod.snd hs
  have hx : (h.setPhase sid q).session sid = { h.session sid with phase := q } :=
    (session_onSession _ _ _ hi _).trans (if_pos rfl)
  rw [stance, hx]
  exact Prod.ext rfl hq

/-! ### Releases -/

/-- A cancellation reports and is done, unless the transport has to let go first. -/
theorem Halts.of_cancel
    (hl : ∀ k : Hub, k.stack = h.stack → k.stance sid = h.stance sid → Halts k) :
    Halts (h.cancel s) := by
  by_cases ha : (h.sub s).isActive
  · have hst : (h.cancel s).stack =
        (((h.setState s .cancelled).disarm s).sub s).lease.toList.map .unsubscribing ++
          .reportingCancel s :: h.stack := by
      rw [Hub.cancel, if_pos ha, stack_finish]; rfl
    cases hle : (((h.setState s .cancelled).disarm s).sub s).lease with
    | some lease => exact .of_top (by rw [hst, hle]; rfl) rfl
    | none =>
      have hst' : (h.cancel s).stack = .reportingCancel s :: h.stack := by rw [hst, hle]; rfl
      have hstep : (h.cancel s).step = (h.cancel s).pop.reportCancel s := by
        unfold Hub.step; rw [hst']
      refine .of_step (hl _ ?_ ?_)
      · rw [hstep, stack_reportCancel, pop, hst']; rfl
      · rw [hstep]
        exact (stance_report _).trans (stance_eq (by simp))
  · have he : h.cancel s = h.reply (.bool false) := if_neg ha
    exact hl _ (by rw [he]; rfl) (by rw [he]; rfl)

/-- A release comes to rest if what lies below does, with a session as it was. -/
theorem Halts.of_releasing {x : Phase × Option (HookId × Argument)}
    (hl : ∀ k : Hub, k.stack = l → k.stance sid = x → Halts k)
    {rest : List SubId} {n : Nat} (hst : h.stack = .releasing i rest n :: l)
    (hx : h.stance sid = x) : Halts h := by
  have hpop : h.pop.stack = l := stack_pop hst
  induction rest generalizing h n with
  | nil =>
    have hstep : h.step = h.pop.releaseStep i [] n := by unfold Hub.step; rw [hst]
    refine .of_step (hl _ ?_ ?_)
    · rw [hstep]
      unfold releaseStep; dsimp only
      split <;> simpa using hpop
    · rw [hstep]
      unfold releaseStep; dsimp only
      split <;> exact hx
  | cons s rest ih =>
    have hstep : h.step = h.pop.releaseStep i (s :: rest) n := by unfold Hub.step; rw [hst]
    refine .of_step ?_
    rw [hstep]
    unfold releaseStep; dsimp only
    split
    · -- the cancellation leaves a report behind, and the rest of the release below it
      refine .of_cancel fun k hk (hkx : k.stance sid = h.stance sid) => ?_
      have hkst : k.stack = .releasing i rest (n + 1) :: l := by rw [hk, stack_push, hpop]
      exact ih hkst (hkx.trans hx) (by rw [pop, hkst]; rfl)
    · exact ih (by rw [stack_push, hpop]) hx hpop

theorem Halts.of_release (hl : HaltsIn l sid p) {c : Claim} (hst : h.stack = .driving sid :: l)
    (hx : h.stance sid = (p, none)) : Halts (h.release sid c) :=
  .of_releasing hl (by rw [stack_release, hst]) ((stance_release c).trans hx)

/-! ### The phases of a session that runs -/

theorem Halts.of_drive (hst : h.stack = .driving sid :: l) (hd : Halts (h.drive sid)) : Halts h := by
  have hstep : h.step = h.drive sid := by unfold Hub.step; rw [hst]
  exact .of_step (by rw [hstep]; exact hd)

theorem running_phase_of_stance (hx : h.stance sid = (p, none)) :
    (h.session sid).running = none ∧ (h.session sid).phase = p :=
  ⟨congrArg Prod.snd hx, congrArg Prod.fst hx⟩

theorem HaltsIn.of_drive (hd : ∀ h : Hub, h.stack = .driving sid :: l → h.stance sid = (p, none) →
    (h.session sid).running = none → (h.session sid).phase = p → Halts (h.drive sid)) :
    HaltsIn l sid p := by
  intro h hst hx
  obtain ⟨hr, hp⟩ := running_phase_of_stance hx
  exact .of_drive hst (hd h hst hx hr hp)

theorem stack_leave (e : Ending) : (h.leave sid e).stack = h.stack.tail := by
  unfold leave; dsimp only
  split
  · rfl
  · rfl
  · split <;> rfl

theorem Halting.closing (hl : Halting l) (e : Ending) : HaltsIn l sid (.closing e) := by
  refine .of_drive fun h hst hx hr hp => ?_
  simp only [drive, hr, hp]
  exact hl _ (by rw [stack_leave, hst]; rfl)

theorem Halting.conclude (hl : Halting l) (hst : h.stack = .driving sid :: l)
    (hx : h.stance sid = (p, none)) (hp : p.isStill = false) (e : Ending) : Halts (h.conclude sid e) :=
  .of_release (hl.closing e) (h := (h.note (.ending sid e)).setPhase sid (.closing e)) hst
    (stance_setPhase (h := h.note (.ending sid e)) hx hp _)

theorem Halts.of_setPhase (hq : HaltsIn l sid q) (hst : h.stack = .driving sid :: l)
    (hx : h.stance sid = (p, none)) (hp : p.isStill = false) : Halts (h.setPhase sid q) :=
  hq _ hst (stance_setPhase hx hp q)

theorem Halts.of_begin {k : HookId} {arg : Argument} : Halts (h.begin sid k arg) :=
  .of_top (stack_push _ _) rfl

theorem Halting.handling (hl : Halting l) (ks : List HookId) (arg : Argument) (e : Ending) :
    HaltsIn l sid (.handling ks arg e) := by
  refine .of_drive fun h hst hx hr hp => ?_
  cases ks with
  | nil =>
    simp only [drive, hr, hp]
    exact hl.conclude hst hx rfl e
  | cons k ks =>
    simp only [drive, hr, hp]
    exact .of_begin

theorem Halting.handleFailure (hl : Halting l) (hst : h.stack = .driving sid :: l)
    (hx : h.stance sid = (p, none)) (hp : p.isStill = false) (e : PostError) :
    Halts (h.handleFailure sid e) := by
  unfold Hub.handleFailure
  split
  · exact hl.conclude (h := h.note _) hst hx hp _
  · exact .of_setPhase (h := h.note _) (hl.handling _ _ _) hst hx hp

theorem Halting.resolving (hl : Halting l) {r : Report} (hn : r.claim?.isSome) :
    HaltsIn l sid (.resolving r) := by
  refine .of_drive fun h hst hx hr hp => ?_
  simp only [drive, hr, hp]
  unfold resolve; dsimp only
  cases r with
  | fired s e =>
    dsimp only
    split
    · exact .of_setPhase (h := h.note _) (hl.handling _ _ _) hst hx rfl
    · exact hl.conclude hst hx rfl _
  | timedOut s =>
    dsimp only
    split
    · exact .of_setPhase (h := h.note _) (hl.handling _ _ _) hst hx rfl
    · exact hl.conclude hst hx rfl _
  | lost e => exact hl.handleFailure hst hx rfl _
  | cancelled s => cases hn

theorem Halting.deserted (hl : Halting l) : HaltsIn l sid .deserted := by
  refine .of_drive fun h hst hx hr hp => ?_
  simp only [drive, hr, hp]
  exact hl.conclude hst hx rfl _

/-- A session that waits takes its reports one by one until one decides it or none is left. -/
theorem Halting.awaiting (hl : Halting l) : HaltsIn l sid .awaiting := by
  intro h hst hx
  generalize hrs : (h.session sid).reports = rs
  induction rs generalizing h with
  | nil =>
    obtain ⟨hr, hp⟩ := running_phase_of_stance hx
    refine .of_drive hst ?_
    simp only [drive, hr, hp, await, hrs]
    split
    · exact hl.conclude hst hx rfl _
    · exact hl _ (by rw [stack_reply, pop, hst]; rfl)
  | cons r rs ih =>
    obtain ⟨hr, hp⟩ := running_phase_of_stance hx
    have hi : sid < h.sessions.length := lt_of_not_still (by rw [hx]; rfl)
    have hres : ∀ q : Report, q.claim?.isSome → Halts ((h.onSession sid fun x =>
        { x with reports := rs, phase := .resolving q }).release sid .ended) := by
      intro q hq
      refine .of_release (hl.resolving hq) hst ?_
      rw [stance, session_onSession _ _ _ hi, if_pos rfl]
      exact Prod.ext rfl hr
    refine .of_drive hst ?_
    simp only [drive, hr, hp, await, hrs]
    cases r with
    | cancelled s =>
      dsimp only
      generalize hg : (h.onSession sid fun x => { x with reports := rs }).note (.onCancelled sid s) = g
      have hgst : g.stack = .driving sid :: l := by rw [← hg]; exact hst
      have hgs : g.session sid = { h.session sid with reports := rs } := by
        rw [← hg]; exact (session_onSession _ _ _ hi _).trans (if_pos rfl)
      have hgx : g.stance sid = (.awaiting, none) := by
        rw [stance, hgs]; exact hx
      -- such a report decides only if all are cancelled and nobody has decided; else the next is taken
      split
      · exact .of_release hl.deserted hgst (stance_setPhase hgx rfl _)
      · exact ih g hgst hgx (by rw [hgs])
    | fired s e | timedOut s | lost e => exact hres _ rfl

theorem Halting.preparing (hl : Halting l) (ks : List HookId) : HaltsIn l sid (.preparing ks) := by
  refine .of_drive fun h hst hx hr hp => ?_
  cases ks with
  | nil =>
    simp only [drive, hr, hp]
    split
    · exact .of_setPhase (h := h.note _) hl.awaiting hst hx rfl
    · exact .of_top (stack_push _ _) rfl
  | cons k ks =>
    simp only [drive, hr, hp]
    exact .of_begin

theorem Halting.unready (hl : Halting l) : HaltsIn l sid .unready := by
  refine .of_drive fun h hst hx hr hp => ?_
  simp only [drive, hr, hp]
  exact hl.conclude (h := h.note _) hst hx rfl _

theorem Halting.acknowledging (hl : Halting l) (ks : List HookId) :
    HaltsIn l sid (.acknowledging ks) := by
  refine .of_drive fun h hst hx hr hp => ?_
  cases ks with
  | nil =>
    simp only [drive, hr, hp]
    split
    · exact hl.conclude hst hx rfl _
    · refine .of_setPhase (p := .acknowledging []) hl.awaiting ?_ ?_ rfl
      · split
        · exact hst
        · rw [stack_armAll, hst]
      · split
        · exact hx
        · exact (stance_eq (sessions_armAll _ _)).trans hx
  | cons k ks =>
    simp only [drive, hr, hp]
    exact .of_begin

theorem Halting.checking (hl : Halting l) : HaltsIn l sid .checking := by
  refine .of_drive fun h hst hx hr hp => ?_
  simp only [drive, hr, hp]
  split
  · exact .of_release hl.unready hst (stance_setPhase hx rfl _)
  · split
    · exact .of_setPhase (hl.preparing _) hst hx rfl
    · exact .of_setPhase (hl.preparing _) (by rw [stack_writeBusy, hst])
        ((stance_eq (sessions_writeBusy _ _ _)).trans hx) rfl

/-- A session that runs comes to rest in every phase. -/
theorem Halting.driving (hl : Halting l) (sid : SessionId) : Halting (.driving sid :: l) := by
  intro h hst
  cases hr : (h.session sid).running with
  | some q =>
    refine .of_drive hst ?_
    simp only [drive, hr]
    exact .of_top (stack_push _ _) rfl
  | none =>
    have hpop : h.pop.stack = l := stack_pop hst
    cases hp : (h.session sid).phase with
    | checking => exact hl.checking h hst (Prod.ext hp hr)
    | preparing ks => exact hl.preparing ks h hst (Prod.ext hp hr)
    | acknowledging ks => exact hl.acknowledging ks h hst (Prod.ext hp hr)
    | awaiting => exact hl.awaiting h hst (Prod.ext hp hr)
    | handling ks arg e => exact hl.handling ks arg e h hst (Prod.ext hp hr)
    | unready => exact hl.unready h hst (Prod.ext hp hr)
    | deserted => exact hl.deserted h hst (Prod.ext hp hr)
    | closing e => exact hl.closing e h hst (Prod.ext hp hr)
    | resolving r =>
      cases r with
      | cancelled s =>
        refine .of_drive hst ?_
        simp only [drive, hr, hp]
        exact .of_setPhase hl.awaiting hst (Prod.ext hp hr) rfl
      | fired s e | timedOut s | lost e => exact hl.resolving rfl h hst (Prod.ext hp hr)
    | posting =>
      refine .of_drive hst ?_
      simp only [drive, hr, hp]
      exact .of_top (stack_push _ _) rfl
    | refused e =>
      refine .of_drive hst ?_
      simp only [drive, hr, hp]
      exact hl.handleFailure hst (Prod.ext hp hr) rfl e
    | unheard e =>
      refine .of_drive hst ?_
      simp only [drive, hr, hp]
      exact hl.conclude (h := h.note _) hst (Prod.ext hp hr) rfl _
    | cancelling =>
      refine .of_drive hst ?_
      simp only [drive, hr, hp]
      exact hl.conclude (h := h.note _) hst (Prod.ext hp hr) rfl _
    | dropping =>
      refine .of_drive hst ?_
      simp only [drive, hr, hp]
      exact hl _ (by simp [pop, hst])
    | unopened | configuring | prepared | ended | dropped | forgone =>
      refine .of_drive hst ?_
      simp only [drive, hr, hp]
      exact hl _ hpop

theorem Halting.entering (hl : Halting l) (sid : SessionId) : Halting (.entering sid :: l) := by
  intro h hst
  have hpop : h.pop.stack = l := stack_pop hst
  have hpush : (h.pop.push (.driving sid)).stack = .driving sid :: l := by rw [stack_push, hpop]
  have hstep : h.step = h.enter sid := by unfold step; rw [hst]
  refine .of_step ?_
  rw [hstep]
  unfold enter; dsimp only
  split
  · exact .of_top (f := .configuring sid) rfl rfl
  · split
    · exact .of_releasing (fun k hk (_ : k.stance sid = _) => hl.driving sid k hk)
        (congrArg (_ :: ·) hpush) rfl
    · split
      · exact hl.driving sid _ hpush
      · exact hl.driving sid _ hpush

/-- The hub's own work comes to an end. -/
theorem halts (h : Hub) : Halts h := by
  suffices hl : ∀ l, Halting l from hl _ h rfl
  intro l
  induction l with
  | nil => exact fun h hst => .idle (by rw [isBusy, hst])
  | cons f l ih =>
    intro h hst
    have hpop : h.pop.stack = l := stack_pop hst
    cases f with
    | settlingEvent s e =>
      have hstep : h.step = h.pop.settleEvent s e := by unfold step; rw [hst]
      exact .of_step (ih _ (by rw [hstep, stack_settleEvent, hpop]))
    | settlingTimeout s =>
      have hstep : h.step = h.pop.settleTimeout s := by unfold step; rw [hst]
      exact .of_step (ih _ (by rw [hstep, stack_settleTimeout, hpop]))
    | reportingCancel s =>
      have hstep : h.step = h.pop.reportCancel s := by unfold step; rw [hst]
      exact .of_step (ih _ (by rw [hstep, stack_reportCancel, hpop]))
    | releasing sid rest n => exact .of_releasing (fun k hk _ => ih k hk) hst (rfl : h.stance sid = _)
    | entering sid => exact ih.entering sid h hst
    | driving sid => exact ih.driving sid h hst
    | configuring | subscribing | unsubscribing | hook | posting => exact .of_top hst rfl

end
end Aftermath.Hub
