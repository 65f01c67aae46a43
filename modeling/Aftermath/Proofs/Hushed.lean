import Aftermath.Proofs.Sweep
import Aftermath.Proofs.Turn.Advance

/-! A session acts when it is quiet. What decides it lays a release above its frame before any handler
hears of it, and as long as the release goes on the session waits; so nothing in it is active when a
handler begins. -/

namespace Aftermath

/-- A session in such a phase has taken notice of what decided it: its handlers run or are about to. -/
def Phase.isActing : Phase → Bool
  | .resolving _ | .refused _ | .handling _ _ _ => true
  | _ => false

section
variable {sid : SessionId} {p : Phase} {t : List Frame}

/-- Between its handlers a session that acts has only its own frame. -/
theorem Fits.of_acting (hf : Fits sid p none t) (hp : p.isActing) : t = [.driving sid] := by
  cases hf with
  | drives => rfl
  | rests hr | enters hr _ => cases p <;> first | (cases hp; done) | cases hr
  | configures | opens | posts => cases hp

theorem Phase.not_acting_of_next {p q : Phase} {k : HookId} {arg : Argument}
    (hn : p.next? = some (k, arg, q)) (hq : q.isActing) : p.isActing := by
  unfold next? at hn
  split at hn <;> cases hn <;> exact hq

end

namespace Hub

section
variable {h h' : Hub} {sid : SessionId} {m : Move} {x y : View} {rest : List Frame}

theorem Handles.acting {z : Session} {ks : List HookId} {arg : Argument} {e : Ending}
    (hh : Handles h sid z ks arg e) : z.phase.isActing := by
  rcases hh.phase_cases with ⟨r, hp⟩ | ⟨p, hp⟩ <;> rw [hp] <;> rfl

/-- A session that begins to act has been waiting for a report or for its post. -/
theorem Turn.acting_cases (ht : Turn h h' sid x y)
    (hf : Fits sid x.self.phase x.self.running x.thread) (hx : x.self.phase.isActing = false)
    (hy : y.self.phase.isActing) : y.self.running = none ∧ .driving sid ∈ x.thread ∧
      (x.self.phase = .awaiting ∧ (∃ r rs, x.self.reports = r :: rs ∧ r.claim?.isSome) ∨
        x.self.phase = .posting ∧ x.self.claim = none) := by
  have same : ∀ {q : Phase}, q = x.self.phase → q.isActing → False := fun hq hy => by
    rw [hq] at hy; exact Bool.false_ne_true (hx.symm.trans hy)
  cases ht
  case opens | prepares | configured | aborts | drops | breaks | acknowledged | unheard | belated =>
    cases hy
  case enters =>
    dsimp only at hy
    split at hy
    · cases hy
    · exact (same rfl hy).elim
  case forgets =>
    dsimp only at hy
    split at hy <;> cases hy
  case refused hn =>
    obtain ⟨rfl, hq, hr⟩ := hf.of_posting
    exact ⟨hr, by simp, .inr ⟨hq, hn⟩⟩
  case drives hr hd =>
    cases hd
    case resolves hc hq hrs => exact ⟨hr, List.mem_cons_self, .inl ⟨hq, _, _, hrs, hc⟩⟩
    case begins hn => exact (same rfl (Phase.not_acting_of_next hn hy)).elim
    case handles hh => exact (same rfl hh.acting).elim
    case resumes | waits | dismisses | stops => exact (same rfl hy).elim
    all_goals cases hy
  all_goals exact (same rfl hy).elim

/-! ### The release -/

/-- A release that has just been laid on the frame of its session has everything before it. -/
theorem Sweeping.of_release {g : Hub} (hi : sid < g.sessions.length)
    (hst : g.stack = .driving sid :: rest) (c : Claim) : Sweeping (g.release sid c) sid := by
  have hx : (g.release sid c).session sid = (g.session sid).settled c := by
    have hv := view_release hi sid c
    rw [if_pos rfl] at hv
    exact congrArg View.self hv
  refine ⟨by rw [hx]; exact Session.isSettled_settled _ _, [.releasing sid (g.session sid).members 0],
    rest, by rw [stack_release, hst]; rfl, fun s hs _ => ?_⟩
  rw [hx] at hs
  simpa [toCancel, Frame.toCancel] using (show s ∈ (g.session sid).members from hs)

/-- Nothing is active in a session that a release has left. -/
theorem Sweeping.spent_of_driving (hr : Reachable h) (hst : h.stack = .driving sid :: rest)
    (hs : Sweeping h sid) : Spent h sid where
  settled := hs.settled
  inactive s hin := by
    obtain ⟨above, below, hst', hsw⟩ := hs.sweep
    cases above with
    | nil =>
      refine Bool.eq_false_iff.2 fun hact => ?_
      exact absurd (hsw s hin hact) List.not_mem_nil
    | cons f above =>
      -- a second frame of the session would lie below
      obtain ⟨rfl, hrest⟩ := List.cons.inj (hst.symm.trans hst')
      have hf := hr.fits sid
      rw [thread_of_stack hst rfl] at hf
      have hpop : .driving sid ∈ h.pop.thread sid := by
        simp [thread, pop, hst, hrest, Frame.session?]
      rw [hf.of_driving.1] at hpop
      cases hpop

/-- A session that takes a report that decides it releases its subscriptions first. -/
theorem sweeping_drive (hi : sid < h.sessions.length) (hst : h.stack = .driving sid :: rest)
    (hr : (h.session sid).running = none) (hp : (h.session sid).phase = .awaiting) {r : Report}
    {rs : List Report} (hrs : (h.session sid).reports = r :: rs) (hc : r.claim?.isSome) :
    Sweeping (h.drive sid) sid := by
  simp only [drive, hr, hp, await, hrs]
  cases r with
  | cancelled s => cases hc
  | fired | timedOut | lost => exact .of_release (g := h.onSession sid _) (by simpa using hi) hst _

/-- So does a session whose post has failed; no other reply makes it act. -/
theorem sweeping_postReplied (hi : sid < h.sessions.length) (hst : h.stack = .driving sid :: rest)
    (hn : (h.session sid).claim = none) (hx : (h.session sid).phase.isActing = false) {r : PostReply}
    (hy : ((h.postReplied sid r).session sid).phase.isActing) :
    Sweeping (h.postReplied sid r) sid := by
  cases r with
  | failed e =>
    unfold postReplied; dsimp only
    rw [if_pos (by rw [Session.isSettled, hn]; rfl)]
    exact .of_release (g := (h.note _).setPhase sid _) (by simpa [setPhase] using hi) hst _
  | acknowledged =>
    have hv := view_setPhase (h := h.note (.acknowledged sid)) hi sid
      (.acknowledging (h.session sid).hooks.acknowledge)
    rw [if_pos rfl] at hv
    have hp : ((h.postReplied sid .acknowledged).session sid).phase = _ :=
      congrArg (fun v : View => v.self.phase) hv
    rw [hp] at hy
    cases hy
  | suspended => exact absurd (hx.symm.trans hy) Bool.false_ne_true

/-- A session that begins to act has just been released. -/
theorem sweeping_of_acting (ha : Reachable h) (hm : Moved h m h')
    (hx : (h.session sid).phase.isActing = false) (hy : (h'.session sid).phase.isActing) :
    Sweeping h' sid ∧ (h'.session sid).running = none := by
  have hf := ha.fits sid
  obtain ⟨hr, hd, hcase⟩ := (move_turn ha.wired hm sid).acting_cases hf hx hy
  have hi : sid < h.sessions.length := ha.wired.laid.session_lt (List.mem_filter.1 hd).1 rfl
  have same : (h'.session sid).phase ≠ (h.session sid).phase := fun hs => by
    rw [hs] at hy; exact Bool.false_ne_true (hx.symm.trans hy)
  refine ⟨?_, hr⟩
  rcases stance_or_advances ha hm hd with hs | hs
  · exact absurd (congrArg Prod.fst hs) same
  · cases hs with
    | drive hst =>
      rw [thread_of_stack hst rfl] at hf
      have hn : (h.session sid).running = none := by
        refine Option.not_isSome_iff_eq_none.1 fun hsome => ?_
        have hh := hf.of_driving.2.2 hsome
        rcases hcase with ⟨hp, -⟩ | ⟨hp, -⟩ <;>
          rw [show (h.session sid).phase = _ from hp] at hh <;> cases hh
      rcases hcase with ⟨hp, r, rs, hrs, hc⟩ | ⟨hp, -⟩
      · exact sweeping_drive hi hst hn hp hrs hc
      · have hp : (h.session sid).phase = .posting := hp
        exact absurd (by simp only [drive, hn, hp]; exact hp) same
    | hook hst =>
      rw [thread_of_stack hst rfl] at hf
      have hh := hf.of_hook.2.1
      rcases hcase with ⟨hp, -⟩ | ⟨hp, -⟩ <;>
        rw [show (h.session sid).phase = _ from hp] at hh <;> cases hh
    | @post _ r hst =>
      have hp := (thread_of_stack hst rfl ▸ hf).of_posting.2.1
      rcases hcase with ⟨hq, -⟩ | ⟨-, hn⟩
      · cases hp.symm.trans hq
      · obtain ⟨l, hpop⟩ := ha.driving_below hst (.inl rfl)
        exact sweeping_postReplied (h := h.pop) hi hpop hn hx hy

/-- A session that acts is quiet, or it waits for a release that makes it so. -/
theorem Reachable.hushing (hr : Reachable h) (hp : (h.session sid).phase.isActing) :
    Spent h sid ∨ Sweeping h sid ∧ (h.session sid).running = none := by
  induction hr using Reachable.induct with
  | init settings => cases hp
  | move a b m ha hv ih =>
    have hm := moved_of_move? hv
    cases hx : (a.session sid).phase.isActing with
    | false => exact .inr (sweeping_of_acting ha hm hx hp)
    | true =>
      have spent : Spent a sid → Spent b sid := fun hs => hs.later ha (Later.refl.move hv)
      rcases ih hx with hs | ⟨hs, hn⟩
      · exact .inl (spent hs)
      · have hf := ha.fits sid
        rw [hn] at hf
        have hth := hf.of_acting hx
        rcases stance_or_advances ha hm (hth ▸ List.mem_cons_self) with hst | hadv
        · -- it goes on waiting, its frame where it was
          have hq : (b.session sid).running = none := (congrArg Prod.snd hst).trans hn
          have hf' := (ha.later (Later.refl.move hv)).fits sid
          rw [hq] at hf'
          refine .inr ⟨hs.move ha hm (fun he => ?_) ((hf'.of_acting hp).trans hth.symm), hq⟩
          rw [he] at hx; cases hx
        · cases hadv with
          | drive hst => exact .inl (spent (hs.spent_of_driving ha hst))
          | hook hst | post hst =>
            rw [thread_of_stack hst rfl] at hth
            cases hth

/-- When the frame of a session that acts is on top, the session is quiet. -/
theorem Reachable.hushed (hr : Reachable h) (hst : h.stack = .driving sid :: rest)
    (hp : (h.session sid).phase.isActing) : Spent h sid :=
  (hr.hushing hp).elim id fun hs => hs.1.spent_of_driving hr hst

end
end Hub
end Aftermath
