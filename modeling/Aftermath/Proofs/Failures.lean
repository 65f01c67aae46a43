import Aftermath.Proofs.Order

/-! Failures are loud, and they are handled once. A failure that no hook hears of is the ending of its
session; one that has decided the session is told to every hook of its category, each once and in
order, and to nobody else. -/

namespace Aftermath

def Claim.failure? : Claim → Option PostError
  | .refused p => some p
  | .lost n => some (.network n)
  | _ => none

/-- What has been heard of a session with an ending that tells of a failure. -/
def Tells (hs : Hooks) (b : List Beat) : Ending → Prop
  | .resolved (.errored p) =>
    ∃ o, hs.Opening o ∧ b = o ++ played (hs.forError p).1 (hs.forError p).2
  | .failed (.unhandled _ _) => hs.Opening b
  | _ => True

def Telling (x : Session) (b : List Beat) : Phase → Prop
  | .handling ks arg e => (∃ o, e = .resolved o) ∧ ∀ p, e = .resolved (.errored p) →
      arg = (x.hooks.forError p).2 ∧ ∃ o, x.hooks.Opening o ∧
        Playing o (x.hooks.forError p).1 (x.hooks.forError p).2 ks x.running b
  | .closing e | .ended e => Tells x.hooks b e
  | _ => True

/-- A phase of a session whose post failed with nobody to hear of it. -/
def Phase.Fails (p : PostError) : Phase → Prop
  | .refused q | .unheard q => q = p
  | .closing e | .ended e => e = .failed (.unhandled p.category p.text)
  | .dropping | .dropped => True
  | _ => False

section
variable {p : PostError}

theorem Phase.Fails.not_hooking {q : Phase} (hq : q.Fails p) : q.isHooking = false := by
  cases q <;> first | rfl | cases hq

theorem Phase.Fails.no_next {q : Phase} (hq : q.Fails p) : q.next? = none := by
  cases q <;> first | rfl | cases hq

end

namespace Hub

section
variable {h h' : Hub} {sid : SessionId} {m : Move} {x y : View} {p : PostError} {e : Ending}

/-! ### What is told of a failure -/

/-- Nothing is heard of a session before it is configured. -/
theorem Heard.of_unconfigured {z : Session} {b : List Beat} {q : Phase} (hb : Heard h sid z b q)
    (hq : q = .unopened ∨ q = .configuring) : b = [] := by
  rcases hq with rfl | rfl <;> exact hb

/-- The hooks that hear of a failure are found before anybody is told. -/
theorem Handles.telling {ks : List HookId} {arg : Argument} {b : List Beat}
    (hh : Handles h sid x.self ks arg e) (hr : x.self.running = none)
    (ho : x.self.hooks.Opening b) :
    Telling { x.self with phase := .handling ks arg e } b (.handling ks arg e) := by
  cases hh with
  | fired | timedOut =>
    refine ⟨⟨_, rfl⟩, fun p hp => ?_⟩
    first | (split at hp <;> cases hp) | cases hp
  | failure _ hf _ =>
    refine ⟨⟨_, rfl⟩, fun p hp => ?_⟩
    cases hp
    have hplay := Playing.start b ks arg
    refine ⟨by rw [hf], b, ho, ?_⟩
    rw [hf, hr]; exact hplay

/-- A session that closes with a failure has told all who hear of it. -/
theorem Closes.tells {z : Session} {b : List Beat} (hc : Closes h sid z e) (hr : z.running = none)
    (hheard : Heard h sid z b z.phase) (hb : Telling z b z.phase) : Tells z.hooks b e := by
  cases hc with
  | unready | unawaited | unheld | unknown | deserted | cancelling => trivial
  | unhandled hq _ =>
    rcases hq with hq | ⟨n, hq, -⟩ <;> rw [hq] at hheard
    · rw [show b = _ from hheard]; exact .refused
    · exact hheard
  | unheard hq =>
    rw [hq] at hheard
    rw [show b = _ from hheard]; exact .refused
  | handled hq =>
    rw [hq] at hb
    obtain ⟨⟨o, rfl⟩, hb⟩ := hb
    cases o with
    | errored p =>
      obtain ⟨-, o, ho, hplay⟩ := hb p rfl
      rw [hr] at hplay
      exact ⟨o, ho, hplay.full⟩
    | positive | negative => trivial

theorem Drives.telling (hd : Drives h h' sid x y) (hr : x.self.running = none)
    (hheard : Heard h sid x.self x.beats x.self.phase) (hb : Telling x.self x.beats x.self.phase)
    (hopen : ∀ ks arg e, Handles h sid x.self ks arg e → x.self.hooks.Opening x.beats) :
    Telling y.self y.beats y.self.phase := by
  have before : ∀ {q}, x.self.phase = q → Telling x.self x.beats q := fun hq => hq ▸ hb
  cases hd
  case begins hn =>
    unfold Phase.next? at hn
    split at hn <;> cases hn
    · trivial
    · trivial
    · next hq =>
      obtain ⟨ho, hp⟩ := before hq
      refine ⟨ho, fun p hp' => ?_⟩
      obtain ⟨ha, o, ho, hplay⟩ := hp p hp'
      dsimp only at hr
      rw [hr] at hplay
      cases ha
      exact ⟨rfl, o, ho, hplay.begins⟩
  case handles hh => exact hh.telling hr (hopen _ _ _ hh)
  case closes hc _ => exact hc.tells hr hheard hb
  case leaves hq => exact before hq
  case resumes | waits | stops => exact hb
  case dismisses hq _ _ =>
    dsimp only
    rw [hq]; trivial
  all_goals trivial

/-- Every turn keeps to what is told of a failure. -/
theorem Turn.telling (ht : Turn h h' sid x y) (hf : Fits sid x.self.phase x.self.running x.thread)
    (hheard : Heard h sid x.self x.beats x.self.phase) (hb : Telling x.self x.beats x.self.phase)
    (hopen : ∀ ks arg e, Handles h sid x.self ks arg e → x.self.hooks.Opening x.beats) :
    Telling y.self y.beats y.self.phase := by
  have before : ∀ {q}, x.self.phase = q → Telling x.self x.beats q := fun hq => hq ▸ hb
  have same : ∀ {z : Session}, z.phase = x.self.phase → z.hooks = x.self.hooks →
      z.running = x.self.running → Telling z x.beats z.phase := by
    intro z hq hh hr
    rw [hq]
    cases hx : x.self.phase <;> have hb := before hx <;> simp only [Telling, hh, hr] at hb ⊢ <;>
      exact hb
  cases ht
  case opens | prepares | configured | aborts | drops | acknowledged | refused | unheard | belated =>
    trivial
  case hooks x t b k slot =>
    have hq : x.phase = .configuring := hf.of_configuring.1
    show Telling _ b x.phase
    rw [hq]; trivial
  case enters x t b _ _ =>
    dsimp only
    split
    · trivial
    · exact same rfl rfl rfl
  case forgets =>
    dsimp only
    split <;> trivial
  case drives hr hd => exact hd.telling hr hheard hb hopen
  case ends x t b k arg =>
    obtain ⟨-, hp, hr⟩ := hf.of_hook
    dsimp only at hp hr ⊢
    cases hq : x.phase with
    | handling ks a e =>
      obtain ⟨ho, hplay⟩ := before hq
      refine ⟨ho, fun p hp' => ?_⟩
      obtain ⟨ha, o, ho, hplay⟩ := hplay p hp'
      rw [hr] at hplay
      exact ⟨ha, o, ho, hplay.ends⟩
    | closing e | ended e => rw [hq] at hp; cases hp
    | _ => trivial
  case breaks he _ => rcases he with ⟨_, rfl⟩ | ⟨_, rfl⟩ <;> trivial
  all_goals exact same rfl rfl rfl

theorem Reachable.telling (hr : Reachable h) (sid : SessionId) :
    Telling (h.session sid) (h.beats sid) (h.session sid).phase := by
  induction hr using Reachable.induct with
  | init settings => trivial
  | move a b m ha hm ih =>
    exact (move_turn ha.wired (moved_of_move? hm) sid).telling (ha.fits sid) (ha.heard sid) ih
      fun ks arg e hh => (Handles.path ha hh (ha.heard sid) rfl).1

/-! ### Failures of the post -/

/-- The post that has decided a session was heard to fail. -/
theorem Turn.refused_cases (ht : Turn h h' sid x y) (hc : y.self.claim = some (.refused p)) :
    x.self.claim = some (.refused p) ∨ .refused p ∈ y.beats := by
  cases ht
  case opens => cases hc
  case decides r c _ hr _ =>
    cases hc
    cases r <;> cases hr
  case withdrawn | aborts | drops | breaks => exact .inl (claim_of_settled_ne hc (by simp))
  case refused =>
    cases hc
    exact .inr (List.mem_append_right _ List.mem_cons_self)
  case drives hd =>
    cases hd
    case fails | deserted => cases hc
    case resolves | closes => exact .inl (claim_of_settled_ne hc (by simp))
    all_goals exact .inl hc
  all_goals exact .inl hc

theorem Reachable.refused_of_claim (hr : Reachable h)
    (hc : (h.session sid).claim = some (.refused p)) : .refused p ∈ h.beats sid := by
  induction hr using Reachable.induct with
  | init settings => cases hc
  | move a b m ha hm ih =>
    have hm := moved_of_move? hm
    rcases (move_turn ha.wired hm sid).refused_cases hc with hc | hb
    · exact (beats_move ha hm sid).subset (ih hc)
    · exact hb

theorem Handles.not_fails {ks : List HookId} {arg : Argument} {z : Session}
    (hh : Handles h sid z ks arg e) (hn : (z.hooks.forError p).1 = []) : ¬ z.phase.Fails p := by
  intro hq
  cases hh with
  | fired hp _ | timedOut hp _ => rw [hp] at hq; exact hq
  | failure hp hf hne =>
    rcases hp with hp | ⟨n, hp, -⟩
    · rw [hp] at hq
      cases (show _ = p from hq)
      rw [hf] at hn
      exact hne hn
    · rw [hp] at hq; exact hq

theorem Closes.fails {z : Session} (hc : Closes h sid z e) (hq : z.phase.Fails p) :
    e = .failed (.unhandled p.category p.text) := by
  cases hc with
  | unready hp | unawaited hp _ | unheld hp _ _ | deserted hp | handled hp | cancelling hp =>
    rw [hp] at hq; exact hq.elim
  | unknown hp _ => rcases hp with ⟨e, hp⟩ | hp <;> rw [hp] at hq <;> exact hq.elim
  | unhandled hp _ =>
    rcases hp with hp | ⟨n, hp, -⟩
    · rw [hp] at hq
      cases (show _ = p from hq); rfl
    · rw [hp] at hq; exact hq.elim
  | unheard hp =>
    rw [hp] at hq
    cases (show _ = p from hq); rfl

/-- A session that fails goes on to its ending, if nobody gives it up. -/
theorem Drives.fails_on (hd : Drives h h' sid x y) (hn : (x.self.hooks.forError p).1 = [])
    (hq : x.self.phase.Fails p) : y.self.phase.Fails p := by
  cases hd
  case begins hnext => exact absurd (hq.no_next.symm.trans hnext) nofun
  case handles hh => exact absurd hq (hh.not_fails hn)
  case closes hc _ => exact hc.fails hq
  case leaves he => rw [show Session.phase _ = _ from he] at hq; exact hq
  case vanishes => trivial
  case resumes | waits | dismisses | stops => exact hq
  all_goals simp_all [Phase.Fails]

theorem Turn.fails_on (ht : Turn h h' sid x y)
    (hf : Fits sid x.self.phase x.self.running x.thread)
    (hn : (x.self.hooks.forError p).1 = []) (hq : x.self.phase.Fails p) :
    y.self.cancelled ∨ y.self.phase.Fails p := by
  cases ht
  case opens => exact hq.elim
  case prepares he _ => rw [show Session.phase _ = _ from he] at hq; exact hq.elim
  case configured => rw [hf.of_configuring.1] at hq; exact hq.elim
  case enters =>
    dsimp only at hq ⊢
    split
    · next he => rw [he] at hq; exact hq.elim
    · exact .inr hq
  case aborts hc => exact .inl hc
  case drops => exact .inr trivial
  case forgets =>
    dsimp only at hq ⊢
    split
    · next he => rw [he] at hq; exact hq.elim
    · exact .inr trivial
  case drives hd => exact .inr (hd.fails_on hn hq)
  case breaks => exact absurd (hq.not_hooking.symm.trans hf.of_hook.2.1) Bool.false_ne_true
  case acknowledged | refused | unheard | belated => rw [hf.of_posting.2.1] at hq; exact hq.elim
  all_goals exact .inr hq

/-- A post that fails is heard of by a hook, or the session fails with it. -/
theorem Turn.fails_cases (ht : Turn h h' sid x y) (hb : .refused p ∈ y.beats) :
    .refused p ∈ x.beats ∨ y.self.phase.Fails p ∨ (y.self.hooks.forError p).1 ≠ [] := by
  cases ht
  case ends | acknowledged => exact .inl ((List.mem_append.1 hb).resolve_right (by simp))
  case refused | unheard =>
    refine (List.mem_append.1 hb).imp id fun hin => ?_
    cases List.mem_singleton.1 hin
    exact .inl rfl
  case belated hne =>
    refine (List.mem_append.1 hb).imp id fun hin => ?_
    cases List.mem_singleton.1 hin
    exact .inr hne
  case drives hd =>
    cases hd
    case begins | posts => exact .inl ((List.mem_append.1 hb).resolve_right (by simp))
    all_goals exact .inl hb
  all_goals exact .inl hb

/-- A post that failed with nobody to hear of it is what the session ends with, if it is not
cancelled. -/
theorem Reachable.fails (hr : Reachable h) (hb : .refused p ∈ h.beats sid)
    (hn : ((h.session sid).hooks.forError p).1 = []) :
    (h.session sid).cancelled ∨ (h.session sid).phase.Fails p := by
  induction hr using Reachable.induct with
  | init settings => cases hb
  | move a b m ha hm ih =>
    have hm := moved_of_move? hm
    have ht := move_turn ha.wired hm sid
    rcases ht.fails_cases hb with hb | hq | hne
    · have hnew : ¬ ((a.session sid).phase = .unopened ∨ (a.session sid).phase = .configuring) := by
        intro hq
        have hnone : a.beats sid = [] := (ha.heard sid).of_unconfigured hq
        rw [view_beats, hnone] at hb
        cases hb
      rw [hooks_move ha hm fun hq => hnew (.inr hq)] at hn
      rcases ih hb hn with hc | hq
      · exact .inl (cancelled_move ha hm (fun hq => hnew (.inl hq)) hc)
      · exact ht.fails_on (ha.fits sid) hn hq
    · exact .inr hq
    · exact absurd hn hne

/-! ### Endings with a failure -/

def Heeded (h : Hub) (sid : SessionId) : Prop :=
  ∀ q, .refused q ∈ h.beats sid → ((h.session sid).hooks.forError q).1 ≠ []

/-- A failure has reached a session: its post returned it, or it decided the session and the post
did not fail with nobody to hear of it. -/
def Reached (h : Hub) (sid : SessionId) (p : PostError) : Prop :=
  .refused p ∈ h.beats sid ∨
    (h.session sid).claim.bind Claim.failure? = some p ∧ Heeded h sid

/-- What is known of an ended session whose post failed with nobody to hear of it. -/
theorem Reachable.ended_unheard (hr : Reachable h) (hp : (h.session sid).phase = .ended e)
    (hc : (h.session sid).cancelled = false) (hb : .refused p ∈ h.beats sid)
    (hn : ((h.session sid).hooks.forError p).1 = []) :
    e = .failed (.unhandled p.category p.text) := by
  rcases hr.fails hb hn with hx | hq
  · exact absurd (hc.symm.trans hx) Bool.false_ne_true
  · rw [hp] at hq; exact hq

/-- What a session ends with that was decided by a failure. -/
theorem Reachable.ended_failure (hr : Reachable h) (hp : (h.session sid).phase = .ended e)
    (hc : (h.session sid).cancelled = false) (hb : e.isBroken = false)
    (hcl : (h.session sid).claim.bind Claim.failure? = some p) (hh : Heeded h sid) :
    e = if ((h.session sid).hooks.forError p).1 = [] then .failed (.unhandled p.category p.text)
      else .resolved (.errored p) := by
  obtain ⟨c, hcl, hcp⟩ := Option.bind_eq_some_iff.1 hcl
  have hj := hr.judged sid
  unfold Judged at hj
  simp only [hp] at hj
  rcases hj with hx | hx | ⟨d, hd, hj⟩
  · exact absurd (hc.symm.trans hx) Bool.false_ne_true
  · exact absurd (hb.symm.trans hx) Bool.false_ne_true
  · obtain rfl : c = d := Option.some.inj (hcl.symm.trans hd)
    rcases hj with hj | hj
    · cases hj with
      | lost hn | refused hn => cases hcp; exact (if_neg hn).symm
      | lostUnheard hn | refusedUnheard hn => cases hcp; exact (if_pos hn).symm
      | _ => cases hcp
    · cases hj with
      | unheard _ hin hn => exact absurd hn (hh _ hin)
      | unawaited => cases hcp

/-- A session that ends with a failure was reached by it, and it is handled as its category demands. -/
theorem Reachable.failure_of_ended (hr : Reachable h) (hp : (h.session sid).phase = .ended e)
    (hc : (h.session sid).cancelled = false) (hb : e.isBroken = false) :
    (∀ c d, e = .failed (.unhandled c d) → ∃ p, ((h.session sid).hooks.forError p).1 = [] ∧
      p.category = c ∧ p.text = d ∧ Reached h sid p) ∧
    ∀ p, e = .resolved (.errored p) → (h.session sid).claim.bind Claim.failure? = some p ∧
      ((h.session sid).hooks.forError p).1 ≠ [] ∧ Heeded h sid := by
  have hj := hr.judged sid
  unfold Judged at hj
  simp only [hp] at hj
  have heeded : ∀ o, e = .resolved o → Heeded h sid := by
    rintro o rfl q hq hn
    cases hr.ended_unheard hp hc hq hn
  rcases hj with hx | hx | ⟨c, hcl, hj⟩
  · exact absurd (hc.symm.trans hx) Bool.false_ne_true
  · exact absurd (hb.symm.trans hx) Bool.false_ne_true
  constructor
  · rintro a b rfl
    rcases hj with hj | hj
    · cases hj with
      | @lostUnheard n hn =>
        by_cases hh : Heeded h sid
        · exact ⟨.network n, hn, rfl, rfl, .inr ⟨by rw [hcl]; rfl, hh⟩⟩
        · obtain ⟨q, hq⟩ := Classical.not_forall.1 hh
          obtain ⟨hq, hne⟩ := Classical.not_imp.1 hq
          have hqn := Classical.not_not.1 hne
          have he := hr.ended_unheard hp hc hq hqn
          simp only [Ending.failed.injEq, Failure.unhandled.injEq] at he
          exact ⟨q, hqn, he.1.symm, he.2.symm, .inl hq⟩
      | @refusedUnheard q hn => exact ⟨q, hn, rfl, rfl, .inl (hr.refused_of_claim hcl)⟩
    · cases hj with
      | @unheard _ q _ hin hn => exact ⟨q, hn, rfl, rfl, .inl hin⟩
  · rintro p rfl
    rcases hj with hj | hj
    · cases hj with
      | lost hn | refused hn => exact ⟨by rw [hcl]; rfl, hn, heeded _ rfl⟩
    · cases hj

/-- Failures are loud, and they are handled once. A session that comes to its end without a
cancellation and without a failing hook ends unhandled with the failure that reached it and has no
hook, and nobody was told; it ends with a failure that is handled where that failure decided it and all
errors of its post are heard, and then every hook of its category has run, each once, in order and with
the failure, and nobody else was told. -/
theorem failures_are_loud (hr : Reachable h) (hp : (h.session sid).phase = .ended e)
    (hc : (h.session sid).cancelled = false) (hb : e.isBroken = false) :
    (∀ c d, e = .failed (.unhandled c d) ↔ ∃ p, ((h.session sid).hooks.forError p).1 = [] ∧
      p.category = c ∧ p.text = d ∧ Reached h sid p) ∧
    (∀ c d, e = .failed (.unhandled c d) → told (h.beats sid) = []) ∧
    (∀ p, e = .resolved (.errored p) ↔ (h.session sid).claim.bind Claim.failure? = some p ∧
      ((h.session sid).hooks.forError p).1 ≠ [] ∧ Heeded h sid) ∧
    ∀ p, e = .resolved (.errored p) → ∃ o, told o = [] ∧ h.beats sid =
      o ++ played ((h.session sid).hooks.forError p).1 ((h.session sid).hooks.forError p).2 := by
  have hto := hr.failure_of_ended hp hc hb
  have htell := hr.telling sid
  rw [hp] at htell
  refine ⟨fun c d => ⟨hto.1 c d, ?_⟩, ?_, fun p => ⟨hto.2 p, ?_⟩, ?_⟩
  · rintro ⟨p, hn, rfl, rfl, hin | ⟨hcl, hh⟩⟩
    · exact hr.ended_unheard hp hc hin hn
    · rw [hr.ended_failure hp hc hb hcl hh, if_pos hn]
  · rintro c d rfl
    exact Hooks.Opening.told htell
  · rintro ⟨hcl, hn, hh⟩
    rw [hr.ended_failure hp hc hb hcl hh, if_neg hn]
  · rintro p rfl
    obtain ⟨o, ho, hbeats⟩ := htell
    exact ⟨o, ho.told, hbeats⟩

end

/-- A session with two hooks for errors of the server posts its command, and the server refuses it. -/
def serverRefuses : List Move :=
  [.openSession none none, .run 0, .step, .addHook .serverError 1, .addHook .serverError 2,
    .configured, .step, .step, .step, .postReplied (.failed (.server ⟨"", none⟩)), .step, .step, .step,
    .hookReplied .done, .step, .hookReplied .done] ++ List.replicate 3 .step

theorem refused_post_is_loud : ∃ h o, Reachable h ∧
    (h.session 0).phase = .ended (.resolved (.errored (.server ⟨"", none⟩))) ∧ told o = [] ∧
    h.beats 0 = o ++ played [1, 2] (.server ⟨"", none⟩) := by
  obtain ⟨h, hr, hp, hc, hk⟩ := Reachable.exists_of_run {} serverRefuses
    (fun h => (h.session 0).phase = .ended (.resolved (.errored (.server ⟨"", none⟩))) ∧
      (h.session 0).cancelled = false ∧ (h.session 0).hooks.serverError = [1, 2]) (by decide)
  obtain ⟨o, ho, hb⟩ := (failures_are_loud hr hp hc rfl).2.2.2 _ rfl
  rw [Hooks.forError, hk] at hb
  exact ⟨h, o, hr, hp, ho, hb⟩

end Hub
end Aftermath
