import Aftermath.Proofs.Quiet.Abort
import Aftermath.Proofs.Rest
import Aftermath.Proofs.Sweep
import Aftermath.Proofs.Turn.Origin

/-! A session that is cancelled as a whole while nothing has decided it. No handler of it ever runs, it
posts nothing more, and it ends cancelled unless a hook of its own breaks it off. -/

namespace Aftermath

/-- Nothing has decided the session, but perhaps it was cancelled as a whole. -/
def Session.Free (x : Session) : Prop := ∀ c, x.claim = some c → c = .cancelled

/-- A session in such a phase has only its ending before it when it is cancelled. -/
def Phase.isUnused : Phase → Bool
  | .configuring | .prepared | .cancelling | .closing _ | .ended _ | .dropping | .dropped
  | .forgone => true
  | _ => false

theorem Phase.isUnused_of_not_begun {p : Phase} (hu : p ≠ .unopened) (hp : p.isBegun = false) :
    p.isUnused := by
  cases p <;> first | rfl | exact absurd rfl hu | cases hp

theorem Phase.not_unused_of_next {p q : Phase} {k : HookId} {arg : Argument}
    (hn : p.next? = some (k, arg, q)) : p.isUnused = false := by
  unfold next? at hn
  split at hn <;> first | rfl | cases hn

namespace Hub

section
variable {h h' : Hub} {sid : SessionId} {m : Move} {k : HookId} {arg : Argument} {e : Ending}
variable {p : PostError}

theorem free_before (ha : Reachable h) (hm : Moved h m h') (hf : (h'.session sid).Free) :
    (h.session sid).Free := fun c hc => hf c (claim_move ha hm hc)

theorem Judged.not_resolving (hj : Judged h sid) (hf : (h.session sid).Free) (r : Report) :
    (h.session sid).phase ≠ .resolving r := by
  intro hp
  unfold Judged at hj
  simp only [hp] at hj
  obtain ⟨hr, hc⟩ := hj
  obtain ⟨c, hrc⟩ := Option.isSome_iff_exists.1 hr
  obtain rfl := hf c (hc.trans hrc)
  cases r <;> cases hrc

theorem Judged.not_refused (hj : Judged h sid) (hf : (h.session sid).Free) (p : PostError) :
    (h.session sid).phase ≠ .refused p := by
  intro hp
  unfold Judged at hj
  simp only [hp] at hj
  cases hf _ hj

theorem Judged.not_handles (hj : Judged h sid) (hf : (h.session sid).Free) {ks : List HookId} :
    ¬ Handles h sid (h.session sid) ks arg e := by
  intro hh
  rcases hh.phase_cases with ⟨r, hp⟩ | ⟨p, hp⟩
  · exact hj.not_resolving hf r hp
  · exact hj.not_refused hf p hp

/-- No handler runs in a session that nothing has decided. -/
theorem Reachable.not_handling (hr : Reachable h) (hf : (h.session sid).Free) {ks : List HookId} :
    (h.session sid).phase ≠ .handling ks arg e := by
  induction hr using Reachable.induct generalizing ks with
  | init settings => nofun
  | move a b m ha hm ih =>
    have hm := moved_of_move? hm
    have hfa := free_before ha hm hf
    intro hp
    rcases (move_turn ha.wired hm sid).handling_cases hp with ⟨l, hp⟩ | hh
    · exact ih hfa hp
    · exact (ha.judged sid).not_handles hfa hh

/-- The hooks that run in such a session are called with nothing. -/
theorem Reachable.begins_nothing (hr : Reachable h) (hf : (h.session sid).Free)
    (hb : .begins k arg ∈ h.beats sid) : arg = .nothing := by
  induction hr using Reachable.induct with
  | init settings => cases hb
  | move a b m ha hm ih =>
    have hm := moved_of_move? hm
    have hfa := free_before ha hm hf
    rcases (move_turn ha.wired hm sid).begins_cases hb with hb | ⟨q, hq⟩
    · exact ih hfa hb
    · unfold Phase.next? at hq
      split at hq
      · cases hq; rfl
      · cases hq; rfl
      · next hp => exact absurd hp (ha.not_handling hfa)
      · cases hq

/-- The ending of a session that nobody has decided is open. -/
theorem Reachable.not_ending (hr : Reachable h) (hn : (h.session sid).claim = none) :
    ¬ ((h.session sid).phase = .closing e ∨ (h.session sid).phase = .ended e) := by
  induction hr using Reachable.induct with
  | init settings => rintro (hp | hp) <;> cases hp
  | move a b m ha hm ih =>
    have hm := moved_of_move? hm
    intro hp
    rcases (move_turn ha.wired hm sid).ending_cases hp with hp | ⟨hs, -⟩
    · exact ih (claim_none ha hm hn) hp
    · rw [Session.isSettled, show (b.view sid).self.claim = none from hn] at hs
      cases hs

/-- A session that has been decided has been opened. -/
theorem Reachable.opened_of_claim (hr : Reachable h) {c : Claim} (hc : (h.session sid).claim = some c) :
    (h.session sid).phase ≠ .unopened := by
  intro hp
  have hj := hr.judged sid
  unfold Judged at hj
  simp only [hp, hc] at hj
  cases hj.1

/-- A post fails for nobody to hear only after the decision. -/
theorem Reachable.not_unheard (hr : Reachable h) (hn : (h.session sid).claim = none) :
    (h.session sid).phase ≠ .unheard p := by
  intro hp
  have hj := hr.judged sid
  unfold Judged at hj
  simp only [hp] at hj
  obtain ⟨-, -, c, hc, -⟩ := hj
  exact nomatch hn.symm.trans hc

/-- A session that is decided and cancelled starts no post and resumes none. -/
theorem posting_before (ha : Reachable h) (hm : Moved h m h') {c : Claim}
    (hx : (h.session sid).claim = some c) (hc : (h.session sid).cancelled)
    (hp : (h'.session sid).phase = .posting) (hd : .driving sid ∈ h'.thread sid) :
    (h.session sid).phase = .posting ∧ .driving sid ∈ h.thread sid := by
  rcases (move_turn ha.wired hm sid).posting_cases hp hd with hold | hn | hn
  · exact hold
  · exact absurd (hn.symm.trans hx) nofun
  · exact absurd (hn.symm.trans hc) Bool.false_ne_true

/-! ### After the cancellation -/

theorem Handles.not_unused {z : Session} {ks : List HookId} (hh : Handles h sid z ks arg e) :
    z.phase.isUnused = false := by
  rcases hh.phase_cases with ⟨r, hp⟩ | ⟨p, hp⟩ <;> rw [hp] <;> rfl

/-- A session that is cancelled before it has run does not run any more. -/
theorem Turn.unused {x y : View} (ht : Turn h h' sid x y)
    (hf : Fits sid x.self.phase x.self.running x.thread) (hc : x.self.cancelled)
    (hx : x.self.phase.isUnused) : y.self.phase.isUnused := by
  cases ht
  case opens => cases hx
  case prepares | configured | aborts | drops | breaks => rfl
  case enters hn => exact absurd (hn.symm.trans hc) Bool.false_ne_true
  case forgets =>
    dsimp only
    split <;> rfl
  case acknowledged | refused | unheard | belated => rw [hf.of_posting.2.1] at hx; cases hx
  case drives hd =>
    cases hd
    case begins hn => exact absurd ((Phase.not_unused_of_next hn).symm.trans hx) Bool.false_ne_true
    case handles hh => exact absurd (hh.not_unused.symm.trans hx) Bool.false_ne_true
    case closes | leaves | vanishes => rfl
    case resumes | waits | dismisses | stops => exact hx
    all_goals simp_all [Phase.isUnused]
  all_goals exact hx

/-- The post of the session failed, no hook hears of such failures, and that is its ending. -/
def Unheard (h : Hub) (sid : SessionId) (e : Ending) : Prop :=
  ∃ p, .refused p ∈ h.beats sid ∧ ((h.session sid).hooks.forError p).1 = [] ∧
    e = .failed (.unhandled p.category p.text)

/-- A session that was cancelled as a whole before anything else decided it; `posting` tells whether it
was running its post then. -/
structure Withdrawn (h : Hub) (sid : SessionId) (posting : Prop) : Prop where
  claim : (h.session sid).claim = some .cancelled
  cancelled : (h.session sid).cancelled
  used : (h.session sid).members ≠ [] ∨ (h.session sid).phase.isUnused
  doomed : Doomed h sid
  post : (h.session sid).phase = .posting → .driving sid ∈ h.thread sid → posting
  unheard : ∀ p, (h.session sid).phase = .unheard p → posting
  ending : ∀ e, (h.session sid).phase = .closing e ∨ (h.session sid).phase = .ended e →
    e = .resolved (.negative .cancelled) ∨ e.isBroken ∨ posting ∧ Unheard h sid e

variable {posting : Prop}

theorem Withdrawn.free (hw : Withdrawn h sid posting) : (h.session sid).Free := by
  intro c hc
  exact Option.some.inj (hc.symm.trans hw.claim)

theorem Unheard.move (ha : Reachable h) (hm : Moved h m h')
    (hp : (h.session sid).phase ≠ .configuring) (hu : Unheard h sid e) : Unheard h' sid e := by
  obtain ⟨p, hb, hn, he⟩ := hu
  exact ⟨p, (beats_move ha hm sid).subset hb, by rw [hooks_move ha hm hp]; exact hn, he⟩

theorem Closes.not_configuring {x : Session} (hc : Closes h sid x e) : x.phase ≠ .configuring := by
  cases hc with
  | unready hp | unawaited hp _ | unheld hp _ _ | unheard hp | deserted hp | handled hp
  | cancelling hp => rw [hp]; nofun
  | unknown hp _ => obtain ⟨e, hp⟩ | hp := hp <;> rw [hp] <;> nofun
  | unhandled hp _ => obtain hp | ⟨n, hp, -⟩ := hp <;> rw [hp] <;> nofun

/-- A session that a cancellation has decided closes as cancelled, or after a post that nobody hears of,
or, without subscriptions, after its last acknowledge hook. -/
theorem closes_of_cancelled (hr : Reachable h) (hx : (h.session sid).claim = some .cancelled)
    (hc : Closes h sid (h.session sid) e) : e = .resolved (.negative .cancelled) ∨
      (∃ p, (h.session sid).phase = .unheard p) ∧ Unheard h sid e ∨
      (h.session sid).phase = .acknowledging [] ∧ (h.session sid).members = [] ∧
        e = .resolved (.positive none) := by
  have hf : (h.session sid).Free := fun c hc => Option.some.inj (hc.symm.trans hx)
  have hj := hr.judged sid
  have hj' := hj
  unfold Judged at hj'
  cases hc with
  | unready hp =>
    simp only [hp, hx] at hj'
    cases hj'
  | unawaited hp hn => exact .inr (.inr ⟨hp, hn, rfl⟩)
  | unheld | deserted | cancelling => exact .inl rfl
  | unknown hp _ =>
    rcases hp with ⟨e, hp⟩ | hp
    · exact absurd hp (hj.not_resolving hf _)
    · exact absurd hp (hj.not_resolving hf _)
  | unhandled hp _ =>
    rcases hp with hp | ⟨n, hp, -⟩
    · exact absurd hp (hj.not_refused hf _)
    · exact absurd hp (hj.not_resolving hf _)
  | unheard hp =>
    simp only [hp] at hj'
    exact .inr (.inl ⟨⟨_, hp⟩, _, hj'.2.1, hj'.1, rfl⟩)
  | handled hp => exact absurd hp (hr.not_handling hf)

/-- A session that was cancelled closes as cancelled, or after a post that nobody hears of. -/
theorem Withdrawn.closes (hr : Reachable h) (hw : Withdrawn h sid posting)
    (hc : Closes h sid (h.session sid) e) :
    e = .resolved (.negative .cancelled) ∨ posting ∧ Unheard h sid e := by
  rcases closes_of_cancelled hr hw.claim hc with he | ⟨⟨p, hp⟩, hu⟩ | ⟨hp, hn, -⟩
  · exact .inl he
  · exact .inr ⟨hw.unheard p hp, hu⟩
  · rcases hw.used with hm | hq
    · exact absurd hn hm
    · rw [hp] at hq; cases hq

theorem Withdrawn.move (ha : Reachable h) (hm : Moved h m h') (hw : Withdrawn h sid posting) :
    Withdrawn h' sid posting := by
  have ht := move_turn ha.wired hm sid
  have hu := ha.opened_of_claim hw.claim
  refine ⟨claim_move ha hm hw.claim, cancelled_move ha hm hu hw.cancelled, ?_, hw.doomed.move ha hm,
    fun hp hth => ?_, fun p hp => ?_, fun e hp => ?_⟩
  · rcases hw.used with hn | hq
    · obtain ⟨s, hs⟩ := List.exists_mem_of_ne_nil _ hn
      exact .inl (List.ne_nil_of_mem (members_move ha hm hs))
    · exact .inr (ht.unused (ha.fits sid) hw.cancelled hq)
  · obtain ⟨hp, hth⟩ := posting_before ha hm hw.claim hw.cancelled hp hth
    exact hw.post hp hth
  · rcases ht.unheard_cases (ha.fits sid) hp with hp | ⟨hp, hth⟩
    · exact hw.unheard p hp
    · exact hw.post hp hth
  · rcases ht.ending_cases hp with hold | ⟨-, ⟨hc, -⟩ | hb⟩
    · have hne : (h.session sid).phase ≠ .configuring := by
        rcases hold with hp | hp <;> rw [show (h.session sid).phase = _ from hp] <;> nofun
      exact (hw.ending e hold).imp id (Or.imp id (And.imp id (Unheard.move ha hm hne)))
    · exact (hw.closes ha hc).imp id fun hu => .inr (hu.imp id (Unheard.move ha hm hc.not_configuring))
    · exact .inr (.inl hb)

theorem cancelAll_of_move? (hm : h.move? (.cancelAll sid) = some h') :
    sid < h.sessions.length ∧ (h.session sid).phase ≠ .unopened ∧ h' = h.cancelAll sid := by
  cases moved_of_move? hm with
  | cancelAll hr =>
    obtain ⟨hi, hp, -⟩ := isReachable_iff.1 hr
    exact ⟨hi, hp, rfl⟩

theorem run_of_move? (hm : h.move? (.run sid) = some h') :
    sid < h.sessions.length ∧ h' = h.push (.entering sid) := by
  cases moved_of_move? hm with
  | run hr => exact ⟨(mayRun_iff.1 hr).1, rfl⟩

/-- A cancellation decides a session that nobody has decided. -/
theorem session_recalled (hi : sid < h.sessions.length) (hn : (h.session sid).claim = none) :
    (h.cancelAll sid).session sid =
      { h.session sid with cancelled := true, claim := some .cancelled } := by
  rw [session_cancelAll hi, Session.settled]
  dsimp only
  rw [hn, Option.none_or]

theorem thread_cancelAll (hi : sid < h.sessions.length) :
    (h.cancelAll sid).thread sid = h.thread sid := by
  rw [thread, stack_cancelAll hi]
  exact List.filter_cons_of_neg (by simp [Frame.session?])

/-- The cancellation of a session that nobody has decided. -/
theorem Withdrawn.of_cancelAll (hr : Reachable h) (hi : sid < h.sessions.length)
    (hused : (h.session sid).members ≠ [] ∨ (h.session sid).phase.isUnused)
    (hn : (h.session sid).claim = none) :
    Withdrawn (h.cancelAll sid) sid ((h.session sid).phase = .posting ∧ h.isRunning sid) := by
  have hx := session_recalled hi hn
  refine ⟨by rw [hx], by rw [hx], by rw [hx]; exact hused, ⟨by rw [hx]; rfl, fun s hs _ => ?_⟩,
    fun hp hd => ?_, fun p hp => ?_, fun e hp => ?_⟩
  · rw [hx] at hs
    rw [stack_cancelAll hi, toCancel, List.flatMap_cons]
    exact List.mem_append_left _ (by simpa [Frame.toCancel] using hs)
  · rw [hx] at hp
    rw [thread_cancelAll hi] at hd
    exact ⟨hp, isRunning_of_driving hd⟩
  · rw [hx] at hp
    exact absurd hp (hr.not_unheard hn)
  · rw [hx] at hp
    exact absurd hp (hr.not_ending hn)

theorem Withdrawn.later (hr : Reachable h) (hl : Later h h') (hw : Withdrawn h sid posting) :
    Withdrawn h' sid posting := by
  induction hl with
  | refl => exact hw
  | move hl hm ih => exact ih.move (hr.later hl) (moved_of_move? hm)

theorem posts_later (hr : Reachable h) (hs : (h.session sid).isSettled) (hl : Later h h')
    (hb : .posts ∈ h'.beats sid) : .posts ∈ h.beats sid := by
  induction hl with
  | refl => exact hb
  | @move a b m hl hm ih =>
    have hra := hr.later hl
    rcases (move_turn hra.wired (moved_of_move? hm) sid).posts_cases hb with hb | hn
    · exact ih hb
    · obtain ⟨c, hc⟩ := Option.isSome_iff_exists.1 hs
      exact absurd ((hr.claim_lasts hl hc).symm.trans hn) nofun

/-! ### What follows from it -/

/-- How a session fares that was cancelled as a whole in a hub `h` before anything else decided it. -/
structure Fares (h h' : Hub) (sid : SessionId) : Prop where
  /-- Once the release is over nothing is ever active again, and further calls go through at once
  with nothing to cancel. -/
  inactive : h'.isReleasing sid = false → ∀ k, Later h' k → k.activeCount sid = 0 ∧
    ∀ a, k.move? (.cancelAll sid) = some a →
      ∃ b, a.run? (List.replicate ((k.session sid).members.length + 1) .step) = some b ∧
        b.stack = k.stack ∧ b.answer = .count 0
  /-- Only hooks before the post and after its acknowledgement have begun: they are called with
  nothing, and all others are not. -/
  hooks : ∀ k arg, .begins k arg ∈ h'.beats sid → arg = .nothing
  post : .posts ∈ h'.beats sid → .posts ∈ h.beats sid
  ending : ∀ e, (h'.session sid).phase = .ended e →
    e = .resolved (.negative .cancelled) ∨ e.isBroken ∨
      ((h.session sid).phase = .posting ∧ h.isRunning sid) ∧ Unheard h' sid e
  rests : h'.Halts
  resolves : ∀ a, h'.move? (.run sid) = some a → ∃ b, Returns h'.stack a b ∧
    (b.session sid).phase = .ended (.resolved (.negative .cancelled)) ∧ b.beats sid = h'.beats sid

/-- A session that is cancelled as a whole while nobody has decided it, with subscriptions or before it
has run. If the transport does not call back, the call counts the subscriptions that were active and
leaves none; and whatever happens then, the session fares as one that was cancelled. -/
theorem cancelled_as_a_whole (hr : Reachable h) {h₁ : Hub}
    (hm : h.move? (.cancelAll sid) = some h₁)
    (hused : (h.session sid).members ≠ [] ∨ (h.session sid).phase.isBegun = false)
    (hn : (h.session sid).claim = none) :
    h.isReleasing sid = false ∧
    (∃ h₂, Returns h.stack h₁ h₂ ∧ Later h₁ h₂ ∧ h₂.answer = .count (h.activeCount sid) ∧
      h₂.activeCount sid = 0) ∧
    ∀ h', Later h₁ h' → Fares h h' sid := by
  have hr₁ : Reachable h₁ := hr.later (Later.refl.move hm)
  obtain ⟨hi, hu, rfl⟩ := cancelAll_of_move? hm
  have hs := hr.sound hi
  have hw := Withdrawn.of_cancelAll hr hi (hused.imp id (Phase.isUnused_of_not_begun hu)) hn
  have hquiet : h.isReleasing sid = false := by
    refine Bool.eq_false_iff.2 fun hx => ?_
    have hset := hr.releasing hx
    rw [Session.isSettled, hn] at hset
    cases hset
  refine ⟨hquiet, ⟨_, withdrawn_returns, withdrawn_returns.later, hs.answer_withdrawn, ?_⟩,
    fun h' hl => ?_⟩
  · have hspent : Spent (h.withdrawn sid) sid :=
      ⟨by rw [hs.session_withdrawn]; exact Session.isSettled_settled _ _, hs.inactive_withdrawn⟩
    exact hspent.activeCount
  · have hr' := hr₁.later hl
    have hw' := hw.later hr₁ hl
    refine ⟨fun hx k hk => ?_, fun k arg => hr'.begins_nothing hw'.free, fun hb => ?_,
      fun e hp => hw'.ending e (.inr hp), halts h', fun a hm' => ?_⟩
    · have hspent := (hw'.doomed.spent hx).later hr' hk
      refine ⟨hspent.activeCount, fun a hm' => ?_⟩
      obtain ⟨hi', -, rfl⟩ := cancelAll_of_move? hm'
      refine release_runs (stack_cancelAll hi') fun s hin => ?_
      have hsub : (k.cancelAll sid).sub s = k.sub s := sub_eq (subs_revoke : (k.revoke sid).subs = k.subs) s
      rw [hsub]
      exact hspent.inactive s hin
    · have hb₁ := posts_later hr₁ hw.doomed.settled hl hb
      rwa [beats_cancelAll] at hb₁
    · obtain ⟨hi', rfl⟩ := run_of_move? hm'
      obtain ⟨b, hret, he⟩ := (hr'.sound hi').abort (hr'.opened_of_claim hw'.claim) hw'.cancelled
      exact ⟨b, hret, by rw [he.session], he.beats⟩

end

theorem waiting_session_cancelled : ∃ h h₁, Reachable h ∧ h.move? (.cancelAll 0) = some h₁ ∧
    (h.session 0).members ≠ [] ∧ (h.session 0).claim = none ∧ h.isReleasing 0 = false ∧
    (∃ h₂, Returns h.stack h₁ h₂ ∧ Later h₁ h₂ ∧ h₂.answer = .count (h.activeCount 0) ∧
      h₂.activeCount 0 = 0) ∧
    ∀ h', Later h₁ h' → Fares h h' 0 := by
  obtain ⟨h, hr, hmem, hn, hm⟩ := Reachable.exists_of_run {} (oneWaits 0 .event)
    (fun h => (h.session 0).members ≠ [] ∧ (h.session 0).claim = none ∧
      (h.move? (.cancelAll 0)).isSome) (by decide)
  obtain ⟨h₁, hm⟩ := Option.isSome_iff_exists.1 hm
  exact ⟨h, h₁, hr, hm, hmem, hn, cancelled_as_a_whole hr hm (.inl hmem) hn⟩

def postsWith (n : Nat) : List Move :=
  [.openSession none none, .run 0, .step] ++
    (List.range n).flatMap (fun s => [.subscribe default .event, .granted s]) ++
    [.configured, .step, .step, .step]

/-- While the first subscription is cancelled the transport delivers an event to the second one. -/
def deliversMeanwhile : List Move :=
  [.step, .deliver 1 ⟨default, .blank⟩, .unsubscribed, .step, .unsubscribed, .step, .step, .step]

/-- The session is cancelled while it posts, and then the post fails. -/
def failsAfterwards : List Move :=
  [.step, .unsubscribed, .step, .step, .postReplied (.failed (.network ⟨""⟩))] ++
    List.replicate 6 .step

/-- A call does not count what the transport itself has brought to its end meanwhile; and a post that
nobody hears of ends a session that was cancelled while it ran. -/
theorem cancelled_in_the_middle :
    (∃ h h₁ h₂, Reachable h ∧ (h.session 0).claim = none ∧ h.move? (.cancelAll 0) = some h₁ ∧
      h₁.run? deliversMeanwhile = some h₂ ∧ h₂.stack = h.stack ∧ h.activeCount 0 = 2 ∧
      h₂.answer = .count 1) ∧
    ∃ h h₁ h₂, Reachable h ∧ (h.session 0).claim = none ∧ (h.session 0).members ≠ [] ∧
      h.move? (.cancelAll 0) = some h₁ ∧ h₁.run? failsAfterwards = some h₂ ∧
      (h₂.session 0).phase = .ended (.failed (.unhandled .network "network error: ")) := by
  constructor
  · obtain ⟨h, hr, hn, ha, hm⟩ := Reachable.exists_of_run {}
      (postsWith 2 ++ [.postReplied .acknowledged, .step, .step])
      (fun h => (h.session 0).claim = none ∧ h.activeCount 0 = 2 ∧
        (h.move? (.cancelAll 0)).any fun h₁ => (h₁.run? deliversMeanwhile).any fun h₂ =>
          h₂.stack = h.stack ∧ h₂.answer = .count 1) (by decide)
    obtain ⟨h₁, hm, hr₁⟩ := exists_of_any hm
    obtain ⟨h₂, hr₂, he⟩ := exists_of_any hr₁
    obtain ⟨hst, hans⟩ := of_decide_eq_true he
    exact ⟨h, h₁, h₂, hr, hn, hm, hr₂, hst, ha, hans⟩
  · obtain ⟨h, hr, hn, hmem, hm⟩ := Reachable.exists_of_run {} (postsWith 1)
      (fun h => (h.session 0).claim = none ∧ (h.session 0).members ≠ [] ∧
        (h.move? (.cancelAll 0)).any fun h₁ => (h₁.run? failsAfterwards).any fun h₂ =>
          (h₂.session 0).phase = .ended (.failed (.unhandled .network "network error: "))) (by decide)
    obtain ⟨h₁, hm, hr₁⟩ := exists_of_any hm
    obtain ⟨h₂, hr₂, he⟩ := exists_of_any hr₁
    exact ⟨h, h₁, h₂, hr, hn, hmem, hm, hr₂, of_decide_eq_true he⟩

end Hub
end Aftermath
